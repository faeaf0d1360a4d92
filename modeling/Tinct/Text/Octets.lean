/-! Texts and their UTF-8 octets. A text is a list of characters; `octets` writes it, `decode` reads octets
back piece by piece. A piece is a character or a maximal ill-formed run, which stands for one replacement
character, so a damaged source still has a definite number of characters. -/
namespace Tinct

abbrev Text := List Char
abbrev Octets := List UInt8

namespace Text

def octets (t : Text) : Octets := t.flatMap String.utf8EncodeChar

@[simp] theorem octetsNil : octets [] = [] := rfl

@[simp] theorem octetsCons (c : Char) (t : Text) : octets (c :: t) = String.utf8EncodeChar c ++ octets t := rfl

@[simp] theorem octetsAppend (s t : Text) : octets (s ++ t) = octets s ++ octets t := by
  simp [octets]

end Text

namespace Octets

/-- What a started sequence still needs: the next octet from `lo` to `hi`, then `more` continuation octets.
`bits` is the code point so far. -/
structure Pending where
  lo : UInt8
  hi : UInt8
  more : Nat
  bits : Nat
  deriving DecidableEq, Repr

inductive Piece where
  | char (c : Char)
  | damaged
  deriving DecidableEq, Repr

inductive Lead where
  | piece (p : Piece)
  | sequence (p : Pending)
  deriving DecidableEq, Repr

/-- How a sequence starts. The first continuation octet is narrower after some leads: overlong forms,
surrogates and values past the last code point are ill-formed. -/
def lead (b : UInt8) : Lead :=
  if b < 0x80 then .piece (.char (Char.ofNat b.toNat))
  else if b < 0xc2 then .piece .damaged
  else if b < 0xe0 then .sequence ⟨0x80, 0xbf, 0, b.toNat % 32⟩
  else if b < 0xf0 then
    .sequence ⟨if b = 0xe0 then 0xa0 else 0x80, if b = 0xed then 0x9f else 0xbf, 1, b.toNat % 16⟩
  else if b < 0xf5 then
    .sequence ⟨if b = 0xf0 then 0x90 else 0x80, if b = 0xf4 then 0x8f else 0xbf, 2, b.toNat % 8⟩
  else .piece .damaged

def decodeFrom : Option Pending → Octets → List Piece
  | none, [] => []
  | some _, [] => [.damaged]
  | none, b :: rest =>
    match lead b with
    | .piece p => p :: decodeFrom none rest
    | .sequence q => decodeFrom (some q) rest
  | some p, b :: rest =>
    if p.lo ≤ b ∧ b ≤ p.hi then
      let bits := p.bits * 64 + b.toNat % 64
      match p.more with
      | 0 => .char (Char.ofNat bits) :: decodeFrom none rest
      | more + 1 => decodeFrom (some ⟨0x80, 0xbf, more, bits⟩) rest
    else
      .damaged :: match lead b with
        | .piece p => p :: decodeFrom none rest
        | .sequence q => decodeFrom (some q) rest

def decode (data : Octets) : List Piece := decodeFrom none data

def Piece.char? : Piece → Option Char
  | .char c => some c
  | .damaged => none

def text? (data : Octets) : Option Text := (decode data).mapM Piece.char?

inductive DamageKind where
  | badStart | badContinuation | cutShort
  deriving DecidableEq, Repr

structure Damage where
  start : Nat
  size : Nat
  octet : UInt8
  kind : DamageKind
  deriving DecidableEq, Repr

def damageFrom (pos : Nat) : Option (Pending × UInt8 × Nat) → Octets → Option Damage
  | none, [] => none
  | some (_, first, seen), [] => some ⟨pos - seen, seen, first, .cutShort⟩
  | none, b :: rest =>
    match lead b with
    | .piece .damaged => some ⟨pos, 1, b, .badStart⟩
    | .piece (.char _) => damageFrom (pos + 1) none rest
    | .sequence q => damageFrom (pos + 1) (some (q, b, 1)) rest
  | some (p, first, seen), b :: rest =>
    if p.lo ≤ b ∧ b ≤ p.hi then
      match p.more with
      | 0 => damageFrom (pos + 1) none rest
      | more + 1 => damageFrom (pos + 1) (some (⟨0x80, 0xbf, more, 0⟩, first, seen + 1)) rest
    else some ⟨pos - seen, seen, first, .badContinuation⟩

def damage? (data : Octets) : Option Damage := damageFrom 0 none data

def charCount (data : Octets) : Nat := (decode data).length

end Octets
end Tinct
