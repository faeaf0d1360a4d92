import Tinct.Text.Position

/-! Content changes and the edits that follow from them. A change is counted in characters of the text before
it; an edit is counted in octets and carries positions too. Offsets and lengths outside the text are
brought to its ends. A syntax tree is known by how it came about, edits included. -/
namespace Tinct

structure Change where
  offset : Int
  length : Int
  text : Text
  deriving DecidableEq, Repr

structure Edit where
  start : Int
  oldEnd : Int
  newEnd : Int
  startPoint : Point
  oldEndPoint : Point
  newEndPoint : Point
  deriving DecidableEq, Repr

/-- A syntax tree: parsed from a source alone, or over an earlier tree and the edits made on that one. -/
inductive Tree where
  | afresh (source : Octets)
  | reusing (source : Octets) (old : Tree) (edits : List Edit)
  deriving DecidableEq, Repr

def Tree.source : Tree → Octets
  | afresh source => source
  | reusing source _ _ => source

namespace Text

def octetOffset (t : Text) (offset : Int) : Nat := (octets (t.take offset.toNat)).length

def sharedLead : Text → Text → Nat
  | a :: as, b :: bs => if a = b then sharedLead as bs + 1 else 0
  | _, _ => 0

end Text

namespace Change

def first (c : Change) (t : Text) : Nat := min c.offset.toNat t.length

def last (c : Change) (t : Text) : Nat := min (c.first t + c.length.toNat) t.length

def apply (c : Change) (t : Text) : Text := t.take (c.first t) ++ c.text ++ t.drop (c.last t)

def between (before after : Text) : Option Change :=
  if before = after then none else
  let lead := Text.sharedLead before after
  let tail := Text.sharedLead (before.drop lead).reverse (after.drop lead).reverse
  some ⟨lead, (before.length - lead - tail : Nat), (after.take (after.length - tail)).drop lead⟩

def edit (c : Change) (before after : Text) : Edit :=
  let start := before.octetOffset (c.first before)
  let oldEnd := before.octetOffset (c.last before)
  let newEnd := start + c.text.octets.length
  { start, oldEnd, newEnd,
    startPoint := before.octets.pointAt start,
    oldEndPoint := before.octets.pointAt oldEnd,
    newEndPoint := after.octets.pointAt newEnd }

end Change
end Tinct
