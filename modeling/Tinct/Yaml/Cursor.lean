import Tinct.Text.Octets
import Tinct.Fault

/-! A place in a document: what is left to read, with the line and column of its first character. The byte order
mark takes no column. -/
namespace Tinct.Yaml

inductive Flaw where
  | malformed
  | raised (kind message : String)
  deriving DecidableEq, Repr

abbrev Reading := Except Flaw

def guardThat (ok : Bool) : Reading Unit := if ok then .ok () else .error .malformed

def isBreak (c : Char) : Bool := c = '\n' || c = '\r' || c = '\x85' || c = '\u2028' || c = '\u2029'

def endsLine : Option Char → Bool
  | none => true
  | some c => isBreak c

def endsWord (c : Option Char) : Bool := c = some ' ' || endsLine c

def isGap (c : Option Char) : Bool := c = some '\t' || endsWord c

def isNameChar (c : Char) : Bool := c.isAlphanum || c = '-' || c = '_'

def isPrintable (c : Char) : Bool :=
  c = '\t' || c = '\n' || c = '\r' || c = '\x85' || (' ' ≤ c && c ≤ '~') ||
    (0xa0 ≤ c.toNat && c.toNat ≤ 0xfffd) || 0x10000 ≤ c.toNat

structure Cursor where
  rest : Text
  index : Nat := 0
  line : Nat := 0
  column : Nat := 0

namespace Cursor

def peek (c : Cursor) (k : Nat := 0) : Option Char := c.rest[k]?

def isAt (c : Cursor) (ch : Char) : Bool := c.peek = some ch

def next (c : Cursor) : Cursor :=
  match c.rest with
  | [] => c
  | ch :: rest =>
    if isBreak ch && !(ch = '\r' && rest.head? = some '\n') then ⟨rest, c.index + 1, c.line + 1, 0⟩
    else ⟨rest, c.index + 1, c.line, if ch = '\ufeff' then c.column else c.column + 1⟩

def skip (c : Cursor) : Nat → Cursor
  | 0 => c
  | n + 1 => c.next.skip n

def takeWhile (c : Cursor) (p : Char → Bool) : Text := c.rest.takeWhile p

def dropWhile (c : Cursor) (p : Char → Bool) : Cursor := c.skip (c.takeWhile p).length

def dropSpaces (c : Cursor) : Cursor := c.dropWhile (· = ' ')

def dropSpacesTo (c : Cursor) (column : Nat) : Cursor :=
  c.skip (min (c.takeWhile (· = ' ')).length (column - c.column))

def lineBreak (c : Cursor) : Text × Cursor :=
  match c.rest with
  | '\r' :: '\n' :: _ => (['\n'], c.skip 2)
  | ch :: _ =>
    if ch = '\u2028' ∨ ch = '\u2029' then ([ch], c.next)
    else if isBreak ch then (['\n'], c.next)
    else ([], c)
  | [] => ([], c)

def dropComment (c : Cursor) : Cursor :=
  if c.isAt '#' then c.dropWhile (fun ch => !isBreak ch) else c

def atMarks (c : Cursor) (mark : Char) : Bool := [mark, mark, mark].isPrefixOf c.rest && isGap (c.peek 3)

def atBoundary (c : Cursor) : Bool := c.atMarks '-' || c.atMarks '.'

def endLine (c : Cursor) : Reading Cursor := do
  let c := c.dropSpaces.dropComment
  guardThat (endsLine c.peek)
  return c.lineBreak.2

end Cursor
end Tinct.Yaml
