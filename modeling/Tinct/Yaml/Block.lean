import Tinct.Yaml.Cursor

/-! Literal and folded scalars: lines at one indentation. The header says how the final breaks are kept and may
give the indentation; otherwise the first lines do. -/
namespace Tinct.Yaml.Block

inductive Chomp where
  | clip | strip | keep
  deriving DecidableEq, Repr

def chompOf? : Option Char → Option Chomp
  | some '+' => some .keep
  | some '-' => some .strip
  | _ => none

def stepOf? (c : Option Char) : Reading (Option Nat) :=
  match c with
  | some ch =>
    if ch = '0' then throw .malformed
    else if ch.isDigit then return some (ch.toNat - '0'.toNat)
    else return none
  | none => return none

def header (c : Cursor) : Reading (Chomp × Option Nat × Cursor) := do
  let (chomp, step, c) ← match chompOf? c.peek with
    | some chomp => do
      let c := c.next
      let step ← stepOf? c.peek
      pure (chomp, step, if step.isSome then c.next else c)
    | none => do
      let step ← stepOf? c.peek
      let c := if step.isSome then c.next else c
      match step, chompOf? c.peek with
      | some _, some chomp => pure (chomp, step, c.next)
      | _, _ => pure (Chomp.clip, step, c)
  guardThat (endsWord c.peek)
  return (chomp, step, ← c.endLine)

def leading : Nat → Text → Nat → Cursor → Text × Nat × Cursor
  | 0, acc, deepest, c => (acc, deepest, c)
  | fuel + 1, acc, deepest, c =>
    let c := c.dropSpaces
    let deepest := max deepest c.column
    let (br, after) := c.lineBreak
    if br.isEmpty then (acc, deepest, c) else leading fuel (acc ++ br) deepest after

def blankLines (indent : Nat) : Nat → Text → Cursor → Text × Cursor
  | 0, acc, c => (acc, c)
  | fuel + 1, acc, c =>
    let c := c.dropSpacesTo indent
    let (br, after) := c.lineBreak
    if br.isEmpty then (acc, c) else blankLines indent fuel (acc ++ br) after

def isIndented (c : Cursor) : Bool := c.isAt ' ' || c.isAt '\t'

def lines (folded : Bool) (indent : Nat) : Nat → Text → Text → Text → Cursor → Text × Text × Text × Cursor
  | 0, acc, br, breaks, c => (acc, br, breaks, c)
  | fuel + 1, acc, br, breaks, c =>
    if c.column = indent && c.peek.isSome then
      let flush := !isIndented c
      let line := c.takeWhile fun ch => !isBreak ch
      let (br, c) := (c.skip line.length).lineBreak
      let acc := acc ++ breaks ++ line
      let (breaks, c) := blankLines indent (c.rest.length + 1) [] c
      if c.column = indent && c.peek.isSome then
        let join :=
          if folded && br = ['\n'] && flush && !isIndented c then (if breaks.isEmpty then [' '] else []) else br
        lines folded indent fuel (acc ++ join) br breaks c
      else (acc, br, breaks, c)
    else (acc, br, breaks, c)

def read (folded : Bool) (parent : Int) (c : Cursor) : Reading (Text × Cursor) := do
  let (chomp, step, c) ← header c.next
  let least := max (parent + 1).toNat 1
  let fuel := c.rest.length + 1
  let (indent, breaks, c) := match step with
    | none =>
      let (breaks, deepest, c) := leading fuel [] 0 c
      (max least deepest, breaks, c)
    | some n =>
      let indent := least + n - 1
      let (breaks, c) := blankLines indent fuel [] c
      (indent, breaks, c)
  let (text, br, breaks, c) := lines folded indent fuel [] [] breaks c
  return (text ++ (if chomp = .strip then [] else br) ++ (if chomp = .keep then breaks else []), c)

end Tinct.Yaml.Block
