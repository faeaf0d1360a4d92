import Tinct.Yaml.Cursor

/-! Plain scalars: words without quotes. They end at a comment, at a colon before a gap, at a boundary between
documents and, inside brackets, at the marks that divide items; outside, also at a line that is not deeper
than the parent. -/
namespace Tinct.Yaml.Plain

def isFlowMark (c : Option Char) : Bool :=
  match c with
  | some c => [',', '[', ']', '\x7b', '\x7d'].contains c
  | none => false

def word (flow : Bool) : Text → Text
  | [] => []
  | c :: rest =>
    if isGap (some c) || (c = ':' && (isGap rest.head? || (flow && isFlowMark rest.head?))) ||
        (flow && (c = '?' || isFlowMark (some c)))
    then [] else c :: word flow rest

def blankLines : Nat → Text → Cursor → Option Text × Cursor
  | 0, _, c => (none, c)
  | fuel + 1, acc, c =>
    if c.atBoundary then (none, c) else
    let c := c.dropSpaces
    let (br, after) := c.lineBreak
    if br.isEmpty then (some acc, c) else blankLines fuel (acc ++ br) after

/-- What lies between two words as it counts in the scalar, whether a line ended there, and the place of the
next word. An empty joint ends the scalar. -/
def joint (c : Cursor) : Text × Bool × Cursor :=
  let spaces := c.takeWhile (· = ' ')
  let c := c.skip spaces.length
  let (br, after) := c.lineBreak
  if br.isEmpty then (spaces, false, c)
  else match blankLines (after.rest.length + 1) [] after with
    | (some more, c) =>
      ((if br ≠ ['\n'] then br else if more.isEmpty then [' '] else []) ++ more, true, c)
    | (none, c) => ([], true, c)

def words (flow : Bool) (indent : Int) : Nat → Text → Text → Bool → Cursor → Text × Bool × Cursor
  | 0, acc, _, ended, c => (acc, ended, c)
  | fuel + 1, acc, between, ended, c =>
    if c.isAt '#' then (acc, ended, c) else
    let w := word flow c.rest
    if w.isEmpty then (acc, ended, c) else
    let acc := acc ++ between ++ w
    let (between, ended, c) := joint (c.skip w.length)
    if between.isEmpty || c.isAt '#' || (!flow && (c.column : Int) < indent) then (acc, ended, c)
    else words flow indent fuel acc between ended c

def read (flow : Bool) (parent : Int) (c : Cursor) : Text × Bool × Cursor :=
  words flow (parent + 1) (c.rest.length + 1) [] [] false c

end Tinct.Yaml.Plain
