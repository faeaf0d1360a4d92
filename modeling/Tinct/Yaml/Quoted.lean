import Tinct.Yaml.Cursor
import Tinct.Json.Reader

/-! Quoted scalars. A line break inside is folded: it reads as a space, and each further one as itself. Between
single quotes a doubled quote is a quote; between double quotes a backslash escapes. -/
namespace Tinct.Yaml.Quoted

def escapes : List (Char × Char) :=
  [('0', '\x00'), ('a', '\x07'), ('b', '\x08'), ('t', '\t'), ('\t', '\t'), ('n', '\n'), ('v', '\x0b'),
   ('f', '\x0c'), ('r', '\r'), ('e', '\x1b'), (' ', ' '), ('"', '"'), ('\\', '\\'), ('/', '/'),
   ('N', '\x85'), ('_', '\xa0'), ('L', '\u2028'), ('P', '\u2029')]

def escapeWidth : List (Char × Nat) := [('x', 2), ('u', 4), ('U', 8)]

def coded (width : Nat) (c : Cursor) : Reading Char := do
  let ds := (c.rest.take width).filterMap Json.hexOf?
  guardThat (ds.length = width)
  let n := ds.foldl (fun n d => n * 16 + d) 0
  if 0x10ffff < n then throw (.raised "ValueError" "chr() arg not in range(0x110000)")
  return if n.isValidChar then Char.ofNat n else '\ufffd'

def blankLines : Nat → Text → Cursor → Reading (Text × Cursor)
  | 0, _, _ => throw .malformed
  | fuel + 1, acc, c => do
    guardThat (!c.atBoundary)
    let c := c.dropWhile fun ch => ch = ' ' || ch = '\t'
    let (br, after) := c.lineBreak
    if br.isEmpty then return (acc, c) else blankLines fuel (acc ++ br) after

def gap (c : Cursor) : Reading (Text × Cursor) := do
  let blanks := c.takeWhile fun ch => ch = ' ' || ch = '\t'
  let c := c.skip blanks.length
  guardThat c.peek.isSome
  let (br, after) := c.lineBreak
  if br.isEmpty then return (blanks, c)
  let (more, c) ← blankLines (after.rest.length + 1) [] after
  return ((if br ≠ ['\n'] then br else if more.isEmpty then [' '] else []) ++ more, c)

def body (double : Bool) : Nat → Text → Cursor → Reading (Text × Cursor)
  | 0, _, _ => throw .malformed
  | fuel + 1, acc, c =>
    match c.rest with
    | [] => throw .malformed
    | ch :: rest =>
      if ch = ' ' || ch = '\t' || isBreak ch then do
        let (blanks, c) ← gap c
        body double fuel (acc ++ blanks) c
      else if !double && ch = '\x27' then
        if rest.head? = some '\x27' then body double fuel (acc ++ ['\x27']) (c.skip 2) else return (acc, c.next)
      else if double && ch = '"' then return (acc, c.next)
      else if double && ch = '\\' then
        match rest with
        | [] => throw .malformed
        | e :: _ =>
          match escapes.lookup e, escapeWidth.lookup e with
          | some r, _ => body double fuel (acc ++ [r]) (c.skip 2)
          | none, some width => do
            let r ← coded width (c.skip 2)
            body double fuel (acc ++ [r]) (c.skip (2 + width))
          | none, none =>
            if isBreak e then do
              let (more, c) ← blankLines (rest.length + 1) [] c.next.lineBreak.2
              body double fuel (acc ++ more) c
            else throw .malformed
      else body double fuel (acc ++ [ch]) c.next

def read (double : Bool) (c : Cursor) : Reading (Text × Cursor) := body double (c.rest.length + 1) [] c.next

end Tinct.Yaml.Quoted
