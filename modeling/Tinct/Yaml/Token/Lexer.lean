import Tinct.Yaml.Tag
import Tinct.Yaml.Quoted
import Tinct.Yaml.Block
import Tinct.Yaml.Plain

/-! The tokens of a whole document. Columns become tokens that open and close blocks. A scalar or bracket that may
turn out to be a key is remembered for each bracket level; when its colon comes, the key token goes in
before it. A key fits on one line and within 1024 characters. -/
namespace Tinct.Yaml

structure PendingKey where
  token : Nat
  required : Bool
  index : Nat
  line : Nat
  column : Nat

structure Lexer where
  cursor : Cursor
  tokens : List Token := []
  indent : Int := -1
  indents : List Int := []
  mayStartKey : Bool := true
  pending : Option PendingKey := none
  outer : List (Option PendingKey) := []

namespace Lexer

def inFlow (s : Lexer) : Bool := !s.outer.isEmpty

def push (s : Lexer) (t : Token) : Lexer := { s with tokens := t :: s.tokens }

def pushAt (s : Lexer) (position : Nat) (t : Token) : Lexer :=
  { s with tokens := s.tokens.insertIdx (s.tokens.length - position) t }

/-- A pending key whose line is over is forgotten, but a required one must not be. -/
def stalePending (c : Cursor) : Option PendingKey → Reading (Option PendingKey)
  | none => return none
  | some k =>
    if k.line ≠ c.line ∨ 1024 < c.index - k.index then
      if k.required then throw .malformed else return none
    else return some k

def dropStale (s : Lexer) : Reading Lexer := do
  return { s with pending := ← stalePending s.cursor s.pending, outer := ← s.outer.mapM (stalePending s.cursor) }

def forgetKey (s : Lexer) : Reading Lexer := do
  guardThat (!s.pending.any PendingKey.required)
  return { s with pending := none }

def noteKey (s : Lexer) : Reading Lexer := do
  if !s.mayStartKey then return s
  let s ← s.forgetKey
  let c := s.cursor
  let required := !s.inFlow && s.indent = c.column
  return { s with pending := some ⟨s.tokens.length, required, c.index, c.line, c.column⟩ }

def unwindTo (column : Int) : List Int → Lexer → Lexer
  | [], s => s
  | outer :: rest, s =>
    if column < s.indent then unwindTo column rest { s.push .blockEnd with indent := outer, indents := rest } else s

def unwind (s : Lexer) (column : Int) : Lexer := if s.inFlow then s else unwindTo column s.indents s

def openBlock (s : Lexer) (column : Nat) (position : Nat) (t : Token) : Lexer :=
  if s.indent < column then
    { s.pushAt position t with indent := column, indents := s.indent :: s.indents }
  else s

def mayKey (s : Lexer) (b : Bool) : Lexer := { s with mayStartKey := b }

def forward (s : Lexer) (n : Nat) : Lexer := { s with cursor := s.cursor.skip n }

def skipGap : Nat → Lexer → Lexer
  | 0, s => s
  | fuel + 1, s =>
    let c := s.cursor.dropSpaces.dropComment
    let (br, after) := c.lineBreak
    if br.isEmpty then { s with cursor := c }
    else skipGap fuel { s with cursor := after, mayStartKey := s.mayStartKey || !s.inFlow }

def boundary (s : Lexer) (t : Token) : Reading Lexer := do
  let s ← (s.unwind (-1)).forgetKey
  return ((s.mayKey false).forward 3).push t

def directive (s : Lexer) : Reading Lexer := do
  let s ← (s.unwind (-1)).forgetKey
  let (t, c) ← readDirective s.cursor
  return { (s.mayKey false).push t with cursor := c }

def openFlow (s : Lexer) (t : Token) : Reading Lexer := do
  let s ← s.noteKey
  return { ((s.mayKey true).forward 1).push t with pending := none, outer := s.pending :: s.outer }

def closeFlow (s : Lexer) (t : Token) : Reading Lexer := do
  let s ← s.forgetKey
  match s.outer with
  | [] => throw .malformed
  | key :: rest => return { ((s.mayKey false).forward 1).push t with pending := key, outer := rest }

def comma (s : Lexer) : Reading Lexer := do
  let s ← (s.mayKey true).forgetKey
  return (s.forward 1).push .comma

def startBlock (s : Lexer) (t : Token) : Reading Lexer := do
  if s.inFlow then return s
  guardThat s.mayStartKey
  return s.openBlock s.cursor.column s.tokens.length t

def dash (s : Lexer) : Reading Lexer := do
  let s ← s.startBlock .blockItems
  let s ← (s.mayKey true).forgetKey
  return (s.forward 1).push .dash

def explicitKey (s : Lexer) : Reading Lexer := do
  let s ← s.startBlock .blockEntries
  let s ← (s.mayKey (!s.inFlow)).forgetKey
  return (s.forward 1).push .key

def colon (s : Lexer) : Reading Lexer := do
  match s.pending with
  | some k =>
    let s := { s.pushAt k.token .key with pending := none }
    let s := if s.inFlow then s else s.openBlock k.column k.token .blockEntries
    return ((s.mayKey false).forward 1).push .value
  | none =>
    let s ← s.startBlock .blockEntries
    return ((s.mayKey (!s.inFlow)).forward 1).push .value

def keyed (s : Lexer) (read : Cursor → Reading (Token × Cursor)) : Reading Lexer := do
  let s ← s.noteKey
  let (t, c) ← read s.cursor
  return { (s.mayKey false).push t with cursor := c }

def quoted (s : Lexer) (double : Bool) : Reading Lexer :=
  s.keyed fun c => do
    let (t, c) ← Quoted.read double c
    return (.scalar (String.ofList t) false, c)

def block (s : Lexer) (folded : Bool) : Reading Lexer := do
  let s ← (s.mayKey true).forgetKey
  let (t, c) ← Block.read folded s.indent s.cursor
  return { s.push (.scalar (String.ofList t) false) with cursor := c }

def plain (s : Lexer) : Reading Lexer := do
  let s ← s.noteKey
  let (t, ended, c) := Plain.read s.inFlow s.indent s.cursor
  return { (s.mayKey ended).push (.scalar (String.ofList t) true) with cursor := c }

def isIndicator (c : Char) : Bool := "-?:,[]\x7b\x7d#&*!|>\x27\"%@`".toList.contains c

def startsPlain (s : Lexer) (ch : Char) : Bool :=
  !(isGap (some ch) || isIndicator ch) ||
    (!isGap (s.cursor.peek 1) && (ch = '-' || (!s.inFlow && (ch = '?' || ch = ':'))))

def token (s : Lexer) (ch : Char) : Reading Lexer :=
  let c := s.cursor
  let standsAlone := s.inFlow || isGap (c.peek 1)
  if ch = '%' ∧ c.column = 0 then s.directive
  else if c.column = 0 ∧ c.atMarks '-' then s.boundary .documentStart
  else if c.column = 0 ∧ c.atMarks '.' then s.boundary .documentEnd
  else if ch = '[' then s.openFlow .flowItems
  else if ch = '\x7b' then s.openFlow .flowEntries
  else if ch = ']' then s.closeFlow .flowItemsEnd
  else if ch = '\x7d' then s.closeFlow .flowEntriesEnd
  else if ch = ',' then s.comma
  else if ch = '-' ∧ isGap (c.peek 1) then s.dash
  else if ch = '?' ∧ standsAlone then s.explicitKey
  else if ch = ':' ∧ standsAlone then s.colon
  else if ch = '*' then s.keyed fun c => do let (n, c) ← readAnchor c; return (.alias n, c)
  else if ch = '&' then s.keyed fun c => do let (n, c) ← readAnchor c; return (.anchor n, c)
  else if ch = '!' then s.keyed fun c => do let (t, c) ← readTag c; return (.tag t, c)
  else if ch = '|' ∧ !s.inFlow then s.block false
  else if ch = '>' ∧ !s.inFlow then s.block true
  else if ch = '\x27' then s.quoted false
  else if ch = '"' then s.quoted true
  else if s.startsPlain ch then s.plain
  else throw .malformed

/-- Every token takes a character. -/
def run : Nat → Lexer → Reading (List Token)
  | 0, _ => throw .malformed
  | fuel + 1, s => do
    let s ← (skipGap (s.cursor.rest.length + 1) s).dropStale
    let s := s.unwind s.cursor.column
    match s.cursor.rest with
    | [] => return (← (s.unwind (-1)).forgetKey).tokens.reverse
    | ch :: _ => run fuel (← s.token ch)

end Lexer

def Token.scan (t : Text) : Reading (List Token) := do
  guardThat (t.all isPrintable)
  let c : Cursor := ⟨t, 0, 0, 0⟩
  let c := if c.isAt '\ufeff' then c.next else c
  Lexer.run (t.length + 2) { cursor := c }

end Tinct.Yaml
