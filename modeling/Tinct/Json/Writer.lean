import Tinct.Value.Show

/-! Values as JSON text. Only ASCII is written: every other character goes as `\u` escapes of its UTF-16 units.
`compact` separates by `", "` and `": "`; `indented` puts each item on a line of its own. -/
namespace Tinct.Json

def specials : Real64.Specials := ⟨"NaN", "Infinity", "-Infinity"⟩

def unit (n : Nat) : List Char := '\\' :: 'u' :: Text.hexDigits 4 n

def escaped (c : Char) : List Char :=
  if c = '"' then ['\\', '"']
  else if c = '\\' then ['\\', '\\']
  else if c = '\n' then ['\\', 'n']
  else if c = '\r' then ['\\', 'r']
  else if c = '\t' then ['\\', 't']
  else if c = '\x08' then ['\\', 'b']
  else if c = '\x0c' then ['\\', 'f']
  else if 0x20 ≤ c.toNat ∧ c.toNat < 0x7f then [c]
  else if c.toNat < 0x10000 then unit c.toNat
  else unit (0xd800 + (c.toNat - 0x10000) / 0x400) ++ unit (0xdc00 + (c.toNat - 0x10000) % 0x400)

def string (s : String) : String := String.ofList ('"' :: s.toList.flatMap escaped ++ ['"'])

def scalar : Value → String
  | .null => "null"
  | .bool true => "true"
  | .bool false => "false"
  | .int n => toString n
  | .real x => x.text specials
  | .text s => string s
  | v => string v.shown

mutual

def compact : Value → String
  | .list items => "[" ++ compactItems items ++ "]"
  | .map entries => "\x7b" ++ compactEntries entries ++ "\x7d"
  | v => scalar v

def compactItems : List Value → String
  | [] => ""
  | [v] => compact v
  | v :: rest => compact v ++ ", " ++ compactItems rest

def compactEntries : List (Key × Value) → String
  | [] => ""
  | [(k, v)] => string k.name ++ ": " ++ compact v
  | (k, v) :: rest => string k.name ++ ": " ++ compact v ++ ", " ++ compactEntries rest

end

def margin (depth : Nat) : String := "\n" ++ String.ofList (List.replicate (2 * depth) ' ')

mutual

def indentedAt (depth : Nat) : Value → String
  | .list [] => "[]"
  | .map [] => "\x7b\x7d"
  | .list items => "[" ++ indentedItems (depth + 1) items ++ margin depth ++ "]"
  | .map entries => "\x7b" ++ indentedEntries (depth + 1) entries ++ margin depth ++ "\x7d"
  | v => scalar v

def indentedItems (depth : Nat) : List Value → String
  | [] => ""
  | [v] => margin depth ++ indentedAt depth v
  | v :: rest => margin depth ++ indentedAt depth v ++ "," ++ indentedItems depth rest

def indentedEntries (depth : Nat) : List (Key × Value) → String
  | [] => ""
  | [(k, v)] => margin depth ++ string k.name ++ ": " ++ indentedAt depth v
  | (k, v) :: rest =>
    margin depth ++ string k.name ++ ": " ++ indentedAt depth v ++ "," ++ indentedEntries depth rest

end

def indented (v : Value) : String := indentedAt 0 v

end Tinct.Json
