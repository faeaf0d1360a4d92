import Tinct.Text.Visible

/-! Text between quotes, as diagnostics show it. Single quotes, unless the text has a single quote and no double
one. The backslash, the quote in use and every hidden character are written as escapes. -/
namespace Tinct.Text

def hexDigits (width n : Nat) : List Char :=
  let ds := Nat.toDigits 16 n
  List.replicate (width - ds.length) '0' ++ ds

def quoteFor (t : List Char) : Char :=
  if t.contains '\x27' && !t.contains '"' then '"' else '\x27'

def escaped (quote c : Char) : List Char :=
  if c = quote ∨ c = '\\' then ['\\', c]
  else if c = '\n' then ['\\', 'n']
  else if c = '\r' then ['\\', 'r']
  else if c = '\t' then ['\\', 't']
  else if isVisible c then [c]
  else if c.toNat < 0x100 then '\\' :: 'x' :: hexDigits 2 c.toNat
  else if c.toNat < 0x10000 then '\\' :: 'u' :: hexDigits 4 c.toNat
  else '\\' :: 'U' :: hexDigits 8 c.toNat

def quoted (s : String) : String :=
  let t := s.toList
  let q := quoteFor t
  String.ofList (q :: t.flatMap (escaped q) ++ [q])

end Tinct.Text
