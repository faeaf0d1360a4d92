import Tinct.Decimal.Shortest
import Tinct.Text.Quoted

/-! Values as diagnostics show them: `None`, `True`, `False`, numbers, quoted texts and octets, `[a, b]`, and items or
key and value pairs between braces for sets and mappings. -/
namespace Tinct

def Key.shown : Key → String
  | text s => Text.quoted s
  | other shown => shown

namespace Value

def specials : Real64.Specials := ⟨"nan", "inf", "-inf"⟩

def shownOctets (data : Octets) : String :=
  let t := data.map fun o => Char.ofNat o.toNat
  let q := Text.quoteFor t
  let each := fun c => if c.toNat < 0x7f then Text.escaped q c else '\\' :: 'x' :: Text.hexDigits 2 c.toNat
  String.ofList ('b' :: q :: t.flatMap each ++ [q])

mutual

def shown : Value → String
  | null => "None"
  | bool true => "True"
  | bool false => "False"
  | int n => toString n
  | real x => x.text specials
  | text s => Text.quoted s
  | octets data => shownOctets data
  | list items => "[" ++ shownItems items ++ "]"
  | set [] => "set()"
  | set items => "\x7b" ++ shownItems items ++ "\x7d"
  | map entries => "\x7b" ++ shownEntries entries ++ "\x7d"
  | other shown => shown

def shownItems : List Value → String
  | [] => ""
  | [v] => shown v
  | v :: rest => shown v ++ ", " ++ shownItems rest

def shownEntries : List (Key × Value) → String
  | [] => ""
  | [(k, v)] => k.shown ++ ": " ++ shown v
  | (k, v) :: rest => k.shown ++ ": " ++ shown v ++ ", " ++ shownEntries rest

end

end Value
end Tinct
