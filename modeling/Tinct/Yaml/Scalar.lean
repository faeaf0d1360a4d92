import Tinct.Yaml.Node
import Tinct.Yaml.Timestamp
import Tinct.Json.Reader
import Tinct.Text.Blank

/-! The value of a scalar. A plain one is taken by its form for a truth value, a number, nothing or text; a tag
fixes what it is taken for. -/
namespace Tinct.Yaml.Scalar

inductive Kind where
  | null | bool | int | float | text | binary | timestamp | merge | default
  deriving DecidableEq, Repr

def truths : List (String × Bool) :=
  [("yes", true), ("no", false), ("true", true), ("false", false), ("on", true), ("off", false)]

def spellings (w : String) : List String := [w, w.toUpper, w.capitalize]

def isTruth (s : String) : Bool := truths.any fun e => (spellings e.1).contains s

def isNull (s : String) : Bool := s = "" || s = "~" || (spellings "null").contains s

def dropSign : Text → Text
  | '+' :: rest => rest
  | '-' :: rest => rest
  | rest => rest

def isDigitBar (c : Char) : Bool := c.isDigit || c = '_'

def isSexagesimal (t : Text) : Bool :=
  match t with
  | [d] => d.isDigit
  | [d, e] => '0' ≤ d && d ≤ '5' && e.isDigit
  | _ => false

def isNumeral (t : Text) : Bool := (t.head?.any Char.isDigit) && t.all isDigitBar

def isInt (t : Text) : Bool :=
  match dropSign t with
  | ['0'] => true
  | '0' :: 'b' :: rest => !rest.isEmpty && rest.all fun c => c = '0' || c = '1' || c = '_'
  | '0' :: 'x' :: rest => !rest.isEmpty && rest.all fun c => (Json.hexOf? c).isSome || c = '_'
  | '0' :: rest => rest.all fun c => ('0' ≤ c && c ≤ '7') || c = '_'
  | rest =>
    match rest.splitOn ':' with
    | [] => false
    | whole :: parts => isNumeral whole && parts.all isSexagesimal

def isExponent (t : Text) : Bool :=
  match t with
  | [] => true
  | e :: sign :: ds => (e = 'e' || e = 'E') && (sign = '+' || sign = '-') && !ds.isEmpty && ds.all Char.isDigit
  | _ => false

def isFloat (t : Text) : Bool :=
  let unsigned := dropSign t
  let word := String.ofList unsigned
  let whole := unsigned.takeWhile (· ≠ '.')
  match unsigned.dropWhile (· ≠ '.') with
  | '.' :: frac =>
    let tail := frac.dropWhile isDigitBar
    if whole.isEmpty then
      [".inf", ".Inf", ".INF"].contains word || (unsigned = t && ([".nan", ".NaN", ".NAN"].contains word ||
        (frac.head?.any Char.isDigit && isExponent tail)))
    else if isNumeral whole then isExponent tail
    else match whole.splitOn ':' with
      | first :: part :: parts => isNumeral first && (part :: parts).all isSexagesimal && tail.isEmpty
      | _ => false
  | _ => false

def kindOf (s : String) : Kind :=
  let t := s.toList
  if isTruth s then .bool
  else if isFloat t then .float
  else if isInt t then .int
  else if s = "<<" then .merge
  else if isNull s then .null
  else if Timestamp.isPlain t then .timestamp
  else if s = "=" then .default
  else .text

def unreadableInt {α : Type} (base : Nat) (t : Text) : Reading α :=
  throw (.raised "ValueError"
    ("invalid literal for int() with base " ++ toString base ++ ": " ++ Text.quoted (String.ofList t)))

def unreadableFloat {α : Type} (t : Text) : Reading α :=
  throw (.raised "ValueError" ("could not convert string to float: " ++ Text.quoted (String.ofList t)))

def digitIn? (base : Nat) (c : Char) : Option Nat := (Json.hexOf? c).filter (· < base)

def natIn (base : Nat) (t : Text) : Reading Nat :=
  let body := Text.strip t
  let ds := body.filterMap (digitIn? base)
  if body.isEmpty || ds.length ≠ body.length then unreadableInt base t
  else return ds.foldl (fun n d => n * base + d) 0

def sexagesimal (parts : List Nat) : Nat := parts.foldl (fun n d => n * 60 + d) 0

def isNegative (t : Text) : Bool := t.head? = some '-'

def intOf (s : String) : Reading Int := do
  let t := s.toList.filter (· ≠ '_')
  let unsigned := dropSign t
  let n ← match unsigned with
    | ['0'] => pure 0
    | '0' :: 'b' :: rest => natIn 2 rest
    | '0' :: 'x' :: rest => natIn 16 rest
    | '0' :: _ => natIn 8 unsigned
    | _ =>
      if unsigned.contains ':' then return sign t (sexagesimal (← (unsigned.splitOn ':').mapM (natIn 10)))
      else natIn 10 unsigned
  return sign t n
where
  sign (t : Text) (n : Nat) : Int := if isNegative t then -(n : Int) else n

def decimal? (negative : Bool) (t : Text) : Option Real64 :=
  let whole := t.takeWhile Char.isDigit
  let (frac, rest) := match t.dropWhile Char.isDigit with
    | '.' :: rest => (rest.takeWhile Char.isDigit, rest.dropWhile Char.isDigit)
    | rest => ([], rest)
  let (exp, rest) := Json.exponent rest
  if (whole.isEmpty && frac.isEmpty) || !rest.isEmpty then none
  else some (Real64.ofDecimal negative (Json.natOf (whole ++ frac)) (exp.getD 0 - frac.length))

def floatOf (s : String) : Reading Real64 := do
  let t := (s.toList.filter (· ≠ '_')).map Char.toLower
  let negative := isNegative t
  let unsigned := dropSign t
  let word := String.ofList unsigned
  if word = ".inf" then return Real64.infinity negative
  if word = ".nan" then return Real64.notANumber
  if unsigned.contains ':' then
    let parts := unsigned.splitOn ':'
    let whole ← parts.dropLast.mapM (natIn 10)
    match decimal? false (parts.getLastD []) with
    | some x => return (x.plus (60 * sexagesimal whole)).signed negative
    | none => unreadableFloat (parts.getLastD [])
  match decimal? negative (Text.strip unsigned) with
  | some x => return x
  | none => unreadableFloat unsigned

def truthOf (s : String) : Reading Bool :=
  let word := s.map Char.toLower
  match truths.lookup word with
  | some b => return b
  | none => throw (.raised "KeyError" (Text.quoted word))

def sixOf? (c : Char) : Option Nat :=
  if c.isUpper then some (c.toNat - 'A'.toNat)
  else if c.isLower then some (c.toNat - 'a'.toNat + 26)
  else if c.isDigit then some (c.toNat - '0'.toNat + 52)
  else if c = '+' then some 62
  else if c = '/' then some 63
  else none

def octetsIn64 : List Nat → Octets
  | a :: b :: c :: d :: rest =>
    UInt8.ofNat (a * 4 + b / 16) :: UInt8.ofNat (b * 16 + c / 4) :: UInt8.ofNat (c * 64 + d) :: octetsIn64 rest
  | [a, b, c] => [UInt8.ofNat (a * 4 + b / 16), UInt8.ofNat (b * 16 + c / 4)]
  | [a, b] => [UInt8.ofNat (a * 4 + b / 16)]
  | _ => []

def octetsOf (s : String) : Reading Octets := do
  let t := s.toList
  let ds := (t.takeWhile (· ≠ '=')).filterMap sixOf?
  let marks := (t.filter (· = '=')).length
  guardThat (t.all fun c => c.toNat < 0x80)
  guardThat (ds.length % 4 = 0 || (ds.length % 4 ≠ 1 && 4 ≤ ds.length % 4 + marks))
  return octetsIn64 ds

def valueAs (kind : Kind) (s : String) : Reading Value :=
  match kind with
  | .null => return .null
  | .bool => return .bool (← truthOf s)
  | .int => return .int (← intOf s)
  | .float => return .real (← floatOf s)
  | .text => return .text s
  | .binary => return .octets (← octetsOf s)
  | .timestamp => Timestamp.valueOf s
  | .merge | .default => throw .malformed

end Tinct.Yaml.Scalar
