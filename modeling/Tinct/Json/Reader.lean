import Tinct.Decimal.Nearest

/-! JSON text as a value. Beside the standard, `NaN`, `Infinity` and `-Infinity` are numbers; of two equal keys
the later one counts. A number without fraction and exponent is an integer of any size. -/
namespace Tinct.Json

def isSpace (c : Char) : Bool := c = ' ' || c = '\t' || c = '\n' || c = '\r'

def skipSpace (cs : List Char) : List Char := cs.dropWhile isSpace

def digitOf (c : Char) : Nat := c.toNat - '0'.toNat

def natOf (ds : List Char) : Nat := ds.foldl (fun n c => n * 10 + digitOf c) 0

def hexOf? (c : Char) : Option Nat :=
  if c.isDigit then some (c.toNat - '0'.toNat)
  else if 'a' ≤ c ∧ c ≤ 'f' then some (c.toNat - 'a'.toNat + 10)
  else if 'A' ≤ c ∧ c ≤ 'F' then some (c.toNat - 'A'.toNat + 10)
  else none

def unit? : List Char → Option (Nat × List Char)
  | a :: b :: c :: d :: rest => do
    let a ← hexOf? a
    let b ← hexOf? b
    let c ← hexOf? c
    let d ← hexOf? d
    some (((a * 16 + b) * 16 + c) * 16 + d, rest)
  | _ => none

def trail? : List Char → Option (Nat × List Char)
  | '\\' :: 'u' :: rest => do
    let (n, rest) ← unit? rest
    if 0xdc00 ≤ n ∧ n ≤ 0xdfff then some (n, rest) else none
  | _ => none

def escape? : Char → Option Char
  | '"' => some '"'
  | '\\' => some '\\'
  | '/' => some '/'
  | 'b' => some '\x08'
  | 'f' => some '\x0c'
  | 'n' => some '\n'
  | 'r' => some '\r'
  | 't' => some '\t'
  | _ => none

def stringBody : Nat → List Char → List Char → Option (List Char × List Char)
  | 0, _, _ => none
  | _ + 1, _, [] => none
  | fuel + 1, acc, c :: rest =>
    if c = '"' then some (acc.reverse, rest)
    else if c.toNat < 0x20 then none
    else if c ≠ '\\' then stringBody fuel (c :: acc) rest
    else match rest with
      | 'u' :: rest => do
        let (n, rest) ← unit? rest
        if 0xd800 ≤ n ∧ n ≤ 0xdbff then
          match trail? rest with
          | some (low, rest) =>
            stringBody fuel (Char.ofNat (0x10000 + (n - 0xd800) * 0x400 + (low - 0xdc00)) :: acc) rest
          | none => stringBody fuel ('\ufffd' :: acc) rest
        else if 0xdc00 ≤ n ∧ n ≤ 0xdfff then stringBody fuel ('\ufffd' :: acc) rest
        else stringBody fuel (Char.ofNat n :: acc) rest
      | e :: rest => do
        let c ← escape? e
        stringBody fuel (c :: acc) rest
      | [] => none

def wholePart? (cs : List Char) : Option (List Char × List Char) :=
  match cs with
  | '0' :: rest => some (['0'], rest)
  | _ =>
    let ds := cs.takeWhile Char.isDigit
    if ds.isEmpty then none else some (ds, cs.dropWhile Char.isDigit)

def fraction (cs : List Char) : List Char × List Char :=
  match cs with
  | '.' :: rest =>
    let ds := rest.takeWhile Char.isDigit
    if ds.isEmpty then ([], cs) else (ds, rest.dropWhile Char.isDigit)
  | _ => ([], cs)

def exponent (cs : List Char) : Option Int × List Char :=
  match cs with
  | e :: rest =>
    if e = 'e' ∨ e = 'E' then
      let (negative, body) := match rest with
        | '-' :: body => (true, body)
        | '+' :: body => (false, body)
        | body => (false, body)
      let ds := body.takeWhile Char.isDigit
      if ds.isEmpty then (none, cs)
      else (some (if negative then -(natOf ds : Int) else natOf ds), body.dropWhile Char.isDigit)
    else (none, cs)
  | [] => (none, cs)

def number? (negative : Bool) (cs : List Char) : Option (Value × List Char) := do
  let (whole, rest) ← wholePart? cs
  let (frac, rest) := fraction rest
  let (exp, rest) := exponent rest
  if frac.isEmpty && exp.isNone then
    some (.int (if negative then -(natOf whole : Int) else natOf whole), rest)
  else
    some (.real (Real64.ofDecimal negative (natOf (whole ++ frac)) (exp.getD 0 - frac.length)), rest)

def word? (word : String) (value : Value) (cs : List Char) : Option (Value × List Char) :=
  if word.toList.isPrefixOf cs then some (value, cs.drop word.length) else none

def scalar? (cs : List Char) : Option (Value × List Char) :=
  match cs with
  | 'n' :: _ => word? "null" .null cs
  | 't' :: _ => word? "true" (.bool true) cs
  | 'f' :: _ => word? "false" (.bool false) cs
  | 'N' :: _ => word? "NaN" (.real Real64.notANumber) cs
  | 'I' :: _ => word? "Infinity" (.real (Real64.infinity false)) cs
  | '-' :: 'I' :: _ => word? "-Infinity" (.real (Real64.infinity true)) cs
  | '-' :: rest => number? true rest
  | _ => number? false cs

mutual

def value? : Nat → List Char → Option (Value × List Char)
  | 0, _ => none
  | fuel + 1, cs =>
    match skipSpace cs with
    | '"' :: rest => do
      let (s, rest) ← stringBody (fuel + 1) [] rest
      some (.text (String.ofList s), rest)
    | '[' :: rest =>
      match skipSpace rest with
      | ']' :: rest => some (.list [], rest)
      | rest => items? fuel [] rest
    | '\x7b' :: rest =>
      match skipSpace rest with
      | '\x7d' :: rest => some (.map [], rest)
      | rest => entries? fuel [] rest
    | rest => scalar? rest

def items? : Nat → List Value → List Char → Option (Value × List Char)
  | 0, _, _ => none
  | fuel + 1, acc, cs => do
    let (v, rest) ← value? fuel cs
    match skipSpace rest with
    | ',' :: rest => items? fuel (v :: acc) rest
    | ']' :: rest => some (.list (v :: acc).reverse, rest)
    | _ => none

def entries? : Nat → Value.Entries → List Char → Option (Value × List Char)
  | 0, _, _ => none
  | fuel + 1, acc, cs =>
    match skipSpace cs with
    | '"' :: rest => do
      let (k, rest) ← stringBody (fuel + 1) [] rest
      match skipSpace rest with
      | ':' :: rest =>
        let (v, rest) ← value? fuel rest
        let acc := Table.put (.text (String.ofList k)) v acc
        match skipSpace rest with
        | ',' :: rest => entries? fuel acc rest
        | '\x7d' :: rest => some (.map acc, rest)
        | _ => none
      | _ => none
    | _ => none

end

/-- The value that a whole text spells. Every step takes a character, so the length bounds the steps. -/
def parse? (s : String) : Option Value := do
  let cs := s.toList
  let (v, rest) ← value? (2 * cs.length + 2) cs
  if (skipSpace rest).isEmpty then some v else none

end Tinct.Json
