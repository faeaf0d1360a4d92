import Tinct.Decimal.Nearest

/-! The fewest decimal digits that read back as the same float, the nearest to it among those. Positional from
1e-4 up to below 1e16, with a point in it always; outside that an exponent of two digits or more. -/
namespace Tinct.Real64

structure Digits where
  digits : List Char
  point : Int
  deriving DecidableEq, Repr

def leadingExponent (num den : Nat) : Int :=
  if den ≤ num then ((Nat.toDigits 10 (num / den)).length : Int) - 1
  else match (List.range 400).find? fun j => den ≤ num * tenTo j with
    | some j => -(j : Int)
    | none => -400

def distance (a b : Nat) : Nat := if a ≤ b then b - a else a - b

/-- A grid point `n · 10 ^ k` inside the interval that rounds to the float, if the grid has one next to it.
All numbers are over the common denominator `den`: the value `v`, the ends `lo` and `hi`. -/
def onGrid (v lo hi den : Nat) (closed : Bool) (k : Int) : Option Nat :=
  let unit : Nat × Nat := if k < 0 then (1, tenTo (-k).toNat) else (tenTo k.toNat, 1)
  -- a grid point n is the quotient n * unit.1 / unit.2, compared after both sides are cleared of denominators
  let pointAt (n : Nat) : Nat := n * unit.1 * den
  let v' := v * unit.2
  let within (n : Nat) : Bool :=
    if closed then lo * unit.2 ≤ pointAt n && pointAt n ≤ hi * unit.2
    else lo * unit.2 < pointAt n && pointAt n < hi * unit.2
  let below := v' / (unit.1 * den)
  let above := below + 1
  match within below && below ≠ 0, within above with
  | true, true =>
    let a := distance v' (pointAt below)
    let b := distance v' (pointAt above)
    some (if a < b ∨ (a = b ∧ below % 2 = 0) then below else above)
  | true, false => some below
  | false, true => some above
  | false, false => none

def trimZeros (cs : List Char) : List Char :=
  let kept := (cs.reverse.dropWhile (· = '0')).reverse
  if kept.isEmpty then ['0'] else kept

def search (v lo hi den : Nat) (closed : Bool) (lead : Int) : List Nat → Digits
  | [] => ⟨['0'], 1⟩
  | count :: rest =>
    let k := lead - count + 1
    match onGrid v lo hi den closed k with
    | some n =>
      let ds := Nat.toDigits 10 n
      ⟨trimZeros ds, k + ds.length⟩
    | none => search v lo hi den closed lead rest

/-- The shortest digits of `m · 2 ^ e`. The gap below a power of two is half as wide. -/
def shortest (m : Nat) (e : Int) : Digits :=
  if m = 0 then ⟨['0'], 1⟩ else
  let down := if m = twoTo 52 ∧ -1074 < e then 1 else 2
  let (scale, den) : Nat × Nat := if e < 2 then (1, twoTo (2 - e).toNat) else (twoTo (e - 2).toNat, 1)
  let v := 4 * m * scale
  search v ((4 * m - down) * scale) ((4 * m + 2) * scale) den (m % 2 = 0) (leadingExponent v den)
    ((List.range 17).map (· + 1))

def zeros (n : Nat) : List Char := List.replicate n '0'

def exponentText (e : Int) : List Char :=
  let ds := Nat.toDigits 10 e.natAbs
  'e' :: (if e < 0 then '-' else '+') :: (zeros (2 - ds.length) ++ ds)

def layout (d : Digits) : List Char :=
  if -4 < d.point ∧ d.point ≤ 16 then
    if d.point ≤ 0 then '0' :: '.' :: (zeros (-d.point).toNat ++ d.digits)
    else
      let n := d.point.toNat
      if d.digits.length ≤ n then d.digits ++ zeros (n - d.digits.length) ++ ['.', '0']
      else d.digits.take n ++ '.' :: d.digits.drop n
  else
    match d.digits with
    | [] => []
    | [c] => c :: exponentText (d.point - 1)
    | c :: rest => c :: '.' :: (rest ++ exponentText (d.point - 1))

structure Specials where
  nan : String
  infinity : String
  negativeInfinity : String

def text (names : Specials) (x : Real64) : String :=
  match x.parts with
  | .nan => names.nan
  | .infinite negative => if negative then names.negativeInfinity else names.infinity
  | .finite negative m e => String.ofList ((if negative then ['-'] else []) ++ layout (shortest m e))

end Tinct.Real64
