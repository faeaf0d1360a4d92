import Tinct.Value.Basic

/-! Binary64 floats as exact numbers. A finite float is a signed `mantissa · 2 ^ exponent`; `nearest` gives the
float closest to a quotient of naturals, an exact tie going to the even mantissa. -/
namespace Tinct.Real64

inductive Parts where
  | nan
  | infinite (negative : Bool)
  | finite (negative : Bool) (mantissa : Nat) (exponent : Int)
  deriving DecidableEq, Repr

def twoTo (n : Nat) : Nat := Nat.pow 2 n

def tenTo (n : Nat) : Nat := Nat.pow 10 n

def parts (x : Real64) : Parts :=
  let n := x.bits.toNat
  let negative : Bool := n / twoTo 63 = 1
  let field : Nat := n / twoTo 52 % twoTo 11
  let fraction : Nat := n % twoTo 52
  if field = 2047 then (if fraction = 0 then .infinite negative else .nan)
  else if field = 0 then .finite negative fraction (-1074)
  else .finite negative (twoTo 52 + fraction) ((field : Int) - 1075)

def ofMagnitude (negative : Bool) (bits : Nat) : Real64 :=
  ⟨UInt64.ofNat ((if negative then twoTo 63 else 0) + bits)⟩

def infinity (negative : Bool) : Real64 := ofMagnitude negative (2047 * twoTo 52)

def notANumber : Real64 := ofMagnitude false (2047 * twoTo 52 + twoTo 51)

def roundHalfEven (num den : Nat) : Nat :=
  let q := num / den
  let r := num % den
  if den < 2 * r ∨ (2 * r = den ∧ q % 2 = 1) then q + 1 else q

def scaled (num den : Nat) (e : Int) : Nat × Nat :=
  if e < 0 then (num * twoTo (-e).toNat, den) else (num, den * twoTo e.toNat)

def exponentFor (num den : Nat) : Int :=
  let guess : Int := (num.log2 : Int) - (den.log2 : Int) - 52
  let (a, b) := scaled num den guess
  let e := if a / b < twoTo 52 then guess - 1 else guess
  if e < -1074 then -1074 else e

def nearest (negative : Bool) (num den : Nat) : Real64 :=
  if num = 0 then ofMagnitude negative 0 else
  let e := exponentFor num den
  let (a, b) := scaled num den e
  let m := roundHalfEven a b
  let (m, e) := if m = twoTo 53 then (twoTo 52, e + 1) else (m, e)
  if 971 < e then infinity negative
  else if m < twoTo 52 then ofMagnitude negative m
  else ofMagnitude negative ((e + 1075).toNat * twoTo 52 + (m - twoTo 52))

def ofDecimal (negative : Bool) (digits : Nat) (exponent : Int) : Real64 :=
  let size : Int := (Nat.toDigits 10 digits).length
  if digits = 0 ∨ exponent + size < -330 then ofMagnitude negative 0
  else if 310 < exponent + size then infinity negative
  else if exponent < 0 then nearest negative digits (tenTo (-exponent).toNat)
  else nearest negative (digits * tenTo exponent.toNat) 1

def toInt? (x : Real64) : Option Int :=
  match x.parts with
  | .finite negative m e =>
    let sign : Int := if negative then -1 else 1
    if 0 ≤ e then some (sign * (m * twoTo e.toNat : Nat))
    else if m % twoTo (-e).toNat = 0 then some (sign * (m / twoTo (-e).toNat : Nat))
    else none
  | _ => none

def plus (x : Real64) (n : Nat) : Real64 :=
  match x.parts with
  | .finite _ m e =>
    if 0 ≤ e then nearest false (m * twoTo e.toNat + n) 1
    else nearest false (m + n * twoTo (-e).toNat) (twoTo (-e).toNat)
  | _ => x

def signed (x : Real64) (negative : Bool) : Real64 := ofMagnitude negative (x.bits.toNat % twoTo 63)

end Tinct.Real64
