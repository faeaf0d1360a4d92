import Tinct.Yaml.Cursor
import Tinct.Json.Reader

/-! Dates and times as scalars. The day comes first; hours, minutes, seconds with a fraction, and an offset may
follow. A date that no calendar has is refused when it is made, not when it is recognised. -/
namespace Tinct.Yaml

structure Clock where
  hour : Nat
  minute : Nat
  second : Nat
  micro : Nat
  offset : Option Int
  deriving DecidableEq, Repr

structure Timestamp where
  year : Nat
  month : Nat
  day : Nat
  clock : Option Clock
  deriving DecidableEq, Repr

namespace Timestamp

def number? (least most : Nat) (t : Text) : Option (Nat × Text) :=
  let ds := (t.take most).takeWhile Char.isDigit
  if least ≤ ds.length then some (Json.natOf ds, t.drop ds.length) else none

def mark? (c : Char) : Text → Option Text
  | d :: rest => if d = c then some rest else none
  | [] => none

def dropGaps (t : Text) : Text := t.dropWhile fun c => c = ' ' || c = '\t'

def offset? (t : Text) : Option (Option Int) :=
  match dropGaps t with
  | [] => if t.isEmpty then some none else none
  | ['Z'] => some (some 0)
  | sign :: rest =>
    if sign = '+' ∨ sign = '-' then do
      let (hours, rest) ← number? 1 2 rest
      let (minutes, rest) ← match rest with
        | ':' :: rest => number? 2 2 rest
        | rest => some (0, rest)
      if rest.isEmpty then
        let total : Int := hours * 60 + minutes
        some (some (if sign = '-' then -total else total))
      else none
    else none

def micros (ds : Text) : Nat := Json.natOf ((ds ++ List.replicate 6 '0').take 6)

def clock? (t : Text) : Option Clock := do
  let (hour, t) ← number? 1 2 t
  let (minute, t) ← number? 2 2 (← mark? ':' t)
  let (second, t) ← number? 2 2 (← mark? ':' t)
  let (fraction, t) := match t with
    | '.' :: rest => (rest.takeWhile Char.isDigit, rest.dropWhile Char.isDigit)
    | rest => ([], rest)
  return ⟨hour, minute, second, micros fraction, ← offset? t⟩

def parse? (t : Text) : Option Timestamp := do
  let (year, t) ← number? 4 4 t
  let (month, t) ← number? 1 2 (← mark? '-' t)
  let (day, t) ← number? 1 2 (← mark? '-' t)
  match t with
  | [] => return ⟨year, month, day, none⟩
  | c :: rest =>
    if c = 'T' ∨ c = 't' then return ⟨year, month, day, ← clock? rest⟩
    else if c = ' ' ∨ c = '\t' then return ⟨year, month, day, ← clock? (dropGaps rest)⟩
    else none

/-- Without a clock a plain scalar is a date only if it is written in full. -/
def isPlain (t : Text) : Bool :=
  match parse? t with
  | some m => m.clock.isSome || t.length = 10
  | none => false

def daysIn (year month : Nat) : Nat :=
  if month = 2 then (if year % 4 = 0 ∧ (year % 100 ≠ 0 ∨ year % 400 = 0) then 29 else 28)
  else if [4, 6, 9, 11].contains month then 30 else 31

def refuse {α : Type} (message : String) : Reading α := throw (.raised "ValueError" message)

def Clock.check (c : Clock) : Reading Unit := do
  if 23 < c.hour then refuse "hour must be in 0..23"
  if 59 < c.minute then refuse "minute must be in 0..59"
  if 59 < c.second then refuse "second must be in 0..59"

def check (m : Timestamp) : Reading Unit := do
  if (m.clock.bind Clock.offset).any fun minutes => 24 * 60 ≤ minutes.natAbs then
    refuse "offset must be a timedelta strictly between -timedelta(hours=24) and timedelta(hours=24)."
  if m.year = 0 then refuse "year 0 is out of range"
  if m.month = 0 ∨ 12 < m.month then refuse "month must be in 1..12"
  if m.day = 0 ∨ daysIn m.year m.month < m.day then refuse "day is out of range for month"
  m.clock.forM Clock.check

def listed (ns : List Nat) : String := String.intercalate ", " (ns.map toString)

def zoneText (minutes : Int) : String :=
  if minutes = 0 then "datetime.timezone.utc"
  else
    let delta := if 0 ≤ minutes then "seconds=" ++ toString (minutes * 60)
      else "days=-1, seconds=" ++ toString (86400 + minutes * 60)
    "datetime.timezone(datetime.timedelta(" ++ delta ++ "))"

def shown (m : Timestamp) : String :=
  match m.clock with
  | none => "datetime.date(" ++ listed [m.year, m.month, m.day] ++ ")"
  | some c =>
    let seconds := if c.micro ≠ 0 then [c.second, c.micro] else if c.second ≠ 0 then [c.second] else []
    let zone := match c.offset with | some minutes => ", tzinfo=" ++ zoneText minutes | none => ""
    "datetime.datetime(" ++ listed ([m.year, m.month, m.day, c.hour, c.minute] ++ seconds) ++ zone ++ ")"

def valueOf (s : String) : Reading Value := do
  match parse? s.toList with
  | none => throw (.raised "AttributeError" "'NoneType' object has no attribute 'groupdict'")
  | some m =>
    m.check
    return .other m.shown

end Timestamp
end Tinct.Yaml
