import Tinct.Table
import Tinct.Text.Octets

/-! Data: what a configuration file, an environment variable or a log field holds. Mappings keep the order in
which their keys were first written. Numbers are integers of any size or binary64 floats, and the two are
different values even where they denote the same number. -/
namespace Tinct

structure Real64 where
  bits : UInt64
  deriving DecidableEq, Repr

/-- A key that is no text is known by how it is shown. -/
inductive Key where
  | text (s : String)
  | other (shown : String)
  deriving DecidableEq, Repr

instance : Coe String Key := ⟨Key.text⟩

namespace Key

def name : Key → String
  | text s => s
  | other shown => shown

def isText : Key → Bool
  | text _ => true
  | other _ => false

end Key

inductive Value where
  | null
  | bool (b : Bool)
  | int (n : Int)
  | real (x : Real64)
  | text (s : String)
  | octets (data : Octets)
  | list (items : List Value)
  | set (items : List Value)
  | map (entries : List (Key × Value))
  | other (shown : String)
  deriving Inhabited, Repr

namespace Value

abbrev Entries := Table Key Value

abbrev Fields := Table String Value

def entries (fs : Fields) : Entries := fs.map fun f => (.text f.1, f.2)

def get? (v : Value) (key : Key) : Option Value :=
  match v with
  | map es => Table.get? key es
  | _ => none

def asText? : Value → Option String
  | text s => some s
  | _ => none

def asInt? : Value → Option Int
  | int n => some n
  | _ => none

def asList? : Value → Option (List Value)
  | list xs => some xs
  | _ => none

def items? : Value → Option (List Value)
  | list xs | set xs => some xs
  | _ => none

def asMap? : Value → Option Entries
  | map es => some es
  | _ => none

mutual

def same : Value → Value → Bool
  | null, null => true
  | bool a, bool b => a = b
  | int a, int b => a = b
  | real a, real b => a = b
  | text a, text b => a = b
  | octets a, octets b => a = b
  | list a, list b => sameItems a b
  | set a, set b => sameItems a b
  | map a, map b => sameEntries a b
  | other a, other b => a = b
  | _, _ => false

def sameItems : List Value → List Value → Bool
  | [], [] => true
  | v :: vs, w :: ws => same v w && sameItems vs ws
  | _, _ => false

def sameEntries : List (Key × Value) → List (Key × Value) → Bool
  | [], [] => true
  | (k, v) :: vs, (l, w) :: ws => k = l && same v w && sameEntries vs ws
  | _, _ => false

end

mutual

theorem sameIff (v w : Value) : same v w = true ↔ v = w := by
  cases v with
  | list a => cases w <;> simp [same, sameItemsIff a]
  | set a => cases w <;> simp [same, sameItemsIff a]
  | map a => cases w <;> simp [same, sameEntriesIff a]
  | _ => cases w <;> simp [same]

theorem sameItemsIff (vs ws : List Value) : sameItems vs ws = true ↔ vs = ws := by
  cases vs with
  | nil => cases ws <;> simp [sameItems]
  | cons v vs => cases ws <;> simp [sameItems, sameIff v, sameItemsIff vs]

theorem sameEntriesIff (vs ws : List (Key × Value)) : sameEntries vs ws = true ↔ vs = ws := by
  match vs with
  | [] => cases ws <;> simp [sameEntries]
  | (k, v) :: vs =>
    cases ws with
    | nil => simp [sameEntries]
    | cons e ws => simp [sameEntries, sameIff v, sameEntriesIff vs, Prod.ext_iff]

end

instance : DecidableEq Value := fun v w => decidable_of_iff _ (sameIff v w)

end Value
end Tinct
