/-! Tables: association lists in the order in which the keys were first put. `put` sets a key in place or adds
it at the end, `erase` drops it; lookups are pinned down by `lookupPut` and `lookupErase`. -/
namespace Tinct

abbrev Table (κ ν : Type) := List (κ × ν)

namespace Table
variable {κ ν : Type} [DecidableEq κ]

def get? (key : κ) : Table κ ν → Option ν
  | [] => none
  | (k, v) :: rest => if k = key then some v else get? key rest

def put (key : κ) (value : ν) : Table κ ν → Table κ ν
  | [] => [(key, value)]
  | (k, v) :: rest => if k = key then (key, value) :: rest else (k, v) :: put key value rest

def erase (key : κ) (t : Table κ ν) : Table κ ν := t.filter fun e => e.1 ≠ key

def keys (t : Table κ ν) : List κ := t.map Prod.fst

def has (key : κ) (t : Table κ ν) : Bool := (get? key t).isSome

def ofList (entries : List (κ × ν)) : Table κ ν := entries.foldl (fun acc e => put e.1 e.2 acc) []

theorem lookupPut (key other : κ) (value : ν) (t : Table κ ν) :
    get? other (put key value t) = if key = other then some value else get? other t := by
  induction t with
  | nil => simp [put, get?]
  | cons e rest ih =>
    obtain ⟨k, v⟩ := e
    simp only [put]
    split
    · next hk => subst hk; simp only [get?]; split <;> simp_all
    · next hk =>
      simp only [get?]
      split
      · next ho => subst ho; simp [Ne.symm hk]
      · exact ih

theorem lookupErase (key other : κ) (t : Table κ ν) :
    get? other (erase key t) = if key = other then none else get? other t := by
  induction t with
  | nil => simp [erase, get?]
  | cons e rest ih =>
    obtain ⟨k, v⟩ := e
    by_cases hk : k = key
    · subst hk
      simp only [erase, ne_eq, not_true_eq_false, decide_false, Bool.false_eq_true,
        not_false_eq_true, List.filter_cons_of_neg] at ih ⊢
      rw [ih]
      by_cases ho : k = other <;> simp [get?, ho]
    · simp only [erase, ne_eq, hk, not_false_eq_true, decide_true, List.filter_cons_of_pos, get?] at ih ⊢
      rw [ih]
      by_cases ho : k = other
      · subst ho; simp [Ne.symm hk]
      · simp [ho]

end Table
end Tinct
