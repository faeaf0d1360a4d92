import Tinct.Value.Merge
import Tinct.Proofs.Tables

/-! What a key holds after layers are merged: the upper value laid over the lower one. Where the outcome is no mapping it is
the value of the highest layer that has the key, and nothing below it shows. -/
namespace Tinct

section
variable {ε α β : Type} {x : Except ε α} {f : α → Except ε β}

theorem bindOk {b : β} : x >>= f = .ok b ↔ ∃ a, x = .ok a ∧ f a = .ok b := by
  cases x with
  | error e => simp [bind,Except.bind]
  | ok a => simp [bind,Except.bind]

end

namespace Value

def laidOver : Option Value → Option Value → Option Value
  | none,lower => lower
  | some v,none => some v
  | some v,some l => some (overlay l v)

def Plain (found : Option Value) : Prop := ∀ es, found ≠ some (.map es)

def Mapping (found : Option Value) : Prop := ∀ v, found = some v → ∃ es, v = .map es ∧ (Table.keys es).Nodup

def fieldOf (key : Key) (found : Option Value) : Option Value := found.bind fun v => v.get? key

section
variable {a b : Option Value} {ls us : Entries}

theorem overlayPlain {v : Value} (plain : Plain (some v)) (l : Value) : overlay l v = v := by
  cases v with
  | map es => exact absurd rfl (plain es)
  | _ => rfl

theorem overlayMap (l : Value) (es : Entries) : ∃ all, overlay l (.map es) = .map all := by
  cases l with
  | map ls => exact ⟨_,by rw [overlay]⟩
  | _ => exact ⟨es,rfl⟩

theorem overCases (plain : Plain (laidOver a b)) : (a = none ∧ Plain b) ∨ ∃ v, a = some v ∧ ∀ c, laidOver a c = some v := by
  cases a with
  | none => exact .inl ⟨rfl,plain⟩
  | some v =>
    have own : Plain (some v) := by
      intro es same
      cases Option.some.inj same
      cases b with
      | none => exact plain es rfl
      | some l =>
        obtain ⟨all,mapped⟩ := overlayMap l es
        exact plain all (congrArg some mapped)
    refine .inr ⟨v,rfl,?_⟩
    intro c
    cases c with
    | none => rfl
    | some l => exact congrArg some (overlayPlain own l)

theorem getOverlay (once : (Table.keys us).Nodup) (ls : Entries) (key : Key) :
    Table.get? key (overlayEntries ls us) = laidOver (Table.get? key us) (Table.get? key ls) := by
  induction us generalizing ls with
  | nil => rfl
  | cons e rest ih =>
    obtain ⟨k,v⟩ := e
    obtain ⟨fresh,once⟩ := List.nodup_cons.mp once
    rw [overlayEntries,ih once,Table.lookupPut]
    simp only [Table.get?]
    split
    · rename_i same
      subst same
      rw [Table.getNone fresh]
      cases Table.get? k ls <;> rfl
    · rfl

theorem keysOverlay (once : (Table.keys us).Nodup) (ls : Entries) :
    Table.keys (overlayEntries ls us) = Table.keys ls ++ (Table.keys us).filter fun key => key ∉ Table.keys ls := by
  induction us generalizing ls with
  | nil => exact (List.append_nil _).symm
  | cons e rest ih =>
    obtain ⟨k,v⟩ := e
    obtain ⟨fresh,once⟩ := List.nodup_cons.mp once
    rw [overlayEntries,ih once,Table.keysPut]
    have split : Table.keys ((k,v)::rest) = k::Table.keys rest := rfl
    rw [split]
    by_cases old : k ∈ Table.keys ls
    · rw [if_pos old,List.filter_cons_of_neg (by simpa using old)]
    · have same : (Table.keys rest).filter (fun key => key ∉ Table.keys ls ++ [k]) =
          (Table.keys rest).filter fun key => key ∉ Table.keys ls := by
        apply List.filter_congr
        intro key member
        have different : key ≠ k := fun equal => fresh (equal ▸ member)
        simp [different]
      rw [if_neg old,List.filter_cons_of_pos (by simpa using old),same,List.append_assoc]
      rfl

theorem overlayNodup (once : (Table.keys ls).Nodup) (us : Entries) : (Table.keys (overlayEntries ls us)).Nodup := by
  induction us generalizing ls with
  | nil => exact once
  | cons e rest ih =>
    rw [overlayEntries]
    exact ih (Table.keysPutNodup once _ _)

theorem overNone (found : Option Value) : laidOver found none = found := by cases found <;> rfl

theorem overMapping (upper : Mapping a) (lower : Mapping b) : Mapping (laidOver a b) := by
  intro v found
  cases a with
  | none => exact lower v found
  | some u =>
    obtain ⟨us,rfl,once⟩ := upper u rfl
    cases b with
    | none =>
      cases Option.some.inj found
      exact ⟨us,rfl,once⟩
    | some l =>
      obtain ⟨ls,rfl,distinct⟩ := lower l rfl
      cases Option.some.inj found
      exact ⟨overlayEntries ls us,by rw [overlay],overlayNodup distinct us⟩

theorem fieldOver (upper : Mapping a) (lower : Mapping b) (key : Key) :
    fieldOf key (laidOver a b) = laidOver (fieldOf key a) (fieldOf key b) := by
  cases a with
  | none => rfl
  | some u =>
    obtain ⟨us,rfl,once⟩ := upper u rfl
    cases b with
    | none =>
      simp only [laidOver,fieldOf,Option.bind_some,Option.bind_none]
      cases get? (.map us) key <;> rfl
    | some l =>
      obtain ⟨ls,rfl,_⟩ := lower l rfl
      have both : laidOver (some (.map us)) (some (.map ls)) = some (.map (overlayEntries ls us)) := by
        rw [laidOver,overlay]
      rw [both]
      exact getOverlay once ls key

end

def stacked (found : List (Option Value)) : Option Value := found.foldr laidOver none

theorem stackedFirst {found : List (Option Value)} (plain : Plain (stacked found)) :
    stacked found = found.findSome? id := by
  induction found with
  | nil => rfl
  | cons a rest ih =>
    rcases overCases plain with ⟨rfl,below⟩ | ⟨v,rfl,same⟩
    · exact ih below
    · exact same _

theorem stackedShadows {above below : List (Option Value)} (set : ∃ a ∈ above, a.isSome = true)
    (plain : Plain (stacked (above ++ below))) (other : List (Option Value)) :
    stacked (above ++ other) = stacked (above ++ below) := by
  induction above with
  | nil =>
    obtain ⟨a,none,_⟩ := set
    contradiction
  | cons a rest ih =>
    rcases overCases plain with ⟨rfl,below⟩ | ⟨v,rfl,same⟩
    · obtain ⟨b,member,some⟩ := set
      rcases List.mem_cons.mp member with rfl | inside
      · contradiction
      · exact ih ⟨b,inside,some⟩ below
    · exact (same _).trans (same _).symm

theorem takeSet {found others : List (Option Value)}
    (related : List.Forall₂ (fun a b => a.isSome = true → b.isSome = true) found others) {n : Nat}
    (set : ∃ a ∈ found.take n, a.isSome = true) : ∃ b ∈ others.take n, b.isSome = true := by
  induction related generalizing n with
  | nil => exact set
  | cons step _ ih =>
    cases n with
    | zero => exact set
    | succ n =>
      rw [List.take_succ_cons,List.exists_mem_cons_iff] at set ⊢
      exact set.imp step ih

theorem fieldStacked {found : List (Option Value)} (mapped : ∀ a ∈ found, Mapping a) :
    Mapping (stacked found) ∧ ∀ key, fieldOf key (stacked found) = stacked (found.map (fieldOf key)) := by
  induction found with
  | nil => exact ⟨nofun,fun _ => rfl⟩
  | cons a rest ih =>
    obtain ⟨first,others⟩ := List.forall_mem_cons.mp mapped
    obtain ⟨below,fields⟩ := ih others
    refine ⟨overMapping first below,?_⟩
    intro key
    exact (fieldOver first below key).trans (congrArg _ (fields key))

end Value
end Tinct
