import Tinct.Settings.Check
import Tinct.Proofs.Tables
import Mathlib.Data.List.Nodup

/-! Names that stand twice. Two loops look for them: one remembers the names it has passed, the other builds the table of
their places. Both end at the first name that is repeated; where none is, the table gives every name its place. -/
namespace Tinct

def FirstTwice (names : List String) (name : String) : Prop :=
  ∃ before after, names = before ++ name::after ∧ before.Nodup ∧ name ∈ before

namespace Settings
variable {names : List String} {name : String}

theorem repeatSeen (seen : List String) : firstRepeat seen names = some name ↔
    ∃ before after, names = before ++ name::after ∧ before.Nodup ∧ (∀ other ∈ before, other ∉ seen) ∧
      (name ∈ seen ∨ name ∈ before) := by
  induction names generalizing seen with
  | nil => simp [firstRepeat]
  | cons n rest ih =>
    rw [firstRepeat]
    split
    · rename_i known
      constructor
      · rintro ⟨⟩
        exact ⟨[],rest,rfl,List.nodup_nil,by simp,.inl known⟩
      · rintro ⟨before,after,split,_,unseen,_⟩
        cases before with
        | nil => rw [(List.cons.inj split).1]
        | cons m before =>
          cases split
          exact absurd known (unseen n List.mem_cons_self)
    · rename_i fresh
      rw [ih]
      constructor
      · rintro ⟨before,after,rfl,once,unseen,twice⟩
        have early : n ∉ before := fun member => unseen n member List.mem_cons_self
        refine ⟨n::before,after,rfl,List.nodup_cons.mpr ⟨early,once⟩,?_,?_⟩
        · exact List.forall_mem_cons.mpr ⟨fresh,fun m member known => unseen m member (List.mem_cons_of_mem n known)⟩
        · rcases twice with known | member
          · exact (List.mem_cons.mp known).elim (fun same => .inr (same ▸ List.mem_cons_self)) .inl
          · exact .inr (List.mem_cons_of_mem n member)
      · rintro ⟨before,after,split,once,unseen,twice⟩
        cases before with
        | nil =>
          cases split
          simp [fresh] at twice
        | cons m before =>
          cases split
          obtain ⟨early,once⟩ := List.nodup_cons.mp once
          refine ⟨before,after,rfl,once,?_,?_⟩
          · intro m member known
            rcases List.mem_cons.mp known with rfl | known
            · exact early member
            · exact unseen m (List.mem_cons_of_mem _ member) known
          · simpa [or_assoc,or_left_comm] using twice

theorem repeatIff : firstRepeat [] names = some name ↔ FirstTwice names name := by
  simp [repeatSeen,FirstTwice]

theorem freshNone (seen : List String) : firstRepeat seen names = none ↔ names.Nodup ∧ ∀ n ∈ names, n ∉ seen := by
  induction names generalizing seen with
  | nil => simp [firstRepeat]
  | cons n rest ih =>
    rw [firstRepeat]
    split
    · rename_i known
      simp [known]
    · rename_i fresh
      rw [ih,List.nodup_cons,List.forall_mem_cons]
      simp only [List.mem_cons,not_or]
      constructor
      · rintro ⟨once,unseen⟩
        exact ⟨⟨fun member => (unseen n member).1 rfl,once⟩,fresh,fun m member => (unseen m member).2⟩
      · rintro ⟨⟨early,once⟩,_,unseen⟩
        exact ⟨once,fun m member => ⟨fun same => early (same ▸ member),unseen m member⟩⟩

theorem repeatNone : firstRepeat [] names = none ↔ names.Nodup := by
  simp [freshNone]

end Settings

namespace Legend
open Settings (firstRepeat repeatIff repeatNone)
variable {names : List String} {name : String} {places : Table String Nat}

-- The keys of the table are the names that the other loop remembers.
theorem indexSeen {seen : List String} (known : ∀ n, n ∈ seen ↔ n ∈ Table.keys places) (next : Nat) :
    indexFrom places next names = (firstRepeat seen names).elim (.table (places ++ names.zipIdx next)) .twice := by
  induction names generalizing seen places next with
  | nil => simp [indexFrom,firstRepeat]
  | cons n rest ih =>
    have has : Table.has n places = true ↔ n ∈ seen := by rw [known,Table.memKeys,Table.has]
    rw [indexFrom,firstRepeat]
    by_cases passed : n ∈ seen
    · rw [if_pos (has.mpr passed),if_pos passed]
      rfl
    · have fresh : n ∉ Table.keys places := fun member => passed ((known n).mpr member)
      have more : ∀ m, m ∈ n::seen ↔ m ∈ Table.keys (places ++ [(n,next)]) := by
        intro m
        simp [known,Table.keys,or_comm]
      rw [if_neg fun there => passed (has.mp there),if_neg passed,Table.putAbsent fresh,ih more]
      simp

theorem indexAgrees (names : List String) : index names = (firstRepeat [] names).elim (.table names.zipIdx) .twice :=
  indexSeen (by simp [Table.keys]) 0

theorem indexTwice : index names = .twice name ↔ FirstTwice names name := by
  rw [indexAgrees,← repeatIff]
  cases firstRepeat [] names <;> simp

theorem indexTable : index names = .table places ↔ names.Nodup ∧ places = names.zipIdx := by
  rw [indexAgrees,← repeatNone]
  cases firstRepeat [] names <;> simp [eq_comm]

theorem getPlace (names : List String) (next : Nat) :
    Table.get? name (names.zipIdx next) = (names.idxOf? name).map (· + next) := by
  induction names generalizing next with
  | nil => rfl
  | cons n rest ih =>
    rw [List.zipIdx_cons,Table.get?,List.idxOf?_cons]
    by_cases same : n = name
    · simp [same]
    · rw [if_neg same,ih,if_neg (by simpa using same),Option.map_map]
      congr 1
      funext i
      simp only [Function.comp_apply]
      omega

theorem indexedPlace (indexed : index names = .table places) : Table.get? name places = names.idxOf? name := by
  rw [(indexTable.mp indexed).2,getPlace]
  simp

variable (l : Legend)

theorem typesNodup : l.types.Nodup := (indexTable.mp l.typesIndexed).1

theorem modifiersNodup : l.modifiers.Nodup := (indexTable.mp l.modifiersIndexed).1

theorem typePlace (name : String) : l.typeIndex? name = l.types.idxOf? name := indexedPlace l.typesIndexed

theorem modifierPlace (name : String) : l.modifierIndex? name = l.modifiers.idxOf? name := indexedPlace l.modifiersIndexed

end Legend
end Tinct
