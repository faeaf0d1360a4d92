import Tinct.Proofs.VariableLayer
import Tinct.Proofs.LayerFiles

/-! The sections of merged layers. A layer may write a section in any case, and in several; whichever spelling counts, what
all layers hold of the section together is the value of each laid over those below, as long as the two files agree on the
spelling. -/
namespace Tinct.Settings
open Value (Mapping Plain Distinct fieldOf laidOver overlayEntries)

-- The spelling that counts in one of the files counts in both together.
def SpeltAlike (tools : Tools) (user here : Value.Entries) : Prop :=
  ∀ name ∈ sectionNames, ∀ es ∈ [user,here], ∀ key ∈ spelling? tools name es,
    spelling? tools name (filesOf user here) = some key

instance (tools : Tools) (user here : Value.Entries) : Decidable (SpeltAlike tools user here) :=
  inferInstanceAs (Decidable (∀ name ∈ sectionNames, ∀ es ∈ [user,here], ∀ key ∈ spelling? tools name es,
    spelling? tools name (filesOf user here) = some key))

def Sectioned (tools : Tools) (es : Value.Entries) : Prop :=
  ∀ name ∈ sectionNames, ∀ v ∈ part? tools name es, v.asMap?.isSome = true

instance (tools : Tools) (es : Value.Entries) : Decidable (Sectioned tools es) :=
  inferInstanceAs (Decidable (∀ name ∈ sectionNames, ∀ v ∈ part? tools name es, v.asMap?.isSome = true))

theorem lowerNames : ∀ name ∈ sectionNames, Text.lower name = name := by decide +kernel

theorem namesNodup : sectionNames.Nodup := sectionsNodup

section
variable {tools : Tools} {name key : String} {es other : Value.Entries}

theorem spellingsKeys (name : String) (es : Value.Entries) : spellings name es = (Table.keys es).filterMap fun
    | .text key => if Text.lower key = name then some key else none
    | .other _ => none := by
  rw [spellings,Table.keys,List.filterMap_map]
  rfl

theorem memSpellings : key ∈ spellings name es ↔ .text key ∈ Table.keys es ∧ Text.lower key = name := by
  rw [spellingsKeys,List.mem_filterMap]
  constructor
  · rintro ⟨own,member,chosen⟩
    cases own with
    | other shown => contradiction
    | text written =>
      dsimp only at chosen
      split at chosen
      · rename_i lower
        cases Option.some.inj chosen
        exact ⟨member,lower⟩
      · contradiction
  · rintro ⟨member,lower⟩
    exact ⟨.text key,member,if_pos lower⟩

theorem spelledIn (spelt : spelling? tools name es = some key) : key ∈ spellings name es := by
  unfold spelling? at spelt
  split at spelt
  · contradiction
  · rename_i first rest listed
    rw [listed,← Option.some.inj spelt]
    exact (tools.spelling _ first rest).2

theorem unspelt : spelling? tools name es = none ↔ spellings name es = [] := by
  unfold spelling?
  cases spellings name es <;> simp

theorem spellingSame (same : Table.keys other = Table.keys es) (name : String) :
    spelling? tools name other = spelling? tools name es := by
  simp only [spelling?,spellingsKeys,same]

theorem partAt (lower : Text.lower key = name) (only : ∀ own, spelling? tools name es = some own → own = key) :
    part? tools name es = Table.get? (.text key) es := by
  unfold part?
  cases spelt : spelling? tools name es with
  | some own => rw [only own spelt]; rfl
  | none =>
    refine (Table.getNone fun member => ?_).symm
    have listed : key ∈ spellings name es := memSpellings.mpr ⟨member,lower⟩
    rw [unspelt.mp spelt] at listed
    exact List.not_mem_nil listed

theorem partSome : (part? tools name es).isSome = (spelling? tools name es).isSome := by
  unfold part?
  cases spelt : spelling? tools name es with
  | none => rfl
  | some key => exact (Table.memKeys _ es).mp (memSpellings.mp (spelledIn spelt)).1

theorem partMapping (distinct : Distinct es) (mapped : Sectioned tools es) (member : name ∈ sectionNames) :
    Mapping (part? tools name es) := by
  intro v found
  have some := mapped name member v found
  cases v with
  | map sub =>
    obtain ⟨key,_,there⟩ := Option.bind_eq_some_iff.mp found
    exact ⟨sub,rfl,distinct.inner _ sub there⟩
  | _ => contradiction

theorem keysListed (names : List String) (f : String → Option Value) :
    Table.keys (names.filterMap fun name => (f name).map fun v => (Key.text name,v)) =
      (names.filter fun name => (f name).isSome).map Key.text := by
  induction names with
  | nil => rfl
  | cons name rest ih =>
    rw [List.filterMap_cons,List.filter_cons]
    cases f name with
    | none => exact ih
    | some v => exact congrArg (Key.text name::·) ih

theorem getListed {names : List String} (f : String → Option Value) (member : name ∈ names) :
    Table.get? (.text name) (names.filterMap fun name => (f name).map fun v => (Key.text name,v)) = f name := by
  induction names with
  | nil => contradiction
  | cons other rest ih =>
    rw [List.filterMap_cons]
    by_cases same : other = name
    · subst same
      cases found : f other with
      | none =>
        refine Table.getNone fun there => ?_
        obtain ⟨own,listed,equal⟩ := List.mem_map.mp (keysListed rest f ▸ there)
        cases Key.text.inj equal
        have some := (List.mem_filter.mp listed).2
        rw [found] at some
        contradiction
      | some v => exact if_pos rfl
    · have later := ih ((List.mem_cons.mp member).resolve_left fun equal => same equal.symm)
      cases f other with
      | none => exact later
      | some v => exact (if_neg fun equal => same (Key.text.inj equal)).trans later

theorem namedSection (member : name ∈ sectionNames) : namesSection (.text name) = true := by
  rw [namesSection,lowerNames name member]
  exact List.contains_iff_mem.mpr member

theorem respellKeys (es : Value.Entries) :
    Table.keys (respellSections tools es) =
      (sectionNames.filter fun name => (spelling? tools name es).isSome).map Key.text ++
        (Table.keys es).filter fun key => !namesSection key := by
  rw [respellSections,Table.keys,List.map_append]
  refine congrArg₂ (· ++ ·) ?_ ?_
  · refine (keysListed sectionNames fun name => part? tools name es).trans ?_
    simp only [partSome]
  · rw [Table.keys,List.filter_map]
    rfl

theorem respellGet (member : name ∈ sectionNames) :
    Table.get? (.text name) (respellSections tools es) = part? tools name es := by
  have out : .text name ∉ Table.keys (es.filter fun e => !namesSection e.1) := by
    intro there
    obtain ⟨e,listed,same⟩ := List.mem_map.mp there
    have other := (List.mem_filter.mp listed).2
    rw [same,namedSection member] at other
    contradiction
  rw [respellSections,Table.getAppend,getListed (fun name => part? tools name es) member,Table.getNone out,Option.or_none]

theorem respellNodup (once : (Table.keys es).Nodup) : (Table.keys (respellSections tools es)).Nodup := by
  rw [respellKeys]
  refine List.nodup_append.mpr ⟨(namesNodup.filter _).map fun _ _ => Key.text.inj,once.filter _,?_⟩
  rintro a first b second rfl
  obtain ⟨name,listed,rfl⟩ := List.mem_map.mp first
  have other := (List.mem_filter.mp second).2
  rw [namedSection (List.mem_filter.mp listed).1] at other
  contradiction

end

section
variable {tools : Tools} {name : String} {user here : Value.Entries}

theorem filesKeys (first : (Table.keys user).Nodup) (second : (Table.keys here).Nodup) :
    Table.keys (filesOf user here) = Table.keys user ++ (Table.keys here).filter fun key => key ∉ Table.keys user := by
  have alone : Table.keys (overlayEntries [] user) = Table.keys user := by
    rw [Value.keysOverlay first]
    simp [Table.keys]
  rw [filesOf,Value.mergeLayers]
  simp only [List.foldl_cons,List.foldl_nil]
  rw [Value.keysOverlay second,alone]

theorem filesGet (first : (Table.keys user).Nodup) (second : (Table.keys here).Nodup) (key : Key) :
    Table.get? key (filesOf user here) = laidOver (Table.get? key here) (Table.get? key user) := by
  rw [filesOf,Value.mergeLayers]
  simp only [List.foldl_cons,List.foldl_nil]
  rw [Value.getOverlay second,Value.getOverlay first]
  exact congrArg _ (Value.overNone _)

theorem filesPart (first : (Table.keys user).Nodup) (second : (Table.keys here).Nodup) (alike : SpeltAlike tools user here)
    (member : name ∈ sectionNames) :
    part? tools name (filesOf user here) = laidOver (part? tools name here) (part? tools name user) := by
  cases spelt : spelling? tools name (filesOf user here) with
  | none =>
    have silent : ∀ es ∈ [user,here], spelling? tools name es = none := by
      intro es file
      refine Option.eq_none_iff_forall_ne_some.mpr fun key own => ?_
      rw [alike name member es file key own] at spelt
      contradiction
    simp only [part?,spelt,silent user (by simp),silent here (by simp)]
    rfl
  | some key =>
    have lower := (memSpellings.mp (spelledIn spelt)).2
    have only : ∀ es ∈ [user,here], ∀ own, spelling? tools name es = some own → own = key := by
      intro es file own written
      exact Option.some.inj ((alike name member es file own written).symm.trans spelt)
    rw [partAt lower fun own written => Option.some.inj (written.symm.trans spelt),partAt lower (only here (by simp)),
      partAt lower (only user (by simp)),filesGet first second]

end
end Tinct.Settings
