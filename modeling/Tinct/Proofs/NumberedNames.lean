import Tinct.Stream
import Tinct.Proofs.RepeatedNames

/-! The numbers of names. A list of distinct names numbers each by its place, and the sentinel, where it is not among them,
by two places past the end; no two names share a number. A strict encoder numbers types so and refuses every other name. A
lenient one agrees with it on what it takes; any other name gets the number of the first type, and one notice. -/
namespace Tinct

def numberIn? (names : List String) (name : String) : Option Nat :=
  match names.idxOf? name with
  | some i => some i
  | none => if name = outOfLegend then some (names.length + 2) else none

section
variable {names : List String} {name other : String} {i : Nat}

theorem placeIff (once : names.Nodup) : names.idxOf? name = some i ↔ names[i]? = some name := by
  rw [List.idxOf?_eq_some_iff]
  constructor
  · rintro ⟨inside,same,_⟩
    rw [List.getElem?_eq_getElem inside,same]
  · intro found
    obtain ⟨inside,same⟩ := List.getElem?_eq_some_iff.mp found
    refine ⟨inside,same,?_⟩
    intro j early again
    have place := (List.Nodup.getElem_inj_iff once).mp (again.trans same.symm)
    omega

theorem numberIff (once : names.Nodup) : numberIn? names name = some i ↔
    names[i]? = some name ∨ i = names.length + 2 ∧ name = outOfLegend ∧ outOfLegend ∉ names := by
  unfold numberIn?
  split
  · rename_i j found
    have known : name ∈ names := List.mem_of_getElem? ((placeIff once).mp found)
    rw [← found,placeIff once]
    constructor
    · exact .inl
    · rintro (here | ⟨_,rfl,outside⟩)
      · exact here
      · exact absurd known outside
  · rename_i absent
    have unknown := List.idxOf?_eq_none_iff.mp absent
    have nowhere : names[i]? ≠ some name := fun found => unknown (List.mem_of_getElem? found)
    split
    · rename_i sentinel
      subst sentinel
      simp only [Option.some.injEq,nowhere,unknown,not_false_eq_true,and_true,false_or,eq_comm]
    · rename_i strange
      simp only [nowhere,strange,false_and,and_false,or_self,reduceCtorEq]

theorem numberSome : (numberIn? names name).isSome = true ↔ name ∈ names ∨ name = outOfLegend := by
  rw [← List.isSome_idxOf?,numberIn?]
  cases names.idxOf? name with
  | some i => simp
  | none => by_cases sentinel : name = outOfLegend <;> simp [sentinel]

theorem numberInj (once : names.Nodup) (mine : numberIn? names name = some i) (yours : numberIn? names other = some i) :
    name = other := by
  have past : names[names.length + 2]? = none := List.getElem?_eq_none (Nat.le_add_right _ _)
  rcases (numberIff once).mp mine with here | ⟨rfl,rfl,_⟩ <;> rcases (numberIff once).mp yours with there | ⟨last,rfl,_⟩
  · exact Option.some.inj (here.symm.trans there)
  · rw [last,past] at here
    contradiction
  · rw [past] at there
    contradiction
  · rfl

theorem numberBound (once : names.Nodup) (found : numberIn? names name = some i) : i < names.length + 3 := by
  rcases (numberIff once).mp found with here | ⟨rfl,_⟩
  · exact Nat.lt_add_right 3 (List.getElem?_eq_some_iff.mp here).1
  · omega

end

namespace Legend

def strict (l : Legend) : Encoder := ⟨l,true⟩

def lenient (l : Legend) : Encoder := ⟨l,false⟩

def fallback (name first : String) : Notice :=
  ⟨.warning,"token_type_fallback",[("token_type",.text name),("fallback",.text first)]⟩

structure Numbered (types : List String) (l : Legend) : Prop where
  count : l.typeCount = types.length
  inverse : ∀ (name : String) (i : Int), l.typeName? i = some name ↔ ∃ n : Nat, i = n ∧ l.typeIndex? name = some n
  named : ∀ i : Int, l.typeName? i = none ↔ i < 0 ∨ types.length ≤ i
  placed : ∀ name, l.typeIndex? name = none ↔ name ∉ types
  taken : ∀ name, (∃ code, (l.strict.type name).1 = .ok code) ↔ name ∈ types ∨ name = outOfLegend
  agreed : ∀ name code, (l.strict.type name).1 = .ok code → l.lenient.type name = (.ok code,[])
  refused : ∀ name, name ∉ types → name ≠ outOfLegend → l.strict.type name = (.error (.unknownType name),[]) ∧
    ∃ first ∈ types.head?, l.lenient.type name = (.ok 0,[fallback name first])
  injective : ∀ name other code, (l.strict.type name).1 = .ok code → (l.strict.type other).1 = .ok code → name = other
  inside : ∀ name ∈ types, ∃ i < types.length, types[i]? = some name ∧ l.strict.type name = (.ok i,[])
  outside : outOfLegend ∉ types → l.strict.type outOfLegend = (.ok (types.length + 2),[])

section
variable {l : Legend} {name : String}

theorem ofNamesOk {types modifiers : List String} :
    ofNames types modifiers = .ok l ↔ l.types = types ∧ l.modifiers = modifiers := by
  constructor
  · intro made
    unfold ofNames at made
    split at made
    · contradiction
    · split at made
      · contradiction
      · split at made
        · contradiction
        · cases Except.ok.inj made
          exact ⟨rfl,rfl⟩
  · rintro ⟨rfl,rfl⟩
    unfold ofNames
    rw [dif_neg l.someType]
    split
    · rename_i n found
      rw [l.typesIndexed] at found
      contradiction
    · rename_i typeTable found
      cases Index.table.inj (l.typesIndexed.symm.trans found)
      split
      · rename_i n found
        rw [l.modifiersIndexed] at found
        contradiction
      · rename_i modifierTable found
        cases Index.table.inj (l.modifiersIndexed.symm.trans found)
        rfl

theorem nameAt {i : Int} : l.typeName? i = some name ↔ ∃ n : Nat, i = n ∧ l.types[n]? = some name := by
  unfold typeName?
  split
  · rename_i negative
    constructor
    · nofun
    · rintro ⟨n,rfl,_⟩
      omega
  · rename_i natural
    constructor
    · intro found
      exact ⟨i.toNat,by omega,found⟩
    · rintro ⟨n,rfl,found⟩
      exact found

theorem nameNone {i : Int} : l.typeName? i = none ↔ i < 0 ∨ l.typeCount ≤ i := by
  unfold typeName? typeCount
  split
  · rename_i negative
    simp [negative]
  · rename_i natural
    rw [List.getElem?_eq_none_iff]
    omega

theorem typeKnown {e : Encoder} {i : Nat} (found : numberIn? e.legend.types name = some i) : e.type name = (.ok i,[]) := by
  rw [numberIn?] at found
  rw [Encoder.type,typePlace]
  cases place : e.legend.types.idxOf? name with
  | some j =>
    rw [place] at found
    rw [Option.some.inj found]
  | none =>
    rw [place] at found
    by_cases sentinel : name = outOfLegend
    · simp only [if_pos sentinel,Option.some.injEq] at found
      simp only [if_pos sentinel,typeCount,found]
    · simp only [if_neg sentinel,reduceCtorEq] at found

theorem typeStrange {e : Encoder} (none : numberIn? e.legend.types name = none) :
    e.type name = if e.strict then (.error (.unknownType name),[]) else (.ok 0,[Encoder.fallbackNotice e.legend name]) := by
  have lacking : ¬(name ∈ e.legend.types ∨ name = outOfLegend) := by
    rw [← numberSome,none]
    nofun
  obtain ⟨unknown,strange⟩ := not_or.mp lacking
  rw [Encoder.type,typePlace,List.idxOf?_eq_none_iff.mpr unknown]
  simp only [if_neg strange]

theorem strictIff {code : Nat} : (l.strict.type name).1 = .ok code ↔ numberIn? l.types name = some code := by
  cases number : numberIn? l.types name with
  | some i =>
    rw [typeKnown (e := l.strict) number]
    simp
  | none =>
    rw [typeStrange (e := l.strict) number]
    simp [strict]

theorem fallbackFirst (l : Legend) (name : String) :
    ∃ first ∈ l.types.head?, Encoder.fallbackNotice l name = fallback name first := by
  cases types : l.types with
  | nil => exact absurd types l.someType
  | cons first rest => exact ⟨first,rfl,by simp [Encoder.fallbackNotice,fallback,typeName?,types]⟩

theorem typesNumbered {types modifiers : List String} (made : ofNames types modifiers = .ok l) : Numbered types l := by
  obtain ⟨rfl,_⟩ := ofNamesOk.mp made
  have once := l.typesNodup
  refine ⟨rfl,?_,fun i => nameNone,?_,?_,?_,?_,?_,?_,?_⟩
  · intro name i
    simp only [nameAt,typePlace,placeIff once]
  · intro name
    rw [typePlace,List.idxOf?_eq_none_iff]
  · intro name
    simp only [strictIff]
    rw [← Option.isSome_iff_exists]
    exact numberSome
  · intro name code passed
    exact typeKnown (e := l.lenient) (strictIff.mp passed)
  · intro name unknown strange
    have none : numberIn? l.types name = none := by
      rw [← Option.not_isSome_iff_eq_none,numberSome]
      exact not_or.mpr ⟨unknown,strange⟩
    obtain ⟨first,head,same⟩ := fallbackFirst l name
    refine ⟨typeStrange (e := l.strict) none,first,head,?_⟩
    rw [typeStrange (e := l.lenient) none,← same]
    rfl
  · intro name other code mine yours
    exact numberInj once (strictIff.mp mine) (strictIff.mp yours)
  · intro name known
    obtain ⟨i,inside,same⟩ := List.getElem_of_mem known
    have found : l.types[i]? = some name := List.getElem?_eq_some_iff.mpr ⟨inside,same⟩
    exact ⟨i,inside,found,typeKnown (e := l.strict) ((numberIff once).mpr (.inl found))⟩
  · intro outside
    exact typeKnown (e := l.strict) ((numberIff once).mpr (.inr ⟨rfl,rfl,outside⟩))

-- The sentinel is the second of two types here, so it has that place and no number of its own.
def listedSentinel : Legend := { types := ["plain",outOfLegend], modifiersIndexed := standard.modifiersIndexed }

theorem sentinelNumbered :
    ofNames ["plain",outOfLegend] [] = .ok listedSentinel ∧ listedSentinel.strict.type outOfLegend = (.ok 1,[]) ∧
    listedSentinel.typeName? 1 = some outOfLegend ∧ listedSentinel.typeName? (-1) = none ∧
    listedSentinel.strict.type "other" = (.error (.unknownType "other"),[]) ∧
    listedSentinel.lenient.type "other" = (.ok 0,[fallback "other" "plain"]) := by
  have made : ofNames ["plain",outOfLegend] [] = .ok listedSentinel := ofNamesOk.mpr ⟨rfl,rfl⟩
  have numbered := typesNumbered made
  obtain ⟨i,bound,place,code⟩ := numbered.inside outOfLegend (by decide)
  obtain ⟨refused,first,head,lenient⟩ := numbered.refused "other" (by decide) (by decide)
  have second : i = 1 := (List.getElem?_inj bound (by decide)).mp (place.trans rfl)
  cases Option.some.inj head
  subst second
  exact ⟨made,code,(numbered.inverse outOfLegend 1).mpr ⟨1,rfl,rfl⟩,(numbered.named (-1)).mpr (.inl (by decide)),refused,
    lenient⟩

end
end Legend
end Tinct
