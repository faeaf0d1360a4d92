import Tinct.Proofs.NumberedNames

/-! The mask of a list of modifiers is the set of their bits. Every bit belongs to one name: to the modifier in that place
of the legend, or, two places past the last one, to the sentinel where the legend does not have it. So a mask tells which of
the known names were listed, and nothing else. -/
namespace Tinct
namespace Encoder

section
variable {e : Encoder} {name : String} {i : Nat}

theorem modifierNumber (e : Encoder) (name : String) : e.modifierBit? name = numberIn? e.legend.modifiers name := by
  cases place : e.legend.modifiers.idxOf? name with
  | none => simp only [modifierBit?,Legend.modifierPlace,numberIn?,place,Legend.modifierCount]
  | some i => simp only [modifierBit?,Legend.modifierPlace,numberIn?,place]

theorem modifierBitIff : e.modifierBit? name = some i ↔ e.legend.modifiers[i]? = some name ∨
    i = e.legend.modifierCount + 2 ∧ name = outOfLegend ∧ outOfLegend ∉ e.legend.modifiers := by
  rw [modifierNumber]
  exact numberIff e.legend.modifiersNodup

theorem modifierBitInj {other : String} (mine : e.modifierBit? name = some i) (yours : e.modifierBit? other = some i) :
    name = other := by
  rw [modifierNumber] at mine yours
  exact numberInj e.legend.modifiersNodup mine yours

theorem modifierBitSome : (e.modifierBit? name).isSome = true ↔ name ∈ e.legend.modifiers ∨ name = outOfLegend := by
  rw [modifierNumber]
  exact numberSome

theorem modifierBitBound (found : e.modifierBit? name = some i) : i < e.legend.modifierCount + 3 := by
  rw [modifierNumber] at found
  exact numberBound e.legend.modifiersNodup found

theorem foldBits {α : Type} (bit : α → Option Nat) {step : Nat → α → Nat}
    (sets : ∀ mask a i, (step mask a).testBit i = true ↔ mask.testBit i = true ∨ bit a = some i) (items : List α)
    (mask i : Nat) :
    (items.foldl step mask).testBit i = true ↔ mask.testBit i = true ∨ ∃ a ∈ items, bit a = some i := by
  induction items generalizing mask with
  | nil => simp
  | cons a items ih => rw [List.foldl_cons,ih,sets,List.exists_mem_cons_iff,or_assoc]

theorem maskBit {names : List String} :
    (e.mask names).testBit i = true ↔ ∃ name ∈ names, e.modifierBit? name = some i := by
  unfold mask
  rw [foldBits e.modifierBit?]
  · rw [Nat.zero_testBit]
    simp only [Bool.false_eq_true,false_or]
  · intro start name j
    cases e.modifierBit? name with
    | none => simp
    | some k => simp only [Nat.testBit_or,Nat.one_shiftLeft,Nat.testBit_two_pow,Bool.or_eq_true,decide_eq_true_eq,
        Option.some.injEq]

end

theorem maskEq {e : Encoder} {names others : List String} (same : ∀ name, name ∈ names ↔ name ∈ others) :
    e.mask names = e.mask others := by
  apply Nat.eq_of_testBit_eq
  intro i
  rw [Bool.eq_iff_iff,maskBit,maskBit]
  simp only [same]

theorem maskAppend (e : Encoder) (names others : List String) :
    e.mask (names ++ others) = e.mask names ||| e.mask others := by
  apply Nat.eq_of_testBit_eq
  intro i
  rw [Bool.eq_iff_iff,Nat.testBit_or,Bool.or_eq_true,maskBit,maskBit,maskBit]
  simp only [List.mem_append,or_and_right,exists_or]

def nameAt? (e : Encoder) (i : Nat) : Option String :=
  if i = e.legend.modifierCount + 2 ∧ outOfLegend ∉ e.legend.modifiers then some outOfLegend else e.legend.modifiers[i]?

def unmask (e : Encoder) (mask : Nat) : List String :=
  (List.range (e.legend.modifierCount + 3)).filterMap fun i => if mask.testBit i then e.nameAt? i else none

theorem nameAtIff {e : Encoder} {i : Nat} {name : String} : e.nameAt? i = some name ↔ e.modifierBit? name = some i := by
  have past : e.legend.modifiers[e.legend.modifierCount + 2]? = none := List.getElem?_eq_none (Nat.le_add_right _ _)
  rw [modifierBitIff,nameAt?]
  split
  · rename_i last
    obtain ⟨rfl,outside⟩ := last
    simp only [past,Option.some.injEq,reduceCtorEq,false_or,outside,not_false_eq_true,and_true,true_and,eq_comm]
  · rename_i other
    constructor
    · exact .inl
    · rintro (here | ⟨last,_,outside⟩)
      · exact here
      · exact absurd ⟨last,outside⟩ other

theorem memUnmask {e : Encoder} {mask : Nat} {name : String} :
    name ∈ e.unmask mask ↔ ∃ i, mask.testBit i = true ∧ e.modifierBit? name = some i := by
  simp only [unmask,List.mem_filterMap,List.mem_range,Option.ite_none_right_eq_some,nameAtIff]
  constructor
  · rintro ⟨i,_,found⟩
    exact ⟨i,found⟩
  · rintro ⟨i,set,found⟩
    exact ⟨i,modifierBitBound found,set,found⟩

theorem unmaskMask {e : Encoder} {names : List String} {name : String} :
    name ∈ e.unmask (e.mask names) ↔ name ∈ names ∧ (name ∈ e.legend.modifiers ∨ name = outOfLegend) := by
  rw [memUnmask,← modifierBitSome,Option.isSome_iff_exists]
  constructor
  · rintro ⟨i,set,mine⟩
    obtain ⟨other,listed,yours⟩ := maskBit.mp set
    rw [modifierBitInj mine yours]
    exact ⟨listed,i,yours⟩
  · rintro ⟨listed,i,found⟩
    exact ⟨i,maskBit.mpr ⟨name,listed,found⟩,found⟩

theorem masksAreSets (e : Encoder) :
    (∀ names i, (e.mask names).testBit i = true ↔
      (i < e.legend.modifierCount ∧ ∃ name ∈ names, e.legend.modifiers[i]? = some name) ∨
      i = e.legend.modifierCount + 2 ∧ outOfLegend ∈ names ∧ outOfLegend ∉ e.legend.modifiers) ∧
    (∀ names others, (∀ name, name ∈ names ↔ name ∈ others) → e.mask names = e.mask others) ∧
    (∀ names others both, (∀ name, name ∈ both ↔ name ∈ names ∨ name ∈ others) →
      e.mask both = e.mask names ||| e.mask others) ∧
    (∀ name ∈ e.legend.modifiers, e.modifierBit? name ≠ some (e.legend.modifierCount + 2)) ∧
    ∀ names name, name ∈ e.unmask (e.mask names) ↔
      name ∈ names ∧ (name ∈ e.legend.modifiers ∨ name = outOfLegend) := by
  refine ⟨?_,fun names others => maskEq,?_,?_,fun names name => unmaskMask⟩
  · intro names i
    rw [maskBit]
    constructor
    · rintro ⟨name,listed,found⟩
      rcases modifierBitIff.mp found with here | ⟨rfl,rfl,outside⟩
      · exact .inl ⟨(List.getElem?_eq_some_iff.mp here).1,name,listed,here⟩
      · exact .inr ⟨rfl,listed,outside⟩
    · rintro (⟨_,name,listed,here⟩ | ⟨rfl,listed,outside⟩)
      · exact ⟨name,listed,modifierBitIff.mpr (.inl here)⟩
      · exact ⟨outOfLegend,listed,modifierBitIff.mpr (.inr ⟨rfl,rfl,outside⟩)⟩
  · intro names others both union
    rw [← maskAppend]
    apply maskEq
    intro name
    rw [union,List.mem_append]
  · intro name known last
    rcases modifierBitIff.mp last with here | ⟨_,rfl,outside⟩
    · exact absurd (List.getElem?_eq_some_iff.mp here).1 (Nat.not_lt.mpr (Nat.le_add_right _ _))
    · exact outside known

def wideModifier (n : Nat) : String := String.ofList (List.replicate n 'm')

theorem wideModifierInj : Function.Injective wideModifier := by
  intro m n same
  simpa [wideModifier] using congrArg String.length same

def wideLegend : Legend :=
  { types := ["a"], modifiers := (List.range 70).map wideModifier
    modifiersIndexed := Legend.indexTable.mpr ⟨List.nodup_range.map wideModifierInj,rfl⟩ }

def wideEncoder : Encoder := { legend := wideLegend }

def wideNames : List String := [outOfLegend,"nowhere",wideModifier 69,outOfLegend]

theorem wideNamesMasked :
    (wideEncoder.mask wideNames).testBit 69 = true ∧ (wideEncoder.mask wideNames).testBit 72 = true ∧
    wideEncoder.mask wideNames = wideEncoder.mask wideNames.tail.reverse ∧
    ∀ name, name ∈ wideEncoder.unmask (wideEncoder.mask wideNames) ↔ name = wideModifier 69 ∨ name = outOfLegend := by
  obtain ⟨bits,sets,_,_,recovered⟩ := masksAreSets wideEncoder
  have known : wideEncoder.legend.modifiers[69]? = some (wideModifier 69) := by decide +kernel
  have outside : outOfLegend ∉ wideEncoder.legend.modifiers := by decide +kernel
  have strange : "nowhere" ∉ wideEncoder.legend.modifiers := by decide +kernel
  refine ⟨(bits wideNames 69).mpr (.inl ⟨by decide,wideModifier 69,by decide,known⟩),
    (bits wideNames 72).mpr (.inr ⟨by decide,by decide,outside⟩),sets _ _ ?_,?_⟩
  · intro name
    simp only [wideNames,List.tail_cons,List.mem_reverse,List.mem_cons]
    grind
  · intro name
    have last : wideModifier 69 ∈ wideEncoder.legend.modifiers := List.mem_of_getElem? known
    have other : "nowhere" ≠ outOfLegend := by decide
    rw [recovered]
    simp only [wideNames,List.mem_cons,List.not_mem_nil,or_false]
    grind

end Encoder
end Tinct
