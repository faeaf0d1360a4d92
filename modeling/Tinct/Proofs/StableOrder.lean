import Mathlib.Data.List.Basic

/-! Order by two numbers, the second one for items with equal first. A list put in order has the items it had, and items
with the same two numbers stand as they stood before. That fixes it: lists which agree on the items and on the order
within each place become the same list. -/
namespace Tinct

section
variable {α : Type} {first second : α → Int}

def standsAt (first second : α → Int) (i j : Int) (a : α) : Bool := first a = i && second a = j

def comesFirst (first second : α → Int) (a b : α) : Bool :=
  first a < first b || (first a = first b && second a ≤ second b)

structure Arranged (first second : α → Int) (given ordered : List α) : Prop where
  items : ordered.Perm given
  order : ordered.Pairwise fun a b => comesFirst first second a b = true
  stable : ∀ i j, ordered.filter (standsAt first second i j) = given.filter (standsAt first second i j)

theorem standsAtIff {i j : Int} {a : α} : standsAt first second i j a = true ↔ first a = i ∧ second a = j := by
  simp only [standsAt,Bool.and_eq_true,decide_eq_true_eq]

theorem comesFirstIff {a b : α} :
    comesFirst first second a b = true ↔ first a < first b ∨ first a = first b ∧ second a ≤ second b := by
  simp only [comesFirst,Bool.or_eq_true,Bool.and_eq_true,decide_eq_true_eq]

theorem comesFirstTrans (a b c : α) (left : comesFirst first second a b = true)
    (right : comesFirst first second b c = true) : comesFirst first second a c = true := by
  rw [comesFirstIff] at left right ⊢
  omega

theorem comesFirstTotal (a b : α) : (comesFirst first second a b || comesFirst first second b a) = true := by
  rw [Bool.or_eq_true,comesFirstIff,comesFirstIff]
  omega

theorem sortedArranged (first second : α → Int) (given : List α) :
    Arranged first second given (given.mergeSort (comesFirst first second)) where
  items := List.mergeSort_perm _ _
  order := List.pairwise_mergeSort comesFirstTrans comesFirstTotal given
  stable := by
    intro i j
    -- items at one place are in order already, so they stay in line, and none of them is lost
    have level : (given.filter (standsAt first second i j)).Pairwise
        fun a b => comesFirst first second a b = true := by
      apply List.pairwise_of_forall_mem_list
      intro a left b right
      have here := standsAtIff.mp (List.mem_filter.mp left).2
      have there := standsAtIff.mp (List.mem_filter.mp right).2
      rw [comesFirstIff]
      omega
    have inLine := List.sublist_mergeSort comesFirstTrans comesFirstTotal level List.filter_sublist
    have kept := inLine.filter (standsAt first second i j)
    simp only [List.filter_filter,Bool.and_self] at kept
    exact (kept.eq_of_length ((List.mergeSort_perm _ _).filter _).length_eq.symm).symm

-- The first items of two such lists stand at one place, and there both lists have the same items in line.
theorem orderDecides {xs ys : List α} (perm : xs.Perm ys)
    (left : xs.Pairwise fun a b => comesFirst first second a b = true)
    (right : ys.Pairwise fun a b => comesFirst first second a b = true)
    (level : ∀ i j, xs.filter (standsAt first second i j) = ys.filter (standsAt first second i j)) : xs = ys := by
  induction xs generalizing ys with
  | nil => exact perm.nil_eq
  | cons a xs ih =>
    cases ys with
    | nil => exact absurd perm.length_eq (by simp)
    | cons b ys =>
      obtain ⟨low,mine⟩ := List.pairwise_cons.mp left
      obtain ⟨least,yours⟩ := List.pairwise_cons.mp right
      have place : first b = first a ∧ second b = second a := by
        rcases List.mem_cons.mp (perm.mem_iff.mp List.mem_cons_self) with rfl | later
        · exact ⟨rfl,rfl⟩
        · rcases List.mem_cons.mp (perm.mem_iff.mpr List.mem_cons_self) with rfl | behind
          · exact ⟨rfl,rfl⟩
          · have up := comesFirstIff.mp (least a later)
            have down := comesFirstIff.mp (low b behind)
            omega
      have heads := level (first a) (second a)
      rw [List.filter_cons_of_pos (standsAtIff.mpr ⟨rfl,rfl⟩),List.filter_cons_of_pos (standsAtIff.mpr place)] at heads
      obtain ⟨same,_⟩ := List.cons.inj heads
      subst same
      have rest : ∀ i j, xs.filter (standsAt first second i j) = ys.filter (standsAt first second i j) := by
        intro i j
        have both := level i j
        rw [List.filter_cons,List.filter_cons] at both
        split at both
        · exact (List.cons.inj both).2
        · exact both
      rw [ih perm.cons_inv mine yours rest]

theorem arrangedSame {given others xs ys : List α} (mine : Arranged first second given xs)
    (yours : Arranged first second others ys) (perm : given.Perm others)
    (level : ∀ i j, given.filter (standsAt first second i j) = others.filter (standsAt first second i j)) : xs = ys := by
  apply orderDecides (mine.items.trans (perm.trans yours.items.symm)) mine.order yours.order
  intro i j
  rw [mine.stable,yours.stable,level]

end
end Tinct
