import Tinct.Proofs.Splice

/-! The smallest change between two texts. A change leaves a start and an end of the text as they are, and these do not
overlap in either text. What is found by taking the longest shared start first, and the longest shared end of the rest
after it, is never shorter than both together, although another change may leave less of the start and more of the end. -/
namespace Tinct
namespace Text

theorem sharedLeadMost {a b : Text} {n : Nat} (left : n ≤ a.length) (right : n ≤ b.length)
    (same : a.take n = b.take n) : n ≤ sharedLead a b := by
  fun_induction sharedLead a b generalizing n with
  | case1 x xs ys ih =>
    cases n with
    | zero => exact Nat.zero_le _
    | succ n =>
      rw [List.take_succ_cons,List.take_succ_cons] at same
      exact Nat.succ_le_succ (ih (Nat.le_of_succ_le_succ left) (Nat.le_of_succ_le_succ right) (List.cons.inj same).2)
  | case2 x xs y ys other =>
    cases n with
    | zero => exact Nat.le_refl _
    | succ n =>
      rw [List.take_succ_cons,List.take_succ_cons] at same
      exact absurd (List.cons.inj same).1 other
  | case3 a b ends =>
    cases a with
    | nil => exact left
    | cons x xs =>
      cases b with
      | nil => exact right
      | cons y ys => exact absurd rfl (ends x xs y ys rfl)

def sharedRest (a b : Text) : Nat :=
  sharedLead (a.drop (sharedLead a b)).reverse (b.drop (sharedLead a b)).reverse

theorem sharedRestLe (a b : Text) :
    sharedLead a b + sharedRest a b ≤ a.length ∧ sharedLead a b + sharedRest a b ≤ b.length := by
  have lead := sharedLeadLe a b
  have rest := sharedLeadLe (a.drop (sharedLead a b)).reverse (b.drop (sharedLead a b)).reverse
  simp only [List.length_reverse,List.length_drop] at rest
  unfold sharedRest
  omega

theorem takeReverseDrop {t : Text} {lead n : Nat} (room : lead + n ≤ t.length) :
    (t.drop lead).reverse.take n = (t.drop (t.length - n)).reverse := by
  have start : lead + (t.length - lead - n) = t.length - n := by omega
  rw [List.take_reverse,List.length_drop,List.drop_drop,start]

theorem dropShorter {a b : Text} {k n : Nat} (short : n ≤ k) (left : k ≤ a.length) (right : k ≤ b.length)
    (same : a.drop (a.length - k) = b.drop (b.length - k)) : a.drop (a.length - n) = b.drop (b.length - n) := by
  have more := congrArg (List.drop (k - n)) same
  have first : a.length - k + (k - n) = a.length - n := by omega
  have second : b.length - k + (k - n) = b.length - n := by omega
  rwa [List.drop_drop,List.drop_drop,first,second] at more

theorem sharedEndsMost {a b : Text} {i k : Nat} (left : i + k ≤ a.length) (right : i + k ≤ b.length)
    (start : a.take i = b.take i) (stop : a.drop (a.length - k) = b.drop (b.length - k)) :
    i + k ≤ sharedLead a b + sharedRest a b := by
  have lead := sharedLeadMost (Nat.le_of_add_right_le left) (Nat.le_of_add_right_le right) start
  have bounds := sharedLeadLe a b
  -- of the shared end, as much as the shared lead leaves room for in the shorter text
  have rest : min k (min a.length b.length - sharedLead a b) ≤ sharedRest a b := by
    apply sharedLeadMost
    · simp only [List.length_reverse,List.length_drop]
      omega
    · simp only [List.length_reverse,List.length_drop]
      omega
    · rw [takeReverseDrop (by omega),takeReverseDrop (by omega),
        dropShorter (Nat.min_le_left _ _) (by omega) (by omega) stop]
  omega

end Text

namespace Change

def removes (c : Change) (t : Text) : Nat := c.last t - c.first t

theorem applyShares (c : Change) (before : Text) :
    before.length - c.removes before ≤
      Text.sharedLead before (c.apply before) + Text.sharedRest before (c.apply before) := by
  have bounds := c.firstLe before
  have size := c.applyLength before
  have kept : before.length - c.removes before = c.first before + (before.length - c.last before) := by
    unfold removes
    omega
  have old : before.length - (before.length - c.last before) = c.last before := by omega
  have new : (c.apply before).length - (before.length - c.last before) = c.first before + c.text.length := by omega
  rw [kept]
  apply Text.sharedEndsMost
  · omega
  · omega
  · exact (c.applyLead before).symm
  · rw [old,new,c.applyTail]

structure Smallest (d : Change) (before after : Text) : Prop where
  offset : 0 ≤ d.offset
  length : 0 ≤ d.length
  inside : d.offset + d.length ≤ before.length
  applies : d.apply before = after
  least : ∀ c : Change, c.apply before = after → d.length ≤ c.removes before ∧ d.text.length ≤ c.text.length

theorem betweenSize {before after : Text} {d : Change} (found : between before after = some d) :
    d.offset = Text.sharedLead before after ∧
    d.length = before.length - Text.sharedLead before after - Text.sharedRest before after ∧
    (d.text.length : Int) = after.length - Text.sharedLead before after - Text.sharedRest before after := by
  have bounds := Text.sharedRestLe before after
  unfold between at found
  split at found <;> try contradiction
  cases Option.some.inj found
  unfold Text.sharedRest at bounds ⊢
  refine ⟨rfl,?_,?_⟩
  · dsimp only
    omega
  · simp only [List.length_drop,List.length_take]
    omega

theorem betweenSmallest {before after : Text} {d : Change} (found : between before after = some d) :
    d.Smallest before after := by
  have bounds := Text.sharedRestLe before after
  obtain ⟨offset,length,size⟩ := betweenSize found
  refine ⟨by omega,by omega,by omega,betweenApplies found,?_⟩
  intro c other
  have shares := c.applyShares before
  have grown := c.applyLength before
  have ends := c.firstLe before
  rw [other] at shares grown
  unfold removes at shares ⊢
  omega

theorem betweenNoneIff (before after : Text) : between before after = none ↔ before = after :=
  ⟨betweenNone,fun same => if_pos same⟩

theorem smallestChange (before after : Text) :
    (between before after = none ↔ before = after) ∧
    (before ≠ after → ∃ d, between before after = some d ∧ d.Smallest before after) := by
  refine ⟨betweenNoneIff before after,?_⟩
  intro differ
  obtain ⟨d,found⟩ := Option.ne_none_iff_exists'.mp fun missing => differ (betweenNone missing)
  exact ⟨d,found,betweenSmallest found⟩

-- The shared start and the shared end of these overlap, and the other change starts before the text.
theorem repeatedSmallest :
    ['a','a','a'] ≠ ['a','a'] ∧ ∃ d, between ['a','a','a'] ['a','a'] = some d ∧
      d.Smallest ['a','a','a'] ['a','a'] ∧ Change.apply ⟨-4,2,['a']⟩ ['a','a','a'] = ['a','a'] ∧
      d.length ≤ removes ⟨-4,2,['a']⟩ ['a','a','a'] ∧ d.text.length ≤ ['a'].length := by
  have differ : ['a','a','a'] ≠ ['a','a'] := by decide
  obtain ⟨d,found,smallest⟩ := (smallestChange ['a','a','a'] ['a','a']).2 differ
  have other : Change.apply ⟨-4,2,['a']⟩ ['a','a','a'] = ['a','a'] := by decide
  exact ⟨differ,d,found,smallest,other,smallest.least _ other⟩

end Change
end Tinct
