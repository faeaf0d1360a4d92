import Tinct.Edit
import Mathlib.Data.List.Induction

/-! Edits as splices of octets. A position is said here by counting newlines, not by walking the octets, and a
list of edits is coherent when each one replaces a range of the octets that the edits before it left. The
edit of a change is such a splice on the two texts it stands between, also with its offset out of range. -/
namespace Tinct
namespace Octets

def Located (data : Octets) (offset : Int) (p : Point) : Prop :=
  p.row = (data.take offset.toNat).count newline ∧
  p.column = ((data.take offset.toNat).reverse.takeWhile (· ≠ newline)).length

theorem pointFromOrigin (data : Octets) :
    (pointFrom ⟨0,0⟩ data).row = data.count newline ∧
    (pointFrom ⟨0,0⟩ data).column = (data.reverse.takeWhile (· ≠ newline)).length := by
  -- from the right: the last octet decides whether the column starts over
  induction data using List.reverseRecOn with
  | nil => exact ⟨rfl,rfl⟩
  | append_singleton init b ih =>
    rw [pointFromAppend]
    change (advance (pointFrom ⟨0,0⟩ init) b).row = _ ∧ (advance (pointFrom ⟨0,0⟩ init) b).column = _
    by_cases h : b = newline
    · subst h
      simp [advance,ih.1]
    · simp [advance,h,ih.1,ih.2]

theorem pointAtLocated (data : Octets) (offset : Int) : Located data offset (pointAt data offset) :=
  pointFromOrigin (data.take offset.toNat)

end Octets

namespace Edit

def splice (e : Edit) (data replacement : Octets) : Octets :=
  data.take e.start.toNat ++ replacement ++ data.drop e.oldEnd.toNat

structure Splices (e : Edit) (data replacement : Octets) : Prop where
  inRange : 0 ≤ e.start ∧ e.start ≤ e.oldEnd ∧ e.oldEnd ≤ data.length
  size : (replacement.length : Int) = e.newEnd - e.start
  startPoint : data.Located e.start e.startPoint
  oldEndPoint : data.Located e.oldEnd e.oldEndPoint
  newEndPoint : (e.splice data replacement).Located e.newEnd e.newEndPoint

end Edit

inductive Coherent : Octets → List Edit → Octets → Prop where
  | nil (data) : Coherent data [] data
  | cons {data e rest final} (replacement : Octets) (fits : e.Splices data replacement)
      (next : Coherent (e.splice data replacement) rest final) : Coherent data (e::rest) final

theorem coherentAppend {a b c first second} (left : Coherent a first b) (right : Coherent b second c) :
    Coherent a (first ++ second) c := by
  induction left with
  | nil => exact right
  | cons replacement fits next ih => exact .cons replacement fits (ih right)

namespace Text

theorem octetOffsetNat (t : Text) (n : Nat) : t.octetOffset n = (octets (t.take n)).length := by
  simp [octetOffset]

theorem octetsSplit (t : Text) (n : Nat) : t.octets = octets (t.take n) ++ octets (t.drop n) := by
  rw [← octetsAppend,List.take_append_drop]

theorem octetsTake (t : Text) (n : Nat) : t.octets.take (t.octetOffset n) = octets (t.take n) := by
  rw [octetOffsetNat,octetsSplit t n,List.take_left]

theorem octetsDrop (t : Text) (n : Nat) : t.octets.drop (t.octetOffset n) = octets (t.drop n) := by
  rw [octetOffsetNat,octetsSplit t n,List.drop_left]

theorem octetOffsetLe (t : Text) (n : Nat) : t.octetOffset n ≤ t.octets.length := by
  rw [octetOffsetNat,octetsSplit t n,List.length_append]
  exact Nat.le_add_right _ _

theorem octetOffsetMono (t : Text) {n m : Nat} (le : n ≤ m) : t.octetOffset n ≤ t.octetOffset m := by
  have inner := octetOffsetLe (t.take m) n
  simp only [octetOffsetNat,List.take_take,Nat.min_eq_left le] at inner ⊢
  exact inner

theorem sharedLeadLe (a b : Text) : sharedLead a b ≤ a.length ∧ sharedLead a b ≤ b.length := by
  fun_induction sharedLead a b with
  | case1 x xs ys ih => exact ⟨Nat.succ_le_succ ih.1,Nat.succ_le_succ ih.2⟩
  | case2 => exact ⟨Nat.zero_le _,Nat.zero_le _⟩
  | case3 => exact ⟨Nat.zero_le _,Nat.zero_le _⟩

theorem sharedLeadTake (a b : Text) : a.take (sharedLead a b) = b.take (sharedLead a b) := by
  fun_induction sharedLead a b with
  | case1 x xs ys ih => simpa using ih
  | case2 => rfl
  | case3 => rfl

theorem sharedTail (a b : Text) :
    a.drop (a.length - sharedLead a.reverse b.reverse) = b.drop (b.length - sharedLead a.reverse b.reverse) := by
  have same := sharedLeadTake a.reverse b.reverse
  rw [List.take_reverse,List.take_reverse] at same
  exact List.reverse_inj.mp same

end Text

namespace Change

theorem firstLe (c : Change) (t : Text) : c.first t ≤ c.last t ∧ c.last t ≤ t.length := by
  unfold first last first
  omega

theorem leadLength (c : Change) (t : Text) : (t.take (c.first t)).length = c.first t := by
  have bounds := c.firstLe t
  rw [List.length_take]
  omega

theorem headLength (c : Change) (t : Text) : (t.take (c.first t) ++ c.text).length = c.first t + c.text.length := by
  rw [List.length_append,c.leadLength]

theorem applyLead (c : Change) (t : Text) : (c.apply t).take (c.first t) = t.take (c.first t) := by
  have size := c.leadLength t
  rw [apply,List.append_assoc,List.take_append_of_le_length (Nat.le_of_eq size.symm),List.take_take,Nat.min_self]

theorem applyHead (c : Change) (t : Text) :
    (c.apply t).take (c.first t + c.text.length) = t.take (c.first t) ++ c.text := by
  rw [apply,← c.headLength t,List.take_left]

theorem applyTail (c : Change) (t : Text) : (c.apply t).drop (c.first t + c.text.length) = t.drop (c.last t) := by
  rw [apply,← c.headLength t,List.drop_left]

theorem applyLength (c : Change) (t : Text) :
    (c.apply t).length = c.first t + c.text.length + (t.length - c.last t) := by
  rw [apply,List.length_append,c.headLength,List.length_drop]

theorem applySplice (c : Change) (before : Text) :
    (c.edit before (c.apply before)).splice before.octets c.text.octets = (c.apply before).octets := by
  simp only [Edit.splice,edit,Int.toNat_natCast,Text.octetsTake,Text.octetsDrop]
  simp [apply]

theorem applySplices (c : Change) (before : Text) :
    (c.edit before (c.apply before)).Splices before.octets c.text.octets where
  inRange := by
    have bounds := c.firstLe before
    have order := Text.octetOffsetMono before bounds.1
    have inside := Text.octetOffsetLe before (c.last before)
    exact ⟨Int.natCast_nonneg _,Int.ofNat_le.mpr order,Int.ofNat_le.mpr inside⟩
  size := by
    simp only [edit]
    omega
  startPoint := Octets.pointAtLocated _ _
  oldEndPoint := Octets.pointAtLocated _ _
  newEndPoint := by
    rw [applySplice]
    exact Octets.pointAtLocated _ _

theorem applyCoherent (c : Change) (before : Text) :
    Coherent before.octets [c.edit before (c.apply before)] (c.apply before).octets := by
  refine .cons c.text.octets (c.applySplices before) ?_
  rw [applySplice]
  exact .nil _

theorem betweenNone {before after : Text} (same : between before after = none) : before = after := by
  unfold between at same
  split at same
  · assumption
  · contradiction

theorem betweenApplies {before after : Text} {c : Change} (found : between before after = some c) :
    c.apply before = after := by
  unfold between at found
  split at found <;> try contradiction
  cases Option.some.inj found
  have lead := Text.sharedLeadLe before after
  have start := Text.sharedLeadTake before after
  have tail := Text.sharedLeadLe (before.drop (Text.sharedLead before after)).reverse
    (after.drop (Text.sharedLead before after)).reverse
  have stop := Text.sharedTail (before.drop (Text.sharedLead before after))
    (after.drop (Text.sharedLead before after))
  revert lead start tail stop
  generalize Text.sharedLead before after = n
  generalize Text.sharedLead (before.drop n).reverse (after.drop n).reverse = m
  intro lead start tail stop
  simp only [List.length_reverse,List.length_drop,List.drop_drop] at tail stop
  have cutBefore : n + (before.length - n - m) = before.length - m := by omega
  have cutAfter : n + (after.length - n - m) = after.length - m := by omega
  rw [cutBefore,cutAfter] at stop
  -- the replaced range runs from the shared lead to the shared tail
  have first : Change.first ⟨n,(before.length - n - m : Nat),(after.take (after.length - m)).drop n⟩ before = n := by
    simp only [Change.first,Int.toNat_natCast]
    omega
  have last : Change.last ⟨n,(before.length - n - m : Nat),(after.take (after.length - m)).drop n⟩ before =
      before.length - m := by
    simp only [Change.last,first,Int.toNat_natCast]
    omega
  simp only [apply,first,last,start,stop]
  have short : after.take n = (after.take (after.length - m)).take n := by
    rw [List.take_take,Nat.min_eq_left (by omega)]
  rw [short,List.take_append_drop,List.take_append_drop]

end Change
end Tinct
