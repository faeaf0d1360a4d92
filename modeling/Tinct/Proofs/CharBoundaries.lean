import Tinct.Proofs.CharOctets
import Tinct.Proofs.Splice

/-! Where the characters of a text begin in its octets. A boundary is told by one octet: every octet of a character but
its first is a continuation octet. The edit of a change starts and stops at boundaries, of the text before it and of the
text after it, and between them it puts in exactly the octets of the change's text. -/
namespace Tinct
namespace Octets

def continues (b : UInt8) : Bool := 0x80 ≤ b && b < 0xc0

def Boundary (data : Octets) (offset : Nat) : Prop :=
  offset = data.length ∨ ∃ b, data[offset]? = some b ∧ continues b = false

theorem continuesNat {n : Nat} (small : n < 256) : continues (UInt8.ofNat n) = true ↔ 128 ≤ n ∧ n < 192 := by
  have value := UInt8.toNat_ofNat_of_lt' small
  simp [continues,UInt8.le_iff_toNat_le,UInt8.lt_iff_toNat_lt,value]

theorem startsChar {n : Nat} (small : n < 256) (outside : n < 128 ∨ 192 ≤ n) : continues (UInt8.ofNat n) = false := by
  apply Bool.eq_false_iff.mpr
  intro inner
  have range := (continuesNat small).mp inner
  omega

theorem insideChar {n : Nat} (small : n < 64) : continues (UInt8.ofNat (n + 128)) = true :=
  (continuesNat (by omega)).mpr ⟨by omega,by omega⟩

theorem charShape (c : Char) :
    ∃ b more, String.utf8EncodeChar c = b::more ∧ continues b = false ∧ ∀ x ∈ more, continues x = true := by
  have spelled := charSpelled c
  generalize String.utf8EncodeChar c = data at spelled
  cases spelled with
  | one low => exact ⟨_,_,rfl,startsChar (by omega) (by omega),List.forall_mem_nil _⟩
  | two x y number long first second =>
    refine ⟨_,_,rfl,startsChar (by omega) (by omega),?_⟩
    exact List.forall_mem_singleton.mpr (insideChar second)
  | three x y z number long paired first second third =>
    refine ⟨_,_,rfl,startsChar (by omega) (by omega),?_⟩
    simp only [List.forall_mem_cons]
    exact ⟨insideChar second,insideChar third,List.forall_mem_nil _⟩
  | four x y z w number long high first second third fourth =>
    refine ⟨_,_,rfl,startsChar (by omega) (by omega),?_⟩
    simp only [List.forall_mem_cons]
    exact ⟨insideChar second,insideChar third,insideChar fourth,List.forall_mem_nil _⟩

theorem boundaryStart (t : Text) : Boundary t.octets 0 := by
  cases t with
  | nil => exact .inl rfl
  | cons c t =>
    obtain ⟨b,more,shape,starts,_⟩ := charShape c
    exact .inr ⟨b,by simp [shape],starts⟩

theorem boundaryInner {c : Char} {n : Nat} (inside : 0 < n) (short : n < (String.utf8EncodeChar c).length)
    (rest : Octets) : ¬ Boundary (String.utf8EncodeChar c ++ rest) n := by
  obtain ⟨b,more,shape,_,later⟩ := charShape c
  rintro (stop | ⟨x,found,starts⟩)
  · simp only [List.length_append] at stop
    omega
  · rw [List.getElem?_append_left short,shape] at found
    obtain ⟨k,rfl⟩ := Nat.exists_eq_succ_of_ne_zero (Nat.pos_iff_ne_zero.mp inside)
    have member : x ∈ more := List.mem_of_getElem? found
    rw [later x member] at starts
    contradiction

theorem boundaryPast (data rest : Octets) (n : Nat) : Boundary (data ++ rest) (data.length + n) ↔ Boundary rest n := by
  simp only [Boundary,List.length_append,Nat.add_left_cancel_iff,List.getElem?_append_right (Nat.le_add_right _ _),
    Nat.add_sub_cancel_left]

end Octets

namespace Text

theorem octetOffsetCons (c : Char) (t : Text) (i : Nat) :
    octetOffset (c::t) (i + 1 : Nat) = (String.utf8EncodeChar c).length + t.octetOffset i := by
  rw [octetOffsetNat,octetOffsetNat,List.take_succ_cons,octetsCons,List.length_append]

theorem boundaryIff (t : Text) (n : Nat) : t.octets.Boundary n ↔ ∃ i ≤ t.length, t.octetOffset i = n := by
  induction t generalizing n with
  | nil =>
    constructor
    · rintro (stop | ⟨b,found,_⟩)
      · exact ⟨0,Nat.le_refl 0,stop.symm⟩
      · simp at found
    · rintro ⟨i,_,same⟩
      exact .inl (by simpa [octetOffset] using same.symm)
  | cons c t ih =>
    constructor
    · intro boundary
      rcases Nat.eq_zero_or_pos n with rfl | inside
      · exact ⟨0,Nat.zero_le _,rfl⟩
      · by_cases short : n < (String.utf8EncodeChar c).length
        · exact absurd boundary (Octets.boundaryInner inside short (octets t))
        · obtain ⟨m,rfl⟩ := Nat.exists_eq_add_of_le (Nat.le_of_not_lt short)
          obtain ⟨i,bound,same⟩ := (ih m).mp ((Octets.boundaryPast _ _ m).mp boundary)
          exact ⟨i + 1,Nat.succ_le_succ bound,by rw [octetOffsetCons,same]⟩
    · rintro ⟨i,bound,rfl⟩
      cases i with
      | zero => exact Octets.boundaryStart (c::t)
      | succ i =>
        rw [octetOffsetCons,octetsCons,Octets.boundaryPast]
        exact (ih _).mpr ⟨i,Nat.le_of_succ_le_succ bound,rfl⟩

theorem boundaryAt {t : Text} {i : Nat} (inside : i ≤ t.length) : t.octets.Boundary (t.octetOffset i) :=
  (boundaryIff t _).mpr ⟨i,inside,rfl⟩

end Text

namespace Edit

theorem spliceEnds {e : Edit} {data replacement : Octets} (fits : e.Splices data replacement) :
    e.start ≤ e.newEnd ∧ e.newEnd ≤ (e.splice data replacement).length ∧
    ((e.splice data replacement).length : Int) - data.length = e.newEnd - e.oldEnd := by
  have range := fits.inRange
  have size := fits.size
  simp only [splice,List.length_append,List.length_take,List.length_drop]
  omega

structure Describes (e : Edit) (before after inserted : Text) : Prop where
  start : 0 ≤ e.start
  oldEnd : e.start ≤ e.oldEnd ∧ e.oldEnd ≤ before.octets.length
  newEnd : e.start ≤ e.newEnd ∧ e.newEnd ≤ after.octets.length
  octets : after.octets =
    before.octets.take e.start.toNat ++ inserted.octets ++ before.octets.drop e.oldEnd.toNat
  cutsBefore : before.octets.Boundary e.start.toNat ∧ before.octets.Boundary e.oldEnd.toNat
  cutsAfter : after.octets.Boundary e.start.toNat ∧ after.octets.Boundary e.newEnd.toNat
  growth : (after.octets.length : Int) - before.octets.length = e.newEnd - e.oldEnd

end Edit

namespace Change

theorem insertedEnds (c : Change) (before : Text) :
    (c.edit before (c.apply before)).start = (c.apply before).octetOffset (c.first before) ∧
    (c.edit before (c.apply before)).newEnd =
      (c.apply before).octetOffset (c.first before + c.text.length : Nat) := by
  have lead : before.octetOffset (c.first before) = (c.apply before).octetOffset (c.first before) := by
    rw [Text.octetOffsetNat,Text.octetOffsetNat,applyLead]
  have head : before.octetOffset (c.first before) + c.text.octets.length =
      (c.apply before).octetOffset (c.first before + c.text.length : Nat) := by
    rw [Text.octetOffsetNat,Text.octetOffsetNat,applyHead,Text.octetsAppend,List.length_append]
  rw [← lead,← head]
  exact ⟨rfl,rfl⟩

theorem insertedCuts (c : Change) (before : Text) :
    (c.apply before).octets.Boundary (c.edit before (c.apply before)).start.toNat ∧
    (c.apply before).octets.Boundary (c.edit before (c.apply before)).newEnd.toNat := by
  have size := c.applyLength before
  obtain ⟨start,newEnd⟩ := c.insertedEnds before
  rw [start,newEnd,Int.toNat_natCast,Int.toNat_natCast]
  exact ⟨Text.boundaryAt (by omega),Text.boundaryAt (by omega)⟩

theorem editDescribesChange (c : Change) (before : Text) :
    (c.edit before (c.apply before)).Describes before (c.apply before) c.text := by
  have bounds := c.firstLe before
  have fits := c.applySplices before
  have ends := Edit.spliceEnds fits
  rw [c.applySplice] at ends
  exact {
    start := fits.inRange.1
    oldEnd := fits.inRange.2
    newEnd := ⟨ends.1,ends.2.1⟩
    octets := (c.applySplice before).symm
    cutsBefore := ⟨Text.boundaryAt (Nat.le_trans bounds.1 bounds.2),Text.boundaryAt bounds.2⟩
    cutsAfter := c.insertedCuts before
    growth := ends.2.2 }

end Change
end Tinct
