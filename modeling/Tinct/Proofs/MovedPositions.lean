import Tinct.Proofs.Splice

/-! How an edit moves positions. Walking over octets from two positions keeps them at one distance: both rows advance
alike, and from the first newline on the columns are the same. So a position up to the start of a splice stays, and one at
or past its old end is carried along from the old end to the new one. -/
namespace Tinct

-- The position that stands to `b` as `p` stands to `a`, for `p` at or past `a`. Only the row of `a` moves its columns.
def Point.carried (p a b : Point) : Point :=
  ⟨p.row - a.row + b.row,if p.row = a.row then p.column - a.column + b.column else p.column⟩

theorem Point.carriedSelf (a b : Point) : a.carried a b = b := by
  simp [carried]

namespace Octets

theorem rowAdvance (p : Point) (b : UInt8) : p.row ≤ (advance p b).row := by
  unfold advance
  split
  · exact Int.le_add_of_nonneg_right (by decide)
  · exact Int.le_refl _

theorem advanceCarried {p a : Point} (reached : a.row ≤ p.row) (b : Point) (octet : UInt8) :
    advance (p.carried a b) octet = (advance p octet).carried a b := by
  unfold advance Point.carried
  split
  · have passed : p.row + 1 ≠ a.row := by omega
    simp only [if_neg passed,Point.mk.injEq,and_true]
    omega
  · dsimp only
    split <;> simp only [Point.mk.injEq,true_and]
    omega

theorem pointCarried {p a : Point} (reached : a.row ≤ p.row) (b : Point) (data : Octets) :
    pointFrom (p.carried a b) data = (pointFrom p data).carried a b := by
  induction data generalizing p with
  | nil => rfl
  | cons octet data ih =>
    have next := ih (Int.le_trans reached (rowAdvance p octet))
    rw [← advanceCarried reached] at next
    exact next

theorem pointMoved (a b : Point) (data : Octets) : pointFrom b data = (pointFrom a data).carried a b := by
  have moved := pointCarried (Int.le_refl a.row) b data
  rwa [Point.carriedSelf] at moved

theorem locatedPoint {data : Octets} {offset : Int} {p : Point} (located : data.Located offset p) :
    data.pointAt offset = p := by
  have own := pointAtLocated data offset
  have row := own.1.trans located.1.symm
  have column := own.2.trans located.2.symm
  cases p
  cases shape : data.pointAt offset
  rw [shape] at row column
  exact congr (congrArg Point.mk row) column

theorem pointPast (data : Octets) {a b : Int} (inside : 0 ≤ a) (later : a ≤ b) :
    data.pointAt b = pointFrom (data.pointAt a) ((data.drop a.toNat).take (b - a).toNat) := by
  have sum : b.toNat = a.toNat + (b - a).toNat := by omega
  rw [pointAt,sum,List.take_add,pointFromAppend,pointAt]

end Octets

namespace Edit
section
variable {e : Edit} {data replacement : Octets} (fits : e.Splices data replacement)
include fits

theorem spliceTake {n : Nat} (early : n ≤ e.start.toNat) : (e.splice data replacement).take n = data.take n := by
  have range := fits.inRange
  have room : n ≤ (data.take e.start.toNat).length := by
    rw [List.length_take]
    omega
  rw [splice,List.append_assoc,List.take_append_of_le_length room,List.take_take,Nat.min_eq_left early]

theorem spliceDrop : (e.splice data replacement).drop e.newEnd.toNat = data.drop e.oldEnd.toNat := by
  have range := fits.inRange
  have size := fits.size
  have head : e.newEnd.toNat = (data.take e.start.toNat ++ replacement).length := by
    rw [List.length_append,List.length_take]
    omega
  rw [splice,head,List.drop_left]

theorem pointsBefore {b : Int} (early : b ≤ e.start) : (e.splice data replacement).pointAt b = data.pointAt b := by
  rw [Octets.pointAt,spliceTake fits (Int.toNat_le_toNat early),Octets.pointAt]

theorem pointsAfter {b : Int} (late : e.oldEnd ≤ b) :
    (e.splice data replacement).pointAt (b - e.oldEnd + e.newEnd) =
      (data.pointAt b).carried e.oldEndPoint e.newEndPoint := by
  have range := fits.inRange
  have size := fits.size
  have distance : b - e.oldEnd + e.newEnd - e.newEnd = b - e.oldEnd := by omega
  have old := Octets.pointPast data (by omega) late
  have new := Octets.pointPast (e.splice data replacement) (show 0 ≤ e.newEnd by omega)
    (show e.newEnd ≤ b - e.oldEnd + e.newEnd by omega)
  rw [distance,spliceDrop fits,Octets.locatedPoint fits.newEndPoint] at new
  rw [Octets.locatedPoint fits.oldEndPoint] at old
  rw [old,new]
  exact Octets.pointMoved _ _ _

end
end Edit

theorem positionsMove (c : Change) (before : Text) :
    let after := c.apply before
    let e := c.edit before after
    (∀ b ≤ e.start, after.octets.pointAt b = before.octets.pointAt b) ∧
    ∀ b, e.oldEnd ≤ b → after.octets.pointAt (b - e.oldEnd + e.newEnd) =
      (before.octets.pointAt b).carried e.oldEndPoint e.newEndPoint := by
  intro after e
  have fits := c.applySplices before
  have spliced : e.splice before.octets c.text.octets = after.octets := c.applySplice before
  rw [← spliced]
  exact ⟨fun b early => Edit.pointsBefore fits early,fun b late => Edit.pointsAfter fits late⟩

def twoRows : Text := ['a','é','\n','b','\n','c']

def rowsReplaced : Change := ⟨1,3,['x','\n','😀']⟩

def rowsEdit : Edit := rowsReplaced.edit twoRows (rowsReplaced.apply twoRows)

theorem replacedRowsMove :
    (1 ≤ rowsEdit.start ∧
      (rowsReplaced.apply twoRows).octets.pointAt 1 = twoRows.octets.pointAt 1) ∧
    (rowsEdit.oldEnd ≤ 5 ∧ (rowsReplaced.apply twoRows).octets.pointAt (5 - rowsEdit.oldEnd + rowsEdit.newEnd) =
      (twoRows.octets.pointAt 5).carried rowsEdit.oldEndPoint rowsEdit.newEndPoint) ∧
    rowsEdit.oldEnd ≤ 7 ∧ (rowsReplaced.apply twoRows).octets.pointAt (7 - rowsEdit.oldEnd + rowsEdit.newEnd) =
      (twoRows.octets.pointAt 7).carried rowsEdit.oldEndPoint rowsEdit.newEndPoint := by
  obtain ⟨early,late⟩ := positionsMove rowsReplaced twoRows
  exact ⟨⟨by decide,early 1 (by decide)⟩,⟨by decide,late 5 (by decide)⟩,by decide,late 7 (by decide)⟩

end Tinct
