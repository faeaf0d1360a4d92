import Tinct.Proofs.CaptureOrder

/-! Octet offsets and positions stand for each other. The rows are the pieces that newlines leave, and all of them but the last
have a newline after them; so the octets before a row are the rows above it with their newlines, and an offset is the
length of these and a column of the row. Each octet walked over leads to a later position, so no position is met twice. -/
namespace Tinct

namespace Point

theorem ltOfLe {p q r : Point} (left : p < q) (right : q ≤ r) : p < r := by
  rw [ltIff] at left ⊢
  rw [leIff] at right
  omega

theorem ltIrrefl (p : Point) : ¬ p < p := by
  rw [ltIff]
  omega

end Point

namespace Octets

theorem pointAfter (p : Point) {data : Octets} (filled : data ≠ []) : p < pointFrom p data := by
  cases data with
  | nil => contradiction
  | cons b data => exact Point.ltOfLe (advanceAfter p b) (pointLater (advance p b) data)

theorem pointAtStrict (data : Octets) {i j : Int} (inside : 0 ≤ i) (order : i < j) (within : j ≤ data.length) :
    data.pointAt i < data.pointAt j := by
  rw [pointPast data inside (Int.le_of_lt order)]
  apply pointAfter
  apply List.ne_nil_of_length_pos
  rw [List.length_take,List.length_drop]
  omega

theorem pointAtInj (data : Octets) {i j : Int} (first : 0 ≤ i ∧ i ≤ data.length) (second : 0 ≤ j ∧ j ≤ data.length)
    (same : data.pointAt i = data.pointAt j) : i = j := by
  rcases Int.lt_trichotomy i j with before | equal | after
  · exact absurd (same ▸ pointAtStrict data first.1 before second.2) (Point.ltIrrefl _)
  · exact equal
  · exact absurd (same ▸ pointAtStrict data second.1 after first.2) (Point.ltIrrefl _)

theorem rowsPieces (data : Octets) : data.rows = data.splitOn newline := by
  induction data with
  | nil => rfl
  | cons b data ih =>
    rw [List.splitOn_cons_eq_if_modifyHead,← ih]
    by_cases same : b = newline
    · simp [rows,same]
    · obtain ⟨first,others,shape⟩ := List.exists_cons_of_ne_nil (rowsSome data)
      simp [rows,same,shape]

theorem rowsJoined (data : Octets) : [newline].intercalate data.rows = data := by
  rw [rowsPieces,List.intercalate_splitOn]

theorem rowPlain {data row : Octets} (member : row ∈ data.rows) : ∀ b ∈ row, b ≠ newline := by
  induction data generalizing row with
  | nil =>
    rw [List.mem_singleton.mp member]
    exact List.forall_mem_nil _
  | cons b data ih =>
    obtain ⟨first,others,shape⟩ := List.exists_cons_of_ne_nil (rowsSome data)
    simp only [rows,shape] at member ih
    split at member
    · rcases List.mem_cons.mp member with rfl | later
      · exact List.forall_mem_nil _
      · exact ih later
    · rename_i other
      rcases List.mem_cons.mp member with rfl | later
      · exact List.forall_mem_cons.mpr ⟨other,ih List.mem_cons_self⟩
      · exact ih (List.mem_cons_of_mem _ later)

def ended (rows : List Octets) : Octets := rows.flatMap (· ++ [newline])

def rowStart (data : Octets) (r : Nat) : Nat := (ended (data.rows.take r)).length

theorem endedCons (row : Octets) (rows : List Octets) : ended (row::rows) = row ++ newline::ended rows := by
  simp [ended]

theorem joinedCons (row : Octets) {rows : List Octets} (more : rows ≠ []) :
    [newline].intercalate (row::rows) = row ++ newline::[newline].intercalate rows := by
  cases rows with
  | nil => contradiction
  | cons next rows => simp [List.intercalate]

theorem pointEnded {rows : List Octets} (plain : ∀ row ∈ rows, ∀ b ∈ row, b ≠ newline) (k : Int) :
    pointFrom ⟨k,0⟩ (ended rows) = ⟨k + rows.length,0⟩ := by
  induction rows generalizing k with
  | nil => simp [ended,pointFrom]
  | cons row rows ih =>
    obtain ⟨first,others⟩ := List.forall_mem_cons.mp plain
    rw [endedCons,pointFromAppend,pointPlain _ first]
    change pointFrom (advance _ newline) (ended rows) = _
    rw [advance,if_pos rfl,ih others]
    simp only [List.length_cons,Point.mk.injEq,and_true]
    omega

theorem joinedCut {rows : List Octets} {r : Nat} {row : Octets} (found : rows[r]? = some row) :
    ∃ rest, [newline].intercalate rows = ended (rows.take r) ++ (row ++ rest) := by
  induction rows generalizing r with
  | nil => simp at found
  | cons first rows ih =>
    cases r with
    | zero =>
      cases Option.some.inj found
      by_cases more : rows = []
      · exact ⟨[],by simp [more,ended]⟩
      · exact ⟨_,joinedCons row more⟩
    | succ r =>
      have more : rows ≠ [] := by
        rintro rfl
        simp at found
      obtain ⟨rest,same⟩ := ih found
      refine ⟨rest,?_⟩
      rw [joinedCons first more,same,List.take_succ_cons,endedCons,List.append_assoc,List.cons_append]

theorem joinedAt {rows : List Octets} (filled : rows ≠ []) {n : Nat} (inside : n ≤ ([newline].intercalate rows).length) :
    ∃ r row c, rows[r]? = some row ∧ c ≤ row.length ∧ n = (ended (rows.take r)).length + c := by
  induction rows generalizing n with
  | nil => contradiction
  | cons first rows ih =>
    by_cases here : n ≤ first.length
    · exact ⟨0,first,n,rfl,here,by simp [ended]⟩
    · have more : rows ≠ [] := by
        rintro rfl
        exact here (by simpa using inside)
      rw [joinedCons first more,List.length_append,List.length_cons] at inside
      obtain ⟨r,row,c,found,column,offset⟩ := ih more (n := n - first.length - 1) (by omega)
      refine ⟨r + 1,row,c,found,column,?_⟩
      rw [List.take_succ_cons,endedCons,List.length_append,List.length_cons]
      omega

section
variable {data row : Octets} {r c : Nat}

theorem rowCut (found : data.rows[r]? = some row) : ∃ rest, data = ended (data.rows.take r) ++ (row ++ rest) := by
  obtain ⟨rest,same⟩ := joinedCut found
  exact ⟨rest,(rowsJoined data).symm.trans same⟩

theorem rowWithin (found : data.rows[r]? = some row) (column : c ≤ row.length) : data.rowStart r + c ≤ data.length := by
  obtain ⟨rest,same⟩ := rowCut found
  have size := congrArg List.length same
  rw [List.length_append,List.length_append] at size
  unfold rowStart
  omega

theorem pointRow (found : data.rows[r]? = some row) (column : c ≤ row.length) :
    data.pointAt (data.rowStart r + c : Nat) = ⟨r,c⟩ := by
  obtain ⟨rest,same⟩ := rowCut found
  have plain := rowPlain (List.mem_of_getElem? found)
  have count : (data.rows.take r).length = r := by
    have bound := (List.getElem?_eq_some_iff.mp found).1
    rw [List.length_take]
    omega
  have lead : data.take (data.rowStart r + c) = ended (data.rows.take r) ++ row.take c := by
    have cut := congrArg (List.take (data.rowStart r + c)) same
    rwa [rowStart,List.take_length_add_append,List.take_append_of_le_length column] at cut
  rw [pointAt,Int.toNat_natCast,lead,pointFromAppend,pointEnded]
  · rw [pointPlain _ fun b member => plain b (List.mem_of_mem_take member),count,List.length_take,Nat.min_eq_left column]
    simp
  · exact fun above member => rowPlain (List.mem_of_mem_take member)

end

structure Charted (data : Octets) : Prop where
  pieces : data.rows = data.splitOn newline
  ordered : ∀ i j : Int, 0 ≤ i → i < j → j ≤ data.length → data.pointAt i < data.pointAt j
  placed : ∀ i : Int, 0 ≤ i → i ≤ data.length → ∃ (r c : Nat) (row : Octets), data.pointAt i = ⟨r,c⟩ ∧
    data.rows[r]? = some row ∧ c ≤ row.length ∧ i = data.rowStart r + c
  reached : ∀ (r c : Nat) (row : Octets), data.rows[r]? = some row → c ≤ row.length →
    ∃! i : Int, (0 ≤ i ∧ i ≤ data.length) ∧ data.pointAt i = ⟨r,c⟩
  before : ∀ i : Int, i < 0 → data.pointAt i = data.pointAt 0
  beyond : ∀ i : Int, data.length < i → data.pointAt i = data.pointAt data.length

theorem offsetsCharted (data : Octets) : data.Charted where
  pieces := rowsPieces data
  ordered := fun i j => pointAtStrict data
  placed := by
    intro i inside within
    have joined : i.toNat ≤ ([newline].intercalate data.rows).length := by
      rw [rowsJoined]
      omega
    obtain ⟨r,row,c,found,column,offset⟩ := joinedAt (rowsSome data) joined
    have same : i = (data.rowStart r + c : Nat) := by
      unfold rowStart
      omega
    exact ⟨r,c,row,same ▸ pointRow found column,found,column,same⟩
  reached := by
    intro r c row found column
    have within := rowWithin found column
    refine ⟨(data.rowStart r + c : Nat),⟨⟨by omega,by omega⟩,pointRow found column⟩,?_⟩
    rintro j ⟨inside,point⟩
    exact pointAtInj data inside ⟨by omega,by omega⟩ (point.trans (pointRow found column).symm)
  before := by
    intro i low
    rw [pointAt,pointAt,Int.toNat_of_nonpos (Int.le_of_lt low),Int.toNat_zero]
  beyond := by
    intro i high
    rw [pointAt,pointAt,Int.toNat_natCast,List.take_length,List.take_of_length_le]
    omega

end Octets
end Tinct
