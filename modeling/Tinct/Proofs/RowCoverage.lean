import Tinct.Proofs.StreamContent
import Mathlib.Data.List.Nodup

/-! Which positions the tokens of a capture stand on. First, middle and last row each have a formula of their own, and a
capture on one row another; one formula for the token of a row says the same for all of them. On rows that are no longer
than the longest token, the tokens stand on the positions from the start of the capture up to its end, on each once. -/
namespace Tinct

instance : LT Point := ⟨fun p q => p.row < q.row ∨ p.row = q.row ∧ p.column < q.column⟩

instance : LE Point := ⟨fun p q => p.row < q.row ∨ p.row = q.row ∧ p.column ≤ q.column⟩

theorem Point.ltIff (p q : Point) : p < q ↔ p.row < q.row ∨ p.row = q.row ∧ p.column < q.column := Iff.rfl

theorem Point.leIff (p q : Point) : p ≤ q ↔ p.row < q.row ∨ p.row = q.row ∧ p.column ≤ q.column := Iff.rfl

instance (p q : Point) : Decidable (p < q) := inferInstanceAs (Decidable (_ ∨ _))

instance (p q : Point) : Decidable (p ≤ q) := inferInstanceAs (Decidable (_ ∨ _))

def Token.Holds (t : Token) (p : Point) : Prop :=
  t.line = p.row ∧ t.start ≤ p.column ∧ p.column < t.start + t.length

instance (t : Token) (p : Point) : Decidable (t.Holds p) := inferInstanceAs (Decidable (_ ∧ _ ∧ _))

namespace Capture

structure Forward (c : Capture) : Prop where
  order : c.start ≤ c.stop
  start : 0 ≤ c.start.column
  stop : 0 ≤ c.stop.column

def Inside (c : Capture) (p : Point) : Prop := c.start ≤ p ∧ p < c.stop

instance (c : Capture) (p : Point) : Decidable (c.Inside p) := inferInstanceAs (Decidable (_ ∧ _))

def rows (c : Capture) : List Int :=
  (List.range (c.stop.row - c.start.row + 1).toNat).map fun (i : Nat) => c.start.row + i

def rowToken (c : Capture) (maxLength row : Int) : Token :=
  let start := if row = c.start.row then c.start.column else 0
  { line := row, start, length := if row = c.stop.row then c.stop.column - start else maxLength, type := c.name }

section
variable {c : Capture}

theorem forwardRows (forward : c.Forward) : c.start.row ≤ c.stop.row := by
  rcases forward.order with later | ⟨same,_⟩ <;> omega

theorem memRows {row : Int} : row ∈ c.rows ↔ c.start.row ≤ row ∧ row ≤ c.stop.row := by
  simp only [rows,List.mem_map,List.mem_range]
  constructor
  · rintro ⟨i,bound,rfl⟩
    omega
  · rintro ⟨low,high⟩
    exact ⟨(row - c.start.row).toNat,by omega,by omega⟩

theorem rowsNodup (c : Capture) : c.rows.Nodup := by
  apply List.Nodup.map ?_ List.nodup_range
  intro i j same
  have equal : c.start.row + (i : Int) = c.start.row + j := same
  omega

theorem rowsCount (forward : c.Forward) : (c.rows.length : Int) = c.stop.row - c.start.row + 1 := by
  have order := forwardRows forward
  simp only [rows,List.length_map,List.length_range]
  omega

theorem rowsOne (same : c.start.row = c.stop.row) : c.rows = [c.start.row] := by
  simp [rows,same]

theorem rowsMany (several : c.start.row < c.stop.row) :
    c.rows = c.start.row ::
      (List.range (c.stop.row - c.start.row - 1).toNat).map (fun (i : Nat) => c.start.row + 1 + i) ++ [c.stop.row] := by
  have size : (c.stop.row - c.start.row + 1).toNat = (c.stop.row - c.start.row - 1).toNat + 1 + 1 := by omega
  have next : ∀ i : Nat, c.start.row + ((i + 1 : Nat) : Int) = c.start.row + 1 + i := by omega
  have last : c.start.row + 1 + ((c.stop.row - c.start.row - 1).toNat : Int) = c.stop.row := by omega
  rw [rows,size,List.range_succ_eq_map,List.map_cons,List.map_map,List.range_succ,List.map_append,List.map_singleton]
  simp only [Function.comp_def,Nat.succ_eq_add_one,next,last,Int.natCast_zero,Int.add_zero,List.cons_append]

theorem rowsSplit (forward : c.Forward) (several : c.start.row < c.stop.row) (maxLength : Int) :
    splitRows c.name [] c.start c.stop maxLength = c.rows.map (c.rowToken maxLength) := by
  have first : c.start.row ≠ c.stop.row := by omega
  have stop := forward.stop
  have between : ∀ i ∈ List.range (c.stop.row - c.start.row - 1).toNat,
      { line := c.start.row + 1 + i, start := 0, length := maxLength, type := c.name } =
        c.rowToken maxLength (c.start.row + 1 + (i : Nat)) := by
    intro i bound
    rw [List.mem_range] at bound
    have past : c.start.row + 1 + (i : Int) ≠ c.start.row := by omega
    have early : c.start.row + 1 + (i : Int) ≠ c.stop.row := by omega
    simp only [rowToken,if_neg past,if_neg early]
  rw [rowsMany several,List.map_append,List.map_cons,List.map_map,splitRows,List.map_congr_left between,
    Int.max_eq_right stop]
  simp [rowToken,first,first.symm]

theorem tokensForward (forward : c.Forward) (maxLength : Int) (policy : ReversedSpans) :
    c.tokens maxLength policy = .ok (c.rows.map (c.rowToken maxLength)) := by
  have order := forwardRows forward
  unfold tokens
  split
  · rename_i same
    have width : c.start.column ≤ c.stop.column := by
      rcases forward.order with later | ⟨_,columns⟩
      · omega
      · exact columns
    simp only [rowsOne same,List.map_singleton,rowToken,same,if_true]
    rw [Int.max_eq_right (by omega)]
  · rename_i other
    have onward : ¬ (c.stop.row < c.start.row ∧ policy = .refuse) := by omega
    rw [if_neg onward,rowsSplit forward (by omega)]

theorem rowHolds (forward : c.Forward) {maxLength row : Int} (within : row ∈ c.rows) {p : Point} (column : 0 ≤ p.column)
    (short : p.row = row → p.column < maxLength) :
    (c.rowToken maxLength row).Holds p ↔ row = p.row ∧ c.Inside p := by
  have bounds := memRows.mp within
  have start := forward.start
  have order := forward.order
  simp only [Token.Holds,rowToken,Inside,Point.leIff,Point.ltIff] at order ⊢
  split <;> split <;> omega

theorem rowTokenLength (forward : c.Forward) {maxLength : Int} (room : 1 ≤ maxLength) (row : Int) :
    0 ≤ (c.rowToken maxLength row).length := by
  have stop := forward.stop
  have order := forward.order
  simp only [rowToken,Point.leIff] at order ⊢
  split
  · split <;> omega
  · omega

theorem insideRow {p : Point} (inside : c.Inside p) : p.row ∈ c.rows := by
  simp only [Inside,Point.leIff,Point.ltIff] at inside
  rw [memRows]
  omega

theorem heldOnce (forward : c.Forward) {maxLength : Int} {p : Point} (column : 0 ≤ p.column)
    (short : p.row ∈ c.rows → p.column < maxLength) :
    (c.rows.map (c.rowToken maxLength)).countP (fun t => decide (t.Holds p)) = if c.Inside p then 1 else 0 := by
  have held : ∀ row ∈ c.rows, (c.rowToken maxLength row).Holds p ↔ row = p.row ∧ c.Inside p := by
    intro row within
    exact rowHolds forward within column fun same => short (same ▸ within)
  rw [List.countP_map]
  split
  · rename_i inside
    rw [← List.count_eq_one_of_mem c.rowsNodup (insideRow inside),List.count_eq_countP]
    apply List.countP_congr
    intro row member
    simp [held row member,inside]
  · rename_i outside
    apply List.countP_eq_zero.mpr
    intro row member
    simp [held row member,outside]

theorem heldIff (forward : c.Forward) {maxLength : Int} {p : Point} (column : 0 ≤ p.column)
    (short : p.row ∈ c.rows → p.column < maxLength) :
    (∃ t ∈ c.rows.map (c.rowToken maxLength), t.Holds p) ↔ c.Inside p := by
  have counted : (∃ t ∈ c.rows.map (c.rowToken maxLength), t.Holds p) ↔
      0 < (c.rows.map (c.rowToken maxLength)).countP (fun t => decide (t.Holds p)) := by
    simp only [List.countP_pos_iff,decide_eq_true_eq]
  rw [counted,heldOnce forward column short]
  split
  · rename_i inside
    exact ⟨fun _ => inside,fun _ => Nat.one_pos⟩
  · rename_i outside
    exact ⟨fun none => absurd none (Nat.lt_irrefl 0),fun inside => absurd inside outside⟩

end
end Capture

theorem tokensOfAppend {maxLength : Int} {policy : ReversedSpans} {ahead behind : List Capture} {ts : List Token}
    (done : tokensOf maxLength policy (ahead ++ behind) = .ok ts) :
    ∃ first last, tokensOf maxLength policy ahead = .ok first ∧ tokensOf maxLength policy behind = .ok last ∧
      ts = first ++ last := by
  induction ahead generalizing ts with
  | nil => exact ⟨[],ts,rfl,done,rfl⟩
  | cons c rest ih =>
    obtain ⟨own,others,head,later,rfl⟩ := tokensOfCons done
    obtain ⟨first,last,left,right,rfl⟩ := ih later
    exact ⟨own ++ first,last,by simp only [tokensOf,head,left,bind,Except.bind],right,(List.append_assoc _ _ _).symm⟩

structure Capture.CoveredBy (c : Capture) (rowLength : Int → Int) (tokens : List Token) : Prop where
  count : (tokens.length : Int) = c.stop.row - c.start.row + 1
  lines : tokens.map Token.line = c.rows
  plain : ∀ t ∈ tokens, t.type = c.name ∧ t.modifiers = [] ∧ 0 ≤ t.length
  covered : ∀ p : Point, 0 ≤ p.column → p.column < rowLength p.row → ((∃ t ∈ tokens, t.Holds p) ↔ c.Inside p)
  once : ∀ p : Point, 0 ≤ p.column → p.column < rowLength p.row → c.Inside p →
    tokens.countP (fun t => decide (t.Holds p)) = 1

theorem forwardCovered {c : Capture} (forward : c.Forward) {maxLength : Int} (room : 1 ≤ maxLength)
    {rowLength : Int → Int} (fits : ∀ row, c.start.row ≤ row → row ≤ c.stop.row → rowLength row ≤ maxLength) :
    c.CoveredBy rowLength (c.rows.map (c.rowToken maxLength)) := by
  have short : ∀ p : Point, p.column < rowLength p.row → p.row ∈ c.rows → p.column < maxLength := by
    intro p column within
    have bounds := Capture.memRows.mp within
    exact Int.lt_of_lt_of_le column (fits p.row bounds.1 bounds.2)
  exact {
    count := by rw [List.length_map,Capture.rowsCount forward]
    lines := by simp [Capture.rowToken,Function.comp_def]
    plain := by
      intro t member
      obtain ⟨row,within,rfl⟩ := List.mem_map.mp member
      exact ⟨rfl,rfl,Capture.rowTokenLength forward room row⟩
    covered := fun p low high => Capture.heldIff forward low (short p high)
    once := by
      intro p low high inside
      rw [Capture.heldOnce forward low (short p high),if_pos inside] }

theorem captureCovered {l : Legend} {c : Capture} (known : l.hasType c.name = true) (forward : c.Forward)
    {maxLength : Int} (room : 1 ≤ maxLength) (policy : ReversedSpans) :
    ∃ tokens, (∀ pattern, normalize l maxLength policy [⟨pattern,[c]⟩] = .ok (tokens,[])) ∧
      (∀ rowLength : Int → Int, (∀ row, c.start.row ≤ row → row ≤ c.stop.row → rowLength row ≤ maxLength) →
        c.CoveredBy rowLength tokens) ∧
      ∀ ms found notices, normalize l maxLength policy ms = .ok (found,notices) →
        ∀ ahead behind, flatCaptures ms = ahead ++ c::behind →
          ∃ first last, tokensOf maxLength policy (ahead.filter fun x => l.hasType x.name) = .ok first ∧
            tokensOf maxLength policy (behind.filter fun x => l.hasType x.name) = .ok last ∧
            found = first ++ tokens ++ last := by
  have own := Capture.tokensForward forward maxLength policy
  refine ⟨c.rows.map (c.rowToken maxLength),?_,?_,?_⟩
  · intro pattern
    simp [normalize,keptCaptures,flatCaptures,known,tokensOf,own,bind,Except.bind,dropNotice]
  · intro rowLength fits
    exact forwardCovered forward room fits
  · intro ms found notices done ahead behind among
    obtain ⟨tokens,_⟩ := normalizeParts done
    rw [keptCaptures,among,List.filter_append,List.filter_cons,if_pos known] at tokens
    obtain ⟨first,rest,left,right,rfl⟩ := tokensOfAppend tokens
    obtain ⟨here,last,same,later,rfl⟩ := tokensOfCons right
    cases Except.ok.inj (own.symm.trans same)
    exact ⟨first,last,left,later,(List.append_assoc _ _ _).symm⟩

def threeRows : Capture := ⟨"string",⟨2,3⟩,⟨4,5⟩⟩

def threeRowsFound : List QueryMatch :=
  [⟨0,[⟨"keyword",⟨0,0⟩,⟨0,3⟩⟩,threeRows]⟩,⟨1,[⟨"nowhere",⟨5,0⟩,⟨5,1⟩⟩]⟩]

theorem threeRowsCovered :
    Legend.standard.hasType threeRows.name = true ∧ threeRows.Forward ∧
    ∃ tokens, normalize .standard 80 .refuse [⟨0,[threeRows]⟩] = .ok (tokens,[]) ∧
      threeRows.CoveredBy (fun row => 76 + row) tokens ∧
      ∃ found notices, normalize .standard 80 .refuse threeRowsFound = .ok (found,notices) ∧
        ∃ first last, found = first ++ tokens ++ last := by
  have known : Legend.standard.hasType threeRows.name = true := by decide
  have forward : threeRows.Forward := ⟨by decide,by decide,by decide⟩
  obtain ⟨tokens,alone,covers,company⟩ := captureCovered known forward (show 1 ≤ (80 : Int) by decide) .refuse
  have fits : ∀ row, threeRows.start.row ≤ row → row ≤ threeRows.stop.row → 76 + row ≤ 80 := by
    intro row _ high
    have last : row ≤ 4 := high
    omega
  obtain ⟨⟨found,notices⟩,done⟩ : ∃ found, normalize .standard 80 .refuse threeRowsFound = .ok found := ⟨_,rfl⟩
  obtain ⟨first,last,_,_,parts⟩ := company _ _ _ done [⟨"keyword",⟨0,0⟩,⟨0,3⟩⟩] [⟨"nowhere",⟨5,0⟩,⟨5,1⟩⟩] rfl
  exact ⟨known,forward,tokens,alone 0,covers _ fits,found,notices,done,first,last,parts⟩

end Tinct
