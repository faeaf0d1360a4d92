import Tinct.Proofs.Coordinates
import Tinct.Proofs.MovedPositions
import Tinct.Proofs.RowCoverage
import Tinct.Proofs.StableOrder
import Mathlib.Data.List.Forall2

/-! What becomes of the matches that a query engine lists. None with a node is left out and none changes its place; within a
match every named node is there, by octet position. Positions in characters come in the same order as offsets in octets:
walking on over octets leads to a later position, and more octets of a row are never fewer characters. -/
namespace Tinct

namespace Point

theorem leRefl (p : Point) : p ≤ p := .inr ⟨rfl,Int.le_refl _⟩

theorem leTrans {p q r : Point} (left : p ≤ q) (right : q ≤ r) : p ≤ r := by
  rw [leIff] at left right ⊢
  omega

theorem leOfLt {p q : Point} (less : p < q) : p ≤ q := by
  rw [ltIff] at less
  rw [leIff]
  omega

end Point

namespace Octets

instance (data : Octets) (offset : Int) (p : Point) : Decidable (data.Located offset p) :=
  inferInstanceAs (Decidable (_ ∧ _))

theorem advanceAfter (p : Point) (b : UInt8) : p < advance p b := by
  unfold advance
  rw [Point.ltIff]
  split
  · exact .inl (by dsimp only; omega)
  · exact .inr ⟨rfl,by dsimp only; omega⟩

theorem pointLater (p : Point) (data : Octets) : p ≤ pointFrom p data := by
  induction data generalizing p with
  | nil => exact p.leRefl
  | cons b data ih => exact Point.leTrans (Point.leOfLt (advanceAfter p b)) (ih (advance p b))

theorem pointAtOrder (data : Octets) {i j : Int} (order : i ≤ j) : data.pointAt i ≤ data.pointAt j := by
  have more : j.toNat = i.toNat + (j.toNat - i.toNat) := by omega
  rw [pointAt,pointAt,more,List.take_add,pointFromAppend]
  exact pointLater _ _

theorem pendingCounts (p : Pending) (data : Octets) : 1 ≤ (decodeFrom (some p) data).length := by
  induction data generalizing p with
  | nil => exact Nat.le_refl 1
  | cons b data ih =>
    rw [decodeFrom]
    split
    · dsimp only
      split
      · exact Nat.le_add_left 1 _
      · exact ih _
    · exact Nat.le_add_left 1 _

theorem decodeGrows (s : Option Pending) (data more : Octets) :
    (decodeFrom s data).length ≤ (decodeFrom s (data ++ more)).length := by
  induction data generalizing s with
  | nil =>
    cases s with
    | none => exact Nat.zero_le _
    | some p => exact pendingCounts p more
  | cons b data ih =>
    rw [List.cons_append]
    cases s with
    | none =>
      rw [decodeFrom,decodeFrom]
      split
      · exact Nat.succ_le_succ (ih none)
      · exact ih (some _)
    | some p =>
      rw [decodeFrom,decodeFrom]
      split
      · dsimp only
        split
        · exact Nat.succ_le_succ (ih none)
        · exact ih (some _)
      · apply Nat.succ_le_succ
        split
        · exact Nat.succ_le_succ (ih none)
        · exact ih (some _)

theorem charCountOrder (line : Octets) {m n : Nat} (order : m ≤ n) : charCount (line.take m) ≤ charCount (line.take n) := by
  have cut := List.take_append_drop m (line.take n)
  rw [List.take_take,Nat.min_eq_left order] at cut
  rw [charCount,charCount,← cut]
  exact decodeGrows none _ _

theorem charPointOrder (rows : List Octets) {p q : Point} (order : p ≤ q) (column : 0 ≤ p.column) :
    charPoint rows p ≤ charPoint rows q := by
  have kept : ∀ x, (charPoint rows x).row = x.row := by
    intro x
    unfold charPoint
    split
    · rfl
    · split <;> rfl
  rw [Point.leIff] at order ⊢
  rw [kept,kept]
  rcases order with earlier | ⟨row,columns⟩
  · exact .inl earlier
  · refine .inr ⟨row,?_⟩
    unfold charPoint
    rw [row]
    split
    · exact columns
    · split
      · exact columns
      · have start : ¬ p.column < 0 := by omega
        have stop : ¬ q.column < 0 := by omega
        simp only [upTo,if_neg start,if_neg stop]
        exact Int.ofNat_le.mpr (charCountOrder _ (Int.toNat_le_toNat columns))

theorem locatedOrder {data : Octets} {i j : Int} {p q : Point} (left : data.Located i p) (right : data.Located j q)
    (order : i ≤ j) : charPoint data.rows p ≤ charPoint data.rows q := by
  have points := pointAtOrder data order
  rw [locatedPoint left,locatedPoint right] at points
  exact charPointOrder data.rows points (left.2 ▸ Int.natCast_nonneg _)

end Octets

namespace Query

structure Node.Lies (n : Node) (source : Octets) : Prop where
  start : source.Located n.first n.start
  stop : source.Located n.last n.stop
  order : n.first ≤ n.last

instance (n : Node) (source : Octets) : Decidable (n.Lies source) :=
  decidable_of_iff (source.Located n.first n.start ∧ source.Located n.last n.stop ∧ n.first ≤ n.last)
    ⟨fun lies => ⟨lies.1,lies.2.1,lies.2.2⟩,fun lies => ⟨lies.start,lies.stop,lies.order⟩⟩

namespace RawMatch

def listed (m : RawMatch) : List (String × Node) := m.captures.flatMap fun c => c.2.map fun n => (c.1,n)

def filled (m : RawMatch) : Bool := m.captures.any fun c => !c.2.isEmpty

structure Yields (source : Octets) (m : RawMatch) (q : QueryMatch) : Prop where
  pattern : q.pattern = m.pattern
  captures : ∃ nodes, q.captures = nodes.map (fun p => p.2.capture source.rows p.1) ∧
    Arranged (fun p => p.2.first) (fun p => p.2.last) m.listed nodes
  ordered : (∀ p ∈ m.listed, p.2.Lies source) →
    q.captures.Pairwise (fun a b => a.start ≤ b.start) ∧ ∀ c ∈ q.captures, c.start ≤ c.stop

theorem nodesArranged (m : RawMatch) : Arranged (fun p => p.2.first) (fun p => p.2.last) m.listed m.nodes :=
  sortedArranged _ _ m.listed

theorem filledIff (m : RawMatch) : m.filled = true ↔ m.listed ≠ [] := by
  simp [filled,listed,List.flatMap_eq_nil_iff]

theorem convertedOrder {source : Octets} {m : RawMatch} (lies : ∀ p ∈ m.listed, p.2.Lies source) :
    (m.converted source.rows).captures.Pairwise (fun a b => a.start ≤ b.start) ∧
    ∀ c ∈ (m.converted source.rows).captures, c.start ≤ c.stop := by
  have arranged := m.nodesArranged
  have placed : ∀ p ∈ m.nodes, p.2.Lies source := fun p member => lies p (arranged.items.mem_iff.mp member)
  constructor
  · rw [converted,List.pairwise_map]
    apply arranged.order.imp_of_mem
    intro a b left right order
    have offsets : a.2.first ≤ b.2.first := by
      rcases comesFirstIff.mp order with earlier | ⟨same,_⟩ <;> omega
    exact Octets.locatedOrder (placed a left).start (placed b right).start offsets
  · intro c member
    obtain ⟨p,inside,rfl⟩ := List.mem_map.mp member
    exact Octets.locatedOrder (placed p inside).start (placed p inside).stop (placed p inside).order

theorem convertedYields (source : Octets) (m : RawMatch) : m.Yields source (m.converted source.rows) where
  pattern := rfl
  captures := ⟨m.nodes,rfl,m.nodesArranged⟩
  ordered := convertedOrder

theorem convertedEmpty (rows : List Octets) (m : RawMatch) : (m.converted rows).captures.isEmpty = !m.filled := by
  rw [Bool.eq_iff_iff,List.isEmpty_iff,Bool.not_eq_true',← Bool.not_eq_true,filledIff,not_not,converted,List.map_eq_nil_iff]
  rw [← List.length_eq_zero_iff,m.nodesArranged.items.length_eq,List.length_eq_zero_iff]

end RawMatch

theorem matchesFilled (g : Grammar) (engine : Engine) (tree : Tree) (source : Octets) :
    g.matches engine tree source = ((List.range g.queries.length).flatMap fun i =>
      (engine.run i tree).filter RawMatch.filled).map (RawMatch.converted source.rows) := by
  simp only [Grammar.matches,RawMatch.convertedEmpty,← List.filter_flatMap]
  generalize (List.range g.queries.length).flatMap (fun i => engine.run i tree) = raws
  induction raws with
  | nil => rfl
  | cons m raws ih =>
    rw [List.filterMap_cons,ih,List.filter_cons]
    cases m.filled with
    | true => rfl
    | false => rfl

theorem matchesYielded (g : Grammar) (engine : Engine) (tree : Tree) (source : Octets) :
    List.Forall₂ (RawMatch.Yields source)
      ((List.range g.queries.length).flatMap fun i => (engine.run i tree).filter RawMatch.filled)
      (g.matches engine tree source) := by
  rw [matchesFilled,List.forall₂_map_right_iff,List.forall₂_same]
  intro m _
  exact m.convertedYields source

-- Two rows with characters of one, two and four octets, and nodes listed out of order. Two stand at one place, one starts
-- within a character; a second match has a name but no node.
def mixedText : Text := ['é','\n','a','😀','b']

def mixedMatch : RawMatch :=
  ⟨0,[("string",[⟨5,9,⟨1,2⟩,⟨1,6⟩⟩,⟨3,8,⟨1,0⟩,⟨1,5⟩⟩]),("comment",[⟨0,2,⟨0,0⟩,⟨0,2⟩⟩,⟨3,8,⟨1,0⟩,⟨1,5⟩⟩])]⟩

def mixedEngine : Engine where
  refuses _ := none
  run i _ := if i = 0 then [⟨1,[("string",[])]⟩,mixedMatch] else []

def mixedGrammar : Grammar := ⟨"mixed",[⟨[],[]⟩,⟨[],[]⟩]⟩

theorem mixedMatchYielded :
    (∀ p ∈ mixedMatch.listed, p.2.Lies mixedText.octets) ∧
    ∃ q, mixedGrammar.matches mixedEngine (.afresh mixedText.octets) mixedText.octets = [q] ∧
      RawMatch.Yields mixedText.octets mixedMatch q ∧ q.captures.Pairwise (fun a b => a.start ≤ b.start) ∧
      ∀ c ∈ q.captures, c.start ≤ c.stop := by
  have lies : ∀ p ∈ mixedMatch.listed, p.2.Lies mixedText.octets := by decide
  have yielded := matchesYielded mixedGrammar mixedEngine (.afresh mixedText.octets) mixedText.octets
  have raws : ((List.range mixedGrammar.queries.length).flatMap fun i =>
      (mixedEngine.run i (.afresh mixedText.octets)).filter RawMatch.filled) = [mixedMatch] := by decide
  rw [raws] at yielded
  obtain ⟨q,rest,yields,none,shape⟩ := List.forall₂_cons_left_iff.mp yielded
  cases none
  exact ⟨lies,q,shape,yields,yields.ordered lies⟩

end Query
end Tinct
