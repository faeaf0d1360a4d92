import Tinct.Proofs.TurnedCaptures
import Tinct.Proofs.RowCoverage

/-! What the tokens of query matches hang on: on the captures in order, however they are grouped, and of these only on the ones
with a name that the legend has. Each capture gives its own tokens, so matches put together give the tokens of the first
and then those of the others. The two policies differ only where such a capture ends on an earlier row than it starts. -/
namespace Tinct
namespace Legend

def found (l : Legend) (maxLength : Int) (policy : ReversedSpans) (ms : List QueryMatch) : Except Fault (List Token) :=
  (normalize l maxLength policy ms).map Prod.fst

def pruned (l : Legend) (ms : List QueryMatch) : List QueryMatch :=
  ms.map fun m => { m with captures := m.captures.filter fun c => c.name ∈ l.types }

def Turned (l : Legend) (c : Capture) : Prop := c.name ∈ l.types ∧ c.stop.row < c.start.row

structure ReadsFlat (l : Legend) (maxLength : Int) : Prop where
  regrouped : ∀ policy ms others, flatCaptures ms = flatCaptures others →
    l.found maxLength policy ms = l.found maxLength policy others
  joined : ∀ ms others, ∃ first last, l.found maxLength .split ms = .ok first ∧
    l.found maxLength .split others = .ok last ∧ l.found maxLength .split (ms ++ others) = .ok (first ++ last)
  pruned : ∀ policy ms, l.found maxLength policy (l.pruned ms) = l.found maxLength policy ms
  plain : ∀ policy ms ts, l.found maxLength policy ms = .ok ts →
    ∀ t ∈ ts, t.type ∈ l.types ∧ t.modifiers = [] ∧ 0 ≤ t.length
  refused : ∀ ms, (∃ name start stop, l.found maxLength .refuse ms = .error (.reversedSpan name start stop)) ↔
    ∃ c ∈ flatCaptures ms, l.Turned c
  reported : ∀ ms ahead c behind, flatCaptures ms = ahead ++ c::behind → (∀ x ∈ ahead, ¬ l.Turned x) → l.Turned c →
    l.found maxLength .refuse ms = .error (.reversedSpan c.name c.start c.stop)
  agreed : ∀ ms, (∀ c ∈ flatCaptures ms, ¬ l.Turned c) → l.found maxLength .refuse ms = l.found maxLength .split ms

section
variable {l : Legend} {maxLength : Int} {policy : ReversedSpans} {ms others : List QueryMatch}

theorem hasTypeIff {name : String} : l.hasType name = true ↔ name ∈ l.types := by
  rw [hasType,typePlace,List.isSome_idxOf?]

theorem turnedIff {c : Capture} : (l.hasType c.name && c.turnsBack) = true ↔ l.Turned c := by
  rw [Bool.and_eq_true,hasTypeIff,Capture.turnsBack,decide_eq_true_eq,Turned]

theorem foundKept : l.found maxLength policy ms = tokensOf maxLength policy (keptCaptures l ms) := by
  simp only [found,normalize]
  cases tokensOf maxLength policy (keptCaptures l ms) with
  | error f => rfl
  | ok ts => rfl

theorem keptAppend : keptCaptures l (ms ++ others) = keptCaptures l ms ++ keptCaptures l others := by
  simp only [keptCaptures,flatCaptures,List.flatMap_append,List.filter_append]

theorem keptPruned : keptCaptures l (l.pruned ms) = keptCaptures l ms := by
  have known : (fun c : Capture => decide (c.name ∈ l.types)) = fun c => l.hasType c.name := by
    funext c
    rw [Bool.eq_iff_iff,decide_eq_true_eq,hasTypeIff]
  simp only [keptCaptures,flatCaptures,pruned,known,List.flatMap_map,List.filter_flatMap,List.filter_filter,Bool.and_self]

theorem foundJoined (ms others : List QueryMatch) : ∃ first last, l.found maxLength .split ms = .ok first ∧
    l.found maxLength .split others = .ok last ∧ l.found maxLength .split (ms ++ others) = .ok (first ++ last) := by
  simp only [foundKept,keptAppend]
  obtain ⟨ts,together⟩ := tokensSplit maxLength (keptCaptures l ms ++ keptCaptures l others)
  obtain ⟨first,last,left,right,rfl⟩ := tokensOfAppend together
  exact ⟨first,last,left,right,together⟩

theorem foundPlain (room : 0 ≤ maxLength) {ts : List Token} (done : l.found maxLength policy ms = .ok ts) :
    ∀ t ∈ ts, t.type ∈ l.types ∧ t.modifiers = [] ∧ 0 ≤ t.length := by
  intro t member
  rw [foundKept] at done
  obtain ⟨c,kept,name,bare,_,size⟩ := tokensOfCapture done member
  exact ⟨name ▸ hasTypeIff.mp (List.mem_filter.mp kept).2,bare,size room⟩

theorem foundReported {c : Capture} (first : l.firstTurned? ms = some c) :
    l.found maxLength .refuse ms = .error (.reversedSpan c.name c.start c.stop) := by
  rw [found,normalizeRefused maxLength first]
  rfl

theorem foundAgreed (onward : l.firstTurned? ms = none) :
    l.found maxLength .refuse ms = l.found maxLength .split ms := by
  have none : l.turnsBack ms = false := by rw [← firstTurnedSome,onward,Option.isSome_none]
  rw [found,normalizeKept maxLength none,found]

theorem firstTurnedNone : l.firstTurned? ms = none ↔ ∀ c ∈ flatCaptures ms, ¬ l.Turned c := by
  simp only [firstTurned?,List.find?_eq_none,turnedIff]

theorem foundRefused : (∃ name start stop, l.found maxLength .refuse ms = .error (.reversedSpan name start stop)) ↔
    ∃ c ∈ flatCaptures ms, l.Turned c := by
  cases first : l.firstTurned? ms with
  | none =>
    have onward := firstTurnedNone.mp first
    obtain ⟨ts,split⟩ := tokensSplit maxLength (keptCaptures l ms)
    rw [foundAgreed first,foundKept,split]
    constructor
    · rintro ⟨_,_,_,failed⟩
      contradiction
    · rintro ⟨c,member,turned⟩
      exact absurd turned (onward c member)
  | some c =>
    have member : c ∈ flatCaptures ms := List.mem_of_find?_eq_some first
    have turned : l.Turned c := by
      have back := List.find?_some (show (flatCaptures ms).find? _ = some c from first)
      exact turnedIff.mp back
    exact ⟨fun _ => ⟨c,member,turned⟩,fun _ => ⟨_,_,_,foundReported first⟩⟩

end

theorem normalizeReadsFlat (l : Legend) {maxLength : Int} (room : 0 ≤ maxLength) : l.ReadsFlat maxLength where
  regrouped := by
    intro policy ms others same
    rw [foundKept,foundKept,keptCaptures,same,keptCaptures]
  joined := foundJoined
  pruned := by
    intro policy ms
    rw [foundKept,foundKept,keptPruned]
  plain := fun policy ms ts => foundPlain room
  refused := fun ms => foundRefused
  reported := by
    intro ms ahead c behind among clear turned
    apply foundReported
    rw [firstTurned?,List.find?_eq_some_iff_append]
    refine ⟨turnedIff.mpr turned,ahead,behind,among,?_⟩
    intro x member
    rw [Bool.not_eq_true',Bool.eq_false_iff,ne_eq,turnedIff]
    exact clear x member
  agreed := fun ms onward => foundAgreed (firstTurnedNone.mpr onward)

-- One that the legend does not have and one with its columns reversed stand before two that turn back.
def mixedAhead : List Capture := [⟨"nowhere",⟨3,0⟩,⟨0,1⟩⟩,⟨"keyword",⟨0,4⟩,⟨0,2⟩⟩]

def mixedTurned : Capture := ⟨"comment",⟨2,0⟩,⟨1,5⟩⟩

def mixedBehind : List Capture := [⟨"string",⟨4,1⟩,⟨2,0⟩⟩]

theorem mixedReadsFlat :
    (0 : Int) ≤ 80 ∧ standard.ReadsFlat 80 ∧
    standard.found 80 .refuse [⟨0,mixedAhead⟩,⟨1,mixedTurned::mixedBehind⟩] =
      .error (.reversedSpan "comment" ⟨2,0⟩ ⟨1,5⟩) ∧
    standard.found 80 .refuse [⟨0,mixedAhead⟩] = standard.found 80 .split [⟨0,mixedAhead⟩] := by
  have flat := normalizeReadsFlat standard (show (0 : Int) ≤ 80 by decide)
  have clear : ∀ x ∈ mixedAhead, ¬ standard.Turned x := by
    simp only [mixedAhead,Turned,List.forall_mem_cons]
    decide
  refine ⟨by decide,flat,?_,flat.agreed _ clear⟩
  exact flat.reported _ mixedAhead mixedTurned mixedBehind rfl clear ⟨by decide,by decide⟩

end Legend
end Tinct
