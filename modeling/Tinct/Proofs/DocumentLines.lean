import Tinct.Proofs.WholeCall

/-! The line at a document: the tasks that have entered its lock and not left, first come first. It is what the queues
say once locks are found by their documents; a task joins it at the end, leaves it from anywhere, and works
only at its head. -/
namespace Tinct

def Locks.line (ls : Locks) (doc : DocId) : List TaskId := ((ls.lock? doc).map ls.queue).getD []

namespace Locks

theorem lineFound {ls : Locks} {doc : DocId} {lock : LockId} (found : ls.lock? doc = some lock) :
    ls.line doc = ls.queue lock := by
  simp only [line,found,Option.map_some,Option.getD_some]

theorem lineAbsent {ls : Locks} {doc : DocId} (absent : ls.lock? doc = none) : ls.line doc = [] := by
  simp only [line,absent,Option.map_none,Option.getD_none]

theorem leaveShrinks (ls : Locks) (doc other : DocId) (lock : LockId) (task : TaskId) (kept : Bool) :
    ((ls.leave doc lock task kept).line other).Sublist (ls.line other) := by
  have left := leaveLock ls doc other lock task kept
  split at left
  · rw [lineAbsent left]
    exact List.nil_sublist _
  · cases found : ls.lock? other with
    | none =>
      rw [lineAbsent (left.trans found)]
      exact List.nil_sublist _
    | some own =>
      rw [lineFound (left.trans found),lineFound found,leaveQueue]
      split
      · rename_i same
        rw [same]
        split
        · exact List.nil_sublist _
        · exact List.filter_sublist
      · exact List.Sublist.refl _

end Locks

namespace Booked
variable {place : TaskId → Option (DocId × LockId)} {holds : TaskId → Prop} {ls : Locks}
  {kept : DocId → Bool} {id : TaskId} {doc : DocId} {lock : LockId}

theorem memLine (b : Booked place holds ls kept) (id : TaskId) (doc : DocId) :
    id ∈ ls.line doc ↔ ∃ lock, place id = some (doc,lock) := by
  cases found : ls.lock? doc with
  | none =>
    rw [Locks.lineAbsent found]
    refine ⟨fun member => by contradiction,?_⟩
    rintro ⟨lock,there⟩
    rw [b.entered id doc lock there] at found
    contradiction
  | some lock =>
    rw [Locks.lineFound found,b.queued id doc lock found]
    refine ⟨fun there => ⟨lock,there⟩,?_⟩
    rintro ⟨other,there⟩
    cases Option.some.inj (found.symm.trans (b.entered id doc other there))
    exact there

theorem lineFirst (b : Booked place holds ls kept) (active : holds id) (there : place id = some (doc,lock)) :
    (ls.line doc).head? = some id := by
  rw [Locks.lineFound (b.entered id doc lock there)]
  exact b.first id doc lock active there

theorem lineMayHold (b : Booked place holds ls kept) (there : place id = some (doc,lock)) :
    ls.mayHold lock id = true ↔ (ls.line doc).head? = some id ∧ lock ∉ ls.held := by
  rw [Locks.lineFound (b.entered id doc lock there)]
  simp [Locks.mayHold]

theorem locked (b : Booked place holds ls kept) (doc : DocId) :
    (ls.lock? doc).isSome = true ↔ ls.line doc ≠ [] ∨ kept doc = true := by
  cases found : ls.lock? doc with
  | none => simp [Locks.lineAbsent found,b.missing doc found]
  | some lock => simpa [Locks.lineFound found] using b.wanted doc lock found

theorem lineUsers (b : Booked place holds ls kept) (doc : DocId) :
    Table.get? doc ls.users = if (ls.lock? doc).isSome then some (ls.line doc).length else none := by
  rw [b.counted doc]
  cases found : ls.lock? doc with
  | none => rfl
  | some lock => simp [Locks.lineFound found]

theorem lineEnter (b : Booked place holds ls kept) (doc other : DocId) (id : TaskId) :
    (ls.enter doc id).1.line other = if doc = other then ls.line other ++ [id] else ls.line other := by
  split
  · rename_i same
    subst same
    rw [Locks.lineFound ((Locks.enterLock ls doc doc id).trans (if_pos rfl)),Locks.enterQueue,if_pos rfl]
    rcases ls.enterNew doc id with ⟨found,_⟩ | ⟨absent,fresh,_⟩
    · rw [Locks.lineFound found]
    · rw [Locks.lineAbsent absent,fresh,b.unused ls.next (Nat.le_refl _)]
  · rename_i different
    have lock := (Locks.enterLock ls doc other id).trans (if_neg different)
    cases found : ls.lock? other with
    | none => rw [Locks.lineAbsent found,Locks.lineAbsent (lock.trans found)]
    | some there =>
      rw [Locks.lineFound found,Locks.lineFound (lock.trans found),Locks.enterQueue,if_neg]
      intro equal
      exact different (((b.enterOwn doc id).2.2.2.1 other there found).mp equal.symm).symm

theorem lineLeave (b : Booked place holds ls kept) (there : place id = some (doc,lock)) (other : DocId) :
    (ls.leave doc lock id (kept doc)).line other =
      if doc = other then (ls.line other).filter (· ≠ id) else ls.line other := by
  have found := b.entered id doc lock there
  obtain ⟨rest,_⟩ := b.leaveQueue there lock
  have queue := fun x => (b.leaveQueue there x).2
  have lock' := Locks.leaveLock ls doc other lock id (kept doc)
  split
  · rename_i same
    subst same
    rw [Locks.lineFound found]
    by_cases drops : ls.Drops doc (kept doc)
    · rw [if_pos ⟨drops,rfl⟩] at lock'
      rw [Locks.lineAbsent lock',List.eq_nil_of_length_eq_zero (rest.trans drops.1)]
    · rw [if_neg fun both => drops both.1] at lock'
      rw [Locks.lineFound (lock'.trans found),queue,if_pos rfl]
  · rename_i different
    rw [if_neg fun both => different both.2] at lock'
    cases own : ls.lock? other with
    | none => rw [Locks.lineAbsent own,Locks.lineAbsent (lock'.trans own)]
    | some x =>
      rw [Locks.lineFound own,Locks.lineFound (lock'.trans own),queue,if_neg]
      intro equal
      exact different (b.apart doc other x (equal ▸ found) own)

end Booked
end Tinct
