import Tinct.Proofs.SessionRun
import Tinct.Proofs.Tables
import Mathlib.Data.List.Perm.Basic

/-! Locks and their users, whatever the order of the steps. The queue of a document's lock holds exactly the tasks
that have entered and not left, the task at work stands first in it, and the count of users is its length. A
lock is there while it has users or its document is kept, so the last user finds what it takes away. -/
namespace Tinct
namespace Stage

def place? : Stage → Option (DocId × LockId)
  | .waiting doc lock | .inside doc lock | .leaving doc lock _ => some (doc,lock)
  | .atGate | .finished _ => none

def holding : Stage → Bool
  | .inside _ _ | .leaving _ _ _ => true
  | .atGate | .waiting _ _ | .finished _ => false

end Stage

namespace Locks

theorem enterLock (ls : Locks) (doc other : DocId) (task : TaskId) :
    (ls.enter doc task).1.lock? other = if doc = other then some (ls.enter doc task).2 else ls.lock? other := by
  cases found : ls.lock? doc with
  | none =>
    simp only [enter,obtain,found]
    exact Table.lookupPut doc other ls.next ls.byDoc
  | some lock =>
    simp only [enter,obtain,found]
    change ls.lock? other = _
    split
    · rename_i same
      exact same ▸ found
    · rfl

theorem obtainSame (ls : Locks) (doc : DocId) :
    (ls.obtain doc).1.users = ls.users ∧ (ls.obtain doc).1.queues = ls.queues ∧ (ls.obtain doc).1.held = ls.held := by
  unfold obtain
  split <;> exact ⟨rfl,rfl,rfl⟩

theorem enterQueue (ls : Locks) (doc : DocId) (task : TaskId) (lock : LockId) :
    (ls.enter doc task).1.queue lock =
      if (ls.enter doc task).2 = lock then ls.queue lock ++ [task] else ls.queue lock := by
  have same := (ls.obtainSame doc).2.1
  simp only [enter,queue,Table.lookupPut,same]
  split
  · rename_i own
    rw [own,Option.getD_some]
  · rfl

theorem enterUsers (ls : Locks) (doc other : DocId) (task : TaskId) :
    Table.get? other (ls.enter doc task).1.users =
      if doc = other then some (ls.userCount doc + 1) else Table.get? other ls.users := by
  have same := (ls.obtainSame doc).1
  simp only [enter,userCount,Table.lookupPut,same]

theorem enterHeld (ls : Locks) (doc : DocId) (task : TaskId) : (ls.enter doc task).1.held = ls.held :=
  (ls.obtainSame doc).2.2

theorem enterNew (ls : Locks) (doc : DocId) (task : TaskId) :
    (ls.lock? doc = some (ls.enter doc task).2 ∧ (ls.enter doc task).1.next = ls.next) ∨
    (ls.lock? doc = none ∧ (ls.enter doc task).2 = ls.next ∧ (ls.enter doc task).1.next = ls.next + 1) := by
  unfold enter obtain
  cases found : ls.lock? doc with
  | none => exact .inr ⟨rfl,rfl,rfl⟩
  | some lock => exact .inl ⟨rfl,rfl⟩

def Drops (ls : Locks) (doc : DocId) (kept : Bool) : Prop := ls.userCount doc - 1 = 0 ∧ kept = false

instance (ls : Locks) (doc : DocId) (kept : Bool) : Decidable (ls.Drops doc kept) := by
  unfold Drops; infer_instance

theorem leaveEq (ls : Locks) (doc : DocId) (lock : LockId) (task : TaskId) (kept : Bool) :
    ls.leave doc lock task kept =
      if ls.Drops doc kept then
        { ls with
          byDoc := Table.erase doc ls.byDoc
          users := Table.erase doc ls.users
          queues := Table.erase lock (Table.put lock ((ls.queue lock).filter (· ≠ task)) ls.queues) }
      else
        { ls with
          users := Table.put doc (ls.userCount doc - 1) ls.users
          queues := Table.put lock ((ls.queue lock).filter (· ≠ task)) ls.queues } := by
  simp only [leave]
  by_cases drops : ls.Drops doc kept
  · rw [if_pos drops,if_neg (by simp [drops.1,drops.2])]
  · rw [if_neg drops,if_pos]
    unfold Drops at drops
    cases kept <;> simp_all

theorem leaveLock (ls : Locks) (doc other : DocId) (lock : LockId) (task : TaskId) (kept : Bool) :
    (ls.leave doc lock task kept).lock? other = if ls.Drops doc kept ∧ doc = other then none else ls.lock? other := by
  rw [leaveEq]
  by_cases drops : ls.Drops doc kept
  · simp only [drops,true_and]
    exact Table.lookupErase doc other ls.byDoc
  · simp only [drops,false_and,if_false]
    rfl

theorem leaveQueue (ls : Locks) (doc : DocId) (lock other : LockId) (task : TaskId) (kept : Bool) :
    (ls.leave doc lock task kept).queue other =
      if lock = other then (if ls.Drops doc kept then [] else (ls.queue lock).filter (· ≠ task))
      else ls.queue other := by
  rw [leaveEq]
  by_cases drops : ls.Drops doc kept
  · simp only [if_pos drops,queue,Table.lookupErase,Table.lookupPut]
    split <;> rfl
  · simp only [if_neg drops,queue,Table.lookupPut]
    split <;> rfl

theorem leaveUsers (ls : Locks) (doc other : DocId) (lock : LockId) (task : TaskId) (kept : Bool) :
    Table.get? other (ls.leave doc lock task kept).users =
      if doc = other then (if ls.Drops doc kept then none else some (ls.userCount doc - 1))
      else Table.get? other ls.users := by
  rw [leaveEq]
  by_cases drops : ls.Drops doc kept
  · simp only [if_pos drops,Table.lookupErase]
  · simp only [if_neg drops,Table.lookupPut]

theorem leaveHeld (ls : Locks) (doc : DocId) (lock : LockId) (task : TaskId) (kept : Bool) :
    (ls.leave doc lock task kept).held = ls.held := by
  rw [leaveEq]
  split <;> rfl

theorem leaveNext (ls : Locks) (doc : DocId) (lock : LockId) (task : TaskId) (kept : Bool) :
    (ls.leave doc lock task kept).next = ls.next := by
  rw [leaveEq]
  split <;> rfl

end Locks

/- The tables against the tasks: `place` tells where a task has entered and not left, `holds` whether it has the
lock. -/
structure Booked (place : TaskId → Option (DocId × LockId)) (holds : TaskId → Prop) (ls : Locks)
    (kept : DocId → Bool) : Prop where
  entered : ∀ id doc lock, place id = some (doc,lock) → ls.lock? doc = some lock
  queued : ∀ id doc lock, ls.lock? doc = some lock → (id ∈ ls.queue lock ↔ place id = some (doc,lock))
  once : ∀ doc lock, ls.lock? doc = some lock → (ls.queue lock).Nodup
  first : ∀ id doc lock, holds id → place id = some (doc,lock) → (ls.queue lock).head? = some id
  counted : ∀ doc, Table.get? doc ls.users = (ls.lock? doc).map fun lock => (ls.queue lock).length
  wanted : ∀ doc lock, ls.lock? doc = some lock → ls.queue lock ≠ [] ∨ kept doc = true
  missing : ∀ doc, ls.lock? doc = none → kept doc = false
  numbered : ∀ doc lock, ls.lock? doc = some lock → lock < ls.next
  apart : ∀ a b lock, ls.lock? a = some lock → ls.lock? b = some lock → a = b
  unused : ∀ lock, ls.next ≤ lock → ls.queue lock = []

namespace Booked
variable {place later : TaskId → Option (DocId × LockId)} {holds after : TaskId → Prop} {ls : Locks}
  {kept : DocId → Bool} {id : TaskId} {doc : DocId} {lock : LockId}

theorem userCount (b : Booked place holds ls kept) (found : ls.lock? doc = some lock) :
    ls.userCount doc = (ls.queue lock).length := by
  simp only [Locks.userCount,b.counted doc,found,Option.map_some,Option.getD_some]

theorem enterOwn (b : Booked place holds ls kept) (doc : DocId) (task : TaskId) :
    (∀ id, id ∈ ls.queue (ls.enter doc task).2 ↔ place id = some (doc,(ls.enter doc task).2)) ∧
    (ls.queue (ls.enter doc task).2).Nodup ∧
    ls.userCount doc = (ls.queue (ls.enter doc task).2).length ∧
    (∀ other lock, ls.lock? other = some lock → (lock = (ls.enter doc task).2 ↔ other = doc)) ∧
    (ls.enter doc task).2 < (ls.enter doc task).1.next ∧ ls.next ≤ (ls.enter doc task).1.next := by
  rcases ls.enterNew doc task with ⟨found,next⟩ | ⟨absent,fresh,next⟩
  · refine ⟨fun id => b.queued id doc _ found,b.once doc _ found,b.userCount found,?_,?_,Nat.le_of_eq next.symm⟩
    · intro other lock there
      constructor
      · intro same
        exact b.apart other doc lock there (same ▸ found)
      · intro same
        subst same
        exact Option.some.inj (there.symm.trans found)
    · rw [next]
      exact b.numbered doc _ found
  · have empty := b.unused ls.next (Nat.le_refl _)
    rw [fresh,next,empty]
    refine ⟨?_,List.nodup_nil,?_,?_,Nat.lt_succ_self _,Nat.le_succ _⟩
    · intro id
      constructor
      · intro member
        contradiction
      · intro there
        rw [b.entered id doc ls.next there] at absent
        contradiction
    · simp only [Locks.userCount,b.counted doc,absent]
      rfl
    · intro other lock there
      constructor
      · intro same
        exact absurd (b.numbered other lock there) (same ▸ Nat.lt_irrefl _)
      · intro same
        rw [same,absent] at there
        contradiction

theorem enter (b : Booked place holds ls kept) (outside : place id = none)
    (moved : later id = some (doc,(ls.enter doc id).2)) (same : ∀ j, j ≠ id → later j = place j)
    (quiet : ∀ j, after j → j ≠ id ∧ holds j) : Booked later after (ls.enter doc id).1 kept := by
  obtain ⟨own,once,count,only,bound,grows⟩ := b.enterOwn doc id
  have stranger : id ∉ ls.queue (ls.enter doc id).2 := by
    simp [own,outside]
  -- every other document keeps its lock, and that lock its queue
  have elsewhere : ∀ other lock, doc ≠ other → ls.lock? other = some lock →
      (ls.enter doc id).1.queue lock = ls.queue lock := by
    intro other lock different there
    rw [Locks.enterQueue,if_neg]
    intro equal
    exact different ((only other lock there).mp equal.symm).symm
  have here : (ls.enter doc id).1.queue (ls.enter doc id).2 = ls.queue (ls.enter doc id).2 ++ [id] := by
    rw [Locks.enterQueue,if_pos rfl]
  constructor
  case entered =>
    intro j other lock there
    rw [Locks.enterLock]
    by_cases self : j = id
    · subst self
      cases Option.some.inj (moved.symm.trans there)
      exact if_pos rfl
    · rw [same j self] at there
      have found := b.entered j other lock there
      split
      · rename_i equal
        rw [(only other lock found).mpr equal.symm]
      · exact found
  case queued =>
    intro j other lock found
    rw [Locks.enterLock] at found
    split at found
    · rename_i equal
      cases Option.some.inj found
      subst equal
      rw [here,List.mem_append,List.mem_singleton,own]
      by_cases self : j = id
      · subst self
        simp [moved]
      · simp [same j self,self]
    · rename_i different
      rw [elsewhere other lock different found,b.queued j other lock found]
      by_cases self : j = id
      · subst self
        simp [outside,moved,different]
      · rw [same j self]
  case once =>
    intro other lock found
    rw [Locks.enterLock] at found
    split at found
    · cases Option.some.inj found
      rw [here]
      exact List.nodup_append.mpr ⟨once,by simp,fun a left c right equal => by
        rw [List.mem_singleton.mp right] at equal
        exact stranger (equal ▸ left)⟩
    · rw [elsewhere other lock ‹_› found]
      exact b.once other lock found
  case first =>
    intro j other lock active there
    obtain ⟨self,active⟩ := quiet j active
    rw [same j self] at there
    have head := b.first j other lock active there
    rw [Locks.enterQueue]
    split
    · rw [List.head?_append,head]
      rfl
    · exact head
  case counted =>
    intro other
    rw [Locks.enterUsers,Locks.enterLock]
    split
    · rw [Option.map_some,here,List.length_append,count]
      rfl
    · rename_i different
      rw [b.counted other]
      cases found : ls.lock? other with
      | none => rfl
      | some lock => simp only [Option.map_some,elsewhere other lock different found]
  case wanted =>
    intro other lock found
    rw [Locks.enterLock] at found
    split at found
    · cases Option.some.inj found
      rw [here]
      exact .inl (by simp)
    · rw [elsewhere other lock ‹_› found]
      exact b.wanted other lock found
  case missing =>
    intro other absent
    rw [Locks.enterLock] at absent
    split at absent
    · contradiction
    · exact b.missing other absent
  case numbered =>
    intro other lock found
    rw [Locks.enterLock] at found
    split at found
    · cases Option.some.inj found
      exact bound
    · exact Nat.lt_of_lt_of_le (b.numbered other lock found) grows
  case apart =>
    intro x y lock left right
    rw [Locks.enterLock] at left right
    split at left
    · rename_i first
      cases Option.some.inj left
      split at right
      · exact first.symm.trans ‹_›
      · exact first.symm.trans ((only y _ right).mp rfl).symm
    · split at right
      · rename_i second
        cases Option.some.inj right
        exact ((only x _ left).mp rfl).trans second
      · exact b.apart x y lock left right
  case unused =>
    intro lock high
    rw [Locks.enterQueue,if_neg]
    · exact b.unused lock (Nat.le_trans grows high)
    · intro equal
      exact absurd bound (equal ▸ Nat.not_lt.mpr high)

theorem acquire (b : Booked place holds ls kept) (may : ls.mayHold lock id = true)
    (at_ : place id = some (doc,lock)) (quiet : ∀ j, after j → j = id ∨ holds j) : Booked place after ls kept := by
  have head : (ls.queue lock).head? = some id := by
    simp only [Locks.mayHold,Bool.and_eq_true,decide_eq_true_eq] at may
    exact may.1
  refine { b with first := ?_ }
  intro j other there active found
  rcases quiet j active with self | active
  · subst self
    cases Option.some.inj (at_.symm.trans found)
    exact head
  · exact b.first j other there active found

theorem work {now : DocId → Bool} (b : Booked place holds ls kept) (at_ : place id = some (doc,lock))
    (same : ∀ other, other ≠ doc → now other = kept other) (quiet : ∀ j, after j → holds j) :
    Booked place after ls now := by
  have found := b.entered id doc lock at_
  have member := (b.queued id doc lock found).mpr at_
  refine { b with
    first := fun j other there active => b.first j other there (quiet j active)
    wanted := ?_
    missing := ?_ }
  · intro other there own
    by_cases self : other = doc
    · subst self
      cases Option.some.inj (found.symm.trans own)
      exact .inl (List.ne_nil_of_mem member)
    · rw [same other self]
      exact b.wanted other there own
  · intro other absent
    have different : other ≠ doc := by
      intro self
      rw [self,found] at absent
      contradiction
    rw [same other different]
    exact b.missing other absent

theorem leaveQueue (b : Booked place holds ls kept) (at_ : place id = some (doc,lock)) (other : LockId) :
    ((ls.queue lock).filter (· ≠ id)).length = ls.userCount doc - 1 ∧
    (ls.leave doc lock id (kept doc)).queue other =
      if lock = other then (ls.queue lock).filter (· ≠ id) else ls.queue other := by
  have found := b.entered id doc lock at_
  have member := (b.queued id doc lock found).mpr at_
  have rest : ((ls.queue lock).filter (· ≠ id)).length = ls.userCount doc - 1 := by
    rw [b.userCount found,← List.length_erase_of_mem member,(b.once doc lock found).erase_eq_filter]
    congr 1
    apply List.filter_congr
    intro x _
    by_cases same : x = id <;> simp [same]
  refine ⟨rest,?_⟩
  rw [Locks.leaveQueue]
  by_cases drops : ls.Drops doc (kept doc)
  · have empty := List.eq_nil_of_length_eq_zero (rest.trans drops.1)
    rw [if_pos drops,empty]
  · rw [if_neg drops]

theorem leave (b : Booked place holds ls kept) (at_ : place id = some (doc,lock)) (gone : later id = none)
    (same : ∀ j, j ≠ id → later j = place j) (quiet : ∀ j, after j → j ≠ id ∧ holds j) :
    Booked later after (ls.leave doc lock id (kept doc)) kept := by
  have found := b.entered id doc lock at_
  have queue := fun other => (b.leaveQueue at_ other).2
  have rest := (b.leaveQueue at_ lock).1
  have remains : ∀ j, j ∈ (ls.queue lock).filter (· ≠ id) ↔ j ≠ id ∧ place j = some (doc,lock) := by
    intro j
    rw [List.mem_filter,b.queued j doc lock found]
    simp [and_comm]
  -- a lock that is still there was there before, and the one that went had no other task
  have before : ∀ x there, (ls.leave doc lock id (kept doc)).lock? x = some there → ls.lock? x = some there := by
    intro x there own
    rw [Locks.leaveLock] at own
    split at own
    · contradiction
    · exact own
  have own : ∀ x, ls.lock? x = some lock → x = doc := fun x there => b.apart x doc lock there found
  constructor
  case entered =>
    intro j x there entered
    have self : j ≠ id := by
      rintro rfl
      rw [gone] at entered
      contradiction
    rw [same j self] at entered
    rw [Locks.leaveLock,if_neg]
    · exact b.entered j x there entered
    · rintro ⟨drops,rfl⟩
      have equal := Option.some.inj ((b.entered j doc there entered).symm.trans found)
      subst equal
      have present := (remains j).mpr ⟨self,entered⟩
      exact absurd (rest.trans drops.1) (Nat.ne_of_gt (List.length_pos_of_mem present))
  case queued =>
    intro j x there now
    have was := before x there now
    rw [queue there]
    split
    · rename_i equal
      subst equal
      cases own x was
      rw [remains]
      by_cases self : j = id
      · simp [self,gone]
      · simp [self,same j self]
    · rename_i different
      rw [b.queued j x there was]
      by_cases self : j = id
      · subst self
        simp [gone,at_,different]
      · rw [same j self]
  case once =>
    intro x there now
    rw [queue there]
    split
    · exact (b.once doc lock found).filter _
    · exact b.once x there (before x there now)
  case first =>
    intro j x there active entered
    obtain ⟨self,active⟩ := quiet j active
    rw [same j self] at entered
    have head := b.first j x there active entered
    rw [queue there]
    split
    · rename_i equal
      subst equal
      obtain ⟨tail,shape⟩ := List.head?_eq_some_iff.mp head
      simp [shape,self]
    · exact head
  case counted =>
    intro x
    rw [Locks.leaveUsers,Locks.leaveLock]
    by_cases self : doc = x
    · subst self
      by_cases drops : ls.Drops doc (kept doc)
      · simp [drops]
      · simp [drops,found,queue,← rest]
    · rw [if_neg self,if_neg fun both => self both.2,b.counted x]
      cases there : ls.lock? x with
      | none => rfl
      | some mine =>
        have different : lock ≠ mine := by
          rintro rfl
          exact self (own x there).symm
        simp only [Option.map_some,queue,if_neg different]
  case wanted =>
    intro x there now
    have was := before x there now
    rw [queue there]
    split
    · rename_i equal
      subst equal
      cases own x was
      rw [Locks.leaveLock] at now
      by_contra neither
      obtain ⟨empty,gone⟩ := not_or.mp neither
      have drops : ls.Drops doc (kept doc) := ⟨by rw [← rest,not_not.mp empty]; rfl,by simpa using gone⟩
      rw [if_pos ⟨drops,rfl⟩] at now
      contradiction
    · exact b.wanted x there was
  case missing =>
    intro x absent
    rw [Locks.leaveLock] at absent
    split at absent
    · rename_i both
      exact both.2 ▸ both.1.2
    · exact b.missing x absent
  case numbered =>
    intro x there now
    rw [Locks.leaveNext]
    exact b.numbered x there (before x there now)
  case apart =>
    intro x y there left right
    exact b.apart x y there (before x there left) (before y there right)
  case unused =>
    intro there high
    rw [Locks.leaveNext] at high
    rw [queue there,if_neg]
    · exact b.unused there high
    · rintro rfl
      exact absurd (b.numbered doc lock found) (Nat.not_lt.mpr high)

theorem sameTasks (b : Booked place holds ls kept) (same : ∀ j, later j = place j) (quiet : ∀ j, after j → holds j) :
    Booked later after ls kept := by
  have equal : later = place := funext same
  subst equal
  exact { b with first := fun j doc lock active => b.first j doc lock (quiet j active) }

theorem aside (b : Booked place holds ls kept) (held : List LockId) : Booked place holds { ls with held } kept :=
  ⟨b.entered,b.queued,b.once,b.first,b.counted,b.wanted,b.missing,b.numbered,b.apart,b.unused⟩

end Booked

namespace Session

def place? (s : Session) (id : TaskId) : Option (DocId × LockId) := (s.stage? id).bind Stage.place?

def Holds (s : Session) (id : TaskId) : Prop := (s.stage? id).any Stage.holding = true

def tasksAt (s : Session) (doc : DocId) : List TaskId :=
  Table.keys (s.tasks.filter fun e => e.2.stage.place?.map Prod.fst = some doc)

structure Orderly (s : Session) : Prop where
  booked : Booked s.place? s.Holds s.locks s.store.contains
  once : (Table.keys s.tasks).Nodup
  numbered : ∀ id t, Table.get? id s.tasks = some t → id < s.nextTask
  own : ∀ id t doc lock, Table.get? id s.tasks = some t → t.stage.place? = some (doc,lock) → t.call.doc? = some doc

theorem placeFound {s : Session} {id : TaskId} {t : Task} (found : Table.get? id s.tasks = some t) :
    s.place? id = t.stage.place? := by
  simp only [place?,stage?,found,Option.map_some,Option.bind_some]

theorem placePut {s next : Session} {id : TaskId} {t : Task} (tasks : next.tasks = Table.put id t s.tasks)
    (other : TaskId) : next.place? other = if id = other then t.stage.place? else s.place? other := by
  simp only [place?,stage?,tasks,Table.lookupPut]
  split <;> rfl

theorem holdsPut {s next : Session} {id : TaskId} {t : Task} (tasks : next.tasks = Table.put id t s.tasks)
    {other : TaskId} (active : next.Holds other) :
    (other = id ∧ t.stage.holding = true) ∨ (other ≠ id ∧ s.Holds other) := by
  simp only [Holds,stage?,tasks,Table.lookupPut] at active ⊢
  split at active
  · rename_i same
    exact .inl ⟨same.symm,by simpa using active⟩
  · rename_i different
    exact .inr ⟨fun same => different same.symm,active⟩

theorem orderlyPut {s next : Session} {id : TaskId} {t : Task} (o : Orderly s)
    (tasks : next.tasks = Table.put id t s.tasks) (number : id < next.nextTask) (grows : s.nextTask ≤ next.nextTask)
    (own : ∀ doc lock, t.stage.place? = some (doc,lock) → t.call.doc? = some doc)
    (booked : Booked next.place? next.Holds next.locks next.store.contains) : Orderly next where
  booked := booked
  once := by
    rw [tasks]
    exact Table.keysPutNodup o.once id t
  numbered := by
    intro other task found
    rw [tasks,Table.lookupPut] at found
    split at found
    · rename_i same
      exact same ▸ number
    · exact Nat.lt_of_lt_of_le (o.numbered other task found) grows
  own := by
    intro other task doc lock found there
    rw [tasks,Table.lookupPut] at found
    split at found
    · cases Option.some.inj found
      exact own doc lock there
    · exact o.own other task doc lock found there

theorem orderlyIdle {s next : Session} {id : TaskId} {t : Task} (o : Orderly s)
    (tasks : next.tasks = Table.put id t s.tasks) (number : id < next.nextTask) (grows : s.nextTask ≤ next.nextTask)
    (outside : s.place? id = none) (free : t.stage.place? = none) (quiet : t.stage.holding = false)
    (locks : next.locks = s.locks) (store : next.store = s.store) : Orderly next := by
  refine orderlyPut o tasks number grows ?_ ?_
  · intro doc lock there
    rw [free] at there
    contradiction
  · rw [locks,store]
    apply o.booked.sameTasks
    · intro j
      rw [placePut tasks]
      split
      · rename_i same
        rw [free,← same,outside]
      · rfl
    · intro j active
      rcases holdsPut tasks active with ⟨_,holding⟩ | ⟨_,active⟩
      · rw [quiet] at holding
        contradiction
      · exact active

theorem orderlyStay {s next : Session} {id : TaskId} {t : Task} {stage : Stage} {doc : DocId} {lock : LockId}
    (o : Orderly s) (found : Table.get? id s.tasks = some t) (here : t.stage.place? = some (doc,lock))
    (tasks : next.tasks = Table.put id { t with stage } s.tasks) (numbers : next.nextTask = s.nextTask)
    (still : stage.place? = some (doc,lock)) (first : s.locks.mayHold lock id = true ∨ s.Holds id)
    (locks : next.locks = s.locks)
    (elsewhere : ∀ other, other ≠ doc → next.store.contains other = s.store.contains other) : Orderly next := by
  have own := o.own id t doc lock found here
  have at_ := (placeFound found).trans here
  have unmoved : ∀ j, next.place? j = s.place? j := by
    intro j
    rw [placePut tasks]
    split
    · rename_i same
      rw [still,← same,at_]
    · rfl
  refine orderlyPut o tasks (numbers ▸ o.numbered id t found) (Nat.le_of_eq numbers.symm) ?_ ?_
  · intro other there same
    cases Option.some.inj (still.symm.trans same)
    exact own
  · have holder : Booked s.place? (fun j => j = id ∨ s.Holds j) s.locks s.store.contains := by
      rcases first with may | active
      · exact o.booked.acquire may at_ fun _ same => same
      · apply o.booked.sameTasks fun _ => rfl
        rintro j (same | active)
        · exact same ▸ active
        · exact active
    rw [locks]
    refine Booked.sameTasks (holder.work at_ elsewhere fun _ same => same) unmoved ?_
    intro j active
    rcases holdsPut tasks active with ⟨same,_⟩ | ⟨_,active⟩
    · exact .inl same
    · exact .inr active

theorem orderlyLeave {s : Session} {id : TaskId} {t : Task} {doc : DocId} {lock : LockId} (o : Orderly s)
    (found : Table.get? id s.tasks = some t) (here : t.stage.place? = some (doc,lock)) (outcome : Outcome) :
    Orderly
      { s with
        locks := s.locks.leave doc lock id (s.store.contains doc)
        tasks := Table.put id { t with stage := .finished outcome } s.tasks } := by
  refine orderlyPut o rfl (o.numbered id t found) (Nat.le_refl _) ?_ ?_
  · intro other there same
    contradiction
  · refine o.booked.leave ((placeFound found).trans here) ((placePut rfl id).trans (if_pos rfl)) ?_ ?_
    · intro j different
      exact (placePut rfl j).trans (if_neg fun same => different same.symm)
    · intro j active
      rcases holdsPut rfl active with ⟨_,holding⟩ | quiet
      · contradiction
      · exact quiet

theorem takenOrderly {host : Host} {s next : Session} {event : Event} {effects : Document.Effects} (o : Orderly s)
    (taken : Taken host s event next effects) : Orderly next := by
  cases taken with
  | start call =>
    have absent : Table.get? s.nextTask s.tasks = none := by
      cases found : Table.get? s.nextTask s.tasks with
      | none => rfl
      | some t => exact absurd (o.numbered _ t found) (Nat.lt_irrefl _)
    have outside : s.place? s.nextTask = none := by
      simp only [place?,stage?,absent]
      rfl
    exact orderlyIdle o rfl (Nat.lt_succ_self _) (Nat.le_succ _) outside rfl rfl rfl rfl
  | loaded g starting load => exact ⟨o.booked,o.once,o.numbered,o.own⟩
  | broken cause starting load => exact ⟨o.booked,o.once,o.numbered,o.own⟩
  | prepared id call g found ready free =>
    exact orderlyIdle o rfl (o.numbered id _ found) (Nat.le_refl _) (placeFound found) rfl rfl rfl rfl
  | refused id call cause found failed =>
    exact orderlyIdle o rfl (o.numbered id _ found) (Nat.le_refl _) (placeFound found) rfl rfl rfl rfl
  | dropped id call found =>
    exact orderlyIdle o rfl (o.numbered id _ found) (Nat.le_refl _) (placeFound found) rfl rfl rfl rfl
  | enter id call g doc found ready wants =>
    refine orderlyPut o rfl (o.numbered id _ found) (Nat.le_refl _) ?_ ?_
    · intro other lock there
      cases Option.some.inj there
      exact wants
    · refine o.booked.enter (placeFound found) ((placePut rfl id).trans (if_pos rfl)) ?_ ?_
      · intro j different
        exact (placePut rfl j).trans (if_neg fun same => different same.symm)
      · intro j active
        rcases holdsPut rfl active with ⟨_,holding⟩ | quiet
        · contradiction
        · exact quiet
  | acquire id call doc lock found may => exact orderlyStay o found rfl rfl rfl rfl (.inl may) rfl fun _ _ => rfl
  | work id call g doc lock found ready =>
    have holds : s.Holds id := by
      simp only [Holds,stageFound found]
      rfl
    refine orderlyStay o found rfl rfl rfl rfl (.inr holds) rfl ?_
    intro other elsewhere
    have same := serveElsewhere host s g (o.own id _ doc lock found rfl) elsewhere
    simp only [Document.Store.contains,same]
  | leave id call doc lock outcome found => exact orderlyLeave o found rfl outcome
  | abandon id call doc lock found => exact orderlyLeave o found rfl (.error .cancelled)
  | hold lock => exact { o with booked := o.booked.aside _ }
  | release lock => exact { o with booked := o.booked.aside _ }

theorem stepOrderly {s : Session} (o : Orderly s) (host : Host) (event : Event) : Orderly (s.step host event).1 :=
  stepKept o (takenOrderly o)

theorem freshOrderly (settings : Settings) (legend : Legend) : Orderly { settings, legend } where
  booked := by
    refine ⟨?_,?_,?_,?_,?_,?_,?_,?_,?_,?_⟩ <;> intros <;> first | contradiction | rfl
  once := List.nodup_nil
  numbered := by
    intro id t found
    contradiction
  own := by
    intro id t doc lock found
    contradiction

theorem runOrderly {s : Session} (o : Orderly s) (host : Host) (events : List Event) :
    Orderly (s.run host events).1 := by
  induction events generalizing s with
  | nil => exact o
  | cons e rest ih => exact ih (stepOrderly o host e)

theorem memTasksAt {s : Session} (o : Orderly s) (id : TaskId) (doc : DocId) :
    id ∈ s.tasksAt doc ↔ ∃ lock, s.place? id = some (doc,lock) := by
  constructor
  · intro member
    obtain ⟨⟨key,t⟩,inside,same⟩ := List.mem_map.mp member
    cases same
    obtain ⟨listed,entered⟩ := List.mem_filter.mp inside
    obtain ⟨⟨_,lock⟩,there,same⟩ := Option.map_eq_some_iff.mp (of_decide_eq_true entered)
    cases same
    exact ⟨lock,(placeFound ((Table.memIffGet o.once key t).mp listed)).trans there⟩
  · rintro ⟨lock,there⟩
    obtain ⟨stage,at_,there⟩ := Option.bind_eq_some_iff.mp there
    obtain ⟨call,found⟩ := taskAt at_
    have member := (Table.memIffGet o.once id _).mpr found
    refine List.mem_map.mpr ⟨_,List.mem_filter.mpr ⟨member,?_⟩,rfl⟩
    simp [there]

theorem tasksAtNodup {s : Session} (o : Orderly s) (doc : DocId) : (s.tasksAt doc).Nodup :=
  o.once.sublist (List.filter_sublist.map Prod.fst)

theorem queueTasks {s : Session} (o : Orderly s) {doc : DocId} {lock : LockId}
    (found : s.locks.lock? doc = some lock) :
    (s.locks.queue lock).Perm (s.tasksAt doc) := by
  apply (List.perm_ext_iff_of_nodup (o.booked.once doc lock found) (tasksAtNodup o doc)).mpr
  intro id
  rw [o.booked.queued id doc lock found,memTasksAt o]
  constructor
  · intro there
    exact ⟨lock,there⟩
  · rintro ⟨other,there⟩
    cases Option.some.inj (found.symm.trans (o.booked.entered id doc other there))
    exact there

theorem lockless {s : Session} (o : Orderly s) {doc : DocId} (absent : s.locks.lock? doc = none) :
    s.tasksAt doc = [] := by
  apply List.eq_nil_iff_forall_not_mem.mpr
  intro id member
  obtain ⟨lock,there⟩ := (memTasksAt o id doc).mp member
  rw [o.booked.entered id doc lock there] at absent
  contradiction

theorem usersAt {s : Session} (o : Orderly s) (doc : DocId) :
    Table.get? doc s.locks.users = (s.locks.lock? doc).map fun _ => (s.tasksAt doc).length := by
  rw [o.booked.counted doc]
  cases found : s.locks.lock? doc with
  | none => rfl
  | some lock => simp only [Option.map_some,(queueTasks o found).length_eq]

structure LocksKept (s : Session) : Prop where
  exclusive : ∀ i j doc a b, s.Holds i → s.Holds j → s.place? i = some (doc,a) → s.place? j = some (doc,b) → i = j
  shared : ∀ i j doc a b, s.place? i = some (doc,a) → s.place? j = some (doc,b) → a = b
  sameKeys : ∀ doc, doc ∈ Table.keys s.locks.byDoc ↔ doc ∈ Table.keys s.locks.users
  counted : ∀ doc, s.locks.userCount doc = (s.tasksAt doc).length
  present : ∀ doc, doc ∈ Table.keys s.locks.byDoc ↔ 0 < (s.tasksAt doc).length ∨ s.store.contains doc = true
  -- what a task removes when it leaves is there
  removable : ∀ i doc lock, s.place? i = some (doc,lock) →
    Table.get? doc s.locks.byDoc = some lock ∧ ∃ others, Table.get? doc s.locks.users = some (others + 1)
  idle : (∀ i, s.place? i = none) → ∀ doc,
    (doc ∈ Table.keys s.locks.byDoc ↔ s.store.contains doc = true) ∧
    (doc ∈ Table.keys s.locks.users → Table.get? doc s.locks.users = some 0)

theorem orderlyLocks {s : Session} (o : Orderly s) : LocksKept s := by
  have keyed : ∀ doc, doc ∈ Table.keys s.locks.byDoc ↔ (s.locks.lock? doc).isSome = true :=
    fun doc => Table.memKeys doc s.locks.byDoc
  have present : ∀ doc, doc ∈ Table.keys s.locks.byDoc ↔
      0 < (s.tasksAt doc).length ∨ s.store.contains doc = true := by
    intro doc
    rw [keyed]
    cases found : s.locks.lock? doc with
    | none => simp [lockless o found,o.booked.missing doc found]
    | some lock =>
      have users := (queueTasks o found).length_eq
      rcases o.booked.wanted doc lock found with busy | kept
      · simp [← users,List.length_pos_of_ne_nil busy]
      · simp [kept]
  have counted : ∀ doc, s.locks.userCount doc = (s.tasksAt doc).length := by
    intro doc
    simp only [Locks.userCount,usersAt o]
    cases found : s.locks.lock? doc with
    | none => simp [lockless o found]
    | some lock => rfl
  refine ⟨?exclusive,?shared,?sameKeys,counted,present,?removable,?idle⟩
  case exclusive =>
    intro i j doc a b left right here there
    have same := Option.some.inj ((o.booked.entered i doc a here).symm.trans (o.booked.entered j doc b there))
    subst same
    exact Option.some.inj ((o.booked.first i doc a left here).symm.trans (o.booked.first j doc a right there))
  case shared =>
    intro i j doc a b here there
    exact Option.some.inj ((o.booked.entered i doc a here).symm.trans (o.booked.entered j doc b there))
  case sameKeys =>
    intro doc
    rw [keyed,Table.memKeys,usersAt o,Option.isSome_map]
  case removable =>
    intro i doc lock here
    have found := o.booked.entered i doc lock here
    have member := (memTasksAt o i doc).mpr ⟨lock,here⟩
    obtain ⟨others,size⟩ := Nat.exists_eq_add_one.mpr (List.length_pos_of_mem member)
    refine ⟨found,others,?_⟩
    rw [usersAt o,found,Option.map_some,size]
  case idle =>
    intro nobody doc
    have empty : s.tasksAt doc = [] := by
      apply List.eq_nil_iff_forall_not_mem.mpr
      intro id member
      obtain ⟨lock,there⟩ := (memTasksAt o id doc).mp member
      rw [nobody id] at there
      contradiction
    constructor
    · rw [present,empty]
      simp
    · intro key
      rw [Table.memKeys,usersAt o,Option.isSome_map] at key
      obtain ⟨lock,found⟩ := Option.isSome_iff_exists.mp key
      rw [usersAt o,found,empty]
      rfl

theorem locksKept (host : Host) (settings : Settings) (legend : Legend) (events : List Event) :
    LocksKept (run host { settings, legend } events).1 :=
  orderlyLocks (runOrderly (freshOrderly settings legend) host events)

-- A close has left while the reopening waits: the lock stays for it.
example (g : Query.Grammar) (engine : Query.Engine) (settings : Settings) (legend : Legend) :
    (run ⟨fun _ => .ok g,engine⟩ { settings, legend }
      [.start (.close "a"),.opened,.start (.tokens "a" ['x']),.pass 0,.pass 1,.acquire 1,.acquire 0,.work 0,
        .leave 0]).1.locks = { byDoc := [("a",0)], users := [("a",1)], queues := [(0,[1])], next := 1 } := by cbv

end Session
end Tinct
