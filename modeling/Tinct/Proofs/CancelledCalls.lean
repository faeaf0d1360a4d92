import Tinct.Proofs.CallsInTurn

/-! A run beside the same run without the calls that were cancelled in it: without their events, with the other tasks
numbered anew, and with the host holding the same documents. What is left of a cancelled call is nothing but
numbers, so the two agree in the store, the lines and the outcomes of everybody else. -/
namespace Tinct

def Stage.bare : Stage → Stage
  | .waiting doc _ => .waiting doc 0
  | .inside doc _ => .inside doc 0
  | .leaving doc _ outcome => .leaving doc 0 outcome
  | .atGate => .atGate
  | .finished outcome => .finished outcome

def Stage.waits : Stage → Bool
  | .atGate | .waiting _ _ => true
  | .inside _ _ | .leaving _ _ _ | .finished _ => false

def Task.bare (t : Task) : Task := ⟨t.call,t.stage.bare⟩

def Onward (t later : Task) : Prop :=
  (t.stage.waits = false → later.stage.waits = false) ∧ ∀ outcome, t.stage = .finished outcome → later = t

def Locks.docOf? (ls : Locks) (lock : LockId) : Option DocId :=
  (Table.keys ls.byDoc).find? fun doc => ls.lock? doc = some lock

theorem Locks.docOfLock {ls : Locks} {doc : DocId} {lock : LockId} (found : ls.docOf? lock = some doc) :
    ls.lock? doc = some lock := by
  simpa using List.find?_some found

theorem Booked.docOf {place : TaskId → Option (DocId × LockId)} {holds : TaskId → Prop} {ls : Locks}
    {kept : DocId → Bool} (b : Booked place holds ls kept) {doc : DocId} {lock : LockId}
    (found : ls.lock? doc = some lock) : ls.docOf? lock = some doc := by
  have key : doc ∈ Table.keys ls.byDoc := (Table.memKeys doc ls.byDoc).mpr (Option.isSome_of_mem found)
  cases there : ls.docOf? lock with
  | none => simpa [found] using List.find?_eq_none.mp there doc key
  | some other => rw [b.apart other doc lock (Locks.docOfLock there) found]

namespace Session
open Document (Effects)

def renumber (gone : List TaskId) : TaskId → TaskId
  | 0 => 0
  | n + 1 => if n ∈ gone then renumber gone n else renumber gone n + 1

section
variable {gone : List TaskId}

theorem renumberGone {n : TaskId} (out : n ∈ gone) : renumber gone (n + 1) = renumber gone n := by
  rw [renumber,if_pos out]

theorem renumberNext {n : TaskId} (stays : n ∉ gone) : renumber gone (n + 1) = renumber gone n + 1 := by
  rw [renumber,if_neg stays]

theorem renumberMono {i j : TaskId} (order : i ≤ j) : renumber gone i ≤ renumber gone j := by
  induction j with
  | zero =>
    cases Nat.le_zero.mp order
    exact Nat.le_refl _
  | succ j ih =>
    rcases Nat.lt_or_ge j i with past | within
    · cases Nat.le_antisymm order past
      exact Nat.le_refl _
    · refine Nat.le_trans (ih within) ?_
      rw [renumber]
      split
      · exact Nat.le_refl _
      · exact Nat.le_succ _

theorem renumberLt {i j : TaskId} (stays : i ∉ gone) (order : i < j) : renumber gone i < renumber gone j := by
  have next : renumber gone (i + 1) ≤ renumber gone j := renumberMono order
  rwa [renumberNext stays] at next

theorem renumberInj {i j : TaskId} (left : i ∉ gone) (right : j ∉ gone) (same : renumber gone i = renumber gone j) :
    i = j := by
  rcases Nat.lt_trichotomy i j with less | equal | more
  · exact absurd same (Nat.ne_of_lt (renumberLt left less))
  · exact equal
  · exact absurd same.symm (Nat.ne_of_lt (renumberLt right more))

theorem renumberOld {base id : TaskId} (late : ∀ j ∈ gone, base ≤ j) (old : id ≤ base) : renumber gone id = id := by
  induction id with
  | zero => rfl
  | succ n ih =>
    have stays : n ∉ gone := fun member => Nat.not_le_of_lt old (late n member)
    rw [renumberNext stays,ih (Nat.le_of_succ_le old)]

end

def spare (gone : List TaskId) (make : TaskId → Event) (id : TaskId) : Option Event :=
  if id ∈ gone then none else some (make (renumber gone id))

-- What is left of an event of `s` for a session `r` that has never heard of the tasks in `gone`.
def kept (gone : List TaskId) (s r : Session) (event : Event) : Option Event :=
  if s.possible event then
    match event with
    | .start call => if s.nextTask ∈ gone then none else some (.start call)
    | .opened => some .opened
    | .pass id => spare gone .pass id
    | .acquire id => spare gone .acquire id
    | .work id => spare gone .work id
    | .leave id => spare gone .leave id
    | .cancel id => spare gone .cancel id
    | .hold lock => ((s.locks.docOf? lock).bind r.locks.lock?).map .hold
    | .release lock => ((s.locks.docOf? lock).bind r.locks.lock?).map .release
  else none

def without (host : Host) (gone : List TaskId) : Session → Session → List Event → List Event
  | _,_,[] => []
  | s,r,e::rest =>
    (kept gone s r e).toList ++
      without host gone (s.step host e).1 (r.run host (kept gone s r e).toList).1 rest

structure Mirrored (gone : List TaskId) (s r : Session) : Prop where
  orderly : Orderly s
  other : Orderly r
  store : r.store = s.store
  phase : r.phase = s.phase
  settings : r.settings = s.settings
  legend : r.legend = s.legend
  next : r.nextTask = renumber gone s.nextTask
  tasks : ∀ id, id ∉ gone → (Table.get? (renumber gone id) r.tasks).map Task.bare = (Table.get? id s.tasks).map Task.bare
  line : ∀ doc, r.locks.line doc = ((s.locks.line doc).filter (· ∉ gone)).map (renumber gone)
  -- the host holds nothing more here than there
  held : ∀ doc lock own, s.locks.lock? doc = some lock → r.locks.lock? doc = some own →
    own ∈ r.locks.held → lock ∈ s.locks.held
  bound : ∀ own ∈ r.locks.held, own < r.locks.next

section
variable {host : Host} {gone : List TaskId} {s next r after : Session} {id : TaskId} {call : Call} {stage own : Stage}

theorem mirrorFound (m : Mirrored gone s r) (stays : id ∉ gone) (found : Table.get? id s.tasks = some ⟨call,stage⟩) :
    ∃ own, Table.get? (renumber gone id) r.tasks = some ⟨call,own⟩ ∧ own.bare = stage.bare := by
  have same := m.tasks id stays
  rw [found,Option.map_some] at same
  obtain ⟨⟨there,own⟩,at_,equal⟩ := Option.map_eq_some_iff.mp same
  simp only [Task.bare,Task.mk.injEq] at equal
  exact ⟨own,equal.1 ▸ at_,equal.2⟩

theorem mirrorAtGate (m : Mirrored gone s r) (stays : id ∉ gone)
    (found : Table.get? id s.tasks = some ⟨call,.atGate⟩) :
    Table.get? (renumber gone id) r.tasks = some ⟨call,.atGate⟩ := by
  obtain ⟨own,there,alike⟩ := mirrorFound m stays found
  cases own with
  | atGate => exact there
  | _ => contradiction

theorem mirrorWaiting (m : Mirrored gone s r) (stays : id ∉ gone) {doc : DocId} {lock : LockId}
    (found : Table.get? id s.tasks = some ⟨call,.waiting doc lock⟩) :
    ∃ own, Table.get? (renumber gone id) r.tasks = some ⟨call,.waiting doc own⟩ := by
  obtain ⟨own,there,alike⟩ := mirrorFound m stays found
  cases own with
  | waiting doc own =>
    cases alike
    exact ⟨own,there⟩
  | _ => contradiction

theorem mirrorInside (m : Mirrored gone s r) (stays : id ∉ gone) {doc : DocId} {lock : LockId}
    (found : Table.get? id s.tasks = some ⟨call,.inside doc lock⟩) :
    ∃ own, Table.get? (renumber gone id) r.tasks = some ⟨call,.inside doc own⟩ := by
  obtain ⟨own,there,alike⟩ := mirrorFound m stays found
  cases own with
  | inside doc own =>
    cases alike
    exact ⟨own,there⟩
  | _ => contradiction

theorem mirrorLeaving (m : Mirrored gone s r) (stays : id ∉ gone) {doc : DocId} {lock : LockId} {outcome : Outcome}
    (found : Table.get? id s.tasks = some ⟨call,.leaving doc lock outcome⟩) :
    ∃ own, Table.get? (renumber gone id) r.tasks = some ⟨call,.leaving doc own outcome⟩ := by
  obtain ⟨own,there,alike⟩ := mirrorFound m stays found
  cases own with
  | leaving doc own outcome =>
    cases alike
    exact ⟨own,there⟩
  | _ => contradiction

theorem mirrorTasks (m : Mirrored gone s r) (stays : id ∉ gone) (tasks : next.tasks = Table.put id ⟨call,stage⟩ s.tasks)
    (same : after.tasks = Table.put (renumber gone id) ⟨call,own⟩ r.tasks) (alike : own.bare = stage.bare) (j : TaskId)
    (other : j ∉ gone) :
    (Table.get? (renumber gone j) after.tasks).map Task.bare = (Table.get? j next.tasks).map Task.bare := by
  rw [tasks,same,Table.lookupPut,Table.lookupPut]
  by_cases equal : id = j
  · subst equal
    simp only [if_true,Option.map_some,Task.bare,alike]
  · have apart : renumber gone id ≠ renumber gone j := fun clash => equal (renumberInj stays other clash)
    rw [if_neg equal,if_neg apart,m.tasks j other]

theorem mirrorGone (m : Mirrored gone s r) (out : id ∈ gone) {t : Task} (tasks : next.tasks = Table.put id t s.tasks)
    (j : TaskId) (stays : j ∉ gone) :
    (Table.get? (renumber gone j) r.tasks).map Task.bare = (Table.get? j next.tasks).map Task.bare := by
  have different : id ≠ j := fun same => stays (same ▸ out)
  rw [tasks,Table.lookupPut,if_neg different,m.tasks j stays]

theorem mirrorLock (m : Mirrored gone s r) {doc : DocId} (absent : s.locks.lock? doc = none) :
    r.locks.lock? doc = none := by
  cases found : r.locks.lock? doc with
  | none => rfl
  | some own =>
    rcases (m.other.booked.locked doc).mp (Option.isSome_of_mem found) with busy | stored
    · rw [m.line doc,Locks.lineAbsent absent] at busy
      exact absurd rfl busy
    · rw [m.store,m.orderly.booked.missing doc absent] at stored
      contradiction

theorem onwardSame (t : Task) : Onward t t := ⟨fun past => past,fun _ _ => rfl⟩

theorem onwardPut {old : Stage} (found : Table.get? id s.tasks = some ⟨call,old⟩)
    (tasks : next.tasks = Table.put id ⟨call,stage⟩ s.tasks) (moving : ∀ outcome, old ≠ .finished outcome)
    (past : old.waits = false → stage.waits = false) {j : TaskId} {t : Task} (there : Table.get? j s.tasks = some t) :
    ∃ later, Table.get? j next.tasks = some later ∧ Onward t later := by
  rw [tasks,Table.lookupPut]
  split
  · rename_i same
    rw [← same,found] at there
    cases Option.some.inj there
    exact ⟨_,rfl,past,fun outcome finished => absurd finished (moving outcome)⟩
  · exact ⟨t,there,onwardSame t⟩

theorem takenOnward (o : Orderly s) {event : Event} {effects : Effects} (taken : Taken host s event next effects)
    {j : TaskId} {t : Task} (there : Table.get? j s.tasks = some t) :
    ∃ later, Table.get? j next.tasks = some later ∧ Onward t later := by
  cases taken with
  | start call => exact ⟨t,startKept o call there,onwardSame t⟩
  | loaded g starting load => exact ⟨t,there,onwardSame t⟩
  | broken cause starting load => exact ⟨t,there,onwardSame t⟩
  | prepared id call g found ready free => exact onwardPut found rfl (fun _ => Stage.noConfusion) (fun _ => rfl) there
  | refused id call cause found failed => exact onwardPut found rfl (fun _ => Stage.noConfusion) (fun _ => rfl) there
  | enter id call g doc found ready wants =>
    exact onwardPut found rfl (fun _ => Stage.noConfusion) (fun past => Bool.noConfusion past) there
  | acquire id call doc lock found may => exact onwardPut found rfl (fun _ => Stage.noConfusion) (fun _ => rfl) there
  | work id call g doc lock found ready => exact onwardPut found rfl (fun _ => Stage.noConfusion) (fun _ => rfl) there
  | leave id call doc lock outcome found => exact onwardPut found rfl (fun _ => Stage.noConfusion) (fun _ => rfl) there
  | dropped id call found => exact onwardPut found rfl (fun _ => Stage.noConfusion) (fun _ => rfl) there
  | abandon id call doc lock found => exact onwardPut found rfl (fun _ => Stage.noConfusion) (fun _ => rfl) there
  | hold lock => exact ⟨t,there,onwardSame t⟩
  | release lock => exact ⟨t,there,onwardSame t⟩

theorem stepOnward (host : Host) (o : Orderly s) (event : Event) {j : TaskId} {t : Task}
    (there : Table.get? j s.tasks = some t) :
    ∃ later, Table.get? j (s.step host event).1.tasks = some later ∧ Onward t later := by
  cases can : s.possible event with
  | true => exact takenOnward o (stepTaken host can) there
  | false =>
    rw [stepIdle host can]
    exact ⟨t,there,onwardSame t⟩

theorem turnGone (host : Host) {event : Event} {entry : TaskId × Call} (marked : s.turn event = some (.gone,entry)) :
    ∃ stage, Table.get? entry.1 s.tasks = some ⟨entry.2,stage⟩ ∧ stage.waits = true ∧
      Table.get? entry.1 (s.step host event).1.tasks = some ⟨entry.2,.finished (.error .cancelled)⟩ := by
  cases event with
  | cancel id =>
    simp only [turn] at marked
    split at marked
    · rename_i call found
      cases Option.some.inj marked
      refine ⟨.atGate,found,rfl,?_⟩
      rw [takenStep (.dropped id call found)]
      exact Table.getPut ..
    · rename_i call doc lock found
      cases Option.some.inj marked
      refine ⟨.waiting doc lock,found,rfl,?_⟩
      rw [takenStep (.abandon id call doc lock found)]
      exact Table.getPut ..
    · contradiction
  | pass id =>
    simp only [turn] at marked
    split at marked
    · split at marked <;> simp at marked
    · contradiction
  | work id =>
    simp only [turn] at marked
    split at marked
    · simp at marked
    · contradiction
  | _ => contradiction

-- Whom the future has cancelled: everybody in `gone`, and nobody else.
structure Fate (host : Host) (gone : List TaskId) (s : Session) (events : List Event) : Prop where
  only : ∀ entry ∈ those .gone (turns host s events), entry.1 ∈ gone
  each : ∀ id ∈ gone, id ∈ (those .gone (turns host s events)).map Prod.fst ∨
    ∃ call, Table.get? id s.tasks = some ⟨call,.finished (.error .cancelled)⟩

theorem goneHead {event : Event} {rest : List Event} {entry : TaskId × Call}
    (member : entry ∈ those .gone (turns host s (event::rest))) :
    s.turn event = some (.gone,entry) ∨ entry ∈ those .gone (turns host (s.step host event).1 rest) := by
  rw [turns,thoseAppend,List.mem_append] at member
  rcases member with now | later
  · left
    obtain ⟨⟨kind,there⟩,listed,same⟩ := List.mem_filterMap.mp now
    split at same
    · rename_i gone
      cases Option.some.inj same
      have marked := Option.mem_toList.mp listed
      exact gone ▸ marked
    · contradiction
  · exact .inr later

theorem goneWaits (o : Orderly s) {events : List Event} {t : Task}
    (member : id ∈ (those .gone (turns host s events)).map Prod.fst) (found : Table.get? id s.tasks = some t) :
    t.stage.waits = true := by
  induction events generalizing s t with
  | nil => contradiction
  | cons e rest ih =>
    obtain ⟨entry,listed,rfl⟩ := List.mem_map.mp member
    rcases goneHead listed with now | later
    · obtain ⟨stage,there,waits,_⟩ := turnGone host now
      cases Option.some.inj (found.symm.trans there)
      exact waits
    · obtain ⟨there,at_,onward,_⟩ := stepOnward host o e found
      have waits := ih (stepOrderly o host e) (List.mem_map_of_mem later) at_
      by_contra past
      rw [onward (Bool.eq_false_iff.mpr past)] at waits
      contradiction

theorem fateNext {event : Event} {rest : List Event} (o : Orderly s) (f : Fate host gone s (event::rest)) :
    Fate host gone (s.step host event).1 rest where
  only := by
    intro entry member
    apply f.only entry
    rw [turns,thoseAppend]
    exact List.mem_append_right _ member
  each := by
    intro id out
    rcases f.each id out with member | ⟨call,finished⟩
    · obtain ⟨entry,listed,rfl⟩ := List.mem_map.mp member
      rcases goneHead listed with now | later
      · obtain ⟨_,_,_,finished⟩ := turnGone host now
        exact .inr ⟨entry.2,finished⟩
      · exact .inl (List.mem_map_of_mem later)
    · obtain ⟨later,there,_,same⟩ := stepOnward host o event finished
      rw [same _ rfl] at there
      exact .inr ⟨call,there⟩

theorem fateLost {events : List Event} (o : Orderly s) (f : Fate host gone s events) (out : id ∈ gone) {t : Task}
    (found : Table.get? id s.tasks = some t) : t.stage.waits = true ∨ t.stage = .finished (.error .cancelled) := by
  rcases f.each id out with member | ⟨call,finished⟩
  · exact .inl (goneWaits o member found)
  · cases Option.some.inj (found.symm.trans finished)
    exact .inr rfl

theorem renumberFilter (stays : id ∉ gone) (line : List TaskId) :
    ((line.filter (· ∉ gone)).map (renumber gone)).filter (· ≠ renumber gone id) =
      ((line.filter (· ≠ id)).filter (· ∉ gone)).map (renumber gone) := by
  rw [List.filter_map,List.filter_filter,List.filter_filter]
  congr 1
  apply List.filter_congr
  intro j _
  by_cases out : j ∈ gone
  · simp [out]
  · have same : renumber gone j = renumber gone id ↔ j = id :=
      ⟨fun clash => renumberInj out stays clash,fun equal => congrArg (renumber gone) equal⟩
    simp [out,same]

theorem mirrorStarted (m : Mirrored gone s r) (stays : s.nextTask ∉ gone) (call : Call)
    (orderly : Orderly (s.start call)) (other : Orderly (r.start call)) :
    Mirrored gone (s.start call) (r.start call) where
  orderly := orderly
  other := other
  store := m.store
  phase := by simp only [start,m.phase]
  settings := m.settings
  legend := m.legend
  next := by
    simp only [start,m.next]
    rw [renumberNext stays]
  tasks := mirrorTasks m stays rfl (by rw [← m.next]; rfl) rfl
  line := m.line
  held := m.held
  bound := m.bound

theorem mirrorEnterLock (m : Mirrored gone s r) {doc x : DocId} {a b : LockId}
    (left : (s.locks.enter doc id).1.lock? x = some a) (right : r.locks.lock? x = some b) :
    s.locks.lock? x = some a := by
  rw [Locks.enterLock] at left
  split at left
  · rename_i same
    subst same
    cases Option.some.inj left
    rcases s.locks.enterNew doc id with ⟨found,_⟩ | ⟨absent,_⟩
    · exact found
    · rw [mirrorLock m absent] at right
      contradiction
  · exact left

theorem mirrorEntered (m : Mirrored gone s r) (stays : id ∉ gone) {doc : DocId} {lock there : LockId}
    (orderly : Orderly next) (other : Orderly after)
    (frame : next = { s with
      locks := (s.locks.enter doc id).1, tasks := Table.put id ⟨call,.waiting doc lock⟩ s.tasks })
    (same : after = { r with
      locks := (r.locks.enter doc (renumber gone id)).1
      tasks := Table.put (renumber gone id) ⟨call,.waiting doc there⟩ r.tasks }) :
    Mirrored gone next after := by
  subst frame same
  refine { m with
    orderly, other
    tasks := mirrorTasks m stays rfl rfl rfl
    line := ?_, held := ?_, bound := ?_ }
  · intro x
    dsimp only
    rw [m.orderly.booked.lineEnter,m.other.booked.lineEnter,m.line x]
    split
    · rw [List.filter_append,List.map_append]
      simp [stays]
    · rfl
  · intro x a b left right locked
    dsimp only at left right locked ⊢
    rw [Locks.enterHeld] at locked ⊢
    have before : r.locks.lock? x = some b := by
      rw [Locks.enterLock] at right
      split at right
      · rename_i own
        subst own
        cases Option.some.inj right
        rcases r.locks.enterNew doc (renumber gone id) with ⟨found,_⟩ | ⟨_,fresh,_⟩
        · exact found
        · exact absurd (fresh ▸ m.bound _ locked) (Nat.lt_irrefl _)
      · exact right
    exact m.held x a b (mirrorEnterLock m left before) before locked
  · intro own locked
    dsimp only at locked ⊢
    rw [Locks.enterHeld] at locked
    exact Nat.lt_of_lt_of_le (m.bound own locked) (m.other.booked.enterOwn doc (renumber gone id)).2.2.2.2.2

theorem mirrorJoinedGone (m : Mirrored gone s r) (out : id ∈ gone) {doc : DocId} {t : Task} (orderly : Orderly next)
    (frame : next = { s with locks := (s.locks.enter doc id).1, tasks := Table.put id t s.tasks }) :
    Mirrored gone next r := by
  subst frame
  refine { m with orderly, tasks := mirrorGone m out rfl, line := ?_, held := ?_ }
  · intro x
    dsimp only
    rw [m.orderly.booked.lineEnter,m.line x]
    split
    · simp [out]
    · rfl
  · intro x a b left right locked
    dsimp only at left ⊢
    rw [Locks.enterHeld]
    exact m.held x a b (mirrorEnterLock m left right) right locked

theorem leftLock {ls : Locks} {doc x : DocId} {lock a : LockId} {stored : Bool}
    (there : (ls.leave doc lock id stored).lock? x = some a) : ls.lock? x = some a := by
  rw [Locks.leaveLock] at there
  split at there
  · contradiction
  · exact there

theorem mirrorLeft (m : Mirrored gone s r) (stays : id ∉ gone) {doc : DocId} {lock there : LockId} {outcome : Outcome}
    (orderly : Orderly next) (other : Orderly after) (at_ : s.place? id = some (doc,lock))
    (place : r.place? (renumber gone id) = some (doc,there))
    (frame : next = { s with
      locks := s.locks.leave doc lock id (s.store.contains doc)
      tasks := Table.put id ⟨call,.finished outcome⟩ s.tasks })
    (same : after = { r with
      locks := r.locks.leave doc there (renumber gone id) (r.store.contains doc)
      tasks := Table.put (renumber gone id) ⟨call,.finished outcome⟩ r.tasks }) :
    Mirrored gone next after := by
  subst frame same
  refine { m with
    orderly, other
    tasks := mirrorTasks m stays rfl rfl rfl
    line := ?_, held := ?_, bound := ?_ }
  · intro x
    dsimp only
    rw [m.orderly.booked.lineLeave at_,m.other.booked.lineLeave place,m.line x]
    split
    · exact renumberFilter stays _
    · rfl
  · intro x a b left right locked
    dsimp only at left right locked ⊢
    rw [Locks.leaveHeld] at locked ⊢
    exact m.held x a b (leftLock left) (leftLock right) locked
  · intro own locked
    dsimp only at locked ⊢
    rw [Locks.leaveHeld] at locked
    rw [Locks.leaveNext]
    exact m.bound own locked

theorem mirrorAbandoned (m : Mirrored gone s r) (out : id ∈ gone) {doc : DocId} {lock : LockId} {t : Task}
    (orderly : Orderly next) (at_ : s.place? id = some (doc,lock))
    (frame : next = { s with
      locks := s.locks.leave doc lock id (s.store.contains doc), tasks := Table.put id t s.tasks }) :
    Mirrored gone next r := by
  subst frame
  refine { m with orderly, tasks := mirrorGone m out rfl, line := ?_, held := ?_ }
  · intro x
    dsimp only
    rw [m.orderly.booked.lineLeave at_,m.line x]
    split
    · rw [List.filter_filter]
      congr 1
      apply List.filter_congr
      intro j _
      by_cases same : j = id
      · simp [same,out]
      · simp [same]
    · rfl
  · intro x a b left right locked
    dsimp only at left ⊢
    rw [Locks.leaveHeld]
    exact m.held x a b (leftLock left) right locked

theorem mirrorHold (m : Mirrored gone s r) {lock own : LockId}
    (there : (s.locks.docOf? lock).bind r.locks.lock? = some own)
    (orderly : Orderly { s with locks := s.locks.hold lock }) (other : Orderly { r with locks := r.locks.hold own }) :
    Mirrored gone { s with locks := s.locks.hold lock } { r with locks := r.locks.hold own } := by
  obtain ⟨doc,found,right⟩ := Option.bind_eq_some_iff.mp there
  have left := Locks.docOfLock found
  refine { m with orderly, other, held := ?_, bound := ?_ }
  · intro x a b here near locked
    rcases List.mem_cons.mp locked with same | before
    · subst same
      cases m.other.booked.apart x doc b near right
      cases Option.some.inj (here.symm.trans left)
      exact List.mem_cons_self
    · exact List.mem_cons_of_mem _ (m.held x a b here near before)
  · intro x locked
    rcases List.mem_cons.mp locked with same | before
    · exact same ▸ m.other.booked.numbered doc own right
    · exact m.bound x before

theorem mirrorRelease (m : Mirrored gone s r) {lock own : LockId}
    (there : (s.locks.docOf? lock).bind r.locks.lock? = some own)
    (orderly : Orderly { s with locks := s.locks.release lock })
    (other : Orderly { r with locks := r.locks.release own }) :
    Mirrored gone { s with locks := s.locks.release lock } { r with locks := r.locks.release own } := by
  refine { m with orderly, other, held := ?_, bound := ?_ }
  · intro x a b here near locked
    obtain ⟨before,different⟩ := List.mem_filter.mp locked
    refine List.mem_filter.mpr ⟨m.held x a b here near before,?_⟩
    apply decide_eq_true
    intro same
    have found : s.locks.docOf? lock = some x := same ▸ m.orderly.booked.docOf here
    rw [found,Option.bind_some] at there
    cases Option.some.inj (near.symm.trans there)
    simp at different
  · intro x locked
    exact m.bound x (List.mem_filter.mp locked).1

theorem mirrorReleaseNone (m : Mirrored gone s r) {lock : LockId}
    (nowhere : (s.locks.docOf? lock).bind r.locks.lock? = none)
    (orderly : Orderly { s with locks := s.locks.release lock }) :
    Mirrored gone { s with locks := s.locks.release lock } r := by
  refine { m with orderly, held := ?_ }
  intro x a b here near locked
  refine List.mem_filter.mpr ⟨m.held x a b here near locked,?_⟩
  apply decide_eq_true
  intro same
  have found : s.locks.docOf? lock = some x := same ▸ m.orderly.booked.docOf here
  rw [found,Option.bind_some] at nowhere
  rw [near] at nowhere
  contradiction

theorem runOne (host : Host) (r : Session) (event : Event) : r.run host [event] = r.step host event := by
  simp only [run,Document.effectsLast]

theorem mirrorSkip {event : Event} (skipped : kept gone s r event = none) (m : Mirrored gone next r) :
    Mirrored gone next (r.run host (kept gone s r event).toList).1 ∧
      (r.run host (kept gone s r event).toList).2 = {} := by
  rw [skipped]
  exact ⟨m,rfl⟩

theorem mirrorBoth {event mine : Event} {effects : Effects} (same : kept gone s r event = some mine)
    (taken : Taken host r mine after effects) (m : Mirrored gone next after) :
    Mirrored gone next (r.run host (kept gone s r event).toList).1 ∧
      (r.run host (kept gone s r event).toList).2 = effects := by
  rw [same,Option.toList_some,runOne,takenStep taken]
  exact ⟨m,rfl⟩

theorem mirrorStartedGone (m : Mirrored gone s r) (out : s.nextTask ∈ gone) {g : Query.Grammar}
    (ready : s.phase = .ready g) (call : Call) (orderly : Orderly (s.start call)) :
    Mirrored gone (s.start call) r where
  orderly := orderly
  other := m.other
  store := m.store
  phase := by
    simp only [start,ready]
    exact m.phase.trans ready
  settings := m.settings
  legend := m.legend
  next := by
    simp only [start]
    rw [renumberGone out,m.next]
  tasks := mirrorGone m out rfl
  line := m.line
  held := m.held
  bound := m.bound

theorem mirrorMayHold (m : Mirrored gone s r) (stays : id ∉ gone) {doc : DocId} {lock own : LockId}
    (at_ : s.place? id = some (doc,lock)) (place : r.place? (renumber gone id) = some (doc,own))
    (may : s.locks.mayHold lock id = true) : r.locks.mayHold own (renumber gone id) = true := by
  obtain ⟨first,free⟩ := (m.orderly.booked.lineMayHold at_).mp may
  refine (m.other.booked.lineMayHold place).mpr ⟨?_,?_⟩
  · obtain ⟨rest,line⟩ := List.head?_eq_some_iff.mp first
    rw [m.line doc,line,List.filter_cons_of_pos (by simpa using stays)]
    rfl
  · intro locked
    exact free (m.held doc lock own (m.orderly.booked.entered id doc lock at_)
      (m.other.booked.entered _ doc own place) locked)

theorem spared {make : TaskId → Event} (stays : id ∉ gone) : spare gone make id = some (make (renumber gone id)) :=
  if_neg stays

theorem dropped {make : TaskId → Event} (out : id ∈ gone) : spare gone make id = none := if_pos out

theorem mirrorTaken {g : Query.Grammar} (m : Mirrored gone s r) (ready : s.phase = .ready g) {event : Event}
    {rest : List Event} (can : s.possible event = true) (f : Fate host gone s (event::rest)) :
    Mirrored gone (s.step host event).1 (r.run host (kept gone s r event).toList).1 ∧
      (r.run host (kept gone s r event).toList).2 = (s.step host event).2 := by
  have orderly : Orderly (s.step host event).1 := stepOrderly m.orderly host event
  have before : ∀ id ∈ gone, ∀ t, Table.get? id s.tasks = some t →
      t.stage.waits = true ∨ t.stage = .finished (.error .cancelled) := fun id out t found => fateLost m.orderly f out found
  have later : ∀ id ∈ gone, ∀ t, Table.get? id (s.step host event).1.tasks = some t →
      t.stage.waits = true ∨ t.stage = .finished (.error .cancelled) :=
    fun id out t found => fateLost orderly (fateNext m.orderly f) out found
  have out : ∀ entry, s.turn event = some (.gone,entry) → entry.1 ∈ gone := by
    intro entry marked
    apply f.only entry
    rw [turns,marked,thoseAppend]
    simp [those]
  have taken := stepTaken host can
  generalize s.step host event = result at taken orderly later ⊢
  obtain ⟨next,effects⟩ := result
  dsimp only at taken orderly later ⊢
  have ready' : r.phase = .ready g := m.phase.trans ready
  cases taken with
  | start call =>
    by_cases left : s.nextTask ∈ gone
    · have skipped : kept gone s r (.start call) = none := by simp only [kept,can,if_true,left]
      exact mirrorSkip skipped (mirrorStartedGone m left ready call orderly)
    · have same : kept gone s r (.start call) = some (.start call) := by simp only [kept,can,if_true,left,if_false]
      have taken : Taken host r (.start call) (r.start call) {} := .start call
      exact mirrorBoth same taken (mirrorStarted m left call orderly (takenOrderly m.other taken))
  | loaded g' starting load =>
    rw [ready] at starting
    contradiction
  | broken cause starting load =>
    rw [ready] at starting
    contradiction
  | prepared id call g' found _ free =>
    have stays : id ∉ gone := fun lost => by simpa [Stage.waits] using later id lost _ (Table.getPut ..)
    have same : kept gone s r (.pass id) = some (.pass (renumber gone id)) := by simp only [kept,can,if_true,spared stays]
    have taken : Taken host r (.pass (renumber gone id)) _ _ := .prepared _ call g (mirrorAtGate m stays found) ready' free
    refine mirrorBoth same taken ?_
    exact { m with
      orderly, other := takenOrderly m.other taken, tasks := mirrorTasks m stays rfl rfl rfl }
  | refused id call cause found failed =>
    rw [ready] at failed
    contradiction
  | enter id call g' doc found _ wants =>
    by_cases left : id ∈ gone
    · have skipped : kept gone s r (.pass id) = none := by simp only [kept,can,if_true,dropped left]
      exact mirrorSkip skipped (mirrorJoinedGone m left orderly rfl)
    · have same : kept gone s r (.pass id) = some (.pass (renumber gone id)) := by simp only [kept,can,if_true,spared left]
      have taken : Taken host r (.pass (renumber gone id)) _ _ := .enter _ call g doc (mirrorAtGate m left found) ready' wants
      exact mirrorBoth same taken (mirrorEntered m left orderly (takenOrderly m.other taken) rfl rfl)
  | acquire id call doc lock found may =>
    have stays : id ∉ gone := fun lost => by simpa [Stage.waits] using later id lost _ (Table.getPut ..)
    have same : kept gone s r (.acquire id) = some (.acquire (renumber gone id)) := by
      simp only [kept,can,if_true,spared stays]
    obtain ⟨own,there⟩ := mirrorWaiting m stays found
    have taken : Taken host r (.acquire (renumber gone id)) _ _ := .acquire _ call doc own there
      (mirrorMayHold m stays (placeFound found) (placeFound there) may)
    refine mirrorBoth same taken ?_
    exact { m with
      orderly, other := takenOrderly m.other taken, tasks := mirrorTasks m stays rfl rfl rfl }
  | work id call g' doc lock found open_ =>
    cases Phase.ready.inj (ready.symm.trans open_)
    have stays : id ∉ gone := fun lost => by simpa [Stage.waits] using before id lost _ found
    have same : kept gone s r (.work id) = some (.work (renumber gone id)) := by simp only [kept,can,if_true,spared stays]
    obtain ⟨own,there⟩ := mirrorInside m stays found
    obtain ⟨stored,answered⟩ := serveSame m.store m.settings m.legend host g call
    have taken : Taken host r (.work (renumber gone id)) _ _ := .work _ call g doc own there ready'
    rw [stored,answered] at taken
    refine mirrorBoth same taken ?_
    exact { m with
      orderly, other := takenOrderly m.other taken, store := rfl
      tasks := mirrorTasks m stays rfl rfl rfl }
  | leave id call doc lock outcome found =>
    have stays : id ∉ gone := fun lost => by simpa [Stage.waits] using before id lost _ found
    have same : kept gone s r (.leave id) = some (.leave (renumber gone id)) := by
      simp only [kept,can,if_true,spared stays]
    obtain ⟨own,there⟩ := mirrorLeaving m stays found
    have taken : Taken host r (.leave (renumber gone id)) _ _ := .leave _ call doc own outcome there
    refine mirrorBoth same taken ?_
    exact mirrorLeft m stays orderly (takenOrderly m.other taken) (placeFound found) (placeFound there) rfl rfl
  | dropped id call found =>
    have left := out (id,call) (by simp [turn,found])
    have skipped : kept gone s r (.cancel id) = none := by simp only [kept,can,if_true,dropped left]
    exact mirrorSkip skipped { m with orderly, tasks := mirrorGone m left rfl }
  | abandon id call doc lock found =>
    have left := out (id,call) (by simp [turn,found])
    have skipped : kept gone s r (.cancel id) = none := by simp only [kept,can,if_true,dropped left]
    exact mirrorSkip skipped (mirrorAbandoned m left orderly (placeFound found) rfl)
  | hold lock =>
    cases there : (s.locks.docOf? lock).bind r.locks.lock? with
    | none =>
      have skipped : kept gone s r (.hold lock) = none := by simp only [kept,can,if_true,there,Option.map_none]
      refine mirrorSkip skipped { m with orderly, held := ?_ }
      intro x a b here near locked
      exact List.mem_cons_of_mem _ (m.held x a b here near locked)
    | some own =>
      have same : kept gone s r (.hold lock) = some (.hold own) := by simp only [kept,can,if_true,there,Option.map_some]
      have taken : Taken host r (.hold own) _ _ := .hold own
      exact mirrorBoth same taken (mirrorHold m there orderly (takenOrderly m.other taken))
  | release lock =>
    cases there : (s.locks.docOf? lock).bind r.locks.lock? with
    | none =>
      have skipped : kept gone s r (.release lock) = none := by simp only [kept,can,if_true,there,Option.map_none]
      exact mirrorSkip skipped (mirrorReleaseNone m there orderly)
    | some own =>
      have same : kept gone s r (.release lock) = some (.release own) := by
        simp only [kept,can,if_true,there,Option.map_some]
      have taken : Taken host r (.release own) _ _ := .release own
      exact mirrorBoth same taken (mirrorRelease m there orderly (takenOrderly m.other taken))

theorem keptIdle {event : Event} (cannot : s.possible event = false) : kept gone s r event = none := by
  simp only [kept,cannot,Bool.false_eq_true,if_false]

theorem mirrorStep {g : Query.Grammar} (m : Mirrored gone s r) (ready : s.phase = .ready g) {event : Event}
    {rest : List Event} (f : Fate host gone s (event::rest)) :
    Mirrored gone (s.step host event).1 (r.run host (kept gone s r event).toList).1 ∧
      (r.run host (kept gone s r event).toList).2 = (s.step host event).2 := by
  cases can : s.possible event with
  | true => exact mirrorTaken m ready can f
  | false =>
    rw [stepIdle host can]
    exact mirrorSkip (keptIdle can) m

theorem readyStep (host : Host) {g : Query.Grammar} (ready : s.phase = .ready g) (event : Event) :
    (s.step host event).1.phase = .ready g := by
  cases can : s.possible event with
  | false =>
    rw [stepIdle host can]
    exact ready
  | true =>
    have taken := stepTaken host can
    generalize s.step host event = result at taken ⊢
    obtain ⟨next,effects⟩ := result
    dsimp only at taken ⊢
    cases taken with
    | start call => simp only [start,ready]
    | loaded g' starting load =>
      rw [ready] at starting
      contradiction
    | broken cause starting load =>
      rw [ready] at starting
      contradiction
    | _ => exact ready

theorem runAppend (host : Host) (s : Session) (events more : List Event) :
    s.run host (events ++ more) =
      (((s.run host events).1.run host more).1,(s.run host events).2 ++ ((s.run host events).1.run host more).2) := by
  induction events generalizing s with
  | nil => rfl
  | cons e rest ih =>
    simp only [run,List.cons_append,ih,Document.effectsAssoc]

theorem mirrorRun {g : Query.Grammar} (m : Mirrored gone s r) (ready : s.phase = .ready g) (events : List Event)
    (f : Fate host gone s events) :
    Mirrored gone (s.run host events).1 (r.run host (without host gone s r events)).1 ∧
      (r.run host (without host gone s r events)).2 = (s.run host events).2 := by
  induction events generalizing s r with
  | nil => exact ⟨m,rfl⟩
  | cons e rest ih =>
    obtain ⟨stepped,first⟩ := mirrorStep m ready f
    obtain ⟨last,others⟩ := ih stepped (readyStep host ready e) (fateNext m.orderly f)
    rw [without,runAppend,first,others]
    exact ⟨last,rfl⟩

end

def cancelledIn (host : Host) (s : Session) (events : List Event) : List TaskId :=
  (those .gone (turns host s events)).map Prod.fst

structure Alike (s r : Session) : Prop where
  store : r.store = s.store
  locks : ∀ doc, (r.locks.lock? doc).isSome = (s.locks.lock? doc).isSome
  users : ∀ doc, Table.get? doc r.locks.users = Table.get? doc s.locks.users

structure Removed (gone : List TaskId) (s r : Session) : Prop extends Alike s r where
  calls : r.nextTask = renumber gone s.nextTask ∧
    ∀ id, id ∉ gone → (Table.get? (renumber gone id) r.tasks).map Task.call = (Table.get? id s.tasks).map Task.call
  outcomes : ∀ id, id ∉ gone → r.outcome? (renumber gone id) = s.outcome? id

section
variable {host : Host} {gone : List TaskId} {s r : Session}

theorem bareOutcome (s : Session) (id : TaskId) :
    s.outcome? id = ((Table.get? id s.tasks).map Task.bare).bind fun t =>
      match t.stage with | .finished outcome => some outcome | _ => none := by
  simp only [outcome?,stage?]
  cases Table.get? id s.tasks with
  | none => rfl
  | some t =>
    obtain ⟨call,stage⟩ := t
    cases stage <;> rfl

theorem mirrorRemoved (m : Mirrored gone s r)
    (ended : ∀ id ∈ gone, ∃ call outcome, Table.get? id s.tasks = some ⟨call,.finished outcome⟩) : Removed gone s r := by
  have line : ∀ doc, r.locks.line doc = (s.locks.line doc).map (renumber gone) := by
    intro doc
    rw [m.line doc,List.filter_eq_self.mpr]
    intro id member
    apply decide_eq_true
    intro out
    obtain ⟨call,outcome,finished⟩ := ended id out
    obtain ⟨lock,there⟩ := (m.orderly.booked.memLine id doc).mp member
    rw [placeFound finished] at there
    contradiction
  have locks : ∀ doc, (r.locks.lock? doc).isSome = (s.locks.lock? doc).isSome := by
    intro doc
    apply Bool.eq_iff_iff.mpr
    rw [m.other.booked.locked,m.orderly.booked.locked,line,m.store]
    simp
  have users : ∀ doc, Table.get? doc r.locks.users = Table.get? doc s.locks.users := by
    intro doc
    rw [m.other.booked.lineUsers,m.orderly.booked.lineUsers,locks,line,List.length_map]
  constructor
  case toAlike => exact ⟨m.store,locks,users⟩
  case calls =>
    refine ⟨m.next,?_⟩
    intro id stays
    have same := congrArg (Option.map Task.call) (m.tasks id stays)
    rw [Option.map_map,Option.map_map] at same
    exact same
  case outcomes =>
    intro id stays
    rw [bareOutcome,bareOutcome,m.tasks id stays]

theorem restMirrored (o : Orderly s) (rests : AtRest s) (late : ∀ id ∈ gone, s.nextTask ≤ id) : Mirrored gone s s where
  orderly := o
  other := o
  store := rfl
  phase := rfl
  settings := rfl
  legend := rfl
  next := (renumberOld late (Nat.le_refl _)).symm
  tasks := by
    intro id stays
    rcases Nat.lt_or_ge id s.nextTask with old | new
    · rw [renumberOld late (Nat.le_of_lt old)]
    · have bound : renumber gone s.nextTask ≤ renumber gone id := renumberMono new
      rw [renumberOld late (Nat.le_refl _)] at bound
      rw [taskAbsent o new,taskAbsent o bound]
  line := by
    intro doc
    rw [freeLine o (restPlaces rests) doc]
    rfl
  held := by
    intro doc lock own left right locked
    cases Option.some.inj (left.symm.trans right)
    exact locked
  bound := by
    intro own locked
    rw [rests.free] at locked
    contradiction

theorem cancelTurn {id : TaskId} (can : s.possible (.cancel id) = true) :
    ∃ call, s.turn (.cancel id) = some (.gone,id,call) := by
  simp only [possible] at can
  split at can
  · rename_i at_
    obtain ⟨call,found⟩ := taskAt at_
    exact ⟨call,by simp only [turn,found]⟩
  · rename_i at_
    obtain ⟨call,found⟩ := taskAt at_
    exact ⟨call,by simp only [turn,found]⟩
  · contradiction

theorem keptCancels {event : Event} (listed : ∀ entry, s.turn event = some (.gone,entry) → entry.1 ∈ gone)
    (id : TaskId) : .cancel id ∉ (kept gone s r event).toList := by
  unfold kept
  split
  · rename_i can
    cases event with
    | cancel other =>
      obtain ⟨call,marked⟩ := cancelTurn can
      simp only [dropped (listed _ marked),Option.toList_none,List.not_mem_nil,not_false_iff]
    | start call =>
      dsimp only
      split <;> simp
    | opened => simp
    | pass other => simp [spare]
    | acquire other => simp [spare]
    | work other => simp [spare]
    | leave other => simp [spare]
    | hold lock =>
      dsimp only
      cases (s.locks.docOf? lock).bind r.locks.lock? <;> simp
    | release lock =>
      dsimp only
      cases (s.locks.docOf? lock).bind r.locks.lock? <;> simp
  · simp

theorem withoutCancels {events : List Event} (o : Orderly s) (f : Fate host gone s events) (id : TaskId) :
    .cancel id ∉ without host gone s r events := by
  induction events generalizing s r with
  | nil => exact List.not_mem_nil
  | cons e rest ih =>
    rw [without,List.mem_append,not_or]
    refine ⟨keptCancels ?_ id,ih (stepOrderly o host e) (fateNext o f)⟩
    intro entry marked
    apply f.only entry
    rw [turns,marked,thoseAppend]
    simp [those]

theorem withoutRemoved {g : Query.Grammar} (o : Orderly s) (ready : s.phase = .ready g) (rests : AtRest s)
    (events : List Event) :
    Removed (cancelledIn host s events) (s.run host events).1
        (s.run host (without host (cancelledIn host s events) s s events)).1 ∧
      (s.run host (without host (cancelledIn host s events) s s events)).2 = (s.run host events).2 ∧
      ∀ id, .cancel id ∉ without host (cancelledIn host s events) s s events := by
  have serial := restSerial host o ready rests events
  have late : ∀ id ∈ cancelledIn host s events, s.nextTask ≤ id := by
    intro id out
    obtain ⟨entry,member,rfl⟩ := List.mem_map.mp out
    obtain ⟨⟨kind,there⟩,listed,same⟩ := List.mem_filterMap.mp member
    split at same
    · cases Option.some.inj same
      exact (serial.logged.own _ listed).1
    · contradiction
  have fate : Fate host (cancelledIn host s events) s events :=
    ⟨fun entry member => List.mem_map_of_mem member,fun id out => .inl out⟩
  obtain ⟨mirrored,same⟩ := mirrorRun (restMirrored o rests late) ready events fate
  refine ⟨mirrorRemoved mirrored ?_,same,withoutCancels o fate⟩
  intro id out
  obtain ⟨entry,member,rfl⟩ := List.mem_map.mp out
  exact ⟨entry.2,_,serial.logged.cancelled entry member⟩

end

end Session
end Tinct
