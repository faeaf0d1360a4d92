import Tinct.Session.Serve
import Tinct.Proofs.StoreRun

/-! The steps of a session, one by one. An event that is not possible changes nothing; every other one is one
of the moves listed here, with its guard and the session after it. The work of a call touches the store only,
and what it answers hangs on the store, the settings and the legend alone. -/
namespace Tinct.Session
open Document (Effects)

theorem setStageFound {s : Session} {id : TaskId} {t : Task} (found : Table.get? id s.tasks = some t)
    (stage : Stage) :
    s.setStage id stage = { s with tasks := Table.put id { t with stage } s.tasks } := by
  simp only [setStage,found]

theorem stageFound {s : Session} {id : TaskId} {t : Task} (found : Table.get? id s.tasks = some t) :
    s.stage? id = some t.stage := by
  simp only [stage?,found,Option.map_some]

theorem taskAt {s : Session} {id : TaskId} {stage : Stage} (at_ : s.stage? id = some stage) :
    ∃ call, Table.get? id s.tasks = some ⟨call,stage⟩ := by
  obtain ⟨⟨call,_⟩,found,same⟩ := Option.map_eq_some_iff.mp at_
  cases same
  exact ⟨call,found⟩

theorem requestFrame (host : Host) (s : Session) (g : Query.Grammar) (doc : DocId) (text : Text) :
    (s.request host g doc text).1 = { s with store := (s.request host g doc text).1.store } := by
  unfold request
  split
  · rfl
  · split <;> rfl

theorem serveStream (host : Host) (s : Session) (g : Query.Grammar) (doc : DocId) (text : Text) :
    (s.serve host g (.stream doc text)).2 =
      match (s.request host g doc text).2 with
      | (.error f,effects) => (.error f,effects)
      | (.ok ts,effects) =>
        (((s.streamOf ts).1.map Reply.stream).mapError Failure.fault,effects ++ ⟨[],(s.streamOf ts).2⟩) := by
  have frame := requestFrame host s g doc text
  simp only [serve]
  generalize s.request host g doc text = answer at frame ⊢
  obtain ⟨next,result,effects⟩ := answer
  cases result with
  | error f => rfl
  | ok ts =>
    have same : next.streamOf ts = s.streamOf ts := by
      rw [show next = { s with store := next.store } from frame]
      rfl
    simp only [same]

theorem serveFrame (host : Host) (s : Session) (g : Query.Grammar) (call : Call) :
    (s.serve host g call).1 = { s with store := (s.serve host g call).1.store } := by
  cases call with
  | prepare => rfl
  | tokens doc text => exact requestFrame host s g doc text
  | stream doc text =>
    have frame := requestFrame host s g doc text
    simp only [serve]
    generalize s.request host g doc text = answer at frame ⊢
    obtain ⟨next,result,effects⟩ := answer
    cases result <;> exact frame
  | notify doc text changes => rfl
  | close doc => rfl

def operation? : Call → Option Document.Operation
  | .prepare => none
  | .tokens doc text | .stream doc text => some (.update doc text)
  | .notify doc text changes => some (.changes doc text changes)
  | .close doc => some (.evict doc)

theorem operationDoc {call : Call} {op : Document.Operation} (does : operation? call = some op) :
    op.doc? = call.doc? := by
  cases call <;> cases does <;> rfl

theorem requestStore (host : Host) (s : Session) (g : Query.Grammar) (doc : DocId) (text : Text) :
    (s.request host g doc text).1.store = (s.store.perform (.update doc text)).1 := by
  simp only [request,Document.Store.perform]
  cases s.store.update doc text with
  | error f => rfl
  | ok result =>
    obtain ⟨store,entry,effects⟩ := result
    dsimp only
    split <;> rfl

theorem serveStore (host : Host) (s : Session) (g : Query.Grammar) (call : Call) :
    (s.serve host g call).1.store = ((operation? call).map fun op => (s.store.perform op).1).getD s.store := by
  cases call with
  | prepare => rfl
  | tokens doc text => exact requestStore host s g doc text
  | stream doc text =>
    have stored := requestStore host s g doc text
    simp only [serve]
    generalize s.request host g doc text = answer at stored ⊢
    obtain ⟨next,result,effects⟩ := answer
    cases result <;> exact stored
  | notify doc text changes => rfl
  | close doc => rfl

theorem serveElsewhere (host : Host) (s : Session) (g : Query.Grammar) {call : Call} {doc other : DocId}
    (own : call.doc? = some doc) (elsewhere : other ≠ doc) :
    (s.serve host g call).1.store.find? other = s.store.find? other := by
  rw [serveStore]
  cases does : operation? call with
  | none => rfl
  | some op => exact s.store.performElsewhere ((operationDoc does).trans own) elsewhere

theorem workServed {s : Session} {id : TaskId} {call : Call} {doc : DocId} {lock : LockId} {g : Query.Grammar}
    (host : Host)
    (found : Table.get? id s.tasks = some ⟨call,.inside doc lock⟩) (ready : s.phase = .ready g) :
    s.work host id =
      ({ s with
          store := (s.serve host g call).1.store
          tasks := Table.put id ⟨call,.leaving doc lock (s.serve host g call).2.1⟩ s.tasks },
        (s.serve host g call).2.2) := by
  have frame := serveFrame host s g call
  have kept : Table.get? id (s.serve host g call).1.tasks = some ⟨call,.inside doc lock⟩ := by
    rw [frame]
    exact found
  simp only [work,found,ready]
  rw [setStageFound kept,frame,ready]

def possible (s : Session) : Event → Bool
  | .start _ | .hold _ | .release _ => true
  | .opened => match s.phase with | .starting => true | _ => false
  | .pass id => match s.stage? id with | some .atGate => s.isSettled | _ => false
  | .acquire id => match s.stage? id with | some (.waiting _ lock) => s.locks.mayHold lock id | _ => false
  | .work id => match s.stage? id,s.phase with | some (.inside _ _),.ready _ => true | _,_ => false
  | .leave id => match s.stage? id with | some (.leaving _ _ _) => true | _ => false
  | .cancel id => match s.stage? id with | some .atGate | some (.waiting _ _) => true | _ => false

theorem stepIdle (host : Host) {s : Session} {event : Event} (cannot : s.possible event = false) :
    s.step host event = (s,{}) := by
  cases event with
  | start call => contradiction
  | opened =>
    simp only [possible] at cannot
    simp only [step,finishLoading]
    split <;> simp_all
  | pass id =>
    simp only [possible] at cannot
    simp only [step,pass]
    split
    · rename_i call found
      rw [stageFound found] at cannot
      simp only [isSettled] at cannot
      split <;> simp_all
    · rfl
  | acquire id =>
    simp only [possible] at cannot
    simp only [step,acquire]
    split <;> simp_all
  | work id =>
    simp only [possible] at cannot
    simp only [step,work]
    split
    · rename_i call doc lock g found ready
      simp [stageFound found,ready] at cannot
    · rfl
  | leave id =>
    simp only [possible] at cannot
    simp only [step,leave]
    split <;> simp_all
  | cancel id =>
    simp only [possible] at cannot
    simp only [step,cancel]
    split <;> simp_all
  | hold lock => contradiction
  | release lock => contradiction

inductive Taken (host : Host) (s : Session) : Event → Session → Effects → Prop where
  | start (call : Call) : Taken host s (.start call) (s.start call) {}
  | loaded (g : Query.Grammar) (starting : s.phase = .starting) (load : host.load s.settings.grammar = .ok g) :
      Taken host s .opened { s with phase := .ready g, loads := s.loads + 1 } ⟨[],[g.loadedNotice,s.readyNotice g]⟩
  | broken (cause : Failure) (starting : s.phase = .starting)
      (load : host.load s.settings.grammar = .error cause) :
      Taken host s .opened { s with phase := .failed cause, loads := s.loads + 1 } ⟨[],[s.failedNotice cause]⟩
  | prepared (id : TaskId) (call : Call) (g : Query.Grammar) (found : Table.get? id s.tasks = some ⟨call,.atGate⟩)
      (ready : s.phase = .ready g) (free : call.doc? = none) :
      Taken host s (.pass id) { s with tasks := Table.put id ⟨call,.finished (.ok .done)⟩ s.tasks } {}
  | refused (id : TaskId) (call : Call) (cause : Failure) (found : Table.get? id s.tasks = some ⟨call,.atGate⟩)
      (failed : s.phase = .failed cause) :
      Taken host s (.pass id) { s with tasks := Table.put id ⟨call,.finished (.error cause)⟩ s.tasks } {}
  | enter (id : TaskId) (call : Call) (g : Query.Grammar) (doc : DocId)
      (found : Table.get? id s.tasks = some ⟨call,.atGate⟩) (ready : s.phase = .ready g)
      (wants : call.doc? = some doc) :
      Taken host s (.pass id)
        { s with
          locks := (s.locks.enter doc id).1
          tasks := Table.put id ⟨call,.waiting doc (s.locks.enter doc id).2⟩ s.tasks } {}
  | acquire (id : TaskId) (call : Call) (doc : DocId) (lock : LockId)
      (found : Table.get? id s.tasks = some ⟨call,.waiting doc lock⟩) (may : s.locks.mayHold lock id = true) :
      Taken host s (.acquire id) { s with tasks := Table.put id ⟨call,.inside doc lock⟩ s.tasks } {}
  | work (id : TaskId) (call : Call) (g : Query.Grammar) (doc : DocId) (lock : LockId)
      (found : Table.get? id s.tasks = some ⟨call,.inside doc lock⟩) (ready : s.phase = .ready g) :
      Taken host s (.work id)
        { s with
          store := (s.serve host g call).1.store
          tasks := Table.put id ⟨call,.leaving doc lock (s.serve host g call).2.1⟩ s.tasks }
        (s.serve host g call).2.2
  | leave (id : TaskId) (call : Call) (doc : DocId) (lock : LockId) (outcome : Outcome)
      (found : Table.get? id s.tasks = some ⟨call,.leaving doc lock outcome⟩) :
      Taken host s (.leave id)
        { s with
          locks := s.locks.leave doc lock id (s.store.contains doc)
          tasks := Table.put id ⟨call,.finished outcome⟩ s.tasks } {}
  | dropped (id : TaskId) (call : Call) (found : Table.get? id s.tasks = some ⟨call,.atGate⟩) :
      Taken host s (.cancel id) { s with tasks := Table.put id ⟨call,.finished (.error .cancelled)⟩ s.tasks } {}
  | abandon (id : TaskId) (call : Call) (doc : DocId) (lock : LockId)
      (found : Table.get? id s.tasks = some ⟨call,.waiting doc lock⟩) :
      Taken host s (.cancel id)
        { s with
          locks := s.locks.leave doc lock id (s.store.contains doc)
          tasks := Table.put id ⟨call,.finished (.error .cancelled)⟩ s.tasks } {}
  | hold (lock : LockId) : Taken host s (.hold lock) { s with locks := s.locks.hold lock } {}
  | release (lock : LockId) : Taken host s (.release lock) { s with locks := s.locks.release lock } {}

theorem stepTaken (host : Host) {s : Session} {event : Event} (can : s.possible event = true) :
    Taken host s event (s.step host event).1 (s.step host event).2 := by
  cases event with
  | start call => exact .start call
  | opened =>
    simp only [possible] at can
    simp only [step,finishLoading]
    split
    · rename_i starting
      split
      · exact .loaded _ starting ‹_›
      · exact .broken _ starting ‹_›
    · simp_all
  | pass id =>
    simp only [possible] at can
    split at can
    · rename_i at_
      obtain ⟨call,found⟩ := taskAt at_
      simp only [step,pass,found]
      split
      · rename_i g ready
        split
        · rw [setStageFound found]
          exact .prepared id call g found ready ‹_›
        · rename_i doc wants
          have moved := setStageFound (s := { s with locks := (s.locks.enter doc id).1 }) found
          rw [moved]
          exact .enter id call g doc found ready wants
      · rw [setStageFound found]
        exact .refused id call _ found ‹_›
      · simp only [isSettled] at can
        contradiction
    · contradiction
  | acquire id =>
    simp only [possible] at can
    split at can
    · rename_i doc lock at_
      obtain ⟨call,found⟩ := taskAt at_
      simp only [step,acquire,at_,can,if_true]
      rw [setStageFound found]
      exact .acquire id call doc lock found can
    · contradiction
  | work id =>
    simp only [possible] at can
    split at can
    · rename_i doc lock g at_ ready
      obtain ⟨call,found⟩ := taskAt at_
      simp only [step,workServed host found ready]
      exact .work id call g doc lock found ready
    · contradiction
  | leave id =>
    simp only [possible] at can
    split at can
    · rename_i doc lock outcome at_
      obtain ⟨call,found⟩ := taskAt at_
      have moved := setStageFound (s := s.leaveLock id doc lock) found
      simp only [step,leave,at_]
      rw [moved]
      exact .leave id call doc lock outcome found
    · contradiction
  | cancel id =>
    simp only [possible] at can
    split at can
    · rename_i at_
      obtain ⟨call,found⟩ := taskAt at_
      simp only [step,cancel,at_]
      rw [setStageFound found]
      exact .dropped id call found
    · rename_i doc lock at_
      obtain ⟨call,found⟩ := taskAt at_
      have moved := setStageFound (s := s.leaveLock id doc lock) found
      simp only [step,cancel,at_]
      rw [moved]
      exact .abandon id call doc lock found
    · contradiction
  | hold lock => exact .hold lock
  | release lock => exact .release lock

theorem takenStep {host : Host} {s next : Session} {event : Event} {effects : Effects}
    (taken : Taken host s event next effects) : s.step host event = (next,effects) := by
  cases taken with
  | start call => rfl
  | loaded g starting load => simp only [step,finishLoading,starting,load]
  | broken cause starting load => simp only [step,finishLoading,starting,load]
  | prepared id call g found ready free => simp only [step,pass,found,ready,free,setStage]
  | refused id call cause found failed => simp only [step,pass,found,failed,setStage]
  | enter id call g doc found ready wants => simp only [step,pass,found,ready,wants,setStage]
  | acquire id call doc lock found may => simp only [step,acquire,stageFound found,may,if_true,setStage,found]
  | work id call g doc lock found ready => exact workServed host found ready
  | leave id call doc lock outcome found => simp only [step,leave,stageFound found,leaveLock,setStage,found]
  | dropped id call found => simp only [step,cancel,stageFound found,setStage,found]
  | abandon id call doc lock found => simp only [step,cancel,stageFound found,leaveLock,setStage,found]
  | hold lock => rfl
  | release lock => rfl

theorem stepKept {host : Host} {s : Session} {event : Event} {holds : Session → Prop} (now : holds s)
    (taken : ∀ {next : Session} {effects : Effects}, Taken host s event next effects → holds next) :
    holds (s.step host event).1 := by
  cases can : s.possible event with
  | true => exact taken (stepTaken host can)
  | false =>
    rw [stepIdle host can]
    exact now

def started (events : List Event) : List Call :=
  events.filterMap fun e => match e with | .start call => some call | _ => none

structure Called (base : TaskId) (calls : List Call) (s : Session) : Prop where
  next : s.nextTask = base + calls.length
  listed : ∀ k, (Table.get? (base + k) s.tasks).map Task.call = calls[k]?

theorem calledPut {base : TaskId} {calls : List Call} {s next : Session} (c : Called base calls s) {id : TaskId}
    {call : Call} {old stage : Stage} (found : Table.get? id s.tasks = some ⟨call,old⟩) (numbers : next.nextTask = s.nextTask)
    (tasks : next.tasks = Table.put id ⟨call,stage⟩ s.tasks) : Called base calls next where
  next := numbers.trans c.next
  listed := by
    intro other
    rw [← c.listed,tasks,Table.lookupPut]
    split
    · rename_i same
      rw [← same,found]
      rfl
    · rfl

theorem startCalled {base : TaskId} {calls : List Call} {s : Session} (c : Called base calls s) (call : Call) :
    Called base (calls ++ [call]) (s.start call) where
  next := by simp [start,c.next,Nat.add_assoc]
  listed := by
    intro k
    simp only [start,Table.lookupPut,c.next]
    split
    · rename_i same
      simp [← Nat.add_left_cancel same]
    · rename_i other
      have different : k ≠ calls.length := fun same => other (congrArg (base + ·) same.symm)
      rw [c.listed,List.getElem?_append]
      split
      · rfl
      · rename_i outside
        have past : 1 ≤ k - calls.length :=
          Nat.sub_pos_of_lt (Nat.lt_of_le_of_ne (Nat.not_lt.mp outside) different.symm)
        rw [List.getElem?_eq_none (Nat.not_lt.mp outside),List.getElem?_eq_none past]

theorem quietCalled {host : Host} {base : TaskId} {calls : List Call} {s next : Session} {event : Event}
    {effects : Effects} (c : Called base calls s) (taken : Taken host s event next effects)
    (quiet : started [event] = []) : Called base calls next := by
  cases taken with
  | start call => contradiction
  | loaded g starting load => exact ⟨c.next,c.listed⟩
  | broken cause starting load => exact ⟨c.next,c.listed⟩
  | prepared id call g found ready free => exact calledPut c found rfl rfl
  | refused id call cause found failed => exact calledPut c found rfl rfl
  | enter id call g doc found ready wants => exact calledPut c found rfl rfl
  | acquire id call doc lock found may => exact calledPut c found rfl rfl
  | work id call g doc lock found ready => exact calledPut c found rfl rfl
  | leave id call doc lock outcome found => exact calledPut c found rfl rfl
  | dropped id call found => exact calledPut c found rfl rfl
  | abandon id call doc lock found => exact calledPut c found rfl rfl
  | hold lock => exact ⟨c.next,c.listed⟩
  | release lock => exact ⟨c.next,c.listed⟩

theorem stepCalled {base : TaskId} {calls : List Call} {s : Session} (c : Called base calls s) (host : Host)
    (event : Event) : Called base (calls ++ started [event]) (s.step host event).1 := by
  by_cases quiet : started [event] = []
  · rw [quiet,List.append_nil]
    exact stepKept c fun taken => quietCalled c taken quiet
  · cases event with
    | start call => exact startCalled c call
    | _ => contradiction

theorem runCalled {base : TaskId} {calls : List Call} {s : Session} (c : Called base calls s) (host : Host)
    (events : List Event) : Called base (calls ++ started events) (s.run host events).1 := by
  induction events generalizing calls s with
  | nil => simpa [started,run] using c
  | cons e rest ih =>
    have split : started (e::rest) = started [e] ++ started rest := List.filterMap_append (l := [e])
    rw [split,← List.append_assoc]
    exact ih (stepCalled c host e)

end Tinct.Session
