import Tinct.Proofs.LockBookkeeping

/-! One call from its start to its end. The loading is over when the call passes the gate; then it is refused, or
it is admitted to its document and served, or others stand before it and it is given up. A session that
nobody uses admits every call, and is one that nobody uses afterwards. -/
namespace Tinct
namespace Document

@[simp] theorem effectsNone (e : Effects) : ({} : Effects) ++ e = e := rfl

@[simp] theorem effectsLast (e : Effects) : e ++ ({} : Effects) = e := by
  change Effects.append e {} = e
  simp [Effects.append]

end Document

namespace Session
open Document (Effects)

theorem requestSame {s t : Session} (store : t.store = s.store) (settings : t.settings = s.settings)
    (legend : t.legend = s.legend) (host : Host) (g : Query.Grammar) (doc : DocId) (text : Text) :
    (t.request host g doc text).2 = (s.request host g doc text).2 := by
  simp only [request,tokensFor,store,settings,legend]
  split
  · rfl
  · split <;> rfl

theorem serveSame {s t : Session} (store : t.store = s.store) (settings : t.settings = s.settings)
    (legend : t.legend = s.legend) (host : Host) (g : Query.Grammar) (call : Call) :
    (t.serve host g call).1.store = (s.serve host g call).1.store ∧
    (t.serve host g call).2 = (s.serve host g call).2 := by
  refine ⟨by rw [serveStore,serveStore,store],?_⟩
  cases call with
  | prepare => rfl
  | tokens doc text => simp only [serve,requestSame store settings legend host g doc text]
  | stream doc text =>
    rw [serveStream,serveStream,requestSame store settings legend host g doc text]
    simp only [streamOf,encoder,settings,legend]
  | notify doc text changes => simp only [serve,store]
  | close doc => simp only [serve,store]

def opening (host : Host) (s : Session) : Phase × Effects :=
  match s.phase with
  | .dormant | .starting =>
    match host.load s.settings.grammar with
    | .ok g => (.ready g,⟨[],[g.loadedNotice,s.readyNotice g]⟩)
    | .error cause => (.failed cause,⟨[],[s.failedNotice cause]⟩)
  | .ready g => (.ready g,{})
  | .failed cause => (.failed cause,{})

def settled (host : Host) (s : Session) (loads : Nat) (call : Call) : Session :=
  { s with
    phase := (s.opening host).1
    loads
    tasks := Table.put s.nextTask { call } s.tasks
    nextTask := s.nextTask + 1 }

theorem startOpened (host : Host) (s : Session) (call : Call) :
    ∃ loads, (s.start call).finishLoading host = (s.settled host loads call,(s.opening host).2) := by
  unfold finishLoading start settled opening
  cases phase : s.phase with
  | dormant =>
    cases load : host.load s.settings.grammar with
    | ok g => exact ⟨_,rfl⟩
    | error cause => exact ⟨_,rfl⟩
  | starting =>
    cases load : host.load s.settings.grammar with
    | ok g => exact ⟨_,rfl⟩
    | error cause => exact ⟨_,rfl⟩
  | ready g => exact ⟨_,rfl⟩
  | failed cause => exact ⟨_,rfl⟩

def entered (s : Session) (id : TaskId) (doc : DocId) (task : LockId → Task) : Session :=
  { s with
    locks := (s.locks.enter doc id).1
    tasks := Table.put id (task (s.locks.enter doc id).2) s.tasks }

theorem passEntered {s : Session} {id : TaskId} {call : Call} {g : Query.Grammar} {doc : DocId}
    (found : Table.get? id s.tasks = some ⟨call,.atGate⟩) (ready : s.phase = .ready g)
    (wants : call.doc? = some doc) : s.pass id = s.entered id doc fun lock => ⟨call,.waiting doc lock⟩ := by
  simp only [pass,found,ready,wants,setStage,entered]

theorem throughServed {s : Session} {id : TaskId} {call : Call} {g : Query.Grammar} {doc : DocId} (host : Host)
    (found : Table.get? id s.tasks = some ⟨call,.atGate⟩) (ready : s.phase = .ready g) (wants : call.doc? = some doc)
    (may : (s.locks.enter doc id).1.mayHold (s.locks.enter doc id).2 id = true) :
    s.run host (through id) =
      ({ s with
          store := (s.serve host g call).1.store
          locks := (s.locks.enter doc id).1.leave doc (s.locks.enter doc id).2 id
            ((s.serve host g call).1.store.contains doc)
          tasks := Table.put id ⟨call,.finished (s.serve host g call).2.1⟩ s.tasks },
        (s.serve host g call).2.2) := by
  have acquired : (s.pass id).acquire id = s.entered id doc fun lock => ⟨call,.inside doc lock⟩ := by
    rw [passEntered found ready wants]
    simp only [entered,acquire,stage?,Table.getPut,Option.map_some,may,if_true,setStage,Table.putPut]
  -- the work is that of the session before the call, which has the same store, settings and legend
  have same := serveSame (s := s) (t := s.entered id doc fun lock => ⟨call,.inside doc lock⟩) rfl rfl rfl host g call
  have worked := workServed (s := s.entered id doc fun lock => ⟨call,.inside doc lock⟩) host (Table.getPut ..) ready
  rw [same.1,same.2] at worked
  simp only [through,run,step,acquired,worked,Document.effectsNone,Document.effectsLast]
  simp only [entered,leave,stage?,Table.putPut,Table.getPut,Option.map_some,leaveLock,setStage]

theorem throughBarred {s : Session} {id : TaskId} {call : Call} {g : Query.Grammar} {doc : DocId} (host : Host)
    (found : Table.get? id s.tasks = some ⟨call,.atGate⟩) (ready : s.phase = .ready g) (wants : call.doc? = some doc)
    (may : (s.locks.enter doc id).1.mayHold (s.locks.enter doc id).2 id = false) :
    s.run host (through id) = (s.entered id doc fun lock => ⟨call,.waiting doc lock⟩,{}) := by
  simp only [through,run,step,passEntered found ready wants]
  simp [entered,acquire,work,leave,stage?,may]

theorem throughStopped {s : Session} {id : TaskId} {call : Call} {outcome : Outcome} (host : Host)
    (passed : s.pass id = { s with tasks := Table.put id ⟨call,.finished outcome⟩ s.tasks }) :
    s.run host (through id) = ({ s with tasks := Table.put id ⟨call,.finished outcome⟩ s.tasks },{}) := by
  simp only [through,run,step,passed]
  simp only [acquire,work,leave,stage?,Table.getPut,Option.map_some,Document.effectsNone]

def admits (s : Session) (doc : DocId) : Bool :=
  (s.locks.enter doc s.nextTask).1.mayHold (s.locks.enter doc s.nextTask).2 s.nextTask

theorem settledTask (host : Host) (s : Session) (loads : Nat) (call : Call) :
    Table.get? s.nextTask (s.settled host loads call).tasks = some ⟨call,.atGate⟩ := by
  rw [settled,Table.getPut]

def schedule (s : Session) (call : Call) : List Event := .start call::.opened::through s.nextTask

theorem callSchedule (host : Host) (s : Session) (call : Call) :
    s.call host call =
      (((s.run host (s.schedule call)).1.collect s.nextTask).1,
        ((s.run host (s.schedule call)).1.collect s.nextTask).2,(s.run host (s.schedule call)).2) := rfl

theorem runSchedule {s middle last : Session} {call : Call} {first effects : Effects} (host : Host)
    (opened : (s.start call).finishLoading host = (middle,first))
    (ran : middle.run host (through s.nextTask) = (last,effects)) :
    s.run host (s.schedule call) = (last,first ++ effects) := by
  simp only [schedule,run,step,opened,ran,Document.effectsNone]

theorem collectPut {s : Session} {id : TaskId} {call : Call} {outcome : Outcome} {rest : Table TaskId Task}
    (tasks : s.tasks = Table.put id ⟨call,.finished outcome⟩ rest) :
    s.outcome? id = some outcome ∧ s.collect id = ({ s with tasks := Table.erase id rest },outcome) := by
  have done : s.outcome? id = some outcome := by
    simp only [outcome?,stage?,tasks,Table.getPut,Option.map_some]
  refine ⟨done,?_⟩
  simp only [collect,done,tasks,Table.erasePut,Option.getD_some]

theorem callServed {s : Session} {g : Query.Grammar} {doc : DocId} {host : Host} (call : Call)
    (ready : (s.opening host).1 = .ready g) (wants : call.doc? = some doc) (may : s.admits doc = true) :
    ∃ loads, s.call host call =
      ({ s with
          phase := .ready g
          loads
          store := (s.serve host g call).1.store
          locks := (s.locks.enter doc s.nextTask).1.leave doc (s.locks.enter doc s.nextTask).2 s.nextTask
            ((s.serve host g call).1.store.contains doc)
          tasks := Table.erase s.nextTask s.tasks
          nextTask := s.nextTask + 1 },
        (s.serve host g call).2.1,(s.opening host).2 ++ (s.serve host g call).2.2) ∧
      (s.run host (s.schedule call)).1.outcome? s.nextTask = some (s.serve host g call).2.1 := by
  obtain ⟨loads,opened⟩ := startOpened host s call
  have served := throughServed host (settledTask host s loads call) ready wants may
  have same := serveSame (s := s) (t := s.settled host loads call) rfl rfl rfl host g call
  rw [same.1,same.2] at served
  have ran := runSchedule host opened served
  rw [callSchedule,ran]
  refine ⟨loads,?_,(collectPut rfl).1⟩
  rw [(collectPut rfl).2]
  simp only [settled,Table.erasePut,ready]

theorem callBarred {s : Session} {g : Query.Grammar} {doc : DocId} {host : Host} (call : Call)
    (ready : (s.opening host).1 = .ready g) (wants : call.doc? = some doc) (may : s.admits doc = false) :
    (s.call host call).2 = (.error .cancelled,(s.opening host).2) := by
  obtain ⟨loads,opened⟩ := startOpened host s call
  have waits := throughBarred host (settledTask host s loads call) ready wants may
  have ran := runSchedule host opened waits
  rw [callSchedule,ran]
  simp only [collect,entered,outcome?,stage?,Table.getPut,Option.map_some,Option.getD_none,
    Document.effectsLast]

theorem callStopped {s : Session} {call : Call} {host : Host} {outcome : Outcome}
    (passed : ∀ loads, (s.settled host loads call).pass s.nextTask =
      { s.settled host loads call with
        tasks := Table.put s.nextTask ⟨call,.finished outcome⟩ (s.settled host loads call).tasks }) :
    ∃ loads, s.call host call =
      ({ s with
          phase := (s.opening host).1
          loads
          tasks := Table.erase s.nextTask s.tasks
          nextTask := s.nextTask + 1 },
        outcome,(s.opening host).2) ∧
      (s.run host (s.schedule call)).1.outcome? s.nextTask = some outcome := by
  obtain ⟨loads,opened⟩ := startOpened host s call
  have stopped := throughStopped host (passed loads)
  have ran := runSchedule host opened stopped
  rw [callSchedule,ran]
  refine ⟨loads,?_,(collectPut rfl).1⟩
  rw [(collectPut rfl).2]
  simp only [settled,Table.erasePut,Document.effectsLast]

theorem refusedPass {s : Session} {host : Host} {cause : Failure} (failed : (s.opening host).1 = .failed cause)
    (call : Call) (loads : Nat) :
    (s.settled host loads call).pass s.nextTask =
      { s.settled host loads call with
        tasks := Table.put s.nextTask ⟨call,.finished (.error cause)⟩ (s.settled host loads call).tasks } := by
  have phase : (s.settled host loads call).phase = .failed cause := failed
  simp only [pass,settledTask,phase,setStage]

theorem preparedPass {s : Session} {call : Call} {host : Host} {g : Query.Grammar}
    (ready : (s.opening host).1 = .ready g) (free : call.doc? = none) (loads : Nat) :
    (s.settled host loads call).pass s.nextTask =
      { s.settled host loads call with
        tasks := Table.put s.nextTask ⟨call,.finished (.ok .done)⟩ (s.settled host loads call).tasks } := by
  have phase : (s.settled host loads call).phase = .ready g := ready
  simp only [pass,settledTask,phase,free,setStage]

inductive Reached (host : Host) (first : Session) : Session → Prop where
  | first : Reached host first first
  | step {s} (event : Event) (before : Reached host first s) : Reached host first (s.step host event).1
  | collect {s} {id : TaskId} {outcome : Outcome} (finished : s.outcome? id = some outcome)
      (before : Reached host first s) : Reached host first (s.collect id).1

theorem reachedRun {host : Host} {first s : Session} (before : Reached host first s) (events : List Event) :
    Reached host first (s.run host events).1 := by
  induction events generalizing s with
  | nil => exact before
  | cons e rest ih => exact ih (.step e before)

theorem placeErase (s : Session) (id other : TaskId) :
    place? { s with tasks := Table.erase id s.tasks } other = if id = other then none else s.place? other := by
  simp only [place?,stage?,Table.lookupErase]
  split <;> rfl

theorem collectKept {s : Session} {id other : TaskId} {t : Task}
    (found : Table.get? other (s.collect id).1.tasks = some t) : Table.get? other s.tasks = some t := by
  simp only [collect,Table.lookupErase] at found
  split at found
  · contradiction
  · exact found

theorem collectOrderly {s : Session} {id : TaskId} {outcome : Outcome} (o : Orderly s)
    (finished : s.outcome? id = some outcome) : Orderly (s.collect id).1 := by
  have outside : s.place? id = none := by
    unfold outcome? at finished
    split at finished
    · rename_i at_
      simp only [place?,at_]
      rfl
    · contradiction
  refine ⟨?_,?_,?_,?_⟩
  · apply o.booked.sameTasks
    · intro j
      rw [collect,placeErase]
      split
      · rename_i same
        exact same ▸ outside.symm
      · rfl
    · intro j active
      simp only [Holds,stage?,Option.any_eq_true,Option.map_eq_some_iff] at active ⊢
      obtain ⟨stage,⟨t,found,same⟩,holding⟩ := active
      exact ⟨stage,⟨t,collectKept found,same⟩,holding⟩
  · exact o.once.sublist (List.filter_sublist.map Prod.fst)
  · intro j t found
    exact o.numbered j t (collectKept found)
  · intro j t doc lock found there
    exact o.own j t doc lock (collectKept found) there

theorem reachedOrderly {host : Host} {settings : Settings} {legend : Legend} {s : Session}
    (reached : Reached host { settings, legend } s) : Orderly s := by
  induction reached with
  | first => exact freshOrderly settings legend
  | step event before ih => exact stepOrderly ih host event
  | collect finished before ih => exact collectOrderly ih finished

structure Idle (s : Session) : Prop where
  places : ∀ id, s.place? id = none
  free : s.locks.held = []

theorem idleAdmits {s : Session} (o : Orderly s) (idle : Idle s) (doc : DocId) : s.admits doc = true := by
  have own := (o.booked.enterOwn doc s.nextTask).1
  have empty : s.locks.queue (s.locks.enter doc s.nextTask).2 = [] := by
    apply List.eq_nil_iff_forall_not_mem.mpr
    intro id member
    have there := (own id).mp member
    rw [idle.places id] at there
    contradiction
  simp [admits,Locks.mayHold,Locks.enterQueue,empty,Locks.enterHeld,idle.free]

theorem idleErase {s next : Session} {id : TaskId} (idle : Idle s) (tasks : next.tasks = Table.erase id s.tasks)
    (held : next.locks.held = s.locks.held) : Idle next where
  places := by
    intro other
    have place : next.place? other = if id = other then none else s.place? other := by
      rw [← placeErase]
      simp only [place?,stage?,tasks]
    rw [place,idle.places]
    split <;> rfl
  free := held.trans idle.free

theorem openingSettles (host : Host) (s : Session) :
    (∃ g, (s.opening host).1 = .ready g) ∨ ∃ cause, (s.opening host).1 = .failed cause := by
  unfold opening
  cases s.phase with
  | dormant => cases host.load s.settings.grammar <;> simp
  | starting => cases host.load s.settings.grammar <;> simp
  | ready g => exact .inl ⟨g,rfl⟩
  | failed cause => exact .inr ⟨cause,rfl⟩

def answer (host : Host) (s : Session) (call : Call) : Outcome :=
  match (s.opening host).1 with
  | .ready g => (s.serve host g call).2.1
  | .failed cause => .error cause
  | .dormant | .starting => .error .cancelled

theorem openingReady (host : Host) {s : Session} {g : Query.Grammar} (ready : s.phase = .ready g) :
    (s.opening host).1 = .ready g := by
  simp only [opening,ready]

theorem answerReady {host : Host} {s : Session} {g : Query.Grammar} (ready : (s.opening host).1 = .ready g)
    (call : Call) :
    s.answer host call = (s.serve host g call).2.1 := by
  simp only [answer,ready]

theorem callIdle {s : Session} (o : Orderly s) (idle : Idle s) (host : Host) (call : Call) :
    (s.run host (s.schedule call)).1.outcome? s.nextTask = some (s.answer host call) ∧
    Idle (s.call host call).1 ∧ (s.call host call).2.1 = s.answer host call := by
  rcases openingSettles host s with ⟨g,ready⟩ | ⟨cause,failed⟩
  · rw [answerReady ready]
    cases wants : call.doc? with
    | none =>
      have done : (s.serve host g call).2.1 = .ok .done := by
        cases call <;> first | rfl | contradiction
      obtain ⟨loads,same,finished⟩ := callStopped (preparedPass ready wants)
      rw [same,done]
      exact ⟨finished,idleErase idle rfl rfl,rfl⟩
    | some doc =>
      obtain ⟨loads,same,finished⟩ := callServed call ready wants (idleAdmits o idle doc)
      rw [same]
      exact ⟨finished,idleErase idle rfl ((Locks.leaveHeld ..).trans (Locks.enterHeld ..)),rfl⟩
  · obtain ⟨loads,same,finished⟩ := callStopped (refusedPass failed call)
    rw [same]
    simp only [answer,failed]
    exact ⟨finished,idleErase idle rfl rfl,trivial⟩

inductive Step where
  | served (call : Call)
  | cancelled (call : Call)
  deriving DecidableEq, Repr

def take (host : Host) (s : Session) : Step → Session
  | .served call => (s.call host call).1
  | .cancelled call => (s.callCancelled host call).1

def after (host : Host) (s : Session) (steps : List Step) : Session := steps.foldl (take host) s

theorem loadingFrame (host : Host) (s : Session) :
    (s.finishLoading host).1.tasks = s.tasks ∧ (s.finishLoading host).1.locks = s.locks := by
  unfold finishLoading
  split
  · split <;> exact ⟨rfl,rfl⟩
  · exact ⟨rfl,rfl⟩

theorem cancelledTask (host : Host) (s : Session) (call : Call) :
    (s.run host [.start call,.cancel s.nextTask,.opened]).1.tasks =
      Table.put s.nextTask ⟨call,.finished (.error .cancelled)⟩ s.tasks ∧
    (s.run host [.start call,.cancel s.nextTask,.opened]).1.locks = s.locks := by
  have dropped : (s.start call).cancel s.nextTask =
      { s.start call with tasks := Table.put s.nextTask ⟨call,.finished (.error .cancelled)⟩ s.tasks } := by
    simp only [start,cancel,stage?,Table.getPut,Option.map_some,setStage,Table.putPut]
  have frame := loadingFrame host ((s.start call).cancel s.nextTask)
  simp only [run,step]
  rw [frame.1,frame.2,dropped]
  exact ⟨rfl,rfl⟩

theorem takeIdle {host : Host} {settings : Settings} {legend : Legend} {s : Session}
    (reached : Reached host { settings, legend } s) (idle : Idle s) (step : Step) :
    Reached host { settings, legend } (s.take host step) ∧ Idle (s.take host step) := by
  have served : ∀ call, Reached host { settings, legend } (s.call host call).1 ∧ Idle (s.call host call).1 := by
    intro call
    obtain ⟨finished,rests,_⟩ := callIdle (reachedOrderly reached) idle host call
    exact ⟨.collect finished (reachedRun reached (s.schedule call)),rests⟩
  cases step with
  | served call => exact served call
  | cancelled call =>
    simp only [take,callCancelled]
    split
    · exact served call
    · obtain ⟨tasks,locks⟩ := cancelledTask host s call
      obtain ⟨finished,collected⟩ := collectPut tasks
      refine ⟨.collect finished (reachedRun reached _),?_⟩
      dsimp only
      rw [collected]
      exact idleErase idle rfl (congrArg Locks.held locks)

theorem afterIdle {host : Host} {settings : Settings} {legend : Legend} {s : Session}
    (reached : Reached host { settings, legend } s) (idle : Idle s) (steps : List Step) :
    Reached host { settings, legend } (s.after host steps) ∧ Idle (s.after host steps) := by
  induction steps generalizing s with
  | nil => exact ⟨reached,idle⟩
  | cons step rest ih =>
    obtain ⟨reached,idle⟩ := takeIdle reached idle step
    exact ih reached idle

structure Framed (host : Host) (first s : Session) : Prop where
  settings : s.settings = first.settings
  legend : s.legend = first.legend
  phase : s.phase = .dormant ∨ s.phase = .starting ∨ s.phase = (first.opening host).1

theorem framedOpening {host : Host} {first s : Session} (dormant : first.phase = .dormant)
    (f : Framed host first s) :
    (s.opening host).1 = (first.opening host).1 := by
  have opens : (first.opening host).1 =
      match host.load s.settings.grammar with | .ok g => .ready g | .error cause => .failed cause := by
    simp only [opening,dormant,f.settings]
    cases host.load first.settings.grammar <;> rfl
  rcases f.phase with phase | phase | phase
  · rw [opens]
    simp only [opening,phase]
    cases host.load s.settings.grammar <;> rfl
  · rw [opens]
    simp only [opening,phase]
    cases host.load s.settings.grammar <;> rfl
  · rcases openingSettles host first with ⟨g,ready⟩ | ⟨cause,failed⟩
    · rw [ready] at phase ⊢
      simp only [opening,phase]
    · rw [failed] at phase ⊢
      simp only [opening,phase]

theorem takenFramed {host : Host} {first s next : Session} {event : Event} {effects : Effects}
    (dormant : first.phase = .dormant) (f : Framed host first s) (taken : Taken host s event next effects) :
    Framed host first next := by
  have opened := framedOpening dormant f
  cases taken with
  | start call =>
    refine ⟨f.settings,f.legend,?_⟩
    rcases f.phase with phase | phase | phase
    · simp [start,phase]
    · simp [start,phase]
    · rcases openingSettles host first with ⟨g,ready⟩ | ⟨cause,failed⟩
      · simp [start,phase,ready]
      · simp [start,phase,failed]
  | loaded g starting load =>
    refine ⟨f.settings,f.legend,.inr (.inr ?_)⟩
    rw [← opened]
    simp only [opening,starting,load]
  | broken cause starting load =>
    refine ⟨f.settings,f.legend,.inr (.inr ?_)⟩
    rw [← opened]
    simp only [opening,starting,load]
  | _ => exact ⟨f.settings,f.legend,f.phase⟩

theorem reachedFramed {host : Host} {settings : Settings} {legend : Legend} {s : Session}
    (reached : Reached host { settings, legend } s) : Framed host { settings, legend } s := by
  induction reached with
  | first => exact ⟨rfl,rfl,.inl rfl⟩
  | step event before ih => exact stepKept ih (takenFramed rfl ih)
  | collect finished before ih => exact ⟨ih.settings,ih.legend,ih.phase⟩

end Session
end Tinct
