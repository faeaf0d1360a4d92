import Tinct.Proofs.TurnedCaptures
import Tinct.Proofs.RoundSteps

/-! Two sessions, one that splits captures that turn back and one that refuses them. A request that is lost has its text
parsed and kept by then, and leaves its lock like any other. So the two go through the same states, whatever the steps,
and differ in the answers to such requests only. -/
namespace Tinct

def Stage.robbed : Stage → Stage
  | .leaving doc lock _ => .leaving doc lock (.error .lostReport)
  | .finished _ => .finished (.error .lostReport)
  | stage => stage

def Task.robbed (t : Task) : Task := ⟨t.call,t.stage.robbed⟩

namespace Session
open Document (Effects)

def struckBy (host : Host) (s : Session) : Event → List TaskId
  | .work id =>
    match Table.get? id s.tasks,s.phase with
    | some ⟨call,.inside _ _⟩,.ready g => if s.strikes host g call then [id] else []
    | _,_ => []
  | _ => []

def struck (host : Host) (s : Session) : List Event → List TaskId
  | [] => []
  | e::rest => s.struckBy host e ++ struck host (s.step host e).1 rest

-- The same steps under both policies: `s` splits, `r` refuses, and the tasks listed had an answer that `r` lost.
structure Parted (lost : List TaskId) (s r : Session) : Prop extends Opposed s r where
  phase : r.phase = s.phase
  loads : r.loads = s.loads
  locks : r.locks = s.locks
  next : r.nextTask = s.nextTask
  tasks : ∀ id, Table.get? id r.tasks = (Table.get? id s.tasks).map fun t => if id ∈ lost then t.robbed else t
  early : ∀ id ∈ lost, id < s.nextTask
  answered : ∀ id ∈ lost, ∀ t, Table.get? id s.tasks = some t → ∃ reply, t.stage.outcome? = some (.ok reply)

section
variable {lost : List TaskId} {s r : Session} {host : Host} {id : TaskId}

theorem partedOpen (p : Parted lost s r) {call : Call} {stage : Stage}
    (found : Table.get? id s.tasks = some ⟨call,stage⟩) (unanswered : stage.outcome? = none) :
    id ∉ lost ∧ Table.get? id r.tasks = some ⟨call,stage⟩ := by
  have fresh : id ∉ lost := by
    intro member
    obtain ⟨reply,done⟩ := p.answered id member _ found
    rw [unanswered] at done
    contradiction
  refine ⟨fresh,?_⟩
  rw [p.tasks,found,Option.map_some,if_neg fresh]

theorem partedPut (p : Parted lost s r) {t : Task}
    (answered : id ∈ lost → ∃ reply, t.stage.outcome? = some (.ok reply)) :
    Parted lost { s with tasks := Table.put id t s.tasks }
      { r with tasks := Table.put id (if id ∈ lost then t.robbed else t) r.tasks } where
  toOpposed := ⟨p.split,p.settings,p.legend,p.store,p.loaded⟩
  phase := p.phase
  loads := p.loads
  locks := p.locks
  next := p.next
  tasks := by
    intro j
    rw [Table.lookupPut,Table.lookupPut]
    split
    · rename_i same
      rw [same,Option.map_some]
    · exact p.tasks j
  early := p.early
  answered := by
    intro j member u found
    rw [Table.lookupPut] at found
    split at found
    · rename_i same
      cases Option.some.inj found
      exact answered (same ▸ member)
    · exact p.answered j member u found

theorem partedMove (p : Parted lost s r) (fresh : id ∉ lost) (t : Task) :
    Parted lost { s with tasks := Table.put id t s.tasks } { r with tasks := Table.put id t r.tasks } := by
  have moved := partedPut (t := t) p fun member => absurd member fresh
  rwa [if_neg fresh] at moved

theorem partedFrame (p : Parted lost s r) {phase mode : Phase} {loads count : Nat} {locks keys : Locks}
    {store kept : Document.Store} (phases : mode = phase) (counts : count = loads) (locked : keys = locks)
    (stored : kept = store) (loaded : store.loaded = true) :
    Parted lost { s with phase, loads, locks, store }
      { r with phase := mode, loads := count, locks := keys, store := kept } where
  toOpposed := ⟨p.split,p.settings,p.legend,stored,loaded⟩
  phase := phases
  loads := counts
  locks := locked
  next := p.next
  tasks := p.tasks
  early := p.early
  answered := p.answered

theorem partedStart (p : Parted lost s r) (call : Call) : Parted lost (s.start call) (r.start call) := by
  have fresh : s.nextTask ∉ lost := fun member => Nat.lt_irrefl _ (p.early _ member)
  have moved := partedMove p fresh { call }
  constructor
  case toOpposed => exact ⟨p.split,p.settings,p.legend,p.store,p.loaded⟩
  case phase => simp only [start,p.phase]
  case loads => exact p.loads
  case locks => exact p.locks
  case next => simp only [start,p.next]
  case tasks =>
    intro j
    simp only [start,p.next]
    exact moved.tasks j
  case early => exact fun j member => Nat.lt_succ_of_lt (p.early j member)
  case answered => exact moved.answered

theorem partedStrike (p : Parted lost s r) {call : Call} {stage : Stage} {reply : Reply}
    (early : id < s.nextTask) (done : stage.outcome? = some (.ok reply)) :
    Parted (lost ++ [id]) { s with tasks := Table.put id ⟨call,stage⟩ s.tasks }
      { r with tasks := Table.put id ⟨call,stage.robbed⟩ r.tasks } where
  toOpposed := ⟨p.split,p.settings,p.legend,p.store,p.loaded⟩
  phase := p.phase
  loads := p.loads
  locks := p.locks
  next := p.next
  tasks := by
    intro j
    rw [Table.lookupPut,Table.lookupPut]
    split
    · rename_i same
      rw [← same,Option.map_some,if_pos (List.mem_append_right lost List.mem_cons_self)]
      rfl
    · rename_i other
      have different : j ≠ id := fun same => other same.symm
      simp only [p.tasks j,List.mem_append,List.mem_singleton,different,or_false]
  early := by
    intro j member
    rcases List.mem_append.mp member with old | new
    · exact p.early j old
    · rw [List.mem_singleton.mp new]
      exact early
  answered := by
    intro j member u found
    rw [Table.lookupPut] at found
    split at found
    · cases Option.some.inj found
      exact ⟨reply,done⟩
    · rename_i other
      rcases List.mem_append.mp member with old | new
      · exact p.answered j old u found
      · exact absurd (List.mem_singleton.mp new).symm other

theorem partedSettled (p : Parted lost s r) : r.isSettled = s.isSettled := by simp only [isSettled,p.phase]

theorem partedPossible (p : Parted lost s r) (event : Event) : r.possible event = s.possible event := by
  have stages : ∀ id, r.stage? id = (s.stage? id).map fun stage => if id ∈ lost then stage.robbed else stage := by
    intro id
    simp only [stage?,p.tasks id]
    cases Table.get? id s.tasks with
    | none => rfl
    | some t =>
      simp only [Option.map_some]
      split <;> rfl
  have kinds : ∀ id, r.stage? id = s.stage? id ∨ ∃ stage, s.stage? id = some stage ∧ r.stage? id = some stage.robbed := by
    intro id
    rw [stages]
    cases s.stage? id with
    | none => exact .inl rfl
    | some stage =>
      by_cases member : id ∈ lost
      · exact .inr ⟨stage,rfl,by rw [Option.map_some,if_pos member]⟩
      · exact .inl (by rw [Option.map_some,if_neg member])
  cases event with
  | start call => rfl
  | hold lock => rfl
  | release lock => rfl
  | opened => simp only [possible,p.phase]
  | pass id | acquire id | work id | leave id | cancel id =>
    simp only [possible,p.phase,p.locks,partedSettled p]
    rcases kinds id with same | ⟨stage,here,there⟩
    · rw [same]
    · rw [here,there]
      cases stage <;> rfl

theorem takenParted {next : Session} {event : Event} {effects : Effects} (p : Parted lost s r)
    (taken : Taken host s event next effects) (quiet : ∀ id, event ≠ .work id) :
    ∃ other, Taken host r event other effects ∧ Parted lost next other := by
  cases taken with
  | start call => exact ⟨_,.start call,partedStart p call⟩
  | loaded g starting load =>
    have own : host.load r.settings.grammar = .ok g := by rw [p.settings]; exact load
    have notice : r.readyNotice g = s.readyNotice g := by rw [readyNotice,p.legend]; rfl
    rw [← notice]
    exact ⟨_,.loaded g (p.phase.trans starting) own,
      partedFrame p rfl (congrArg (· + 1) p.loads) p.locks p.store p.loaded⟩
  | broken cause starting load =>
    have own : host.load r.settings.grammar = .error cause := by rw [p.settings]; exact load
    have notice : r.failedNotice cause = s.failedNotice cause := by rw [failedNotice,p.settings]; rfl
    rw [← notice]
    exact ⟨_,.broken cause (p.phase.trans starting) own,
      partedFrame p rfl (congrArg (· + 1) p.loads) p.locks p.store p.loaded⟩
  | prepared id call g found ready free =>
    obtain ⟨fresh,there⟩ := partedOpen p found rfl
    exact ⟨_,.prepared id call g there (p.phase.trans ready) free,partedMove p fresh _⟩
  | refused id call cause found failed =>
    obtain ⟨fresh,there⟩ := partedOpen p found rfl
    exact ⟨_,.refused id call cause there (p.phase.trans failed),partedMove p fresh _⟩
  | enter id call g doc found ready wants =>
    obtain ⟨fresh,there⟩ := partedOpen p found rfl
    refine ⟨_,.enter id call g doc there (p.phase.trans ready) wants,?_⟩
    rw [p.locks]
    exact partedFrame (partedMove p fresh _) p.phase p.loads rfl p.store p.loaded
  | acquire id call doc lock found may =>
    obtain ⟨fresh,there⟩ := partedOpen p found rfl
    exact ⟨_,.acquire id call doc lock there (p.locks ▸ may),partedMove p fresh _⟩
  | work id call g doc lock found ready => exact absurd rfl (quiet id)
  | leave id call doc lock outcome found =>
    have same : r.locks.leave doc lock id (r.store.contains doc) = s.locks.leave doc lock id (s.store.contains doc) := by
      rw [p.locks,p.store]
    have there := p.tasks id
    rw [found,Option.map_some] at there
    have answered : id ∈ lost → ∃ reply, some outcome = some (.ok reply) := fun member => p.answered id member _ found
    have moved := partedPut (t := ⟨call,.finished outcome⟩) p answered
    by_cases member : id ∈ lost
    · rw [if_pos member] at there moved
      exact ⟨_,.leave id call doc lock _ there,partedFrame moved p.phase p.loads same p.store p.loaded⟩
    · rw [if_neg member] at there moved
      exact ⟨_,.leave id call doc lock outcome there,partedFrame moved p.phase p.loads same p.store p.loaded⟩
  | dropped id call found =>
    obtain ⟨fresh,there⟩ := partedOpen p found rfl
    exact ⟨_,.dropped id call there,partedMove p fresh _⟩
  | abandon id call doc lock found =>
    have same : r.locks.leave doc lock id (r.store.contains doc) = s.locks.leave doc lock id (s.store.contains doc) := by
      rw [p.locks,p.store]
    obtain ⟨fresh,there⟩ := partedOpen p found rfl
    exact ⟨_,.abandon id call doc lock there,partedFrame (partedMove p fresh _) p.phase p.loads same p.store p.loaded⟩
  | hold lock =>
    exact ⟨_,.hold lock,partedFrame p p.phase p.loads (congrArg (Locks.hold · lock) p.locks) p.store p.loaded⟩
  | release lock =>
    exact ⟨_,.release lock,partedFrame p p.phase p.loads (congrArg (Locks.release · lock) p.locks) p.store p.loaded⟩

theorem struckWork {call : Call} {g : Query.Grammar} {doc : DocId} {lock : LockId}
    (found : Table.get? id s.tasks = some ⟨call,.inside doc lock⟩) (ready : s.phase = .ready g) :
    s.struckBy host (.work id) = if s.strikes host g call then [id] else [] := by
  simp only [struckBy,found,ready]

-- The text is parsed and kept in either case; a call that meets a capture that turns back is lost on one side.
theorem workParted (p : Parted lost s r) (numbered : Numbered s) {call : Call} {g : Query.Grammar} {doc : DocId}
    {lock : LockId} (found : Table.get? id s.tasks = some ⟨call,.inside doc lock⟩) (ready : s.phase = .ready g) :
    Parted (lost ++ s.struckBy host (.work id)) (s.step host (.work id)).1 (r.step host (.work id)).1 ∧
    (r.step host (.work id)).2.calls = (s.step host (.work id)).2.calls ∧
    (s.struckBy host (.work id) = [] → (r.step host (.work id)).2 = (s.step host (.work id)).2) := by
  obtain ⟨fresh,there⟩ := partedOpen p found rfl
  have stores : (r.serve host g call).1.store = (s.serve host g call).1.store := serveStores p.toOpposed call
  have loaded : (s.serve host g call).1.store.loaded = true := serveLoaded p.loaded call
  simp only [step,workServed host found ready,workServed host there (p.phase.trans ready),struckWork found ready]
  refine ⟨?_,serveCalls p.toOpposed call,?_⟩
  · cases struck : s.strikes host g call with
    | true =>
      obtain ⟨refused,⟨reply,done⟩,_⟩ := serveRefused p.toOpposed struck
      rw [refused,done]
      exact partedFrame (partedStrike p (numbered id _ found) rfl) p.phase p.loads p.locks stores loaded
    | false =>
      rw [serveKept p.toOpposed struck]
      simp only [Bool.false_eq_true,if_false,List.append_nil]
      exact partedFrame (partedMove p fresh _) p.phase p.loads p.locks stores loaded
  · intro none
    cases struck : s.strikes host g call with
    | true => simp [struck] at none
    | false => rw [serveKept p.toOpposed struck]

theorem struckQuiet {event : Event} (quiet : ∀ id, event ≠ .work id) : s.struckBy host event = [] := by
  cases event with
  | work id => exact absurd rfl (quiet id)
  | _ => rfl

theorem struckIdle {event : Event} (cannot : s.possible event = false) : s.struckBy host event = [] := by
  cases event with
  | work id =>
    simp only [struckBy]
    split
    · rename_i found ready
      simp [possible,stageFound found,ready] at cannot
    · rfl
  | _ => rfl

theorem stepParted (p : Parted lost s r) (numbered : Numbered s) (host : Host) (event : Event) :
    Parted (lost ++ s.struckBy host event) (s.step host event).1 (r.step host event).1 ∧
    (r.step host event).2.calls = (s.step host event).2.calls ∧
    (s.struckBy host event = [] → (r.step host event).2 = (s.step host event).2) := by
  cases can : s.possible event with
  | false =>
    rw [stepIdle host can,stepIdle host ((partedPossible p event).trans can),struckIdle can,List.append_nil]
    exact ⟨p,rfl,fun _ => rfl⟩
  | true =>
    by_cases quiet : ∀ id, event ≠ .work id
    · obtain ⟨other,taken,parted⟩ := takenParted p (stepTaken host can) quiet
      rw [takenStep taken,struckQuiet quiet,List.append_nil]
      exact ⟨parted,rfl,fun _ => rfl⟩
    · simp only [not_forall,not_not] at quiet
      obtain ⟨id,rfl⟩ := quiet
      obtain ⟨call,g,doc,lock,found,ready⟩ := workPossible can
      exact workParted p numbered found ready

theorem runParted (p : Parted lost s r) (numbered : Numbered s) (host : Host) (events : List Event) :
    Parted (lost ++ s.struck host events) (s.run host events).1 (r.run host events).1 ∧
    (r.run host events).2.calls = (s.run host events).2.calls ∧
    (s.struck host events = [] → (r.run host events).2 = (s.run host events).2) := by
  induction events generalizing lost s r with
  | nil =>
    rw [struck,List.append_nil]
    exact ⟨p,rfl,fun _ => rfl⟩
  | cons e rest ih =>
    obtain ⟨parted,calls,whole⟩ := stepParted p numbered host e
    obtain ⟨last,more,others⟩ := ih parted (calledNumbered (stepCalled (numberedCalled numbered) host e))
    simp only [run,struck]
    refine ⟨?_,congrArg₂ (· ++ ·) calls more,?_⟩
    · rw [← List.append_assoc]
      exact last
    · intro none
      obtain ⟨first,later⟩ := List.append_eq_nil_iff.mp none
      exact congrArg₂ (· ++ ·) (whole first) (others later)

theorem partedCollect (p : Parted lost s r) (ids : List TaskId) :
    Parted lost (s.collectAll ids).1 (r.collectAll ids).1 := by
  rw [collectAllFrame s,collectAllFrame r]
  constructor
  case toOpposed => exact ⟨p.split,p.settings,p.legend,p.store,p.loaded⟩
  case phase => exact p.phase
  case loads => exact p.loads
  case locks => exact p.locks
  case next => exact p.next
  case early => exact p.early
  case tasks =>
    intro j
    rw [collectAllTasks,collectAllTasks]
    split
    · rfl
    · exact p.tasks j
  case answered =>
    intro j member t found
    rw [collectAllTasks] at found
    split at found
    · contradiction
    · exact p.answered j member t found

theorem partedEvents (p : Parted lost s r) (round : Round) : round.events r = round.events s := by
  cases round with
  | single call => simp only [Round.events,schedule,p.next]
  | hurried call => simp only [Round.events,schedule,partedSettled p,p.next]
  | group calls hold cancels =>
    simp only [Round.events,together,gathering,parting,holding,releasing,chosen,tickets,p.next,p.locks]

theorem partedUsers (p : Parted lost s r) (numbered : Numbered s) (host : Host) (round : Round) :
    round.users host r = round.users host s := by
  cases round with
  | single call => rfl
  | hurried call => rfl
  | group calls hold cancels =>
    have held : ∀ s : Session, (s.callTogether host calls hold cancels).2.usersWhileHeld =
      (hold.bind s.locks.lock?).map fun _ => (s.run host (s.gathering calls hold)).1.locks.users := fun _ => rfl
    have same : r.gathering calls hold = s.gathering calls hold := by
      simp only [gathering,holding,tickets,p.next,p.locks]
    rw [Round.users,Round.users,held,held,same,(runParted p numbered host _).1.locks,p.locks]

end

def shown (s : Session) : Phase × Nat × Document.Store × Locks × Encoder :=
  (s.phase,s.loads,s.store,s.locks,s.encoder)

theorem partedShown {lost : List TaskId} {s r : Session} (p : Parted lost s r) : r.shown = s.shown := by
  simp only [shown,p.phase,p.loads,p.store,p.locks,opposedEncoder p.toOpposed]

structure Divided (host : Host) (s r : Session) (events : List Event) : Prop where
  shown : (r.run host events).1.shown = (s.run host events).1.shown
  calls : (r.run host events).2.calls = (s.run host events).2.calls
  same : ∀ id, id ∉ s.struck host events →
    Table.get? id (r.run host events).1.tasks = Table.get? id (s.run host events).1.tasks
  lost : ∀ id ∈ s.struck host events, ∃ call stage reply,
    Table.get? id (s.run host events).1.tasks = some ⟨call,stage⟩ ∧ stage.outcome? = some (.ok reply) ∧
    Table.get? id (r.run host events).1.tasks = some ⟨call,stage.robbed⟩
  whole : s.struck host events = [] → (r.run host events).2 = (s.run host events).2

structure Alongside (host : Host) (s r : Session) (round : Round) : Prop where
  calls : (round.play host r).2.2.calls = (round.play host s).2.2.calls
  users : round.users host r = round.users host s
  size : (round.play host s).2.1.length = round.calls.length ∧ (round.play host r).2.1.length = round.calls.length
  same : ∀ k, s.nextTask + k ∉ s.struck host (round.events s) →
    (round.play host r).2.1[k]? = (round.play host s).2.1[k]?
  lost : ∀ k < round.calls.length, s.nextTask + k ∈ s.struck host (round.events s) →
    (∃ reply, (round.play host s).2.1[k]? = some (.ok reply)) ∧
    (round.play host r).2.1[k]? = some (.error .lostReport)
  whole : s.struck host (round.events s) = [] → (round.play host r).2 = (round.play host s).2

def InStep (host : Host) : Session → Session → List Round → Prop
  | s,r,[] => r.shown = s.shown
  | s,r,round::rest =>
    r.shown = s.shown ∧ Alongside host s r round ∧ InStep host (round.play host s).1 (round.play host r).1 rest

section
variable {lost : List TaskId} {s r : Session}

theorem outcomeSame {id : TaskId} (p : Parted lost s r) (kept : id ∉ lost) : r.outcome? id = s.outcome? id := by
  have there := p.tasks id
  simp only [if_neg kept,Option.map_id'] at there
  simp only [outcome?,stage?,there]

theorem outcomeLost {id : TaskId} (p : Parted lost s r) (c : Cleared s) (gone : id ∈ lost) {t : Task}
    (found : Table.get? id s.tasks = some t) :
    (∃ reply, s.outcome? id = some (.ok reply)) ∧ r.outcome? id = some (.error .lostReport) := by
  obtain ⟨call,stage⟩ := t
  obtain ⟨reply,done⟩ := p.answered id gone _ found
  have off := c id _ found
  have there := p.tasks id
  rw [found,Option.map_some,if_pos gone] at there
  simp only [outcome?,stageFound found,stageFound there]
  cases stage with
  | finished outcome =>
    cases Option.some.inj done
    exact ⟨⟨reply,rfl⟩,rfl⟩
  | _ => contradiction

theorem alongsideRound (host : Host) (p : Parted lost s r) (numbered : Numbered s) (c : Cleared s) (round : Round) :
    Alongside host s r round := by
  obtain ⟨parted,calls,whole⟩ := runParted p numbered host (round.events s)
  have cleared := eventsCleared c host round
  have called := runCalled (numberedCalled numbered) host (round.events s)
  rw [eventsStarted,List.nil_append] at called
  have old : ∀ k, s.nextTask + k ∉ lost := fun k member =>
    absurd (p.early _ member) (Nat.not_lt.mpr (Nat.le_add_right _ k))
  have same : ∀ k, s.nextTask + k ∉ s.struck host (round.events s) →
      (round.play host r).2.1[k]? = (round.play host s).2.1[k]? := by
    intro k kept
    rcases Nat.lt_or_ge k round.calls.length with inside | outside
    · have there : s.nextTask + k ∉ lost ++ s.struck host (round.events s) := by
        rw [List.mem_append,not_or]
        exact ⟨old k,kept⟩
      rw [playPlace host r inside,playPlace host s inside,partedEvents p,p.next,outcomeSame parted there]
    · rw [List.getElem?_eq_none (playSize host r round ▸ outside),List.getElem?_eq_none (playSize host s round ▸ outside)]
  constructor
  case calls => rwa [playEvents,playEvents,partedEvents p]
  case users => exact partedUsers p numbered host round
  case size => exact ⟨playSize host s round,playSize host r round⟩
  case same => exact same
  case lost =>
    intro k inside member
    have listed := called.listed k
    rw [List.getElem?_eq_getElem inside] at listed
    obtain ⟨t,found,_⟩ := Option.map_eq_some_iff.mp listed
    obtain ⟨⟨reply,done⟩,refused⟩ := outcomeLost parted cleared (List.mem_append_right lost member) found
    rw [playPlace host s inside,playPlace host r inside,partedEvents p,p.next,done,refused]
    exact ⟨⟨reply,rfl⟩,rfl⟩
  case whole =>
    intro none
    refine Prod.ext (List.ext_getElem? fun k => same k ?_) ?_
    · rw [none]
      exact List.not_mem_nil
    · rw [playEvents,playEvents,partedEvents p]
      exact whole none

theorem roundParted (host : Host) (p : Parted lost s r) (numbered : Numbered s) (c : Cleared s) (round : Round) :
    Parted (lost ++ s.struck host (round.events s)) (round.play host s).1 (round.play host r).1 ∧
    Numbered (round.play host s).1 ∧ Cleared (round.play host s).1 := by
  have parted := (runParted p numbered host (round.events s)).1
  have cleared := eventsCleared c host round
  have later := calledNumbered (runCalled (numberedCalled numbered) host (round.events s))
  have kept : ∀ id t, Table.get? id (round.play host s).1.tasks = some t →
      Table.get? id (s.run host (round.events s)).1.tasks = some t := by
    intro id t found
    rw [playEvents,collectAllTasks] at found
    split at found
    · contradiction
    · exact found
  have next : (round.play host s).1.nextTask = (s.run host (round.events s)).1.nextTask := by
    rw [playEvents,collectAllFrame]
  refine ⟨?_,?_,fun id t found => cleared id t (kept id t found)⟩
  · have own : r.tickets round.calls.length = s.tickets round.calls.length := by rw [tickets,p.next]; rfl
    rw [playEvents,playEvents,partedEvents p,own]
    exact partedCollect parted _
  · intro id t found
    rw [next]
    exact later id t (kept id t found)

theorem roundsInStep (host : Host) (p : Parted lost s r) (numbered : Numbered s) (c : Cleared s) (rounds : List Round) :
    InStep host s r rounds := by
  induction rounds generalizing lost s r with
  | nil => exact partedShown p
  | cons round rest ih =>
    obtain ⟨parted,later,cleared⟩ := roundParted host p numbered c round
    exact ⟨partedShown p,alongsideRound host p numbered c round,ih parted later cleared⟩

end

section
variable (host : Host) (settings : Settings) (legend : Legend)

theorem freshParted : Parted [] { settings := settings.withSpans .split, legend }
    { settings := settings.withSpans .refuse, legend } where
  toOpposed := ⟨rfl,rfl,rfl,rfl,rfl⟩
  phase := rfl
  loads := rfl
  locks := rfl
  next := rfl
  tasks := fun _ => rfl
  early := fun _ member => by contradiction
  answered := fun _ member => by contradiction

theorem freshDivided (events : List Event) :
    Divided host { settings := settings.withSpans .split, legend } { settings := settings.withSpans .refuse, legend }
      events := by
  have numbered : Numbered { settings := settings.withSpans .split, legend } := fun id t found => by contradiction
  obtain ⟨parted,calls,whole⟩ := runParted (freshParted settings legend) numbered host events
  have called := runCalled (numberedCalled numbered) host events
  rw [List.nil_append] at parted called
  constructor
  case shown => exact partedShown parted
  case calls => exact calls
  case same =>
    intro id kept
    simpa only [if_neg kept,Option.map_id'] using parted.tasks id
  case lost =>
    intro id gone
    have early := parted.early id gone
    rw [called.next,Nat.zero_add] at early
    have listed := called.listed id
    rw [Nat.zero_add,List.getElem?_eq_getElem early] at listed
    obtain ⟨⟨call,stage⟩,found,_⟩ := Option.map_eq_some_iff.mp listed
    obtain ⟨reply,done⟩ := parted.answered id gone _ found
    have there := parted.tasks id
    rw [found,Option.map_some,if_pos gone] at there
    exact ⟨call,stage,reply,found,done,there⟩
  case whole => exact whole

theorem refusalKeepsState :
    (∀ events, Divided host { settings := settings.withSpans .split, legend }
      { settings := settings.withSpans .refuse, legend } events) ∧
    ∀ rounds, InStep host { settings := settings.withSpans .split, legend }
      { settings := settings.withSpans .refuse, legend } rounds := by
  refine ⟨freshDivided host settings legend,?_⟩
  refine roundsInStep host (freshParted settings legend) ?_ ?_
  · intro id t found
    contradiction
  · intro id t found
    contradiction

end

def turningHost : Host where
  load _ := .ok ⟨"turning",[⟨[],[]⟩]⟩
  engine := { refuses := fun _ => none, run := fun _ _ => [⟨0,[("comment",[⟨0,1,⟨1,0⟩,⟨0,1⟩⟩])]⟩] }

def turningRound : Round := .group [.tokens "a" ['x'],.notify "a" ['y'] [⟨0,1,['y']⟩],.stream "a" ['y']] none []

example :
    struck turningHost { settings := {}, legend := .standard }
      (turningRound.events { settings := {}, legend := .standard }) = [0,2] := by decide +kernel

end Session
end Tinct
