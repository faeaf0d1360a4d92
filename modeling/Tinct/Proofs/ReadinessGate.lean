import Tinct.Proofs.WholeCall

/-! The gate of a session as a machine of its own: a start wakes it, the end of the loading settles it, and nothing
else moves it, least of all a caller that gives up. So the grammar is loaded once. When the loading fails, every
call ends at the gate with its cause, and what lies behind the gate is never reached. -/
namespace Tinct

inductive Phase.Follows : Phase → Phase → Prop where
  | begun : Follows .dormant .starting
  | ready (g : Query.Grammar) : Follows .starting (.ready g)
  | failed (cause : Failure) : Follows .starting (.failed cause)

def Phase.Over (p : Phase) : Prop := (∃ g, p = .ready g) ∨ ∃ cause, p = .failed cause

namespace Session
open Document (Effects)

def gate (host : Host) (settings : Settings) (p : Phase × Nat) : Event → Phase × Nat
  | .start _ => match p with | (.dormant,loads) => (.starting,loads) | _ => p
  | .opened =>
    match p with
    | (.starting,loads) =>
      match host.load settings.grammar with
      | .ok g => (.ready g,loads + 1)
      | .error cause => (.failed cause,loads + 1)
    | _ => p
  | _ => p

theorem takenGate {host : Host} {s next : Session} {event : Event} {effects : Effects}
    (taken : Taken host s event next effects) :
    next.settings = s.settings ∧ (next.phase,next.loads) = gate host s.settings (s.phase,s.loads) event := by
  cases taken with
  | start call => cases phase : s.phase <;> simp [start,gate,phase]
  | loaded g starting load => simp [gate,starting,load]
  | broken cause starting load => simp [gate,starting,load]
  | _ => exact ⟨rfl,rfl⟩

theorem stepGate (host : Host) (s : Session) (event : Event) :
    (s.step host event).1.settings = s.settings ∧
    ((s.step host event).1.phase,(s.step host event).1.loads) = gate host s.settings (s.phase,s.loads) event := by
  cases can : s.possible event with
  | true => exact takenGate (stepTaken host can)
  | false =>
    rw [stepIdle host can]
    refine ⟨rfl,?_⟩
    cases event with
    | start call => contradiction
    | opened => cases phase : s.phase <;> simp_all [possible,gate]
    | _ => rfl

theorem runGate (host : Host) (s : Session) (events : List Event) :
    ((s.run host events).1.phase,(s.run host events).1.loads) =
      events.foldl (gate host s.settings) (s.phase,s.loads) := by
  induction events generalizing s with
  | nil => rfl
  | cons e rest ih =>
    obtain ⟨settings,moved⟩ := stepGate host s e
    rw [List.foldl_cons,← moved,← settings]
    exact ih (s.step host e).1

theorem gateFollows (host : Host) (settings : Settings) (p : Phase × Nat) (e : Event) :
    (gate host settings p e).1 = p.1 ∨ Phase.Follows p.1 (gate host settings p e).1 := by
  obtain ⟨phase,loads⟩ := p
  cases e with
  | start call => cases phase <;> first | exact .inr .begun | exact .inl rfl
  | opened =>
    cases phase with
    | starting =>
      simp only [gate]
      cases host.load settings.grammar with
      | ok g => exact .inr (.ready g)
      | error cause => exact .inr (.failed cause)
    | _ => exact .inl rfl
  | _ => exact .inl rfl

variable (host : Host) (settings : Settings)

theorem gateOver {p : Phase × Nat} (past : p.1.Over) (events : List Event) :
    events.foldl (gate host settings) p = p := by
  induction events with
  | nil => rfl
  | cons e rest ih =>
    have still : gate host settings p e = p := by
      obtain ⟨phase,loads⟩ := p
      rcases past with ⟨g,rfl⟩ | ⟨cause,rfl⟩ <;> cases e <;> rfl
    rw [List.foldl_cons,still,ih]

theorem gateAwake {p : Phase × Nat} (awake : p.1 ≠ .dormant) (events : List Event) :
    (events.foldl (gate host settings) p).1 ≠ .dormant := by
  induction events generalizing p with
  | nil => exact awake
  | cons e rest ih =>
    apply ih
    rcases gateFollows host settings p e with same | follows
    · rwa [same]
    · intro asleep
      rw [asleep] at follows
      generalize p.1 = before at follows
      cases follows

theorem gateStarted (p : Phase × Nat) (call : Call) : (gate host settings p (.start call)).1 ≠ .dormant := by
  obtain ⟨phase,loads⟩ := p
  cases phase <;> exact Phase.noConfusion

theorem gateOpened {p : Phase × Nat} (awake : p.1 ≠ .dormant) : (gate host settings p .opened).1.Over := by
  obtain ⟨phase,loads⟩ := p
  cases phase with
  | dormant => contradiction
  | starting =>
    simp only [gate]
    cases host.load settings.grammar with
    | ok g => exact .inl ⟨g,rfl⟩
    | error cause => exact .inr ⟨cause,rfl⟩
  | ready g => exact .inl ⟨g,rfl⟩
  | failed cause => exact .inr ⟨cause,rfl⟩

theorem gateSplit (p : Phase × Nat) (before middle after : List Event) (call : Call) :
    ((before ++ .start call::(middle ++ .opened::after)).foldl (gate host settings) p).1.Over := by
  rw [List.foldl_append,List.foldl_cons,List.foldl_append,List.foldl_cons]
  have awake := gateAwake host settings (gateStarted host settings (before.foldl (gate host settings) p) call) middle
  have past := gateOpened host settings awake
  rw [gateOver host settings past]
  exact past

theorem startingNotOver : ¬ Phase.Over .starting := by
  rintro (⟨_,_⟩ | ⟨_,_⟩) <;> contradiction

-- The loading ends only at an `opened`, and only after a start: both are looked for from the front of the run.
theorem gateSplits {p : Phase × Nat} (events : List Event) (still : ¬ p.1.Over)
    (past : (events.foldl (gate host settings) p).1.Over) :
    (p.1 = .starting → ∃ middle after, events = middle ++ .opened::after) ∧
    (p.1 = .dormant → ∃ before call middle after, events = before ++ .start call::(middle ++ .opened::after)) := by
  induction events generalizing p with
  | nil => exact absurd past still
  | cons e rest ih =>
    obtain ⟨phase,loads⟩ := p
    rw [List.foldl_cons] at past
    constructor
    · rintro rfl
      by_cases opens : e = .opened
      · exact ⟨[],rest,by rw [opens]; rfl⟩
      · have same : gate host settings (.starting,loads) e = (.starting,loads) := by
          cases e <;> first | rfl | contradiction
        rw [same] at past
        obtain ⟨middle,after,split⟩ := (ih still past).1 rfl
        exact ⟨e::middle,after,by rw [split]; rfl⟩
    · rintro rfl
      cases e with
      | start call =>
        obtain ⟨middle,after,split⟩ := (ih startingNotOver past).1 rfl
        exact ⟨[],call,middle,after,by rw [split]; rfl⟩
      | _ =>
        obtain ⟨before,call,middle,after,split⟩ := (ih still past).2 rfl
        exact ⟨_::before,call,middle,after,by rw [split]; rfl⟩

def Counted (p : Phase × Nat) : Prop := p.1.Over ∧ p.2 = 1 ∨ ¬ p.1.Over ∧ p.2 = 0

theorem dormantCounted : Counted (.dormant,0) := .inr ⟨by rintro (⟨_,_⟩ | ⟨_,_⟩) <;> contradiction,rfl⟩

theorem gateCounted {p : Phase × Nat} (counted : Counted p) (events : List Event) :
    Counted (events.foldl (gate host settings) p) := by
  induction events generalizing p with
  | nil => exact counted
  | cons e rest ih =>
    apply ih
    rcases counted with ⟨past,once⟩ | ⟨still,never⟩
    · have same := gateOver host settings past [e]
      rw [List.foldl_cons,List.foldl_nil] at same
      rw [same]
      exact .inl ⟨past,once⟩
    · obtain ⟨phase,loads⟩ := p
      cases e with
      | start call =>
        cases phase with
        | dormant => exact .inr ⟨startingNotOver,never⟩
        | _ => exact .inr ⟨still,never⟩
      | opened =>
        cases phase with
        | starting =>
          refine .inl ⟨gateOpened host settings Phase.noConfusion,?_⟩
          simp only [gate]
          cases host.load settings.grammar <;> exact congrArg Nat.succ never
        | _ => exact .inr ⟨still,never⟩
      | _ => exact .inr ⟨still,never⟩

def Event.isCancel : Event → Bool
  | .cancel _ => true
  | _ => false

theorem gateCancels (p : Phase × Nat) (events : List Event) :
    (events.filter fun e => !e.isCancel).foldl (gate host settings) p = events.foldl (gate host settings) p := by
  induction events generalizing p with
  | nil => rfl
  | cons e rest ih =>
    rw [List.filter_cons]
    cases e <;> exact ih _

structure Barred (cause : Failure) (history : List Event) (s : Session) : Prop where
  closed : ∀ g, s.phase ≠ .ready g
  same : ∀ other, s.phase = .failed other → other = cause
  store : s.store = {}
  locks : s.locks = { held := s.locks.held }
  tasks : ∀ id t, Table.get? id s.tasks = some t →
    t.stage = .atGate ∨ t.stage = .finished (.error cause) ∨
      t.stage = .finished (.error .cancelled) ∧ .cancel id ∈ history

theorem barredLater {cause : Failure} {history : List Event} {s : Session} (b : Barred cause history s) (event : Event) :
    Barred cause (history ++ [event]) s :=
  { b with
    tasks := fun id t found => by
      rcases b.tasks id t found with gate | raised | ⟨stage,member⟩
      · exact .inl gate
      · exact .inr (.inl raised)
      · exact .inr (.inr ⟨stage,List.mem_append_left _ member⟩) }

theorem barredPut {cause : Failure} {history : List Event} {s : Session} (b : Barred cause history s) (id : TaskId)
    (task : Task)
    (stage : task.stage = .atGate ∨ task.stage = .finished (.error cause) ∨
      task.stage = .finished (.error .cancelled) ∧ .cancel id ∈ history) :
    Barred cause history { s with tasks := Table.put id task s.tasks } :=
  { b with
    tasks := fun other t found => by
      rw [Table.lookupPut] at found
      split at found
      · rename_i same
        cases Option.some.inj found
        exact same ▸ stage
      · exact b.tasks other t found }

-- Nobody ever stands at a lock, so the steps behind the gate are not there to take.
theorem takenBarred {host : Host} {cause : Failure} {history : List Event} {s next : Session} {event : Event}
    {effects : Effects} (load : host.load s.settings.grammar = .error cause) (b : Barred cause history s)
    (taken : Taken host s event next effects) : Barred cause (history ++ [event]) next ∧ effects.calls = [] := by
  have later := barredLater b event
  cases taken with
  | start call =>
    have put := barredPut later s.nextTask { call } (.inl rfl)
    refine ⟨⟨?_,?_,put.store,put.locks,put.tasks⟩,rfl⟩
    · intro g
      have closed := b.closed g
      cases phase : s.phase <;> simp_all [start]
    · intro other
      have same := b.same other
      cases phase : s.phase <;> simp_all [start]
  | loaded g starting failed =>
    rw [load] at failed
    contradiction
  | broken other starting failed =>
    cases Except.error.inj (load.symm.trans failed)
    refine ⟨⟨fun g => Phase.noConfusion,?_,later.store,later.locks,later.tasks⟩,rfl⟩
    intro other same
    cases same
    rfl
  | prepared id call g found ready free => exact absurd ready (b.closed g)
  | refused id call other found failed =>
    cases b.same other failed
    exact ⟨barredPut later id _ (.inr (.inl rfl)),rfl⟩
  | enter id call g doc found ready wants => exact absurd ready (b.closed g)
  | acquire id call doc lock found may => simpa using b.tasks id _ found
  | work id call g doc lock found ready => simpa using b.tasks id _ found
  | leave id call doc lock outcome found => simpa using b.tasks id _ found
  | dropped id call found => exact ⟨barredPut later id _ (.inr (.inr ⟨rfl,by simp⟩)),rfl⟩
  | abandon id call doc lock found => simpa using b.tasks id _ found
  | hold lock =>
    refine ⟨⟨later.closed,later.same,later.store,?_,later.tasks⟩,rfl⟩
    dsimp only
    rw [b.locks]
    rfl
  | release lock =>
    refine ⟨⟨later.closed,later.same,later.store,?_,later.tasks⟩,rfl⟩
    dsimp only
    rw [b.locks]
    rfl

theorem runBarred {host : Host} {cause : Failure} {history : List Event} {s : Session}
    (load : host.load s.settings.grammar = .error cause) (b : Barred cause history s) (events : List Event) :
    Barred cause (history ++ events) (s.run host events).1 ∧ (s.run host events).2.calls = [] := by
  induction events generalizing history s with
  | nil => exact ⟨by simpa [run] using b,rfl⟩
  | cons e rest ih =>
    have settings := (stepGate host s e).1
    have stepped : Barred cause (history ++ [e]) (s.step host e).1 ∧ (s.step host e).2.calls = [] := by
      cases can : s.possible e with
      | true => exact takenBarred load b (stepTaken host can)
      | false =>
        rw [stepIdle host can]
        exact ⟨barredLater b e,rfl⟩
    obtain ⟨barred,calls⟩ := ih (settings ▸ load) stepped.1
    rw [List.append_assoc] at barred
    refine ⟨barred,?_⟩
    change (s.step host e).2.calls ++ ((s.step host e).1.run host rest).2.calls = []
    rw [stepped.2,calls]
    rfl

theorem settledOver (s : Session) : s.isSettled = true ↔ s.phase.Over := by
  cases phase : s.phase <;> simp [isSettled,phase,Phase.Over]

theorem stepFollows (host : Host) (s : Session) (e : Event) :
    (s.step host e).1.phase = s.phase ∨ Phase.Follows s.phase (s.step host e).1.phase := by
  have moved := congrArg Prod.fst (stepGate host s e).2
  dsimp only at moved
  rw [moved]
  exact gateFollows host s.settings (s.phase,s.loads) e

theorem runSettled (host : Host) {s : Session} (settled : s.isSettled = true) (more : List Event) :
    (s.run host more).1.phase = s.phase ∧ (s.run host more).1.loads = s.loads := by
  have folded := runGate host s more
  rw [gateOver host s.settings ((settledOver s).mp settled)] at folded
  exact Prod.mk.inj folded

section
variable (host : Host) (settings : Settings) (legend : Legend) (events : List Event)

theorem freshLoads :
    (run host { settings, legend } events).1.loads =
      if (run host { settings, legend } events).1.isSettled then 1 else 0 := by
  have counted := gateCounted host settings dormantCounted events
  rw [← runGate host { settings, legend } events] at counted
  rcases counted with ⟨past,once⟩ | ⟨still,never⟩
  · rw [if_pos ((settledOver _).mpr past)]
    exact once
  · rw [if_neg fun settled => still ((settledOver _).mp settled)]
    exact never

theorem freshOpens :
    (run host { settings, legend } events).1.isSettled = true ↔
      ∃ before call middle after, events = before ++ .start call::(middle ++ .opened::after) := by
  have folded := congrArg Prod.fst (runGate host { settings, legend } events)
  dsimp only at folded
  rw [settledOver,folded]
  constructor
  · intro past
    exact (gateSplits host settings events (by rintro (⟨_,_⟩ | ⟨_,_⟩) <;> contradiction) past).2 rfl
  · rintro ⟨before,call,middle,after,rfl⟩
    exact gateSplit host settings (.dormant,0) before middle after call

theorem freshCancels :
    (run host { settings, legend } (events.filter fun e => !e.isCancel)).1.phase =
      (run host { settings, legend } events).1.phase ∧
    (run host { settings, legend } (events.filter fun e => !e.isCancel)).1.loads =
      (run host { settings, legend } events).1.loads := by
  have fewer := runGate host { settings, legend } (events.filter fun e => !e.isCancel)
  rw [gateCancels,← runGate host { settings, legend } events] at fewer
  exact Prod.mk.inj fewer

theorem freshFailed {cause : Failure} (failed : (run host { settings, legend } events).1.phase = .failed cause) :
    host.load settings.grammar = .error cause := by
  have frame : Framed host { settings, legend } (run host { settings, legend } events).1 :=
    reachedFramed (reachedRun .first events)
  rcases frame.phase with phase | phase | phase
  · rw [phase] at failed
    contradiction
  · rw [phase] at failed
    contradiction
  · rw [phase] at failed
    simp only [opening] at failed
    cases load : host.load settings.grammar with
    | ok g =>
      rw [load] at failed
      contradiction
    | error other =>
      rw [load] at failed
      cases failed
      rfl

theorem freshBarred {cause : Failure} (load : host.load settings.grammar = .error cause) :
    Barred cause events (run host { settings, legend } events).1 ∧
    (run host { settings, legend } events).2.calls = [] := by
  have first : Barred cause [] { settings, legend } :=
    ⟨fun _ => Phase.noConfusion,fun _ => Phase.noConfusion,rfl,rfl,fun _ _ => by rintro ⟨⟩⟩
  exact runBarred (s := { settings, legend }) load first events

theorem freshCalled (id : TaskId) :
    (Table.get? id (run host { settings, legend } events).1.tasks).map Task.call = (started events)[id]? := by
  have first : Called 0 [] { settings, legend } := ⟨rfl,fun _ => rfl⟩
  simpa using (runCalled first host events).listed id

end

theorem callRefused {host : Host} {s : Session} {cause : Failure} (failed : (s.opening host).1 = .failed cause)
    (call : Call) :
    (s.call host call).2.1 = .error cause ∧ (s.call host call).1.store = s.store ∧
    (s.call host call).1.locks = s.locks ∧ (s.call host call).2.2.calls = [] := by
  obtain ⟨loads,same,_⟩ := callStopped (refusedPass failed call)
  rw [same]
  refine ⟨rfl,rfl,rfl,?_⟩
  unfold opening
  split
  · split <;> rfl
  · split <;> rfl
  · rfl
  · rfl

structure Gated (host : Host) (settings : Settings) (legend : Legend) (events : List Event) (s : Session)
    (effects : Effects) : Prop where
  moves : ∀ e, (s.step host e).1.phase = s.phase ∨ Phase.Follows s.phase (s.step host e).1.phase
  stays : s.isSettled = true → ∀ more, (s.run host more).1.phase = s.phase ∧ (s.run host more).1.loads = s.loads
  loads : s.loads = if s.isSettled then 1 else 0
  opens : s.isSettled = true ↔
    ∃ before call middle after, events = before ++ .start call::(middle ++ .opened::after)
  cancels : (run host { settings, legend } (events.filter fun e => !e.isCancel)).1.phase = s.phase ∧
    (run host { settings, legend } (events.filter fun e => !e.isCancel)).1.loads = s.loads
  failed : ∀ cause, s.phase = .failed cause → host.load settings.grammar = .error cause
  raised : ∀ cause, host.load settings.grammar = .error cause →
    ∀ id call, (started events)[id]? = some call → ∃ stage, Table.get? id s.tasks = some ⟨call,stage⟩ ∧
      (stage = .finished (.error cause) ∨ stage = .finished (.error .cancelled) ∧ .cancel id ∈ events ∨
        stage = .atGate ∧ (s.isSettled = true → (s.step host (.pass id)).1.outcome? id = some (.error cause)))
  untouched : ∀ cause, host.load settings.grammar = .error cause →
    s.store = {} ∧ s.locks = { held := s.locks.held } ∧ effects.calls = []

theorem refusedOutcome {host : Host} {s : Session} {id : TaskId} {call : Call} {cause : Failure}
    (found : Table.get? id s.tasks = some ⟨call,.atGate⟩) (failed : s.phase = .failed cause) :
    (s.step host (.pass id)).1.outcome? id = some (.error cause) := by
  simp only [step,pass,found,failed,setStage,outcome?,stage?,Table.getPut,Option.map_some]

theorem freshRaised {host : Host} {settings : Settings} {cause : Failure}
    (load : host.load settings.grammar = .error cause) (legend : Legend) (events : List Event) {id : TaskId} {call : Call}
    (listed : (started events)[id]? = some call) :
    ∃ stage, Table.get? id (run host { settings, legend } events).1.tasks = some ⟨call,stage⟩ ∧
      (stage = .finished (.error cause) ∨ stage = .finished (.error .cancelled) ∧ .cancel id ∈ events ∨
        stage = .atGate ∧ ((run host { settings, legend } events).1.isSettled = true →
          ((run host { settings, legend } events).1.step host (.pass id)).1.outcome? id = some (.error cause))) := by
  have barred := (freshBarred host settings legend events load).1
  have called := freshCalled host settings legend events id
  rw [listed] at called
  obtain ⟨⟨_,stage⟩,found,rfl⟩ := Option.map_eq_some_iff.mp called
  refine ⟨stage,found,?_⟩
  rcases barred.tasks id _ found with gate | raised | given
  · refine .inr (.inr ⟨gate,?_⟩)
    intro settled
    cases gate
    rcases (settledOver _).mp settled with ⟨g,ready⟩ | ⟨other,failed⟩
    · exact absurd ready (barred.closed g)
    · cases barred.same other failed
      exact refusedOutcome found failed
  · exact .inl raised
  · exact .inr (.inl given)

theorem readinessGate (host : Host) (settings : Settings) (legend : Legend) :
    (∀ events, Gated host settings legend events (run host { settings, legend } events).1
      (run host { settings, legend } events).2) ∧
    ∀ s, Reached host { settings, legend } s → ∀ cause, host.load settings.grammar = .error cause → ∀ c,
      (s.call host c).2.1 = .error cause ∧ (s.call host c).1.store = s.store ∧
      (s.call host c).1.locks = s.locks ∧ (s.call host c).2.2.calls = [] := by
  refine ⟨?_,?_⟩
  · intro events
    exact {
      moves := stepFollows host _
      stays := runSettled host
      loads := freshLoads host settings legend events
      opens := freshOpens host settings legend events
      cancels := freshCancels host settings legend events
      failed := fun cause => freshFailed host settings legend events
      raised := fun cause load id call => freshRaised load legend events
      untouched := fun cause load => by
        obtain ⟨barred,calls⟩ := freshBarred host settings legend events load
        exact ⟨barred.store,barred.locks,calls⟩ }
  · intro s reached cause load c
    have failed : (opening host { settings, legend }).1 = .failed cause := by simp only [opening,load]
    exact callRefused ((framedOpening rfl (reachedFramed reached)).trans failed) c

-- A grammar that is not installed; one caller gives up before that is known, one passes and one comes later.
def brokenHost : Host where
  load _ := .error (.fault (.packageMissing "yaml" "boom"))
  engine := { refuses := fun _ => none, run := fun _ _ => [] }

def brokenEvents : List Event :=
  [.start (.tokens "a" ['x']),.start .prepare,.cancel 0,.opened,.pass 1,.start (.close "b")]

theorem brokenGate :
    (∃ stage, Table.get? 2 (run brokenHost { settings := {}, legend := .standard } brokenEvents).1.tasks =
        some ⟨.close "b",stage⟩ ∧
      (stage = .finished (.error (.fault (.packageMissing "yaml" "boom"))) ∨
        stage = .finished (.error .cancelled) ∧ .cancel 2 ∈ brokenEvents ∨
        stage = .atGate ∧ ((run brokenHost { settings := {}, legend := .standard } brokenEvents).1.isSettled = true →
          ((run brokenHost { settings := {}, legend := .standard } brokenEvents).1.step brokenHost (.pass 2)).1.outcome? 2 =
            some (.error (.fault (.packageMissing "yaml" "boom")))))) ∧
    ((run brokenHost { settings := {}, legend := .standard } brokenEvents).1.call brokenHost (.stream "b" ['y'])).2.1 =
      .error (.fault (.packageMissing "yaml" "boom")) := by
  obtain ⟨gated,later⟩ := readinessGate brokenHost {} .standard
  refine ⟨(gated brokenEvents).raised _ rfl 2 (.close "b") rfl,?_⟩
  exact (later _ (reachedRun .first brokenEvents) _ rfl (.stream "b" ['y'])).1

end Session
end Tinct
