import Tinct.Proofs.CancelledCalls

/-! Calls that are started together. They pass the gate in the order in which they were started, and when the host lets
go of the lock nobody who was not cancelled is left waiting: a group always ends with the session at rest. -/
namespace Tinct

def Stage.still : Stage → Bool
  | .waiting _ _ | .finished _ => true
  | .atGate | .inside _ _ | .leaving _ _ _ => false

namespace Session
open Document (Effects)

theorem turnsAppend (host : Host) (s : Session) (events more : List Event) :
    turns host s (events ++ more) = turns host s events ++ turns host (s.run host events).1 more := by
  induction events generalizing s with
  | nil => rfl
  | cons e rest ih => simp only [turns,List.cons_append,ih,List.append_assoc,run]

theorem readyRun (host : Host) {s : Session} {g : Query.Grammar} (ready : s.phase = .ready g) (events : List Event) :
    (s.run host events).1.phase = .ready g := by
  induction events generalizing s with
  | nil => exact ready
  | cons e rest ih => exact ih (readyStep host ready e)

structure Gathered (lobby : List TaskId) (s : Session) : Prop where
  here : ∀ id ∈ lobby, ∃ call, Table.get? id s.tasks = some ⟨call,.atGate⟩
  rest : ∀ id t, id ∉ lobby → Table.get? id s.tasks = some t → t.stage.still = true

section
variable {host : Host} {lobby : List TaskId} {s next : Session} {g : Query.Grammar} {id : TaskId} {call : Call}
  {stage : Stage}

theorem restGathered (rests : AtRest s) : Gathered [] s where
  here := by
    intro id member
    contradiction
  rest := by
    intro id t _ found
    obtain ⟨outcome,finished⟩ := rests.finished id t found
    rw [finished]
    rfl

theorem gatheredSame (w : Gathered lobby s) (tasks : next.tasks = s.tasks) : Gathered lobby next :=
  ⟨tasks ▸ w.here,tasks ▸ w.rest⟩

theorem gatheredStart (o : Orderly s) (w : Gathered lobby s) (call : Call) :
    Gathered (lobby ++ [s.nextTask]) (s.start call) where
  here := by
    intro id member
    rcases List.mem_append.mp member with before | last
    · obtain ⟨old,found⟩ := w.here id before
      exact ⟨old,startKept o call found⟩
    · rw [List.mem_singleton.mp last]
      exact ⟨call,Table.getPut ..⟩
  rest := by
    intro id t outside found
    have different : s.nextTask ≠ id := by
      rintro rfl
      simp at outside
    rw [start,Table.lookupPut,if_neg different] at found
    exact w.rest id t (fun member => outside (List.mem_append_left _ member)) found

theorem gatheredStarts (host : Host) (o : Orderly s) (w : Gathered lobby s) (calls : List Call) :
    Gathered (lobby ++ (List.range calls.length).map (s.nextTask + ·)) (s.run host (calls.map Event.start)).1 := by
  induction calls generalizing s lobby with
  | nil =>
    rw [List.length_nil,List.range_zero,List.map_nil,List.append_nil]
    exact w
  | cons call rest ih =>
    have later := ih (runOrderly o host [.start call]) (gatheredStart o w call)
    have numbers : (List.range (call::rest).length).map (s.nextTask + ·) =
        [s.nextTask] ++ (List.range rest.length).map (s.nextTask + 1 + ·) := by
      simp [List.range_succ_eq_map,Nat.add_assoc,Nat.add_comm 1]
    rw [numbers,← List.append_assoc]
    exact later

theorem gatheredPut {rest : List TaskId} (w : Gathered lobby s) (fewer : ∀ j, j ∈ rest ↔ j ∈ lobby ∧ j ≠ id)
    (still : stage.still = true) (tasks : next.tasks = Table.put id ⟨call,stage⟩ s.tasks) : Gathered rest next where
  here := by
    intro j member
    obtain ⟨inside,different⟩ := (fewer j).mp member
    rw [tasks,Table.lookupPut,if_neg different.symm]
    exact w.here j inside
  rest := by
    intro j t outside found
    rw [tasks,Table.lookupPut] at found
    split at found
    · cases Option.some.inj found
      exact still
    · rename_i different
      apply w.rest j t _ found
      intro member
      exact outside ((fewer j).mpr ⟨member,fun same => different same.symm⟩)

theorem gatheredThrough {rest : List TaskId} (w : Gathered (id::rest) s) (once : id ∉ rest) (ready : s.phase = .ready g) :
    Gathered rest (s.run host (through id)).1 := by
  obtain ⟨call,found⟩ := w.here id List.mem_cons_self
  have fewer : ∀ j, j ∈ rest ↔ j ∈ id::rest ∧ j ≠ id := by
    intro j
    by_cases same : j = id
    · simp [same,once]
    · simp [same]
  cases wants : call.doc? with
  | none =>
    have passed : s.pass id = { s with tasks := Table.put id ⟨call,.finished (.ok .done)⟩ s.tasks } := by
      simp only [pass,found,ready,wants,setStage]
    rw [throughStopped host passed]
    exact gatheredPut w fewer rfl rfl
  | some doc =>
    cases may : (s.locks.enter doc id).1.mayHold (s.locks.enter doc id).2 id with
    | true =>
      rw [throughServed host found ready wants may]
      exact gatheredPut w fewer rfl rfl
    | false =>
      rw [throughBarred host found ready wants may]
      exact gatheredPut w fewer rfl rfl

theorem gatheredThroughs (host : Host) {ids : List TaskId} (w : Gathered ids s) (once : ids.Nodup) (ready : s.phase = .ready g) :
    Gathered [] (s.run host (ids.flatMap through)).1 := by
  induction ids generalizing s with
  | nil => exact w
  | cons id rest ih =>
    obtain ⟨fresh,once⟩ := List.nodup_cons.mp once
    rw [List.flatMap_cons,runAppend]
    exact ih (gatheredThrough w fresh ready) once (readyRun host ready (through id))

theorem gatheredCancel (host : Host) (w : Gathered [] s) (id : TaskId) : Gathered [] (s.step host (.cancel id)).1 := by
  cases can : s.possible (.cancel id) with
  | false =>
    rw [stepIdle host can]
    exact w
  | true =>
    have taken := stepTaken host can
    generalize s.step host (.cancel id) = result at taken ⊢
    obtain ⟨next,effects⟩ := result
    dsimp only at taken ⊢
    cases taken with
    | dropped id call found => exact gatheredPut w (by simp) rfl rfl
    | abandon id call doc lock found => exact gatheredPut w (by simp) rfl rfl

theorem gatheredCancels (host : Host) (w : Gathered [] s) (ids : List TaskId) :
    Gathered [] (s.run host (ids.map Event.cancel)).1 := by
  induction ids generalizing s with
  | nil => exact w
  | cons id rest ih => exact ih (gatheredCancel host w id)

theorem gatheredUnserved (o : Orderly s) (w : Gathered [] s) (doc : DocId) :
    ∀ id ∈ s.locks.line doc, s.unserved id = true := by
  intro id member
  obtain ⟨lock,there⟩ := (o.booked.memLine id doc).mp member
  obtain ⟨stage,at_,place⟩ := Option.bind_eq_some_iff.mp there
  obtain ⟨call,found⟩ := taskAt at_
  have still := w.rest id _ (by simp) found
  cases stage with
  | waiting doc lock => simp [unserved,at_,Stage.outcome?]
  | _ => contradiction

def Event.hosts : Event → Bool
  | .hold _ | .release _ => true
  | _ => false

theorem heldStep (host : Host) {event : Event} (own : event.hosts = false) :
    (s.step host event).1.locks.held = s.locks.held := by
  cases can : s.possible event with
  | false => rw [stepIdle host can]
  | true =>
    have taken := stepTaken host can
    generalize s.step host event = result at taken ⊢
    obtain ⟨next,effects⟩ := result
    dsimp only at taken ⊢
    cases taken with
    | enter id call g doc found ready wants => exact Locks.enterHeld ..
    | leave id call doc lock outcome found => exact Locks.leaveHeld ..
    | abandon id call doc lock found => exact Locks.leaveHeld ..
    | hold lock => contradiction
    | release lock => contradiction
    | _ => rfl

theorem heldRun (host : Host) {events : List Event} (own : ∀ e ∈ events, e.hosts = false) :
    (s.run host events).1.locks.held = s.locks.held := by
  induction events generalizing s with
  | nil => rfl
  | cons e rest ih =>
    have first := heldStep (s := s) host (own e List.mem_cons_self)
    have others := ih (s := (s.step host e).1) fun later member => own later (List.mem_cons_of_mem _ member)
    exact others.trans first

theorem throughWaited {doc : DocId} {lock : LockId} (host : Host)
    (found : Table.get? id s.tasks = some ⟨call,.waiting doc lock⟩) (ready : s.phase = .ready g)
    (may : s.locks.mayHold lock id = true) :
    ∃ store outcome, (s.run host (through id)).1 =
      { s with
        store
        locks := s.locks.leave doc lock id (Document.Store.contains store doc)
        tasks := Table.put id ⟨call,.finished outcome⟩ s.tasks } := by
  have passed : s.pass id = s := by simp only [pass,found]
  have acquired : s.acquire id = { s with tasks := Table.put id ⟨call,.inside doc lock⟩ s.tasks } := by
    simp only [acquire,stageFound found,may,if_true,setStage,found]
  have worked := workServed (s := { s with tasks := Table.put id ⟨call,.inside doc lock⟩ s.tasks }) host
    (Table.getPut ..) ready
  simp only [through,run,step,passed,acquired,worked]
  simp only [leave,stage?,Table.putPut,Table.getPut,Option.map_some,leaveLock,setStage]
  exact ⟨_,_,rfl⟩

theorem throughPast (host : Host) (past : s.stage? id = none ∨ ∃ outcome, s.stage? id = some (.finished outcome)) :
    s.run host (through id) = (s,{}) := by
  have idle : ∀ e ∈ through id, s.possible e = false := by
    intro e member
    simp only [through,List.mem_cons,List.not_mem_nil,or_false] at member
    rcases past with absent | ⟨outcome,finished⟩
    · rcases member with rfl | rfl | rfl | rfl <;> simp only [possible,absent]
    · rcases member with rfl | rfl | rfl | rfl <;> simp only [possible,finished]
  simp only [through,List.forall_mem_cons] at idle
  simp [through,run,stepIdle host,idle]

end

structure Draining (g : Query.Grammar) (ids : List TaskId) (s : Session) : Prop where
  orderly : Orderly s
  ready : s.phase = .ready g
  free : s.locks.held = []
  sorted : ∀ doc, (s.locks.line doc).Pairwise (· < ·)
  tasks : ∀ id t, Table.get? id s.tasks = some t →
    (∃ outcome, t.stage = .finished outcome) ∨ id ∈ ids ∧ ∃ doc lock, t.stage = .waiting doc lock

section
variable {g : Query.Grammar} {ids rest : List TaskId} {id : TaskId} {s : Session}

theorem leastFirst {line : List TaskId} (sorted : line.Pairwise (· < ·)) (member : id ∈ line)
    (least : ∀ j ∈ line, id ≤ j) : line.head? = some id := by
  cases line with
  | nil => contradiction
  | cons first others =>
    rcases List.mem_cons.mp member with same | later
    · rw [same]
      rfl
    · have before := (List.pairwise_cons.mp sorted).1 id later
      exact absurd (least first List.mem_cons_self) (Nat.not_le_of_lt before)

theorem drainFirst (d : Draining g (id::rest) s) (order : ∀ j ∈ rest, id < j) {doc : DocId} {lock : LockId}
    (there : s.place? id = some (doc,lock)) : (s.locks.line doc).head? = some id := by
  refine leastFirst (d.sorted doc) ((d.orderly.booked.memLine id doc).mpr ⟨lock,there⟩) ?_
  intro j member
  obtain ⟨other,place⟩ := (d.orderly.booked.memLine j doc).mp member
  obtain ⟨stage,at_,place⟩ := Option.bind_eq_some_iff.mp place
  obtain ⟨call,found⟩ := taskAt at_
  rcases d.tasks j _ found with ⟨outcome,finished⟩ | ⟨listed,_⟩
  · dsimp only at finished
    rw [finished] at place
    contradiction
  · rcases List.mem_cons.mp listed with same | later
    · exact Nat.le_of_eq same.symm
    · exact Nat.le_of_lt (order j later)

theorem drainOne (host : Host) (d : Draining g (id::rest) s) (order : ∀ j ∈ rest, id < j) :
    Draining g rest (s.run host (through id)).1 := by
  have settled : (∃ outcome, s.stage? id = some (.finished outcome)) ∨ s.stage? id = none →
      Draining g rest (s.run host (through id)).1 := by
    intro past
    rw [throughPast host past.symm]
    refine { d with tasks := ?_ }
    intro j t found
    rcases d.tasks j t found with finished | ⟨listed,doc,lock,waits⟩
    · exact .inl finished
    · rcases List.mem_cons.mp listed with same | later
      · rw [same] at found
        rcases past with ⟨outcome,finished⟩ | absent
        · rw [stageFound found,waits] at finished
          cases Option.some.inj finished
        · rw [stageFound found] at absent
          contradiction
      · exact .inr ⟨later,doc,lock,waits⟩
  cases found : Table.get? id s.tasks with
  | none => exact settled (.inr (by simp only [stage?,found,Option.map_none]))
  | some t =>
    rcases d.tasks id t found with ⟨outcome,finished⟩ | ⟨_,doc,lock,waits⟩
    · exact settled (.inl ⟨outcome,(stageFound found).trans (congrArg some finished)⟩)
    · obtain ⟨call,stage⟩ := t
      cases waits
      have place : s.place? id = some (doc,lock) := placeFound found
      have may := (d.orderly.booked.lineMayHold place).mpr ⟨drainFirst d order place,by simp [d.free]⟩
      have orderly := runOrderly d.orderly host (through id)
      obtain ⟨store,outcome,ran⟩ := throughWaited host found d.ready may
      rw [ran] at orderly ⊢
      refine ⟨orderly,d.ready,(Locks.leaveHeld ..).trans d.free,?_,?_⟩
      · intro x
        exact (d.sorted x).sublist (Locks.leaveShrinks ..)
      · intro j t there
        rw [Table.lookupPut] at there
        split at there
        · cases Option.some.inj there
          exact .inl ⟨outcome,rfl⟩
        · rename_i different
          rcases d.tasks j t there with finished | ⟨listed,waits⟩
          · exact .inl finished
          · rcases List.mem_cons.mp listed with same | later
            · exact absurd same.symm different
            · exact .inr ⟨later,waits⟩

theorem drainAll (host : Host) (d : Draining g ids s) (order : ids.Pairwise (· < ·)) :
    Draining g [] (s.run host (ids.flatMap through)).1 := by
  induction ids generalizing s with
  | nil => exact d
  | cons id rest ih =>
    obtain ⟨before,order⟩ := List.pairwise_cons.mp order
    rw [List.flatMap_cons,runAppend]
    exact ih (drainOne host d before) order

theorem drainedRests (d : Draining g [] s) : AtRest s where
  finished := by
    intro id t found
    rcases d.tasks id t found with finished | ⟨listed,_⟩
    · exact finished
    · contradiction
  free := d.free

end

def joinedIn (host : Host) (s : Session) (events : List Event) : List TaskId :=
  (those .joined (turns host s events)).map Prod.fst

def Event.passing : Event → List TaskId
  | .pass id => [id]
  | _ => []

section
variable {host : Host} {s : Session} {id : TaskId}

theorem joinedAppend (host : Host) (s : Session) (events more : List Event) :
    joinedIn host s (events ++ more) = joinedIn host s events ++ joinedIn host (s.run host events).1 more := by
  simp only [joinedIn,turnsAppend,thoseAppend,List.map_append]

theorem turnJoined {event : Event} {entry : TaskId × Call} (marked : s.turn event = some (.joined,entry)) :
    event = .pass entry.1 ∧ Table.get? entry.1 s.tasks = some ⟨entry.2,.atGate⟩ := by
  cases event with
  | pass id =>
    simp only [turn] at marked
    split at marked
    · rename_i call _ found _
      split at marked
      · simp at marked
      · cases Option.some.inj marked
        exact ⟨rfl,found⟩
    · contradiction
  | work id =>
    simp only [turn] at marked
    split at marked
    · simp at marked
    · contradiction
  | cancel id =>
    simp only [turn] at marked
    split at marked <;> simp at marked
  | _ => contradiction

theorem joinedOne (host : Host) (s : Session) (event : Event) :
    joinedIn host s [event] = [] ∨
    ∃ entry, s.turn event = some (.joined,entry) ∧ joinedIn host s [event] = [entry.1] := by
  have alone : joinedIn host s [event] = (those .joined (s.turn event).toList).map Prod.fst := by
    simp only [joinedIn,turns,List.append_nil]
  rw [alone]
  cases marked : s.turn event with
  | none => exact .inl rfl
  | some entry =>
    obtain ⟨kind,entry⟩ := entry
    by_cases joins : kind = .joined
    · exact .inr ⟨entry,by rw [joins],by simp [those,joins]⟩
    · exact .inl (by simp [those,joins])

theorem joinedPasses (host : Host) (s : Session) (events : List Event) :
    (joinedIn host s events).Sublist (events.flatMap Event.passing) := by
  induction events generalizing s with
  | nil => exact List.Sublist.refl _
  | cons e rest ih =>
    have first : (joinedIn host s [e]).Sublist e.passing := by
      rcases joinedOne host s e with none | ⟨entry,marked,one⟩
      · rw [none]
        exact List.nil_sublist _
      · rw [one,(turnJoined marked).1]
        exact List.Sublist.refl _
    have split : joinedIn host s (e::rest) = joinedIn host s [e] ++ joinedIn host (s.step host e).1 rest :=
      joinedAppend host s [e] rest
    rw [split,List.flatMap_cons]
    exact first.append (ih _)

end

def tickets (s : Session) (count : Nat) : List TaskId := (List.range count).map (s.nextTask + ·)

def holding (s : Session) (hold : Option DocId) : List Event :=
  match hold.bind s.locks.lock? with | some lock => [.hold lock] | none => []

def releasing (s : Session) (hold : Option DocId) : List Event :=
  match hold.bind s.locks.lock? with | some lock => [.release lock] | none => []

def chosen (s : Session) (calls : List Call) (cancels : List Nat) : List TaskId :=
  ((List.range (s.tickets calls.length).length).filter fun i => cancels.contains i).filterMap
    fun i => (s.tickets calls.length)[i]?

def gathering (s : Session) (calls : List Call) (hold : Option DocId) : List Event :=
  s.holding hold ++ calls.map Event.start ++ [.opened] ++ (s.tickets calls.length).flatMap through

def parting (s : Session) (calls : List Call) (hold : Option DocId) (cancels : List Nat) : List Event :=
  (s.chosen calls cancels).map Event.cancel ++ s.releasing hold

def together (s : Session) (calls : List Call) (hold : Option DocId) (cancels : List Nat) : List Event :=
  s.gathering calls hold ++ s.parting calls hold cancels ++ (s.tickets calls.length).flatMap through

theorem togetherRun (host : Host) (s : Session) (calls : List Call) (hold : Option DocId) (cancels : List Nat) :
    ∃ users, s.callTogether host calls hold cancels =
      (((s.run host (s.together calls hold cancels)).1.collectAll (s.tickets calls.length)).1,
        ⟨((s.run host (s.together calls hold cancels)).1.collectAll (s.tickets calls.length)).2,
          (s.run host (s.together calls hold cancels)).2,users⟩) := by
  have cancelling : (s.chosen calls cancels).map Event.cancel =
      ((List.range (s.tickets calls.length).length).filter fun i => cancels.contains i).filterMap
        fun i => (s.tickets calls.length)[i]?.map Event.cancel := by
    rw [chosen,List.map_filterMap]
  rw [together,List.append_assoc,runAppend,parting,cancelling]
  exact ⟨_,rfl⟩

theorem startedAppend (events more : List Event) : started (events ++ more) = started events ++ started more :=
  List.filterMap_append

theorem startedStarts (calls : List Call) : started (calls.map Event.start) = calls := by
  induction calls with
  | nil => rfl
  | cons call rest ih => exact congrArg (call::·) ih

theorem startedCancels (ids : List TaskId) : started (ids.map Event.cancel) = [] := by
  induction ids with
  | nil => rfl
  | cons id rest ih => exact ih

theorem startedThrough (ids : List TaskId) : started (ids.flatMap through) = [] := by
  induction ids with
  | nil => rfl
  | cons id rest ih => exact ih

theorem passingStarts (calls : List Call) : (calls.map Event.start).flatMap Event.passing = [] := by
  induction calls with
  | nil => rfl
  | cons call rest ih => exact ih

theorem passingCancels (ids : List TaskId) : (ids.map Event.cancel).flatMap Event.passing = [] := by
  induction ids with
  | nil => rfl
  | cons id rest ih => exact ih

theorem passingThrough (ids : List TaskId) : (ids.flatMap through).flatMap Event.passing = ids := by
  induction ids with
  | nil => rfl
  | cons id rest ih => exact congrArg (id::·) ih

section
variable {host : Host} {g : Query.Grammar} {s : Session} (calls : List Call) (hold : Option DocId) (cancels : List Nat)

theorem holdingQuiet : started (s.holding hold) = [] ∧ (s.holding hold).flatMap Event.passing = [] := by
  unfold holding
  split <;> exact ⟨rfl,rfl⟩

theorem releasingQuiet : started (s.releasing hold) = [] ∧ (s.releasing hold).flatMap Event.passing = [] := by
  unfold releasing
  split <;> exact ⟨rfl,rfl⟩

theorem partingStarted : started (s.gathering calls hold ++ s.parting calls hold cancels) = calls := by
  simp only [gathering,parting,startedAppend,startedStarts,startedCancels,startedThrough,(holdingQuiet hold).1,
    (releasingQuiet hold).1,List.nil_append,List.append_nil]
  exact List.append_nil calls

theorem partingPasses :
    (s.gathering calls hold ++ s.parting calls hold cancels).flatMap Event.passing = s.tickets calls.length := by
  simp only [gathering,parting,List.flatMap_append,passingStarts,passingCancels,passingThrough,(holdingQuiet hold).2,
    (releasingQuiet hold).2,List.nil_append,List.append_nil]
  rfl

theorem ticketsOrdered (count : Nat) : (s.tickets count).Pairwise (· < ·) := by
  apply List.pairwise_map.mpr
  exact List.pairwise_lt_range.imp fun less => Nat.add_lt_add_left less _

theorem ticketsNodup (count : Nat) : (s.tickets count).Nodup :=
  (ticketsOrdered count).imp fun less => Nat.ne_of_lt less

theorem memTickets {count : Nat} {id : TaskId} : id ∈ s.tickets count ↔ s.nextTask ≤ id ∧ id < s.nextTask + count := by
  simp only [tickets,List.mem_map,List.mem_range]
  constructor
  · rintro ⟨k,within,rfl⟩
    exact ⟨Nat.le_add_right _ _,Nat.add_lt_add_left within _⟩
  · rintro ⟨late,within⟩
    exact ⟨id - s.nextTask,Nat.sub_lt_left_of_lt_add late within,Nat.add_sub_cancel' late⟩

theorem openedReady (host : Host) (ready : s.phase = .ready g) : (s.run host [.opened]).1 = s := by
  rw [runOne,stepIdle host]
  simp only [possible,ready]

theorem calledFirst (o : Orderly s) : Called s.nextTask [] s where
  next := rfl
  listed := by
    intro k
    rw [taskAbsent o (Nat.le_add_right _ _)]
    rfl

theorem runThen (host : Host) (s : Session) (events more : List Event) :
    (s.run host (events ++ more)).1 = ((s.run host events).1.run host more).1 := by rw [runAppend]

theorem holdingTasks (host : Host) : (s.run host (s.holding hold)).1.tasks = s.tasks ∧
    (s.run host (s.holding hold)).1.nextTask = s.nextTask := by
  unfold holding
  split <;> exact ⟨rfl,rfl⟩

theorem releasingTasks (host : Host) (t : Session) : (t.run host (s.releasing hold)).1.tasks = t.tasks := by
  unfold releasing
  split <;> rfl

theorem groupGathered (host : Host) (o : Orderly s) (ready : s.phase = .ready g) (rests : AtRest s) :
    Gathered [] (s.run host (s.gathering calls hold ++ s.parting calls hold cancels)).1 := by
  obtain ⟨tasks,numbers⟩ := holdingTasks (s := s) hold host
  have held : Gathered [] (s.run host (s.holding hold)).1 := gatheredSame (restGathered rests) tasks
  have begun := gatheredStarts host (runOrderly o host (s.holding hold)) held calls
  rw [List.nil_append,numbers] at begun
  have open_ := readyRun host (readyRun host ready (s.holding hold)) (calls.map Event.start)
  have passed := gatheredThroughs host begun (ticketsNodup calls.length) open_
  have left := gatheredCancels host passed (s.chosen calls cancels)
  rw [gathering,parting,runThen,runThen,runThen,runThen,runThen,openedReady host open_]
  exact gatheredSame left (releasingTasks hold host _)

theorem groupHeld (host : Host) (rests : AtRest s) :
    (s.run host (s.gathering calls hold ++ s.parting calls hold cancels)).1.locks.held = [] := by
  have middle : ∀ e ∈ calls.map Event.start ++ [.opened] ++ (s.tickets calls.length).flatMap through ++
      (s.chosen calls cancels).map Event.cancel, e.hosts = false := by
    intro e member
    simp only [List.mem_append,List.mem_map,List.mem_flatMap,through,List.mem_cons,
      List.not_mem_nil,or_false] at member
    rcases member with ((⟨_,_,rfl⟩ | rfl) | ⟨_,_,rfl | rfl | rfl | rfl⟩) | ⟨_,_,rfl⟩ <;> rfl
  have split : s.gathering calls hold ++ s.parting calls hold cancels =
      s.holding hold ++ (calls.map Event.start ++ [.opened] ++ (s.tickets calls.length).flatMap through ++
        (s.chosen calls cancels).map Event.cancel) ++ s.releasing hold := by
    simp only [gathering,parting,List.append_assoc]
  rw [split,runThen,runThen]
  have kept := heldRun (s := (s.run host (s.holding hold)).1) host middle
  generalize ((s.run host (s.holding hold)).1.run host _).1 = last at kept ⊢
  unfold holding at kept
  unfold releasing
  split
  · rename_i lock there
    rw [there] at kept
    change last.locks.held.filter (· ≠ lock) = []
    have one : last.locks.held = [lock] := kept.trans (congrArg (lock::·) rests.free)
    simp [one]
  · rename_i nowhere
    rw [nowhere] at kept
    exact kept.trans rests.free

theorem groupDraining (host : Host) (o : Orderly s) (ready : s.phase = .ready g) (rests : AtRest s) :
    Draining g (s.tickets calls.length)
      (s.run host (s.gathering calls hold ++ s.parting calls hold cancels)).1 := by
  have gathered := groupGathered calls hold cancels host o ready rests
  have serial := restSerial host o ready rests (s.gathering calls hold ++ s.parting calls hold cancels)
  have called := runCalled (calledFirst o) host (s.gathering calls hold ++ s.parting calls hold cancels)
  rw [partingStarted] at called
  have joined := joinedPasses host s (s.gathering calls hold ++ s.parting calls hold cancels)
  rw [partingPasses] at joined
  refine ⟨serial.orderly,serial.ready,groupHeld calls hold cancels host rests,?_,?_⟩
  · intro doc
    have waiting := List.filter_eq_self.mpr (gatheredUnserved serial.orderly gathered doc)
    have lined := (List.sublist_append_right ..).trans (serial.lined doc)
    rw [ahead,waiting] at lined
    exact (ticketsOrdered calls.length).sublist ((lined.trans (List.filter_sublist.map Prod.fst)).trans joined)
  · intro id t found
    have still := gathered.rest id t (by simp) found
    obtain ⟨call,stage⟩ := t
    cases stage with
    | finished outcome => exact .inl ⟨outcome,rfl⟩
    | waiting doc lock =>
      refine .inr ⟨memTickets.mpr ⟨?_,?_⟩,doc,lock,rfl⟩
      · exact loggedOwn serial.logged found fun _ => Stage.noConfusion
      · have bound := serial.orderly.numbered id _ found
        rwa [called.next] at bound
    | _ => contradiction

end

end Session
end Tinct
