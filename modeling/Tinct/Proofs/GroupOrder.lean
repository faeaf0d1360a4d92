import Tinct.Proofs.CallGroups

/-! Who is served when in a group. While the host holds a document's lock the calls on it wait and the others are
served as they come; when it lets go, those that were not cancelled follow, in the order in which they came. -/
namespace Tinct

def Task.givenUp (t : Task) : Task := if t.stage.waits then ⟨t.call,.finished (.error .cancelled)⟩ else t

namespace Session

def barred (closed : Option (DocId × LockId)) (call : Call) : Bool := closed.any fun place => call.doc? = some place.1

structure Shut (closed : Option (DocId × LockId)) (s : Session) : Prop where
  held : s.locks.held = (closed.map Prod.snd).toList
  lock : ∀ doc lock, closed = some (doc,lock) → s.locks.lock? doc = some lock
  free : ∀ doc, closed.map Prod.fst ≠ some doc → s.locks.line doc = []

theorem throughTurns (host : Host) (s : Session) (id : TaskId) :
    turns host s (through id) = (s.turn (.pass id)).toList ++
      (((s.step host (.pass id)).1.step host (.acquire id)).1.turn (.work id)).toList := by
  have acquires : ∀ t : Session, t.turn (.acquire id) = none := fun _ => rfl
  have leaves : ∀ t : Session, t.turn (.leave id) = none := fun _ => rfl
  simp only [through,turns,acquires,leaves,Option.toList_none,List.nil_append,List.append_nil]

section
variable {host : Host} {closed : Option (DocId × LockId)} {s : Session} {g : Query.Grammar} {id : TaskId} {call : Call}
  {doc : DocId}

theorem barredPlace (wants : call.doc? = some doc) (waits : barred closed call = true) :
    ∃ lock, closed = some (doc,lock) := by
  cases closed with
  | none => contradiction
  | some place =>
    simp only [barred,Option.any_some,wants,Option.some.injEq,decide_eq_true_eq] at waits
    exact ⟨place.2,by rw [waits]⟩

theorem openPlace (wants : call.doc? = some doc) (open_ : barred closed call = false) {place : DocId} {lock : LockId}
    (there : closed = some (place,lock)) : place ≠ doc := by
  rintro rfl
  simp [barred,there,wants] at open_

theorem shutLine (h : Shut closed s) (wants : call.doc? = some doc) (open_ : barred closed call = false) :
    s.locks.line doc = [] := by
  apply h.free
  intro same
  obtain ⟨⟨place,lock⟩,there,same⟩ := Option.map_eq_some_iff.mp same
  exact openPlace wants open_ there same

theorem shutLock (h : Shut closed s) {lock : LockId} (there : closed = some (doc,lock)) (id : TaskId) :
    (s.locks.enter doc id).2 = lock := by
  rcases s.locks.enterNew doc id with ⟨found,_⟩ | ⟨absent,_⟩
  · exact Option.some.inj (found.symm.trans (h.lock doc lock there))
  · rw [h.lock doc lock there] at absent
    contradiction

theorem shutBarred (h : Shut closed s) (wants : call.doc? = some doc) (waits : barred closed call = true) (id : TaskId) :
    (s.locks.enter doc id).1.mayHold (s.locks.enter doc id).2 id = false := by
  obtain ⟨lock,there⟩ := barredPlace wants waits
  simp [Locks.mayHold,Locks.enterHeld,h.held,there,shutLock h there id]

theorem shutAdmits (o : Orderly s) (h : Shut closed s) (wants : call.doc? = some doc)
    (open_ : barred closed call = false) (id : TaskId) :
    (s.locks.enter doc id).1.mayHold (s.locks.enter doc id).2 id = true := by
  have alone : (s.locks.enter doc id).1.queue (s.locks.enter doc id).2 = [id] := by
    have found := (s.locks.enterLock doc doc id).trans (if_pos rfl)
    rw [← Locks.lineFound found,o.booked.lineEnter,if_pos rfl,shutLine h wants open_]
    rfl
  have free : (s.locks.enter doc id).2 ∉ s.locks.held := by
    rw [h.held]
    intro member
    obtain ⟨⟨place,lock⟩,there,same⟩ := Option.map_eq_some_iff.mp (Option.mem_toList.mp member)
    have used := h.lock place lock there
    exact openPlace wants open_ there (((o.booked.enterOwn doc id).2.2.2.1 place lock used).mp same)
  simp [Locks.mayHold,alone,Locks.enterHeld,free]

-- What one call does to a session with a lock held: it is served, or it joins the line of the held document.
structure Went (host : Host) (closed : Option (DocId × LockId)) (id : TaskId) (call : Call) (s : Session) : Prop where
  shut : Shut closed (s.run host (through id)).1
  served : those .served (turns host s (through id)) = if barred closed call then [] else [(id,call)]
  own : ∃ stage, Table.get? id (s.run host (through id)).1.tasks = some ⟨call,stage⟩ ∧
    stage.waits = barred closed call
  others : ∀ j, j ≠ id → Table.get? j (s.run host (through id)).1.tasks = Table.get? j s.tasks

theorem wentPrepared (host : Host) (h : Shut closed s) (found : Table.get? id s.tasks = some ⟨call,.atGate⟩)
    (ready : s.phase = .ready g) (free : call.doc? = none) : Went host closed id call s := by
  have open_ : barred closed call = false := by
    cases closed with
    | none => rfl
    | some place => simp [barred,free]
  have taken : Taken host s (.pass id) _ _ := .prepared id call g found ready free
  have passed : s.pass id = { s with tasks := Table.put id ⟨call,.finished (.ok .done)⟩ s.tasks } :=
    congrArg Prod.fst (takenStep taken)
  have ran := throughStopped host passed
  constructor
  case shut =>
    rw [ran]
    exact ⟨h.held,h.lock,h.free⟩
  case served =>
    rw [throughTurns,takenStep taken,stepIdle host (by simp [possible,stage?])]
    simp [turn,found,ready,free,those,open_]
  case own =>
    rw [ran]
    exact ⟨_,Table.getPut ..,open_.symm⟩
  case others =>
    intro j different
    rw [ran,Table.lookupPut,if_neg different.symm]

theorem wentServed (host : Host) (o : Orderly s) (h : Shut closed s)
    (found : Table.get? id s.tasks = some ⟨call,.atGate⟩) (ready : s.phase = .ready g) (wants : call.doc? = some doc)
    (open_ : barred closed call = false) : Went host closed id call s := by
  have may := shutAdmits o h wants open_ id
  have ran := throughServed host found ready wants may
  have entered : Taken host s (.pass id) _ _ := .enter id call g doc found ready wants
  have acquired : Taken host { s with
      locks := (s.locks.enter doc id).1
      tasks := Table.put id ⟨call,.waiting doc (s.locks.enter doc id).2⟩ s.tasks } (.acquire id) _ _ :=
    .acquire id call doc _ (Table.getPut ..) may
  have orderly := runOrderly o host (through id)
  constructor
  case shut =>
    rw [ran] at orderly ⊢
    refine ⟨(Locks.leaveHeld ..).trans ((Locks.enterHeld ..).trans h.held),?_,?_⟩
    · intro place lock there
      have elsewhere := openPlace wants open_ there
      dsimp only
      rw [Locks.leaveLock,if_neg fun both => elsewhere both.2.symm,Locks.enterLock,if_neg elsewhere.symm]
      exact h.lock place lock there
    · intro x outside
      apply List.eq_nil_iff_forall_not_mem.mpr
      intro j member
      have before := (Locks.leaveShrinks ..).subset member
      rw [o.booked.lineEnter] at before
      split at before
      · rw [← ‹doc = x›,shutLine h wants open_] at before
        have same : j = id := List.mem_singleton.mp before
        obtain ⟨lock,there⟩ := (orderly.booked.memLine j x).mp member
        rw [same,placeFound (Table.getPut ..)] at there
        contradiction
      · rw [h.free x outside] at before
        contradiction
  case served =>
    rw [throughTurns,takenStep entered,takenStep acquired]
    simp [turn,found,ready,wants,those,open_]
  case own =>
    rw [ran]
    exact ⟨_,Table.getPut ..,open_.symm⟩
  case others =>
    intro j different
    rw [ran,Table.lookupPut,if_neg different.symm]

theorem wentBarred (host : Host) (o : Orderly s) (h : Shut closed s)
    (found : Table.get? id s.tasks = some ⟨call,.atGate⟩) (ready : s.phase = .ready g) (wants : call.doc? = some doc)
    (waits : barred closed call = true) : Went host closed id call s := by
  have may := shutBarred h wants waits id
  have ran := throughBarred host found ready wants may
  have entered : Taken host s (.pass id) _ _ := .enter id call g doc found ready wants
  obtain ⟨lock,there⟩ := barredPlace wants waits
  constructor
  case shut =>
    rw [ran]
    refine ⟨(Locks.enterHeld ..).trans h.held,?_,?_⟩
    · intro place own same
      cases Option.some.inj (there.symm.trans same)
      dsimp only [Session.entered]
      rw [Locks.enterLock,if_pos rfl,shutLock h there]
    · intro x outside
      have different : doc ≠ x := by
        rintro rfl
        simp [there] at outside
      dsimp only [Session.entered]
      rw [o.booked.lineEnter,if_neg different]
      exact h.free x outside
  case served =>
    rw [throughTurns,takenStep entered,stepIdle host (by simp [possible,stage?,may])]
    simp [turn,found,ready,wants,those,waits]
  case own =>
    rw [ran]
    exact ⟨_,Table.getPut ..,waits.symm⟩
  case others =>
    intro j different
    rw [ran,Session.entered,Table.lookupPut,if_neg different.symm]

theorem wentOne (host : Host) (o : Orderly s) (h : Shut closed s)
    (found : Table.get? id s.tasks = some ⟨call,.atGate⟩) (ready : s.phase = .ready g) : Went host closed id call s := by
  cases wants : call.doc? with
  | none => exact wentPrepared host h found ready wants
  | some doc =>
    cases waits : barred closed call with
    | true => exact wentBarred host o h found ready wants waits
    | false => exact wentServed host o h found ready wants waits

theorem wentAll (host : Host) {entries : List (TaskId × Call)} (once : (entries.map Prod.fst).Nodup) (o : Orderly s)
    (h : Shut closed s) (found : ∀ entry ∈ entries, Table.get? entry.1 s.tasks = some ⟨entry.2,.atGate⟩)
    (ready : s.phase = .ready g) :
    those .served (turns host s ((entries.map Prod.fst).flatMap through)) =
      entries.filter (fun entry => !barred closed entry.2) ∧
    (∀ entry ∈ entries, ∃ stage,
      Table.get? entry.1 (s.run host ((entries.map Prod.fst).flatMap through)).1.tasks = some ⟨entry.2,stage⟩ ∧
        stage.waits = barred closed entry.2) ∧
    ∀ j, j ∉ entries.map Prod.fst →
      Table.get? j (s.run host ((entries.map Prod.fst).flatMap through)).1.tasks = Table.get? j s.tasks := by
  induction entries generalizing s with
  | nil => exact ⟨rfl,fun _ member => by contradiction,fun _ _ => rfl⟩
  | cons entry rest ih =>
    obtain ⟨id,call⟩ := entry
    obtain ⟨fresh,once⟩ := List.nodup_cons.mp once
    have went := wentOne host o h (found (id,call) List.mem_cons_self) ready
    have later : ∀ entry ∈ rest, Table.get? entry.1 (s.run host (through id)).1.tasks = some ⟨entry.2,.atGate⟩ := by
      intro entry member
      have different : entry.1 ≠ id := by
        rintro rfl
        exact fresh (List.mem_map.mpr ⟨entry,member,rfl⟩)
      rw [went.others _ different]
      exact found entry (List.mem_cons_of_mem _ member)
    obtain ⟨served,status,others⟩ := ih once (runOrderly o host (through id)) went.shut later
      (readyRun host ready (through id))
    simp only [List.map_cons,List.flatMap_cons,runThen,turnsAppend,thoseAppend]
    refine ⟨?_,?_,?_⟩
    · rw [went.served,served,List.filter_cons]
      cases barred closed call <;> rfl
    · intro entry member
      rcases List.mem_cons.mp member with rfl | member
      · obtain ⟨stage,there,waits⟩ := went.own
        exact ⟨stage,(others id fresh).trans there,waits⟩
      · exact status entry member
    · intro j outside
      rw [List.mem_cons,not_or] at outside
      rw [others j outside.2,went.others j outside.1]

theorem givenUpTwice (t : Task) : t.givenUp.givenUp = t.givenUp := by
  unfold Task.givenUp
  split
  · rfl
  · rfl

theorem givenUpPut {old : Stage} {next : Session} (found : Table.get? id s.tasks = some ⟨call,old⟩)
    (waits : old.waits = true) (tasks : next.tasks = Table.put id ⟨call,.finished (.error .cancelled)⟩ s.tasks)
    (j : TaskId) :
    Table.get? j next.tasks = (Table.get? j s.tasks).map fun t => if j = id then t.givenUp else t := by
  rw [tasks,Table.lookupPut]
  by_cases same : id = j
  · subst same
    simp [found,Task.givenUp,waits]
  · have different : j ≠ id := fun equal => same equal.symm
    simp [same,different]

theorem cancelStep (host : Host) (s : Session) (id j : TaskId) :
    Table.get? j (s.step host (.cancel id)).1.tasks =
      (Table.get? j s.tasks).map fun t => if j = id then t.givenUp else t := by
  cases can : s.possible (.cancel id) with
  | false =>
    rw [stepIdle host can]
    cases found : Table.get? j s.tasks with
    | none => rfl
    | some t =>
      rw [Option.map_some]
      split
      · rename_i same
        subst same
        simp only [possible,stageFound found] at can
        obtain ⟨call,stage⟩ := t
        cases stage <;> first | rfl | contradiction
      · rfl
  | true =>
    have taken := stepTaken host can
    generalize s.step host (.cancel id) = result at taken ⊢
    obtain ⟨next,effects⟩ := result
    dsimp only at taken ⊢
    cases taken with
    | dropped id call found => exact givenUpPut found rfl rfl j
    | abandon id call doc lock found => exact givenUpPut found rfl rfl j

theorem cancelRun (host : Host) (s : Session) (ids : List TaskId) (j : TaskId) :
    Table.get? j (s.run host (ids.map Event.cancel)).1.tasks =
      (Table.get? j s.tasks).map fun t => if j ∈ ids then t.givenUp else t := by
  induction ids generalizing s with
  | nil => simp [run]
  | cons id rest ih =>
    have later := ih (s.step host (.cancel id)).1
    rw [cancelStep,Option.map_map] at later
    refine later.trans ?_
    congr 1
    funext t
    by_cases here : j = id
    · subst here
      by_cases again : j ∈ rest <;> simp [again,givenUpTwice]
    · simp [here]

theorem drainTurn (host : Host) {rest : List TaskId} {stage : Stage} (d : Draining g (id::rest) s)
    (order : ∀ j ∈ rest, id < j) (found : Table.get? id s.tasks = some ⟨call,stage⟩) :
    those .served (turns host s (through id)) = (if stage.waits then [(id,call)] else []) ∧
    ∀ j, j ≠ id → Table.get? j (s.run host (through id)).1.tasks = Table.get? j s.tasks := by
  rcases d.tasks id _ found with ⟨outcome,finished⟩ | ⟨_,doc,lock,waiting⟩
  · cases finished
    have past := stageFound found
    refine ⟨?_,fun j _ => by rw [throughPast host (.inr ⟨outcome,past⟩)]⟩
    have passed : s.step host (.pass id) = (s,{}) := stepIdle host (by simp only [possible,past])
    have acquired : s.step host (.acquire id) = (s,{}) := stepIdle host (by simp only [possible,past])
    rw [throughTurns,passed,acquired]
    simp [turn,found,those,Stage.waits]
  · cases waiting
    have there := stageFound found
    have place : s.place? id = some (doc,lock) := placeFound found
    have may := (d.orderly.booked.lineMayHold place).mpr ⟨drainFirst d order place,by simp [d.free]⟩
    have acquired : Taken host s (.acquire id) _ _ := .acquire id call doc lock found may
    obtain ⟨store,outcome,ran⟩ := throughWaited host found d.ready may
    refine ⟨?_,?_⟩
    · have passed : s.step host (.pass id) = (s,{}) := stepIdle host (by simp only [possible,there])
      rw [throughTurns,passed,takenStep acquired]
      simp [turn,found,d.ready,those,Stage.waits]
    · intro j different
      rw [ran,Table.lookupPut,if_neg different.symm]

theorem drainServed (host : Host) {entries : List (TaskId × Call)} (d : Draining g (entries.map Prod.fst) s)
    (order : (entries.map Prod.fst).Pairwise (· < ·)) (now : TaskId × Call → Bool)
    (status : ∀ entry ∈ entries, ∃ stage, Table.get? entry.1 s.tasks = some ⟨entry.2,stage⟩ ∧ stage.waits = now entry) :
    those .served (turns host s ((entries.map Prod.fst).flatMap through)) = entries.filter now := by
  induction entries generalizing s with
  | nil => rfl
  | cons entry rest ih =>
    obtain ⟨id,call⟩ := entry
    obtain ⟨before,order⟩ := List.pairwise_cons.mp order
    obtain ⟨stage,found,waits⟩ := status (id,call) List.mem_cons_self
    obtain ⟨served,others⟩ := drainTurn host d before found
    have later : ∀ entry ∈ rest, ∃ stage,
        Table.get? entry.1 (s.run host (through id)).1.tasks = some ⟨entry.2,stage⟩ ∧ stage.waits = now entry := by
      intro entry member
      have after := before entry.1 (List.mem_map.mpr ⟨entry,member,rfl⟩)
      rw [others entry.1 (Nat.ne_of_gt after)]
      exact status entry (List.mem_cons_of_mem _ member)
    simp only [List.map_cons,List.flatMap_cons,turnsAppend,thoseAppend]
    rw [served,waits,ih (drainOne host d before) order later,List.filter_cons]
    cases now (id,call) <;> rfl

end

theorem servedQuiet (host : Host) {events : List Event} (quiet : ∀ e ∈ events, ∀ id, e ≠ .pass id ∧ e ≠ .work id)
    (s : Session) : those .served (turns host s events) = [] := by
  induction events generalizing s with
  | nil => rfl
  | cons e rest ih =>
    have others := ih (fun e member => quiet e (List.mem_cons_of_mem _ member)) (s.step host e).1
    rw [turns,thoseAppend,others,List.append_nil]
    cases e with
    | pass id => exact absurd rfl (quiet _ List.mem_cons_self id).1
    | work id => exact absurd rfl (quiet _ List.mem_cons_self id).2
    | cancel id =>
      simp only [turn]
      split <;> simp [those]
    | _ => rfl

def lot (s : Session) (calls : List Call) : List (TaskId × Call) := (s.tickets calls.length).zip calls

def closing (s : Session) (hold : Option DocId) : Option (DocId × LockId) :=
  hold.bind fun doc => (s.locks.lock? doc).map (doc,·)

section
variable {g : Query.Grammar} {s : Session} (calls : List Call) (hold : Option DocId) (cancels : List Nat)

theorem lotTasks : (s.lot calls).map Prod.fst = s.tickets calls.length := by
  simp [lot,List.map_fst_zip,tickets]

theorem memLot {entry : TaskId × Call} (member : entry ∈ s.lot calls) :
    ∃ k, entry.1 = s.nextTask + k ∧ calls[k]? = some entry.2 := by
  obtain ⟨k,at_⟩ := List.getElem?_of_mem member
  obtain ⟨ticket,call⟩ := List.getElem?_zip_eq_some.mp at_
  rw [tickets,List.getElem?_map] at ticket
  obtain ⟨j,listed,same⟩ := Option.map_eq_some_iff.mp ticket
  obtain ⟨_,number⟩ := List.getElem?_eq_some_iff.mp listed
  rw [List.getElem_range] at number
  exact ⟨k,by rw [← same,number],call⟩

theorem startsLocks (host : Host) (s : Session) : (s.run host (calls.map Event.start)).1.locks = s.locks := by
  induction calls generalizing s with
  | nil => rfl
  | cons call rest ih => exact ih (s.start call)

theorem holdingShut (host : Host) (o : Orderly s) (rests : AtRest s) :
    Shut (s.closing hold) (s.run host (s.holding hold)).1 := by
  have nobody : ∀ doc, s.locks.line doc = [] := freeLine o (restPlaces rests)
  have unheld : Shut none s := by
    refine ⟨rests.free,?_,fun doc _ => nobody doc⟩
    intro doc lock there
    contradiction
  cases hold with
  | none => exact unheld
  | some doc =>
    cases there : s.locks.lock? doc with
    | none =>
      have still : s.closing (some doc) = none ∧ s.holding (some doc) = [] := by
        simp [closing,holding,there]
      rw [still.1,still.2]
      exact unheld
    | some lock =>
      have taken : s.closing (some doc) = some (doc,lock) ∧ s.holding (some doc) = [.hold lock] := by
        simp [closing,holding,there]
      rw [taken.1,taken.2]
      refine ⟨congrArg (lock::·) rests.free,?_,fun x _ => nobody x⟩
      intro place own same
      cases Option.some.inj same
      exact there

theorem gatheringWent (host : Host) (o : Orderly s) (ready : s.phase = .ready g) (rests : AtRest s) :
    those .served (turns host s (s.gathering calls hold)) =
      (s.lot calls).filter (fun entry => !barred (s.closing hold) entry.2) ∧
    ∀ entry ∈ s.lot calls, ∃ stage,
      Table.get? entry.1 (s.run host (s.gathering calls hold)).1.tasks = some ⟨entry.2,stage⟩ ∧
        stage.waits = barred (s.closing hold) entry.2 := by
  obtain ⟨tasks,numbers⟩ := holdingTasks (s := s) hold host
  have held : Gathered [] (s.run host (s.holding hold)).1 := gatheredSame (restGathered rests) tasks
  have first := runOrderly o host (s.holding hold)
  have begun := gatheredStarts host first held calls
  have orderly := runOrderly first host (calls.map Event.start)
  have open_ := readyRun host (readyRun host ready (s.holding hold)) (calls.map Event.start)
  have called := runCalled (calledFirst first) host (calls.map Event.start)
  rw [List.nil_append,startedStarts,numbers] at called
  rw [List.nil_append,numbers] at begun
  have shut : Shut (s.closing hold) ((s.run host (s.holding hold)).1.run host (calls.map Event.start)).1 := by
    have before := holdingShut hold host o rests
    have same := startsLocks calls host (s.run host (s.holding hold)).1
    exact ⟨same ▸ before.held,same ▸ before.lock,same ▸ before.free⟩
  have found : ∀ entry ∈ s.lot calls,
      Table.get? entry.1 ((s.run host (s.holding hold)).1.run host (calls.map Event.start)).1.tasks =
        some ⟨entry.2,.atGate⟩ := by
    intro entry member
    obtain ⟨k,number,call⟩ := memLot calls member
    have ticket : entry.1 ∈ s.tickets calls.length := lotTasks (s := s) calls ▸ List.mem_map_of_mem member
    obtain ⟨own,there⟩ := begun.here entry.1 ticket
    have listed := called.listed k
    rw [← number,there,call] at listed
    cases Option.some.inj listed
    exact there
  have once : ((s.lot calls).map Prod.fst).Nodup := by
    rw [lotTasks]
    exact ticketsNodup calls.length
  obtain ⟨served,status,_⟩ := wentAll host once orderly shut found open_
  rw [lotTasks] at served status
  have quiet : ∀ e ∈ s.holding hold ++ calls.map Event.start ++ [.opened], ∀ id, e ≠ .pass id ∧ e ≠ .work id := by
    intro e member id
    simp only [holding,List.mem_append,List.mem_map,List.mem_singleton] at member
    rcases member with (held | ⟨_,_,rfl⟩) | rfl
    · split at held
      · rw [List.mem_singleton.mp held]
        exact ⟨Event.noConfusion,Event.noConfusion⟩
      · contradiction
    · exact ⟨Event.noConfusion,Event.noConfusion⟩
    · exact ⟨Event.noConfusion,Event.noConfusion⟩
  have before : (s.run host (s.holding hold ++ calls.map Event.start ++ [.opened])).1 =
      ((s.run host (s.holding hold)).1.run host (calls.map Event.start)).1 := by
    rw [runThen,runThen,openedReady host open_]
  rw [gathering,turnsAppend,thoseAppend,servedQuiet host quiet s,List.nil_append,
    runThen host s (s.holding hold ++ calls.map Event.start ++ [Event.opened]),before]
  exact ⟨served,status⟩

theorem partedStatus (host : Host) (o : Orderly s) (ready : s.phase = .ready g) (rests : AtRest s) :
    ∀ entry ∈ s.lot calls, ∃ stage,
      Table.get? entry.1 (s.run host (s.gathering calls hold ++ s.parting calls hold cancels)).1.tasks =
        some ⟨entry.2,stage⟩ ∧
      stage.waits = (barred (s.closing hold) entry.2 && !decide (entry.1 ∈ s.chosen calls cancels)) ∧
      (barred (s.closing hold) entry.2 = true → entry.1 ∈ s.chosen calls cancels →
        stage = .finished (.error .cancelled)) := by
  intro entry member
  obtain ⟨stage,there,waits⟩ := (gatheringWent calls hold host o ready rests).2 entry member
  have after : Table.get? entry.1 (s.run host (s.gathering calls hold ++ s.parting calls hold cancels)).1.tasks =
      some (if entry.1 ∈ s.chosen calls cancels then Task.givenUp ⟨entry.2,stage⟩ else ⟨entry.2,stage⟩) := by
    rw [parting,← List.append_assoc,runThen,releasingTasks,runThen,cancelRun,there,Option.map_some]
  rw [after]
  by_cases listed : entry.1 ∈ s.chosen calls cancels
  · rw [if_pos listed]
    cases wants : barred (s.closing hold) entry.2 with
    | true =>
      have gone : Task.givenUp ⟨entry.2,stage⟩ = ⟨entry.2,.finished (.error .cancelled)⟩ := if_pos (waits.trans wants)
      exact ⟨_,congrArg some gone,by simp [listed,Stage.waits],fun _ _ => rfl⟩
    | false =>
      have stays : Task.givenUp ⟨entry.2,stage⟩ = ⟨entry.2,stage⟩ := if_neg (by simp [waits,wants])
      exact ⟨stage,congrArg some stays,by simp [waits,wants],fun barred => by contradiction⟩
  · rw [if_neg listed]
    exact ⟨stage,rfl,by simp [waits,listed],fun _ chosen => absurd chosen listed⟩

theorem groupServed (host : Host) (o : Orderly s) (ready : s.phase = .ready g) (rests : AtRest s) :
    those .served (turns host s (s.together calls hold cancels)) =
      (s.lot calls).filter (fun entry => !barred (s.closing hold) entry.2) ++
      (s.lot calls).filter fun entry =>
        barred (s.closing hold) entry.2 && !decide (entry.1 ∈ s.chosen calls cancels) := by
  have draining := groupDraining calls hold cancels host o ready rests
  have order : ((s.lot calls).map Prod.fst).Pairwise (· < ·) := by
    rw [lotTasks]
    exact ticketsOrdered calls.length
  rw [← lotTasks] at draining
  have last := drainServed host draining order
    (fun entry => barred (s.closing hold) entry.2 && !decide (entry.1 ∈ s.chosen calls cancels)) (by
      intro entry member
      obtain ⟨stage,there,waits,_⟩ := partedStatus calls hold cancels host o ready rests entry member
      exact ⟨stage,there,waits⟩)
  rw [lotTasks] at last
  have quiet : ∀ e ∈ s.parting calls hold cancels, ∀ id, e ≠ .pass id ∧ e ≠ .work id := by
    intro e member id
    simp only [parting,releasing,List.mem_append,List.mem_map] at member
    rcases member with ⟨_,_,rfl⟩ | released
    · exact ⟨Event.noConfusion,Event.noConfusion⟩
    · split at released
      · rw [List.mem_singleton.mp released]
        exact ⟨Event.noConfusion,Event.noConfusion⟩
      · contradiction
  rw [together,turnsAppend,thoseAppend,last,turnsAppend,thoseAppend,servedQuiet host quiet,List.append_nil,
    (gatheringWent calls hold host o ready rests).1]

end

end Session
end Tinct
