import Tinct.Proofs.CallRounds

/-! A round of calls as a run of steps, after which its outcomes are collected place by place. No task is left on its way
out by then, for one that works leaves right after. -/
namespace Tinct

def Stage.onWay : Stage → Bool
  | .leaving _ _ _ => true
  | _ => false

namespace Round

def events (s : Session) : Round → List Session.Event
  | single call => s.schedule call
  | hurried call => if s.isSettled then s.schedule call else [.start call,.cancel s.nextTask,.opened]
  | group calls hold cancels => s.together calls hold cancels

def users (host : Host) (s : Session) : Round → Option (Table DocId Nat)
  | single _ | hurried _ => none
  | group calls hold cancels => (s.callTogether host calls hold cancels).2.usersWhileHeld

end Round

namespace Session
open Document (Effects)

def Numbered (s : Session) : Prop := ∀ id t, Table.get? id s.tasks = some t → id < s.nextTask

section
variable {s : Session}

theorem numberedCalled (numbered : Numbered s) : Called s.nextTask [] s where
  next := rfl
  listed := by
    intro k
    cases found : Table.get? (s.nextTask + k) s.tasks with
    | none => rfl
    | some t => exact absurd (numbered _ t found) (Nat.not_lt.mpr (Nat.le_add_right _ k))

theorem calledNumbered {base : TaskId} {calls : List Call} (c : Called base calls s) : Numbered s := by
  intro id t found
  rw [c.next]
  rcases Nat.lt_or_ge id base with before | late
  · exact Nat.lt_add_right _ before
  · obtain ⟨k,rfl⟩ := Nat.exists_eq_add_of_le late
    have listed := c.listed k
    rw [found,Option.map_some] at listed
    exact Nat.add_lt_add_left (List.getElem?_eq_some_iff.mp listed.symm).1 base

end

theorem workPossible {s : Session} {id : TaskId} (can : s.possible (.work id) = true) :
    ∃ call g doc lock, Table.get? id s.tasks = some ⟨call,.inside doc lock⟩ ∧ s.phase = .ready g := by
  simp only [possible] at can
  split at can
  · rename_i doc lock g at_ ready
    obtain ⟨call,found⟩ := taskAt at_
    exact ⟨call,g,doc,lock,found,ready⟩
  · contradiction

def Cleared (s : Session) : Prop := ∀ id t, Table.get? id s.tasks = some t → t.stage.onWay = false

section
variable {s next : Session} {host : Host} {id : TaskId}

theorem clearedPut (c : ∀ j t, j ≠ id → Table.get? j s.tasks = some t → t.stage.onWay = false) {t : Task}
    (off : t.stage.onWay = false) (tasks : next.tasks = Table.put id t s.tasks) : Cleared next := by
  intro j u found
  rw [tasks,Table.lookupPut] at found
  split at found
  · cases Option.some.inj found
    exact off
  · rename_i other
    exact c j u (fun same => other same.symm) found

theorem takenCleared (c : Cleared s) {event : Event} {effects : Effects} (taken : Taken host s event next effects)
    (quiet : ∀ id, event ≠ .work id) : Cleared next := by
  have others : ∀ id j t, j ≠ id → Table.get? j s.tasks = some t → t.stage.onWay = false := fun _ j t _ => c j t
  cases taken with
  | start call => exact clearedPut (others _) rfl rfl
  | loaded g starting load => exact c
  | broken cause starting load => exact c
  | prepared id call g found ready free => exact clearedPut (others id) rfl rfl
  | refused id call cause found failed => exact clearedPut (others id) rfl rfl
  | enter id call g doc found ready wants => exact clearedPut (others id) rfl rfl
  | acquire id call doc lock found may => exact clearedPut (others id) rfl rfl
  | work id call g doc lock found ready => exact absurd rfl (quiet id)
  | leave id call doc lock outcome found => exact clearedPut (others id) rfl rfl
  | dropped id call found => exact clearedPut (others id) rfl rfl
  | abandon id call doc lock found => exact clearedPut (others id) rfl rfl
  | hold lock => exact c
  | release lock => exact c

theorem stepCleared (c : Cleared s) (host : Host) {event : Event} (quiet : ∀ id, event ≠ .work id) :
    Cleared (s.step host event).1 := by
  cases can : s.possible event with
  | true => exact takenCleared c (stepTaken host can) quiet
  | false =>
    rw [stepIdle host can]
    exact c

theorem runCleared (c : Cleared s) (host : Host) {events : List Event} (quiet : ∀ e ∈ events, ∀ id, e ≠ .work id) :
    Cleared (s.run host events).1 := by
  induction events generalizing s with
  | nil => exact c
  | cons e rest ih =>
    exact ih (stepCleared c host (quiet e List.mem_cons_self)) fun e member => quiet e (List.mem_cons_of_mem _ member)

theorem workLeaves (c : Cleared s) (host : Host) (id : TaskId) : Cleared (s.run host [.work id,.leave id]).1 := by
  have others : ∀ j t, j ≠ id → Table.get? j (s.step host (.work id)).1.tasks = some t → t.stage.onWay = false := by
    intro j t different found
    cases can : s.possible (.work id) with
    | false =>
      rw [stepIdle host can] at found
      exact c j t found
    | true =>
      obtain ⟨call,g,doc,lock,there,ready⟩ := workPossible can
      simp only [step,workServed host there ready,Table.lookupPut,if_neg different.symm] at found
      exact c j t found
  simp only [run]
  generalize (s.step host (.work id)).1 = middle at others
  cases can : middle.possible (.leave id) with
  | true =>
    have taken := stepTaken host can
    generalize middle.step host (.leave id) = last at taken
    obtain ⟨last,effects⟩ := last
    cases taken with
    | leave id call doc lock outcome found => exact clearedPut others rfl rfl
  | false =>
    rw [stepIdle host can]
    intro j t found
    by_cases same : j = id
    · rw [same] at found
      simp only [possible,stageFound found] at can
      cases stage : t.stage <;> simp [stage,Stage.onWay] at can ⊢
    · exact others j t same found

theorem throughCleared (c : Cleared s) (host : Host) (ids : List TaskId) :
    Cleared (s.run host (ids.flatMap through)).1 := by
  induction ids generalizing s with
  | nil => exact c
  | cons id rest ih =>
    have entered : Cleared (s.run host [.pass id,.acquire id]).1 := runCleared c host (by simp)
    have left := workLeaves entered host id
    rw [← runThen] at left
    rw [List.flatMap_cons,runThen]
    exact ih left

end

theorem playEvents (host : Host) (s : Session) (round : Round) :
    round.play host s =
      (((s.run host (round.events s)).1.collectAll (s.tickets round.calls.length)).1,
        ((s.run host (round.events s)).1.collectAll (s.tickets round.calls.length)).2,
        (s.run host (round.events s)).2) := by
  cases round with
  | single call => rfl
  | hurried call =>
    simp only [Round.play,Round.events,callCancelled]
    split <;> rfl
  | group calls hold cancels =>
    obtain ⟨users,same⟩ := togetherRun host s calls hold cancels
    simp only [Round.play,Round.events,Round.calls,same]

theorem eventsStarted (s : Session) (round : Round) : started (round.events s) = round.calls := by
  cases round with
  | single call => rfl
  | hurried call =>
    simp only [Round.events]
    split <;> rfl
  | group calls hold cancels =>
    simp only [Round.events,Round.calls,together]
    rw [startedAppend,partingStarted,startedThrough,List.append_nil]

theorem eventsCleared {s : Session} (c : Cleared s) (host : Host) (round : Round) : Cleared (s.run host (round.events s)).1 := by
  have scheduled : ∀ call, Cleared (s.run host (s.schedule call)).1 := by
    intro call
    have opened : Cleared (s.run host [.start call,.opened]).1 := runCleared c host (by simp)
    have passed := throughCleared opened host [s.nextTask]
    rwa [← runThen] at passed
  cases round with
  | single call => exact scheduled call
  | hurried call =>
    simp only [Round.events]
    split
    · exact scheduled call
    · exact runCleared c host (by simp)
  | group calls hold cancels =>
    have quiet : ∀ e ∈ s.holding hold ++ calls.map Event.start ++ [.opened], ∀ id, e ≠ .work id := by
      rintro e member id rfl
      unfold holding at member
      split at member <;> simp at member
    have parts : ∀ e ∈ s.parting calls hold cancels, ∀ id, e ≠ .work id := by
      rintro e member id rfl
      unfold parting releasing at member
      split at member <;> simp at member
    have gathered : Cleared (s.run host (s.gathering calls hold)).1 := by
      rw [gathering,runThen]
      exact throughCleared (runCleared c host quiet) host _
    simp only [Round.events,together,runThen]
    exact throughCleared (runCleared gathered host parts) host _

theorem ticketPlace (s : Session) {count k : Nat} (inside : k < count) : (s.tickets count)[k]? = some (s.nextTask + k) := by
  rw [tickets,List.getElem?_map,List.getElem?_range inside]
  rfl

theorem playPlaces (host : Host) (s : Session) (round : Round) :
    (round.play host s).2.1 = (s.tickets round.calls.length).map fun id =>
      ((s.run host (round.events s)).1.outcome? id).getD (.error .cancelled) := by
  rw [playEvents]
  exact collectAllOutcomes _ (ticketsNodup _)

theorem playSize (host : Host) (s : Session) (round : Round) :
    (round.play host s).2.1.length = round.calls.length := by
  rw [playPlaces,List.length_map,tickets,List.length_map,List.length_range]

theorem playPlace (host : Host) (s : Session) {round : Round} {k : Nat} (inside : k < round.calls.length) :
    (round.play host s).2.1[k]? =
      some (((s.run host (round.events s)).1.outcome? (s.nextTask + k)).getD (.error .cancelled)) := by
  rw [playPlaces,List.getElem?_map,ticketPlace s inside,Option.map_some]

end Session
end Tinct
