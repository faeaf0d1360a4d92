import Tinct.Session.Basic

/-! Whole calls, as schedules of steps: one call served to its end, a call cancelled at its first wait, and
several calls started together, possibly while the host holds one document's lock. -/
namespace Tinct.Session

open Document (Effects)

def through (id : TaskId) : List Event := [.pass id, .acquire id, .work id, .leave id]

def outcome? (s : Session) (id : TaskId) : Option Outcome :=
  match s.stage? id with
  | some (.finished outcome) => some outcome
  | _ => none

def collect (s : Session) (id : TaskId) : Session × Outcome :=
  ({ s with tasks := Table.erase id s.tasks }, (s.outcome? id).getD (.error .cancelled))

def collectAll (s : Session) : List TaskId → Session × List Outcome
  | [] => (s, [])
  | id :: rest =>
    let (s, outcome) := s.collect id
    let (s, others) := collectAll s rest
    (s, outcome :: others)

def call (host : Host) (s : Session) (c : Call) : Session × Outcome × Effects :=
  let id := s.nextTask
  let (s, effects) := s.run host (.start c :: .opened :: through id)
  let (s, outcome) := s.collect id
  (s, outcome, effects)

def isSettled (s : Session) : Bool :=
  match s.phase with
  | .ready _ | .failed _ => true
  | _ => false

/-- Starts a call and cancels it at its first wait; then the loading ends. Once the session is settled nothing
waits, and the call is served. -/
def callCancelled (host : Host) (s : Session) (c : Call) : Session × Outcome × Effects :=
  if s.isSettled then s.call host c else
  let id := s.nextTask
  let (s, effects) := s.run host [.start c, .cancel id, .opened]
  let (s, outcome) := s.collect id
  (s, outcome, effects)

structure Group where
  outcomes : List Outcome
  effects : Effects
  usersWhileHeld : Option (Table DocId Nat)

/-- Starts calls together. With a document to hold, its lock is held while the others run; then the chosen
calls are cancelled, the lock is released, and those that waited run in order. -/
def callTogether (host : Host) (s : Session) (calls : List Call) (hold : Option DocId) (cancels : List Nat) :
    Session × Group :=
  let ids := (List.range calls.length).map (s.nextTask + ·)
  let lock? := hold.bind s.locks.lock?
  let holding := match lock? with | some lock => [Event.hold lock] | none => []
  let releasing := match lock? with | some lock => [Event.release lock] | none => []
  let (s, first) := s.run host
    (holding ++ calls.map Event.start ++ [.opened] ++ ids.flatMap through)
  let users := s.locks.users
  let cancelled := (List.range ids.length).filter fun i => cancels.contains i
  let (s, second) := s.run host
    (cancelled.filterMap (fun i => ids[i]?.map Event.cancel) ++ releasing ++ ids.flatMap through)
  let (s, outcomes) := s.collectAll ids
  (s, ⟨outcomes, first ++ second, lock?.map fun _ => users⟩)

end Tinct.Session
