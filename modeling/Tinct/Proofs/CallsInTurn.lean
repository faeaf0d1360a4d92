import Tinct.Proofs.DocumentLines
import Tinct.Proofs.FreshTokens
import Mathlib.Data.List.Forall2

/-! Calls on a ready session, their steps in any order. Each call is served in one step and the rest of its steps move
tasks and locks only, so the store, the effects and the answers are those of the same calls taken in turn, in the
order in which they were served. On one document that is the order in which they joined its line. -/
namespace Tinct
namespace Document

theorem effectsAssoc (a b c : Effects) : a ++ b ++ c = a ++ (b ++ c) := by
  change Effects.append (Effects.append a b) c = Effects.append a (Effects.append b c)
  simp only [Effects.append,List.append_assoc]

end Document

namespace Session
open Document (Effects)

def inTurn (host : Host) : Session → List Call → Session × List Outcome × Effects
  | s,[] => (s,[],{})
  | s,call::rest =>
    let (s,outcome,first) := s.call host call
    let (s,outcomes,others) := inTurn host s rest
    (s,outcome::outcomes,first ++ others)

theorem inTurnSnoc (host : Host) (s : Session) (calls : List Call) (call : Call) :
    s.inTurn host (calls ++ [call]) =
      (((s.inTurn host calls).1.call host call).1,
        (s.inTurn host calls).2.1 ++ [((s.inTurn host calls).1.call host call).2.1],
        (s.inTurn host calls).2.2 ++ ((s.inTurn host calls).1.call host call).2.2) := by
  induction calls generalizing s with
  | nil => simp only [inTurn,List.nil_append,Document.effectsLast,Document.effectsNone]
  | cons first rest ih =>
    simp only [inTurn,List.cons_append]
    rw [ih]
    simp only [Document.effectsAssoc]

structure Free (g : Query.Grammar) (s : Session) : Prop where
  orderly : Orderly s
  idle : Idle s
  ready : s.phase = .ready g

theorem freeCall {g : Query.Grammar} {s : Session} (f : Free g s) (host : Host) (call : Call) :
    Free g (s.call host call).1 ∧ (s.call host call).1.tasks = Table.erase s.nextTask s.tasks ∧
    (s.call host call).1.settings = s.settings ∧ (s.call host call).1.legend = s.legend ∧
    (s.call host call).1.store = (s.serve host g call).1.store ∧
    (s.call host call).2 = (s.serve host g call).2 := by
  have opened := openingReady host f.ready
  have quiet : (s.opening host).2 = {} := by simp only [opening,f.ready]
  obtain ⟨finished,rests,_⟩ := callIdle f.orderly f.idle host call
  have orderly : Orderly (s.call host call).1 := collectOrderly (runOrderly f.orderly host (s.schedule call)) finished
  cases wants : call.doc? with
  | none =>
    obtain ⟨loads,same,_⟩ := callStopped (preparedPass opened wants)
    rw [same] at rests orderly ⊢
    have prepare : call = .prepare := by cases call <;> first | rfl | contradiction
    subst prepare
    exact ⟨⟨orderly,rests,opened⟩,rfl,rfl,rfl,rfl,by rw [quiet]; rfl⟩
  | some doc =>
    obtain ⟨loads,same,_⟩ := callServed call opened wants (idleAdmits f.orderly f.idle doc)
    rw [same] at rests orderly ⊢
    exact ⟨⟨orderly,rests,rfl⟩,rfl,rfl,rfl,rfl,by rw [quiet]; rfl⟩

theorem freeInTurn {g : Query.Grammar} {s : Session} (f : Free g s) (host : Host) (calls : List Call) :
    Free g (s.inTurn host calls).1 ∧ (s.inTurn host calls).1.settings = s.settings ∧
    (s.inTurn host calls).1.legend = s.legend := by
  induction calls generalizing s with
  | nil => exact ⟨f,rfl,rfl⟩
  | cons call rest ih =>
    obtain ⟨after,_,settings,legend,_⟩ := freeCall f host call
    obtain ⟨last,same,equal⟩ := ih after
    exact ⟨last,same.trans settings,equal.trans legend⟩

inductive Turn where
  | joined | served | gone
  deriving DecidableEq, Repr

def turn (s : Session) : Event → Option (Turn × TaskId × Call)
  | .pass id =>
    match Table.get? id s.tasks,s.phase with
    | some ⟨call,.atGate⟩,.ready _ => some (if call.doc? = none then .served else .joined,id,call)
    | _,_ => none
  | .work id =>
    match Table.get? id s.tasks,s.phase with
    | some ⟨call,.inside _ _⟩,.ready _ => some (.served,id,call)
    | _,_ => none
  | .cancel id =>
    match Table.get? id s.tasks with
    | some ⟨call,.atGate⟩ | some ⟨call,.waiting _ _⟩ => some (.gone,id,call)
    | _ => none
  | _ => none

def turns (host : Host) : Session → List Event → List (Turn × TaskId × Call)
  | _,[] => []
  | s,e::rest => (s.turn e).toList ++ turns host (s.step host e).1 rest

def those (kind : Turn) (log : List (Turn × TaskId × Call)) : List (TaskId × Call) :=
  log.filterMap fun entry => if entry.1 = kind then some entry.2 else none

theorem thoseAppend (kind : Turn) (log more : List (Turn × TaskId × Call)) :
    those kind (log ++ more) = those kind log ++ those kind more := List.filterMap_append

theorem turnIdle {s : Session} {event : Event} (cannot : s.possible event = false) : s.turn event = none := by
  cases event with
  | pass id =>
    simp only [possible,stage?] at cannot
    simp only [turn]
    split
    · rename_i found ready
      simp [found,ready,isSettled] at cannot
    · rfl
  | work id =>
    simp only [possible,stage?] at cannot
    simp only [turn]
    split
    · rename_i found ready
      simp [found,ready] at cannot
    · rfl
  | cancel id =>
    simp only [possible,stage?] at cannot
    simp only [turn]
    split <;> simp_all
  | _ => rfl

def Answered (s : Session) (entry : TaskId × Call) (outcome : Outcome) : Prop :=
  ∃ stage, Table.get? entry.1 s.tasks = some ⟨entry.2,stage⟩ ∧ stage.outcome? = some outcome

structure Logged (base : TaskId) (log : List (Turn × TaskId × Call)) (outcomes : List Outcome) (s : Session) : Prop where
  answered : List.Forall₂ (Answered s) (those .served log) outcomes
  cancelled : ∀ entry ∈ those .gone log, Table.get? entry.1 s.tasks = some ⟨entry.2,.finished (.error .cancelled)⟩
  accounted : ∀ id t outcome, base ≤ id → Table.get? id s.tasks = some t → t.stage.outcome? = some outcome →
    (id,t.call) ∈ those .served log ++ those .gone log
  old : ∀ id t, id < base → Table.get? id s.tasks = some t → ∃ outcome, t.stage = .finished outcome
  own : ∀ entry ∈ log, base ≤ entry.2.1 ∧ (Table.get? entry.2.1 s.tasks).map Task.call = some entry.2.2
  once : ((those .served log ++ those .gone log).map Prod.fst).Nodup

section
variable {base : TaskId} {log : List (Turn × TaskId × Call)} {outcomes : List Outcome} {s next : Session} {id : TaskId}
  {call : Call} {old stage : Stage} {outcome : Outcome}

theorem answeredKept (found : Table.get? id s.tasks = some ⟨call,old⟩)
    (tasks : next.tasks = Table.put id ⟨call,stage⟩ s.tasks)
    (kept : ∀ outcome, old.outcome? = some outcome → stage.outcome? = some outcome) (entry : TaskId × Call)
    (outcome : Outcome) (answered : Answered s entry outcome) : Answered next entry outcome := by
  obtain ⟨there,at_,done⟩ := answered
  simp only [Answered,tasks,Table.lookupPut]
  split
  · rename_i same
    rw [← same,found] at at_
    cases Option.some.inj at_
    exact ⟨stage,rfl,kept outcome done⟩
  · exact ⟨there,at_,done⟩

theorem cancelledKept {entry : TaskId × Call} (found : Table.get? id s.tasks = some ⟨call,old⟩)
    (moving : ∀ outcome, old ≠ .finished outcome) (tasks : next.tasks = Table.put id ⟨call,stage⟩ s.tasks)
    (there : Table.get? entry.1 s.tasks = some ⟨entry.2,.finished (.error .cancelled)⟩) :
    Table.get? entry.1 next.tasks = some ⟨entry.2,.finished (.error .cancelled)⟩ := by
  rw [tasks,Table.lookupPut]
  split
  · rename_i same
    rw [← same,found] at there
    cases Option.some.inj there
    exact absurd rfl (moving _)
  · exact there

theorem calledKept (found : Table.get? id s.tasks = some ⟨call,old⟩)
    (tasks : next.tasks = Table.put id ⟨call,stage⟩ s.tasks) {entry : TaskId × Call}
    (there : (Table.get? entry.1 s.tasks).map Task.call = some entry.2) :
    (Table.get? entry.1 next.tasks).map Task.call = some entry.2 := by
  rw [tasks,Table.lookupPut]
  split
  · rename_i same
    rw [← same,found] at there
    exact there
  · exact there

theorem loggedOwn (l : Logged base log outcomes s) (found : Table.get? id s.tasks = some ⟨call,old⟩)
    (moving : ∀ outcome, old ≠ .finished outcome) : base ≤ id := by
  apply Nat.le_of_not_lt
  intro before
  obtain ⟨outcome,finished⟩ := l.old id _ before found
  exact moving outcome finished

theorem answeredMember {entries : List (TaskId × Call)} (each : List.Forall₂ (Answered s) entries outcomes)
    {entry : TaskId × Call} (member : entry ∈ entries) : ∃ outcome, Answered s entry outcome := by
  induction each with
  | nil => contradiction
  | cons head tail ih =>
    rcases List.mem_cons.mp member with rfl | later
    · exact ⟨_,head⟩
    · exact ih later

theorem loggedOutcome (l : Logged base log outcomes s) (found : Table.get? id s.tasks = some ⟨call,old⟩)
    (member : id ∈ (those .served log ++ those .gone log).map Prod.fst) : ∃ outcome, old.outcome? = some outcome := by
  obtain ⟨entry,listed,rfl⟩ := List.mem_map.mp member
  rcases List.mem_append.mp listed with served | gone
  · obtain ⟨outcome,stage,there,done⟩ := answeredMember l.answered served
    cases Option.some.inj (found.symm.trans there)
    exact ⟨outcome,done⟩
  · cases Option.some.inj (found.symm.trans (l.cancelled entry gone))
    exact ⟨_,rfl⟩

theorem accountedPut (l : Logged base log outcomes s) (tasks : next.tasks = Table.put id ⟨call,stage⟩ s.tasks)
    {listed : List (TaskId × Call)} (more : ∀ entry ∈ those .served log ++ those .gone log, entry ∈ listed)
    (own : ∀ outcome, stage.outcome? = some outcome → (id,call) ∈ listed) (other : TaskId) (t : Task)
    (outcome : Outcome) (late : base ≤ other) (found : Table.get? other next.tasks = some t)
    (done : t.stage.outcome? = some outcome) : (other,t.call) ∈ listed := by
  rw [tasks,Table.lookupPut] at found
  split at found
  · rename_i same
    cases Option.some.inj found
    exact same ▸ own outcome done
  · exact more _ (l.accounted other t outcome late found done)

theorem oldPut (l : Logged base log outcomes s) (tasks : next.tasks = Table.put id ⟨call,stage⟩ s.tasks)
    (late : base ≤ id) (other : TaskId) (t : Task) (before : other < base)
    (found : Table.get? other next.tasks = some t) : ∃ outcome, t.stage = .finished outcome := by
  have different : id ≠ other := Nat.ne_of_gt (Nat.lt_of_lt_of_le before late)
  rw [tasks,Table.lookupPut,if_neg different] at found
  exact l.old other t before found

theorem loggedSame (l : Logged base log outcomes s) (tasks : next.tasks = s.tasks) : Logged base log outcomes next where
  answered := by
    apply l.answered.imp
    rintro entry outcome ⟨stage,there,done⟩
    exact ⟨stage,tasks ▸ there,done⟩
  cancelled := tasks ▸ l.cancelled
  accounted := tasks ▸ l.accounted
  old := tasks ▸ l.old
  own := tasks ▸ l.own
  once := l.once

theorem loggedMoved (l : Logged base log outcomes s) (found : Table.get? id s.tasks = some ⟨call,old⟩)
    (moving : ∀ outcome, old ≠ .finished outcome) (tasks : next.tasks = Table.put id ⟨call,stage⟩ s.tasks)
    (same : stage.outcome? = old.outcome?) : Logged base log outcomes next where
  answered := l.answered.imp (answeredKept found tasks fun _ done => same.trans done)
  cancelled := fun entry gone => cancelledKept found moving tasks (l.cancelled entry gone)
  accounted := by
    apply accountedPut l tasks fun _ member => member
    intro outcome done
    exact l.accounted id _ outcome (loggedOwn l found moving) found (same.symm.trans done)
  old := oldPut l tasks (loggedOwn l found moving)
  own := fun entry member => ⟨(l.own entry member).1,calledKept found tasks (l.own entry member).2⟩
  once := l.once

theorem loggedJoined (l : Logged base log outcomes s) (late : base ≤ id)
    (found : Table.get? id s.tasks = some ⟨call,stage⟩) :
    Logged base (log ++ [(.joined,id,call)]) outcomes s := by
  have served : those .served (log ++ [(.joined,id,call)]) = those .served log := by simp [those]
  have gone : those .gone (log ++ [(.joined,id,call)]) = those .gone log := by simp [those]
  refine ⟨served ▸ l.answered,gone ▸ l.cancelled,served ▸ gone ▸ l.accounted,l.old,?_,served ▸ gone ▸ l.once⟩
  intro entry member
  rcases List.mem_append.mp member with before | last
  · exact l.own entry before
  · rw [List.mem_singleton.mp last,found]
    exact ⟨late,rfl⟩

theorem loggedEnded (l : Logged base log outcomes s) (found : Table.get? id s.tasks = some ⟨call,old⟩)
    (open_ : old.outcome? = none) (tasks : next.tasks = Table.put id ⟨call,stage⟩ s.tasks) {kind : Turn}
    {more : List Outcome}
    (listed : (those .served (log ++ [(kind,id,call)]) ++ those .gone (log ++ [(kind,id,call)])).Perm
      ((id,call)::(those .served log ++ those .gone log)))
    (answered : List.Forall₂ (Answered next) (those .served (log ++ [(kind,id,call)])) more)
    (cancelled : ∀ entry ∈ those .gone (log ++ [(kind,id,call)]),
      Table.get? entry.1 next.tasks = some ⟨entry.2,.finished (.error .cancelled)⟩) :
    Logged base (log ++ [(kind,id,call)]) more next where
  answered := answered
  cancelled := cancelled
  accounted := by
    apply accountedPut l tasks
    · intro entry member
      exact listed.mem_iff.mpr (List.mem_cons_of_mem _ member)
    · intro outcome done
      exact listed.mem_iff.mpr List.mem_cons_self
  old := by
    apply oldPut l tasks (loggedOwn l found _)
    rintro outcome rfl
    contradiction
  own := by
    intro entry member
    rcases List.mem_append.mp member with before | last
    · exact ⟨(l.own entry before).1,calledKept found tasks (l.own entry before).2⟩
    · rw [List.mem_singleton.mp last,tasks,Table.getPut]
      refine ⟨loggedOwn l found ?_,rfl⟩
      rintro outcome rfl
      contradiction
  once := by
    rw [(listed.map Prod.fst).nodup_iff]
    refine List.nodup_cons.mpr ⟨?_,l.once⟩
    intro member
    obtain ⟨outcome,had⟩ := loggedOutcome l found member
    rw [open_] at had
    contradiction

theorem loggedServed (l : Logged base log outcomes s) (found : Table.get? id s.tasks = some ⟨call,old⟩)
    (open_ : old.outcome? = none) (tasks : next.tasks = Table.put id ⟨call,stage⟩ s.tasks)
    (done : stage.outcome? = some outcome) :
    Logged base (log ++ [(.served,id,call)]) (outcomes ++ [outcome]) next := by
  have served : those .served (log ++ [(.served,id,call)]) = those .served log ++ [(id,call)] := by simp [those]
  have gone : those .gone (log ++ [(.served,id,call)]) = those .gone log := by simp [those]
  apply loggedEnded l found open_ tasks
  · rw [served,gone]
    simp
  · rw [served]
    refine List.rel_append (l.answered.imp ?_) (.cons ⟨stage,by rw [tasks,Table.getPut],done⟩ .nil)
    apply answeredKept found tasks
    intro outcome had
    rw [open_] at had
    contradiction
  · rw [gone]
    intro entry member
    refine cancelledKept found ?_ tasks (l.cancelled entry member)
    rintro outcome rfl
    contradiction

theorem loggedGone (l : Logged base log outcomes s) (found : Table.get? id s.tasks = some ⟨call,old⟩)
    (open_ : old.outcome? = none) (tasks : next.tasks = Table.put id ⟨call,.finished (.error .cancelled)⟩ s.tasks) :
    Logged base (log ++ [(.gone,id,call)]) outcomes next := by
  have served : those .served (log ++ [(.gone,id,call)]) = those .served log := by simp [those]
  have gone : those .gone (log ++ [(.gone,id,call)]) = those .gone log ++ [(id,call)] := by simp [those]
  apply loggedEnded l found open_ tasks
  · rw [served,gone]
    simp [← List.append_assoc]
  · rw [served]
    apply l.answered.imp
    apply answeredKept found tasks
    intro outcome had
    rw [open_] at had
    contradiction
  · rw [gone]
    intro entry member
    rcases List.mem_append.mp member with before | last
    · refine cancelledKept found ?_ tasks (l.cancelled entry before)
      rintro outcome rfl
      contradiction
    · rw [List.mem_singleton.mp last,tasks,Table.getPut]

theorem taskAbsent (o : Orderly s) (late : s.nextTask ≤ id) : Table.get? id s.tasks = none := by
  cases found : Table.get? id s.tasks with
  | none => rfl
  | some t => exact absurd (o.numbered id t found) (Nat.not_lt_of_le late)

theorem startKept (o : Orderly s) {t : Task} (call : Call) (found : Table.get? id s.tasks = some t) :
    Table.get? id (s.start call).tasks = some t := by
  have different : s.nextTask ≠ id := Nat.ne_of_gt (o.numbered id t found)
  rw [start,Table.lookupPut,if_neg different,found]

theorem loggedStart (l : Logged base log outcomes s) (o : Orderly s) (late : base ≤ s.nextTask) (call : Call) :
    Logged base log outcomes (s.start call) where
  answered := by
    apply l.answered.imp
    rintro entry outcome ⟨stage,there,done⟩
    exact ⟨stage,startKept o call there,done⟩
  cancelled := fun entry member => startKept o call (l.cancelled entry member)
  accounted := by
    apply accountedPut l rfl fun _ member => member
    intro outcome done
    contradiction
  old := oldPut l rfl late
  own := by
    intro entry member
    obtain ⟨bound,called⟩ := l.own entry member
    obtain ⟨t,found,same⟩ := Option.map_eq_some_iff.mp called
    rw [startKept o call found]
    exact ⟨bound,congrArg some same⟩
  once := l.once

end

def onDoc (doc : DocId) (entries : List (TaskId × Call)) : List TaskId :=
  (entries.filter fun entry => entry.2.doc? = some doc).map Prod.fst

theorem onDocAppend (doc : DocId) (entries more : List (TaskId × Call)) :
    onDoc doc (entries ++ more) = onDoc doc entries ++ onDoc doc more := by
  simp only [onDoc,List.filter_append,List.map_append]

def unserved (s : Session) (id : TaskId) : Bool := ((s.stage? id).bind Stage.outcome?).isNone

def ahead (s : Session) (doc : DocId) : List TaskId := (s.locks.line doc).filter s.unserved

-- Those served on a document, and after them those that still stand in its line, came in this order.
def InLine (log : List (Turn × TaskId × Call)) (s : Session) : Prop :=
  ∀ doc, (onDoc doc (those .served log) ++ s.ahead doc).Sublist (onDoc doc (those .joined log))

section
variable {host : Host} {s next : Session} {log added : List (Turn × TaskId × Call)}

theorem unservedPut {id : TaskId} {call : Call} {old stage : Stage} (found : Table.get? id s.tasks = some ⟨call,old⟩)
    (tasks : next.tasks = Table.put id ⟨call,stage⟩ s.tasks) (kept : stage.outcome? = none → old.outcome? = none) :
    ∀ j, next.unserved j = true → s.unserved j = true := by
  intro j still
  simp only [unserved,stage?,tasks,Table.lookupPut] at still ⊢
  split at still
  · rename_i same
    subst same
    rw [found]
    simp only [Option.map_some,Option.bind_some,Option.isNone_iff_eq_none] at still ⊢
    exact kept still
  · exact still

theorem aheadShrinks {doc : DocId} (fewer : ∀ j, next.unserved j = true → s.unserved j = true)
    (line : (next.locks.line doc).Sublist (s.locks.line doc)) : (next.ahead doc).Sublist (s.ahead doc) :=
  (List.monotone_filter_right _ fewer).trans (line.filter s.unserved)

theorem inLineQuiet (l : InLine log s) (served : ∀ doc, onDoc doc (those .served added) = [])
    (fewer : ∀ j, next.unserved j = true → s.unserved j = true)
    (line : ∀ doc, (next.locks.line doc).Sublist (s.locks.line doc)) : InLine (log ++ added) next := by
  intro doc
  rw [thoseAppend,thoseAppend,onDocAppend,onDocAppend,served doc,List.append_nil]
  have before := (List.Sublist.refl (onDoc doc (those .served log))).append (aheadShrinks fewer (line doc))
  exact (before.trans (l doc)).trans (List.sublist_append_left ..)

theorem inLineJoined (l : InLine log s) (o : Orderly s) {id : TaskId} {call : Call} {doc : DocId} {lock : LockId}
    (found : Table.get? id s.tasks = some ⟨call,.atGate⟩) (wants : call.doc? = some doc)
    (locks : next.locks = (s.locks.enter doc id).1)
    (tasks : next.tasks = Table.put id ⟨call,.waiting doc lock⟩ s.tasks) :
    InLine (log ++ [(.joined,id,call)]) next := by
  have fewer := unservedPut found tasks fun _ => rfl
  intro other
  have served : those .served (log ++ [(.joined,id,call)]) = those .served log := by simp [those]
  have joined : those .joined (log ++ [(.joined,id,call)]) = those .joined log ++ [(id,call)] := by simp [those]
  have line := o.booked.lineEnter doc other id
  rw [← locks] at line
  rw [served,joined,onDocAppend]
  by_cases own : doc = other
  · subst own
    rw [if_pos rfl] at line
    have last : onDoc doc [(id,call)] = [id] := by simp [onDoc,wants]
    have waits : next.unserved id = true := by simp [unserved,stage?,tasks,Stage.outcome?]
    have grown : next.ahead doc = (s.locks.line doc).filter next.unserved ++ [id] := by
      simp [ahead,line,waits]
    have before := List.monotone_filter_right (s.locks.line doc) fewer
    rw [last,grown,← List.append_assoc]
    exact (((List.Sublist.refl _).append before).trans (l doc)).append (List.Sublist.refl [id])
  · rw [if_neg own] at line
    have stays : (next.ahead other).Sublist (s.ahead other) := aheadShrinks fewer (line ▸ List.Sublist.refl _)
    exact (((List.Sublist.refl _).append stays).trans (l other)).trans (List.sublist_append_left ..)

theorem inLineServed (l : InLine log s) (o : Orderly s) {id : TaskId} {call : Call} {doc : DocId} {lock : LockId}
    {outcome : Outcome} (found : Table.get? id s.tasks = some ⟨call,.inside doc lock⟩) (locks : next.locks = s.locks)
    (tasks : next.tasks = Table.put id ⟨call,.leaving doc lock outcome⟩ s.tasks) :
    InLine (log ++ [(.served,id,call)]) next := by
  have fewer := unservedPut found tasks fun had => by contradiction
  have wants := o.own id _ doc lock found rfl
  intro other
  have served : those .served (log ++ [(.served,id,call)]) = those .served log ++ [(id,call)] := by simp [those]
  have joined : those .joined (log ++ [(.served,id,call)]) = those .joined log := by simp [those]
  rw [served,joined,onDocAppend]
  by_cases own : doc = other
  · subst own
    have holds : s.Holds id := by
      simp only [Holds,stageFound found]
      rfl
    have first := o.booked.lineFirst holds (placeFound found)
    obtain ⟨rest,line⟩ := List.head?_eq_some_iff.mp first
    have last : onDoc doc [(id,call)] = [id] := by simp [onDoc,wants]
    have works : s.unserved id = true := by simp [unserved,stageFound found,Stage.outcome?]
    have done : next.unserved id = false := by simp [unserved,stage?,tasks,Stage.outcome?]
    have before : s.ahead doc = id::rest.filter s.unserved := by simp [ahead,line,works]
    have after : next.ahead doc = rest.filter next.unserved := by simp [ahead,locks,line,done]
    rw [last,after,List.append_assoc,List.singleton_append]
    have shrinks := (List.monotone_filter_right rest fewer).cons_cons id
    rw [← before] at shrinks
    exact ((List.Sublist.refl _).append shrinks).trans (l doc)
  · have none : onDoc other [(id,call)] = [] := by simp [onDoc,wants,own]
    rw [none,List.append_nil]
    have stays : (next.ahead other).Sublist (s.ahead other) := aheadShrinks fewer (locks ▸ List.Sublist.refl _)
    exact ((List.Sublist.refl _).append stays).trans (l other)

theorem inLineStart (l : InLine log s) (o : Orderly s) (call : Call) : InLine log (s.start call) := by
  have fewer : ∀ j, (s.start call).unserved j = true → s.unserved j = true := by
    intro j still
    simp only [unserved,stage?,start,Table.lookupPut] at still ⊢
    split at still
    · rename_i same
      rw [← same,taskAbsent o (Nat.le_refl _)]
      rfl
    · exact still
  have quiet : InLine (log ++ []) (s.start call) := inLineQuiet l (fun _ => rfl) fewer fun _ => List.Sublist.refl _
  rwa [List.append_nil] at quiet

theorem inLineLeft (l : InLine log s) {id : TaskId} {call : Call} {old : Stage} {doc : DocId} {lock : LockId}
    {outcome : Outcome} {stored : Bool} (nobody : ∀ doc, onDoc doc (those .served added) = [])
    (found : Table.get? id s.tasks = some ⟨call,old⟩) (locks : next.locks = s.locks.leave doc lock id stored)
    (tasks : next.tasks = Table.put id ⟨call,.finished outcome⟩ s.tasks) : InLine (log ++ added) next := by
  apply inLineQuiet l nobody (unservedPut found tasks fun had => by contradiction)
  intro other
  rw [locks]
  exact Locks.leaveShrinks ..

end

def servedCalls (log : List (Turn × TaskId × Call)) : List Call := (those .served log).map Prod.snd

-- A session in the middle of its calls, beside the one that took those served so far in turn.
structure Serial (host : Host) (g : Query.Grammar) (first : Session) (log : List (Turn × TaskId × Call))
    (effects : Effects) (s : Session) : Prop where
  orderly : Orderly s
  ready : s.phase = .ready g
  settings : s.settings = first.settings
  legend : s.legend = first.legend
  later : first.nextTask ≤ s.nextTask
  store : s.store = (first.inTurn host (servedCalls log)).1.store
  effects : effects = (first.inTurn host (servedCalls log)).2.2
  logged : Logged first.nextTask log (first.inTurn host (servedCalls log)).2.1 s
  lined : InLine log s

section
variable {host : Host} {g : Query.Grammar} {first s next : Session} {log : List (Turn × TaskId × Call)} {effects : Effects}

theorem serialServed (f : Free g first) (i : Serial host g first log effects s) {id : TaskId} {call : Call}
    {old stage : Stage} (found : Table.get? id s.tasks = some ⟨call,old⟩) (open_ : old.outcome? = none)
    (orderly : Orderly next) (tasks : next.tasks = Table.put id ⟨call,stage⟩ s.tasks)
    (done : stage.outcome? = some (s.serve host g call).2.1)
    (frame : next = { s with store := (s.serve host g call).1.store, tasks := next.tasks })
    (lined : InLine (log ++ [(.served,id,call)]) next) :
    Serial host g first (log ++ [(.served,id,call)]) (effects ++ (s.serve host g call).2.2) next := by
  obtain ⟨free,settings,legend⟩ := freeInTurn f host (servedCalls log)
  obtain ⟨_,_,_,_,stored,answered⟩ := freeCall free host call
  have same := serveSame i.store (i.settings.trans settings.symm) (i.legend.trans legend.symm) host g call
  rw [← same.1] at stored
  rw [← same.2] at answered
  have calls : servedCalls (log ++ [(.served,id,call)]) = servedCalls log ++ [call] := by simp [servedCalls,those]
  have turned := inTurnSnoc host first (servedCalls log) call
  rw [← calls] at turned
  constructor
  case orderly => exact orderly
  case ready => rw [frame]; exact i.ready
  case settings => rw [frame]; exact i.settings
  case legend => rw [frame]; exact i.legend
  case later => rw [frame]; exact i.later
  case store => rw [turned,stored,frame]
  case effects => rw [turned,answered,i.effects]
  case logged =>
    rw [turned,answered]
    exact loggedServed i.logged found open_ tasks done
  case lined => exact lined

theorem serialQuiet (i : Serial host g first log effects s) {added : List (Turn × TaskId × Call)}
    (nobody : those .served added = []) (orderly : Orderly next) (phase : next.phase = s.phase)
    (settings : next.settings = s.settings) (legend : next.legend = s.legend) (later : s.nextTask ≤ next.nextTask)
    (store : next.store = s.store)
    (logged : Logged first.nextTask (log ++ added) (first.inTurn host (servedCalls log)).2.1 next)
    (lined : InLine (log ++ added) next) :
    Serial host g first (log ++ added) effects next := by
  have calls : servedCalls (log ++ added) = servedCalls log := by
    rw [servedCalls,thoseAppend,nobody,List.append_nil,servedCalls]
  rw [← calls] at logged
  refine ⟨orderly,phase.trans i.ready,settings.trans i.settings,legend.trans i.legend,Nat.le_trans i.later later,?_,?_,
    logged,lined⟩
  · rw [calls,store]
    exact i.store
  · rw [calls]
    exact i.effects

theorem unmarked {event : Event} (nothing : s.turn event = none) : log ++ (s.turn event).toList = log := by
  rw [nothing,Option.toList_none,List.append_nil]

theorem takenSerial (f : Free g first) (i : Serial host g first log effects s) {event : Event} {more : Effects}
    (taken : Taken host s event next more) :
    Serial host g first (log ++ (s.turn event).toList) (effects ++ more) next := by
  have orderly : Orderly next := takenOrderly i.orderly taken
  have same : ∀ doc, (s.locks.line doc).Sublist (s.locks.line doc) := fun _ => List.Sublist.refl _
  cases taken with
  | start call =>
    rw [Document.effectsLast]
    have phase : (s.start call).phase = s.phase := by simp only [start,i.ready]
    apply serialQuiet i rfl orderly phase rfl rfl (Nat.le_succ _) rfl
    · rw [unmarked rfl]
      exact loggedStart i.logged i.orderly i.later call
    · rw [unmarked rfl]
      exact inLineStart i.lined i.orderly call
  | loaded g' starting load =>
    rw [i.ready] at starting
    contradiction
  | broken cause starting load =>
    rw [i.ready] at starting
    contradiction
  | prepared id call g' found ready free =>
    have prepare : call = .prepare := by cases call <;> first | rfl | contradiction
    subst prepare
    have marked : s.turn (.pass id) = some (.served,id,.prepare) := by simp [turn,found,ready,Call.doc?]
    rw [marked,Option.toList_some]
    apply serialServed f i found rfl orderly rfl rfl rfl
    exact inLineQuiet i.lined (fun _ => rfl) (unservedPut found rfl fun _ => rfl) same
  | refused id call cause found failed =>
    rw [i.ready] at failed
    contradiction
  | enter id call g' doc found ready wants =>
    have marked : s.turn (.pass id) = some (.joined,id,call) := by simp [turn,found,ready,wants]
    rw [marked,Option.toList_some,Document.effectsLast]
    apply serialQuiet i rfl orderly rfl rfl rfl (Nat.le_refl _) rfl
    · refine loggedJoined ?_ (loggedOwn i.logged found fun _ => Stage.noConfusion) (Table.getPut ..)
      exact loggedMoved i.logged found (fun _ => Stage.noConfusion) rfl rfl
    · exact inLineJoined i.lined i.orderly found wants rfl rfl
  | acquire id call doc lock found may =>
    rw [Document.effectsLast]
    apply serialQuiet i rfl orderly rfl rfl rfl (Nat.le_refl _) rfl
    · rw [unmarked rfl]
      exact loggedMoved i.logged found (fun _ => Stage.noConfusion) rfl rfl
    · exact inLineQuiet i.lined (fun _ => rfl) (unservedPut found rfl fun _ => rfl) same
  | work id call g' doc lock found ready =>
    cases Phase.ready.inj (i.ready.symm.trans ready)
    have marked : s.turn (.work id) = some (.served,id,call) := by simp [turn,found,ready]
    rw [marked,Option.toList_some]
    exact serialServed f i found rfl orderly rfl rfl rfl (inLineServed i.lined i.orderly found rfl rfl)
  | leave id call doc lock outcome found =>
    rw [Document.effectsLast]
    apply serialQuiet i rfl orderly rfl rfl rfl (Nat.le_refl _) rfl
    · rw [unmarked rfl]
      exact loggedMoved i.logged found (fun _ => Stage.noConfusion) rfl rfl
    · exact inLineLeft i.lined (fun _ => rfl) found rfl rfl
  | dropped id call found =>
    have marked : s.turn (.cancel id) = some (.gone,id,call) := by simp [turn,found]
    rw [marked,Option.toList_some,Document.effectsLast]
    apply serialQuiet i rfl orderly rfl rfl rfl (Nat.le_refl _) rfl (loggedGone i.logged found rfl rfl)
    exact inLineQuiet i.lined (fun _ => rfl) (unservedPut found rfl fun _ => rfl) same
  | abandon id call doc lock found =>
    have marked : s.turn (.cancel id) = some (.gone,id,call) := by simp [turn,found]
    rw [marked,Option.toList_some,Document.effectsLast]
    apply serialQuiet i rfl orderly rfl rfl rfl (Nat.le_refl _) rfl (loggedGone i.logged found rfl rfl)
    exact inLineLeft i.lined (fun _ => rfl) found rfl rfl
  | hold lock =>
    rw [unmarked rfl,Document.effectsLast]
    exact { i with orderly, logged := loggedSame i.logged rfl, lined := i.lined }
  | release lock =>
    rw [unmarked rfl,Document.effectsLast]
    exact { i with orderly, logged := loggedSame i.logged rfl, lined := i.lined }

theorem stepSerial (f : Free g first) (i : Serial host g first log effects s) (event : Event) :
    Serial host g first (log ++ (s.turn event).toList) (effects ++ (s.step host event).2) (s.step host event).1 := by
  cases can : s.possible event with
  | true => exact takenSerial f i (stepTaken host can)
  | false =>
    rw [unmarked (turnIdle can),stepIdle host can,Document.effectsLast]
    exact i

theorem runSerial (f : Free g first) (i : Serial host g first log effects s) (events : List Event) :
    Serial host g first (log ++ turns host s events) (effects ++ (s.run host events).2) (s.run host events).1 := by
  induction events generalizing log effects s with
  | nil => simpa only [turns,run,List.append_nil,Document.effectsLast] using i
  | cons e rest ih =>
    have later := ih (stepSerial f i e)
    rw [List.append_assoc,Document.effectsAssoc] at later
    exact later

end

structure AtRest (s : Session) : Prop where
  finished : ∀ id t, Table.get? id s.tasks = some t → ∃ outcome, t.stage = .finished outcome
  free : s.locks.held = []

section
variable {s : Session}

theorem restPlaces (rests : AtRest s) (id : TaskId) : s.place? id = none := by
  cases found : Table.get? id s.tasks with
  | none => simp only [place?,stage?,found,Option.map_none,Option.bind_none]
  | some t =>
    obtain ⟨outcome,finished⟩ := rests.finished id t found
    rw [placeFound found,finished]
    rfl

theorem freeLine (o : Orderly s) (nobody : ∀ id, s.place? id = none) (doc : DocId) : s.locks.line doc = [] := by
  apply List.eq_nil_iff_forall_not_mem.mpr
  intro id member
  obtain ⟨lock,there⟩ := (o.booked.memLine id doc).mp member
  rw [nobody id] at there
  contradiction

theorem restSerial (host : Host) {g : Query.Grammar} (o : Orderly s) (ready : s.phase = .ready g) (rests : AtRest s)
    (events : List Event) :
    Serial host g s (turns host s events) (s.run host events).2 (s.run host events).1 := by
  have free : Free g s := ⟨o,⟨restPlaces rests,rests.free⟩,ready⟩
  have first : Serial host g s [] {} s := by
    refine ⟨o,ready,rfl,rfl,Nat.le_refl _,rfl,rfl,⟨.nil,?_,?_,?_,?_,List.nodup_nil⟩,?_⟩
    · intro entry member
      contradiction
    · intro id t outcome late found
      rw [taskAbsent o late] at found
      contradiction
    · intro id t _ found
      exact rests.finished id t found
    · intro entry member
      contradiction
    · intro doc
      simp only [ahead,freeLine o (restPlaces rests) doc]
      exact List.Sublist.refl _
  exact runSerial free first events

end

end Session
end Tinct
