import Tinct.Proofs.GroupOrder
import Mathlib.Data.List.Zip

/-! Rounds of calls: one call alone, or several together while the host holds a document's lock, some of them cancelled
meanwhile. A round leaves the session at rest, and what it gives is what its calls give when they are taken in turn:
first those that need not wait, then those that wait and are not cancelled. -/
namespace Tinct

def select {κ α : Type} (keys : List κ) (wanted : κ → Bool) (items : List α) : List α :=
  ((items.zip keys).filter fun item => wanted item.2).map Prod.fst

section
variable {κ ι α : Type}

theorem selectMap (f : ι → κ) (keys : List ι) (wanted : κ → Bool) (items : List α) :
    select (keys.map f) wanted items = select keys (fun key => wanted (f key)) items := by
  simp only [select,List.zip_map_right,List.filter_map,List.map_map]
  rfl

theorem selectCons (key : κ) (keys : List κ) (wanted : κ → Bool) (item : α) (items : List α) :
    select (key::keys) wanted (item::items) =
      if wanted key then item::select keys wanted items else select keys wanted items := by
  simp only [select,List.zip_cons_cons,List.filter_cons]
  split <;> rfl

theorem selectOwn (keys : List κ) (wanted : κ → Bool) (answer : κ → α) :
    select keys wanted (keys.map answer) = (keys.filter wanted).map answer := by
  induction keys with
  | nil => rfl
  | cons key rest ih =>
    rw [List.map_cons,selectCons,ih,List.filter_cons]
    split <;> rfl

theorem selectPlaces (items : List α) (wanted : α × Nat → Bool) :
    select items.zipIdx wanted items = (items.zipIdx.filter wanted).map Prod.fst := by
  have own := selectOwn items.zipIdx wanted Prod.fst
  rwa [List.zipIdx_map_fst] at own

theorem selectCongr {keys : List κ} {wanted other : κ → Bool} (same : ∀ key ∈ keys, wanted key = other key)
    (items : List α) : select keys wanted items = select keys other items := by
  simp only [select]
  congr 1
  apply List.filter_congr
  intro item member
  exact same item.2 (List.of_mem_zip member).2

theorem selectTwice {keys : List κ} {items : List α} (size : items.length = keys.length) (first wanted : κ → Bool) :
    select (keys.filter first) wanted (select keys first items) =
      select keys (fun key => first key && wanted key) items := by
  induction keys generalizing items with
  | nil =>
    cases items with
    | nil => rfl
    | cons item others => contradiction
  | cons key rest ih =>
    cases items with
    | nil => contradiction
    | cons item others =>
      have later := ih (Nat.succ.inj size)
      rw [selectCons,selectCons,List.filter_cons,← later]
      cases first key with
      | false => rfl
      | true =>
        simp only [if_true,Bool.true_and]
        rw [selectCons]

theorem selectLength {keys : List κ} {items : List α} (size : items.length = keys.length) (wanted : κ → Bool) :
    (select keys wanted items).length = (keys.filter wanted).length := by
  induction keys generalizing items with
  | nil =>
    cases items with
    | nil => rfl
    | cons item others => contradiction
  | cons key rest ih =>
    cases items with
    | nil => contradiction
    | cons item others =>
      have later := ih (Nat.succ.inj size)
      rw [selectCons,List.filter_cons]
      split
      · rw [List.length_cons,List.length_cons,later]
      · exact later

theorem selectApart {keys : List κ} {items others : List α} (size : items.length = keys.length)
    (same : others.length = keys.length) (wanted : κ → Bool)
    (inside : select keys wanted items = select keys wanted others)
    (outside : select keys (fun key => !wanted key) items = select keys (fun key => !wanted key) others) :
    items = others := by
  induction keys generalizing items others with
  | nil => rw [List.eq_nil_of_length_eq_zero size,List.eq_nil_of_length_eq_zero same]
  | cons key rest ih =>
    cases items with
    | nil => contradiction
    | cons item items =>
      cases others with
      | nil => contradiction
      | cons other others =>
        rw [selectCons,selectCons] at inside outside
        have shorter := ih (Nat.succ.inj size) (Nat.succ.inj same)
        cases chosen : wanted key with
        | true =>
          simp only [chosen,if_true,Bool.not_true,Bool.false_eq_true,if_false,List.cons.injEq] at inside outside
          rw [inside.1,shorter inside.2 outside]
        | false =>
          simp only [chosen,if_true,Bool.not_false,Bool.false_eq_true,if_false,List.cons.injEq] at inside outside
          rw [outside.1,shorter inside outside.2]

theorem selectBoth {keys : List κ} {items others : List α} (size : items.length = keys.length)
    (same : others.length = keys.length) (wanted : κ → Bool)
    (parts : select keys (fun key => !wanted key) items ++ select keys wanted items =
      select keys (fun key => !wanted key) others ++ select keys wanted others) : items = others := by
  have equal : (select keys (fun key => !wanted key) items).length =
      (select keys (fun key => !wanted key) others).length := by rw [selectLength size,selectLength same]
  obtain ⟨outside,inside⟩ := List.append_inj parts equal
  exact selectApart size same wanted inside outside

end

-- A round of calls: one alone, one that is cancelled at its first wait, or several together.
inductive Round where
  | single (call : Call)
  | hurried (call : Call)
  | group (calls : List Call) (hold : Option DocId) (cancels : List Nat)
  deriving DecidableEq, Repr

namespace Round

def calls : Round → List Call
  | single call | hurried call => [call]
  | group calls _ _ => calls

def hold : Round → Option DocId
  | single _ | hurried _ => none
  | group _ hold _ => hold

def cancels : Round → List Nat
  | single _ | hurried _ => []
  | group _ _ cancels => cancels

def play (host : Host) (s : Session) : Round → Session × List Outcome × Document.Effects
  | single call => ((s.call host call).1,[(s.call host call).2.1],(s.call host call).2.2)
  | hurried call =>
    ((s.callCancelled host call).1,[(s.callCancelled host call).2.1],(s.callCancelled host call).2.2)
  | group calls hold cancels =>
    ((s.callTogether host calls hold cancels).1,(s.callTogether host calls hold cancels).2.outcomes,
      (s.callTogether host calls hold cancels).2.effects)

end Round

namespace Session
open Document (Effects)

def waits (s : Session) (round : Round) (slot : Call × Nat) : Bool := barred (s.closing round.hold) slot.1

def lost (s : Session) (round : Round) (slot : Call × Nat) : Bool :=
  s.waits round slot && round.cancels.contains slot.2

theorem notLost {s : Session} {round : Round} {slot : Call × Nat} (goes : s.waits round slot = false) :
    s.lost round slot = false := by
  rw [lost,goes,Bool.false_and]

def remaining {α : Type} (s : Session) (round : Round) (items : List α) : List α :=
  select round.calls.zipIdx (fun slot => !s.lost round slot) items

-- First those that need not wait, then those that wait and are not cancelled.
def inOrder {α : Type} (s : Session) (round : Round) (items : List α) : List α :=
  select round.calls.zipIdx (fun slot => !s.waits round slot) items ++
    select round.calls.zipIdx (fun slot => s.waits round slot && !s.lost round slot) items

section
variable {s : Session} {ids : List TaskId}

theorem collectAllFrame (s : Session) (ids : List TaskId) :
    (s.collectAll ids).1 = { s with tasks := (s.collectAll ids).1.tasks } := by
  induction ids generalizing s with
  | nil => rfl
  | cons id rest ih =>
    simp only [collectAll]
    rw [ih]
    rfl

theorem collectAllTasks (s : Session) (ids : List TaskId) (j : TaskId) :
    Table.get? j (s.collectAll ids).1.tasks = if j ∈ ids then none else Table.get? j s.tasks := by
  induction ids generalizing s with
  | nil => rfl
  | cons id rest ih =>
    have later := ih (s.collect id).1
    simp only [collect,Table.lookupErase] at later
    simp only [collectAll,collect]
    rw [later]
    by_cases here : j = id
    · simp [here]
    · have different : id ≠ j := fun same => here same.symm
      simp [here,different]

theorem collectAllOutcomes (s : Session) (once : ids.Nodup) :
    (s.collectAll ids).2 = ids.map fun id => (s.outcome? id).getD (.error .cancelled) := by
  induction ids generalizing s with
  | nil => rfl
  | cons id rest ih =>
    obtain ⟨fresh,once⟩ := List.nodup_cons.mp once
    simp only [collectAll,List.map_cons]
    rw [ih _ once]
    refine congrArg₂ List.cons rfl (List.map_congr_left ?_)
    intro j member
    have different : id ≠ j := fun same => fresh (same ▸ member)
    simp only [outcome?,stage?,collect,Table.lookupErase,if_neg different]

theorem collectAllOrderly (o : Orderly s) (once : ids.Nodup)
    (finished : ∀ id ∈ ids, ∃ outcome, s.outcome? id = some outcome) : Orderly (s.collectAll ids).1 := by
  induction ids generalizing s with
  | nil => exact o
  | cons id rest ih =>
    obtain ⟨fresh,once⟩ := List.nodup_cons.mp once
    obtain ⟨outcome,done⟩ := finished id List.mem_cons_self
    refine ih (collectOrderly o done) once ?_
    intro j member
    have different : id ≠ j := fun same => fresh (same ▸ member)
    obtain ⟨outcome,done⟩ := finished j (List.mem_cons_of_mem _ member)
    refine ⟨outcome,?_⟩
    rw [← done]
    simp only [outcome?,stage?,Table.lookupErase,if_neg different]

theorem restOutcome (rests : AtRest s) {entry : TaskId × Call} {outcome : Outcome} (answered : Answered s entry outcome) :
    s.outcome? entry.1 = some outcome := by
  obtain ⟨stage,found,done⟩ := answered
  obtain ⟨other,finished⟩ := rests.finished entry.1 _ found
  cases finished
  cases Option.some.inj done
  simp only [outcome?,stageFound found]

theorem restAnswers (rests : AtRest s) {entries : List (TaskId × Call)} {outcomes : List Outcome}
    (answered : List.Forall₂ (Answered s) entries outcomes) :
    entries.map (fun entry => (s.outcome? entry.1).getD (.error .cancelled)) = outcomes := by
  induction answered with
  | nil => rfl
  | cons head tail ih => rw [List.map_cons,ih,restOutcome rests head,Option.getD_some]

theorem runFinished (host : Host) (o : Orderly s) {id : TaskId} {call : Call} {outcome : Outcome}
    (found : Table.get? id s.tasks = some ⟨call,.finished outcome⟩) (events : List Event) :
    Table.get? id (s.run host events).1.tasks = some ⟨call,.finished outcome⟩ := by
  induction events generalizing s with
  | nil => exact found
  | cons e rest ih =>
    obtain ⟨later,there,_,same⟩ := stepOnward host o e found
    rw [same outcome rfl] at there
    exact ih (stepOrderly o host e) there

end

structure Restful (g : Query.Grammar) (s : Session) : Prop where
  orderly : Orderly s
  ready : s.phase = .ready g
  rests : AtRest s

theorem restfulFree {g : Query.Grammar} {s : Session} (f : Restful g s) : Free g s :=
  ⟨f.orderly,⟨restPlaces f.rests,f.rests.free⟩,f.ready⟩

section
variable {g : Query.Grammar} {s : Session} (calls : List Call) (hold : Option DocId) (cancels : List Nat)

theorem groupRests (host : Host) (f : Restful g s) : AtRest (s.run host (s.together calls hold cancels)).1 := by
  have draining := groupDraining calls hold cancels host f.orderly f.ready f.rests
  rw [together,runThen]
  exact drainedRests (drainAll host draining (ticketsOrdered calls.length))

theorem groupFinished (host : Host) (f : Restful g s) {entry : TaskId × Call} (member : entry ∈ s.lot calls) :
    ∃ outcome, Table.get? entry.1 (s.run host (s.together calls hold cancels)).1.tasks =
      some ⟨entry.2,.finished outcome⟩ := by
  have called := runCalled (calledFirst f.orderly) host (s.together calls hold cancels)
  rw [together,startedAppend,partingStarted,startedThrough,List.append_nil] at called
  obtain ⟨k,number,call⟩ := memLot calls member
  have listed := called.listed k
  rw [← number,List.nil_append,call] at listed
  obtain ⟨⟨own,stage⟩,found,same⟩ := Option.map_eq_some_iff.mp listed
  cases same
  obtain ⟨outcome,finished⟩ := (groupRests calls hold cancels host f).finished entry.1 _ found
  cases finished
  exact ⟨outcome,found⟩

theorem groupCancelled (host : Host) (f : Restful g s) {entry : TaskId × Call} (member : entry ∈ s.lot calls)
    (waits : barred (s.closing hold) entry.2 = true) (listed : entry.1 ∈ s.chosen calls cancels) :
    (s.run host (s.together calls hold cancels)).1.outcome? entry.1 = some (.error .cancelled) := by
  obtain ⟨stage,there,_,cancelled⟩ := partedStatus calls hold cancels host f.orderly f.ready f.rests entry member
  cases cancelled waits listed
  have kept := runFinished host (runOrderly f.orderly host _) there ((s.tickets calls.length).flatMap through)
  rw [← runThen] at kept
  simp only [outcome?,together,stageFound kept]

def servedLot (s : Session) : List (TaskId × Call) :=
  (s.lot calls).filter (fun entry => !barred (s.closing hold) entry.2) ++
  (s.lot calls).filter fun entry =>
    barred (s.closing hold) entry.2 && !decide (entry.1 ∈ s.chosen calls cancels)

structure Grouped (host : Host) (g : Query.Grammar) (s : Session) (answer : TaskId × Call → Outcome) : Prop where
  after : Restful g (s.callTogether host calls hold cancels).1
  settings : (s.callTogether host calls hold cancels).1.settings = s.settings
  legend : (s.callTogether host calls hold cancels).1.legend = s.legend
  store : (s.callTogether host calls hold cancels).1.store =
    (s.inTurn host ((servedLot calls hold cancels s).map Prod.snd)).1.store
  effects : (s.callTogether host calls hold cancels).2.effects =
    (s.inTurn host ((servedLot calls hold cancels s).map Prod.snd)).2.2
  outcomes : (s.callTogether host calls hold cancels).2.outcomes = (s.lot calls).map answer
  answers : (servedLot calls hold cancels s).map answer =
    (s.inTurn host ((servedLot calls hold cancels s).map Prod.snd)).2.1
  cancelled : ∀ entry ∈ s.lot calls, barred (s.closing hold) entry.2 = true → entry.1 ∈ s.chosen calls cancels →
    answer entry = .error .cancelled

theorem groupedAll (host : Host) (f : Restful g s) : ∃ answer, Grouped calls hold cancels host g s answer := by
  have rests := groupRests calls hold cancels host f
  have serial := restSerial host f.orderly f.ready f.rests (s.together calls hold cancels)
  have served := groupServed calls hold cancels host f.orderly f.ready f.rests
  have calls' : servedCalls (turns host s (s.together calls hold cancels)) =
      (servedLot calls hold cancels s).map Prod.snd := congrArg (List.map Prod.snd) served
  have answered := serial.logged.answered
  have stored := serial.store
  have done := serial.effects
  rw [served,calls'] at answered
  rw [calls'] at stored done
  obtain ⟨users,same⟩ := togetherRun host s calls hold cancels
  have finished : ∀ id ∈ s.tickets calls.length, ∃ outcome,
      (s.run host (s.together calls hold cancels)).1.outcome? id = some outcome := by
    intro id member
    rw [← lotTasks] at member
    obtain ⟨entry,listed,rfl⟩ := List.mem_map.mp member
    obtain ⟨outcome,found⟩ := groupFinished calls hold cancels host f listed
    exact ⟨outcome,by simp only [outcome?,stageFound found]⟩
  refine ⟨fun entry => ((s.run host (s.together calls hold cancels)).1.outcome? entry.1).getD (.error .cancelled),?_⟩
  have frame := collectAllFrame (s.run host (s.together calls hold cancels)).1 (s.tickets calls.length)
  constructor
  case after =>
    rw [same]
    refine ⟨collectAllOrderly serial.orderly (ticketsNodup _) finished,?_,?_,?_⟩
    · rw [frame]
      exact serial.ready
    · intro id t found
      rw [collectAllTasks] at found
      split at found
      · contradiction
      · exact rests.finished id t found
    · rw [frame]
      exact rests.free
  case settings =>
    rw [same,frame]
    exact serial.settings
  case legend =>
    rw [same,frame]
    exact serial.legend
  case store =>
    rw [same,frame]
    exact stored
  case effects =>
    rw [same]
    exact done
  case outcomes =>
    rw [same]
    dsimp only
    rw [collectAllOutcomes _ (ticketsNodup _),← lotTasks,List.map_map]
    rfl
  case answers => exact restAnswers rests answered
  case cancelled =>
    intro entry member waits listed
    rw [groupCancelled calls hold cancels host f member waits listed,Option.getD_some]

theorem lotSlots (s : Session) :
    s.lot calls = calls.zipIdx.map fun slot => (s.nextTask + slot.2,slot.1) := by
  have same : s.lot calls = (calls.zip (s.tickets calls.length)).map Prod.swap := (List.zip_swap _ _).symm
  rw [same,tickets,List.zip_map_right,List.zipIdx_eq_zip_range',← List.range_eq_range',List.map_map]
  rfl

theorem chosenSlot {slot : Call × Nat} (member : slot ∈ calls.zipIdx) :
    s.nextTask + slot.2 ∈ s.chosen calls cancels ↔ slot.2 ∈ cancels := by
  have within : slot.2 < calls.length := List.snd_lt_of_mem_zipIdx member
  constructor
  · intro listed
    obtain ⟨k,chosen,ticket⟩ := List.mem_filterMap.mp listed
    rw [tickets,List.getElem?_map] at ticket
    obtain ⟨j,number,same⟩ := Option.map_eq_some_iff.mp ticket
    obtain ⟨_,equal⟩ := List.getElem?_eq_some_iff.mp number
    rw [List.getElem_range] at equal
    have here : slot.2 = k := (Nat.add_left_cancel same).symm.trans equal.symm
    rw [here]
    exact List.contains_iff_mem.mp (List.mem_filter.mp chosen).2
  · intro wanted
    refine List.mem_filterMap.mpr ⟨slot.2,List.mem_filter.mpr ⟨?_,List.contains_iff_mem.mpr wanted⟩,?_⟩
    · simp [tickets,within]
    · simp [tickets,within]

end

structure Turned (host : Host) (g : Query.Grammar) (s : Session) (round : Round) : Prop where
  after : Restful g (round.play host s).1
  settings : (round.play host s).1.settings = s.settings
  legend : (round.play host s).1.legend = s.legend
  store : (round.play host s).1.store = (s.inTurn host (s.inOrder round round.calls)).1.store
  serial : (s.inTurn host (s.inOrder round round.calls)).2 =
    (s.inOrder round (round.play host s).2.1,(round.play host s).2.2)
  size : (round.play host s).2.1.length = round.calls.length
  cancelled : ∀ outcome ∈ select round.calls.zipIdx (s.lost round) (round.play host s).2.1, outcome = .error .cancelled

section
variable {g : Query.Grammar} {s : Session}

theorem callRestful (host : Host) (f : Restful g s) (call : Call) : Restful g (s.call host call).1 := by
  obtain ⟨free,tasks,_⟩ := freeCall (restfulFree f) host call
  refine ⟨free.orderly,free.ready,?_,free.idle.free⟩
  intro id t found
  rw [tasks,Table.lookupErase] at found
  split at found
  · contradiction
  · exact f.rests.finished id t found

theorem aloneOrder {α : Type} (s : Session) {round : Round} {call : Call} (calls : round.calls = [call])
    (hold : round.hold = none) (item : α) :
    s.inOrder round [item] = [item] ∧ select round.calls.zipIdx (s.lost round) [item] = [] := by
  have waits : s.waits round (call,0) = false := by rw [waits,hold]; rfl
  simp [inOrder,select,calls,waits,notLost waits]

theorem turnedAlone (host : Host) (f : Restful g s) {round : Round} {call : Call} (calls : round.calls = [call])
    (hold : round.hold = none)
    (played : round.play host s = ((s.call host call).1,[(s.call host call).2.1],(s.call host call).2.2)) :
    Turned host g s round := by
  obtain ⟨_,_,settings,legend,_,_⟩ := freeCall (restfulFree f) host call
  have order := (aloneOrder s calls hold call).1
  have turn : s.inTurn host [call] = ((s.call host call).1,[(s.call host call).2.1],(s.call host call).2.2) := by
    simp only [inTurn,Document.effectsLast]
  constructor
  case after =>
    rw [played]
    exact callRestful host f call
  case settings => rw [played,settings]
  case legend => rw [played,legend]
  case store => rw [played,calls,order,turn]
  case serial => rw [played,calls,order,turn,(aloneOrder s calls hold (s.call host call).2.1).1]
  case size => rw [played,calls]; rfl
  case cancelled =>
    intro outcome nobody
    rw [played,(aloneOrder s calls hold (s.call host call).2.1).2] at nobody
    contradiction

theorem turnedHurried (host : Host) (f : Restful g s) (call : Call) : Turned host g s (.hurried call) := by
  have settled : s.isSettled = true := by simp only [isSettled,f.ready]
  have same : s.callCancelled host call = s.call host call := by simp only [callCancelled,settled,if_true]
  exact turnedAlone host f rfl rfl (by simp only [Round.play,same])

theorem servedSlots (s : Session) (calls : List Call) (hold : Option DocId) (cancels : List Nat) :
    servedLot calls hold cancels s =
      (calls.zipIdx.filter (fun slot => !s.waits (.group calls hold cancels) slot) ++
        calls.zipIdx.filter fun slot =>
          s.waits (.group calls hold cancels) slot && !s.lost (.group calls hold cancels) slot).map
        fun slot => (s.nextTask + slot.2,slot.1) := by
  rw [servedLot,lotSlots,List.filter_map,List.filter_map,List.map_append]
  congr 2
  apply List.filter_congr
  intro slot member
  have listed : decide (s.nextTask + slot.2 ∈ s.chosen calls cancels) = cancels.contains slot.2 := by
    rw [Bool.eq_iff_iff,decide_eq_true_iff,chosenSlot calls cancels member,List.contains_iff_mem]
  simp only [Function.comp_apply,listed,lost,waits,Round.hold,Round.cancels]
  cases barred (s.closing hold) slot.1 <;> rfl

theorem turnedGroup (host : Host) (f : Restful g s) (calls : List Call) (hold : Option DocId) (cancels : List Nat) :
    Turned host g s (.group calls hold cancels) := by
  obtain ⟨answer,grouped⟩ := groupedAll calls hold cancels host f
  have entries := servedSlots s calls hold cancels
  have outcomes := grouped.outcomes
  rw [lotSlots,List.map_map] at outcomes
  have played : ((Round.group calls hold cancels).play host s).2.1 =
      calls.zipIdx.map (answer ∘ fun slot => (s.nextTask + slot.2,slot.1)) := outcomes
  have ordered : s.inOrder (.group calls hold cancels) calls = (servedLot calls hold cancels s).map Prod.snd := by
    rw [inOrder,Round.calls,selectPlaces,selectPlaces,entries,List.map_map,List.map_append]
    rfl
  have answered : s.inOrder (.group calls hold cancels) ((Round.group calls hold cancels).play host s).2.1 =
      (servedLot calls hold cancels s).map answer := by
    rw [played,inOrder,Round.calls,selectOwn,selectOwn,entries,List.map_map,List.map_append]
  constructor
  case after => exact grouped.after
  case settings => exact grouped.settings
  case legend => exact grouped.legend
  case store =>
    rw [Round.calls,ordered]
    exact grouped.store
  case serial =>
    rw [answered,Round.calls,ordered,grouped.answers]
    exact Prod.ext rfl grouped.effects.symm
  case size => rw [played,List.length_map,List.length_zipIdx,Round.calls]
  case cancelled =>
    intro outcome member
    rw [played,Round.calls,selectOwn] at member
    obtain ⟨slot,listed,rfl⟩ := List.mem_map.mp member
    obtain ⟨there,gone⟩ := List.mem_filter.mp listed
    obtain ⟨waits,chosen⟩ := Bool.and_eq_true_iff.mp gone
    refine grouped.cancelled _ ?_ waits ((chosenSlot calls cancels there).mpr (List.contains_iff_mem.mp chosen))
    rw [lotSlots]
    exact List.mem_map_of_mem there

theorem turnedAll (host : Host) (f : Restful g s) (round : Round) : Turned host g s round := by
  cases round with
  | single call => exact turnedAlone host f rfl rfl rfl
  | hurried call => exact turnedHurried host f call
  | group calls hold cancels => exact turnedGroup host f calls hold cancels

end

end Session
end Tinct
