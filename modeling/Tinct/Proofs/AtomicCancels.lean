import Tinct.Proofs.CallRounds

/-! Cancellation is atomic, and calls are served as if one after another: for steps in any order and for rounds of calls.
A session goes on beside one that never had the cancelled calls and beside one that takes the calls in turn; in store
and locks the three stay alike, and they give the same answers and effects. -/
namespace Tinct

theorem filterTogether {ι : Type} {items : List ι} {mine late gone : ι → Bool} {all : Bool}
    (fixed : ∀ item, mine item = true → late item = all) (only : ∀ item, late item = false → gone item = false) :
    items.filter (fun item => mine item && !late item) ++
        items.filter (fun item => mine item && (late item && !gone item)) =
      items.filter fun item => mine item && !gone item := by
  have early : ∀ item ∈ items, (mine item && !late item) = (!all && (mine item && !gone item)) := by
    intro item _
    cases own : mine item with
    | false => exact (Bool.and_false _).symm
    | true =>
      have same := fixed item own
      cases all with
      | false => rw [same,only item same]; rfl
      | true => rw [same]; rfl
  have after : ∀ item ∈ items, (mine item && (late item && !gone item)) = (all && (mine item && !gone item)) := by
    intro item _
    cases own : mine item with
    | false => exact (Bool.and_false _).symm
    | true => rw [fixed item own]; rfl
  rw [List.filter_congr early,List.filter_congr after]
  cases all with
  | false => simp only [Bool.not_false,Bool.true_and,Bool.false_and,List.filter_false,List.append_nil]
  | true => simp only [Bool.not_true,Bool.true_and,Bool.false_and,List.filter_false,List.nil_append]

namespace Session
open Document (Effects)

def thinned (s : Session) (round : Round) : Round :=
  match round with
  | .group calls hold cancels => .group (s.remaining (.group calls hold cancels) calls) hold []
  | other => other

section
variable {g : Query.Grammar} {s r t : Session} {α : Type}

theorem alikeRest (o : Orderly s) (p : Orderly r) (left : ∀ id, s.place? id = none) (right : ∀ id, r.place? id = none)
    (store : r.store = s.store) : Alike s r := by
  have locks : ∀ doc, (r.locks.lock? doc).isSome = (s.locks.lock? doc).isSome := by
    intro doc
    apply Bool.eq_iff_iff.mpr
    rw [o.booked.locked,p.booked.locked,freeLine o left,freeLine p right,store]
  refine ⟨store,locks,?_⟩
  intro doc
  rw [o.booked.lineUsers,p.booked.lineUsers,freeLine o left,freeLine p right,locks]

theorem inTurnSame (host : Host) (f : Free g s) (e : Free g r) (store : r.store = s.store)
    (settings : r.settings = s.settings) (legend : r.legend = s.legend) (calls : List Call) :
    (r.inTurn host calls).2 = (s.inTurn host calls).2 ∧
    (r.inTurn host calls).1.store = (s.inTurn host calls).1.store := by
  induction calls generalizing s r with
  | nil => exact ⟨rfl,store⟩
  | cons call rest ih =>
    obtain ⟨left,_,leftSettings,leftLegend,leftStore,leftAnswer⟩ := freeCall f host call
    obtain ⟨right,_,rightSettings,rightLegend,rightStore,rightAnswer⟩ := freeCall e host call
    obtain ⟨stored,answered⟩ := serveSame store settings legend host g call
    have answer : (r.call host call).2 = (s.call host call).2 := by rw [leftAnswer,rightAnswer,answered]
    have later := ih left right (by rw [leftStore,rightStore,stored])
      (by rw [leftSettings,rightSettings,settings]) (by rw [leftLegend,rightLegend,legend])
    simp only [inTurn,answer,later.1,true_and]
    exact later.2

theorem barredAlike (a : Alike s r) (hold : Option DocId) (call : Call) :
    barred (r.closing hold) call = barred (s.closing hold) call := by
  cases hold with
  | none => rfl
  | some doc =>
    have same := a.locks doc
    simp only [closing,barred,Option.bind_some]
    cases left : s.locks.lock? doc <;> cases right : r.locks.lock? doc <;> simp [left,right] at same ⊢

theorem thinnedParts (s : Session) (round : Round) :
    (s.thinned round).calls = s.remaining round round.calls ∧ (s.thinned round).hold = round.hold ∧
    (s.thinned round).cancels = [] := by
  cases round <;> exact ⟨rfl,rfl,rfl⟩

theorem remainingCalls (s : Session) (round : Round) :
    s.remaining round round.calls = (round.calls.zipIdx.filter fun slot => !s.lost round slot).map Prod.fst :=
  selectPlaces round.calls _

theorem remainingLength (s : Session) (round : Round) {items : List α} (size : items.length = round.calls.length) :
    (s.remaining round items).length = (s.remaining round round.calls).length := by
  rw [remainingCalls,remaining,selectLength (size.trans List.length_zipIdx.symm),List.length_map]

theorem thinnedOrder (a : Alike s r) (round : Round) (items : List α) :
    r.inOrder (s.thinned round) items =
      select (s.remaining round round.calls) (fun call => !barred (s.closing round.hold) call) items ++
        select (s.remaining round round.calls) (barred (s.closing round.hold)) items := by
  obtain ⟨calls,hold,cancels⟩ := thinnedParts s round
  have own : (s.remaining round round.calls).zipIdx.map Prod.fst = s.remaining round round.calls :=
    List.zipIdx_map_fst 0 _
  have waits : ∀ slot, r.waits (s.thinned round) slot = barred (s.closing round.hold) slot.1 := by
    intro slot
    rw [Session.waits,hold,barredAlike a]
  have lost : ∀ slot, r.lost (s.thinned round) slot = false := by
    intro slot
    rw [Session.lost,cancels,List.contains_nil,Bool.and_false]
  simp only [inOrder,waits,lost,calls,Bool.not_false,Bool.and_true]
  nth_rewrite 4 [← own]
  nth_rewrite 3 [← own]
  rw [selectMap,selectMap]

theorem thinnedSame (a : Alike s r) (round : Round) {items : List α} (size : items.length = round.calls.length) :
    r.inOrder (s.thinned round) (s.remaining round items) = s.inOrder round items := by
  have slots : items.length = round.calls.zipIdx.length := size.trans List.length_zipIdx.symm
  rw [thinnedOrder a,remainingCalls,selectMap,selectMap,remaining,selectTwice slots,selectTwice slots,inOrder]
  congr 1
  · apply selectCongr
    intro slot _
    change (!s.lost round slot && !s.waits round slot) = !s.waits round slot
    cases goes : s.waits round slot with
    | false => rw [notLost goes]; rfl
    | true => exact Bool.and_false _
  · apply selectCongr
    intro slot _
    rw [Bool.and_comm]
    rfl

theorem removedRound (host : Host) (f : Restful g s) (e : Restful g r) (a : Alike s r)
    (settings : r.settings = s.settings) (legend : r.legend = s.legend) (round : Round) :
    ((s.thinned round).play host r).2 = (s.remaining round (round.play host s).2.1,(round.play host s).2.2) ∧
    ((s.thinned round).play host r).1.store = (round.play host s).1.store := by
  have mine := turnedAll host f round
  have theirs := turnedAll host e (s.thinned round)
  have calls := (thinnedParts s round).1
  have order : r.inOrder (s.thinned round) (s.thinned round).calls = s.inOrder round round.calls := by
    rw [calls,thinnedSame a round rfl]
  obtain ⟨turn,store⟩ := inTurnSame host (restfulFree f) (restfulFree e) a.store settings legend (s.inOrder round round.calls)
  have both := theirs.serial
  rw [order,turn,mine.serial] at both
  obtain ⟨outcomes,effects⟩ := Prod.mk.inj both
  have size := theirs.size
  rw [calls] at size
  rw [← thinnedSame a round mine.size,thinnedOrder a,thinnedOrder a] at outcomes
  refine ⟨Prod.ext ?_ effects.symm,?_⟩
  · exact (selectBoth (remainingLength s round mine.size) size _ outcomes).symm
  · rw [theirs.store,order,store,mine.store]

theorem inOrderPerm (s : Session) (round : Round) :
    (s.inOrder round round.calls).Perm (s.remaining round round.calls) := by
  have parts := List.filter_append_perm (fun slot => !s.waits round slot)
    (round.calls.zipIdx.filter fun slot => !s.lost round slot)
  rw [remainingCalls,inOrder,selectPlaces,selectPlaces,← List.map_append]
  refine List.Perm.map _ ?_
  rw [List.filter_filter,List.filter_filter] at parts
  convert parts using 2
  · apply List.filter_congr
    intro slot _
    simp only [lost]
    cases s.waits round slot <;> rfl
  · apply List.filter_congr
    intro slot _
    rw [Bool.not_not]

theorem inOrderDoc (s : Session) (round : Round) (doc : DocId) :
    (s.inOrder round round.calls).filter (fun call => call.doc? = some doc) =
      (s.remaining round round.calls).filter fun call => call.doc? = some doc := by
  have fixed : ∀ slot : Call × Nat, decide (slot.1.doc? = some doc) = true →
      s.waits round slot = (s.closing round.hold).any fun place => some doc = some place.1 := by
    intro slot wants
    simp only [waits,barred,of_decide_eq_true wants]
  rw [remainingCalls,inOrder,selectPlaces,selectPlaces,← List.map_append,List.filter_map,List.filter_map,
    List.filter_append,List.filter_filter,List.filter_filter,List.filter_filter]
  exact congrArg _ (filterTogether fixed fun _ => notLost)

structure Kept (host : Host) (s r t : Session) (round : Round) : Prop where
  cancelled : ∀ outcome ∈ select round.calls.zipIdx (s.lost round) (round.play host s).2.1, outcome = .error .cancelled
  size : (round.play host s).2.1.length = round.calls.length
  removed : ((s.thinned round).play host r).2 =
    (s.remaining round (round.play host s).2.1,(round.play host s).2.2)
  serial : (t.inTurn host (s.inOrder round round.calls)).2 =
    (s.inOrder round (round.play host s).2.1,(round.play host s).2.2)
  whole : (s.inOrder round round.calls).Perm (s.remaining round round.calls)
  order : ∀ doc, (s.inOrder round round.calls).filter (fun call => call.doc? = some doc) =
    (s.remaining round round.calls).filter fun call => call.doc? = some doc

-- Rounds of a session beside the same two sessions; between the rounds all three are alike.
def Beside (host : Host) : Session → Session → Session → List Round → Prop
  | s,r,t,[] => Alike s r ∧ Alike s t
  | s,r,t,round::rest =>
    (Alike s r ∧ Alike s t) ∧ Kept host s r t round ∧
      Beside host (round.play host s).1 ((s.thinned round).play host r).1
        (t.inTurn host (s.inOrder round round.calls)).1 rest

theorem besideRounds (host : Host) (f : Restful g s) (e : Restful g r) (h : Free g t) (mine : r.store = s.store)
    (theirs : t.store = s.store) (settings : r.settings = s.settings ∧ t.settings = s.settings)
    (legend : r.legend = s.legend ∧ t.legend = s.legend) (rounds : List Round) : Beside host s r t rounds := by
  induction rounds generalizing s r t with
  | nil =>
    exact ⟨alikeRest f.orderly e.orderly (restPlaces f.rests) (restPlaces e.rests) mine,
      alikeRest f.orderly h.orderly (restPlaces f.rests) h.idle.places theirs⟩
  | cons round rest ih =>
    have alike := alikeRest f.orderly e.orderly (restPlaces f.rests) (restPlaces e.rests) mine
    have other := alikeRest f.orderly h.orderly (restPlaces f.rests) h.idle.places theirs
    have turned := turnedAll host f round
    have fewer := turnedAll host e (s.thinned round)
    obtain ⟨removed,stored⟩ := removedRound host f e alike settings.1 legend.1 round
    obtain ⟨serial,store⟩ :=
      inTurnSame host (restfulFree f) h theirs settings.2 legend.2 (s.inOrder round round.calls)
    obtain ⟨free,own,equal⟩ := freeInTurn h host (s.inOrder round round.calls)
    refine ⟨⟨alike,other⟩,⟨turned.cancelled,turned.size,removed,serial.trans turned.serial,inOrderPerm s round,
      inOrderDoc s round⟩,ih turned.after fewer.after free stored (store.trans turned.store.symm) ⟨?_,?_⟩ ⟨?_,?_⟩⟩
    · rw [fewer.settings,turned.settings,settings.1]
    · rw [own,turned.settings,settings.2]
    · rw [fewer.legend,turned.legend,legend.1]
    · rw [equal,turned.legend,legend.2]

end

structure Serialised (host : Host) (first : Session) (calls : List Call) (log : List (Turn × TaskId × Call))
    (last : Session) (effects : Effects) : Prop where
  called : Called first.nextTask calls last
  own : ∀ entry ∈ log, ∃ k, entry.2.1 = first.nextTask + k ∧ calls[k]? = some entry.2.2
  once : ((those .served log ++ those .gone log).map Prod.fst).Nodup
  alone : ∀ i j doc a b, last.Holds i → last.Holds j → last.place? i = some (doc,a) → last.place? j = some (doc,b) → i = j
  cancelled : ∀ entry ∈ those .gone log, last.outcome? entry.1 = some (.error .cancelled)
  store : last.store = (first.inTurn host (servedCalls log)).1.store
  effects : effects = (first.inTurn host (servedCalls log)).2.2
  answered : List.Forall₂ (Answered last) (those .served log) (first.inTurn host (servedCalls log)).2.1
  lined : ∀ doc, (onDoc doc (those .served log)).Sublist (onDoc doc (those .joined log))
  -- tasks are numbered as they start
  ordered : ((those .joined log).map Prod.fst).Pairwise (· < ·) → ∀ doc, (onDoc doc (those .served log)).Pairwise (· < ·)
  complete : AtRest last → ∀ id, first.nextTask ≤ id → id < last.nextTask →
    id ∈ (those .served log ++ those .gone log).map Prod.fst
  locks : AtRest last → Alike last (first.inTurn host (servedCalls log)).1

theorem restSerialised (host : Host) {g : Query.Grammar} {first : Session} (f : Restful g first) (events : List Event) :
    Serialised host first (started events) (turns host first events) (first.run host events).1
      (first.run host events).2 := by
  have serial := restSerial host f.orderly f.ready f.rests events
  have called := runCalled (calledFirst f.orderly) host events
  rw [List.nil_append] at called
  have lined : ∀ doc, (onDoc doc (those .served (turns host first events))).Sublist
      (onDoc doc (those .joined (turns host first events))) :=
    fun doc => (List.sublist_append_left _ _).trans (serial.lined doc)
  constructor
  case called => exact called
  case own =>
    intro entry member
    obtain ⟨late,call⟩ := serial.logged.own entry member
    obtain ⟨k,number⟩ := Nat.exists_eq_add_of_le late
    refine ⟨k,number,?_⟩
    rw [← called.listed,← number,call]
  case once => exact serial.logged.once
  case alone => exact (orderlyLocks serial.orderly).exclusive
  case cancelled =>
    intro entry member
    simp only [outcome?,stageFound (serial.logged.cancelled entry member)]
  case store => exact serial.store
  case effects => exact serial.effects
  case answered => exact serial.logged.answered
  case lined => exact lined
  case ordered =>
    intro order doc
    exact order.sublist ((lined doc).trans (List.filter_sublist.map Prod.fst))
  case complete =>
    intro rests id late early
    obtain ⟨k,rfl⟩ := Nat.exists_eq_add_of_le late
    have listed := called.listed k
    rw [called.next] at early
    rw [List.getElem?_eq_getElem (Nat.lt_of_add_lt_add_left early)] at listed
    obtain ⟨t,found,_⟩ := Option.map_eq_some_iff.mp listed
    obtain ⟨outcome,finished⟩ := rests.finished _ t found
    have done : t.stage.outcome? = some outcome := by rw [finished]; rfl
    exact List.mem_map_of_mem (f := Prod.fst) (serial.logged.accounted _ t outcome late found done)
  case locks =>
    intro rests
    obtain ⟨free,_⟩ := freeInTurn (restfulFree f) host (servedCalls (turns host first events))
    exact alikeRest serial.orderly free.orderly (restPlaces rests) free.idle.places serial.store.symm

theorem cancellationAtomic {host : Host} {settings : Settings} {legend : Legend} {first : Session} {g : Query.Grammar}
    (reached : Reached host { settings, legend } first) (ready : first.phase = .ready g) (rests : AtRest first) :
    (∀ events, Serialised host first (started events) (turns host first events) (first.run host events).1
        (first.run host events).2 ∧
      Removed (cancelledIn host first events) (first.run host events).1
        (first.run host (without host (cancelledIn host first events) first first events)).1 ∧
      (first.run host (without host (cancelledIn host first events) first first events)).2 = (first.run host events).2 ∧
      ∀ id, .cancel id ∉ without host (cancelledIn host first events) first first events) ∧
    ∀ rounds, Beside host first first first rounds := by
  have restful : Restful g first := ⟨reachedOrderly reached,ready,rests⟩
  refine ⟨?_,?_⟩
  · intro events
    exact ⟨restSerialised host restful events,withoutRemoved restful.orderly ready rests events⟩
  · intro rounds
    exact besideRounds host restful restful (restfulFree restful) rfl rfl ⟨rfl,rfl⟩ ⟨rfl,rfl⟩ rounds

-- An empty query finds nothing. While the lock of the one document that is kept is held, three calls wait for it and
-- one does not; the change and that one are cancelled, the latter too late.
def emptyQuery : Host where
  load _ := .ok ⟨"empty",[⟨[],[]⟩]⟩
  engine := { refuses := fun _ => none, run := fun _ _ => [] }

def keptSession : Session := (call emptyQuery { settings := {}, legend := .standard } (.tokens "a" ['x'])).1

def heldRound : Round :=
  .group [.tokens "a" ['y'],.notify "a" ['y'] [⟨0,1,['z']⟩],.stream "b" ['y'],.close "a"] (some "a") [1,2]

def heldEvents : List Event :=
  [.hold 0,.start (.notify "a" ['y'] [⟨0,1,['z']⟩]),.start (.close "a"),.pass 1,.pass 2,.cancel 1,.release 0,.acquire 2,
    .work 2,.leave 2]

theorem keptSessionAtomic :
    Reached emptyQuery { settings := {}, legend := .standard } keptSession ∧ AtRest keptSession ∧
    keptSession.inOrder heldRound [0,1,2,3] = [2,0,3] ∧
    Beside emptyQuery keptSession keptSession keptSession [heldRound,.single (.tokens "a" ['z']),heldRound] ∧
    cancelledIn emptyQuery keptSession heldEvents = [1] ∧
    without emptyQuery [1] keptSession keptSession heldEvents =
      [.hold 0,.start (.close "a"),.pass 1,.release 0,.acquire 1,.work 1,.leave 1] ∧
    Removed [1] (keptSession.run emptyQuery heldEvents).1
      (keptSession.run emptyQuery (without emptyQuery [1] keptSession keptSession heldEvents)).1 := by
  have reached : Reached emptyQuery { settings := {}, legend := .standard } keptSession :=
    (takeIdle .first ⟨fun _ => rfl,rfl⟩ (.served (.tokens "a" ['x']))).1
  have ready : keptSession.phase = .ready ⟨"empty",[⟨[],[]⟩]⟩ := rfl
  have rests : AtRest keptSession := by
    refine ⟨?_,rfl⟩
    intro id t found
    cases found
  obtain ⟨steps,rounds⟩ := cancellationAtomic reached ready rests
  exact ⟨reached,rests,rfl,rounds _,rfl,rfl,(steps heldEvents).2.1⟩

end Session
end Tinct
