import Tinct.Proofs.StreamContent
import Tinct.Proofs.StableOrder
import Mathlib.Data.List.TakeWhile

/-! What a builder holds after pushes, looks and builds in any order. Only pushes change it, and of what is pushed it keeps
the tokens with a type that the encoder does not refuse; of several at once, those before the first refused one. What it
then gives out is their numbers by position, whatever the order in which tokens at different positions came. -/
namespace Tinct
namespace Encoder

def takes (e : Encoder) (t : Token) : Bool := e.legend.hasType t.type || t.type = outOfLegend || !e.strict

def typeCode (e : Encoder) (name : String) : Nat :=
  (e.legend.typeIndex? name).getD (if name = outOfLegend then e.legend.typeCount + 2 else 0)

def code (e : Encoder) (t : Token) : Encoded := ⟨t.line,t.start,t.length,e.typeCode t.type,e.mask t.modifiers⟩

section
variable {e : Encoder} {t : Token}

theorem tokenTaken (taken : e.takes t = true) : (e.token t).1 = .ok (e.code t) := by
  cases index : e.legend.typeIndex? t.type with
  | some i =>
    simp only [token,type,code,typeCode,index]
    rfl
  | none =>
    simp only [token,type,code,typeCode,index]
    split
    · rfl
    · rename_i other
      have lenient : e.strict = false := by simpa [takes,Legend.hasType,index,other] using taken
      simp only [lenient]
      rfl

theorem tokenRefused (refused : e.takes t = false) : e.token t = (.error (.unknownType t.type),[]) := by
  simp only [takes,Legend.hasType,Bool.or_eq_false_iff,Option.isSome_eq_false_iff,Option.isNone_iff_eq_none,
    decide_eq_false_iff_not,Bool.not_eq_false'] at refused
  obtain ⟨⟨absent,other⟩,strict⟩ := refused
  simp only [token,type,absent,if_neg other,strict]
  rfl

end
end Encoder

namespace Builder

section
variable {b : Builder} {t : Token}

theorem pushTaken (taken : b.encoder.takes t = true) :
    (b.push t).1 = { b with pushed := b.pushed ++ [b.encoder.code t] } ∧ (b.push t).2.1 = .ok () := by
  have encoded := Encoder.tokenTaken taken
  unfold push
  generalize b.encoder.token t = answer at encoded
  obtain ⟨outcome,notices⟩ := answer
  cases encoded
  exact ⟨rfl,rfl⟩

theorem pushRefused (refused : b.encoder.takes t = false) : b.push t = (b,.error (.unknownType t.type),[]) := by
  rw [push,Encoder.tokenRefused refused]

theorem pushTakenIff : (b.push t).2.1 = .ok () ↔ b.encoder.takes t = true := by
  cases taken : b.encoder.takes t with
  | true => simp [(pushTaken taken).2]
  | false => simp [pushRefused taken]

theorem pushUnchanged {f : Fault} (failed : (b.push t).2.1 = .error f) : (b.push t).1 = b := by
  cases taken : b.encoder.takes t with
  | true =>
    rw [(pushTaken taken).2] at failed
    contradiction
  | false => rw [pushRefused taken]

end

theorem pushAllOn {b : Builder} {t : Token} (taken : b.encoder.takes t = true) (rest : List Token) :
    (b.pushAll (t::rest)).1 = ((b.push t).1.pushAll rest).1 ∧
    (b.pushAll (t::rest)).2.1 = ((b.push t).1.pushAll rest).2.1 := by
  have done := (pushTaken taken).2
  rw [pushAll]
  generalize b.push t = answer at done ⊢
  obtain ⟨next,outcome,notices⟩ := answer
  cases done
  exact ⟨rfl,rfl⟩

theorem pushAllTaken (b : Builder) (ts : List Token) : (b.pushAll ts).1 =
    { b with pushed := b.pushed ++ (ts.takeWhile b.encoder.takes).map b.encoder.code } := by
  induction ts generalizing b with
  | nil => simp [pushAll]
  | cons t rest ih =>
    cases taken : b.encoder.takes t with
    | true =>
      rw [(pushAllOn taken rest).1,ih,(pushTaken taken).1]
      simp [taken]
    | false => simp [pushAll,pushRefused taken,taken]

theorem pushAllOutcome (b : Builder) (ts : List Token) : (b.pushAll ts).2.1 =
    match ts.dropWhile b.encoder.takes with
    | [] => .ok ()
    | t::_ => .error (.unknownType t.type) := by
  induction ts generalizing b with
  | nil => rfl
  | cons t rest ih =>
    cases taken : b.encoder.takes t with
    | true => rw [(pushAllOn taken rest).2,ih,(pushTaken taken).1,List.dropWhile_cons_of_pos taken]
    | false =>
      rw [List.dropWhile_cons_of_neg (by simp [taken])]
      simp [pushAll,pushRefused taken]

theorem pushAllStops {b : Builder} {ts : List Token} {f : Fault} (failed : (b.pushAll ts).2.1 = .error f) :
    ∃ ahead t behind, ts = ahead ++ t::behind ∧ (b.pushAll ahead).2.1 = .ok () ∧
      ((b.pushAll ahead).1.push t).2.1 = .error f ∧
      (b.pushAll ts).1 = { b with pushed := b.pushed ++ ahead.map b.encoder.code } := by
  have parts := List.takeWhile_append_dropWhile (p := b.encoder.takes) (l := ts)
  rw [pushAllOutcome] at failed
  cases shape : ts.dropWhile b.encoder.takes with
  | nil =>
    rw [shape] at failed
    contradiction
  | cons t behind =>
    rw [shape] at failed parts
    have refused : b.encoder.takes t = false := by
      have head := List.head?_dropWhile_not b.encoder.takes ts
      simpa [shape] using head
    have all : ∀ x ∈ ts.takeWhile b.encoder.takes, b.encoder.takes x = true := fun x => List.mem_takeWhile_imp
    refine ⟨ts.takeWhile b.encoder.takes,t,behind,parts.symm,?_,?_,pushAllTaken b ts⟩
    · rw [pushAllOutcome,List.dropWhile_eq_nil_iff.mpr all]
    · rw [pushRefused (by rw [pushAllTaken]; exact refused)]
      exact failed

inductive Step where
  | push (t : Token)
  | pushAll (ts : List Token)
  | encoded
  | build (resultId : Option String)

def Step.writes : Step → Bool
  | .push _ | .pushAll _ => true
  | .encoded | .build _ => false

def step (b : Builder) : Step → Builder
  | .push t => (b.push t).1
  | .pushAll ts => (b.pushAll ts).1
  | .encoded | .build _ => b

def run (b : Builder) (steps : List Step) : Builder := steps.foldl step b

def after (e : Encoder) (steps : List Step) : Builder := ({ encoder := e } : Builder).run steps

end Builder

def Encoder.taken (e : Encoder) : Builder.Step → List Token
  | .push t => [t].filter e.takes
  | .pushAll ts => ts.takeWhile e.takes
  | .encoded | .build _ => []

namespace Builder

theorem stepTaken (b : Builder) (s : Step) :
    b.step s = { b with pushed := b.pushed ++ (b.encoder.taken s).map b.encoder.code } := by
  cases s with
  | push t =>
    cases taken : b.encoder.takes t with
    | true => simp [step,(pushTaken taken).1,Encoder.taken,taken]
    | false => simp [step,pushRefused taken,Encoder.taken,taken]
  | pushAll ts => exact pushAllTaken b ts
  | encoded => simp [step,Encoder.taken]
  | build resultId => simp [step,Encoder.taken]

theorem runTaken (b : Builder) (steps : List Step) :
    b.run steps = { b with pushed := b.pushed ++ (steps.flatMap b.encoder.taken).map b.encoder.code } := by
  induction steps generalizing b with
  | nil => simp [run]
  | cons s rest ih =>
    have next := ih (b.step s)
    rw [run] at next ⊢
    rw [List.foldl_cons,next,stepTaken]
    simp

theorem runWrites (b : Builder) (steps : List Step) : b.run (steps.filter Step.writes) = b.run steps := by
  induction steps generalizing b with
  | nil => rfl
  | cons s rest ih =>
    cases s with
    | push t => exact ih _
    | pushAll ts => exact ih _
    | encoded => exact ih _
    | build resultId => exact ih _

structure Gives (b : Builder) (e : Encoder) (ts : List Token) : Prop where
  numbers : ∀ t ∈ ts, (e.token t).1 = .ok (e.code t)
  encoded : Arranged Encoded.line Encoded.start (ts.map e.code) b.encoded
  content : ∀ resultId, undelta (b.build resultId).data = b.encoded
  size : ∀ resultId, (b.build resultId).data.length = 5 * ts.length
  forward : (∀ t ∈ ts, 0 ≤ t.line ∧ 0 ≤ t.start) → ∀ resultId, Session.Forward (b.build resultId)

theorem encodedArranged (b : Builder) : Arranged Encoded.line Encoded.start b.pushed b.encoded :=
  sortedArranged Encoded.line Encoded.start b.pushed

theorem givesTaken {e : Encoder} {ts : List Token} (taken : ∀ t ∈ ts, e.takes t = true) :
    (⟨e,ts.map e.code⟩ : Builder).Gives e ts := by
  have arranged := encodedArranged ⟨e,ts.map e.code⟩
  exact {
    numbers := fun t member => Encoder.tokenTaken (taken t member)
    encoded := arranged
    content := fun resultId => undeltaDelta 0 0 _
    size := by
      intro resultId
      rw [build,delta,deltaLength,arranged.items.length_eq,List.length_map]
    forward := by
      intro natural resultId i d found
      have inside : ∀ x ∈ (⟨e,ts.map e.code⟩ : Builder).encoded, 0 ≤ x.line ∧ 0 ≤ x.start := by
        intro x member
        obtain ⟨t,here,rfl⟩ := List.mem_map.mp (arranged.items.mem_iff.mp member)
        exact natural t here
      refine deltaForward 0 0 _ (arranged.order.imp comesFirstIff.mp) ?_ (fun x member => (inside x member).2) i d found
      intro x member
      have bounds := inside x member
      omega }

def AlikeAt (ts others : List Token) : Prop := ∀ line start,
  ts.filter (standsAt Token.line Token.start line start) = others.filter (standsAt Token.line Token.start line start)

theorem buildSame {e : Encoder} {ts others : List Token} (perm : ts.Perm others) (level : AlikeAt ts others)
    (resultId : Option String) :
    (⟨e,ts.map e.code⟩ : Builder).build resultId = (⟨e,others.map e.code⟩ : Builder).build resultId := by
  have same : (⟨e,ts.map e.code⟩ : Builder).encoded = (⟨e,others.map e.code⟩ : Builder).encoded := by
    apply arrangedSame (encodedArranged _) (encodedArranged _) (perm.map e.code)
    intro line start
    rw [List.filter_map,List.filter_map]
    exact congrArg (List.map e.code) (level line start)
  rw [build,same,build]

theorem takenAll {e : Encoder} {steps : List Step} : ∀ t ∈ steps.flatMap e.taken, e.takes t = true := by
  intro t member
  obtain ⟨s,_,inside⟩ := List.mem_flatMap.mp member
  cases s with
  | push x => exact (List.mem_filter.mp inside).2
  | pushAll ts => exact List.mem_takeWhile_imp inside
  | encoded => contradiction
  | build resultId => contradiction

theorem takenPushes (e : Encoder) (ts : List Token) : (ts.map Step.push).flatMap e.taken = ts.filter e.takes := by
  induction ts with
  | nil => rfl
  | cons t rest ih =>
    rw [List.map_cons,List.flatMap_cons,ih,← List.singleton_append,List.filter_append]
    rfl

theorem afterTaken (e : Encoder) (steps : List Step) : after e steps = ⟨e,(steps.flatMap e.taken).map e.code⟩ :=
  runTaken { encoder := e } steps

theorem afterSame {e : Encoder} {steps others : List Step}
    (perm : (steps.flatMap e.taken).Perm (others.flatMap e.taken))
    (level : AlikeAt (steps.flatMap e.taken) (others.flatMap e.taken)) (resultId : Option String) :
    (after e steps).build resultId = (after e others).build resultId := by
  rw [afterTaken,afterTaken,buildSame perm level]

theorem builderKeepsTaken (e : Encoder) :
    (∀ steps, (after e steps).Gives e (steps.flatMap e.taken)) ∧
    (∀ (b : Builder) t, (b.push t).2.1 = .ok () ↔ b.encoder.takes t = true) ∧
    (∀ (b : Builder) t f, (b.push t).2.1 = .error f → (b.push t).1 = b) ∧
    (∀ (b : Builder) ts f, (b.pushAll ts).2.1 = .error f →
      ∃ ahead t behind, ts = ahead ++ t::behind ∧ (b.pushAll ahead).2.1 = .ok () ∧
        ((b.pushAll ahead).1.push t).2.1 = .error f ∧
        (b.pushAll ts).1 = { b with pushed := b.pushed ++ ahead.map b.encoder.code }) ∧
    (∀ (b : Builder) steps, b.run (steps.filter Step.writes) = b.run steps) ∧
    (∀ steps others, (steps.flatMap e.taken).Perm (others.flatMap e.taken) →
      AlikeAt (steps.flatMap e.taken) (others.flatMap e.taken) →
        ∀ resultId, (after e steps).build resultId = (after e others).build resultId) ∧
    ∀ ts others, ts.Perm others → AlikeAt ts others → ∀ resultId,
      (after e (ts.map Step.push)).build resultId = (after e (others.map Step.push)).build resultId := by
  refine ⟨?_,fun b t => pushTakenIff,fun b t f => pushUnchanged,fun b ts f => pushAllStops,runWrites,
    fun steps others => afterSame,?_⟩
  · intro steps
    rw [afterTaken]
    exact givesTaken takenAll
  · intro ts others perm level
    apply afterSame
    · rw [takenPushes,takenPushes]
      exact perm.filter e.takes
    · intro line start
      rw [takenPushes,takenPushes,List.filter_comm,level,List.filter_comm]

-- A strict encoder; a push is refused between two that are not, and so is the second of three tokens pushed at once.
def strictEncoder : Encoder := { legend := .standard, strict := true }

def lateToken : Token := { line := 1, start := 4, length := 2, type := "comment" }

def earlyToken : Token := { line := 0, start := 5, length := 1, type := outOfLegend }

def strangeToken : Token := { line := 0, start := 0, length := 1, type := "nowhere" }

def strictSteps : List Step :=
  [.push lateToken,.push strangeToken,.encoded,.pushAll [earlyToken,strangeToken,lateToken],.build none]

theorem strictStepsGive :
    (after strictEncoder strictSteps).Gives strictEncoder [lateToken,earlyToken] ∧
    Session.Forward ((after strictEncoder strictSteps).build none) ∧
    (after strictEncoder ([lateToken,strangeToken,earlyToken].map Step.push)).build none =
      (after strictEncoder ([earlyToken,lateToken,strangeToken].map Step.push)).build none := by
  obtain ⟨gives,_,_,_,_,_,moved⟩ := builderKeepsTaken strictEncoder
  have taken : strictSteps.flatMap strictEncoder.taken = [lateToken,earlyToken] := by decide
  have given := gives strictSteps
  rw [taken] at given
  refine ⟨given,given.forward (by decide) none,moved _ _ (by decide) ?_ none⟩
  intro line start
  simp only [List.filter_cons,List.filter_nil,standsAt,lateToken,strangeToken,earlyToken]
  grind

end Builder
end Tinct
