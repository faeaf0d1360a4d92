import Tinct.Proofs.WholeCall

/-! A request answers as the first request of a new session would. Every tree that a session keeps has been edited
coherently from its source to the text that its entry stands for, so a parse over it reuses a tree that was
edited towards the new source. An engine that finds in such a tree what the source alone decides gives the
tokens of the text, whatever was asked, announced, closed or given up before. -/
namespace Tinct

inductive Tree.Sound : Tree → Prop where
  | afresh (source : Octets) : Sound (.afresh source)
  | reusing {source old edits} (before : Sound old) (towards : Coherent old.source edits source) :
      Sound (.reusing source old edits)

def Query.Engine.SourceOnly (engine : Query.Engine) : Prop :=
  ∀ i (tree : Tree), tree.Sound → engine.run i tree = engine.run i (.afresh tree.source)

theorem matchesFresh {engine : Query.Engine} (law : engine.SourceOnly) {tree : Tree} (sound : tree.Sound)
    (g : Query.Grammar) (source : Octets) :
    g.matches engine tree source = g.matches engine (.afresh tree.source) source := by
  have same : ∀ i, engine.run i tree = engine.run i (.afresh tree.source) := fun i => law i tree sound
  simp only [Query.Grammar.matches,same]

namespace Document

structure Entry.Sound (e : Entry) : Prop where
  made : e.made.Sound
  tracked : ∃ text, e.text = some text ∧ Coherent e.made.source e.edits text.octets

structure Store.Sound (s : Store) : Prop where
  loaded : s.loaded = true
  entries : ∀ doc e, s.find? doc = some e → e.Sound

namespace Store

theorem emptySound : Sound {} := ⟨rfl,fun doc e found => by contradiction⟩

theorem soundPut {s : Store} (sound : s.Sound) (doc : DocId) {e : Entry} (fresh : e.Sound) (trees : Nat) :
    Sound { s with entries := Table.put doc e s.entries, trees } where
  loaded := sound.loaded
  entries := by
    intro other x found
    rw [entryPut] at found
    split at found
    · cases Option.some.inj found
      exact fresh
    · exact sound.entries other x found

theorem soundErase {s : Store} (sound : s.Sound) (doc : DocId) :
    Sound { s with entries := Table.erase doc s.entries } where
  loaded := sound.loaded
  entries := by
    intro other x found
    rw [entryErase] at found
    split at found
    · contradiction
    · exact sound.entries other x found

theorem parsingSound {s : Store} (sound : s.Sound) (doc : DocId) (text : Text) :
    (s.parsing doc text).1.Sound ∧ (s.parsing doc text).1.source = text.octets := by
  unfold parsing
  cases found : s.find? doc with
  | none => exact ⟨.afresh _,rfl⟩
  | some e =>
    obtain ⟨made,known,tracked,coherent⟩ := sound.entries doc e found
    -- the edits so far lead to the known text, and the difference from there to the new one
    exact ⟨.reusing made (coherentAppend coherent (resyncCoherent tracked text)),rfl⟩

theorem updateSound {s : Store} (sound : s.Sound) (doc : DocId) (text : Text) :
    ∃ next entry effects, s.update doc text = .ok (next,entry,effects) ∧ next.Sound ∧
      entry.made.Sound ∧ entry.made.source = text.octets := by
  obtain ⟨made,source⟩ := parsingSound sound doc text
  have fresh : Entry.Sound { tree := s.trees + 1, made := (s.parsing doc text).1, text := some text } := by
    refine ⟨made,text,rfl,?_⟩
    rw [source]
    exact .nil _
  exact ⟨_,_,_,updateLoaded sound.loaded doc text,soundPut sound doc fresh (s.trees + 1),made,source⟩

theorem changesSound {s : Store} (sound : s.Sound) (doc : DocId) (textAfter : Text) (changes : List Change) :
    (s.applyChanges doc textAfter changes).1.Sound := by
  unfold applyChanges
  split
  · exact sound
  · rename_i e found
    obtain ⟨made,known,tracked,coherent⟩ := sound.entries doc e found
    rw [tracked]
    have fresh : Entry.Sound
        { e with edits := e.edits ++ (editsFor known changes).1, text := some (editsFor known changes).2 } :=
      ⟨made,_,rfl,coherentAppend coherent (editsForCoherent known changes)⟩
    exact soundPut sound doc fresh s.trees

end Store
end Document

def Stage.outcome? : Stage → Option Outcome
  | .leaving _ _ outcome | .finished outcome => some outcome
  | .atGate | .waiting _ _ | .inside _ _ => none

namespace Session

def plainTokens (host : Host) (s : Session) (g : Query.Grammar) (text : Text) : Except Failure (List Token) :=
  match (s.tokensFor host g (.afresh text.octets) text).1 with
  | .ok ts => .ok ts
  | .error _ => .error .lostReport

theorem requestPlain {host : Host} (law : host.engine.SourceOnly) {s : Session} (sound : s.store.Sound)
    (g : Query.Grammar) (doc : DocId) (text : Text) :
    (s.request host g doc text).1.store.Sound ∧ (s.request host g doc text).2.1 = s.plainTokens host g text := by
  obtain ⟨store,entry,effects,updated,kept,made,source⟩ := Document.Store.updateSound sound doc text
  have same := matchesFresh law made g text.octets
  rw [source] at same
  simp only [request,updated,plainTokens,tokensFor,same]
  cases normalize s.legend s.settings.tokens.maxLength s.settings.tokens.reversed
    (g.matches host.engine (.afresh text.octets) text.octets) with
  | error f => exact ⟨kept,rfl⟩
  | ok found => exact ⟨kept,rfl⟩

theorem serveSound {host : Host} (law : host.engine.SourceOnly) {s : Session} (sound : s.store.Sound)
    (g : Query.Grammar) (call : Call) : (s.serve host g call).1.store.Sound := by
  cases call with
  | prepare => exact sound
  | tokens doc text => exact (requestPlain law sound g doc text).1
  | stream doc text =>
    rw [serveStore]
    have kept := (requestPlain law sound g doc text).1
    rw [requestStore] at kept
    exact kept
  | notify doc text changes => exact Document.Store.changesSound sound doc text changes
  | close doc => exact Document.Store.soundErase sound doc

theorem serveFresh {host : Host} (law : host.engine.SourceOnly) {s t : Session} (left : s.store.Sound)
    (right : t.store.Sound) (settings : s.settings = t.settings) (legend : s.legend = t.legend) (g : Query.Grammar)
    (call : Call) : (s.serve host g call).2.1 = (t.serve host g call).2.1 := by
  have same : ∀ text, s.plainTokens host g text = t.plainTokens host g text := by
    intro text
    simp only [plainTokens,tokensFor,settings,legend]
  cases call with
  | prepare => rfl
  | tokens doc text =>
    simp only [serve,(requestPlain law left g doc text).2,(requestPlain law right g doc text).2,same]
  | stream doc text =>
    have first := (requestPlain law left g doc text).2
    have second := (requestPlain law right g doc text).2
    rw [same,← second] at first
    rw [serveStream,serveStream]
    generalize (s.request host g doc text).2 = a at first ⊢
    generalize (t.request host g doc text).2 = b at first ⊢
    obtain ⟨result,effects⟩ := a
    obtain ⟨_,others⟩ := b
    cases first
    cases result with
    | error f => rfl
    | ok ts => simp only [streamOf,encoder,settings,legend]
  | notify doc text changes => rfl
  | close doc => rfl

structure Faithful (host : Host) (first s : Session) : Prop where
  frame : Framed host first s
  sound : s.store.Sound
  answered : ∀ id t outcome, Table.get? id s.tasks = some t → t.stage.outcome? = some outcome →
    outcome = .error .cancelled ∨ outcome = first.answer host t.call

theorem faithfulAnswer {host : Host} (law : host.engine.SourceOnly) {first s : Session}
    (dormant : first.phase = .dormant) (fresh : first.store.Sound) (f : Faithful host first s) (call : Call) :
    s.answer host call = first.answer host call := by
  have same := fun g => serveFresh law f.sound fresh f.frame.settings f.frame.legend g call
  simp only [answer,framedOpening dormant f.frame,same]

theorem answeredPut {host : Host} {first s : Session} (f : Faithful host first s) {id : TaskId} {t : Task}
    (answered : ∀ outcome, t.stage.outcome? = some outcome →
      outcome = .error .cancelled ∨ outcome = first.answer host t.call)
    (other : TaskId) (task : Task) (outcome : Outcome)
    (found : Table.get? other (Table.put id t s.tasks) = some task) (done : task.stage.outcome? = some outcome) :
    outcome = .error .cancelled ∨ outcome = first.answer host task.call := by
  rw [Table.lookupPut] at found
  split at found
  · cases Option.some.inj found
    exact answered outcome done
  · exact f.answered other task outcome found done

theorem takenFaithful {host : Host} (law : host.engine.SourceOnly) {first s next : Session} {event : Event}
    {effects : Document.Effects} (dormant : first.phase = .dormant) (fresh : first.store.Sound) (f : Faithful host first s)
    (taken : Taken host s event next effects) : Faithful host first next := by
  have frame := takenFramed dormant f.frame taken
  have answer := faithfulAnswer law dormant fresh f
  cases taken with
  | hold lock => exact ⟨frame,f.sound,f.answered⟩
  | release lock => exact ⟨frame,f.sound,f.answered⟩
  | start call => exact ⟨frame,f.sound,answeredPut f fun outcome done => by contradiction⟩
  | loaded g starting load => exact ⟨frame,f.sound,f.answered⟩
  | broken cause starting load => exact ⟨frame,f.sound,f.answered⟩
  | prepared id call g found ready free =>
    refine ⟨frame,f.sound,answeredPut f ?_⟩
    intro outcome done
    cases Option.some.inj done
    rw [← answer,answerReady (openingReady host ready)]
    cases call <;> first | exact .inr rfl | contradiction
  | refused id call cause found failed =>
    refine ⟨frame,f.sound,answeredPut f ?_⟩
    intro outcome done
    cases Option.some.inj done
    rw [← answer]
    simp only [Session.answer,opening,failed,or_true]
  | dropped id call found =>
    refine ⟨frame,f.sound,answeredPut f ?_⟩
    intro outcome done
    exact .inl (Option.some.inj done).symm
  | enter id call g doc found ready wants =>
    exact ⟨frame,f.sound,answeredPut f fun outcome done => by contradiction⟩
  | acquire id call doc lock found may =>
    exact ⟨frame,f.sound,answeredPut f fun outcome done => by contradiction⟩
  | work id call g doc lock found ready =>
    refine ⟨frame,serveSound law f.sound g call,answeredPut f ?_⟩
    intro outcome done
    cases Option.some.inj done
    rw [← answer,answerReady (openingReady host ready)]
    exact .inr rfl
  | leave id call doc lock outcome found =>
    refine ⟨frame,f.sound,answeredPut f ?_⟩
    intro other done
    exact f.answered id ⟨call,.leaving doc lock outcome⟩ other found done
  | abandon id call doc lock found =>
    refine ⟨frame,f.sound,answeredPut f ?_⟩
    intro outcome done
    exact .inl (Option.some.inj done).symm

theorem reachedFaithful {host : Host} (law : host.engine.SourceOnly) {settings : Settings} {legend : Legend}
    {s : Session} (reached : Reached host { settings, legend } s) : Faithful host { settings, legend } s := by
  induction reached with
  | first => exact ⟨reachedFramed .first,Document.Store.emptySound,fun id t outcome found => by contradiction⟩
  | step event before ih => exact stepKept ih (takenFaithful law rfl Document.Store.emptySound ih)
  | collect finished before ih =>
    refine ⟨reachedFramed (.collect finished before),ih.sound,?_⟩
    intro id t outcome found done
    exact ih.answered id t outcome (collectKept found) done

theorem idleAnswer {host : Host} (law : host.engine.SourceOnly) {settings : Settings} {legend : Legend}
    {s : Session} (reached : Reached host { settings, legend } s) (idle : Idle s) (call : Call) :
    (s.call host call).2.1 = answer host { settings, legend } call := by
  rw [(callIdle (reachedOrderly reached) idle host call).2.2]
  exact faithfulAnswer law rfl Document.Store.emptySound (reachedFaithful law reached) call

theorem incrementalFresh {host : Host} (law : host.engine.SourceOnly) (settings : Settings) (legend : Legend) :
    (∀ steps c, ((after host { settings, legend } steps).call host c).2.1 = (call host { settings, legend } c).2.1) ∧
    (∀ s, Reached host { settings, legend } s → s.Idle → ∀ c,
      (s.call host c).2.1 = (call host { settings, legend } c).2.1) ∧
    (∀ s, Reached host { settings, legend } s → ∀ id c outcome,
      Table.get? id s.tasks = some ⟨c,.finished outcome⟩ →
        outcome = .error .cancelled ∨ outcome = (call host { settings, legend } c).2.1) := by
  have idle : Idle { settings, legend } := ⟨fun _ => rfl,rfl⟩
  have first : ∀ c, (call host { settings, legend } c).2.1 = answer host { settings, legend } c :=
    idleAnswer law .first idle
  refine ⟨?_,?_,?_⟩
  · intro steps c
    obtain ⟨reached,rests⟩ := afterIdle .first idle steps
    rw [idleAnswer law reached rests,first]
  · intro s reached rests c
    rw [idleAnswer law reached rests,first]
  · intro s reached id c outcome found
    rw [first]
    exact (reachedFaithful law reached).answered id _ outcome found rfl

def wholeSource : Host where
  load _ := .ok ⟨"whole",[⟨[],[]⟩]⟩
  engine := {
    refuses := fun _ => none
    run := fun _ tree =>
      [⟨0,[("string",[⟨0,tree.source.length,⟨0,0⟩,tree.source.pointAt tree.source.length⟩])]⟩] }

-- A cancelled opening, a request, a notification that tells of another text, a close and a request elsewhere.
def mixedSteps : List Step :=
  [.cancelled (.tokens "a" ['x']),.served (.tokens "a" ['x','y']),.served (.notify "a" ['z'] [⟨1,7,['é','\n']⟩]),
    .served (.stream "b" ['x']),.served (.close "b"),.served (.notify "a" [] [⟨-2,1,[]⟩])]

theorem wholeSourceFresh :
    ((after wholeSource { settings := {}, legend := .standard } mixedSteps).call wholeSource
      (.stream "a" ['é','z'])).2.1 =
    (call wholeSource { settings := {}, legend := .standard } (.stream "a" ['é','z'])).2.1 :=
  (incrementalFresh (fun _ _ _ => rfl) {} .standard).1 mixedSteps _

end Session
end Tinct
