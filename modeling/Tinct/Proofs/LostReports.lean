import Tinct.Proofs.TurnedCaptures
import Tinct.Proofs.TokensCommand
import Tinct.Proofs.LayerFiles

/-! What becomes of a refused capture. The first capture that turns back is reported with its name and its two ends. But
the report is made while the request holds its document, and does not survive the way out: whoever asked, for tokens, for
the stream or on the command line, is left with a cause that has no code. Without such a capture every request that is
served is answered. -/
namespace Tinct

def Call.Asks (doc : DocId) (text : Text) (call : Call) : Prop := call = .tokens doc text ∨ call = .stream doc text

theorem normalizeOnward {l : Legend} {ms : List QueryMatch} (none : l.firstTurned? ms = none) (maxLength : Int)
    (policy : ReversedSpans) : ∃ found, normalize l maxLength policy ms = .ok found := by
  have onward : l.turnsBack ms = false := by rw [← firstTurnedSome,none,Option.isSome_none]
  have split := normalizeSplit maxLength l ms
  cases policy with
  | split => exact split
  | refuse =>
    rw [normalizeKept maxLength onward]
    exact split

namespace Session

theorem takenLoaded {host : Host} {s next : Session} {event : Event} {effects : Document.Effects}
    (loaded : s.store.loaded = true) (taken : Taken host s event next effects) : next.store.loaded = true := by
  cases taken with
  | work id call g doc lock found ready => exact serveLoaded loaded call
  | _ => exact loaded

theorem reachedLoaded {host : Host} {settings : Settings} {legend : Legend} {s : Session}
    (reached : Reached host { settings, legend } s) : s.store.loaded = true := by
  induction reached with
  | first => rfl
  | step event before ih => exact stepKept ih (takenLoaded ih)
  | collect finished before ih => exact ih

section
variable {host : Host} {s : Session} {g : Query.Grammar} {doc : DocId} {text : Text} {call : Call}

theorem tokensForTurned (refuses : s.settings.tokens.reversed = .refuse) {c : Capture}
    (first : s.legend.firstTurned? (s.matchesFor host g doc text) = some c) :
    s.tokensFor host g (s.store.parsing doc text).1 text = (.error (.reversedSpan c.name c.start c.stop),[]) := by
  have refused := normalizeRefused s.settings.tokens.maxLength first
  rw [matchesFor] at refused
  simp only [tokensFor,refuses,refused]

theorem serveTurned (asks : call.Asks doc text) (loaded : s.store.loaded = true)
    (refuses : s.settings.tokens.reversed = .refuse) {c : Capture}
    (first : s.legend.firstTurned? (s.matchesFor host g doc text) = some c) :
    (s.serve host g call).2.1 = .error .lostReport := by
  have lost : (s.request host g doc text).2.1 = .error .lostReport := by
    simp only [request,Document.Store.updateLoaded loaded doc text,tokensForTurned refuses first,
      Failure.crossedFault]
  rcases asks with rfl | rfl
  · simp only [serve,lost,Except.map]
  · rw [serveStream]
    generalize (s.request host g doc text).2 = answer at lost
    obtain ⟨outcome,effects⟩ := answer
    cases lost
    rfl

theorem serveOnward (asks : call.Asks doc text) (loaded : s.store.loaded = true)
    (onward : s.legend.firstTurned? (s.matchesFor host g doc text) = none) :
    ∃ reply, (s.serve host g call).2.1 = .ok reply := by
  obtain ⟨found,done⟩ := normalizeOnward onward s.settings.tokens.maxLength s.settings.tokens.reversed
  obtain ⟨ts,listed⟩ : ∃ ts, (s.request host g doc text).2.1 = .ok ts := by
    rw [matchesFor] at done
    simp only [request,Document.Store.updateLoaded loaded doc text,tokensFor,done]
    exact ⟨_,rfl⟩
  have served : (s.serve host g (.tokens doc text)).2.1 = .ok (.tokens ts) := by
    simp only [serve,listed,Except.map]
  rcases asks with rfl | rfl
  · exact ⟨_,served⟩
  · rcases (serveAgrees host s g doc text).1 with ⟨f,failed,_⟩ | ⟨_,st,_,streamed,_⟩
    · rw [served] at failed
      contradiction
    · exact ⟨.stream st,streamed⟩

theorem asksDoc (asks : call.Asks doc text) : call.doc? = some doc := by
  rcases asks with rfl | rfl <;> rfl

theorem workEnds {id : TaskId} {at_ : DocId} {lock : LockId}
    (found : Table.get? id s.tasks = some ⟨call,.inside at_ lock⟩) (ready : s.phase = .ready g) :
    (s.run host [.work id,.leave id]).1.outcome? id = some (s.serve host g call).2.1 := by
  simp only [run,step,workServed host found ready,leave,stage?,Table.getPut,Option.map_some,leaveLock,setStage,outcome?]

end

end Session

namespace Command

theorem callAsks (r : TokensRequest) (doc : DocId) (text : Text) : (r.call doc text).Asks doc text := by
  unfold TokensRequest.call
  split
  · exact .inr rfl
  · exact .inl rfl

def crash (logged : String) : Report := { errors := logged, exitCode := 1, uncaught := some .lostReport }

theorem runTurned {w : World} {r : TokensRequest} {text : Text} {settings : Settings} {legend : Legend}
    (opened : openSession w r = .ok (text,{ settings, legend })) (refuses : settings.tokens.reversed = .refuse)
    {g : Query.Grammar} (load : w.host.load settings.grammar = .ok g) {c : Capture}
    (first : legend.firstTurned? (g.matches w.host.engine (.afresh text.octets) text.octets) = some c)
    (book : Logbook) : ∃ logged, runTokens w book r = crash logged := by
  obtain ⟨s,logged,rfl,rfl,store,answered⟩ := runAnswered opened load book
  have loaded : s.store.loaded = true := by rw [store]
  have turned : s.legend.firstTurned? (s.matchesFor w.host g (w.document r) text) = some c := by
    rw [Session.matchesFor,Document.Store.parsing,store]
    exact first
  rw [Session.serveTurned (callAsks r (w.document r) text) loaded refuses turned] at answered
  exact ⟨logged,answered⟩

end Command

namespace Session

-- What becomes of a text with a capture `c` that turns back: the span rules report it, and nobody who asks learns of it.
structure ReportLost (host : Host) (s : Session) (g : Query.Grammar) (doc : DocId) (text : Text) (c : Capture) :
    Prop where
  reported : (s.tokensFor host g (s.store.parsing doc text).1 text).1 = .error (.reversedSpan c.name c.start c.stop)
  called : ∀ call : Call, call.Asks doc text → s.admits doc = true → (s.call host call).2.1 = .error .lostReport
  worked : ∀ call : Call, call.Asks doc text → ∀ id here lock,
    Table.get? id s.tasks = some ⟨call,.inside here lock⟩ →
      (s.run host [.work id,.leave id]).1.outcome? id = some (.error .lostReport)

section
variable {host : Host} {settings : Settings} {legend : Legend} {s : Session} {g : Query.Grammar} {doc : DocId}
  {text : Text}

theorem reachedTurned (reached : Reached host { settings, legend } s) (refuses : settings.tokens.reversed = .refuse)
    (ready : s.phase = .ready g) {c : Capture} (first : legend.firstTurned? (s.matchesFor host g doc text) = some c) :
    ReportLost host s g doc text c := by
  have frame := reachedFramed reached
  have loaded := reachedLoaded reached
  have policy : s.settings.tokens.reversed = .refuse := by rw [frame.settings]; exact refuses
  have turned : s.legend.firstTurned? (s.matchesFor host g doc text) = some c := by rw [frame.legend]; exact first
  constructor
  case reported => rw [tokensForTurned policy turned]
  case called =>
    intro call asks may
    rw [callReady (asksDoc asks) ready may]
    exact serveTurned asks loaded policy turned
  case worked =>
    intro call asks id here lock found
    rw [workEnds found ready,serveTurned asks loaded policy turned]

theorem reachedOnward (reached : Reached host { settings, legend } s) (ready : s.phase = .ready g)
    (onward : legend.firstTurned? (s.matchesFor host g doc text) = none) {call : Call} (asks : call.Asks doc text)
    (may : s.admits doc = true) : ∃ reply, (s.call host call).2.1 = .ok reply := by
  have same : s.legend = legend := (reachedFramed reached).legend
  rw [← same] at onward
  rw [callReady (asksDoc asks) ready may]
  exact serveOnward asks (reachedLoaded reached) onward

end

theorem turnedReportLost {host : Host} {settings : Settings} {legend : Legend} {s : Session} {g : Query.Grammar}
    (reached : Reached host { settings, legend } s) (refuses : settings.tokens.reversed = .refuse)
    (ready : s.phase = .ready g) (doc : DocId) (text : Text) :
    (∀ c, legend.firstTurned? (s.matchesFor host g doc text) = some c → ReportLost host s g doc text c) ∧
    (legend.firstTurned? (s.matchesFor host g doc text) = none → ∀ call : Call, call.Asks doc text →
      s.admits doc = true → ∃ reply, (s.call host call).2.1 = .ok reply) ∧
    ∀ (w : Command.World) r source, w.host = host → Command.openSession w r = .ok (source,{ settings, legend }) →
      host.load settings.grammar = .ok g →
      ∀ c, legend.firstTurned? (g.matches host.engine (.afresh source.octets) source.octets) = some c →
        ∀ book, ∃ logged, Command.runTokens w book r = Command.crash logged := by
  refine ⟨?_,?_,?_⟩
  · intro c first
    exact reachedTurned reached refuses ready first
  · intro onward call asks may
    exact reachedOnward reached ready onward asks may
  · intro w r source same opened load c first book
    subst same
    exact Command.runTurned opened refuses load first book

-- In any text but the empty one: a capture that turns back under a name the legend does not have, then two that it has.
def turnedHost : Host where
  load _ := .ok ⟨"turned",[⟨[],[]⟩]⟩
  engine := {
    refuses := fun _ => none
    run := fun _ tree => if tree.source = [] then [] else
      [⟨0,[("nowhere",[⟨0,1,⟨3,0⟩,⟨0,1⟩⟩])]⟩,⟨1,[("comment",[⟨0,1,⟨1,0⟩,⟨0,1⟩⟩])]⟩,⟨0,[("string",[⟨0,1,⟨2,0⟩,⟨0,0⟩⟩])]⟩] }

def turnedGrammar : Query.Grammar := ⟨"turned",[⟨[],[]⟩]⟩

def turnedFirst : Capture := ⟨"comment",⟨1,0⟩,⟨0,1⟩⟩

def refusing : Settings := { tokens := { reversed := .refuse } }

def turnedSession : Session := after turnedHost { settings := refusing, legend := .standard } mixedSteps

def turnedWorld : Command.World where
  files := { files := [(["w","a"],[0x78])], working := ["w"] }
  environment := [("SEMTOK__TOKENS__REVERSED_SPANS","error")]
  host := turnedHost
  tools := Settings.plainTools
  console := Text.Grid.print
  stamp := ""
  requestId := ""

def turnedRequest : Command.TokensRequest := { path := "a" }

theorem turnedWorldOpens :
    Command.openSession turnedWorld turnedRequest = .ok (['x'],{ settings := refusing, legend := .standard }) := by
  have read : Command.readText turnedWorld.files (Path.ofString turnedRequest.path).text = .ok ['x'] := by
    decide +kernel
  have load : Command.settingsFor turnedWorld turnedRequest.config = .ok refusing := by decide +kernel
  simp only [Command.openSession,read,load,bind,Except.bind]
  rfl

theorem turnedSessionReached :
    Reached turnedHost { settings := refusing, legend := .standard } turnedSession ∧
    turnedSession.phase = .ready turnedGrammar ∧ turnedSession.admits "a" = true ∧
    Legend.standard.firstTurned? (turnedSession.matchesFor turnedHost turnedGrammar "a" ['x']) = some turnedFirst ∧
    Legend.standard.firstTurned? (turnedGrammar.matches turnedHost.engine (.afresh (Text.octets ['x']))
      (Text.octets ['x'])) = some turnedFirst :=
  ⟨(afterIdle .first ⟨fun _ => rfl,rfl⟩ mixedSteps).1,by decide +kernel,by decide +kernel,by decide +kernel,
    by decide +kernel⟩

theorem turnedSessionLost :
    Reached turnedHost { settings := refusing, legend := .standard } turnedSession ∧
    turnedSession.phase = .ready turnedGrammar ∧ turnedSession.admits "a" = true ∧
    ReportLost turnedHost turnedSession turnedGrammar "a" ['x'] turnedFirst ∧
    (∃ reply, (turnedSession.call turnedHost (.stream "a" [])).2.1 = .ok reply) ∧
    ∃ logged, Command.runTokens turnedWorld {} turnedRequest = Command.crash logged := by
  obtain ⟨reached,ready,may,first,alone⟩ := turnedSessionReached
  have none : Legend.standard.firstTurned? (turnedSession.matchesFor turnedHost turnedGrammar "a" []) = none := by
    decide +kernel
  obtain ⟨lost,_,command⟩ := turnedReportLost reached rfl ready "a" ['x']
  obtain ⟨_,answered,_⟩ := turnedReportLost reached rfl ready "a" []
  exact ⟨reached,ready,may,lost _ first,answered none _ (.inr rfl) may,
    command turnedWorld turnedRequest ['x'] rfl turnedWorldOpens rfl turnedFirst alone {}⟩

theorem turnedUnreported :
    Legend.standard.firstTurned? (turnedSession.matchesFor turnedHost turnedGrammar "a" ['x']) = some turnedFirst ∧
    (∀ call : Call, call.Asks "a" ['x'] → (turnedSession.call turnedHost call).2.1 ≠
      .error (.fault (.reversedSpan turnedFirst.name turnedFirst.start turnedFirst.stop))) ∧
    (Command.runTokens turnedWorld {} turnedRequest).uncaught = some .lostReport := by
  obtain ⟨reached,ready,may,first,alone⟩ := turnedSessionReached
  obtain ⟨logged,crashed⟩ := Command.runTurned turnedWorldOpens rfl rfl alone {}
  refine ⟨first,?_,by rw [crashed]; rfl⟩
  intro call asks raised
  rw [(reachedTurned reached rfl ready first).called call asks may] at raised
  cases raised

end Session
end Tinct
