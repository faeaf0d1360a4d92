import Tinct.Proofs.WholeCall
import Tinct.Command.Run

/-! A run of the command that asks for the tokens of a file. It is made ready first, so what it prints, and how it ends, is
what one call gives on a session that nobody else uses and that has not parsed anything. -/
namespace Tinct
namespace Session

theorem preparedFirst {host : Host} {settings : Settings} {g : Query.Grammar} (legend : Legend)
    (load : host.load settings.grammar = .ok g) :
    ∃ s effects, call host { settings, legend } .prepare = (s,.ok .done,effects) ∧
      Reached host { settings, legend } s ∧ s.Idle ∧ s.phase = .ready g ∧ s.store = {} := by
  have idle : Idle { settings, legend } := ⟨fun _ => rfl,rfl⟩
  have ready : (opening host { settings, legend }).1 = .ready g := by simp only [opening,load]
  obtain ⟨loads,same,_⟩ := callStopped (@preparedPass { settings, legend } .prepare host g ready rfl)
  obtain ⟨reached,rests⟩ := takeIdle .first idle (.served .prepare)
  rw [take,same] at reached rests
  exact ⟨_,_,same,reached,rests,ready,rfl⟩

theorem callReady {host : Host} {s : Session} {g : Query.Grammar} {doc : DocId} {call : Call}
    (wants : call.doc? = some doc) (ready : s.phase = .ready g) (may : s.admits doc = true) :
    (s.call host call).2.1 = (s.serve host g call).2.1 := by
  obtain ⟨_,served,_⟩ := callServed call (openingReady host ready) wants may
  rw [served]

theorem callAnswered {host : Host} {s : Session} {doc : DocId} {call : Call} {reply : Reply}
    (wants : call.doc? = some doc) (answered : (s.call host call).2.1 = .ok reply) :
    ∃ g, (s.opening host).1 = .ready g ∧ (s.serve host g call).2.1 = .ok reply := by
  rcases openingSettles host s with ⟨g,ready⟩ | ⟨cause,failed⟩
  · cases may : s.admits doc with
    | false =>
      rw [callBarred call ready wants may] at answered
      contradiction
    | true =>
      obtain ⟨_,served,_⟩ := callServed call ready wants may
      rw [served] at answered
      exact ⟨g,ready,answered⟩
  · obtain ⟨_,stopped,_⟩ := callStopped (refusedPass failed call)
    rw [stopped] at answered
    contradiction

theorem openingLoaded {host : Host} {settings : Settings} {legend : Legend} {g : Query.Grammar}
    (ready : (opening host { settings, legend }).1 = .ready g) : host.load settings.grammar = .ok g := by
  simp only [opening] at ready
  cases load : host.load settings.grammar with
  | error cause =>
    rw [load] at ready
    contradiction
  | ok found =>
    rw [load] at ready
    cases ready
    rfl

end Session

namespace Command

def World.document (w : World) (r : TokensRequest) : DocId := addressOf ((w.files.locate? r.path).getD [])

def TokensRequest.call (r : TokensRequest) (doc : DocId) (text : Text) : Call :=
  if r.delta then .stream doc text else .tokens doc text

theorem callDoc (r : TokensRequest) (doc : DocId) (text : Text) : (r.call doc text).doc? = some doc := by
  unfold TokensRequest.call
  split <;> rfl

theorem runAnswered {w : World} {r : TokensRequest} {text : Text} {settings : Settings} {legend : Legend}
    (opened : openSession w r = .ok (text,{ settings, legend })) {g : Query.Grammar}
    (load : w.host.load settings.grammar = .ok g) (book : Logbook) :
    ∃ (s : Session) (logged : String), s.settings = settings ∧ s.legend = legend ∧ s.store = {} ∧
      runTokens w book r = Report.ofResult logged
        ((s.serve w.host g (r.call (w.document r) text)).2.1.bind (printReply w r text)) := by
  obtain ⟨s,effects,prepared,reached,idle,ready,store⟩ := Session.preparedFirst legend load
  have frame := Session.reachedFramed reached
  have may := Session.idleAdmits (Session.reachedOrderly reached) idle (w.document r)
  have answer : (s.call w.host (r.call (w.document r) text)).2.1 =
      (s.serve w.host g (r.call (w.document r) text)).2.1 :=
    Session.callReady (callDoc r (w.document r) text) ready may
  have served : runTokens w book r = serveTokens w book r text { settings, legend } := by
    unfold runTokens
    rw [opened]
  rw [World.document,TokensRequest.call] at answer
  simp only [serveTokens,prepared,answer] at served
  exact ⟨s,_,frame.settings,frame.legend,store,served⟩

end Command
end Tinct
