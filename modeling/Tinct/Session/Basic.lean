import Tinct.Session.Locks
import Tinct.Query.Grammar
import Tinct.Stream

/-! A session serves one editor. Its grammar is loaded once, on first use; calls wait for that at the gate, and
if it failed they all fail with its cause. Calls on one document are served one at a time, in the order in
which they entered; different documents do not wait for each other.

Work goes in steps that any scheduler may choose: a call is started, the loading ends, a task passes the
gate, takes the lock, does its work, leaves, or is cancelled while it waits. A step that is not possible
changes nothing. -/
namespace Tinct

structure Host where
  load : GrammarSettings → Except Failure Query.Grammar
  engine : Query.Engine

inductive Phase where
  | dormant
  | starting
  | ready (grammar : Query.Grammar)
  | failed (cause : Failure)
  deriving DecidableEq

def Phase.word : Phase → String
  | dormant => "uninitialized"
  | starting => "initializing"
  | ready _ => "ready"
  | failed _ => "failed"

inductive Call where
  | prepare
  | tokens (doc : DocId) (text : Text)
  | stream (doc : DocId) (text : Text)
  | notify (doc : DocId) (text : Text) (changes : List Change)
  | close (doc : DocId)
  deriving DecidableEq, Repr

def Call.doc? : Call → Option DocId
  | prepare => none
  | tokens doc _ | stream doc _ | notify doc _ _ | close doc => some doc

inductive Reply where
  | done
  | tokens (ts : List Token)
  | stream (s : TokenStream)
  deriving DecidableEq

abbrev Outcome := Except Failure Reply

inductive Stage where
  | atGate
  | waiting (doc : DocId) (lock : LockId)
  | inside (doc : DocId) (lock : LockId)
  | leaving (doc : DocId) (lock : LockId) (outcome : Outcome)
  | finished (outcome : Outcome)

structure Task where
  call : Call
  stage : Stage := .atGate

structure Session where
  settings : Settings
  legend : Legend
  phase : Phase := .dormant
  loads : Nat := 0
  store : Document.Store := {}
  locks : Locks := {}
  tasks : Table TaskId Task := []
  nextTask : TaskId := 0

open Document (Effects)

namespace Session

def encoder (s : Session) : Encoder := ⟨s.legend, s.settings.tokens.strict⟩

def new (settings : Settings) : Except Fault Session := do
  let legend ← Legend.ofNames settings.legend.types settings.legend.modifiers
  .ok { settings, legend }

def stage? (s : Session) (id : TaskId) : Option Stage := (Table.get? id s.tasks).map Task.stage

def setStage (s : Session) (id : TaskId) (stage : Stage) : Session :=
  match Table.get? id s.tasks with
  | some t => { s with tasks := Table.put id { t with stage } s.tasks }
  | none => s

/-- Starts a call. The first one that is started sets the loading going. -/
def start (s : Session) (call : Call) : Session :=
  { s with
    phase := match s.phase with | .dormant => .starting | p => p
    tasks := Table.put s.nextTask { call } s.tasks
    nextTask := s.nextTask + 1 }

def readyNotice (s : Session) (g : Query.Grammar) : Notice :=
  ⟨.info, "provider_ready", [("module", .text g.module), ("token_types", .int s.legend.typeCount),
    ("token_modifiers", .int s.legend.modifierCount)]⟩

def failedNotice (s : Session) (cause : Failure) : Notice :=
  ⟨.error, "provider_init_failed", [("error", .text cause.message), ("module", .text s.settings.grammar.module)]⟩

def finishLoading (host : Host) (s : Session) : Session × Effects :=
  match s.phase with
  | .starting =>
    match host.load s.settings.grammar with
    | .ok g => ({ s with phase := .ready g, loads := s.loads + 1 }, ⟨[], [g.loadedNotice, s.readyNotice g]⟩)
    | .error cause => ({ s with phase := .failed cause, loads := s.loads + 1 }, ⟨[], [s.failedNotice cause]⟩)
  | _ => (s, {})

def pass (s : Session) (id : TaskId) : Session :=
  match Table.get? id s.tasks with
  | some ⟨call, .atGate⟩ =>
    match s.phase with
    | .ready _ =>
      match call.doc? with
      | none => s.setStage id (.finished (.ok .done))
      | some doc =>
        let (locks, lock) := s.locks.enter doc id
        { s with locks }.setStage id (.waiting doc lock)
    | .failed cause => s.setStage id (.finished (.error cause))
    | _ => s
  | _ => s

def acquire (s : Session) (id : TaskId) : Session :=
  match s.stage? id with
  | some (.waiting doc lock) => if s.locks.mayHold lock id then s.setStage id (.inside doc lock) else s
  | _ => s

def tokensFor (host : Host) (s : Session) (g : Query.Grammar) (tree : Tree) (text : Text) :
    Except Fault (List Token) × List Notice :=
  let ms := g.matches host.engine tree text.octets
  match normalize s.legend s.settings.tokens.maxLength s.settings.tokens.reversed ms with
  | .error f => (.error f, [])
  | .ok (ts, notices) =>
    (.ok (Token.sortByPosition ts),
     notices ++ [⟨.debug, "tokens_provided", [("matches", .int ms.length), ("tokens", .int ts.length)]⟩])

/-- A request parses first and looks for tokens then, so a refused capture leaves the parse in place. -/
def request (host : Host) (s : Session) (g : Query.Grammar) (doc : DocId) (text : Text) :
    Session × Except Failure (List Token) × Effects :=
  match s.store.update doc text with
  | .error f => (s, .error (Failure.fault f).crossed, {})
  | .ok (store, entry, effects) =>
    match s.tokensFor host g entry.made text with
    | (.ok ts, notices) => ({ s with store }, .ok ts, effects ++ ⟨[], notices⟩)
    | (.error f, notices) => ({ s with store }, .error (Failure.fault f).crossed, effects ++ ⟨[], notices⟩)

def streamOf (s : Session) (ts : List Token) : Except Fault TokenStream × List Notice :=
  match ({ encoder := s.encoder } : Builder).pushAll ts with
  | (b, .ok (), notices) => (.ok (b.build none), notices)
  | (_, .error f, notices) => (.error f, notices)

def closedNotice (doc : DocId) : Notice := ⟨.debug, "document_closed", [("document", .text doc)]⟩

def serve (host : Host) (s : Session) (g : Query.Grammar) : Call → Session × Outcome × Effects
  | .prepare => (s, .ok .done, {})
  | .tokens doc text =>
    let (s, result, effects) := s.request host g doc text
    (s, result.map Reply.tokens, effects)
  | .stream doc text =>
    match s.request host g doc text with
    | (s, .error f, effects) => (s, .error f, effects)
    | (s, .ok ts, effects) =>
      let (result, notices) := s.streamOf ts
      (s, (result.map Reply.stream).mapError Failure.fault, effects ++ ⟨[], notices⟩)
  | .notify doc text changes =>
    let (store, effects) := s.store.applyChanges doc text changes
    ({ s with store }, .ok .done, effects)
  | .close doc =>
    let (store, gone) := s.store.evict doc
    ({ s with store }, .ok .done, ⟨[], if gone then [closedNotice doc] else []⟩)

def work (host : Host) (s : Session) (id : TaskId) : Session × Effects :=
  match Table.get? id s.tasks, s.phase with
  | some ⟨call, .inside doc lock⟩, .ready g =>
    let (s, outcome, effects) := s.serve host g call
    (s.setStage id (.leaving doc lock outcome), effects)
  | _, _ => (s, {})

def leaveLock (s : Session) (id : TaskId) (doc : DocId) (lock : LockId) : Session :=
  { s with locks := s.locks.leave doc lock id (s.store.contains doc) }

def leave (s : Session) (id : TaskId) : Session :=
  match s.stage? id with
  | some (.leaving doc lock outcome) => (s.leaveLock id doc lock).setStage id (.finished outcome)
  | _ => s

/-- A task that waits is cancelled; one that works or has finished is not. -/
def cancel (s : Session) (id : TaskId) : Session :=
  match s.stage? id with
  | some .atGate => s.setStage id (.finished (.error .cancelled))
  | some (.waiting doc lock) => (s.leaveLock id doc lock).setStage id (.finished (.error .cancelled))
  | _ => s

inductive Event where
  | start (call : Call)
  | opened
  | pass (id : TaskId)
  | acquire (id : TaskId)
  | work (id : TaskId)
  | leave (id : TaskId)
  | cancel (id : TaskId)
  | hold (lock : LockId)
  | release (lock : LockId)
  deriving DecidableEq, Repr

def step (host : Host) (s : Session) : Event → Session × Effects
  | .start call => (s.start call, {})
  | .opened => s.finishLoading host
  | .pass id => (s.pass id, {})
  | .acquire id => (s.acquire id, {})
  | .work id => s.work host id
  | .leave id => (s.leave id, {})
  | .cancel id => (s.cancel id, {})
  | .hold lock => ({ s with locks := s.locks.hold lock }, {})
  | .release lock => ({ s with locks := s.locks.release lock }, {})

def run (host : Host) (s : Session) : List Event → Session × Effects
  | [] => (s, {})
  | e :: rest =>
    let (s, first) := s.step host e
    let (s, others) := run host s rest
    (s, first ++ others)

end Session
end Tinct
