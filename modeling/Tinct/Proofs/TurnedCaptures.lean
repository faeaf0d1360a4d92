import Tinct.Proofs.StreamContent

/-! Captures that end on an earlier row than they start. They are split like any other, or they are refused, and then the
request that met one is lost. Either way the request has parsed its text before, and made the same calls. -/
namespace Tinct

def Settings.withSpans (settings : Settings) (policy : ReversedSpans) : Settings :=
  { settings with tokens := { settings.tokens with reversed := policy } }

def Capture.turnsBack (c : Capture) : Bool := decide (c.stop.row < c.start.row)

def Legend.turnsBack (l : Legend) (ms : List QueryMatch) : Bool :=
  ms.any fun m => m.captures.any fun c => l.hasType c.name && c.turnsBack

def Legend.firstTurned? (l : Legend) (ms : List QueryMatch) : Option Capture :=
  (flatCaptures ms).find? fun c => l.hasType c.name && c.turnsBack

section
variable (maxLength : Int)

theorem captureSplit (c : Capture) : ∃ ts, c.tokens maxLength .split = .ok ts := by
  unfold Capture.tokens
  split
  · exact ⟨_,rfl⟩
  · simp

theorem captureKept {c : Capture} (onward : c.turnsBack = false) :
    c.tokens maxLength .refuse = c.tokens maxLength .split := by
  have rows : ¬ c.stop.row < c.start.row := of_decide_eq_false onward
  simp only [Capture.tokens,rows,false_and]

theorem captureRefused {c : Capture} (back : c.turnsBack = true) :
    c.tokens maxLength .refuse = .error (.reversedSpan c.name c.start c.stop) := by
  have rows : c.stop.row < c.start.row := of_decide_eq_true back
  simp only [Capture.tokens,if_neg (Int.ne_of_gt rows),rows,true_and,if_true]

theorem tokensSplit (cs : List Capture) : ∃ ts, tokensOf maxLength .split cs = .ok ts := by
  induction cs with
  | nil => exact ⟨[],rfl⟩
  | cons c rest ih =>
    obtain ⟨first,own⟩ := captureSplit maxLength c
    obtain ⟨others,later⟩ := ih
    exact ⟨first ++ others,by simp only [tokensOf,own,later,bind,Except.bind]⟩

theorem tokensKept {cs : List Capture} (onward : cs.any Capture.turnsBack = false) :
    tokensOf maxLength .refuse cs = tokensOf maxLength .split cs := by
  induction cs with
  | nil => rfl
  | cons c rest ih =>
    obtain ⟨here,later⟩ := Bool.or_eq_false_iff.mp onward
    simp only [tokensOf,captureKept maxLength here,ih later]

theorem tokensRefused {cs : List Capture} {c : Capture} (first : cs.find? Capture.turnsBack = some c) :
    tokensOf maxLength .refuse cs = .error (.reversedSpan c.name c.start c.stop) := by
  induction cs with
  | nil => contradiction
  | cons x rest ih =>
    cases here : x.turnsBack with
    | true =>
      rw [List.find?_cons_of_pos here] at first
      cases Option.some.inj first
      simp only [tokensOf,captureRefused maxLength here,bind,Except.bind]
    | false =>
      rw [List.find?_cons_of_neg (Bool.not_eq_true _ ▸ here)] at first
      obtain ⟨own,cut⟩ := captureSplit maxLength x
      simp only [tokensOf,captureKept maxLength here,cut,ih first,bind,Except.bind]

theorem turnsBackKept (l : Legend) (ms : List QueryMatch) :
    l.turnsBack ms = (keptCaptures l ms).any Capture.turnsBack := by
  simp only [Legend.turnsBack,keptCaptures,flatCaptures,List.any_filter,List.any_flatMap]

theorem normalizeSplit (l : Legend) (ms : List QueryMatch) : ∃ found, normalize l maxLength .split ms = .ok found := by
  obtain ⟨ts,cut⟩ := tokensSplit maxLength (keptCaptures l ms)
  exact ⟨_,by simp only [normalize,cut,bind,Except.bind]; rfl⟩

theorem normalizeKept {l : Legend} {ms : List QueryMatch} (onward : l.turnsBack ms = false) :
    normalize l maxLength .refuse ms = normalize l maxLength .split ms := by
  rw [turnsBackKept] at onward
  simp only [normalize,tokensKept maxLength onward]

theorem firstTurnedKept (l : Legend) (ms : List QueryMatch) :
    l.firstTurned? ms = (keptCaptures l ms).find? Capture.turnsBack := by
  simp only [Legend.firstTurned?,keptCaptures,List.find?_filter]
  congr 1
  funext c
  cases l.hasType c.name <;> cases c.turnsBack <;> rfl

theorem firstTurnedSome (l : Legend) (ms : List QueryMatch) : (l.firstTurned? ms).isSome = l.turnsBack ms := by
  rw [firstTurnedKept,turnsBackKept,Bool.eq_iff_iff,List.find?_isSome,List.any_eq_true]

theorem normalizeRefused {l : Legend} {ms : List QueryMatch} {c : Capture} (first : l.firstTurned? ms = some c) :
    normalize l maxLength .refuse ms = .error (.reversedSpan c.name c.start c.stop) := by
  rw [firstTurnedKept] at first
  simp only [normalize,tokensRefused maxLength first,bind,Except.bind]

end

namespace Session

def matchesFor (host : Host) (s : Session) (g : Query.Grammar) (doc : DocId) (text : Text) : List QueryMatch :=
  g.matches host.engine (s.store.parsing doc text).1 text.octets

def strikes (host : Host) (s : Session) (g : Query.Grammar) : Call → Bool
  | .tokens doc text | .stream doc text => s.legend.turnsBack (s.matchesFor host g doc text)
  | .prepare | .notify _ _ _ | .close _ => false

structure Opposed (s r : Session) : Prop where
  split : s.settings.tokens.reversed = .split
  settings : r.settings = s.settings.withSpans .refuse
  legend : r.legend = s.legend
  store : r.store = s.store
  loaded : s.store.loaded = true

section
variable {s r : Session} {host : Host} {g : Query.Grammar}

theorem opposedEncoder (o : Opposed s r) : r.encoder = s.encoder := by
  rw [encoder,o.legend,o.settings]
  rfl

theorem opposedStream (o : Opposed s r) (ts : List Token) : r.streamOf ts = s.streamOf ts := by
  rw [streamOf,opposedEncoder o]
  rfl

theorem tokensForKept (o : Opposed s r) {tree : Tree} {text : Text}
    (onward : s.legend.turnsBack (g.matches host.engine tree text.octets) = false) :
    r.tokensFor host g tree text = s.tokensFor host g tree text := by
  simp only [tokensFor,o.legend,o.settings,o.split,Settings.withSpans,normalizeKept _ onward]

theorem tokensForRefused (o : Opposed s r) {tree : Tree} {text : Text}
    (back : s.legend.turnsBack (g.matches host.engine tree text.octets) = true) :
    (∃ f, r.tokensFor host g tree text = (.error f,[])) ∧
    ∃ ts notices, s.tokensFor host g tree text = (.ok ts,notices) := by
  obtain ⟨c,first⟩ := Option.isSome_iff_exists.mp ((firstTurnedSome _ _).trans back)
  have refused := normalizeRefused s.settings.tokens.maxLength first
  obtain ⟨found,cut⟩ := normalizeSplit s.settings.tokens.maxLength s.legend (g.matches host.engine tree text.octets)
  refine ⟨⟨.reversedSpan c.name c.start c.stop,?_⟩,?_⟩
  · simp only [tokensFor,o.legend,o.settings,Settings.withSpans,refused]
  · simp only [tokensFor,o.split,cut]
    exact ⟨_,_,rfl⟩

theorem requestKept (o : Opposed s r) {doc : DocId} {text : Text}
    (onward : s.legend.turnsBack (s.matchesFor host g doc text) = false) :
    (r.request host g doc text).2 = (s.request host g doc text).2 := by
  have updated := Document.Store.updateLoaded o.loaded doc text
  have tokens : r.tokensFor host g (s.store.parsing doc text).1 text =
      s.tokensFor host g (s.store.parsing doc text).1 text := tokensForKept o onward
  simp only [request,o.store,updated,tokens]
  split <;> rfl

theorem requestRefused (o : Opposed s r) {doc : DocId} {text : Text}
    (back : s.legend.turnsBack (s.matchesFor host g doc text) = true) :
    (r.request host g doc text).2.1 = .error .lostReport ∧ (∃ ts, (s.request host g doc text).2.1 = .ok ts) ∧
    (r.request host g doc text).2.2.calls = (s.request host g doc text).2.2.calls := by
  have updated := Document.Store.updateLoaded o.loaded doc text
  obtain ⟨⟨f,refused⟩,ts,notices,cut⟩ := tokensForRefused o back
  refine ⟨?_,⟨ts,?_⟩,?_⟩
  · simp only [request,o.store,updated,refused,Failure.crossedFault]
  · simp only [request,updated,cut]
  · simp only [request,o.store,updated,refused,cut]
    rfl

theorem serveKept (o : Opposed s r) {call : Call} (onward : s.strikes host g call = false) :
    (r.serve host g call).2 = (s.serve host g call).2 := by
  cases call with
  | prepare => rfl
  | tokens doc text =>
    have same := requestKept o onward
    simp only [serve,same]
  | stream doc text =>
    have same := requestKept o onward
    simp only [serveStream,same,opposedStream o]
  | notify doc text changes => simp only [serve,o.store]
  | close doc => simp only [serve,o.store]

theorem streamCalls (host : Host) (s : Session) (g : Query.Grammar) (doc : DocId) (text : Text) :
    (s.serve host g (.stream doc text)).2.2.calls = (s.request host g doc text).2.2.calls := by
  rw [serveStream]
  split
  · rename_i failed
    rw [failed]
  · rename_i ts effects found
    rw [found]
    exact List.append_nil effects.calls

theorem serveRefused (o : Opposed s r) {call : Call} (back : s.strikes host g call = true) :
    (r.serve host g call).2.1 = .error .lostReport ∧ (∃ reply, (s.serve host g call).2.1 = .ok reply) ∧
    (r.serve host g call).2.2.calls = (s.serve host g call).2.2.calls := by
  cases call with
  | tokens doc text =>
    obtain ⟨lost,⟨ts,found⟩,calls⟩ := requestRefused o back
    refine ⟨?_,⟨.tokens ts,?_⟩,calls⟩
    · simp only [serve,lost,Except.map]
    · simp only [serve,found,Except.map]
  | stream doc text =>
    obtain ⟨lost,⟨ts,found⟩,calls⟩ := requestRefused o back
    refine ⟨?_,?_,?_⟩
    · rw [serveStream]
      generalize r.request host g doc text = answer at lost
      obtain ⟨next,outcome,effects⟩ := answer
      cases lost
      rfl
    · rcases (serveAgrees host s g doc text).1 with ⟨f,failed,_⟩ | ⟨_,st,_,streamed,_⟩
      · simp only [serve,found,Except.map] at failed
        contradiction
      · exact ⟨.stream st,streamed⟩
    · rw [streamCalls,streamCalls,calls]
  | _ => contradiction

theorem serveCalls (o : Opposed s r) (call : Call) :
    (r.serve host g call).2.2.calls = (s.serve host g call).2.2.calls := by
  cases struck : s.strikes host g call with
  | true => exact (serveRefused o struck).2.2
  | false => rw [serveKept o struck]

theorem serveStores (o : Opposed s r) (call : Call) :
    (r.serve host g call).1.store = (s.serve host g call).1.store := by
  rw [serveStore,serveStore,o.store]

theorem serveLoaded (loaded : s.store.loaded = true) (call : Call) : (s.serve host g call).1.store.loaded = true := by
  rw [serveStore]
  cases operation? call with
  | none => exact loaded
  | some op => exact (s.store.performLoaded op).trans loaded

end

end Session

end Tinct
