import Tinct.Proofs.FreshTokens
import Tinct.Proofs.RepeatedNames

/-! The stream that an editor reads says what the list of tokens says. Only captures of legend types become tokens, so
every type has its number; the tokens come in order already, so sorting the encoded ones again moves none,
not even at equal positions; and reading the differences back gives the positions, as writing what was read gives every
whole group of numbers back. -/
namespace Tinct

theorem undeltaDelta (line start : Int) (tokens : List Encoded) :
    undeltaFrom line start (deltaFrom line start tokens) = tokens := by
  induction tokens generalizing line start with
  | nil => rfl
  | cons t rest ih =>
    have lines : line + (t.line - line) = t.line := by omega
    have starts : (if t.line - line = 0 then start + (if t.line - line = 0 then t.start - start else t.start)
        else if t.line - line = 0 then t.start - start else t.start) = t.start := by
      split <;> omega
    simp only [deltaFrom,List.cons_append,List.nil_append,undeltaFrom,lines,starts,ih]

theorem deltaLength (line start : Int) (tokens : List Encoded) :
    (deltaFrom line start tokens).length = 5 * tokens.length := by
  induction tokens generalizing line start with
  | nil => rfl
  | cons t rest ih =>
    simp only [deltaFrom,List.length_append,List.length_cons,List.length_nil,ih]
    omega

theorem deltaUndelta (line start : Int) (data : List Int) :
    deltaFrom line start (undeltaFrom line start data) = data.take (5 * (data.length / 5)) := by
  fun_induction undeltaFrom line start data with
  | case1 line start down across length type mask rest line' start' ih =>
    have lines : line' - line = down := by omega
    have starts : (if down = 0 then start' - start else start') = across := by
      show (if down = 0 then (if down = 0 then start + across else across) - start
        else if down = 0 then start + across else across) = across
      split
      · omega
      · rfl
    have groups : 5 * ((down::across::length::type::mask::rest).length / 5) = 5 * (rest.length / 5) + 5 := by
      simp only [List.length_cons]
      omega
    rw [groups]
    simp only [deltaFrom,lines,starts,ih,List.cons_append,List.nil_append,List.take_succ_cons]
  | case2 data line start ends =>
    have short : data.length < 5 := by
      rcases data with _ | ⟨a,_ | ⟨b,_ | ⟨c,_ | ⟨d,_ | ⟨e,rest⟩⟩⟩⟩⟩
      case cons.cons.cons.cons.cons => exact absurd rfl (ends a b c d e rest)
      all_goals simp only [List.length_cons,List.length_nil,Nat.reduceAdd,Nat.reduceLT]
    rw [Nat.div_eq_of_lt short]
    rfl

theorem deltaInverse :
    (∀ tokens, undelta (delta tokens) = tokens) ∧ ∀ data, delta (undelta data) = data ↔ 5 ∣ data.length := by
  refine ⟨undeltaDelta 0 0,?_⟩
  intro data
  constructor
  · intro same
    have size := deltaLength 0 0 (undelta data)
    rw [← delta,same] at size
    exact ⟨(undelta data).length,size⟩
  · intro whole
    rw [delta,undelta,deltaUndelta,Nat.mul_div_cancel' whole,List.take_length]

def Encoded.before (x y : Encoded) : Prop := x.line < y.line ∨ x.line = y.line ∧ x.start ≤ y.start

theorem deltaForward (line start : Int) (tokens : List Encoded) (ordered : tokens.Pairwise Encoded.before)
    (ahead : ∀ t ∈ tokens, line < t.line ∨ line = t.line ∧ start ≤ t.start) (inside : ∀ t ∈ tokens, 0 ≤ t.start)
    (i : Nat) (d : Int)
    (found : (deltaFrom line start tokens)[5 * i]? = some d ∨ (deltaFrom line start tokens)[5 * i + 1]? = some d) :
    0 ≤ d := by
  induction tokens generalizing line start i with
  | nil => simp [deltaFrom] at found
  | cons t rest ih =>
    obtain ⟨first,ordered⟩ := List.pairwise_cons.mp ordered
    have here := ahead t (by simp)
    have column := inside t (by simp)
    cases i with
    | zero =>
      simp only [deltaFrom,List.cons_append,Nat.mul_zero,Nat.zero_add,List.getElem?_cons_zero,
        List.getElem?_cons_succ,Option.some.injEq] at found
      rcases found with down | across
      · omega
      · split at across <;> omega
    | succ n =>
      have later : ∀ k, (deltaFrom line start (t::rest))[5 * (n + 1) + k]? =
          (deltaFrom t.line t.start rest)[5 * n + k]? := by
        intro k
        have shift : 5 * (n + 1) + k = 5 * n + k + 5 := by omega
        simp only [deltaFrom,List.cons_append,List.nil_append,shift,List.getElem?_cons_succ]
      have zero := later 0
      rw [Nat.add_zero,Nat.add_zero] at zero
      rw [zero,later 1] at found
      exact ih t.line t.start ordered first (fun x member => inside x (List.mem_cons_of_mem _ member)) n found

structure Token.Plain (l : Legend) (t : Token) : Prop where
  known : l.hasType t.type = true
  bare : t.modifiers = []

def Encoded.token? (l : Legend) (e : Encoded) : Option Token :=
  (l.typeName? e.type).map fun type => { line := e.line, start := e.start, length := e.length, type }

def coded (l : Legend) (t : Token) : Encoded := ⟨t.line,t.start,t.length,((l.typeIndex? t.type).getD 0 : Nat),0⟩

theorem typeNumber {l : Legend} {name : String} (known : l.hasType name = true) :
    ∃ i, l.typeIndex? name = some i ∧ l.typeName? i = some name := by
  obtain ⟨i,found⟩ := Option.isSome_iff_exists.mp known
  obtain ⟨bound,same,_⟩ := List.idxOf?_eq_some_iff.mp ((l.typePlace name).symm.trans found)
  refine ⟨i,found,?_⟩
  have natural : ¬ ((i : Int) < 0) := by omega
  simp only [Legend.typeName?,if_neg natural,Int.toNat_natCast,List.getElem?_eq_getElem bound,same]

theorem codedToken {l : Legend} {t : Token} (plain : t.Plain l) : (coded l t).token? l = some t := by
  obtain ⟨i,index,name⟩ := typeNumber plain.known
  have bare := plain.bare
  simp only [coded,Encoded.token?,index,Option.getD_some,name,Option.map_some]
  cases t
  cases bare
  rfl

theorem tokenPlain (e : Encoder) {t : Token} (plain : t.Plain e.legend) :
    e.token t = (.ok (coded e.legend t),[]) := by
  obtain ⟨i,index,_⟩ := typeNumber plain.known
  simp only [Encoder.token,Encoder.type,index,plain.bare,coded,Option.getD_some]
  rfl

theorem pushAllPlain (b : Builder) (ts : List Token) (plain : ∀ t ∈ ts, t.Plain b.encoder.legend) :
    b.pushAll ts = ({ b with pushed := b.pushed ++ ts.map (coded b.encoder.legend) },.ok (),[]) := by
  induction ts generalizing b with
  | nil => simp [Builder.pushAll]
  | cons t rest ih =>
    have first := tokenPlain b.encoder (plain t (by simp))
    have others := ih { b with pushed := b.pushed ++ [coded b.encoder.legend t] }
      fun x member => plain x (List.mem_cons_of_mem _ member)
    simp only [Builder.pushAll,Builder.push,first,others]
    simp

def Token.before (x y : Token) : Bool := x.line < y.line || (x.line = y.line && x.start ≤ y.start)

theorem sortOrdered (ts : List Token) : (Token.sortByPosition ts).Pairwise fun x y => x.before y = true := by
  apply List.pairwise_mergeSort
  · intro a b c left right
    simp only [Token.before,Bool.or_eq_true,Bool.and_eq_true,decide_eq_true_eq] at left right ⊢
    omega
  · intro a b
    simp only [Token.before,Bool.or_eq_true,Bool.and_eq_true,decide_eq_true_eq]
    omega

-- What is sorted stays as it is, so the second sort keeps also the order of tokens at one position.
theorem streamPlain (s : Session) {ts : List Token} (plain : ∀ t ∈ ts, t.Plain s.legend)
    (ordered : ts.Pairwise fun x y => x.before y = true) :
    s.streamOf ts = (.ok ⟨delta (ts.map (coded s.legend)),none⟩,[]) := by
  have pushed := pushAllPlain { encoder := s.encoder } ts plain
  have sorted : (ts.map (coded s.legend)).mergeSort
      (fun x y => x.line < y.line || (x.line = y.line && x.start ≤ y.start)) = ts.map (coded s.legend) := by
    apply List.mergeSort_of_pairwise
    exact List.pairwise_map.mpr ordered
  simp only [Session.streamOf,pushed,Builder.build,Builder.encoded,List.nil_append]
  rw [show s.encoder.legend = s.legend from rfl,sorted]

structure Carries (l : Legend) (ts : List Token) (st : TokenStream) : Prop where
  size : st.data.length = 5 * ts.length
  tokens : (undelta st.data).map (Encoded.token? l) = ts.map some
  masks : ∀ e ∈ undelta st.data, e.mask = 0

theorem codedCarries {l : Legend} {ts : List Token} (plain : ∀ t ∈ ts, t.Plain l) (result : Option String) :
    Carries l ts ⟨delta (ts.map (coded l)),result⟩ where
  size := by rw [delta,deltaLength,List.length_map]
  tokens := by
    rw [undelta,delta,undeltaDelta,List.map_map]
    apply List.map_congr_left
    intro t member
    exact codedToken (plain t member)
  masks := by
    rw [undelta,delta,undeltaDelta]
    intro e member
    obtain ⟨t,_,same⟩ := List.mem_map.mp member
    rw [← same]
    rfl

def Capture.Within (c : Capture) : Prop :=
  0 ≤ c.start.row ∧ 0 ≤ c.start.column ∧ 0 ≤ c.stop.row ∧ 0 ≤ c.stop.column

theorem captureTokens {maxLength : Int} {policy : ReversedSpans} {c : Capture} {ts : List Token}
    (done : c.tokens maxLength policy = .ok ts) {t : Token} (member : t ∈ ts) :
    t.type = c.name ∧ t.modifiers = [] ∧ (c.Within → 0 ≤ t.line ∧ 0 ≤ t.start) ∧ (0 ≤ maxLength → 0 ≤ t.length) := by
  unfold Capture.tokens at done
  split at done
  · cases Except.ok.inj done
    cases List.mem_singleton.mp member
    exact ⟨rfl,rfl,fun within => ⟨within.1,within.2.1⟩,fun _ => Int.le_max_left _ _⟩
  · split at done
    · contradiction
    · cases Except.ok.inj done
      simp only [splitRows,List.cons_append,List.mem_cons,List.mem_append,List.mem_map] at member
      rcases member with rfl | ⟨i,_,rfl⟩ | rfl | nowhere
      · exact ⟨rfl,rfl,fun within => ⟨within.1,within.2.1⟩,fun room => room⟩
      · refine ⟨rfl,rfl,fun within => ⟨?_,Int.le_refl 0⟩,fun room => room⟩
        have row := within.1
        show 0 ≤ c.start.row + 1 + (i : Int)
        omega
      · exact ⟨rfl,rfl,fun within => ⟨within.2.2.1,Int.le_refl 0⟩,fun _ => Int.le_max_left _ _⟩
      · contradiction

theorem tokensOfCons {maxLength : Int} {policy : ReversedSpans} {c : Capture} {rest : List Capture} {ts : List Token}
    (done : tokensOf maxLength policy (c::rest) = .ok ts) :
    ∃ own others, c.tokens maxLength policy = .ok own ∧ tokensOf maxLength policy rest = .ok others ∧
      ts = own ++ others := by
  simp only [tokensOf] at done
  cases head : c.tokens maxLength policy with
  | error f =>
    rw [head] at done
    contradiction
  | ok own =>
    cases later : tokensOf maxLength policy rest with
    | error f =>
      rw [head,later] at done
      contradiction
    | ok others =>
      rw [head,later] at done
      exact ⟨own,others,rfl,rfl,(Except.ok.inj done).symm⟩

theorem tokensOfCapture {maxLength : Int} {policy : ReversedSpans} {cs : List Capture} {ts : List Token}
    (done : tokensOf maxLength policy cs = .ok ts) {t : Token} (member : t ∈ ts) :
    ∃ c ∈ cs, t.type = c.name ∧ t.modifiers = [] ∧ (c.Within → 0 ≤ t.line ∧ 0 ≤ t.start) ∧
      (0 ≤ maxLength → 0 ≤ t.length) := by
  induction cs generalizing ts with
  | nil =>
    cases Except.ok.inj done
    contradiction
  | cons c rest ih =>
    obtain ⟨own,others,head,more,rfl⟩ := tokensOfCons done
    rcases List.mem_append.mp member with here | later
    · exact ⟨c,by simp,captureTokens head here⟩
    · obtain ⟨x,inside,facts⟩ := ih more later
      exact ⟨x,List.mem_cons_of_mem _ inside,facts⟩

theorem normalizeParts {l : Legend} {maxLength : Int} {policy : ReversedSpans} {ms : List QueryMatch}
    {ts : List Token} {notices : List Notice} (done : normalize l maxLength policy ms = .ok (ts,notices)) :
    tokensOf maxLength policy (keptCaptures l ms) = .ok ts ∧
    notices = dropNotice ((flatCaptures ms).length - (keptCaptures l ms).length) ts.length := by
  simp only [normalize] at done
  cases tokens : tokensOf maxLength policy (keptCaptures l ms) with
  | error f =>
    rw [tokens] at done
    contradiction
  | ok found =>
    rw [tokens] at done
    cases Except.ok.inj done
    exact ⟨rfl,rfl⟩

theorem normalizePlain {l : Legend} {maxLength : Int} {policy : ReversedSpans} {ms : List QueryMatch}
    {ts : List Token} {notices : List Notice} (done : normalize l maxLength policy ms = .ok (ts,notices)) :
    (∀ t ∈ ts, t.Plain l) ∧ ((∀ c ∈ flatCaptures ms, c.Within) → ∀ t ∈ ts, 0 ≤ t.line ∧ 0 ≤ t.start) ∧
    (0 ≤ maxLength → ∀ t ∈ ts, 0 ≤ t.length) ∧ ∀ n ∈ notices, n.event = "captures_dropped" := by
  obtain ⟨tokens,rfl⟩ := normalizeParts done
  refine ⟨?_,?_,?_,?_⟩
  · intro t member
    obtain ⟨c,kept,name,bare,_⟩ := tokensOfCapture tokens member
    exact ⟨name ▸ (List.mem_filter.mp kept).2,bare⟩
  · intro within t member
    obtain ⟨c,kept,_,_,places,_⟩ := tokensOfCapture tokens member
    exact places (within c (List.mem_filter.mp kept).1)
  · intro room t member
    obtain ⟨c,_,_,_,_,size⟩ := tokensOfCapture tokens member
    exact size room
  · intro n member
    unfold dropNotice at member
    split at member
    · contradiction
    · cases List.mem_singleton.mp member
      rfl

def Quiet (notices : List Notice) : Prop := ∀ n ∈ notices, n.event ≠ "token_type_fallback"

theorem quietAppend {a b : List Notice} (left : Quiet a) (right : Quiet b) : Quiet (a ++ b) := by
  intro n member
  rcases List.mem_append.mp member with first | second
  · exact left n first
  · exact right n second

theorem parsingQuiet (s : Document.Store) (doc : DocId) (text : Text) : Quiet (s.parsing doc text).2.notices := by
  intro n member
  unfold Document.Store.parsing at member
  cases found : s.find? doc with
  | none =>
    rw [found] at member
    cases List.mem_singleton.mp member
    simp [Document.Store.parsedNotice]
  | some e =>
    rw [found] at member
    rcases List.mem_append.mp member with sync | parsed
    · obtain ⟨r,_,same⟩ := List.mem_map.mp sync
      rw [← same]
      simp [Document.Store.resyncedNotice]
    · cases List.mem_singleton.mp parsed
      simp [Document.Store.parsedNotice]

namespace Session

def capturesFor (host : Host) (s : Session) (g : Query.Grammar) (doc : DocId) (text : Text) : List Capture :=
  flatCaptures (g.matches host.engine (s.store.parsing doc text).1 text.octets)

structure Listed (host : Host) (s : Session) (g : Query.Grammar) (doc : DocId) (text : Text) (ts : List Token) :
    Prop where
  plain : ∀ t ∈ ts, t.Plain s.legend
  ordered : ts.Pairwise fun x y => x.before y = true
  inside : (∀ c ∈ s.capturesFor host g doc text, c.Within) → ∀ t ∈ ts, 0 ≤ t.line ∧ 0 ≤ t.start
  sized : 0 ≤ s.settings.tokens.maxLength → ∀ t ∈ ts, 0 ≤ t.length

theorem requestListed (host : Host) (s : Session) (g : Query.Grammar) (doc : DocId) (text : Text) :
    ((∃ f, (s.request host g doc text).2.1 = .error f ∧ ∀ name, f ≠ .fault (.unknownType name)) ∨
      ∃ ts, (s.request host g doc text).2.1 = .ok ts ∧ s.Listed host g doc text ts) ∧
    Quiet (s.request host g doc text).2.2.notices := by
  cases loaded : s.store.loaded with
  | false =>
    have absent : (s.request host g doc text).2 = (.error .lostReport,{}) := by
      simp [request,Document.Store.update,loaded]
    rw [absent]
    exact ⟨.inl ⟨_,rfl,by simp⟩,by simp [Quiet]⟩
  | true =>
    have quiet := parsingQuiet s.store doc text
    have updated := Document.Store.updateLoaded loaded doc text
    obtain ⟨ms,query⟩ : ∃ ms, g.matches host.engine (s.store.parsing doc text).1 text.octets = ms := ⟨_,rfl⟩
    cases done : normalize s.legend s.settings.tokens.maxLength s.settings.tokens.reversed ms with
    | error f =>
      have lost : (s.request host g doc text).2 = (.error .lostReport,(s.store.parsing doc text).2 ++ ⟨[],[]⟩) := by
        simp only [request,updated,tokensFor,query,done,Failure.crossedFault]
      rw [lost]
      exact ⟨.inl ⟨_,rfl,by simp⟩,quietAppend quiet (by simp [Quiet])⟩
    | ok found =>
      obtain ⟨ts,notices⟩ := found
      obtain ⟨plain,inside,sized,dropped⟩ := normalizePlain done
      have listed : (s.request host g doc text).2 =
          (.ok (Token.sortByPosition ts),(s.store.parsing doc text).2 ++
            ⟨[],notices ++ [⟨.debug,"tokens_provided",[("matches",.int ms.length),("tokens",.int ts.length)]⟩]⟩) := by
        simp only [request,updated,tokensFor,query,done]
      rw [listed]
      refine ⟨.inr ⟨_,rfl,?_,sortOrdered ts,?_,?_⟩,quietAppend quiet (quietAppend ?_ ?_)⟩
      · intro t member
        exact plain t (List.mem_mergeSort.mp member)
      · intro within t member
        rw [capturesFor,query] at within
        exact inside within t (List.mem_mergeSort.mp member)
      · intro room t member
        exact sized room t (List.mem_mergeSort.mp member)
      · intro n member
        rw [dropped n member]
        decide
      · intro n member
        cases List.mem_singleton.mp member
        simp

def Forward (st : TokenStream) : Prop :=
  ∀ i d, st.data[5 * i]? = some d ∨ st.data[5 * i + 1]? = some d → 0 ≤ d

structure Agrees (host : Host) (s : Session) (g : Query.Grammar) (doc : DocId) (text : Text) (ts : List Token)
    (st : TokenStream) : Prop where
  carries : Carries s.legend ts st
  forward : (∀ c ∈ s.capturesFor host g doc text, c.Within) → Forward st

theorem listedAgrees {host : Host} {s : Session} {g : Query.Grammar} {doc : DocId} {text : Text} {ts : List Token}
    (listed : s.Listed host g doc text ts) :
    s.Agrees host g doc text ts ⟨delta (ts.map (coded s.legend)),none⟩ where
  carries := codedCarries listed.plain none
  forward := by
    intro within i d found
    have inside := listed.inside within
    refine deltaForward 0 0 (ts.map (coded s.legend)) ?_ ?_ ?_ i d found
    · apply List.pairwise_map.mpr
      apply listed.ordered.imp
      intro x y order
      simpa [Token.before,Encoded.before,coded] using order
    · intro e member
      obtain ⟨t,here,same⟩ := List.mem_map.mp member
      have bounds := inside t here
      subst same
      simp only [coded]
      omega
    · intro e member
      obtain ⟨t,here,same⟩ := List.mem_map.mp member
      rw [← same]
      exact (inside t here).2

theorem serveAgrees (host : Host) (s : Session) (g : Query.Grammar) (doc : DocId) (text : Text) :
    ((∃ f, (s.serve host g (.tokens doc text)).2.1 = .error f ∧ (s.serve host g (.stream doc text)).2.1 = .error f ∧
        ∀ name, f ≠ .fault (.unknownType name)) ∨
      ∃ ts st, (s.serve host g (.tokens doc text)).2.1 = .ok (.tokens ts) ∧
        (s.serve host g (.stream doc text)).2.1 = .ok (.stream st) ∧ s.Agrees host g doc text ts st) ∧
    Quiet (s.serve host g (.stream doc text)).2.2.notices := by
  obtain ⟨answer,quiet⟩ := requestListed host s g doc text
  rw [serveStream]
  simp only [serve]
  generalize s.request host g doc text = result at answer quiet ⊢
  obtain ⟨next,outcome,effects⟩ := result
  rcases answer with ⟨f,failed,other⟩ | ⟨ts,found,listed⟩
  · cases failed
    exact ⟨.inl ⟨f,rfl,rfl,other⟩,quiet⟩
  · cases found
    have stream := streamPlain s listed.plain listed.ordered
    simp only [stream]
    refine ⟨.inr ⟨ts,_,rfl,rfl,listedAgrees listed⟩,quietAppend quiet ?_⟩
    intro n member
    contradiction

theorem openingQuiet (host : Host) (s : Session) : Quiet (s.opening host).2.notices := by
  unfold opening
  split
  · split
    · simp [Quiet,Query.Grammar.loadedNotice,readyNotice]
    · simp [Quiet,failedNotice]
  · split
    · simp [Quiet,Query.Grammar.loadedNotice,readyNotice]
    · simp [Quiet,failedNotice]
  · simp [Quiet]
  · simp [Quiet]

end Session

namespace Query

theorem languageFault (cat : Catalogue) (module func name : String) :
    cat.language module func ≠ .error (.fault (.unknownType name)) := by
  unfold Catalogue.language packageError
  split <;> (try split) <;> simp

theorem expandFault (p : Path) (home : String) (accounts : Table String String) (name : String) :
    p.expandHome home accounts ≠ .error (.fault (.unknownType name)) := by
  unfold Path.expandHome
  split
  · split
    · dsimp only
      split <;> simp
    · simp
  · simp

theorem compileFault (cat : Catalogue) (files : Files) (engine : Engine) (source name : String) :
    compile cat files engine source ≠ .error (.fault (.unknownType name)) := by
  intro failed
  unfold compile at failed
  cases text : resolve cat files source.toList with
  | error f =>
    rw [text] at failed
    cases Except.error.inj failed
    unfold resolve at text
    split at text
    · split at text <;> simp at text
    · rename_i path _
      cases expanded : (Path.ofString (String.ofList path)).expandHome files.home files.accounts with
      | error g =>
        rw [expanded] at text
        cases Except.error.inj text
        exact expandFault _ _ _ name expanded
      | ok p =>
        simp only [expanded,bind,Except.bind,Files.textOf] at text
        split at text
        · split at text <;> simp at text
        · simp at text
    · simp at text
  | ok t =>
    simp only [text,bind,Except.bind] at failed
    split at failed <;> simp at failed

theorem loadFault (cat : Catalogue) (files : Files) (engine : Engine) (settings : GrammarSettings) (name : String) :
    Grammar.load cat files engine settings ≠ .error (.fault (.unknownType name)) := by
  have compiled : ∀ sources : List String,
      sources.mapM (compile cat files engine) ≠ .error (.fault (.unknownType name)) := by
    intro sources
    induction sources with
    | nil => simp [pure,Except.pure]
    | cons source rest ih =>
      simp only [List.mapM_cons,bind,Except.bind]
      split
      · rename_i f failed
        intro same
        cases Except.error.inj same
        exact compileFault cat files engine source name failed
      · split
        · rename_i f failed
          intro same
          cases Except.error.inj same
          exact ih failed
        · simp [pure,Except.pure]
  simp only [Grammar.load,bind,Except.bind]
  split
  · rename_i f failed
    intro same
    cases Except.error.inj same
    exact languageFault cat settings.module settings.languageFunc name failed
  · split
    · rename_i f failed
      intro same
      cases Except.error.inj same
      exact compiled settings.queries failed
    · simp

end Query

namespace Session

theorem callAgrees (host : Host) (s : Session) (doc : DocId) (text : Text) :
    ((∃ f, (s.call host (.tokens doc text)).2.1 = .error f ∧ (s.call host (.stream doc text)).2.1 = .error f ∧
        ∀ name, f = .fault (.unknownType name) → (s.opening host).1 = .failed f) ∨
      ∃ ts st, (s.call host (.tokens doc text)).2.1 = .ok (.tokens ts) ∧
        (s.call host (.stream doc text)).2.1 = .ok (.stream st) ∧ Carries s.legend ts st ∧
        ∀ g, (s.opening host).1 = .ready g → (∀ c ∈ s.capturesFor host g doc text, c.Within) → Forward st) ∧
    Quiet (s.call host (.stream doc text)).2.2.notices := by
  have quiet := openingQuiet host s
  rcases openingSettles host s with ⟨g,ready⟩ | ⟨cause,failed⟩
  · cases may : s.admits doc with
    | false =>
      have tokens := callBarred (.tokens doc text) ready rfl may
      have stream := callBarred (.stream doc text) ready rfl may
      rw [tokens,stream]
      exact ⟨.inl ⟨_,rfl,rfl,fun name same => by contradiction⟩,quiet⟩
    | true =>
      obtain ⟨_,tokens,_⟩ := callServed (.tokens doc text) ready rfl may
      obtain ⟨_,stream,_⟩ := callServed (.stream doc text) ready rfl may
      obtain ⟨answer,more⟩ := serveAgrees host s g doc text
      rw [tokens,stream]
      refine ⟨?_,quietAppend quiet more⟩
      rcases answer with ⟨f,left,right,other⟩ | ⟨ts,st,left,right,agrees⟩
      · exact .inl ⟨f,left,right,fun name same => absurd same (other name)⟩
      · refine .inr ⟨ts,st,left,right,agrees.carries,?_⟩
        intro h there
        rw [ready] at there
        cases there
        exact agrees.forward
  · obtain ⟨_,tokens,_⟩ := callStopped (refusedPass failed (.tokens doc text))
    obtain ⟨_,stream,_⟩ := callStopped (refusedPass failed (.stream doc text))
    rw [tokens,stream]
    exact ⟨.inl ⟨cause,rfl,rfl,fun _ _ => failed⟩,quiet⟩

theorem streamCarriesTokens {host : Host} {settings : Settings} {legend : Legend} {s : Session}
    (reached : Reached host { settings, legend } s) (doc : DocId) (text : Text) :
    ((∃ f, (s.call host (.tokens doc text)).2.1 = .error f ∧ (s.call host (.stream doc text)).2.1 = .error f) ∨
      ∃ ts st, (s.call host (.tokens doc text)).2.1 = .ok (.tokens ts) ∧
        (s.call host (.stream doc text)).2.1 = .ok (.stream st) ∧ Carries legend ts st ∧
        ∀ g, (s.opening host).1 = .ready g → (∀ c ∈ s.capturesFor host g doc text, c.Within) → Forward st) ∧
    (∀ name, (s.call host (.stream doc text)).2.1 = .error (.fault (.unknownType name)) →
      host.load settings.grammar = .error (.fault (.unknownType name))) ∧
    (∀ cat files, host.load = Query.Grammar.load cat files host.engine → ∀ name,
      (s.call host (.stream doc text)).2.1 ≠ .error (.fault (.unknownType name))) ∧
    Quiet (s.call host (.stream doc text)).2.2.notices := by
  have frame := reachedFramed reached
  obtain ⟨answer,quiet⟩ := callAgrees host s doc text
  have loader : ∀ name, (s.call host (.stream doc text)).2.1 = .error (.fault (.unknownType name)) →
      host.load settings.grammar = .error (.fault (.unknownType name)) := by
    intro name raised
    rcases answer with ⟨f,_,right,only⟩ | ⟨ts,st,_,right,_⟩
    · cases Except.error.inj (right.symm.trans raised)
      have failed := only name rfl
      rw [framedOpening rfl frame] at failed
      simp only [opening] at failed
      cases load : host.load settings.grammar with
      | ok g =>
        rw [load] at failed
        contradiction
      | error cause =>
        rw [load] at failed
        cases failed
        rfl
    · rw [right] at raised
      contradiction
  refine ⟨?_,loader,?_,quiet⟩
  · rcases answer with ⟨f,left,right,_⟩ | ⟨ts,st,left,right,carries,forward⟩
    · exact .inl ⟨f,left,right⟩
    · have same : s.legend = legend := frame.legend
      exact .inr ⟨ts,st,left,right,same ▸ carries,forward⟩
  · intro cat files loads name raised
    have load := loader name raised
    rw [loads] at load
    exact Query.loadFault cat files host.engine settings.grammar name load

def strictSettings : Settings := { tokens := { strict := true } }

def strictSession : Session := after wholeSource { settings := strictSettings, legend := .standard } mixedSteps

theorem wholeSourceStream :
    Reached wholeSource { settings := strictSettings, legend := .standard } strictSession ∧
    ((∃ f, (strictSession.call wholeSource (.tokens "a" ['é','\n','z'])).2.1 = .error f ∧
        (strictSession.call wholeSource (.stream "a" ['é','\n','z'])).2.1 = .error f) ∨
      ∃ ts st, (strictSession.call wholeSource (.tokens "a" ['é','\n','z'])).2.1 = .ok (.tokens ts) ∧
        (strictSession.call wholeSource (.stream "a" ['é','\n','z'])).2.1 = .ok (.stream st) ∧
        Carries .standard ts st ∧
        ∀ g, (strictSession.opening wholeSource).1 = .ready g →
          (∀ c ∈ strictSession.capturesFor wholeSource g "a" ['é','\n','z'], c.Within) → Forward st) ∧
    Quiet (strictSession.call wholeSource (.stream "a" ['é','\n','z'])).2.2.notices := by
  have reached : Reached wholeSource { settings := strictSettings, legend := .standard } strictSession :=
    (afterIdle .first ⟨fun _ => rfl,rfl⟩ mixedSteps).1
  have facts := streamCarriesTokens reached "a" ['é','\n','z']
  exact ⟨reached,facts.1,facts.2.2.2⟩

end Session
end Tinct
