import Tinct.Proofs.Coordinates
import Tinct.Proofs.TokensCommand
import Tinct.Proofs.CheckedFields
import Tinct.Proofs.LayerFiles
import Mathlib.Data.List.TakeWhile

/-! The text that a token marks, and the excerpt that the table of tokens shows for it. Tokens are numbered by rows, which
only newlines divide; excerpts are cut from lines, which some other characters end too. A line is its row up to the first
such character as long as all rows above are free of them, so an excerpt is the marked text of every token that no such
character precedes. For all tokens of the first rows that is so exactly when these rows hold none. -/
namespace Tinct

namespace Text

def Solid (t : Text) : Prop := ∀ c ∈ t, isBreak c = false

instance (t : Text) : Decidable t.Solid := List.decidableBAll (fun c => isBreak c = false) t

def upToBreak (t : Text) : Text := t.takeWhile fun c => !isBreak c

theorem solidUpTo {t : Text} : t.Solid ↔ t.upToBreak = t := by
  rw [upToBreak,List.takeWhile_eq_self_iff]
  simp only [Solid,Bool.not_eq_true']

theorem upToLength (t : Text) : t.upToBreak.length ≤ t.length := (List.takeWhile_prefix _).length_le

theorem takeUpTo {t : Text} {n : Nat} (solid : Solid (t.take n)) : t.upToBreak.take n = t.take n := by
  have split : t.upToBreak = t.take n ++ upToBreak (t.drop n) := by
    have all : ∀ c ∈ t.take n, (!isBreak c) = true := fun c member => by rw [solid c member]; rfl
    rw [upToBreak,upToBreak,← List.takeWhile_append_of_pos all,List.take_append_drop]
  rw [split,List.take_append,List.take_take,Nat.min_self,List.length_take]
  by_cases short : t.length ≤ n
  · rw [List.drop_of_length_le short,upToBreak,List.takeWhile_nil,List.take_nil,List.append_nil]
  · rw [Nat.min_eq_left (by omega),Nat.sub_self,List.take_zero,List.append_nil]

theorem rowsOne {t : Text} (one : '\n' ∉ t) : rows t = [t] := by
  induction t with
  | nil => rfl
  | cons c t ih =>
    have other : c ≠ '\n' := fun same => one (by simp [same])
    rw [rows,if_neg other,ih fun member => one (List.mem_cons_of_mem _ member)]

theorem linesSolid {part : Text} (solid : part.Solid) (current rest : Text) :
    linesFrom current (part ++ rest) = linesFrom (part.reverse ++ current) rest := by
  induction part generalizing current with
  | nil => rfl
  | cons c part ih =>
    obtain ⟨plain,others⟩ := List.forall_mem_cons.mp solid
    have step : linesFrom current (c::(part ++ rest)) = linesFrom (c::current) (part ++ rest) := by
      rw [linesFrom.eq_3,plain]
      · rfl
      · rintro _ rfl _
        contradiction
    rw [List.cons_append,step,ih others,List.reverse_cons,List.append_assoc,List.singleton_append]

theorem linesRow {first : Text} (solid : first.Solid) (rest : Text) :
    linesFrom [] (first ++ '\n'::rest) = first::linesFrom [] rest := by
  rw [linesSolid solid,List.append_nil,linesFrom.eq_3]
  · rw [List.reverse_reverse]
    rfl
  · rintro _ same _
    contradiction

theorem linesFirst (current t : Text) : (linesFrom current t).getD 0 [] = current.reverse ++ t.upToBreak := by
  fun_induction linesFrom current t with
  | case1 current empty => simp [upToBreak,List.isEmpty_iff.mp empty]
  | case2 current some => simp [upToBreak]
  | case3 current rest ih => simp [upToBreak,show isBreak '\r' = true from rfl]
  | case4 current c rest other breaks ih => simp [upToBreak,breaks]
  | case5 current c rest other plain ih => simpa [upToBreak,plain] using ih

def row (t : Text) (n : Nat) : Text := t.rows.getD n []

theorem rowZero (t : Text) : t.row 0 = t.takeWhile (· ≠ '\n') := by
  rw [row,List.getD_eq_getElem?_getD,rowsFirst,Option.getD_some]

theorem rowsBroken {first : Text} (one : '\n' ∉ first) (rest : Text) : rows (first ++ '\n'::rest) = first::rows rest := by
  rw [rowsBreak,rowsOne one,List.singleton_append]

theorem rowUpTo (t : Text) : upToBreak (t.takeWhile (· ≠ '\n')) = t.upToBreak := by
  rw [upToBreak,upToBreak,List.takeWhile_takeWhile]
  congr 1
  funext c
  by_cases same : c = '\n'
  · subst same
    rfl
  · simp [same]

theorem lineUpTo (t : Text) (n : Nat) (above : ∀ k < n, Solid (t.row k)) : (lines t).getD n [] = (t.row n).upToBreak := by
  induction n generalizing t with
  | zero => rw [lines,linesFirst,rowZero,rowUpTo,List.reverse_nil,List.nil_append]
  | succ n ih =>
    have solid := above 0 (by omega)
    by_cases broken : '\n' ∈ t
    · obtain ⟨first,rest,rfl,one⟩ := List.eq_append_cons_of_mem broken
      simp only [row,rowsBroken one,List.getD_cons_zero,List.getD_cons_succ] at above solid ⊢
      rw [lines,linesRow solid,List.getD_cons_succ]
      exact ih rest fun k below => above (k + 1) (by omega)
    · simp only [row,rowsOne broken,List.getD_cons_zero] at solid ⊢
      rw [lines,← List.append_nil t,linesSolid solid,linesFrom]
      split <;> rfl

end Text

namespace Token

structure Natural (token : Token) : Prop where
  line : 0 ≤ token.line
  start : 0 ≤ token.start
  length : 0 ≤ token.length

def marked (token : Token) (t : Text) : Text :=
  Text.slice (t.row token.line.toNat) token.start.toNat (token.start + token.length).toNat

-- Before a token's end only newlines end a line.
structure Clear (token : Token) (t : Text) : Prop where
  above : ∀ k < token.line.toNat, Text.Solid (t.row k)
  beside : Text.Solid ((t.row token.line.toNat).take (token.start + token.length).toNat)

def whole (t : Text) (k : Nat) : Token := { line := k, start := 0, length := (t.row k).length, type := "" }

theorem wholeNatural (t : Text) (k : Nat) : (whole t k).Natural :=
  ⟨Int.natCast_nonneg _,Int.le_refl 0,Int.natCast_nonneg _⟩

end Token

namespace Command

theorem sliceNatural (t : Text) {start stop : Int} (first : 0 ≤ start) (order : start ≤ stop) :
    slice t start stop = Text.slice t start.toNat stop.toNat := by
  have lower : ¬ start < 0 := by omega
  have upper : ¬ stop < 0 := by omega
  rw [slice,bound,bound,if_neg lower,if_neg upper,Text.slice,List.drop_take]
  rcases Nat.le_total start.toNat t.length with within | beyond
  · rw [Nat.min_eq_left within]
    apply List.take_eq_take_iff.mpr
    rw [List.length_drop]
    omega
  · rw [Nat.min_eq_right beyond,List.drop_of_length_le beyond,List.drop_of_length_le (Nat.le_refl _),List.take_nil,
      List.take_nil]

theorem excerptNatural (lines : List Text) {token : Token} (natural : token.Natural) :
    excerpt lines token =
      Text.slice (lines.getD token.line.toNat []) token.start.toNat (token.start + token.length).toNat := by
  obtain ⟨line,start,length⟩ := natural
  have inside : ¬ token.line < 0 := by omega
  have found : lines.getD (bound lines.length token.line) [] = lines.getD token.line.toNat [] := by
    rw [bound,if_neg inside,List.getD_eq_getElem?_getD,List.getD_eq_getElem?_getD]
    rcases Nat.le_total token.line.toNat lines.length with within | beyond
    · rw [Nat.min_eq_left within]
    · rw [Nat.min_eq_right beyond,List.getElem?_eq_none (Nat.le_refl _),List.getElem?_eq_none beyond]
  rw [excerpt,found,sliceNatural _ start (by omega)]

section
variable {t : Text}

theorem excerptClear {token : Token} (natural : token.Natural) (clear : token.Clear t) :
    excerpt (Text.lines t) token = token.marked t := by
  rw [excerptNatural _ natural,Text.lineUpTo t _ clear.above,Token.marked,Text.slice,Text.slice,
    Text.takeUpTo clear.beside]

theorem wholeShown {k : Nat} (above : ∀ j < k, Text.Solid (t.row j))
    (shown : excerpt (Text.lines t) (.whole t k) = (Token.whole t k).marked t) : Text.Solid (t.row k) := by
  rw [excerptNatural _ (Token.wholeNatural t k),Token.marked] at shown
  simp only [Token.whole,Int.toNat_natCast,Text.lineUpTo t k above,Text.slice,Int.toNat_zero,List.drop_zero,Int.zero_add,
    List.take_length] at shown
  rw [List.take_of_length_le (Text.upToLength _)] at shown
  exact Text.solidUpTo.mpr shown

theorem excerptsExact (t : Text) (n : Nat) :
    (∀ token : Token, token.Natural → token.line < n → excerpt (Text.lines t) token = token.marked t) ↔
      ∀ k < n, Text.Solid (t.row k) := by
  constructor
  · intro shown k
    induction k using Nat.strongRecOn with
    | ind k ih =>
      intro within
      apply wholeShown fun j below => ih j below (by omega)
      exact shown _ (Token.wholeNatural t k) (Int.ofNat_lt.mpr within)
  · intro solid token natural within
    have line := natural.line
    refine excerptClear natural ⟨fun k below => solid k (by omega),?_⟩
    intro c member
    exact solid token.line.toNat (by omega) c (List.mem_of_mem_take member)

end

end Command

namespace Query

def Node.Counted (n : Node) : Prop := 0 ≤ n.start.row ∧ 0 ≤ n.start.column ∧ 0 ≤ n.stop.row ∧ 0 ≤ n.stop.column

def Engine.Counted (engine : Engine) : Prop :=
  ∀ i tree, ∀ m ∈ engine.run i tree, ∀ c ∈ m.captures, ∀ n ∈ c.2, Node.Counted n

instance (n : Node) : Decidable n.Counted := inferInstanceAs (Decidable (_ ∧ _))

theorem charPointCounted (rows : List Octets) {p : Point} (row : 0 ≤ p.row) (column : 0 ≤ p.column) :
    0 ≤ (Octets.charPoint rows p).row ∧ 0 ≤ (Octets.charPoint rows p).column := by
  unfold Octets.charPoint
  split
  · exact ⟨row,column⟩
  · split
    · exact ⟨row,column⟩
    · exact ⟨row,Int.natCast_nonneg _⟩

theorem matchesWithin {engine : Engine} (counted : engine.Counted) (g : Grammar) (tree : Tree) (source : Octets) :
    ∀ c ∈ flatCaptures (g.matches engine tree source), c.Within := by
  intro c member
  obtain ⟨m,found,inside⟩ := List.mem_flatMap.mp member
  obtain ⟨raw,ran,kept⟩ := List.mem_filterMap.mp found
  obtain ⟨i,_,listed⟩ := List.mem_flatMap.mp ran
  have same : raw.converted source.rows = m := by
    dsimp only at kept
    split at kept
    · contradiction
    · exact Option.some.inj kept
  subst same
  obtain ⟨⟨name,n⟩,named,rfl⟩ := List.mem_map.mp inside
  obtain ⟨captured,here,node⟩ := List.mem_flatMap.mp (List.mem_mergeSort.mp named)
  obtain ⟨_,own,same⟩ := List.mem_map.mp node
  cases same
  obtain ⟨row,column,stopRow,stopColumn⟩ := counted i tree raw listed captured here n own
  have start := charPointCounted source.rows row column
  have stop := charPointCounted source.rows stopRow stopColumn
  exact ⟨start.1,start.2,stop.1,stop.2⟩

end Query

namespace Session

theorem callNatural {host : Host} (counted : host.engine.Counted) {s : Session} (room : 0 ≤ s.settings.tokens.maxLength)
    {doc : DocId} {text : Text} {ts : List Token} (answered : (s.call host (.tokens doc text)).2.1 = .ok (.tokens ts)) :
    ∀ t ∈ ts, t.Natural := by
  obtain ⟨g,_,served⟩ := callAnswered rfl answered
  rcases (requestListed host s g doc text).1 with ⟨f,failed,_⟩ | ⟨found,same,listed⟩
  · simp only [serve,failed] at served
    contradiction
  · simp only [serve,same] at served
    cases served
    have inside := listed.inside (Query.matchesWithin counted g _ _)
    intro t member
    exact ⟨(inside t member).1,(inside t member).2,listed.sized room t member⟩

end Session

namespace Command

theorem sheetShows {text : Text} {ts : List Token} {shown : Token → Text}
    (same : ∀ t ∈ ts, excerpt (Text.lines text) t = shown t) :
    tokensSheet (excerpt (Text.lines text)) ts = tokensSheet shown ts := by
  rw [tokensSheet,tokensSheet]
  refine congrArg _ (List.map_congr_left fun t member => ?_)
  rw [row,row,same t member]

theorem openedSettings {w : World} {r : TokensRequest} {text : Text} {session : Session}
    (opened : openSession w r = .ok (text,session)) :
    ∃ settings legend, session = { settings, legend } ∧ 1 ≤ settings.tokens.maxLength := by
  obtain ⟨_,_,opened⟩ := bindOk.mp opened
  obtain ⟨settings,loaded,opened⟩ := bindOk.mp opened
  obtain ⟨made,new,same⟩ := bindOk.mp opened
  cases Except.ok.inj same
  unfold Session.new at new
  cases names : Legend.ofNames settings.legend.types settings.legend.modifiers with
  | error f =>
    rw [names] at new
    cases new
  | ok legend =>
    rw [names] at new
    cases Except.ok.inj new
    exact ⟨_,legend,rfl,(Settings.loadedBounded loaded).1⟩

theorem runMarked {w : World} (counted : w.host.engine.Counted) {r : TokensRequest} (table : r.json = false)
    (listed : r.delta = false) {text : Text} {session : Session} (opened : openSession w r = .ok (text,session))
    {ts : List Token} (answered : (session.call w.host (.tokens (w.document r) text)).2.1 = .ok (.tokens ts))
    (clear : ∀ t ∈ ts, t.Clear text) (book : Logbook) :
    ∃ logged, runTokens w book r = Report.ofResult logged (w.console (tokensSheet (fun t => t.marked text) ts)) := by
  obtain ⟨settings,legend,rfl,least⟩ := openedSettings opened
  have natural := Session.callNatural counted (Int.le_trans (by decide) least) answered
  have shows : tokensSheet (excerpt (Text.lines text)) ts = tokensSheet (fun t => t.marked text) ts :=
    sheetShows fun t member => excerptClear (natural t member) (clear t member)
  obtain ⟨g,ready,served⟩ := Session.callAnswered rfl answered
  obtain ⟨s,logged,rfl,rfl,store,ran⟩ := runAnswered opened (Session.openingLoaded ready) book
  have same := Session.serveSame (s := { settings := s.settings, legend := s.legend }) (t := s) store rfl rfl w.host g
    (.tokens (w.document r) text)
  have call : r.call (w.document r) text = .tokens (w.document r) text := by rw [TokensRequest.call,listed]; rfl
  rw [call,same.2,served] at ran
  refine ⟨logged,?_⟩
  rw [ran,← shows]
  simp only [Except.bind,printReply,table]
  rfl

theorem excerptsMarked {host : Host} (counted : host.engine.Counted) :
    (∀ (s : Session) doc text ts, 0 ≤ s.settings.tokens.maxLength →
      (s.call host (.tokens doc text)).2.1 = .ok (.tokens ts) →
      ∀ t ∈ ts, t.Clear text → excerpt (Text.lines text) t = t.marked text) ∧
    (∀ (w : World) r text session, w.host = host → openSession w r = .ok (text,session) → r.json = false →
      r.delta = false → ∀ ts, (session.call host (.tokens (w.document r) text)).2.1 = .ok (.tokens ts) →
      (∀ t ∈ ts, t.Clear text) →
      ∀ book, ∃ logged, runTokens w book r =
        Report.ofResult logged (w.console (tokensSheet (fun t => t.marked text) ts))) ∧
    ∀ (text : Text) (n : Nat),
      (∀ t : Token, t.Natural → t.line < n → excerpt (Text.lines text) t = t.marked text) ↔
        ∀ k < n, Text.Solid (text.row k) := by
  refine ⟨?_,?_,excerptsExact⟩
  · intro s doc text ts room answered t member clear
    exact excerptClear (Session.callNatural counted room answered t member) clear
  · intro w r text session same opened table listed ts answered clear book
    subst same
    exact runMarked counted table listed opened answered clear book

def nodeHost (n : Query.Node) : Host where
  load _ := .ok ⟨"node",[⟨[],[]⟩]⟩
  engine := { refuses := fun _ => none, run := fun _ _ => [⟨0,[("comment",[n])]⟩] }

theorem nodeHostCounted {n : Query.Node} (counted : n.Counted) : (nodeHost n).engine.Counted := by
  intro i tree m found c captured node here
  cases List.mem_singleton.mp found
  cases List.mem_singleton.mp captured
  cases List.mem_singleton.mp here
  exact counted

-- Three rows; a form feed in the second makes four lines of them.
def feedText : Text := ['a','\n','é','\x0c','b','\n','y']

def feedFiles : Files := { files := [(["w","a"],feedText.octets)], working := ["w"] }

def feedWorld (n : Query.Node) : World where
  files := feedFiles
  environment := []
  host := nodeHost n
  tools := Settings.plainTools
  console := Text.Grid.print
  stamp := ""
  requestId := ""

def feedSession : Session := { settings := {}, legend := .standard }

theorem feedOpens (n : Query.Node) : openSession (feedWorld n) { path := "a" } = .ok (feedText,feedSession) := by
  have read : readText feedFiles (Path.ofString "a").text = .ok feedText := by decide +kernel
  have load : Settings.load Settings.plainTools feedFiles [] (searchFor none) [] = .ok {} := by decide +kernel
  simp only [openSession,settingsFor,feedWorld,read,load,bind,Except.bind]
  rfl

def aheadNode : Query.Node := ⟨2,4,⟨1,0⟩,⟨1,2⟩⟩

def aheadToken : Token := { line := 1, start := 0, length := 1, type := "comment" }

def behindNode : Query.Node := ⟨7,8,⟨2,0⟩,⟨2,1⟩⟩

def behindToken : Token := { aheadToken with line := 2 }

theorem aheadMarked :
    (nodeHost aheadNode).engine.Counted ∧ aheadToken.Clear feedText ∧
    openSession (feedWorld aheadNode) { path := "a" } = .ok (feedText,feedSession) ∧
    (feedSession.call (nodeHost aheadNode) (.tokens "file:///w/a" feedText)).2.1 = .ok (.tokens [aheadToken]) ∧
    excerpt (Text.lines feedText) aheadToken = ['é'] ∧
    (∃ logged, runTokens (feedWorld aheadNode) {} { path := "a" } =
      Report.ofResult logged (Text.Grid.print (tokensSheet (fun t => t.marked feedText) [aheadToken]))) ∧
    excerpt (Text.lines feedText) (.whole feedText 0) = ['a'] := by
  have counted : (nodeHost aheadNode).engine.Counted := nodeHostCounted (by decide)
  have clear : aheadToken.Clear feedText := ⟨by decide,by decide⟩
  have answered : (feedSession.call (nodeHost aheadNode) (.tokens "file:///w/a" feedText)).2.1 =
      .ok (.tokens [aheadToken]) := by decide +kernel
  have solid : ∀ k < 1, Text.Solid (feedText.row k) := by decide
  have address : (feedWorld aheadNode).document { path := "a" } = "file:///w/a" := by decide +kernel
  obtain ⟨shown,command,early⟩ := excerptsMarked counted
  refine ⟨counted,clear,feedOpens aheadNode,answered,?_,?_,?_⟩
  · rw [shown feedSession _ feedText [aheadToken] (by decide) answered aheadToken List.mem_cons_self clear]
    decide
  · refine command (feedWorld aheadNode) _ feedText feedSession rfl (feedOpens aheadNode) rfl rfl [aheadToken] ?_ ?_ {}
    · rw [address]
      exact answered
    · intro t member
      cases List.mem_singleton.mp member
      exact clear
  · rw [(early feedText 1).mpr solid _ (Token.wholeNatural feedText 0) (by decide)]
    decide

-- The third row is the fourth line, so its token is shown with what stands behind the form feed.
theorem behindMismarked :
    (nodeHost behindNode).engine.Counted ∧ openSession (feedWorld behindNode) { path := "a" } = .ok (feedText,feedSession) ∧
    (feedSession.call (nodeHost behindNode) (.tokens "file:///w/a" feedText)).2.1 = .ok (.tokens [behindToken]) ∧
    behindToken.marked feedText = ['y'] ∧ excerpt (Text.lines feedText) behindToken = ['b'] ∧
    (runTokens (feedWorld behindNode) {} { path := "a" }).output =
      "line  col  len  type     text\n   2    0    1  comment  b   \n" := by
  refine ⟨nodeHostCounted (by decide),feedOpens behindNode,by decide +kernel,by decide,by decide,?_⟩
  decide +kernel

end Command
end Tinct
