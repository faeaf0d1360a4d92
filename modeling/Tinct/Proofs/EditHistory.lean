import Tinct.Proofs.StoreRun

/-! What has been done to a kept tree. The log of a run says which edits were made on a tree since it was
parsed. For a kept tree they are those of notifications, which lead coherently from its source to the known
text, and after them those from outside; the text is unknown exactly when there are any of the latter. -/
namespace Tinct.Document

def subject : ParserCall → TreeId
  | .parse _ _ tree => tree
  | .edit tree _ => tree

def editOn? (tree : TreeId) : Origin × ParserCall → Option (Origin × Edit)
  | (_, .parse ..) => none
  | (origin, .edit other edit) => if other = tree then some (origin,edit) else none

def editsOn (tree : TreeId) (log : Log) : List (Origin × Edit) := log.filterMap (editOn? tree)

theorem editsOnAppend (tree : TreeId) (a b : Log) : editsOn tree (a ++ b) = editsOn tree a ++ editsOn tree b :=
  List.filterMap_append

theorem editsOnAway {tree : TreeId} {log : Log} (away : ∀ r ∈ log, subject r.2 ≠ tree) : editsOn tree log = [] := by
  apply List.filterMap_eq_nil_iff.mpr
  rintro ⟨origin,call⟩ member
  have other := away _ member
  cases call with
  | parse => rfl
  | edit target edit => exact if_neg other

theorem editsOnOwn (tree : TreeId) (origin : Origin) (edits : List Edit) :
    editsOn tree (edits.map fun x => (origin,.edit tree x)) = edits.map (origin,·) := by
  induction edits with
  | nil => rfl
  | cons x rest ih => simpa [editsOn,editOn?] using ih

/- `after` is the log since the parser made the tree from the source: nothing before concerns the tree, and it
is not made a second time. -/
def Since (log : Log) (tree : TreeId) (source : Text) (after : Log) : Prop :=
  ∃ old before, log = before ++ (.request,.parse source old tree)::after ∧
    (∀ r ∈ before, subject r.2 ≠ tree) ∧
    ∀ r ∈ after, subject r.2 = tree → ∃ x, r.2 = .edit tree x

theorem sinceNow {log : Log} {tree : TreeId} (before : ∀ r ∈ log, subject r.2 ≠ tree) (source : Text)
    (old : Option TreeId) : Since (log ++ [(.request,.parse source old tree)]) tree source [] :=
  ⟨old,log,rfl,before,by simp⟩

theorem sinceAppend {log tree source after} (since : Since log tree source after) (more : Log)
    (edits : ∀ r ∈ more, subject r.2 = tree → ∃ x, r.2 = .edit tree x) :
    Since (log ++ more) tree source (after ++ more) := by
  obtain ⟨old,before,split,earlier,later⟩ := since
  refine ⟨old,before,by simp [split],earlier,?_⟩
  intro r member
  rcases List.mem_append.mp member with h | h
  · exact later r h
  · exact edits r h

theorem sinceMade {log tree source after} (since : Since log tree source after) :
    ∃ r ∈ log, subject r.2 = tree := by
  obtain ⟨old,before,split,_⟩ := since
  exact ⟨(.request,.parse source old tree),by simp [split],rfl⟩

theorem sinceEdits {log tree source after} (since : Since log tree source after) :
    editsOn tree log = editsOn tree after := by
  obtain ⟨old,before,split,earlier,_⟩ := since
  rw [split,editsOnAppend,editsOnAway earlier]
  rfl

structure Lineage (log : Log) (e : Entry) (source : Text) (translated raw : List Edit) (data : Octets) : Prop where
  edits : ∃ after, Since log e.tree source after ∧
    editsOn e.tree after = translated.map (Origin.notification,·) ++ raw.map (Origin.outside,·)
  made : e.made.source = source.octets ∧ e.edits = translated ++ raw
  coherent : Coherent source.octets translated data
  tracked : ∀ text, e.text = some text → data = text.octets
  untracked : e.text = none ↔ raw ≠ []

theorem lineageEdits {log e source translated raw data} (l : Lineage log e source translated raw data) :
    editsOn e.tree log = translated.map (Origin.notification,·) ++ raw.map (Origin.outside,·) := by
  obtain ⟨after,since,same⟩ := l.edits
  rw [sinceEdits since,same]

theorem lineageParsed {log : Log} {tree : TreeId} (fresh : ∀ r ∈ log, subject r.2 ≠ tree) (text : Text)
    (old : Option TreeId) (made : Tree) (source : made.source = text.octets) :
    Lineage (log ++ [(.request,.parse text old tree)]) { tree, made, text := some text } text [] [] text.octets where
  edits := ⟨[],sinceNow fresh text old,rfl⟩
  made := ⟨source,rfl⟩
  coherent := .nil _
  tracked := by
    intro known same
    cases Option.some.inj same
    rfl
  untracked := by simp

theorem lineageAway {log e source translated raw data} (l : Lineage log e source translated raw data)
    {more : Log} (away : ∀ r ∈ more, subject r.2 ≠ e.tree) :
    Lineage (log ++ more) e source translated raw data := by
  obtain ⟨after,since,same⟩ := l.edits
  have grown := sinceAppend since more fun r member own => absurd own (away r member)
  exact { l with edits := ⟨after ++ more,grown,by rw [editsOnAppend,editsOnAway away,same,List.append_nil]⟩ }

theorem sinceOwn {log tree source after} (since : Since log tree source after) (origin : Origin) (edits : List Edit) :
    Since (log ++ edits.map fun x => (origin,.edit tree x)) tree source
      (after ++ edits.map fun x => (origin,.edit tree x)) := by
  apply sinceAppend since _
  intro r member _
  obtain ⟨x,_,same⟩ := List.mem_map.mp member
  exact ⟨x,by rw [← same]⟩

theorem lineageDerived {log e source translated raw data known} (l : Lineage log e source translated raw data)
    (tracked : e.text = some known) : raw = [] := by
  by_contra touched
  rw [l.untracked.mpr touched] at tracked
  contradiction

-- The changes of a notification need a known text, so nothing from outside stands before their edits.
theorem lineageNotified {log e source translated raw data known}
    (l : Lineage log e source translated raw data) (tracked : e.text = some known) (changes : List Change) :
    Lineage (log ++ (Store.editsFor known changes).1.map fun x => (.notification,.edit e.tree x))
      { e with
        edits := e.edits ++ (Store.editsFor known changes).1
        text := some (Store.editsFor known changes).2 }
      source (translated ++ (Store.editsFor known changes).1) [] (Store.editsFor known changes).2.octets := by
  have untouched := lineageDerived l tracked
  subst untouched
  obtain ⟨after,since,same⟩ := l.edits
  have reached := l.tracked known tracked
  subst reached
  refine ⟨⟨_,sinceOwn since _ _,?_⟩,⟨l.made.1,?_⟩,?_,?_,by simp⟩
  · rw [editsOnAppend,editsOnOwn,same]
    simp
  · simp [l.made.2]
  · exact coherentAppend l.coherent (Store.editsForCoherent known changes)
  · intro text found
    cases Option.some.inj found
    rfl

theorem lineageTouched {log e source translated raw data} (l : Lineage log e source translated raw data)
    (edit : Edit) :
    Lineage (log ++ [(.outside,.edit e.tree edit)]) { e with edits := e.edits ++ [edit], text := none }
      source translated (raw ++ [edit]) data := by
  obtain ⟨after,since,same⟩ := l.edits
  refine ⟨⟨_,sinceOwn since .outside [edit],?_⟩,⟨l.made.1,?_⟩,l.coherent,?_,by simp⟩
  · rw [editsOnAppend,editsOnOwn,same]
    simp
  · simp [l.made.2]
  · intro text found
    contradiction

structure Tracked (log : Log) (s : Store) : Prop where
  numbered : ∀ r ∈ log, subject r.2 ≤ s.trees
  apart : ∀ a b x y, s.find? a = some x → s.find? b = some y → x.tree = y.tree → a = b
  followed : ∀ doc e, s.find? doc = some e →
    ∃ source translated raw data, Lineage log e source translated raw data
  ordered : ∀ tree, (editsOn tree log).Pairwise fun x y => x.1 = .outside → y.1 = .outside

theorem trackedTree {log s doc e} (t : Tracked log s) (found : s.find? doc = some e) : e.tree ≤ s.trees := by
  obtain ⟨_,_,_,_,l⟩ := t.followed doc e found
  obtain ⟨_,since,_⟩ := l.edits
  obtain ⟨r,member,same⟩ := sinceMade since
  exact same ▸ t.numbered r member

/- All moves but those that drop entries put one entry. Its own lineage and the order of the new edits are left
to the move in question. -/
theorem trackedPut {log s} (t : Tracked log s) (doc : DocId) (e : Entry) (trees : Nat) (more : Log)
    (grows : s.trees ≤ trees) (numbered : ∀ r ∈ more, subject r.2 ≤ trees)
    (apart : ∀ other x, s.find? other = some x → other ≠ doc → x.tree ≠ e.tree)
    (away : ∀ other x, s.find? other = some x → other ≠ doc → ∀ r ∈ more, subject r.2 ≠ x.tree)
    (followed : ∃ source translated raw data, Lineage (log ++ more) e source translated raw data)
    (ordered : ∀ tree, (editsOn tree (log ++ more)).Pairwise fun x y => x.1 = .outside → y.1 = .outside) :
    Tracked (log ++ more) { s with entries := Table.put doc e s.entries, trees } := by
  refine ⟨?_,?_,?_,ordered⟩
  · intro r member
    rcases List.mem_append.mp member with h | h
    · exact Nat.le_trans (t.numbered r h) grows
    · exact numbered r h
  · intro a b x y left right same
    rw [Store.entryPut] at left right
    split at left
    · rename_i own
      split at right
      · exact own.symm.trans ‹doc = b›
      · cases Option.some.inj left
        exact absurd same.symm (apart b y right fun h => ‹¬ doc = b› h.symm)
    · split at right
      · cases Option.some.inj right
        exact absurd same (apart a x left fun h => ‹¬ doc = a› h.symm)
      · exact t.apart a b x y left right same
  · intro other x found
    rw [Store.entryPut] at found
    split at found
    · cases Option.some.inj found
      exact followed
    · rename_i different
      have elsewhere : other ≠ doc := fun h => different h.symm
      obtain ⟨source,translated,raw,data,l⟩ := t.followed other x found
      exact ⟨source,translated,raw,data,lineageAway l (away other x found elsewhere)⟩

theorem orderedDerived {edits : List (Origin × Edit)} (derived : ∀ x ∈ edits, x.1 ≠ .outside) :
    edits.Pairwise fun x y => x.1 = .outside → y.1 = .outside :=
  List.Pairwise.imp_of_mem (fun left _ _ outside => absurd outside (derived _ left))
    (List.pairwise_of_forall fun _ _ => trivial)

theorem orderedAway {log s} (t : Tracked log s) {more : Log} {tree : TreeId}
    (away : ∀ r ∈ more, subject r.2 ≠ tree) :
    (editsOn tree (log ++ more)).Pairwise fun x y => x.1 = .outside → y.1 = .outside := by
  rw [editsOnAppend,editsOnAway away,List.append_nil]
  exact t.ordered tree

theorem orderedKnown {log s doc e known} (t : Tracked log s) (found : s.find? doc = some e)
    (tracked : e.text = some known) {more : Log} (derived : ∀ x ∈ editsOn e.tree more, x.1 ≠ .outside) :
    (editsOn e.tree (log ++ more)).Pairwise fun x y => x.1 = .outside → y.1 = .outside := by
  obtain ⟨source,translated,raw,data,l⟩ := t.followed doc e found
  have untouched := lineageDerived l tracked
  rw [editsOnAppend,lineageEdits l,untouched]
  apply orderedDerived
  intro x member
  rcases List.mem_append.mp member with h | h
  · obtain ⟨edit,_,same⟩ := List.mem_map.mp (by simpa using h)
    rw [← same]
    exact Origin.noConfusion
  · exact derived x h

/- A parse makes a tree that nothing in the log mentions, after edits that bring the old tree, if there is one,
to the new text. -/
theorem trackedParsed {log s} (t : Tracked log s) (doc : DocId) (text : Text) (old : Option TreeId) (made : Tree)
    (source : made.source = text.octets) (sync : Log) (earlier : ∀ r ∈ sync, subject r.2 ≤ s.trees)
    (away : ∀ other x, s.find? other = some x → other ≠ doc → ∀ r ∈ sync, subject r.2 ≠ x.tree)
    (ordered : ∀ tree, (editsOn tree (log ++ sync)).Pairwise fun x y => x.1 = .outside → y.1 = .outside) :
    Tracked (log ++ (sync ++ [(.request,.parse text old (s.trees + 1))]))
      { s with
        entries := Table.put doc { tree := s.trees + 1, made, text := some text } s.entries
        trees := s.trees + 1 } := by
  have fresh : ∀ r ∈ log ++ sync, subject r.2 ≠ s.trees + 1 := by
    intro r member
    rcases List.mem_append.mp member with h | h
    · exact Nat.ne_of_lt (Nat.lt_succ_of_le (t.numbered r h))
    · exact Nat.ne_of_lt (Nat.lt_succ_of_le (earlier r h))
  have older : ∀ other x, s.find? other = some x → x.tree ≠ s.trees + 1 := fun other x found =>
    Nat.ne_of_lt (Nat.lt_succ_of_le (trackedTree t found))
  refine trackedPut t doc _ _ _ (Nat.le_succ _) ?_ (fun other x found _ => older other x found) ?_ ?_ ?_
  · intro r member
    rcases List.mem_append.mp member with h | h
    · exact Nat.le_succ_of_le (earlier r h)
    · rw [List.mem_singleton.mp h]
      exact Nat.le_refl _
  · intro other x found elsewhere r member
    rcases List.mem_append.mp member with h | h
    · exact away other x found elsewhere r h
    · rw [List.mem_singleton.mp h]
      exact (older other x found).symm
  · rw [← List.append_assoc]
    exact ⟨_,_,_,_,lineageParsed fresh text old made source⟩
  · intro tree
    have parse : editsOn tree [(.request,.parse text old (s.trees + 1))] = [] := rfl
    rw [← List.append_assoc,editsOnAppend,parse,List.append_nil]
    exact ordered tree

theorem trackedEdited {log s doc e} (t : Tracked log s) (found : s.find? doc = some e) (origin : Origin)
    (edits : List Edit) (next : Entry) (same : next.tree = e.tree)
    (followed : ∃ source translated raw data,
      Lineage (log ++ edits.map fun x => (origin,.edit e.tree x)) next source translated raw data)
    (ordered : (editsOn e.tree (log ++ edits.map fun x => (origin,.edit e.tree x))).Pairwise
      fun x y => x.1 = .outside → y.1 = .outside) :
    Tracked (log ++ edits.map fun x => (origin,.edit e.tree x))
      { s with entries := Table.put doc next s.entries } := by
  have own : ∀ r ∈ edits.map (fun x => (origin,ParserCall.edit e.tree x)), subject r.2 = e.tree := by
    intro r member
    obtain ⟨x,_,made⟩ := List.mem_map.mp member
    rw [← made]
    rfl
  refine trackedPut t doc next s.trees _ (Nat.le_refl _) ?_ ?_ ?_ followed ?_
  · intro r member
    exact own r member ▸ trackedTree t found
  · intro other x there elsewhere equal
    exact elsewhere (t.apart other doc x e there found (equal.trans same))
  · intro other x there elsewhere r member equal
    exact elsewhere (t.apart other doc x e there found (equal.symm.trans (own r member)))
  · intro tree
    by_cases h : tree = e.tree
    · exact h ▸ ordered
    · exact orderedAway t fun r member equal => h (equal.symm.trans (own r member))

theorem resyncOrdered {log s doc e} (t : Tracked log s) (found : s.find? doc = some e) (text : Text) (tree : TreeId) :
    (editsOn tree (log ++ (Store.resync e text).map fun r => (.request,.edit e.tree r.2))).Pairwise
      fun x y => x.1 = .outside → y.1 = .outside := by
  cases tracked : e.text with
  | none =>
    rw [Store.resyncUntracked tracked]
    simpa using t.ordered tree
  | some known =>
    by_cases h : tree = e.tree
    · subst h
      apply orderedKnown t found tracked
      intro x member
      obtain ⟨r,inside,made⟩ := List.mem_filterMap.mp member
      obtain ⟨change,_,same⟩ := List.mem_map.mp inside
      rw [← same] at made
      simp only [editOn?,if_pos,Option.some.injEq] at made
      rw [← made]
      exact Origin.noConfusion
    · apply orderedAway t
      intro r member equal
      obtain ⟨change,_,same⟩ := List.mem_map.mp member
      rw [← same] at equal
      exact h equal.symm

theorem moveTracked {log s next made} (t : Tracked log s) (move : Store.Move s next made) :
    Tracked (log ++ made) next := by
  cases move with
  | shrink trees kept =>
    rw [List.append_nil]
    refine ⟨?_,?_,?_,t.ordered⟩
    · intro r member
      exact trees ▸ t.numbered r member
    · intro a b x y left right same
      exact t.apart a b x y (kept a x left) (kept b y right) same
    · intro doc e found
      exact t.followed doc e (kept doc e found)
  | parse doc text absent =>
    have ordered := t.ordered
    exact trackedParsed t doc text none _ rfl [] (by simp) (by simp) (by simpa using ordered)
  | reparse doc text e found =>
    refine trackedParsed t doc text (some e.tree) _ rfl _ ?_ ?_ (resyncOrdered t found text)
    · intro r member
      obtain ⟨change,_,same⟩ := List.mem_map.mp member
      exact same ▸ trackedTree t found
    · intro other x there elsewhere r member equal
      obtain ⟨change,_,same⟩ := List.mem_map.mp member
      rw [← same] at equal
      exact elsewhere (t.apart other doc x e there found equal.symm)
  | notify doc e known changes found tracked =>
    obtain ⟨source,translated,raw,data,l⟩ := t.followed doc e found
    refine trackedEdited t found .notification _ _ rfl ⟨_,_,_,_,lineageNotified l tracked changes⟩ ?_
    apply orderedKnown t found tracked
    rw [editsOnOwn]
    intro x member
    obtain ⟨edit,_,same⟩ := List.mem_map.mp member
    rw [← same]
    exact Origin.noConfusion
  | edit doc e edit found =>
    obtain ⟨source,translated,raw,data,l⟩ := t.followed doc e found
    refine trackedEdited t found .outside [edit] _ rfl ⟨_,_,_,_,lineageTouched l edit⟩ ?_
    rw [editsOnAppend,editsOnOwn]
    apply List.pairwise_append.mpr
    refine ⟨t.ordered e.tree,by simp,?_⟩
    intro x _ y member _
    have same : y = (Origin.outside,edit) := by simpa using member
    rw [same]

theorem runTracked {log s} (t : Tracked log s) (ops : List Operation) :
    Tracked (log ++ (s.run ops).2) (s.run ops).1 := by
  induction ops generalizing log s with
  | nil => simpa [Store.run] using t
  | cons op rest ih =>
    have step := moveTracked t (s.performMove op)
    have later := ih step
    rw [List.append_assoc] at later
    exact later

theorem emptyTracked (loaded : Bool) : Tracked [] { loaded } := by
  refine ⟨by simp,?_,?_,fun _ => List.Pairwise.nil⟩
  · intro a b x y left
    contradiction
  · intro doc e found
    contradiction

theorem editHistoryCoherent (loaded : Bool) (ops : List Operation) :
    (∀ doc e, (Store.run { loaded } ops).1.find? doc = some e →
      ∃ source after translated raw data,
        Since (Store.run { loaded } ops).2 e.tree source after ∧
        editsOn e.tree after = translated.map (Origin.notification,·) ++ raw.map (Origin.outside,·) ∧
        e.made.source = source.octets ∧ e.edits = translated ++ raw ∧
        ((Store.run { loaded } ops).1.text? doc = none ↔ raw ≠ []) ∧
        Coherent source.octets translated data ∧
        ∀ text, (Store.run { loaded } ops).1.text? doc = some text → data = text.octets) ∧
    ∀ tree, (editsOn tree (Store.run { loaded } ops).2).Pairwise fun x y => x.1 = .outside → y.1 = .outside := by
  have t := runTracked (emptyTracked loaded) ops
  rw [List.nil_append] at t
  refine ⟨?_,t.ordered⟩
  intro doc e found
  obtain ⟨source,translated,raw,data,l⟩ := t.followed doc e found
  obtain ⟨after,since,same⟩ := l.edits
  have known : (Store.run { loaded } ops).1.text? doc = e.text := by
    simp only [Store.text?,found,Option.bind_some]
  rw [known]
  exact ⟨source,after,translated,raw,data,since,same,l.made.1,l.made.2,l.untracked,l.coherent,l.tracked⟩

def handEdited : List Operation :=
  [.update "a" ['é','\n','x'],
   .changes "a" ['ß','\n'] [⟨-3,1,['ß']⟩,⟨2,99,[]⟩],
   .update "b" ['y'],
   .edit "a" ⟨0,2,1,⟨0,0⟩,⟨0,2⟩,⟨0,1⟩⟩]

theorem handEditedHistory :
    ∃ e, (Store.run { loaded := true } handEdited).1.find? "a" = some e ∧
      ∃ source after translated raw data,
        Since (Store.run { loaded := true } handEdited).2 e.tree source after ∧
        editsOn e.tree after = translated.map (Origin.notification,·) ++ raw.map (Origin.outside,·) ∧
        e.made.source = source.octets ∧ e.edits = translated ++ raw ∧
        ((Store.run { loaded := true } handEdited).1.text? "a" = none ↔ raw ≠ []) ∧
        Coherent source.octets translated data ∧
        ∀ text, (Store.run { loaded := true } handEdited).1.text? "a" = some text → data = text.octets :=
  ⟨_,rfl,(editHistoryCoherent true handEdited).1 "a" _ rfl⟩

end Tinct.Document
