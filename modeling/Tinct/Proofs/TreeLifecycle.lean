import Tinct.Proofs.EditHistory

/-! The life of a tree, read off the calls on the parser. A parse makes the tree, one document keeps it and has it
edited, and the next parse of that document takes it over. A tree that no document keeps any more, because it
was taken over, evicted or cleared away, is out of reach of every later call. -/
namespace Tinct
namespace ParserCall

def makes? : ParserCall → Option TreeId
  | .parse _ _ tree => some tree
  | .edit _ _ => none

def takes? : ParserCall → Option TreeId
  | .parse _ old _ => old
  | .edit _ _ => none

def touches? : ParserCall → Option TreeId
  | .parse _ old _ => old
  | .edit tree _ => some tree

end ParserCall

namespace Document

def Store.Keeps (s : Store) (doc : DocId) (tree : TreeId) : Prop := ∃ e, s.find? doc = some e ∧ e.tree = tree

def Store.Held (s : Store) (tree : TreeId) : Prop := ∃ doc, s.Keeps doc tree

namespace Store

theorem updateTouches (s : Store) (doc : DocId) (text : Text) {r : Origin × ParserCall}
    (member : r ∈ (s.perform (.update doc text)).2) {tree : TreeId} (touched : r.2.touches? = some tree) :
    s.Keeps doc tree := by
  cases loaded : s.loaded with
  | false => simp [perform,update,loaded] at member
  | true =>
    cases found : s.find? doc with
    | none =>
      have single : r = (.request,.parse text none (s.trees + 1)) := by
        simpa [perform,update,reparse,loaded,found] using member
      rw [single] at touched
      contradiction
    | some e =>
      simp only [perform,update,reparse,loaded,found,Bool.not_true,Bool.false_eq_true,if_false,List.map_append,
        List.map_map,List.map_cons,List.map_nil,List.mem_append,List.mem_map,List.mem_singleton] at member
      rcases member with ⟨sync,_,rfl⟩ | rfl
      · exact ⟨e,found,Option.some.inj touched⟩
      · exact ⟨e,found,Option.some.inj touched⟩

theorem changesTouches (s : Store) (doc : DocId) (textAfter : Text) (changes : List Change)
    {r : Origin × ParserCall} (member : r ∈ (s.perform (.changes doc textAfter changes)).2) {tree : TreeId}
    (touched : r.2.touches? = some tree) : s.Keeps doc tree := by
  cases found : s.find? doc with
  | none => simp [perform,applyChanges,found] at member
  | some e =>
    cases tracked : e.text with
    | none => simp [perform,applyChanges,found,tracked] at member
    | some known =>
      simp only [perform,applyChanges,found,tracked,List.map_map,List.mem_map] at member
      obtain ⟨edit,_,rfl⟩ := member
      exact ⟨e,found,Option.some.inj touched⟩

theorem editTouches (s : Store) (doc : DocId) (edit : Edit) {r : Origin × ParserCall}
    (member : r ∈ (s.perform (.edit doc edit)).2) {tree : TreeId} (touched : r.2.touches? = some tree) :
    s.Keeps doc tree := by
  cases found : s.find? doc with
  | none => simp [perform,applyEdit,found] at member
  | some e =>
    have single : r = (.outside,.edit e.tree edit) := by simpa [perform,applyEdit,found] using member
    rw [single] at touched
    exact ⟨e,found,Option.some.inj touched⟩

theorem performTouches (s : Store) (op : Operation) {r : Origin × ParserCall} (member : r ∈ (s.perform op).2)
    {tree : TreeId} (touched : r.2.touches? = some tree) : ∃ doc, op.doc? = some doc ∧ s.Keeps doc tree := by
  cases op with
  | update doc text => exact ⟨doc,rfl,updateTouches s doc text member touched⟩
  | changes doc textAfter changes => exact ⟨doc,rfl,changesTouches s doc textAfter changes member touched⟩
  | edit doc edit => exact ⟨doc,rfl,editTouches s doc edit member touched⟩
  | evict doc => contradiction
  | clear => contradiction

theorem heldPut {s : Store} {doc : DocId} {e : Entry} {trees : Nat} {tree : TreeId}
    (held : Held { s with entries := Table.put doc e s.entries, trees } tree) :
    e.tree = tree ∨ ∃ other, other ≠ doc ∧ s.Keeps other tree := by
  obtain ⟨other,x,found,same⟩ := held
  rw [entryPut] at found
  split at found
  · cases Option.some.inj found
    exact .inl same
  · rename_i different
    exact .inr ⟨other,fun equal => different equal.symm,x,found,same⟩

theorem moveHeld {s next : Store} {made : Log} (move : Move s next made) {tree : TreeId} (held : next.Held tree) :
    s.Held tree ∨ s.trees < tree := by
  cases move with
  | shrink trees kept =>
    obtain ⟨doc,e,found,same⟩ := held
    exact .inl ⟨doc,e,kept doc e found,same⟩
  | parse doc text absent =>
    rcases heldPut held with rfl | ⟨other,_,keeps⟩
    · exact .inr (Nat.lt_succ_self _)
    · exact .inl ⟨other,keeps⟩
  | reparse doc text e found =>
    rcases heldPut held with rfl | ⟨other,_,keeps⟩
    · exact .inr (Nat.lt_succ_self _)
    · exact .inl ⟨other,keeps⟩
  | notify doc e known changes found tracked =>
    rcases heldPut held with same | ⟨other,_,keeps⟩
    · exact .inl ⟨doc,e,found,same⟩
    · exact .inl ⟨other,keeps⟩
  | edit doc e edit found =>
    rcases heldPut held with same | ⟨other,_,keeps⟩
    · exact .inl ⟨doc,e,found,same⟩
    · exact .inl ⟨other,keeps⟩

theorem moveGrows {s next : Store} {made : Log} (move : Move s next made) : s.trees ≤ next.trees := by
  cases move with
  | shrink trees kept => exact Nat.le_of_eq trees.symm
  | parse doc text absent => exact Nat.le_succ _
  | reparse doc text e found => exact Nat.le_succ _
  | notify doc e known changes found tracked => exact Nat.le_refl _
  | edit doc e edit found => exact Nat.le_refl _

theorem moveMakes {s next : Store} {made : Log} (move : Move s next made) {r : Origin × ParserCall} (member : r ∈ made)
    {tree : TreeId} (makes : r.2.makes? = some tree) : s.trees < tree := by
  cases move with
  | shrink trees kept => contradiction
  | parse doc text absent =>
    cases List.mem_singleton.mp member
    exact Nat.lt_of_lt_of_eq (Nat.lt_succ_self _) (Option.some.inj makes)
  | reparse doc text e found =>
    rcases List.mem_append.mp member with sync | parsed
    · obtain ⟨edit,_,rfl⟩ := List.mem_map.mp sync
      contradiction
    · cases List.mem_singleton.mp parsed
      exact Nat.lt_of_lt_of_eq (Nat.lt_succ_self _) (Option.some.inj makes)
  | notify doc e known changes found tracked =>
    obtain ⟨edit,_,rfl⟩ := List.mem_map.mp member
    contradiction
  | edit doc e edit found =>
    cases List.mem_singleton.mp member
    contradiction

theorem lastCall {β : Type} (rows : List β) {edit : β → Origin × ParserCall}
    (plain : ∀ x, (edit x).2.makes? = none ∧ (edit x).2.takes? = none)
    (last : Option (Origin × ParserCall)) :
    (rows.map edit ++ last.toList).Pairwise fun a _ => a.2.makes? = none ∧ a.2.takes? = none := by
  refine List.pairwise_append.mpr ⟨?_,?_,?_⟩
  · exact List.pairwise_map.mpr (List.pairwise_of_forall fun x _ => plain x)
  · cases last <;> simp
  · intro a inside b _
    obtain ⟨x,_,rfl⟩ := List.mem_map.mp inside
    exact plain x

theorem moveParsesLast {s next : Store} {made : Log} (move : Move s next made) :
    made.Pairwise fun a _ => a.2.makes? = none ∧ a.2.takes? = none := by
  cases move with
  | shrink trees kept => exact .nil
  | parse doc text absent => simp
  | reparse doc text e found => exact lastCall _ (fun _ => ⟨rfl,rfl⟩) (some _)
  | notify doc e known changes found tracked =>
    rw [← List.append_nil (List.map _ _)]
    exact lastCall _ (fun _ => ⟨rfl,rfl⟩) none
  | edit doc e edit found => simp

theorem moveTakes {log : Log} {s next : Store} {made : Log} (t : Tracked log s) (move : Move s next made)
    {r : Origin × ParserCall} (member : r ∈ made) {tree : TreeId} (taken : r.2.takes? = some tree) :
    ¬ next.Held tree := by
  cases move with
  | shrink trees kept => contradiction
  | parse doc text absent =>
    cases List.mem_singleton.mp member
    contradiction
  | reparse doc text e found =>
    rcases List.mem_append.mp member with sync | parsed
    · obtain ⟨edit,_,rfl⟩ := List.mem_map.mp sync
      contradiction
    · cases List.mem_singleton.mp parsed
      cases Option.some.inj taken
      intro held
      rcases heldPut held with fresh | ⟨other,elsewhere,x,there,same⟩
      · exact absurd (trackedTree t found) (Nat.not_le.mpr (Nat.lt_of_lt_of_eq (Nat.lt_succ_self _) fresh))
      · exact elsewhere (t.apart other doc x e there found same)
  | notify doc e known changes found tracked =>
    obtain ⟨edit,_,rfl⟩ := List.mem_map.mp member
    contradiction
  | edit doc e edit found =>
    cases List.mem_singleton.mp member
    contradiction

theorem runRetired {s : Store} {tree : TreeId} (old : tree ≤ s.trees) (free : ¬ s.Held tree) (ops : List Operation)
    {r : Origin × ParserCall} (member : r ∈ (s.run ops).2) : r.2.touches? ≠ some tree := by
  induction ops generalizing s with
  | nil => contradiction
  | cons op rest ih =>
    have move := s.performMove op
    rcases List.mem_append.mp member with now | later
    · intro touched
      obtain ⟨doc,_,keeps⟩ := s.performTouches op now touched
      exact free ⟨doc,keeps⟩
    · refine ih (Nat.le_trans old (moveGrows move)) ?_ later
      intro held
      rcases moveHeld move held with before | fresh
      · exact free before
      · exact absurd old (Nat.not_le.mpr fresh)

end Store

structure Spent (log : Log) (s : Store) : Prop where
  known : ∀ r ∈ log, ∀ tree, r.2.touches? = some tree → tree ≤ s.trees
  released : ∀ r ∈ log, ∀ tree, r.2.takes? = some tree → ¬ s.Held tree
  once : log.Pairwise fun a b => ∀ tree, a.2.takes? = some tree → b.2.touches? ≠ some tree
  fresh : log.Pairwise fun a b => ∀ tree, b.2.makes? = some tree → a.2.makes? ≠ some tree ∧ a.2.touches? ≠ some tree

theorem takesTouches {call : ParserCall} {tree : TreeId} (taken : call.takes? = some tree) :
    call.touches? = some tree := by
  cases call with
  | parse source old made => exact taken
  | edit target edit => contradiction

theorem makesSubject {call : ParserCall} {tree : TreeId} (makes : call.makes? = some tree) : subject call = tree := by
  cases call with
  | parse source old made => exact Option.some.inj makes
  | edit target edit => contradiction

theorem performSpent {log : Log} {s : Store} (t : Tracked log s) (u : Spent log s) (op : Operation) :
    Spent (log ++ (s.perform op).2) (s.perform op).1 := by
  have move := s.performMove op
  have grows := Store.moveGrows move
  have known : ∀ r ∈ (s.perform op).2, ∀ tree, r.2.touches? = some tree → s.Held tree ∧ tree ≤ s.trees := by
    intro r member tree touched
    obtain ⟨doc,_,e,found,same⟩ := s.performTouches op member touched
    exact ⟨⟨doc,e,found,same⟩,same ▸ trackedTree t found⟩
  refine ⟨?_,?_,List.pairwise_append.mpr ⟨u.once,?_,?_⟩,List.pairwise_append.mpr ⟨u.fresh,?_,?_⟩⟩
  · intro r member tree touched
    rcases List.mem_append.mp member with before | now
    · exact Nat.le_trans (u.known r before tree touched) grows
    · exact Nat.le_trans (known r now tree touched).2 grows
  · intro r member tree taken
    rcases List.mem_append.mp member with before | now
    · intro held
      rcases Store.moveHeld move held with kept | fresh
      · exact u.released r before tree taken kept
      · exact absurd (u.known r before tree (takesTouches taken)) (Nat.not_le.mpr fresh)
    · exact Store.moveTakes t move now taken
  · apply (Store.moveParsesLast move).imp
    intro a b plain tree taken
    rw [plain.2] at taken
    contradiction
  · intro a before b now tree taken touched
    exact u.released a before tree taken (known b now tree touched).1
  · apply (Store.moveParsesLast move).imp_of_mem
    intro a b left right plain tree makes
    refine ⟨by simp [plain.1],?_⟩
    intro touched
    exact absurd (known a left tree touched).2 (Nat.not_le.mpr (Store.moveMakes move right makes))
  · intro a before b now tree makes
    have later := Nat.not_le.mpr (Store.moveMakes move now makes)
    refine ⟨?_,?_⟩
    · intro made
      exact later (makesSubject made ▸ t.numbered a before)
    · intro touched
      exact later (u.known a before tree touched)

theorem runSpent {log : Log} {s : Store} (t : Tracked log s) (u : Spent log s) (ops : List Operation) :
    Spent (log ++ (s.run ops).2) (s.run ops).1 := by
  induction ops generalizing log s with
  | nil => simpa [Store.run] using u
  | cons op rest ih =>
    have later := ih (moveTracked t (s.performMove op)) (performSpent t u op)
    rw [List.append_assoc] at later
    exact later

theorem evictedFree {log : Log} {s : Store} (t : Tracked log s) {doc : DocId} {tree : TreeId} (keeps : s.Keeps doc tree)
    {op : Operation} (drops : op = .evict doc ∨ op = .clear) : ¬ (s.perform op).1.Held tree := by
  obtain ⟨e,found,rfl⟩ := keeps
  rintro ⟨other,x,there,same⟩
  rcases drops with rfl | rfl
  · rw [show (s.perform (.evict doc)).1 = { s with entries := Table.erase doc s.entries } from rfl,
      Store.entryErase] at there
    split at there
    · contradiction
    · rename_i different
      exact different (t.apart other doc x e there found same).symm
  · contradiction

/- Everything that a run can say about trees: the calls so far in order, the store after them, and what any further
operations would do. -/
structure Lifecycle (log : Log) (s : Store) : Prop where
  single : ∀ a b tree, s.Keeps a tree → s.Keeps b tree → a = b
  own : ∀ op, ∀ r ∈ (s.perform op).2, ∀ tree, r.2.touches? = some tree →
    ∃ doc, op.doc? = some doc ∧ s.Keeps doc tree
  once : log.Pairwise fun a b => ∀ tree, a.2.takes? = some tree → b.2.touches? ≠ some tree
  fresh : log.Pairwise fun a b => ∀ tree, b.2.makes? = some tree → a.2.makes? ≠ some tree ∧ a.2.touches? ≠ some tree
  dropped : ∀ doc tree op, s.Keeps doc tree → op = .evict doc ∨ op = .clear →
    ∀ more, ∀ r ∈ ((s.perform op).1.run more).2, r.2.touches? ≠ some tree
  retired : ∀ tree, (∃ r ∈ log, r.2.makes? = some tree) → ¬ s.Held tree →
    ∀ more, ∀ r ∈ (s.run more).2, r.2.touches? ≠ some tree

theorem treeLifecycle (loaded : Bool) (ops : List Operation) :
    Lifecycle (Store.run { loaded } ops).2 (Store.run { loaded } ops).1 := by
  have start : Spent [] { loaded } := ⟨by simp,by simp,.nil,.nil⟩
  have t := runTracked (emptyTracked loaded) ops
  have u := runSpent (emptyTracked loaded) start ops
  rw [List.nil_append] at t u
  refine ⟨?_,?_,u.once,u.fresh,?_,?_⟩
  · rintro a b tree ⟨x,left,rfl⟩ ⟨y,right,same⟩
    exact t.apart a b x y left right same.symm
  · intro op r member tree touched
    exact Store.performTouches _ op member touched
  · intro doc tree op keeps drops more r member
    have free := evictedFree t keeps drops
    obtain ⟨e,found,same⟩ := keeps
    have old := Nat.le_trans (same ▸ trackedTree t found) (Store.moveGrows (Store.performMove _ op))
    exact Store.runRetired old free more member
  · rintro tree ⟨made,inside,makes⟩ free more r member
    have old : tree ≤ (Store.run { loaded } ops).1.trees := makesSubject makes ▸ t.numbered made inside
    exact Store.runRetired old free more member

end Document
end Tinct
