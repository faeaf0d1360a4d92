import Tinct.Proofs.TreeLifecycle
import Tinct.Proofs.Tables
import Mathlib.Data.Finset.Card
import Mathlib.Logic.Equiv.Basic

/-! Documents do not interfere. What an operation on a document answers and which calls it makes on the parser hangs on
the operations on that document and the clearings before it. Operations on other documents show in the numbers of the
trees only, since one parser numbers the trees of all. -/
namespace Tinct

def ParserCall.renamed (ρ : TreeId → TreeId) : ParserCall → ParserCall
  | .parse source old tree => .parse source (old.map ρ) (ρ tree)
  | .edit tree change => .edit (ρ tree) change

theorem callRenamedTwice (ρ σ : TreeId → TreeId) (c : ParserCall) :
    (c.renamed ρ).renamed σ = c.renamed fun tree => σ (ρ tree) := by
  cases c with
  | parse source old tree => simp only [ParserCall.renamed,Option.map_map,Function.comp_def]
  | edit tree edit => rfl

namespace Document

def Operation.concerns (doc : DocId) (op : Operation) : Bool := op.doc?.all fun other => decide (other = doc)

theorem unconcernedOwner {doc : DocId} {op : Operation} (unconcerned : op.concerns doc = false) :
    ∃ other, op.doc? = some other ∧ doc ≠ other := by
  rw [Operation.concerns] at unconcerned
  cases own : op.doc? with
  | none =>
    rw [own] at unconcerned
    contradiction
  | some other =>
    rw [own] at unconcerned
    exact ⟨other,rfl,fun same => of_decide_eq_false unconcerned same.symm⟩

inductive Answer where
  | tree (number : TreeId) (made : Tree)
  | known (was : Bool)
  | done
  deriving DecidableEq, Repr

def Answer.renamed (ρ : TreeId → TreeId) : Answer → Answer
  | .tree number made => .tree (ρ number) made
  | .known was => .known was
  | .done => .done

def Entry.renamed (ρ : TreeId → TreeId) (e : Entry) : Entry := { e with tree := ρ e.tree }

structure Record where
  op : Operation
  answer : Except Fault Answer
  log : Log

def Record.renamed (ρ : TreeId → TreeId) (r : Record) : Record :=
  { r with
    answer := r.answer.map (Answer.renamed ρ)
    log := r.log.map fun row => (row.1,row.2.renamed ρ) }

theorem answerRenamedTwice (ρ σ : TreeId → TreeId) (a : Answer) :
    (a.renamed ρ).renamed σ = a.renamed fun tree => σ (ρ tree) := by
  cases a <;> rfl

theorem recordRenamedTwice (ρ σ : TreeId → TreeId) (r : Record) :
    (r.renamed ρ).renamed σ = r.renamed fun tree => σ (ρ tree) := by
  obtain ⟨op,answer,log⟩ := r
  simp only [Record.renamed,List.map_map,Function.comp_def,callRenamedTwice,Record.mk.injEq,true_and,and_true]
  cases answer with
  | error f => rfl
  | ok a => exact congrArg Except.ok (answerRenamedTwice ρ σ a)

namespace Store

def answer (s : Store) : Operation → Except Fault Answer
  | .update doc text => (s.update doc text).map fun result => .tree result.2.1.tree result.2.1.made
  | .evict doc => .ok (.known (s.evict doc).2)
  | .changes _ _ _ | .edit _ _ | .clear => .ok .done

def record (s : Store) (op : Operation) : Record := ⟨op,s.answer op,(s.perform op).2⟩

def history (s : Store) : List Operation → List Record
  | [] => []
  | op::rest => s.record op::(s.perform op).1.history rest

def historyOf (s : Store) (doc : DocId) (ops : List Operation) : List Record :=
  (s.history ops).filter fun r => r.op.concerns doc

theorem historyOfCons (s : Store) (doc : DocId) (op : Operation) (rest : List Operation) :
    s.historyOf doc (op::rest) =
      if op.concerns doc then s.record op::(s.perform op).1.historyOf doc rest else (s.perform op).1.historyOf doc rest :=
  List.filter_cons

theorem updateTrees {s : Store} (loaded : s.loaded = true) (doc : DocId) (text : Text) :
    (s.perform (.update doc text)).1.trees = s.trees + 1 := by
  simp only [perform,updateLoaded loaded]

theorem performTrees {s t : Store} (loaded : t.loaded = s.loaded) (op : Operation) :
    (s.perform op).1.trees = s.trees ∨
    (s.perform op).1.trees = s.trees + 1 ∧ (t.perform op).1.trees = t.trees + 1 := by
  cases op with
  | update doc text =>
    cases can : s.loaded with
    | false => exact .inl (by simp [perform,update,can])
    | true => exact .inr ⟨updateTrees can doc text,updateTrees (loaded.trans can) doc text⟩
  | changes doc textAfter changes =>
    refine .inl ?_
    simp only [perform,applyChanges]
    split
    · rfl
    · split <;> rfl
  | edit doc edit =>
    refine .inl ?_
    simp only [perform,applyEdit]
    split <;> rfl
  | evict doc => exact .inl rfl
  | clear => exact .inl rfl

theorem reparseRenamed (σ : TreeId → TreeId) (doc : DocId) (tree : TreeId) (text : Text) (e? : Option Entry) :
    (reparse doc (σ tree) text (e?.map (Entry.renamed σ))).1 = (reparse doc tree text e?).1 ∧
    (reparse doc (σ tree) text (e?.map (Entry.renamed σ))).2.calls =
      (reparse doc tree text e?).2.calls.map (ParserCall.renamed σ) := by
  cases e? with
  | none => exact ⟨rfl,rfl⟩
  | some e =>
    refine ⟨rfl,?_⟩
    simp only [Option.map_some,reparse,List.map_append,List.map_map,List.map_cons,List.map_nil]
    rfl

structure Same (doc : DocId) (σ : TreeId → TreeId) (s t : Store) : Prop where
  loaded : t.loaded = s.loaded
  entry : t.find? doc = (s.find? doc).map (Entry.renamed σ)

section
variable {doc : DocId} {σ : TreeId → TreeId} {s t : Store}

theorem updateSame (same : Same doc σ s t) (text : Text) (next : s.loaded = true → σ (s.trees + 1) = t.trees + 1) :
    t.record (.update doc text) = (s.record (.update doc text)).renamed σ ∧
    (t.perform (.update doc text)).1.find? doc = ((s.perform (.update doc text)).1.find? doc).map (Entry.renamed σ) := by
  cases loaded : s.loaded with
  | false =>
    have other : t.loaded = false := same.loaded.trans loaded
    simp only [record,answer,perform,update,loaded,other,Bool.not_false,if_true]
    exact ⟨rfl,same.entry⟩
  | true =>
    have other : t.loaded = true := same.loaded.trans loaded
    obtain ⟨made,calls⟩ := reparseRenamed σ doc (s.trees + 1) text (s.find? doc)
    rw [← same.entry,next loaded] at made calls
    simp only [record,answer,perform,updateLoaded loaded,updateLoaded other,Except.map,parsing,made,calls,entryPut,
      if_true,Record.renamed,Answer.renamed,Option.map_some,Entry.renamed,next loaded,List.map_map,Function.comp_def,
      and_self]

theorem changesSame (same : Same doc σ s t) (textAfter : Text) (changes : List Change) :
    t.record (.changes doc textAfter changes) = (s.record (.changes doc textAfter changes)).renamed σ ∧
    (t.perform (.changes doc textAfter changes)).1.find? doc =
      ((s.perform (.changes doc textAfter changes)).1.find? doc).map (Entry.renamed σ) := by
  have entry := same.entry
  cases found : s.find? doc with
  | none =>
    rw [found] at entry
    simp only [record,answer,perform,applyChanges,found,entry,Option.map_none]
    exact ⟨rfl,trivial⟩
  | some e =>
    rw [found,Option.map_some] at entry
    cases tracked : e.text with
    | none =>
      have bare : (e.renamed σ).text = none := tracked
      simp only [record,answer,perform,applyChanges,found,entry,tracked,bare,entryErase,if_true]
      exact ⟨rfl,rfl⟩
    | some known =>
      have told : (e.renamed σ).text = some known := tracked
      have left := entryPut s doc doc
        { e with edits := e.edits ++ (editsFor known changes).1, text := some (editsFor known changes).2 } s.trees
      have right := entryPut t doc doc
        { e.renamed σ with
          edits := e.edits ++ (editsFor known changes).1, text := some (editsFor known changes).2 } t.trees
      rw [if_pos rfl] at left right
      simp only [record,answer,perform,applyChanges,found,entry,tracked,told,Record.renamed,List.map_map]
      exact ⟨rfl,right.trans (congrArg (Option.map (Entry.renamed σ)) left).symm⟩

theorem editSame (same : Same doc σ s t) (edit : Edit) :
    t.record (.edit doc edit) = (s.record (.edit doc edit)).renamed σ ∧
    (t.perform (.edit doc edit)).1.find? doc = ((s.perform (.edit doc edit)).1.find? doc).map (Entry.renamed σ) := by
  have entry := same.entry
  cases found : s.find? doc with
  | none =>
    rw [found] at entry
    simp only [record,answer,perform,applyEdit,found,entry,Option.map_none]
    exact ⟨rfl,trivial⟩
  | some e =>
    rw [found,Option.map_some] at entry
    have left := entryPut s doc doc { e with edits := e.edits ++ [edit], text := none } s.trees
    have right := entryPut t doc doc { e.renamed σ with edits := e.edits ++ [edit], text := none } t.trees
    rw [if_pos rfl] at left right
    simp only [record,answer,perform,applyEdit,found,entry]
    exact ⟨rfl,right.trans (congrArg (Option.map (Entry.renamed σ)) left).symm⟩

theorem evictSame (same : Same doc σ s t) :
    t.record (.evict doc) = (s.record (.evict doc)).renamed σ ∧
    (t.perform (.evict doc)).1.find? doc = ((s.perform (.evict doc)).1.find? doc).map (Entry.renamed σ) := by
  have kept : t.contains doc = s.contains doc := by rw [contains,contains,same.entry,Option.isSome_map]
  simp only [record,answer,perform,evict,kept,entryErase,if_true]
  exact ⟨rfl,rfl⟩

theorem performSame (same : Same doc σ s t) {op : Operation} (concerned : op.concerns doc = true)
    (next : s.trees < (s.perform op).1.trees → σ (s.trees + 1) = t.trees + 1) :
    t.record op = (s.record op).renamed σ ∧ Same doc σ (s.perform op).1 (t.perform op).1 := by
  have both : t.record op = (s.record op).renamed σ ∧
      (t.perform op).1.find? doc = ((s.perform op).1.find? doc).map (Entry.renamed σ) := by
    cases op with
    | update other text =>
      cases of_decide_eq_true concerned
      refine updateSame same text fun loaded => next ?_
      rw [updateTrees loaded]
      exact Nat.lt_succ_self _
    | changes other textAfter changes =>
      cases of_decide_eq_true concerned
      exact changesSame same textAfter changes
    | edit other edit =>
      cases of_decide_eq_true concerned
      exact editSame same edit
    | evict other =>
      cases of_decide_eq_true concerned
      exact evictSame same
    | clear => exact ⟨rfl,rfl⟩
  exact ⟨both.1,by rw [performLoaded,performLoaded,same.loaded],both.2⟩

theorem sameAgreed (same : Same doc σ s t) {τ : TreeId → TreeId} (own : ∀ e, s.find? doc = some e → τ e.tree = σ e.tree) :
    Same doc τ s t := by
  refine ⟨same.loaded,?_⟩
  rw [same.entry]
  cases found : s.find? doc with
  | none => rfl
  | some e => simp only [Option.map_some,Entry.renamed,own e found]

end

-- A store that serves one document, and one that serves it among others. Every tree of the first has its place among
-- the trees of the second, and the next tree of each is new.
structure Beside (doc : DocId) (ρ : Equiv.Perm TreeId) (alone among : Store) : Prop where
  same : Same doc ρ alone among
  own : ∀ other e, alone.find? other = some e → e.tree ≤ alone.trees
  numbered : ∀ tree ≤ alone.trees, ρ tree ≤ among.trees

section
variable {doc : DocId} {ρ : Equiv.Perm TreeId} {alone among : Store}

theorem besideElsewhere (beside : Beside doc ρ alone among) {op : Operation} (unconcerned : op.concerns doc = false) :
    Beside doc ρ alone (among.perform op).1 := by
  have grows := moveGrows (performMove among op)
  obtain ⟨other,own,different⟩ := unconcernedOwner unconcerned
  refine ⟨⟨?_,?_⟩,beside.own,fun tree old => Nat.le_trans (beside.numbered tree old) grows⟩
  · rw [performLoaded,beside.same.loaded]
  · rw [performElsewhere among own different,beside.same.entry]

def extended (ρ : Equiv.Perm TreeId) (alone among : Store) : Equiv.Perm TreeId :=
  ρ.trans (Equiv.swap (ρ (alone.trees + 1)) (among.trees + 1))

theorem extendedNext (ρ : Equiv.Perm TreeId) (alone among : Store) :
    extended ρ alone among (alone.trees + 1) = among.trees + 1 := Equiv.swap_apply_left _ _

theorem extendedOld (beside : Beside doc ρ alone among) {tree : TreeId} (old : tree ≤ alone.trees) :
    extended ρ alone among tree = ρ tree := by
  refine Equiv.swap_apply_of_ne_of_ne (fun equal => ?_) (fun equal => ?_)
  · exact Nat.not_succ_le_self _ (ρ.injective equal ▸ old)
  · exact Nat.not_succ_le_self _ (equal ▸ beside.numbered tree old)

end

theorem moveOwn {s next : Store} {made : Log} (move : Move s next made)
    (own : ∀ doc e, s.find? doc = some e → e.tree ≤ s.trees) :
    ∀ doc e, next.find? doc = some e → e.tree ≤ next.trees := by
  have put : ∀ {other : DocId} {x : Entry} {trees : Nat}, x.tree ≤ trees → s.trees ≤ trees → ∀ doc e,
      find? { s with entries := Table.put other x s.entries, trees } doc = some e → e.tree ≤ trees := by
    intro other x trees fresh grown doc e found
    rw [entryPut] at found
    split at found
    · cases found
      exact fresh
    · exact Nat.le_trans (own doc e found) grown
  cases move with
  | shrink trees kept =>
    intro doc e found
    exact trees ▸ own doc e (kept doc e found)
  | parse doc text absent => exact put (Nat.le_refl _) (Nat.le_succ _)
  | reparse doc text e found => exact put (Nat.le_refl _) (Nat.le_succ _)
  | notify doc e known changes found tracked =>
    refine put ?_ (Nat.le_refl _)
    exact own doc e found
  | edit doc e edit found =>
    refine put ?_ (Nat.le_refl _)
    exact own doc e found

theorem besidePerform {doc : DocId} {ρ : Equiv.Perm TreeId} {alone among : Store} (beside : Beside doc ρ alone among)
    {op : Operation} (concerned : op.concerns doc = true) :
    Beside doc (extended ρ alone among) (alone.perform op).1 (among.perform op).1 := by
  have same : Same doc (extended ρ alone among) alone among :=
    sameAgreed beside.same fun e found => extendedOld beside (beside.own doc e found)
  refine ⟨(performSame same concerned fun _ => extendedNext ρ alone among).2,moveOwn (performMove alone op) beside.own,?_⟩
  intro tree old
  by_cases known : tree ≤ alone.trees
  · rw [extendedOld beside known]
    exact Nat.le_trans (beside.numbered tree known) (moveGrows (performMove among op))
  · rcases performTrees beside.same.loaded op with still | ⟨left,right⟩
    · exact absurd (still ▸ old) known
    · have last : tree = alone.trees + 1 := Nat.le_antisymm (left ▸ old) (Nat.lt_of_not_le known)
      rw [last,extendedNext,right]

theorem besideRun {doc : DocId} {ρ : Equiv.Perm TreeId} {alone among : Store} (beside : Beside doc ρ alone among)
    (ops : List Operation) :
    ∃ σ : Equiv.Perm TreeId, (∀ tree ≤ alone.trees, σ tree = ρ tree) ∧
      among.historyOf doc ops = (alone.history (ops.filter (Operation.concerns doc))).map (Record.renamed σ) ∧
      Same doc σ (alone.run (ops.filter (Operation.concerns doc))).1 (among.run ops).1 := by
  induction ops generalizing ρ alone among with
  | nil => exact ⟨ρ,fun _ _ => rfl,rfl,beside.same⟩
  | cons op rest ih =>
    cases concerned : op.concerns doc with
    | false =>
      obtain ⟨σ,kept,shown,same⟩ := ih (besideElsewhere beside concerned)
      rw [List.filter_cons_of_neg (by simp [concerned]),historyOfCons,if_neg (by simp [concerned])]
      exact ⟨σ,kept,shown,same⟩
    | true =>
      obtain ⟨σ,kept,shown,same⟩ := ih (besidePerform beside concerned)
      have old : ∀ tree ≤ alone.trees, σ tree = ρ tree := by
        intro tree known
        rw [kept tree (Nat.le_trans known (moveGrows (performMove alone op))),extendedOld beside known]
      -- the tree that the operation makes, if it makes one, is among those whose numbers are kept
      have fresh : alone.trees < (alone.perform op).1.trees → σ (alone.trees + 1) = among.trees + 1 := by
        intro grown
        rw [kept _ grown,extendedNext]
      have head := (performSame (sameAgreed beside.same fun e found => old _ (beside.own doc e found)) concerned fresh).1
      rw [List.filter_cons_of_pos concerned,historyOfCons,if_pos concerned]
      refine ⟨σ,old,?_,same⟩
      rw [history,List.map_cons,← head,shown]

theorem performKeys {s : Store} (once : (Table.keys s.entries).Nodup) (op : Operation) :
    (Table.keys (s.perform op).1.entries).Nodup := by
  have erased : ∀ doc, (Table.keys (Table.erase doc s.entries)).Nodup := fun doc =>
    once.sublist (List.filter_sublist.map Prod.fst)
  cases op with
  | update doc text =>
    cases loaded : s.loaded with
    | false => simpa [perform,update,loaded] using once
    | true =>
      simp only [perform,updateLoaded loaded]
      exact Table.keysPutNodup once _ _
  | changes doc textAfter changes =>
    simp only [perform,applyChanges]
    split
    · exact once
    · split
      · exact erased doc
      · exact Table.keysPutNodup once _ _
  | edit doc edit =>
    simp only [perform,applyEdit]
    split
    · exact once
    · exact Table.keysPutNodup once _ _
  | evict doc => exact erased doc
  | clear => exact List.nodup_nil

theorem runKeys {s : Store} (once : (Table.keys s.entries).Nodup) (ops : List Operation) :
    (Table.keys (s.run ops).1.entries).Nodup := by
  induction ops generalizing s with
  | nil => exact once
  | cons op rest ih => exact ih (performKeys once op)

theorem sizeCounts {s : Store} (once : (Table.keys s.entries).Nodup) :
    ∃ docs : Finset DocId, (∀ doc, doc ∈ docs ↔ s.contains doc = true) ∧ s.size = docs.card := by
  refine ⟨⟨Table.keys s.entries,once⟩,fun doc => Table.memKeys doc s.entries,?_⟩
  simp only [size,Finset.card_mk,Multiset.coe_card,Table.keys,List.length_map]

end Store

theorem besideEmpty (loaded : Bool) (doc : DocId) : Store.Beside doc (Equiv.refl TreeId) { loaded } { loaded } :=
  ⟨⟨rfl,rfl⟩,fun _ _ found => by contradiction,fun _ old => old⟩

theorem documentsApart (loaded : Bool) (doc : DocId) (left right : List Operation)
    (same : left.filter (Operation.concerns doc) = right.filter (Operation.concerns doc)) :
    (Store.run { loaded } left).1.contains doc = (Store.run { loaded } right).1.contains doc ∧
    (Store.run { loaded } left).1.text? doc = (Store.run { loaded } right).1.text? doc ∧
    (∃ ρ : Equiv.Perm TreeId,
      Store.historyOf { loaded } doc right = (Store.historyOf { loaded } doc left).map (Record.renamed ρ)) ∧
    ∃ docs : Finset DocId, (∀ other, other ∈ docs ↔ (Store.run { loaded } left).1.contains other = true) ∧
      (Store.run { loaded } left).1.size = docs.card := by
  -- both runs are held against the run of what they have in common
  obtain ⟨σ,_,leftShown,leftSame⟩ := Store.besideRun (besideEmpty loaded doc) left
  obtain ⟨τ,_,rightShown,rightSame⟩ := Store.besideRun (besideEmpty loaded doc) right
  rw [← same] at rightShown rightSame
  have once : (Table.keys (Store.run { loaded } left).1.entries).Nodup := Store.runKeys (s := { loaded }) .nil left
  refine ⟨?_,?_,⟨σ.symm.trans τ,?_⟩,Store.sizeCounts once⟩
  · rw [Store.contains,Store.contains,leftSame.entry,rightSame.entry,Option.isSome_map,Option.isSome_map]
  · rw [Store.text?,Store.text?,leftSame.entry,rightSame.entry,Option.bind_map,Option.bind_map]
    rfl
  · rw [leftShown,rightShown,List.map_map]
    refine List.map_congr_left fun r _ => ?_
    rw [Function.comp_apply,recordRenamedTwice]
    congr 1
    funext tree
    simp

def quietRun : List Operation :=
  [.update "a" ['x'],.changes "a" ['x','é'] [⟨1,0,['é']⟩],.update "a" ['x','\n'],.edit "a" ⟨0,1,0,⟨0,0⟩,⟨0,1⟩,⟨0,0⟩⟩,
   .update "a" ['y']]

def busyRun : List Operation :=
  [.update "b" ['b'],.update "a" ['x'],.evict "b",.changes "a" ['x','é'] [⟨1,0,['é']⟩],.update "c" [],
   .update "a" ['x','\n'],.edit "a" ⟨0,1,0,⟨0,0⟩,⟨0,1⟩,⟨0,0⟩⟩,.changes "c" ['c'] [],.update "a" ['y']]

theorem busyRunApart :
    quietRun.filter (Operation.concerns "a") = busyRun.filter (Operation.concerns "a") ∧
    (Store.run { loaded := true } quietRun).1.text? "a" = (Store.run { loaded := true } busyRun).1.text? "a" ∧
    ∃ ρ : Equiv.Perm TreeId,
      Store.historyOf { loaded := true } "a" busyRun =
        (Store.historyOf { loaded := true } "a" quietRun).map (Record.renamed ρ) := by
  have same : quietRun.filter (Operation.concerns "a") = busyRun.filter (Operation.concerns "a") := by decide
  obtain ⟨_,text,shown,_⟩ := documentsApart true "a" quietRun busyRun same
  exact ⟨same,text,shown⟩

end Document
end Tinct
