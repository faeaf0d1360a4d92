import Tinct.Proofs.SeparateDocuments
import Tinct.Proofs.SmallestChange

/-! A notification that does not lead to the text it announces. Its changes are taken as they were reported, one edit for
each on the text that the ones before left, and the text that is kept is theirs, not the announced one. If the two differ
there is a warning; then, and only then, the next request for the announced text makes one more edit, the smallest
from the one to the other, on the tree that it reuses. -/
namespace Tinct
namespace Document

def changed (text : Text) (changes : List Change) : Text := changes.foldl (fun t c => c.apply t) text

def Effects.mismatches (effects : Effects) : Nat :=
  effects.notices.countP fun n => decide (n.event = "change_text_mismatch")

namespace Store

theorem editsForText (text : Text) (changes : List Change) : (editsFor text changes).2 = changed text changes := by
  induction changes generalizing text with
  | nil => rfl
  | cons c rest ih => exact ih (c.apply text)

theorem editsForLength (text : Text) (changes : List Change) :
    (editsFor text changes).1.length = changes.length := by
  induction changes generalizing text with
  | nil => rfl
  | cons c rest ih => exact congrArg Nat.succ (ih (c.apply text))

theorem editsForAt (text : Text) {changes : List Change} {i : Nat} {c : Change} (here : changes[i]? = some c) :
    (editsFor text changes).1[i]? =
      some (c.edit (changed text (changes.take i)) (changed text (changes.take (i + 1)))) := by
  induction changes generalizing text i with
  | nil => contradiction
  | cons first rest ih =>
    cases i with
    | zero =>
      cases Option.some.inj here
      rfl
    | succ i => exact ih (first.apply text) here

theorem runLoaded (s : Store) (ops : List Operation) : (s.run ops).1.loaded = s.loaded := by
  induction ops generalizing s with
  | nil => rfl
  | cons op rest ih => exact (ih (s.perform op).1).trans (s.performLoaded op)

theorem performAbsent {s : Store} (absent : s.loaded = false) (empty : ∀ doc, s.find? doc = none) (op : Operation)
    (doc : DocId) : (s.perform op).1.find? doc = none := by
  cases op with
  | update other text => simp only [perform,update,absent,Bool.not_false,if_true,empty]
  | changes other textAfter changes => simp only [perform,applyChanges,empty]
  | edit other edit => simp only [perform,applyEdit,empty]
  | evict other =>
    have erased := entryErase s other doc
    rw [empty,ite_self] at erased
    exact erased
  | clear => rfl

theorem runAbsent {s : Store} (absent : s.loaded = false) (empty : ∀ doc, s.find? doc = none) (ops : List Operation)
    (doc : DocId) : (s.run ops).1.find? doc = none := by
  induction ops generalizing s with
  | nil => exact empty doc
  | cons op rest ih => exact ih ((s.performLoaded op).trans absent) (performAbsent absent empty op)

theorem keptLoaded {loaded : Bool} {ops : List Operation} {doc : DocId} {e : Entry}
    (found : (run { loaded } ops).1.find? doc = some e) : (run { loaded } ops).1.loaded = true := by
  rw [runLoaded]
  cases loaded with
  | true => rfl
  | false =>
    rw [runAbsent rfl (fun _ => rfl)] at found
    contradiction

theorem runUnconcerned {doc : DocId} {ops : List Operation} (others : ∀ op ∈ ops, op.concerns doc = false) (s : Store) :
    (s.run ops).1.find? doc = s.find? doc := by
  induction ops generalizing s with
  | nil => rfl
  | cons op rest ih =>
    obtain ⟨other,has,different⟩ := unconcernedOwner (others op List.mem_cons_self)
    exact (ih (fun x member => others x (List.mem_cons_of_mem _ member)) (s.perform op).1).trans
      (s.performElsewhere has different)

end Store

structure Notified (doc : DocId) (e : Entry) (known : Text) (changes : List Change) (text : Text) (next : Store)
    (effects : Effects) (after : Entry) : Prop where
  found : next.find? doc = some after
  tree : after.tree = e.tree ∧ after.made = e.made
  count : effects.calls.length = changes.length
  calls : ∀ i (c : Change), changes[i]? = some c → effects.calls[i]? =
    some (ParserCall.edit e.tree (c.edit (changed known (changes.take i)) (changed known (changes.take (i + 1)))))
  edits : ∃ made, effects.calls = made.map (ParserCall.edit e.tree) ∧ after.edits = e.edits ++ made
  stands : after.text = some (changed known changes)
  tracked : next.text? doc = some (changed known changes)
  warned : effects.mismatches = if changed known changes = text then 0 else 1

structure Resynced (doc : DocId) (after : Entry) (known text : Text) (warnings : Nat) (next : Store) (entry : Entry)
    (effects : Effects) : Prop where
  reused : ∃ made, effects.calls = made.map (ParserCall.edit after.tree) ++ [.parse text (some after.tree) entry.tree] ∧
    entry.made = .reusing text.octets after.made (after.edits ++ made) ∧
    (warnings = 0 ∧ made = [] ∨
      warnings = 1 ∧ ∃ c, Change.between known text = some c ∧ made = [c.edit known text])
  kept : next.find? doc = some entry
  tracked : next.text? doc = some text

namespace Store

theorem changesNotified {s : Store} {doc : DocId} {e : Entry} {known : Text} (found : s.find? doc = some e)
    (tracked : e.text = some known) (changes : List Change) (text : Text) :
    ∃ after, Notified doc e known changes text (s.applyChanges doc text changes).1
      (s.applyChanges doc text changes).2 after := by
  have lead := editsForText known changes
  have applied : s.applyChanges doc text changes =
      ({ s with
          entries := Table.put doc
            { e with edits := e.edits ++ (editsFor known changes).1, text := some (changed known changes) } s.entries },
        ⟨(editsFor known changes).1.map (.edit e.tree),
          (if changed known changes = text then [] else [mismatchNotice doc text (changed known changes)]) ++
            [editedNotice doc changes.length]⟩) := by
    simp only [applyChanges,found,tracked,lead]
  have kept := (entryPut s doc doc
    { e with edits := e.edits ++ (editsFor known changes).1, text := some (changed known changes) } s.trees).trans
      (if_pos rfl)
  rw [applied]
  refine ⟨_,kept,⟨rfl,rfl⟩,?_,?_,⟨_,rfl,rfl⟩,rfl,?_,?_⟩
  · rw [List.length_map,editsForLength]
  · intro i c here
    rw [List.getElem?_map,editsForAt known here]
    rfl
  · rw [text?,kept]
    rfl
  · by_cases same : changed known changes = text
    · simp [Effects.mismatches,same,editedNotice]
    · simp [Effects.mismatches,same,editedNotice,mismatchNotice]

theorem resyncWarned {e : Entry} {known : Text} (tracked : e.text = some known) (text : Text) {warnings : Nat}
    (warned : warnings = if known = text then 0 else 1) :
    warnings = 0 ∧ (resync e text).map Prod.snd = [] ∨
      warnings = 1 ∧ ∃ c, Change.between known text = some c ∧ (resync e text).map Prod.snd = [c.edit known text] := by
  simp only [resync,tracked]
  cases between : Change.between known text with
  | none =>
    rw [if_pos (Change.betweenNone between)] at warned
    exact .inl ⟨warned,rfl⟩
  | some c =>
    have differ : known ≠ text := by
      intro same
      rw [(Change.betweenNoneIff known text).mpr same] at between
      contradiction
    rw [if_neg differ] at warned
    exact .inr ⟨warned,c,rfl,rfl⟩

theorem updateResynced {s : Store} {doc : DocId} {e : Entry} {known : Text} (loaded : s.loaded = true)
    (found : s.find? doc = some e) (tracked : e.text = some known) (text : Text) {warnings : Nat}
    (warned : warnings = if known = text then 0 else 1) :
    ∃ next entry effects, s.update doc text = .ok (next,entry,effects) ∧
      Resynced doc e known text warnings next entry effects := by
  have parsed : s.parsing doc text = reparse doc (s.trees + 1) text (some e) := by rw [parsing,found]
  refine ⟨_,_,_,updateLoaded loaded doc text,?_⟩
  constructor
  case reused =>
    rw [parsed]
    refine ⟨(resync e text).map Prod.snd,?_,rfl,resyncWarned tracked text warned⟩
    rw [List.map_map]
    rfl
  case kept => rw [entryPut,if_pos rfl]
  case tracked =>
    rw [text?,entryPut,if_pos rfl]
    rfl

end Store

theorem mismatchResynced (loaded : Bool) (ops : List Operation) {doc : DocId} {e : Entry} {known : Text}
    (found : (Store.run { loaded } ops).1.find? doc = some e) (tracked : e.text = some known) (changes : List Change)
    (text : Text) :
    ∃ next effects after, (Store.run { loaded } ops).1.applyChanges doc text changes = (next,effects) ∧
      Notified doc e known changes text next effects after ∧
      ∀ others : List Operation, (∀ op ∈ others, op.concerns doc = false) →
        ∃ last entry more, (next.run others).1.update doc text = .ok (last,entry,more) ∧
          Resynced doc after (changed known changes) text effects.mismatches last entry more := by
  obtain ⟨after,notified⟩ := Store.changesNotified found tracked changes text
  refine ⟨_,_,after,rfl,notified,?_⟩
  intro others elsewhere
  have loads := Store.performLoaded (Store.run { loaded } ops).1 (.changes doc text changes)
  have stays := Store.runUnconcerned elsewhere ((Store.run { loaded } ops).1.applyChanges doc text changes).1
  refine Store.updateResynced ?_ (stays.trans notified.found) notified.stands text notified.warned
  rw [Store.runLoaded]
  exact loads.trans (Store.keptLoaded found)

-- Two changes, the second one past the end of what the first one left, and an announced text that lacks the last
-- character. Before the request comes, another document is opened and closed.
def misleading : List Change := [⟨-1,1,['é','\n']⟩,⟨3,9,['z']⟩]

def meanwhile : List Operation := [.update "b" ['b'],.changes "b" [] [⟨0,1,[]⟩],.evict "b"]

theorem misleadingResynced :
    ∃ e, (Store.run { loaded := true } [.update "a" ['x','y']]).1.find? "a" = some e ∧ e.text = some ['x','y'] ∧
      (∀ op ∈ meanwhile, op.concerns "a" = false) ∧
      ∃ next effects after,
        (Store.run { loaded := true } [.update "a" ['x','y']]).1.applyChanges "a" ['é','\n','y'] misleading =
          (next,effects) ∧
        Notified "a" e ['x','y'] misleading ['é','\n','y'] next effects after ∧ effects.mismatches = 1 ∧
        ∃ last entry more, (next.run meanwhile).1.update "a" ['é','\n','y'] = .ok (last,entry,more) ∧
          Resynced "a" after ['é','\n','y','z'] ['é','\n','y'] 1 last entry more := by
  have elsewhere : ∀ op ∈ meanwhile, op.concerns "a" = false := by decide
  obtain ⟨e,found,tracked⟩ : ∃ e, (Store.run { loaded := true } [.update "a" ['x','y']]).1.find? "a" = some e ∧
    e.text = some ['x','y'] := ⟨_,rfl,rfl⟩
  obtain ⟨next,effects,after,applied,notified,later⟩ :=
    mismatchResynced true [.update "a" ['x','y']] found tracked misleading ['é','\n','y']
  have warned : effects.mismatches = 1 := notified.warned.trans (if_neg (by decide))
  have resynced := later meanwhile elsewhere
  rw [warned] at resynced
  exact ⟨e,found,tracked,elsewhere,next,effects,after,applied,notified,warned,resynced⟩

end Document
end Tinct
