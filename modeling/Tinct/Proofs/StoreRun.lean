import Tinct.Document.Store
import Tinct.Proofs.Splice

/-! Runs of a document store. An operation that fails or does nothing leaves the store as it was. The log keeps
every call on the parser in order and says who asked for it: a request, a change notification, or somebody
outside who edits the tree by hand. `Move` lists all that one operation can do. -/
namespace Tinct.Document

inductive Operation where
  | update (doc : DocId) (text : Text)
  | changes (doc : DocId) (textAfter : Text) (changes : List Change)
  | edit (doc : DocId) (edit : Edit)
  | evict (doc : DocId)
  | clear
  deriving DecidableEq, Repr

def Operation.doc? : Operation → Option DocId
  | .update doc _ | .changes doc _ _ | .edit doc _ | .evict doc => some doc
  | .clear => none

inductive Origin where
  | request | notification | outside
  deriving DecidableEq, Repr

abbrev Log := List (Origin × ParserCall)

namespace Store

def perform (s : Store) : Operation → Store × Log
  | .update doc text =>
    match s.update doc text with
    | .ok (next, _, effects) => (next, effects.calls.map (Origin.request, ·))
    | .error _ => (s, [])
  | .changes doc textAfter changes =>
    let (next, effects) := s.applyChanges doc textAfter changes
    (next, effects.calls.map (Origin.notification, ·))
  | .edit doc edit =>
    let (next, effects) := s.applyEdit doc edit
    (next, effects.calls.map (Origin.outside, ·))
  | .evict doc => ((s.evict doc).1, [])
  | .clear => (s.clear, [])

def run (s : Store) : List Operation → Store × Log
  | [] => (s, [])
  | op::rest =>
    let (next, made) := s.perform op
    let (last, later) := run next rest
    (last, made ++ later)

/- Every parse makes the next tree. A tree is edited only while it is an entry's tree, and only the entry of the
document in question is replaced; entries that vanish are not touched otherwise. -/
inductive Move (s : Store) : Store → Log → Prop where
  | shrink {next : Store} (trees : next.trees = s.trees)
      (kept : ∀ doc e, next.find? doc = some e → s.find? doc = some e) : Move s next []
  | parse (doc : DocId) (text : Text) (absent : s.find? doc = none) :
      Move s
        { s with
          entries := Table.put doc { tree := s.trees + 1, made := .afresh text.octets, text := some text } s.entries
          trees := s.trees + 1 }
        [(.request, .parse text none (s.trees + 1))]
  | reparse (doc : DocId) (text : Text) (e : Entry) (found : s.find? doc = some e) :
      Move s
        { s with
          entries := Table.put doc
            { tree := s.trees + 1
              made := .reusing text.octets e.made (e.edits ++ (resync e text).map Prod.snd)
              text := some text } s.entries
          trees := s.trees + 1 }
        ((resync e text).map (fun r => (.request, .edit e.tree r.2)) ++
          [(.request, .parse text (some e.tree) (s.trees + 1))])
  | notify (doc : DocId) (e : Entry) (known : Text) (changes : List Change)
      (found : s.find? doc = some e) (tracked : e.text = some known) :
      Move s
        { s with
          entries := Table.put doc
            { e with
              edits := e.edits ++ (editsFor known changes).1
              text := some (editsFor known changes).2 } s.entries }
        ((editsFor known changes).1.map fun x => (.notification, .edit e.tree x))
  | edit (doc : DocId) (e : Entry) (edit : Edit) (found : s.find? doc = some e) :
      Move s
        { s with entries := Table.put doc { e with edits := e.edits ++ [edit], text := none } s.entries }
        [(.outside, .edit e.tree edit)]

theorem entryPut (s : Store) (doc other : DocId) (e : Entry) (trees : Nat) :
    find? { s with entries := Table.put doc e s.entries, trees } other =
      if doc = other then some e else s.find? other := Table.lookupPut doc other e s.entries

theorem entryErase (s : Store) (doc other : DocId) :
    find? { s with entries := Table.erase doc s.entries } other =
      if doc = other then none else s.find? other := Table.lookupErase doc other s.entries

def parsing (s : Store) (doc : DocId) (text : Text) : Tree × Effects := reparse doc (s.trees + 1) text (s.find? doc)

theorem updateLoaded {s : Store} (loaded : s.loaded = true) (doc : DocId) (text : Text) :
    s.update doc text =
      .ok ({ s with
          entries := Table.put doc { tree := s.trees + 1, made := (s.parsing doc text).1, text := some text } s.entries
          trees := s.trees + 1 },
        { tree := s.trees + 1, made := (s.parsing doc text).1, text := some text },(s.parsing doc text).2) := by
  simp [update,loaded,parsing]

theorem moveStay (s : Store) : Move s s [] := .shrink rfl fun _ _ found => found

theorem moveErase (s : Store) (doc : DocId) : Move s { s with entries := Table.erase doc s.entries } [] := by
  refine .shrink rfl ?_
  intro other e found
  rw [entryErase] at found
  split at found
  · contradiction
  · exact found

theorem performMove (s : Store) (op : Operation) : Move s (s.perform op).1 (s.perform op).2 := by
  cases op with
  | update doc text =>
    cases loaded : s.loaded with
    | false =>
      simp only [perform,update,loaded]
      exact moveStay s
    | true =>
      cases found : s.find? doc with
      | none => simpa [perform,update,reparse,found,loaded] using Move.parse doc text found
      | some e =>
        simpa [perform,update,reparse,found,loaded,Function.comp_def] using Move.reparse doc text e found
  | changes doc textAfter changes =>
    cases found : s.find? doc with
    | none =>
      simp only [perform,applyChanges,found]
      exact moveStay s
    | some e =>
      cases tracked : e.text with
      | none =>
        simp only [perform,applyChanges,found,tracked]
        exact moveErase s doc
      | some known =>
        simpa [perform,applyChanges,found,tracked,Function.comp_def] using
          Move.notify doc e known changes found tracked
  | edit doc edit =>
    cases found : s.find? doc with
    | none =>
      simp only [perform,applyEdit,found]
      exact moveStay s
    | some e =>
      simp only [perform,applyEdit,found]
      exact Move.edit doc e edit found
  | evict doc => exact moveErase s doc
  | clear => exact .shrink rfl fun _ _ found => by contradiction

theorem performElsewhere (s : Store) {op : Operation} {doc other : DocId} (own : op.doc? = some doc)
    (elsewhere : other ≠ doc) : (s.perform op).1.find? other = s.find? other := by
  have different : ¬ doc = other := fun same => elsewhere same.symm
  cases op with
  | update x text =>
    cases own
    simp only [perform,update]
    split
    · rename_i done
      split at done
      · contradiction
      · cases Except.ok.inj done
        rw [entryPut,if_neg different]
    · rfl
  | changes x textAfter changes =>
    cases own
    simp only [perform,applyChanges]
    split
    · rfl
    · split
      · rw [entryErase,if_neg different]
      · exact (entryPut s doc other _ s.trees).trans (if_neg different)
  | edit x edit =>
    cases own
    simp only [perform,applyEdit]
    split
    · rfl
    · exact (entryPut s doc other _ s.trees).trans (if_neg different)
  | evict x =>
    cases own
    exact (entryErase s doc other).trans (if_neg different)
  | clear => contradiction

theorem performLoaded (s : Store) (op : Operation) : (s.perform op).1.loaded = s.loaded := by
  cases op with
  | update doc text =>
    cases loaded : s.loaded with
    | false => simp [perform,update,loaded]
    | true => simp [perform,updateLoaded loaded,loaded]
  | changes doc textAfter changes =>
    simp only [perform,applyChanges]
    split
    · rfl
    · split <;> rfl
  | edit doc edit =>
    simp only [perform,applyEdit]
    split <;> rfl
  | evict doc => rfl
  | clear => rfl

theorem editsForCoherent (text : Text) (changes : List Change) :
    Coherent text.octets (editsFor text changes).1 (editsFor text changes).2.octets := by
  induction changes generalizing text with
  | nil => exact .nil _
  | cons c rest ih => exact coherentAppend (c.applyCoherent text) (ih (c.apply text))

theorem resyncUntracked {e : Entry} (untracked : e.text = none) (text : Text) : resync e text = [] := by
  simp only [resync,untracked]

theorem resyncCoherent {e : Entry} {known : Text} (tracked : e.text = some known) (text : Text) :
    Coherent known.octets ((resync e text).map Prod.snd) text.octets := by
  simp only [resync,tracked]
  cases found : Change.between known text with
  | none =>
    cases Change.betweenNone found
    exact .nil _
  | some c =>
    have single := c.applyCoherent known
    rw [Change.betweenApplies found] at single
    exact single

end Store
end Tinct.Document
