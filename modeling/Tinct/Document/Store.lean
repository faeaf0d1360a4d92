import Tinct.Edit
import Tinct.Fault
import Tinct.Journal

/-! One syntax tree for each document. A request brings the whole current text; a change notification lets the
tree be edited in place, so that the next parse can reuse it. The text that a tree's bookkeeping stands
for is kept too: if a request arrives with another text, the difference is applied as one edit first.

Trees are numbered in the order in which the parser makes them. Every operation says which calls it made
on the parser and what it has to report. -/
namespace Tinct

abbrev DocId := String
abbrev TreeId := Nat

inductive ParserCall where
  | parse (source : Text) (old : Option TreeId) (tree : TreeId)
  | edit (tree : TreeId) (edit : Edit)
  deriving DecidableEq, Repr

namespace Document

structure Entry where
  tree : TreeId
  made : Tree
  edits : List Edit := []
  /-- None once an edit of unknown origin has been made on the tree. -/
  text : Option Text
  deriving DecidableEq, Repr

structure Store where
  loaded : Bool := true
  entries : Table DocId Entry := []
  trees : Nat := 0
  deriving DecidableEq, Repr

structure Effects where
  calls : List ParserCall := []
  notices : List Notice := []

def Effects.append (a b : Effects) : Effects := ⟨a.calls ++ b.calls, a.notices ++ b.notices⟩

instance : Append Effects := ⟨Effects.append⟩

namespace Store

def find? (s : Store) (doc : DocId) : Option Entry := Table.get? doc s.entries

def contains (s : Store) (doc : DocId) : Bool := (s.find? doc).isSome

def text? (s : Store) (doc : DocId) : Option Text := (s.find? doc).bind Entry.text

def size (s : Store) : Nat := s.entries.length

def parsedNotice (doc : DocId) (again : Bool) : Notice :=
  ⟨.debug, "tree_parsed", [("document", .text doc), ("incremental", .bool again)]⟩

def resyncedNotice (doc : DocId) (c : Change) : Notice :=
  ⟨.debug, "tree_resynced", [("document", .text doc), ("offset", .int c.offset), ("removed", .int c.length),
    ("inserted", .int c.text.length)]⟩

def resync (e : Entry) (text : Text) : List (Change × Edit) :=
  match e.text with
  | none => []
  | some known =>
    match Change.between known text with
    | none => []
    | some c => [(c, c.edit known text)]

def reparse (doc : DocId) (tree : TreeId) (text : Text) : Option Entry → Tree × Effects
  | none => (.afresh text.octets, ⟨[.parse text none tree], [parsedNotice doc false]⟩)
  | some e =>
    let sync := resync e text
    (.reusing text.octets e.made (e.edits ++ sync.map Prod.snd),
     ⟨sync.map (fun r => .edit e.tree r.2) ++ [.parse text (some e.tree) tree],
      sync.map (fun r => resyncedNotice doc r.1) ++ [parsedNotice doc true]⟩)

def update (s : Store) (doc : DocId) (text : Text) : Except Fault (Store × Entry × Effects) :=
  if !s.loaded then .error .grammarAbsent else
  let tree := s.trees + 1
  let (made, effects) := reparse doc tree text (s.find? doc)
  let entry : Entry := { tree, made, text := some text }
  .ok ({ s with entries := Table.put doc entry s.entries, trees := tree }, entry, effects)

def applyEdit (s : Store) (doc : DocId) (edit : Edit) : Store × Effects :=
  match s.find? doc with
  | none => (s, {})
  | some e =>
    ({ s with entries := Table.put doc { e with edits := e.edits ++ [edit], text := none } s.entries },
     ⟨[.edit e.tree edit], []⟩)

def editsFor (text : Text) : List Change → List Edit × Text
  | [] => ([], text)
  | c :: rest =>
    let after := c.apply text
    let (edits, last) := editsFor after rest
    (c.edit text after :: edits, last)

def evictedNotice (doc : DocId) : Notice :=
  ⟨.debug, "tree_evicted", [("document", .text doc), ("reason", .text "untracked_text")]⟩

def mismatchNotice (doc : DocId) (expected actual : Text) : Notice :=
  ⟨.warning, "change_text_mismatch", [("document", .text doc), ("expected_length", .int expected.length),
    ("actual_length", .int actual.length)]⟩

def editedNotice (doc : DocId) (changes : Nat) : Notice :=
  ⟨.debug, "tree_edited", [("document", .text doc), ("changes", .int changes)]⟩

/-- Applies one notification's changes in the order in which they were reported. A tree with edits of unknown
origin is dropped instead, so that the next request parses afresh. -/
def applyChanges (s : Store) (doc : DocId) (textAfter : Text) (changes : List Change) : Store × Effects :=
  match s.find? doc with
  | none => (s, {})
  | some e =>
    match e.text with
    | none => ({ s with entries := Table.erase doc s.entries }, ⟨[], [evictedNotice doc]⟩)
    | some known =>
      let (edits, text) := editsFor known changes
      ({ s with entries := Table.put doc { e with edits := e.edits ++ edits, text := some text } s.entries },
       ⟨edits.map (.edit e.tree), (if text = textAfter then [] else [mismatchNotice doc textAfter text]) ++
         [editedNotice doc changes.length]⟩)

def evict (s : Store) (doc : DocId) : Store × Bool :=
  ({ s with entries := Table.erase doc s.entries }, s.contains doc)

def clear (s : Store) : Store := { s with entries := [] }

end Store
end Document
end Tinct
