import Tinct.Query.Source
import Tinct.Query.Catalogue
import Tinct.Settings.Basic
import Tinct.Files
import Tinct.Edit

/-! Grammars and what their queries find. The engine is given: it may refuse a query text, and it lists the
matches of a query over a tree. A grammar runs its queries in order and turns what they find into
captures with character columns, ordered by octet position within each match. -/
namespace Tinct.Query

structure Node where
  first : Int
  last : Int
  start : Point
  stop : Point
  deriving DecidableEq, Repr

structure RawMatch where
  pattern : Int
  captures : List (String × List Node)
  deriving DecidableEq, Repr

structure Engine where
  refuses : Text → Option String
  run : Nat → Tree → List RawMatch

structure Compiled where
  source : Text
  text : Text
  deriving DecidableEq, Repr

structure Grammar where
  module : String
  queries : List Compiled
  deriving DecidableEq, Repr

def RawMatch.nodes (m : RawMatch) : List (String × Node) :=
  (m.captures.flatMap fun c => c.2.map fun n => (c.1, n)).mergeSort fun a b =>
    a.2.first < b.2.first || (a.2.first = b.2.first && a.2.last ≤ b.2.last)

def RawMatch.converted (rows : List Octets) (m : RawMatch) : QueryMatch :=
  ⟨m.pattern, m.nodes.map fun p =>
    ⟨p.1, Octets.charPoint rows p.2.start, Octets.charPoint rows p.2.stop⟩⟩

def Grammar.matches (g : Grammar) (engine : Engine) (tree : Tree) (source : Octets) : List QueryMatch :=
  let rows := source.rows
  ((List.range g.queries.length).flatMap fun i => engine.run i tree).filterMap fun m =>
    let c := m.converted rows
    if c.captures.isEmpty then none else some c

def resolve (cat : Catalogue) (files : Files) (source : Text) : Except Failure Text :=
  match Source.classify source with
  | .member package name =>
    match cat.text? (String.ofList package) (String.ofList name) with
    | some s => .ok s.toList
    | none => .error (.fault (.querySourceMissing (String.ofList (Text.strip source))))
  | .file path => do
    let p ← (Path.ofString (String.ofList path)).expandHome files.home files.accounts
    match files.read? p.text with
    | some data => Files.textOf data
    | none => .error (.fault (.querySourceMissing (String.ofList path)))
  | .inline text => .ok text

def compile (cat : Catalogue) (files : Files) (engine : Engine) (source : String) : Except Failure Compiled := do
  let text ← resolve cat files source.toList
  match engine.refuses text with
  | some reason => .error (.fault (.queryRejected (String.ofList (describe source.toList)) reason))
  | none => .ok ⟨describe source.toList, text⟩

def Grammar.load (cat : Catalogue) (files : Files) (engine : Engine) (s : GrammarSettings) :
    Except Failure Grammar := do
  cat.language s.module s.languageFunc
  let queries ← s.queries.mapM (compile cat files engine)
  .ok ⟨s.module, queries⟩

def Grammar.loadedNotice (g : Grammar) : Notice :=
  ⟨.info, "grammar_loaded", [("module", .text g.module), ("queries", .int g.queries.length)]⟩

end Tinct.Query
