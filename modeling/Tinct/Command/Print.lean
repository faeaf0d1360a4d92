import Tinct.Json.Writer
import Tinct.Text.Grid
import Tinct.Legend
import Tinct.Token

/-! What commands print: the codes of a legend, and tokens as a stream, as JSON or as a table with the text that
each token marks. -/
namespace Tinct.Command

def padded (width : Nat) (n : Nat) : String :=
  let s := toString n
  String.ofList (List.replicate (width - s.length) ' ') ++ s

def numbered (f : Nat → Nat) (width : Nat) (i : Nat) : List String → String
  | [] => ""
  | name :: rest => "  " ++ padded width (f i) ++ "  " ++ name ++ "\n" ++ numbered f width (i + 1) rest

def legendText (l : Legend) : String :=
  "Token types:\n" ++ numbered id 3 0 l.types ++ "Token modifiers:\n" ++
    (if l.modifiers.isEmpty then "  (none)\n" else numbered (Nat.pow 2) 6 0 l.modifiers)

def legendJson (l : Legend) : String :=
  Json.compact (.map [("tokenTypes", .list (l.types.map .text)), ("tokenModifiers", .list (l.modifiers.map .text))]) ++
    "\n"

def streamText (data : List Int) : String := Json.compact (.list (data.map .int)) ++ "\n"

def tokenValue (t : Token) : Value :=
  .map [("line", .int t.line), ("startCharacter", .int t.start), ("length", .int t.length), ("type", .text t.type),
    ("modifiers", .list ((nameSet t.modifiers).map .text))]

def tokensJson (ts : List Token) : String := Json.indented (.list (ts.map tokenValue)) ++ "\n"

def bound (length : Nat) (n : Int) : Nat := if n < 0 then (n + length).toNat else min n.toNat length

def slice (t : Text) (start stop : Int) : Text :=
  let first := bound t.length start
  (t.drop first).take (bound t.length stop - first)

def excerpt (lines : List Text) (t : Token) : Text :=
  slice (lines.getD (bound lines.length t.line) []) t.start (t.start + t.length)

def columns : List Text.Column :=
  [⟨"line", true⟩, ⟨"col", true⟩, ⟨"len", true⟩, ⟨"type", false⟩, ⟨"text", false⟩]

def row (excerpt : Token → Text) (t : Token) : List Text :=
  [(toString t.line).toList, (toString t.start).toList, (toString t.length).toList, t.type.toList, excerpt t]

def tokensSheet (excerpt : Token → Text) (ts : List Token) : Text.Sheet := ⟨columns, ts.map (row excerpt)⟩

end Tinct.Command
