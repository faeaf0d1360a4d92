import Tinct.Token
import Tinct.Journal

/-! Captures to tokens. An editor wants every token on one line, so a capture over several rows becomes one
token a row. A token that runs to the end of its row takes the longest length instead of measuring it. -/
namespace Tinct

inductive ReversedSpans where
  | split | refuse
  deriving DecidableEq, Repr

/-- One token for each row from the start to the end. A span whose end row comes first gives the first and
the last token only. -/
def splitRows (type : String) (modifiers : List String) (start stop : Point) (maxLength : Int) : List Token :=
  let middle := (List.range (stop.row - start.row - 1).toNat).map fun (i : Nat) =>
    { line := start.row + 1 + i, start := 0, length := maxLength, type, modifiers : Token }
  { line := start.row, start := start.column, length := maxLength, type, modifiers } ::
    middle ++ [{ line := stop.row, start := 0, length := max 0 stop.column, type, modifiers }]

def Capture.tokens (maxLength : Int) (policy : ReversedSpans) (c : Capture) : Except Fault (List Token) :=
  if c.start.row = c.stop.row then
    .ok [{ line := c.start.row, start := c.start.column,
           length := max 0 (c.stop.column - c.start.column), type := c.name }]
  else if c.stop.row < c.start.row ∧ policy = .refuse then
    .error (.reversedSpan c.name c.start c.stop)
  else .ok (splitRows c.name [] c.start c.stop maxLength)

def flatCaptures (ms : List QueryMatch) : List Capture := ms.flatMap QueryMatch.captures

def keptCaptures (l : Legend) (ms : List QueryMatch) : List Capture :=
  (flatCaptures ms).filter fun c => l.hasType c.name

def tokensOf (maxLength : Int) (policy : ReversedSpans) : List Capture → Except Fault (List Token)
  | [] => .ok []
  | c :: rest => do
    let first ← c.tokens maxLength policy
    let others ← tokensOf maxLength policy rest
    .ok (first ++ others)

def dropNotice (dropped kept : Nat) : List Notice :=
  if dropped = 0 then [] else [⟨.debug, "captures_dropped", [("count", .int dropped), ("kept", .int kept)]⟩]

def normalize (l : Legend) (maxLength : Int) (policy : ReversedSpans) (ms : List QueryMatch) :
    Except Fault (List Token × List Notice) := do
  let kept := keptCaptures l ms
  let tokens ← tokensOf maxLength policy kept
  .ok (tokens, dropNotice ((flatCaptures ms).length - kept.length) tokens.length)

end Tinct
