import Tinct.Legend

/-! Tokens and captures. A capture is a named span that a query found, in character columns; a token lies on
one line. A token's modifiers are a set, kept in code point order. -/
namespace Tinct

structure Capture where
  name : String
  start : Point
  stop : Point
  deriving DecidableEq, Repr

structure QueryMatch where
  pattern : Int
  captures : List Capture
  deriving DecidableEq, Repr

structure Token where
  line : Int
  start : Int
  length : Int
  type : String
  modifiers : List String := []
  deriving DecidableEq, Repr

def nameSet (names : List String) : List String :=
  (names.eraseDups).mergeSort fun a b => decide (a ≤ b)

def Token.sortByPosition (tokens : List Token) : List Token :=
  tokens.mergeSort fun a b => a.line < b.line || (a.line = b.line && a.start ≤ b.start)

end Tinct
