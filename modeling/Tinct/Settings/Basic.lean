import Tinct.Span

/-! The settings of a session, by section, with their defaults. -/
namespace Tinct

inductive OutputFormat where
  | json | console
  deriving DecidableEq, Repr

structure OutputSettings where
  format : OutputFormat := .console
  destination : String := "stderr"
  level : Option Level := none
  deriving DecidableEq, Repr

structure LoggingSettings where
  level : Level := .info
  outputs : List OutputSettings := [{}]
  deriving DecidableEq, Repr

structure LegendSettings where
  types : List String := Legend.defaultTypes
  modifiers : List String := []
  deriving DecidableEq, Repr

structure GrammarSettings where
  module : String := "tree_sitter_python"
  languageFunc : String := "language"
  queries : List String := ["tree_sitter_python:HIGHLIGHTS_QUERY"]
  deriving DecidableEq, Repr

structure TokenSettings where
  maxLength : Int := maxTokenLength
  strict : Bool := false
  reversed : ReversedSpans := .split
  deriving DecidableEq, Repr

structure Settings where
  logging : LoggingSettings := {}
  legend : LegendSettings := {}
  grammar : GrammarSettings := {}
  tokens : TokenSettings := {}
  deriving DecidableEq, Repr

end Tinct
