import Tinct.Settings.Check

/-! Settings as values, every field written out. -/
namespace Tinct

def wordFor {α : Type} [DecidableEq α] (choices : List (String × α)) (a : α) : String :=
  match choices.find? fun c => c.2 = a with
  | some c => c.1
  | none => ""

def Level.value (l : Level) : Value := .text (wordFor Settings.levels l)

def namesValue (ns : List String) : Value := .list (ns.map .text)

def OutputSettings.value (s : OutputSettings) : Value :=
  .map [("format", .text (match s.format with | .json => "json" | .console => "console")),
    ("destination", .text s.destination), ("level", (s.level.map Level.value).getD .null)]

def LoggingSettings.value (s : LoggingSettings) : Value :=
  .map [("level", s.level.value), ("outputs", .list (s.outputs.map OutputSettings.value))]

def LegendSettings.value (s : LegendSettings) : Value :=
  .map [("token_types", namesValue s.types), ("token_modifiers", namesValue s.modifiers)]

def GrammarSettings.value (s : GrammarSettings) : Value :=
  .map [("module", .text s.module), ("language_func", .text s.languageFunc), ("queries", namesValue s.queries)]

def TokenSettings.value (s : TokenSettings) : Value :=
  .map [("max_token_length", .int s.maxLength), ("strict_types", .bool s.strict),
    ("reversed_spans", .text (match s.reversed with | .split => "split" | .refuse => "error"))]

def Settings.value (s : Settings) : Value :=
  .map [("logging", s.logging.value), ("legend", s.legend.value), ("grammar", s.grammar.value),
    ("tokens", s.tokens.value)]

end Tinct
