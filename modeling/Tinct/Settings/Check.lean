import Tinct.Settings.Basic
import Tinct.Settings.Verdict
import Tinct.Files

/-! Checking of values against the settings. Every section is looked at field by field, in order, and all issues
are reported. Unknown keys are passed over. Numbers and truth values may be written as texts. -/
namespace Tinct.Settings

structure Homes where
  home : String := "/"
  accounts : Table String String := []

def checkText : Value → Verdict String
  | .text s => .good s
  | .octets data =>
    match data.text? with
    | some t => .good (String.ofList t)
    | none => .issue .notUnicode (.octets data)
  | v => .issue .notText v

def checkItems {α : Type} (check : Value → Verdict α) (index : Nat) : List Value → Verdict (List α)
  | [] => .good []
  | v :: rest => (((check v).under (.index index)).map List.cons).also (checkItems check (index + 1) rest)

def checkList {α : Type} (check : Value → Verdict α) (v : Value) : Verdict (List α) :=
  match v.items? with
  | some items => checkItems check 0 items
  | none => .issue .notList v

def checkChoice {α : Type} (choices : List (String × α)) : Value → Verdict α
  | .text s =>
    match Table.get? s choices with
    | some a => .good a
    | none => .issue (.notChoice (Table.keys choices)) (.text s)
  | v => .issue (.notChoice (Table.keys choices)) v

def isNumberBlank (c : Char) : Bool := Text.isBlank c && !(0x1c ≤ c.toNat && c.toNat ≤ 0x1f)

def stripNumber (t : Text) : Text := ((t.dropWhile isNumberBlank).reverse.dropWhile isNumberBlank).reverse

def digitsValue? (acc : Nat) : Text → Option Nat
  | [] => none
  | [c] => if c.isDigit then some (acc * 10 + (c.toNat - '0'.toNat)) else none
  | c :: '_' :: rest => if c.isDigit then digitsValue? (acc * 10 + (c.toNat - '0'.toNat)) rest else none
  | c :: rest => if c.isDigit then digitsValue? (acc * 10 + (c.toNat - '0'.toNat)) rest else none

def dropZeroFraction (t : Text) : Text :=
  match t.dropWhile (· ≠ '.') with
  | '.' :: zeros => if !zeros.isEmpty && zeros.all (· = '0') then t.takeWhile (· ≠ '.') else t
  | _ => t

def intOfText? (s : String) : Option Int :=
  match dropZeroFraction (stripNumber s.toList) with
  | '-' :: rest => (digitsValue? 0 rest).map fun n => -(n : Int)
  | '+' :: rest => (digitsValue? 0 rest).map fun n => (n : Int)
  | rest => (digitsValue? 0 rest).map fun n => (n : Int)

def checkIntText (v : Value) (s : String) : Verdict Int :=
  match intOfText? s with
  | some n => .good n
  | none => .issue .unreadableInt v

def checkInt : Value → Verdict Int
  | .int n => .good n
  | .bool b => .good (if b then 1 else 0)
  | .real x =>
    match x.parts with
    | .finite .. =>
      match x.toInt? with
      | some n => .good n
      | none => .issue .fractional (.real x)
    | _ => .issue .notFinite (.real x)
  | .text s => checkIntText (.text s) s
  | .octets data =>
    match data.text? with
    | some t => checkIntText (.octets data) (String.ofList t)
    | none => .issue .unreadableInt (.octets data)
  | v => .issue .notInt v

def truthWords : List (String × Bool) :=
  [("0", false), ("off", false), ("f", false), ("false", false), ("n", false), ("no", false),
   ("1", true), ("on", true), ("t", true), ("true", true), ("y", true), ("yes", true)]

def checkBoolText (v : Value) (s : String) : Verdict Bool :=
  match Table.get? (s.map Char.toLower) truthWords with
  | some b => .good b
  | none => .issue .unreadableBool v

def checkBool : Value → Verdict Bool
  | .bool b => .good b
  | .int n => if n = 0 then .good false else if n = 1 then .good true else .issue .unreadableBool (.int n)
  | .real x =>
    match x.toInt? with
    | some 0 => .good false
    | some 1 => .good true
    | _ => .issue .notBool (.real x)
  | .text s => checkBoolText (.text s) s
  | .octets data =>
    match data.text? with
    | some t => checkBoolText (.octets data) (String.ofList t)
    | none => .issue .unreadableBool (.octets data)
  | v => .issue .notBool v

def field {α : Type} (es : Value.Entries) (key : String) (default : α) (check : Value → Verdict α) : Verdict α :=
  match Table.get? (.text key) es with
  | none => .good default
  | some v => (check v).under (.key key)

def ofSection {α : Type} (title : String) (check : Value.Entries → Verdict α) : Value → Verdict α
  | .map es => check es
  | v => .issue (.notSection title) v

def levels : List (String × Level) :=
  [("DEBUG", .debug), ("INFO", .info), ("WARNING", .warning), ("ERROR", .error), ("CRITICAL", .critical)]

def checkLevel? : Value → Verdict (Option Level)
  | .null => .good none
  | v => (checkChoice levels v).map some

def checkDestination (homes : Homes) (v : Value) : Verdict String :=
  (checkText v).andThen fun s =>
    if s = "stderr" ∨ s = "stdout" then .good s else
    match (Path.ofString s).expandHome homes.home homes.accounts with
    | .error cause => .stopped cause
    | .ok p =>
      if p.isAbsolute then .good p.text
      else .issue (.refused ("File destination must be absolute path: " ++ s)) v

def checkOutput (homes : Homes) : Value → Verdict OutputSettings :=
  ofSection "LogOutputConfig" fun es =>
    (((field es "format" .console (checkChoice [("json", .json), ("console", .console)])).map
      OutputSettings.mk).also
      (field es "destination" "stderr" (checkDestination homes))).also
      (field es "level" none checkLevel?)

def checkLogging (homes : Homes) : Value → Verdict LoggingSettings :=
  ofSection "LoggingConfig" fun es =>
    ((field es "level" .info (checkChoice levels)).map LoggingSettings.mk).also
      (field es "outputs" [{}] (checkList (checkOutput homes)))

def checkPlainLogging (format : OutputFormat) (level : Value) : Verdict LoggingSettings :=
  ((checkChoice levels level).under (.key "level")).map fun l => ⟨l, [{ format }]⟩

def firstRepeat (seen : List String) : List String → Option String
  | [] => none
  | n :: rest => if n ∈ seen then some n else firstRepeat (n :: seen) rest

def checkDistinct (v : Value) (ns : List String) : Verdict (List String) :=
  match firstRepeat [] ns with
  | some n => .issue (.refused ("Duplicate legend name: " ++ n)) v
  | none => .good ns

def checkTypes (v : Value) : Verdict (List String) :=
  (checkList checkText v).andThen fun ns =>
    if ns.isEmpty then .issue (.refused "Legend needs at least one token type") v else checkDistinct v ns

def checkModifiers (v : Value) : Verdict (List String) := (checkList checkText v).andThen (checkDistinct v)

def checkLegend : Value → Verdict LegendSettings :=
  ofSection "LegendConfig" fun es =>
    ((field es "token_types" Legend.defaultTypes checkTypes).map LegendSettings.mk).also
      (field es "token_modifiers" [] checkModifiers)

def checkQueries (v : Value) : Verdict (List String) :=
  (checkList checkText v).andThen fun qs =>
    if qs.isEmpty then .issue (.refused "At least one query source is required") v else .good qs

def checkGrammar : Value → Verdict GrammarSettings :=
  ofSection "GrammarConfig" fun es =>
    (((field es "module" "tree_sitter_python" checkText).map GrammarSettings.mk).also
      (field es "language_func" "language" checkText)).also
      (field es "queries" ["tree_sitter_python:HIGHLIGHTS_QUERY"] checkQueries)

def checkMaxLength (v : Value) : Verdict Int :=
  (checkInt v).andThen fun n =>
    if 1 ≤ n ∧ n ≤ maxTokenLength then .good n
    else .issue (.refused ("max_token_length must be 1-" ++ toString maxTokenLength ++ ", got " ++ toString n)) v

def checkTokens : Value → Verdict TokenSettings :=
  ofSection "TokensConfig" fun es =>
    (((field es "max_token_length" (maxTokenLength : Int) checkMaxLength).map TokenSettings.mk).also
      (field es "strict_types" false checkBool)).also
      (field es "reversed_spans" .split (checkChoice [("split", .split), ("error", .refuse)]))

def checkSections (homes : Homes) (es : Value.Entries) : Verdict Settings :=
  ((((field es "logging" {} (checkLogging homes)).map Settings.mk).also
    (field es "legend" {} checkLegend)).also
    (field es "grammar" {} checkGrammar)).also
    (field es "tokens" {} checkTokens)

def check (homes : Homes) : Value → Verdict Settings := ofSection "SemtokConfig" (checkSections homes)

end Tinct.Settings
