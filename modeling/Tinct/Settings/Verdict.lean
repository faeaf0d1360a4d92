import Tinct.Fault

/-! Verdicts on a value: what it stands for, or everything that is wrong with it, each issue with its place,
or a cause that stops the checking altogether. -/
namespace Tinct

inductive Place where
  | key (key : Key)
  | index (n : Nat)
  deriving DecidableEq, Repr

def Place.text : Place → String
  | key k => k.name
  | index n => toString n

inductive IssueKind where
  | notSection (title : String)
  | notText | notUnicode | notList
  | notChoice (choices : List String)
  | fractional | notFinite | unreadableInt | notInt
  | unreadableBool | notBool
  | refused (reason : String)
  | unexpectedKey
  deriving DecidableEq, Repr

namespace IssueKind

def word : IssueKind → String
  | notSection _ => "model_type"
  | notText => "string_type"
  | notUnicode => "string_unicode"
  | notList => "list_type"
  | notChoice _ => "literal_error"
  | fractional => "int_from_float"
  | notFinite => "finite_number"
  | unreadableInt => "int_parsing"
  | notInt => "int_type"
  | unreadableBool => "bool_parsing"
  | notBool => "bool_type"
  | refused _ => "value_error"
  | unexpectedKey => "extra_forbidden"

def choiceText : List String → String
  | [] => ""
  | [a] => "'" ++ a ++ "'"
  | [a, b] => "'" ++ a ++ "' or '" ++ b ++ "'"
  | a :: rest => "'" ++ a ++ "', " ++ choiceText rest

def message : IssueKind → String
  | notSection title => "Input should be a valid dictionary or instance of " ++ title
  | notText => "Input should be a valid string"
  | notUnicode => "Input should be a valid string, unable to parse raw data as a unicode string"
  | notList => "Input should be a valid list"
  | notChoice choices => "Input should be " ++ choiceText choices
  | fractional => "Input should be a valid integer, got a number with a fractional part"
  | notFinite => "Input should be a finite number"
  | unreadableInt => "Input should be a valid integer, unable to parse string as an integer"
  | notInt => "Input should be a valid integer"
  | unreadableBool => "Input should be a valid boolean, unable to interpret input"
  | notBool => "Input should be a valid boolean"
  | refused reason => "Value error, " ++ reason
  | unexpectedKey => "Extra inputs are not permitted"

end IssueKind

structure Issue where
  place : List Place
  kind : IssueKind
  input : Value
  deriving DecidableEq

def Issue.fault (i : Issue) : Fault :=
  .configInvalid (String.intercalate "." (i.place.map Place.text)) i.input i.kind.message

inductive Verdict (α : Type) where
  | good (a : α)
  | bad (issues : List Issue)
  | stopped (cause : Failure)
  deriving DecidableEq

namespace Verdict
variable {α β : Type}

def issue (kind : IssueKind) (input : Value) : Verdict α := .bad [⟨[], kind, input⟩]

def map (f : α → β) : Verdict α → Verdict β
  | good a => .good (f a)
  | bad issues => .bad issues
  | stopped cause => .stopped cause

/-- Both parts are looked at; their issues follow one another, and a stop counts above all issues. -/
def also (f : Verdict (α → β)) (x : Verdict α) : Verdict β :=
  match f, x with
  | stopped cause, _ => .stopped cause
  | _, stopped cause => .stopped cause
  | bad i, bad j => .bad (i ++ j)
  | bad i, good _ => .bad i
  | good _, bad j => .bad j
  | good f, good a => .good (f a)

def andThen (x : Verdict α) (f : α → Verdict β) : Verdict β :=
  match x with
  | good a => f a
  | bad issues => .bad issues
  | stopped cause => .stopped cause

def under (place : Place) : Verdict α → Verdict α
  | good a => .good a
  | bad issues => .bad (issues.map fun i => { i with place := place :: i.place })
  | stopped cause => .stopped cause

end Verdict
end Tinct
