import Tinct.Yaml.Cursor

/-! The tokens of a document. Indentation and the keys that only a later colon shows to be keys are tokens of
their own, so that a list of tokens can be read without columns. -/
namespace Tinct.Yaml

structure Tag where
  handle : Option String
  suffix : String
  deriving DecidableEq, Repr

inductive Token where
  | version (major : Nat)
  | tagHandle (handle expansion : String)
  | otherDirective
  | documentStart | documentEnd
  | blockItems | blockEntries | blockEnd
  | flowItems | flowItemsEnd | flowEntries | flowEntriesEnd
  | dash | comma | key | value
  | anchor (name : String)
  | alias (name : String)
  | tag (t : Tag)
  | scalar (text : String) (plain : Bool)
  deriving DecidableEq, Repr

end Tinct.Yaml
