import Tinct.Settings.Check
import Tinct.Json.Reader
import Tinct.Text.Lower
import Tinct.Value.Merge

/-! Settings from environment variables. `SEMTOK__SECTION` holds a section as JSON; further `__` parts name a field
of it, and its value is laid over that. A field that is a list holds JSON too, any other the text as it is.
The case of the names does not matter. -/
namespace Tinct.Settings

abbrev Environment := List (String × String)

def sectionFields : Table String (Table String Bool) :=
  [("logging", [("level", false), ("outputs", true)]),
   ("legend", [("token_types", true), ("token_modifiers", true)]),
   ("grammar", [("module", false), ("language_func", false), ("queries", true)]),
   ("tokens", [("max_token_length", false), ("strict_types", false), ("reversed_spans", false)])]

def sectionNames : List String := Table.keys sectionFields

def splitBars (current : Text) : Text → List Text
  | [] => [current.reverse]
  | '_' :: '_' :: rest => current.reverse :: splitBars [] rest
  | c :: rest => splitBars (c :: current) rest

/-- Puts a value under a path of keys. Something else than a mapping on the way keeps it out. -/
def plant (v : Value) : List String → Value.Entries → Value.Entries
  | [], es => es
  | [k], es => Table.put (.text k) v es
  | k :: rest, es =>
    match Table.get? (.text k) es with
    | none => Table.put (.text k) (.map (plant v rest [])) es
    | some (.map sub) => Table.put (.text k) (.map (plant v rest sub)) es
    | some _ => es

def decode (name : String) (s : String) : Except Failure Value :=
  match Json.parse? s with
  | some v => .ok v
  | none => .error (.unreadableVariable name)

def variableValue (name : String) (fields : Table String Bool) (path : List String) (s : String) :
    Except Failure Value :=
  match path with
  | [key] => if Table.get? key fields = some true ∧ s ≠ "" then decode name s else .ok (.text s)
  | _ => .ok (.text s)

def setFields (name : String) (fields : Table String Bool) (es : Value.Entries) :
    Environment → Except Failure Value.Entries
  | [] => .ok es
  | (key, s) :: rest =>
    let head := ("semtok__" ++ name ++ "__").toList
    if head.isPrefixOf key.toList then do
      let path := (splitBars [] (key.toList.drop head.length)).map String.ofList
      let v ← variableValue name fields path s
      setFields name fields (plant v path es) rest
    else setFields name fields es rest

def ownSpelling (fields : List String) : Key → Key
  | .text s => .text ((fields.find? fun f => f = Text.lower s).getD s)
  | other => other

def respell (fields : List String) (es : Value.Entries) : Value.Entries :=
  Table.ofList (es.map fun e => (ownSpelling fields e.1, e.2))

/-- A section as the variables give it, if they do. A JSON null gives nothing at all. -/
def sectionOf (env : Environment) (name : String) (fields : Table String Bool) : Except Failure (Option Value) := do
  match Table.get? ("semtok__" ++ name) env with
  | none =>
    let es ← setFields name fields [] env
    return if es.isEmpty then none else some (.map (respell (Table.keys fields) es))
  | some s =>
    match ← decode name s with
    | .null => return none
    | .map es =>
      let upper ← setFields name fields [] env
      return some (.map (respell (Table.keys fields) (Value.overlayEntries es upper)))
    | v => return some v

def sectionsOf (env : Environment) : Table String (Table String Bool) → Except Failure Value.Entries
  | [] => .ok []
  | (name, fields) :: rest => do
    let v ← sectionOf env name fields
    let es ← sectionsOf env rest
    return v.toList.map (fun v => (.text name, v)) ++ es

def ofEnvironment (env : Environment) : Except Failure Value.Entries :=
  sectionsOf (Table.ofList (env.map fun e => (Text.lower e.1, e.2))) sectionFields

end Tinct.Settings
