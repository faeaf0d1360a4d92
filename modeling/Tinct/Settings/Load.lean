import Tinct.Settings.Variables

/-! Settings from their sources. From the lowest: defaults, the file of the user, the file of the repository or
one that is named, environment variables, and what a caller gives. Mappings are merged, all else is replaced.
The first issue is reported with the dotted place where it was found. -/
namespace Tinct.Settings

/-- What loading leaves to others: the reading of a document, the choice among several spellings of a section, and
what is raised over keys that are no texts, before the environment is looked at or after. -/
structure Tools where
  document : Text → Loaded
  spelling : (keys : List Key) → (first : String) → (rest : List String) → { key // key ∈ first :: rest }
  unnamed : (keys : List Key) → String × String
  namesFirst : Bool

structure Layers where
  user : Value.Entries := []
  here : Value.Entries := []
  environment : Value.Entries := []
  given : Value.Entries := []
  deriving DecidableEq

section
variable (tools : Tools)

def spellings (name : String) (es : Value.Entries) : List String :=
  es.filterMap fun e =>
    match e.1 with
    | .text key => if Text.lower key = name then some key else none
    | .other _ => none

def spelling? (name : String) (es : Value.Entries) : Option String :=
  match spellings name es with
  | [] => none
  | first :: rest => some (tools.spelling (Table.keys es) first rest).1

def part? (name : String) (es : Value.Entries) : Option Value :=
  (spelling? tools name es).bind fun key => Table.get? (.text key) es

def namesSection : Key → Bool
  | .text key => sectionNames.contains (Text.lower key)
  | .other _ => false

def respellSections (es : Value.Entries) : Value.Entries :=
  sectionNames.filterMap (fun name => (part? tools name es).map fun v => (.text name, v)) ++
    es.filter fun e => !namesSection e.1

def Layers.merged (l : Layers) : Value.Entries :=
  Value.mergeLayers
    [respellSections tools (Value.mergeLayers [l.user, l.here]), l.environment, respellSections tools l.given]

end

def isSection : Key → Bool
  | .text key => sectionNames.contains key
  | .other _ => false

def checkKeys (es : Value.Entries) : Verdict Unit :=
  match es.filter fun e => !isSection e.1 with
  | [] => .good ()
  | extra => .bad (extra.map fun e => ⟨[.key e.1], .unexpectedKey, e.2⟩)

def ofEntries (homes : Homes) (es : Value.Entries) : Except Failure Settings :=
  match ((checkSections homes es).map fun s _ => s).also (checkKeys es) with
  | .good s => .ok s
  | .bad (i :: _) => .error (.fault i.fault)
  | .bad [] => .ok {}
  | .stopped cause => .error cause

structure Search where
  folder : Option Path := none
  file : Option Path := none

def userFile (fs : Files) : Path := (Path.ofString fs.home).join ⟨"", [".config", "semtok", "config.yaml"]⟩

def repositoryFile (fs : Files) (folder : Option Path) : Path :=
  (folder.getD ⟨"/", fs.working⟩).join ⟨"", [".semtok", "config.yaml"]⟩

/-- Passes entries whose keys are texts, and out of its turn any entries. -/
def requireNames (tools : Tools) (turn : Bool) (es : Value.Entries) : Except Failure Unit :=
  if !turn || es.all fun e => e.1.isText then .ok () else
  let (kind, message) := tools.unnamed (Table.keys es)
  .error (.foreign kind message)

section
variable (tools : Tools) (fs : Files)

def readLayer (path : Path) : Except Failure Value.Entries :=
  match fs.read? path.text with
  | none => .ok []
  | some data => do
    match tools.document (← Files.textOf data) with
    | .flawed reason => throw (.fault (.configUnreadable path.text reason))
    | .raised kind message => throw (.foreign kind message)
    | .value .null => return []
    | .value (.map es) => return es
    | .value _ => throw (.fault (.configUnreadable path.text "top level must be a mapping"))

def readHere (search : Search) : Except Failure Value.Entries :=
  match search.file with
  | none => readLayer tools fs (repositoryFile fs search.folder)
  | some path =>
    if (fs.read? path.text).isSome then readLayer tools fs path else throw (.fault (.configMissing path.text))

def readLayers (env : Environment) (search : Search) (given : Value.Fields) : Except Failure Layers := do
  let here ← readHere tools fs search
  let user ← readLayer tools fs (userFile fs)
  let files := Value.mergeLayers [user, here]
  requireNames tools tools.namesFirst files
  let environment ← ofEnvironment env
  requireNames tools (!tools.namesFirst) files
  return { user, here, environment, given := Value.entries given }

def load (env : Environment) (search : Search) (given : Value.Fields) : Except Failure Settings := do
  let layers ← readLayers tools fs env search given
  ofEntries ⟨fs.home, fs.accounts⟩ (layers.merged tools)

end
end Tinct.Settings
