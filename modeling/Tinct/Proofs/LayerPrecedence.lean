import Tinct.Proofs.SectionLayers
import Tinct.Proofs.CheckedFields

/-! Which layer a setting comes from. Each field is taken whole from the highest layer that sets it, and has its default where
none does; a layer that sets one field hides no other, and what stands under a higher value may be anything. Two files that
spell a section differently are the exception: then the section is taken from one of them, whichever the choice falls on. -/
namespace Tinct.Settings
open Value (Mapping Plain Distinct fieldOf laidOver overlayEntries stacked)

def parts (tools : Tools) (l : Layers) (name : String) : List (Option Value) :=
  [part? tools name l.given,Table.get? (.text name) l.environment,part? tools name l.here,part? tools name l.user]

structure Orderly (tools : Tools) (l : Layers) : Prop where
  user : (Table.keys l.user).Nodup
  here : (Table.keys l.here).Nodup
  environment : (Table.keys l.environment).Nodup
  given : (Table.keys l.given).Nodup
  alike : SpeltAlike tools l.user l.here
  mapped : ∀ name ∈ sectionNames, ∀ part ∈ parts tools l name, Mapping part

structure SameKeys (l other : Layers) : Prop where
  user : Table.keys other.user = Table.keys l.user
  here : Table.keys other.here = Table.keys l.here
  environment : other.environment = l.environment
  given : other.given = l.given

section
variable {tools : Tools} {l other : Layers} {name : String} {homes : Homes} {s : Settings}

theorem mergedSteps (tools : Tools) (l : Layers) :
    l.merged tools = overlayEntries
      (overlayEntries (overlayEntries [] (respellSections tools (filesOf l.user l.here))) l.environment)
      (respellSections tools l.given) := rfl

theorem filesNodup (o : Orderly tools l) : (Table.keys (filesOf l.user l.here)).Nodup := by
  rw [filesKeys o.user o.here]
  refine List.nodup_append.mpr ⟨o.user,o.here.filter _,?_⟩
  rintro a below b above rfl
  exact of_decide_eq_true (List.mem_filter.mp above).2 below

theorem mergedGet (o : Orderly tools l) (member : name ∈ sectionNames) :
    Table.get? (.text name) (l.merged tools) = stacked (parts tools l name) := by
  rw [mergedSteps,Value.getOverlay (respellNodup o.given),Value.getOverlay o.environment,
    Value.getOverlay (respellNodup (filesNodup o)),respellGet member,respellGet member,filesPart o.user o.here o.alike member]
  simp only [parts,stacked,List.foldr_cons,List.foldr_nil,Table.get?,Value.overNone]

theorem mergedKeys (first : Orderly tools l) (second : Orderly tools other) (same : SameKeys l other) :
    Table.keys (other.merged tools) = Table.keys (l.merged tools) := by
  have files : Table.keys (filesOf other.user other.here) = Table.keys (filesOf l.user l.here) := by
    rw [filesKeys second.user second.here,filesKeys first.user first.here,same.user,same.here]
  have written : Table.keys (respellSections tools (filesOf other.user other.here)) =
      Table.keys (respellSections tools (filesOf l.user l.here)) := by
    simp only [respellKeys,spellingSame files,files]
  rw [mergedSteps,mergedSteps,Value.keysOverlay (respellNodup second.given),Value.keysOverlay (respellNodup first.given),
    Value.keysOverlay second.environment,Value.keysOverlay first.environment,
    Value.keysOverlay (respellNodup (filesNodup second)),Value.keysOverlay (respellNodup (filesNodup first)),
    written,same.environment,same.given]

def together (tools : Tools) (l : Layers) (name key : String) : Option Value :=
  stacked ((parts tools l name).map (fieldOf key))

theorem ofMergedGood (o : Orderly tools l) : ofEntries homes (l.merged tools) = .ok s ↔
    Resolved homes (together tools l) s ∧ ∀ key ∈ Table.keys (l.merged tools), isSection key = true := by
  have mapped : ∀ name ∈ sectionNames, Mapping (Table.get? (.text name) (l.merged tools)) := by
    intro name member
    rw [mergedGet o member]
    exact (Value.fieldStacked (o.mapped name member)).1
  have same : ∀ name key, Listed name key →
      fieldOf key (Table.get? (.text name) (l.merged tools)) = together tools l name key := by
    intro name key listed
    have member := listedName listed
    rw [mergedGet o member]
    exact (Value.fieldStacked (o.mapped name member)).2 key
  rw [ofEntriesGood,sectionsGood mapped]
  refine and_congr_left fun _ => ⟨fun r => ?_,fun r => ?_⟩
  · exact resolvedSame r fun name key listed => (same name key listed).symm
  · exact resolvedSame r same

end

def fieldIn (tools : Tools) (es : Value.Entries) (name key : String) : Option Value := fieldOf key (part? tools name es)

-- What each layer sets a field to, from the highest down.
def fieldLayers (tools : Tools) (l : Layers) (env : Environment) (name key : String) : List (Option Value) :=
  [fieldIn tools l.given name key,said env name (fieldsOf name) key,fieldIn tools l.here name key,
    fieldIn tools l.user name key]

def highest (tools : Tools) (l : Layers) (env : Environment) (name key : String) : Option Value :=
  (fieldLayers tools l env name key).findSome? id

section
variable {tools : Tools} {l : Layers} {env : Environment} {name key : String}

theorem variableField (layer : ofEnvironment env = .ok l.environment) (bare : Bare env) (listed : Listed name key) :
    (∃ m, fieldOf key (Table.get? (.text name) l.environment) = some (.map m)) ∨
      fieldOf key (Table.get? (.text name) l.environment) = said env name (fieldsOf name) key :=
  (environmentField layer bare (listedPart listed)).2 key listed

theorem togetherHighest (layer : ofEnvironment env = .ok l.environment) (bare : Bare env) (listed : Listed name key)
    (plain : Plain (together tools l name key)) : together tools l name key = highest tools l env name key := by
  have first : together tools l name key = ((parts tools l name).map (fieldOf key)).findSome? id :=
    Value.stackedFirst plain
  rw [first]
  rcases variableField layer bare listed with ⟨m,mapped⟩ | same
  · -- A mapping in a variable can only be hidden: had it been taken, the field would hold one.
    simp only [parts,highest,fieldLayers,List.map_cons,List.map_nil,List.findSome?_cons,mapped,fieldIn,id] at first ⊢
    cases given : fieldOf key (part? tools name l.given) with
    | some v => rfl
    | none =>
      rw [given] at first
      exact absurd first (plain m)
  · simp only [parts,highest,fieldLayers,List.map_cons,List.map_nil,same,fieldIn]

end

def putIn (key : String) (v : Value) : Value → Value
  | .map sub => .map (Table.put (.text key) v sub)
  | other => other

def setField (tools : Tools) (name key : String) (v : Value) (es : Value.Entries) : Value.Entries :=
  match spelling? tools name es with
  | none => es
  | some own => es.map fun e => if e.1 = .text own then (.text own,putIn key v e.2) else e

section
variable {tools : Tools} {name other key : String} {v : Value} {es : Value.Entries}

theorem setFieldKeys (tools : Tools) (name key : String) (v : Value) (es : Value.Entries) :
    Table.keys (setField tools name key v es) = Table.keys es := by
  unfold setField
  split
  · rfl
  · rw [Table.keys,List.map_map]
    apply List.map_congr_left
    intro e _
    simp only [Function.comp_apply]
    split
    · rename_i same
      exact same.symm
    · rfl

theorem getMapped (own at_ : Key) (f : Value → Value) (es : Value.Entries) :
    Table.get? at_ (es.map fun e => if e.1 = own then (own,f e.2) else e) =
      if at_ = own then (Table.get? at_ es).map f else Table.get? at_ es := by
  induction es with
  | nil => simp [Table.get?]
  | cons e rest ih =>
    obtain ⟨k,w⟩ := e
    by_cases same : k = own
    · subst same
      by_cases here : k = at_
      · simp [Table.get?,here]
      · simp only [List.map_cons,if_true,Table.get?,if_neg here,ih]
    · by_cases here : k = at_
      · subst here
        simp [Table.get?,same]
      · simp only [List.map_cons,if_neg same,Table.get?,if_neg here,ih]

theorem setFieldPart :
    part? tools other (setField tools name key v es) =
      if other = name then (part? tools other es).map (putIn key v) else part? tools other es := by
  rw [part?,part?,spellingSame (setFieldKeys ..)]
  cases spelt : spelling? tools other es with
  | none => simp
  | some own =>
    simp only [Option.bind_some]
    unfold setField
    split
    · rename_i absent
      rw [if_neg]
      rintro rfl
      rw [spelt] at absent
      contradiction
    · rename_i leading written
      rw [getMapped]
      have same : Key.text own = .text leading ↔ other = name := by
        constructor
        · intro equal
          cases Key.text.inj equal
          rw [← (memSpellings.mp (spelledIn spelt)).2,← (memSpellings.mp (spelledIn written)).2]
        · rintro rfl
          exact congrArg Key.text (Option.some.inj (spelt.symm.trans written))
      simp only [same]

theorem putInMapping {found : Option Value} (mapped : Mapping found) : Mapping (found.map (putIn key v)) := by
  intro w there
  obtain ⟨before,old,rfl⟩ := Option.map_eq_some_iff.mp there
  obtain ⟨sub,rfl,once⟩ := mapped before old
  exact ⟨Table.put (.text key) v sub,rfl,Table.keysPutNodup once _ v⟩

theorem putInField {found : Option Value} (different : other ≠ key) :
    fieldOf other (found.map (putIn key v)) = fieldOf other found := by
  cases found with
  | none => rfl
  | some w =>
    cases w with
    | map sub => exact (Table.lookupPut ..).trans (if_neg fun same => different (Key.text.inj same).symm)
    | _ => rfl

end

inductive LayerFile where
  | user | here
  deriving DecidableEq, Repr

def replaceIn (tools : Tools) (l : Layers) (name key : String) (v : Value) : LayerFile → Layers
  | .user => { l with user := setField tools name key v l.user }
  | .here => { l with here := setField tools name key v l.here }

def above (tools : Tools) (l : Layers) (env : Environment) (name key : String) : LayerFile → List (Option Value)
  | .user => (fieldLayers tools l env name key).take 3
  | .here => (fieldLayers tools l env name key).take 2

section
variable {tools : Tools} {l : Layers} {env : Environment} {name key other field : String} {v : Value}

theorem replaceSame (file : LayerFile) : SameKeys l (replaceIn tools l name key v file) := by
  cases file with
  | user => exact ⟨setFieldKeys ..,rfl,rfl,rfl⟩
  | here => exact ⟨rfl,setFieldKeys ..,rfl,rfl⟩

theorem replaceOrderly (o : Orderly tools l) (file : LayerFile) : Orderly tools (replaceIn tools l name key v file) := by
  have same : SameKeys l (replaceIn tools l name key v file) := replaceSame file
  have user := same.user ▸ o.user
  have here := same.here ▸ o.here
  have files : Table.keys (filesOf (replaceIn tools l name key v file).user (replaceIn tools l name key v file).here) =
      Table.keys (filesOf l.user l.here) := by
    rw [filesKeys user here,filesKeys o.user o.here,same.user,same.here]
  have mapped : ∀ {es : Value.Entries} {other : String}, Mapping (part? tools other es) →
      Mapping (part? tools other (setField tools name key v es)) := by
    intro es other before
    rw [setFieldPart]
    split
    · exact putInMapping before
    · exact before
  refine ⟨user,here,same.environment ▸ o.environment,same.given ▸ o.given,?_,?_⟩
  · intro other there
    have before := o.alike other there
    simp only [List.forall_mem_cons,spellingSame files,spellingSame same.user,spellingSame same.here] at before ⊢
    exact before
  · intro other there
    have before := o.mapped other there
    cases file with
    | user =>
      simp only [parts,List.forall_mem_cons] at before ⊢
      exact ⟨before.1,before.2.1,before.2.2.1,mapped before.2.2.2.1,before.2.2.2.2⟩
    | here =>
      simp only [parts,List.forall_mem_cons] at before ⊢
      exact ⟨before.1,before.2.1,mapped before.2.2.1,before.2.2.2⟩

theorem replaceKeys (o : Orderly tools l) (file : LayerFile) :
    Table.keys ((replaceIn tools l name key v file).merged tools) = Table.keys (l.merged tools) := by
  exact mergedKeys o (replaceOrderly o file) (replaceSame file)

theorem replaceOther (different : ¬(other = name ∧ field = key)) (file : LayerFile) :
    together tools (replaceIn tools l name key v file) other field = together tools l other field := by
  have same : ∀ es, fieldOf field (part? tools other (setField tools name key v es)) = fieldOf field (part? tools other es) := by
    intro es
    rw [setFieldPart]
    split
    · rename_i equal
      exact putInField fun same => different ⟨equal,same⟩
    · rfl
  cases file <;> simp only [together,parts,replaceIn,List.map_cons,List.map_nil,same]

theorem replaceHidden (layer : ofEnvironment env = .ok l.environment) (bare : Bare env) (listed : Listed name key)
    {file : LayerFile} (hidden : ∃ found ∈ above tools l env name key file, found.isSome = true)
    (plain : Plain (together tools l name key)) :
    together tools (replaceIn tools l name key v file) name key = together tools l name key := by
  have spoken : (said env name (fieldsOf name) key).isSome = true →
      (fieldOf key (Table.get? (.text name) l.environment)).isSome = true := by
    rcases variableField layer bare listed with ⟨m,mapped⟩ | same
    · rw [mapped]
      exact fun _ => rfl
    · rw [same]
      exact id
  have related : List.Forall₂ (fun a b : Option Value => a.isSome = true → b.isSome = true) (fieldLayers tools l env name key)
      ((parts tools l name).map (fieldOf key)) := .cons id (.cons spoken (.cons id (.cons id .nil)))
  cases file with
  | user => exact Value.stackedShadows (Value.takeSet related hidden) plain _
  | here => exact Value.stackedShadows (Value.takeSet related hidden) plain _

end

section
variable {tools : Tools} {fs : Files} {env : Environment} {search : Search} {given : Value.Fields} {layers : Layers}
  {settings : Settings}

theorem readOrderly (once : KeysOnce tools.document) (read : readLayers tools fs env search given = .ok layers)
    (bare : Bare env) (distinct : Distinct layers.given) (user : Sectioned tools layers.user)
    (here : Sectioned tools layers.here) (own : Sectioned tools layers.given)
    (alike : SpeltAlike tools layers.user layers.here) : Orderly tools layers := by
  obtain ⟨second,first,layer,_,_⟩ := readLayersParts.mp read
  have below := readLayerDistinct once first
  have above := readHereDistinct once second
  have names : ((Table.keys sectionFields).map Key.text).Nodup := sectionsNodup.map fun _ _ => Key.text.inj
  refine ⟨below.keys,above.keys,(sectionsOfKeys layer).nodup names,distinct.keys,alike,?_⟩
  intro name member
  obtain ⟨fields,listed⟩ : ∃ fields, (name,fields) ∈ sectionFields := by simpa [sectionNames,Table.keys] using member
  simp only [parts,List.forall_mem_cons]
  exact ⟨partMapping distinct own member,(environmentField layer bare listed).1,partMapping above here member,
    partMapping below user member,fun _ none => absurd none List.not_mem_nil⟩

theorem loadMerged (read : readLayers tools fs env search given = .ok layers) :
    load tools fs env search given = ofEntries ⟨fs.home,fs.accounts⟩ (layers.merged tools) := by
  rw [load,read]
  rfl

theorem highestLayerWins (once : KeysOnce tools.document) (read : readLayers tools fs env search given = .ok layers)
    (loaded : load tools fs env search given = .ok settings) (bare : Bare env) (distinct : Distinct layers.given)
    (user : Sectioned tools layers.user) (here : Sectioned tools layers.here) (own : Sectioned tools layers.given)
    (alike : SpeltAlike tools layers.user layers.here) :
    Resolved ⟨fs.home,fs.accounts⟩ (highest tools layers env) settings ∧
    ∀ name key v file, Listed name key → (∃ found ∈ above tools layers env name key file, found.isSome = true) →
      ∀ (other : Files) (elsewhere : Search), other.home = fs.home → other.accounts = fs.accounts →
        readLayers tools other env elsewhere given = .ok (replaceIn tools layers name key v file) →
        load tools other env elsewhere given = .ok settings := by
  have orderly := readOrderly once read bare distinct user here own alike
  obtain ⟨_,_,layer,_⟩ := readLayersParts.mp read
  rw [loadMerged read,ofMergedGood orderly] at loaded
  obtain ⟨resolved,known⟩ := loaded
  have plain : ∀ {name key}, Listed name key → Plain (together tools layers name key) := resolvedPlain resolved
  refine ⟨?_,?_⟩
  · exact resolvedSame resolved fun name key listed => (togetherHighest layer bare listed (plain listed)).symm
  · intro name key v file listed hidden other elsewhere home accounts again
    rw [loadMerged again,ofMergedGood (replaceOrderly orderly file),home,accounts,replaceKeys orderly]
    refine ⟨resolvedSame resolved ?_,known⟩
    intro name' key' listed'
    by_cases same : name' = name ∧ key' = key
    · obtain ⟨rfl,rfl⟩ := same
      exact replaceHidden layer bare listed hidden (plain listed)
    · exact replaceOther same file

end

-- A user's file, a repository's with a limit of its own, a variable above it and a caller that spells its own way.
def layeredFiles (limit : String) : Files where
  files := [(["h",".config","semtok","config.yaml"],Text.octets "tokens:\n strict_types: on".toList),
    (["w",".semtok","config.yaml"],Text.octets ("tokens:\n max_token_length: " ++ limit).toList)]
  working := ["w"]
  home := "/h"

def layeredGiven : Value.Fields := [("Tokens",.map [("reversed_spans",.text "error")])]

def layeredRead (limit : Value) : Layers where
  user := [("tokens",.map [("strict_types",.bool true)])]
  here := [("tokens",.map [("max_token_length",limit)])]
  environment := [("tokens",.map [("max_token_length",.text "9")])]
  given := Value.entries layeredGiven

theorem layersResolve :
    let env := [("SEMTOK__TOKENS__MAX_TOKEN_LENGTH","9")]
    readLayers plainTools (layeredFiles "6") env {} layeredGiven = .ok (layeredRead (.int 6)) ∧
    load plainTools (layeredFiles "6") env {} layeredGiven = .ok { tokens := ⟨9,true,.refuse⟩ } ∧
    Resolved ⟨"/h",[]⟩ (highest plainTools (layeredRead (.int 6)) env) { tokens := ⟨9,true,.refuse⟩ } ∧
    load plainTools (layeredFiles "[]") env {} layeredGiven = .ok { tokens := ⟨9,true,.refuse⟩ } := by
  intro env
  have environment : ofEnvironment env = .ok (layeredRead .null).environment := by decide +kernel
  have read : readLayers plainTools (layeredFiles "6") env {} layeredGiven = .ok (layeredRead (.int 6)) :=
    readLayersParts.mpr ⟨by decide +kernel,by decide +kernel,environment,by decide +kernel,rfl⟩
  have again : readLayers plainTools (layeredFiles "[]") env {} layeredGiven = .ok (layeredRead (.list [])) :=
    readLayersParts.mpr ⟨by decide +kernel,by decide +kernel,environment,by decide +kernel,rfl⟩
  have loaded : load plainTools (layeredFiles "6") env {} layeredGiven = .ok { tokens := ⟨9,true,.refuse⟩ } := by
    rw [loadMerged read]
    decide +kernel
  have distinct : Distinct (layeredRead (.int 6)).given := by
    refine ⟨by decide,?_⟩
    intro key sub found
    simp only [layeredRead,layeredGiven,Value.entries,List.map_cons,List.map_nil,Table.get?] at found
    split at found
    · cases Option.some.inj found
      decide
    · cases found
  obtain ⟨resolved,hidden⟩ := highestLayerWins (Yaml.loadOnce _) read loaded (by decide +kernel) distinct
    (by decide +kernel) (by decide +kernel) (by decide +kernel) (by decide +kernel)
  refine ⟨read,loaded,resolved,?_⟩
  exact hidden "tokens" "max_token_length" (.list []) .here (by decide) (by decide +kernel) _ _ rfl rfl again

-- Two spellings of a section: what the repository's file sets is gone, though no layer above it sets that field.
def spelledFiles : Files where
  files := [(["h",".config","semtok","config.yaml"],Text.octets "Tokens:\n strict_types: on".toList),
    (["w",".semtok","config.yaml"],Text.octets "tokens:\n max_token_length: 7".toList)]
  working := ["w"]
  home := "/h"

def spelledRead : Layers where
  user := [("Tokens",.map [("strict_types",.bool true)])]
  here := [("tokens",.map [("max_token_length",.int 7)])]

theorem spellingHides :
    readLayers plainTools spelledFiles [] {} [] = .ok spelledRead ∧ Sectioned plainTools spelledRead.user ∧
    Sectioned plainTools spelledRead.here ∧
    load plainTools spelledFiles [] {} [] = .ok { tokens := ⟨65535,true,.split⟩ } ∧
    ¬ Resolved ⟨"/h",[]⟩ (highest plainTools spelledRead []) { tokens := ⟨65535,true,.split⟩ } := by
  have read : readLayers plainTools spelledFiles [] {} [] = .ok spelledRead := by decide +kernel
  have loaded : load plainTools spelledFiles [] {} [] = .ok { tokens := ⟨65535,true,.split⟩ } := by
    rw [loadMerged read]
    decide +kernel
  refine ⟨read,by decide +kernel,by decide +kernel,loaded,?_⟩
  intro resolved
  have found : highest plainTools spelledRead [] "tokens" "max_token_length" = some (.int 7) := by decide +kernel
  have limit := resolved.tokens.maxLength
  rw [found] at limit
  have taken : checkMaxLength (.int 7) = .good 7 := rfl
  cases taken.symm.trans limit

end Tinct.Settings
