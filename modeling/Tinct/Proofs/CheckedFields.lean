import Tinct.Settings.Load
import Tinct.Proofs.VariableLayer
import Tinct.Proofs.Verdicts

/-! What settings stand for, field by field: the value that a check makes of what was found for the field, or its default.
Merged entries are taken exactly if every section is, and if they hold no key besides the sections. -/
namespace Tinct.Settings
open Value (Mapping Plain fieldOf)

def Resolves {α : Type} (check : Value → Verdict α) (default : α) (found : Option Value) (a : α) : Prop :=
  match found with
  | none => a = default
  | some v => check v = .good a

structure LoggingResolved (homes : Homes) (look : String → Option Value) (s : LoggingSettings) : Prop where
  level : Resolves (checkChoice levels) ({} : LoggingSettings).level (look "level") s.level
  outputs : Resolves (checkList (checkOutput homes)) ({} : LoggingSettings).outputs (look "outputs") s.outputs

structure LegendResolved (look : String → Option Value) (s : LegendSettings) : Prop where
  types : Resolves checkTypes ({} : LegendSettings).types (look "token_types") s.types
  modifiers : Resolves checkModifiers ({} : LegendSettings).modifiers (look "token_modifiers") s.modifiers

structure GrammarResolved (look : String → Option Value) (s : GrammarSettings) : Prop where
  module : Resolves checkText ({} : GrammarSettings).module (look "module") s.module
  languageFunc : Resolves checkText ({} : GrammarSettings).languageFunc (look "language_func") s.languageFunc
  queries : Resolves checkQueries ({} : GrammarSettings).queries (look "queries") s.queries

structure TokensResolved (look : String → Option Value) (s : TokenSettings) : Prop where
  maxLength : Resolves checkMaxLength ({} : TokenSettings).maxLength (look "max_token_length") s.maxLength
  strict : Resolves checkBool ({} : TokenSettings).strict (look "strict_types") s.strict
  reversed : Resolves (checkChoice [("split",.split),("error",.refuse)]) ({} : TokenSettings).reversed
    (look "reversed_spans") s.reversed

structure SectionsResolved (homes : Homes) (es : Value.Entries) (s : Settings) : Prop where
  logging : Resolves (checkLogging homes) {} (Table.get? (.text "logging") es) s.logging
  legend : Resolves checkLegend {} (Table.get? (.text "legend") es) s.legend
  grammar : Resolves checkGrammar {} (Table.get? (.text "grammar") es) s.grammar
  tokens : Resolves checkTokens {} (Table.get? (.text "tokens") es) s.tokens

structure Resolved (homes : Homes) (look : String → String → Option Value) (s : Settings) : Prop where
  logging : LoggingResolved homes (look "logging") s.logging
  legend : LegendResolved (look "legend") s.legend
  grammar : GrammarResolved (look "grammar") s.grammar
  tokens : TokensResolved (look "tokens") s.tokens

def fieldsOf (name : String) : Table String Bool := (Table.get? name sectionFields).getD []

def Listed (name key : String) : Prop := key ∈ Table.keys (fieldsOf name)

instance (name key : String) : Decidable (Listed name key) := inferInstanceAs (Decidable (_ ∈ _))

section
variable {homes : Homes} {look other : String → String → Option Value} {s : Settings} {name key : String}

theorem listedPart (listed : Listed name key) : (name,fieldsOf name) ∈ sectionFields := by
  unfold Listed at listed
  rw [Table.memIffGet sectionsNodup]
  cases found : Table.get? name sectionFields with
  | none =>
    rw [fieldsOf,found] at listed
    contradiction
  | some fields => rw [fieldsOf,found]; rfl

theorem listedName (listed : Listed name key) : name ∈ sectionNames := List.mem_map_of_mem (listedPart listed)

theorem resolvesPlain {α : Type} {check : Value → Verdict α} {default a : α} {found : Option Value} {kind : IssueKind}
    (resolves : Resolves check default found a) (refuses : ∀ es, check (.map es) = .issue kind (.map es)) : Plain found := by
  rintro es rfl
  cases (refuses es).symm.trans resolves

theorem resolvedPlain (r : Resolved homes look s) (listed : Listed name key) : Plain (look name key) := by
  have all : ∀ part ∈ sectionFields, ∀ key ∈ Table.keys part.2, Plain (look part.1 key) := by
    simp only [sectionFields,Table.keys,List.map_cons,List.map_nil,List.forall_mem_cons,List.not_mem_nil,false_imp_iff,
      implies_true,and_true]
    refine ⟨⟨?_,?_⟩,⟨?_,?_⟩,⟨?_,?_,?_⟩,?_,?_,?_⟩
    · exact resolvesPlain r.logging.level fun _ => rfl
    · exact resolvesPlain r.logging.outputs fun _ => rfl
    · exact resolvesPlain r.legend.types fun _ => rfl
    · exact resolvesPlain r.legend.modifiers fun _ => rfl
    · exact resolvesPlain r.grammar.module fun _ => rfl
    · exact resolvesPlain r.grammar.languageFunc fun _ => rfl
    · exact resolvesPlain r.grammar.queries fun _ => rfl
    · exact resolvesPlain r.tokens.maxLength fun _ => rfl
    · exact resolvesPlain r.tokens.strict fun _ => rfl
    · exact resolvesPlain r.tokens.reversed fun _ => rfl
  exact all _ (listedPart listed) key listed

theorem resolvedSame (r : Resolved homes look s) (same : ∀ name key, Listed name key → other name key = look name key) :
    Resolved homes other s := by
  refine ⟨⟨?_,?_⟩,⟨?_,?_⟩,⟨?_,?_,?_⟩,⟨?_,?_,?_⟩⟩ <;> rw [same _ _ (by decide)]
  · exact r.logging.level
  · exact r.logging.outputs
  · exact r.legend.types
  · exact r.legend.modifiers
  · exact r.grammar.module
  · exact r.grammar.languageFunc
  · exact r.grammar.queries
  · exact r.tokens.maxLength
  · exact r.tokens.strict
  · exact r.tokens.reversed

end

section
variable {α : Type} {homes : Homes} {es : Value.Entries} {s : Settings}

theorem fieldGood {check : Value → Verdict α} {key : String} {default a : α} :
    field es key default check = .good a ↔ Resolves check default (Table.get? (.text key) es) a := by
  unfold field Resolves
  cases Table.get? (.text key) es with
  | none => simp only [Verdict.good.injEq,eq_comm]
  | some v => exact Verdict.underGood

theorem resolvesHolds {check : Value → Verdict α} {default a : α} {found : Option Value} (holds : α → Prop)
    (own : holds default) (passes : ∀ v a, check v = .good a → holds a) (resolves : Resolves check default found a) :
    holds a := by
  cases found with
  | none =>
    cases resolves
    exact own
  | some v => exact passes v a resolves

theorem sectionMapped {title : String} {check : Value.Entries → Verdict α} {v : Value} {a : α}
    (passed : ofSection title check v = .good a) : ∃ es, v = .map es := by
  cases v with
  | map es => exact ⟨es,rfl⟩
  | _ => contradiction

theorem sectionGood {check : Value → Verdict α} {found : Option Value} {default a : α} (told : (String → Option Value) → Prop)
    (mapped : Mapping found) (absent : a = default ↔ told fun _ => none)
    (present : ∀ sub, check (.map sub) = .good a ↔ told fun key => Table.get? (.text key) sub) :
    Resolves check default found a ↔ told fun key => fieldOf key found := by
  cases found with
  | none => exact absent
  | some v =>
    obtain ⟨sub,rfl,_⟩ := mapped v rfl
    exact present sub

theorem loggingEntries {sub : Value.Entries} {s : LoggingSettings} :
    checkLogging homes (.map sub) = .good s ↔ LoggingResolved homes (fun key => Table.get? (.text key) sub) s := by
  simp only [checkLogging,ofSection,Verdict.alsoGood,Verdict.mapGood,fieldGood]
  constructor
  · rintro ⟨_,outputs,⟨level,first,rfl⟩,second,rfl⟩
    exact ⟨first,second⟩
  · rintro ⟨first,second⟩
    exact ⟨_,_,⟨_,first,rfl⟩,second,rfl⟩

theorem legendEntries {sub : Value.Entries} {s : LegendSettings} :
    checkLegend (.map sub) = .good s ↔ LegendResolved (fun key => Table.get? (.text key) sub) s := by
  simp only [checkLegend,ofSection,Verdict.alsoGood,Verdict.mapGood,fieldGood]
  constructor
  · rintro ⟨_,modifiers,⟨types,first,rfl⟩,second,rfl⟩
    exact ⟨first,second⟩
  · rintro ⟨first,second⟩
    exact ⟨_,_,⟨_,first,rfl⟩,second,rfl⟩

theorem grammarEntries {sub : Value.Entries} {s : GrammarSettings} :
    checkGrammar (.map sub) = .good s ↔ GrammarResolved (fun key => Table.get? (.text key) sub) s := by
  simp only [checkGrammar,ofSection,Verdict.alsoGood,Verdict.mapGood,fieldGood]
  constructor
  · rintro ⟨_,queries,⟨_,func,⟨module,first,rfl⟩,second,rfl⟩,third,rfl⟩
    exact ⟨first,second,third⟩
  · rintro ⟨first,second,third⟩
    exact ⟨_,_,⟨_,_,⟨_,first,rfl⟩,second,rfl⟩,third,rfl⟩

theorem tokensEntries {sub : Value.Entries} {s : TokenSettings} :
    checkTokens (.map sub) = .good s ↔ TokensResolved (fun key => Table.get? (.text key) sub) s := by
  simp only [checkTokens,ofSection,Verdict.alsoGood,Verdict.mapGood,fieldGood]
  constructor
  · rintro ⟨_,reversed,⟨_,strict,⟨maxLength,first,rfl⟩,second,rfl⟩,third,rfl⟩
    exact ⟨first,second,third⟩
  · rintro ⟨first,second,third⟩
    exact ⟨_,_,⟨_,_,⟨_,first,rfl⟩,second,rfl⟩,third,rfl⟩

theorem sectionsEntries : checkSections homes es = .good s ↔ SectionsResolved homes es s := by
  simp only [checkSections,Verdict.alsoGood,Verdict.mapGood,fieldGood]
  constructor
  · rintro ⟨_,tokens,⟨_,grammar,⟨_,legend,⟨logging,first,rfl⟩,second,rfl⟩,third,rfl⟩,fourth,rfl⟩
    exact ⟨first,second,third,fourth⟩
  · rintro ⟨first,second,third,fourth⟩
    exact ⟨_,_,⟨_,_,⟨_,_,⟨_,first,rfl⟩,second,rfl⟩,third,rfl⟩,fourth,rfl⟩

theorem loggingGood {found : Option Value} (mapped : Mapping found) {s : LoggingSettings} :
    Resolves (checkLogging homes) {} found s ↔ LoggingResolved homes (fun key => fieldOf key found) s := by
  refine sectionGood (fun look => LoggingResolved homes look s) mapped ?_ ?_
  · constructor
    · rintro rfl
      exact ⟨rfl,rfl⟩
    · rintro ⟨level,outputs⟩
      cases s
      cases level
      cases outputs
      rfl
  · intro sub
    exact loggingEntries

theorem legendGood {found : Option Value} (mapped : Mapping found) {s : LegendSettings} :
    Resolves checkLegend {} found s ↔ LegendResolved (fun key => fieldOf key found) s := by
  refine sectionGood (fun look => LegendResolved look s) mapped ?_ ?_
  · constructor
    · rintro rfl
      exact ⟨rfl,rfl⟩
    · rintro ⟨types,modifiers⟩
      cases s
      cases types
      cases modifiers
      rfl
  · intro sub
    exact legendEntries

theorem grammarGood {found : Option Value} (mapped : Mapping found) {s : GrammarSettings} :
    Resolves checkGrammar {} found s ↔ GrammarResolved (fun key => fieldOf key found) s := by
  refine sectionGood (fun look => GrammarResolved look s) mapped ?_ ?_
  · constructor
    · rintro rfl
      exact ⟨rfl,rfl,rfl⟩
    · rintro ⟨module,languageFunc,queries⟩
      cases s
      cases module
      cases languageFunc
      cases queries
      rfl
  · intro sub
    exact grammarEntries

theorem tokensGood {found : Option Value} (mapped : Mapping found) {s : TokenSettings} :
    Resolves checkTokens {} found s ↔ TokensResolved (fun key => fieldOf key found) s := by
  refine sectionGood (fun look => TokensResolved look s) mapped ?_ ?_
  · constructor
    · rintro rfl
      exact ⟨rfl,rfl,rfl⟩
    · rintro ⟨maxLength,strict,reversed⟩
      cases s
      cases maxLength
      cases strict
      cases reversed
      rfl
  · intro sub
    exact tokensEntries

theorem sectionsGood (mapped : ∀ name ∈ sectionNames, Mapping (Table.get? (.text name) es)) :
    checkSections homes es = .good s ↔ Resolved homes (fun name key => fieldOf key (Table.get? (.text name) es)) s := by
  rw [sectionsEntries]
  constructor
  · rintro ⟨logging,legend,grammar,tokens⟩
    exact ⟨(loggingGood (mapped "logging" (by decide))).mp logging,(legendGood (mapped "legend" (by decide))).mp legend,
      (grammarGood (mapped "grammar" (by decide))).mp grammar,(tokensGood (mapped "tokens" (by decide))).mp tokens⟩
  · rintro ⟨logging,legend,grammar,tokens⟩
    exact ⟨(loggingGood (mapped "logging" (by decide))).mpr logging,(legendGood (mapped "legend" (by decide))).mpr legend,
      (grammarGood (mapped "grammar" (by decide))).mpr grammar,(tokensGood (mapped "tokens" (by decide))).mpr tokens⟩

theorem keysGood : checkKeys es = .good () ↔ ∀ key ∈ Table.keys es, isSection key = true := by
  have none : (es.filter fun e => !isSection e.1) = [] ↔ ∀ key ∈ Table.keys es, isSection key = true := by
    simp only [List.filter_eq_nil_iff,Table.keys,List.forall_mem_map,Bool.not_eq_true',Bool.not_eq_false]
  rw [← none,checkKeys]
  cases es.filter fun e => !isSection e.1 <;> simp

theorem keysTight : (checkKeys es).Tight := by
  unfold checkKeys
  cases es.filter fun e => !isSection e.1 <;> simp [Verdict.Tight]

def verdict (homes : Homes) (es : Value.Entries) : Verdict Settings :=
  ((checkSections homes es).map fun s _ => s).also (checkKeys es)

theorem verdictTight (homes : Homes) (es : Value.Entries) : (verdict homes es).Tight :=
  Verdict.alsoTight (Verdict.mapFair (sectionsFair homes es) _).tight keysTight

theorem ofEntriesGood : ofEntries homes es = .ok s ↔
    checkSections homes es = .good s ∧ ∀ key ∈ Table.keys es, isSection key = true := by
  have good : verdict homes es = .good s ↔
      checkSections homes es = .good s ∧ ∀ key ∈ Table.keys es, isSection key = true := by
    rw [← keysGood,verdict,Verdict.alsoGood]
    constructor
    · rintro ⟨g,a,first,second,rfl⟩
      obtain ⟨s,passed,rfl⟩ := Verdict.mapGood.mp first
      exact ⟨passed,second⟩
    · rintro ⟨passed,second⟩
      exact ⟨_,(),Verdict.mapGood.mpr ⟨s,passed,rfl⟩,second,rfl⟩
  have tight := verdictTight homes es
  rw [← good,ofEntries,← verdict]
  generalize verdict homes es = whole at tight ⊢
  cases whole with
  | good a => simp
  | stopped cause => simp
  | bad found =>
    cases found with
    | nil => exact absurd rfl tight
    | cons i rest => simp

theorem lengthChecked {v : Value} {n : Int} (passed : checkMaxLength v = .good n) : 1 ≤ n ∧ n ≤ maxTokenLength := by
  obtain ⟨m,_,bounded⟩ := Verdict.andThenGood.mp passed
  split at bounded
  · cases Verdict.good.inj bounded
    assumption
  · contradiction

theorem tokensBounded {v : Value} {t : TokenSettings} (passed : checkTokens v = .good t) :
    1 ≤ t.maxLength ∧ t.maxLength ≤ maxTokenLength := by
  obtain ⟨es,rfl⟩ := sectionMapped passed
  exact resolvesHolds (fun n : Int => 1 ≤ n ∧ n ≤ maxTokenLength) (by decide) (fun _ _ => lengthChecked)
    (tokensEntries.mp passed).maxLength

theorem loadedBounded {tools : Tools} {fs : Files} {env : Environment} {search : Search} {given : Value.Fields}
    (loaded : load tools fs env search given = .ok s) : 1 ≤ s.tokens.maxLength ∧ s.tokens.maxLength ≤ maxTokenLength := by
  obtain ⟨layers,_,loaded⟩ := bindOk.mp loaded
  exact resolvesHolds (fun t : TokenSettings => 1 ≤ t.maxLength ∧ t.maxLength ≤ maxTokenLength) (by decide)
    (fun _ _ => tokensBounded) (sectionsEntries.mp (ofEntriesGood.mp loaded).1).tokens

end
end Tinct.Settings
