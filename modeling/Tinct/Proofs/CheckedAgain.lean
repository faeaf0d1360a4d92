import Tinct.Proofs.ReducedPaths
import Tinct.Proofs.LegendRefusals

/-! Settings that passed their check pass it again, written out with every field, and come out the same. Whatever was
accepted, numbers and truth values as texts, paths with homes and needless parts, absent fields, what it stands for is
accepted as it is. -/
namespace Tinct.Settings

def Settles {α : Type} (check : Value → Verdict α) (write : α → Value) : Prop :=
  ∀ v a, check v = .good a → check (write a) = .good a

def Destination (d : String) : Prop :=
  d = "stderr" ∨ d = "stdout" ∨ ∃ p : Path, p.Reduced ∧ p.isAbsolute = true ∧ d = p.text

structure OutputResolved (homes : Homes) (look : String → Option Value) (s : OutputSettings) : Prop where
  format : Resolves (checkChoice [("json",.json),("console",.console)]) ({} : OutputSettings).format (look "format") s.format
  destination : Resolves (checkDestination homes) ({} : OutputSettings).destination (look "destination") s.destination
  level : Resolves checkLevel? ({} : OutputSettings).level (look "level") s.level

structure Sound (s : Settings) : Prop where
  length : 1 ≤ s.tokens.maxLength ∧ s.tokens.maxLength ≤ 65535
  types : s.legend.types ≠ [] ∧ s.legend.types.Nodup
  modifiers : s.legend.modifiers.Nodup
  queries : s.grammar.queries ≠ []
  destinations : ∀ o ∈ s.logging.outputs,
    o.destination = "stderr" ∨ o.destination = "stdout" ∨ ∃ rest, o.destination = "/" ++ rest

section
variable {α : Type} {check : Value → Verdict α} {write : α → Value} {homes : Homes} {v : Value}

theorem listSettles (settles : Settles check write) : Settles (checkList check) fun found => .list (found.map write) := by
  intro v found passed
  refine itemsWritten ?_ 0
  intro a member
  obtain ⟨w,own⟩ := listSource passed a member
  exact settles w a own

theorem queriesGood {sources : List String} :
    checkQueries v = .good sources ↔ checkList checkText v = .good sources ∧ sources ≠ [] := by
  rw [checkQueries,Verdict.andThenGood]
  constructor
  · rintro ⟨read,listed,passed⟩
    split at passed
    · contradiction
    · rename_i some
      cases Verdict.good.inj passed
      exact ⟨listed,by simpa using some⟩
  · rintro ⟨listed,some⟩
    exact ⟨sources,listed,if_neg (by simpa using some)⟩

theorem queriesSettle : Settles checkQueries namesValue := by
  intro v sources passed
  exact queriesGood.mpr ⟨namesChecked sources,(queriesGood.mp passed).2⟩

theorem lengthSettles : Settles checkMaxLength .int := by
  intro v n passed
  rw [checkMaxLength,checkInt,Verdict.andThen,if_pos (lengthChecked passed)]

theorem levelRead (l : Level) : checkChoice levels l.value = .good l := by cases l <;> rfl

theorem levelsRead (l : Option Level) : checkLevel? ((l.map Level.value).getD .null) = .good l := by
  cases l with
  | none => rfl
  | some l => cases l <;> rfl

theorem destinationGood {d : String} (passed : checkDestination homes v = .good d) : Destination d := by
  obtain ⟨s,_,passed⟩ := Verdict.andThenGood.mp passed
  split at passed
  · rename_i stream
    cases Verdict.good.inj passed
    exact stream.elim .inl fun out => .inr (.inl out)
  · split at passed
    · contradiction
    · rename_i p expanded
      split at passed
      · rename_i absolute
        exact .inr (.inr ⟨p,Path.expandReduced (Path.ofStringReduced s) expanded,absolute,(Verdict.good.inj passed).symm⟩)
      · contradiction

theorem destinationRead {d : String} (kept : Destination d) : checkDestination homes (.text d) = .good d := by
  rw [checkDestination,checkText,Verdict.andThen]
  rcases kept with rfl | rfl | ⟨p,reduced,absolute,rfl⟩
  · rfl
  · rfl
  · rw [Path.textRead reduced absolute,Path.expandAbsolute absolute]
    simp only [absolute,if_true,ite_self]

theorem destinationSettles : Settles (checkDestination homes) .text := fun _ _ passed => destinationRead (destinationGood passed)

theorem destinationKnown {d : String} (kept : Destination d) : d = "stderr" ∨ d = "stdout" ∨ ∃ rest, d = "/" ++ rest := by
  rcases kept with stream | stream | ⟨p,reduced,absolute,rfl⟩
  · exact .inl stream
  · exact .inr (.inl stream)
  · exact .inr (.inr (Path.textSlash reduced absolute))

theorem outputEntries {es : Value.Entries} {s : OutputSettings} :
    checkOutput homes (.map es) = .good s ↔ OutputResolved homes (fun key => Table.get? (.text key) es) s := by
  simp only [checkOutput,ofSection,Verdict.alsoGood,Verdict.mapGood,fieldGood]
  constructor
  · rintro ⟨_,level,⟨_,destination,⟨format,first,rfl⟩,second,rfl⟩,third,rfl⟩
    exact ⟨first,second,third⟩
  · rintro ⟨first,second,third⟩
    exact ⟨_,_,⟨_,_,⟨_,first,rfl⟩,second,rfl⟩,third,rfl⟩

theorem fieldSettles {default a : α} {found : Option Value} (settles : Settles check write)
    (own : check (write default) = .good default) (resolves : Resolves check default found a) : check (write a) = .good a :=
  resolvesHolds (fun a => check (write a) = .good a) own settles resolves

theorem outputSettles : Settles (checkOutput homes) OutputSettings.value := by
  intro v s passed
  obtain ⟨es,rfl⟩ := sectionMapped passed
  obtain ⟨_,destination,_⟩ := outputEntries.mp passed
  refine outputEntries.mpr ⟨?_,fieldSettles destinationSettles rfl destination,levelsRead s.level⟩
  rcases s with ⟨_ | _,_,_⟩ <;> rfl

theorem loggingSettles : Settles (checkLogging homes) LoggingSettings.value := by
  intro v s passed
  obtain ⟨es,rfl⟩ := sectionMapped passed
  obtain ⟨_,outputs⟩ := loggingEntries.mp passed
  exact loggingEntries.mpr ⟨levelRead s.level,fieldSettles (listSettles outputSettles) rfl outputs⟩

theorem legendSettles : Settles checkLegend LegendSettings.value := by
  intro v s passed
  exact legendRead.mpr ⟨rfl,legendOrderly passed⟩

theorem grammarSettles : Settles checkGrammar GrammarSettings.value := by
  intro v s passed
  obtain ⟨es,rfl⟩ := sectionMapped passed
  obtain ⟨_,_,queries⟩ := grammarEntries.mp passed
  exact grammarEntries.mpr ⟨rfl,rfl,fieldSettles queriesSettle rfl queries⟩

theorem tokensSettle : Settles checkTokens TokenSettings.value := by
  intro v s passed
  obtain ⟨es,rfl⟩ := sectionMapped passed
  obtain ⟨maxLength,_,_⟩ := tokensEntries.mp passed
  refine tokensEntries.mpr ⟨fieldSettles lengthSettles rfl maxLength,rfl,?_⟩
  rcases s with ⟨_,_,_ | _⟩ <;> rfl

theorem sectionsSettle {es : Value.Entries} {s : Settings} (passed : checkSections homes es = .good s) :
    Settings.check homes s.value = .good s := by
  obtain ⟨logging,legend,grammar,tokens⟩ := sectionsEntries.mp passed
  have own : checkLegend ({} : LegendSettings).value = .good {} :=
    legendRead.mpr ⟨rfl,Legend.standard.someType,Legend.standard.typesNodup,Legend.standard.modifiersNodup⟩
  exact sectionsEntries.mpr ⟨fieldSettles loggingSettles rfl logging,fieldSettles legendSettles own legend,
    fieldSettles grammarSettles rfl grammar,fieldSettles tokensSettle rfl tokens⟩

theorem queriesSome {s : GrammarSettings} (passed : checkGrammar v = .good s) : s.queries ≠ [] := by
  obtain ⟨es,rfl⟩ := sectionMapped passed
  exact resolvesHolds (fun sources => sources ≠ []) (by decide) (fun _ _ good => (queriesGood.mp good).2)
    (grammarEntries.mp passed).queries

theorem outputDestination {s : OutputSettings} (passed : checkOutput homes v = .good s) : Destination s.destination := by
  obtain ⟨es,rfl⟩ := sectionMapped passed
  exact resolvesHolds Destination (.inl rfl) (fun _ _ => destinationGood) (outputEntries.mp passed).destination

theorem defaultDestinations : ∀ o ∈ ({} : LoggingSettings).outputs, Destination o.destination := by
  intro o member
  rw [List.mem_singleton.mp member]
  exact .inl rfl

theorem outputsDestinations {s : LoggingSettings} (passed : checkLogging homes v = .good s) :
    ∀ o ∈ s.outputs, Destination o.destination := by
  obtain ⟨es,rfl⟩ := sectionMapped passed
  refine resolvesHolds (fun outputs => ∀ o ∈ outputs, Destination o.destination) defaultDestinations ?_
    (loggingEntries.mp passed).outputs
  intro v outputs listed o member
  obtain ⟨w,own⟩ := listSource listed o member
  exact outputDestination own

theorem sectionsSound {es : Value.Entries} {s : Settings} (passed : checkSections homes es = .good s) : Sound s := by
  obtain ⟨logging,_,grammar,tokens⟩ := sectionsEntries.mp passed
  have orderly := sectionsOrderly passed
  refine ⟨?_,⟨orderly.some,orderly.types⟩,orderly.modifiers,?_,?_⟩
  · exact resolvesHolds (fun t : TokenSettings => 1 ≤ t.maxLength ∧ t.maxLength ≤ 65535) (by decide)
      (fun _ _ => tokensBounded) tokens
  · exact resolvesHolds (fun g : GrammarSettings => g.queries ≠ []) (by decide) (fun _ _ => queriesSome) grammar
  · intro o member
    have kept := resolvesHolds (fun s : LoggingSettings => ∀ o ∈ s.outputs, Destination o.destination)
      defaultDestinations (fun _ _ => outputsDestinations) logging
    exact destinationKnown (kept o member)

end

theorem settingsSettle (homes : Homes) :
    Settles (checkOutput homes) OutputSettings.value ∧ Settles (checkLogging homes) LoggingSettings.value ∧
    Settles checkLegend LegendSettings.value ∧ Settles checkGrammar GrammarSettings.value ∧
    Settles checkTokens TokenSettings.value ∧ Settles (check homes) Settings.value ∧
    (∀ v s, check homes v = .good s → Sound s) ∧
    ∀ tools fs env search given s, load tools fs env search given = .ok s →
      check ⟨fs.home,fs.accounts⟩ s.value = .good s ∧ Sound s := by
  refine ⟨outputSettles,loggingSettles,legendSettles,grammarSettles,tokensSettle,?_,?_,?_⟩
  · intro v s passed
    obtain ⟨es,rfl⟩ := sectionMapped passed
    exact sectionsSettle passed
  · intro v s passed
    obtain ⟨es,rfl⟩ := sectionMapped passed
    exact sectionsSound passed
  · intro tools fs env search given s loaded
    obtain ⟨layers,_,loaded⟩ := bindOk.mp loaded
    have passed := (ofEntriesGood.mp loaded).1
    exact ⟨sectionsSettle passed,sectionsSound passed⟩

def looseValue : Value :=
  .map [("logging",.map [("outputs",.list [.map [("destination",.text "~/./logs//a.log")]])]),
    ("tokens",.map [("max_token_length",.text " +70.0 "),("strict_types",.text "YES")])]

def tightSettings : Settings :=
  { logging := { outputs := [{ destination := "/home/me/logs/a.log" }] }, tokens := { maxLength := 70, strict := true } }

def slashedHomes : Homes := { home := "/home/me/" }

theorem looseSettled : check slashedHomes looseValue = .good tightSettings ∧
    check slashedHomes tightSettings.value = .good tightSettings ∧ Sound tightSettings := by
  have passed : check slashedHomes looseValue = .good tightSettings := by decide +kernel
  obtain ⟨_,_,_,_,_,settles,sound,_⟩ := settingsSettle slashedHomes
  exact ⟨passed,settles _ _ passed,sound _ _ passed⟩

end Tinct.Settings
