import Tinct.Proofs.NumberedNames
import Tinct.Proofs.IssueOrder
import Tinct.Settings.Write
import Tinct.Session.Basic

/-! Two judges of the same names: the check of settings, and the making of a legend. Both want types, none of them twice, and
modifiers, none of them twice, and keep all names in order. The making stops at its first fault, types before modifiers;
the check lists what is wrong with either field. Where a name is repeated both name the same one. Hence settings that
passed their check always give a session. -/
namespace Tinct

structure LegendSettings.InOrder (s : LegendSettings) : Prop where
  some : s.types ≠ []
  types : s.types.Nodup
  modifiers : s.modifiers.Nodup

inductive LegendFault (s : LegendSettings) : Fault → Prop where
  | empty (none : s.types = []) :
      LegendFault s (.configInvalid "legend.token_types" (.list []) "legend needs at least one token type")
  | type {name} (twice : FirstTwice s.types name) :
      LegendFault s (.configInvalid "legend.token_types" (.text name) "duplicate legend name")
  | modifier {name} (some : s.types ≠ []) (once : s.types.Nodup) (twice : FirstTwice s.modifiers name) :
      LegendFault s (.configInvalid "legend.token_modifiers" (.text name) "duplicate legend name")

inductive LegendIssue (s : LegendSettings) : Issue → Prop where
  | empty (none : s.types = []) :
      LegendIssue s ⟨[.key "token_types"],.refused "Legend needs at least one token type",.list []⟩
  | type {name} (twice : FirstTwice s.types name) :
      LegendIssue s ⟨[.key "token_types"],.refused ("Duplicate legend name: " ++ name),namesValue s.types⟩
  | modifier {name} (twice : FirstTwice s.modifiers name) :
      LegendIssue s ⟨[.key "token_modifiers"],.refused ("Duplicate legend name: " ++ name),namesValue s.modifiers⟩

structure LegendJudged (s : LegendSettings) : Prop where
  made : (∃ l, Legend.ofNames s.types s.modifiers = .ok l) ↔ s.InOrder
  checked : (∃ t, Settings.checkLegend s.value = .good t) ↔ s.InOrder
  keeps : ∀ l, Legend.ofNames s.types s.modifiers = .ok l → l.types = s.types ∧ l.modifiers = s.modifiers
  same : ∀ t, Settings.checkLegend s.value = .good t → t = s
  refused : ∀ f, Legend.ofNames s.types s.modifiers = .error f ↔ LegendFault s f
  listed : ∀ i, i ∈ (Settings.checkLegend s.value).issues ↔ LegendIssue s i
  typeNamed : ∀ name,
    Legend.ofNames s.types s.modifiers = .error (.configInvalid "legend.token_types" (.text name) "duplicate legend name") ↔
    ⟨[.key "token_types"],.refused ("Duplicate legend name: " ++ name),namesValue s.types⟩ ∈
      (Settings.checkLegend s.value).issues
  modifierNamed : s.types ≠ [] → s.types.Nodup → ∀ name,
    Legend.ofNames s.types s.modifiers =
      .error (.configInvalid "legend.token_modifiers" (.text name) "duplicate legend name") ↔
    ⟨[.key "token_modifiers"],.refused ("Duplicate legend name: " ++ name),namesValue s.modifiers⟩ ∈
      (Settings.checkLegend s.value).issues

namespace Legend
variable {names types modifiers : List String} {name : String}

theorem ofNamesRefused {f : Fault} {s : LegendSettings} : ofNames s.types s.modifiers = .error f ↔ LegendFault s f := by
  unfold ofNames
  split
  · rename_i none
    constructor
    · rintro ⟨⟩
      exact .empty none
    · intro fault
      cases fault with
      | empty => rfl
      | type twice =>
        obtain ⟨before,after,split,_⟩ := none ▸ twice
        simp at split
      | modifier some => exact absurd none some
  · rename_i some
    split
    · rename_i n found
      constructor
      · rintro ⟨⟩
        exact .type (indexTwice.mp found)
      · intro fault
        cases fault with
        | empty none => exact absurd none some
        | type twice => rw [Index.twice.inj (found.symm.trans (indexTwice.mpr twice))]; rfl
        | modifier _ once => rw [indexTable.mpr ⟨once,rfl⟩] at found; contradiction
    · rename_i once
      split
      · rename_i n found
        constructor
        · rintro ⟨⟩
          exact .modifier some (indexTable.mp once).1 (indexTwice.mp found)
        · intro fault
          cases fault with
          | empty none => exact absurd none some
          | type twice => rw [indexTwice.mpr twice] at once; contradiction
          | modifier _ _ twice => rw [Index.twice.inj (found.symm.trans (indexTwice.mpr twice))]; rfl
      · rename_i none
        constructor
        · intro made
          contradiction
        · intro fault
          cases fault with
          | empty none => exact absurd none some
          | type twice => rw [indexTwice.mpr twice] at once; contradiction
          | modifier _ _ twice => rw [indexTwice.mpr twice] at none; contradiction

theorem ofNamesMade {s : LegendSettings} : (∃ l, ofNames s.types s.modifiers = .ok l) ↔ s.InOrder := by
  constructor
  · rintro ⟨l,made⟩
    obtain ⟨types,modifiers⟩ := ofNamesOk.mp made
    exact ⟨types ▸ l.someType,types ▸ l.typesNodup,modifiers ▸ l.modifiersNodup⟩
  · rintro ⟨some,once,modifiers⟩
    exact ⟨⟨s.types,s.modifiers,_,_,some,indexTable.mpr ⟨once,rfl⟩,indexTable.mpr ⟨modifiers,rfl⟩⟩,ofNamesOk.mpr ⟨rfl,rfl⟩⟩

end Legend

namespace Settings
variable {v : Value} {names found : List String} {i : Issue}

theorem namesChecked (names : List String) : checkList checkText (namesValue names) = .good names := by
  have each : ∀ name ∈ names, checkText (.text name) = .good name := fun _ _ => rfl
  exact itemsWritten each 0

theorem distinctGood : checkDistinct v names = .good found ↔ found = names ∧ names.Nodup := by
  unfold checkDistinct
  split
  · rename_i n repeated
    simp [Verdict.issue,← repeatNone,repeated]
  · rename_i none
    simp [repeatNone.mp none,eq_comm]

theorem typesGood : checkTypes v = .good names ↔ checkList checkText v = .good names ∧ names ≠ [] ∧ names.Nodup := by
  rw [checkTypes,Verdict.andThenGood]
  constructor
  · rintro ⟨read,listed,passed⟩
    split at passed
    · contradiction
    · rename_i some
      obtain ⟨rfl,once⟩ := distinctGood.mp passed
      exact ⟨listed,by simpa using some,once⟩
  · rintro ⟨listed,some,once⟩
    refine ⟨names,listed,?_⟩
    rw [if_neg (by simpa using some)]
    exact distinctGood.mpr ⟨rfl,once⟩

theorem modifiersGood : checkModifiers v = .good names ↔ checkList checkText v = .good names ∧ names.Nodup := by
  rw [checkModifiers,Verdict.andThenGood]
  constructor
  · rintro ⟨read,listed,passed⟩
    obtain ⟨rfl,once⟩ := distinctGood.mp passed
    exact ⟨listed,once⟩
  · rintro ⟨listed,once⟩
    exact ⟨names,listed,distinctGood.mpr ⟨rfl,once⟩⟩

theorem distinctIssues : i ∈ (checkDistinct v names).issues ↔
    ∃ name, FirstTwice names name ∧ i = ⟨[],.refused ("Duplicate legend name: " ++ name),v⟩ := by
  simp only [← repeatIff]
  unfold checkDistinct
  split
  · rename_i n repeated
    simp [repeated,Verdict.issue,Verdict.issues]
  · rename_i none
    simp [none,Verdict.issues]

theorem typesIssues : i ∈ (checkTypes (namesValue names)).issues ↔
    (names = [] ∧ i = ⟨[],.refused "Legend needs at least one token type",.list []⟩) ∨
    ∃ name, FirstTwice names name ∧ i = ⟨[],.refused ("Duplicate legend name: " ++ name),namesValue names⟩ := by
  rw [checkTypes,namesChecked,Verdict.andThen]
  split
  · rename_i none
    have empty : names = [] := by simpa using none
    subst empty
    simp [Verdict.issue,Verdict.issues,FirstTwice,namesValue]
  · rename_i some
    have filled : names ≠ [] := by simpa using some
    simp [distinctIssues,filled]

theorem modifiersIssues : i ∈ (checkModifiers (namesValue names)).issues ↔
    ∃ name, FirstTwice names name ∧ i = ⟨[],.refused ("Duplicate legend name: " ++ name),namesValue names⟩ := by
  rw [checkModifiers,namesChecked,Verdict.andThen,distinctIssues]

theorem legendOrderly {s : LegendSettings} (passed : checkLegend v = .good s) : s.InOrder := by
  obtain ⟨es,rfl⟩ := sectionMapped passed
  obtain ⟨types,modifiers⟩ := legendEntries.mp passed
  have first := resolvesHolds (fun names => names ≠ [] ∧ names.Nodup)
    ⟨Legend.standard.someType,Legend.standard.typesNodup⟩ (fun _ _ good => (typesGood.mp good).2) types
  have second := resolvesHolds List.Nodup (by decide) (fun _ _ good => (modifiersGood.mp good).2) modifiers
  exact ⟨first.1,first.2,second⟩

theorem legendRead {s t : LegendSettings} : checkLegend s.value = .good t ↔ t = s ∧ s.InOrder := by
  have fields : checkLegend s.value = .good t ↔
      checkTypes (namesValue s.types) = .good t.types ∧ checkModifiers (namesValue s.modifiers) = .good t.modifiers := by
    rw [LegendSettings.value,legendEntries]
    exact ⟨fun read => ⟨read.types,read.modifiers⟩,fun read => ⟨read.1,read.2⟩⟩
  rw [fields,typesGood,modifiersGood,namesChecked,namesChecked]
  simp only [Verdict.good.injEq]
  constructor
  · rintro ⟨⟨types,some,once⟩,modifiers,twice⟩
    cases s
    cases t
    cases types
    cases modifiers
    exact ⟨rfl,some,once,twice⟩
  · rintro ⟨rfl,some,once,twice⟩
    exact ⟨⟨rfl,some,once⟩,rfl,twice⟩

theorem underFound {es : Value.Entries} {key : String} (found : Table.get? (.text key) es = some v) (wrong : Value → List Issue) :
    issuesUnder es key wrong = (wrong v).map (Issue.under (.key key)) := by
  rw [issuesUnder,found,Option.elim_some]

theorem legendListed {s : LegendSettings} : i ∈ (checkLegend s.value).issues ↔ LegendIssue s i := by
  have fields : i ∈ (checkLegend s.value).issues ↔
      (∃ j ∈ (checkTypes (namesValue s.types)).issues, j.under (.key "token_types") = i) ∨
      ∃ j ∈ (checkModifiers (namesValue s.modifiers)).issues, j.under (.key "token_modifiers") = i := by
    rw [legendIssues,LegendSettings.value,SectionCheck.issues,legendFields]
    simp only [List.flatMap_cons,List.flatMap_nil,List.append_nil,List.mem_append]
    rw [underFound rfl,underFound rfl,List.mem_map,List.mem_map]
  simp only [fields,typesIssues,modifiersIssues]
  constructor
  · rintro (⟨_,⟨none,rfl⟩ | ⟨name,twice,rfl⟩,rfl⟩ | ⟨_,⟨name,twice,rfl⟩,rfl⟩)
    · exact .empty none
    · exact .type twice
    · exact .modifier twice
  · intro issue
    cases issue with
    | empty none => exact .inl ⟨_,.inl ⟨none,rfl⟩,rfl⟩
    | type twice => exact .inl ⟨_,.inr ⟨_,twice,rfl⟩,rfl⟩
    | modifier twice => exact .inr ⟨_,⟨_,twice,rfl⟩,rfl⟩

end Settings

section
variable {s : LegendSettings} {name : String}

theorem typeFault : LegendFault s (.configInvalid "legend.token_types" (.text name) "duplicate legend name") ↔
    FirstTwice s.types name := by
  refine ⟨?_,.type⟩
  generalize same : Fault.configInvalid "legend.token_types" (.text name) "duplicate legend name" = f
  intro fault
  cases fault with
  | empty | modifier => simp at same
  | type twice =>
    simp only [Fault.configInvalid.injEq,Value.text.injEq,true_and,and_true] at same
    exact same ▸ twice

theorem modifierFault : LegendFault s (.configInvalid "legend.token_modifiers" (.text name) "duplicate legend name") ↔
    s.types ≠ [] ∧ s.types.Nodup ∧ FirstTwice s.modifiers name := by
  refine ⟨?_,fun fault => .modifier fault.1 fault.2.1 fault.2.2⟩
  generalize same : Fault.configInvalid "legend.token_modifiers" (.text name) "duplicate legend name" = f
  intro fault
  cases fault with
  | empty | type => simp at same
  | modifier some once twice =>
    simp only [Fault.configInvalid.injEq,Value.text.injEq,true_and,and_true] at same
    exact ⟨some,once,same ▸ twice⟩

theorem typeIssue :
    LegendIssue s ⟨[.key "token_types"],.refused ("Duplicate legend name: " ++ name),namesValue s.types⟩ ↔
    FirstTwice s.types name := by
  refine ⟨?_,.type⟩
  generalize same : Issue.mk [.key "token_types"] (.refused ("Duplicate legend name: " ++ name)) (namesValue s.types) = i
  intro issue
  cases issue with
  | empty =>
    have first := congrArg (fun t : String => t.toList.head?) (IssueKind.refused.inj (Issue.mk.inj same).2.1)
    simp at first
  | type twice =>
    simp only [Issue.mk.injEq,IssueKind.refused.injEq,String.append_right_inj,true_and,and_true] at same
    exact same ▸ twice
  | modifier => simp at same

theorem modifierIssue :
    LegendIssue s ⟨[.key "token_modifiers"],.refused ("Duplicate legend name: " ++ name),namesValue s.modifiers⟩ ↔
    FirstTwice s.modifiers name := by
  refine ⟨?_,.modifier⟩
  generalize same :
    Issue.mk [.key "token_modifiers"] (.refused ("Duplicate legend name: " ++ name)) (namesValue s.modifiers) = i
  intro issue
  cases issue with
  | empty | type => simp at same
  | modifier twice =>
    simp only [Issue.mk.injEq,IssueKind.refused.injEq,String.append_right_inj,true_and,and_true] at same
    exact same ▸ twice

theorem legendJudged (s : LegendSettings) : LegendJudged s where
  made := Legend.ofNamesMade
  checked := by
    constructor
    · rintro ⟨t,read⟩
      exact (Settings.legendRead.mp read).2
    · intro orderly
      exact ⟨s,Settings.legendRead.mpr ⟨rfl,orderly⟩⟩
  keeps := fun l => Legend.ofNamesOk.mp
  same := fun t read => (Settings.legendRead.mp read).1
  refused := fun f => Legend.ofNamesRefused
  listed := fun i => Settings.legendListed
  typeNamed := by
    intro name
    rw [Legend.ofNamesRefused,Settings.legendListed,typeFault,typeIssue]
  modifierNamed := by
    intro some once name
    rw [Legend.ofNamesRefused,Settings.legendListed,modifierFault,modifierIssue]
    exact ⟨fun fault => fault.2.2,fun twice => ⟨some,once,twice⟩⟩

end

section
variable {s : Settings} {homes : Settings.Homes}

theorem newSession (orderly : s.legend.InOrder) : ∃ session, Session.new s = .ok session ∧
    session.legend.types = s.legend.types ∧ session.legend.modifiers = s.legend.modifiers := by
  obtain ⟨l,made⟩ := Legend.ofNamesMade.mpr orderly
  exact ⟨{ settings := s, legend := l },by rw [Session.new,made]; rfl,Legend.ofNamesOk.mp made⟩

theorem sectionsOrderly {es : Value.Entries} (passed : Settings.checkSections homes es = .good s) : s.legend.InOrder :=
  Settings.resolvesHolds LegendSettings.InOrder
    ⟨Legend.standard.someType,Legend.standard.typesNodup,Legend.standard.modifiersNodup⟩
    (fun _ _ => Settings.legendOrderly) (Settings.sectionsEntries.mp passed).legend

end

theorem legendsAgree : (∀ s, LegendJudged s) ∧
    (∀ homes v s, Settings.check homes v = .good s → ∃ session, Session.new s = .ok session ∧
      session.legend.types = s.legend.types ∧ session.legend.modifiers = s.legend.modifiers) ∧
    ∀ tools fs env search given s, Settings.load tools fs env search given = .ok s → ∃ session, Session.new s = .ok session ∧
      session.legend.types = s.legend.types ∧ session.legend.modifiers = s.legend.modifiers := by
  refine ⟨legendJudged,?_,?_⟩
  · intro homes v s passed
    obtain ⟨es,rfl⟩ := Settings.sectionMapped passed
    exact newSession (sectionsOrderly passed)
  · intro tools fs env search given s loaded
    obtain ⟨layers,_,loaded⟩ := bindOk.mp loaded
    exact newSession (sectionsOrderly (Settings.ofEntriesGood.mp loaded).1)

def twiceNames : LegendSettings := ⟨["a","b","b","a"],["x","x"]⟩

theorem twiceRefused :
    Legend.ofNames twiceNames.types twiceNames.modifiers =
      .error (.configInvalid "legend.token_types" (.text "b") "duplicate legend name") ∧
    ⟨[.key "token_types"],.refused "Duplicate legend name: b",namesValue twiceNames.types⟩ ∈
      (Settings.checkLegend twiceNames.value).issues ∧
    ⟨[.key "token_modifiers"],.refused "Duplicate legend name: x",namesValue twiceNames.modifiers⟩ ∈
      (Settings.checkLegend twiceNames.value).issues ∧
    Settings.check {} (.map []) = .good {} ∧ ∃ session, Session.new {} = .ok session := by
  have judged := legendsAgree.1 twiceNames
  have type : FirstTwice twiceNames.types "b" := ⟨["a","b"],["a"],rfl,by decide,by decide⟩
  have modifier : FirstTwice twiceNames.modifiers "x" := ⟨["x"],[],rfl,by decide,by decide⟩
  have passed : Settings.check {} (.map []) = .good {} := rfl
  obtain ⟨session,made,_⟩ := legendsAgree.2.1 {} (.map []) {} passed
  exact ⟨(judged.refused _).mpr (.type type),(judged.listed _).mpr (.type type),(judged.listed _).mpr (.modifier modifier),
    passed,session,made⟩

end Tinct
