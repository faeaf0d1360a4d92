import Tinct.Settings.Check

/-! Verdicts taken apart: what passes, what is wrong and what stops the checking. A verdict that is built from others
passes when they all pass, lists their issues in order, and stops when one of them stops. The check of every field is
fair: where it refuses a value it names an issue, and the place of an issue is the place of the value it is about. -/
namespace Tinct

def Place.inside? : Place → Value → Option Value
  | .key k,v => v.get? k
  | .index n,v => v.items?.bind fun items => items[n]?

def Value.at? : List Place → Value → Option Value
  | [],v => some v
  | place::rest,v => (place.inside? v).bind (at? rest)

def Issue.under (place : Place) (i : Issue) : Issue := { i with place := place::i.place }

namespace Verdict
variable {α β : Type}

def issues : Verdict α → List Issue
  | bad found => found
  | good _ | stopped _ => []

def stop? : Verdict α → Option Failure
  | stopped cause => some cause
  | good _ | bad _ => none

def Tight (x : Verdict α) : Prop := x ≠ .bad []

def Placed (v : Value) (x : Verdict α) : Prop := ∀ i ∈ x.issues, v.at? i.place = some i.input

structure Fair (v : Value) (x : Verdict α) : Prop where
  tight : x.Tight
  placed : x.Placed v

structure Steady (v : Value) (x : Verdict α) : Prop extends Fair v x where
  goes : x.stop? = none

section
variable {f : Verdict (α → β)} {x : Verdict α} {v : Value}

theorem mapGood {g : α → β} {b : β} : x.map g = .good b ↔ ∃ a, x = .good a ∧ g a = b := by
  cases x <;> simp [map]

theorem alsoGood {b : β} : f.also x = .good b ↔ ∃ g a, f = .good g ∧ x = .good a ∧ g a = b := by
  cases f <;> cases x <;> simp [also]

theorem andThenGood {g : α → Verdict β} {b : β} : x.andThen g = .good b ↔ ∃ a, x = .good a ∧ g a = .good b := by
  cases x <;> simp [andThen]

theorem underGood {place : Place} {a : α} : x.under place = .good a ↔ x = .good a := by
  cases x <;> simp [under]

theorem mapStop (g : α → β) : (x.map g).stop? = x.stop? := by cases x <;> rfl

theorem alsoStop : (f.also x).stop? = f.stop?.or x.stop? := by cases f <;> cases x <;> rfl

theorem underStop (place : Place) : (x.under place).stop? = x.stop? := by cases x <;> rfl

theorem mapIssues (g : α → β) : (x.map g).issues = x.issues := by cases x <;> rfl

theorem alsoIssues (first : f.stop? = none) (second : x.stop? = none) : (f.also x).issues = f.issues ++ x.issues := by
  cases f with
  | stopped cause => contradiction
  | bad found =>
    cases x with
    | stopped cause => contradiction
    | bad more => rfl
    | good a => exact (List.append_nil found).symm
  | good g =>
    cases x with
    | stopped cause => contradiction
    | bad more => rfl
    | good a => rfl

theorem underIssues (place : Place) : (x.under place).issues = x.issues.map (Issue.under place) := by cases x <;> rfl

theorem issueSteady (kind : IssueKind) (v : Value) : (issue kind v : Verdict α).Steady v where
  tight := by simp [Tight,issue]
  placed := fun i member => by
    rw [List.mem_singleton.mp member]
    rfl
  goes := rfl

theorem goodSteady (a : α) (v : Value) : (good a).Steady v := ⟨⟨by simp [Tight],nofun⟩,rfl⟩

theorem mapFair (fair : x.Fair v) (g : α → β) : (x.map g).Fair v where
  tight := by
    cases x with
    | bad found => exact fun same => fair.tight (congrArg bad (Verdict.bad.inj same))
    | _ => simp [Tight,map]
  placed := by
    rw [Placed,mapIssues]
    exact fair.placed

theorem alsoListed {i : Issue} (member : i ∈ (f.also x).issues) : i ∈ f.issues ∨ i ∈ x.issues := by
  cases f with
  | stopped cause => contradiction
  | bad found =>
    cases x with
    | stopped cause => contradiction
    | bad more => exact List.mem_append.mp member
    | good a => exact .inl member
  | good g =>
    cases x with
    | stopped cause => contradiction
    | bad more => exact .inr member
    | good a => contradiction

theorem alsoTight (first : f.Tight) (second : x.Tight) : (f.also x).Tight := by
  unfold Tight at first second ⊢
  cases f <;> cases x <;> simp_all [also]

theorem alsoFair (first : f.Fair v) (second : x.Fair v) : (f.also x).Fair v where
  tight := alsoTight first.tight second.tight
  placed := fun i member => (alsoListed member).elim (first.placed i) (second.placed i)

theorem underFair {place : Place} {w : Value} (found : place.inside? v = some w) (fair : x.Fair w) :
    (x.under place).Fair v where
  tight := by
    cases x with
    | bad found => exact fun same => fair.tight (congrArg bad (List.map_eq_nil_iff.mp (Verdict.bad.inj same)))
    | _ => simp [Tight,under]
  placed := by
    intro i member
    rw [underIssues] at member
    obtain ⟨inner,listed,rfl⟩ := List.mem_map.mp member
    rw [Issue.under,Value.at?,found]
    exact fair.placed inner listed

theorem mapSteady (steady : x.Steady v) (g : α → β) : (x.map g).Steady v :=
  ⟨mapFair steady.toFair g,(mapStop g).trans steady.goes⟩

theorem alsoSteady (first : f.Steady v) (second : x.Steady v) : (f.also x).Steady v :=
  ⟨alsoFair first.toFair second.toFair,by rw [alsoStop,first.goes,second.goes]; rfl⟩

theorem andThenSteady {g : α → Verdict β} (steady : x.Steady v) (further : ∀ a, (g a).Steady v) :
    (x.andThen g).Steady v := by
  cases x with
  | good a => exact further a
  | bad found => exact ⟨⟨fun same => steady.tight (congrArg bad (Verdict.bad.inj same)),steady.placed⟩,rfl⟩
  | stopped cause => exact absurd steady.goes (by simp [stop?])

end
end Verdict

namespace Settings
open Verdict (Fair Steady)
variable {α : Type}

theorem fieldFair {check : Value → Verdict α} (fair : ∀ v, (check v).Fair v) (es : Value.Entries) (key : String)
    (default : α) : (field es key default check).Fair (.map es) := by
  unfold field
  split
  · exact (Verdict.goodSteady default _).toFair
  · rename_i v found
    exact Verdict.underFair found (fair v)

theorem fieldStop (check : Value → Verdict α) (es : Value.Entries) (key : String) (default : α) :
    (field es key default check).stop? = (Table.get? (.text key) es).bind fun v => (check v).stop? := by
  unfold field
  split
  · rename_i absent
    rw [absent]
    rfl
  · rename_i v found
    rw [found]
    exact Verdict.underStop _

theorem fieldSteady {check : Value → Verdict α} (steady : ∀ v, (check v).Steady v) (es : Value.Entries) (key : String)
    (default : α) : (field es key default check).Steady (.map es) := by
  refine ⟨fieldFair (fun v => (steady v).toFair) es key default,?_⟩
  rw [fieldStop]
  cases Table.get? (.text key) es with
  | none => rfl
  | some v => exact (steady v).goes

theorem sectionFair {title : String} {check : Value.Entries → Verdict α} (fair : ∀ es, (check es).Fair (.map es))
    (v : Value) : (ofSection title check v).Fair v := by
  unfold ofSection
  split
  · exact fair _
  · exact (Verdict.issueSteady _ _).toFair

theorem sectionSteady {title : String} {check : Value.Entries → Verdict α} (steady : ∀ es, (check es).Steady (.map es))
    (v : Value) : (ofSection title check v).Steady v := by
  unfold ofSection
  split
  · exact steady _
  · exact Verdict.issueSteady _ _

theorem textSteady (v : Value) : (checkText v).Steady v := by
  unfold checkText
  split
  · exact Verdict.goodSteady _ _
  · split
    · exact Verdict.goodSteady _ _
    · exact Verdict.issueSteady _ _
  · exact Verdict.issueSteady _ _

-- The items before are kept in the statement, as places count them.
theorem itemsFair {check : Value → Verdict α} (fair : ∀ v, (check v).Fair v) {whole : Value} (before : List Value)
    {items : List Value} (held : whole.items? = some (before ++ items)) : (checkItems check before.length items).Fair whole := by
  induction items generalizing before with
  | nil => exact (Verdict.goodSteady [] _).toFair
  | cons v rest ih =>
    have found : Place.inside? (.index before.length) whole = some v := by
      simp [Place.inside?,held]
    have later := ih (before ++ [v]) (by rw [held,List.append_assoc]; rfl)
    rw [List.length_append] at later
    exact Verdict.alsoFair (Verdict.mapFair (Verdict.underFair found (fair v)) _) later

theorem listFair {check : Value → Verdict α} (fair : ∀ v, (check v).Fair v) (v : Value) : (checkList check v).Fair v := by
  unfold checkList
  split
  · rename_i items held
    exact itemsFair fair [] held
  · exact (Verdict.issueSteady _ _).toFair

theorem itemsStop (check : Value → Verdict α) (index : Nat) (items : List Value) :
    (checkItems check index items).stop? = items.findSome? fun v => (check v).stop? := by
  induction items generalizing index with
  | nil => rfl
  | cons v rest ih =>
    rw [checkItems,Verdict.alsoStop,Verdict.mapStop,Verdict.underStop,ih,List.findSome?_cons]
    cases (check v).stop? <;> rfl

theorem itemsSource {check : Value → Verdict α} {index : Nat} {items : List Value} {found : List α}
    (passed : checkItems check index items = .good found) : ∀ a ∈ found, ∃ v, check v = .good a := by
  induction items generalizing index found with
  | nil =>
    cases Verdict.good.inj passed
    simp
  | cons v rest ih =>
    obtain ⟨_,others,first,later,rfl⟩ := Verdict.alsoGood.mp passed
    obtain ⟨a,own,rfl⟩ := Verdict.mapGood.mp first
    exact List.forall_mem_cons.mpr ⟨⟨v,Verdict.underGood.mp own⟩,ih later⟩

theorem listSource {check : Value → Verdict α} {v : Value} {found : List α} (passed : checkList check v = .good found) :
    ∀ a ∈ found, ∃ w, check w = .good a := by
  unfold checkList at passed
  split at passed
  · exact itemsSource passed
  · contradiction

theorem itemsWritten {check : Value → Verdict α} {write : α → Value} {found : List α}
    (each : ∀ a ∈ found, check (write a) = .good a) (index : Nat) : checkItems check index (found.map write) = .good found := by
  induction found generalizing index with
  | nil => rfl
  | cons a rest ih =>
    obtain ⟨own,later⟩ := List.forall_mem_cons.mp each
    rw [List.map_cons,checkItems,own,ih later]
    rfl

theorem listSteady {check : Value → Verdict α} (steady : ∀ v, (check v).Steady v) (v : Value) :
    (checkList check v).Steady v := by
  refine ⟨listFair (fun v => (steady v).toFair) v,?_⟩
  unfold checkList
  split
  · rw [itemsStop,List.findSome?_eq_none_iff]
    intro v _
    exact (steady v).goes
  · rfl

theorem choiceSteady (choices : List (String × α)) (v : Value) : (checkChoice choices v).Steady v := by
  unfold checkChoice
  split
  · split
    · exact Verdict.goodSteady _ _
    · exact Verdict.issueSteady _ _
  · exact Verdict.issueSteady _ _

theorem intTextSteady (v : Value) (s : String) : (checkIntText v s).Steady v := by
  unfold checkIntText
  split
  · exact Verdict.goodSteady _ _
  · exact Verdict.issueSteady _ _

theorem intSteady (v : Value) : (checkInt v).Steady v := by
  unfold checkInt
  split
  · exact Verdict.goodSteady _ _
  · exact Verdict.goodSteady _ _
  · split
    · split
      · exact Verdict.goodSteady _ _
      · exact Verdict.issueSteady _ _
    · exact Verdict.issueSteady _ _
  · exact intTextSteady _ _
  · split
    · exact intTextSteady _ _
    · exact Verdict.issueSteady _ _
  · exact Verdict.issueSteady _ _

theorem boolTextSteady (v : Value) (s : String) : (checkBoolText v s).Steady v := by
  unfold checkBoolText
  split
  · exact Verdict.goodSteady _ _
  · exact Verdict.issueSteady _ _

theorem boolSteady (v : Value) : (checkBool v).Steady v := by
  unfold checkBool
  split
  · exact Verdict.goodSteady _ _
  · split
    · exact Verdict.goodSteady _ _
    · split
      · exact Verdict.goodSteady _ _
      · exact Verdict.issueSteady _ _
  · split
    · exact Verdict.goodSteady _ _
    · exact Verdict.goodSteady _ _
    · exact Verdict.issueSteady _ _
  · exact boolTextSteady _ _
  · split
    · exact boolTextSteady _ _
    · exact Verdict.issueSteady _ _
  · exact Verdict.issueSteady _ _

theorem levelSteady (v : Value) : (checkLevel? v).Steady v := by
  unfold checkLevel?
  split
  · exact Verdict.goodSteady _ _
  · exact Verdict.mapSteady (choiceSteady levels _) _

theorem distinctSteady (v : Value) (names : List String) : (checkDistinct v names).Steady v := by
  unfold checkDistinct
  split
  · exact Verdict.issueSteady _ _
  · exact Verdict.goodSteady _ _

theorem typesSteady (v : Value) : (checkTypes v).Steady v := by
  refine Verdict.andThenSteady (listSteady textSteady v) ?_
  intro names
  split
  · exact Verdict.issueSteady _ _
  · exact distinctSteady v names

theorem modifiersSteady (v : Value) : (checkModifiers v).Steady v :=
  Verdict.andThenSteady (listSteady textSteady v) (distinctSteady v)

theorem queriesSteady (v : Value) : (checkQueries v).Steady v := by
  refine Verdict.andThenSteady (listSteady textSteady v) ?_
  intro sources
  split
  · exact Verdict.issueSteady _ _
  · exact Verdict.goodSteady _ _

theorem maxLengthSteady (v : Value) : (checkMaxLength v).Steady v := by
  refine Verdict.andThenSteady (intSteady v) ?_
  intro n
  split
  · exact Verdict.goodSteady _ _
  · exact Verdict.issueSteady _ _

theorem legendSteady (v : Value) : (checkLegend v).Steady v :=
  sectionSteady (fun es => Verdict.alsoSteady (Verdict.mapSteady (fieldSteady typesSteady es _ _) _)
    (fieldSteady modifiersSteady es _ _)) v

theorem grammarSteady (v : Value) : (checkGrammar v).Steady v :=
  sectionSteady (fun es => Verdict.alsoSteady (Verdict.alsoSteady (Verdict.mapSteady (fieldSteady textSteady es _ _) _)
    (fieldSteady textSteady es _ _)) (fieldSteady queriesSteady es _ _)) v

theorem tokensSteady (v : Value) : (checkTokens v).Steady v :=
  sectionSteady (fun es => Verdict.alsoSteady (Verdict.alsoSteady (Verdict.mapSteady (fieldSteady maxLengthSteady es _ _) _)
    (fieldSteady boolSteady es _ _)) (fieldSteady (choiceSteady _) es _ _)) v

theorem destinationFair (homes : Homes) (v : Value) : (checkDestination homes v).Fair v := by
  have text := (textSteady v).toFair
  unfold checkDestination
  cases passed : checkText v with
  | good s =>
    simp only [Verdict.andThen]
    split
    · exact (Verdict.goodSteady s v).toFair
    · split
      · exact ⟨by simp [Verdict.Tight],nofun⟩
      · split
        · exact (Verdict.goodSteady _ v).toFair
        · exact (Verdict.issueSteady _ v).toFair
  | bad found =>
    rw [passed] at text
    exact ⟨fun same => text.tight (congrArg Verdict.bad (Verdict.bad.inj same)),text.placed⟩
  | stopped cause => exact ⟨by simp [Verdict.Tight,Verdict.andThen],nofun⟩

theorem outputFair (homes : Homes) (v : Value) : (checkOutput homes v).Fair v :=
  sectionFair (fun es => Verdict.alsoFair (Verdict.alsoFair
    (Verdict.mapFair (fieldSteady (choiceSteady _) es _ _).toFair _) (fieldFair (destinationFair homes) es _ _))
    (fieldSteady levelSteady es _ _).toFair) v

theorem loggingFair (homes : Homes) (v : Value) : (checkLogging homes v).Fair v :=
  sectionFair (fun es => Verdict.alsoFair (Verdict.mapFair (fieldSteady (choiceSteady levels) es _ _).toFair _)
    (fieldFair (listFair (outputFair homes)) es _ _)) v

theorem sectionsFair (homes : Homes) (es : Value.Entries) : (checkSections homes es).Fair (.map es) :=
  Verdict.alsoFair (Verdict.alsoFair (Verdict.alsoFair
    (Verdict.mapFair (fieldFair (loggingFair homes) es _ _) _) (fieldSteady legendSteady es _ _).toFair)
    (fieldSteady grammarSteady es _ _).toFair) (fieldSteady tokensSteady es _ _).toFair

end Settings
end Tinct
