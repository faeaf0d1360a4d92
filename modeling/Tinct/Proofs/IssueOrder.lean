import Tinct.Proofs.CheckedFields

/-! What is reported of merged entries that are not taken. Issues are listed section by section and field by field, then
the keys that name no section; the first of the list is reported, at the place of the value it is about. Only a log file
in the home folder of a user without an account stops the checking, whatever else is wrong. -/
namespace Tinct.Settings
open Value (fieldOf)

structure SectionCheck where
  name : String
  title : String
  fields : List (String × (Value → List Issue))

def legendFields : SectionCheck where
  name := "legend"
  title := "LegendConfig"
  fields := [("token_types",fun v => (checkTypes v).issues),("token_modifiers",fun v => (checkModifiers v).issues)]

def issuesUnder (es : Value.Entries) (key : String) (wrong : Value → List Issue) : List Issue :=
  ((Table.get? (.text key) es).elim [] wrong).map (Issue.under (.key key))

def SectionCheck.issues (c : SectionCheck) : Value → List Issue
  | .map es => c.fields.flatMap fun f => issuesUnder es f.1 f.2
  | v => [⟨[],.notSection c.title,v⟩]

section
variable {α : Type} {homes : Homes} {es : Value.Entries} {cause : Failure}

theorem fieldIssues (check : Value → Verdict α) (es : Value.Entries) (key : String) (default : α) :
    (field es key default check).issues = issuesUnder es key fun v => (check v).issues := by
  unfold field issuesUnder
  cases Table.get? (.text key) es with
  | none => rfl
  | some v => exact Verdict.underIssues _

theorem legendIssues (v : Value) : (checkLegend v).issues = legendFields.issues v := by
  cases v with
  | map es =>
    have types := Verdict.mapSteady (fieldSteady typesSteady es "token_types" Legend.defaultTypes) LegendSettings.mk
    rw [checkLegend,ofSection,Verdict.alsoIssues types.goes (fieldSteady modifiersSteady es _ _).goes,Verdict.mapIssues,
      fieldIssues,fieldIssues]
    simp [SectionCheck.issues,legendFields]
  | _ => rfl

end
end Tinct.Settings
