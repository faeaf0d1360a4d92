import Tinct.Settings.Load
import Tinct.Yaml.Document
import Tinct.Proofs.LayeredValues

/-! The layers that files hold, whatever reads them. Of a reader it is asked that a mapping it gives has each key once, and
that so has every mapping inside; the reader of `Tinct.Yaml` is one that does so. -/
namespace Tinct

namespace Value

structure Distinct (es : Entries) : Prop where
  keys : (Table.keys es).Nodup
  inner : ∀ key sub, Table.get? key es = some (.map sub) → (Table.keys sub).Nodup

theorem emptyDistinct : Distinct [] where
  keys := List.nodup_nil
  inner := fun _ _ found => by contradiction

end Value

namespace Yaml.Node
open Value (Distinct)

theorem scalarValue {kind : Scalar.Kind} {s : String} {v : Value} (read : Scalar.valueAs kind s = .ok v) :
    ∀ es, v ≠ .map es := by
  rintro es rfl
  cases kind with
  | null | text => cases Except.ok.inj read
  | merge | default => contradiction
  | bool | int | float | binary =>
    obtain ⟨a,_,same⟩ := bindOk.mp read
    cases Except.ok.inj same
  | timestamp =>
    rw [Scalar.valueAs,Timestamp.valueOf] at read
    split at read
    · contradiction
    · obtain ⟨_,_,same⟩ := bindOk.mp read
      cases Except.ok.inj same

theorem entriesNodup {fuel : Nat} {acc es : Value.Entries} {entries : List (Node × Node)} (once : (Table.keys acc).Nodup)
    (read : valueEntries fuel acc entries = .ok es) : (Table.keys es).Nodup := by
  induction fuel generalizing acc entries with
  | zero => simp [valueEntries] at read
  | succ fuel ih =>
    cases entries with
    | nil =>
      cases Except.ok.inj read
      exact once
    | cons entry rest =>
      rw [valueEntries] at read
      obtain ⟨key,_,read⟩ := bindOk.mp read
      obtain ⟨v,_,read⟩ := bindOk.mp read
      exact ih (Table.keysPutNodup once key v) read

theorem valueMap {fuel : Nat} {n : Node} {es : Value.Entries} (read : value fuel n = .ok (.map es)) :
    ∃ less entries, valueEntries less [] entries = .ok es := by
  cases fuel with
  | zero => simp [value] at read
  | succ fuel =>
    cases n with
    | scalar tag plain text =>
      rw [value] at read
      obtain ⟨kind,_,read⟩ := bindOk.mp read
      exact absurd rfl (scalarValue read es)
    | list tag items =>
      rw [value] at read
      split at read
      · obtain ⟨_,_,same⟩ := bindOk.mp read
        cases Except.ok.inj same
      · obtain ⟨_,_,read⟩ := bindOk.mp read
        obtain ⟨_,_,same⟩ := bindOk.mp read
        cases Except.ok.inj same
    | map tag entries =>
      rw [value] at read
      obtain ⟨flat,_,read⟩ := bindOk.mp read
      obtain ⟨own,inner,read⟩ := bindOk.mp read
      split at read
      · cases Except.ok.inj read
      · obtain ⟨_,_,same⟩ := bindOk.mp read
        cases Except.ok.inj same
        exact ⟨fuel,flat,inner⟩

theorem entriesDistinct {fuel : Nat} {acc es : Value.Entries} {entries : List (Node × Node)} (distinct : Distinct acc)
    (read : valueEntries fuel acc entries = .ok es) : Distinct es := by
  induction fuel generalizing acc entries with
  | zero => simp [valueEntries] at read
  | succ fuel ih =>
    cases entries with
    | nil =>
      cases Except.ok.inj read
      exact distinct
    | cons entry rest =>
      rw [valueEntries] at read
      obtain ⟨key,_,read⟩ := bindOk.mp read
      obtain ⟨v,below,read⟩ := bindOk.mp read
      refine ih ⟨Table.keysPutNodup distinct.keys key v,?_⟩ read
      intro other sub found
      rw [Table.lookupPut] at found
      split at found
      · cases Option.some.inj found
        obtain ⟨less,more,inner⟩ := valueMap below
        exact entriesNodup Value.emptyDistinct.keys inner
      · exact distinct.inner other sub found

end Yaml.Node

theorem Yaml.parseDistinct {t : Text} {es : Value.Entries} (read : Yaml.parse t = .ok (.map es)) : Value.Distinct es := by
  rw [Yaml.parse] at read
  obtain ⟨tokens,_,read⟩ := bindOk.mp read
  obtain ⟨node,_,read⟩ := bindOk.mp read
  cases node with
  | none => cases Except.ok.inj read
  | some n =>
    obtain ⟨less,entries,inner⟩ := Node.valueMap read
    exact Node.entriesDistinct Value.emptyDistinct inner

-- What is asked of a reader.
def KeysOnce (document : Text → Loaded) : Prop := ∀ t es, document t = .value (.map es) → Value.Distinct es

theorem Yaml.loadOnce (complaint : String) : KeysOnce (Yaml.load complaint) := by
  intro t es read
  unfold Yaml.load at read
  split at read
  · rename_i parsed
    cases Loaded.value.inj read
    exact Yaml.parseDistinct parsed
  · contradiction
  · contradiction

namespace Settings

def plainTools : Tools where
  document := Yaml.load "malformed document"
  spelling := fun _ first _ => ⟨first,List.mem_cons_self⟩
  unnamed := fun _ => ("TypeError","keywords must be strings")
  namesFirst := false

def filesOf (user here : Value.Entries) : Value.Entries := Value.mergeLayers [user,here]

def Named (es : Value.Entries) : Prop := (es.all fun e => e.1.isText) = true

instance (es : Value.Entries) : Decidable (Named es) := inferInstanceAs (Decidable (_ = true))

section
variable {tools : Tools} {fs : Files} {env : Environment} {search : Search} {given : Value.Fields} {es : Value.Entries}
  {layers : Layers}

theorem readLayerDistinct (once : KeysOnce tools.document) {path : Path} (read : readLayer tools fs path = .ok es) :
    Value.Distinct es := by
  rw [readLayer] at read
  split at read
  · cases Except.ok.inj read
    exact Value.emptyDistinct
  · obtain ⟨t,_,read⟩ := bindOk.mp read
    split at read
    · contradiction
    · contradiction
    · cases Except.ok.inj read
      exact Value.emptyDistinct
    · rename_i parsed
      cases Except.ok.inj read
      exact once _ _ parsed
    · contradiction

theorem readHereDistinct (once : KeysOnce tools.document) (read : readHere tools fs search = .ok es) :
    Value.Distinct es := by
  rw [readHere] at read
  split at read
  · exact readLayerDistinct once read
  · split at read
    · exact readLayerDistinct once read
    · contradiction

theorem namesOk {turn : Bool} : requireNames tools turn es = .ok () ↔ (turn = true → Named es) := by
  unfold requireNames Named
  cases turn with
  | false => simp
  | true => cases es.all fun e => e.1.isText <;> simp

-- Whether the names are looked at early or late does not matter to files that pass.
theorem readLayersParts : readLayers tools fs env search given = .ok layers ↔
    readHere tools fs search = .ok layers.here ∧ readLayer tools fs (userFile fs) = .ok layers.user ∧
      ofEnvironment env = .ok layers.environment ∧ Named (filesOf layers.user layers.here) ∧
      layers.given = Value.entries given := by
  rw [readLayers]
  constructor
  · intro read
    obtain ⟨here,first,read⟩ := bindOk.mp read
    obtain ⟨user,second,read⟩ := bindOk.mp read
    obtain ⟨_,early,read⟩ := bindOk.mp read
    obtain ⟨environment,third,read⟩ := bindOk.mp read
    obtain ⟨_,late,read⟩ := bindOk.mp read
    cases Except.ok.inj read
    refine ⟨first,second,third,?_,rfl⟩
    cases turn : tools.namesFirst with
    | true => exact namesOk.mp early turn
    | false => exact namesOk.mp late (by rw [turn]; rfl)
  · rintro ⟨first,second,third,named,same⟩
    have passed : ∀ turn, requireNames tools turn (Value.mergeLayers [layers.user,layers.here]) = .ok () :=
      fun _ => namesOk.mpr fun _ => named
    rw [first,second,third,← same]
    simp only [passed,bind,Except.bind]
    rfl

end
end Settings
end Tinct
