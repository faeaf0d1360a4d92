import Tinct.Settings.Variables
import Tinct.Proofs.LayeredValues

/-! The layer of settings that environment variables make, where each names a field of a section. What such a variable says
is what the layer holds for its field, unless a variable that names a place inside the field makes it a mapping. -/
namespace Tinct

namespace Text

def Small (c : Char) : Prop := ¬ (0x41 ≤ c.toNat ∧ c.toNat ≤ 0x5a) ∧ c.toNat ≠ 0x130 ∧ c.toNat ≠ 0x212a

structure RunLeads (r : Nat × Nat × Nat × Int) (first last : Int) : Prop where
  valid : 0 < first ∧ (last < 0xd800 ∨ 0xe000 ≤ first ∧ last < 0x110000)
  letters : last < 0x41 ∨ 0x5a < first
  dotted : last < 0x130 ∨ 0x130 < first
  kelvin : last < 0x212a ∨ 0x212a < first
  high : r.1 = 0x41 ∧ r.2.1 = 0x5a ∨ r.1 = 0x212a ∧ r.2.1 = 0x212a ∨ 128 ≤ first

instance (r : Nat × Nat × Nat × Int) (first last : Int) : Decidable (RunLeads r first last) :=
  decidable_of_iff
    ((0 < first ∧ (last < 0xd800 ∨ 0xe000 ≤ first ∧ last < 0x110000)) ∧ (last < 0x41 ∨ 0x5a < first) ∧
      (last < 0x130 ∨ 0x130 < first) ∧ (last < 0x212a ∨ 0x212a < first) ∧
      (r.1 = 0x41 ∧ r.2.1 = 0x5a ∨ r.1 = 0x212a ∧ r.2.1 = 0x212a ∨ 128 ≤ first))
    ⟨fun ⟨a,b,c,d,e⟩ => ⟨a,b,c,d,e⟩,fun ⟨a,b,c,d,e⟩ => ⟨a,b,c,d,e⟩⟩

theorem runsLead : ∀ r ∈ lowerRuns, RunLeads r (r.1 + r.2.2.2) (r.2.1 + r.2.2.2) := by decide +kernel

theorem ofNatNumber {n : Nat} (valid : n.isValidChar) : (Char.ofNat n).toNat = n := by
  rw [Char.ofNat,dif_pos valid]
  rfl

theorem foundRun {c : Char} {r : Nat × Nat × Nat × Int}
    (found : (lowerRuns.find? fun r => r.1 ≤ c.toNat && c.toNat ≤ r.2.1 && (c.toNat - r.1) % r.2.2.1 = 0) = some r) :
    r ∈ lowerRuns ∧ r.1 ≤ c.toNat ∧ c.toNat ≤ r.2.1 := by
  have inside := List.find?_some found
  simp only [Bool.and_eq_true,decide_eq_true_eq] at inside
  exact ⟨List.mem_of_find?_eq_some found,inside.1⟩

theorem leadNumber {c : Char} {r : Nat × Nat × Nat × Int} (member : r ∈ lowerRuns) (first : r.1 ≤ c.toNat)
    (last : c.toNat ≤ r.2.1) :
    ((Char.ofNat (c.toNat + r.2.2.2).toNat).toNat : Int) = c.toNat + r.2.2.2 := by
  obtain ⟨⟨positive,scalar⟩,_⟩ := runsLead r member
  rw [ofNatNumber]
  · omega
  · rw [Nat.isValidChar]
    omega

theorem lowerSmall {c d : Char} (member : d ∈ lowerChar c) : Small d := by
  unfold lowerChar at member
  split at member
  · rcases List.mem_cons.mp member with rfl | later
    · unfold Small
      decide
    · rw [List.mem_singleton.mp later]
      unfold Small
      decide
  · rename_i dotted
    split at member
    · rename_i r found
      obtain ⟨listed,first,last⟩ := foundRun found
      have number := leadNumber listed first last
      obtain ⟨_,letters,dots,kelvin,_⟩ := runsLead r listed
      rw [List.mem_singleton.mp member]
      unfold Small
      omega
    · rename_i none
      rw [List.find?_eq_none] at none
      have letters := none (0x41,0x5a,1,32) (by decide +kernel)
      have kelvin := none (0x212a,0x212a,1,-8383) (by decide +kernel)
      simp only [Bool.and_eq_true,decide_eq_true_eq,Nat.mod_one,and_true] at letters kelvin
      rw [List.mem_singleton.mp member]
      unfold Small
      omega

theorem lowerStays {c : Char} (small : Small c) (ascii : ∀ a ∈ lowerChar c, a.toNat < 128) : lowerChar c = [c] := by
  unfold lowerChar at ascii ⊢
  split
  · exact absurd ‹_› small.2.1
  · rename_i dotted
    rw [if_neg dotted] at ascii
    split at ascii
    · rename_i r found
      obtain ⟨listed,first,last⟩ := foundRun found
      have number := leadNumber listed first last
      have low := ascii _ List.mem_cons_self
      have high := (runsLead r listed).high
      unfold Small at small
      omega
    · rfl

theorem lowerWord {t : Text} {word : String} (small : ∀ c ∈ t, Small c) (ascii : ∀ c ∈ word.toList, c.toNat < 128)
    (same : lower (String.ofList t) = word) : String.ofList t = word := by
  have letters : t.flatMap lowerChar = word.toList := by rw [← same,lower,String.toList_ofList,String.toList_ofList]
  have stays : ∀ c ∈ t, lowerChar c = [c] := by
    intro c member
    refine lowerStays (small c member) ?_
    intro a inside
    refine ascii a ?_
    rw [← letters]
    exact List.mem_flatMap.mpr ⟨c,member,inside⟩
  have fixed : t.flatMap lowerChar = t := by
    have all : t.flatMap lowerChar = t.flatMap fun c => [c] := List.flatMap_congr stays
    rw [all,List.flatMap_singleton']
  rw [← fixed,letters,String.ofList_toList]

end Text

namespace Settings
open Value (Mapping fieldOf)

theorem splitBarsSome (current t : Text) : splitBars current t ≠ [] := by
  fun_induction splitBars current t <;> simp_all

theorem splitBarsOne {current t piece : Text} (single : splitBars current t = [piece]) :
    piece = current.reverse ++ t := by
  fun_induction splitBars current t with
  | case1 current => simpa using single.symm
  | case2 current rest ih => exact absurd (List.cons.inj single).2 (splitBarsSome [] rest)
  | case3 current c rest _ ih => simpa using ih single

theorem splitBarsChars {current t piece : Text} {c : Char} (member : piece ∈ splitBars current t) (inside : c ∈ piece) :
    c ∈ current ∨ c ∈ t := by
  fun_induction splitBars current t with
  | case1 current =>
    rw [List.mem_singleton.mp member,List.mem_reverse] at inside
    exact .inl inside
  | case2 current rest ih =>
    rcases List.mem_cons.mp member with rfl | later
    · exact .inl (List.mem_reverse.mp inside)
    · rcases ih later with nothing | there
      · contradiction
      · exact .inr (List.mem_cons_of_mem _ (List.mem_cons_of_mem _ there))
  | case3 current a rest _ ih =>
    rcases ih member with before | there
    · rcases List.mem_cons.mp before with rfl | old
      · exact .inr List.mem_cons_self
      · exact .inl old
    · exact .inr (List.mem_cons_of_mem _ there)

theorem plantNodup {es : Value.Entries} (once : (Table.keys es).Nodup) (v : Value) (path : List String) :
    (Table.keys (plant v path es)).Nodup := by
  unfold plant
  split
  · exact once
  · exact Table.keysPutNodup once _ _
  · split
    · exact Table.keysPutNodup once _ _
    · exact Table.keysPutNodup once _ _
    · exact once

theorem plantKeys {v : Value} {path : List String} {es : Value.Entries} {key : Key}
    (member : key ∈ Table.keys (plant v path es)) : key ∈ Table.keys es ∨ ∃ piece ∈ path, key = .text piece := by
  have added : ∀ {k : String} {w : Value} {rest : List String}, key ∈ Table.keys (Table.put (.text k) w es) →
      key ∈ Table.keys es ∨ ∃ piece ∈ k::rest, key = .text piece := by
    intro k w rest there
    rw [Table.keysPut] at there
    split at there
    · exact .inl there
    · rcases List.mem_append.mp there with old | new
      · exact .inl old
      · exact .inr ⟨k,List.mem_cons_self,List.mem_singleton.mp new⟩
  unfold plant at member
  split at member
  · exact .inl member
  · exact added member
  · split at member
    · exact added member
    · exact added member
    · exact .inl member

theorem plantElsewhere {path : List String} {field : String} (other : path ≠ [field]) (v : Value) (es : Value.Entries) :
    (∃ m, Table.get? (.text field) (plant v path es) = some (.map m)) ∨
    Table.get? (.text field) (plant v path es) = Table.get? (.text field) es := by
  unfold plant
  split
  · exact .inr rfl
  · rename_i k
    exact .inr (by rw [Table.lookupPut,if_neg fun same => other (by rw [Key.text.inj same])])
  · rename_i k rest _
    split
    · rw [Table.lookupPut]
      split
      · exact .inl ⟨_,rfl⟩
      · exact .inr rfl
    · rw [Table.lookupPut]
      split
      · exact .inl ⟨_,rfl⟩
      · exact .inr rfl
    · exact .inr rfl

def sectionHead (name : String) : String := "semtok__" ++ name ++ "__"

def pathOf (rest : Text) : List String := (splitBars [] rest).map String.ofList

theorem setFieldsCons {name key s : String} {fields : Table String Bool} {es all : Value.Entries} {rest : Environment}
    (done : setFields name fields es ((key,s)::rest) = .ok all) :
    ((sectionHead name).toList.isPrefixOf key.toList = false ∧ setFields name fields es rest = .ok all) ∨
    ∃ tail v, key.toList = (sectionHead name).toList ++ tail ∧ variableValue name fields (pathOf tail) s = .ok v ∧
      setFields name fields (plant v (pathOf tail) es) rest = .ok all := by
  rw [setFields] at done
  dsimp only at done
  cases starts : (sectionHead name).toList.isPrefixOf key.toList with
  | false =>
    rw [sectionHead] at starts
    rw [starts,if_neg Bool.false_ne_true] at done
    exact .inl ⟨rfl,done⟩
  | true =>
    obtain ⟨tail,whole⟩ := List.isPrefixOf_iff_prefix.mp starts
    rw [sectionHead] at starts whole
    rw [if_pos starts,← whole,List.drop_left] at done
    obtain ⟨v,value,later⟩ := bindOk.mp done
    exact .inr ⟨tail,v,whole.symm,value,later⟩

theorem pathField {tail : Text} {field : String} (path : pathOf tail = [field]) : tail = field.toList := by
  obtain ⟨piece,single,same⟩ := List.map_eq_singleton_iff.mp path
  have whole := splitBarsOne single
  rw [← same,whole,String.toList_ofList]
  rfl

theorem pathPlain {field : String} (plain : splitBars [] field.toList = [field.toList]) : pathOf field.toList = [field] := by
  rw [pathOf,plain,List.map_singleton,String.ofList_toList]

-- What the variables of a section leave in a field: a mapping, or what the variable of the field says, or what was there.
def Told (name : String) (fields : Table String Bool) (field : String) (said : Option String)
    (before after : Option Value) : Prop :=
  (∃ m, after = some (.map m)) ∨
  match said with
  | none => after = before
  | some s => ∃ v, variableValue name fields [field] s = .ok v ∧ after = some v

theorem setFieldsTold {name field : String} {fields : Table String Bool} {es all : Value.Entries} {env : Environment}
    (once : (Table.keys env).Nodup) (plain : splitBars [] field.toList = [field.toList])
    (done : setFields name fields es env = .ok all) :
    Told name fields field (Table.get? (sectionHead name ++ field) env) (Table.get? (.text field) es) (Table.get? (.text field) all) := by
  induction env generalizing es with
  | nil =>
    cases Except.ok.inj done
    exact .inr rfl
  | cons e rest ih =>
    obtain ⟨key,s⟩ := e
    obtain ⟨fresh,once⟩ := List.nodup_cons.mp once
    rcases setFieldsCons done with ⟨other,later⟩ | ⟨tail,v,whole,value,later⟩
    · have different : key ≠ sectionHead name ++ field := by
        intro same
        have starts : (sectionHead name).toList.isPrefixOf key.toList = true := by
          rw [same,String.toList_append]
          exact List.isPrefixOf_iff_prefix.mpr (List.prefix_append _ _)
        rw [starts] at other
        contradiction
      rw [Table.get?,if_neg different]
      exact ih once later
    · have told := ih once later
      by_cases own : key = sectionHead name ++ field
      · have path : pathOf tail = [field] := by
          rw [own,String.toList_append] at whole
          rw [← List.append_cancel_left whole,pathPlain plain]
        have absent : Table.get? (sectionHead name ++ field) rest = none := Table.getNone (own ▸ fresh)
        rw [path] at value told
        rw [absent,plant,Table.getPut] at told
        rw [Table.get?,if_pos own]
        exact told.imp id fun same => ⟨v,value,same⟩
      · have other : pathOf tail ≠ [field] := by
          intro path
          rw [pathField path,← String.toList_append] at whole
          exact own (String.toList_inj.mp whole)
        rw [Table.get?,if_neg own]
        rcases told with mapped | told
        · exact .inl mapped
        · cases said : Table.get? (sectionHead name ++ field) rest with
          | some s => rw [said] at told; exact .inr told
          | none =>
            rw [said] at told
            rcases plantElsewhere other v es with ⟨m,mapped⟩ | same
            · exact .inl ⟨m,told.trans mapped⟩
            · exact .inr (told.trans same)

theorem setFieldsNodup {name : String} {fields : Table String Bool} {es all : Value.Entries} {env : Environment}
    (once : (Table.keys es).Nodup) (done : setFields name fields es env = .ok all) : (Table.keys all).Nodup := by
  induction env generalizing es with
  | nil =>
    cases Except.ok.inj done
    exact once
  | cons e rest ih =>
    rcases setFieldsCons done with ⟨_,later⟩ | ⟨tail,v,_,_,later⟩
    · exact ih once later
    · exact ih (plantNodup once v _) later

theorem setFieldsKeys {name : String} {fields : Table String Bool} {es all : Value.Entries} {env : Environment}
    (small : ∀ key ∈ Table.keys env, ∀ c ∈ key.toList, Text.Small c)
    (before : ∀ key ∈ Table.keys es, ∀ c ∈ key.name.toList, Text.Small c)
    (done : setFields name fields es env = .ok all) : ∀ key ∈ Table.keys all, ∀ c ∈ key.name.toList, Text.Small c := by
  induction env generalizing es with
  | nil =>
    cases Except.ok.inj done
    exact before
  | cons e rest ih =>
    obtain ⟨key,s⟩ := e
    have later := fun k member => small k (List.mem_cons_of_mem _ member)
    rcases setFieldsCons done with ⟨_,more⟩ | ⟨tail,v,whole,_,more⟩
    · exact ih later before more
    · refine ih later ?_ more
      intro k member c inside
      rcases plantKeys member with old | ⟨word,new,rfl⟩
      · exact before k old c inside
      · obtain ⟨piece,there,rfl⟩ := List.mem_map.mp new
        rw [Key.name,String.toList_ofList] at inside
        refine small key List.mem_cons_self c ?_
        rw [whole]
        exact List.mem_append_right _ ((splitBarsChars there inside).resolve_left List.not_mem_nil)

theorem respellSmall {fields : List String} {es : Value.Entries} (once : (Table.keys es).Nodup)
    (small : ∀ key ∈ Table.keys es, ∀ c ∈ key.name.toList, Text.Small c)
    (ascii : ∀ field ∈ fields, ∀ c ∈ field.toList, c.toNat < 128) : respell fields es = es := by
  have own : ∀ key ∈ Table.keys es, ownSpelling fields key = key := by
    intro key member
    cases key with
    | other shown => rfl
    | text s =>
      rw [ownSpelling]
      cases found : fields.find? fun f => f = Text.lower s with
      | none => rfl
      | some f =>
        have same : f = Text.lower s := by simpa using List.find?_some found
        have word := Text.lowerWord (small _ member) (ascii f (List.mem_of_find?_eq_some found))
          (by rw [String.ofList_toList,same,Key.name])
        rw [String.ofList_toList] at word
        rw [Option.getD_some,← word,Key.name]
  have kept : es.map (fun e => (ownSpelling fields e.1,e.2)) = es.map id := by
    apply List.map_congr_left
    intro e member
    rw [own e.1 (List.mem_map_of_mem member)]
    rfl
  rw [respell,kept,List.map_id,Table.ofListDistinct once]

theorem sectionOfBare {env : Environment} {name : String} (bare : Table.get? ("semtok__" ++ name) env = none)
    {fields : Table String Bool} {found : Option Value} (done : sectionOf env name fields = .ok found) :
    ∃ es, setFields name fields [] env = .ok es ∧
      found = if es.isEmpty then none else some (.map (respell (Table.keys fields) es)) := by
  rw [sectionOf,bare] at done
  obtain ⟨es,set,same⟩ := bindOk.mp done
  exact ⟨es,set,(Except.ok.inj same).symm⟩

theorem sectionsOfCons {env : Environment} {name : String} {fields : Table String Bool}
    {rest : Table String (Table String Bool)} {es : Value.Entries} (done : sectionsOf env ((name,fields)::rest) = .ok es) :
    ∃ found others, sectionOf env name fields = .ok found ∧ sectionsOf env rest = .ok others ∧
      es = found.toList.map (fun v => (.text name,v)) ++ others := by
  rw [sectionsOf] at done
  obtain ⟨found,own,done⟩ := bindOk.mp done
  obtain ⟨others,later,same⟩ := bindOk.mp done
  exact ⟨found,others,own,later,(Except.ok.inj same).symm⟩

theorem sectionsOfKeys {env : Environment} {table : Table String (Table String Bool)} {es : Value.Entries}
    (done : sectionsOf env table = .ok es) : (Table.keys es).Sublist ((Table.keys table).map .text) := by
  induction table generalizing es with
  | nil =>
    cases Except.ok.inj done
    exact List.Sublist.slnil
  | cons entry rest ih =>
    obtain ⟨found,others,_,later,rfl⟩ := sectionsOfCons done
    rw [Table.keys,List.map_append]
    cases found with
    | none => exact (ih later).cons _
    | some v => exact (ih later).cons_cons _

theorem sectionsOfGet {env : Environment} {table : Table String (Table String Bool)} {es : Value.Entries}
    (once : (Table.keys table).Nodup) (done : sectionsOf env table = .ok es) {name : String} {fields : Table String Bool}
    (member : (name,fields) ∈ table) : sectionOf env name fields = .ok (Table.get? (.text name) es) := by
  induction table generalizing es with
  | nil => contradiction
  | cons entry rest ih =>
    obtain ⟨fresh,once⟩ := List.nodup_cons.mp once
    obtain ⟨found,others,own,later,rfl⟩ := sectionsOfCons done
    have absent : ∀ other, other ∉ Table.keys rest → Table.get? (.text other) others = none := by
      intro other out
      refine Table.getNone fun there => out ?_
      obtain ⟨_,listed,same⟩ := List.mem_map.mp ((sectionsOfKeys later).subset there)
      exact Key.text.inj same ▸ listed
    rw [Table.getAppend]
    rcases List.mem_cons.mp member with rfl | inside
    · rw [own,absent name fresh,Option.or_none]
      cases found with
      | none => rfl
      | some v => simp [Table.get?]
    · have different : entry.1 ≠ name := fun same => fresh (same ▸ List.mem_map_of_mem inside)
      have none : Table.get? (.text name) (found.toList.map fun v => (Key.text entry.1,v)) = none := by
        cases found with
        | none => rfl
        | some v => simp [Table.get?,different]
      rw [none,Option.none_or]
      exact ih once later inside

def lowered (env : Environment) : Environment := Table.ofList (env.map fun e => (Text.lower e.1,e.2))

theorem ofListKeys {ν : Type} (entries : List (String × ν)) :
    (Table.keys (Table.ofList entries)).Nodup ∧
    ∀ key ∈ Table.keys (Table.ofList entries), key ∈ entries.map Prod.fst := by
  have onto : ∀ (rest acc : Table String ν), (Table.keys acc).Nodup →
      (Table.keys (rest.foldl (fun acc e => Table.put e.1 e.2 acc) acc)).Nodup ∧
      ∀ key ∈ Table.keys (rest.foldl (fun acc e => Table.put e.1 e.2 acc) acc),
        key ∈ Table.keys acc ∨ key ∈ rest.map Prod.fst := by
    intro rest
    induction rest with
    | nil => exact fun acc once => ⟨once,fun key member => .inl member⟩
    | cons e rest ih =>
      intro acc once
      obtain ⟨distinct,from_⟩ := ih (Table.put e.1 e.2 acc) (Table.keysPutNodup once _ _)
      refine ⟨distinct,?_⟩
      intro key member
      rcases from_ key member with before | later
      · rw [Table.keysPut] at before
        split at before
        · exact .inl before
        · rcases List.mem_append.mp before with old | new
          · exact .inl old
          · exact .inr (List.mem_singleton.mp new ▸ List.mem_cons_self)
      · exact .inr (List.mem_cons_of_mem _ later)
  obtain ⟨once,listed⟩ := onto entries [] List.nodup_nil
  exact ⟨once,fun key member => (listed key member).resolve_left List.not_mem_nil⟩

theorem loweredSmall (env : Environment) : ∀ key ∈ Table.keys (lowered env), ∀ c ∈ key.toList, Text.Small c := by
  intro key member c inside
  have listed := (ofListKeys _).2 key member
  rw [List.map_map] at listed
  obtain ⟨e,_,rfl⟩ := List.mem_map.mp listed
  simp only [Function.comp_apply,Text.lower,String.toList_ofList] at inside
  obtain ⟨a,_,lower⟩ := List.mem_flatMap.mp inside
  exact Text.lowerSmall lower

def said (env : Environment) (name : String) (fields : Table String Bool) (field : String) : Option Value :=
  (Table.get? (sectionHead name ++ field) (lowered env)).bind fun s =>
    (variableValue name fields [field] s).toOption

def Bare (env : Environment) : Prop := ∀ e ∈ env, ∀ name ∈ sectionNames, Text.lower e.1 ≠ "semtok__" ++ name

instance (env : Environment) : Decidable (Bare env) :=
  inferInstanceAs (Decidable (∀ e ∈ env, ∀ name ∈ sectionNames, Text.lower e.1 ≠ "semtok__" ++ name))

theorem fieldNames : ∀ part ∈ sectionFields, ∀ field ∈ Table.keys part.2,
    splitBars [] field.toList = [field.toList] ∧ (field.toList.all fun c => c.toNat < 128) = true := by decide +kernel

theorem sectionsNodup : (Table.keys sectionFields).Nodup := by decide

theorem environmentField {env : Environment} {es : Value.Entries} (layer : ofEnvironment env = .ok es) (bare : Bare env)
    {name : String} {fields : Table String Bool} (member : (name,fields) ∈ sectionFields) :
    Mapping (Table.get? (.text name) es) ∧ ∀ field ∈ Table.keys fields,
      (∃ m, fieldOf field (Table.get? (.text name) es) = some (.map m)) ∨
      fieldOf field (Table.get? (.text name) es) = said env name fields field := by
  have own : sectionOf (lowered env) name fields = .ok (Table.get? (.text name) es) := sectionsOfGet sectionsNodup layer member
  have whole : Table.get? ("semtok__" ++ name) (lowered env) = none := by
    apply Table.getNone
    intro there
    have listed := (ofListKeys _).2 _ there
    rw [List.map_map] at listed
    obtain ⟨e,inside,same⟩ := List.mem_map.mp listed
    exact bare e inside name (List.mem_map_of_mem member) same
  obtain ⟨all,set,found⟩ := sectionOfBare whole own
  have none : (Table.keys ([] : Value.Entries)).Nodup := List.nodup_nil
  have distinct := setFieldsNodup none set
  have kept : respell (Table.keys fields) all = all :=
    respellSmall distinct (setFieldsKeys (loweredSmall env) (fun _ none => by contradiction) set)
      fun field inside => by simpa using (fieldNames _ member field inside).2
  rw [kept] at found
  have inner : ∀ field : String, fieldOf field (Table.get? (.text name) es) = Table.get? (.text field) all := by
    intro field
    rw [found]
    cases all with
    | nil => rfl
    | cons e rest => rfl
  refine ⟨?_,?_⟩
  · intro v there
    rw [found] at there
    split at there
    · contradiction
    · exact ⟨all,(Option.some.inj there).symm,distinct⟩
  · intro field inside
    rw [inner]
    have told := setFieldsTold (ofListKeys _).1 (fieldNames _ member field inside).1 set
    refine told.imp id ?_
    rw [said]
    intro same
    cases there : Table.get? (sectionHead name ++ field) (lowered env) with
    | none =>
      rw [lowered] at there
      rw [there] at same
      exact same
    | some s =>
      rw [lowered] at there
      rw [there] at same
      obtain ⟨v,value,at_⟩ := same
      rw [at_,Option.bind_some,value]
      rfl

end Settings
end Tinct
