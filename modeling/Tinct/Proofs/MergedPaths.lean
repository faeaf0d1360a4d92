import Tinct.Proofs.LayeredValues
import Tinct.Proofs.Verdicts

/-! Merged mappings, path by path. How far a path leads in the upper mapping decides what the merge holds at its end: the
upper layer's own value, nothing, what the lower layer holds there, or a mapping with the keys of both. So a layer that was
merged already changes nothing when it is merged once more. -/
namespace Tinct

namespace Value

def along (path : List Key) (v : Value) : Option Value := v.at? (path.map .key)

def Keyed (v : Value) : Prop := ∀ path es, v.along path = some (.map es) → (Table.keys es).Nodup

structure MergedAlong (ls us : Entries) (path : List Key) : Prop where
  plain : ∀ v, (Value.map us).along path = some v → Plain (some v) →
    (Value.map (overlayEntries ls us)).along path = some v
  below : ∀ first rest v, path = first ++ rest → rest ≠ [] → (Value.map us).along first = some v → Plain (some v) →
    (Value.map (overlayEntries ls us)).along path = none
  lacking : ∀ first key rest es, path = first ++ key::rest → (Value.map us).along first = some (.map es) →
    key ∉ Table.keys es → (Value.map (overlayEntries ls us)).along path = (Value.map ls).along path
  mapping : ∀ es, (Value.map us).along path = some (.map es) →
    ∃ all, (Value.map (overlayEntries ls us)).along path = some (.map all) ∧ ∀ key, key ∈ Table.keys all ↔
      key ∈ Table.keys es ∨ ∃ bs, (Value.map ls).along path = some (.map bs) ∧ key ∈ Table.keys bs
  -- A path in the upper mapping ends in one of these ways.
  ends : (∃ v, (Value.map us).along path = some v) ∨
    (∃ first rest v, path = first ++ rest ∧ rest ≠ [] ∧ (Value.map us).along first = some v ∧ Plain (some v)) ∨
    ∃ first key rest es, path = first ++ key::rest ∧ (Value.map us).along first = some (.map es) ∧ key ∉ Table.keys es

section
variable {l u v w : Value} {us es : Entries} {key : Key} {path first rest : List Key}

theorem alongCons (key : Key) (rest : List Key) (v : Value) : v.along (key::rest) = (v.get? key).bind (along rest) := rfl

theorem alongInside (reached : u.along (key::rest) = some v) :
    ∃ us w, u = .map us ∧ Table.get? key us = some w ∧ w.along rest = some v := by
  obtain ⟨w,found,there⟩ := Option.bind_eq_some_iff.mp reached
  cases u with
  | map us => exact ⟨us,w,rfl,found,there⟩
  | _ => contradiction

theorem alongPlain (plain : Plain (some v)) (more : rest ≠ []) : v.along rest = none := by
  cases rest with
  | nil => contradiction
  | cons key rest =>
    cases v with
    | map es => exact absurd rfl (plain es)
    | _ => rfl

theorem Keyed.top (keyed : (Value.map us).Keyed) : (Table.keys us).Nodup := keyed [] us rfl

theorem Keyed.inner (keyed : (Value.map us).Keyed) (found : Table.get? key us = some w) : w.Keyed := by
  intro path es there
  have reached : (Value.map us).along (key::path) = w.along path := by
    rw [alongCons,get?,found,Option.bind_some]
  exact keyed (key::path) es (reached.trans there)

theorem keyedPlain (plain : Plain (some v)) : v.Keyed := by
  intro path es reached
  cases path with
  | nil => exact absurd (Option.some.inj reached) (fun same => plain es (congrArg some same))
  | cons key rest => rw [alongPlain plain (by simp)] at reached; contradiction

theorem keyedMap : (Value.map us).Keyed ↔ (Table.keys us).Nodup ∧ ∀ e ∈ us, e.2.Keyed := by
  constructor
  · intro keyed
    refine ⟨keyed.top,?_⟩
    intro e member
    exact keyed.inner ((Table.memIffGet keyed.top e.1 e.2).mp member)
  · rintro ⟨once,inner⟩ path es reached
    cases path with
    | nil =>
      cases Option.some.inj reached
      exact once
    | cons key rest =>
      obtain ⟨_,w,same,found,there⟩ := alongInside reached
      cases same
      exact inner (key,w) ((Table.memIffGet once key w).mpr found) rest es there

theorem overlayNull (v : Value) : overlay .null v = v := by cases v <;> rfl

theorem laidSome (found : Option Value) : laidOver (some w) found = some (overlay (found.getD .null) w) := by
  cases found with
  | none => exact congrArg some (overlayNull w).symm
  | some l => rfl

theorem getLaid (once : (Table.keys us).Nodup) (l : Value) (key : Key) :
    (overlay l (.map us)).get? key = laidOver (Table.get? key us) (l.get? key) := by
  cases l with
  | map ls =>
    rw [overlay]
    exact getOverlay once ls key
  | _ => exact (overNone _).symm

theorem alongHeld (once : (Table.keys us).Nodup) (found : Table.get? key us = some w) (l : Value) (rest : List Key) :
    (overlay l (.map us)).along (key::rest) = (overlay ((l.get? key).getD .null) w).along rest := by
  rw [alongCons,getLaid once,found,laidSome,Option.bind_some]

theorem alongLacked (once : (Table.keys us).Nodup) (absent : key ∉ Table.keys us) (l : Value) (rest : List Key) :
    (overlay l (.map us)).along (key::rest) = l.along (key::rest) := by
  rw [alongCons,getLaid once,Table.getNone absent]
  rfl

theorem alongLower (l : Value) (key : Key) (more : rest ≠ []) :
    ((l.get? key).getD .null).along rest = l.along (key::rest) := by
  rw [alongCons]
  cases l.get? key with
  | none => exact alongPlain (by simp [Plain]) more
  | some w => rfl

theorem alongLowerMap (l : Value) (key : Key) (rest : List Key) (bs : Entries) :
    ((l.get? key).getD .null).along rest = some (.map bs) ↔ l.along (key::rest) = some (.map bs) := by
  rw [alongCons]
  cases l.get? key with
  | none => cases rest <;> simp [along,at?,Place.inside?,get?]
  | some w => rfl

theorem laidPlain (keyed : u.Keyed) (reached : u.along path = some v) (plain : Plain (some v)) :
    (overlay l u).along path = some v := by
  induction path generalizing l u with
  | nil =>
    cases Option.some.inj reached
    exact congrArg some (overlayPlain plain l)
  | cons key rest ih =>
    obtain ⟨us,w,rfl,found,there⟩ := alongInside reached
    rw [alongHeld keyed.top found]
    exact ih (keyed.inner found) there

theorem laidBelow (keyed : u.Keyed) (reached : u.along first = some v) (plain : Plain (some v)) (more : rest ≠ []) :
    (overlay l u).along (first ++ rest) = none := by
  induction first generalizing l u with
  | nil =>
    cases Option.some.inj reached
    rw [overlayPlain plain]
    exact alongPlain plain more
  | cons key first ih =>
    obtain ⟨us,w,rfl,found,there⟩ := alongInside reached
    rw [List.cons_append,alongHeld keyed.top found]
    exact ih (keyed.inner found) there

theorem laidLacking (keyed : u.Keyed) (reached : u.along first = some (.map es)) (absent : key ∉ Table.keys es) :
    (overlay l u).along (first ++ key::rest) = l.along (first ++ key::rest) := by
  induction first generalizing l u with
  | nil =>
    cases Option.some.inj reached
    exact alongLacked keyed.top absent l rest
  | cons next first ih =>
    obtain ⟨us,w,rfl,found,there⟩ := alongInside reached
    rw [List.cons_append,alongHeld keyed.top found,ih (keyed.inner found) there]
    exact alongLower l next (by simp)

theorem laidKeys (once : (Table.keys es).Nodup) (l : Value) :
    ∃ all, overlay l (.map es) = .map all ∧ ∀ key, key ∈ Table.keys all ↔
      key ∈ Table.keys es ∨ ∃ bs, l = .map bs ∧ key ∈ Table.keys bs := by
  cases l with
  | map ls =>
    refine ⟨overlayEntries ls es,by rw [overlay],?_⟩
    intro key
    by_cases below : key ∈ Table.keys ls <;> simp [keysOverlay once,below]
  | _ => exact ⟨es,rfl,by simp⟩

theorem laidMapping (keyed : u.Keyed) (reached : u.along path = some (.map es)) :
    ∃ all, (overlay l u).along path = some (.map all) ∧ ∀ key, key ∈ Table.keys all ↔
      key ∈ Table.keys es ∨ ∃ bs, l.along path = some (.map bs) ∧ key ∈ Table.keys bs := by
  induction path generalizing l u with
  | nil =>
    cases Option.some.inj reached
    obtain ⟨all,laid,both⟩ := laidKeys keyed.top l
    refine ⟨all,congrArg some laid,?_⟩
    intro key
    simp only [both,along,at?,List.map_nil,Option.some.injEq]
  | cons next rest ih =>
    obtain ⟨us,w,rfl,found,there⟩ := alongInside reached
    obtain ⟨all,laid,both⟩ := ih (l := (l.get? next).getD .null) (keyed.inner found) there
    refine ⟨all,(alongHeld keyed.top found l rest).trans laid,?_⟩
    intro key
    simp only [both,alongLowerMap]

theorem alongEnds (u : Value) (path : List Key) : (∃ v, u.along path = some v) ∨
    (∃ first rest v, path = first ++ rest ∧ rest ≠ [] ∧ u.along first = some v ∧ Plain (some v)) ∨
    ∃ first key rest es, path = first ++ key::rest ∧ u.along first = some (.map es) ∧ key ∉ Table.keys es := by
  induction path generalizing u with
  | nil => exact .inl ⟨u,rfl⟩
  | cons key rest ih =>
    cases u with
    | map us =>
      cases found : Table.get? key us with
      | none =>
        have absent : key ∉ Table.keys us := by rw [Table.memKeys,found]; simp
        exact .inr (.inr ⟨[],key,rest,us,rfl,rfl,absent⟩)
      | some w =>
        have on : ∀ path, (Value.map us).along (key::path) = w.along path := by
          intro path
          rw [alongCons,get?,found,Option.bind_some]
        rcases ih w with ⟨v,there⟩ | ⟨first,rest,v,rfl,more,there,plain⟩ | ⟨first,next,rest,es,rfl,there,absent⟩
        · exact .inl ⟨v,(on rest).trans there⟩
        · exact .inr (.inl ⟨key::first,rest,v,rfl,more,(on first).trans there,plain⟩)
        · exact .inr (.inr ⟨key::first,next,rest,es,rfl,(on first).trans there,absent⟩)
    | _ => exact .inr (.inl ⟨[],key::rest,_,rfl,by simp,rfl,by simp [Plain]⟩)

theorem overlayStays {t : Entries} (held : ∀ e ∈ us, ∃ w, Table.get? e.1 t = some w ∧ overlay w e.2 = w) :
    overlayEntries t us = t := by
  induction us with
  | nil => rfl
  | cons e rest ih =>
    obtain ⟨k,v⟩ := e
    obtain ⟨⟨w,found,same⟩,later⟩ := List.forall_mem_cons.mp held
    rw [overlayEntries]
    simp only [found,same]
    rw [Table.putSame found]
    exact ih later

theorem overlayFresh {ls : Entries} (once : (Table.keys (ls ++ us)).Nodup) : overlayEntries ls us = ls ++ us := by
  induction us generalizing ls with
  | nil => exact (List.append_nil ls).symm
  | cons e rest ih =>
    obtain ⟨k,v⟩ := e
    have moved : ls ++ [(k,v)] ++ rest = ls ++ (k,v)::rest := by simp
    have fresh := Table.keyFresh once
    rw [overlayEntries,Table.getNone fresh,Table.putAbsent fresh,ih (moved ▸ once),moved]

end

mutual

theorem overlayTwice (l u : Value) (keyed : u.Keyed) : overlay (overlay l u) u = overlay l u := by
  cases u with
  | map us =>
    have inner := entriesTwice us (keyedMap.mp keyed).2
    obtain ⟨all,laid⟩ := overlayMap l us
    have stays : overlayEntries all us = all := by
      apply overlayStays
      intro e member
      have found := (Table.memIffGet keyed.top e.1 e.2).mp member
      refine ⟨overlay ((l.get? e.1).getD .null) e.2,?_,inner e member _⟩
      have got := getLaid keyed.top l e.1
      rw [laid,found,laidSome] at got
      exact got
    rw [laid,overlay,stays]
  | _ => rfl

theorem entriesTwice (us : Entries) (keyed : ∀ e ∈ us, e.2.Keyed) :
    ∀ e ∈ us, ∀ l, overlay (overlay l e.2) e.2 = overlay l e.2 := by
  match us with
  | [] => simp
  | (k,v)::rest =>
    obtain ⟨own,later⟩ := List.forall_mem_cons.mp keyed
    intro e member l
    rcases List.mem_cons.mp member with rfl | inside
    · exact overlayTwice l v own
    · exact entriesTwice rest later e inside l

end

theorem mergeResolves {us : Entries} (keyed : (Value.map us).Keyed) :
    (∀ ls path, MergedAlong ls us path) ∧ (∀ ls, overlayEntries ls [] = ls) ∧ overlayEntries [] us = us ∧
    overlayEntries us us = us ∧ ∀ ls, overlayEntries (overlayEntries ls us) us = overlayEntries ls us := by
  have laid : ∀ ls, overlay (.map ls) (.map us) = .map (overlayEntries ls us) := fun ls => by rw [overlay]
  have twice : ∀ ls, overlayEntries (overlayEntries ls us) us = overlayEntries ls us := by
    intro ls
    have same := overlayTwice (.map ls) (.map us) keyed
    rw [laid,laid] at same
    exact Value.map.inj same
  have fresh : overlayEntries [] us = us := overlayFresh keyed.top
  have itself := twice []
  rw [fresh] at itself
  refine ⟨?_,fun _ => rfl,fresh,itself,twice⟩
  intro ls path
  refine ⟨?_,?_,?_,?_,alongEnds _ path⟩
  · intro v reached plain
    rw [← laid]
    exact laidPlain keyed reached plain
  · rintro first rest v rfl more reached plain
    rw [← laid]
    exact laidBelow keyed reached plain more
  · rintro first key rest es rfl reached absent
    rw [← laid]
    exact laidLacking keyed reached absent
  · intro es reached
    rw [← laid]
    exact laidMapping keyed reached

def lowerMix : Entries := [("a",.map [("x",.int 1),("y",.map [("q",.int 2)])]),("b",.int 3)]

def upperMix : Entries := [("a",.map [("y",.int 5),("z",.map [])]),("b",.map [("n",.null)])]

-- A leaf that stays, one that hides a mapping, a key of the lower layer alone and a leaf that a mapping replaces.
theorem mixResolved : (Value.map upperMix).Keyed ∧
    (Value.map (overlayEntries lowerMix upperMix)).along ["a","y"] = some (.int 5) ∧
    (Value.map (overlayEntries lowerMix upperMix)).along ["a","y","q"] = none ∧
    (Value.map (overlayEntries lowerMix upperMix)).along ["a","x"] = some (.int 1) ∧
    (∃ all, (Value.map (overlayEntries lowerMix upperMix)).along ["a"] = some (.map all) ∧
      .text "x" ∈ Table.keys all ∧ .text "z" ∈ Table.keys all ∧ .text "q" ∉ Table.keys all) ∧
    overlayEntries (overlayEntries lowerMix upperMix) upperMix = overlayEntries lowerMix upperMix := by
  have number : ∀ n, (Value.int n).Keyed := fun n => keyedPlain (by simp [Plain])
  have nothing : Value.null.Keyed := keyedPlain (by simp [Plain])
  have keyed : (Value.map upperMix).Keyed := by
    simp [upperMix,keyedMap,Table.keys,number,nothing]
  obtain ⟨along,_,_,_,twice⟩ := mergeResolves keyed
  refine ⟨keyed,(along _ _).plain _ rfl (by simp [Plain]),?_,?_,?_,twice lowerMix⟩
  · exact (along _ _).below ["a","y"] ["q"] (.int 5) rfl (by simp) rfl (by simp [Plain])
  · exact ((along lowerMix _).lacking ["a"] "x" [] _ rfl rfl (by decide)).trans rfl
  · obtain ⟨all,merged,both⟩ := (along lowerMix ["a"]).mapping _ rfl
    refine ⟨all,merged,(both "x").mpr (.inr ⟨_,rfl,by decide⟩),(both "z").mpr (.inl (by decide)),?_⟩
    intro inside
    rcases (both "q").mp inside with upper | ⟨bs,reached,lower⟩
    · exact absurd upper (by decide)
    · cases reached
      exact absurd lower (by decide)

end Value
end Tinct
