import Tinct.Table
import Mathlib.Data.List.Nodup

/-! More about tables: what the keys are after a `put`, when a pair is listed, and what a second `put` or an `erase` of
the same key leaves of a first. -/
namespace Tinct.Table
variable {κ ν : Type}

theorem keyFresh {t rest : Table κ ν} {key : κ} {value : ν}
    (once : (keys (t ++ (key,value)::rest)).Nodup) : key ∉ keys t := by
  rw [keys,List.map_append,List.map_cons] at once
  intro member
  exact (List.nodup_append.mp once).2.2 key member key List.mem_cons_self rfl

variable [DecidableEq κ]

@[simp] theorem getPut (key : κ) (value : ν) (t : Table κ ν) : get? key (put key value t) = some value := by
  rw [lookupPut,if_pos rfl]

theorem keysPut (key : κ) (value : ν) (t : Table κ ν) :
    keys (put key value t) = if key ∈ keys t then keys t else keys t ++ [key] := by
  induction t with
  | nil => simp [put,keys]
  | cons e rest ih =>
    obtain ⟨k,v⟩ := e
    simp only [put]
    split
    · rename_i same
      simp [keys,same]
    · rename_i other
      have different : key ≠ k := fun same => other same.symm
      simp only [keys,List.map_cons,List.mem_cons,different,false_or] at ih ⊢
      rw [ih]
      by_cases present : key ∈ List.map Prod.fst rest <;> simp [present]

theorem keysPutNodup {t : Table κ ν} (once : (keys t).Nodup) (key : κ) (value : ν) :
    (keys (put key value t)).Nodup := by
  rw [keysPut]
  split
  · exact once
  · rename_i fresh
    exact List.nodup_append.mpr ⟨once,by simp,fun a left b right same => by
      rw [List.mem_singleton.mp right] at same
      exact fresh (same ▸ left)⟩

theorem memKeys (key : κ) (t : Table κ ν) : key ∈ keys t ↔ (get? key t).isSome = true := by
  induction t with
  | nil => simp [keys,get?]
  | cons e rest ih =>
    obtain ⟨k,v⟩ := e
    simp only [keys,List.map_cons,List.mem_cons,get?] at ih ⊢
    by_cases same : k = key
    · simp [same]
    · have different : key ≠ k := fun equal => same equal.symm
      simp [same,different,ih]

theorem memIffGet {t : Table κ ν} (once : (keys t).Nodup) (key : κ) (value : ν) :
    (key,value) ∈ t ↔ get? key t = some value := by
  induction t with
  | nil => simp [get?]
  | cons e rest ih =>
    obtain ⟨k,v⟩ := e
    obtain ⟨fresh,once⟩ := List.nodup_cons.mp once
    simp only [List.mem_cons,get?,Prod.mk.injEq]
    split
    · rename_i same
      subst same
      constructor
      · rintro (⟨_,rfl⟩ | later)
        · rfl
        · exact absurd (List.mem_map.mpr ⟨_,later,rfl⟩) fresh
      · intro found
        exact .inl ⟨rfl,(Option.some.inj found).symm⟩
    · rename_i other
      rw [← ih once]
      constructor
      · rintro (⟨same,_⟩ | later)
        · exact absurd same.symm other
        · exact later
      · exact .inr

@[simp] theorem putPut (key : κ) (first second : ν) (t : Table κ ν) :
    put key second (put key first t) = put key second t := by
  induction t with
  | nil => simp [put]
  | cons e rest ih =>
    obtain ⟨k,v⟩ := e
    by_cases same : k = key
    · simp [put,same]
    · simp [put,same,ih]

theorem putSame {key : κ} {value : ν} {t : Table κ ν} (found : get? key t = some value) : put key value t = t := by
  induction t with
  | nil => contradiction
  | cons e rest ih =>
    obtain ⟨k,v⟩ := e
    rw [get?] at found
    rw [put]
    split at found
    · rename_i same
      rw [if_pos same,same,Option.some.inj found]
    · rename_i other
      rw [if_neg other,ih found]

@[simp] theorem erasePut (key : κ) (value : ν) (t : Table κ ν) : erase key (put key value t) = erase key t := by
  induction t with
  | nil => simp [put,erase]
  | cons e rest ih =>
    obtain ⟨k,v⟩ := e
    by_cases same : k = key
    · simp [put,erase,same]
    · simpa [put,erase,same] using ih

theorem getAppend (key : κ) (first second : Table κ ν) :
    get? key (first ++ second) = (get? key first).or (get? key second) := by
  induction first with
  | nil => rfl
  | cons e rest ih =>
    simp only [List.cons_append,get?]
    split
    · rfl
    · exact ih

theorem getNone {key : κ} {t : Table κ ν} (absent : key ∉ keys t) : get? key t = none :=
  Option.not_isSome_iff_eq_none.mp fun there => absent ((memKeys key t).mpr there)

theorem putAbsent {key : κ} {t : Table κ ν} (absent : key ∉ keys t) (value : ν) : put key value t = t ++ [(key,value)] := by
  induction t with
  | nil => rfl
  | cons e rest ih =>
    obtain ⟨different,later⟩ := not_or.mp (List.mem_cons.not.mp absent)
    rw [put,if_neg fun same => different same.symm,ih later,List.cons_append]

theorem ofListDistinct {t : Table κ ν} (once : (keys t).Nodup) : ofList t = t := by
  have onto : ∀ (rest acc : Table κ ν), (keys (acc ++ rest)).Nodup →
      rest.foldl (fun acc e => put e.1 e.2 acc) acc = acc ++ rest := by
    intro rest
    induction rest with
    | nil => simp
    | cons e rest ih =>
      intro acc once
      have moved : acc ++ [e] ++ rest = acc ++ e::rest := by simp
      rw [List.foldl_cons,putAbsent (keyFresh once),ih _ (moved ▸ once),moved]
  exact onto t [] once

end Tinct.Table
