import Tinct.Files

/-! Paths in reduced form. Reading a text gives a path without empty parts, `.` parts and slashes inside parts, and a home
that is filled in keeps it so. An absolute path in that form is read back from its own text. -/
namespace Tinct.Path

structure Reduced (p : Path) : Prop where
  root : p.root = "" ∨ p.root = "/" ∨ p.root = "//"
  parts : ∀ part ∈ p.parts, part ≠ "" ∧ part ≠ "." ∧ '/' ∉ part.toList

def partsOf (cs : List Char) : List String :=
  ((cs.splitOn '/').map String.ofList).filter fun p => p ≠ "" && p ≠ "."

def joined (parts : List String) : List Char := ['/'].intercalate (parts.map String.toList)

theorem ofStringRead (s : String) : ofString s =
    ⟨if leadingSlashes s.toList = 0 then "" else if leadingSlashes s.toList = 2 then "//" else "/",partsOf s.toList⟩ := rfl

theorem pieceClean {cs piece : List Char} (member : piece ∈ cs.splitOn '/') : '/' ∉ piece := by
  induction cs generalizing piece with
  | nil =>
    rw [List.mem_singleton.mp member]
    simp
  | cons c rest ih =>
    rw [List.splitOn_cons_eq_if_modifyHead] at member
    split at member
    · rcases List.mem_cons.mp member with rfl | later
      · simp
      · exact ih later
    · rename_i other
      have different : '/' ≠ c := fun same => other (same ▸ beq_self_eq_true _)
      cases pieces : rest.splitOn '/' with
      | nil => simp [pieces] at member
      | cons first others =>
        rw [pieces,List.modifyHead_cons] at member
        rcases List.mem_cons.mp member with rfl | later
        · exact List.not_mem_cons_of_ne_of_not_mem different (ih (pieces ▸ List.mem_cons_self))
        · exact ih (pieces ▸ List.mem_cons_of_mem first later)

theorem ofStringReduced (s : String) : (ofString s).Reduced where
  root := by
    unfold ofString
    dsimp only
    split
    · exact .inl rfl
    · split
      · exact .inr (.inr rfl)
      · exact .inr (.inl rfl)
  parts := by
    intro part member
    obtain ⟨listed,kept⟩ := List.mem_filter.mp member
    obtain ⟨piece,inside,rfl⟩ := List.mem_map.mp listed
    simp only [Bool.and_eq_true,decide_eq_true_eq] at kept
    exact ⟨kept.1,kept.2,by rw [String.toList_ofList]; exact pieceClean inside⟩

theorem expandReduced {home : String} {accounts : Table String String} {p q : Path} (reduced : p.Reduced)
    (expanded : p.expandHome home accounts = .ok q) : q.Reduced := by
  unfold expandHome at expanded
  split at expanded
  · rename_i first rest root parts
    split at expanded
    · dsimp only at expanded
      split at expanded
      · rename_i folder found
        cases Except.ok.inj expanded
        have base := ofStringReduced folder
        refine ⟨base.root,?_⟩
        intro part member
        rcases List.mem_append.mp member with early | late
        · exact base.parts part early
        · exact reduced.parts part (parts ▸ List.mem_cons_of_mem first late)
      · contradiction
    · cases Except.ok.inj expanded
      exact reduced
  · cases Except.ok.inj expanded
    exact reduced

theorem slashesMore (cs : List Char) : leadingSlashes ('/' :: cs) = leadingSlashes cs + 1 := by simp [leadingSlashes]

theorem partsSlash (cs : List Char) : partsOf ('/' :: cs) = partsOf cs := by
  simp [partsOf,List.splitOn_cons_eq_if_modifyHead]

section
variable {p : Path}

theorem joinedRead (reduced : p.Reduced) : partsOf (joined p.parts) = p.parts := by
  have kept : p.parts.filter (fun part => part ≠ "" && part ≠ ".") = p.parts := by
    rw [List.filter_eq_self]
    intro part member
    simp [(reduced.parts part member).1,(reduced.parts part member).2.1]
  by_cases none : p.parts = []
  · rw [none]
    rfl
  · have clean : ∀ piece ∈ p.parts.map String.toList, '/' ∉ piece := by
      intro piece member
      obtain ⟨part,inside,rfl⟩ := List.mem_map.mp member
      exact (reduced.parts part inside).2.2
    have same : (p.parts.map String.toList).map String.ofList = p.parts := by simp
    rw [partsOf,joined,List.splitOn_intercalate '/' clean (by simpa using none),same,kept]

theorem joinedSlashes (reduced : p.Reduced) : leadingSlashes (joined p.parts) = 0 := by
  unfold leadingSlashes joined
  cases parts : p.parts with
  | nil => rfl
  | cons first rest =>
    obtain ⟨filled,_,clean⟩ := reduced.parts first (parts ▸ List.mem_cons_self)
    cases chars : first.toList with
    | nil => exact absurd (String.toList_eq_nil_iff.mp chars) filled
    | cons c cs =>
      have other : c ≠ '/' := by
        rintro rfl
        exact clean (chars ▸ List.mem_cons_self)
      cases rest <;> simp [List.intercalate,chars,other]

theorem textRead (reduced : p.Reduced) (absolute : p.isAbsolute = true) : ofString p.text = p := by
  have rooted : p.root ≠ "" := by simpa [isAbsolute] using absolute
  have chars : p.text.toList = p.root.toList ++ joined p.parts := by
    rw [text,if_neg fun both => rooted both.1,String.toList_append,String.toList_intercalate]
    rfl
  rcases reduced.root.resolve_left rooted with one | two
  · have whole : p.text.toList = '/' :: joined p.parts := by rw [chars,one]; rfl
    have slashes : leadingSlashes p.text.toList = 1 := by rw [whole,slashesMore,joinedSlashes reduced]
    have parts : partsOf p.text.toList = p.parts := by rw [whole,partsSlash,joinedRead reduced]
    rw [ofStringRead,slashes,parts,if_neg (by decide),if_neg (by decide),← one]
  · have whole : p.text.toList = '/' :: '/' :: joined p.parts := by rw [chars,two]; rfl
    have slashes : leadingSlashes p.text.toList = 2 := by rw [whole,slashesMore,slashesMore,joinedSlashes reduced]
    have parts : partsOf p.text.toList = p.parts := by rw [whole,partsSlash,partsSlash,joinedRead reduced]
    rw [ofStringRead,slashes,parts,if_neg (by decide),if_pos rfl,← two]

theorem textSlash (reduced : p.Reduced) (absolute : p.isAbsolute = true) : ∃ rest, p.text = "/" ++ rest := by
  have rooted : p.root ≠ "" := by simpa [isAbsolute] using absolute
  rw [text,if_neg fun both => rooted both.1]
  rcases reduced.root.resolve_left rooted with one | two
  · exact ⟨_,by rw [one]⟩
  · exact ⟨"/" ++ String.intercalate "/" p.parts,by rw [two,← String.append_assoc]; rfl⟩

theorem expandAbsolute (absolute : p.isAbsolute = true) (home : String) (accounts : Table String String) :
    p.expandHome home accounts = .ok p := by
  obtain ⟨root,parts⟩ := p
  have rooted : root ≠ "" := by simpa [isAbsolute] using absolute
  unfold expandHome
  split
  · rename_i same _
    exact absurd same rooted
  · rfl

end
end Tinct.Path
