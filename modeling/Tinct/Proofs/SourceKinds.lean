import Tinct.Query.Grammar
import Mathlib.Data.List.TakeWhile

/-! The kinds of query sources do not overlap. A reference is two names with a colon between them; neither name can hold
the colon, so the first colon is the only one and parts a reference in one way. The second name has no dot, so no
reference ends as a file name does, and either test may be made first. Blanks around a source count only where
it is the query text itself. -/
namespace Tinct

namespace Text

def Blank (t : Text) : Prop := ∀ c ∈ t, isBlank c = true

def splitOnce (separator : Char) (t : Text) : List Text :=
  match t.dropWhile (· ≠ separator) with
  | [] => [t]
  | _::after => [t.takeWhile (· ≠ separator),after]

section
variable {separator : Char} {t before after : Text}

theorem splitLeft (plain : separator ∉ before) (after : Text) :
    (before ++ separator::after).takeWhile (· ≠ separator) = before ∧
    (before ++ separator::after).dropWhile (· ≠ separator) = separator::after := by
  have all : ∀ c ∈ before, decide (c ≠ separator) = true := by
    intro c member
    simp only [ne_eq,decide_eq_true_eq]
    rintro rfl
    exact plain member
  rw [List.takeWhile_append_of_pos all,List.dropWhile_append_of_pos all]
  simp

theorem splitRead {c : Char} (found : t.dropWhile (· ≠ separator) = c::after) :
    t = t.takeWhile (· ≠ separator) ++ separator::after := by
  have stopped : c = separator := by
    have head := List.head?_dropWhile_not (· ≠ separator) t
    rw [found] at head
    simpa using head
  have whole := List.takeWhile_append_dropWhile (p := (· ≠ separator)) (l := t)
  rw [found,stopped] at whole
  exact whole.symm

theorem stripPadded (lead : before.Blank) (tail : after.Blank) (t : Text) : strip (before ++ t ++ after) = strip t := by
  have none : after.dropWhile isBlank = [] := List.dropWhile_eq_nil_iff.mpr tail
  unfold strip
  rw [List.append_assoc,List.dropWhile_append_of_pos lead,List.dropWhile_append]
  split
  · rename_i blank
    rw [none,List.isEmpty_iff.mp blank]
  · rw [List.reverse_append,List.dropWhile_append_of_pos]
    exact fun c member => tail c (List.mem_reverse.mp member)

end
end Text

namespace Query

inductive NameStart (c : Char) : Prop where
  | upper (low : 'A' ≤ c) (high : c ≤ 'Z')
  | lower (low : 'a' ≤ c) (high : c ≤ 'z')
  | underscore (same : c = '_')

inductive Named (rest : Char → Prop) : Text → Prop where
  | mk {first : Char} {others : Text} (start : NameStart first) (inside : ∀ c ∈ others, rest c) :
      Named rest (first::others)

structure Reference (t package member : Text) : Prop where
  whole : t = package ++ ':'::member
  left : Named (fun c => Text.isWord c = true ∨ c = '.') package
  right : Named (fun c => Text.isWord c = true) member

structure FileName (t : Text) : Prop where
  oneLine : '\n' ∉ t
  ending : ".scm".toList <:+ t

inductive Kind where
  | member | file | inline
  deriving DecidableEq, Repr

def Source.kind : Source → Kind
  | member _ _ => .member
  | file _ => .file
  | inline _ => .inline

def Source.classifyFilesFirst (source : Text) : Source :=
  let t := Text.strip source
  if isFile t then .file t
  else match member? t with
    | some (package,name) => .member package name
    | none => .inline source

def referenced (cat : Catalogue) (package member : Text) : Except Failure Text :=
  match cat.text? (String.ofList package) (String.ofList member) with
  | some text => .ok text.toList
  | none => .error (.fault (.querySourceMissing (String.ofList (package ++ ':'::member))))

theorem nameStartIff (c : Char) : Text.isNameStart c = true ↔ NameStart c := by
  have spelled : Text.isNameStart c =
      (decide ('A' ≤ c ∧ c ≤ 'Z') || (decide ('a' ≤ c) && decide (c ≤ 'z')) || decide (c = '_')) := rfl
  simp only [spelled,Bool.or_eq_true,Bool.and_eq_true,decide_eq_true_eq]
  constructor
  · rintro ((upper | lower) | same)
    · exact .upper upper.1 upper.2
    · exact .lower lower.1 lower.2
    · exact .underscore same
  · rintro (⟨low,high⟩ | ⟨low,high⟩ | same)
    · exact .inl (.inl ⟨low,high⟩)
    · exact .inl (.inr ⟨low,high⟩)
    · exact .inr same

theorem namedIff {rest : Char → Bool} {t : Text} : isName rest t = true ↔ Named (fun c => rest c = true) t := by
  cases t with
  | nil =>
    constructor
    · nofun
    · nofun
  | cons c others =>
    rw [isName,Bool.and_eq_true,nameStartIff,List.all_eq_true]
    constructor
    · exact fun both => .mk both.1 both.2
    · rintro ⟨start,inside⟩
      exact ⟨start,inside⟩

theorem packageNamedIff {t : Text} :
    isName isPackageChar t = true ↔ Named (fun c => Text.isWord c = true ∨ c = '.') t := by
  rw [namedIff]
  simp only [isPackageChar,Bool.or_eq_true,decide_eq_true_eq]

theorem namedLacks {rest : Char → Prop} {t : Text} (named : Named rest t) {c : Char} (strange : ¬ NameStart c)
    (other : ¬ rest c) : c ∉ t := by
  cases named with
  | mk start inside =>
    intro member
    rcases List.mem_cons.mp member with rfl | later
    · exact strange start
    · exact other (inside c later)

theorem markStrange {c : Char} (mark : c = ':' ∨ c = '.') : ¬ NameStart c ∧ Text.isWord c = false := by
  rw [← nameStartIff]
  rcases mark with rfl | rfl
  · decide +kernel
  · decide +kernel

section
variable {t package member : Text}

theorem referenceParted (reference : Reference t package member) :
    t.takeWhile (· ≠ ':') = package ∧ t.dropWhile (· ≠ ':') = ':'::member := by
  obtain ⟨strange,noWord⟩ := markStrange (c := ':') (.inl rfl)
  have plain : ':' ∉ package := namedLacks reference.left strange (by simp [noWord])
  rw [reference.whole]
  exact Text.splitLeft plain member

theorem memberIff : member? t = some (package,member) ↔ Reference t package member := by
  constructor
  · intro found
    unfold member? at found
    split at found
    · contradiction
    · rename_i rest
      dsimp only at found
      split at found
      · rename_i named
        rw [Bool.and_eq_true,packageNamedIff,namedIff] at named
        cases Option.some.inj found
        exact ⟨Text.splitRead rest,named.1,named.2⟩
      · contradiction
  · intro reference
    obtain ⟨before,after⟩ := referenceParted reference
    have named : (isName isPackageChar package && isName Text.isWord member) = true := by
      rw [Bool.and_eq_true,packageNamedIff,namedIff]
      exact ⟨reference.left,reference.right⟩
    simp only [member?,after,before,named,if_true]

theorem fileIff : isFile t = true ↔ FileName t := by
  rw [isFile,Bool.and_eq_true,Bool.not_eq_true',List.isSuffixOf_iff_suffix,Bool.eq_false_iff,ne_eq,List.contains_iff_mem]
  exact ⟨fun both => ⟨both.1,both.2⟩,fun name => ⟨name.1,name.2⟩⟩

-- The ending would reach over the colon, or lie in the second name; it has no colon, and that name has no dot.
theorem referenceNoFile (reference : Reference t package member) : ¬ FileName t := by
  rintro ⟨_,ending⟩
  have tail : (':'::member) <:+ t := ⟨package,reference.whole.symm⟩
  obtain ⟨strange,noWord⟩ := markStrange (c := '.') (.inr rfl)
  have plain : '.' ∉ member := namedLacks reference.right strange (by simp [noWord])
  rcases List.suffix_or_suffix_of_suffix ending tail with inner | outer
  · rcases List.suffix_cons_iff.mp inner with same | later
    · simp at same
    · exact plain (later.mem (by decide))
  · have colon : ':' ∈ ".scm".toList := outer.mem List.mem_cons_self
    exact absurd colon (by decide)

theorem classifyMember : Source.classify t = .member package member ↔ Reference (Text.strip t) package member := by
  simp only [← memberIff,Source.classify]
  cases found : member? (Text.strip t) with
  | none =>
    dsimp only
    split <;> simp
  | some parts => simp [Prod.ext_iff]

theorem classifyFile : Source.classify t = .file (Text.strip t) ↔ FileName (Text.strip t) := by
  simp only [Source.classify]
  cases found : member? (Text.strip t) with
  | none =>
    dsimp only
    rw [← fileIff]
    split
    · rename_i file
      exact iff_of_true rfl file
    · rename_i other
      exact iff_of_false nofun other
  | some parts => exact iff_of_false nofun (referenceNoFile (memberIff.mp found))

theorem classifyInline (noReference : ∀ package member, ¬ Reference (Text.strip t) package member)
    (noFile : ¬ FileName (Text.strip t)) : Source.classify t = .inline t := by
  have none : member? (Text.strip t) = none := by
    rw [Option.eq_none_iff_forall_ne_some]
    exact fun parts found => noReference parts.1 parts.2 (memberIff.mp found)
  simp only [Source.classify,none]
  exact if_neg fun file => noFile (fileIff.mp file)

theorem filesFirst (t : Text) : Source.classifyFilesFirst t = Source.classify t := by
  simp only [Source.classifyFilesFirst,Source.classify]
  cases found : member? (Text.strip t) with
  | none => rfl
  | some parts => exact if_neg fun file => referenceNoFile (memberIff.mp found) (fileIff.mp file)

end

theorem kindStripped {s t : Text} (same : Text.strip s = Text.strip t) :
    (Source.classify s).kind = (Source.classify t).kind := by
  simp only [Source.classify,same]
  split
  · rfl
  · split <;> rfl

theorem resolveStripped {s t : Text} (same : Text.strip s = Text.strip t) (named : (Source.classify t).kind ≠ .inline)
    (cat : Catalogue) (files : Files) : resolve cat files s = resolve cat files t := by
  have classified : Source.classify s = Source.classify t := by
    simp only [Source.classify,same] at named ⊢
    split
    · rfl
    · rename_i none
      simp only [none] at named
      split
      · rfl
      · rename_i inline
        simp only [if_neg inline,Source.kind,ne_eq,not_true] at named
  simp only [resolve,classified,same]

structure Unambiguous (s : Text) : Prop where
  reference : ∀ package member, Source.classify s = .member package member ↔ Reference (Text.strip s) package member
  looked : ∀ package member, Reference (Text.strip s) package member →
    ∀ cat files, resolve cat files s = referenced cat package member
  unique : ∀ package member other another, Reference (Text.strip s) package member →
    Reference (Text.strip s) other another → other = package ∧ another = member
  split : ∀ package member, Reference (Text.strip s) package member →
    Text.splitOnce ':' (Text.strip s) = [package,member]
  path : Source.classify s = .file (Text.strip s) ↔ FileName (Text.strip s)
  apart : ∀ package member, Reference (Text.strip s) package member → ¬ FileName (Text.strip s)
  order : Source.classifyFilesFirst s = Source.classify s
  padded : ∀ before after, Text.Blank before → Text.Blank after →
    (Source.classify (before ++ s ++ after)).kind = (Source.classify s).kind ∧
    ((Source.classify s).kind ≠ .inline → ∀ cat files, resolve cat files (before ++ s ++ after) = resolve cat files s)
  verbatim : (∀ package member, ¬ Reference (Text.strip s) package member) → ¬ FileName (Text.strip s) →
    ∀ cat files, resolve cat files s = .ok s

theorem sourcesUnambiguous (s : Text) : Unambiguous s where
  reference := fun package member => classifyMember
  looked := by
    intro package member reference cat files
    have found := classifyMember.mpr reference
    cases held : cat.text? (String.ofList package) (String.ofList member) with
    | none => simp only [resolve,found,held,referenced,← reference.whole]
    | some text => simp only [resolve,found,held,referenced]
  unique := by
    intro package member other another mine yours
    have parts := Option.some.inj ((memberIff.mpr yours).symm.trans (memberIff.mpr mine))
    exact ⟨congrArg Prod.fst parts,congrArg Prod.snd parts⟩
  split := by
    intro package member reference
    obtain ⟨before,after⟩ := referenceParted reference
    simp only [Text.splitOnce,after,before]
  path := classifyFile
  apart := fun package member reference => referenceNoFile reference
  order := filesFirst s
  padded := by
    intro before after lead tail
    have same := Text.stripPadded lead tail s
    exact ⟨kindStripped same,resolveStripped same⟩
  verbatim := by
    intro noReference noFile cat files
    simp only [resolve,classifyInline noReference noFile]

example : Source.classify "\u00a0pack.é:QUERY\n".toList = .member "pack.é".toList "QUERY".toList := by decide +kernel

end Query
end Tinct
