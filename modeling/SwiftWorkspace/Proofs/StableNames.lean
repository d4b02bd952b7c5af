import SwiftWorkspace.Proofs.CanonicalNames

/-!
# Stable names

A canonical name is cut out of its reference between separators, and what has been cut out is not
looked at again.  So it need not be its own canonical name: a blank next to a separator is still at
its end, a segment of an address can hold backslashes, and a segment of a path can be an address.
In every other case it is.
-/

namespace SwiftWorkspace

namespace Text

variable {drop : Char → Bool} {text part : Text}

@[simp] theorem strip_strip (text : Text) : text.strip.strip = text.strip := by
  have front : text.strip.dropWhile isBlank = text.strip := by
    refine List.dropWhile_eq_self_iff.mpr fun filled => ?_
    obtain ⟨rest, whole⟩ : text.strip <+: text.dropWhile isBlank := List.rdropWhile_prefix isBlank _
    have first := List.head?_dropWhile_not isBlank text
    rw [← whole, List.head?_append_of_ne_nil _ (List.ne_nil_of_length_pos filled),
      List.head?_eq_getElem?, List.getElem?_eq_getElem filled] at first
    simpa using first
  rw [strip, trim, trimStart, front]
  exact List.rdropWhile_idempotent isBlank _

theorem trimEnd_append_of_forall (keeps : ∀ char ∈ part, drop char = false) :
    trimEnd drop (part ++ text) = part ++ trimEnd drop text := by
  have kept : part.reverse.dropWhile drop = part.reverse := by
    refine List.dropWhile_eq_self_iff.mpr fun filled => ?_
    simpa using keeps _ (List.mem_reverse.mp (List.getElem_mem filled))
  rw [trimEnd, trimEnd, List.reverse_append, List.dropWhile_append]
  split
  case isTrue empty => rw [List.isEmpty_iff.mp empty, kept, List.reverse_reverse, List.reverse_nil,
    List.append_nil]
  case isFalse => rw [List.reverse_append, List.reverse_reverse]

end Text

namespace Reference

variable {reference candidate : Text} {char : Char}

def partsAddress (char : Char) : Bool := char = '/' || char = ':'

def partsPath (char : Char) : Bool := char = '/' || char = '\\'

theorem partsPath_iff : partsPath char ↔ (if char = '\\' then '/' else char) = '/' := by
  by_cases backslash : char = '\\' <;> simp [partsPath, backslash]

/-- A character of a kind that leaves out two others is neither of them. -/
theorem neither_of_allowed {allowed : Char → Bool} {first second : Char}
    (noFirst : allowed first = false) (noSecond : allowed second = false) (holds : allowed char) :
    (decide (char = first) || decide (char = second)) = false := by
  simp only [Bool.or_eq_false_iff, decide_eq_false_iff_not]
  constructor <;> rintro rfl <;> simp_all

theorem partsAddress_eq_false {allowed : Char → Bool} (slash : allowed '/' = false)
    (colon : allowed ':' = false)
    (holds : allowed char) : partsAddress char = false := neither_of_allowed slash colon holds

theorem partsPath_eq_false {allowed : Char → Bool} (slash : allowed '/' = false)
    (backslash : allowed '\\' = false)
    (holds : allowed char) : partsPath char = false := neither_of_allowed slash backslash holds

def IsSegment (text : Text) : Prop :=
  (∃ char ∈ text, partsPath char) → ∀ char ∈ text, partsPath char

theorem isRemote_strip (reference : Text) : isRemote reference.strip = isRemote reference := by
  simp only [isRemote, Text.strip_strip]

theorem withoutArchiveSuffix_eq_nil {segment : Text} (empty : withoutArchiveSuffix segment = []) :
    segment = [] ∨ segment = archiveSuffix := by
  rw [withoutArchiveSuffix] at empty
  split at empty
  case isTrue isSuffix =>
      obtain ⟨front, rfl⟩ := List.isSuffixOf_iff_suffix.mp isSuffix
      simp at empty
      exact .inr (by simp [empty])
  case isFalse => exact .inl empty

/--
Whether a text begins with a segment of an address that names something, and with what separates
it from the next segment.
-/
def StartsWithSegment (text : Text) : Prop :=
  ∃ head separator tail, text = head ++ separator :: tail ∧ partsAddress separator ∧
    (∀ char ∈ head, partsAddress char = false) ∧ withoutArchiveSuffix head ≠ []

theorem partsAddress_of_mem_takeWhile_isHostChar (member : char ∈ candidate.takeWhile isHostChar) :
    partsAddress char = false :=
  partsAddress_eq_false (by decide) (by decide) (List.all_eq_true.mp List.all_takeWhile char member)

/--
A scheme is a segment: it starts with a letter, so that more than an archive's ending is there.
-/
theorem startsWithSegment_of_hasScheme (scheme : hasScheme candidate) :
    StartsWithSegment candidate := by
  cases candidate with
  | nil => simp [hasScheme] at scheme
  | cons first rest =>
      simp only [hasScheme, Bool.and_eq_true, decide_eq_true_eq] at scheme
      obtain ⟨letter, marks⟩ := scheme
      obtain ⟨tail, behind⟩ : ∃ tail, rest.dropWhile isSchemeChar = ':' :: tail := by
        cases behind : rest.dropWhile isSchemeChar <;> simp_all
      refine ⟨first :: rest.takeWhile isSchemeChar, ':', tail, ?_, rfl, ?_, fun empty => ?_⟩
      · rw [← behind, List.cons_append, List.takeWhile_append_dropWhile]
      · intro char member
        rcases List.mem_cons.mp member with rfl | member
        · exact partsAddress_eq_false (by decide) (by decide) letter
        · exact partsAddress_eq_false (by decide) (by decide)
            (List.all_eq_true.mp List.all_takeWhile char member)
      · rcases withoutArchiveSuffix_eq_nil empty with none | suffix
        · cases none
        · rw [archiveSuffix, List.cons.injEq] at suffix
          rw [suffix.1] at letter
          exact absurd letter (by decide)

/--
A user's name and the host are a segment: the mark between them does not stand in an archive's
ending.
-/
theorem startsWithSegment_of_hasUserHost (userHost : hasUserHost candidate) :
    StartsWithSegment candidate := by
  rw [hasUserHost] at userHost
  split at userHost
  case h_2 => cases userHost
  case h_1 first user rest userIs restIs =>
      simp only [Bool.and_eq_true, decide_eq_true_eq] at userHost
      obtain ⟨tail, behind⟩ : ∃ tail, rest.dropWhile isHostChar = ':' :: tail := by
        cases behind : rest.dropWhile isHostChar <;> simp_all
      refine ⟨first :: user ++ '@' :: rest.takeWhile isHostChar, ':', tail, ?_, rfl, ?_,
        fun empty => ?_⟩
      · rw [List.append_assoc, List.cons_append (a := '@'), ← behind,
          List.takeWhile_append_dropWhile, ← restIs, ← userIs, List.takeWhile_append_dropWhile]
      · intro char member
        simp only [List.mem_append, List.mem_cons (b := '@')] at member
        rcases member with user | rfl | host
        · exact partsAddress_of_mem_takeWhile_isHostChar (userIs ▸ user)
        · rfl
        · exact partsAddress_of_mem_takeWhile_isHostChar host
      · have at_mem : '@' ∈ first :: user ++ '@' :: rest.takeWhile isHostChar := by simp
        rcases withoutArchiveSuffix_eq_nil empty with none | suffix
        · simp at none
        · rw [suffix] at at_mem
          exact absurd at_mem (by decide)

/--
A host in a domain is a segment: its first label is not empty, as that of an archive's ending
is.
-/
theorem startsWithSegment_of_hasHost (host : hasHost candidate) : StartsWithSegment candidate := by
  simp only [hasHost, Bool.and_eq_true] at host
  obtain ⟨domain, path⟩ := host
  obtain ⟨separator, tail, behind, parts⟩ : ∃ separator tail,
      candidate.dropWhile isHostChar = separator :: tail ∧ partsAddress separator := by
    unfold startsPath at path
    split at path
    case h_1 tail behind => exact ⟨'/', tail, behind, rfl⟩
    case h_2 tail behind => exact ⟨':', tail, behind, rfl⟩
    case h_3 => cases path
  refine ⟨candidate.takeWhile isHostChar, separator, tail, ?_, parts,
    fun char member => partsAddress_of_mem_takeWhile_isHostChar member, fun empty => ?_⟩
  · rw [← behind, List.takeWhile_append_dropWhile]
  · rcases withoutArchiveSuffix_eq_nil empty with none | suffix
    · rw [none] at domain
      exact absurd domain (by decide)
    · rw [suffix] at domain
      exact absurd domain (by decide)

/-- An address begins with a segment that names something, its scheme or its host. -/
theorem startsWithSegment_of_isRemote (remote : isRemote reference) :
    StartsWithSegment reference.strip := by
  simp only [isRemote, Bool.or_eq_true] at remote
  rcases remote with (scheme | userHost) | host
  · exact startsWithSegment_of_hasScheme scheme
  · exact startsWithSegment_of_hasUserHost userHost
  · exact startsWithSegment_of_hasHost host

theorem segments_eq (address : Text) : segments address = address.splitOnP partsAddress := rfl

theorem mem_segments_of_head {head tail : Text} {separator : Char} (parts : partsAddress separator)
    (whole : ∀ char ∈ head, partsAddress char = false) :
    head ∈ segments (Text.trimEnd (· = '/') (head ++ separator :: tail)) := by
  have kept : ∀ char ∈ head, decide (char = '/') = false := fun char member => by
    have differs := whole char member
    simp only [partsAddress, Bool.or_eq_false_iff] at differs
    exact differs.1
  obtain ⟨rest, behind⟩ := List.rdropWhile_prefix (fun char => decide (char = '/'))
    (separator :: tail)
  rw [Text.trimEnd_append_of_forall kept, segments_eq, Text.trimEnd_eq]
  cases left : (separator :: tail).rdropWhile fun char => decide (char = '/') with
  | nil =>
      rw [List.append_nil, List.splitOnP_eq_singleton whole]
      exact .head _
  | cons first left' =>
      rw [left, List.cons_append, List.cons.injEq] at behind
      rw [behind.1, List.splitOnP_append_cons_of_forall_mem whole separator parts]
      exact .head _

theorem repositoryName_of_startsWithSegment (start : StartsWithSegment candidate) :
    repositoryName candidate ≠ [] ∧
      ∀ char ∈ repositoryName candidate, partsAddress char = false := by
  obtain ⟨head, separator, tail, rfl, parts, whole, named⟩ := start
  have member : head ∈ segments (Text.trimEnd (· = '/') (head ++ separator :: tail)) :=
    mem_segments_of_head parts whole
  rcases repositoryName_cases (head ++ separator :: tail) with ⟨-, nameless⟩ |
    ⟨segment, inside, same, filled⟩
  · exact absurd (nameless head member) named
  · refine ⟨filled, fun char there => ?_⟩
    rw [same] at there
    exact (Text.sublist_of_mem_splitOnP inside).2 char
      ((withoutArchiveSuffix_sublist segment).subset there)

theorem exists_partsAddress_of_isRemote (remote : isRemote reference) :
    ∃ char ∈ reference, partsAddress char := by
  obtain ⟨head, separator, tail, whole, parts, -, -⟩ := startsWithSegment_of_isRemote remote
  exact ⟨separator, Text.mem_of_mem_strip (whole ▸ by simp), parts⟩

/--
The name of a path is a segment: of nothing but separators there is no last one, and they stay.
-/
theorem isSegment_directoryName (path : Text) : IsSegment (directoryName path) := by
  rcases directoryName_cases path with ⟨same, empty⟩ | ⟨inside, noSlash⟩
  · intro _ char member
    have slash := List.rdropWhile_eq_nil_iff.mp empty _ (List.mem_map_of_mem (same ▸ member))
    exact partsPath_iff.mpr (of_decide_eq_true slash)
  · rintro ⟨char, member, parts⟩
    obtain ⟨old, -, rfl⟩ := List.mem_map.mp (inside.subset member)
    rw [partsPath_iff] at parts
    split at parts <;> simp_all

/-- What a path or a short name stands for is a single segment. -/
theorem isSegment_canonicalName (path : isRemote reference = false) :
    IsSegment (canonicalName reference) := by
  simp only [canonicalName]
  split
  case isTrue empty => simp [IsSegment, List.isEmpty_iff.mp empty]
  case isFalse =>
      rw [isRemote_strip, path, if_neg (by decide)]
      split
      case isTrue => exact isSegment_directoryName _
      case isFalse noParts =>
          rintro ⟨char, member, parts⟩
          simp only [partsPath, Bool.or_eq_true, decide_eq_true_eq] at parts
          rcases parts with rfl | rfl <;> simp_all

theorem canonicalName_of_isRemote (remote : isRemote reference) :
    canonicalName reference = repositoryName reference.strip := by
  have filled : reference.strip ≠ [] := by
    obtain ⟨head, separator, tail, whole, -⟩ := startsWithSegment_of_isRemote remote
    simp [whole]
  simp only [canonicalName, isRemote_strip, remote, List.isEmpty_iff, filled, if_true, if_false]

/-- What an address stands for is no address: the first separator of an address is missing in it. -/
theorem isRemote_canonicalName (remote : isRemote reference) :
    isRemote (canonicalName reference) = false := by
  refine Bool.eq_false_iff.mpr fun again => ?_
  obtain ⟨char, member, parts⟩ := exists_partsAddress_of_isRemote again
  rw [canonicalName_of_isRemote remote] at member
  have whole := (repositoryName_of_startsWithSegment (startsWithSegment_of_isRemote remote)).2
    char member
  exact absurd parts (by simp [whole])

theorem length_directoryName_le (path : Text) : (directoryName path).length ≤ path.length := by
  rcases directoryName_cases path with ⟨same, -⟩ | ⟨inside, -⟩
  · exact Nat.le_of_eq (congrArg List.length same)
  · exact Nat.le_trans inside.length_le (Nat.le_of_eq (List.length_map _))

/-- A canonical name is not longer than its reference without the blanks around it. -/
theorem length_canonicalName_le (reference : Text) :
    (canonicalName reference).length ≤ reference.strip.length := by
  simp only [canonicalName]
  split
  case isTrue => exact Nat.le_refl _
  case isFalse =>
      split
      case isTrue => exact (repositoryName_sublist _).length_le
      case isFalse =>
          split
          case isTrue => exact length_directoryName_le _
          case isFalse => exact Nat.le_refl _

theorem directoryName_of_isSegment {name : Text} (segment : IsSegment name)
    (parted : ∃ char ∈ name, partsPath char) : directoryName name = name := by
  have none : Text.trimEnd (· = '/') (Text.replace '\\' '/' name) = [] := by
    rw [Text.trimEnd_eq, List.rdropWhile_eq_nil_iff, Text.replace]
    intro char member
    obtain ⟨old, inside, rfl⟩ := List.mem_map.mp member
    exact decide_eq_true (partsPath_iff.mp (segment parted old inside))
  simp [directoryName, none]

/-- A scheme ends in slashes, and starts with a letter. -/
theorem not_isSegment_of_hasScheme (scheme : hasScheme candidate) : ¬ IsSegment candidate := by
  intro segment
  cases candidate with
  | nil => simp [hasScheme] at scheme
  | cons first rest =>
      simp only [hasScheme, Bool.and_eq_true, decide_eq_true_eq] at scheme
      have slash : '/' ∈ rest := (List.dropWhile_suffix isSchemeChar).subset
        (List.mem_of_mem_take (scheme.2 ▸ by simp : '/' ∈ (rest.dropWhile isSchemeChar).take 3))
      have parts := segment ⟨'/', .tail _ slash, rfl⟩ first (.head _)
      exact absurd parts (by simp [partsPath_eq_false (by decide) (by decide) scheme.1])

/-- A host has a slash behind it, and starts with a character that parts no segments. -/
theorem not_isSegment_of_hasHost (host : hasHost candidate) : ¬ IsSegment candidate := by
  intro segment
  simp only [hasHost, Bool.and_eq_true] at host
  obtain ⟨domain, path⟩ := host
  have slash : '/' ∈ candidate.dropWhile isHostChar := by
    unfold startsPath at path
    split at path
    case h_1 tail behind => rw [behind]; exact .head _
    case h_2 tail behind =>
        simp only [Bool.and_eq_true, decide_eq_true_eq] at path
        rw [behind]
        exact .tail _ ((List.dropWhile_suffix isDecimalDigit).subset (List.mem_of_head? path.2))
    case h_3 => cases path
  have parted := segment ⟨'/', (List.dropWhile_suffix isHostChar).subset slash, rfl⟩
  cases filled : candidate.takeWhile isHostChar with
  | nil =>
      rw [filled] at domain
      exact absurd domain (by decide)
  | cons first rest =>
      have member : first ∈ candidate.takeWhile isHostChar := filled ▸ .head _
      have allowed := List.all_eq_true.mp List.all_takeWhile first member
      have parts := parted first ((List.takeWhile_prefix isHostChar).subset member)
      exact absurd parts (by simp [partsPath_eq_false (by decide) (by decide) allowed])

/-- A segment is an address only in the form of a user's name and a host. -/
theorem isRemote_of_isSegment {name : Text} (segment : IsSegment name) :
    isRemote name = hasUserHost name.strip := by
  have stripped : IsSegment name.strip := fun ⟨char, member, parts⟩ other inside =>
    segment ⟨char, Text.mem_of_mem_strip member, parts⟩ other (Text.mem_of_mem_strip inside)
  have noScheme := Bool.eq_false_iff.mpr fun scheme => not_isSegment_of_hasScheme scheme stripped
  have noHost := Bool.eq_false_iff.mpr fun host => not_isSegment_of_hasHost host stripped
  simp [isRemote, noScheme, noHost]

/--
A reference is its own canonical name when it is a segment without blanks around it, and no
address.
-/
theorem canonicalName_eq_self_iff {name : Text} :
    canonicalName name = name ↔ name.strip = name ∧ isRemote name = false ∧ IsSegment name := by
  constructor
  · intro same
    have whole : name.strip = name := (Text.strip_sublist name).eq_of_length_le
      (Nat.le_trans (Nat.le_of_eq (congrArg List.length same.symm)) (length_canonicalName_le name))
    have path : isRemote name = false := by
      refine Bool.eq_false_iff.mpr fun remote => ?_
      have := isRemote_canonicalName remote
      rw [same, remote] at this
      cases this
    exact ⟨whole, path, same ▸ isSegment_canonicalName path⟩
  · rintro ⟨whole, path, segment⟩
    simp only [canonicalName, whole, path]
    split
    case isTrue => rfl
    case isFalse =>
        rw [if_neg (by decide)]
        split
        case isTrue parted =>
            refine directoryName_of_isSegment segment ?_
            simp only [Bool.or_eq_true, List.elem_eq_mem, decide_eq_true_eq] at parted
            rcases parted with slash | backslash
            · exact ⟨'/', slash, rfl⟩
            · exact ⟨'\\', backslash, rfl⟩
        case isFalse => rfl

/-- What keeps the canonical name of a reference as it is when its own canonical name is taken. -/
structure IsSettled (reference : Text) : Prop where
  /-- No blank next to a separator has come to an end of the name. -/
  stripped : (canonicalName reference).strip = canonicalName reference
  /-- The last segment of an address is not parted further by backslashes. -/
  address : isRemote reference → IsSegment (canonicalName reference)
  /-- The last segment of a path does not look like a user's name and a host. -/
  path : isRemote reference = false → hasUserHost (canonicalName reference) = false

/-- The canonical name of a reference is its own canonical name exactly when it is settled. -/
theorem canonicalName_canonicalName_iff (reference : Text) :
    canonicalName (canonicalName reference) = canonicalName reference ↔ IsSettled reference := by
  rw [canonicalName_eq_self_iff]
  constructor
  · rintro ⟨stripped, path, segment⟩
    refine ⟨stripped, fun _ => segment, fun _ => ?_⟩
    rwa [isRemote_of_isSegment segment, stripped] at path
  · intro settled
    cases remote : isRemote reference with
    | true => exact ⟨settled.stripped, isRemote_canonicalName remote, settled.address remote⟩
    | false =>
        have segment := isSegment_canonicalName remote
        refine ⟨settled.stripped, ?_, segment⟩
        rw [isRemote_of_isSegment segment, settled.stripped]
        exact settled.path remote

-- The names in between are " core", "a\\b" and "u@h:core".
example : ["libs/ core", "https://h/a\\b", "libs/u@h:core"].map
      (fun reference => canonicalName (canonicalName reference.toList)) =
    ["core", "b", "core"].map String.toList := by decide

end Reference

end SwiftWorkspace
