import Mathlib.Data.List.Chain
import SwiftWorkspace.Proofs.Precedence
import SwiftWorkspace.Proofs.StableNames

/-!
# Stable roots

A root is stripped before the dots in front of it and the slashes behind it are dropped, and what
stood next to these is not looked at again.  So a root in normal form may begin or end with a blank.
It is then no root in normal form any more: an index that holds it does not know it.  Every other
root in normal form stays as it is, and is accepted by the index that gives it.
-/

namespace SwiftWorkspace

namespace Text

variable {text : Text}

theorem strip_infix (text : Text) : text.strip <:+: text :=
  (List.rdropWhile_prefix isBlank _).isInfix.trans (List.dropWhile_suffix isBlank).isInfix

theorem strip_eq_self_iff : text.strip = text ↔
    (∀ char ∈ text.head?, isBlank char = false) ∧ ∀ char ∈ text.getLast?, isBlank char = false := by
  have front : text.dropWhile isBlank = text ↔ ∀ char ∈ text.head?, isBlank char = false := by
    cases text <;> simp [List.dropWhile_eq_self_iff]
  have back : trimEnd isBlank text = text ↔ ∀ char ∈ text.getLast?, isBlank char = false := by
    rw [trimEnd_eq, List.rdropWhile_eq_self_iff]
    constructor
    · intro keeps char last
      obtain ⟨filled, rfl⟩ := List.mem_getLast?_eq_getLast last
      simpa using keeps filled
    · intro keeps filled
      simpa using keeps _ (List.getLast_mem_getLast? filled)
  rw [← front, ← back]
  constructor
  · intro same
    have start : text.dropWhile isBlank = text := by
      apply (List.dropWhile_sublist isBlank).antisymm
      have rest := trimEnd_sublist isBlank (text.dropWhile isBlank)
      rwa [← trimStart, ← trim, ← strip, same] at rest
    rw [strip, trim, trimStart, start] at same
    exact ⟨start, same⟩
  · rintro ⟨start, stop⟩
    rw [strip, trim, trimStart, start, stop]

end Text

namespace Project

variable {root text : Text}

theorem dropLeadingDots_ne (text rest : Text) : dropLeadingDots text ≠ '.' :: '/' :: rest := by
  fun_induction dropLeadingDots text with
  | case1 text ih => exact ih
  | case2 text other => exact other rest

theorem dropLeadingDots_of_ne (ahead : ∀ rest, text ≠ '.' :: '/' :: rest) :
    dropLeadingDots text = text := by
  unfold dropLeadingDots
  split
  · exact absurd rfl (ahead _)
  · rfl

/-- What is left behind leading dots is the text itself, or stands behind a slash in it. -/
theorem dropLeadingDots_cases (text : Text) :
    dropLeadingDots text = text ∨ ∃ front, text = front ++ '/' :: dropLeadingDots text := by
  fun_induction dropLeadingDots text with
  | case1 text ih =>
      right
      rcases ih with same | ⟨front, split⟩
      · exact ⟨['.'], by rw [same]; rfl⟩
      · exact ⟨'.' :: '/' :: front, by rw [List.cons_append, List.cons_append, ← split]⟩
  | case2 text other => exact .inl rfl

theorem dropLeadingDots_suffix (text : Text) : dropLeadingDots text <:+ text := by
  rcases dropLeadingDots_cases text with same | ⟨front, split⟩
  · exact ⟨[], by rw [List.nil_append, same]⟩
  · exact ⟨front ++ ['/'], by rw [List.append_assoc]; exact split.symm⟩

/-- What trailing slashes leave of a text, and these. -/
theorem trimEnd_cases (text : Text) :
    ∃ rest, text = Text.trimEnd (· = '/') text ++ rest ∧ ∀ char ∈ rest, char = '/' := by
  refine ⟨text.rtakeWhile (· = '/'), ?_, ?_⟩
  · have whole := congrArg List.reverse
      (List.takeWhile_append_dropWhile (p := (· = '/')) (l := text.reverse))
    rw [List.reverse_append, List.reverse_reverse] at whole
    exact whole.symm
  · intro char member
    simpa using List.mem_rtakeWhile_imp member

/-- What every root in normal form has in common. -/
structure IsKey (root : Text) : Prop where
  filled : root ≠ []
  noBackslash : '\\' ∉ root
  noLeadingDots : dropLeadingDots root = root
  noTrailingSlashes : Text.trimEnd (· = '/') root = root

theorem isKey_normalizeRoot (root : Text) : IsKey (normalizeRoot root) := by
  rw [normalizeRoot]
  split
  case isTrue => exact ⟨by decide, by decide, by decide, by decide⟩
  case isFalse filled =>
      generalize plain : Text.replace '\\' '/' root = text at filled
      have inside := List.rdropWhile_prefix (· = '/') (dropLeadingDots text.strip)
      refine ⟨by simpa using filled, ?_, ?_, List.rdropWhile_idempotent _ _⟩
      · intro member
        have among := Text.mem_of_mem_strip
          ((dropLeadingDots_suffix _).subset (inside.subset member))
        rw [← plain, Text.replace, List.mem_map] at among
        obtain ⟨char, -, same⟩ := among
        split at same
        · exact absurd same (by decide)
        · contradiction
      · apply dropLeadingDots_of_ne
        intro rest same
        obtain ⟨back, whole⟩ := inside
        apply dropLeadingDots_ne text.strip (rest ++ back)
        rw [← whole, ← Text.trimEnd_eq, same]
        rfl

namespace IsKey

variable (key : IsKey root)
include key

/-- A root in normal form stays as it is when it is stripped, and changes when it is not. -/
theorem normalizeRoot_eq_self_iff : normalizeRoot root = root ↔ root.strip = root := by
  rw [normalizeRoot, Text.replace_of_not_mem key.noBackslash]
  constructor
  · intro fixed
    split at fixed
    case isTrue =>
        rw [← fixed]
        decide
    case isFalse =>
        apply (Text.strip_sublist root).eq_of_length_le
        calc root.length
          _ = (Text.trimEnd (· = '/') (dropLeadingDots root.strip)).length := by rw [fixed]
          _ ≤ (dropLeadingDots root.strip).length := (Text.trimEnd_sublist _ _).length_le
          _ ≤ root.strip.length := (dropLeadingDots_suffix _).length_le
  · intro stripped
    have filled := key.filled
    simp [stripped, key.noLeadingDots, key.noTrailingSlashes, filled]

end IsKey

/-- Whether no blank stands beside a slash of a root. -/
def IsTight (root : Text) : Prop :=
  (Text.replace '\\' '/' root).IsChain fun first second =>
    (first = '/' → isBlank second = false) ∧ (second = '/' → isBlank first = false)

instance (root : Text) : Decidable (IsTight root) :=
  inferInstanceAs (Decidable (List.IsChain _ _))

/-- The normal form of a root with no blank beside a slash is stripped. -/
theorem strip_normalizeRoot (tight : IsTight root) :
    (normalizeRoot root).strip = normalizeRoot root := by
  rw [IsTight] at tight
  rw [normalizeRoot]
  generalize Text.replace '\\' '/' root = text at tight ⊢
  have beside (first second : Char) (among : [first, second] <:+: text.strip) :=
    List.isChain_pair.mp <| List.IsChain.infix tight (among.trans text.strip_infix)
  obtain ⟨first_plain, last_plain⟩ := Text.strip_eq_self_iff.mp text.strip_strip
  have behind := dropLeadingDots_cases text.strip
  have ends := dropLeadingDots_suffix text.strip
  obtain ⟨slashes, whole, only⟩ := trimEnd_cases (dropLeadingDots text.strip)
  generalize dropLeadingDots text.strip = left at behind ends whole ⊢
  generalize Text.trimEnd (· = '/') left = named at whole ⊢
  split
  case isTrue => decide
  case isFalse =>
      apply Text.strip_eq_self_iff.mpr
      constructor
      · intro char first
        obtain ⟨rest, rfl⟩ := List.head?_eq_some_iff.mp first
        rcases behind with same | ⟨front, split⟩
        · apply first_plain
          rw [← same, whole]
          rfl
        · refine (beside '/' char ⟨front, rest ++ slashes, ?_⟩).1 rfl
          rw [split, whole]
          simp
      · intro char last
        obtain ⟨rest, rfl⟩ := List.getLast?_eq_some_iff.mp last
        obtain ⟨front, split⟩ := ends
        cases slashes with
        | nil =>
            apply last_plain
            rw [← split, whole]
            simp
        | cons slash slashes =>
            obtain rfl := only slash (.head _)
            refine (beside char '/' ⟨front ++ rest, slashes, ?_⟩).2 rfl
            rw [← split, whole]
            simp

end Project

namespace ProjectIndex

open Project (IsKey IsTight normalizeRoot)

variable {projects : List Project} {root : Text}

theorem exists_firstAt?_of_mem_roots (member : root ∈ (ofProjects projects).roots) :
    ∃ project ∈ projects, project.key = root ∧ firstAt? projects root = some project := by
  obtain ⟨entry, inside, rfl⟩ := List.mem_map.mp member
  have held : ((ofProjects projects).byRoot.lookup entry.1).isSome :=
    List.lookup_isSome_iff.mpr ⟨entry, inside, beq_self_eq_true _⟩
  rw [lookup_byRoot] at held
  obtain ⟨project, first⟩ := Option.isSome_iff_exists.mp held
  exact ⟨project, List.mem_of_find?_eq_some first, by simpa using List.find?_some first, first⟩

theorem isKey_of_mem_roots (member : root ∈ (ofProjects projects).roots) : IsKey root := by
  obtain ⟨project, -, rfl, -⟩ := exists_firstAt?_of_mem_roots member
  exact Project.isKey_normalizeRoot project.root

/-- Looking up a root finds a project of the root's normal form. -/
theorem key_of_get? {project : Project} (found : (ofProjects projects).get? root = some project) :
    project.key = normalizeRoot root := by
  rw [get?, lookup_byRoot] at found
  simpa using List.find?_some found

section Member

variable (member : root ∈ (ofProjects projects).roots)
include member

theorem get?_of_mem_roots (stripped : root.strip = root) :
    (ofProjects projects).get? root = firstAt? projects root := by
  rw [get?, (isKey_of_mem_roots member).normalizeRoot_eq_self_iff.mpr stripped, lookup_byRoot]

/-- An index resolves a root that it gives to itself when the root is stripped. -/
theorem resolveRoot?_eq_self_iff :
    (ofProjects projects).resolveRoot? root = some root ↔ root.strip = root := by
  have key := isKey_of_mem_roots member
  constructor
  · intro resolved
    rw [resolveRoot?, Option.ite_none_right_eq_some] at resolved
    exact key.normalizeRoot_eq_self_iff.mp (Option.some.inj resolved.2)
  · intro stripped
    obtain ⟨project, -, -, first⟩ := exists_firstAt?_of_mem_roots member
    rw [resolveRoot?, get?_of_mem_roots member stripped, first,
      key.normalizeRoot_eq_self_iff.mpr stripped]
    rfl

/-- An index finds a project of a root that it gives when the root is stripped. -/
theorem exists_get?_iff :
    (∃ project ∈ projects, project.key = root ∧ (ofProjects projects).get? root = some project) ↔
      root.strip = root := by
  constructor
  · rintro ⟨project, -, same, found⟩
    apply (isKey_of_mem_roots member).normalizeRoot_eq_self_iff.mp
    rw [← key_of_get? found, same]
  · intro stripped
    obtain ⟨project, inside, same, first⟩ := exists_firstAt?_of_mem_roots member
    exact ⟨project, inside, same, (get?_of_mem_roots member stripped).trans first⟩

end Member

/--
Which roots in normal form are stable.  Normalizing changes a root in normal form exactly when
that begins or ends with a blank, which takes a blank beside a slash of the root that it is the
normal form of.  The roots that an index gives for names and roots are among its roots, and it
resolves one of these to itself, and finds a project of it, exactly when the root has no blank at
its ends; so it accepts all that it gives where no project's root has a blank beside a slash.
-/
theorem roots_accepted_iff (written : Text) (projects : List Project) :
    (normalizeRoot (normalizeRoot written) = normalizeRoot written ↔
        (normalizeRoot written).strip = normalizeRoot written) ∧
      (IsTight written → normalizeRoot (normalizeRoot written) = normalizeRoot written) ∧
      (∀ root ∈ (ofProjects projects).resolveRoot? written, root ∈ (ofProjects projects).roots) ∧
      (∀ root ∈ (ofProjects projects).resolveName? written, root ∈ (ofProjects projects).roots) ∧
      (∀ root ∈ (ofProjects projects).roots,
        ((ofProjects projects).resolveRoot? root = some root ↔ root.strip = root) ∧
          ((∃ project ∈ projects, project.key = root ∧
            (ofProjects projects).get? root = some project) ↔
            root.strip = root)) ∧
      ((∀ project ∈ projects, IsTight project.root) → ∀ root ∈ (ofProjects projects).roots,
        (ofProjects projects).resolveRoot? root = some root ∧
          ∃ project ∈ projects, project.key = root ∧
            (ofProjects projects).get? root = some project) := by
  have stable := (Project.isKey_normalizeRoot written).normalizeRoot_eq_self_iff
  refine ⟨stable, fun tight => stable.mpr (Project.strip_normalizeRoot tight), ?_, ?_, ?_, ?_⟩
  · exact fun root resolved => mem_roots_of_resolveRoot? resolved
  · exact fun root resolved => mem_roots_of_resolveName? resolved
  · intro root member
    exact ⟨resolveRoot?_eq_self_iff member, exists_get?_iff member⟩
  · intro tight root member
    obtain ⟨project, inside, rfl, -⟩ := exists_firstAt?_of_mem_roots member
    have stripped := Project.strip_normalizeRoot (tight project inside)
    exact ⟨(resolveRoot?_eq_self_iff member).mpr stripped, (exists_get?_iff member).mpr stripped⟩

/-- A root whose spelling is no normal form is kept, and accepted, in its normal form. -/
theorem roots_accepted_iff_core :
    (∀ project ∈ ([⟨"Core".toList, ".\\libs/my core/".toList⟩] : List Project),
      IsTight project.root) ∧
      (ofProjects [⟨"Core".toList, ".\\libs/my core/".toList⟩]).resolveRoot? "libs/my core".toList =
        some "libs/my core".toList := by
  have tight : ∀ project ∈ ([⟨"Core".toList, ".\\libs/my core/".toList⟩] : List Project),
      IsTight project.root := by
    decide +kernel
  obtain ⟨-, -, -, -, -, accepted⟩ :=
    roots_accepted_iff ".\\libs/my core/".toList [⟨"Core".toList, ".\\libs/my core/".toList⟩]
  exact ⟨tight, (accepted tight "libs/my core".toList (by decide +kernel)).1⟩

-- The blank behind the dots begins the normal form, by which the index does not know the project.
example : (ofProjects [⟨['a'], "./ a".toList⟩]).roots = [" a".toList] ∧
    (ofProjects [⟨['a'], "./ a".toList⟩]).resolveRoot? " a".toList = none := by decide +kernel

end ProjectIndex

end SwiftWorkspace
