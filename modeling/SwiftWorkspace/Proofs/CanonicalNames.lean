import Mathlib.Data.List.DropRight
import SwiftWorkspace.Reference

/-!
# Characters of canonical names

A canonical name is cut out of the reference that it belongs to.  Only slashes
take the place of other characters in it.
-/

namespace SwiftWorkspace

namespace Text

variable {text part : Text} {char : Char}

theorem trimEnd_eq (drop : Char → Bool) (text : Text) :
    trimEnd drop text = text.rdropWhile drop := rfl

theorem trimEnd_sublist (drop : Char → Bool) (text : Text) : (trimEnd drop text).Sublist text :=
  (List.rdropWhile_prefix drop text).sublist

theorem strip_sublist (text : Text) : text.strip.Sublist text :=
  (trimEnd_sublist isBlank _).trans (List.dropWhile_sublist isBlank)

theorem mem_of_mem_strip (member : char ∈ text.strip) : char ∈ text :=
  (strip_sublist text).subset member

section Splitting

variable {α : Type} {text part : List α} {char : α}

theorem sublist_of_mem_splitOnP {separates : α → Bool} (found : part ∈ text.splitOnP separates) :
    part.Sublist text ∧ ∀ char ∈ part, separates char = false := by
  induction text generalizing part with
  | nil =>
      obtain rfl : part = [] := by simpa using found
      simp
  | cons first text ih =>
      rw [List.splitOnP_cons_eq_if_modifyHead] at found
      split at found
      case isTrue =>
          rcases List.mem_cons.mp found with rfl | later
          · simp
          · exact (ih later).imp_left (.cons first)
      case isFalse differs =>
          cases parts : text.splitOnP separates with
          | nil => simp [parts] at found
          | cons head tail =>
              rw [parts] at found ih
              rcases List.mem_cons.mp found with rfl | later
              · obtain ⟨inside, whole⟩ := ih (.head _)
                exact ⟨inside.cons_cons first, List.forall_mem_cons.mpr
                  ⟨Bool.eq_false_iff.mpr differs, whole⟩⟩
              · exact (ih (.tail _ later)).imp_left (.cons first)

theorem mem_of_mem_splitOnP {separates : α → Bool} (found : part ∈ text.splitOnP separates)
    (member : char ∈ part) : char ∈ text ∧ separates char = false :=
  have ⟨inside, whole⟩ := sublist_of_mem_splitOnP found
  ⟨inside.subset member, whole char member⟩

end Splitting

/-- What stands behind the last slash is a part of the text, without slashes. -/
theorem last_splitOn_sublist (text : Text) :
    ((text.splitOn '/').getLast?.getD []).Sublist text ∧
      '/' ∉ (text.splitOn '/').getLast?.getD [] := by
  cases last : (text.splitOn '/').getLast? with
  | none => simp
  | some segment =>
      rw [List.splitOn_eq_splitOnP] at last
      obtain ⟨inside, whole⟩ := sublist_of_mem_splitOnP (List.mem_of_getLast? last)
      exact ⟨inside, fun slash => by simpa using whole '/' slash⟩

/-- The last part between slashes is empty only where a text is empty or ends with a slash. -/
theorem of_last_splitOn_eq_nil (empty : (text.splitOn '/').getLast?.getD [] = []) :
    text = [] ∨ text.getLast? = some '/' := by
  by_cases slash : '/' ∈ text
  · obtain ⟨behind, before, whole, noSlash⟩ :=
      List.eq_append_cons_of_mem (List.mem_reverse.mpr slash)
    obtain rfl : text = before.reverse ++ '/' :: behind.reverse := by
      rw [← List.reverse_reverse text, whole]
      simp
    have last : behind.reverse.splitOn '/' = [behind.reverse] :=
      List.splitOn_eq_singleton (by simpa using noSlash)
    rw [List.splitOn_append_cons_self, last] at empty
    obtain rfl : behind = [] := by simpa using empty
    simp
  · rw [List.splitOn_eq_singleton slash] at empty
    exact .inl (by simpa using empty)

/--
Where the slashes at the end are gone, only an empty text has an empty last part between
slashes.
-/
theorem trimEnd_eq_nil_of_last
    (empty : ((trimEnd (· = '/') text).splitOn '/').getLast?.getD [] = []) :
    trimEnd (· = '/') text = [] := by
  rw [trimEnd_eq] at *
  rcases of_last_splitOn_eq_nil empty with none | slash
  · exact none
  · have filled : text.rdropWhile (fun char => decide (char = '/')) ≠ [] := fun none => by
      rw [none] at slash
      cases slash
    have kept := List.rdropWhile_last_not _ _ filled
    rw [List.getLast?_eq_some_getLast filled, Option.some.injEq] at slash
    exact absurd slash (by simpa using kept)

end Text

namespace Reference

variable {reference : Text} {char : Char}

theorem withoutArchiveSuffix_sublist (segment : Text) :
    (withoutArchiveSuffix segment).Sublist segment := by
  rw [withoutArchiveSuffix]
  split
  · exact List.take_sublist _ _
  · exact .refl _

theorem repositoryName_cases (address : Text) :
    (repositoryName address = Text.trimEnd (· = '/') address ∧
        ∀ segment ∈ segments (Text.trimEnd (· = '/') address), withoutArchiveSuffix segment = []) ∨
      ∃ segment ∈ segments (Text.trimEnd (· = '/') address),
        repositoryName address = withoutArchiveSuffix segment ∧ repositoryName address ≠ [] := by
  simp only [repositoryName]
  generalize Text.trimEnd (· = '/') address = trimmed
  cases name? : ((segments trimmed).reverse.map withoutArchiveSuffix).find? (!·.isEmpty) with
  | none => exact .inl ⟨rfl, by simpa using name?⟩
  | some name =>
      have filled := List.find?_some name?
      obtain ⟨segment, found, rfl⟩ := List.mem_map.mp (List.mem_of_find?_eq_some name?)
      exact .inr ⟨segment, List.mem_reverse.mp found, rfl, by simpa using filled⟩

theorem repositoryName_sublist (address : Text) : (repositoryName address).Sublist address := by
  refine List.Sublist.trans ?_ (Text.trimEnd_sublist (· = '/') address)
  rcases repositoryName_cases address with ⟨same, -⟩ | ⟨segment, found, same, -⟩
  · rw [same]
  · rw [same]
    exact (withoutArchiveSuffix_sublist segment).trans (Text.sublist_of_mem_splitOnP found).1

/-- The name of a path has no separators, or the path has nothing else and is its own name. -/
theorem directoryName_cases (path : Text) :
    (directoryName path = path ∧ Text.trimEnd (· = '/') (Text.replace '\\' '/' path) = []) ∨
      ((directoryName path).Sublist (Text.replace '\\' '/' path) ∧ '/' ∉ directoryName path) := by
  simp only [directoryName]
  split
  case isTrue empty => exact .inl ⟨rfl, Text.trimEnd_eq_nil_of_last (List.isEmpty_iff.mp empty)⟩
  case isFalse =>
      obtain ⟨inside, noSlash⟩ :=
        Text.last_splitOn_sublist (Text.trimEnd (· = '/') (Text.replace '\\' '/' path))
      exact .inr ⟨inside.trans (Text.trimEnd_sublist _ _), noSlash⟩

theorem mem_directoryName (member : char ∈ directoryName reference) :
    char ∈ reference ∨ char = '/' := by
  rcases directoryName_cases reference with ⟨same, -⟩ | ⟨inside, -⟩
  · exact .inl (same ▸ member)
  · obtain ⟨old, here, rfl⟩ := List.mem_map.mp (inside.subset member)
    split
    · exact .inr rfl
    · exact .inl here

theorem mem_canonicalName (member : char ∈ canonicalName reference) :
    char ∈ reference ∨ char = '/' := by
  simp only [canonicalName] at member
  split at member
  case isTrue => exact .inl (Text.mem_of_mem_strip member)
  case isFalse =>
      split at member
      case isTrue => exact .inl (Text.mem_of_mem_strip ((repositoryName_sublist _).subset member))
      case isFalse =>
          split at member
          case isTrue => exact (mem_directoryName member).imp_left Text.mem_of_mem_strip
          case isFalse => exact .inl (Text.mem_of_mem_strip member)

theorem noFeed_canonicalName (noFeed : '\n' ∉ reference) : '\n' ∉ canonicalName reference := by
  intro member
  rcases mem_canonicalName member with inside | slash
  · exact noFeed inside
  · exact absurd slash (by decide)

end Reference

end SwiftWorkspace
