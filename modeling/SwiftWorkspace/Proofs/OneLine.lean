import SwiftWorkspace.Proofs.CanonicalNames
import SwiftWorkspace.Proofs.Ways
import SwiftWorkspace.Source.Literal

/-!
# Texts on one line

A text without line feeds and carriage returns stays the same text when it is
written and read again.  Literals, names and paths that are made of such texts are
such texts, too.
-/

namespace SwiftWorkspace

namespace Text

/-- Whether the text stands on one line wherever it is written. -/
def OnLine (text : Text) : Prop := ∀ char ∈ text, char ≠ '\n' ∧ char ≠ '\r'

theorem mem_join {separator : Text} {parts : List Text} {char : Char}
    (member : char ∈ join separator parts) : char ∈ separator ∨ ∃ part ∈ parts, char ∈ part := by
  rw [join] at member
  induction parts with
  | nil => cases member
  | cons part parts ih =>
      cases parts with
      | nil =>
          rw [List.intercalate_singleton] at member
          exact .inr ⟨part, .head _, member⟩
      | cons next parts =>
          rw [List.intercalate_cons_cons, List.append_assoc] at member
          rcases List.mem_append.mp member with here | member
          · exact .inr ⟨part, .head _, here⟩
          · rcases List.mem_append.mp member with between | later
            · exact .inl between
            · obtain inside | ⟨other, among, inside⟩ := ih later
              · exact .inl inside
              · exact .inr ⟨other, .tail _ among, inside⟩

theorem mem_encode {text : Text} {char : Char} (member : char ∈ Literal.encode text) :
    char = '"' ∨ char = '\\' ∨ char ∈ text := by
  simp only [Literal.encode, List.cons_append, List.mem_cons, List.mem_append, List.mem_flatMap,
    List.not_mem_nil, or_false] at member
  rcases member with mark | ⟨old, inside, written⟩ | mark
  · exact .inl mark
  · rw [Literal.escapedForm] at written
    split at written
    · exact .inr (.inl (by simpa using written))
    · split at written
      · rcases List.mem_cons.mp written with slash | mark
        · exact .inr (.inl slash)
        · exact .inl (List.mem_singleton.mp mark)
      · rw [List.mem_singleton.mp written]
        exact .inr (.inr inside)
  · exact .inl mark

theorem OnLine.encode {text : Text} (line : text.OnLine) : OnLine (Literal.encode text) := by
  intro char member
  rcases mem_encode member with rfl | rfl | inside
  · decide
  · decide
  · exact line char inside

end Text

namespace RelativePath

/-- A way is written with dots, slashes and the characters of its target. -/
theorem mem_between {start target : Text} {char : Char} (member : char ∈ between start target) :
    char = '.' ∨ char = '/' ∨ char ∈ target := by
  simp only [between] at member
  split at member
  · exact .inl (List.mem_singleton.mp member)
  · rcases Text.mem_join member with slash | ⟨segment, among, inside⟩
    · exact .inr (.inl (List.mem_singleton.mp slash))
    · rcases mem_steps among with rfl | among
      · exact .inl (by simpa [Path.up] using inside)
      · have split := (List.mem_filter.mp among).1
        rw [List.splitOn_eq_splitOnP] at split
        obtain ⟨old, here, rfl⟩ := List.mem_map.mp (Text.mem_of_mem_splitOnP split inside).1
        split
        · exact .inr (.inl rfl)
        · exact .inr (.inr here)

theorem onLine_between {start target : Text} (line : target.OnLine) :
    Text.OnLine (between start target) := by
  intro char member
  rcases mem_between member with rfl | rfl | inside
  · decide
  · decide
  · exact line char inside

end RelativePath

namespace Reference

theorem onLine_canonicalName {reference : Text} (line : reference.OnLine) :
    Text.OnLine (canonicalName reference) := by
  intro char member
  rcases mem_canonicalName member with inside | rfl
  · exact line char inside
  · decide

end Reference

end SwiftWorkspace
