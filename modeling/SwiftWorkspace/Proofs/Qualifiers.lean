import SwiftWorkspace.Proofs.Declarations

/-!
# What declarations ask for

What a declaration asks for is known from its arguments one by one.  A form of a
requirement asks for the version behind its label, or for the range that its
characters spell.
-/

namespace SwiftWorkspace

namespace Text

variable {text part : Text}

theorem contains_of_infix (inside : part <:+: text) : text.contains part = true := by
  obtain ⟨front, back, rfl⟩ := inside
  rw [contains]
  induction front with
  | nil =>
      cases part with
      | nil => cases back <;> simp [breakAt?, after?]
      | cons char part =>
          have found : after? (char :: part) (char :: part ++ back) = some back :=
            after?_eq_some.mpr rfl
          rw [List.nil_append, List.cons_append, breakAt?, ← List.cons_append, found]
          rfl
  | cons char front ih =>
      rw [List.cons_append, List.cons_append, breakAt?]
      split
      · rfl
      · rw [Option.isSome_map]
        exact ih

theorem filter_strip {keep : Char → Bool} (drops : ∀ char, isBlank char → keep char = false)
    (text : Text) : text.strip.filter keep = text.filter keep := by
  have front (text : Text) : (text.dropWhile isBlank).filter keep = text.filter keep := by
    induction text with
    | nil => rfl
    | cons char text ih =>
        by_cases blank : isBlank char
        · rw [List.dropWhile_cons_of_pos blank, ih]
          simp [drops char blank]
        · rw [List.dropWhile_cons_of_neg blank]
  rw [strip, trim, trimEnd, trimStart, List.filter_reverse, front, List.filter_reverse,
    List.reverse_reverse, front]

section Behind

variable {tail : Text} (apart : ∀ char ∈ part, char ∉ tail)
include apart

theorem after?_append : after? part (text ++ tail) = (after? part text).map (· ++ tail) := by
  induction part generalizing text with
  | nil => rfl
  | cons first part ih =>
      cases text with
      | nil =>
          cases tail with
          | nil => rfl
          | cons char tail =>
              have differs : first ≠ char := fun same => apart first (.head _) (same ▸ .head _)
              simp [after?, differs]
      | cons char text =>
          have rest := @ih text fun other member => apart other (.tail _ member)
          by_cases same : first = char <;> simp [after?, same, rest]

/--
Behind a text whose tail holds no character of a part, the part is found in the text or nowhere.
-/
theorem breakAt?_append (filled : part ≠ []) :
    breakAt? part (text ++ tail) = (breakAt? part text).map fun found =>
      (found.1, found.2 ++ tail) := by
  induction text with
  | nil =>
      have missing : breakAt? part tail = none := by
        cases found : breakAt? part tail with
        | none => rfl
        | some parts =>
            obtain ⟨char, rest, rfl⟩ := List.exists_cons_of_ne_nil filled
            have inside : char ∈ tail := by simp [Requirement.breakAt?_eq_some found]
            exact absurd inside (apart char (.head _))
      simp [missing, breakAt?, filled]
  | cons char text ih =>
      rw [List.cons_append, breakAt?, breakAt?, ← List.cons_append, after?_append apart]
      cases after? part (char :: text) with
      | some rest => rfl
      | none =>
          rw [Option.map_none, ih]
          cases breakAt? part text <;> rfl

end Behind

theorem strip_append_feed (text : Text) : (text ++ ['\n']).strip = text.strip := by
  have feed : isBlank '\n' = true := by decide
  rw [strip, strip, trim, trim, trimEnd, trimEnd, trimStart, trimStart, List.dropWhile_append]
  split
  · rename_i empty
    rw [List.isEmpty_iff.mp empty]
    simp [feed]
  · rw [List.reverse_append]
    simp [feed]

end Text

namespace Source

/-- The qualifiers behind one more argument with a label, a positional version and a string. -/
def answer (qualifiers : Qualifiers) (label positional string : Option Text) : Qualifiers :=
  match label with
  | none =>
      (filled? positional).elim qualifiers fun version =>
      { qualifiers with version := some version }
  | some label =>
      if label = "from".toList || label = "exact".toList then { qualifiers with version := string }
      else if label = "branch".toList then { qualifiers with branch := string }
      else if label = "revision".toList then { qualifiers with commit := string }
      else qualifiers

theorem qualify_eq (source : Source) (qualifiers : Qualifiers) (argument : Argument) :
    source.qualify qualifiers argument = answer qualifiers argument.label
      (source.positionalVersion? argument.value) (source.stringIn? argument.value) := by
  rw [qualify, answer.eq_def]
  cases argument.label with
  | some label => rfl
  | none => cases filled? (source.positionalVersion? argument.value) <;> rfl

def asking (qualifiers : Qualifiers) (argument : Option Text × List Cell) : Qualifiers :=
  answer qualifiers argument.1 (read positionalVersion? argument.2) (read stringIn? argument.2)

theorem read_qualifiers {list : List Cell} (balanced : Balanced list) :
    read qualifiers list = ((piecesOf list).map argumentParts).foldl asking {} := by
  have loc (label : Option Text) : Local fun source span =>
      (label, source.positionalVersion? span, source.stringIn? span) :=
    (local_positionalVersion?.zip local_stringIn?).map fun found => (label, found)
  have each (piece : List Cell) (member : piece ∈ piecesOf list) := read_onArgument loc
    (solid_of_mem_piecesOf balanced member).unbroken.balanced
  have whole := (Local.onArgument loc).elements balanced (shows_alone list)
  rw [Nat.zero_add, List.map_congr_left each] at whole
  have folded := congrArg (List.foldl (fun qualifiers found =>
    answer qualifiers found.1 found.2.1 found.2.2) {}) whole
  simp only [List.foldl_map] at folded
  rw [read, qualifiers, arguments, List.foldl_map, List.foldl_map]
  simp only [qualify_eq]
  exact folded

end Source

namespace Requirement

theorem isBlank_of_isRunChar {char : Char} (run : isRunChar char) : isBlank char = false := by
  have each : ∀ point ∈ blankPoints, isRunChar (Char.ofNat point) = false := by decide +kernel
  cases blank : isBlank char with
  | false => rfl
  | true =>
      have noRun : isRunChar char = false := of_isBlank (isRunChar · = false) each blank
      simp [noRun] at run

def counts (char : Char) : Bool := char ≠ '"' && !isBlank char

theorem IsRun.filter {text : Text} (run : IsRun text) : text.filter counts = text := by
  refine List.filter_eq_self.mpr fun char member => ?_
  simp [counts, isBlank_of_isRunChar (run char member), (ne_of_isRunChar (run char member)).1]

theorem filter_between (text : Text) : (between text).filter counts = text.filter counts := by
  have mark : counts '"' = false := by decide
  simp [between, mark]

theorem filter_quoteRange (operator text : Text) :
    (quoteRange operator text).filter counts = text.filter counts := by
  have strip (text : Text) : text.strip.filter counts = text.filter counts :=
    Text.filter_strip (fun char blank => by simp [counts, blank]) text
  rw [quoteRange]
  split
  · rename_i lower upper found
    rw [breakAt?_eq_some found]
    have lower_eq : (if lower.strip.isEmpty then [] else between lower.strip).filter counts =
        lower.filter counts := by
      split
      · rename_i empty
        rw [← strip lower, List.isEmpty_iff.mp empty]
      · rw [filter_between, strip]
    simp only [List.filter_append, lower_eq, filter_between, strip, List.append_assoc]
  · rfl

namespace Form

variable {form : Form}

def asks (form : Form) : Qualifiers := Source.asking {} (Source.argumentParts form.cells)

theorem asks_labeled {label : Text} (word : form.word = label ++ [':']) (lower : form.lower = none)
    (begins : label.head?.any Source.isIdentifierStart)
    (inside : ∀ char ∈ label, Source.isIdentifierChar char)
    (blank : ∀ char ∈ form.gap, isBlank char) :
    form.asks = Source.answer {} (some label) none (some form.upper) := by
  have whole : form.cells = phraseCells (label ++ [':']) form.gap form.upper := by
    simp [cells, lower, word]
  rw [asks, whole, Source.argumentParts_phrase begins inside blank, Source.asking,
    Source.read_literal]
  rfl

theorem exists_operator {word : Text} (operator : word = halfOpen ∨ word = closed) :
    ∃ last, word = ['.', '.', last] := by
  rcases operator with rfl | rfl <;> exact ⟨_, rfl⟩

/-- A range begins with two dots of its operator, or with the literal of its lower bound. -/
theorem cells_range (operator : form.word = halfOpen ∨ form.word = closed) :
    (∃ rest, form.cells = ⟨'.', .code⟩ :: ⟨'.', .code⟩ :: rest) ∨
      ∃ rest, form.cells = ⟨'"', .string⟩ :: rest := by
  obtain ⟨last, word⟩ := exists_operator operator
  cases lower : form.lower with
  | none => exact .inl ⟨_, by simp only [cells, lower, phraseCells, word]; rfl⟩
  | some text => exact .inr ⟨_, by simp only [cells, lower]; rfl⟩

theorem argumentParts_range (operator : form.word = halfOpen ∨ form.word = closed) :
    Source.argumentParts form.cells = (none, form.cells) := by
  rcases cells_range operator with ⟨rest, whole⟩ | ⟨rest, whole⟩
  · rw [whole]
    exact Source.argumentParts_of_noLetter ⟨'.', .code⟩ (by decide) _
  · rw [whole]
    exact Source.argumentParts_of_noLetter ⟨'"', .string⟩ (by decide) _

theorem callIn?_range (operator : form.word = halfOpen ∨ form.word = closed) :
    (⟨form.cells⟩ : Source).callIn? ⟨0, form.cells.length⟩ = none := by
  have noLetter : Source.isIdentifierStart '.' = false := by decide
  rcases cells_range operator with ⟨rest, whole⟩ | ⟨rest, whole⟩
  · rw [whole, Source.callIn?]
    simp [Span.isEmpty, Source.hasCodeAt, Source.at?, Cell.isCodeChar, Cell.isCode,
      Source.identifierAt?, Source.identifierOf?, noLetter]
  · rw [whole, Source.callIn?]
    simp [Span.isEmpty, Source.hasCodeAt, Source.at?, Cell.isCodeChar, Cell.isCode]

theorem asks_range (operator : form.word = halfOpen ∨ form.word = closed)
    (filled : form.text.filter counts ≠ []) :
    form.asks = { version := some (form.text.filter counts) } := by
  have dots : form.text.contains ['.', '.'] = true := by
    refine Text.contains_of_infix ?_
    obtain ⟨last, word⟩ := exists_operator operator
    refine ⟨(form.lower.map Literal.encode).getD [],
      last :: (form.gap ++ Literal.encode form.upper), ?_⟩
    simp [text, word]
  have written := (Source.shows_alone form.cells).textIn
  rw [Nat.zero_add, form.chars_cells] at written
  have positional : Source.read Source.positionalVersion? form.cells =
      some (form.text.filter counts) := by
    rw [Source.read, Source.positionalVersion?, callIn?_range operator]
    simp only [written, dots, if_true]
    rfl
  rw [asks, argumentParts_range operator, Source.asking, positional, Source.answer,
    Dependency.filled?_of_filled filled]
  rfl

end Form

end Requirement

end SwiftWorkspace
