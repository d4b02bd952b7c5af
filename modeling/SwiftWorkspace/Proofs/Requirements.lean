import SwiftWorkspace.Requirement

/-!
# The form of requirements

A requirement that is accepted is written as a word and a literal, perhaps with
another literal in front of the word.  What stands in the literals needs no
escapes.
-/

namespace SwiftWorkspace

namespace Requirement

/-- Whether the character can stand in a version, a range or the name of a branch. -/
def isRunChar (char : Char) : Bool :=
  isWordChar char || isDecimalDigit char || ['.', '-', '/', '<'].elem char

theorem ne_of_isRunChar {char : Char} (run : isRunChar char) :
    char ≠ '"' ∧ char ≠ '\\' ∧ char ≠ '\n' ∧ char ≠ ':' := by
  refine ⟨?_, ?_, ?_, ?_⟩ <;> rintro rfl <;> revert run <;> decide +kernel

/-- Whether all the characters can stand in a version, a range or the name of a branch. -/
def IsRun (text : Text) : Prop := ∀ char ∈ text, isRunChar char

theorem IsRun.append {first last : Text} (front : IsRun first) (back : IsRun last) :
    IsRun (first ++ last) := fun char member => by
  rcases List.mem_append.mp member with inside | inside
  · exact front char inside
  · exact back char inside

theorem IsRun.of_all {text : Text} {allowed : Char → Bool} (all : ∀ char ∈ text, allowed char)
    (each : ∀ char, allowed char → isRunChar char) : IsRun text :=
  fun char member => each char (all char member)

theorem IsRun.encode {text : Text} (run : IsRun text) : Literal.encode text = between text := by
  have same : text.flatMap Literal.escapedForm = text := by
    induction text with
    | nil => rfl
    | cons char text ih =>
        obtain ⟨noMark, noSlash, -⟩ := ne_of_isRunChar (run char (by simp))
        rw [List.flatMap_cons, ih fun other member => run other (by simp [member])]
        simp [Literal.escapedForm, noMark, noSlash]
  rw [Literal.encode, same, between]

theorem isRunChar_of_isDecimalDigit (char : Char) (digit : isDecimalDigit char) :
    isRunChar char := by
  simp [isRunChar, digit]

theorem isRunChar_of_isSuffixChar (char : Char) (suffix : isSuffixChar char) : isRunChar char := by
  simp only [isSuffixChar, Bool.or_eq_true, decide_eq_true_eq] at suffix
  rcases suffix with word | rfl
  · simp [isRunChar, word]
  · decide

theorem isRunChar_of_isBranchChar (char : Char) (branch : isBranchChar char) : isRunChar char := by
  simp only [isBranchChar, Bool.or_eq_true, decide_eq_true_eq] at branch
  rcases branch with ((word | rfl) | rfl) | rfl
  · simp [isRunChar, word]
  all_goals decide

theorem isRunChar_of_isRevisionChar (char : Char) (revision : isRevisionChar char) :
    isRunChar char := by
  simp only [isRevisionChar, isAsciiDigit, Bool.or_eq_true, Bool.and_eq_true, decide_eq_true_eq]
    at revision
  rcases revision with ⟨low, high⟩ | ⟨low, high⟩
  · have letter : isAsciiLetter char := by
      simp only [isAsciiLetter, Bool.or_eq_true, Bool.and_eq_true, decide_eq_true_eq]
      exact .inl ⟨low, Char.le_trans high (by decide)⟩
    simp [isRunChar, isWordChar_of_isAsciiLetter letter]
  · have from_zero : 0x30 ≤ char.toNat := low
    have to_nine : char.toNat < 0x30 + 10 := Nat.lt_succ_of_le high
    have digit : isDecimalDigit char := by
      simp [isDecimalDigit, digitValue?, decimalZeros, from_zero, to_nine]
    exact isRunChar_of_isDecimalDigit char digit

def Runs (text rest : Text) : Prop := ∃ run, text = run ++ rest ∧ IsRun run

namespace Runs

theorem refl (text : Text) : Runs text text := ⟨[], rfl, by simp [IsRun]⟩

theorem trans {first second third : Text} (left : Runs first second) (right : Runs second third) :
    Runs first third := by
  obtain ⟨run, rfl, inside⟩ := left
  obtain ⟨more, rfl, inside'⟩ := right
  exact ⟨run ++ more, by simp, inside.append inside'⟩

theorem cons {char : Char} (run : isRunChar char) (text : Text) : Runs (char :: text) text :=
  ⟨[char], rfl, by simpa [IsRun] using run⟩

end Runs

theorem runs_afterDigits {text rest : Text} (found : afterDigits? text = some rest) :
    Runs text rest := by
  rw [afterDigits?] at found
  split at found
  · cases found
  · obtain rfl := Option.some.inj found
    refine ⟨text.takeWhile isDecimalDigit, by simp, .of_all (fun char member => ?_)
      isRunChar_of_isDecimalDigit⟩
    exact List.all_eq_true.mp List.all_takeWhile char member

theorem runs_afterDotted (count : Nat) (text : Text) : Runs text (afterDotted count text) := by
  fun_induction afterDotted count text with
  | case1 => exact .refl _
  | case2 count rest after found ih =>
      exact (Runs.cons (by decide) rest).trans ((runs_afterDigits found).trans ih)
  | case3 => exact .refl _
  | case4 => exact .refl _

theorem runs_suffixRests {text rest : Text} (member : rest ∈ suffixRests text) :
    Runs text rest := by
  induction text with
  | nil => simp [suffixRests] at member
  | cons char text ih =>
      rw [suffixRests] at member
      split at member
      · rename_i suffix
        have first := Runs.cons (isRunChar_of_isSuffixChar char suffix) text
        rcases List.mem_cons.mp member with rfl | more
        · exact first
        · exact first.trans (ih more)
      · simp at member

theorem runs_versionRests {text rest : Text} (member : rest ∈ versionRests text) :
    Runs text rest := by
  rw [versionRests] at member
  cases digits : afterDigits? text with
  | none => simp [digits] at member
  | some after =>
      simp only [digits] at member
      have front := (runs_afterDigits digits).trans (runs_afterDotted after.length after)
      split at member
      · rename_i suffix dash
        rcases List.mem_cons.mp member with rfl | more
        · exact front
        · rw [dash] at front
          exact front.trans ((Runs.cons (by decide) suffix).trans (runs_suffixRests more))
      · obtain rfl := List.mem_singleton.mp member
        exact front

section Tails

variable {text tail : Text}

theorem atEnd_cases (ends : atEnd tail) : tail = [] ∨ tail = ['\n'] := by
  simpa [atEnd] using ends

theorem exists_of_closesQuote (closes : closesQuote text) :
    ∃ tail, atEnd tail ∧ text = '"' :: tail := by
  unfold closesQuote at closes
  split at closes
  · exact ⟨_, closes, rfl⟩
  · cases closes

theorem exists_tail_of_isVersion (accepted : isVersion text) :
    ∃ run tail, IsRun run ∧ atEnd tail ∧ text = run ++ tail := by
  obtain ⟨tail, member, ends⟩ := List.any_eq_true.mp accepted
  obtain ⟨run, whole, inside⟩ := runs_versionRests member
  exact ⟨run, tail, inside, ends, whole⟩

theorem exists_tail_of_isQuotedVersion (accepted : isQuotedVersion text) :
    ∃ run tail, IsRun run ∧ atEnd tail ∧ text = between run ++ tail := by
  unfold isQuotedVersion at accepted
  split at accepted
  · obtain ⟨rest, member, closes⟩ := List.any_eq_true.mp accepted
    obtain ⟨run, rfl, inside⟩ := runs_versionRests member
    obtain ⟨tail, ends, rfl⟩ := exists_of_closesQuote closes
    exact ⟨run, tail, inside, ends, by simp [between]⟩
  · cases accepted

theorem exists_tail_of_isQuotedRun {allowed : Char → Bool}
    (each : ∀ char, allowed char → isRunChar char) (accepted : isQuotedRun allowed text) :
    ∃ run tail, IsRun run ∧ atEnd tail ∧ text = between run ++ tail := by
  unfold isQuotedRun at accepted
  split at accepted
  · rename_i rest
    obtain ⟨-, closes⟩ := Bool.and_eq_true_iff.mp accepted
    obtain ⟨tail, ends, behind⟩ := exists_of_closesQuote closes
    refine ⟨rest.takeWhile allowed, tail, .of_all (fun char member => ?_) each, ends, ?_⟩
    · exact List.all_eq_true.mp List.all_takeWhile char member
    · have split := List.takeWhile_append_dropWhile (p := allowed) (l := rest)
      rw [behind] at split
      simp [between, split]
  · cases accepted

theorem exists_tail_of_isUpperBound {operator : Text} (inside : IsRun operator)
    (accepted : isUpperBound operator text) :
    ∃ run tail, IsRun run ∧ atEnd tail ∧ text = run ++ tail := by
  unfold isUpperBound at accepted
  split at accepted
  · rename_i rest after
    obtain rfl := Text.after?_eq_some.mp after
    obtain ⟨run, tail, run_inside, ends, rfl⟩ := exists_tail_of_isVersion accepted
    exact ⟨operator ++ run, tail, inside.append run_inside, ends, by simp⟩
  · cases accepted

theorem exists_tail_of_isRange {operator : Text} (inside : IsRun operator)
    (accepted : isRange operator text) :
    ∃ run tail, IsRun run ∧ atEnd tail ∧ text = run ++ tail := by
  obtain ⟨rest, member, bound⟩ := List.any_eq_true.mp accepted
  obtain ⟨lower, rfl, lower_inside⟩ := runs_versionRests member
  obtain ⟨run, tail, run_inside, ends, rfl⟩ := exists_tail_of_isUpperBound inside bound
  exact ⟨lower ++ run, tail, lower_inside.append run_inside, ends, by simp⟩

theorem isRun_halfOpen : IsRun halfOpen := Text.forall_mem_of_all (by decide)

theorem isRun_closed : IsRun closed := Text.forall_mem_of_all (by decide)

/-- An accepted range is a run with perhaps a line feed behind it. -/
theorem exists_tail_of_range (accepted : isUpperBound halfOpen text ∨ isRange halfOpen text ∨
    isRange closed text) : ∃ run tail, IsRun run ∧ atEnd tail ∧ text = run ++ tail := by
  rcases accepted with bound | range | range
  · exact exists_tail_of_isUpperBound isRun_halfOpen bound
  · exact exists_tail_of_isRange isRun_halfOpen range
  · exact exists_tail_of_isRange isRun_closed range

/-- What a label is followed by is blanks and a run in quotation marks. -/
theorem exists_of_labeled {label : Text} {accepts : Text → Bool}
    (form : ∀ rest, accepts rest → ∃ run tail, IsRun run ∧ atEnd tail ∧ rest = between run ++ tail)
    (labeled : isLabeled label accepts text) :
    ∃ gap run tail, (∀ char ∈ gap, isBlank char) ∧ accepts (between run ++ tail) ∧
      IsRun run ∧ atEnd tail ∧
      text = label ++ (gap ++ (between run ++ tail)) := by
  unfold isLabeled at labeled
  split at labeled
  · rename_i rest after
    obtain rfl := Text.after?_eq_some.mp after
    obtain ⟨run, tail, inside, ends, same⟩ := form _ labeled
    have split := List.takeWhile_append_dropWhile (p := isBlank) (l := rest)
    rw [same] at labeled split
    exact ⟨rest.takeWhile isBlank, run, tail,
      fun char member => List.all_eq_true.mp List.all_takeWhile char member, labeled, inside,
        ends, by rw [split]⟩
  · cases labeled

end Tails

section Forms

variable {text tail : Text} (noFeed : '\n' ∉ text)
include noFeed

theorem eq_nil_of_atEnd (ends : atEnd tail) (inside : ∀ char ∈ tail, char ∈ text) : tail = [] :=
  (atEnd_cases ends).resolve_right fun feed => noFeed (inside _ (by simp [feed]))

theorem isRun_of_tail (found : ∃ run tail, IsRun run ∧ atEnd tail ∧ text = run ++ tail) :
    IsRun text := by
  obtain ⟨run, tail, inside, ends, rfl⟩ := found
  obtain rfl := eq_nil_of_atEnd noFeed ends fun char member => List.mem_append_right _ member
  rwa [List.append_nil]

theorem exists_between_of_tail (found : ∃ run tail, IsRun run ∧ atEnd tail ∧
    text = between run ++ tail) : ∃ run, IsRun run ∧ text = between run := by
  obtain ⟨run, tail, inside, ends, rfl⟩ := found
  obtain rfl := eq_nil_of_atEnd noFeed ends fun char member => List.mem_append_right _ member
  exact ⟨run, inside, List.append_nil _⟩

end Forms

def words : List Text := labels ++ [halfOpen, closed]

/-- A requirement as it is written: a word and a literal, perhaps with a literal in front. -/
structure Form where
  lower : Option Text
  word : Text
  gap : Text
  upper : Text

namespace Form

def text (form : Form) : Text :=
  (form.lower.map Literal.encode).getD [] ++ (form.word ++ (form.gap ++ Literal.encode form.upper))

/-- Whether the word is one of requirements, the gap is blank, and no literal has a line feed. -/
structure Fits (form : Form) : Prop where
  word : form.word ∈ words
  gap : ∀ char ∈ form.gap, isBlank char
  lower : ∀ text ∈ form.lower, '\n' ∉ text
  upper : '\n' ∉ form.upper

end Form

theorem breakAt?_eq_some {part text before behind : Text}
    (found : Text.breakAt? part text = some (before, behind)) :
    text = before ++ (part ++ behind) := by
  induction text generalizing before behind with
  | nil =>
      rw [Text.breakAt?] at found
      split at found
      · rename_i empty
        obtain rfl := List.isEmpty_iff.mp empty
        cases found
        rfl
      · cases found
  | cons char text ih =>
      rw [Text.breakAt?] at found
      split at found
      · rename_i rest after
        obtain ⟨rfl, rfl⟩ : [] = before ∧ rest = behind := by simpa using found
        rw [List.nil_append]
        exact Text.after?_eq_some.mp after
      · obtain ⟨⟨front, rest⟩, more, same⟩ := Option.map_eq_some_iff.mp found
        cases same
        rw [ih more]
        rfl

theorem contains_append {part : Text} (filled : part ≠ []) (rest : Text) :
    Text.contains (part ++ rest) part = true := by
  cases part with
  | nil => exact absurd rfl filled
  | cons char part =>
      have after : Text.after? (char :: part) (char :: (part ++ rest)) = some rest :=
        Text.after?_eq_some.mpr rfl
      simp [Text.contains, Text.breakAt?, after]

theorem IsRun.not_contains {text label : Text} (run : ':' ∉ text) (member : label ∈ labels) :
    Text.contains text label = false := by
  cases found : Text.breakAt? label text with
  | none => simp [Text.contains, found]
  | some parts =>
      have colon : ':' ∈ label := by
        revert member
        simp only [labels, List.map_cons, List.map_nil, List.mem_cons, List.not_mem_nil, or_false]
        rintro (rfl | rfl | rfl | rfl) <;> decide
      have whole := breakAt?_eq_some found
      exact absurd (by simp [whole, colon]) run

theorem between_run {text : Text} (run : IsRun text) : '\n' ∉ text := fun feed =>
  (ne_of_isRunChar (run _ feed)).2.2.1 rfl

/-- The form of a version behind its default label. -/
theorem exists_form_from {text : Text} (run : IsRun text) :
    ∃ form : Form, form.Fits ∧ Text.ofString "from: " ++ between text = form.text := by
  refine ⟨⟨none, "from:".toList, [' '], text⟩, ⟨?_, ?_, by simp, between_run run⟩, ?_⟩
  · exact List.mem_append_left _ (by decide : "from:".toList ∈ labels)
  · exact fun char member => by
      obtain rfl := List.mem_singleton.mp member
      decide
  rw [Form.text, run.encode]
  rfl

theorem IsRun.strip {text : Text} (run : IsRun text) : IsRun text.strip := by
  intro char member
  simp only [Text.strip, Text.trim, Text.trimEnd, Text.trimStart, List.mem_reverse] at member
  exact run char (List.dropWhile_subset _ (List.mem_reverse.mp (List.dropWhile_subset _ member)))

theorem exists_form_quoteRange {operator text : Text} (run : IsRun text) (word : operator ∈ words)
    (found : Text.contains text operator) :
    ∃ form : Form, form.Fits ∧ form.word = operator ∧ quoteRange operator text = form.text := by
  obtain ⟨⟨lower, upper⟩, parts⟩ := Option.isSome_iff_exists.mp found
  have whole := breakAt?_eq_some parts
  have lower_run : IsRun lower.strip :=
    IsRun.strip fun char member => run char (by simp [whole, member])
  have upper_run : IsRun upper.strip :=
    IsRun.strip fun char member => run char (by simp [whole, member])
  refine ⟨⟨if lower.strip.isEmpty then none else some lower.strip, operator, [], upper.strip⟩,
    ⟨word, by simp, ?_, between_run upper_run⟩, rfl, ?_⟩
  · intro text member
    split at member
    · cases member
    · obtain rfl := Option.some.inj member
      exact between_run lower_run
  · simp only [quoteRange, parts, Form.text]
    split <;> simp [lower_run.encode, upper_run.encode]

theorem exists_form_of_run {text : Text} (run : IsRun text) :
    ∃ form : Form, form.Fits ∧ render text = form.text := by
  have noColon : ':' ∉ text := fun colon => (ne_of_isRunChar (run _ colon)).2.2.2 rfl
  have noLabel : labels.any (Text.contains text) = false :=
    List.any_eq_false.mpr fun label member => by simp [IsRun.not_contains noColon member]
  have noMark : text.startsWith ['"'] = false := by
    cases text with
    | nil => rfl
    | cons char text =>
        have := (ne_of_isRunChar (run char (by simp))).1
        simp [Text.startsWith, List.isPrefixOf, Ne.symm this]
  rw [render, noLabel]
  simp only [noMark, Bool.false_eq_true, if_false, Bool.false_and]
  split
  · exact exists_form_from run
  · split
    · rename_i found
      obtain ⟨form, fits, -, same⟩ := exists_form_quoteRange run (by decide) found
      exact ⟨form, fits, same⟩
    · split
      · rename_i found
        obtain ⟨form, fits, -, same⟩ := exists_form_quoteRange run (by decide) found
        exact ⟨form, fits, same⟩
      · exact exists_form_from run

/-- A version in quotation marks is written behind its default label. -/
theorem render_between {text : Text} (run : IsRun text) :
    render (between text) = Text.ofString "from: " ++ between text := by
  have noColon : ':' ∉ between text := by
    intro member
    simp only [between, List.cons_append, List.mem_cons, List.mem_append] at member
    rcases member with mark | inside | mark
    · exact absurd mark (by decide)
    · exact (ne_of_isRunChar (run _ inside)).2.2.2 rfl
    · simp at mark
  have noLabel : labels.any (Text.contains (between text)) = false :=
    List.any_eq_false.mpr fun label member => by simp [IsRun.not_contains noColon member]
  have noDigit : isDecimalDigit '"' = false := by decide
  have noVersion : isVersion (between text) = false := by
    simp [isVersion, versionRests, afterDigits?, between, noDigit]
  have starts : (between text).startsWith ['"'] = true := by
    simp [Text.startsWith, between, List.isPrefixOf]
  have ends : (between text).endsWith ['"'] = true := by
    rw [Text.endsWith, List.isSuffixOf_iff_suffix]
    exact ⟨'"' :: text, rfl⟩
  have size : 1 < (between text).length := by simp [between]
  rw [render, noLabel, noVersion, starts, ends]
  simp [size]

/-- An accepted requirement without line feeds is written in some form. -/
theorem exists_form_of_isValid {text : Text} (noFeed : '\n' ∉ text) (valid : isValid text) :
    ∃ form : Form, form.Fits ∧ render text = form.text := by
  have labeled {label : Text} {accepts : Text → Bool} (member : label ∈ labels)
      (form : ∀ rest, accepts rest → ∃ run tail, IsRun run ∧ atEnd tail ∧
        rest = between run ++ tail)
      (accepted : isLabeled label accepts text) :
      ∃ form : Form, form.Fits ∧ render text = form.text := by
    obtain ⟨gap, run, tail, blank, -, inside, ends, rfl⟩ := exists_of_labeled form accepted
    obtain rfl := eq_nil_of_atEnd noFeed ends fun char member => by simp [member]
    have filled : label ≠ [] := by
      rintro rfl
      revert member
      decide
    have found : labels.any (Text.contains (label ++ (gap ++ (between run ++ [])))) = true :=
      List.any_eq_true.mpr ⟨label, member, contains_append filled _⟩
    refine ⟨⟨none, label, gap, run⟩, ⟨?_, blank, by simp, between_run inside⟩, ?_⟩
    · exact List.mem_append_left _ member
    · rw [render, found, Form.text, inside.encode, List.append_nil]
      rfl
  have range (accepted : isUpperBound halfOpen text ∨ isRange halfOpen text ∨ isRange closed text) :
      ∃ form : Form, form.Fits ∧ render text = form.text :=
    exists_form_of_run (isRun_of_tail noFeed (exists_tail_of_range accepted))
  simp only [isValid, Bool.or_eq_true] at valid
  rcases valid with (((((((valid | valid) | valid) | valid) | valid) | valid) | valid) | valid) |
    valid
  · exact labeled (by decide) (fun rest => exists_tail_of_isQuotedVersion) valid
  · exact labeled (by decide)
      (fun rest => exists_tail_of_isQuotedRun isRunChar_of_isBranchChar) valid
  · exact labeled (by decide)
      (fun rest => exists_tail_of_isQuotedRun isRunChar_of_isRevisionChar) valid
  · exact labeled (by decide) (fun rest => exists_tail_of_isQuotedVersion) valid
  · exact exists_form_of_run (isRun_of_tail noFeed (exists_tail_of_isVersion valid))
  · obtain ⟨run, inside, rfl⟩ :=
      exists_between_of_tail noFeed (exists_tail_of_isQuotedVersion valid)
    rw [render_between inside]
    exact exists_form_from inside
  · exact range (.inl valid)
  · exact range (.inr (.inl valid))
  · exact range (.inr (.inr valid))

end Requirement

end SwiftWorkspace
