import SwiftWorkspace.Lookup.Basic
import SwiftWorkspace.Proofs.Boundaries

/-!
# Runs of one kind

A literal or a comment of a text is a run of one kind in the pass over its characters, and
the search by position finds the end of this run, behind which the pass begins to read
something new.  So it looks up no character behind the last one.
-/

namespace SwiftWorkspace

namespace Kind

variable {text marks : Text} {mode next : Mode} {kind : Kind} {position stop : Nat}

/--
Whether what stands between two positions is a run of one kind, in a mode, with code behind it.
Nothing new begins in the run.
-/
structure RunsTo (text : Text) (mode : Mode) (kind : Kind) (position stop : Nat) : Prop where
  ordered : position ≤ stop
  within : stop ≤ text.length
  kinds : classifyFrom mode (text.drop position) =
    List.replicate (stop - position) kind ++ classify (text.drop stop)
  boundaries : boundariesFrom mode (text.drop position) =
    List.replicate (stop - position) false ++ boundariesFrom .code (text.drop stop)

/--
Whether what stands between two positions is what the search takes at a time: a literal, a
comment, or a single character of code.
-/
structure Takes (text : Text) (kind : Kind) (position stop : Nat) : Prop where
  advances : position < stop
  within : stop ≤ text.length
  kinds : classify (text.drop position) = List.replicate (stop - position) kind ++ classify
    (text.drop stop)
  boundaries : boundariesFrom .code (text.drop position) =
    true :: List.replicate (stop - position - 1) false ++ boundariesFrom .code (text.drop stop)

namespace RunsTo

theorem atEnd (text : Text) (mode : Mode) (kind : Kind) :
    RunsTo text mode kind text.length text.length where
  ordered := Nat.le_refl _
  within := Nat.le_refl _
  kinds := by simp [classify]
  boundaries := by simp

/-- A run is empty where the pass goes on as in code. -/
theorem here (within : position ≤ text.length)
    (ends : mode = .code ∨ (boundariesFrom mode (text.drop position))[0]? = some true) :
    RunsTo text mode kind position position where
  ordered := Nat.le_refl _
  within := within
  kinds := by
    rcases ends with rfl | boundary
    · simp [classify]
    · simp [classifyFrom_of_boundary boundary, classify]
  boundaries := by
    rcases ends with rfl | boundary
    · simp
    · simp [boundariesFrom_of_boundary boundary]

section token

variable {part rest : Text} (stands : text.drop position = part ++ rest)
  (reads : Reads mode part rest kind next)
    (runs : RunsTo text next kind (position + part.length) stop)

include stands reads runs

/-- A token of the kind of a run in front of it makes the run longer. -/
theorem kinds_token : classifyFrom mode (text.drop position) =
    List.replicate (stop - position) kind ++ classify (text.drop stop) := by
  have behind : text.drop (position + part.length) = rest := by
    rw [← List.drop_drop, stands, List.drop_left]
  have size : stop - position = part.length + (stop - (position + part.length)) := by
    have := runs.ordered
    omega
  rw [stands, reads.classifyFrom, ← behind, runs.kinds, size,
    ← List.replicate_append_replicate, List.append_assoc]

/-- Of a token and the run behind it only the first character can be a boundary. -/
theorem boundaries_token : boundariesFrom mode (text.drop position) =
    decide (mode = .code ∨ kind = .code) :: List.replicate (stop - position - 1) false ++
      boundariesFrom .code (text.drop stop) := by
  have behind : text.drop (position + part.length) = rest := by
    rw [← List.drop_drop, stands, List.drop_left]
  have filled := List.length_pos_iff.mpr reads.token_ne_nil
  have size : stop - position - 1 = (part.length - 1) + (stop - (position + part.length)) := by
    have := runs.ordered
    omega
  rw [stands, reads.boundariesFrom, ← behind, runs.boundaries, size,
    ← List.replicate_append_replicate, List.cons_append, List.cons_append, List.append_assoc]

/-- A run begins inside of a literal or a comment with one of its tokens. -/
theorem token (inside : mode ≠ .code) (marked : kind ≠ .code) :
    RunsTo text mode kind position stop where
  ordered := Nat.le_trans (Nat.le_add_right _ _) runs.ordered
  within := runs.within
  kinds := runs.kinds_token stands reads
  boundaries := by
    have filled := List.length_pos_iff.mpr reads.token_ne_nil
    have size : stop - position = (stop - position - 1) + 1 := by
      have := runs.ordered
      omega
    rw [runs.boundaries_token stands reads, size, List.replicate_succ]
    simp [inside, marked]

end token

theorem takes {token rest : Text} (stands : text.drop position = token ++ rest)
    (reads : Reads .code token rest kind next)
    (runs : RunsTo text next kind (position + token.length) stop) :
    Takes text kind position stop where
  advances := by
    have filled := List.length_pos_iff.mpr reads.token_ne_nil
    have := runs.ordered
    omega
  within := runs.within
  kinds := runs.kinds_token stands reads
  boundaries := runs.boundaries_token stands reads

end RunsTo

theorem standsAt_iff :
    standsAt text marks position ↔ ∃ rest, text.drop position = marks ++ rest := by
  rw [standsAt, Text.startsWith, List.isPrefixOf_iff_prefix]
  exact exists_congr fun rest => eq_comm

theorem le_of_drop_eq {token rest : Text} (within : position ≤ text.length)
    (stands : text.drop position = token ++ rest) : position + token.length ≤ text.length := by
  have size : text.length - position = token.length + rest.length := by
    rw [← List.length_drop, stands, List.length_append]
  omega

/-- What the marks around a literal mean in the mode that reads it. -/
structure Quotes (marks : Text) (mode : Mode) : Prop where
  escape : ∀ {char : Char} {rest : Text}, Reads mode ['\\', char] rest .string mode
  last : Reads mode ['\\'] [] .string mode
  close : ∀ {rest : Text}, Reads mode marks rest .string .code
  char : ∀ {char : Char} {rest : Text}, char ≠ '\\' → (∀ tail, char :: rest ≠ marks ++ tail) →
    (marks.length = 1 → char ≠ '\n') → Reads mode [char] rest .string mode
  inside : mode ≠ .code
  feed : marks.length = 1 → ∀ rest, (boundariesFrom mode ('\n' :: rest))[0]? = some true

theorem quotes_line : Quotes ['"'] .line where
  escape := .lineEscape
  last := .lineChar (by decide) (by decide) fun _ => rfl
  close := .closeLine
  char noSlash noMark noBreak := .lineChar (by simpa using noMark) (noBreak rfl) (absurd · noSlash)
  inside := by decide
  feed _ rest := by simp

theorem quotes_block : Quotes ['"', '"', '"'] .block where
  escape := .blockEscape
  last := .blockChar (by simp) fun _ => rfl
  close := .closeBlock
  char noSlash noMark _ :=
    .blockChar (fun same tail behind => noMark tail (by simp [same, behind])) (absurd · noSlash)
  inside := by decide
  feed single := by simp at single

theorem exists_literalEnd (quotes : Quotes marks mode) (within : position ≤ text.length) :
    ∃ stop, literalEnd text marks position = .ok stop ∧ RunsTo text mode .string position stop := by
  fun_induction literalEnd text marks position with
  | case1 position inside escaped more =>
      have stands : text.drop position = [text[position]] ++ text.drop (position + 1) :=
        List.drop_eq_getElem_cons inside
      simp only [Lookup.character, List.getElem?_eq_getElem inside, Lookup.ok_bind]
      split
      · rename_i slash
        rw [slash] at stands
        cases behind : text.drop (position + 1) with
        | nil =>
            have size := List.drop_eq_nil_iff.mp behind
            have last : position + 1 = text.length := by omega
            have ended : RunsTo text mode .string (position + 1) text.length := by
              rw [last]
              exact .atEnd ..
            rw [behind] at stands
            refine ⟨text.length, ?_, .token stands quotes.last ended quotes.inside (by decide)⟩
            rw [literalEnd, if_neg (by omega)]
            rfl
        | cons char rest =>
            have size : (text.drop (position + 1)).length = rest.length + 1 := by
              rw [behind, List.length_cons]
            rw [List.length_drop] at size
            obtain ⟨stop, found, runs⟩ := escaped (by omega)
            rw [behind] at stands
            have pair : text.drop position = ['\\', char] ++ rest := stands
            exact ⟨stop, found, .token pair quotes.escape runs quotes.inside (by decide)⟩
      · rename_i noSlash
        split
        · rename_i closes
          obtain ⟨rest, closes⟩ := standsAt_iff.mp closes
          exact ⟨_, rfl, .token closes quotes.close (.here (le_of_drop_eq within closes) (.inl rfl))
            quotes.inside (by decide)⟩
        · rename_i noMarks
          split
          · rename_i feed
            obtain ⟨feed, single⟩ : text[position] = '\n' ∧ marks.length = 1 := by simpa using feed
            refine ⟨_, rfl, .here within (.inr ?_)⟩
            rw [stands, feed]
            exact quotes.feed single _
          · rename_i noFeed
            obtain ⟨stop, found, runs⟩ := more (by omega)
            refine ⟨stop, found, .token stands
              (quotes.char noSlash (fun tail same => noMarks ?_) fun single feed =>
              noFeed ?_) runs quotes.inside (by decide)⟩
            · exact standsAt_iff.mpr ⟨tail, stands.trans same⟩
            · simp [single, feed]
  | case2 position outside =>
      obtain rfl : position = text.length := by omega
      exact ⟨_, rfl, .atEnd ..⟩

theorem runsTo_lineEnd (within : position ≤ text.length) :
    RunsTo text .lineComment .comment position (lineEnd text position) := by
  generalize stands : text.drop position = rest
  induction rest generalizing position with
  | nil =>
      obtain rfl : position = text.length := by
        have := List.drop_eq_nil_iff.mp stands
        omega
      simpa [lineEnd] using RunsTo.atEnd text .lineComment .comment
  | cons char rest ih =>
      have behind : text.drop (position + 1) = rest := by
        rw [← List.drop_drop, stands, List.drop_one, List.tail_cons]
      have inside : position < text.length := by
        have size : (text.drop position).length = rest.length + 1 := by
          rw [stands, List.length_cons]
        rw [List.length_drop] at size
        omega
      by_cases feed : char = '\n'
      · have same : lineEnd text position = position := by simp [lineEnd, stands, feed]
        rw [same]
        refine .here within (.inr ?_)
        rw [stands, feed]
        simp [boundariesFrom, Fold.run, Fold.boundaries]
      · have same : lineEnd text position = lineEnd text (position + 1) := by
          simp only [lineEnd, stands, behind, List.takeWhile_cons, feed, ne_eq,
            not_false_eq_true, decide_true, if_true, List.length_cons]
          omega
        rw [same]
        have single : text.drop position = [char] ++ rest := stands
        exact .token single (.lineCommentChar feed) (ih inside behind) (by decide) (by decide)

theorem runsTo_commentEnd {depth : Nat} (within : position ≤ text.length) :
    RunsTo text (.blockComment depth) .comment position (commentEnd text (depth + 1) position) := by
  generalize counted : depth + 1 = opened
  fun_induction commentEnd text opened position generalizing depth with
  | case1 opened position inside opens ih =>
      obtain ⟨rest, stands⟩ := standsAt_iff.mp opens
      exact .token stands .deeper (ih (le_of_drop_eq within stands) (congrArg (· + 1) counted))
        (by simp) (by decide)
  | case2 opened position inside opens closes last =>
      obtain ⟨rest, stands⟩ := standsAt_iff.mp closes
      obtain rfl : depth = 0 := by omega
      exact .token stands .shallower (.here (le_of_drop_eq within stands) (.inl rfl))
        (by simp) (by decide)
  | case3 opened position inside opens closes more ih =>
      obtain ⟨rest, stands⟩ := standsAt_iff.mp closes
      cases depth with
      | zero => omega
      | succ depth =>
          exact .token stands .shallower (ih (le_of_drop_eq within stands) (by omega))
            (by simp) (by decide)
  | case4 opened position inside opens closes ih =>
      have stands : text.drop position = [text[position]] ++ text.drop (position + 1) :=
        List.drop_eq_getElem_cons inside
      refine .token stands
        (.blockCommentChar (fun same tail behind => opens ?_) fun same tail behind =>
        closes ?_) (ih inside counted) (by simp) (by decide)
      · exact standsAt_iff.mpr ⟨tail, by rw [stands, same, behind]; rfl⟩
      · exact standsAt_iff.mpr ⟨tail, by rw [stands, same, behind]; rfl⟩
  | case5 opened position outside =>
      obtain rfl : position = text.length := by omega
      exact .atEnd ..

/-- A literal is taken from the marks that open it on. -/
theorem exists_literal {rest : Text} (stands : text.drop position = '"' :: rest) :
    ∃ stop, literalEnd text (Literal.delimiter (text.drop position))
        (position + (Literal.delimiter (text.drop position)).length) = .ok stop ∧
      Takes text .string position stop := by
  have inside : position < text.length := by
    have size : (text.drop position).length = rest.length + 1 := by rw [stands, List.length_cons]
    rw [List.length_drop] at size
    omega
  by_cases triple : standsAt text ['"', '"', '"'] position
  · have marks : Literal.delimiter (text.drop position) = ['"', '"', '"'] := if_pos triple
    obtain ⟨tail, opens⟩ := standsAt_iff.mp triple
    obtain ⟨stop, found, runs⟩ :=
      exists_literalEnd quotes_block (le_of_drop_eq (Nat.le_of_lt inside) opens)
    rw [marks]
    exact ⟨stop, found, runs.takes opens .openBlock⟩
  · have marks : Literal.delimiter (text.drop position) = ['"'] := if_neg triple
    obtain ⟨stop, found, runs⟩ := exists_literalEnd quotes_line inside
    rw [marks]
    have single : text.drop position = ['"'] ++ rest := stands
    refine ⟨stop, found, runs.takes single (.openLine fun tail same => triple ?_)⟩
    exact standsAt_iff.mpr ⟨tail, by rw [stands, same]; rfl⟩

theorem takes_line (opens : standsAt text ['/', '/'] position) :
    Takes text .comment position (lineEnd text position) := by
  obtain ⟨rest, stands⟩ := standsAt_iff.mp opens
  have behind : text.drop (position + 2) = rest := by rw [← List.drop_drop, stands]; rfl
  have size : (text.drop position).length = rest.length + 2 := by rw [stands]; rfl
  have same : lineEnd text position = lineEnd text (position + 2) := by
    simp only [lineEnd, behind, stands, List.cons_append, List.nil_append, List.takeWhile_cons]
    simp
    omega
  rw [same]
  rw [List.length_drop] at size
  exact (runsTo_lineEnd (by simp only [List.length_cons, List.length_nil]; omega)).takes stands
    .openLineComment

theorem takes_block (opens : standsAt text ['/', '*'] position) :
    Takes text .comment position (commentEnd text 0 position) := by
  obtain ⟨rest, stands⟩ := standsAt_iff.mp opens
  have size : (text.drop position).length = rest.length + 2 := by rw [stands]; rfl
  rw [List.length_drop] at size
  rw [commentEnd, if_pos (by omega), if_pos opens]
  exact (runsTo_commentEnd (by simp only [List.length_cons, List.length_nil]; omega)).takes stands
    .openBlockComment

/-- Where nothing opens a literal or a comment there is a character of code. -/
theorem takes_plain (inside : position < text.length) (noMark : text[position] ≠ '"')
    (noLine : ¬standsAt text ['/', '/'] position) (noBlock : ¬standsAt text ['/', '*'] position) :
    Takes text .code position (position + 1) := by
  have stands : text.drop position = [text[position]] ++ text.drop (position + 1) :=
    List.drop_eq_getElem_cons inside
  by_cases slash : text[position] = '/'
  · rw [slash] at stands
    refine (RunsTo.here inside (.inl rfl)).takes stands
      (.slash (fun tail same => noLine ?_) fun tail same =>
      noBlock ?_)
    · exact standsAt_iff.mpr ⟨tail, by rw [stands, same]; rfl⟩
    · exact standsAt_iff.mpr ⟨tail, by rw [stands, same]; rfl⟩
  · exact (RunsTo.here inside (.inl rfl)).takes stands (.plain noMark slash)

end Kind

end SwiftWorkspace
