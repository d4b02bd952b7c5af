import SwiftWorkspace.Proofs.Marking

/-!
# The turns of the search by position

The search by position takes a literal, a comment or a character of code in a turn, and each turn
begins at a boundary.  What has been put in when it begins is what the text in front of it has on
its own: no later character changes it, and the text can be cut there.
-/

namespace SwiftWorkspace

namespace Kind

variable {text : Text} {kinds more : List Kind} {position stop : Nat}

def turn (text : Text) (kinds : List Kind) (position : Nat) : Lookup (List Kind × Nat) := do
  if (← Lookup.character text position) = '"' then
    let marks := Literal.delimiter (text.drop position)
    let stop ← literalEnd text marks (position + marks.length)
    pure (withRun kinds position stop .string, stop)
  else if standsAt text ['/', '/'] position then
    let stop := lineEnd text position
    pure (withRun kinds position stop .comment, stop)
  else if standsAt text ['/', '*'] position then
    let stop := commentEnd text 0 position
    pure (withRun kinds position stop .comment, stop)
  else pure (kinds, position + 1)

theorem markFrom_eq_turn (inside : position < text.length) :
    markFrom text kinds position = turn text kinds position >>= fun (more, stop) =>
      markFrom text more stop := by
  rw [markFrom, dif_pos inside, turn]
  simp only [Lookup.character, List.getElem?_eq_getElem inside, Lookup.ok_bind]
  split
  case isTrue =>
      split
      case h_1 missing ends => rw [ends]; rfl
      case h_2 stop ends => rw [ends]; rfl
  case isFalse =>
      split
      case isTrue => rfl
      case isFalse => split <;> rfl

/--
What the search has put in, and the position that it looks at, when a turn begins or the text
ends.
-/
inductive Comes (text : Text) : List Kind → Nat → Prop where
  | start : Comes text (List.replicate text.length .code) 0
  | turn {kinds more : List Kind} {position stop : Nat} (comes : Comes text kinds position)
      (inside : position < text.length) (turns : turn text kinds position = .ok (more, stop)) :
      Comes text more stop

/--
Whether the search comes to look at the character at a position, or to the end of the text
there.
-/
def Examines (text : Text) (position : Nat) : Prop := ∃ kinds, Comes text kinds position

theorem exists_turn (inside : position < text.length) (kinds : List Kind) :
    ∃ kind stop more, turn text kinds position = .ok (more, stop) ∧ Takes text kind position stop ∧
      (more = withRun kinds position stop kind ∨ more = kinds ∧ kind = .code) := by
  have stands : text.drop position = text[position] :: text.drop (position + 1) :=
    List.drop_eq_getElem_cons inside
  simp only [turn, Lookup.character, List.getElem?_eq_getElem inside, Lookup.ok_bind]
  split
  case isTrue mark =>
      rw [mark] at stands
      obtain ⟨stop, found, takes⟩ := exists_literal stands
      rw [found]
      exact ⟨_, _, _, rfl, takes, .inl rfl⟩
  case isFalse noMark =>
      split
      case isTrue opens => exact ⟨_, _, _, rfl, takes_line opens, .inl rfl⟩
      case isFalse noLine =>
          split
          case isTrue opens => exact ⟨_, _, _, rfl, takes_block opens, .inl rfl⟩
          case isFalse noBlock =>
              exact ⟨_, _, _, rfl, takes_plain inside noMark noLine noBlock, .inr ⟨rfl, rfl⟩⟩

theorem takes_of_turn (inside : position < text.length)
    (turns : turn text kinds position = .ok (more, stop)) :
    ∃ kind, Takes text kind position stop ∧
      (more = withRun kinds position stop kind ∨ more = kinds ∧ kind = .code) := by
  obtain ⟨kind, behind, other, found, takes, puts⟩ := exists_turn inside kinds
  obtain ⟨rfl, rfl⟩ : other = more ∧ behind = stop := by
    simpa using Except.ok.inj (found.symm.trans turns)
  exact ⟨kind, takes, puts⟩

/-- Where a turn begins, the boundaries of the rest are those of the text. -/
theorem Comes.boundaries (comes : Comes text kinds position) :
    position ≤ text.length ∧ (boundariesFrom .code text).drop position = boundariesFrom .code
      (text.drop position) := by
  induction comes with
  | start => exact ⟨Nat.zero_le _, rfl⟩
  | @turn kinds more position stop comes inside turns ih =>
      obtain ⟨kind, takes, -⟩ := takes_of_turn inside turns
      have advances := takes.advances
      have size : stop = position + (stop - position - 1 + 1) := by omega
      refine ⟨takes.within, ?_⟩
      rw [size, ← List.drop_drop, ih.2, takes.boundaries, List.cons_append, List.drop_succ_cons,
        List.drop_left' List.length_replicate, ← size]

theorem Examines.isBoundary (examines : Examines text position) (inside : position < text.length) :
    Kind.isBoundary text position := by
  obtain ⟨kinds, comes⟩ := examines
  obtain ⟨kind, stop, more, -, takes, -⟩ := exists_turn inside kinds
  have behind := comes.boundaries.2
  rw [takes.boundaries] at behind
  rw [Kind.isBoundary, decide_eq_true_eq, ← List.head?_drop, behind]
  rfl

theorem lt_of_isBoundary (boundary : isBoundary text position) : position < text.length := by
  rw [isBoundary, decide_eq_true_eq] at boundary
  exact length_boundariesFrom .code text ▸ (List.getElem?_eq_some_iff.mp boundary).1

/-- There is no boundary between the beginning of a turn and its end. -/
theorem Comes.le_of_isBoundary {kind : Kind} {later : Nat} (comes : Comes text kinds position)
    (takes : Takes text kind position stop) (ahead : position < later)
    (boundary : isBoundary text later) : stop ≤ later := by
  by_contra! between
  obtain ⟨index, rfl⟩ : ∃ index, later = position + (index + 1) := ⟨later - position - 1, by omega⟩
  rw [isBoundary, decide_eq_true_eq, ← List.getElem?_drop, comes.boundaries.2, takes.boundaries,
    List.cons_append,
    List.getElem?_cons_succ, List.getElem?_append_left (by rw [List.length_replicate]; omega),
    List.getElem?_replicate_of_lt (by omega)] at boundary
  simp at boundary

/-- The search comes to every boundary behind one of its turns, and to the end. -/
theorem Examines.forward {later : Nat} (examines : Examines text position)
    (behind : position ≤ later)
    (goal : later = text.length ∨ Kind.isBoundary text later) : Examines text later := by
  generalize distance : later - position = left
  induction left using Nat.strongRecOn generalizing position with
  | ind left ih =>
      rcases Nat.eq_or_lt_of_le behind with rfl | ahead
      · exact examines
      · obtain ⟨kinds, comes⟩ := examines
        have within : later ≤ text.length := goal.elim Nat.le_of_eq fun boundary =>
          Nat.le_of_lt (lt_of_isBoundary boundary)
        have inside : position < text.length := Nat.lt_of_lt_of_le ahead within
        obtain ⟨kind, stop, more, turns, takes, -⟩ := exists_turn inside kinds
        have reaches : stop ≤ later := by
          rcases goal with rfl | boundary
          · exact takes.within
          · exact comes.le_of_isBoundary takes ahead boundary
        have advances := takes.advances
        exact ih (later - stop) (by omega) ⟨more, comes.turn inside turns⟩ reaches rfl

/-- The search looks at the boundaries, and at nothing else in front of the end. -/
theorem examines_iff :
    Examines text position ↔ position = text.length ∨ isBoundary text position := by
  constructor
  · intro examines
    have within := examines.elim fun _ comes => comes.boundaries.1
    exact (Nat.eq_or_lt_of_le within).imp_right examines.isBoundary
  · exact Examines.forward ⟨_, .start⟩ (Nat.zero_le _)

instance : Decidable (Examines text position) := decidable_of_iff' _ examines_iff

theorem classify_cut (goal : position = text.length ∨ isBoundary text position) :
    classify text = classify (text.take position) ++ classify (text.drop position) := by
  rcases goal with rfl | boundary
  · simp [classify]
  · have size : (text.take position).length = position :=
      List.length_take_of_le (Nat.le_of_lt (lt_of_isBoundary boundary))
    have cut : isBoundary (text.take position ++ text.drop position)
        (text.take position).length := by
      rwa [List.take_append_drop, size]
    rw [← classify_append cut, List.take_append_drop]

/-- Where the search looks, a text is cut into two that are classified on their own. -/
theorem classify_of_examines (examines : Examines text position) :
    classify text = classify (text.take position) ++ classify (text.drop position) :=
  classify_cut (examines_iff.mp examines)

/--
A text in which nothing stands between literals and comments, and most marks are inside of them.
-/
def crowdedText : Text := "\"\"\"a\"b\"\"\"\"//\"/*/*\"*/ */\"\\\"\"// \"c\n\"d".toList

theorem classify_crowdedText : Examines crowdedText 23 ∧
    classify crowdedText = classify (crowdedText.take 23) ++ classify (crowdedText.drop 23) :=
  have examines : Examines crowdedText 23 := by decide
  ⟨examines, classify_of_examines examines⟩

/-- A run of one kind in place of what was taken for code up to the end. -/
theorem withRun_eq {done : List Kind} (size : done.length = position) (ordered : position ≤ stop)
    (within : stop ≤ text.length) :
    withRun (done ++ List.replicate (text.length - position) .code) position stop kind =
      (done ++ List.replicate (stop - position) kind) ++
        List.replicate (text.length - stop) .code := by
  have rest : text.length - position - (stop - position) = text.length - stop := by omega
  rw [withRun, ← size, List.take_left, List.drop_append, List.drop_replicate, size, rest,
    List.drop_eq_nil_of_le (by omega), List.nil_append]

/-- What has been put in when a turn begins is what the text in front of it has on its own. -/
theorem Comes.kinds_eq (comes : Comes text kinds position) :
    kinds = classify (text.take position) ++ List.replicate (text.length - position) .code := by
  induction comes with
  | start => simp [classify]
  | @turn kinds more position stop comes inside turns ih =>
      obtain ⟨kind, takes, puts⟩ := takes_of_turn inside turns
      have advances := takes.advances
      have size : (classify (text.take position)).length = position := by
        rw [length_classify, List.length_take_of_le (Nat.le_of_lt inside)]
      -- The text in front of the end of the turn is cut at its beginning.
      have front : classify (text.take stop) =
          classify (text.take position) ++ List.replicate (stop - position) kind := by
        refine (List.append_left_inj (classify (text.drop stop))).mp ?_
        rw [← classify_cut (examines_iff.mp ⟨more, comes.turn inside turns⟩),
          List.append_assoc, ← takes.kinds, ← classify_cut (examines_iff.mp ⟨kinds, comes⟩)]
      rcases puts with rfl | ⟨rfl, rfl⟩
      · rw [ih, withRun_eq size (Nat.le_of_lt advances) takes.within, front]
      · have count : text.length - position = (stop - position) + (text.length - stop) := by
          have := takes.within
          omega
        rw [ih, front, count, ← List.replicate_append_replicate, List.append_assoc]

/-- Wherever the search has come to, it goes on to the kinds of the pass. -/
theorem Comes.markFrom_eq (comes : Comes text kinds position) :
    markFrom text kinds position = .ok (classify text) := by
  generalize size : text.length - position = left
  induction left using Nat.strongRecOn generalizing kinds position with
  | ind left ih =>
      by_cases inside : position < text.length
      · obtain ⟨kind, stop, more, turns, takes, -⟩ := exists_turn inside kinds
        have advances := takes.advances
        rw [markFrom_eq_turn inside, turns]
        exact ih (text.length - stop) (by omega) (comes.turn inside turns) rfl
      · have ended : text.length - position = 0 := by omega
        have whole : text.take position = text := List.take_of_length_le (Nat.le_of_not_lt inside)
        rw [markFrom, dif_neg inside, comes.kinds_eq, ended, whole, List.replicate_zero,
          List.append_nil]
        rfl

/-- The kinds that are found by position are those of the pass. -/
theorem byPosition_eq (text : Text) : byPosition text = .ok (classify text) :=
  Comes.start.markFrom_eq

end Kind

end SwiftWorkspace
