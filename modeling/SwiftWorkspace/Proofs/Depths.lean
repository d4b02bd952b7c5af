import SwiftWorkspace.Proofs.Hits

/-!
# Labels at a greater depth

The labels in cells whose brackets pair up are the same ones inside of further brackets, only
deeper.  A name with a colon in front of a value is found as the label of that name and as no other.
-/

namespace SwiftWorkspace

open Kind (cellsOf)

def Mark.deepen (more : Nat) (mark : Mark) : Mark := ⟨mark.depth + more, mark.behind⟩

namespace Source

variable {label : Text} {more depth : Nat}

/-- The labels among some cells are the same at a greater depth, wherever no bracket is skipped. -/
def Deepens (label : Text) (more depth : Nat) (cells : List Cell) : Prop :=
  ∀ skip inWord, (∀ cell ∈ cells.take skip, cell.opens? = none ∧ cell.closes? = none) →
    marksFrom label skip (depth + more) inWord cells =
      (marksFrom label skip depth inWord cells).map (Mark.deepen more)

theorem deepens_nil : Deepens label more depth [] := by
  intro skip inWord _
  cases skip <;> simp [marksFrom]

/-- What a single cell does to the depth carries over to what stands in front of it. -/
theorem Deepens.cons (word : ∀ char ∈ label, isWordChar char) {cell : Cell} {cells : List Cell}
    (level : cell.depthAfter (depth + more) = cell.depthAfter depth + more)
    (behind : Deepens label more (cell.depthAfter depth) cells) :
    Deepens label more depth (cell :: cells) := by
  intro skip inWord plain
  cases skip with
  | succ skip =>
      obtain ⟨noOpening, noClosing⟩ := plain cell (by simp)
      rw [Cell.depthAfter_plain noOpening noClosing] at behind
      rw [marksFrom, marksFrom]
      exact behind skip _ fun other member => plain other (by simp [member])
  | zero =>
      rw [marksFrom, marksFrom]
      split
      · rw [level]
        exact behind 0 _ (by simp)
      · rename_i noBrackets
        obtain ⟨⟨⟨-, noOpening⟩, noClosing⟩, -⟩ :
            ((cell.isCode = true ∧ cell.opens? = none) ∧ cell.closes? = none) ∧ inWord = false := by
          simpa using noBrackets
        rw [Cell.depthAfter_plain noOpening noClosing] at behind
        cases found : labelWidth? label (cells.length + 1) (cell :: cells) with
        | none => exact behind 0 _ (by simp)
        | some width =>
            have inside := labelWidth?_noBrackets word (by simp) found
            have positive := (labelWidth?_le (by simp) found).1
            obtain ⟨width, rfl⟩ : ∃ count, width = count + 1 := ⟨width - 1, by omega⟩
            have rest := behind width cell.isWord fun other member =>
              inside other (by simp [member])
            simp only [Nat.add_sub_cancel, rest, List.map_cons]
            rfl

theorem Deepens.append (word : ∀ char ∈ label, isWordChar char) {cells tail : List Cell}
    (balanced : Balanced cells) (behind : Deepens label more depth tail) :
    Deepens label more depth (cells ++ tail) := by
  induction balanced generalizing depth tail with
  | nil => exact behind
  | plain noOpening noClosing balanced ih =>
      refine .cons word ?_ ?_
      · simp only [Cell.depthAfter_plain noOpening noClosing]
      · rw [Cell.depthAfter_plain noOpening noClosing]
        exact ih behind
  | @pair opening closing inner rest pairs inside balanced inside_ih ih =>
      rw [List.cons_append, List.append_assoc, List.cons_append]
      refine .cons word ?_ ?_
      · simp only [pairs.depthAfter_opening]
        omega
      · rw [pairs.depthAfter_opening]
        refine inside_ih (.cons word ?_ ?_)
        · rw [Nat.add_right_comm, pairs.depthAfter_closing, pairs.depthAfter_closing]
        · rw [pairs.depthAfter_closing]
          exact ih behind

/-- Inside of brackets the labels among balanced cells are the same as outside, only deeper. -/
theorem marksFrom_deepen (word : ∀ char ∈ label, isWordChar char) {cells : List Cell}
    (balanced : Balanced cells) (depth : Nat) (inWord : Bool) :
    marksFrom label 0 depth inWord cells =
      (marksFrom label 0 0 inWord cells).map (Mark.deepen depth) := by
  have deepens : Deepens label depth 0 (cells ++ []) := .append word balanced deepens_nil
  rw [List.append_nil] at deepens
  have deeper := deepens 0 inWord (by simp)
  rwa [Nat.zero_add] at deeper

theorem marksFrom_skip (skipped rest : List Cell) (depth : Nat) (inWord : Bool) :
    marksFrom label skipped.length depth inWord (skipped ++ rest) =
      marksFrom label 0 depth ((skipped.getLast?.map Cell.isWord).getD inWord) rest := by
  induction skipped generalizing inWord with
  | nil => rfl
  | cons cell skipped ih =>
      rw [List.length_cons, List.cons_append, marksFrom, ih]
      cases skipped with
      | nil => rfl
      | cons other skipped => simp [List.getLast?_cons]

theorem marksFrom_inWord {letters : List Cell} (isWord : ∀ cell ∈ letters, cell.isWord)
    (rest : List Cell) :
    marksFrom label 0 depth true (letters ++ rest) = marksFrom label 0 depth true rest := by
  induction letters with
  | nil => rfl
  | cons cell letters ih =>
      obtain ⟨noOpening, noClosing⟩ := Cell.noBrackets_of_isWord (isWord cell (.head _))
      rw [List.cons_append, marksFrom, if_pos (by simp), Cell.depthAfter_plain noOpening noClosing,
        isWord cell (.head _)]
      exact ih fun other member => isWord other (.tail _ member)

theorem isWord_of_mem_cellsOf {name : Text} (word : ∀ char ∈ name, isWordChar char) {cell : Cell}
    (member : cell ∈ cellsOf .code name) : cell.isWord :=
  word cell.char (Kind.mem_cellsOf.mp member).2

theorem labelWidth?_name {name : Text} (isLabel : ∀ char ∈ label, isWordChar char)
    (isName : ∀ char ∈ name, isWordChar char) (rest : List Cell) {room : Nat}
    (enough : (cellsOf .code name ++ ⟨':', .code⟩ :: rest).length ≤ room) :
    labelWidth? label room (cellsOf .code name ++ ⟨':', .code⟩ :: rest) =
      if name = label then some (name.length + 1) else none := by
  refine Option.ext fun width => ?_
  rw [labelWidth?_eq_some_iff enough]
  have boundary : (⟨':', .code⟩ : Cell).isWord = false := by decide
  constructor
  · rintro ⟨word, trivia, colon, tail, split, same, trivial, isColon, ends, rfl⟩
    have here : (cellsOf .code name ++ ⟨':', .code⟩ :: rest).takeWhile Cell.isWord =
        cellsOf .code name :=
      takeWhile_exact (fun _ => isWord_of_mem_cellsOf isName) (by simpa using boundary)
    have there : (word ++ (trivia ++ colon :: tail)).takeWhile Cell.isWord = word := by
      refine takeWhile_exact (fun cell member =>
        isLabel cell.char (same ▸ List.mem_map_of_mem member)) ?_
      cases trivia <;> simpa using ends
    have agree : cellsOf .code name = word := by
      rw [← here, split, there]
    subst agree
    have spelled : name = label := (Kind.chars_cellsOf .code name).symm.trans same
    have empty : trivia = [] := by
      cases trivia with
      | nil => rfl
      | cons head trivia =>
          have first := List.append_cancel_left split
          obtain ⟨rfl, -⟩ := List.cons.inj first
          exact absurd (trivial _ (.head _)) (by decide)
    simp [spelled, empty]
  · intro found
    split at found
    · rename_i spelled
      obtain rfl := Option.some.inj found
      exact ⟨cellsOf .code name, [], ⟨':', .code⟩, rest, rfl,
        (Kind.chars_cellsOf .code name).trans spelled,
        by simp, by decide, by simpa using boundary, by simp⟩
    · cases found

/-- The marks of an argument are its own label's and those in its value. -/
theorem marksFrom_labeled {name : Text} (isLabel : IsLabel label)
    (isName : IsLabel name) (depth : Nat) (value : List Cell) :
    marksFrom label 0 depth false (cellsOf .code (name ++ [':', ' ']) ++ value) =
      (if name = label then [⟨depth, ⟨' ', .code⟩ :: value⟩] else []) ++
        marksFrom label 0 depth false value := by
  have padding : ∀ cell ∈ [(⟨' ', .code⟩ : Cell)], cell.isPadding := by decide
  have blank : marksFrom label 0 depth false (⟨' ', .code⟩ :: value) =
      marksFrom label 0 depth false value :=
    marksFrom_padding isLabel padding depth false value
  obtain ⟨first, letters, rfl⟩ := List.exists_cons_of_ne_nil isName.filled
  have isWord : Cell.isWord ⟨first, .code⟩ := isName.word first (.head _)
  obtain ⟨noOpening, noClosing⟩ := Cell.noBrackets_of_isWord isWord
  have width := labelWidth?_name isLabel.word isName.word (⟨' ', .code⟩ :: value) (Nat.le_refl _)
  have whole : cellsOf .code (first :: letters ++ [':', ' ']) ++ value =
      ⟨first, .code⟩ :: ((cellsOf .code letters ++ [⟨':', .code⟩]) ++ ⟨' ', .code⟩ :: value) := by
    simp [cellsOf]
  -- What the search skips behind the first letter ends in the colon, so that it is in no word
  -- there.
  generalize tail : cellsOf .code letters ++ [(⟨':', .code⟩ : Cell)] = skipped at whole
  have size : skipped.length = (first :: letters).length := by simp [← tail]
  have noWord : Cell.isWord ⟨':', .code⟩ = false := by decide
  have colon : (skipped.getLast?.map Cell.isWord).getD (Cell.isWord ⟨first, .code⟩) = false := by
    rw [← tail, List.getLast?_concat]
    exact noWord
  have found : labelWidth? label ((skipped ++ ⟨' ', .code⟩ :: value).length + 1)
      (⟨first, .code⟩ :: (skipped ++ ⟨' ', .code⟩ :: value)) =
        if first :: letters = label then some ((first :: letters).length + 1) else none := by
    simpa [← tail, Kind.cellsOf_cons] using width
  rw [whole, marksFrom, if_neg (by simp [Cell.isCode, noOpening, noClosing]), found]
  by_cases same : first :: letters = label
  · rw [if_pos same, if_pos same]
    simp only [Nat.add_sub_cancel]
    rw [← size, marksFrom_skip, colon, blank, List.drop_succ_cons, List.drop_left]
    rfl
  · rw [if_neg same, if_neg same]
    simp only [isWord]
    rw [← tail, List.append_assoc, marksFrom_inWord fun _ =>
      isWord_of_mem_cellsOf fun char member => isName.word char (.tail _ member)]
    rw [List.singleton_append, marksFrom, if_pos (by simp), noWord]
    exact blank

end Source

end SwiftWorkspace
