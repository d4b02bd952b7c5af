import SwiftWorkspace.Proofs.Locate

/-!
# Cells without new labels

Cells are milder than others for a label when no good value of the label comes
up in them at a new depth.  Whatever stands around them, they stay milder.
-/

namespace SwiftWorkspace

namespace Field

def good : Field → List Cell → Bool
  | .name => namesText
  | _ => opensArray

theorem steady_good (field : Field) : Steady field.good := by
  cases field <;> first | exact steady_namesText | exact steady_opensArray

theorem good_of_ne {field : Field} (other : field ≠ .name) : field.good = opensArray := by
  cases field with
  | name => exact absurd rfl other
  | _ => rfl

end Field

/-- What stands behind a cell that stops labels does not matter in front of it. -/
theorem Field.good_stop (field : Field) {stop : Cell} (stops : Stops stop)
    (cells first last : List Cell) :
    field.good (cells ++ stop :: first) = field.good (cells ++ stop :: last) := by
  have code : stop.kind ≠ .string := by
    have := stops.code
    simp only [Cell.isCode, decide_eq_true_eq] at this
    simp [this]
  have names : namesText (cells ++ stop :: first) = namesText (cells ++ stop :: last) := by
    have quiet (rest : List Cell) : textBehind? (cells ++ stop :: rest) = textBehind? cells :=
      textBehind?_append cells (by simpa using code) (by simpa [stops.noTrivia] using code)
    rw [namesText, namesText, quiet, quiet]
  have opens : opensArray (cells ++ stop :: first) = opensArray (cells ++ stop :: last) := by
    rw [opensArray, opensArray, List.dropWhile_append, List.dropWhile_append]
    cases cells.dropWhile Cell.isTrivia with
    | nil => simp [stops.noTrivia]
    | cons cell rest => simp
  cases field <;> assumption

/-- Whether every good value of a field's label in the new cells has its depth from an old one. -/
def Milder (field : Field) (old new : List Cell) : Prop :=
  ∀ depth, Source.hits field.label field.good depth new ⊆
    Source.hits field.label field.good depth old

namespace Milder

variable {field : Field} {old new : List Cell}

theorem refl (field : Field) (cells : List Cell) : Milder field cells cells :=
  fun _ => List.Subset.refl _

theorem of_rows {row other : Row} (valid : row.Valid) (seamed : row.Seamed)
    (other_valid : other.Valid) (other_seamed : other.Seamed)
    (pieces : ∀ piece ∈ other.pieces, (∃ old ∈ row.pieces, Milder field old piece) ∨
      ∀ depth, Source.hits field.label field.good depth piece = []) :
    Milder field row.cells other.cells := by
  intro depth level found
  rw [Source.hits_row (isLabel_field field) field.steady_good depth other_valid other_seamed,
    List.mem_flatMap] at found
  rw [Source.hits_row (isLabel_field field) field.steady_good depth valid seamed, List.mem_flatMap]
  obtain ⟨piece, member, inside⟩ := found
  rcases pieces piece member with ⟨old, old_member, milder⟩ | none
  · exact ⟨old, old_member, milder depth inside⟩
  · simp [none depth] at inside

end Milder

/-- Whether the label is written in code somewhere among some cells, perhaps inside of a word. -/
def mentions (label : Text) : List Cell → Bool
  | [] => false
  | cell :: cells =>
      (cell.isCode && label.isPrefixOf (Kind.chars (cell :: cells))) || mentions label cells

@[simp] theorem mentions_nil (label : Text) : mentions label [] = false := rfl

theorem mentions_cons (label : Text) (cell : Cell) (cells : List Cell) :
    mentions label (cell :: cells) =
      ((cell.isCode && label.isPrefixOf (Kind.chars (cell :: cells))) || mentions label cells) :=
        rfl

@[simp] theorem mentions_string (label text : Text) (rest : List Cell) :
    mentions label (Kind.cellsOf .string text ++ rest) = mentions label rest := by
  induction text with
  | nil => rfl
  | cons char text ih => exact ih

theorem mentions_blank {label text : Text} (isLabel : IsLabel label)
    (blank : ∀ char ∈ text, isBlank char) (rest : List Cell) :
    mentions label (Kind.cellsOf .code text ++ rest) = mentions label rest := by
  induction text with
  | nil => rfl
  | cons char text ih =>
      have here : label.isPrefixOf (char :: (Kind.chars (Kind.cellsOf .code text ++ rest))) =
          false := by
        cases label with
        | nil => exact absurd rfl isLabel.filled
        | cons first label =>
            have differs : first ≠ char := by
              rintro rfl
              simpa [isLabel.solid first (by simp)] using blank first (by simp)
            simp [List.isPrefixOf, differs]
      have step := mentions_cons label ⟨char, .code⟩ (Kind.cellsOf .code text ++ rest)
      rw [Kind.chars_cons, here, ih fun other member => blank other (by simp [member])] at step
      exact step.trans (by simp)

theorem marksFrom_of_not_mentions {label : Text} {cells : List Cell} (depth : Nat) (inWord : Bool)
    (quiet : mentions label cells = false) : Source.marksFrom label 0 depth inWord cells = [] := by
  induction cells generalizing depth inWord with
  | nil => rfl
  | cons cell cells ih =>
      rw [mentions_cons, Bool.or_eq_false_iff] at quiet
      obtain ⟨here, behind⟩ := quiet
      rw [Source.marksFrom]
      split
      · exact ih _ _ behind
      · rename_i code
        cases width : Source.labelWidth? label (cells.length + 1) (cell :: cells) with
        | none => exact ih _ _ behind
        | some width =>
            obtain ⟨word, trivia, colon, rest, split, same, -⟩ :=
              (Source.labelWidth?_eq_some_iff (Nat.le_refl _)).mp width
            have begins : label.isPrefixOf (Kind.chars (cell :: cells)) = true := by
              rw [split, ← same, List.isPrefixOf_iff_prefix]
              simp [Kind.chars]
            rw [begins, Bool.and_true] at here
            simp [here] at code

theorem hits_of_not_mentions {field : Field} {cells : List Cell}
    (quiet : mentions field.label cells = false) (depth : Nat) :
    Source.hits field.label field.good depth cells = [] := by
  simp [Source.hits, marksFrom_of_not_mentions depth false quiet]

namespace Frame

variable (frame : Frame) {old new : List Cell}

/-- The hits in a frame are those around the gap and those in it. -/
theorem hits_fill (field : Field) (depth : Nat) :
    ∃ before behind level, ∀ inner, Balanced inner →
      Source.hits field.label field.good depth (frame.fill inner).cells =
        before ++ (Source.hits field.label field.good level inner ++ behind) := by
  have closing_calm : frame.closing.isCodeChar '[' = false := by
    obtain ⟨shape, -, closes⟩ := frame.pairs
    cases array : frame.closing.isCodeChar '[' with
    | false => rfl
    | true =>
        simp only [Cell.isCodeChar, Cell.isCode, Bool.and_eq_true, decide_eq_true_eq] at array
        simp [Cell.closes?, Cell.isCode, array, Bracket.closed?] at closes
  have isLabel := isLabel_field field
  refine ⟨((Source.marksFrom field.label 0 depth false frame.front).filter fun mark =>
      field.good (mark.behind ++ [frame.opening])).map Mark.depth,
    Source.hits field.label field.good (Cell.depthOver depth frame.front) frame.back,
    Cell.depthOver depth frame.front + 1, fun inner balanced => ?_⟩
  rw [Source.hits, fill, Source.marksFrom_append isLabel frame.stops_opening
    (Nat.zero_le _) (by simp), List.filter_append, List.map_append, frame.pairs.depthAfter_opening]
  congr 1
  · rw [List.filter_map, List.map_map]
    have same : ((fun mark : Mark => field.good mark.behind) ∘
        Mark.extend (frame.opening :: (inner ++ frame.closing :: frame.back))) =
          fun mark => field.good (mark.behind ++ [frame.opening]) :=
      funext fun mark => field.good_stop frame.stops_opening mark.behind _ _
    rw [same]
    rfl
  · have rest : Source.hits field.label field.good (Cell.depthOver depth frame.front + 1)
        (inner ++ frame.closing :: frame.back) = _ :=
      Source.hits_append isLabel field.steady_good frame.stops_closing closing_calm inner frame.back
    rw [balanced.depthOver, frame.pairs.depthAfter_closing] at rest
    exact rest

/-- A source stays milder around milder cells. -/
theorem milder_fill {field : Field} (old_balanced : Balanced old) (new_balanced : Balanced new)
    (milder : Milder field old new) :
    Milder field (frame.fill old).cells (frame.fill new).cells := by
  intro depth level found
  obtain ⟨before, behind, inside, hits⟩ := frame.hits_fill field depth
  rw [hits new new_balanced] at found
  rw [hits old old_balanced]
  simp only [List.mem_append] at found ⊢
  rcases found with found | found | found
  · exact .inl found
  · exact .inr (.inl (milder inside found))
  · exact .inr (.inr found)

end Frame

end SwiftWorkspace
