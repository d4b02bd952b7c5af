import SwiftWorkspace.Proofs.Remainders

/-!
# What is read alike in front of anything

Most cells that are read from code to code do not care what follows: the pass has
come to an end of what they began.  So the padding of a row can be cut at its
commas and line feeds, and its elements can come to stand in front of other padding.
-/

namespace SwiftWorkspace

namespace Kind

def Settled (cells : List Cell) : Prop := ∀ rest : Text, Scans .code cells rest .code

namespace Scans

variable {mode final : Mode} {cells : List Cell} {rest other : Text}

/-- Of a literal of several lines no single cell can be left. -/
theorem not_block_single {cell : Cell} (scans : Scans .block [cell] rest .code) : False := by
  obtain ⟨char, kind⟩ := cell
  have reads : Reads .block [char] rest kind .code := scans.reads_single
  cases reads

/--
What follows cells that end in code can be exchanged, unless they end with a slash, which
could begin a comment, or with a literal that another quotation mark would go on with.
-/
theorem replace (scans : Scans mode cells rest .code)
    (ends : ∀ cell ∈ cells.getLast?, cell ≠ ⟨'/', .code⟩ ∧
      (cell.kind = .string → ∀ char ∈ other.head?, char ≠ '"')) : Scans mode cells other .code := by
  generalize code : Mode.code = final at scans ⊢
  induction scans with
  | here => exact .here _ _
  | @read mode next final token rest kind before reads scans ih =>
      subst code
      have behind : Scans next before other .code := by
        refine ih (fun cell found => ends cell ?_) rfl
        simp [Option.mem_def.mp found]
      refine .read ?_ behind
      cases reads with
      | openLine single =>
          refine .openLine fun tail same => ?_
          rcases before with _ | ⟨mark, _ | ⟨second, before⟩⟩
          · cases scans.of_nil
          · obtain ⟨isMark, rfl⟩ : mark.char = '"' ∧ other = '"' :: tail := by simpa using same
            have string : mark.kind = .string := scans.of_head_literal (by simp) (.inl rfl)
            exact (ends mark (by simp)).2 string '"' rfl rfl
          · simp_all
      | slash noLine noBlock =>
          cases before with
          | nil => exact absurd rfl (ends ⟨'/', .code⟩ (by simp [cellsOf])).1
          | cons => exact .slash (by simp_all) (by simp_all)
      | lineChar noMark noBreak last =>
          refine .lineChar noMark noBreak fun escape => ?_
          obtain ⟨empty, -⟩ := List.append_eq_nil_iff.mp (last escape)
          obtain rfl : before = [] := by simpa [chars] using empty
          cases scans.of_nil
      | blockChar single last =>
          refine .blockChar (fun mark tail same => ?_) fun escape => ?_
          · rcases before with _ | ⟨cell, _ | ⟨second, before⟩⟩
            · cases scans.of_nil
            · exact not_block_single scans
            · simp_all
          · obtain ⟨empty, -⟩ := List.append_eq_nil_iff.mp (last escape)
            obtain rfl : before = [] := by simpa [chars] using empty
            cases scans.of_nil
      | blockCommentChar noOpening noClosing =>
          cases before with
          | nil => cases scans.of_nil
          | cons => exact .blockCommentChar (by simp_all) (by simp_all)
      | _ => constructor <;> assumption

/-- A character that belongs to no mark is code where the pass is in code. -/
theorem code_of_bland {cell : Cell} (scans : Scans .code (cell :: cells) rest final)
    (bland : Bland [cell.char]) : cell.kind = .code := by
  obtain ⟨noMark, noSlash, -⟩ := bland_cons.mp bland
  generalize whole : cell :: cells = all at scans
  cases scans with
  | here => cases whole
  | read reads scans => cases reads <;> simp_all [cellsOf]

/-- In front of a line feed in code the pass is in code, or in a comment that the line feed ends. -/
theorem cut_feed {first last : List Cell}
    (scans : Scans mode (first ++ ⟨'\n', .code⟩ :: last) rest final) :
    ∃ middle, (middle = .code ∨ middle = .lineComment) ∧
      Scans mode first (chars (⟨'\n', .code⟩ :: last) ++ rest) middle ∧
      ∀ entered, entered = .code ∨ entered = .lineComment →
        Scans entered (⟨'\n', .code⟩ :: last) rest final := by
  obtain ⟨middle, before, behind⟩ := scans.split fun left _ right found same => by
    obtain rfl : (⟨'\n', .code⟩ : Cell) = right := by simpa using found
    exact same
  have settled : middle = .code ∨ middle = .lineComment :=
    (behind.of_head_code rfl rfl).imp_right And.left
  have single_feed : Scans middle ([⟨'\n', .code⟩] ++ last) rest final := behind
  have more : Scans .code last rest final := (single_feed.cut_behind rfl rfl).2
  refine ⟨middle, settled, before, ?_⟩
  rintro entered (rfl | rfl)
  · exact (single ⟨'\n', .code⟩ rfl (by simp) _).append more
  · exact (token .closeLineComment).append more

end Scans

namespace Settled

variable {first last cells : List Cell}

theorem append_clear (front : Settled first) (back : Clear last) : Clear (first ++ last) :=
  (front _).append back

end Settled

theorem Scans.firm_of_last {cells : List Cell} {rest : Text} (scans : Scans .code cells rest .code)
    (noSlash : ∀ cell ∈ cells.getLast?, cell ≠ ⟨'/', .code⟩) : Firm cells :=
  fun _ noMark => scans.replace fun cell found => ⟨noSlash cell found, fun _ => noMark⟩

theorem Firm.append_clear {first last : List Cell} (front : Firm first) (back : Clear last)
    (noMark : ∀ char ∈ (chars last).head?, char ≠ '"') : Clear (first ++ last) :=
  Scans.append (front _ (by simpa using noMark)) back

end Kind

open Kind (Bland Clear Firm Scans Settled chars)

structure Slack (cells : List Cell) : Prop where
  padding : ∀ cell ∈ cells, cell.isPadding
  clear : Clear cells

namespace Slack

variable {first last cells : List Cell}

theorem nil : Slack [] := ⟨by simp, .nil⟩

theorem settled (slack : Slack cells) : Settled cells := by
  refine fun rest => Scans.replace slack.clear fun cell found => ⟨?_, fun string => ?_⟩
  · rintro rfl
    exact absurd (slack.padding _ (List.mem_of_getLast? found)) (by decide)
  · exact absurd string (Cell.kind_of_isPadding (slack.padding cell (List.mem_of_getLast? found))).1

theorem append (front : Slack first) (back : Slack last) : Slack (first ++ last) :=
  ⟨fun cell member => (List.mem_append.mp member).elim (front.padding cell) (back.padding cell),
    front.settled.append_clear back.clear⟩

theorem head_ne_mark (slack : Slack cells) : ∀ char ∈ (chars cells).head?, char ≠ '"' :=
  slack.clear.head_ne_mark fun cell found =>
    (Cell.kind_of_isPadding (slack.padding cell (List.mem_of_mem_head? found))).1

theorem behind (slack : Slack (first ++ last)) {cell : Cell} (found : cell ∈ first.getLast?)
    (code : cell.kind = .code) : Slack last :=
  ⟨fun other member => slack.padding other (List.mem_append_right _ member),
    (Scans.cut_behind slack.clear found code).2⟩

theorem before {comma : Cell} (slack : Slack (first ++ comma :: last)) (isComma : comma.isComma) :
    Slack first := by
  obtain rfl := Row.eq_commaCell isComma
  refine ⟨fun other member => slack.padding other (List.mem_append_left _ member), ?_⟩
  rcases first.eq_nil_or_concat with rfl | ⟨front, left, rfl⟩
  · exact .nil
  · have parted : Kind.Parted left commaCell := Kind.parted_of_code rfl (by decide)
    rw [List.concat_eq_append] at slack ⊢
    exact (Scans.cut slack.clear (List.getLast?_concat ..) rfl parted).1.clear

/-- Blanks at the start of padding are code. -/
theorem dropWhile_blank {blank : Cell → Bool} (blanks : ∀ cell, blank cell → isBlank cell.char)
    (slack : Slack cells) : Slack (cells.dropWhile blank) := by
  induction cells with
  | nil => exact slack
  | cons cell cells ih =>
      rw [List.dropWhile_cons]
      split
      case isTrue isBlank =>
          have code : cell.kind = .code :=
            slack.clear.code_of_bland (Row.bland_of_isBlank (blanks cell isBlank))
          have single_cell : Slack ([cell] ++ cells) := slack
          exact ih (single_cell.behind rfl code)
      case isFalse => exact slack

/-- Behind the end of a line padding is read on its own, with the line feed. -/
theorem drop_feed {line behind : List Cell} {feed : Cell} (slack : Slack (line ++ feed :: behind))
    (isFeed : feed.char = '\n') (feeds : feed.kind = .comment → feed.char ≠ '\n') :
    feed = ⟨'\n', .code⟩ ∧ Slack (feed :: behind) := by
  have inside (cell : Cell) (member : cell ∈ feed :: behind) : cell.isPadding :=
    slack.padding cell (List.mem_append_right _ member)
  have code := Cell.code_of_isPadding (inside feed (.head _)) fun comment => feeds comment isFeed
  obtain rfl : feed = ⟨'\n', .code⟩ := by
    obtain ⟨char, kind⟩ := feed
    simp_all
  obtain ⟨-, -, -, enters⟩ := Scans.cut_feed slack.clear
  exact ⟨rfl, inside, enters .code (.inl rfl)⟩

theorem drop_endOfLine (slack : Slack cells)
    (feeds : ∀ cell ∈ cells, cell.kind = .comment → cell.char ≠ '\n') :
    Slack (cells.drop (endOfLine cells)) := by
  rcases endOfLine_eq cells with zero | ⟨line, feed, behind, rfl, size, -, isFeed⟩
  · rwa [zero, List.drop_zero]
  · rw [size, List.drop_left]
    exact (slack.drop_feed isFeed (feeds feed (by simp))).2

theorem of_behindComma (slack : Slack cells) {front : List Cell}
    (whole : cells = front ++ behindComma cells)
    (comma : ∀ cell ∈ front.getLast?, cell.isComma) : Slack (behindComma cells) := by
  rcases front.eq_nil_or_concat with rfl | ⟨before, last, rfl⟩
  · rw [List.nil_append] at whole
    exact whole ▸ slack
  · rw [List.concat_eq_append] at whole comma
    have code : last.kind = .code :=
      congrArg Cell.kind (Row.eq_commaCell (comma last (List.getLast?_concat ..)))
    rw [whole] at slack
    exact slack.behind (List.getLast?_concat ..) code

/-- The line of the last element ends where the padding behind it is read on its own. -/
theorem drop_lineEnd (slack : Slack cells)
    (feeds : ∀ cell ∈ cells, cell.kind = .comment → cell.char ≠ '\n')
    {front : List Cell} (whole : cells = front ++ behindComma cells)
    (comma : ∀ cell ∈ front.getLast?, cell.isComma) :
    front.length + endOfLine (behindComma cells) ≤ cells.length ∧
      Slack (cells.drop (front.length + endOfLine (behindComma cells))) ∧
      (cells.drop (front.length + endOfLine (behindComma cells))).head? =
        (behindComma cells)[endOfLine (behindComma cells)]? := by
  have dropped : cells.drop (front.length + endOfLine (behindComma cells)) =
      (behindComma cells).drop (endOfLine (behindComma cells)) := by
    conv => lhs; arg 2; rw [whole]
    rw [List.drop_length_add_append]
  have size := congrArg List.length whole
  have ends := endOfLine_le (behindComma cells)
  rw [List.length_append] at size
  refine ⟨by omega, ?_, ?_⟩
  · rw [dropped]
    exact (slack.of_behindComma whole comma).drop_endOfLine fun cell member =>
      feeds cell (mem_of_mem_behindComma member)
  · rw [dropped, List.head?_drop]

end Slack

namespace Row

variable {entries : List (List Cell × List Cell)} {padding piece rest : List Cell}

/--
The first element of a row that is read on its own stands behind padding that is, and so does
the rest.
-/
theorem Valid.slack_head (valid : Row.Valid ⟨(padding, piece) :: entries, rest⟩)
    (clear : Clear (Row.cells ⟨(padding, piece) :: entries, rest⟩)) :
    Slack padding ∧ (∃ behind, Scans .code piece behind .code) ∧
      Clear (Row.cells ⟨entries, rest⟩) := by
  have whole : Row.Valid ⟨[] ++ (padding, piece) :: entries, rest⟩ := valid
  obtain ⟨front, more⟩ := whole.cut clear
  rw [flat_nil, List.nil_append] at front
  obtain ⟨head, found, significant⟩ := (valid.solid (padding, piece) (.head _)).first
  have inside := valid.padding (padding, piece) (.head _)
  rcases padding.eq_nil_or_concat with rfl | ⟨before, last, rfl⟩
  · exact ⟨.nil, ⟨_, front⟩, more⟩
  · rw [List.concat_eq_append] at front inside ⊢
    have parted := parted_of_isPadding (inside last (by simp)) significant
    have ends : last ∈ (before ++ [last]).getLast? := List.getLast?_concat ..
    obtain ⟨clear, scans⟩ := Scans.cut front ends found parted
    exact ⟨⟨inside, clear.clear⟩, ⟨_, scans⟩, more⟩

theorem Valid.slack (valid : Row.Valid ⟨entries, rest⟩)
    (clear : Clear (Row.cells ⟨entries, rest⟩)) :
    (∀ entry ∈ entries, Slack entry.1 ∧ ∃ behind, Scans .code entry.2 behind .code) ∧
      Slack rest := by
  induction entries with
  | nil => exact ⟨by simp, valid.rest, clear⟩
  | cons entry entries ih =>
      obtain ⟨padding, scans, more⟩ := valid.slack_head clear
      obtain ⟨others, behind⟩ := ih valid.tail more
      exact ⟨List.forall_mem_cons.mpr ⟨⟨padding, scans⟩, others⟩, behind⟩

end Row

end SwiftWorkspace
