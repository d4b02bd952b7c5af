import SwiftWorkspace.Proofs.Structure

/-!
# A source without its comments

A blank in place of each character of a comment leaves all other characters as they are
and of the kind they were.  The blanks are code, so the source has the same structure.
-/

namespace SwiftWorkspace

def blankComment (char : Char) (kind : Kind) : Char := if kind = .comment then ' ' else char

/-- The text with a blank in place of each character of a comment. -/
def blankComments (text : Text) : Text := List.zipWith blankComment text (Kind.classify text)

namespace Kind

def uncommented : Kind → Kind
  | .comment => .code
  | kind => kind

namespace Mode

def uncommented : Mode → Mode
  | .lineComment => .code
  | .blockComment _ => .code
  | mode => mode

end Mode

/-- Characters that were kept or made blank. -/
abbrev Faded : Text → Text → Prop := List.Forall₂ fun char faded => faded = char ∨ faded = ' '

theorem faded_zipWith (text : Text) (kinds : List Kind) (same : kinds.length = text.length) :
    Faded text (List.zipWith blankComment text kinds) := by
  induction text generalizing kinds with
  | nil => exact .nil
  | cons char text ih =>
      obtain ⟨kind, kinds, rfl⟩ :=
        List.exists_cons_of_length_pos (by rw [same]; exact Nat.succ_pos _)
      refine .cons ?_ (ih kinds (Nat.succ.inj same))
      rw [blankComment]
      split
      · exact .inr rfl
      · exact .inl rfl

/-- A word that is there once some characters were made blank was there before. -/
theorem Faded.startsWith {text faded rest : Text} (word : Text) (solid : ' ' ∉ word)
    (dims : Faded text faded) (split : faded = word ++ rest) : ∃ tail, text = word ++ tail := by
  induction word generalizing text faded with
  | nil => exact ⟨text, rfl⟩
  | cons first word ih =>
      rw [List.mem_cons, not_or] at solid
      subst split
      cases dims with
      | @cons char _ text _ same dims =>
          obtain ⟨tail, rfl⟩ := ih solid.2 dims rfl
          obtain rfl : first = char := same.resolve_right fun blank => solid.1 blank.symm
          exact ⟨tail, rfl⟩

section Reading

variable {mode next : Mode} {token rest : Text} {kind : Kind}

/--
No quotation mark and no star appears by blanking, so the pass reads what is no comment as
before.
-/
theorem Reads.faded {faded : Text} (reads : Reads mode token rest kind next)
    (marked : kind ≠ .comment)
    (dims : Faded rest faded) : Reads mode.uncommented token faded kind next.uncommented := by
  have noWord (word : Text) (solid : ' ' ∉ word) (absent : ∀ tail, rest ≠ word ++ tail)
      (tail : Text) :
      faded ≠ word ++ tail := by
    intro there
    obtain ⟨tail, here⟩ := dims.startsWith word solid there
    exact absent tail here
  have nothing (empty : rest = []) : faded = [] := by
    subst empty
    exact List.forall₂_nil_left_iff.mp dims
  cases reads with
  | openBlock => exact .openBlock
  | openLine single => exact .openLine (noWord ['"', '"'] (by decide) single)
  | slash noLine noBlock =>
      exact .slash (noWord ['/'] (by decide) noLine) (noWord ['*'] (by decide) noBlock)
  | plain noMark noSlash => exact .plain noMark noSlash
  | lineEscape => exact .lineEscape
  | closeLine => exact .closeLine
  | lineChar noMark noBreak last =>
      exact .lineChar noMark noBreak fun escape => nothing (last escape)
  | blockEscape => exact .blockEscape
  | closeBlock => exact .closeBlock
  | blockChar single last =>
      exact .blockChar (fun mark => noWord ['"', '"'] (by decide) (single mark)) fun escape =>
        nothing (last escape)
  | closeLineComment => exact .plain (by decide) (by decide)
  | openLineComment | openBlockComment | lineCommentChar | deeper | shallower | blockCommentChar =>
      exact absurd rfl marked

theorem Reads.uncommented_of_comment (reads : Reads mode token rest .comment next) :
    mode.uncommented = .code ∧ next.uncommented = .code := by
  cases reads with
  | @shallower depth => cases depth <;> exact ⟨rfl, rfl⟩
  | _ => exact ⟨rfl, rfl⟩

theorem zipWith_blankComment_replicate (text : Text) (kind : Kind) :
    List.zipWith blankComment text (List.replicate text.length kind) =
      text.map (blankComment · kind) := by
  rw [← List.map_const', List.zipWith_map_right, List.zipWith_self]

theorem classifyFrom_blanks (count : Nat) (text : Text) :
    classifyFrom .code (List.replicate count ' ' ++ text) =
      List.replicate count .code ++ classifyFrom .code text := by
  induction count with
  | zero => rfl
  | succ count ih =>
      have blank : Reads .code [' '] (List.replicate count ' ' ++ text) .code .code :=
        .plain (by decide) (by decide)
      rw [List.replicate_succ, List.cons_append, ← List.singleton_append, blank.classifyFrom, ih]
      rfl

end Reading

theorem classifyFrom_blanked (mode : Mode) (text : Text) :
    classifyFrom mode.uncommented (List.zipWith blankComment text (classifyFrom mode text)) =
      (classifyFrom mode text).map uncommented := by
  induction mode, text using Reads.induction with
  | atEnd => simp
  | feed ih =>
      rw [classifyFrom_feed]
      exact (classifyFrom_feed _).trans (congrArg (code :: ·) ih)
  | @token mode next token rest kind reads ih =>
      rw [reads.classifyFrom, List.zipWith_append (by rw [List.length_replicate]),
        List.map_append, ← ih, List.map_replicate]
      rw [zipWith_blankComment_replicate]
      by_cases comment : kind = .comment
      · subst comment
        obtain ⟨before, behind⟩ := reads.uncommented_of_comment
        have blanks : token.map (blankComment · .comment) = List.replicate token.length ' ' :=
          List.map_const ..
        rw [blanks, before, behind, classifyFrom_blanks]
        rfl
      · have kept : token.map (blankComment · kind) = token :=
          (List.map_congr_left fun char _ => if_neg comment).trans (List.map_id token)
        have same : kind.uncommented = kind := by
          cases kind <;> first | rfl | exact absurd rfl comment
        rw [kept, same]
        exact (reads.faded comment
          (faded_zipWith rest _ (length_classifyFrom next rest))).classifyFrom

end Kind

def Cell.uncommented (cell : Cell) : Cell :=
  ⟨blankComment cell.char cell.kind, cell.kind.uncommented⟩

def Source.uncommented (source : Source) : Source := ⟨source.cells.map Cell.uncommented⟩

theorem ofText_blankComments (text : Text) :
    Source.ofText (blankComments text) = (Source.ofText text).uncommented := by
  have kinds : Kind.classify (blankComments text) = (Kind.classify text).map Kind.uncommented :=
    Kind.classifyFrom_blanked .code text
  rw [Source.ofText, kinds, blankComments, Source.uncommented, Source.ofText]
  refine congrArg Source.mk ?_
  clear kinds
  generalize Kind.classify text = kinds
  induction text generalizing kinds with
  | nil => rfl
  | cons char text ih =>
      cases kinds with
      | nil => rfl
      | cons kind kinds => exact congrArg (_ :: ·) (ih kinds)

namespace Cell

variable {cell : Cell}

theorem uncommented_of_comment (comment : cell.kind = .comment) :
    cell.uncommented = ⟨' ', .code⟩ := by
  simp [uncommented, blankComment, comment, Kind.uncommented]

theorem uncommented_of_ne (other : cell.kind ≠ .comment) : cell.uncommented = cell := by
  obtain ⟨char, kind⟩ := cell
  cases kind with
  | comment => exact absurd rfl other
  | code => rfl
  | string => rfl

/-- Without its comments a source is not told apart. -/
theorem twin_uncommented (cell : Cell) : Twin cell cell.uncommented := by
  obtain ⟨char, kind⟩ := cell
  cases kind with
  | comment => exact .quiet rfl rfl
  | string => exact .of_kind fun _ => rfl
  | code => exact .of_kind fun _ => rfl

theorem isTrivia_uncommented (cell : Cell) : cell.uncommented.isTrivia = cell.isTrivia := by
  by_cases comment : cell.kind = .comment
  · have blank : isBlank ' ' := by decide
    simp [uncommented_of_comment comment, isTrivia, comment, blank]
  · rw [uncommented_of_ne comment]

theorem kind_uncommented_string (cell : Cell) :
    cell.uncommented.kind = .string ↔ cell.kind = .string := by
  obtain ⟨char, kind⟩ := cell
  cases kind <;> simp [uncommented, Kind.uncommented]

end Cell

/-- A text has one structure with its comments and without them. -/
theorem alike_uncommented (text : Text) :
    Alike (Source.ofText text) (Source.ofText text).uncommented := by
  refine ⟨?_, isChain_joined_ofText text, ?_⟩
  · exact List.forall₂_map_right_iff.mpr (List.forall₂_same.mpr fun cell _ => cell.twin_uncommented)
  · rw [← ofText_blankComments]
    exact isChain_joined_ofText (blankComments text)

end SwiftWorkspace
