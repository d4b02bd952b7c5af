import Mathlib.Data.List.Chain
import SwiftWorkspace.Proofs.Shapes

/-!
# Boundaries of tokens

The pass begins to read something new wherever it is outside of literals and comments.
At such a place a text can be cut, and what stands on either side is read on its own,
whether the literals in it are terminated or not.  A closed text has such a place behind it.
-/

namespace SwiftWorkspace

namespace Kind

/--
Only a token of code or one in front of which there is code begins with something new.  The line
feed behind a line comment or an unterminated literal belongs to neither.
-/
def Fold.boundaries : Fold (List Bool) where
  atEnd _ := []
  token mode kind length rest :=
    decide (mode = .code ∨ kind = .code) :: List.replicate (length - 1) false ++ rest
  feed rest := true :: rest

/--
Whether the pass that enters a text in the given mode begins to read something new at each
character.
-/
def boundariesFrom (mode : Mode) (text : Text) : List Bool := Fold.boundaries.run mode text

/-- Whether the pass over a text begins to read something new at a position. -/
def isBoundary (text : Text) (position : Nat) : Bool :=
  (boundariesFrom .code text)[position]? = some true

/--
Whether no literal and no comment is still open at the end of a text: a blank behind it is code.
-/
def isClosed (text : Text) : Bool := (classify (text ++ [' '])).getLast? = some .code

@[simp] theorem boundariesFrom_nil (mode : Mode) : boundariesFrom mode [] = [] :=
  Fold.run_nil _ mode

@[simp] theorem boundariesFrom_feed (rest : Text) :
    boundariesFrom .line ('\n' :: rest) = true :: boundariesFrom .code rest := Fold.run_feed _ rest

@[simp] theorem map_kind_cellsFrom (mode : Mode) (text : Text) :
    (cellsFrom mode text).map Cell.kind = classifyFrom mode text := by
  rw [cellsFrom, ← List.map_uncurry_zip_eq_zipWith, List.map_map]
  exact List.map_snd_zip (by simp [length_classifyFrom])

theorem map_kind_cellsOf (kind : Kind) (text : Text) :
    (cellsOf kind text).map Cell.kind = List.replicate text.length kind := by
  simp [cellsOf, Function.comp_def]

/-- The kinds of what the pass has read are those of its cells. -/
theorem Scans.classifyFrom {mode final : Mode} {cells : List Cell} {rest : Text}
    (scans : Scans mode cells rest final) :
    classifyFrom mode (chars cells ++ rest) =
      cells.map Cell.kind ++ Kind.classifyFrom final rest := by
  rw [← map_kind_cellsFrom, scans.cellsFrom, List.map_append, map_kind_cellsFrom]

/-- The pass leaves a closed text in code, unless a literal or a block comment is still open. -/
theorem Scans.code_of_isClosed {final : Mode} {cells : List Cell} {rest : Text}
    (scans : Scans .code cells rest final) (settled : final = .code ∨ final = .lineComment)
    (closed : isClosed (chars cells)) : final = .code := by
  rcases settled with rfl | rfl
  · rfl
  · -- In a line comment the blank behind the text would be a comment.
    have behind : Scans .code cells [' '] .lineComment := scans.exchange (.inr rfl) (by simp)
    rw [isClosed, classify, behind.classifyFrom] at closed
    simp [Kind.classifyFrom, Fold.run, Fold.kinds] at closed

namespace Reads

variable {mode next : Mode} {token front rest : Text} {kind : Kind}

theorem boundariesFrom (reads : Reads mode token rest kind next) :
    Kind.boundariesFrom mode (token ++ rest) =
      decide (mode = .code ∨ kind = .code) :: List.replicate (token.length - 1) false ++
        Kind.boundariesFrom next rest :=
  reads.run Fold.boundaries

/-- Behind the first character of a text the next boundary is behind the token there. -/
theorem boundary_behind (reads : Reads mode token rest kind next) {position : Nat}
    (positive : 0 < position)
    (boundary : (Kind.boundariesFrom mode (token ++ rest))[position]? = some true) :
    token.length ≤ position ∧ (Kind.boundariesFrom next rest)[position - token.length]? =
      some true := by
  have filled := List.length_pos_iff.mpr reads.token_ne_nil
  have size : (decide (mode = .code ∨ kind = .code) ::
      List.replicate (token.length - 1) false).length =
      token.length := by
    simp only [List.length_cons, List.length_replicate]
    omega
  rw [reads.boundariesFrom, List.getElem?_append, size] at boundary
  split at boundary
  · obtain ⟨index, rfl⟩ : ∃ index, position = index + 1 := ⟨position - 1, by omega⟩
    rw [List.getElem?_cons_succ, List.getElem?_replicate] at boundary
    split at boundary <;> cases boundary
  · exact ⟨by omega, boundary⟩

/-- A step does not look further ahead than the text goes. -/
theorem left (reads : Reads mode token (front ++ rest) kind next) :
    Reads mode token front kind next := by
  cases reads with
  | openLine single => exact .openLine fun tail same => single (tail ++ rest) (by simp [same])
  | slash noLine noBlock =>
      exact .slash (fun tail same => noLine (tail ++ rest) (by simp [same]))
        fun tail same => noBlock (tail ++ rest) (by simp [same])
  | lineChar noMark noBreak last =>
      exact .lineChar noMark noBreak fun escape => (List.append_eq_nil_iff.mp (last escape)).1
  | blockChar single last =>
      exact .blockChar (fun mark tail same => single mark (tail ++ rest) (by simp [same]))
        fun escape => (List.append_eq_nil_iff.mp (last escape)).1
  | blockCommentChar noOpening noClosing =>
      exact .blockCommentChar (fun slash tail same =>
        noOpening slash (tail ++ rest) (by simp [same]))
        fun star tail same => noClosing star (tail ++ rest) (by simp [same])
  | _ => constructor <;> assumption

end Reads

theorem length_boundariesFrom (mode : Mode) (text : Text) :
    (boundariesFrom mode text).length = text.length := by
  induction mode, text using Reads.induction with
  | atEnd => simp
  | token reads ih =>
      have filled := List.length_pos_iff.mpr reads.token_ne_nil
      rw [reads.boundariesFrom, List.length_append, List.length_cons, List.length_replicate, ih,
        List.length_append]
      omega
  | feed ih => rw [boundariesFrom_feed, List.length_cons, List.length_cons, ih]

/-- The pass that enters `front ++ rest` in a mode stands between the two in another mode. -/
inductive Passes : Mode → Text → Text → Mode → Prop where
  | here (mode : Mode) (rest : Text) : Passes mode [] rest mode
  | read {mode next final : Mode} {token front rest : Text} {kind : Kind}
      (reads : Reads mode token (front ++ rest) kind next) (passes : Passes next front rest final) :
      Passes mode (token ++ front) rest final
  | feed {front rest : Text} {final : Mode} (passes : Passes .code front rest final) :
      Passes .line ('\n' :: front) rest final

namespace Passes

variable {mode final : Mode} {front rest other : Text}

theorem of_nil (passes : Passes mode [] rest final) : final = mode := by
  generalize empty : ([] : Text) = before at passes
  cases passes with
  | here => rfl
  | read reads _ => exact absurd empty.symm (by simp [reads.token_ne_nil])
  | feed => cases empty

theorem classifyFrom (passes : Passes mode front rest final) :
    classifyFrom mode (front ++ rest) =
      Kind.classifyFrom mode front ++ Kind.classifyFrom final rest := by
  induction passes with
  | here => simp
  | read reads passes ih =>
      rw [List.append_assoc, reads.classifyFrom, ih, reads.left.classifyFrom, List.append_assoc]
  | feed passes ih => simp [ih]

/-- Outside of literals and comments a text that begins with no mark can follow. -/
theorem exchange (passes : Passes mode front rest .code) (bland : Bland other) :
    Passes mode front other .code := by
  obtain ⟨noMark, noSlash, noStar⟩ := bland.head_ne
  generalize ends : Mode.code = final at passes ⊢
  induction passes with
  | here => exact .here _ _
  | @read mode next final token front rest kind reads passes ih =>
      have step : Reads mode token (front ++ other) kind next := by
        cases reads with
        | openLine single =>
            refine .openLine fun tail same => ?_
            match front, same with
            | [], same => exact absurd (ends.trans passes.of_nil) nofun
            | [mark], same => simp_all
            | _ :: _ :: _, same => simp_all
        | slash noLine noBlock =>
            cases front with
            | nil => exact .slash noSlash noStar
            | cons => exact .slash (by simp_all) (by simp_all)
        | lineChar noMark noBreak last =>
            refine .lineChar noMark noBreak fun escape => ?_
            obtain ⟨rfl, -⟩ := List.append_eq_nil_iff.mp (last escape)
            exact absurd (ends.trans passes.of_nil) nofun
        | blockChar single last =>
            refine .blockChar (fun mark tail same => ?_) fun escape => ?_
            · match front, same with
              | [], same => exact absurd (ends.trans passes.of_nil) nofun
              | [_], same => simp_all
              | _ :: _ :: _, same => simp_all
            · obtain ⟨rfl, -⟩ := List.append_eq_nil_iff.mp (last escape)
              exact absurd (ends.trans passes.of_nil) nofun
        | blockCommentChar noOpening noClosing =>
            cases front with
            | nil => exact absurd (ends.trans passes.of_nil) nofun
            | cons => exact .blockCommentChar (by simp_all) (by simp_all)
        | _ => constructor <;> assumption
      exact .read step (ih ends)
  | feed passes ih => exact .feed (ih ends)

end Passes

/--
Something new begins in code, and with a line feed that ends a comment or breaks a literal off.
-/
theorem code_or_feed_of_boundary {mode : Mode} {rest : Text}
    (boundary : (boundariesFrom mode rest)[0]? = some true) :
    mode = .code ∨ (mode = .line ∨ mode = .lineComment) ∧ ∃ tail, rest = '\n' :: tail := by
  cases rest with
  | nil => simp at boundary
  | cons char text =>
      rcases Reads.exists_or_feed mode char text with ⟨token, tail, kind, next, whole, reads⟩ |
        ⟨rfl, rfl⟩
      · rw [whole] at boundary ⊢
        simp only [reads.boundariesFrom, List.cons_append, List.getElem?_cons_zero,
          Option.some.injEq, decide_eq_true_eq] at boundary
        cases reads <;> simp_all
      · exact .inr ⟨.inl rfl, _, rfl⟩

/-- Where the pass begins to read something new, it could as well enter in the mode of code. -/
theorem classifyFrom_of_boundary {mode : Mode} {rest : Text}
    (boundary : (boundariesFrom mode rest)[0]? = some true) :
    classifyFrom mode rest = classifyFrom .code rest := by
  rcases code_or_feed_of_boundary boundary with rfl | ⟨rfl | rfl, tail, rfl⟩ <;>
    simp [classifyFrom, Fold.run, Fold.kinds]

theorem boundariesFrom_of_boundary {mode : Mode} {rest : Text}
    (boundary : (boundariesFrom mode rest)[0]? = some true) :
    boundariesFrom mode rest = boundariesFrom .code rest := by
  rcases code_or_feed_of_boundary boundary with rfl | ⟨rfl | rfl, tail, rfl⟩ <;>
    simp [boundariesFrom, Fold.run, Fold.boundaries]

theorem exists_passes {mode : Mode} {front rest : Text}
    (boundary : (boundariesFrom mode (front ++ rest))[front.length]? = some true) :
    ∃ final, Passes mode front rest final ∧ (boundariesFrom final rest)[0]? = some true := by
  generalize size : front.length = length at boundary
  induction length using Nat.strongRecOn generalizing mode front with
  | ind length ih =>
      cases front with
      | nil =>
          subst size
          exact ⟨mode, .here _ _, boundary⟩
      | cons char front =>
          rcases Reads.exists_or_feed mode char
            (front ++ rest) with ⟨token, tail, kind, next, whole, reads⟩ | ⟨rfl, rfl⟩
          · rw [← List.cons_append] at whole
            rw [whole] at boundary
            obtain ⟨before, behind⟩ :=
              reads.boundary_behind (by rw [← size]; exact Nat.succ_pos _) boundary
            obtain ⟨middle, front_eq, rfl⟩ := exists_middle whole (by omega)
            have sizes := congrArg List.length front_eq
            have filled := List.length_pos_iff.mpr reads.token_ne_nil
            rw [List.length_append] at sizes
            obtain rfl : middle.length + token.length = length := by omega
            rw [Nat.add_sub_cancel] at behind
            obtain ⟨final, passes, ends⟩ := ih middle.length (by omega) rfl behind
            exact ⟨final, front_eq ▸ .read reads passes, ends⟩
          · obtain rfl : front.length + 1 = length := by simpa using size
            rw [List.cons_append, boundariesFrom_feed, List.getElem?_cons_succ] at boundary
            obtain ⟨final, passes, ends⟩ := ih front.length (by omega) rfl boundary
            exact ⟨final, .feed passes, ends⟩

theorem classify_append {front rest : Text} (boundary : isBoundary (front ++ rest) front.length) :
    classify (front ++ rest) = classify front ++ classify rest := by
  obtain ⟨final, passes, ends⟩ := exists_passes (by simpa [isBoundary] using boundary)
  rw [classify, passes.classifyFrom, classifyFrom_of_boundary ends, classify, classify]

/-- What the characters have in common that the pass reads inside of a mode. -/
def Mode.kind : Mode → Kind
  | .code => .code
  | .line => .string
  | .block => .string
  | .lineComment => .comment
  | .blockComment _ => .comment

/--
Of two characters next to each other, the second is a boundary or belongs to the literal or
comment of the first.
-/
def Adjoins (before next : Kind × Bool) : Prop :=
  next.2 = true ∨ (before.1 = next.1 ∧ next.1 ≠ .code)

theorem isChain_adjoins {mode : Mode} {before : Kind × Bool}
    (inside : mode ≠ .code → before.1 = mode.kind) (text : Text) :
    List.IsChain Adjoins (before :: (classifyFrom mode text).zip (boundariesFrom mode text)) := by
  induction mode, text using Reads.induction generalizing before with
  | atEnd => simp
  | token reads ih =>
      rw [reads.classifyFrom, reads.boundariesFrom]
      cases reads with
      | @shallower depth => cases depth <;> simp_all [List.replicate, Adjoins, Mode.kind, outside]
      | _ => simp_all [List.replicate, Adjoins, Mode.kind]
  | feed ih => simp_all [Adjoins, Mode.kind]

/-- Whether the kind changes between some cells and others, or code goes on there. -/
def Seam (first last : List Cell) : Prop :=
  ∀ left ∈ first.getLast?, ∀ right ∈ last.head?, left.kind = right.kind → left.kind = .code

theorem isBoundary_of_seam {text : Text} {first last : List Cell}
    (whole : cellsFrom .code text = first ++ last)
    (filled : last ≠ []) (seam : Seam first last) : isBoundary text first.length := by
  have chain : List.IsChain Adjoins
      ((.code, true) :: (classifyFrom .code text).zip (boundariesFrom .code text)) :=
    isChain_adjoins nofun text
  have kinds : classifyFrom .code text = first.map Cell.kind ++ last.map Cell.kind := by
    rw [← map_kind_cellsFrom, whole, List.map_append]
  have size : (boundariesFrom .code text).length = first.length + last.length := by
    rw [length_boundariesFrom, ← length_classifyFrom .code, kinds]
    simp
  have positive := List.length_pos_iff.mpr filled
  obtain ⟨right, last, rfl⟩ := List.exists_cons_of_ne_nil filled
  have step := List.isChain_iff_getElem.mp chain first.length (by simp [kinds, size])
  simp only [List.getElem_cons_succ, List.getElem_zip, kinds] at step
  rw [isBoundary, List.getElem?_eq_getElem (by omega)]
  rcases first.eq_nil_or_concat with rfl | ⟨front, left, rfl⟩
  · rcases step with here | ⟨code, other⟩
    · simpa using here
    · exact absurd code.symm (by simpa using other)
  · have differs := seam left (by simp) right (by simp)
    rcases step with here | ⟨same, other⟩
    · simpa using here
    · have agree : left.kind = right.kind := by simpa using same
      exact absurd (differs agree) (by simpa [agree] using other)

/-- Behind a closed text the pass is outside, whatever follows that begins with no mark. -/
theorem passes_of_isClosed {front rest : Text} (closed : isClosed front) (bland : Bland rest) :
    Passes .code front rest .code := by
  have size : (cellsFrom .code (front ++ [' '])).length = front.length + 1 := by
    rw [← length_chars, chars_cellsFrom, List.length_append, List.length_singleton]
  obtain ⟨first, blank, whole⟩ :=
    (List.eq_nil_or_concat (cellsFrom .code (front ++ [' ']))).resolve_left
    (List.ne_nil_of_length_eq_add_one size)
  rw [List.concat_eq_append] at whole
  have code : blank.kind = .code := by
    simpa [isClosed, classify, ← map_kind_cellsFrom, whole] using closed
  have boundary := isBoundary_of_seam whole (by simp) (by simp [Seam, code])
  obtain same : first.length = front.length := by simpa [whole] using size
  rw [isBoundary, same, decide_eq_true_eq] at boundary
  obtain ⟨final, passes, ends⟩ := exists_passes boundary
  obtain rfl : final = .code := by simpa using code_or_feed_of_boundary ends
  exact passes.exchange bland

theorem classify_append_of_isClosed {front rest : Text} (closed : isClosed front)
    (bland : Bland rest) : classify (front ++ rest) = classify front ++ classify rest :=
  (passes_of_isClosed closed bland).classifyFrom

end Kind

open Kind (chars cellsFrom classify Seam)

namespace Source

theorem chars_cells_ofText (text : Text) : chars (ofText text).cells = text :=
  Kind.chars_cellsFrom .code text

theorem cells_append {front rest : Text}
    (parts : classify (front ++ rest) = classify front ++ classify rest) :
    (ofText (front ++ rest)).cells = (ofText front).cells ++ (ofText rest).cells := by
  simp only [ofText, parts]
  exact List.zipWith_append (Kind.length_classify front).symm

theorem ofText_cut {text : Text} {first last : List Cell}
    (whole : (ofText text).cells = first ++ last)
    (seam : Seam first last) : ofText (chars first) = ⟨first⟩ ∧ ofText (chars last) = ⟨last⟩ := by
  have spelled : chars first ++ chars last = text := by
    rw [← Kind.chars_append, ← whole, chars_cells_ofText]
  have alone : ofText text = ⟨first ++ last⟩ := congrArg Source.mk whole
  by_cases empty : last = []
  · subst empty
    rw [Kind.chars_nil, List.append_nil] at spelled
    rw [List.append_nil] at alone
    exact ⟨spelled ▸ alone, rfl⟩
  · have boundary := Kind.isBoundary_of_seam whole empty seam
    rw [← spelled, ← Kind.length_chars] at boundary
    have parts := cells_append (Kind.classify_append boundary)
    rw [spelled, whole] at parts
    have size : first.length = (ofText (chars first)).cells.length := by
      rw [← Kind.length_chars (ofText _).cells, chars_cells_ofText, Kind.length_chars]
    obtain ⟨front, back⟩ := List.append_inj parts size
    exact ⟨congrArg Source.mk front.symm, congrArg Source.mk back.symm⟩

end Source

end SwiftWorkspace
