import SwiftWorkspace.Source.Literal

/-!
# Reading a source in pieces

The pass that tells code, literals and comments apart reads a few characters at
a time.  Where it is outside of literals and comments, the text can be cut, and
what follows can be exchanged.  A text whose literals are all terminated is read
in steps that never leave a literal at the end of a line.
-/

namespace SwiftWorkspace

namespace Kind

@[simp] theorem Fold.run_nil {α : Type} (fold : Fold α) (mode : Mode) :
    fold.run mode [] = fold.atEnd mode := by
  rw [Fold.run]

@[simp] theorem Fold.run_feed {α : Type} (fold : Fold α) (rest : Text) :
    fold.run .line ('\n' :: rest) = fold.feed (fold.run .code rest) := by
  rw [Fold.run]

@[simp] theorem classifyFrom_nil (mode : Mode) : classifyFrom mode [] = [] := Fold.run_nil _ mode

@[simp] theorem classifyFrom_feed (rest : Text) :
    classifyFrom .line ('\n' :: rest) = .code :: classifyFrom .code rest := Fold.run_feed _ rest

/-- A text is terminated where no literal is open at its end or broken off. -/
def Fold.closes : Fold Bool where
  atEnd mode := mode ≠ .line && mode ≠ .block
  token _ _ _ rest := rest
  feed _ := false

def closesFrom (mode : Mode) (text : Text) : Bool := Fold.closes.run mode text

/-- Whether every string literal of a text is terminated. -/
def terminates (text : Text) : Bool := closesFrom .code text

/--
One step of the pass: in a mode and in front of a rest, it reads a token, gives
all its characters one kind, and goes on in the next mode.
-/
inductive Reads : Mode → Text → Text → Kind → Mode → Prop where
  | openBlock {rest : Text} : Reads .code ['"', '"', '"'] rest .string .block
  | openLine {rest : Text} (single : ∀ tail, rest ≠ '"' :: '"' :: tail) :
      Reads .code ['"'] rest .string .line
  | openLineComment {rest : Text} : Reads .code ['/', '/'] rest .comment .lineComment
  | openBlockComment {rest : Text} :
      Reads .code ['/', '*'] rest .comment (.blockComment 0)
  | slash {rest : Text} (noLine : ∀ tail, rest ≠ '/' :: tail)
      (noBlock : ∀ tail, rest ≠ '*' :: tail) : Reads .code ['/'] rest .code .code
  | plain {char : Char} {rest : Text} (noMark : char ≠ '"') (noSlash : char ≠ '/') :
      Reads .code [char] rest .code .code
  | lineEscape {char : Char} {rest : Text} : Reads .line ['\\', char] rest .string .line
  | closeLine {rest : Text} : Reads .line ['"'] rest .string .code
  | lineChar {char : Char} {rest : Text} (noMark : char ≠ '"') (noBreak : char ≠ '\n')
      (last : char = '\\' → rest = []) : Reads .line [char] rest .string .line
  | blockEscape {char : Char} {rest : Text} : Reads .block ['\\', char] rest .string .block
  | closeBlock {rest : Text} : Reads .block ['"', '"', '"'] rest .string .code
  | blockChar {char : Char} {rest : Text}
      (single : char = '"' → ∀ tail, rest ≠ '"' :: '"' :: tail)
      (last : char = '\\' → rest = []) : Reads .block [char] rest .string .block
  | closeLineComment {rest : Text} : Reads .lineComment ['\n'] rest .code .code
  | lineCommentChar {char : Char} {rest : Text} (noBreak : char ≠ '\n') :
      Reads .lineComment [char] rest .comment .lineComment
  | deeper {depth : Nat} {rest : Text} :
      Reads (.blockComment depth) ['/', '*'] rest .comment (.blockComment (depth + 1))
  | shallower {depth : Nat} {rest : Text} :
      Reads (.blockComment depth) ['*', '/'] rest .comment (outside depth)
  | blockCommentChar {depth : Nat} {char : Char} {rest : Text}
      (noOpening : char = '/' → ∀ tail, rest ≠ '*' :: tail)
      (noClosing : char = '*' → ∀ tail, rest ≠ '/' :: tail) :
      Reads (.blockComment depth) [char] rest .comment (.blockComment depth)

namespace Reads

variable {mode next : Mode} {token rest : Text} {kind : Kind}

/-- Whatever is made of a text, a token in front of it counts as its step says. -/
theorem run {α : Type} (fold : Fold α) (reads : Reads mode token rest kind next) :
    fold.run mode (token ++ rest) = fold.token mode kind token.length (fold.run next rest) := by
  cases reads with
  | lineChar | blockChar | blockCommentChar =>
      rw [List.singleton_append, Fold.run] <;> simp_all
  | _ => simp_all [Fold.run]

/-- The pass gives a token the kind that its step says, and goes on behind it. -/
theorem classifyFrom (reads : Reads mode token rest kind next) :
    classifyFrom mode (token ++ rest) =
      List.replicate token.length kind ++ Kind.classifyFrom next rest :=
  reads.run Fold.kinds

/-- A step breaks no literal off. -/
theorem closesFrom (reads : Reads mode token rest kind next) :
    closesFrom mode (token ++ rest) = Kind.closesFrom next rest :=
  reads.run Fold.closes

/--
In front of every character the pass takes some step, unless a line feed ends a literal of one
line.
-/
theorem exists_or_feed (mode : Mode) (char : Char) (text : Text) :
    (∃ token rest kind next, char :: text = token ++ rest ∧ Reads mode token rest kind next) ∨
      mode = .line ∧ char = '\n' := by
  generalize same : char :: text = whole
  fun_cases Fold.run Fold.closes mode whole
  case case1 => cases same
  case case2 => exact .inl ⟨_, _, _, _, rfl, .openBlock⟩
  case case3 => exact .inl ⟨['"'], _, _, _, rfl, .openLine (by simp_all)⟩
  case case4 => exact .inl ⟨_, _, _, _, rfl, .openLineComment⟩
  case case5 => exact .inl ⟨_, _, _, _, rfl, .openBlockComment⟩
  case case6 head tail noBlock noLine noLineComment noBlockComment =>
    by_cases slash : head = '/'
    · subst slash
      exact .inl ⟨['/'], _, _, _, rfl, .slash (by simp_all) (by simp_all)⟩
    · exact .inl ⟨[head], _, _, _, rfl, .plain (by simp_all) slash⟩
  case case7 => exact .inl ⟨_, _, _, _, rfl, .lineEscape⟩
  case case8 => exact .inl ⟨_, _, _, _, rfl, .closeLine⟩
  case case9 => exact .inr ⟨rfl, (List.cons.inj same).1⟩
  case case10 head tail noEscape noMark noBreak =>
    refine .inl ⟨[head], _, _, _, rfl, .lineChar (by simp_all) (by simp_all) ?_⟩
    cases tail <;> simp_all
  case case11 => exact .inl ⟨_, _, _, _, rfl, .blockEscape⟩
  case case12 => exact .inl ⟨_, _, _, _, rfl, .closeBlock⟩
  case case13 head tail noEscape noMarks =>
    refine .inl ⟨[head], _, _, _, rfl, .blockChar (by simp_all) ?_⟩
    cases tail <;> simp_all
  case case14 => exact .inl ⟨_, _, _, _, rfl, .closeLineComment⟩
  case case15 head tail noBreak => exact .inl ⟨[head], _, _, _, rfl, .lineCommentChar (by simp_all)⟩
  case case16 => exact .inl ⟨_, _, _, _, rfl, .deeper⟩
  case case17 => exact .inl ⟨_, _, _, _, rfl, .shallower⟩
  case case18 depth head tail noOpening noClosing =>
    exact .inl ⟨[head], _, _, _, rfl, .blockCommentChar (by simp_all) (by simp_all)⟩

theorem token_ne_nil (reads : Reads mode token rest kind next) : token ≠ [] := by
  cases reads <;> simp

/--
What holds at the end of a text, and goes over to a token from what is behind it, and to a line
feed that breaks a literal off, holds of all texts.
-/
@[elab_as_elim]
theorem induction {motive : Mode → Text → Prop} (atEnd : ∀ mode, motive mode [])
    (token : ∀ {mode next token rest kind}, Reads mode token rest kind next → motive next rest →
      motive mode (token ++ rest))
    (feed : ∀ {rest}, motive .code rest → motive .line ('\n' :: rest)) (mode : Mode) (text : Text) :
    motive mode text := by
  generalize size : text.length = length
  induction length using Nat.strongRecOn generalizing mode text with
  | ind length ih =>
      cases text with
      | nil => exact atEnd mode
      | cons char text =>
          rcases exists_or_feed mode char text with ⟨front, rest, kind, next, whole, reads⟩ |
            ⟨rfl, rfl⟩
          · rw [whole] at size ⊢
            have filled := List.length_pos_iff.mpr reads.token_ne_nil
            rw [List.length_append] at size
            exact token reads (ih rest.length (by omega) next rest rfl)
          · exact feed (ih text.length (by simp [← size]) .code text rfl)

theorem single_of_code (reads : Reads mode token rest .code next) : ∃ char, token = [char] := by
  cases reads <;> simp

end Reads

/-- The first character does not take part in marks that a character before it begins. -/
def Bland (text : Text) : Prop :=
  ∀ char ∈ text.head?, char ≠ '"' ∧ char ≠ '/' ∧ char ≠ '*'

@[simp] theorem bland_nil : Bland [] := by simp [Bland]

@[simp] theorem bland_cons {char : Char} {text : Text} :
    Bland (char :: text) ↔ char ≠ '"' ∧ char ≠ '/' ∧ char ≠ '*' := by
  simp [Bland]

theorem Bland.head_ne {text : Text} (bland : Bland text) :
    (∀ tail, text ≠ '"' :: tail) ∧ (∀ tail, text ≠ '/' :: tail) ∧
      ∀ tail, text ≠ '*' :: tail := by
  refine ⟨?_, ?_, ?_⟩ <;> rintro tail rfl <;> simp at bland

def chars (cells : List Cell) : Text := cells.map Cell.char

@[simp] theorem chars_nil : chars [] = [] := rfl

@[simp] theorem chars_cons (cell : Cell) (cells : List Cell) :
    chars (cell :: cells) = cell.char :: chars cells := rfl

@[simp] theorem chars_append (first last : List Cell) :
    chars (first ++ last) = chars first ++ chars last := List.map_append

@[simp] theorem length_chars (cells : List Cell) : (chars cells).length = cells.length :=
  List.length_map ..

def cellsOf (kind : Kind) (text : Text) : List Cell := text.map fun char => ⟨char, kind⟩

@[simp] theorem chars_cellsOf (kind : Kind) (text : Text) : chars (cellsOf kind text) = text := by
  simp [chars, cellsOf, Function.comp_def]

@[simp] theorem cellsOf_append (kind : Kind) (first last : Text) :
    cellsOf kind (first ++ last) = cellsOf kind first ++ cellsOf kind last := List.map_append

@[simp] theorem length_cellsOf (kind : Kind) (text : Text) :
    (cellsOf kind text).length = text.length := List.length_map _

theorem cellsOf_cons (kind : Kind) (char : Char) (text : Text) :
    cellsOf kind (char :: text) = ⟨char, kind⟩ :: cellsOf kind text := rfl

theorem mem_cellsOf {kind : Kind} {text : Text} {cell : Cell} :
    cell ∈ cellsOf kind text ↔ cell.kind = kind ∧ cell.char ∈ text := by
  obtain ⟨char, other⟩ := cell
  simp only [cellsOf, List.mem_map, Cell.mk.injEq]
  constructor
  · rintro ⟨_, member, rfl, rfl⟩
    exact ⟨rfl, member⟩
  · rintro ⟨rfl, member⟩
    exact ⟨char, member, rfl, rfl⟩

def cellsFrom (mode : Mode) (text : Text) : List Cell :=
  List.zipWith Cell.mk text (classifyFrom mode text)

@[simp] theorem chars_cellsFrom (mode : Mode) (text : Text) :
    chars (cellsFrom mode text) = text := by
  rw [chars, cellsFrom, ← List.map_uncurry_zip_eq_zipWith, List.map_map]
  exact List.map_fst_zip (by simp [length_classifyFrom])

theorem Reads.cellsFrom {mode next : Mode} {token rest : Text} {kind : Kind}
    (reads : Reads mode token rest kind next) :
    cellsFrom mode (token ++ rest) = cellsOf kind token ++ Kind.cellsFrom next rest := by
  rw [Kind.cellsFrom, reads.classifyFrom, List.zipWith_append (by simp)]
  congr 1
  clear reads
  induction token with
  | nil => rfl
  | cons char token ih => simpa [cellsOf, List.replicate] using ih

/--
The pass that enters some cells and a rest in a mode gives the cells their
kinds, with all literals terminated, and stands in front of the rest in another mode.
-/
inductive Scans : Mode → List Cell → Text → Mode → Prop where
  | here (mode : Mode) (rest : Text) : Scans mode [] rest mode
  | read {mode next final : Mode} {token rest : Text} {kind : Kind} {before : List Cell}
      (reads : Reads mode token (chars before ++ rest) kind next)
      (scans : Scans next before rest final) :
      Scans mode (cellsOf kind token ++ before) rest final

namespace Scans

variable {mode next final : Mode} {cells first last : List Cell} {rest : Text}

theorem token {token : Text} {kind : Kind} (reads : Reads mode token rest kind next) :
    Scans mode (cellsOf kind token) rest next := by
  simpa using Scans.read (by simpa using reads) (.here next rest)

theorem cellsFrom (scans : Scans mode cells rest final) :
    cellsFrom mode (chars cells ++ rest) = cells ++ Kind.cellsFrom final rest := by
  induction scans with
  | here => rfl
  | read reads scans ih =>
      rw [chars_append, chars_cellsOf, List.append_assoc, reads.cellsFrom, ih, List.append_assoc]

theorem closesFrom (scans : Scans mode cells rest final) :
    closesFrom mode (chars cells ++ rest) = Kind.closesFrom final rest := by
  induction scans with
  | here => rfl
  | read reads scans ih =>
      rw [chars_append, chars_cellsOf, List.append_assoc, reads.closesFrom, ih]

/-- The pass reads a text to its end when all its literals are terminated. -/
theorem of_closes {text : Text} (closes : Kind.closesFrom mode text) :
    ∃ final, Scans mode (Kind.cellsFrom mode text) [] final ∧ Kind.closesFrom final [] := by
  induction mode, text using Reads.induction with
  | atEnd mode => exact ⟨mode, .here mode [], closes⟩
  | token reads ih =>
      rw [reads.closesFrom] at closes
      obtain ⟨final, scans, ends⟩ := ih closes
      refine ⟨final, ?_, ends⟩
      rw [reads.cellsFrom]
      exact .read (by simpa using reads) scans
  | feed => simp [Kind.closesFrom, Fold.closes] at closes

theorem append (front : Scans mode first (chars last ++ rest) next)
    (back : Scans next last rest final) : Scans mode (first ++ last) rest final := by
  generalize middle : chars last ++ rest = tail at front
  induction front with
  | here mode tail => exact back
  | @read mode next _ token tail kind before reads scans ih =>
      subst middle
      rw [List.append_assoc]
      exact .read (by simpa using reads) (ih back rfl)

/-- Without cells to read the pass stands where it entered. -/
theorem of_nil (scans : Scans mode [] rest final) : final = mode := by
  generalize empty : ([] : List Cell) = before at scans
  cases scans with
  | here => rfl
  | read reads _ => exact absurd empty.symm (by simp [cellsOf, reads.token_ne_nil])

/-- A place where the kind changes, or code ends, is one where a step ends. -/
theorem split (scans : Scans mode (first ++ last) rest final)
    (seam : ∀ left ∈ first.getLast?, ∀ right ∈ last.head?,
      left.kind = right.kind → left.kind = .code) :
    ∃ middle, Scans mode first (chars last ++ rest) middle ∧ Scans middle last rest final := by
  generalize whole : first ++ last = cells at scans
  induction scans generalizing first with
  | here mode rest =>
      obtain ⟨rfl, rfl⟩ := List.append_eq_nil_iff.mp whole
      exact ⟨mode, .here _ _, .here _ _⟩
  | @read mode next final token rest kind before reads scans ih =>
      rcases List.append_eq_append_iff.mp whole with ⟨inner, token_eq, last_eq⟩ | ⟨inner, rfl, rfl⟩
      · cases inner with
        | nil =>
            obtain rfl : last = before := last_eq
            obtain rfl : cellsOf kind token = first := by simpa using token_eq
            exact ⟨next, .token reads, scans⟩
        | cons right inner =>
            rcases first.eq_nil_or_concat with rfl | ⟨front, left, rfl⟩
            · refine ⟨mode, .here _ _, ?_⟩
              rw [last_eq, ← List.nil_append (right :: inner), ← token_eq]
              exact .read reads scans
            · have member : ∀ cell ∈ cellsOf kind token, cell.kind = kind := by
                simp [cellsOf]
              have leftKind : left.kind = kind := member _ (by simp [token_eq])
              have rightKind : right.kind = kind := member _ (by simp [token_eq])
              have code : kind = .code := by
                rw [← leftKind]
                exact seam left (by simp) right (by simp [last_eq]) (leftKind.trans rightKind.symm)
              subst code
              obtain ⟨char, rfl⟩ := reads.single_of_code
              have size := congrArg List.length token_eq
              simp only [cellsOf, List.length_map, List.length_append, List.length_cons,
                List.length_concat, List.length_nil] at size
              omega
      · have inside : ∀ left ∈ inner.getLast?, ∀ right ∈ last.head?,
            left.kind = right.kind → left.kind = .code := fun left found =>
          seam left (by simp [Option.mem_def.mp found])
        obtain ⟨middle, front, back⟩ := ih inside rfl
        refine ⟨middle, ?_, back⟩
        exact .read (by simpa using reads) front

/--
What follows a place outside of literals and block comments can be exchanged for
a text whose first character does not take part in marks that begin before it.
-/
theorem exchange {other : Text} (scans : Scans mode cells rest final)
    (settled : final = .code ∨ final = .lineComment) (bland : Bland other) :
    Scans mode cells other final := by
  obtain ⟨noMark, noSlash, noStar⟩ := bland.head_ne
  induction scans with
  | here => exact .here _ _
  | @read mode next final token rest kind before reads scans ih =>
      have step : Reads mode token (chars before ++ other) kind next := by
        cases reads with
        | openLine single =>
            refine .openLine fun tail same => ?_
            match before, same with
            | [], same => simp [scans.of_nil] at settled
            | [mark], same => simp_all
            | _ :: _ :: _, same => simp_all
        | slash noLine noBlock =>
            cases before with
            | nil => exact .slash noSlash noStar
            | cons => exact .slash (by simp_all) (by simp_all)
        | lineChar noMark noBreak last =>
            refine .lineChar noMark noBreak fun escape => ?_
            obtain ⟨empty, -⟩ := List.append_eq_nil_iff.mp (last escape)
            obtain rfl : before = [] := by simpa [chars] using empty
            simp [scans.of_nil] at settled
        | blockChar single last =>
            refine .blockChar (fun mark tail same => ?_) fun escape => ?_
            · match before, same with
              | [], same => simp [scans.of_nil] at settled
              | [cell], same => simp_all
              | _ :: _ :: _, same => simp_all
            · obtain ⟨empty, -⟩ := List.append_eq_nil_iff.mp (last escape)
              obtain rfl : before = [] := by simpa [chars] using empty
              simp [scans.of_nil] at settled
        | blockCommentChar noOpening noClosing =>
            cases before with
            | nil => simp [scans.of_nil] at settled
            | cons => exact .blockCommentChar (by simp_all) (by simp_all)
        | _ => constructor <;> assumption
      exact .read step (ih settled)

/-- A single cell of code is read on its own, whatever follows. -/
theorem single (cell : Cell) (code : cell.kind = .code) (bland : Bland [cell.char])
    (rest : Text) : Scans .code [cell] rest .code := by
  obtain ⟨char, kind⟩ := cell
  obtain rfl : kind = .code := code
  obtain ⟨noMark, noSlash, -⟩ := bland_cons.mp bland
  exact .token (.plain noMark noSlash)

/-- Code without quotation marks, slashes and stars is read on its own, whatever follows. -/
theorem plain {text : Text} (bland : ∀ char ∈ text, Bland [char]) (rest : Text) :
    Scans .code (cellsOf .code text) rest .code := by
  induction text with
  | nil => exact .here _ _
  | cons char text ih =>
      obtain ⟨noMark, noSlash, -⟩ := bland_cons.mp (bland char (by simp))
      have here : Scans .code (cellsOf .code [char]) (chars (cellsOf .code text) ++ rest) .code :=
        .token (.plain noMark noSlash)
      exact here.append (ih fun other member => bland other (by simp [member]))

theorem of_last_code {cell : Cell} (scans : Scans mode cells rest final)
    (found : cell ∈ cells.getLast?) (code : cell.kind = .code) : final = .code := by
  induction scans with
  | here => simp at found
  | @read mode next final token rest kind before reads scans ih =>
      rcases before.eq_nil_or_concat with rfl | ⟨front, last, rfl⟩
      · obtain ⟨char, -, rfl⟩ : ∃ char, char ∈ token.getLast? ∧ ⟨char, kind⟩ = cell := by
          simpa [cellsOf] using found
        obtain rfl : kind = .code := code
        rw [scans.of_nil]
        cases reads <;> rfl
      · exact ih (by simpa using found)

theorem of_last_string {cell : Cell} (scans : Scans mode cells rest final)
    (found : cell ∈ cells.getLast?) (string : cell.kind = .string) :
    final = .code ∨ final = .line ∨ final = .block := by
  induction scans with
  | here => simp at found
  | @read mode next final token rest kind before reads scans ih =>
      rcases before.eq_nil_or_concat with rfl | ⟨front, last, rfl⟩
      · obtain ⟨char, -, rfl⟩ : ∃ char, char ∈ token.getLast? ∧ ⟨char, kind⟩ = cell := by
          simpa [cellsOf] using found
        obtain rfl : kind = .string := string
        rw [scans.of_nil]
        cases reads <;> simp
      · exact ih (by simpa using found)

theorem of_last_comment {cell : Cell} (scans : Scans mode cells rest final)
    (found : cell ∈ cells.getLast?) (comment : cell.kind = .comment) :
    final ≠ .line ∧ final ≠ .block := by
  induction scans with
  | here => simp at found
  | @read mode next final token rest kind before reads scans ih =>
      rcases before.eq_nil_or_concat with rfl | ⟨front, last, rfl⟩
      · obtain ⟨char, -, rfl⟩ : ∃ char, char ∈ token.getLast? ∧ ⟨char, kind⟩ = cell := by
          simpa [cellsOf] using found
        obtain rfl : kind = .comment := comment
        rw [scans.of_nil]
        cases reads <;> simp
        rename_i depth
        cases depth <;> simp [outside]
      · exact ih (by simpa using found)

theorem slash_of_last_comment {cell : Cell} (scans : Scans mode cells rest .code)
    (found : cell ∈ cells.getLast?) (comment : cell.kind = .comment) : cell.char = '/' := by
  generalize ends : Mode.code = final at scans
  induction scans with
  | here => simp at found
  | @read mode next final token rest kind before reads scans ih =>
      rcases before.eq_nil_or_concat with rfl | ⟨front, last, rfl⟩
      · obtain ⟨char, last, rfl⟩ : ∃ char, char ∈ token.getLast? ∧ ⟨char, kind⟩ = cell := by
          simpa [cellsOf] using found
        obtain rfl : kind = .comment := comment
        subst ends
        have code : next = .code := scans.of_nil.symm
        cases reads with
        | shallower => simpa using last.symm
        | _ => simp_all
      · exact ih (by simpa using found) ends

/-- In a literal the pass reads a cell of it next. -/
theorem of_head_literal {cell : Cell} (scans : Scans mode cells rest final)
    (found : cell ∈ cells.head?) (literal : mode = .line ∨ mode = .block) :
    cell.kind = .string := by
  cases scans with
  | here => simp at found
  | read reads scans =>
      cases reads <;> simp [cellsOf] at found literal <;> subst found <;> rfl

/-- In a comment the pass reads a cell of it next, or the line feed that ends it. -/
theorem of_head_comment {cell : Cell} (scans : Scans mode cells rest final)
    (found : cell ∈ cells.head?) (comment : mode ≠ .code ∧ mode ≠ .line ∧ mode ≠ .block) :
    cell.kind = .comment ∨ cell = ⟨'\n', .code⟩ := by
  cases scans with
  | here => simp at found
  | read reads scans =>
      cases reads <;> simp [cellsOf] at found comment <;> subst found <;> simp

/-- What is code is read outside of literals and comments, or it ends a line comment. -/
theorem of_head_code {cell : Cell} (scans : Scans mode cells rest final)
    (found : cell ∈ cells.head?) (code : cell.kind = .code) :
    mode = .code ∨ mode = .lineComment ∧ cell = ⟨'\n', .code⟩ := by
  cases scans with
  | here => simp at found
  | read reads scans =>
      cases reads <;> simp [cellsOf] at found code ⊢ <;> subst found <;> simp_all

theorem reads_single {cell : Cell} (scans : Scans mode [cell] rest final) :
    Reads mode [cell.char] rest cell.kind final := by
  generalize single : [cell] = cells at scans
  cases scans with
  | here => cases single
  | @read _ next _ token rest kind before reads scans =>
      cases token with
      | nil => exact absurd rfl reads.token_ne_nil
      | cons head token =>
          obtain ⟨rfl, rfl, rfl⟩ : cell = ⟨head, kind⟩ ∧ token = [] ∧ before = [] := by
            simpa [cellsOf] using single
          obtain rfl := scans.of_nil
          exact reads

end Scans

def Parted (left right : Cell) : Prop :=
  left.kind = .code ∨ (left.kind = .string ∧ right.kind ≠ .string) ∨
    (left.kind = .comment ∧ right.kind ≠ .comment ∧ right ≠ ⟨'\n', .code⟩)

namespace Scans

variable {mode final : Mode} {first last : List Cell} {rest : Text}

theorem cut_behind {left : Cell} (scans : Scans mode (first ++ last) rest final)
    (found : left ∈ first.getLast?) (code : left.kind = .code) :
    Scans mode first (chars last ++ rest) .code ∧ Scans .code last rest final := by
  obtain ⟨middle, front, back⟩ := scans.split (fun other same _ _ _ => by
    obtain rfl := Option.mem_unique same found
    exact code)
  obtain rfl := front.of_last_code found code
  exact ⟨front, back⟩

theorem cut {left right : Cell} (scans : Scans mode (first ++ last) rest final)
    (before : left ∈ first.getLast?) (behind : right ∈ last.head?) (parted : Parted left right) :
    Scans mode first (chars last ++ rest) .code ∧ Scans .code last rest final := by
  rcases parted with code | ⟨string, other⟩ | ⟨comment, other, noBreak⟩
  · exact scans.cut_behind before code
  · obtain ⟨middle, front, back⟩ := scans.split (fun l same r next agree => by
      obtain rfl := Option.mem_unique same before
      obtain rfl := Option.mem_unique next behind
      exact absurd (agree.symm.trans string) other)
    obtain rfl : middle = .code := by
      rcases front.of_last_string before string with code | literal
      · exact code
      · exact absurd (back.of_head_literal behind literal) other
    exact ⟨front, back⟩
  · obtain ⟨middle, front, back⟩ := scans.split (fun l same r next agree => by
      obtain rfl := Option.mem_unique same before
      obtain rfl := Option.mem_unique next behind
      exact absurd (agree.symm.trans comment) other)
    obtain rfl : middle = .code := by
      by_cases code : middle = .code
      · exact code
      · rcases back.of_head_comment behind ⟨code, front.of_last_comment before comment⟩ with
          same | same
        · exact absurd same other
        · exact absurd same noBreak
    exact ⟨front, back⟩

/-- A cell of code whose character takes part in no marks settles everything before it. -/
theorem firm {cell : Cell} {cells : List Cell} {other : Text}
    (scans : Scans mode cells rest .code) (found : cell ∈ cells.getLast?)
    (code : cell.kind = .code) (bland : Bland [cell.char]) : Scans mode cells other .code := by
  obtain ⟨front, rfl⟩ : ∃ front, cells = front ++ [cell] := by
    rcases cells.eq_nil_or_concat with rfl | ⟨front, last, rfl⟩
    · simp at found
    · exact ⟨front, by simp_all⟩
  obtain ⟨middle, before, behind⟩ := scans.split (fun left _ right next agree => by
    obtain rfl : cell = right := by simpa using next
    exact agree.trans code)
  have settled : (middle = .code ∨ middle = .lineComment) ∧ Scans middle [cell] other .code := by
    have reads := behind.reads_single
    obtain ⟨char, kind⟩ := cell
    obtain rfl : kind = .code := code
    cases reads with
    | slash => exact absurd rfl (bland_cons.mp bland).2.1
    | plain => exact ⟨.inl rfl, single _ rfl bland other⟩
    | closeLineComment => exact ⟨.inr rfl, .token .closeLineComment⟩
  refine (before.exchange settled.1 ?_).append settled.2
  simpa using bland

end Scans

/-- In front of a cell of code that is no line feed the pass is in code. -/
theorem parted_of_code {left right : Cell} (code : right.kind = .code)
    (noBreak : right.char ≠ '\n') : Parted left right := by
  obtain ⟨char, kind⟩ := right
  obtain rfl : kind = .code := code
  cases same : left.kind <;> simp_all [Parted]

def Clear (cells : List Cell) : Prop := Scans .code cells [] .code

theorem Scans.clear {cells : List Cell} {rest : Text} (scans : Scans .code cells rest .code) :
    Clear cells := scans.exchange (.inl rfl) bland_nil

namespace Clear

variable {first last : List Cell}

theorem nil : Clear [] := .here _ _

theorem single (cell : Cell) (code : cell.kind = .code) (bland : Bland [cell.char]) :
    Clear [cell] := Scans.single cell code bland []

theorem scans {cells : List Cell} {rest : Text} (clear : Clear cells) (bland : Bland rest) :
    Scans .code cells rest .code := clear.exchange (.inl rfl) bland

theorem append (front : Clear first) (back : Clear last) (bland : Bland (chars last)) :
    Clear (first ++ last) :=
  Scans.append (front.scans (by simpa using bland)) back

/-- Behind a cell of code whose character takes part in no marks anything can follow. -/
theorem append_behind {cell : Cell} (front : Clear first) (back : Clear last)
    (found : cell ∈ first.getLast?) (code : cell.kind = .code) (bland : Bland [cell.char]) :
    Clear (first ++ last) :=
  Scans.append (front.firm found code bland) back

end Clear

/-- Cells that are read from code to code in front of everything but a quotation mark. -/
def Firm (cells : List Cell) : Prop :=
  ∀ rest : Text, (∀ char ∈ rest.head?, char ≠ '"') → Scans .code cells rest .code

theorem Firm.clear {cells : List Cell} (firm : Firm cells) : Clear cells := firm [] (by simp)

theorem Firm.append {first last : List Cell} (front : Firm first) (back : Firm last)
    (noMark : ∀ char ∈ (chars last).head?, char ≠ '"') : Firm (first ++ last) := by
  intro rest restNoMark
  refine (front _ ?_).append (back rest restNoMark)
  cases last with
  | nil => simpa using restNoMark
  | cons cell last => simpa using noMark

/-- Code without quotation marks, slashes and stars in front of such cells is read with them. -/
theorem Firm.plain_append {cells : List Cell} (firm : Firm cells) {text : Text}
    (bland : ∀ char ∈ text, Bland [char]) : Firm (cellsOf .code text ++ cells) :=
  fun rest noMark => (Scans.plain bland _).append (firm rest noMark)

theorem Firm.append_plain {cells : List Cell} (firm : Firm cells) {text : Text}
    (bland : ∀ char ∈ text, Bland [char]) : Firm (cells ++ cellsOf .code text) := by
  refine fun rest noMark => (firm _ ?_).append (Scans.plain bland rest)
  cases text with
  | nil => simpa [cellsOf] using noMark
  | cons char text => simpa using (bland_cons.mp (bland char (by simp))).1

/--
The pass is in code in front of cells that begin with no literal, and so with no quotation mark.
-/
theorem Scans.head_ne_mark {cells : List Cell} {rest : Text} {final : Mode}
    (scans : Scans .code cells rest final) (code : ∀ cell ∈ cells.head?, cell.kind ≠ .string) :
    ∀ char ∈ (chars cells).head?, char ≠ '"' := by
  cases scans with
  | here => simp
  | read reads scans => cases reads <;> simp_all [cellsOf]

/-- The body of a written literal whose text has no line feed is read inside of the literal. -/
theorem scans_escaped {text : Text} (noBreak : '\n' ∉ text) (rest : Text) :
    Scans .line (cellsOf .string (text.flatMap Literal.escapedForm)) rest .line := by
  induction text with
  | nil => exact .here _ _
  | cons char text ih =>
      obtain ⟨noHead, noTail⟩ : char ≠ '\n' ∧ '\n' ∉ text := by
        simpa [eq_comm] using noBreak
      rw [List.flatMap_cons, cellsOf_append]
      refine .read ?_ (ih noTail)
      by_cases slash : char = '\\'
      · simpa [Literal.escapedForm, slash] using Reads.lineEscape
      · by_cases mark : char = '"'
        · simpa [Literal.escapedForm, mark] using Reads.lineEscape
        · simpa [Literal.escapedForm, slash, mark] using
            Reads.lineChar mark noHead (absurd · slash)

/-- In front of the body of a written literal a quotation mark opens a literal of one line. -/
theorem reads_opening {text rest : Text} (single : ∀ tail, rest ≠ '"' :: '"' :: tail) :
    Reads .code ['"'] (text.flatMap Literal.escapedForm ++ rest) .string .line := by
  refine .openLine fun tail same => ?_
  cases text with
  | nil => exact single tail same
  | cons char text =>
      rw [List.flatMap_cons, Literal.escapedForm] at same
      split at same
      · simp at same
      · split at same <;> simp_all

/-- A written literal whose text has no line feed is read to its end. -/
theorem firm_encode {text : Text} (noBreak : '\n' ∉ text) :
    Firm (cellsOf .string (Literal.encode text)) := by
  intro rest noMark
  have inner : Scans .line (cellsOf .string (text.flatMap Literal.escapedForm ++ ['"'])) rest
      .code := by
    rw [cellsOf_append]
    exact (scans_escaped noBreak _).append (.token .closeLine)
  have opens : Reads .code ['"']
      (chars (cellsOf .string (text.flatMap Literal.escapedForm ++ ['"'])) ++ rest)
        .string .line := by
    rw [chars_cellsOf, List.append_assoc]
    exact reads_opening fun tail same => by simp_all
  exact .read opens inner

namespace Scans

variable {mode final : Mode} {first new last : List Cell} {rest : Text}

/-- Where the pass is in code, cells that are read on their own can be put in between. -/
theorem insert (front : Scans mode first (chars last ++ rest) .code)
    (back : Scans .code last rest final) (bland : Bland (chars new ++ (chars last ++ rest)))
    (middle : Scans .code new (chars last ++ rest) .code) :
    Scans mode (first ++ (new ++ last)) rest final := by
  refine (front.exchange (.inl rfl) ?_).append (middle.append back)
  simpa using bland

/-- At the end of a line, a line feed and cells that are read on their own can be put in between. -/
theorem insert_line (whole : Scans mode (first ++ ⟨'\n', .code⟩ :: last) rest final)
    (middle : Scans .code new ('\n' :: (chars last ++ rest)) .code) :
    Scans mode (first ++ ⟨'\n', .code⟩ :: (new ++ ⟨'\n', .code⟩ :: last)) rest final := by
  obtain ⟨reached, front, back⟩ := whole.split (by simp)
  rw [← List.singleton_append] at back
  have lineEnd : (⟨'\n', .code⟩ : Cell) ∈ [(⟨'\n', .code⟩ : Cell)].getLast? := by simp
  obtain ⟨feed, behind⟩ := back.cut_behind lineEnd rfl
  have settled : reached = .code ∨ reached = .lineComment := by
    cases feed.reads_single with
    | plain => exact .inl rfl
    | closeLineComment => exact .inr rfl
  have bland (text : Text) : Bland ('\n' :: text) := by simp
  have lines : Scans .code (new ++ ⟨'\n', .code⟩ :: last) rest final :=
    middle.append ((single _ rfl (bland []) _).append behind)
  refine (front.exchange settled (bland _)).append ?_
  exact (feed.firm lineEnd rfl (bland [])).append lines

end Scans

theorem Scans.exchange_inside {before inner other behind : List Cell} {opening closing : Cell}
    {final : Mode} (scans : Scans .code (before ++ inner ++ behind) [] final)
    (last : opening ∈ before.getLast?) (opens : opening.kind = .code) (firm : Bland [opening.char])
    (head : closing ∈ behind.head?) (closes : closing.kind = .code)
    (bland : Bland [closing.char]) (noBreak : closing.char ≠ '\n') (clear : Clear other) :
    Scans .code (before ++ other ++ behind) [] final := by
  obtain ⟨front, back⟩ : Scans .code (before ++ inner) (chars behind ++ []) .code ∧
      Scans .code behind [] final := by
    cases found : (before ++ inner).getLast? with
    | none => simp_all
    | some left =>
        exact scans.cut (Option.mem_def.mpr found) head (parted_of_code closes noBreak)
  have blandBehind : Bland (chars behind ++ []) := by
    cases behind with
    | nil => simp at head
    | cons => simp_all
  rw [List.append_assoc]
  exact Scans.append ((front.cut_behind last opens).1.firm last opens firm)
    (Scans.append (clear.scans blandBehind) back)

end Kind

end SwiftWorkspace
