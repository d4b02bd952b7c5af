import SwiftWorkspace.Proofs.Appending
import SwiftWorkspace.Proofs.Requirements

/-!
# Written declarations

A reference to a dependency and a declaration of one are elements that can stand
in any row.  The declaration is read as a dependency with the same address.
-/

namespace SwiftWorkspace

open Kind (Firm Bland chars cellsOf)

namespace Literal

theorem delimiter_encode (text : Text) : delimiter (encode text) = ['"'] := by
  rw [delimiter, if_neg]
  cases text with
  | nil => decide
  | cons char text =>
      simp only [encode, List.flatMap_cons, escapedForm, Text.startsWith]
      split
      · simp [List.isPrefixOf]
      · split
        · simp [List.isPrefixOf]
        · rename_i noMark
          simp [List.isPrefixOf, Ne.symm noMark]

/-- A written literal has the value that it is written for. -/
theorem decode_encode (text : Text) : decode (encode text) = text := by
  have whole := unescape_escaped_append text []
  have body : body (encode text) = text.flatMap escapedForm := by
    have ends : ['"'].isSuffixOf (text.flatMap escapedForm ++ ['"']) = true :=
      List.isSuffixOf_iff_suffix.mpr ⟨_, rfl⟩
    simp only [body, delimiter_encode]
    simp [encode, ends]
  rw [decode, body]
  simpa [unescape] using whole

end Literal

def literalCells (text : Text) : List Cell := cellsOf .string (Literal.encode text)

@[simp] theorem chars_literalCells (text : Text) :
    chars (literalCells text) = Literal.encode text :=
  Kind.chars_cellsOf ..

theorem Cell.plain_of_string {cell : Cell} (string : cell.kind = .string) :
    cell.opens? = none ∧ cell.closes? = none ∧ cell.isComma = false := by
  simp [opens?, closes?, isComma, isCodeChar, isCode, string]

theorem plain_literal {text : Text} {cell : Cell} (member : cell ∈ literalCells text) :
    cell.opens? = none ∧ cell.closes? = none ∧ cell.isComma = false :=
  Cell.plain_of_string (Kind.mem_cellsOf.mp member).1

theorem last_literal (first : List Cell) (text : Text) :
    ∃ cell ∈ (first ++ literalCells text).getLast?, cell.isSignificant := by
  refine ⟨⟨'"', .string⟩, ?_, rfl⟩
  have whole : first ++ literalCells text =
      (first ++ cellsOf .string ('"' :: text.flatMap Literal.escapedForm)) ++ [⟨'"', .string⟩] := by
    simp [literalCells, Literal.encode, cellsOf]
  rw [whole, Option.mem_def, List.getLast?_concat]

/-- A written literal is an element that can stand in any row. -/
theorem sturdy_literal {text : Text} (noFeed : '\n' ∉ text) : Sturdy (literalCells text) := by
  refine ⟨.of_plain (fun cell => plain_literal) ⟨⟨'"', .string⟩, rfl, rfl⟩ ?_,
    Kind.firm_encode noFeed, fun cell member => ?_⟩
  · simpa using last_literal [] text
  · simp [(Kind.mem_cellsOf.mp member).1]

namespace Source

theorem read_literal (text : Text) : read stringIn? (literalCells text) = some text := by
  have cells := read_cellsIn (literalCells text)
  rw [read] at cells
  have characters : (⟨literalCells text⟩ : Source).textIn ⟨0, (literalCells text).length⟩ =
      Literal.encode text := by
    rw [textIn, cells]
    exact chars_literalCells text
  have first : literalCells text =
      ⟨'"', .string⟩ :: cellsOf .string (text.flatMap Literal.escapedForm ++ ['"']) := by
    simp [literalCells, Literal.encode, cellsOf]
  rw [read, stringIn?, cells, characters, Literal.decode_encode, first]
  simp [cellsOf]

end Source

def phraseCells (word gap upper : Text) : List Cell :=
  cellsOf .code (word ++ gap) ++ literalCells upper

/-- Code that can stand in an element: it takes part in no marks, and has no brackets and commas. -/
def IsPlain (char : Char) : Prop :=
  Bland [char] ∧ Cell.opens? ⟨char, .code⟩ = none ∧ Cell.closes? ⟨char, .code⟩ = none ∧
    Cell.isComma ⟨char, .code⟩ = false

theorem isPlain_of_isBlank {char : Char} (blank : isBlank char) : IsPlain char := by
  have padding : Cell.isPadding ⟨char, .code⟩ := by
    simp [Cell.isPadding, Cell.isSignificant, Cell.isCode, blank]
  have noComma : Cell.isComma ⟨char, .code⟩ = false := by
    cases comma : Cell.isComma ⟨char, .code⟩ with
    | false => rfl
    | true =>
        have same := congrArg Cell.char (Row.eq_commaCell comma)
        obtain rfl : char = ',' := same
        revert blank
        decide
  exact ⟨Row.bland_of_isPadding padding, (Cell.noBrackets_of_isPadding padding).1,
    (Cell.noBrackets_of_isPadding padding).2, noComma⟩

theorem sturdy_phrase {first : Char} {word gap upper : Text}
    (plain : ∀ char ∈ first :: word, IsPlain char)
    (begins : Cell.isSignificant ⟨first, .code⟩) (blank : ∀ char ∈ gap, isBlank char)
    (noFeed : '\n' ∉ upper) : Sturdy (phraseCells (first :: word) gap upper) := by
  have all : ∀ char ∈ first :: word ++ gap, IsPlain char := by
    intro char member
    rcases List.mem_append.mp member with inside | inside
    · exact plain char inside
    · exact isPlain_of_isBlank (blank char inside)
  refine ⟨.of_plain (fun cell member => ?_) ⟨⟨first, .code⟩, rfl, begins⟩ (last_literal _ _), ?_,
    fun cell member => ?_⟩
  · rcases List.mem_append.mp member with code | literal
    · obtain ⟨char, kind⟩ := cell
      obtain ⟨rfl, inside⟩ := Kind.mem_cellsOf.mp code
      exact (all char inside).2
    · exact plain_literal literal
  · exact (Kind.firm_encode noFeed).plain_append fun char member => (all char member).1
  · rcases List.mem_append.mp member with code | literal
    · simp [(Kind.mem_cellsOf.mp code).1]
    · simp [(Kind.mem_cellsOf.mp literal).1]

namespace Requirement

theorem isPlain_of_mem_words {word : Text} (member : word ∈ words) :
    ∃ first rest, word = first :: rest ∧ (∀ char ∈ first :: rest, IsPlain char) ∧
      Cell.isSignificant ⟨first, .code⟩ ∧ first ≠ '"' := by
  simp only [words, labels, halfOpen, closed, List.map_cons, List.map_nil, List.cons_append,
    List.nil_append, List.mem_cons, List.not_mem_nil, or_false] at member
  unfold IsPlain
  simp only [Kind.bland_cons]
  rcases member with rfl | rfl | rfl | rfl | rfl | rfl <;>
    exact ⟨_, _, rfl, Text.forall_mem_of_all (by decide), by decide, by decide⟩

namespace Form

def cells (form : Form) : List Cell :=
  (form.lower.map literalCells).getD [] ++ phraseCells form.word form.gap form.upper

theorem chars_cells (form : Form) : chars form.cells = form.text := by
  cases lower : form.lower <;> simp [cells, text, lower, phraseCells]

/-- A form that fits is an element that can stand in any row. -/
theorem Fits.sturdy {form : Form} (fits : form.Fits) : Sturdy form.cells := by
  obtain ⟨first, word, same, plain, begins, noMark⟩ := isPlain_of_mem_words fits.word
  have phrase : Sturdy (phraseCells form.word form.gap form.upper) := by
    rw [same]
    exact sturdy_phrase plain begins fits.gap fits.upper
  cases lower : form.lower with
  | none => simpa [cells, lower] using phrase
  | some text =>
      have literal := sturdy_literal (fits.lower text lower)
      have whole : form.cells = literalCells text ++ phraseCells form.word form.gap form.upper := by
        simp [cells, lower]
      rw [whole]
      refine ⟨?_, literal.firm.append phrase.firm ?_, fun cell member => ?_⟩
      · simpa using literal.solid.join .nil phrase.solid
      · simpa [phraseCells, same, cellsOf] using noMark
      · rcases List.mem_append.mp member with inside | inside
        · exact literal.silent cell inside
        · exact phrase.silent cell inside

end Form

end Requirement

def packageCells (list : List Cell) : List Cell :=
  cellsOf .code ".package(".toList ++ (list ++ cellsOf .code [')'])

theorem isCall_package {list : List Cell} (balanced : Balanced list) :
    IsCall (packageCells list) "package".toList (cellsOf .code ".package(".toList) list
      (cellsOf .code [')']) := by
  refine ⟨rfl, balanced, ⟨'.', .code⟩, cellsOf .code "package".toList, [], ⟨'(', .code⟩,
    ⟨')', .code⟩, [],
    rfl, rfl, rfl, ⟨⟨_, rfl, by decide⟩, by decide, by decide⟩,
      rfl, by simp, rfl, ⟨.round, rfl, rfl⟩⟩

theorem sturdy_package {list : List Cell} (balanced : Balanced list) (firm : Firm list)
    (silent : ∀ cell ∈ list, cell.kind ≠ .comment) : Sturdy (packageCells list) := by
  have word : Solid (cellsOf .code ".package".toList) :=
    .of_plain (by decide) ⟨_, rfl, by decide⟩ ⟨⟨'e', .code⟩, by decide, by decide⟩
  have opening : Bland ['('] := by simp
  have brackets : Solid (⟨'(', .code⟩ :: (list ++ [⟨')', .code⟩])) :=
    .enclose ⟨.round, rfl, rfl⟩ balanced
  have plain : ∀ char ∈ ".package(".toList, Bland [char] := by
    simp only [Kind.bland_cons]
    exact Text.forall_mem_of_all (by decide)
  refine ⟨?_, (firm.append_plain (by simp)).plain_append plain, fun cell member => ?_⟩
  · simpa [packageCells, cellsOf] using word.join .nil brackets
  · simp only [packageCells, List.mem_append, Kind.mem_cellsOf] at member
    rcases member with ⟨code, -⟩ | inside | ⟨code, -⟩
    · simp [code]
    · exact silent cell inside
    · simp [code]

def remoteRow (url : Text) (form : Requirement.Form) : Row :=
  ⟨[([], phraseCells "url:".toList [' '] url), (cellsOf .code [',', ' '], form.cells)], []⟩

def localRow (path : Text) : Row := ⟨[([], phraseCells "path:".toList [' '] path)], []⟩

theorem sturdy_url {url : Text} (noFeed : '\n' ∉ url) :
    Sturdy (phraseCells "url:".toList [' '] url) := by
  refine sturdy_phrase ?_ (by decide) (Text.forall_mem_of_all (by decide)) noFeed
  unfold IsPlain
  simp only [Kind.bland_cons]
  exact Text.forall_mem_of_all (by decide)

theorem sturdy_path {path : Text} (noFeed : '\n' ∉ path) :
    Sturdy (phraseCells "path:".toList [' '] path) := by
  refine sturdy_phrase ?_ (by decide) (Text.forall_mem_of_all (by decide)) noFeed
  unfold IsPlain
  simp only [Kind.bland_cons]
  exact Text.forall_mem_of_all (by decide)

theorem valid_remoteRow {url : Text} {form : Requirement.Form} (noFeed : '\n' ∉ url)
    (fits : form.Fits) : (remoteRow url form).Valid := by
  refine ⟨?_, ?_, ?_, by simp [remoteRow]⟩
  · simpa [remoteRow, fits.sturdy.solid] using (sturdy_url noFeed).solid
  · simp only [remoteRow, List.mem_cons, List.not_mem_nil, or_false, forall_eq_or_imp, forall_eq,
      false_implies, implies_true, true_and]
    decide
  · simp only [remoteRow, List.tail_cons, List.mem_cons, List.not_mem_nil, or_false, forall_eq]
    exact ⟨commaCell, by simp [cellsOf, commaCell], rfl⟩

theorem valid_localRow {path : Text} (noFeed : '\n' ∉ path) : (localRow path).Valid :=
  ⟨by simpa [localRow] using (sturdy_path noFeed).solid, by simp [localRow], by simp [localRow],
    by simp [localRow]⟩

theorem firm_remoteRow {url : Text} {form : Requirement.Form} (noFeed : '\n' ∉ url)
    (fits : form.Fits) : Firm (remoteRow url form).cells := by
  have behind : Firm (cellsOf .code [',', ' '] ++ form.cells) :=
    fits.sturdy.firm.plain_append (by simp)
  simpa [remoteRow, Row.cells] using (sturdy_url noFeed).firm.append behind (by simp [cellsOf])

theorem silent_remoteRow {url : Text} {form : Requirement.Form} (noFeed : '\n' ∉ url)
    (fits : form.Fits) : ∀ cell ∈ (remoteRow url form).cells, cell.kind ≠ .comment := by
  intro cell member
  simp only [remoteRow, Row.cells, Row.flat_cons, Row.flat_nil, List.nil_append, List.append_nil,
    List.mem_append, Kind.mem_cellsOf] at member
  rcases member with inside | ⟨code, -⟩ | inside
  · exact (sturdy_url noFeed).silent cell inside
  · simp [code]
  · exact fits.sturdy.silent cell inside

theorem sturdy_remote {url : Text} {form : Requirement.Form} (noFeed : '\n' ∉ url)
    (fits : form.Fits) : Sturdy (packageCells (remoteRow url form).cells) :=
  sturdy_package (valid_remoteRow noFeed fits).balanced (firm_remoteRow noFeed fits)
    (silent_remoteRow noFeed fits)

theorem sturdy_local {path : Text} (noFeed : '\n' ∉ path) :
    Sturdy (packageCells (localRow path).cells) := by
  have address := sturdy_path noFeed
  have whole : (localRow path).cells = phraseCells "path:".toList [' '] path := by
    simp [localRow, Row.cells]
  rw [whole]
  exact sturdy_package address.solid.unbroken.balanced address.firm address.silent

section Quiet

variable (field : Field)

theorem mentions_word {word : Text} (member : word ∈ Requirement.words) (rest : List Cell) :
    mentions field.label (cellsOf .code word ++ rest) = mentions field.label rest := by
  simp only [Requirement.words, Requirement.labels, Requirement.halfOpen, Requirement.closed,
    List.map_cons, List.map_nil, List.cons_append, List.nil_append, List.mem_cons, List.not_mem_nil,
    or_false] at member
  rcases member with rfl | rfl | rfl | rfl | rfl | rfl <;> cases field <;> rfl

theorem mentions_literal (text : Text) (rest : List Cell) :
    mentions field.label (literalCells text ++ rest) = mentions field.label rest :=
  mentions_string ..

theorem mentions_literalCells (text : Text) : mentions field.label (literalCells text) = false := by
  simpa using mentions_literal field text []

theorem mentions_form {form : Requirement.Form} (fits : form.Fits) (rest : List Cell) :
    mentions field.label (form.cells ++ rest) = mentions field.label rest := by
  have phrase : mentions field.label (phraseCells form.word form.gap form.upper ++ rest) =
      mentions field.label rest := by
    rw [phraseCells, Kind.cellsOf_append, List.append_assoc, List.append_assoc,
      mentions_word field fits.word, mentions_blank (isLabel_field field) fits.gap,
        mentions_literal]
  cases lower : form.lower with
  | none => simpa [Requirement.Form.cells, lower] using phrase
  | some text =>
      simp only [Requirement.Form.cells, lower, Option.map_some, Option.getD_some,
        List.append_assoc]
      rw [mentions_literal, phrase]

theorem mentions_remote {url : Text} {form : Requirement.Form} (fits : form.Fits) :
    mentions field.label (packageCells (remoteRow url form).cells) = false := by
  have first (rest : List Cell) : mentions field.label
      (cellsOf .code ".package(url: ".toList ++ rest) = mentions field.label rest := by
    cases field <;> rfl
  have second (rest : List Cell) : mentions field.label (cellsOf .code [',', ' '] ++ rest) =
      mentions field.label rest := by
    cases field <;> rfl
  have last : mentions field.label (cellsOf .code [')']) = false := by cases field <;> rfl
  have whole : packageCells (remoteRow url form).cells = cellsOf .code ".package(url: ".toList ++
      (literalCells url ++ (cellsOf .code [',', ' '] ++ (form.cells ++ cellsOf .code [')']))) := by
    simp [packageCells, remoteRow, Row.cells, phraseCells, cellsOf]
  rw [whole, first, mentions_literal, second, mentions_form field fits, last]

theorem mentions_local (path : Text) :
    mentions field.label (packageCells (localRow path).cells) = false := by
  have first (rest : List Cell) : mentions field.label
      (cellsOf .code ".package(path: ".toList ++ rest) = mentions field.label rest := by
    cases field <;> rfl
  have last : mentions field.label (cellsOf .code [')']) = false := by cases field <;> rfl
  have whole : packageCells (localRow path).cells = cellsOf .code ".package(path: ".toList ++
      (literalCells path ++ cellsOf .code [')']) := by
    simp [packageCells, localRow, Row.cells, phraseCells, cellsOf]
  rw [whole, first, mentions_literal, last]

end Quiet

namespace Source

theorem argumentParts_phrase {label gap : Text} (begins : label.head?.any isIdentifierStart)
    (inside : ∀ char ∈ label, isIdentifierChar char) (blank : ∀ char ∈ gap, isBlank char)
    (upper : Text) :
    argumentParts (phraseCells (label ++ [':']) gap upper) = (some label, literalCells upper) := by
  suffices shape : IsLabeled (phraseCells (label ++ [':']) gap upper) label
      (cellsOf .code (label ++ ':' :: gap))
        (literalCells upper) from argumentParts_of_isLabeled shape
  refine ⟨by simp [phraseCells], fun cell found => ?_, cellsOf .code label, [], ⟨':', .code⟩,
    cellsOf .code gap, by simp [cellsOf], ⟨?_, fun cell member => ?_, by simp; decide⟩,
    Kind.chars_cellsOf .., by simp, rfl, fun cell member => ?_⟩
  · obtain rfl : ⟨'"', .string⟩ = cell := by
      simpa [literalCells, Literal.encode, cellsOf] using found
    decide
  · obtain ⟨first, found, starts⟩ := (Option.any_eq_true ..).mp begins
    exact ⟨⟨first, .code⟩, by simp [cellsOf, found], starts⟩
  · exact inside cell.char (Kind.mem_cellsOf.mp member).2
  · simp [Cell.isTrivia, blank cell.char (Kind.mem_cellsOf.mp member).2]

theorem argumentParts_url (url : Text) : argumentParts (phraseCells "url:".toList [' '] url) =
    (some "url".toList, literalCells url) :=
  argumentParts_phrase (by decide : ("url".toList).head?.any isIdentifierStart)
    (Text.forall_mem_of_all (by decide)) (Text.forall_mem_of_all (by decide)) url

theorem argumentParts_path (path : Text) : argumentParts (phraseCells "path:".toList [' '] path) =
    (some "path".toList, literalCells path) :=
  argumentParts_phrase (by decide : ("path".toList).head?.any isIdentifierStart)
    (Text.forall_mem_of_all (by decide)) (Text.forall_mem_of_all (by decide)) path

/-- Cells that do not begin with a letter are an argument without a label. -/
theorem argumentParts_of_noLetter (first : Cell) (noLetter : isIdentifierStart first.char = false)
    (rest : List Cell) : argumentParts (first :: rest) = (none, first :: rest) := by
  refine argumentParts_of_not_isLabeled ?_
  rintro ⟨label, head, value, isLabeled⟩
  obtain ⟨word, trivia, colon, gap, rfl, identifier, -⟩ := isLabeled.headed
  obtain ⟨cell, found, begins⟩ := identifier.first
  have same := isLabeled.whole
  cases word with
  | nil => simp at found
  | cons head word =>
      obtain rfl : head = cell := by simpa using found
      obtain ⟨rfl, -⟩ : first = head ∧ _ := by simpa using same
      simp [noLetter] at begins

theorem argumentParts_form {form : Requirement.Form} (fits : form.Fits) :
    (argumentParts form.cells).1 ∈ [none, some "from".toList, some "branch".toList,
      some "revision".toList, some "exact".toList] := by
  cases lower : form.lower with
  | some text =>
      have whole : form.cells = ⟨'"', .string⟩ ::
          (cellsOf .string (text.flatMap Literal.escapedForm ++
          ['"']) ++ phraseCells form.word form.gap form.upper) := by
        simp [Requirement.Form.cells, lower, literalCells, Literal.encode, cellsOf]
      rw [whole, argumentParts_of_noLetter _ (by decide)]
      simp
  | none =>
      have whole : form.cells = phraseCells form.word form.gap form.upper := by
        simp [Requirement.Form.cells, lower]
      have labeled (label : Text) (word : form.word = label ++ [':'])
          (begins : label.head?.any isIdentifierStart)
          (inside : ∀ char ∈ label, isIdentifierChar char) :
          (argumentParts form.cells).1 = some label := by
        rw [whole, word, argumentParts_phrase begins inside fits.gap]
      have operator {word : Text} (same : form.word = '.' :: word) :
          (argumentParts form.cells).1 = none := by
        rw [whole, same, phraseCells]
        exact congrArg Prod.fst (argumentParts_of_noLetter ⟨'.', .code⟩ (by decide) _)
      have word := fits.word
      simp only [Requirement.words, Requirement.labels, List.map_cons, List.map_nil,
        List.cons_append, List.nil_append, List.mem_cons, List.not_mem_nil, or_false] at word
      rcases word with word | word | word | word | word | word
      · rw [labeled "from".toList word (by decide) (Text.forall_mem_of_all (by decide))]
        simp
      · rw [labeled "branch".toList word (by decide) (Text.forall_mem_of_all (by decide))]
        simp
      · rw [labeled "revision".toList word (by decide) (Text.forall_mem_of_all (by decide))]
        simp
      · rw [labeled "exact".toList word (by decide) (Text.forall_mem_of_all (by decide))]
        simp
      · rw [operator word]
        simp
      · rw [operator word]
        simp

theorem piecesOf_remoteRow {url : Text} {form : Requirement.Form} (noFeed : '\n' ∉ url)
    (fits : form.Fits) :
    piecesOf (remoteRow url form).cells = [phraseCells "url:".toList [' '] url, form.cells] :=
  piecesOf_row (valid_remoteRow noFeed fits)

theorem piecesOf_localRow {path : Text} (noFeed : '\n' ∉ path) :
    piecesOf (localRow path).cells = [phraseCells "path:".toList [' '] path] :=
  piecesOf_row (valid_localRow noFeed)

/-- What a call of `package` declares is known from its arguments. -/
theorem read_dependencyIn? {list : List Cell} (balanced : Balanced list) :
    read dependencyIn? (packageCells list) =
      match filled? (stringValue? "url".toList list) with
      | some url =>
          Dependency.ofFields?
            { name := (stringValue? "name".toList list).getD [], url := some url,
              version := (read qualifiers list).version, branch := (read qualifiers list).branch,
              commit := (read qualifiers list).commit }
      | none =>
          match filled? (stringValue? "path".toList list) with
          | some path =>
              Dependency.ofFields?
                { name := (stringValue? "name".toList list).getD [], path := some path }
          | none => none := by
  have call := isCall_package balanced
  have stands := call.stands (shows_alone _)
  have found := callIn?_of_isCall call (shows_alone _)
  have string (label : Text) := (local_labeledString? label _ _ list balanced stands).trans
    (read_labeledString? label balanced)
  have asked := local_qualifiers _ _ list balanced stands
  simp only [Nat.zero_add] at found string asked
  rw [read, dependencyIn?, found]
  refine (if_neg (not_not_intro rfl)).trans ?_
  cases url : filled? (stringValue? "url".toList list) with
  | some address => simp only [string, asked, url]
  | none =>
      cases path : filled? (stringValue? "path".toList list) with
      | some address => simp only [string, url, path]
      | none => simp only [string, url, path]

/-- The values of the arguments of a declaration by URL. -/
theorem stringValue?_remote {list : List Cell} {url : Text} {form : Requirement.Form}
    (fits : form.Fits)
    (pieces : piecesOf list = [phraseCells "url:".toList [' '] url, form.cells]) :
    stringValue? "url".toList list = some url ∧ stringValue? "name".toList list = none := by
  have label := argumentParts_form fits
  have noName : (argumentParts form.cells).1 ≠ some "name".toList := by
    intro same
    rw [same] at label
    revert label
    decide
  constructor
  · rw [stringValue?, valueIn?, pieces, List.map_cons, argumentParts_url,
      List.find?_cons_of_pos (by simp)]
    exact read_literal url
  · rw [stringValue?, valueIn?, pieces, List.map_cons, argumentParts_url,
      List.find?_cons_of_neg (by simp), List.map_singleton, List.find?_singleton,
      if_neg (by simpa using noName)]
    rfl

theorem stringValue?_localRow {path : Text} (noFeed : '\n' ∉ path) :
    stringValue? "path".toList (localRow path).cells = some path ∧
      stringValue? "url".toList (localRow path).cells = none ∧
      stringValue? "name".toList (localRow path).cells = none := by
  have parts : (piecesOf (localRow path).cells).map argumentParts =
      [(some "path".toList, literalCells path)] := by
    rw [piecesOf_localRow noFeed, List.map_singleton, argumentParts_path]
  simp only [stringValue?, valueIn?, parts, List.find?_singleton]
  exact ⟨read_literal path, rfl, rfl⟩

end Source

namespace Dependency

/-- Whether no part of a dependency has a line feed. -/
structure Linear (dependency : Dependency) : Prop where
  name : '\n' ∉ dependency.name
  url : ∀ url ∈ dependency.url, '\n' ∉ url
  path : ∀ path ∈ dependency.path, '\n' ∉ path
  version : ∀ version ∈ dependency.version, '\n' ∉ version
  branch : ∀ branch ∈ dependency.branch, '\n' ∉ branch
  commit : ∀ commit ∈ dependency.commit, '\n' ∉ commit

theorem mem_of_filled? {value : Option Text} {text : Text} (found : filled? value = some text) :
    text ∈ value ∧ text ≠ [] := by
  obtain ⟨same, filled⟩ := Option.filter_eq_some_iff.mp found
  exact ⟨same, by simpa using filled⟩

theorem exists_form {dependency : Dependency} (linear : dependency.Linear)
    (accepted : ∀ version ∈ dependency.version, Requirement.isValid version) :
    ∃ form : Requirement.Form, form.Fits ∧ dependency.requirement = form.text := by
  have labeled {word upper : Text} (member : word ∈ Requirement.words) (noFeed : '\n' ∉ upper) :
      (⟨none, word, [' '], upper⟩ : Requirement.Form).Fits :=
    ⟨member, Text.forall_mem_of_all
      (by decide : ([' '].all fun char => isBlank char) = true), by simp, noFeed⟩
  rw [requirement]
  split
  · rename_i version _ _ found
    have member := (mem_of_filled? found).1
    exact Requirement.exists_form_of_isValid (linear.version _ member) (accepted _ member)
  · rename_i branch _ _ found
    exact ⟨_, labeled (by decide : "branch:".toList ∈ Requirement.words)
      (linear.branch _ (mem_of_filled? found).1), rfl⟩
  · rename_i commit _ _ found
    exact ⟨_, labeled (by decide : "revision:".toList ∈ Requirement.words)
      (linear.commit _ (mem_of_filled? found).1), rfl⟩
  · exact ⟨_, labeled (by decide : "from:".toList ∈ Requirement.words)
      (by decide : '\n' ∉ "1.0.0".toList), by decide⟩

structure Written (dependency : Dependency) (piece : List Cell) (declared : Dependency) : Prop where
  chars : chars piece = dependency.declaration
  sturdy : Sturdy piece
  quiet : ∀ field : Field, mentions field.label piece = false
  reads : Source.read Source.dependencyIn? piece = some declared
  url : declared.url = filled? dependency.url
  path : declared.path = filled? dependency.path
  name : declared.name = Reference.canonicalName dependency.address

theorem ofFields?_unnamed {fields : DependencyFields} (addressed : fields.isAddressed = true)
    (unnamed : fields.name = []) : ∃ declared, Dependency.ofFields? fields = some declared ∧
      declared.url = fields.url ∧ declared.path = fields.path ∧
      declared.name = Reference.canonicalName fields.address := by
  refine ⟨_, dif_pos addressed, ?_⟩
  simp [DependencyFields.named, unnamed]

theorem filled?_of_filled {text : Text} (filled : text ≠ []) : filled? (some text) = some text := by
  simp [filled?, filled]

theorem written_local {dependency : Dependency} (linear : dependency.Linear) {address : Text}
    (path : filled? dependency.path = some address) :
    ∃ piece declared, dependency.Written piece declared := by
  have noUrl : filled? dependency.url = none := by
    simpa [DependencyFields.isAddressed, path] using dependency.addressed
  obtain ⟨member, filled⟩ := mem_of_filled? path
  have noFeed := linear.path _ member
  have same := filled?_of_filled filled
  have empty : filled? none = none := rfl
  obtain ⟨pathValue, urlValue, nameValue⟩ := Source.stringValue?_localRow noFeed
  have addressed : DependencyFields.isAddressed { path := some address } = true := by
    simp only [DependencyFields.isAddressed, same, empty]
    rfl
  obtain ⟨declared, reads, url, declared_path, name⟩ := ofFields?_unnamed addressed rfl
  refine ⟨_, declared, ?_, sturdy_local noFeed, fun field => mentions_local field address, ?_,
    url.trans noUrl.symm, declared_path.trans path.symm, name.trans ?_⟩
  · simp [declaration, path, packageCells, localRow, Row.cells, phraseCells]
  · rw [Source.read_dependencyIn? (valid_localRow noFeed).balanced, pathValue, urlValue, nameValue]
    simp only [same, empty]
    exact reads
  · simp [DependencyFields.address, noUrl, path, same, empty]

theorem written_remote {dependency : Dependency} (linear : dependency.Linear) {address : Text}
    (accepted : ∀ version ∈ dependency.version, Requirement.isValid version)
    (url : filled? dependency.url = some address) :
    ∃ piece declared, dependency.Written piece declared := by
  have noPath : filled? dependency.path = none := by
    simpa [DependencyFields.isAddressed, url] using dependency.addressed
  obtain ⟨member, filled⟩ := mem_of_filled? url
  have noFeed := linear.url _ member
  have same := filled?_of_filled filled
  have empty : filled? none = none := rfl
  obtain ⟨form, fits, requirement⟩ := exists_form linear accepted
  obtain ⟨urlValue, nameValue⟩ :=
    Source.stringValue?_remote fits (Source.piecesOf_remoteRow noFeed fits)
  have addressed (asked : Qualifiers) : DependencyFields.isAddressed
      { url := some address, version := asked.version, branch := asked.branch,
        commit := asked.commit } = true := by
    simp only [DependencyFields.isAddressed, same, empty]
    rfl
  obtain ⟨declared, reads, declared_url, path, name⟩ := ofFields?_unnamed
    (addressed (Source.read Source.qualifiers (remoteRow address form).cells)) rfl
  refine ⟨_, declared, ?_, sturdy_remote noFeed fits, fun field => mentions_remote field fits, ?_,
    declared_url.trans url.symm, path.trans noPath.symm, name.trans ?_⟩
  · simp [declaration, noPath, packageCells, remoteRow, Row.cells, phraseCells, form.chars_cells,
      requirement, Option.mem_def.mp member]
  · rw [Source.read_dependencyIn? (valid_remoteRow noFeed fits).balanced, urlValue, nameValue]
    simp only [same]
    exact reads
  · simp [DependencyFields.address, url, same]

theorem exists_written {dependency : Dependency} (linear : dependency.Linear)
    (accepted : ∀ version ∈ dependency.version, Requirement.isValid version) :
    ∃ piece declared, dependency.Written piece declared := by
  cases path : filled? dependency.path with
  | some address => exact written_local linear path
  | none =>
      cases url : filled? dependency.url with
      | some address => exact written_remote linear accepted url
      | none =>
          have addressed := dependency.addressed
          simp [DependencyFields.isAddressed, path, url] at addressed

end Dependency

namespace Source

/-- A text that is a single element is the source of that element. -/
theorem ofText_chars {piece : List Cell} (clear : Kind.Clear piece) :
    ofText (chars piece) = ⟨piece⟩ := by
  have sound : (⟨piece⟩ : Source).Sound := ⟨.code, clear, rfl⟩
  exact sound.ofText_text

end Source

theorem Dependency.ofDeclaration?_of_alone {piece : List Cell} (solid : Solid piece)
    (alone : Source.ofText (chars piece) = ⟨piece⟩) :
    Dependency.ofDeclaration? (chars piece) = Source.read Source.dependencyIn? piece := by
  have valid : Row.Valid ⟨[([], piece)], []⟩ := ⟨by simpa using solid, by simp, by simp, by simp⟩
  have cells : Row.cells ⟨[([], piece)], []⟩ = piece := by simp [Row.cells]
  have elements := Source.elements_row valid (Source.shows_alone (Row.cells ⟨[([], piece)], []⟩))
  rw [cells, Nat.zero_add] at elements
  have whole : (⟨piece⟩ : Source).whole = ⟨0, piece.length⟩ := rfl
  rw [Dependency.ofDeclaration?, alone]
  simp only [whole, elements, Row.spansFrom]
  simp [Source.read]

theorem Dependency.ofDeclaration?_chars {piece : List Cell} (sturdy : Sturdy piece) :
    Dependency.ofDeclaration? (chars piece) = Source.read Source.dependencyIn? piece :=
  Dependency.ofDeclaration?_of_alone sturdy.solid (Source.ofText_chars sturdy.firm.clear)

theorem Dependency.Written.ofDeclaration? {dependency declared : Dependency} {piece : List Cell}
    (written : dependency.Written piece declared) :
    Dependency.ofDeclaration? dependency.declaration = some declared := by
  rw [← written.chars, Dependency.ofDeclaration?_chars written.sturdy, written.reads]

end SwiftWorkspace
