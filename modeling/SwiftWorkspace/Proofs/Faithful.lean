import SwiftWorkspace.Proofs.Qualifiers

/-!
# Faithful requirements

An accepted version requirement is written into a declaration that asks for it when
it is read, whatever the form of the requirement.  Only a version with a line feed
behind it is an exception: it is accepted, but its literal is not terminated.
-/

namespace SwiftWorkspace

open Kind (Firm chars cellsOf)

namespace Requirement

/-- What a requirement asks for, by the form in which it is accepted. -/
inductive Asks : Text → Qualifiers → Prop where
  /-- A version asks for itself. -/
  | bare {version : Text} (accepted : isVersion version) (noFeed : '\n' ∉ version) :
      Asks version { version := some version }
  /-- A version in quotation marks asks for what is between them. -/
  | quoted {version : Text} (accepted : isQuotedVersion (between version))
      (noFeed : '\n' ∉ version) :
      Asks (between version) { version := some version }
  /-- So does a version behind its label; a line feed may follow it. -/
  | labeled {label gap version tail : Text} (member : label ∈ ["from:".toList, "exact:".toList])
      (blank : ∀ char ∈ gap, isBlank char) (accepted : isQuotedVersion (between version ++ tail))
      (noFeed : '\n' ∉ version) (ends : atEnd tail) :
      Asks (label ++ (gap ++ (between version ++ tail))) { version := some version }
  | branch {gap branch tail : Text} (blank : ∀ char ∈ gap, isBlank char)
      (accepted : isQuotedRun isBranchChar (between branch ++ tail)) (noFeed : '\n' ∉ branch)
      (ends : atEnd tail) :
      Asks ("branch:".toList ++ (gap ++ (between branch ++ tail))) { branch := some branch }
  | revision {gap commit tail : Text} (blank : ∀ char ∈ gap, isBlank char)
      (accepted : isQuotedRun isRevisionChar (between commit ++ tail)) (noFeed : '\n' ∉ commit)
      (ends : atEnd tail) :
      Asks ("revision:".toList ++ (gap ++ (between commit ++ tail))) { commit := some commit }
  /-- A range asks for itself, without a line feed behind it. -/
  | range {range tail : Text}
      (accepted : isUpperBound halfOpen (range ++ tail) ∨ isRange halfOpen (range ++ tail) ∨
        isRange closed (range ++ tail))
      (noFeed : '\n' ∉ range) (ends : atEnd tail) : Asks (range ++ tail) { version := some range }

/-- Whether a version with a line feed behind it stands alone or in quotation marks. -/
def Spoiled (text : Text) : Prop := (isVersion text ∨ isQuotedVersion text) ∧ '\n' ∈ text

section Tails

variable {text tail other run version : Text}

theorem blank_of_atEnd (ends : atEnd tail) : ∀ char ∈ tail, isBlank char := by
  rcases atEnd_cases ends with rfl | rfl
  · simp
  · simp only [List.mem_singleton, forall_eq]
    decide

/-- A text without line feeds in front of a tail is known from the whole. -/
theorem eq_of_append_tail (same : text ++ tail = run ++ other) (noFeed : '\n' ∉ text)
    (inside : '\n' ∉ run) (ends : atEnd tail) (ends' : atEnd other) : text = run := by
  have split (text : Text) (tail : Text) (noFeed : '\n' ∉ text) (ends : atEnd tail) :
      (text ++ tail).filter (· ≠ '\n') = text := by
    have kept : text.filter (· ≠ '\n') = text :=
      List.filter_eq_self.mpr fun char member => by
        simpa using fun feed : char = '\n' => noFeed (feed ▸ member)
    have gone : tail.filter (· ≠ '\n') = [] := by
      rcases atEnd_cases ends with rfl | rfl <;> rfl
    rw [List.filter_append, kept, gone, List.append_nil]
  rw [← split text tail noFeed ends, same, split run other inside ends']

theorem between_injective (same : between text = between run) : text = run := by
  simpa [between] using same

theorem IsRun.between_noFeed (inside : IsRun run) : '\n' ∉ between run := by
  simp [between, between_run inside]

theorem isRun_of_between (accepted : ∃ run tail, IsRun run ∧ atEnd tail ∧
    between version ++ other = between run ++ tail)
    (noFeed : '\n' ∉ version) (ends : atEnd other) : IsRun version := by
  obtain ⟨run, tail, inside, tail_ends, same⟩ := accepted
  have marks : between version = between run :=
    eq_of_append_tail same (by simp [between, noFeed]) inside.between_noFeed ends tail_ends
  exact between_injective marks ▸ inside

end Tails

section Asking

variable {text : Text}

/-- Every accepted requirement asks for something, unless a line feed spoils it. -/
theorem exists_asks (valid : isValid text) (sound : ¬ Spoiled text) : ∃ asked, Asks text asked := by
  have version (label : Text) (member : label ∈ ["from:".toList, "exact:".toList])
      (labeled : isLabeled label isQuotedVersion text) : ∃ asked, Asks text asked := by
    obtain ⟨gap, run, tail, blank, accepted, inside, ends, rfl⟩ :=
      exists_of_labeled (fun rest => exists_tail_of_isQuotedVersion) labeled
    exact ⟨_, .labeled member blank accepted (between_run inside) ends⟩
  have range (accepted : isUpperBound halfOpen text ∨ isRange halfOpen text ∨ isRange closed text) :
      ∃ asked, Asks text asked := by
    obtain ⟨run, tail, inside, ends, rfl⟩ := exists_tail_of_range accepted
    exact ⟨_, .range accepted (between_run inside) ends⟩
  simp only [isValid, Bool.or_eq_true] at valid
  rcases valid with (((((((valid | valid) | valid) | valid) | valid) | valid) | valid) | valid) |
    valid
  · exact version _ (by decide) valid
  · obtain ⟨gap, run, tail, blank, accepted, inside, ends, rfl⟩ := exists_of_labeled
      (fun rest => exists_tail_of_isQuotedRun isRunChar_of_isBranchChar) valid
    exact ⟨_, .branch blank accepted (between_run inside) ends⟩
  · obtain ⟨gap, run, tail, blank, accepted, inside, ends, rfl⟩ := exists_of_labeled
      (fun rest => exists_tail_of_isQuotedRun isRunChar_of_isRevisionChar) valid
    exact ⟨_, .revision blank accepted (between_run inside) ends⟩
  · exact version _ (by decide) valid
  · exact ⟨_, .bare valid fun feed => sound ⟨.inl valid, feed⟩⟩
  · obtain ⟨run, inside, rfl⟩ := exists_between_of_tail (fun feed => sound ⟨.inr valid, feed⟩)
      (exists_tail_of_isQuotedVersion valid)
    exact ⟨_, .quoted valid (between_run inside)⟩
  · exact range (.inl valid)
  · exact range (.inr (.inl valid))
  · exact range (.inr (.inr valid))

structure Renders (text : Text) (asked : Qualifiers) (form : Form) (tail : Text) : Prop where
  fits : form.Fits
  blank : ∀ char ∈ tail, isBlank char
  render_eq : render text = form.text ++ tail
  asks_eq : form.asks = asked

/-- The form of a version behind its default label asks for the version. -/
theorem renders_from {run : Text} (inside : IsRun run)
    (rendered : render text = Text.ofString "from: " ++ between run) :
    Renders text { version := some run } ⟨none, "from:".toList, [' '], run⟩ [] := by
  have blank : ∀ char ∈ [' '], isBlank char := Text.forall_mem_of_all (by decide)
  have word : "from:".toList ∈ words := by decide
  have asks : Form.asks ⟨none, "from".toList ++ [':'], [' '], run⟩ = _ :=
    Form.asks_labeled rfl rfl (by decide) (Text.forall_mem_of_all (by decide)) blank
  refine ⟨⟨word, blank, by simp, between_run inside⟩, by simp, ?_, asks⟩
  rw [rendered, Form.text, inside.encode]
  simp [between, Text.ofString]

theorem renders_labeled {label gap run tail : Text} {asked : Qualifiers}
    (member : label ++ [':'] ∈ labels) (blank : ∀ char ∈ gap, isBlank char) (inside : IsRun run)
    (ends : atEnd tail)
    (begins : label.head?.any Source.isIdentifierStart)
    (word : ∀ char ∈ label, Source.isIdentifierChar char)
    (asks : Source.answer {} (some label) none (some run) = asked) :
    Renders (label ++ [':'] ++ (gap ++ (between run ++ tail))) asked
      ⟨none, label ++ [':'], gap, run⟩ tail := by
  refine ⟨⟨List.mem_append_left _ member, blank, by simp, between_run inside⟩,
    blank_of_atEnd ends, ?_, ?_⟩
  · have found : labels.any (Text.contains (label ++ [':'] ++ (gap ++ (between run ++ tail)))) =
        true :=
      List.any_eq_true.mpr ⟨_, member, contains_append (by simp) _⟩
    rw [render, found, Form.text, inside.encode]
    simp
  · rw [Form.asks_labeled rfl rfl begins word blank, asks]

theorem render_of_plain (noMark : '"' ∉ text) (noColon : ':' ∉ text) : render text =
    if isVersion text then Text.ofString "from: " ++ between text
    else if text.contains halfOpen then quoteRange halfOpen text
    else if text.contains closed then quoteRange closed text
    else Text.ofString "from: " ++ between text := by
  have noLabel : labels.any (Text.contains text) = false :=
    List.any_eq_false.mpr fun label member => by simp [IsRun.not_contains noColon member]
  have starts : text.startsWith ['"'] = false := by
    cases text with
    | nil => rfl
    | cons char text =>
        have differs : '"' ≠ char := fun same => noMark (same ▸ .head _)
        simp [Text.startsWith, List.isPrefixOf, differs]
  rw [render, noLabel, starts]
  simp

/-- A range is written with its bounds in quotation marks, and without a line feed behind it. -/
theorem renders_quoteRange {run tail operator : Text} (inside : IsRun run) (ends : atEnd tail)
    (word : operator = halfOpen ∨ operator = closed) (found : (run ++ tail).contains operator)
    (rendered : render (run ++ tail) = quoteRange operator (run ++ tail)) :
    ∃ form, Renders (run ++ tail) { version := some run } form [] := by
  have filled : operator ≠ [] := by rcases word with rfl | rfl <;> decide
  have member : operator ∈ words := by rcases word with rfl | rfl <;> decide
  have apart : ∀ char ∈ operator, char ∉ tail := by
    rcases atEnd_cases ends with rfl | rfl
    · simp
    · rcases word with rfl | rfl <;> simp [halfOpen, closed]
  have search : Text.breakAt? operator (run ++ tail) = _ := Text.breakAt?_append apart filled
  rw [Text.contains, search, Option.isSome_map] at found
  obtain ⟨⟨lower, upper⟩, parts⟩ := Option.isSome_iff_exists.mp found
  have same : quoteRange operator (run ++ tail) = quoteRange operator run := by
    have strip : (upper ++ tail).strip = upper.strip := by
      rcases atEnd_cases ends with rfl | rfl
      · rw [List.append_nil]
      · exact Text.strip_append_feed upper
    simp only [quoteRange, search, parts, Option.map_some, strip]
  obtain ⟨form, fits, operator_eq, form_eq⟩ := exists_form_quoteRange inside member found
  have spelled : form.text.filter counts = run := by
    rw [← form_eq, filter_quoteRange, inside.filter]
  have some_run : run ≠ [] := by
    rintro rfl
    simp [Text.breakAt?, filled] at parts
  refine ⟨form, fits, by simp, ?_, ?_⟩
  · rw [rendered, same, form_eq, List.append_nil]
  · rw [Form.asks_range (operator_eq ▸ word) (by rwa [spelled]), spelled]

theorem contains_of_isUpperBound {operator : Text} (accepted : isUpperBound operator text) :
    text.contains operator := by
  unfold isUpperBound at accepted
  split at accepted
  · rename_i rest after
    exact Text.contains_of_infix ⟨[], rest, (Text.after?_eq_some.mp after).symm⟩
  · cases accepted

theorem contains_of_isRange {operator : Text} (accepted : isRange operator text) :
    text.contains operator := by
  obtain ⟨rest, member, bound⟩ := List.any_eq_true.mp accepted
  obtain ⟨lower, rfl, -⟩ := runs_versionRests member
  unfold isUpperBound at bound
  split at bound
  · rename_i behind after
    refine Text.contains_of_infix ⟨lower, behind, ?_⟩
    rw [Text.after?_eq_some.mp after, List.append_assoc]
  · cases bound

theorem renders_range {run tail : Text} (inside : IsRun run) (ends : atEnd tail)
    (sound : ¬ Spoiled (run ++ tail))
    (accepted : isUpperBound halfOpen (run ++ tail) ∨ isRange halfOpen (run ++ tail) ∨
      isRange closed (run ++ tail)) :
    ∃ form, Renders (run ++ tail) { version := some run } form [] := by
  have lacks {char : Char} (member : char ∉ run) (feed : char ≠ '\n') : char ∉ run ++ tail := by
    rcases atEnd_cases ends with rfl | rfl <;> simp [member, feed]
  have rendered := render_of_plain
    (lacks (fun mark => (ne_of_isRunChar (inside _ mark)).1 rfl) (by decide))
    (lacks (fun colon => (ne_of_isRunChar (inside _ colon)).2.2.2 rfl) (by decide))
  by_cases version : isVersion (run ++ tail)
  · rcases atEnd_cases ends with rfl | rfl
    · rw [List.append_nil] at version rendered ⊢
      exact ⟨_, renders_from inside (by rw [rendered, if_pos version])⟩
    · exact absurd ⟨.inl version, by simp⟩ sound
  · rw [if_neg version] at rendered
    by_cases half : (run ++ tail).contains halfOpen
    · rw [if_pos half] at rendered
      exact renders_quoteRange inside ends (.inl rfl) half rendered
    · have whole : (run ++ tail).contains closed := by
        rcases accepted with bound | range | range
        · exact absurd (contains_of_isUpperBound bound) half
        · exact absurd (contains_of_isRange range) half
        · exact contains_of_isRange range
      rw [if_neg half, if_pos whole] at rendered
      exact renders_quoteRange inside ends (.inr rfl) whole rendered

theorem Asks.renders {asked : Qualifiers} (asks : Asks text asked) (sound : ¬ Spoiled text) :
    ∃ form tail, Renders text asked form tail := by
  have labeled (label : Text) {gap run tail : Text} (member : label ++ [':'] ∈ labels)
      (blank : ∀ char ∈ gap, isBlank char) (inside : IsRun run) (ends : atEnd tail)
      (begins : label.head?.any Source.isIdentifierStart) (word : label.all Source.isIdentifierChar)
      (asks : Source.answer {} (some label) none (some run) = asked) :
      Renders (label ++ [':'] ++ (gap ++ (between run ++ tail))) asked
        ⟨none, label ++ [':'], gap, run⟩ tail :=
    renders_labeled member blank inside ends begins (List.all_eq_true.mp word) asks
  cases asks with
  | bare accepted noFeed =>
      have inside := isRun_of_tail noFeed (exists_tail_of_isVersion accepted)
      refine ⟨_, _, renders_from inside ?_⟩
      rw [render_of_plain (fun mark => (ne_of_isRunChar (inside _ mark)).1 rfl)
        (fun colon => (ne_of_isRunChar (inside _ colon)).2.2.2 rfl), if_pos accepted]
  | @quoted version accepted noFeed =>
      have inside : IsRun version := by
        obtain ⟨run, inside, same⟩ := exists_between_of_tail (by simp [between, noFeed])
          (exists_tail_of_isQuotedVersion accepted)
        exact between_injective same ▸ inside
      exact ⟨_, _, renders_from inside (render_between inside)⟩
  | labeled member blank accepted noFeed ends =>
      have inside := isRun_of_between (exists_tail_of_isQuotedVersion accepted) noFeed ends
      simp only [List.mem_cons, List.not_mem_nil, or_false] at member
      rcases member with rfl | rfl
      · exact ⟨_, _, labeled "from".toList (by decide) blank inside ends (by decide)
          (by decide) rfl⟩
      · exact ⟨_, _, labeled "exact".toList (by decide) blank inside ends (by decide)
          (by decide) rfl⟩
  | branch blank accepted noFeed ends =>
      have inside := isRun_of_between
        (exists_tail_of_isQuotedRun isRunChar_of_isBranchChar accepted)
        noFeed ends
      exact ⟨_, _, labeled "branch".toList (by decide) blank inside ends (by decide)
        (by decide) rfl⟩
  | revision blank accepted noFeed ends =>
      have inside := isRun_of_between
        (exists_tail_of_isQuotedRun isRunChar_of_isRevisionChar accepted)
        noFeed ends
      exact ⟨_, _, labeled "revision".toList (by decide) blank inside ends (by decide)
        (by decide) rfl⟩
  | @range run tail accepted noFeed ends =>
      have inside : IsRun run := by
        obtain ⟨other, rest, other_inside, rest_ends, same⟩ := exists_tail_of_range accepted
        exact eq_of_append_tail same noFeed (between_run other_inside) ends rest_ends ▸ other_inside
      obtain ⟨form, renders⟩ := renders_range inside ends sound accepted
      exact ⟨form, _, renders⟩

end Asking

/-- The first thing that a requirement asks for is the only one. -/
theorem Asks.single {text : Text} {asked : Qualifiers} (asks : Asks text asked) :
    [asked.version, asked.branch, asked.commit].countP Option.isSome = 1 := by
  cases asks <;> rfl

end Requirement

section Remote

variable {url tail : Text} {form : Requirement.Form}

def spacedRow (url : Text) (form : Requirement.Form) (tail : Text) : Row :=
  ⟨(remoteRow url form).entries, cellsOf .code tail⟩

theorem cells_spacedRow :
    (spacedRow url form tail).cells = (remoteRow url form).cells ++ cellsOf .code tail := by
  simp [spacedRow, Row.cells, remoteRow]

theorem valid_spacedRow (noFeed : '\n' ∉ url) (fits : form.Fits)
    (blank : ∀ char ∈ tail, isBlank char) : (spacedRow url form tail).Valid := by
  obtain ⟨solid, padding, parted, -⟩ := valid_remoteRow noFeed fits
  refine ⟨solid, padding, parted, fun cell member => ?_⟩
  obtain ⟨kind, inside⟩ := Kind.mem_cellsOf.mp member
  simp [Cell.isPadding, Cell.isSignificant, Cell.isCode, kind, blank _ inside]

theorem sturdy_spaced (noFeed : '\n' ∉ url) (fits : form.Fits)
    (blank : ∀ char ∈ tail, isBlank char) :
    Sturdy (packageCells (spacedRow url form tail).cells) := by
  refine sturdy_package (valid_spacedRow noFeed fits blank).balanced ?_ fun cell member => ?_
  · rw [cells_spacedRow]
    exact (firm_remoteRow noFeed fits).append_plain fun char member =>
      (isPlain_of_isBlank (blank char member)).1
  · rw [cells_spacedRow] at member
    rcases List.mem_append.mp member with inside | inside
    · exact silent_remoteRow noFeed fits cell inside
    · simp [(Kind.mem_cellsOf.mp inside).1]

theorem read_qualifiers_spaced (noFeed : '\n' ∉ url) (fits : form.Fits)
    (blank : ∀ char ∈ tail, isBlank char) :
    Source.read Source.qualifiers (spacedRow url form tail).cells = form.asks := by
  have valid := valid_spacedRow noFeed fits blank
  have pieces : Source.piecesOf (spacedRow url form tail).cells =
      [phraseCells "url:".toList [' '] url, form.cells] := Source.piecesOf_row valid
  rw [Source.read_qualifiers valid.balanced, pieces, List.map_cons, List.map_singleton,
    Source.argumentParts_url, List.foldl_cons, List.foldl_cons, List.foldl_nil]
  rfl

end Remote

/-- A text of cells without open literals has no open literals. -/
theorem Kind.Clear.terminates {cells : List Cell} (clear : Kind.Clear cells) :
    Kind.terminates (chars cells) := by
  have same := Scans.closesFrom clear
  rwa [List.append_nil] at same

namespace Requirement

/-- An accepted requirement is not empty. -/
theorem ne_nil_of_isValid {text : Text} (valid : isValid text) : text ≠ [] := by
  rintro rfl
  revert valid
  decide

end Requirement

namespace Dependency

theorem exists_ofFields? {fields : DependencyFields} (addressed : fields.isAddressed = true) :
    ∃ dependency, ofFields? fields = some dependency ∧
      dependency.toDependencyFields = fields.named :=
  ⟨_, dif_pos addressed, rfl⟩

def ofVersion? (url version : Text) : Option Dependency :=
  ofFields? { url := some url, version := some version }

section Versions

variable {url version : Text} (filled : url ≠ [])
include filled

theorem isAddressed_url (name : Text) (asked : Qualifiers) : DependencyFields.isAddressed
    { name := name, url := some url, version := asked.version, branch := asked.branch,
      commit := asked.commit } = true := by
  have named : filled? (some url) = some url := filled?_of_filled filled
  have empty : filled? none = none := rfl
  simp only [DependencyFields.isAddressed, named, empty]
  rfl

theorem exists_ofVersion? (asking : version ≠ []) :
    ∃ dependency, ofVersion? url version = some dependency ∧
    dependency.declaration =
      ".package(url: ".toList ++ Literal.encode url ++ [',', ' '] ++
        Requirement.render version ++ [')'] := by
  obtain ⟨dependency, made, fields⟩ :=
    exists_ofFields? (isAddressed_url filled [] { version := some version })
  have empty : filled? none = none := rfl
  have asked : filled? (some version) = some version := filled?_of_filled asking
  refine ⟨dependency, made, ?_⟩
  simp [declaration, requirement, fields, DependencyFields.named, empty, asked]

open Requirement in
theorem exists_declared (noFeed : '\n' ∉ url) (sound : ¬ Spoiled version) {asked : Qualifiers}
    (asks : Asks version asked) {text : Text} (written : text =
      ".package(url: ".toList ++ Literal.encode url ++ [',', ' '] ++ render version ++ [')']) :
    Kind.terminates text ∧ Balanced (Source.ofText text).cells ∧
      ∃ declared, ofDeclaration? text = some declared ∧ declared.url = some url ∧
        declared.version = asked.version ∧ declared.branch = asked.branch ∧
          declared.commit = asked.commit := by
  obtain ⟨form, tail, renders⟩ := asks.renders sound
  have valid := valid_spacedRow noFeed renders.fits renders.blank
  have sturdy := sturdy_spaced noFeed renders.fits renders.blank
  have named : filled? (some url) = some url := filled?_of_filled filled
  obtain ⟨urlValue, nameValue⟩ :=
    Source.stringValue?_remote renders.fits (Source.piecesOf_row valid)
  obtain ⟨declared, made, fields⟩ := exists_ofFields? (isAddressed_url filled [] asked)
  have spelled : text = chars (packageCells (spacedRow url form tail).cells) := by
    rw [written, renders.render_eq, cells_spacedRow]
    simp [packageCells, remoteRow, Row.cells, phraseCells, form.chars_cells]
  rw [spelled, Source.ofText_chars sturdy.firm.clear, ofDeclaration?_chars sturdy]
  refine ⟨sturdy.firm.clear.terminates, sturdy.solid.unbroken.balanced, declared, ?_, ?_⟩
  · rw [Source.read_dependencyIn? valid.balanced, urlValue, nameValue,
      read_qualifiers_spaced noFeed renders.fits renders.blank, renders.asks_eq]
    simp only [named]
    exact made
  · simp [fields, DependencyFields.named]

end Versions

end Dependency

open Requirement in
/--
A dependency on an accepted version of a URL is written as a declaration of the
URL that asks for the version and nothing else, unless a line feed spoils the version.
-/
theorem declares_of_isValid {url version : Text} (filled : url ≠ []) (noFeed : '\n' ∉ url)
    (valid : isValid version) (sound : ¬ Spoiled version) :
    ∃ dependency, Dependency.ofVersion? url version = some dependency ∧
      Kind.terminates dependency.declaration ∧
        Balanced (Source.ofText dependency.declaration).cells ∧
      ∃ declared, Dependency.ofDeclaration? dependency.declaration = some declared ∧
        declared.url = some url ∧
        [declared.version, declared.branch, declared.commit].countP Option.isSome = 1 ∧
        (∃ asked, Asks version asked) ∧ ∀ asked, Asks version asked →
          declared.version = asked.version ∧ declared.branch = asked.branch ∧
            declared.commit = asked.commit := by
  obtain ⟨dependency, made, written⟩ :=
    Dependency.exists_ofVersion? filled (ne_nil_of_isValid valid)
  obtain ⟨asked, asks⟩ := exists_asks valid sound
  obtain ⟨terminates, balanced, declared, reads, address, version_eq, branch_eq, commit_eq⟩ :=
    Dependency.exists_declared filled noFeed sound asks written
  refine ⟨dependency, made, terminates, balanced, declared, reads, address, ?_, ⟨asked, asks⟩,
    fun other others => ?_⟩
  · rw [version_eq, branch_eq, commit_eq]
    exact asks.single
  · obtain ⟨-, -, again, again_reads, -, same⟩ :=
      Dependency.exists_declared filled noFeed sound others written
    obtain rfl : declared = again := Option.some.inj (reads.symm.trans again_reads)
    exact same

/-- For example, an upper bound with a dotted suffix and a line feed behind it. -/
theorem declares_upperBound :
    ∃ dependency, Dependency.ofVersion? "https://h/o/foo".toList "..<2.0.0-rc.1\n".toList =
      some dependency ∧
      Kind.terminates dependency.declaration ∧
        Balanced (Source.ofText dependency.declaration).cells ∧
      ∃ declared, Dependency.ofDeclaration? dependency.declaration = some declared ∧
        declared.url = some "https://h/o/foo".toList ∧
        [declared.version, declared.branch, declared.commit].countP Option.isSome = 1 ∧
        (∃ asked, Requirement.Asks "..<2.0.0-rc.1\n".toList asked) ∧
        ∀ asked, Requirement.Asks "..<2.0.0-rc.1\n".toList asked →
          declared.version = asked.version ∧ declared.branch = asked.branch ∧
            declared.commit = asked.commit :=
  declares_of_isValid (by decide) (by decide) (by decide +kernel)
    (fun spoiled => absurd spoiled.1 (by decide +kernel))

namespace Kind

/-- A literal of one line is not terminated where a line feed comes before its quotation mark. -/
theorem closesFrom_line_feed {run : Text} (inside : Requirement.IsRun run) (rest : Text) :
    closesFrom .line (run ++ '\n' :: rest) = false := by
  induction run with
  | nil => rfl
  | cons char run ih =>
      obtain ⟨noMark, noSlash, noFeed, -⟩ := Requirement.ne_of_isRunChar (inside char (.head _))
      have next := ih fun other member => inside other (.tail _ member)
      have reads : Reads .line [char] (run ++ '\n' :: rest) .string .line :=
        .lineChar noMark noFeed fun escape => absurd escape (by assumption)
      exact reads.closesFrom.trans next

theorem closesFrom_code_feed {run : Text} (inside : Requirement.IsRun run) (rest : Text) :
    closesFrom .code ('"' :: (run ++ '\n' :: rest)) = false := by
  have noMark : ∀ tail, run ++ '\n' :: rest ≠ '"' :: tail := by
    cases run with
    | nil => simp
    | cons char run => simp [(Requirement.ne_of_isRunChar (inside char (.head _))).1]
  have opens : Reads .code ['"'] (run ++ '\n' :: rest) .string .line :=
    .openLine fun tail => noMark _
  exact opens.closesFrom.trans (closesFrom_line_feed inside rest)

end Kind

open Requirement in
/-- A line feed behind a version that stands alone breaks the literal of the declaration. -/
theorem not_terminates_of_feed {url version : Text} (filled : url ≠ []) (noFeed : '\n' ∉ url)
    (accepted : isVersion version) (feed : '\n' ∈ version) :
    ∃ dependency, Dependency.ofVersion? url version = some dependency ∧
      Kind.terminates dependency.declaration = false := by
  obtain ⟨run, tail, inside, ends, rfl⟩ := exists_tail_of_isVersion accepted
  obtain rfl : tail = ['\n'] := (atEnd_cases ends).resolve_left fun empty =>
    between_run inside (by simpa [empty] using feed)
  obtain ⟨dependency, made, written⟩ := Dependency.exists_ofVersion? filled
    (by simp : run ++ ['\n'] ≠ [])
  have rendered : render (run ++ ['\n']) = Text.ofString "from: " ++ between (run ++ ['\n']) := by
    rw [render_of_plain, if_pos accepted]
    · simpa using fun mark => (ne_of_isRunChar (inside _ mark)).1 rfl
    · simpa using fun colon => (ne_of_isRunChar (inside _ colon)).2.2.2 rfl
  refine ⟨dependency, made, ?_⟩
  have front : Firm (cellsOf .code ".package(".toList ++
      (phraseCells "url:".toList [' '] url ++ cellsOf .code ", from:".toList)) := by
    refine ((sturdy_url noFeed).firm.append_plain ?_).plain_append ?_ <;>
      simp only [Kind.bland_cons] <;>
      exact Text.forall_mem_of_all (by decide)
  have scanned := Kind.Scans.closesFrom
    (front (' ' :: '"' :: (run ++ '\n' :: ['"', ')'])) (by simp))
  have closes : Kind.closesFrom .code (' ' :: '"' :: (run ++ '\n' :: ['"', ')'])) = false :=
    Kind.closesFrom_code_feed inside _
  rw [closes] at scanned
  rw [written, rendered, Kind.terminates, ← scanned]
  simp [phraseCells, between, Text.ofString]

end SwiftWorkspace
