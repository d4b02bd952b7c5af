import SwiftWorkspace.Proofs.Faithful

/-!
# Joined declarations

Pieces that can stand in any row are the elements of the text that they make up with a comma and a
blank between them.  The declarations of dependencies are such pieces, and each of them is read as
the dependency that it was written for.
-/

namespace SwiftWorkspace

open Kind (Firm chars cellsOf)

theorem Text.join_cons (separator first : Text) (rest : List Text) :
    Text.join separator (first :: rest) = first ++ rest.flatMap (separator ++ ·) := by
  induction rest generalizing first with
  | nil => simp [join]
  | cons second rest ih =>
      rw [join, List.intercalate_cons_cons, ← join, ih, List.flatMap_cons]
      simp

def joinedRow : List (List Cell) → Row
  | [] => ⟨[], []⟩
  | piece :: pieces => ⟨([], piece) :: pieces.map (cellsOf .code [',', ' '], ·), []⟩

section Joined

variable {pieces : List (List Cell)}

theorem chars_joinedRow :
    chars (joinedRow pieces).cells = Text.join [',', ' '] (pieces.map chars) := by
  cases pieces with
  | nil => rfl
  | cons piece pieces =>
      have tail : chars (Row.flat (pieces.map (cellsOf .code [',', ' '], ·))) =
          (pieces.map chars).flatMap ([',', ' '] ++ ·) := by
        induction pieces with
        | nil => rfl
        | cons second pieces ih => simp [ih]
      simp [joinedRow, Row.cells, Text.join_cons, tail]

theorem pieces_joinedRow : (joinedRow pieces).pieces = pieces := by
  cases pieces <;> simp [joinedRow, Row.pieces, Function.comp_def]

theorem valid_joinedRow (solid : ∀ piece ∈ pieces, Solid piece) : (joinedRow pieces).Valid := by
  cases pieces with
  | nil =>
      exact ⟨by simp [joinedRow], by simp [joinedRow], by simp [joinedRow], by simp [joinedRow]⟩
  | cons piece pieces =>
      have padding : ∀ cell ∈ cellsOf .code [',', ' '], cell.isPadding := by decide
      have comma : ∃ cell ∈ cellsOf .code [',', ' '], cell.isComma :=
        ⟨commaCell, by decide, by decide⟩
      refine ⟨?_, ?_, ?_, by simp [joinedRow]⟩
      · simpa [joinedRow] using solid
      · simpa [joinedRow] using fun _ _ => padding
      · simpa [joinedRow] using fun _ _ => comma

section Sturdy

variable (sturdy : ∀ piece ∈ pieces, Sturdy piece)
include sturdy

/-- Behind a piece a comma keeps the quotation marks of the next one apart. -/
theorem firm_flat : Firm (Row.flat (pieces.map (cellsOf .code [',', ' '], ·))) := by
  induction pieces with
  | nil => exact fun rest _ => .here _ _
  | cons piece pieces ih =>
      have here : Firm (cellsOf .code [',', ' '] ++ piece) :=
        (sturdy piece (.head _)).firm.plain_append (by simp)
      have there := ih fun other member => sturdy other (.tail _ member)
      rw [List.map_cons, Row.flat_cons, ← List.append_assoc]
      refine here.append there ?_
      cases pieces <;> simp [cellsOf]

theorem clear_joinedRow : Kind.Clear (joinedRow pieces).cells := by
  cases pieces with
  | nil => exact .nil
  | cons piece pieces =>
      have behind := firm_flat fun other member => sturdy other (.tail _ member)
      have whole : Firm (piece ++ Row.flat (pieces.map (cellsOf .code [',', ' '], ·))) := by
        refine (sturdy piece (.head _)).firm.append behind ?_
        cases pieces <;> simp [cellsOf]
      simpa [joinedRow, Row.cells] using whole.clear

/-- Joined pieces are taken apart again. -/
theorem elementTexts_join :
    Source.elementTexts (Text.join [',', ' '] (pieces.map chars)) = pieces.map chars := by
  have alone := Source.ofText_chars (clear_joinedRow sturdy)
  rw [← chars_joinedRow, Source.elementTexts_row
    (valid_joinedRow fun piece member => (sturdy piece member).solid) alone, pieces_joinedRow]

end Sturdy

end Joined

namespace Dependency

/-- A dependency without a version whose other parts can be written on one line. -/
structure Unversioned (dependency : Dependency) : Prop where
  url : ∀ url ∈ dependency.url, '\n' ∉ url
  path : ∀ path ∈ dependency.path, '\n' ∉ path
  branch : ∀ branch ∈ dependency.branch, '\n' ∉ branch
  commit : ∀ commit ∈ dependency.commit, '\n' ∉ commit
  version : filled? dependency.version = none

/-- What the declaration of a dependency without a version asks for. -/
def asked (dependency : Dependency) : Qualifiers :=
  match filled? dependency.path, filled? dependency.branch, filled? dependency.commit with
  | some _, _, _ => {}
  | none, some branch, _ => { branch := some branch }
  | none, none, some commit => { commit := some commit }
  | none, none, none => { version := some "1.0.0".toList }

/-- The parts of the dependency that is read from the declaration of another one. -/
def declaredFields (dependency : Dependency) : DependencyFields where
  name := Reference.canonicalName dependency.address
  url := filled? dependency.url
  path := filled? dependency.path
  version := dependency.asked.version
  branch := dependency.asked.branch
  commit := dependency.asked.commit

variable {dependency : Dependency}

theorem exists_form_asks (plain : dependency.Unversioned)
    (noPath : filled? dependency.path = none) :
    ∃ form : Requirement.Form, form.Fits ∧ dependency.requirement = form.text ∧
      form.asks = dependency.asked := by
  have blank : ∀ char ∈ [' '], isBlank char := Text.forall_mem_of_all (by decide)
  have fits {word upper : Text} (member : word ∈ Requirement.words) (noFeed : '\n' ∉ upper) :
      (⟨none, word, [' '], upper⟩ : Requirement.Form).Fits := ⟨member, blank, by simp, noFeed⟩
  have asks (label upper : Text) (begins : label.head?.any Source.isIdentifierStart)
      (inside : ∀ char ∈ label, Source.isIdentifierChar char) :
      Requirement.Form.asks ⟨none, label ++ [':'], [' '], upper⟩ =
        Source.answer {} (some label) none (some upper) :=
    Requirement.Form.asks_labeled rfl rfl begins inside blank
  cases branch : filled? dependency.branch with
  | some name =>
      refine ⟨_, fits (by decide : "branch:".toList ∈ Requirement.words)
        (plain.branch _ (mem_of_filled? branch).1),
        by simp [requirement, plain.version, branch]; rfl, ?_⟩
      rw [asked, noPath, branch]
      exact asks "branch".toList name (by decide) (Text.forall_mem_of_all (by decide))
  | none =>
      cases commit : filled? dependency.commit with
      | some name =>
          refine ⟨_, fits (by decide : "revision:".toList ∈ Requirement.words)
            (plain.commit _ (mem_of_filled? commit).1),
            by simp [requirement, plain.version, branch, commit]; rfl, ?_⟩
          rw [asked, noPath, branch, commit]
          exact asks "revision".toList name (by decide) (Text.forall_mem_of_all (by decide))
      | none =>
          refine ⟨_, fits (by decide : "from:".toList ∈ Requirement.words)
            (by decide : '\n' ∉ "1.0.0".toList),
            by simp [requirement, plain.version, branch, commit]; decide, ?_⟩
          rw [asked, noPath, branch, commit]
          exact asks "from".toList _ (by decide) (Text.forall_mem_of_all (by decide))

structure Declares (dependency : Dependency) (piece : List Cell) : Prop where
  chars : chars piece = dependency.declaration
  sturdy : Sturdy piece
  reads : ∃ declared, Source.read Source.dependencyIn? piece = some declared ∧
    declared.toDependencyFields = dependency.declaredFields

theorem declares_local (plain : dependency.Unversioned) {address : Text}
    (path : filled? dependency.path = some address) : ∃ piece, dependency.Declares piece := by
  have noUrl : filled? dependency.url = none := by
    simpa [DependencyFields.isAddressed, path] using dependency.addressed
  obtain ⟨member, filled⟩ := mem_of_filled? path
  have noFeed := plain.path _ member
  have same := filled?_of_filled filled
  have empty : filled? none = none := rfl
  obtain ⟨pathValue, urlValue, nameValue⟩ := Source.stringValue?_localRow noFeed
  have addressed : DependencyFields.isAddressed { path := some address } = true := by
    simp only [DependencyFields.isAddressed, same, empty]
    rfl
  obtain ⟨declared, made, fields⟩ := exists_ofFields? addressed
  refine ⟨packageCells (localRow address).cells, ?_, sturdy_local noFeed, declared, ?_, ?_⟩
  · simp [declaration, path, packageCells, localRow, Row.cells, phraseCells]
  · rw [Source.read_dependencyIn? (valid_localRow noFeed).balanced, pathValue, urlValue, nameValue]
    simp only [same, empty]
    exact made
  · simp [fields, DependencyFields.named, declaredFields, asked, DependencyFields.address, path,
      noUrl, same, empty]

theorem declares_remote (plain : dependency.Unversioned) {address : Text}
    (url : filled? dependency.url = some address) : ∃ piece, dependency.Declares piece := by
  have noPath : filled? dependency.path = none := by
    simpa [DependencyFields.isAddressed, url] using dependency.addressed
  obtain ⟨member, filled⟩ := mem_of_filled? url
  have noFeed := plain.url _ member
  have same := filled?_of_filled filled
  obtain ⟨form, fits, requirement, asks⟩ := exists_form_asks plain noPath
  have valid : (spacedRow address form []).Valid := valid_spacedRow noFeed fits (by simp)
  obtain ⟨urlValue, nameValue⟩ := Source.stringValue?_remote fits (Source.piecesOf_row valid)
  obtain ⟨declared, made, fields⟩ := exists_ofFields? (isAddressed_url filled [] dependency.asked)
  refine ⟨packageCells (spacedRow address form []).cells, ?_, sturdy_spaced noFeed fits (by simp),
    declared, ?_, ?_⟩
  · rw [cells_spacedRow]
    simp [declaration, noPath, packageCells, remoteRow, Row.cells, phraseCells, form.chars_cells,
      requirement, Option.mem_def.mp member, cellsOf]
  · rw [Source.read_dependencyIn? valid.balanced, urlValue, nameValue,
      read_qualifiers_spaced noFeed fits (by simp), asks]
    simp only [same]
    exact made
  · simp [fields, DependencyFields.named, declaredFields, DependencyFields.address,
      url, noPath, same]

/-- Every dependency without a version is written as a piece that declares it. -/
theorem Unversioned.declares (plain : dependency.Unversioned) :
    ∃ piece, dependency.Declares piece := by
  cases path : filled? dependency.path with
  | some address => exact declares_local plain path
  | none =>
      cases url : filled? dependency.url with
      | some address => exact declares_remote plain url
      | none =>
          have addressed := dependency.addressed
          simp [DependencyFields.isAddressed, path, url] at addressed

theorem exists_pieces {dependencies : List Dependency}
    (plain : ∀ dependency ∈ dependencies, dependency.Unversioned) :
    ∃ pieces : List (List Cell), (∀ piece ∈ pieces, Sturdy piece) ∧
      dependencies.map declaration = pieces.map Kind.chars := by
  induction dependencies with
  | nil => exact ⟨[], by simp, rfl⟩
  | cons dependency dependencies ih =>
      obtain ⟨piece, declares⟩ := (plain dependency (.head _)).declares
      obtain ⟨pieces, sturdy, texts⟩ := ih fun other member => plain other (.tail _ member)
      refine ⟨piece :: pieces, ?_, by simp [declares.chars, texts]⟩
      simpa [declares.sturdy] using sturdy

end Dependency

/--
Declarations without versions read back: joined in a list of any length they are taken apart again,
and each of them is read as a dependency with the same address, the name of that address, and the
requirement that was written.
-/
theorem joined_declarations_read_back {dependencies : List Dependency}
    (plain : ∀ dependency ∈ dependencies, dependency.Unversioned) :
    Source.elementTexts (Text.join [',', ' '] (dependencies.map Dependency.declaration)) =
        dependencies.map Dependency.declaration ∧
      ∀ dependency ∈ dependencies, ∃ declared,
        Dependency.ofDeclaration? dependency.declaration = some declared ∧
          declared.toDependencyFields = dependency.declaredFields := by
  constructor
  · obtain ⟨pieces, sturdy, texts⟩ := Dependency.exists_pieces plain
    rw [texts, elementTexts_join sturdy]
  · intro dependency member
    obtain ⟨piece, written, sturdy, reads⟩ := (plain dependency member).declares
    rwa [← written, Dependency.ofDeclaration?_chars sturdy]

/-- A dependency whose URL and branch hold marks, brackets and separators. -/
def markedRemote : Dependency :=
  ⟨{ url := some "h/\"), [/*\\".toList, branch := some "a: \"b\", //".toList }, by decide⟩

/-- A dependency whose path ends in a backslash. -/
def markedLocal : Dependency := ⟨{ path := some "..\\\"],\\".toList }, by decide⟩

theorem joined_marked_read_back :
    (∀ dependency ∈ [markedRemote, markedLocal, markedRemote], dependency.Unversioned) ∧
      Source.elementTexts (Text.join [',', ' ']
          ([markedRemote, markedLocal, markedRemote].map Dependency.declaration)) =
        [markedRemote, markedLocal, markedRemote].map Dependency.declaration ∧
      ∀ dependency ∈ [markedRemote, markedLocal, markedRemote], ∃ declared,
        Dependency.ofDeclaration? dependency.declaration = some declared ∧
          declared.toDependencyFields = dependency.declaredFields := by
  have remote : markedRemote.Unversioned := ⟨by decide, by decide, by decide, by decide, rfl⟩
  have here : markedLocal.Unversioned := ⟨by decide, by decide, by decide, by decide, rfl⟩
  have plain : ∀ dependency ∈ [markedRemote, markedLocal, markedRemote],
      dependency.Unversioned := by
    simp [remote, here]
  exact ⟨plain, joined_declarations_read_back plain⟩

end SwiftWorkspace
