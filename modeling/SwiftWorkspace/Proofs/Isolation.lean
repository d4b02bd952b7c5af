import SwiftWorkspace.Proofs.Boundaries
import SwiftWorkspace.Proofs.Declarations
import SwiftWorkspace.Proofs.Outline

/-!
# Reading in isolation

What is inside of brackets, and every element of it, begins and ends at a boundary of tokens, so
that it is read on its own as it is in the whole text.  This holds in every text, terminated or not:
an element ends in a literal or in code, and what stands next to it is padding or a bracket.
-/

namespace SwiftWorkspace

open Kind (Seam chars)

namespace Kind

variable {first last : List Cell}

theorem seam_of_code_behind {cell : Cell} (code : cell.kind = .code) :
    Seam (first ++ [cell]) last := by
  intro left found _ _ _
  obtain rfl : cell = left := by simpa using found
  exact code

theorem seam_of_code_ahead {cell : Cell} (code : cell.kind = .code) :
    Seam first (cell :: last) := by
  intro left _ right found same
  obtain rfl : cell = right := by simpa using found
  exact same.trans code

/-- Padding and an element have no comment and no literal in common. -/
theorem code_of_padding {padding significant : Cell} (outside : padding.isPadding)
    (inside : significant.isSignificant)
    (same : padding.kind = significant.kind) : padding.kind = .code := by
  have noString := (Cell.kind_of_isPadding outside).1
  cases kind : padding.kind with
  | code => rfl
  | string => exact absurd kind noString
  | comment => simp [Cell.isSignificant, Cell.isCode, ← same, kind] at inside

end Kind

namespace Row

variable {row : Row} {front back : List (List Cell × List Cell)} {padding piece rest : List Cell}

theorem seam_before (valid : Valid ⟨front ++ (padding, piece) :: back, rest⟩) (more : List Cell) :
    Seam (flat front ++ padding) (piece ++ more) := by
  obtain ⟨head, found, significant⟩ := (valid.solid (padding, piece) (by simp)).first
  intro left last right ahead same
  obtain rfl : right = head := by simp_all
  have inside : left ∈ padding := by
    cases padding with
    | nil =>
        cases front with
        | nil => simp at last
        | cons entry front =>
            obtain ⟨cell, member, -⟩ := valid.parted ([], piece) (by simp)
            simp at member
    | cons cell padding =>
        refine List.mem_of_mem_getLast? ?_
        simpa [List.getLast?_append] using last
  exact Kind.code_of_padding (valid.padding (padding, piece) (by simp) left inside) significant same

theorem seam_behind (valid : Valid ⟨front ++ (padding, piece) :: back, rest⟩) :
    Seam piece (flat back ++ rest) := by
  obtain ⟨tail, found, significant⟩ := (valid.solid (padding, piece) (by simp)).last
  intro left last right ahead same
  obtain rfl : left = tail := by simp_all
  have outside : right.isPadding := by
    cases back with
    | nil => exact valid.rest right (List.mem_of_mem_head? (by simpa using ahead))
    | cons entry back =>
        obtain ⟨cell, member, -⟩ := valid.parted entry (by cases front <;> simp)
        refine valid.padding entry (by simp) right (List.mem_of_mem_head? ?_)
        cases entry_eq : entry.1 with
        | nil => simp [entry_eq] at member
        | cons head padding => simpa [entry_eq] using ahead
  rw [same]
  exact Kind.code_of_padding outside significant same.symm

end Row

namespace Source

theorem ofText_inside {text : Text} {frame : Frame} {inner : List Cell}
    (whole : ofText text = frame.fill inner) : ofText (chars inner) = ⟨inner⟩ := by
  have cells : (ofText text).cells =
      (frame.front ++ [frame.opening]) ++ (inner ++ frame.closing :: frame.back) := by
    simp [whole, Frame.fill]
  have behind := (ofText_cut cells (Kind.seam_of_code_behind frame.pairs.opening_code)).2
  exact (ofText_cut (congrArg Source.cells behind)
    (Kind.seam_of_code_ahead frame.pairs.closing_code)).1

theorem ofText_piece {row : Row} (valid : row.Valid)
    (alone : ofText (chars row.cells) = ⟨row.cells⟩)
    {piece : List Cell} (member : piece ∈ row.pieces) : ofText (chars piece) = ⟨piece⟩ := by
  obtain ⟨entries, rest⟩ := row
  obtain ⟨⟨padding, piece⟩, entry, rfl⟩ := List.mem_map.mp member
  obtain ⟨front, back, rfl⟩ := List.append_of_mem entry
  have cells : (ofText (chars (Row.cells ⟨front ++ (padding, piece) :: back, rest⟩))).cells =
      (Row.flat front ++ padding) ++ (piece ++ (Row.flat back ++ rest)) := by
    rw [alone]
    simp [Row.cells]
  have behind := (ofText_cut cells (Row.seam_before valid _)).2
  exact (ofText_cut (congrArg Source.cells behind) (Row.seam_behind valid)).1

end Source

/--
What is read of the dependencies in their place is what is read of them in isolation: the text of
the array has the same elements, each of them declares on its own what it declares there, and so
the dependencies of the manifest are known from the text of the array alone.
-/
theorem dependencies_in_isolation {text : Text} {span : Span}
    (found : (Source.ofText text).dependenciesSpan? = some span) :
    Source.elementTexts ((Source.ofText text).textIn span) =
        ((Source.ofText text).elements span).map (Source.ofText text).textIn ∧
      (∀ element ∈ (Source.ofText text).elements span, (Source.ofText text).dependencyIn? element =
        Dependency.ofDeclaration? ((Source.ofText text).textIn element)) ∧
      (Manifest.ofText text).dependencies =
        (Source.elementTexts ((Source.ofText text).textIn span)).filterMap
          Dependency.ofDeclaration? := by
  obtain ⟨frame, inner, whole, balanced, rfl⟩ := Source.exists_frame found
  have alone := Source.ofText_inside whole
  obtain ⟨row, valid, rfl⟩ := Row.exists_of_balanced balanced
  have stands : (Source.ofText text).Shows (frame.front.length + 1) row.cells :=
    whole ▸ frame.shows_fill _
  have content : (Source.ofText text).textIn (frame.span row.cells) = chars row.cells :=
    stands.textIn
  have texts : ((Source.ofText text).elements (frame.span row.cells)).map
      (Source.ofText text).textIn =
      row.pieces.map chars := Source.map_textIn_elements valid stands
  have split : Source.elementTexts ((Source.ofText text).textIn (frame.span row.cells)) =
      ((Source.ofText text).elements (frame.span row.cells)).map (Source.ofText text).textIn := by
    rw [content, Source.elementTexts_row valid alone, texts]
  have declared : ((Source.ofText text).elements (frame.span row.cells)).map
      (Source.ofText text).dependencyIn? =
      ((Source.ofText text).elements (frame.span row.cells)).map fun element =>
        Dependency.ofDeclaration? ((Source.ofText text).textIn element) := by
    have each : ∀ piece ∈ row.pieces, Source.read Source.dependencyIn? piece =
        Dependency.ofDeclaration? (chars piece) := by
      intro piece member
      have solid : Solid piece := by
        obtain ⟨entry, inside, rfl⟩ := List.mem_map.mp member
        exact valid.solid entry inside
      exact (Dependency.ofDeclaration?_of_alone solid (Source.ofText_piece valid alone member)).symm
    have there : ((Source.ofText text).elements (frame.span row.cells)).map
        (Source.ofText text).dependencyIn? =
        row.pieces.map (Source.read Source.dependencyIn?) :=
          Source.local_dependencyIn?.map_elements valid stands
    have here := congrArg (List.map Dependency.ofDeclaration?) texts
    rw [List.map_map, List.map_map] at here
    rw [there, List.map_congr_left each]
    exact here.symm
  have pointwise := List.map_inj_left.mp declared
  refine ⟨split, pointwise, ?_⟩
  have listed : (Manifest.ofText text).dependencies = ((Source.ofText text).elements
      (frame.span row.cells)).filterMap (Source.ofText text).dependencyIn? := by
    simp only [Manifest.ofText, Manifest.ofSource, Source.dependencies, found]
  rw [listed, split, List.filterMap_map]
  exact List.filterMap_congr pointwise

/-- A manifest behind an unterminated literal, whose last dependency ends in another one. -/
def unterminatedManifest : Text :=
  ("let s = \"open [\nlet p = Package(dependencies: [/* , */ .package(url: \"h/a\", \"1\" ..< \"2\"), " ++
    "\"x, .package(path: \"b\" // ]\n])").toList

theorem unterminated_dependencies_in_isolation :
    (Source.ofText unterminatedManifest).dependenciesSpan? = some ⟨47, 118⟩ ∧
      Source.elementTexts ((Source.ofText unterminatedManifest).textIn ⟨47, 118⟩) =
        ((Source.ofText unterminatedManifest).elements ⟨47, 118⟩).map
          (Source.ofText unterminatedManifest).textIn ∧
      (∀ element ∈ (Source.ofText unterminatedManifest).elements ⟨47, 118⟩,
        (Source.ofText unterminatedManifest).dependencyIn? element =
          Dependency.ofDeclaration? ((Source.ofText unterminatedManifest).textIn element)) ∧
      (Manifest.ofText unterminatedManifest).dependencies =
        (Source.elementTexts ((Source.ofText unterminatedManifest).textIn ⟨47, 118⟩)).filterMap
          Dependency.ofDeclaration? := by
  have found : (Source.ofText unterminatedManifest).dependenciesSpan? = some ⟨47, 118⟩ := by
    decide +kernel
  exact ⟨found, dependencies_in_isolation found⟩

end SwiftWorkspace
