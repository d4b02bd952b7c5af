import Mathlib.Data.List.TakeWhile
import SwiftWorkspace.Project.Index
import SwiftWorkspace.Proofs.Ways

/-!
# Paths from outside and paths of texts

A path from outside whose code points are all characters is the path that the text writes.  It
is joined and collapsed like that path and resolved to the same root.
-/

namespace SwiftWorkspace

namespace CodePoints

variable {text other : Text}

theorem ofText_inj : ofText text = ofText other ↔ text = other := ⟨ofText_injective, congrArg _⟩

theorem ofText_eq_nil : ofText text = [] ↔ text = [] := List.map_eq_nil_iff

theorem takeWhile_isChar_ofText (text : Text) : (ofText text).takeWhile isChar = ofText text :=
  List.takeWhile_eq_self_iff.mpr (List.forall_mem_map.mpr fun _ _ => rfl)

theorem filterMap_ofText (text : Text) : (ofText text).filterMap CodePoint.char? = text := by
  rw [ofText, List.filterMap_map]
  exact List.filterMap_some

theorem splitOn_ofText (char : Char) (text : Text) :
    (ofText text).splitOn (.ofChar char) = (text.splitOn char).map ofText := by
  rw [List.splitOn_eq_splitOnP, List.splitOn_eq_splitOnP, ofText]
  induction text with
  | nil => rfl
  | cons first text ih =>
      rw [List.map_cons, List.splitOnP_cons_eq_if_modifyHead,
        List.splitOnP_cons_eq_if_modifyHead, ih]
      by_cases same : first = char
      · simp [same, ofText]
      · simp only [beq_iff_eq, CodePoint.ofChar.injEq, same, if_false]
        cases text.splitOnP (· == char) <;> rfl

/-- Texts are followed like their code points. -/
theorem foldl_followBy_ofText (segments kept : List Text) :
    (segments.map ofText).foldl (Path.followBy (ofText Path.up)) (kept.map ofText) =
      (segments.foldl (Path.followBy Path.up) kept).map ofText := by
  induction segments generalizing kept with
  | nil => rfl
  | cons segment segments ih =>
      rw [List.map_cons, List.foldl_cons, List.foldl_cons, ← ih]
      congr 1
      rw [Path.followBy, Path.followBy]
      by_cases back : segment = Path.up
      · rw [if_pos back, if_pos (congrArg _ back), List.map_dropLast]
      · rw [if_neg back, if_neg fun same => back (ofText_inj.mp same), List.map_append,
          List.map_singleton]

end CodePoints

namespace GivenPath

open CodePoints (ofText_inj)

variable {given : GivenPath} {path base : Path}

theorem ofPoints_ofText (text : Text) :
    ofPoints (CodePoints.ofText text) = ofPath (Path.ofText text) := by
  have anchor : Anchor.ofPoints (CodePoints.ofText text) = Anchor.ofText text := by
    rw [Anchor.ofPoints, CodePoints.takeWhile_isChar_ofText, CodePoints.filterMap_ofText]
  rw [ofPoints, ofPath, Path.ofText, anchor, CodePoints.splitOn_ofText, List.filter_map]
  simp [Function.comp_def, ofText_inj, CodePoints.ofText_eq_nil]

theorem behind_ofPath : (ofPath path).behind base = ofPath (base.join path) := by
  rw [behind, Path.join, Path.isAbsolute]
  by_cases relative : path.anchor = .relative
  · simp [ofPath, relative]
  · simp [ofPath, relative]

theorem collapse_ofText (segments : List Text) :
    collapse (segments.map CodePoints.ofText) = (Path.collapse segments).map CodePoints.ofText :=
  CodePoints.foldl_followBy_ofText segments []

theorem collapsed_ofPath : (ofPath path).collapsed = ofPath path.collapsed :=
  congrArg (GivenPath.mk .root) (collapse_ofText path.segments)

theorem isUnnameable_ofPath : (ofPath path).isUnnameable = path.isUnnameable := by
  have here (segment : Text) : (CodePoints.ofText segment).any isRefused =
      segment.elem (Char.ofNat 0) := by
    rw [Bool.eq_iff_iff, CodePoints.ofText, List.any_map, List.any_eq_true, List.elem_iff]
    simp [isRefused]
  rw [isUnnameable, Path.isUnnameable, ofPath, List.any_map]
  exact congrArg (List.any path.segments) (funext here)

theorem path?_eq_some : given.path? = some path ↔ given = ofPath path := by
  have segments (given : List CodePoints) (segments : List Text) :
      given.mapM CodePoints.text? = some segments ↔ given = segments.map CodePoints.ofText := by
    induction given generalizing segments with
    | nil => cases segments <;> simp
    | cons first given ih =>
        cases segments with
        | nil => simp [Option.bind_eq_some_iff]
        | cons segment segments => simp [Option.bind_eq_some_iff, CodePoints.text?_eq_some, ih]
  rw [path?, Option.map_eq_some_iff]
  constructor
  · rintro ⟨names, found, rfl⟩
    rw [ofPath, ← (segments _ _).mp found]
  · rintro rfl
    exact ⟨path.segments, (segments _ _).mpr rfl, rfl⟩

end GivenPath

namespace ProjectIndex

variable {index : ProjectIndex} {workspace path : Path}

/-- A path of texts is resolved alike, wherever it comes from. -/
theorem resolveGiven?_ofPath :
    index.resolveGiven? workspace (.ofPath path) = index.resolvePath? workspace path := by
  rw [resolveGiven?, resolvePath?, GivenPath.behind_ofPath, GivenPath.isUnnameable_ofPath,
    GivenPath.collapsed_ofPath, GivenPath.path?_eq_some.mpr rfl]
  rfl

end ProjectIndex

end SwiftWorkspace
