import SwiftWorkspace.Proofs.Boundaries
import SwiftWorkspace.Proofs.Declarations

/-!
# Quoted texts

A text is written into a source as a literal of one line, in which a backslash stands in front of
each quotation mark and each backslash.  Where the pass begins to read something new it reads the
whole literal as one, and what stands around it as it would without.  A line feed is written as
itself: there the literal ends, and what the text has behind it is read as code.
-/

namespace SwiftWorkspace

open Kind (Reads classify isBoundary cellsOf classify_append scans_escaped
  reads_opening firm_encode)

namespace Literal

variable {front value before behind back : Text}

/-- A literal without a line feed is read as one, and what stands around it is read on its own. -/
theorem classify_encode (boundary : isBoundary (front ++ (encode value ++ back)) front.length)
    (noMark : back.head? ≠ some '"') (noFeed : '\n' ∉ value) :
    classify (front ++ (encode value ++ back)) =
      classify front ++ (List.replicate (encode value).length .string ++ classify back) := by
  have scans := firm_encode noFeed back (by rintro char found rfl; exact noMark found)
  have literal := scans.classifyFrom
  rw [Kind.chars_cellsOf, Kind.map_kind_cellsOf] at literal
  rw [classify_append boundary]
  exact congrArg (classify front ++ ·) literal

/-- The first line feed ends the literal, and what is written behind it is read as code. -/
theorem classify_encode_feed
    (boundary : isBoundary (front ++ (encode (before ++ '\n' :: behind) ++ back)) front.length)
    (noFeed : '\n' ∉ before) :
    classify (front ++ (encode (before ++ '\n' :: behind) ++ back)) =
      classify front ++ (.string :: List.replicate (before.flatMap escapedForm).length .string ++
        classify ('\n' :: (behind.flatMap escapedForm ++ '"' :: back))) := by
  generalize rest : '\n' :: (behind.flatMap escapedForm ++ '"' :: back) = tail
  have whole : encode (before ++ '\n' :: behind) ++ back =
      '"' :: (before.flatMap escapedForm ++ tail) := by
    simp [encode, escapedForm, ← rest]
  have opens : Reads .code ['"'] (before.flatMap escapedForm ++ tail) .string .line :=
    reads_opening (by simp [← rest])
  have body := (scans_escaped noFeed tail).classifyFrom
  rw [Kind.chars_cellsOf, Kind.map_kind_cellsOf] at body
  have ends : Kind.classifyFrom .line tail = classify tail := by
    rw [← rest]
    exact Kind.classifyFrom_of_boundary (by simp)
  rw [classify_append boundary, whole]
  refine congrArg (classify front ++ ·) (opens.classifyFrom.trans ?_)
  rw [body, ends]
  rfl

example : classify "f(\"a\nb\")".toList =
    [.code, .code, .string, .string, .code, .code, .string, .string] := by decide

/--
A literal keeps its value apart from the source around it if and only if the value has no line
feed; whatever the value is, it can be decoded from the literal.
-/
theorem classify_encode_iff (boundary : isBoundary (front ++ encode value ++ back) front.length)
    (noMark : back.head? ≠ some '"') :
    decode (encode value) = value ∧
      (classify (front ++ encode value ++ back) =
        classify front ++ List.replicate (encode value).length .string ++ classify back ↔
          '\n' ∉ value) := by
  refine ⟨decode_encode value, ?_⟩
  rw [List.append_assoc] at boundary ⊢
  rw [List.append_assoc]
  refine ⟨fun apart feed => ?_, classify_encode boundary noMark⟩
  obtain ⟨before, behind, rfl, noFeed⟩ := List.eq_append_cons_of_mem feed
  rw [classify_encode_feed boundary noFeed] at apart
  have kinds := congrArg (·[(before.flatMap escapedForm).length + 1]?)
    (List.append_cancel_left apart)
  have inside : (before.flatMap escapedForm).length + 1 <
      (encode (before ++ '\n' :: behind)).length := by
    simp only [encode, List.flatMap_append, List.flatMap_cons, List.length_append, List.length_cons]
    omega
  simp only [List.cons_append, List.getElem?_cons_succ] at kinds
  rw [List.getElem?_append_right (by simp), List.getElem?_append_left (by simpa using inside),
    List.getElem?_replicate, if_pos inside] at kinds
  simp [classify, Kind.classifyFrom, Kind.Fold.run, Kind.Fold.kinds] at kinds

/-- A value that would close the literal and open brackets and a comment stays inside of it. -/
theorem classify_encode_marks :
    isBoundary ("f(".toList ++ encode "\", x: [/*\\".toList ++ ")".toList) "f(".toList.length ∧
      ")".toList.head? ≠ some '"' ∧
      decode (encode "\", x: [/*\\".toList) = "\", x: [/*\\".toList ∧
      (classify ("f(".toList ++ encode "\", x: [/*\\".toList ++ ")".toList) =
        classify "f(".toList ++ List.replicate (encode "\", x: [/*\\".toList).length .string ++
          classify ")".toList ↔ '\n' ∉ "\", x: [/*\\".toList) := by
  have boundary : isBoundary ("f(".toList ++ encode "\", x: [/*\\".toList ++ ")".toList)
      "f(".toList.length := by decide
  have noMark : ")".toList.head? ≠ some '"' := by decide
  exact ⟨boundary, noMark, classify_encode_iff boundary noMark⟩

end Literal

end SwiftWorkspace
