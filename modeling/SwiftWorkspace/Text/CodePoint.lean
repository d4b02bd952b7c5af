import SwiftWorkspace.Text.Printable

/-!
# Code points

What comes from outside, from a command line or from JSON, is made of code points: characters,
and halves of surrogate pairs that stand alone.  Such a half is no character.  No file that holds
a text can hold it, and a path can hold it only where it stands for an octet that is not UTF-8.

Where nothing but texts are worked on, each half is spelled by a stand-in, a character that
occurs nowhere else, until the text is written or shown.
-/

namespace SwiftWorkspace

/-- A code point: a character, or half of a surrogate pair that stands alone. -/
inductive CodePoint where
  | ofChar (char : Char)
  /-- The half at an offset in the range of halves. -/
  | half (offset : Fin 0x800)
  deriving DecidableEq, Repr

namespace CodePoint

def firstHalf : Nat := 0xD800

def code : CodePoint → Nat
  | .ofChar char => char.toNat
  | .half offset => firstHalf + offset

/-- The code point of a code; a code that is too large counts as that of the null character. -/
def ofCode (code : Nat) : CodePoint :=
  if inside : firstHalf ≤ code ∧ code < firstHalf + 0x800 then
    .half ⟨code - firstHalf, by omega⟩
  else .ofChar (Char.ofNat code)

def char? : CodePoint → Option Char
  | .ofChar char => some char
  | .half _ => none

def isOctet : CodePoint → Bool
  | .ofChar _ => false
  | .half offset => 0x480 ≤ offset.val && offset.val < 0x500

end CodePoint

/-- A text from outside, which may hold halves that stand alone. -/
abbrev CodePoints := List CodePoint

/-- The first halves in a row of some code points that are not a text. -/
structure HalfRun where
  start : Nat
  first : Fin 0x800
  count : Nat
  deriving DecidableEq, Repr

namespace HalfRun

def message (run : HalfRun) : String :=
  let found :=
    if run.count = 1 then
      let digits := (Text.hex 4 (CodePoint.half run.first).code).asString
      s!"character '\\u{digits}' in position {run.start}"
    else s!"characters in position {run.start}-{run.start + run.count - 1}"
  s!"'utf-8' codec can't encode {found}: surrogates not allowed"

end HalfRun

namespace CodePoints

def ofText (text : Text) : CodePoints := text.map .ofChar

def text? : CodePoints → Option Text
  | [] => some []
  | .ofChar char :: points => (text? points).map (char :: ·)
  | .half _ :: _ => none

@[simp] theorem text?_ofText (text : Text) : (ofText text).text? = some text := by
  induction text with
  | nil => rfl
  | cons char text ih =>
      change ((ofText text).text?).map (char :: ·) = _
      rw [ih]
      rfl

theorem text?_eq_some {points : CodePoints} {text : Text} :
    points.text? = some text ↔ points = ofText text := by
  refine ⟨fun found => ?_, fun same => same ▸ text?_ofText text⟩
  fun_induction text? points generalizing text with
  | case1 =>
      cases found
      rfl
  | case2 char points ih =>
      obtain ⟨rest, more, rfl⟩ := Option.map_eq_some_iff.mp found
      rw [ih more]
      rfl
  | case3 => cases found

def isChar (point : CodePoint) : Bool := point.char?.isSome

def firstHalves (points : CodePoints) : HalfRun :=
  let start := (points.takeWhile isChar).length
  match points.dropWhile isChar with
  | .half first :: rest => ⟨start, first, 1 + (rest.takeWhile fun point => !isChar point).length⟩
  | _ => ⟨start, 0, 0⟩

def toText (points : CodePoints) : Except HalfRun Text :=
  match points.text? with
  | some text => .ok text
  | none => .error points.firstHalves

theorem toText_eq_ok {points : CodePoints} {text : Text} :
    points.toText = .ok text ↔ points = ofText text := by
  rw [← text?_eq_some, toText]
  cases points.text? <;> simp

theorem ofText_injective {left right : Text} (same : ofText left = ofText right) :
    left = right := by
  have found := text?_ofText left
  rw [same, text?_ofText] at found
  exact (Option.some.inj found).symm

end CodePoints

abbrev StandIns := List (Char × Fin 0x800)

namespace StandIns

def readChar (standIns : StandIns) (char : Char) : CodePoint :=
  match standIns.lookup char with
  | some offset => .half offset
  | none => .ofChar char

def read (standIns : StandIns) (text : Text) : CodePoints := text.map (readChar standIns)

theorem read_nil (text : Text) : read [] text = CodePoints.ofText text := rfl

/-- Nothing but characters that stand for themselves spell a text. -/
theorem read_eq_ofText {standIns : StandIns} {text other : Text}
    (spelled : standIns.read text = CodePoints.ofText other) : other = text := by
  induction text generalizing other with
  | nil =>
      cases other with
      | nil => rfl
      | cons => cases spelled
  | cons char text ih =>
      cases other with
      | nil => cases spelled
      | cons first other =>
          obtain ⟨here, spelled⟩ := List.cons.inj spelled
          rw [ih spelled]
          rw [readChar] at here
          split at here
          · cases here
          · rw [CodePoint.ofChar.inj here]

end StandIns

end SwiftWorkspace
