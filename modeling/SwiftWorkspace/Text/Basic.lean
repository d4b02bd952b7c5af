/-!
# Texts

A text is a list of characters, and every position counts characters.  This
module holds the cutting and joining operations that the rest of the library
shares: trimming, searching for a part, and replacing a character.
-/

namespace SwiftWorkspace

/-- A text is the list of its characters. -/
abbrev Text := List Char

namespace Text

def ofString (string : String) : Text := string.toList

def asString (text : Text) : String := String.ofList text

def trimStart (drop : Char → Bool) (text : Text) : Text :=
  text.dropWhile drop

def trimEnd (drop : Char → Bool) (text : Text) : Text :=
  (text.reverse.dropWhile drop).reverse

def trim (drop : Char → Bool) (text : Text) : Text :=
  trimEnd drop (trimStart drop text)

def after? (part : Text) : Text → Option Text :=
  match part with
  | [] => some
  | first :: part => fun
      | [] => none
      | char :: text => if first = char then after? part text else none

def startsWith (text part : Text) : Bool := part.isPrefixOf text

def endsWith (text part : Text) : Bool := part.isSuffixOf text

def breakAt? (part : Text) : Text → Option (Text × Text)
  | [] => if part.isEmpty then some ([], []) else none
  | char :: text =>
      match after? part (char :: text) with
      | some rest => some ([], rest)
      | none => (breakAt? part text).map fun (before, rest) => (char :: before, rest)

def contains (text part : Text) : Bool := (breakAt? part text).isSome

def replace (old new : Char) (text : Text) : Text :=
  text.map fun char => if char = old then new else char

theorem replace_of_not_mem {old : Char} {text : Text} (missing : old ∉ text) (new : Char) :
    replace old new text = text := by
  refine (List.map_congr_left fun char member => if_neg ?_).trans (List.map_id _)
  rintro rfl
  exact missing member

def slice (text : Text) (start stop : Nat) : Text :=
  (text.drop start).take (stop - start)

def findFrom? (char : Char) (start stop : Nat) (text : Text) : Option Nat :=
  ((text.slice start stop).findIdx? (· == char)).map (start + ·)

/-- Put `separator` between the parts and join everything. -/
def join (separator : Text) (parts : List Text) : Text :=
  List.intercalate separator parts

/-- Digits of a natural number in base ten. -/
def ofNat (number : Nat) : Text := Nat.toDigits 10 number

/-- An integer in base ten, with a leading minus sign when negative. -/
def ofInt : Int → Text
  | .ofNat number => ofNat number
  | .negSucc number => '-' :: ofNat (number + 1)

/-- The order of texts by the code points of their characters. -/
def le : Text → Text → Bool
  | [], _ => true
  | _ :: _, [] => false
  | left :: lefts, right :: rights =>
      left.val < right.val || (left = right && le lefts rights)

def cut? (char : Char) : Text → Option (Text × Text)
  | [] => none
  | first :: rest =>
      if first = char then some ([], rest)
      else (cut? char rest).map fun (before, after) => (first :: before, after)

theorem after?_eq_some {part text rest : Text} :
    after? part text = some rest ↔ text = part ++ rest := by
  induction part generalizing text with
  | nil => simp [after?, eq_comm]
  | cons first part ih =>
      cases text with
      | nil => simp [after?]
      | cons char text =>
          by_cases same : first = char
          · simp [after?, same, ih]
          · simp [after?, same, Ne.symm same]

theorem forall_mem_of_all {text : Text} {holds : Char → Prop} [DecidablePred holds]
    (all : (text.all fun char => holds char) = true) : ∀ char ∈ text, holds char := by
  simpa using all

theorem le_total (left right : Text) : le left right || le right left := by
  induction left generalizing right with
  | nil => simp [le]
  | cons char left ih =>
      cases right with
      | nil => simp [le]
      | cons other right =>
          by_cases same : char = other
          · subst same
            simpa [le] using ih right
          · have differs : char.val ≠ other.val := fun h => same (Char.ext h)
            have : char.val < other.val ∨ other.val < char.val := by
              rcases UInt32.lt_or_lt_of_ne differs with h | h
              · exact .inl h
              · exact .inr h
            rcases this with h | h <;> simp [le, h]

end Text

end SwiftWorkspace
