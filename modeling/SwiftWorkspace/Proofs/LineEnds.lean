import Mathlib.Data.List.TakeWhile
import SwiftWorkspace.Proofs.Boundaries

/-!
# The ends of lines

A line feed ends a comment in a line and a literal of one line, terminated or not, and the text
behind it is classified on its own.  But a backslash at the end of a line escapes the line feed
in a literal of one line, which then goes on in the next line.
-/

namespace SwiftWorkspace

namespace Kind

variable {mode next : Mode} {token front behind : Text} {kind : Kind}

/-- Of all that the pass goes through nothing is kept but the mode at the end. -/
def Fold.modeBehind : Fold Mode where
  atEnd mode := mode
  token _ _ _ rest := rest
  feed rest := rest

/-- The mode in which the pass that enters a text in the given mode comes to its end. -/
def modeBehind (mode : Mode) (text : Text) : Mode := Fold.modeBehind.run mode text

@[simp] theorem modeBehind_nil (mode : Mode) : modeBehind mode [] = mode := Fold.run_nil _ mode

@[simp] theorem modeBehind_feed (rest : Text) :
    modeBehind .line ('\n' :: rest) = modeBehind .code rest :=
  Fold.run_feed _ rest

/-- Whether the mode is that of a literal or a comment that goes on in the next line. -/
def Mode.spansLines : Mode → Bool
  | .block => true
  | .blockComment _ => true
  | _ => false

/-- The number of backslashes at the end of a text. -/
def backslashes (text : Text) : Nat := (text.reverse.takeWhile (· = '\\')).length

def Mode.behindFeed (mode : Mode) (backslashes : Nat) : Mode :=
  if mode.spansLines then mode else if mode = .line ∧ backslashes % 2 = 1 then .line else .code

theorem Reads.modeBehind (reads : Reads mode token front kind next) :
    modeBehind mode (token ++ front) = Kind.modeBehind next front :=
  reads.run Fold.modeBehind

/-- The backslashes at the end of a text go on in front of a text that has nothing else. -/
theorem backslashes_append (front rest : Text) : backslashes (front ++ rest) =
    backslashes rest + if rest.all (· = '\\') then backslashes front else 0 := by
  simp only [backslashes, List.reverse_append, List.takeWhile_append]
  by_cases only : rest.all (· = '\\')
  · have whole : rest.reverse.takeWhile (· = '\\') = rest.reverse :=
      List.takeWhile_eq_self_iff.mpr fun char member =>
        List.all_eq_true.mp only char (List.mem_reverse.mp member)
    rw [if_pos only, whole, if_pos rfl, List.length_append]
  · rw [if_neg only, if_neg, Nat.add_zero]
    intro whole
    refine only (List.all_eq_true.mpr fun char member => ?_)
    have same := (List.takeWhile_prefix _).eq_of_length whole
    exact List.takeWhile_eq_self_iff.mp same char (List.mem_reverse.mpr member)

/--
A token in front of a line feed is a part of the text there, or a backslash there escapes the
feed.
-/
theorem Reads.exists_or_escape (mode : Mode) (char : Char) (text behind : Text) :
    (∃ token front kind next, char :: text = token ++ front ∧
      Reads mode token (front ++ '\n' :: behind) kind next) ∨
      (mode = .line ∧ char = '\n') ∨
        ((mode = .line ∨ mode = .block) ∧ char = '\\' ∧ text = []) := by
  rcases Reads.exists_or_feed mode char
    (text ++ '\n' :: behind) with ⟨token, tail, kind, next, whole, reads⟩ | feed
  · rw [← List.cons_append] at whole
    by_cases fits : token.length ≤ (char :: text).length
    · obtain ⟨middle, split, rfl⟩ := exists_middle whole fits
      exact .inl ⟨token, middle, kind, next, split, reads⟩
    · -- No token but that of an escape has a line feed behind another character.
      obtain ⟨middle, rfl, behind_eq⟩ := exists_middle whole.symm (Nat.le_of_not_le fits)
      have filled : middle ≠ [] := by
        rintro rfl
        simp at fits
      obtain ⟨feed, middle, rfl⟩ := List.exists_cons_of_ne_nil filled
      obtain rfl : '\n' = feed := (List.cons.inj behind_eq).1
      generalize same : char :: text ++ '\n' :: middle = token at reads
      have feed : '\n' ∈ token := by simp [← same]
      cases reads <;> cases text <;> simp_all
  · exact .inr (.inl feed)

/-- Backslashes leave the pass in its mode. -/
theorem modeBehind_of_all {text : Text} (only : text.all (· = '\\')) :
    modeBehind mode text = mode := by
  induction mode, text using Reads.induction with
  | atEnd => simp
  | token reads ih =>
      rw [reads.modeBehind]
      cases reads <;> simp_all
  | feed => simp at only

/--
Of the backslashes in front of a line feed in a literal of one line, a token takes an even
number.
-/
theorem Reads.backslashes_mod_two (reads : Reads mode token (front ++ '\n' :: behind) kind next)
    (line : Kind.modeBehind next front = .line) :
    backslashes (token ++ front) % 2 = backslashes front % 2 := by
  rw [backslashes_append]
  split
  case isFalse => rfl
  case isTrue only =>
      rw [modeBehind_of_all only] at line
      have even : backslashes token % 2 = 0 := by
        subst line
        generalize line : Mode.line = next at reads
        cases reads with
        | openLine => rfl
        | @lineEscape char => by_cases slash : char = '\\' <;> simp [backslashes, slash]
        | @lineChar char _ noMark noBreak last =>
            have other : char ≠ '\\' := fun escape => absurd (last escape) (by simp)
            simp [backslashes, other]
        | @shallower depth => cases depth <;> cases line
        | _ => cases line
      omega

theorem Mode.behindFeed_congr {mode : Mode} {left right : Nat}
    (same : mode = .line → left % 2 = right % 2) :
    mode.behindFeed left = mode.behindFeed right := by
  cases mode <;> simp_all [behindFeed, spansLines]

/-- Only an escaped line feed in a literal of one line does not end it. -/
theorem Mode.behindFeed_eq_code_iff {mode : Mode} {count : Nat} :
    mode.behindFeed count = .code ↔ mode.spansLines = false ∧ ¬ (mode = .line ∧ count % 2 = 1) := by
  cases mode <;> simp [behindFeed, spansLines]

/-- The pass stands behind every line feed, and the text in front of it says in which mode. -/
theorem passes_feed (mode : Mode) (text behind : Text) :
    Passes mode (text ++ ['\n']) behind ((modeBehind mode text).behindFeed (backslashes text)) := by
  generalize size : text.length = length
  induction length using Nat.strongRecOn generalizing mode text with
  | ind length ih =>
      cases text with
      | nil =>
          have feed {next : Mode} {kind : Kind} (reads : Reads mode ['\n'] behind kind next) :
              Passes mode ['\n'] behind next := .read reads (.here next behind)
          simp only [modeBehind_nil, List.nil_append]
          cases mode with
          | code => exact feed (.plain (by decide) (by decide))
          | line => exact .feed (.here _ _)
          | block => exact feed (.blockChar (absurd · (by decide)) (absurd · (by decide)))
          | lineComment => exact feed .closeLineComment
          | blockComment depth =>
              exact feed (.blockCommentChar (absurd · (by decide)) (absurd · (by decide)))
      | cons char text =>
          rcases Reads.exists_or_escape mode char text
            behind with ⟨token, front, kind, next, whole, reads⟩ |
            ⟨rfl, rfl⟩ | ⟨escapes, rfl, rfl⟩
          · have shorter : front.length < length := by
              have filled := List.length_pos_iff.mpr reads.token_ne_nil
              have sizes := congrArg List.length whole
              rw [List.length_append] at sizes
              omega
            have same : (modeBehind mode (token ++ front)).behindFeed
                (backslashes (token ++ front)) =
                (modeBehind next front).behindFeed (backslashes front) := by
              rw [reads.left.modeBehind]
              exact Mode.behindFeed_congr reads.backslashes_mod_two
            have first : Reads mode token (front ++ ['\n'] ++ behind) kind next := by
              rwa [List.append_assoc]
            rw [whole, same, List.append_assoc]
            exact .read first (ih front.length shorter next front rfl)
          · have same : backslashes ('\n' :: text) = backslashes text := by
              rw [← List.singleton_append, backslashes_append, show backslashes ['\n'] =
                0 from rfl, ite_self, Nat.add_zero]
            rw [modeBehind_feed, same]
            exact .feed (ih text.length (size ▸ Nat.lt_succ_self _) .code text rfl)
          · have escape {mode : Mode} (reads : Reads mode ['\\', '\n'] behind .string mode) :
                Passes mode ['\\', '\n'] behind mode := .read reads (.here mode behind)
            rcases escapes with rfl | rfl
            · exact escape .lineEscape
            · exact escape .blockEscape

/-- A text can be cut behind a line feed unless a literal or a comment goes on there. -/
theorem classify_feed_iff (before : Text) :
    (∀ behind, classify (before ++ '\n' :: behind) =
      classify (before ++ ['\n']) ++ classify behind) ↔
      (modeBehind .code before).spansLines = false ∧
        ¬ (modeBehind .code before = .line ∧ backslashes before % 2 = 1) := by
  have step (behind : Text) :
      classify (before ++ '\n' :: behind) = classify (before ++ ['\n']) ++ classify behind ↔
        classifyFrom ((modeBehind .code before).behindFeed (backslashes before)) behind =
          classifyFrom .code behind := by
    have cut := (passes_feed .code before behind).classifyFrom
    rw [List.append_assoc, List.singleton_append] at cut
    rw [classify, cut, classify, classify, List.append_right_inj]
  rw [forall_congr' step, ← Mode.behindFeed_eq_code_iff]
  constructor
  · intro agree
    have blank := agree [' ']
    generalize Mode.behindFeed _ _ = mode at blank ⊢
    cases mode <;> first | rfl | cases blank
  · intro code behind
    rw [code]

-- The backslash escapes the line feed, so that the literal goes on with the character behind it.
example : classify "\"a\\\nb".toList = List.replicate 5 .string := by decide

end Kind

end SwiftWorkspace
