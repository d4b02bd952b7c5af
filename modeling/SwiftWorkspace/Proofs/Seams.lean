import Mathlib.Data.List.Chain
import SwiftWorkspace.Proofs.Hits

/-!
# The seams of a source

A literal begins with a quotation mark and a comment with a slash.  Code goes on behind
a quotation mark, a slash or at a line break.  So from the outside of a literal or a
comment no other character of it can be met, even where it is not closed.
-/

namespace SwiftWorkspace

structure Joined (before cell : Cell) : Prop where
  quoted : cell.kind = .string → before.kind ≠ .string → cell.char = '"'
  slashed : cell.kind = .comment → before.kind ≠ .comment → cell.char = '/'
  closed : before.kind ≠ .code → cell.kind = .code →
    cell.char = '\n' ∨ before.char = '"' ∨ before.char = '/'

/-- The cell that can be thought of in front of a source. -/
def Cell.start : Cell := ⟨'\n', .code⟩

namespace Kind.Mode

def Behind (cell : Cell) : Mode → Prop
  | .code => cell.kind ≠ .code → cell.char = '"' ∨ cell.char = '/'
  | .line => cell.kind = .string
  | .block => cell.kind = .string
  | .lineComment => cell.kind = .comment
  | .blockComment _ => cell.kind = .comment

theorem behind_code (char : Char) : Behind ⟨char, .code⟩ .code := fun other => absurd rfl other

end Kind.Mode

namespace Joined

variable {before : Cell} {char : Char}

theorem code (ends : before.kind ≠ .code → char = '\n' ∨ before.char = '"' ∨ before.char = '/') :
    Joined before ⟨char, .code⟩ :=
  ⟨nofun, nofun, fun inside _ => ends inside⟩

theorem string (opens : before.kind ≠ .string → char = '"') : Joined before ⟨char, .string⟩ :=
  ⟨fun _ => opens, nofun, nofun⟩

theorem comment (opens : before.kind ≠ .comment → char = '/') : Joined before ⟨char, .comment⟩ :=
  ⟨nofun, fun _ => opens, nofun⟩

theorem in_string (inside : before.kind = .string) : Joined before ⟨char, .string⟩ :=
  .string fun other => absurd inside other

theorem in_comment (inside : before.kind = .comment) : Joined before ⟨char, .comment⟩ :=
  .comment fun other => absurd inside other

end Joined

open Kind (Reads classifyFrom)
open Kind.Mode (behind_code)

/-- Wherever a pass over a text begins, each cell follows the one in front of it. -/
theorem isChain_joined {mode : Kind.Mode} {before : Cell} (behind : mode.Behind before)
    (text : Text) :
    List.IsChain Joined (before :: List.zipWith Cell.mk text (classifyFrom mode text)) := by
  induction mode, text using Reads.induction generalizing before with
  | atEnd => simp
  | feed ih =>
      rw [Kind.classifyFrom_feed]
      exact .cons_cons (.code fun _ => .inl rfl) (ih (behind_code _))
  | token reads ih =>
      rw [reads.classifyFrom]
      cases reads with
      | openBlock =>
          exact .cons_cons (.string fun _ => rfl) (.cons_cons (.string fun _ => rfl)
            (.cons_cons (.string fun _ => rfl) (ih rfl)))
      | openLine => exact .cons_cons (.string fun _ => rfl) (ih rfl)
      | openLineComment =>
          exact .cons_cons (.comment fun _ => rfl) (.cons_cons (.comment fun _ => rfl) (ih rfl))
      | openBlockComment =>
          exact .cons_cons (.comment fun _ => rfl) (.cons_cons (.in_comment rfl) (ih rfl))
      | slash | plain =>
          exact .cons_cons (.code fun inside => .inr (behind inside)) (ih (behind_code _))
      -- inside a literal
      | lineEscape | blockEscape =>
          exact .cons_cons (.in_string behind) (.cons_cons (.in_string rfl) (ih rfl))
      | closeLine => exact .cons_cons (.string fun _ => rfl) (ih fun _ => .inl rfl)
      | closeBlock =>
          exact .cons_cons (.string fun _ => rfl) (.cons_cons (.string fun _ => rfl)
            (.cons_cons (.string fun _ => rfl) (ih fun _ => .inl rfl)))
      | lineChar | blockChar => exact .cons_cons (.in_string behind) (ih rfl)
      -- inside a comment
      | closeLineComment => exact .cons_cons (.code fun _ => .inl rfl) (ih (behind_code _))
      | lineCommentChar | blockCommentChar => exact .cons_cons (.in_comment behind) (ih rfl)
      | deeper => exact .cons_cons (.comment fun _ => rfl) (.cons_cons (.in_comment rfl) (ih rfl))
      | @shallower depth =>
          refine .cons_cons (.in_comment behind) (.cons_cons (.comment fun _ => rfl) (ih ?_))
          cases depth with
          | zero => exact fun _ => .inr rfl
          | succ => rfl

theorem isChain_joined_ofText (text : Text) :
    List.IsChain Joined (Cell.start :: (Source.ofText text).cells) :=
  isChain_joined (behind_code _) text

end SwiftWorkspace
