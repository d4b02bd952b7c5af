import SwiftWorkspace.Outcome
import SwiftWorkspace.Source.Literal

/-!
# Looking up by position

A character of a text, or its kind, can be looked up by its position, and it is missing where
the text or the list of kinds does not reach.  Here the kinds are found in this way: they are
code at first, and each literal or comment replaces what the list has between its start and
its end by a run of its own kind.
-/

namespace SwiftWorkspace

/-- What is missing where a reading looks something up. -/
inductive Missing where
  | character (position : Nat)
  | kind (position : Nat)
  | item (place : Nat)
  | keyword (word : Text)
  /-- A dependency does not have exactly one address. -/
  | address
  deriving DecidableEq, Repr

abbrev Lookup := Except Missing

namespace Lookup

variable {α β : Type}

/-- What follows a lookup goes on with what has been found. -/
@[simp] theorem ok_bind (found : α) (next : α → Lookup β) :
    (Except.ok found >>= next) = next found := rfl

@[simp] theorem pure_eq_ok (found : α) : (pure found : Lookup α) = .ok found := rfl

def item (items : List α) (place : Nat) : Lookup α :=
  match items[place]? with
  | some value => .ok value
  | none => .error (.item place)

def last (items : List α) : Lookup α :=
  match items.getLast? with
  | some value => .ok value
  | none => .error (.item 0)

def character (text : Text) (position : Nat) : Lookup Char :=
  match text[position]? with
  | some char => .ok char
  | none => .error (.character position)

def kind (kinds : List Kind) (position : Nat) : Lookup Kind :=
  match kinds[position]? with
  | some kind => .ok kind
  | none => .error (.kind position)

end Lookup

namespace Kind

def standsAt (text marks : Text) (position : Nat) : Bool :=
  Text.startsWith (text.drop position) marks

def literalEnd (text marks : Text) (position : Nat) : Lookup Nat :=
  if position < text.length then do
    let char ← Lookup.character text position
    if char = '\\' then literalEnd text marks (position + 2)
    else if standsAt text marks position then pure (position + marks.length)
    else if char = '\n' && marks.length = 1 then pure position
    else literalEnd text marks (position + 1)
  else pure text.length
termination_by text.length - position

def lineEnd (text : Text) (position : Nat) : Nat :=
  position + ((text.drop position).takeWhile (· ≠ '\n')).length

def commentEnd (text : Text) (opened position : Nat) : Nat :=
  if position < text.length then
    if standsAt text ['/', '*'] position then commentEnd text (opened + 1) (position + 2)
    else if standsAt text ['*', '/'] position then
      if opened - 1 = 0 then position + 2 else commentEnd text (opened - 1) (position + 2)
    else commentEnd text opened (position + 1)
  else text.length
termination_by text.length - position

def withRun (kinds : List Kind) (start stop : Nat) (kind : Kind) : List Kind :=
  kinds.take start ++ List.replicate (stop - start) kind ++ kinds.drop stop

theorem lt_literalEnd {text marks : Text} {position stop : Nat}
    (found : literalEnd text marks position = .ok stop) {start : Nat} (before : start < position)
    (within : start < text.length) : start < stop := by
  fun_induction literalEnd text marks position with
  | case1 position inside escaped more =>
      obtain ⟨char, -, found⟩ := Outcome.bind_eq_ok.mp found
      split at found
      · exact escaped found (by omega)
      · split at found
        · obtain rfl := Except.ok.inj found
          omega
        · split at found
          · obtain rfl := Except.ok.inj found
            exact before
          · exact more found (by omega)
  | case2 position outside =>
      obtain rfl := Except.ok.inj found
      exact within

theorem lt_lineEnd {text : Text} {position : Nat} (opens : standsAt text ['/', '/'] position) :
    position < lineEnd text position := by
  rw [standsAt, Text.startsWith] at opens
  rw [lineEnd]
  obtain ⟨rest, stands⟩ := List.isPrefixOf_iff_prefix.mp opens
  simp [← stands]

theorem lt_commentEnd {text : Text} {opened position start : Nat} (before : start < position)
    (within : start < text.length) : start < commentEnd text opened position := by
  fun_induction commentEnd text opened position with
  | case1 opened position inside opens ih => exact ih (by omega)
  | case2 opened position inside opens closes last => omega
  | case3 opened position inside opens closes more ih => exact ih (by omega)
  | case4 opened position inside opens closes ih => exact ih (by omega)
  | case5 opened position outside => exact within

theorem lt_commentEnd_of_standsAt {text : Text} {position : Nat} (within : position < text.length)
    (opens : standsAt text ['/', '*'] position) : position < commentEnd text 0 position := by
  rw [commentEnd, if_pos within, if_pos opens]
  exact lt_commentEnd (by omega) within

def markFrom (text : Text) (kinds : List Kind) (position : Nat) : Lookup (List Kind) :=
  if within : position < text.length then do
    if (← Lookup.character text position) = '"' then
      let marks := Literal.delimiter (text.drop position)
      match _ends : literalEnd text marks (position + marks.length) with
      | .error missing => .error missing
      | .ok stop => markFrom text (withRun kinds position stop .string) stop
    else if lineOpens : standsAt text ['/', '/'] position then
      let stop := lineEnd text position
      markFrom text (withRun kinds position stop .comment) stop
    else if blockOpens : standsAt text ['/', '*'] position then
      let stop := commentEnd text 0 position
      markFrom text (withRun kinds position stop .comment) stop
    else markFrom text kinds (position + 1)
  else pure kinds
termination_by text.length - position
decreasing_by
  · have filled : 0 < (Literal.delimiter (text.drop position)).length := by
      rw [Literal.delimiter]
      split <;> simp
    have := lt_literalEnd _ends (Nat.lt_add_of_pos_right filled) within
    omega
  · have := lt_lineEnd lineOpens
    omega
  · have := lt_commentEnd_of_standsAt within blockOpens
    omega
  · omega

def byPosition (text : Text) : Lookup (List Kind) :=
  markFrom text (List.replicate text.length .code) 0

end Kind

end SwiftWorkspace
