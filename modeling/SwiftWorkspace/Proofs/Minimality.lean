import SwiftWorkspace.Proofs.Preservation

/-!
# Edits of any text

Nothing has to be known about a text that is edited: its literals may be open, its
brackets may not pair up, and comments may stand anywhere.  An addition still keeps
every character that is not blank, and a removal still writes no character.
-/

namespace SwiftWorkspace

namespace Edit

variable {text : Text}

theorem Grows.sublist {fresh : Char → Prop} {new : Text} (grows : Grows fresh text new) :
    (text.filter (!isBlank ·)).Sublist new :=
  grows.solid.trans List.filter_sublist

/-- A text without references to a name stays, and another one shrinks. -/
theorem shrinks_getD {target dependency : Text} {result : Option Text}
    (removed : removeFromTarget? text target dependency = .ok result) :
    Shrinks text (result.getD text) := by
  cases result with
  | none => exact .refl
  | some new => exact shrinks_removeFromTarget? removed

/--
Of whatever text: an addition that succeeds puts pieces between its characters, and drops
nothing but blanks at the end of arrays without elements, so all characters that are not
blank are still there in their order.  A removal that succeeds takes characters out of
arrays of dependencies, so it leaves a part of the text.
-/
theorem edits_are_minimal (text : Text) :
    (∀ dependency targets product new, insert text dependency targets product = .ok new →
      Grows (fun _ => True) text new ∧ (text.filter (!isBlank ·)).Sublist new) ∧
    (∀ target dependency new, addToTarget text target dependency = .ok new →
      Grows (fun _ => True) text new ∧ (text.filter (!isBlank ·)).Sublist new) ∧
    (∀ identifier targets dropDeclaration edited,
      remove text identifier targets dropDeclaration = .ok edited →
      Shrinks text edited.text ∧ edited.text.Sublist text) ∧
    ∀ target dependency result, removeFromTarget? text target dependency = .ok result →
      Shrinks text (result.getD text) ∧ (result.getD text).Sublist text := by
  refine ⟨?_, ?_, ?_, ?_⟩
  · intro dependency targets product new inserted
    have grows := grows_insert (fun _ _ => trivial) (fun _ _ => trivial)
      (fun _ _ => trivial) inserted
    exact ⟨grows, grows.sublist⟩
  · intro target dependency new added
    have grows := grows_addToTarget (fun _ _ => trivial) (fun _ _ => trivial) added
    exact ⟨grows, grows.sublist⟩
  · intro identifier targets dropDeclaration edited removed
    have shrinks := shrinks_remove removed
    exact ⟨shrinks, shrinks.sublist⟩
  · intro target dependency result removed
    have shrinks := shrinks_getD removed
    exact ⟨shrinks, shrinks.sublist⟩

/--
A text with an empty array, a missing comma, a bracket that closes nothing and an open literal.
-/
def brokenText : Text :=
  "targets: [.target(name: \"t\", dependencies: [\"a\" \"b\", \"c\"])], dependencies: [ ]) \"open".toList

/-- All four edits succeed on this text. -/
theorem edits_of_brokenText :
    (∃ new, insert brokenText ⟨{ path := some ['d'] }, by decide⟩ none none = .ok new ∧
      (brokenText.filter (!isBlank ·)).Sublist new) ∧
    (∃ new, addToTarget brokenText ['t'] ['d'] = .ok new ∧
      (brokenText.filter (!isBlank ·)).Sublist new) ∧
    (∃ edited, remove brokenText ['c'] none true = .ok edited ∧ edited.text.Sublist brokenText) ∧
    ∃ result, removeFromTarget? brokenText ['t'] ['c'] = .ok result ∧
      (result.getD brokenText).Sublist brokenText := by
  obtain ⟨inserts, adds, removes, drops⟩ := edits_are_minimal brokenText
  refine ⟨?_, ?_, ?_, ?_⟩
  · obtain ⟨new, inserted⟩ :=
      Outcome.exists_of_isOk (insert brokenText ⟨{ path := some ['d'] }, by decide⟩ none none)
      (by decide +kernel)
    exact ⟨new, inserted, (inserts _ _ _ new inserted).2⟩
  · obtain ⟨new, added⟩ := Outcome.exists_of_isOk (addToTarget brokenText ['t'] ['d'])
      (by decide +kernel)
    exact ⟨new, added, (adds _ _ new added).2⟩
  · obtain ⟨edited, removed⟩ :=
      Outcome.exists_of_isOk (remove brokenText ['c'] none true) (by decide +kernel)
    exact ⟨edited, removed, (removes _ _ _ edited removed).2⟩
  · obtain ⟨result, removed⟩ :=
      Outcome.exists_of_isOk (removeFromTarget? brokenText ['t'] ['c']) (by decide +kernel)
    exact ⟨result, removed, (drops _ _ result removed).2⟩

end Edit

end SwiftWorkspace
