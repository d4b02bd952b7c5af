import Mathlib.Logic.Relation
import SwiftWorkspace.Edit.Package
import SwiftWorkspace.Proofs.Appending
import SwiftWorkspace.Proofs.Encodings
import SwiftWorkspace.Proofs.Locality
import SwiftWorkspace.Proofs.Remainders

/-!
# What edits leave of a text

However a manifest is written, an addition only puts characters into its text,
except that an array without elements loses the blanks at its end.  A removal only
takes characters out of arrays of dependencies.
-/

namespace SwiftWorkspace

open Kind (chars)

namespace Source

def IsDependencyArray (source : Source) (array : Span) : Prop :=
  source.dependenciesSpan? = some array ∨
    ∃ target ∈ source.targetCalls, source.targetDependencies? target = some array

variable {source : Source} {array : Span}

/-- The inside of a pair of brackets is that of a frame. -/
theorem exists_frame_of_closing {position closing : Nat}
    (found : source.closing? position = some closing) :
    ∃ (frame : Frame) (inner : List Cell), source = frame.fill inner ∧ Balanced inner ∧
      ⟨position + 1, closing⟩ = frame.span inner := by
  obtain ⟨front, opening, inner, closing, back, whole, rfl, pairs, balanced, rfl⟩ :=
    closing?_eq_some_iff.mp found
  exact ⟨⟨front, opening, closing, back, pairs⟩, inner, congrArg Source.mk whole, balanced, rfl⟩

theorem IsDependencyArray.exists_frame (isArray : source.IsDependencyArray array) :
    ∃ (frame : Frame) (inner : List Cell), source = frame.fill inner ∧ Balanced inner ∧
      array = frame.span inner := by
  rcases isArray with package | ⟨target, -, dependencies⟩
  · exact Source.exists_frame package
  · rw [targetDependencies?, argumentArray?] at dependencies
    obtain ⟨value, -, inside⟩ := Option.bind_eq_some_iff.mp dependencies
    rw [arrayOf?] at inside
    split at inside
    · cases inside
    · obtain ⟨closing, found, rfl⟩ := Option.map_eq_some_iff.mp inside
      exact exists_frame_of_closing found

end Source

/-- The text in front of a frame's gap. -/
def Frame.before (frame : Frame) : Text := chars (frame.front ++ [frame.opening])

/-- The text behind a frame's gap. -/
def Frame.behind (frame : Frame) : Text := chars (frame.closing :: frame.back)

theorem Frame.text_fill (frame : Frame) (inner : List Cell) :
    (frame.fill inner).text = frame.before ++ (chars inner ++ frame.behind) := by
  simp [fill, Source.text, before, behind, chars]

theorem Frame.length_before (frame : Frame) : frame.before.length = frame.front.length + 1 := by
  simp [before]

namespace Text

theorem replaceSpan_append {front inner back replacement : Text} {span : Span}
    (start : span.start = front.length) (stop : span.stop = span.start + inner.length) :
    (front ++ (inner ++ back)).replaceSpan span replacement = front ++ (replacement ++ back) := by
  rw [replaceSpan, stop, start, ← List.drop_drop, List.take_left, List.drop_left, List.drop_left,
    List.append_assoc]

end Text

namespace Edit

inductive Grown (fresh : Char → Prop) : Text → Text → Prop where
  /-- New characters stand between old ones. -/
  | insert {front back : Text} (piece : Text) (new : ∀ char ∈ piece, fresh char) :
      Grown fresh (front ++ back) (front ++ (piece ++ back))
  /-- New characters take the place of the blanks at the end of an array without elements. -/
  | fill {front inner blanks back : Text} {array : Span} (piece : Text)
      (isArray : (Source.ofText (front ++ (inner ++ blanks ++ back))).IsDependencyArray array)
      (bare : (Source.ofText (front ++ (inner ++ blanks ++ back))).elements array = [])
      (start : array.start = front.length)
        (stop : array.stop = array.start + (inner ++ blanks).length)
      (blank : blanks.allBlank) (new : ∀ char ∈ piece, fresh char) :
      Grown fresh (front ++ (inner ++ blanks ++ back)) (front ++ (inner ++ piece ++ back))

/-- The text of a manifest that has lost characters of an array of dependencies. -/
inductive Shrunk : Text → Text → Prop where
  | mk {front inner rest back : Text} {array : Span}
      (isArray : (Source.ofText (front ++ (inner ++ back))).IsDependencyArray array)
      (start : array.start = front.length) (stop : array.stop = array.start + inner.length)
      (kept : rest.Sublist inner) : Shrunk (front ++ (inner ++ back)) (front ++ (rest ++ back))

def Grows (fresh : Char → Prop) : Text → Text → Prop := Relation.ReflTransGen (Grown fresh)

def Shrinks : Text → Text → Prop := Relation.ReflTransGen Shrunk

section Growing

variable {fresh : Char → Prop} {text new : Text}

theorem Grown.insertAt (text : Text) (position : Nat) {piece : Text}
    (new : ∀ char ∈ piece, fresh char) : Grown fresh text (text.insertAt position piece) := by
  have grown : Grown fresh (text.take position ++ text.drop position) _ := .insert piece new
  rwa [List.take_append_drop, ← List.append_assoc] at grown

theorem Grown.solid (grown : Grown fresh text new) :
    (text.filter (!isBlank ·)).Sublist (new.filter (!isBlank ·)) := by
  cases grown with
  | insert piece _ =>
      simp only [List.filter_append]
      exact (List.Sublist.refl _).append (List.sublist_append_right ..)
  | @fill front inner blanks back array piece _ _ _ _ blank _ =>
      have gone : blanks.filter (!isBlank ·) = [] := by
        refine List.filter_eq_nil_iff.mpr fun char member => ?_
        simpa using List.all_eq_true.mp blank char member
      simp only [List.filter_append, gone, List.append_nil]
      exact (List.Sublist.refl _).append ((List.sublist_append_left ..).append (.refl _))

theorem Grows.solid (grows : Grows fresh text new) :
    (text.filter (!isBlank ·)).Sublist (new.filter (!isBlank ·)) := by
  induction grows with
  | refl => exact .refl _
  | tail _ grown ih => exact ih.trans grown.solid

theorem Grown.mem (grown : Grown fresh text new) {char : Char} (member : char ∈ new) :
    char ∈ text ∨ fresh char := by
  cases grown with
  | insert piece added =>
      simp only [List.mem_append] at member ⊢
      rcases member with old | new | old
      · exact .inl (.inl old)
      · exact .inr (added char new)
      · exact .inl (.inr old)
  | fill piece _ _ _ _ _ added =>
      simp only [List.mem_append] at member ⊢
      rcases member with old | (old | new) | old
      · exact .inl (.inl old)
      · exact .inl (.inr (.inl (.inl old)))
      · exact .inr (added char new)
      · exact .inl (.inr (.inr old))

theorem Grows.mem (grows : Grows fresh text new) {char : Char} (member : char ∈ new) :
    char ∈ text ∨ fresh char := by
  induction grows with
  | refl => exact .inl member
  | tail _ grown ih => exact (grown.mem member).elim ih .inr

/-- The characters that an addition writes around names and declarations. -/
def layoutMarks : Text := "dependencies: [],\n\t".toList

variable {element : Text} (written : ∀ char ∈ element, fresh char)
    (marks : ∀ char ∈ layoutMarks, fresh char)

include marks in
theorem fresh_lineIndent {source : Source} {position : Nat} :
    ∀ char ∈ source.lineIndent position, fresh char := by
  intro char member
  rcases Source.mem_lineIndent member with rfl | rfl
  · exact marks ' ' (by decide)
  · exact marks '\t' (by decide)

include written marks in
/-- A first element stands behind what is left of an array without elements. -/
theorem exists_fillArray {source : Source} {array : Span} {inner : Text} (layout : ArrayLayout)
    (inside : source.textIn array = inner) :
    ∃ piece, source.fillArray array element layout =
      source.text.replaceSpan array (inner.stripEnd ++ piece) ∧ ∀ char ∈ piece, fresh char := by
  subst inside
  have space := marks ' ' (by decide)
  cases layout with
  | multiline =>
      have feed := marks '\n' (by decide)
      have indent : ∀ char ∈ source.lineIndent (array.start - 1), fresh char :=
        fresh_lineIndent marks
      rw [Source.fillArray]
      generalize source.lineIndent (array.start - 1) = indentation at indent
      refine ⟨'\n' :: indentation ++ indentUnit ++ element ++ '\n' :: indentation, by simp, ?_⟩
      simp only [List.forall_mem_append, List.forall_mem_cons, List.cons_append, indentUnit]
      exact ⟨feed, ⟨⟨indent, by simp [space]⟩, written⟩, feed, indent⟩
  | inline =>
      rw [Source.fillArray]
      by_cases empty : (source.textIn array).stripEnd = []
      · exact ⟨element, by simp [empty], written⟩
      · exact ⟨' ' :: element, by simp [empty], List.forall_mem_cons.mpr ⟨space, written⟩⟩

include written marks in
theorem grows_fillArray {array : Span} (layout : ArrayLayout)
    (isArray : (Source.ofText text).IsDependencyArray array)
    (bare : (Source.ofText text).elements array = []) :
    Grows fresh text ((Source.ofText text).fillArray array element layout) := by
  obtain ⟨frame, inner, source, -, rfl⟩ := isArray.exists_frame
  have inside : (Source.ofText text).textIn (frame.span inner) = chars inner := by
    rw [source, Source.textIn, frame.cellsIn_span, chars]
  obtain ⟨piece, filled, new⟩ := exists_fillArray written marks layout inside
  obtain ⟨blanks, split, blank⟩ := Text.exists_blanks (chars inner)
  have same : text = frame.before ++ ((chars inner).stripEnd ++ blanks ++ frame.behind) := by
    rw [← split, ← frame.text_fill, ← source, Source.text_ofText]
  have start : (frame.span inner).start = frame.before.length := frame.length_before.symm
  have stop : (frame.span inner).stop =
      (frame.span inner).start + ((chars inner).stripEnd ++ blanks).length := by
    rw [← split, Kind.length_chars]
    rfl
  rw [filled, Source.text_ofText]
  generalize frame.span inner = array at *
  subst same
  rw [Text.replaceSpan_append start stop]
  exact .single (.fill piece isArray bare start stop blank new)

include written marks in
theorem grows_appendBehind (array last : Span) :
    Grows fresh text ((Source.ofText text).appendBehind array last element) := by
  have feed := marks '\n' (by decide)
  have comma : ∀ char ∈ [','], fresh char := by simpa using marks ',' (by decide)
  have space := marks ' ' (by decide)
  have line : ∀ char ∈ '\n' :: (Source.ofText text).lineIndent last.start ++ element, fresh char :=
    List.forall_mem_append.mpr ⟨List.forall_mem_cons.mpr ⟨feed, fresh_lineIndent marks⟩, written⟩
  rw [Source.appendBehind]
  simp only [Source.text_ofText]
  split
  · split
    · exact .single (.insertAt text _ (List.forall_mem_append.mpr ⟨line, comma⟩))
    · exact .tail (.single (.insertAt text _ line)) (.insertAt _ _ comma)
  · split
    · refine .single (.insertAt text _ (List.forall_mem_append.mpr ⟨?_, comma⟩))
      exact List.forall_mem_cons.mpr ⟨space, written⟩
    · refine .single (.insertAt text _ ?_)
      exact List.forall_mem_cons.mpr
        ⟨by simpa using comma, List.forall_mem_cons.mpr ⟨space, written⟩⟩

include written marks in
theorem grows_appendElement {array : Span} (layout : ArrayLayout)
    (isArray : (Source.ofText text).IsDependencyArray array) :
    Grows fresh text ((Source.ofText text).appendElement array element layout) := by
  rw [Source.appendElement]
  cases ends : ((Source.ofText text).elements array).getLast? with
  | none => exact grows_fillArray written marks layout isArray (List.getLast?_eq_none_iff.mp ends)
  | some last => exact grows_appendBehind written marks array last

include written marks in
theorem grows_addDependenciesArgument (named : Argument) :
    Grows fresh text ((Source.ofText text).addDependenciesArgument named element) := by
  rw [Source.addDependenciesArgument]
  simp only [Source.text_ofText]
  refine .single (.insertAt text _ (List.forall_mem_append.mpr ⟨?_, ?_⟩))
  · have comma := marks ',' (by decide)
    split
    · exact List.forall_mem_cons.mpr ⟨comma, List.forall_mem_cons.mpr
        ⟨marks '\n' (by decide), fresh_lineIndent marks⟩⟩
    · exact List.forall_mem_cons.mpr ⟨comma, by simpa using marks ' ' (by decide)⟩
  · have label : ∀ char ∈ "dependencies: [".toList, fresh char := fun char member =>
      marks char (Text.forall_mem_of_all (by decide) char member)
    have closing : ∀ char ∈ [']'], fresh char := by simpa using marks ']' (by decide)
    exact List.forall_mem_append.mpr ⟨List.forall_mem_append.mpr ⟨label, written⟩, closing⟩

include marks in
theorem grows_addToTarget {target dependency : Text}
    (name : ∀ char ∈ Literal.encode dependency, fresh char)
    (added : addToTarget text target dependency = .ok new) : Grows fresh text new := by
  rw [addToTarget] at added
  cases found : (Source.ofText text).findTarget target with
  | error error => simp [found, bind, Except.bind] at added
  | ok call =>
      simp only [found, bind, Except.bind] at added
      cases array : (Source.ofText text).targetDependencies? call with
      | some array =>
          simp only [array] at added
          rw [← Except.ok.inj added]
          exact grows_appendElement name marks .inline
            (.inr ⟨call, Source.mem_of_findTarget found, array⟩)
      | none =>
          simp only [array] at added
          split at added
          · cases added
          · split at added
            · cases added
            · rw [← Except.ok.inj added]
              exact grows_addDependenciesArgument name marks _

include marks in
theorem grows_addToTargets {targets : List Text} {dependency : Text}
    (name : ∀ char ∈ Literal.encode dependency, fresh char)
    (added : addToTargets text targets dependency = .ok new) : Grows fresh text new := by
  induction targets generalizing text with
  | nil =>
      obtain rfl : text = new := Except.ok.inj added
      exact .refl
  | cons target targets ih =>
      rw [addToTargets, List.foldlM_cons] at added
      cases first : addToTarget text target dependency with
      | error error => simp [first, bind, Except.bind] at added
      | ok middle =>
          rw [first] at added
          exact (grows_addToTarget marks name first).trans (ih added)

include marks in
theorem grows_insert {dependency : Dependency} {targets : Option (List Text)}
    {product : Option Text} (declaration : ∀ char ∈ dependency.declaration, fresh char)
    (name : ∀ char ∈ Literal.encode ((filled? product).getD
      (Reference.canonicalName dependency.name)), fresh char)
    (inserted : insert text dependency targets product = .ok new) : Grows fresh text new := by
  rw [insert] at inserted
  cases array : (Source.ofText text).dependenciesSpan? with
  | none => simp [declare, array, bind, Except.bind] at inserted
  | some array =>
      simp only [declare, array, bind, Except.bind] at inserted
      exact (grows_appendElement declaration marks .multiline (.inl array)).trans
        (grows_addToTargets marks name inserted)

end Growing

theorem Shrunk.sublist {text new : Text} (shrunk : Shrunk text new) : new.Sublist text := by
  cases shrunk with
  | mk _ _ _ kept => exact (List.Sublist.refl _).append (kept.append (.refl _))

theorem Shrinks.sublist {text new : Text} (shrinks : Shrinks text new) : new.Sublist text := by
  induction shrinks with
  | refl => exact .refl _
  | tail _ shrunk ih => exact shrunk.sublist.trans ih

section Shrinking

variable {text new : Text}

theorem shrunk_deleteElements {array : Span} (goes : Span → Bool)
    (isArray : (Source.ofText text).IsDependencyArray array) :
    Shrunk text ((Source.ofText text).deleteElements array goes) := by
  obtain ⟨frame, inner, source, balanced, rfl⟩ := isArray.exists_frame
  obtain ⟨row, valid, rfl⟩ := Row.exists_of_balanced balanced
  obtain ⟨rest, deleted, kept⟩ : ∃ rest : List Cell,
      (Source.ofText text).deleteElements (frame.span row.cells) goes = (frame.fill rest).text ∧
        rest.Sublist row.cells := by
    rw [source, frame.deleteElements_fill valid rfl rfl]
    refine ⟨_, rfl, ?_⟩
    split
    · exact List.nil_sublist _
    · exact uncovered_sublist ..
  have same : text = frame.before ++ (chars row.cells ++ frame.behind) := by
    rw [← frame.text_fill, ← source, Source.text_ofText]
  have start : (frame.span row.cells).start = frame.before.length := frame.length_before.symm
  have stop : (frame.span row.cells).stop = (frame.span row.cells).start +
      (chars row.cells).length := by
    rw [Kind.length_chars]
    rfl
  rw [deleted, frame.text_fill]
  generalize frame.span row.cells = array at *
  subst same
  exact .mk isArray start stop (kept.map _)

theorem shrinks_removeFromTarget? {target name : Text}
    (removed : removeFromTarget? text target name = .ok (some new)) : Shrinks text new := by
  obtain ⟨call, found, removed⟩ := Outcome.bind_eq_ok.mp removed
  cases array : (Source.ofText text).targetDependencies? call with
  | none => simp [array, pure, Except.pure] at removed
  | some array =>
      simp only [array] at removed
      split at removed
      · obtain rfl := Option.some.inj (Except.ok.inj removed)
        exact .single (shrunk_deleteElements _ (.inr ⟨call, Source.mem_of_findTarget found, array⟩))
      · cases removed

theorem shrinks_removeFromTargets {targets : List Text} {name : Text} {result : Text × Bool}
    (done : removeFromTargets text targets name = .ok result) : Shrinks text result.1 := by
  rw [removeFromTargets] at done
  generalize false = removed at done
  induction targets generalizing text removed with
  | nil =>
      obtain rfl := Except.ok.inj done
      exact .refl
  | cons target targets ih =>
      rw [List.foldlM_cons] at done
      obtain ⟨⟨middle, removed'⟩, first, done⟩ := Outcome.bind_eq_ok.mp done
      obtain ⟨found, search, first⟩ := Outcome.bind_eq_ok.mp first
      cases found with
      | none =>
          obtain ⟨rfl, rfl⟩ := Prod.mk.inj (Except.ok.inj first)
          exact ih _ done
      | some next =>
          obtain ⟨rfl, rfl⟩ := Prod.mk.inj (Except.ok.inj first)
          exact (shrinks_removeFromTarget? search).trans (ih _ done)

theorem shrinks_removeDeclarations {identifier name : Text}
    (removed : removeDeclarations text identifier name = .ok new) : Shrinks text new := by
  rw [removeDeclarations] at removed
  cases found : (Source.ofText text).dependenciesSpan? with
  | none => simp [found] at removed
  | some array =>
      simp only [found] at removed
      split at removed
      · rw [← Except.ok.inj removed]
        exact .single (shrunk_deleteElements _ (.inl found))
      · rw [← Except.ok.inj removed]
        exact .refl

theorem shrinks_remove {identifier : Text} {targets : Option (List Text)} {dropDeclaration : Bool}
    {edited : Edited} (removed : remove text identifier targets dropDeclaration = .ok edited) :
    Shrinks text edited.text := by
  rw [remove] at removed
  split at removed
  case isTrue => cases removed
  obtain ⟨⟨reduced, gone⟩, references, removed⟩ := Outcome.bind_eq_ok.mp removed
  have front := shrinks_removeFromTargets references
  simp only at removed
  split at removed
  · split at removed
    · obtain ⟨text, declarations, removed⟩ := Outcome.bind_eq_ok.mp removed
      rw [← Except.ok.inj removed]
      exact front.trans (shrinks_removeDeclarations declarations)
    · rw [← Except.ok.inj removed]
      exact front
  · rw [← Except.ok.inj removed]
    exact front

end Shrinking

end Edit

namespace Disk

variable {disk : Disk} {path other : Path} {text : Text}

theorem readText_eq_ok_iff : disk.readText path = .ok text ↔
    ∃ written, disk.read path = .ok (Utf8.encode written) ∧ text = written.withLineFeeds := by
  rw [readText, Outcome.bind_eq_ok]
  constructor
  · rintro ⟨content, read, decoded⟩
    split at decoded
    · rename_i written decodes
      obtain rfl := Utf8.decode_eq_ok_iff.mp decodes
      exact ⟨written, read, (Except.ok.inj decoded).symm⟩
    · cases decoded
  · rintro ⟨written, read, rfl⟩
    refine ⟨_, read, ?_⟩
    rw [Utf8.decode_eq_ok_iff.mpr rfl]
    rfl

theorem readText_eq_of_place {text' : Text} (same : disk.place path = disk.place other)
    (first : disk.readText path = .ok text) (second : disk.readText other = .ok text') :
    text = text' := by
  obtain ⟨written, read, rfl⟩ := readText_eq_ok_iff.mp first
  obtain ⟨written', read', rfl⟩ := readText_eq_ok_iff.mp second
  have there := reach?_of_locate (locate_of_read read)
  rw [same, reach?_of_locate (locate_of_read read')] at there
  injection there with there
  injection there with there
  rw [Utf8.encode_injective there]

theorem readText_writeText {old new : Text} (same : disk.place path = disk.place other)
    (read : disk.readText path = .ok old) (noReturn : '\r' ∉ new) :
    (disk.writeText other new).readText path = .ok new := by
  have target : disk.writeText other new = disk.writeText path new := by
    rw [writeText, write, ← place, ← same]
    rfl
  obtain ⟨written, content, -⟩ := readText_eq_ok_iff.mp read
  refine readText_eq_ok_iff.mpr ⟨new, ?_, (Text.withLineFeeds_eq_self noReturn).symm⟩
  rw [target]
  exact read_write_self (locate_of_read content) rfl content

end Disk

namespace EditCall

variable {surroundings : Surroundings} {workspace : Workspace} {disk : Disk} {call : EditCall}
  {change : Change Answer}

/--
What a call makes of the text of a manifest: an addition lets it grow, a removal lets it shrink.
-/
def Turns : EditCall → Text → Text → Prop
  | add .. => Edit.Grows fun _ => True
  | remove .. => Edit.Shrinks

/--
What stays of the octets of a manifest: an addition keeps those of all characters that
are not blank, and a removal writes none that were not there.
-/
def Spares : EditCall → Text → Text → Prop
  | add .., old, new => (Utf8.encode (old.filter (!isBlank ·))).Sublist (Utf8.encode new)
  | remove .., old, new => (Utf8.encode new).Sublist (Utf8.encode old)

theorem Turns.spares {old new : Text} (turns : call.Turns old new) : call.Spares old new := by
  cases call with
  | add project dependency =>
      exact Utf8.encode_sublist ((Edit.Grows.solid turns).trans List.filter_sublist)
  | remove project dependency targets dropDeclaration =>
      exact Utf8.encode_sublist (Edit.Shrinks.sublist turns)

theorem turns_of_plan (planned : call.plan workspace disk = .ok change) :
    ∃ text, disk.readText change.path = .ok text ∧ call.Turns text change.text := by
  cases call with
  | add project dependency =>
      obtain ⟨addition, added, rfl⟩ := Outcome.map_eq_ok.mp planned
      obtain ⟨found⟩ := Workspace.exists_addition added
      exact ⟨found.text, found.text_eq,
        Edit.grows_insert (fun _ _ => trivial) (fun _ _ => trivial)
          (fun _ _ => trivial) found.insert_eq⟩
  | remove project dependency targets dropDeclaration =>
      obtain ⟨removal, removed, rfl⟩ := Outcome.map_eq_ok.mp planned
      obtain ⟨found⟩ := Workspace.exists_subtraction removed
      refine ⟨found.text, found.text_eq, ?_⟩
      rw [Change.map_text, found.result_eq]
      exact Edit.shrinks_remove found.remove_eq

/--
A call that succeeds reads the manifest of the addressed project with line feeds for all
line ends, and what it writes is this text grown or shrunk.  Without carriage returns the
octets around what it edits stay.  A call that leaves the text as it is leaves the octets
exactly when no carriage return stands among them.
-/
theorem edit_calls_preserve (surroundings : Surroundings) (workspace : Workspace) (disk : Disk)
    (call : EditCall) (succeeds : (call.serve surroundings workspace disk).answer.isOk) :
    ∃ path old new, workspace.manifestPath disk call.project = .ok path ∧
      disk.read path = .ok (Utf8.encode old) ∧
      (call.serve surroundings workspace disk).disk.read path = .ok (Utf8.encode new) ∧
      call.Turns old.withLineFeeds new ∧ ('\r' ∉ old → call.Spares old new) ∧
      (new = old.withLineFeeds → (Utf8.encode new = Utf8.encode old ↔ '\r' ∉ old)) := by
  rw [serve_eq] at succeeds ⊢
  cases planned : call.plan workspace disk with
  | error error => simp [planned, Served.ofPlan, Except.isOk, Except.toBool] at succeeds
  | ok change =>
      have carries := Served.carries_ofPlan surroundings.standIns disk change
      rw [planned] at succeeds
      generalize Served.ofPlan surroundings.standIns disk (.ok change) =
        served at carries succeeds ⊢
      cases carries with
      | emptied => cases succeeds
      | made =>
          obtain ⟨text, readText, turns⟩ := turns_of_plan planned
          obtain ⟨written, read, rfl⟩ := Disk.readText_eq_ok_iff.mp readText
          obtain ⟨old, held⟩ := exists_file_of_plan planned
          refine ⟨change.path, written, change.text, (exists_read_of_plan planned).1, read,
            Disk.read_write_self held rfl read, turns, fun noReturn => ?_, fun same => ?_⟩
          · rw [Text.withLineFeeds_eq_self noReturn] at turns
            exact turns.spares
          · rw [same, ← Text.withLineFeeds_eq_self_iff]
            exact ⟨Utf8.encode_injective, congrArg _⟩

/-- A dependency is added beside a neighbor, and its manifest grows. -/
theorem edit_calls_preserve_neighbors :
    ((addition ['p']).serve bareSurroundings neighborhood neighbors).answer.isOk ∧
      ∃ path old new, neighborhood.manifestPath neighbors ['p'] = .ok path ∧
        neighbors.read path = .ok (Utf8.encode old) ∧
        ((addition ['p']).serve bareSurroundings neighborhood neighbors).disk.read path = .ok
          (Utf8.encode new) ∧
        (addition ['p']).Turns old.withLineFeeds new := by
  have succeeds : ((addition ['p']).serve bareSurroundings neighborhood neighbors).answer.isOk := by
    decide +kernel
  obtain ⟨path, old, new, found, read, written, turns, -⟩ :=
    edit_calls_preserve bareSurroundings neighborhood neighbors (addition ['p']) succeeds
  exact ⟨succeeds, path, old, new, found, read, written, turns⟩

end EditCall

end SwiftWorkspace
