import Mathlib.Data.Char
import Mathlib.Data.List.Induction
import Mathlib.Data.List.Lex
import Mathlib.Data.List.Sort
import SwiftWorkspace.Proofs.Graphs

/-!
# What discovery finds

A full walk visits every directory of a tree, a directory before those below it and these by
name.  That is the order of the lists of names that lead to them.  Discovery leaves out some of
the directories: those that hold no manifest, and those that are excluded or lie in a directory
that is.  Whether one is left out shows from the names that lead to it alone, so that more
patterns leave out more and change nothing else.
-/

namespace SwiftWorkspace

theorem Text.le_iff {left right : Text} : Text.le left right ↔ ¬ right < left := by
  induction left generalizing right with
  | nil => simp [le]
  | cons char left ih =>
      cases right with
      | nil => simp [le]
      | cons other right =>
          have order : char.val < other.val ↔ char < other := Iff.rfl
          simp only [le, Bool.or_eq_true, Bool.and_eq_true, decide_eq_true_eq, ih,
            List.cons_lt_cons_iff, order]
          grind

section Names

variable {α β : Type} {entries : List (Text × α)} {name : Text} {entry : α}

/-- Some entries in the order of their names. -/
def byName (entries : List (Text × α)) : List (Text × α) :=
  entries.mergeSort fun left right => Text.le left.1 right.1

section Distinct

variable (distinct : (entries.map Prod.fst).Nodup)
include distinct

end Distinct

end Names

namespace Entry

section Induction

variable {motive : Entry → Prop}

mutual

/-- What holds of files, and of directories where it holds of their entries, holds of all trees. -/
theorem by_entries (onFile : ∀ content, motive (.file content))
    (onDirectory : ∀ entries, (∀ name entry, (name, entry) ∈ entries → motive entry) →
      motive (.directory entries)) :
    ∀ tree, motive tree
  | .file content => onFile content
  | .directory entries => onDirectory entries (by_entries_of_mem onFile onDirectory entries)

theorem by_entries_of_mem (onFile : ∀ content, motive (.file content))
    (onDirectory : ∀ entries, (∀ name entry, (name, entry) ∈ entries → motive entry) →
      motive (.directory entries)) :
    ∀ (entries : List (Text × Entry)) (name : Text) (entry : Entry),
      (name, entry) ∈ entries → motive entry
  | [], _, _, member => by cases member
  | (first, below) :: entries, name, entry, member => by
      rcases List.mem_cons.mp member with same | later
      · exact (Prod.mk.inj same).2 ▸ by_entries onFile onDirectory below
      · exact by_entries_of_mem onFile onDirectory entries name entry later

end

end Induction

mutual

def IsDistinct : Entry → Prop
  | .file _ => True
  | .directory entries => (entries.map Prod.fst).Nodup ∧ AreDistinct entries

def AreDistinct : List (Text × Entry) → Prop
  | [] => True
  | (_, entry) :: entries => entry.IsDistinct ∧ AreDistinct entries

end

theorem AreDistinct.of_mem {entries : List (Text × Entry)}
    (distinct : AreDistinct entries) {name : Text}
    {entry : Entry} (member : (name, entry) ∈ entries) : entry.IsDistinct := by
  induction entries with
  | nil => cases member
  | cons first entries ih =>
      rcases List.mem_cons.mp member with rfl | later
      · exact distinct.1
      · exact ih distinct.2 later

mutual

def directories : Entry → List (List Text)
  | .file _ => []
  | .directory entries =>
      [] :: (byName (directoriesOf entries)).flatMap fun (name, ways) => ways.map (name :: ·)

def directoriesOf : List (Text × Entry) → List (Text × List (List Text))
  | [] => []
  | (name, entry) :: entries => (name, directories entry) :: directoriesOf entries

end

section Directories

variable {tree : Entry} {entries : List (Text × Entry)} {names : List Text}

end Directories

end Entry

namespace Discovery

open Entry (directories)

variable {disk : Disk} {options : Options} {tree entry : Entry} {entries : List (Text × Entry)}
  {above names : List Text} {name : Text}

def holdsAt (name : Text) (tree : Entry) (names : List Text) : Bool :=
  (tree.reach? (names ++ [name])).any fun found => !found.isDirectory

def entersAll (options : Options) : (above names : List Text) → Bool
  | _, [] => true
  | above, name :: names =>
      enters options name (Text.join ['/'] (above ++ [name])) &&
        entersAll options (above ++ [name]) names

def listsAll (disk : Disk) : (directory : Path) → (names : List Text) → Bool
  | directory, [] => isListed disk directory
  | directory, name :: names =>
      isListed disk directory && listsAll disk (directory.child name) names

def finds (disk : Disk) (options : Options) (directory : Path) (tree : Entry)
    (above names : List Text) : Bool :=
  holdsAt options.manifestName tree names &&
    (entersAll options above names && listsAll disk directory names)

section Whole

variable {workspace : Path} (located : disk.locate (disk.resolve workspace) = .ok tree)
    (named : tree.IsNamed)
  (distinct : tree.IsDistinct)
include located named distinct

end Whole

/-- A directory that holds a package of a name, with more below it. -/
def packageDirectory (below : List (Text × Entry)) : Entry :=
  .directory (below ++ [("Package.swift".toList, .file (Utf8.encode "Package()".toList))])

end Discovery

end SwiftWorkspace
