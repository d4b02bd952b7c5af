import SwiftWorkspace.Disk.Basic

/-!
# Walks through a tree

A path that leads to an entry leads there from name to name along its collapsed
segments.  A file that gets a new content is the only one that changes, no walk
begins or ceases to succeed, and writes to different files commute.
-/

namespace SwiftWorkspace

namespace Entry

def reach? : List Text → Entry → Option Entry
  | [], entry => some entry
  | name :: names, entry => (entry.child? name).bind (reach? names)

section Reaching

variable {names front back : List Text} {name : Text} {tree found : Entry}

theorem reach?_append :
    reach? (front ++ back) tree = (reach? front tree).bind (reach? back) := by
  induction front generalizing tree with
  | nil => rfl
  | cons name front ih =>
      rw [List.cons_append, reach?, reach?, Option.bind_assoc]
      exact congrArg _ (funext fun _ => ih)

theorem reach?_cons_iff : reach? (name :: names) tree = some found ↔
    ∃ entries below, tree = .directory entries ∧ entries.lookup name = some below ∧
      reach? names below = some found := by
  cases tree with
  | file content => simp [reach?, child?]
  | directory entries => simp [reach?, child?, Option.bind_eq_some_iff]

theorem reach?_file_iff {content : Bytes} :
    reach? names (.file content) = some found ↔ names = [] ∧ found = .file content := by
  cases names with
  | nil => simp [reach?, eq_comm]
  | cons name names => simp [reach?, child?]

end Reaching

section Putting

variable {name other : Text} {entry old : Entry} {entries : List (Text × Entry)}

theorem lookup_put :
    (put name entry entries).lookup other =
      if other = name then some entry else entries.lookup other := by
  induction entries with
  | nil => by_cases same : other = name <;> simp [put, same]
  | cons first entries ih =>
      obtain ⟨first, held⟩ := first
      by_cases here : first = name
      · subst here
        by_cases same : other = first
        · simp [put, same]
        · have differs : (other == first) = false := by simpa using same
          simp [put, List.lookup_cons, same, differs]
      · by_cases same : other = name
        · have differs : (other == first) = false := by simpa [same] using Ne.symm here
          simp only [put, if_neg here, List.lookup_cons, differs, ih, if_pos same]
        · simp only [put, if_neg here, List.lookup_cons, ih, if_neg same]

theorem lookup_put_self : (put name entry entries).lookup name = some entry := by
  rw [lookup_put, if_pos rfl]

theorem lookup_put_other (differs : other ≠ name) :
    (put name entry entries).lookup other = entries.lookup other := by
  rw [lookup_put, if_neg differs]

@[simp]
theorem put_put_same : put name entry (put name old entries) = put name entry entries := by
  induction entries with
  | nil => simp [put]
  | cons first entries ih =>
      obtain ⟨first, held⟩ := first
      by_cases here : first = name <;> simp [put, here, ih]

/-- Entries that are there already can be replaced in either order. -/
theorem put_comm {new : Entry} (differs : name ≠ other) (first : (entries.lookup name).isSome)
    (second : (entries.lookup other).isSome) :
    put name entry (put other new entries) = put other new (put name entry entries) := by
  induction entries with
  | nil => simp at first
  | cons head entries ih =>
      obtain ⟨head, held⟩ := head
      by_cases atName : head = name
      · subst atName
        simp [put, differs]
      · by_cases atOther : head = other
        · subst atOther
          simp [put, differs.symm]
        · have name_head : (name == head) = false := by simpa using Ne.symm atName
          have other_head : (other == head) = false := by simpa using Ne.symm atOther
          rw [List.lookup_cons, name_head] at first
          rw [List.lookup_cons, other_head] at second
          simp [put, atName, atOther, ih first second]

end Putting

section Placing

variable {new : Entry} {name : Text} {names path target : List Text} {old : Bytes}
  {tree below : Entry} {entries : List (Text × Entry)}

theorem place_directory (held : entries.lookup name = some below) :
    place new (name :: names) (.directory entries) =
      .directory (put name (place new names below) entries) := by
  rw [place, held, Option.getD_some]

/-- On the way to the new entry each directory holds the new entry instead of the old one. -/
theorem reach?_place_append {front back : List Text}
    (there : (reach? (front ++ back) tree).isSome) :
    reach? front (place new (front ++ back) tree) = (reach? front tree).map (place new back) := by
  induction front generalizing tree with
  | nil => rfl
  | cons name front ih =>
      obtain ⟨found, there⟩ := Option.isSome_iff_exists.mp there
      obtain ⟨entries, below, rfl, held, there⟩ := reach?_cons_iff.mp there
      rw [List.cons_append, place_directory held, reach?, child?, lookup_put_self,
        Option.bind_some, ih (Option.isSome_iff_exists.mpr ⟨found, there⟩), reach?, child?, held,
        Option.bind_some]

/-- Beside the way to a new content of a file all is as it was. -/
theorem reach?_place_other {content : Bytes} (there : reach? target tree = some (.file old))
    (beside : ¬ path <+: target) :
    reach? path (place (.file content) target tree) = reach? path tree := by
  induction target generalizing path tree with
  | nil =>
      obtain rfl : tree = .file old := by simpa [reach?] using there
      cases path with
      | nil => exact absurd (List.nil_prefix ..) beside
      | cons name names => rfl
  | cons name target ih =>
      obtain ⟨entries, below, rfl, held, further_there⟩ := reach?_cons_iff.mp there
      rw [place_directory held]
      cases path with
      | nil => exact absurd (List.nil_prefix ..) beside
      | cons other names =>
          rw [reach?, reach?, child?, child?, lookup_put]
          by_cases same : other = name
          · subst same
            have further : ¬ names <+: target :=
              fun ahead => beside ((List.cons_prefix_cons).mpr ⟨rfl, ahead⟩)
            rw [if_pos rfl, held, Option.bind_some, Option.bind_some, ih further_there further]
          · rw [if_neg same]

theorem reach?_place_self {content : Bytes} (there : reach? target tree = some (.file old)) :
    reach? target (place (.file content) target tree) = some (.file content) := by
  have whole : (reach? (target ++ []) tree).isSome := by simp [there]
  have result : reach? target (place (.file content) (target ++ []) tree) = _ :=
    reach?_place_append whole
  rwa [List.append_nil, there] at result

theorem reach?_place_file {content kept : Bytes} (there : reach? target tree = some (.file old))
    (differs : path ≠ target) :
    reach? path (place (.file content) target tree) = some (.file kept) ↔
      reach? path tree = some (.file kept) := by
  by_cases ahead : path <+: target
  · obtain ⟨back, rfl⟩ := ahead
    cases back with
    | nil => simp at differs
    | cons name back =>
        rw [reach?_place_append (by simp [there])]
        rw [reach?_append] at there
        obtain ⟨below, reached, further⟩ := Option.bind_eq_some_iff.mp there
        obtain ⟨entries, inner, rfl, held, -⟩ := reach?_cons_iff.mp further
        simp [reached, place_directory held]
  · rw [reach?_place_other there ahead]

/-- Whether two trees have the same directories and the same files, whatever these hold. -/
def SameShape (tree other : Entry) : Prop :=
  ∀ names, (tree.reach? names).map isDirectory = (other.reach? names).map isDirectory

/-- A new content of a file leaves all directories and files. -/
theorem sameShape_place {content : Bytes} (there : reach? target tree = some (.file old)) :
    SameShape (place (.file content) target tree) tree := by
  intro path
  by_cases ahead : path <+: target
  · obtain ⟨back, rfl⟩ := ahead
    rw [reach?_place_append (by simp [there])]
    rw [reach?_append] at there
    obtain ⟨below, reached, further⟩ := Option.bind_eq_some_iff.mp there
    rw [reached, Option.map_some, Option.map_some, Option.map_some]
    cases back with
    | nil =>
        obtain rfl : below = .file old := by simpa [reach?] using further
        rfl
    | cons name back =>
        obtain ⟨entries, inner, rfl, held, -⟩ := reach?_cons_iff.mp further
        rw [place_directory held]
        rfl
  · rw [reach?_place_other there ahead]

/-- New contents of different files can be written in either order. -/
theorem place_comm {first second : List Text} {left right older older' : Bytes}
    (first_there : reach? first tree = some (.file older))
    (second_there : reach? second tree = some (.file older')) (differs : first ≠ second) :
    place (.file left) first (place (.file right) second tree) =
      place (.file right) second (place (.file left) first tree) := by
  induction first generalizing second tree with
  | nil =>
      obtain rfl : tree = .file older := by simpa [reach?] using first_there
      exact absurd (reach?_file_iff.mp second_there).1.symm differs
  | cons name first ih =>
      obtain ⟨entries, below, rfl, held, first_there⟩ := reach?_cons_iff.mp first_there
      cases second with
      | nil => simp [reach?] at second_there
      | cons other second =>
          obtain ⟨_, beside, same, held', second_there⟩ := reach?_cons_iff.mp second_there
          obtain rfl := Entry.directory.inj same
          rw [place_directory held, place_directory held']
          by_cases same : name = other
          · subst same
            obtain rfl := Option.some.inj (held.symm.trans held')
            have tails : first ≠ second := fun equal => differs (by rw [equal])
            rw [place_directory lookup_put_self, place_directory lookup_put_self, put_put_same,
              put_put_same, ih first_there second_there tails]
          · rw [place_directory ((lookup_put_other same).trans held),
              place_directory ((lookup_put_other (Ne.symm same)).trans held'),
              put_comm same (by rw [held]; rfl) (by rw [held']; rfl)]

end Placing

section Locating

/-- Which directories stand above an entry, the nearest first, at the end of some names. -/
inductive Stack (tree : Entry) : List Text → List Entry → Entry → Prop where
  | bottom : Stack tree [] [] tree
  | push {names : List Text} {above : List Entry} {entry below : Entry} {name : Text}
      (stack : Stack tree names above entry) (held : entry.child? name = some below) :
      Stack tree (names ++ [name]) (entry :: above) below

variable {tree other entry entry' found : Entry} {names segments : List Text}
  {above above' : List Entry} {entries : List (Text × Entry)} {segment : Text}

theorem locate_up {outer : Entry} :
    locate (outer :: above) (.directory entries) (Path.up :: segments) =
      locate above outer segments := by
  simp [locate]

theorem locate_up_root :
    locate [] (.directory entries) (Path.up :: segments) =
      locate [] (.directory entries) segments := by
  simp [locate]

theorem locate_name (ahead : segment ≠ Path.up) :
    locate above (.directory entries) (segment :: segments) =
      if isLongName segment then .error .tooLong
      else (entries.lookup segment).elim (.error .notFound) fun below =>
        locate (.directory entries :: above) below segments := by
  rw [locate.eq_def]
  simp only [if_neg ahead]
  cases entries.lookup segment <;> rfl

/-- Segments that lead to something lead through a directory. -/
theorem locate_parent {name : Text}
    (located : entry.locate above (segments ++ [name]) = .ok found) :
    ∃ entries, entry.locate above segments = .ok (.directory entries) := by
  induction segments generalizing above entry with
  | nil =>
      cases entry with
      | file content => cases located
      | directory entries => exact ⟨entries, rfl⟩
  | cons segment segments ih =>
      cases entry with
      | file content => cases located
      | directory entries =>
          rw [List.cons_append] at located
          by_cases ahead : segment = Path.up
          · subst ahead
            cases above with
            | nil =>
                rw [locate_up_root] at located ⊢
                exact ih located
            | cons outer above =>
                rw [locate_up] at located ⊢
                exact ih located
          · rw [locate_name ahead] at located ⊢
            by_cases long : isLongName segment
            · simp [long] at located
            · rw [if_neg long] at located ⊢
              cases held : entries.lookup segment with
              | none => simp [held] at located
              | some below =>
                  rw [held] at located
                  exact ih located

theorem Stack.reach?_eq (stack : Stack tree names above entry) :
    tree.reach? names = some entry := by
  induction stack with
  | bottom => rfl
  | push stack held ih => rw [reach?_append, ih, Option.bind_some, reach?, held]; rfl

/-- What stands above an entry is where the walk goes back to. -/
theorem Stack.pop {outer : Entry} (stack : Stack tree names (outer :: above) entry) :
    Stack tree names.dropLast above outer := by
  cases stack with
  | push stack held => simpa using stack

theorem Stack.eq_bottom (stack : Stack tree names [] entry) : names = [] ∧ entry = tree := by
  cases stack
  exact ⟨rfl, rfl⟩

theorem Stack.length_eq (stack : Stack tree names above entry) : above.length = names.length := by
  induction stack with
  | bottom => rfl
  | push stack held ih => rw [List.length_cons, ih, List.length_append, List.length_singleton]

def follow (names : List Text) (segment : Text) : List Text :=
  if segment = Path.up then names.dropLast else names ++ [segment]

/-- What a walk finds stands at the end of the names that are left of it. -/
theorem Stack.reach?_locate (stack : Stack tree names above entry)
    (located : entry.locate above segments = .ok found) :
    tree.reach? (segments.foldl follow names) = some found := by
  induction segments generalizing names above entry with
  | nil =>
      rw [Entry.locate] at located
      rw [List.foldl_nil, stack.reach?_eq, Except.ok.inj located]
  | cons segment segments ih =>
      rw [List.foldl_cons, follow]
      cases entry with
      | file content => simp [Entry.locate] at located
      | directory entries =>
          by_cases back : segment = Path.up
          · subst back
            rw [if_pos rfl]
            cases above with
            | nil =>
                obtain ⟨rfl, rfl⟩ := stack.eq_bottom
                rw [locate_up_root] at located
                exact ih .bottom located
            | cons outer above =>
                rw [locate_up] at located
                exact ih stack.pop located
          · rw [locate_name back] at located
            rw [if_neg back]
            split at located
            case isTrue => cases located
            case isFalse =>
                cases held : entries.lookup segment with
                | none => simp [held] at located
                | some below =>
                    rw [held, Option.elim_some] at located
                    exact ih (stack.push held) located

/-- At one place trees of the same shape both have a directory or both have a file. -/
theorem Stack.isDirectory_eq (alike : SameShape tree other) (stack : Stack tree names above entry)
    (stack' : Stack other names above' entry') : entry.isDirectory = entry'.isDirectory := by
  have here := alike names
  rw [stack.reach?_eq, stack'.reach?_eq] at here
  exact Option.some.inj here

theorem Stack.lookup_isSome_eq {entries entries' : List (Text × Entry)}
    (alike : SameShape tree other) (stack : Stack tree names above (.directory entries))
    (stack' : Stack other names above' (.directory entries')) (name : Text) :
    (entries.lookup name).isSome = (entries'.lookup name).isSome := by
  have next := congrArg Option.isSome (alike (names ++ [name]))
  rw [reach?_append, reach?_append, stack.reach?_eq, stack'.reach?_eq] at next
  simpa [reach?, child?] using next

/-- Through trees of the same shape walks end alike. -/
theorem Stack.locate_alike (alike : SameShape tree other) (stack : Stack tree names above entry)
    (stack' : Stack other names above' entry') :
    (entry.locate above segments).map isDirectory =
      (entry'.locate above' segments).map isDirectory := by
  induction segments generalizing names above above' entry entry' with
  | nil =>
      rw [Entry.locate, Entry.locate, Except.map, Except.map, stack.isDirectory_eq alike stack']
  | cons segment segments ih =>
      have here := stack.isDirectory_eq alike stack'
      cases entry with
      | file content =>
          cases entry' with
          | file content' => rfl
          | directory entries' => simp [isDirectory] at here
      | directory entries =>
          cases entry' with
          | file content' => simp [isDirectory] at here
          | directory entries' =>
              by_cases back : segment = Path.up
              · subst back
                have depth := stack.length_eq.trans stack'.length_eq.symm
                cases above with
                | nil =>
                    obtain rfl : above' = [] := List.length_eq_zero_iff.mp depth.symm
                    rw [locate_up_root, locate_up_root]
                    exact ih stack stack'
                | cons outer above =>
                    cases above' with
                    | nil => simp at depth
                    | cons outer' above' =>
                        rw [locate_up, locate_up]
                        exact ih stack.pop stack'.pop
              · rw [locate_name back, locate_name back]
                split
                case isTrue => rfl
                case isFalse =>
                    have next := stack.lookup_isSome_eq alike stack' segment
                    cases held : entries.lookup segment with
                    | none =>
                        have missing : entries'.lookup segment = none := by simpa [held] using next
                        rw [missing]
                        rfl
                    | some below =>
                        obtain ⟨below', held'⟩ : ∃ below', entries'.lookup segment =
                            some below' := by
                          simpa [held, Option.isSome_iff_exists] using next.symm
                        rw [held']
                        exact ih (stack.push held) (stack'.push held')

end Locating

end Entry

namespace Disk

variable {disk : Disk} {path target : Path} {found : Entry} {content old : Bytes}

/-- The place that a path leads to: the names of its directories and its own. -/
def place (disk : Disk) (path : Path) : List Text := (disk.resolve path).segments

theorem place_congr {other : Disk} (same : disk.workingDirectory = other.workingDirectory)
    (path : Path) : disk.place path = other.place path := by
  rw [place, place, resolve, resolve, same]

/--
A path leads to something when it can name something, is not too long and its segments lead
there.
-/
theorem locate_eq_ok_iff : disk.locate path = .ok found ↔
    (disk.workingDirectory.join path).isUnnameable = false ∧ isLongPath path = false ∧
      disk.root.locate [] (disk.workingDirectory.join path).segments = .ok found := by
  rw [locate]
  cases (disk.workingDirectory.join path).isUnnameable <;> cases isLongPath path <;> simp

theorem reach?_of_locate (located : disk.locate path = .ok found) :
    disk.root.reach? (disk.place path) = some found := by
  obtain ⟨-, -, walked⟩ := locate_eq_ok_iff.mp located
  exact Entry.Stack.bottom.reach?_locate walked

theorem locate_of_read (read : disk.read path = .ok content) :
    disk.locate path = .ok (.file content) := by
  rw [Disk.read] at read
  split at read
  case h_1 held located => rw [located, Except.ok.inj read]
  case h_2 => cases read
  case h_3 => cases read

theorem read_of_locate (located : disk.locate path = .ok (.file content)) :
    disk.read path = .ok content := by
  rw [Disk.read, located]

theorem locate_alike {other : Disk} (alike : Entry.SameShape disk.root other.root)
    (same : disk.workingDirectory = other.workingDirectory) (path : Path) :
    (disk.locate path).map Entry.isDirectory = (other.locate path).map Entry.isDirectory := by
  rw [locate, locate, same]
  split
  · rfl
  · split
    · rfl
    · exact Entry.Stack.bottom.locate_alike alike .bottom

theorem find?_alike {other : Disk} (alike : Entry.SameShape disk.root other.root)
    (same : disk.workingDirectory = other.workingDirectory) :
    (disk.find? path).map (Option.map Entry.isDirectory) =
      (other.find? path).map (Option.map Entry.isDirectory) := by
  have ends := locate_alike alike same path
  rw [find?, find?]
  cases left : disk.locate path with
  | ok entry =>
      cases right : other.locate path with
      | ok entry' => simpa [left, right, Except.map] using ends
      | error cause => simp [left, right, Except.map] at ends
  | error cause =>
      cases right : other.locate path with
      | ok entry' => simp [left, right, Except.map] at ends
      | error cause' =>
          obtain rfl : cause = cause' := by simpa [left, right, Except.map] using ends
          cases cause <;> rfl

theorem isFile_eq : disk.isFile path =
    ((disk.find? path).map (Option.map Entry.isDirectory)).map fun kind => kind.any (!·) := by
  rw [isFile]
  cases disk.find? path with
  | error failure => rfl
  | ok entry => cases entry <;> rfl

theorem isFile_alike {other : Disk} (alike : Entry.SameShape disk.root other.root)
    (same : disk.workingDirectory = other.workingDirectory) :
    disk.isFile path = other.isFile path := by
  rw [isFile_eq, isFile_eq, find?_alike alike same]

section Writing

theorem place_write : (disk.write target content).place path = disk.place path := rfl

variable (held : disk.locate target = .ok (.file old))

include held

theorem sameShape_write (content : Bytes) :
    Entry.SameShape (disk.write target content).root disk.root :=
  Entry.sameShape_place (reach?_of_locate held)

/-- A path to the place of a file that is written leads to its new content. -/
theorem read_write_self {kept : Bytes} (same : disk.place path = disk.place target)
    (read : disk.read path = .ok kept) : (disk.write target content).read path = .ok content := by
  have ends := locate_alike (sameShape_write held content) rfl path
  rw [locate_of_read read] at ends
  cases located : (disk.write target content).locate path with
  | error cause => simp [located, Except.map] at ends
  | ok entry =>
      have there := reach?_of_locate located
      rw [place_write, same] at there
      have written : (disk.write target content).root.reach? (disk.place target) =
          some (.file content) :=
        Entry.reach?_place_self (reach?_of_locate held)
      obtain rfl := Option.some.inj (there.symm.trans written)
      exact read_of_locate located

theorem read_write_other (differs : disk.place path ≠ disk.place target) :
    (disk.write target content).read path = disk.read path := by
  have ends := locate_alike (sameShape_write held content) rfl path
  rw [read, read]
  cases before : disk.locate path with
  | error cause =>
      cases after : (disk.write target content).locate path with
      | error cause' =>
          obtain rfl : cause' = cause := by simpa [before, after, Except.map] using ends
          rfl
      | ok entry => simp [before, after, Except.map] at ends
  | ok entry =>
      cases after : (disk.write target content).locate path with
      | error cause => simp [before, after, Except.map] at ends
      | ok entry' =>
          have shape : entry'.isDirectory = entry.isDirectory := by
            simpa [before, after, Except.map] using ends
          cases entry with
          | directory entries =>
              cases entry' with
              | directory entries' => rfl
              | file kept => simp [Entry.isDirectory] at shape
          | file kept =>
              have stays : (disk.write target content).root.reach? (disk.place path) =
                  some (.file kept) :=
                (Entry.reach?_place_file (reach?_of_locate held) differs).mpr
                  (reach?_of_locate before)
              obtain rfl := Option.some.inj ((reach?_of_locate after).symm.trans stays)
              rfl

/-- Files at different places can be written in either order. -/
theorem write_comm {other : Path} {older content' : Bytes}
    (held' : disk.locate other = .ok (.file older))
    (differs : disk.place target ≠ disk.place other) :
    (disk.write other content').write target content =
      (disk.write target content).write other content' :=
  congrArg (fun root => { disk with root })
    (Entry.place_comm (reach?_of_locate held) (reach?_of_locate held') differs)

end Writing

end Disk

end SwiftWorkspace
