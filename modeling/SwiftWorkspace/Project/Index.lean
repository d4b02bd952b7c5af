import SwiftWorkspace.Path.Given
import SwiftWorkspace.Project.Basic

/-!
# The index of a workspace's projects

Projects are looked up by root, by path or by name.  The first project of a
root or a name owns it, and the name of a directory counts only where no
project has that name.
-/

namespace SwiftWorkspace

/-- Values by distinct keys, in the order in which the keys were added. -/
abbrev Table (β : Type) := List (Text × β)

namespace Table

def insertNew {β : Type} (table : Table β) (key : Text) (value : β) : Table β :=
  if (table.lookup key).isSome then table else table ++ [(key, value)]

theorem lookup_insertNew {β : Type} (table : Table β) (key : Text) (value : β) (other : Text) :
    (table.insertNew key value).lookup other =
      (table.lookup other).or (if other = key then some value else none) := by
  by_cases taken : (table.lookup key).isSome
  · by_cases same : other = key
    · subst same
      obtain ⟨held, found⟩ := Option.isSome_iff_exists.1 taken
      simp [insertNew, found]
    · simp [insertNew, taken, same]
  · by_cases same : other = key
    · subst same
      simp only [Option.not_isSome_iff_eq_none] at taken
      simp [insertNew, taken, List.lookup_append]
    · have differs : (other == key) = false := by simp [same]
      simp [insertNew, taken, same, List.lookup_append, List.lookup_cons, differs]

end Table

structure ProjectIndex where
  projects : List Project
  /-- The first project of each root. -/
  byRoot : Table Project
  /-- The root that each name stands for. -/
  byName : Table Text

namespace ProjectIndex

def claimRoot (table : Table Project) (project : Project) : Table Project :=
  table.insertNew project.key project

/-- Give the project's name to its root, unless it is empty or taken. -/
def claimName (table : Table Text) (project : Project) : Table Text :=
  if project.name.isEmpty then table else table.insertNew project.name project.key

/-- Give the name of the project's directory to its root, unless it says nothing or is taken. -/
def claimBasename (table : Table Text) (project : Project) : Table Text :=
  if project.basename.isEmpty || project.basename = workspaceRoot then table
  else table.insertNew project.basename project.key

def ofProjects (projects : List Project) : ProjectIndex where
  projects := projects
  byRoot := projects.foldl claimRoot []
  byName := projects.foldl claimBasename (projects.foldl claimName [])

/-- The roots in normal form, each once. -/
def roots (index : ProjectIndex) : List Text := index.byRoot.map Prod.fst

/-- The project with the given root, however it is spelled. -/
def get? (index : ProjectIndex) (root : Text) : Option Project :=
  index.byRoot.lookup (Project.normalizeRoot root)

/-- The normal form of a root, if a project has it. -/
def resolveRoot? (index : ProjectIndex) (root : Text) : Option Text :=
  if (index.get? root).isSome then some (Project.normalizeRoot root) else none

/-- The root that a name stands for. -/
def resolveName? (index : ProjectIndex) (name : Text) : Option Text := index.byName.lookup name

/-- The root of the project in the directory that a path leads to, in a given workspace. -/
def resolvePath? (index : ProjectIndex) (workspace path : Path) : Option Text :=
  let absolute := workspace.join path
  if absolute.isUnnameable then none
  else (absolute.collapsed.relativeTo? workspace.collapsed).bind fun relative =>
    index.resolveRoot? relative.text

/-- The root of the project in the directory that a path from outside leads to. -/
def resolveGiven? (index : ProjectIndex) (workspace : Path) (path : GivenPath) : Option Text :=
  let absolute := path.behind workspace
  if absolute.isUnnameable then none
  else do
    let found ← absolute.collapsed.path?
    let relative ← found.relativeTo? workspace.collapsed
    index.resolveRoot? relative.text

def resolveGivenName? (index : ProjectIndex) (name : CodePoints) : Option Text :=
  name.text?.bind index.resolveName?

/-- The project that a reference means, as a name or else as a root. -/
def find? (index : ProjectIndex) (reference : Text) : Option Project :=
  match index.resolveName? reference with
  | some root => index.byRoot.lookup root
  | none => index.get? reference

structure MissingRoot where
  root : Text
  deriving DecidableEq, Repr

def owner (index : ProjectIndex) (root : Text) : Except MissingRoot Project :=
  match index.byRoot.lookup root with
  | some project => .ok project
  | none => .error ⟨root⟩

/--
The project that a reference means, where the root that a name stands for has to be in the
table.
-/
def find (index : ProjectIndex) (reference : Text) : Except MissingRoot (Option Project) :=
  match index.resolveName? reference with
  | some root => (index.owner root).map some
  | none => .ok (index.get? reference)

end ProjectIndex

end SwiftWorkspace
