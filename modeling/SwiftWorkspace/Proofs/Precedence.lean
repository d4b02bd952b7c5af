import SwiftWorkspace.Proofs.Roots

/-!
# Which project a reference means

Tables are filled project by project, and what is in a table stays.  So a root belongs to the
first project that has it, and a name to the first project of that name, or else to the first one
in a directory of that name.  A name stands for the root of a project, so that no root is missing
when it is looked up for a name.
-/

namespace SwiftWorkspace

namespace ProjectIndex

variable {projects : List Project} {name root reference : Text}

section Tables

variable {β : Type} {table : Table β} {claim : Table β → Project → Table β}
    {claims : Project → Bool}
  {value : Project → β}

/--
Where each project claims a key for its value, if it claims it at all, the key is taken by the
first project that claims it.
-/
theorem lookup_foldl_claim
    (step : ∀ table project, (claim table project).lookup name =
      (table.lookup name).or (if claims project then some (value project) else none)) :
    (projects.foldl claim table).lookup name =
      (table.lookup name).or ((projects.find? claims).map value) := by
  induction projects generalizing table with
  | nil => simp
  | cons project projects ih =>
      rw [List.foldl_cons, ih, step, Option.or_assoc, List.find?_cons]
      cases claims project <;> simp

end Tables

theorem lookup_claimRoot (table : Table Project) (project : Project) :
    (claimRoot table project).lookup root =
    (table.lookup root).or (if project.key = root then some project else none) := by
  rw [claimRoot, Table.lookup_insertNew]
  simp only [eq_comm]

def isNamed (name : Text) (project : Project) : Bool := name ≠ [] && project.name = name

def liesIn (name : Text) (project : Project) : Bool :=
  name ≠ [] && name ≠ workspaceRoot && project.basename = name

theorem lookup_claimName (table : Table Text) (project : Project) :
    (claimName table project).lookup name =
    (table.lookup name).or (if isNamed name project then some project.key else none) := by
  rw [claimName]
  split
  case isTrue empty =>
      have other : isNamed name project = false := by
        rw [isNamed, List.isEmpty_iff.mp empty]
        cases name <;> simp
      simp [other]
  case isFalse filled =>
      rw [Table.lookup_insertNew]
      by_cases same : name = project.name
      · simp_all [isNamed]
      · simp [isNamed, same, Ne.symm same]

theorem lookup_claimBasename (table : Table Text) (project : Project) :
    (claimBasename table project).lookup name =
    (table.lookup name).or (if liesIn name project then some project.key else none) := by
  rw [claimBasename]
  split
  case isTrue silent =>
      have other : liesIn name project = false := by
        by_cases same : project.basename = name
        · rw [same, Bool.or_eq_true, List.isEmpty_iff, decide_eq_true_eq] at silent
          rcases silent with rfl | rfl <;> simp [liesIn]
        · simp [liesIn, same]
      simp [other]
  case isFalse telling =>
      rw [Table.lookup_insertNew]
      by_cases same : name = project.basename
      · simp_all [liesIn]
      · simp [liesIn, same, Ne.symm same]

/-- The first project of a name, or else the first in a directory of that name. -/
def firstCalled? (projects : List Project) (name : Text) : Option Project :=
  (projects.find? (isNamed name)).or (projects.find? (liesIn name))

/-- The first project of a root in normal form. -/
def firstAt? (projects : List Project) (root : Text) : Option Project :=
  projects.find? fun project => project.key = root

theorem lookup_byRoot (projects : List Project) (root : Text) :
    (ofProjects projects).byRoot.lookup root = firstAt? projects root := by
  have step (table : Table Project) (project : Project) : (claimRoot table project).lookup root =
      (table.lookup root).or (if decide (project.key = root) then some (id project) else none) := by
    simpa using lookup_claimRoot table project
  have found : (ofProjects projects).byRoot.lookup root = _ := lookup_foldl_claim step
  rwa [List.lookup_nil, Option.none_or, Option.map_id] at found

theorem resolveName?_eq (projects : List Project) (name : Text) :
    (ofProjects projects).resolveName? name = (firstCalled? projects name).map Project.key := by
  have found : (ofProjects projects).resolveName? name = _ :=
    lookup_foldl_claim lookup_claimBasename
  rw [found, lookup_foldl_claim lookup_claimName, List.lookup_nil, Option.none_or, firstCalled?]
  cases projects.find? (isNamed name) <;> rfl

theorem mem_of_firstCalled? {project : Project}
    (found : firstCalled? projects name = some project) : project ∈ projects := by
  rcases Option.or_eq_some_iff.mp found with named | ⟨-, placed⟩
  · exact List.mem_of_find?_eq_some named
  · exact List.mem_of_find?_eq_some placed

theorem exists_firstAt?_of_resolveName?
    (resolved : (ofProjects projects).resolveName? name = some root) :
    ∃ project, firstAt? projects root = some project := by
  rw [resolveName?_eq] at resolved
  obtain ⟨called, found, rfl⟩ := Option.map_eq_some_iff.mp resolved
  rw [← Option.isSome_iff_exists, firstAt?, List.find?_isSome]
  exact ⟨called, mem_of_firstCalled? found, by simp⟩

theorem find?_eq (projects : List Project) (reference : Text) :
    (ofProjects projects).find? reference =
    firstAt? projects (((ofProjects projects).resolveName? reference).getD
      (Project.normalizeRoot reference)) := by
  rw [find?]
  cases (ofProjects projects).resolveName? reference with
  | none => exact lookup_byRoot projects _
  | some root => exact lookup_byRoot projects root

theorem find_eq_ok (projects : List Project) (reference : Text) :
    (ofProjects projects).find reference = .ok ((ofProjects projects).find? reference) := by
  rw [find, find?]
  cases resolved : (ofProjects projects).resolveName? reference with
  | none => rfl
  | some root =>
      obtain ⟨project, first⟩ := exists_firstAt?_of_resolveName? resolved
      simp [owner, lookup_byRoot, first, Except.map]

section Apart

variable {before after : List Project} {project : Project}

theorem firstCalled?_of_first (named : project.name ≠ [])
    (first : ∀ other ∈ before, other.name ≠ project.name) :
    firstCalled? (before ++ project :: after) project.name = some project := by
  have none : before.find? (isNamed project.name) = none :=
    List.find?_eq_none.mpr fun other member => by simp [isNamed, first other member]
  rw [firstCalled?, List.find?_append, none, Option.none_or,
    List.find?_cons_of_pos (by simp [isNamed, named]), Option.some_or]

theorem firstAt?_of_apart (apart : ((before ++ project :: after).map Project.key).Nodup) :
    firstAt? (before ++ project :: after) project.key = some project := by
  have differs : project.key ∉ before.map Project.key := by
    rw [List.map_append, List.map_cons] at apart
    exact fun member => (List.nodup_append.mp apart).2.2 _ member _ (.head _) rfl
  have none : before.find? (fun other => other.key = project.key) = none := by
    refine List.find?_eq_none.mpr fun other member same => differs ?_
    exact List.mem_map.mpr ⟨other, member, by simpa using same⟩
  rw [firstAt?, List.find?_append, none, Option.none_or, List.find?_cons_of_pos (by simp)]

end Apart

/--
What a reference means: names go before the names of directories and these before roots, the first
project goes before the others, and no lookup of a root fails.
-/
theorem find_by_precedence (projects : List Project) :
    (∀ name, (ofProjects projects).resolveName? name =
      (firstCalled? projects name).map Project.key) ∧
      (∀ entry ∈ (ofProjects projects).byName, entry.2 ∈ (ofProjects projects).roots) ∧
      (∀ reference, (ofProjects projects).find reference =
        .ok ((ofProjects projects).find? reference)) ∧
      (∀ reference root, (ofProjects projects).resolveName? reference = some root →
        ∃ project, firstAt? projects root = some project ∧
          (ofProjects projects).find? reference = some project) ∧
      (∀ reference, (ofProjects projects).resolveName? reference = none →
        (ofProjects projects).find? reference =
          firstAt? projects (Project.normalizeRoot reference)) ∧
      ((projects.map Project.key).Nodup → ∀ before project after,
        projects = before ++ project :: after →
        project.name ≠ [] → (∀ other ∈ before, other.name ≠ project.name) →
        (ofProjects projects).find? project.name = some project) := by
  refine ⟨resolveName?_eq projects, leadsTo_byName projects, find_eq_ok projects, ?_, ?_, ?_⟩
  · intro reference root resolved
    obtain ⟨project, first⟩ := exists_firstAt?_of_resolveName? resolved
    exact ⟨project, first, by rw [find?_eq, resolved, Option.getD_some, first]⟩
  · intro reference unknown
    rw [find?_eq, unknown, Option.getD_none]
  · rintro apart before project after rfl named first
    rw [find?_eq, resolveName?_eq, firstCalled?_of_first named first, Option.map_some,
      Option.getD_some, firstAt?_of_apart apart]

/-- A name goes before the name of a directory, although that belongs to an earlier project. -/
theorem find_by_precedence_core :
    (ofProjects [⟨"Core".toList, "libs/core/".toList⟩, ⟨"core".toList, ".\\apps".toList⟩]).find?
      "core".toList =
      some ⟨"core".toList, ".\\apps".toList⟩ :=
  (find_by_precedence [⟨"Core".toList, "libs/core/".toList⟩,
    ⟨"core".toList, ".\\apps".toList⟩]).2.2.2.2.2
    (by decide +kernel) [⟨"Core".toList, "libs/core/".toList⟩] ⟨"core".toList, ".\\apps".toList⟩
      [] rfl (by decide)
    (by decide)

end ProjectIndex

end SwiftWorkspace
