import SwiftWorkspace.Proofs.GivenPaths
import SwiftWorkspace.Proofs.Loops
import SwiftWorkspace.Proofs.Spellings

/-!
# Which path is resolved to which root

A path is resolved by what it collapses to and not by how it is spelled.  It is resolved to the
root of a project when it collapses to the directory of that project, and to nothing when it
leads out of the workspace.  The way from one project to another goes up to the last directory
that both lie in and down from there, and it is resolved to the other project.

A path that holds a null character or half of a surrogate pair cannot name anything and leads
nowhere, even where collapsing it removes that code point; only a half that stands for an octet
may be left again.
-/

namespace SwiftWorkspace

theorem Text.strip_of_noBlank {text : Text} (noBlank : ∀ char ∈ text, isBlank char = false) :
    text.strip = text := by
  have start : text.dropWhile isBlank = text :=
    List.dropWhile_eq_self_iff.mpr fun filled =>
      Bool.eq_false_iff.mp (noBlank _ (List.getElem_mem filled))
  rw [strip, trim, trimStart, start, trimEnd_of_forall noBlank]

namespace Path

variable {names : List Text} {name : Text}

/-- What a path is read from holds all characters of its segments. -/
theorem mem_of_mem_segments {text : Text} {char : Char} (member : name ∈ (ofText text).segments)
    (held : char ∈ name) : char ∈ text := by
  have part := List.mem_of_mem_filter member
  rw [List.splitOn_eq_splitOnP] at part
  exact (Text.mem_of_mem_splitOnP part held).1

/-- Between its names a path has only slashes, or a dot in place of names. -/
theorem mem_text_below {char : Char} (member : char ∈ (below names).text) :
    char = '.' ∨ char = '/' ∨ ∃ name ∈ names, char ∈ name := by
  rw [text_below] at member
  split at member
  · exact .inl (List.mem_singleton.mp member)
  · exact .inr ((Text.mem_join member).imp_left List.mem_singleton.mp)

end Path

namespace GivenPath

variable {given : GivenPath} {points : CodePoints} {workspace : Path}
    {names : List Text} {name : Text}

/-- A segment that is a text is read from the characters of the path, without slashes. -/
theorem of_mem_segments (member : CodePoints.ofText name ∈ (ofPoints points).segments) :
    Path.IsWritten name ∧ ∀ char ∈ name, .ofChar char ∈ points := by
  obtain ⟨part, kept⟩ := List.mem_filter.mp member
  rw [List.splitOn_eq_splitOnP] at part
  have spelled : name ≠ [] ∧ name ≠ Path.here := by
    simpa [CodePoints.ofText_inj, CodePoints.ofText_eq_nil] using kept
  refine ⟨⟨spelled.1, spelled.2, fun slash => ?_⟩, fun char held => ?_⟩
  · have separates := (Text.mem_of_mem_splitOnP part (List.mem_map_of_mem slash)).2
    simp at separates
  · exact (Text.mem_of_mem_splitOnP part (List.mem_map_of_mem held)).1

/-- What a path leads to below the workspace is named in the path, however it gets there. -/
theorem mem_of_behind_workspace (below : (given.behind workspace).collapsed.segments =
    (workspace.collapsed.segments ++ names).map CodePoints.ofText) :
    ∀ name ∈ names, CodePoints.ofText name ∈ given.segments := by
  intro name member
  rw [List.map_append] at below
  have there : CodePoints.ofText name ∈ names.map CodePoints.ofText := List.mem_map_of_mem member
  rw [behind] at below
  split at below
  · have held : CodePoints.ofText name ∈ given.collapsed.segments :=
      below ▸ List.mem_append_right _ there
    exact (Path.foldl_followBy_nil _ given.segments).2 _ held
  · rw [collapsed, collapse, List.foldl_append] at below
    have start : (workspace.segments.map CodePoints.ofText).foldl
        (Path.followBy (CodePoints.ofText Path.up)) [] =
        workspace.collapsed.segments.map CodePoints.ofText := collapse_ofText workspace.segments
    obtain ⟨front, back, same, ahead, -, inside⟩ :=
      Path.foldl_followBy_spec (CodePoints.ofText Path.up) given.segments
      (workspace.collapsed.segments.map CodePoints.ofText)
    rw [start] at below
    have whole := same.symm.trans below
    obtain ⟨rest, full⟩ := ahead
    rw [← full, List.append_assoc] at whole
    exact inside _ (List.append_cancel_left whole ▸ List.mem_append_right _ there)

theorem up_not_mem_collapsed : CodePoints.ofText Path.up ∉ given.collapsed.segments :=
  (Path.foldl_followBy_nil _ given.segments).1

end GivenPath

/--
Whether a root is a dot or the names of directories between slashes, without blanks around it.
-/
structure IsCanonical (root : Text) : Prop where
  written : ∃ names, root = (Path.below names).text ∧ ∀ name ∈ names, Path.IsWritten name ∧
    name ≠ Path.up
  noBackslash : '\\' ∉ root
  stripped : root.strip = root

namespace IsCanonical

open RelativePath (IsNormal)

variable {root : Text} {names : List Text}

section Written

variable (inside : ∀ name ∈ names, Path.IsWritten name)
include inside

/--
A root that is more than a dot is split into its names, so that no other part stands between its
slashes.
-/
theorem mem_of_mem_splitOn (filled : names ≠ []) {part : Text}
    (member : part ∈ (Path.below names).text.splitOn '/') : Path.IsWritten part := by
  rw [Path.text_below, if_neg (by simpa using filled), Path.splitOn_join inside filled] at member
  exact inside part member

theorem dropLeadingDots_below :
    Project.dropLeadingDots (Path.below names).text = (Path.below names).text := by
  unfold Project.dropLeadingDots
  split
  case h_2 => rfl
  case h_1 text tail same =>
      cases names with
      | nil => cases same
      | cons first names =>
          have dot : Path.here ∈ (Path.below (first :: names)).text.splitOn '/' := by
            rw [same]
            exact List.splitOn_append_cons_self (a := '/') Path.here tail ▸
              List.mem_append_left _ (by decide)
          exact absurd rfl (mem_of_mem_splitOn inside (List.cons_ne_nil _ _) dot).2.1

theorem trimEnd_below :
    Text.trimEnd (· = '/') (Path.below names).text = (Path.below names).text := by
  cases names with
  | nil => rfl
  | cons first names =>
      refine List.rdropWhile_eq_self_iff.mpr fun filled slash => ?_
      have none : [] ∈ (Path.below (first :: names)).text.splitOn '/' := by
        rw [← List.dropLast_concat_getLast filled, of_decide_eq_true slash,
          List.splitOn_append_cons_self]
        simp
      exact absurd rfl (mem_of_mem_splitOn inside (List.cons_ne_nil _ _) none).1

theorem text_below_ne_nil : (Path.below names).text ≠ [] := by
  cases names with
  | nil => simp [Path.text_below, Path.here]
  | cons first names =>
      intro empty
      have none : [] ∈ (Path.below (first :: names)).text.splitOn '/' := by simp [empty]
      exact absurd rfl (mem_of_mem_splitOn inside (List.cons_ne_nil _ _) none).1

end Written

/-- A root is read as it is written, and its names lead down only. -/
theorem exists_names (canonical : IsCanonical root) :
    ∃ names, root = (Path.below names).text ∧ Path.ofText root = Path.below names ∧
      Path.up ∉ names := by
  obtain ⟨names, rfl, inside⟩ := canonical.written
  exact ⟨names, rfl, Path.ofText_below fun name member => (inside name member).1, fun member =>
    (inside _ member).2 rfl⟩

theorem isNormal (canonical : IsCanonical root) : IsNormal root := by
  obtain ⟨⟨names, rfl, inside⟩, noBackslash, stripped⟩ := canonical
  have written := fun name member => (inside name member).1
  refine ⟨?_, noBackslash⟩
  rw [Project.normalizeRoot, Text.replace_of_not_mem noBackslash, stripped,
    dropLeadingDots_below written, trimEnd_below written]
  simp only [List.isEmpty_iff, text_below_ne_nil written, if_false]

/-- Names between slashes make up a root where no character is blank or a backslash. -/
theorem below (inside : ∀ name ∈ names, Path.IsWritten name ∧ name ≠ Path.up)
    (clean : ∀ char ∈ (Path.below names).text, isBlank char = false ∧ char ≠ '\\') :
    IsCanonical (Path.below names).text :=
  ⟨⟨names, rfl, inside⟩, fun member => (clean _ member).2 rfl,
    Text.strip_of_noBlank fun char member => (clean char member).1⟩

end IsCanonical

namespace RelativePath

variable {start target : List Text}

/-- Whether some names are the longest ones that two lists of names both begin with. -/
structure IsShared (start target shared : List Text) : Prop where
  left : shared <+: start
  right : shared <+: target
  longest : ∀ {others : List Text}, others <+: start → others <+: target → others <+: shared

/--
A way leads up from all names but the shared ones, and down along all other names but the shared
ones.
-/
theorem exists_shared (start target : List Text) : ∃ shared, IsShared start target shared ∧
    (steps start target).length + 2 * shared.length = start.length + target.length := by
  fun_induction steps start target with
  | case1 lefts left rights ih =>
      obtain ⟨shared, ⟨lefts_begin, rights_begin, longest⟩, count⟩ := ih
      refine ⟨left :: shared, ⟨List.cons_prefix_cons.mpr ⟨rfl, lefts_begin⟩,
        List.cons_prefix_cons.mpr ⟨rfl, rights_begin⟩, fun {others} before behind => ?_⟩, ?_⟩
      · cases others with
        | nil => exact List.nil_prefix
        | cons other others =>
            obtain ⟨rfl, further⟩ := List.cons_prefix_cons.mp before
            exact List.cons_prefix_cons.mpr
              ⟨rfl, longest further (List.cons_prefix_cons.mp behind).2⟩
      · simp only [List.length_cons]
        omega
  | case2 left lefts right rights differs =>
      refine ⟨[], ⟨List.nil_prefix, List.nil_prefix, fun {others} before behind => ?_⟩, ?_⟩
      · cases others with
        | nil => exact List.nil_prefix
        | cons other others =>
            obtain ⟨rfl, -⟩ := List.cons_prefix_cons.mp before
            exact absurd (List.cons_prefix_cons.mp behind).1 differs
      · simp only [List.length_append, List.length_replicate, List.length_cons, List.length_nil]
        omega
  | case3 start target apart =>
      refine ⟨[], ⟨List.nil_prefix, List.nil_prefix, fun {others} before behind => ?_⟩, ?_⟩
      · cases others with
        | nil => exact List.nil_prefix
        | cons other others =>
            obtain ⟨lefts, rfl⟩ := before
            obtain ⟨rights, rfl⟩ := behind
            exact (apart _ _ _ _ rfl rfl).elim
      · simp

section Joined

variable {workspace : Path} (absolute : workspace.isAbsolute)
include absolute

theorem join_way :
    workspace.join ((workspace.join (Path.below start)).join (Path.below (steps start target))) =
    ⟨workspace.anchor, workspace.segments ++ start ++ steps start target⟩ :=
  if_pos absolute

theorem collapsed_way (start_plain : Path.up ∉ start) (target_plain : Path.up ∉ target) :
    (workspace.join ((workspace.join (Path.below start)).join
      (Path.below (steps start target)))).collapsed.segments =
      workspace.collapsed.segments ++ target := by
  rw [join_way absolute, Path.collapsed, Path.collapse_append, Path.collapse_append,
    Path.foldl_follow_names start_plain]
  exact foldl_follow_steps target_plain

theorem isUnnameable_way (nameable : workspace.isUnnameable = false)
    (start_nameable : ∀ name ∈ start, Char.ofNat 0 ∉ name)
    (target_nameable : ∀ name ∈ target, Char.ofNat 0 ∉ name) :
    (workspace.join ((workspace.join (Path.below start)).join
      (Path.below (steps start target)))).isUnnameable = false := by
  rw [Path.isUnnameable, List.any_eq_false] at nameable
  rw [join_way absolute, Path.isUnnameable, List.any_eq_false]
  intro name member
  rcases List.mem_append.mp member with before | step
  · rcases List.mem_append.mp before with above | inside
    · exact nameable name above
    · simpa using start_nameable name inside
  · rcases mem_steps step with rfl | inside
    · decide
    · simpa using target_nameable name inside

end Joined

section Between

variable {left right : Text} (left_plain : '\\' ∉ left) (right_plain : '\\' ∉ right)

include left_plain right_plain

theorem between_eq :
    between left right =
      (Path.below (steps (Path.ofText left).segments (Path.ofText right).segments)).text := by
  rw [between, segments_eq_ofText left_plain, segments_eq_ofText right_plain, Path.text_below]
  rfl

/-- The path between two directories is read as it is written. -/
theorem ofText_between :
    Path.ofText (between left right) =
      Path.below (steps (Path.ofText left).segments (Path.ofText right).segments) := by
  rw [between_eq left_plain right_plain]
  refine Path.ofText_below fun name member => ?_
  rcases mem_steps member with rfl | inside
  · decide
  · exact Path.isWritten_of_mem_ofText inside

/--
The path between two directories goes up to the last one that both lie in and down from there.
-/
theorem between_shortest : ∃ way shared,
    Path.ofText (between left right) = Path.below way ∧
      (way = [] → between left right = Path.here) ∧
      IsShared (Path.ofText left).segments (Path.ofText right).segments shared ∧
      way.length + 2 * shared.length = (Path.ofText left).segments.length +
        (Path.ofText right).segments.length := by
  obtain ⟨shared, longest, count⟩ :=
    exists_shared (Path.ofText left).segments (Path.ofText right).segments
  refine ⟨_, shared, ofText_between left_plain right_plain, fun none => ?_, longest, count⟩
  rw [between_eq left_plain right_plain, none]
  rfl

end Between

end RelativePath

namespace ProjectIndex

open RelativePath (IsNormal IsShared)

variable {index : ProjectIndex} {projects : List Project} {project : Project}
    {workspace path : Path}
  {given : GivenPath} {points : CodePoints} {root : Text} {names : List Text}

theorem segmentsBelow?_eq_some_iff {base segments : List Text} :
    Path.segmentsBelow? base segments = some names ↔ segments = base ++ names :=
  ⟨Path.eq_append_of_segmentsBelow?, fun same => same ▸ Path.segmentsBelow?_append base names⟩

theorem resolveGiven?_eq_some_iff : index.resolveGiven? workspace given = some root ↔
    (given.behind workspace).isUnnameable = false ∧ ∃ names,
      (given.behind workspace).collapsed.segments = (workspace.collapsed.segments ++ names).map
        CodePoints.ofText ∧
        index.resolveRoot? (Path.below names).text = some root := by
  rw [resolveGiven?]
  cases (given.behind workspace).isUnnameable with
  | true => simp
  | false =>
      simp only [Bool.false_eq_true, if_false, true_and, bind, Option.bind_eq_some_iff,
        GivenPath.path?_eq_some]
      constructor
      · rintro ⟨found, same, relative, below, resolved⟩
        rw [Path.relativeTo?] at below
        split at below
        case isTrue =>
            obtain ⟨names, rest, rfl⟩ := Option.map_eq_some_iff.mp below
            rw [same, GivenPath.ofPath, segmentsBelow?_eq_some_iff.mp rest]
            exact ⟨names, rfl, resolved⟩
        case isFalse => cases below
      · rintro ⟨names, same, resolved⟩
        refine ⟨⟨.root, workspace.collapsed.segments ++ names⟩, congrArg (GivenPath.mk .root) same,
          Path.below names, ?_, resolved⟩
        rw [Path.relativeTo?, Path.collapsed, if_pos rfl, ← Path.collapsed,
          Path.segmentsBelow?_append]
        rfl

theorem resolvePath?_eq_some_iff : index.resolvePath? workspace path = some root ↔
    (workspace.join path).isUnnameable = false ∧ ∃ names,
      (workspace.join path).collapsed.segments = workspace.collapsed.segments ++ names ∧
        index.resolveRoot? (Path.below names).text = some root := by
  rw [← resolveGiven?_ofPath, resolveGiven?_eq_some_iff, GivenPath.behind_ofPath,
    GivenPath.isUnnameable_ofPath, GivenPath.collapsed_ofPath]
  simp only [GivenPath.ofPath,
    (List.map_injective_iff.mpr fun _ _ => CodePoints.ofText_injective).eq_iff]

/-- A path that cannot name anything leads to no project. -/
theorem resolveGiven?_of_isUnnameable (unnameable : (given.behind workspace).isUnnameable) :
    index.resolveGiven? workspace given = none := by
  rw [resolveGiven?, if_pos unnameable]

/-- A path that leads out of the workspace leads to no project. -/
theorem resolveGiven?_of_outside
    (outside : ¬ workspace.collapsed.segments.map CodePoints.ofText <+:
      (given.behind workspace).collapsed.segments) :
    index.resolveGiven? workspace given = none := by
  refine Option.eq_none_iff_forall_ne_some.mpr fun root resolved => outside ?_
  obtain ⟨-, names, below, -⟩ := resolveGiven?_eq_some_iff.mp resolved
  rw [below, List.map_append]
  exact List.prefix_append _ _

theorem resolveGiven?_congr {other : GivenPath}
    (nameable : (given.behind workspace).isUnnameable = false)
    (other_nameable : (other.behind workspace).isUnnameable = false)
    (same : (given.behind workspace).collapsed = (other.behind workspace).collapsed) :
    index.resolveGiven? workspace given = index.resolveGiven? workspace other := by
  simp only [resolveGiven?, nameable, other_nameable, same]

theorem resolvePath?_of_collapsed (member : project ∈ projects) (normal : IsNormal project.root)
    (same : project.root = (Path.below names).text)
    (nameable : (workspace.join path).isUnnameable = false)
    (below : (workspace.join path).collapsed.segments = workspace.collapsed.segments ++ names) :
    (ofProjects projects).resolvePath? workspace path = some project.root :=
  resolvePath?_eq_some_iff.mpr ⟨nameable, names, below, same ▸ resolveRoot?_of_mem member normal⟩

theorem collapsed_join_below (plain : Path.up ∉ names) :
    (workspace.join (Path.below names)).collapsed.segments =
      workspace.collapsed.segments ++ names :=
  (Path.collapse_append _ _).trans (Path.foldl_follow_names plain)

section Canonical

variable (canonical : ∀ project ∈ projects, IsCanonical project.root)
include canonical

/--
A path that is spelled plainly leads to the project whose root collapses to the same directory,
and to no other.
-/
theorem resolveGiven?_ofPoints_iff
    (clean : ∀ char, .ofChar char ∈ points → isBlank char = false ∧ char ≠ '\\')
    (nameable : ((GivenPath.ofPoints points).behind workspace).isUnnameable = false) :
    (ofProjects projects).resolveGiven? workspace (.ofPoints points) = some root ↔
      (∃ project ∈ projects, project.root = root) ∧
        ((GivenPath.ofPoints points).behind workspace).collapsed =
          .ofPath (workspace.join (Path.ofText root)).collapsed := by
  constructor
  · intro resolved
    obtain ⟨-, names, below, found⟩ := resolveGiven?_eq_some_iff.mp resolved
    have named := GivenPath.mem_of_behind_workspace below
    have plain : CodePoints.ofText Path.up ∉ (workspace.collapsed.segments ++ names).map
        CodePoints.ofText :=
      below ▸ GivenPath.up_not_mem_collapsed
    have inside (name : Text) (member : name ∈ names) : Path.IsWritten name ∧ name ≠ Path.up :=
      ⟨(GivenPath.of_mem_segments (named name member)).1, fun isUp =>
        plain (List.mem_map_of_mem (isUp ▸ List.mem_append_right _ member))⟩
    have spelled : IsCanonical (Path.below names).text := by
      refine IsCanonical.below inside fun char member => ?_
      rcases Path.mem_text_below member with rfl | rfl | ⟨name, among, held⟩
      · decide
      · decide
      · exact clean char ((GivenPath.of_mem_segments (named name among)).2 char held)
    obtain rfl : (Path.below names).text = root := by
      rw [resolveRoot?, spelled.isNormal.normal, Option.ite_none_right_eq_some] at found
      exact Option.some.inj found.2
    refine ⟨?_, ?_⟩
    · obtain ⟨project, member, same⟩ :=
        exists_project_of_mem_roots (mem_roots_of_resolveGiven? resolved)
      exact ⟨project, member, (canonical project member).isNormal.normal.symm.trans same⟩
    · rw [Path.ofText_below fun name member => (inside name member).1]
      refine congrArg (GivenPath.mk .root) (below.trans ?_)
      rw [collapsed_join_below fun member => (inside _ member).2 rfl]
  · rintro ⟨⟨project, member, rfl⟩, same⟩
    have spelled := canonical project member
    obtain ⟨names, root, read, plain⟩ := spelled.exists_names
    refine resolveGiven?_eq_some_iff.mpr ⟨nameable, names, ?_, ?_⟩
    · rw [same, read]
      exact congrArg (List.map CodePoints.ofText) (collapsed_join_below plain)
    · exact root ▸ resolveRoot?_of_mem member spelled.isNormal

/-- The path between the roots of two projects leads from the first one to the second one. -/
theorem resolvePath?_between_canonical {start target : Project} (absolute : workspace.isAbsolute)
    (nameable : workspace.isUnnameable = false) (start_member : start ∈ projects)
    (target_member : target ∈ projects)
    (start_nameable : Char.ofNat 0 ∉ start.root) (target_nameable : Char.ofNat 0 ∉ target.root) :
    (ofProjects projects).resolvePath? workspace
        ((workspace.join (Path.ofText start.root)).join
          (Path.ofText (RelativePath.between start.root target.root))) =
      some target.root := by
  have start_spelled := canonical start start_member
  have target_spelled := canonical target target_member
  obtain ⟨starts, -, start_read, start_plain⟩ := start_spelled.exists_names
  obtain ⟨targets, target_root, target_read, target_plain⟩ := target_spelled.exists_names
  have way : Path.ofText (RelativePath.between start.root target.root) =
      Path.below (RelativePath.steps starts targets) := by
    have read := RelativePath.ofText_between start_spelled.noBackslash target_spelled.noBackslash
    rw [start_read, target_read] at read
    exact read
  rw [start_read, way]
  refine resolvePath?_of_collapsed target_member target_spelled.isNormal target_root ?_
    (RelativePath.collapsed_way absolute start_plain target_plain)
  refine RelativePath.isUnnameable_way absolute nameable (fun name member held => ?_)
    fun name member held => ?_
  · exact start_nameable (Path.mem_of_mem_segments (start_read ▸ member) held)
  · exact target_nameable (Path.mem_of_mem_segments (target_read ▸ member) held)

/--
Resolving a path is the inverse of writing the path between two roots.  A path from outside that
can name something is resolved to the root that collapses to the same directory, and so to none
where it leads out of the workspace; one that cannot name anything is resolved to none.
-/
theorem resolvePath?_inverse (absolute : workspace.isAbsolute)
    (nameable : workspace.isUnnameable = false) :
    (∀ start ∈ projects, ∀ target ∈ projects, Char.ofNat 0 ∉ start.root →
      Char.ofNat 0 ∉ target.root →
      (ofProjects projects).resolvePath? workspace
          ((workspace.join (Path.ofText start.root)).join
            (Path.ofText (RelativePath.between start.root target.root))) =
        some target.root) ∧
      (∀ start ∈ projects, ∀ target ∈ projects, ∃ way shared,
        Path.ofText (RelativePath.between start.root target.root) = Path.below way ∧
          (way = [] → RelativePath.between start.root target.root = Path.here) ∧
          IsShared (Path.ofText start.root).segments (Path.ofText target.root).segments shared ∧
          way.length + 2 * shared.length =
            (Path.ofText start.root).segments.length + (Path.ofText target.root).segments.length) ∧
      (∀ points, (∀ char, .ofChar char ∈ points → isBlank char = false ∧ char ≠ '\\') →
        ((GivenPath.ofPoints points).behind workspace).isUnnameable = false → ∀ root,
          (ofProjects projects).resolveGiven? workspace (.ofPoints points) = some root ↔
            (∃ project ∈ projects, project.root = root) ∧
              ((GivenPath.ofPoints points).behind workspace).collapsed =
                .ofPath (workspace.join (Path.ofText root)).collapsed) ∧
      (∀ path other : GivenPath, (path.behind workspace).isUnnameable = false →
        (other.behind workspace).isUnnameable = false →
        (path.behind workspace).collapsed = (other.behind workspace).collapsed →
          (ofProjects projects).resolveGiven? workspace path =
            (ofProjects projects).resolveGiven? workspace other) ∧
      (∀ path : GivenPath,
        ¬ workspace.collapsed.segments.map CodePoints.ofText <+:
          (path.behind workspace).collapsed.segments →
          (ofProjects projects).resolveGiven? workspace path = none) ∧
      ∀ path : GivenPath, (path.behind workspace).isUnnameable →
        (ofProjects projects).resolveGiven? workspace path = none :=
  ⟨fun _ start_member _ target_member =>
      resolvePath?_between_canonical canonical absolute nameable start_member target_member,
    fun start start_member target target_member =>
      RelativePath.between_shortest (canonical start start_member).noBackslash
        (canonical target target_member).noBackslash,
    fun _ clean named _ => resolveGiven?_ofPoints_iff canonical clean named,
    fun _ _ => resolveGiven?_congr, fun _ => resolveGiven?_of_outside, fun _ =>
      resolveGiven?_of_isUnnameable⟩

end Canonical

/-- A program and a library below a workspace. -/
def programAndLibrary : List Project :=
  [⟨"App".toList, "apps/app".toList⟩, ⟨"Utils".toList, "libs/utils".toList⟩]

theorem isCanonical_programAndLibrary :
    ∀ project ∈ programAndLibrary, IsCanonical project.root := by
  have program : IsCanonical "apps/app".toList :=
    IsCanonical.below (show ∀ name ∈ ["apps".toList, "app".toList], _ by decide)
      (Text.forall_mem_of_all (by decide))
  have library : IsCanonical "libs/utils".toList :=
    IsCanonical.below (show ∀ name ∈ ["libs".toList, "utils".toList], _ by decide)
      (Text.forall_mem_of_all (by decide))
  exact List.forall_mem_cons.mpr ⟨program, List.forall_mem_singleton.mpr library⟩

/--
The library is reached from the program, and by a path that leaves the workspace and an odd name
again.
-/
theorem resolvePath?_inverse_utils :
    (ofProjects programAndLibrary).resolvePath? ⟨.root, [['w']]⟩
        (((⟨.root, [['w']]⟩ : Path).join (Path.ofText "apps/app".toList)).join
          (Path.ofText (RelativePath.between "apps/app".toList "libs/utils".toList))) =
            some "libs/utils".toList ∧
      (ofProjects programAndLibrary).resolveGiven? ⟨.root, [['w']]⟩
        (.ofPoints (CodePoints.ofText "//w/".toList ++
          .half 0x4FF :: CodePoints.ofText "/../../w/./libs//utils/".toList)) =
        some "libs/utils".toList := by
  obtain ⟨ways, -, plain, -⟩ :=
    resolvePath?_inverse isCanonical_programAndLibrary
      (show Path.isAbsolute ⟨.root, [['w']]⟩ by decide) (by decide)
  refine ⟨ways ⟨"App".toList, "apps/app".toList⟩ (by decide)
    ⟨"Utils".toList, "libs/utils".toList⟩ (by decide)
    (by decide) (by decide), (plain _ (fun char member => ?_) (by decide) _).mpr (by decide)⟩
  have spelled : char ∈ "//w/../../w/./libs//utils/".toList := by
    simpa [CodePoints.ofText] using member
  have unblank : ∀ char ∈ "//w/../../w/./libs//utils/".toList, isBlank char = false ∧ char ≠ '\\' :=
    Text.forall_mem_of_all (by decide)
  exact unblank char spelled

/--
A null character or half of a surrogate pair is never read in the name of a directory, not even of
one that a path leaves again: such a path collapses to what the root of a project collapses to, and
is not resolved to it.
-/
theorem unresolved_null :
    IsCanonical ['a'] ∧ (∀ char ∈ ['b', Char.ofNat 0] ++ "/../a".toList, isBlank char = false ∧
      char ≠ '\\') ∧
      ((⟨.root, [['w']]⟩ : Path).join
        (Path.ofText (['b', Char.ofNat 0] ++ "/../a".toList))).collapsed =
        ((⟨.root, [['w']]⟩ : Path).join (Path.ofText ['a'])).collapsed ∧
      (ofProjects [⟨['a'], ['a']⟩]).resolvePath? ⟨.root, [['w']]⟩
        (Path.ofText (['b', Char.ofNat 0] ++ "/../a".toList)) = none ∧
      ((GivenPath.ofPoints (.half 0 :: CodePoints.ofText "/../a".toList)).behind
        ⟨.root, [['w']]⟩).collapsed =
        .ofPath ((⟨.root, [['w']]⟩ : Path).join (Path.ofText ['a'])).collapsed ∧
      (ofProjects [⟨['a'], ['a']⟩]).resolveGiven? ⟨.root, [['w']]⟩
        (.ofPoints (.half 0 :: CodePoints.ofText "/../a".toList)) = none :=
  ⟨IsCanonical.below (show ∀ name ∈ [['a']], _ by decide) (Text.forall_mem_of_all (by decide)),
    Text.forall_mem_of_all (by decide), by decide, by decide, by decide, by decide⟩

end ProjectIndex

end SwiftWorkspace
