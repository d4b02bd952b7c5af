import SwiftWorkspace.Project.Index
import SwiftWorkspace.Proofs.Walks
import SwiftWorkspace.RelativePath

/-!
# Ways between directories

The way from one directory of a workspace to another leads there: followed from
the first one it collapses to the path of the second one.  For a project in
that directory it is a path that the index resolves to the project.
-/

namespace SwiftWorkspace

structure IsEntryName (name : Text) : Prop where
  filled : name ≠ []
  notHere : name ≠ Path.here
  notUp : name ≠ Path.up
  noSlash : '/' ∉ name
  nameable : Char.ofNat 0 ∉ name

instance (name : Text) : Decidable (IsEntryName name) :=
  decidable_of_iff
    (name ≠ [] ∧ name ≠ Path.here ∧ name ≠ Path.up ∧ '/' ∉ name ∧ Char.ofNat 0 ∉ name)
    ⟨fun ⟨filled, notHere, notUp, noSlash, nameable⟩ => ⟨filled, notHere, notUp, noSlash, nameable⟩,
      fun isName => ⟨isName.filled, isName.notHere, isName.notUp, isName.noSlash, isName.nameable⟩⟩

def Path.IsWritten (name : Text) : Prop := name ≠ [] ∧ name ≠ Path.here ∧ '/' ∉ name

instance (name : Text) : Decidable (Path.IsWritten name) :=
  inferInstanceAs (Decidable (name ≠ [] ∧ name ≠ Path.here ∧ '/' ∉ name))

theorem IsEntryName.written {name : Text} (isName : IsEntryName name) : Path.IsWritten name :=
  ⟨isName.filled, isName.notHere, isName.noSlash⟩

theorem Text.join_concat (first : Text) (names : List Text) (name : Text) :
    Text.join ['/'] (first :: names ++ [name]) =
      Text.join ['/'] (first :: names) ++ '/' :: name := by
  induction names generalizing first with
  | nil => simp [Text.join, List.intercalate]
  | cons second names ih =>
      have rest := ih second
      simp only [Text.join, List.cons_append, List.intercalate_cons_cons] at rest ⊢
      rw [rest]
      simp

namespace Path

variable {names more base : List Text}

/-- The path of the given names, relative to some directory. -/
def below (names : List Text) : Path := ⟨.relative, names⟩

theorem anchor_ofText_relative {text : Text} (ahead : ∀ rest, text ≠ '/' :: rest) :
    Anchor.ofText text = .relative := by
  unfold Anchor.ofText
  split <;> first | rfl | exact absurd rfl (ahead _)

theorem text_below (names : List Text) :
    (below names).text = if names.isEmpty then here else Text.join ['/'] names := by
  cases names <;> rfl

section Written

variable (inside : ∀ name ∈ names, IsWritten name)
include inside

theorem splitOn_join (filled : names ≠ []) : (Text.join ['/'] names).splitOn '/' = names :=
  List.splitOn_intercalate '/' (fun name member => (inside name member).2.2) filled

/-- Names without slashes are read as they are written. -/
theorem ofText_below : ofText (below names).text = below names := by
  have kept : names.filter (fun segment => segment ≠ [] && segment ≠ here) = names :=
    List.filter_eq_self.mpr
      fun name member => by simp [(inside name member).1, (inside name member).2.1]
  cases names with
  | nil => rfl
  | cons first names =>
      have split := splitOn_join inside (List.cons_ne_nil _ _)
      obtain ⟨filled, -, noSlash⟩ := inside first (.head _)
      obtain ⟨char, rest, rfl⟩ := List.exists_cons_of_ne_nil filled
      rw [text_below, List.isEmpty_cons, if_neg (by decide), ofText, split, kept, below]
      refine congrArg (Path.mk · _) (anchor_ofText_relative fun tail same => ?_)
      have head : char = '/' := by
        cases names <;> simp [Text.join, List.intercalate] at same <;> exact same.1
      exact noSlash (head ▸ .head _)

end Written

section Collapsing

open Entry (follow)

theorem foldl_follow_names (plain : up ∉ names) : names.foldl follow base = base ++ names := by
  induction names generalizing base with
  | nil => simp
  | cons name names ih =>
      rw [List.mem_cons, not_or] at plain
      rw [List.foldl_cons, follow, if_neg (Ne.symm plain.1), ih plain.2]
      simp

theorem foldl_follow_ups (count : Nat) :
    (List.replicate count up).foldl follow names = names.take (names.length - count) := by
  induction count generalizing names with
  | zero => simp
  | succ count ih =>
      rw [List.replicate_succ, List.foldl_cons, follow, if_pos rfl, ih, List.dropLast_eq_take,
        List.take_take, List.length_take]
      congr 1
      omega

/--
Following segments goes back to some directory above the start and on by names among the
segments.
-/
theorem foldl_followBy_spec {α : Type} [DecidableEq α] (up : α) (segments kept : List α) :
    ∃ front back, segments.foldl (followBy up) kept = front ++ back ∧ front <+: kept ∧ up ∉ back ∧
      ∀ name ∈ back, name ∈ segments := by
  induction segments generalizing kept with
  | nil => exact ⟨kept, [], (List.append_nil kept).symm, List.prefix_rfl, by simp, by simp⟩
  | cons segment segments ih =>
      obtain ⟨front, back, same, ahead, plain, inside⟩ := ih (followBy up kept segment)
      rw [List.foldl_cons, same]
      rw [followBy] at ahead
      split at ahead
      · exact ⟨front, back, rfl, ahead.trans (List.dropLast_prefix kept), plain,
          fun name member => .tail _ (inside name member)⟩
      · rename_i differs
        rcases List.prefix_concat_iff.mp ahead with rfl | ahead
        · refine ⟨kept, segment :: back, (List.append_cons kept segment back).symm, List.prefix_rfl,
            fun member => ?_, fun name member => ?_⟩
          · exact (List.mem_cons.mp member).elim (fun same => differs same.symm) plain
          · rcases List.mem_cons.mp member with rfl | later
            · exact .head _
            · exact .tail _ (inside name later)
        · exact ⟨front, back, rfl, ahead, plain, fun name member => .tail _ (inside name member)⟩

/-- What is followed from nowhere goes down only, by names among the segments. -/
theorem foldl_followBy_nil {α : Type} [DecidableEq α] (up : α) (segments : List α) :
    up ∉ segments.foldl (followBy up) [] ∧ ∀ name ∈ segments.foldl (followBy up) [],
      name ∈ segments := by
  obtain ⟨front, back, same, ahead, plain, inside⟩ := foldl_followBy_spec up segments []
  obtain rfl := List.prefix_nil.mp ahead
  rw [same]
  exact ⟨plain, inside⟩

theorem up_not_mem_collapse (segments : List Text) : up ∉ collapse segments :=
  (foldl_followBy_nil up segments).1

theorem mem_of_mem_collapse {segments : List Text} {name : Text}
    (member : name ∈ collapse segments) : name ∈ segments :=
  (foldl_followBy_nil up segments).2 name member

theorem collapse_append (names more : List Text) :
    collapse (names ++ more) = more.foldl follow (collapse names) :=
  List.foldl_append

theorem collapse_of_plain (plain : up ∉ names) : collapse names = names :=
  foldl_follow_names plain

end Collapsing

theorem segmentsBelow?_append (base names : List Text) :
    segmentsBelow? base (base ++ names) = some names := by
  induction base with
  | nil => rfl
  | cons first base ih => simpa [segmentsBelow?] using ih

end Path

namespace RelativePath

open SwiftWorkspace.Path (below up)
open Entry (follow)

variable {start target base : List Text}

theorem mem_steps {segment : Text} (member : segment ∈ steps start target) :
    segment = up ∨ segment ∈ target := by
  fun_induction steps start target with
  | case1 lefts left rights ih => exact (ih member).imp_right (.tail _)
  | case2 left lefts right rights differs =>
      exact (List.mem_append.mp member).imp_left List.eq_of_mem_replicate
  | case3 start target =>
      exact (List.mem_append.mp member).imp_left List.eq_of_mem_replicate

theorem foldl_follow_steps (plain : up ∉ target) :
    (steps start target).foldl follow (base ++ start) = base ++ target := by
  have back (base names : List Text) : (List.replicate names.length ['.', '.']).foldl follow
      (base ++ names) = base := by
    have taken : (List.replicate names.length ['.', '.']).foldl follow (base ++ names) = _ :=
      Path.foldl_follow_ups names.length
    rw [taken, List.length_append, Nat.add_sub_cancel, List.take_left]
  fun_induction steps start target generalizing base with
  | case1 lefts left rights ih =>
      have rest : (steps lefts rights).foldl follow (base ++ [left] ++ lefts) =
          base ++ [left] ++ rights :=
        ih fun member => plain (.tail _ member)
      simpa using rest
  | case2 left lefts right rights differs =>
      rw [List.foldl_append, ← List.length_cons, back, Path.foldl_follow_names plain]
  | case3 start target =>
      rw [List.foldl_append, back, Path.foldl_follow_names plain]

/-- Whether a root is in normal form and has no other slashes. -/
structure IsNormal (root : Text) : Prop where
  normal : Project.normalizeRoot root = root
  noBackslash : '\\' ∉ root

section Between

variable (start_inside : ∀ name ∈ start, IsEntryName name)
    (target_inside : ∀ name ∈ target, IsEntryName name)

theorem segments_eq_ofText {text : Text} (noBackslash : '\\' ∉ text) :
    segments text = (Path.ofText text).segments := by
  rw [segments, Text.replace_of_not_mem noBackslash]
  rfl

include target_inside in
theorem segments_below (noBackslash : '\\' ∉ (below target).text) :
    segments (below target).text = target := by
  rw [segments_eq_ofText noBackslash,
    Path.ofText_below fun name member => (target_inside name member).written, below]

include start_inside target_inside in
/-- The path from one directory to another is the way between them as it is written. -/
theorem between_below (start_normal : IsNormal (below start).text)
    (target_normal : IsNormal (below target).text) :
    between (below start).text (below target).text = (below (steps start target)).text := by
  rw [between, segments_below start_inside start_normal.noBackslash,
    segments_below target_inside target_normal.noBackslash]
  exact (Path.text_below _).symm

include target_inside in
theorem ofText_steps :
    Path.ofText (below (steps start target)).text = below (steps start target) := by
  refine Path.ofText_below fun name member => ?_
  rcases mem_steps member with rfl | inside
  · decide
  · exact (target_inside name inside).written

end Between

end RelativePath

namespace ProjectIndex

theorem lookup_foldl_claimRoot {projects : List Project} {project : Project}
    (member : project ∈ projects)
    (table : Table Project) : ((projects.foldl claimRoot table).lookup project.key).isSome := by
  have stays (projects : List Project) (table : Table Project)
      (held : (table.lookup project.key).isSome) :
      ((projects.foldl claimRoot table).lookup project.key).isSome := by
    induction projects generalizing table with
    | nil => exact held
    | cons first projects ih =>
        refine ih _ ?_
        rw [claimRoot, Table.lookup_insertNew, Option.isSome_or, held]
        rfl
  induction projects generalizing table with
  | nil => cases member
  | cons first projects ih =>
      rcases List.mem_cons.mp member with rfl | member
      · refine stays projects _ ?_
        rw [claimRoot, Table.lookup_insertNew, if_pos rfl]
        cases table.lookup project.key <;> rfl
      · exact ih member _

open RelativePath (IsNormal)

theorem resolveRoot?_of_mem {projects : List Project} {project : Project}
    (member : project ∈ projects)
    (normal : IsNormal project.root) :
    (ofProjects projects).resolveRoot? project.root = some project.root := by
  have held := lookup_foldl_claimRoot member []
  rw [Project.key] at held
  rw [resolveRoot?, get?, ofProjects, held, normal.normal]
  rfl

theorem resolvePath?_between {projects : List Project} {base start target : List Text}
    {project : Project}
    (member : project ∈ projects) (root : project.root = (Path.below target).text)
    (normal : IsNormal project.root)
    (plain : Path.up ∉ base) (start_inside : ∀ name ∈ start, IsEntryName name)
    (target_inside : ∀ name ∈ target, IsEntryName name)
    (start_normal : IsNormal (Path.below start).text)
    (nameable : ∀ name ∈ base, Char.ofNat 0 ∉ name) :
    (ofProjects projects).resolvePath? ⟨.root, base⟩
      ((⟨.root, base ++ start⟩ : Path).join
        (Path.ofText (RelativePath.between (Path.below start).text project.root))) =
          some project.root := by
  have way : Path.ofText (RelativePath.between (Path.below start).text project.root) =
      Path.below (RelativePath.steps start target) := by
    rw [root] at normal ⊢
    rw [RelativePath.between_below start_inside target_inside start_normal normal,
      RelativePath.ofText_steps target_inside]
  have named : Path.isUnnameable ⟨.root, base ++ start ++ RelativePath.steps start target⟩ =
      false := by
    refine List.any_eq_false.mpr fun name member => ?_
    rw [List.elem_iff]
    rcases List.mem_append.mp member with front | back
    · rcases List.mem_append.mp front with inside | inside
      · exact nameable name inside
      · exact (start_inside name inside).nameable
    · rcases RelativePath.mem_steps back with rfl | inside
      · decide
      · exact (target_inside name inside).nameable
  have start_plain : Path.up ∉ base ++ start := by
    rw [List.mem_append, not_or]
    exact ⟨plain, fun inside => (start_inside _ inside).notUp rfl⟩
  have leads : Path.collapse (base ++ start ++ RelativePath.steps start target) =
      base ++ target := by
    rw [Path.collapse_append, Path.collapse_of_plain start_plain]
    exact RelativePath.foldl_follow_steps fun inside => (target_inside _ inside).notUp rfl
  rw [way, resolvePath?]
  have absolute : Path.join ⟨.root, base⟩ (Path.join ⟨.root, base ++ start⟩
      (Path.below (RelativePath.steps start target))) =
        ⟨.root, base ++ start ++ RelativePath.steps start target⟩ := rfl
  simp only [absolute, named, Bool.false_eq_true, if_false, Path.collapsed, leads,
    Path.collapse_of_plain plain,
    Path.relativeTo?, if_true, Path.segmentsBelow?_append, Option.map_some, Option.bind_some]
  rw [← Path.below, ← root]
  exact resolveRoot?_of_mem member normal

end ProjectIndex

end SwiftWorkspace
