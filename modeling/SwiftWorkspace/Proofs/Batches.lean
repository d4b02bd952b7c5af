import SwiftWorkspace.Proofs.Graphs
import SwiftWorkspace.Proofs.Pools
import SwiftWorkspace.Proofs.Roots

/-!
# The batches of a graph

However many workers there are and whichever of them is done first, the graph is the
batches of the files in the order of the files.  A batch has the edges of the first
source that can describe the manifest, and the sources behind that one are not asked.
-/

namespace SwiftWorkspace

namespace Outcome

variable {α β ε : Type} {action : α → Except ε β} {items : List α} {results : List β}

/-- Going through a list succeeds when each of its items does. -/
theorem mapM_eq_ok :
    items.mapM action = .ok results ↔
      List.Forall₂ (fun item result => action item = .ok result) items results := by
  induction items generalizing results with
  | nil =>
      rw [List.forall₂_nil_left_iff]
      exact ⟨fun same => (Except.ok.inj same).symm, fun same => same ▸ rfl⟩
  | cons item items ih =>
      rw [List.mapM_cons, List.forall₂_cons_left_iff, bind_eq_ok]
      constructor
      · rintro ⟨result, first, rest⟩
        obtain ⟨results, others, same⟩ := bind_eq_ok.mp rest
        exact ⟨result, results, first, ih.mp others, (Except.ok.inj same).symm⟩
      · rintro ⟨result, results, first, others, rfl⟩
        exact ⟨result, first, bind_eq_ok.mpr ⟨results, ih.mpr others, rfl⟩⟩

theorem exists_of_mapM_eq_ok (succeeds : items.mapM action = .ok results) {result : β}
    (member : result ∈ results) : ∃ item ∈ items, action item = .ok result := by
  have each := mapM_eq_ok.mp succeeds
  clear succeeds
  induction each with
  | nil => cases member
  | cons first _ ih =>
      rcases List.mem_cons.mp member with rfl | member
      · exact ⟨_, .head _, first⟩
      · obtain ⟨item, inside, found⟩ := ih member
        exact ⟨item, .tail _ inside, found⟩

end Outcome

namespace Batch

theorem append_assoc (first second third : Batch) :
    (first.append second).append third = first.append (second.append third) := by
  cases failed : first.fault <;> cases other : second.fault <;> simp [append, failed, other]

theorem result_append (first second : Batch) :
    (first.append second).result = first.result.bind fun before =>
      second.result.map (before ++ ·) := by
  cases failed : first.fault with
  | some fault => simp [append, result, failed, Except.bind]
  | none =>
      cases other : second.fault <;> simp [append, result, failed, other, Except.bind, Except.map]

theorem result_concat {α : Type} (batchOf : α → Batch) (items : List α) :
    (concat (items.map batchOf)).result =
      (items.mapM fun item => (batchOf item).result).map List.flatten := by
  induction items with
  | nil => rfl
  | cons item items ih =>
      rw [concat, List.map_cons, List.foldr_cons, result_append, ← concat, ih, List.mapM_cons]
      cases (batchOf item).result with
      | error fault => rfl
      | ok edges => cases items.mapM fun item => (batchOf item).result <;> rfl

end Batch

namespace GraphBuilder

/-- Whether a source cannot describe a manifest, so that the next one is asked. -/
def Fails (disk : Disk) (context : ManifestContext) (source : EdgeSource) : Prop :=
  ∃ attempt failure, source.describe disk context = .ok attempt ∧ attempt.result = .error failure

section Sources

variable {disk : Disk} {context : ManifestContext} {tried : List EdgeSource} {source : EdgeSource}
  {attempt : Attempt} {edges : List Edge}

/-- Sources that fail add records and tool runs to a batch, but no edges. -/
theorem firstBatch_of_fails (fails : ∀ source ∈ tried, Fails disk context source) :
    ∃ front : Batch, front.result = .ok [] ∧
      ∀ sources, firstBatch disk context (tried ++ sources) =
        front.append (firstBatch disk context sources) := by
  induction tried with
  | nil => exact ⟨{}, rfl, fun sources => rfl⟩
  | cons source tried ih =>
      obtain ⟨attempt, failure, told, failed⟩ := fails source (.head _)
      obtain ⟨front, empty, rest⟩ := ih fun other member => fails other (.tail _ member)
      let failed_record := trace
        s!"{source.name} failed for {context.manifestFile.asString}: {failure.message}"
      refine ⟨({ records := attempt.records ++ [failed_record], calls := attempt.calls } :
        Batch).append front, ?_, fun sources => ?_⟩
      · rw [Batch.result_append, empty]
        rfl
      · rw [List.cons_append, firstBatch, told]
        simp only [failed, rest, Batch.append_assoc]
        rfl

theorem result_firstBatch_of_fails (fails : ∀ source ∈ tried, Fails disk context source) :
    (firstBatch disk context tried).result = .ok [] := by
  obtain ⟨front, empty, rest⟩ := firstBatch_of_fails fails
  have whole := rest []
  rw [List.append_nil] at whole
  rw [whole, Batch.result_append, empty]
  rfl

section Described

variable (fails : ∀ source ∈ tried, Fails disk context source)
    (told : source.describe disk context = .ok attempt)
  (described : attempt.result = .ok edges)
include fails told described

theorem result_firstBatch_of_described (untried : List EdgeSource) :
    (firstBatch disk context (tried ++ source :: untried)).result =
      .ok (edges.filter (!·.isLoop)) := by
  obtain ⟨front, empty, rest⟩ := firstBatch_of_fails fails
  rw [rest, Batch.result_append, empty, firstBatch, told]
  simp only [described]
  rfl

/-- The sources behind the first one that can describe a manifest leave no mark on the batch. -/
theorem firstBatch_of_described (untried others : List EdgeSource) :
    firstBatch disk context (tried ++ source :: untried) =
      firstBatch disk context (tried ++ source :: others) := by
  obtain ⟨front, -, rest⟩ := firstBatch_of_fails fails
  rw [rest, rest, firstBatch, firstBatch, told]
  simp only [described]

end Described

theorem exists_source_of_firstBatch {sources : List EdgeSource}
    (given : (firstBatch disk context sources).result = .ok edges) {edge : Edge}
    (member : edge ∈ edges) :
    edge.isLoop = false ∧ ∃ source ∈ sources, ∃ attempt found,
      source.describe disk context = .ok attempt ∧
      attempt.result = .ok found ∧ edge ∈ found := by
  induction sources with
  | nil =>
      injection given with given
      subst given
      cases member
  | cons source sources ih =>
      rw [firstBatch] at given
      cases told : source.describe disk context with
      | error fault => simp [told, Batch.failed, Batch.result] at given
      | ok attempt =>
          simp only [told] at given
          cases described : attempt.result with
          | ok found =>
              simp only [described] at given
              injection given with given
              subst given
              obtain ⟨inside, noLoop⟩ := List.mem_filter.mp member
              exact ⟨by
                simpa using noLoop, source, .head _, attempt, found, told, described, inside⟩
          | error failure =>
              simp only [described] at given
              rw [Batch.result_append] at given
              obtain ⟨rest, given, same⟩ := Outcome.map_eq_ok.mp given
              obtain ⟨noLoop, other, inside, rest⟩ := ih (given.trans (congrArg _ same))
              exact ⟨noLoop, other, .tail _ inside, rest⟩

end Sources

section Files

variable {builder : GraphBuilder} {disk : Disk} {workers : Int} {manifests files : List Text}

/-- The build without workers comes to the batches of the files in their order. -/
theorem result_build (placed : manifests.mapM builder.relativeFile = .ok files) :
    (builder.build disk manifests).result =
      (files.mapM (builder.edgesFor disk)).map List.flatten := by
  rw [build]
  simp only [placed]
  rw [Batch.result_append, Batch.result_concat]
  change _ = (files.mapM fun file => (builder.batchFor disk file).result).map List.flatten
  cases files.mapM fun file => (builder.batchFor disk file).result with
  | error fault => rfl
  | ok batches => simp [Except.map, Except.bind, summary, Batch.result]

theorem some_worker (workers : Int) : 0 < (max 1 workers).toNat := by omega

/-- Workers change nothing about what a build comes to, whichever of them is done first. -/
theorem yields_iff_build {result : Except GraphFault (List Edge)} :
    builder.Yields disk workers manifests result ↔
      result = (builder.build disk manifests).result := by
  constructor
  · intro yields
    cases yields with
    | misplaced fault unplaced => simp [build, unplaced, Batch.failed, Batch.result]
    | alone files placed few => rfl
    | pooled files placed many pool run batches collected =>
        rw [result_build placed, Pool.mapM_of_run run collected]
  · rintro rfl
    cases placed : manifests.mapM builder.relativeFile with
    | error fault =>
        have failed : (builder.build disk manifests).result = .error fault := by
          simp [build, placed, Batch.failed, Batch.result]
        exact failed ▸ .misplaced fault placed
    | ok files =>
        by_cases few : max 1 workers ≤ 1 ∨ files.length ≤ 1
        · exact .alone files placed few
        · rw [not_or, Int.not_le, Nat.not_le] at few
          have begun : Pool.Run (builder.edgesFor disk) (max 1 workers).toNat (.ofTasks files)
              (.ofTasks files) := .refl
          obtain ⟨pool, run, collected⟩ := Pool.exists_run_collect? (some_worker workers) begun
          exact result_build placed ▸ .pooled files placed few pool run _ collected

/-- The edges of a manifest file, told by its directory and by what the sources answer. -/
inductive IsBatch (builder : GraphBuilder) (disk : Disk) (file : Text) : List Edge → Prop
  /-- The directory of the package does not exist. -/
  | absent (missing : disk.isDirectory (builder.context file).packageDirectory = .ok false) :
      IsBatch builder disk file []
  /-- No source can describe the manifest. -/
  | untold (present : disk.isDirectory (builder.context file).packageDirectory = .ok true)
      (fails : ∀ source ∈ builder.sources, Fails disk (builder.context file) source) :
        IsBatch builder disk file []
  /-- A source describes the manifest, and those in front of it cannot. -/
  | told (present : disk.isDirectory (builder.context file).packageDirectory = .ok true)
      (tried : List EdgeSource) (source : EdgeSource) (untried : List EdgeSource)
      (split : builder.sources = tried ++ source :: untried)
      (fails : ∀ source ∈ tried, Fails disk (builder.context file) source)
      (attempt : Attempt) (answer : source.describe disk (builder.context file) = .ok attempt)
      (edges : List Edge) (described : attempt.result = .ok edges) :
      IsBatch builder disk file (edges.filter fun edge => edge.source.fold ≠ edge.target.fold)

structure Answers (builder : GraphBuilder) (disk : Disk) (file : Text) : Prop where
  directory : ∃ present, disk.isDirectory (builder.context file).packageDirectory = .ok present
  sources : ∀ source ∈ builder.sources, ∃ attempt,
    source.describe disk (builder.context file) = .ok attempt

theorem batchFor_congr {other : GraphBuilder} {file : Text}
    (context : other.context file = builder.context file)
    (same : firstBatch disk (builder.context file) other.sources =
      firstBatch disk (builder.context file) builder.sources) :
    other.batchFor disk file = builder.batchFor disk file := by
  delta batchFor
  simp only [context, same]

theorem batchFor_of_described {file : Text} {tried untried : List EdgeSource} {source : EdgeSource}
    {attempt : Attempt} {edges : List Edge} (split : builder.sources = tried ++ source :: untried)
    (fails : ∀ source ∈ tried, Fails disk (builder.context file) source)
    (told : source.describe disk (builder.context file) = .ok attempt)
    (described : attempt.result = .ok edges) (others : List EdgeSource) :
    batchFor { builder with sources := tried ++ source :: others } disk file =
      builder.batchFor disk file := by
  have same := firstBatch_of_described fails told described others untried
  rw [← split] at same
  exact batchFor_congr rfl same

theorem fails_or_split {disk : Disk} {context : ManifestContext} {sources : List EdgeSource}
    (answers : ∀ source ∈ sources, ∃ attempt, source.describe disk context = .ok attempt) :
    (∀ source ∈ sources, Fails disk context source) ∨
      ∃ tried source untried attempt edges, sources = tried ++ source :: untried ∧
        (∀ source ∈ tried, Fails disk context source) ∧
        source.describe disk context = .ok attempt ∧ attempt.result = .ok edges := by
  induction sources with
  | nil => exact .inl fun source member => by cases member
  | cons source sources ih =>
      obtain ⟨attempt, told⟩ := answers source (.head _)
      cases described : attempt.result with
      | ok edges => exact .inr ⟨[], source, sources, attempt, edges, rfl, nofun, told, described⟩
      | error failure =>
          have here : Fails disk context source := ⟨attempt, failure, told, described⟩
          rcases ih fun other member => answers other (.tail _ member) with
            fails | ⟨tried, other, untried, found, edges, split, fails, told, described⟩
          · exact .inl (List.forall_mem_cons.mpr ⟨here, fails⟩)
          · exact .inr ⟨source :: tried, other, untried, found,
              edges, by rw [split, List.cons_append],
              List.forall_mem_cons.mpr ⟨here, fails⟩, told, described⟩

/-- A manifest file has the one batch that its directory and the sources say. -/
theorem IsBatch.edgesFor_eq {file : Text} {edges : List Edge}
    (batch : IsBatch builder disk file edges) : builder.edgesFor disk file = .ok edges := by
  cases batch with
  | absent missing =>
      rw [edgesFor]
      delta batchFor
      simp only [missing, Batch.result]
  | untold present fails =>
      rw [edgesFor, batchFor_of_isDirectory rfl present]
      exact result_firstBatch_of_fails fails
  | told present tried source untried split fails attempt answer edges described =>
      rw [edgesFor, batchFor_of_isDirectory rfl present, split]
      refine (result_firstBatch_of_described fails answer described untried).trans ?_
      simp only [Edge.isLoop, decide_not]

theorem Answers.exists_isBatch {file : Text} (answers : Answers builder disk file) :
    ∃ edges, IsBatch builder disk file edges := by
  obtain ⟨present, found⟩ := answers.directory
  cases present with
  | false => exact ⟨[], .absent found⟩
  | true =>
      rcases fails_or_split answers.sources with
        fails | ⟨tried, source, untried, attempt, edges, split, fails, told, described⟩
      · exact ⟨[], .untold found fails⟩
      · exact ⟨_, .told found tried source untried split fails attempt told edges described⟩

/--
Every edge of a batch of these sources leads from the file's project to the root of another one.
-/
theorem leads_of_edgesFor {projects : List Project} (same : builder.index = .ofProjects projects)
    (known : ∀ source ∈ builder.sources,
      source = .reader ∨ ∃ toolchain levels command timeout, source =
        .dump toolchain levels command timeout)
    {file : Text} {edges : List Edge} (batch : builder.edgesFor disk file = .ok edges) {edge : Edge}
    (member : edge ∈ edges) :
    EdgeSource.Leads (builder.context file) edge ∧ edge.isLoop = false := by
  rw [edgesFor] at batch
  delta batchFor at batch
  simp only at batch
  split at batch
  · cases batch
  · obtain ⟨noLoop, source, inside, attempt, found, told, described, member⟩ :=
      exists_source_of_firstBatch batch member
    refine ⟨?_, noLoop⟩
    rcases known source inside with rfl | ⟨toolchain, levels, command, timeout, rfl⟩
    · exact EdgeSource.leads_of_reader told described member
    · exact EdgeSource.leads_of_dump same told described member
  · injection batch with batch
    subst batch
    cases member

/-- Whether every manifest can be placed and everything answers for its file. -/
def AllAnswer (builder : GraphBuilder) (disk : Disk) (manifests : List Text) : Prop :=
  ∀ manifest ∈ manifests, ∃ file, builder.relativeFile manifest = .ok file ∧
    Answers builder disk file

theorem AllAnswer.exists_batches (answers : AllAnswer builder disk manifests) :
    ∃ files batches, List.Forall₂ (fun manifest file => builder.relativeFile manifest = .ok file)
      manifests files ∧
      List.Forall₂ (IsBatch builder disk) files batches := by
  induction manifests with
  | nil => exact ⟨[], [], .nil, .nil⟩
  | cons manifest manifests ih =>
      obtain ⟨file, placed, answer⟩ := answers manifest (.head _)
      obtain ⟨edges, batch⟩ := answer.exists_isBatch
      obtain ⟨files, batches, places, others⟩ :=
        ih fun other member => answers other (.tail _ member)
      exact ⟨file :: files, edges :: batches, .cons placed places, .cons batch others⟩

theorem yields_of_batches {batches : List (List Edge)}
    (placed : List.Forall₂ (fun manifest file => builder.relativeFile manifest = .ok file)
      manifests files)
    (told : List.Forall₂ (IsBatch builder disk) files batches)
    (result : Except GraphFault (List Edge)) :
    builder.Yields disk workers manifests result ↔ result = .ok batches.flatten := by
  have all : files.mapM (builder.edgesFor disk) = .ok batches :=
    Outcome.mapM_eq_ok.mpr (told.imp fun file edges batch => batch.edgesFor_eq)
  rw [yields_iff_build, result_build (Outcome.mapM_eq_ok.mpr placed), all]
  rfl

theorem AllAnswer.yields_iff (answers : AllAnswer builder disk manifests)
    (result : Except GraphFault (List Edge)) :
    builder.Yields disk workers manifests result ↔ ∃ files batches,
      List.Forall₂ (fun manifest file => builder.relativeFile manifest = .ok file) manifests files ∧
        List.Forall₂ (IsBatch builder disk) files batches ∧ result = .ok batches.flatten := by
  constructor
  · intro yields
    obtain ⟨files, batches, placed, told⟩ := answers.exists_batches
    exact ⟨files, batches, placed, told, (yields_of_batches placed told result).mp yields⟩
  · rintro ⟨files, batches, placed, told, same⟩
    exact (yields_of_batches placed told result).mpr same

theorem AllAnswer.yields_append_iff {more : List Text}
    (answers : AllAnswer builder disk (manifests ++ more))
    (result : Except GraphFault (List Edge)) :
    builder.Yields disk workers (manifests ++ more) result ↔
      ∃ first second, builder.Yields disk workers manifests (.ok first) ∧
        builder.Yields disk workers more (.ok second) ∧ result = .ok (first ++ second) := by
  have front : AllAnswer builder disk manifests :=
    fun manifest member => answers manifest (List.mem_append_left _ member)
  have back : AllAnswer builder disk more :=
    fun manifest member => answers manifest (List.mem_append_right _ member)
  obtain ⟨files, batches, placed, told⟩ := front.exists_batches
  obtain ⟨files', batches', placed', told'⟩ := back.exists_batches
  rw [yields_of_batches (List.rel_append placed placed') (List.rel_append told told'),
    List.flatten_append]
  simp only [yields_of_batches placed told, yields_of_batches placed' told', Except.ok.injEq]
  constructor
  · exact fun same => ⟨_, _, rfl, rfl, same⟩
  · rintro ⟨first, second, rfl, rfl, same⟩
    exact same

/-- Every edge of a graph of these sources comes from one of the manifests. -/
theorem leads_of_yields {projects : List Project} (same : builder.index = .ofProjects projects)
    (known : ∀ source ∈ builder.sources,
      source = .reader ∨ ∃ toolchain levels command timeout, source =
        .dump toolchain levels command timeout)
    {edges : List Edge} (yields : builder.Yields disk workers manifests (.ok edges)) {edge : Edge}
    (member : edge ∈ edges) :
    EdgeSource.Leads (builder.context edge.manifestFile) edge ∧ edge.isLoop = false ∧
      ∃ manifest ∈ manifests, builder.relativeFile manifest = .ok edge.manifestFile := by
  have built := yields_iff_build.mp yields
  cases placed : manifests.mapM builder.relativeFile with
  | error fault => simp [build, placed, Batch.failed, Batch.result] at built
  | ok files =>
      rw [result_build placed] at built
      obtain ⟨batches, told, flat⟩ := Outcome.map_eq_ok.mp built.symm
      rw [← flat] at member
      obtain ⟨batch, inside, member⟩ := List.mem_flatten.mp member
      obtain ⟨file, listed, given⟩ := Outcome.exists_of_mapM_eq_ok told inside
      obtain ⟨leads, noLoop⟩ := leads_of_edgesFor same known given member
      obtain rfl : edge.manifestFile = file := leads.manifestFile
      obtain ⟨manifest, inside, placed⟩ := Outcome.exists_of_mapM_eq_ok placed listed
      exact ⟨leads, noLoop, manifest, inside, placed⟩

end Files

/--
Where everything answers, a build comes to the batches of its files in their order, for
every number of workers and whichever of them is done first; no pool of workers gets stuck
or goes on for ever.
-/
theorem build_keeps_order (builder : GraphBuilder) (disk : Disk) (workers : Int)
    (manifests more : List Text) (answers : AllAnswer builder disk (manifests ++ more)) :
    (∀ result, builder.Yields disk workers manifests result ↔ ∃ files batches,
      List.Forall₂ (fun manifest file => builder.relativeFile manifest = .ok file) manifests files ∧
        List.Forall₂ (IsBatch builder disk) files batches ∧ result = .ok batches.flatten) ∧
    (WellFounded fun next pool => Pool.Step (builder.edgesFor disk)
      (max 1 workers).toNat pool next) ∧
    (∀ files pool, Pool.Run (builder.edgesFor disk) (max 1 workers).toNat (.ofTasks files) pool →
      ∃ later, Pool.Run (builder.edgesFor disk) (max 1 workers).toNat pool later ∧
        Pool.collect? later.finished (List.range files.length) =
          some (files.mapM (builder.edgesFor disk))) ∧
    (∀ file tried source untried attempt edges, builder.sources = tried ++ source :: untried →
      (∀ source ∈ tried, Fails disk (builder.context file) source) →
      source.describe disk (builder.context file) = .ok attempt → attempt.result = .ok edges →
      ∀ others, batchFor { builder with sources := tried ++ source :: others } disk file =
        builder.batchFor disk file) ∧
    (∀ result, builder.Yields disk workers (manifests ++ more) result ↔
      ∃ first second, builder.Yields disk workers manifests (.ok first) ∧
        builder.Yields disk workers more (.ok second) ∧ result = .ok (first ++ second)) ∧
    (∀ projects, builder.index = .ofProjects projects →
      (∀ source ∈ builder.sources,
        source = .reader ∨ ∃ toolchain levels command timeout, source =
          .dump toolchain levels command timeout) →
      ∀ edges, builder.Yields disk workers manifests (.ok edges) →
        ∀ edge ∈ edges, edge.target ∈ builder.index.roots ∧
          ∃ manifest ∈ manifests, builder.relativeFile manifest = .ok edge.manifestFile) := by
  have front : AllAnswer builder disk manifests :=
    fun manifest member => answers manifest (List.mem_append_left _ member)
  refine ⟨front.yields_iff, Pool.wellFounded_step _ _, ?_, ?_, answers.yields_append_iff, ?_⟩
  · intro files pool run
    exact Pool.exists_run_collect? (some_worker workers) run
  · intro file tried source untried attempt edges split fails told described others
    exact batchFor_of_described split fails told described others
  · intro projects same known edges yields edge member
    obtain ⟨leads, -, file⟩ := leads_of_yields same known yields member
    exact ⟨leads.target, file⟩

def naming : EdgeSource where
  name := "naming"
  describe _ context :=
    .ok { result := .ok [context.edgeTo ['b'], context.edgeTo context.sourceRoot] }

/-- A builder that asks a tool that is missing, and then a source that answers. -/
def patient : GraphBuilder where
  index := EditCall.neighborhood.index
  workspace := EditCall.neighborhood.root
  sources := [.dump (fun _ _ _ => .failure .notFound) 0 ["swift".toList] none, naming]

/-- Of one manifest that is there and one that is not, three workers give the edge of the first. -/
theorem build_keeps_order_patient :
    AllAnswer patient EditCall.neighbors
        (["a/Package.swift".toList, "c/Package.swift".toList] ++ ["b/Package.swift".toList]) ∧
      patient.Yields EditCall.neighbors 3 ["a/Package.swift".toList, "c/Package.swift".toList]
        (.ok [⟨['a'], ['b'], "a/Package.swift".toList⟩]) := by
  have answers : AllAnswer patient EditCall.neighbors
      (["a/Package.swift".toList, "c/Package.swift".toList] ++ ["b/Package.swift".toList]) := by
    have tells (context : ManifestContext) : ∀ source ∈ patient.sources,
        ∃ attempt, source.describe EditCall.neighbors context = .ok attempt := by
      intro source member
      rcases List.mem_cons.mp member with rfl | member
      · exact ⟨_, rfl⟩
      · obtain rfl := List.mem_singleton.mp member
        exact ⟨_, rfl⟩
    intro manifest member
    rw [List.cons_append, List.cons_append, List.nil_append, List.mem_cons, List.mem_cons,
      List.mem_singleton] at member
    rcases member with rfl | rfl | rfl <;> exact ⟨_, rfl, ⟨_, rfl⟩, tells _⟩
  have present : IsBatch patient EditCall.neighbors "a/Package.swift".toList
      [⟨['a'], ['b'], "a/Package.swift".toList⟩] := by
    refine IsBatch.told rfl [.dump (fun _ _ _ => .failure .notFound) 0 ["swift".toList] none] naming
      [] rfl ?_ _ rfl _ rfl
    intro source member
    obtain rfl := List.mem_singleton.mp member
    exact ⟨_, _, rfl, rfl⟩
  have missing : IsBatch patient EditCall.neighbors "c/Package.swift".toList [] := .absent rfl
  obtain ⟨batches, -⟩ := build_keeps_order patient EditCall.neighbors 3 _ _ answers
  exact ⟨answers, (batches _).mpr
    ⟨_, _, .cons rfl (.cons rfl .nil), .cons present (.cons missing .nil), rfl⟩⟩

end GraphBuilder

end SwiftWorkspace
