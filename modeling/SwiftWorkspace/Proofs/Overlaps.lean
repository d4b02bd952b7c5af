import SwiftWorkspace.Proofs.Submissions

/-!
# Overlapping additions

Additions to one manifest that follow each other are all declared.  Where an addition
writes what it has worked out from an older text, the additions that have been written
since are lost: nothing but the order of the steps decides which ones these are.
-/

namespace SwiftWorkspace

/-- Whose additions a manifest holds, and whose it held when each addition read it. -/
structure Ledger where
  held : List Nat := []
  seen : Nat → List Nat := fun _ => []

namespace Ledger

def note (ledger : Ledger) : TrafficEvent → Ledger
  | .read place => { ledger with seen := Function.update ledger.seen place ledger.held }
  | .write place => { ledger with held := ledger.seen place ++ [place] }

/-- The places of the additions that a manifest holds after some steps. -/
def heldAfter (schedule : List TrafficEvent) : List Nat := (schedule.foldl note {}).held

variable {ledger : Ledger} {place : Nat}

/--
An addition that a manifest holds stays there if each one that writes later has seen it
or is yet to read.
-/
theorem mem_held_of_seen {later : List TrafficEvent} (held : place ∈ ledger.held)
    (seen : ∀ front other back, later = front ++ .write other :: back →
      place ∈ ledger.seen other ∨ .read other ∈ front) :
    place ∈ (later.foldl note ledger).held := by
  induction later generalizing ledger with
  | nil => exact held
  | cons event later ih =>
      cases event with
      | read reader =>
          refine ih held fun front other back split => ?_
          by_cases same : other = reader
          · subst same
            exact .inl (by simpa [note] using held)
          · rcases seen (.read reader :: front) other back (by rw [split]; rfl) with before | inside
            · exact .inl (by simpa [note, same] using before)
            · exact .inr (by simpa [same] using inside)
      | write writer =>
          have before : place ∈ ledger.seen writer := by simpa using seen [] writer later rfl
          refine ih (List.mem_append_left _ before) fun front other back split => ?_
          rcases seen (.write writer :: front) other back (by rw [split]; rfl) with before | inside
          · exact .inl before
          · exact .inr (by simpa using inside)

end Ledger

namespace Traffic

variable {submissions : List Submission} {traffic next final : Traffic}
    {schedule front back : List TrafficEvent}
  {place : Nat}

theorem step?_read_eq_some : step? submissions traffic (.read place) = some next ↔
    ∃ submission, submissions[place]? = some submission ∧ traffic.progress place = .waiting ∧
      next = traffic.advance place (.ofPlan (submission.plan traffic.disk)) traffic.disk := by
  rw [step?]
  split
  · rename_i submission here waits
    simp [here, waits, eq_comm]
  · rename_i other
    simp only [reduceCtorEq, false_iff, not_exists, not_and]
    exact fun submission here waits => absurd waits (other submission here)

theorem step?_write_eq_some : step? submissions traffic (.write place) = some next ↔
    ∃ change, traffic.progress place = .planned change ∧
      next = traffic.advance place
        (.answered (.ok change.outcome)) (change.apply traffic.disk) := by
  rw [step?]
  split
  · rename_i change planned
    simp [planned, eq_comm]
  · rename_i other
    simp only [reduceCtorEq, false_iff, not_exists, not_and]
    exact fun change planned => absurd planned (other change)

theorem run?_cons {event : TrafficEvent} :
    run? submissions (event :: schedule) traffic = some final ↔
    ∃ middle, step? submissions traffic event = some middle ∧
      run? submissions schedule middle = some final := by
  rw [run?, List.foldlM_cons]
  exact Option.bind_eq_some_iff

theorem run?_append : run? submissions (front ++ back) traffic = some final ↔
    ∃ middle, run? submissions front traffic = some middle ∧
      run? submissions back middle = some final := by
  rw [run?, List.foldlM_append]
  exact Option.bind_eq_some_iff

theorem waiting_of_run (ran : run? submissions schedule traffic = some final)
    (unread : .read place ∉ schedule) (waits : traffic.progress place = .waiting) :
    final.progress place = .waiting := by
  induction schedule generalizing traffic with
  | nil =>
      obtain rfl := Option.some.inj ran
      exact waits
  | cons event schedule ih =>
      obtain ⟨middle, stepped, ran⟩ := run?_cons.mp ran
      rw [List.mem_cons, not_or] at unread
      refine ih ran unread.2 ?_
      cases event with
      | read reader =>
          obtain ⟨submission, -, -, rfl⟩ := step?_read_eq_some.mp stepped
          have other : place ≠ reader := fun same => unread.1 (by rw [same])
          rwa [progress_advance_of_ne other]
      | write writer =>
          obtain ⟨change, planned, rfl⟩ := step?_write_eq_some.mp stepped
          have other : place ≠ writer := by
            rintro rfl
            rw [waits] at planned
            cases planned
          rwa [progress_advance_of_ne other]

/-- Whatever is written has been read before. -/
theorem read_of_write {disk : Disk} (ran : run? submissions schedule (start disk) = some final)
    (split : schedule = front ++ .write place :: back) : .read place ∈ front := by
  rw [split] at ran
  obtain ⟨middle, before, behind⟩ := run?_append.mp ran
  obtain ⟨next, stepped, -⟩ := run?_cons.mp behind
  obtain ⟨change, planned, -⟩ := step?_write_eq_some.mp stepped
  by_contra unread
  rw [waiting_of_run before unread rfl] at planned
  cases planned

/-- An addition that has come to report success has written. -/
theorem write_of_added (ran : run? submissions schedule traffic = some final)
    (added : (final.progress place).isAdded) :
    (traffic.progress place).isAdded ∨ .write place ∈ schedule := by
  induction schedule generalizing traffic with
  | nil =>
      obtain rfl := Option.some.inj ran
      exact .inl added
  | cons event schedule ih =>
      obtain ⟨middle, stepped, ran⟩ := run?_cons.mp ran
      rcases ih ran with before | later
      · cases event with
        | read reader =>
            obtain ⟨submission, -, -, rfl⟩ := step?_read_eq_some.mp stepped
            by_cases same : place = reader
            · subst same
              rw [progress_advance_self] at before
              cases planned : submission.plan traffic.disk <;>
                simp [planned, Progress.ofPlan, Progress.isAdded] at before
            · rw [progress_advance_of_ne same] at before
              exact .inl before
        | write writer =>
            obtain ⟨change, -, rfl⟩ := step?_write_eq_some.mp stepped
            by_cases same : place = writer
            · exact .inr (by simp [same])
            · rw [progress_advance_of_ne same] at before
              exact .inl before
      · exact .inr (.tail _ later)

end Traffic

/-- Whether another addition reads before the one at a place writes and writes after it. -/
def Overwritten (schedule : List TrafficEvent) (place : Nat) : Prop :=
  ∃ other, List.Sublist [.read other, .write place, .write other] schedule

theorem Ledger.mem_heldAfter {submissions : List Submission} {disk : Disk} {final : Traffic}
    {schedule : List TrafficEvent} {place : Nat}
    (ran : Traffic.run? submissions schedule (.start disk) = some final)
    (written : .write place ∈ schedule)
    (kept : ¬Overwritten schedule place) : place ∈ heldAfter schedule := by
  obtain ⟨front, back, split⟩ := List.append_of_mem written
  have later : schedule = (front ++ [.write place]) ++ back := by simp [split]
  rw [heldAfter, later, List.foldl_append]
  refine mem_held_of_seen (by simp [note]) fun between other rest same => .inr ?_
  have whole : schedule = (front ++ .write place :: between) ++ .write other :: rest := by
    simp [split, same]
  have read := Traffic.read_of_write ran whole
  rw [List.mem_append, List.mem_cons] at read
  rcases read with early | other_event | inside
  · refine absurd ⟨other, ?_⟩ kept
    have behind : TrafficEvent.write other ∈ back := by simp [same]
    rw [split]
    exact (List.singleton_sublist.mpr early).append
      ((List.singleton_sublist.mpr behind).cons_cons _)
  · cases other_event
  · exact inside

-- What has been overwritten comes back with an addition that had read it before that.
example : Ledger.heldAfter [.read 0, .read 1, .write 1, .read 2, .write 0, .write 2] = [1, 2] := by
  decide

/-- Whether all additions are those of URLs to the project whose manifest is the given file. -/
structure Contend (submissions : List Submission) (disk : Disk) (file : Path) : Prop where
  remote : ∀ submission ∈ submissions, submission.IsRemote
  same : ∀ submission ∈ submissions,
    submission.workspace.manifestPlace? disk submission.project = some (disk.place file)

/--
The manifest and each text that is worked out and not written are made by the additions
that the ledger has for them.
-/
structure Ledger.Fits (ledger : Ledger) (submissions : List Submission) (disk : Disk) (file : Path)
    (initial : Text) (traffic : Traffic) : Prop where
  workingDirectory : traffic.disk.workingDirectory = disk.workingDirectory
  current : ∃ text, traffic.disk.readText file = .ok text ∧
    Lineage submissions initial ledger.held text
  outstanding : ∀ place change, traffic.progress place = .planned change →
    disk.place change.path = disk.place file ∧
      Lineage submissions initial (ledger.seen place ++ [place]) change.text

namespace Ledger.Fits

variable {ledger : Ledger} {submissions : List Submission} {disk : Disk} {file : Path}
    {initial : Text}
  {traffic next final : Traffic}

theorem start {text : Text} (read : disk.readText file = .ok text) (plain : Plain text) :
    Ledger.Fits {} submissions disk file text (.start disk) := by
  have noReturn : '\r' ∉ text := by
    obtain ⟨written, -, rfl⟩ := Disk.readText_eq_ok_iff.mp read
    exact Text.noReturn_withLineFeeds written
  exact ⟨rfl, ⟨text, read, .refl plain noReturn⟩, fun _ _ planned => nomatch planned⟩

theorem place_eq (fits : ledger.Fits submissions disk file initial traffic) {path : Path}
    (same : disk.place path = disk.place file) :
    traffic.disk.place path = traffic.disk.place file := by
  rw [Disk.place_congr fits.workingDirectory, Disk.place_congr fits.workingDirectory, same]

/-- An addition works its text out from what the manifest holds. -/
theorem plan (fits : ledger.Fits submissions disk file initial traffic)
    (contend : Contend submissions disk file)
    {place : Nat} {submission : Submission} (here : submissions[place]? = some submission)
    {change : Change Dependency} (planned : submission.plan traffic.disk = .ok change) :
    disk.place change.path = disk.place file ∧
      Lineage submissions initial (ledger.held ++ [place]) change.text := by
  have member : submission ∈ submissions := List.mem_of_getElem? here
  have remote := contend.remote submission member
  obtain ⟨-, seen, -, -, -, path_eq, text_eq, -⟩ := remote.exists_insert planned
  have placed := Workspace.manifestPlace?_of_manifestPath path_eq
  rw [Workspace.manifestPlace?_congr fits.workingDirectory, contend.same submission member,
    Disk.place_congr fits.workingDirectory] at placed
  have same : disk.place change.path = disk.place file := (Option.some.inj placed).symm
  obtain ⟨text, read, lineage⟩ := fits.current
  have text_same : seen = text := Disk.readText_eq_of_place (fits.place_eq same) text_eq read
  rw [text_same] at text_eq
  exact ⟨same, lineage.grow here remote planned text_eq⟩

theorem read (fits : ledger.Fits submissions disk file initial traffic)
    (contend : Contend submissions disk file) {place : Nat}
    (stepped : Traffic.step? submissions traffic (.read place) = some next) :
    (ledger.note (.read place)).Fits submissions disk file initial next := by
  obtain ⟨submission, here, -, rfl⟩ := Traffic.step?_read_eq_some.mp stepped
  refine ⟨fits.workingDirectory, fits.current, fun other change planned => ?_⟩
  by_cases same : other = place
  · subst same
    rw [Traffic.progress_advance_self] at planned
    cases plan : submission.plan traffic.disk with
    | error error => simp [plan, Progress.ofPlan] at planned
    | ok found =>
        obtain rfl : found = change := by simpa [plan, Progress.ofPlan] using planned
        simpa [note] using fits.plan contend here plan
  · rw [Traffic.progress_advance_of_ne same] at planned
    simpa [note, same] using fits.outstanding other change planned

/--
A step in which an addition writes the text that it has worked out, whatever the manifest holds
by then.
-/
theorem write (fits : ledger.Fits submissions disk file initial traffic) {place : Nat}
    (stepped : Traffic.step? submissions traffic (.write place) = some next) :
    (ledger.note (.write place)).Fits submissions disk file initial next := by
  obtain ⟨change, planned, rfl⟩ := Traffic.step?_write_eq_some.mp stepped
  obtain ⟨same, lineage⟩ := fits.outstanding place change planned
  obtain ⟨old, read, -⟩ := fits.current
  have written := Disk.readText_writeText (fits.place_eq same).symm read lineage.noReturn
  refine ⟨fits.workingDirectory, ⟨change.text, written, lineage⟩, fun other found waits => ?_⟩
  by_cases here : other = place
  · simp [here] at waits
  · rw [Traffic.progress_advance_of_ne here] at waits
    exact fits.outstanding other found waits

theorem run (fits : ledger.Fits submissions disk file initial traffic)
    (contend : Contend submissions disk file)
    {schedule : List TrafficEvent} (ran : Traffic.run? submissions schedule traffic = some final) :
    (schedule.foldl note ledger).Fits submissions disk file initial final := by
  induction schedule generalizing traffic ledger with
  | nil =>
      obtain rfl := Option.some.inj ran
      exact fits
  | cons event schedule ih =>
      obtain ⟨middle, stepped, ran⟩ := Traffic.run?_cons.mp ran
      refine ih ?_ ran
      cases event with
      | read place => exact fits.read contend stepped
      | write place => exact fits.write stepped

end Ledger.Fits

/--
Additions of URLs to one project can make their steps in any order.  If its manifest is
plain it stays so, and its dependencies are the old ones and those of the additions that
the steps leave there, in the order in which they were read and written.  A URL whose
addition has reported success is declared unless another addition has read before that one
wrote and written after it.
-/
theorem additions_in_any_order {submissions : List Submission} {disk : Disk} {file : Path}
    {initial : Text}
    (read : disk.readText file = .ok initial) (plain : Plain initial)
    (contend : Contend submissions disk file) {schedule : List TrafficEvent} {final : Traffic}
    (ran : Traffic.run? submissions schedule (.start disk) = some final) :
    ∃ text, final.disk.readText file = .ok text ∧ Plain text ∧
      declaredUrls text = declaredUrls initial ++
        (Ledger.heldAfter schedule).map (fun place => submissions[place]?.bind (·.dependency.url)) ∧
      ∀ place submission, submissions[place]? = some submission → (final.progress place).isAdded →
        ¬Overwritten schedule place → submission.dependency.url ∈ declaredUrls text := by
  obtain ⟨-, ⟨text, last, lineage⟩, -⟩ := (Ledger.Fits.start read plain).run contend ran
  refine ⟨text, last, lineage.plain, lineage.urls, fun place submission here added kept => ?_⟩
  have written : .write place ∈ schedule := by
    rcases Traffic.write_of_added ran added with early | written
    · cases early
    · exact written
  rw [lineage.urls]
  refine List.mem_append_right _
    (List.mem_map.mpr ⟨place, Ledger.mem_heldAfter ran written kept, ?_⟩)
  simp [here]

open EditCall (neighborhood neighbors)

def neighborAdditions (first second : String) : List Submission :=
  [first, second].map fun url => ⟨neighborhood, ['p'], { url := some url.toList }⟩

def neighborManifest : Path := ⟨.root, [['a'], "Package.swift".toList]⟩

theorem exists_plain_neighborManifest :
    ∃ initial, neighbors.readText neighborManifest = .ok initial ∧ Plain initial :=
  ⟨"Package(dependencies: [])".toList, by decide +kernel, by decide +kernel⟩

/-- Two URLs are added one after the other. -/
theorem additions_in_order :
    ∃ final ∈ Traffic.run? (neighborAdditions "https://h/o/core" "https://h/o/tool")
        [.read 0, .write 0, .read 1, .write 1] (.start neighbors),
      ∃ text, final.disk.readText neighborManifest = .ok text ∧ Plain text ∧
        some "https://h/o/core".toList ∈ declaredUrls text ∧
          some "https://h/o/tool".toList ∈ declaredUrls text := by
  let submissions := neighborAdditions "https://h/o/core" "https://h/o/tool"
  let schedule : List TrafficEvent := [.read 0, .write 0, .read 1, .write 1]
  have contend : Contend submissions neighbors neighborManifest := by
    have core : Text.OnLine "https://h/o/core".toList := Text.onLine_of_all (by decide)
    have tool : Text.OnLine "https://h/o/tool".toList := Text.onLine_of_all (by decide)
    constructor <;> intro submission member <;>
      rcases List.mem_pair.mp member with rfl | rfl
    · exact ⟨⟨_, rfl, by decide, core⟩, by simp, by simp⟩
    · exact ⟨⟨_, rfl, by decide, tool⟩, by simp, by simp⟩
    · decide +kernel
    · decide +kernel
  have each (place : Nat) : ¬Overwritten schedule place := by
    rintro ⟨other, steps⟩
    have reads : other = 0 ∨ other = 1 := by simpa [schedule] using steps.subset (.head _)
    have writes : place = 0 ∨ place = 1 := by
      simpa [schedule] using steps.subset (.tail _ (.head _))
    rcases reads with rfl | rfl <;> rcases writes with rfl | rfl <;> revert steps <;> decide
  have succeeds : ∃ final ∈ Traffic.run? submissions schedule (.start neighbors),
      (final.progress 0).isAdded ∧ (final.progress 1).isAdded := by decide +kernel
  obtain ⟨final, ran, first, second⟩ := succeeds
  obtain ⟨initial, read, plain⟩ := exists_plain_neighborManifest
  obtain ⟨text, last, still, -, declared⟩ := additions_in_any_order read plain contend ran
  exact ⟨final, ran, text, last, still, declared 0 _ rfl first (each 0),
    declared 1 _ rfl second (each 1)⟩

/--
Of two URLs that are added to a plain manifest at the same time one is lost, and both are
when they follow each other and one of them is broken by a line feed.
-/
theorem additions_lost :
    (∃ initial, neighbors.readText neighborManifest = .ok initial ∧ Plain initial) ∧
    (∃ final ∈ Traffic.run? (neighborAdditions "https://h/o/core" "https://h/o/tool")
        [.read 0, .read 1, .write 0, .write 1] (.start neighbors),
      (final.progress 0).isAdded ∧ (final.progress 1).isAdded ∧
        ∃ text ∈ (final.disk.readText neighborManifest).toOption,
          some "https://h/o/core".toList ∉ declaredUrls text) ∧
    ∃ final ∈ Traffic.run? (neighborAdditions "https://h/o/core" "https://h/o/to\nol")
        [.read 0, .write 0, .read 1, .write 1] (.start neighbors),
      (final.progress 0).isAdded ∧ (final.progress 1).isAdded ∧
        ∃ text ∈ (final.disk.readText neighborManifest).toOption,
          some "https://h/o/core".toList ∉ declaredUrls text ∧
          some "https://h/o/to\nol".toList ∉ declaredUrls text := by
  refine ⟨exists_plain_neighborManifest, ?_, ?_⟩ <;> decide +kernel

end SwiftWorkspace
