import Mathlib.Logic.Function.Basic
import SwiftWorkspace.Workspace.Change

/-!
# Additions at the same time

The service hands each addition to a worker, and no addition waits for another one.
In one step an addition reads the manifest and works out the new text, and in a later
step it writes that text, whatever has been written in between.
-/

namespace SwiftWorkspace

/-- A dependency that is to be added to a project of a workspace. -/
structure Submission where
  workspace : Workspace
  project : Text
  dependency : DependencyRequest

namespace Submission

def plan (submission : Submission) (disk : Disk) : Except WorkspaceError (Change Dependency) :=
  submission.workspace.planAddition disk submission.project submission.dependency

end Submission

/-- How far an addition has come. -/
inductive Progress where
  | waiting
  /-- The new text is worked out and not written. -/
  | planned (change : Change Dependency)
  | answered (answer : Except WorkspaceError Dependency)

namespace Progress

/--
How far an addition has come when it has read the manifest; one that is refused writes nothing.
-/
def ofPlan : Except WorkspaceError (Change Dependency) → Progress
  | .error error => .answered (.error error)
  | .ok change => .planned change

/-- Whether the addition has reported success. -/
def isAdded : Progress → Bool
  | answered (.ok _) => true
  | _ => false

end Progress

/-- A step of the addition at some place of a list. -/
inductive TrafficEvent where
  | read (place : Nat)
  | write (place : Nat)
  deriving DecidableEq, Repr

/-- A disk, and how far the additions have come that work on it. -/
structure Traffic where
  disk : Disk
  progress : Nat → Progress

namespace Traffic

/-- The traffic before any addition has begun. -/
def start (disk : Disk) : Traffic := ⟨disk, fun _ => .waiting⟩

def advance (traffic : Traffic) (place : Nat) (progress : Progress) (disk : Disk) : Traffic :=
  ⟨disk, Function.update traffic.progress place progress⟩

def step? (submissions : List Submission) (traffic : Traffic) : TrafficEvent → Option Traffic
  | .read place =>
      match submissions[place]?, traffic.progress place with
      | some submission, .waiting =>
          some (traffic.advance place (.ofPlan (submission.plan traffic.disk)) traffic.disk)
      | _, _ => none
  | .write place =>
      match traffic.progress place with
      | .planned change =>
          some (traffic.advance place (.answered (.ok change.outcome)) (change.apply traffic.disk))
      | _ => none

def run? (submissions : List Submission) (schedule : List TrafficEvent) (traffic : Traffic) :
    Option Traffic :=
  schedule.foldlM (step? submissions) traffic

variable {traffic : Traffic} {place other : Nat} {progress later : Progress} {disk after : Disk}

@[simp] theorem progress_advance_self :
    (traffic.advance place progress disk).progress place = progress :=
  Function.update_self ..

theorem progress_advance_of_ne (differs : other ≠ place) :
    (traffic.advance place progress disk).progress other = traffic.progress other :=
  Function.update_of_ne differs ..

end Traffic

end SwiftWorkspace
