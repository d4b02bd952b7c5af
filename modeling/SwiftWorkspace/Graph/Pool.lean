import Mathlib.Logic.Relation
import SwiftWorkspace.Graph.Build

/-!
# Building the graph with workers

With more than one worker the manifest files are handed out in their order.  A worker
gives the batch of its file back whenever it is done with it, and the batches are taken
in the order of the files.
-/

namespace SwiftWorkspace

/--
Tasks with their places in a list: those that wait, those that a worker is at, and what came of
the others.
-/
structure Pool (α β : Type) where
  waiting : List (α × Nat)
  running : List (α × Nat) := []
  finished : List (Nat × β) := []

namespace Pool

variable {α β ε : Type}

/-- The pool before any worker has begun. -/
def ofTasks (tasks : List α) : Pool α β where
  waiting := tasks.zipIdx

/-- What can happen next in a pool with a number of workers. -/
inductive Step (work : α → β) (workers : Nat) : Pool α β → Pool α β → Prop
  /-- A worker that is free takes the task that has waited longest. -/
  | begin (task : α × Nat) (waiting running : List (α × Nat)) (finished : List (Nat × β))
      (free : running.length < workers) :
      Step work workers ⟨task :: waiting, running, finished⟩ ⟨waiting, task :: running, finished⟩
  /-- Some worker is done with its task. -/
  | finish (task : α × Nat) (waiting before after : List (α × Nat)) (finished : List (Nat × β)) :
      Step work workers ⟨waiting, before ++ task :: after, finished⟩
        ⟨waiting, before ++ after, (task.2, work task.1) :: finished⟩

/-- What can happen in a pool from one time to a later one. -/
abbrev Run (work : α → β) (workers : Nat) : Pool α β → Pool α β → Prop :=
  Relation.ReflTransGen (Step work workers)

/--
The results at some places in order, up to the first fault; there is none while a place has no
result.
-/
def collect? (finished : List (Nat × Except ε β)) : List Nat → Option (Except ε (List β))
  | [] => some (.ok [])
  | place :: places =>
      match finished.lookup place with
      | none => none
      | some (.error fault) => some (.error fault)
      | some (.ok value) => (collect? finished places).map (Except.map (value :: ·))

end Pool

namespace GraphBuilder

/-- The edges of one manifest file, or the fault that leaves it without any. -/
def edgesFor (builder : GraphBuilder) (disk : Disk) (manifestFile : Text) :
    Except GraphFault (List Edge) :=
  (builder.batchFor disk manifestFile).result

/--
What a build may come to when it asks for a number of workers.  One worker, or one
for a single file, goes through the files by itself.
-/
inductive Yields (builder : GraphBuilder) (disk : Disk) (workers : Int) (manifests : List Text) :
    Except GraphFault (List Edge) → Prop
  /-- A manifest file has no path that can be told. -/
  | misplaced (fault : GraphFault) (unplaced : manifests.mapM builder.relativeFile = .error fault) :
      Yields builder disk workers manifests (.error fault)
  /-- The files are gone through one after another. -/
  | alone (files : List Text) (placed : manifests.mapM builder.relativeFile = .ok files)
      (few : max 1 workers ≤ 1 ∨ files.length ≤ 1) :
      Yields builder disk workers manifests (builder.build disk manifests).result
  /-- The files are handed out to workers. -/
  | pooled (files : List Text) (placed : manifests.mapM builder.relativeFile = .ok files)
      (many : 1 < max 1 workers ∧ 1 < files.length)
        (pool : Pool Text (Except GraphFault (List Edge)))
      (run : Pool.Run (builder.edgesFor disk) (max 1 workers).toNat (.ofTasks files) pool)
      (batches : Except GraphFault (List (List Edge)))
      (collected : Pool.collect? pool.finished (List.range files.length) = some batches) :
      Yields builder disk workers manifests (batches.map List.flatten)

end GraphBuilder

end SwiftWorkspace
