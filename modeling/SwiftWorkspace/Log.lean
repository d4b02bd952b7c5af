import SwiftWorkspace.Text.Basic

/-!
# Log records

What the library reports besides its results.  A record names the component
that reports, so that a fallback or a skipped edit can be traced to it.
-/

namespace SwiftWorkspace

/-- How much a record matters. -/
inductive LogLevel where
  | debug
  | info
  | warning
  deriving DecidableEq, Repr

namespace LogLevel

def label : LogLevel → String
  | .debug => "DEBUG"
  | .info => "INFO"
  | .warning => "WARNING"

end LogLevel

/-- The part of the library that reports. -/
inductive Component where
  | reader
  | editor
  | discovery
  | graph
  | tasks
  | workspace
  deriving DecidableEq, Repr

namespace Component

/-- The name under which the component reports. -/
def label : Component → String
  | .reader => "spmkit.reader"
  | .editor => "spmkit.mutator"
  | .discovery => "spmkit.graph.projects"
  | .graph => "spmkit.graph"
  | .tasks => "spmkit.tasks"
  | .workspace => "spmkit.workspace"

end Component

structure LogRecord where
  level : LogLevel
  component : Component
  message : String
  deriving DecidableEq, Repr

namespace LogRecord

/-- The record on one line: level, component and message. -/
def line (record : LogRecord) : String :=
  s!"{record.level.label} {record.component.label}: {record.message}"

def isOrdinary (record : LogRecord) : Bool := record.level ≠ .debug

end LogRecord

/-- A value with the records reported on the way to it. -/
structure Reported (α : Type) where
  value : α
  records : List LogRecord := []
  deriving Repr

namespace Reported

/-- Change the value and keep the records. -/
def map {α β : Type} (change : α → β) (reported : Reported α) : Reported β :=
  ⟨change reported.value, reported.records⟩

def collect {α : Type} (list : List (Reported α)) : Reported (List α) :=
  ⟨list.map value, list.flatMap records⟩

def collectUntilFailure {ε α : Type} :
    List (Reported (Except ε α)) → Reported (Except ε (List α))
  | [] => ⟨.ok [], []⟩
  | first :: rest =>
      match first.value with
      | .error error => ⟨.error error, first.records⟩
      | .ok value =>
          let rest := collectUntilFailure rest
          ⟨rest.value.map (value :: ·), first.records ++ rest.records⟩

end Reported

end SwiftWorkspace
