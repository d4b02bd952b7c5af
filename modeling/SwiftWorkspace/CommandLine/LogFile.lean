import SwiftWorkspace.Disk.Basic
import SwiftWorkspace.Log

/-!
# Log files

A log file takes all records, the oldest first.  It is made with all directories
above it before anything is reported.
-/

namespace SwiftWorkspace

inductive LogFileError where
  /-- A file stands in the place of its directory. -/
  | occupied (directory : Path)
  /-- Its path, or that of its directory, leads to nothing that can be opened or made. -/
  | lookup (failure : ReadFailure)
  deriving DecidableEq, Repr

namespace LogFileError

def name : LogFileError → String
  | .occupied _ => "FileExistsError"
  | .lookup failure => failure.name

def message : LogFileError → String
  | .occupied directory => s!"[Errno 17] File exists: {(Text.quoted directory.text).asString}"
  | .lookup failure => failure.message

end LogFileError

namespace LogRecord

def fileLine (time : Text) (record : LogRecord) : Text :=
  let level := record.level.label
  time ++ s!" {level} {record.component.label} [MainThread]: {record.message}\n".toList

end LogRecord

abbrev DiskChange (α : Type) := ExceptT LogFileError (StateM Disk) α

namespace LogFile

/-- What stands in the way of a new directory: an entry of that name, or why none can be made. -/
inductive Obstacle where
  | present
  | cause (cause : ReadCause)
  deriving DecidableEq, Repr

def obstacle? (disk : Disk) (directory : Path) : Option Obstacle :=
  if directory.isUnnameable then some (.cause .unnameable)
  else if Disk.isLongPath directory then some (.cause .tooLong)
  else if directory.segments.isEmpty then some .present
  else
    match disk.locate directory.parent with
    | .error cause => some (.cause cause)
    | .ok above =>
        if !above.isDirectory then some (.cause .notDirectory)
        else if directory.name = Path.up then some .present
        else if Entry.isLongName directory.name then some (.cause .tooLong)
        else if (disk.locate directory).isOk then some .present
        else none

def settle (disk : Disk) (directory : Path) : Obstacle → Except LogFileError Unit
  | .cause .unnameable => .error (.lookup ⟨directory, .unnameable⟩)
  | obstacle => do
      if ← (disk.isDirectory directory).mapError .lookup then pure ()
      else
        match obstacle with
        | .present => throw (.occupied directory)
        | .cause cause => throw (.lookup ⟨directory, cause⟩)

def makeLast (directory : Path) : DiskChange Unit := do
  let disk ← get
  match obstacle? disk directory with
  | none => set (disk.makeDirectory directory)
  | some obstacle => (settle disk directory obstacle : Except LogFileError Unit)

def makeAll : (segments : Nat) → Path → DiskChange Unit
  | 0, directory => makeLast directory
  | segments + 1, directory => do
      if obstacle? (← get) directory = some (.cause .notFound) then
        makeAll segments directory.parent
      makeLast directory

/-- Make the file unless it exists, and all directories above it. -/
def create (file : Path) : DiskChange Unit := do
  makeAll file.parent.segments.length file.parent
  let disk ← get
  let absolute := disk.resolve file
  let fail (cause : ReadCause) : DiskChange Unit := throw (.lookup ⟨absolute, cause⟩)
  match disk.locate absolute with
  | .ok (.file _) => pure ()
  | .ok (.directory _) => fail .isDirectory
  | .error .notFound => set (disk.append absolute [])
  | .error cause => fail cause

def extend (disk : Disk) (file : Path) (time : Text) (records : List LogRecord) : Disk :=
  disk.append file (Utf8.encode (records.flatMap (LogRecord.fileLine time)))

end LogFile

end SwiftWorkspace
