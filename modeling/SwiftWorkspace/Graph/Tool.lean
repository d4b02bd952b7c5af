import SwiftWorkspace.Disk.Basic
import SwiftWorkspace.Text.CodePoint

/-!
# Tools

A tool is run with a command line in a directory.  It answers, or it fails as tools may, or the
run ends in an error that is neither the tool's nor the system's.  What a tool answers is not
decided here: a toolchain is any function from disks, command lines and directories to outcomes.
-/

namespace SwiftWorkspace

/-- Why a tool gave no answer: a failure of the system, or of the tool's process. -/
inductive ToolFailure where
  /-- There is no such tool. -/
  | notFound
  /-- The path of the tool goes on below a file. -/
  | notDirectory
  /-- The path of the tool leads to something that cannot be run. -/
  | notExecutable
  | tooLong
  | exited (status : Nat)
  /-- The tool did not end within some seconds. -/
  | timedOut (seconds : Nat)
  /-- Any other failure, with its message. -/
  | other (message : String)
  deriving DecidableEq, Repr

namespace ToolFailure

def message (failure : ToolFailure) (command : List Text) : String :=
  let list := (Text.quotedList command).asString
  let tool := (Text.quoted (command.head?.getD [])).asString
  match failure with
  | .notFound => s!"[Errno 2] No such file or directory: {tool}"
  | .notExecutable => s!"[Errno 13] Permission denied: {tool}"
  | .notDirectory => s!"[Errno 20] Not a directory: {tool}"
  | .tooLong => s!"[Errno 36] File name too long: {tool}"
  | .exited status => s!"Command '{list}' returned non-zero exit status {status}."
  | .timedOut seconds => s!"Command '{list}' timed out after {seconds} seconds"
  | .other message => message

end ToolFailure

/-- An error of a run that is neither the tool's nor the system's. -/
inductive ToolFault where
  /-- The command has no words. -/
  | noWords
  /-- A word of the command holds the null character. -/
  | unnameable
  /-- What the tool has written is not UTF-8. -/
  | notText (invalid : Utf8.Invalid)
  /-- Any other error, with its name and its message. -/
  | other (name message : String)
  deriving DecidableEq, Repr

namespace ToolFault

def name : ToolFault → String
  | .noWords => "IndexError"
  | .unnameable => "ValueError"
  | .notText _ => "UnicodeDecodeError"
  | .other name _ => name

def message : ToolFault → String
  | .noWords => "list index out of range"
  | .unnameable => "embedded null byte"
  | .notText invalid => invalid.message
  | .other _ message => message

end ToolFault

inductive ToolOutcome where
  | answer (points : CodePoints)
  | failure (failure : ToolFailure)
  | fault (fault : ToolFault)
  deriving DecidableEq, Repr

/-- The tools that can be run: what comes of each command in each directory of a disk. -/
abbrev Toolchain := Disk → List Text → Path → ToolOutcome

namespace Toolchain

def endsAsDirectory (word : Text) : Bool := word.endsWith ['/'] || word.endsWith ['/', '.']

def failureAt (disk : Disk) (directory : Path) (word : Text) : ToolFailure :=
  match disk.locate (directory.join (Path.ofText word)) with
  | .ok entry =>
      if endsAsDirectory word && !entry.isDirectory then .notDirectory else .notExecutable
  | .error .notDirectory => .notDirectory
  | .error .tooLong => .tooLong
  | .error _ => .notFound

/--
Why the tool with a name cannot be run where there is none.  Names that lead to
directories are found in every place where tools are looked for.
-/
def failureOf (disk : Disk) (directory : Path) (word : Text) : ToolFailure :=
  if word.elem '/' then failureAt disk directory word
  else if [[], Path.here, Path.up].elem word then .notExecutable
  else if Entry.isLongName word then .tooLong
  else .notFound

/-- The toolchain without any tool. -/
def none : Toolchain := fun disk command directory =>
  if command.any fun word => word.elem (Char.ofNat 0) then .fault .unnameable
  else
    match command with
    | [] => .fault .noWords
    | word :: _ => .failure (failureOf disk directory word)

end Toolchain

structure ToolCall where
  command : List Text
  directory : Path
  timeout : Option Float

end SwiftWorkspace
