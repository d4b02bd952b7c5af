import SwiftWorkspace.CommandLine.Run
import SwiftWorkspace.Yaml.Reader

/-!
# The program

The command line is carried out on a picture of the disk: the directory of the
workspace is read first, and what has changed is written afterwards.
-/

namespace SwiftWorkspace

namespace Program

abbrev Picture := StateT Disk IO

def readFile (path : String) : Picture Unit := do
  let content ← IO.FS.readBinFile path
  modify fun disk => disk.write (Path.ofText path.toList) content.toList

/-- Put a directory entry and all below it into the picture; links are left out. -/
partial def readEntry (entry : IO.FS.DirEntry) : Picture Unit := do
  let path := entry.path
  match (← path.metadata).type with
  | .dir =>
      if !Discovery.skippedNames.elem entry.fileName.toList then
        modify fun disk => disk.makeDirectory (Path.ofText path.toString.toList)
        for below in ← path.readDir do
          readEntry below
  | .file => readFile path.toString
  | _ => pure ()

def readDirectory (path : Path) : Picture Unit := do
  let directory := (← IO.currentDir) / path.text.asString
  if ← directory.isDir then
    let directory ← IO.FS.realPath directory
    modify fun disk => disk.makeDirectory (Path.ofText directory.toString.toList)
    for entry in ← directory.readDir do
      readEntry entry

def readFileIfPresent (path : Path) : Picture Unit := do
  let file := (← IO.currentDir) / path.text.asString
  if (← file.pathExists) && !(← file.isDir) then
    readFile (← IO.FS.realPath file).toString

def readFor (invocation : CommandLine.Invocation) : Picture Unit := do
  match invocation.command.directory? with
  | some workspace => readDirectory workspace
  | none => pure ()
  match invocation.command with
  | .describe _ (some reference) => readFileIfPresent (Path.ofText reference)
  | _ => pure ()
  match invocation.logFile.join with
  | some file => readFileIfPresent file
  | none => pure ()

def writeChange (path : Path) (content : Bytes) : IO Unit := do
  IO.FS.createDirAll ("/" ++ path.parent.text.asString)
  IO.FS.writeBinFile ("/" ++ path.text.asString) ⟨content.toArray⟩

def writeChanges (before after : Disk) : IO Unit := do
  for (path, content) in before.changes after ⟨.root, []⟩ do
    match content with
    | some content => writeChange path content
    | none => pure ()

/-- What the program relies on: no tools, and a limit of JSON values that texts seldom reach. -/
def surroundings : Surroundings where
  toolchain := .none
  reader := Yaml.reader
  levels := 900

def time : IO Text := return Text.ofNat (← IO.monoMsNow)

/-- Show how a run ended, and give its status. -/
def finish (outcome : CommandLine.Outcome) : IO UInt32 := do
  (← IO.getStdout).putStr outcome.output.asString
  (← IO.getStderr).putStr outcome.errors.asString
  match outcome.ending with
  | .exit status => pure status.toUInt32
  | .failed error => do
      (← IO.getStderr).putStrLn s!"{error.name}: {error.message}"
      pure 1
  | .serving host port => do
      let host := (host.getD []).asString
      (← IO.getStderr).putStrLn s!"cannot listen at {host}:{port.getD 0}"
      pure 1

def run (arguments : List String) : IO UInt32 := do
  let texts := arguments.map Text.ofString
  let here := Path.ofText (← IO.currentDir).toString.toList
  let empty : Disk := { root := .empty, workingDirectory := here }
  let start := empty.makeDirectory empty.workingDirectory
  match CommandLine.Invocation.ofTexts texts with
  | .error stop => finish (CommandLine.refusalOutcome start stop)
  | .ok invocation => do
      let ((), disk) ← (readFor invocation).run start
      let outcome := invocation.run disk surroundings (← time)
      writeChanges disk outcome.disk
      finish outcome

end Program

end SwiftWorkspace

def main (arguments : List String) : IO UInt32 := SwiftWorkspace.Program.run arguments
