import SwiftWorkspace.CommandLine.Words
import SwiftWorkspace.Workspace.Change

/-!
# Commands

The commands of the program with all that their command lines say.
-/

namespace SwiftWorkspace

namespace CommandLine

/-- What a command line says about a new dependency. -/
structure AdditionWords where
  url : Option GivenWord := none
  version : Option GivenWord := none
  localProject : Option GivenWord := none
  targets : Option (List GivenWord) := none
  product : Option GivenWord := none
  deriving DecidableEq, Repr

inductive Command where
  /-- Show the manifest that a reference means. -/
  | describe (workspace reference : GivenWord)
  /-- Show the graph of some manifest files, or of all. -/
  | graph (workspace : GivenWord) (changed : Option (List Text))
  /-- Add a dependency to a project. -/
  | add (workspace project : GivenWord) (words : AdditionWords)
  /-- Remove a dependency from a project. -/
  | remove (workspace project dependency : GivenWord) (targets : Option (List GivenWord))
      (keepsDeclaration : Bool)
  /-- Show all projects with their tasks. -/
  | projects (workspace : GivenWord)
  /-- Answer requests of other programs. -/
  | serve (host : GivenWord) (port : Option Int)
  deriving DecidableEq, Repr

structure Invocation where
  verbose : Bool := false
  /-- The file for all reports, if one is asked for; its path may be left out. -/
  logFile : Option (Option Path) := none
  command : Command
  deriving DecidableEq, Repr

namespace OptionForm

def long (name : String) (arity : Arity) : OptionForm := { names := [name.toList], arity }

def both (short name : String) (arity : Arity) : OptionForm :=
  { names := [short.toList, name.toList], arity }

def verbose : OptionForm := both "-v" "--verbose" .none

def logFile : OptionForm := long "--log-file" .one

/-- The option that names the directory of the workspace. -/
def workspace : OptionForm := both "-w" "--workspace" .one

def changed : OptionForm := long "--changed" .several

/-- The option that gives the URL of a dependency. -/
def url : OptionForm := long "--url" .one

/-- The option that gives a project to depend on. -/
def localProject : OptionForm := long "--local-project" .one

/-- The option that gives a version requirement. -/
def version : OptionForm := long "--version" .one

/-- The option that names the product that targets refer to. -/
def product : OptionForm := long "--product-name" .one

def target : OptionForm := both "-t" "--target" .one

def keep : OptionForm := long "--keep-declaration" .none

def host : OptionForm := long "--host" .one

def port : OptionForm := { names := ["--port".toList], isInteger := true }

end OptionForm

def programName : Text := "spmkit".toList

def reportOptions : List OptionForm := [.help, .verbose, .logFile]

def commandNames : List Text :=
  ["show", "graph", "add", "remove", "projects", "serve"].map Text.ofString

def mainForm : Form where
  program := programName
  options := reportOptions
  commands := commandNames

def commandForm (command : Text) : Form :=
  let named : Form := { program := programName ++ ' ' :: command, options := reportOptions }
  let inWorkspace : Form := { named with options := reportOptions ++ [.workspace] }
  if command = "show".toList then { inWorkspace with operands := ["project".toList] }
  else if command = "graph".toList then
    { inWorkspace with options := inWorkspace.options ++ [.changed] }
  else if command = "add".toList then
    { inWorkspace with
      options := inWorkspace.options ++ [.url, .localProject, .version, .product, .target]
      operands := ["project".toList]
      alternatives := [.url, .localProject] }
  else if command = "remove".toList then
    { inWorkspace with
      options := inWorkspace.options ++ [.target, .keep]
      operands := ["project".toList, "dependency".toList] }
  else if command = "serve".toList then { named with options := named.options ++ [.host, .port] }
  else inWorkspace

namespace Given

def word? (given : Given) (option : OptionForm) : Option GivenWord :=
  (given.last? option).map List.head?

def words? (given : Given) (option : OptionForm) : Option (List GivenWord) :=
  if given.has option then some (given.every option) else none

def operand (given : Given) (place : Nat) : GivenWord := given.operands[place]?.getD none

def port (given : Given) : Option Int :=
  match given.word? .port with
  | some word => word.bind fun word => (Decimal.readInt 10 word).toOption
  | none => some 8000

def toCommand (given : Given) (name : Text) : Command :=
  let workspace := (given.word? .workspace).getD (some ['.'])
  if name = "show".toList then .describe workspace (given.operand 0)
  else if name = "graph".toList then .graph workspace (given.last? .changed)
  else if name = "add".toList then
    .add workspace (given.operand 0)
      { url := given.word? .url, version := given.word? .version
        localProject := given.word? .localProject, targets := given.words? .target
        product := given.word? .product }
  else if name = "remove".toList then
    .remove workspace (given.operand 0) (given.operand 1) (given.words? .target) (given.has .keep)
  else if name = "projects".toList then .projects workspace
  else .serve ((given.word? .host).getD (some "127.0.0.1".toList)) given.port

end Given

namespace Invocation

def ofGiven (name : Text) (main behind : Given) : Invocation where
  verbose := main.has .verbose || behind.has .verbose
  logFile := ((behind.word? .logFile).or (main.word? .logFile)).map fun word =>
    word.map Path.ofText
  command := behind.toCommand name

def ofTexts (texts : List Text) : Except Stop Invocation := do
  let main ← (Given.ofTexts mainForm texts).mapError (Stop.mk mainForm.program)
  let words := main.command.getD []
  let name := words.head?.getD []
  let form := commandForm name
  let behind ← (Given.ofTexts form words.tail).mapError (Stop.mk form.program)
  let extra := main.extra ++ behind.extra
  if extra.isEmpty then pure (ofGiven name main behind)
  else throw ⟨mainForm.program, .unrecognized extra⟩

end Invocation

end CommandLine

end SwiftWorkspace
