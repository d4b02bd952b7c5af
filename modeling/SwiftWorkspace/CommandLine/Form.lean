import SwiftWorkspace.Decimal.Reading
import SwiftWorkspace.Text.Printable

/-!
# Forms of command lines

A form says which options and operands a command line has.  An option is known
by its names and takes no words, one or several; operands are told apart by
their places.
-/

namespace SwiftWorkspace

namespace CommandLine

/-- How many words an option takes. -/
inductive Arity where
  | none
  | one
  | several
  deriving DecidableEq, Repr

structure OptionForm where
  names : List Text
  arity : Arity := .one
  /-- Whether the option's word has to be an integer. -/
  isInteger : Bool := false
  deriving DecidableEq, Repr

namespace OptionForm

def help : OptionForm where
  names := ["-h".toList, "--help".toList]
  arity := .none

/-- The names of the option with slashes between them. -/
def label (option : OptionForm) : Text := Text.join ['/'] option.names

end OptionForm

structure Form where
  /-- The words in front of the command line. -/
  program : Text
  options : List OptionForm
  /-- The names of the operands, which are all required. -/
  operands : List Text := []
  /-- The commands one of which the first operand has to be; all behind it belongs to that. -/
  commands : List Text := []
  /-- The options of which exactly one is required, if there are any. -/
  alternatives : List OptionForm := []
  deriving Repr

namespace Form

def optionNames (form : Form) : List (Text × OptionForm) :=
  form.options.flatMap fun option => option.names.map fun name => (name, option)

def option? (form : Form) (name : Text) : Option OptionForm := form.optionNames.lookup name

def optionsFrom (form : Form) (start : Text) : List (Text × OptionForm) :=
  form.optionNames.filter fun (name, _) => name.startsWith start

end Form

inductive Refusal where
  /-- The command line asks for help. -/
  | help
  /-- A word could be short for several options. -/
  | ambiguous (word : Text) (names : List Text)
  /-- An option lacks its word. -/
  | missingWord (option : OptionForm)
  /-- An option that takes no word has one attached. -/
  | attachedWord (option : OptionForm) (attached : Text)
  /-- The word of an option is not an integer. -/
  | notInteger (option : OptionForm) (word : Text)
  /-- Two options exclude each other. -/
  | conflict (option other : OptionForm)
  /-- There is no such command. -/
  | unknownCommand (word : Text) (commands : List Text)
  /-- Some operands are missing. -/
  | missingOperands (names : List Text)
  /-- None of some options is given. -/
  | noAlternative (options : List OptionForm)
  /-- Some words belong to nothing. -/
  | unrecognized (words : List Text)
  deriving DecidableEq, Repr

namespace Refusal

def listed (texts : List Text) : String := (Text.join [',', ' '] texts).asString

def spaced (texts : List Text) : String := (Text.join [' '] texts).asString

def about (label : Text) (message : String) : String := s!"argument {label.asString}: {message}"

def message : Refusal → String
  | .help => ""
  | .ambiguous word names => s!"ambiguous option: {word.asString} could match {listed names}"
  | .missingWord option =>
      about option.label <|
        match option.arity with
        | .several => "expected at least one argument"
        | _ => "expected one argument"
  | .attachedWord option attached =>
      about option.label s!"ignored explicit argument {attached.quoted.asString}"
  | .notInteger option word => about option.label s!"invalid int value: {word.quoted.asString}"
  | .conflict option other =>
      about option.label s!"not allowed with argument {other.label.asString}"
  | .unknownCommand word commands =>
      let choices := listed (commands.map Text.quoted)
      about "command".toList s!"invalid choice: {word.quoted.asString} (choose from {choices})"
  | .missingOperands names => s!"the following arguments are required: {listed names}"
  | .noAlternative options =>
      s!"one of the arguments {spaced (options.map OptionForm.label)} is required"
  | .unrecognized words => s!"unrecognized arguments: {spaced words}"

end Refusal

/-- A program that does not carry out its command line, and why. -/
structure Stop where
  program : Text
  refusal : Refusal
  deriving DecidableEq, Repr

namespace Stop

def message (stop : Stop) : String := s!"{stop.program.asString}: error: {stop.refusal.message}"

end Stop

end CommandLine

end SwiftWorkspace
