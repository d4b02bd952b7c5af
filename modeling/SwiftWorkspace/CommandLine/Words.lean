import SwiftWorkspace.CommandLine.Form
import SwiftWorkspace.Text.Digit

/-!
# The words of a command line

Each word is an option, a lone pair of hyphens or an operand.  A long option may
be shortened as long as it stays the only one that begins so, short options
without words may share a hyphen, and the word of an option may be attached to
it.  Behind a lone pair of hyphens all words are operands.  Where such a pair is
itself what an option or an operand is given, that is left without a word.
-/

namespace SwiftWorkspace

namespace CommandLine

inductive WordKind where
  | option (option : OptionForm) (name : Text) (attached : Option Text)
  | unknownOption
  | separator
  | operand
  deriving Repr

structure Word where
  text : Text
  kind : WordKind
  deriving Repr

namespace Word

def isOperand (word : Word) : Bool :=
  match word.kind with
  | .operand => true
  | _ => false

def isSeparator (word : Word) : Bool :=
  match word.kind with
  | .separator => true
  | _ => false

def separator : Text := ['-', '-']

/-- Whether the text is a number with a hyphen in front; a line feed at the end does not count. -/
def isNegativeNumber (text : Text) : Bool :=
  let body := if text.getLast? = some '\n' then text.dropLast else text
  match body with
  | '-' :: digits =>
      let behind := digits.dropWhile isDecimalDigit
      match behind with
      | [] => !digits.isEmpty
      | '.' :: fraction => !fraction.isEmpty && fraction.all isDecimalDigit
      | _ => false
  | _ => false

def splitAttached (text : Text) : Text × Option Text :=
  match Text.cut? '=' text with
  | some (name, attached) => (name, some attached)
  | none => (text, none)

def kindOfOther (text : Text) : WordKind :=
  if isNegativeNumber text || text.elem ' ' then .operand else .unknownOption

/-- The kind of a word that begins with two hyphens and does not name an option in full. -/
def kindOfLong (form : Form) (text : Text) : Except Refusal WordKind :=
  let (start, attached) := splitAttached text
  match form.optionsFrom start with
  | [] => .ok (kindOfOther text)
  | [(name, option)] => .ok (.option option name attached)
  | candidates => .error (.ambiguous text (candidates.map Prod.fst))

/-- The kind of a word that begins with one hyphen and does not name an option in full. -/
def kindOfShort (form : Form) (text : Text) : WordKind :=
  match form.option? (text.take 2) with
  | some option => .option option (text.take 2) (some (text.drop 2))
  | none => kindOfOther text

def kindOf (form : Form) (text : Text) : Except Refusal WordKind :=
  let (name, attached) := splitAttached text
  match form.option? text, attached.bind fun _ => form.option? name with
  | some option, _ => .ok (.option option text none)
  | none, some option => .ok (.option option name attached)
  | none, none =>
      match text with
      | ['-'] => .ok .operand
      | '-' :: '-' :: _ => kindOfLong form text
      | '-' :: _ => .ok (kindOfShort form text)
      | _ => .ok .operand

/-- The words of a command line with their kinds. -/
def classify (form : Form) : List Text → Except Refusal (List Word)
  | [] => .ok []
  | text :: texts =>
      if text = separator then
        .ok (⟨text, .separator⟩ :: texts.map fun text => ⟨text, .operand⟩)
      else do
        let kind ← kindOf form text
        pure (⟨text, kind⟩ :: (← classify form texts))

end Word

/-- The word that an option or an operand is given, unless a pair of hyphens is in its place. -/
abbrev GivenWord := Option Text

namespace GivenWord

/-- What a word is as that of an option or an operand. -/
def ofText (text : Text) : GivenWord := if text = Word.separator then none else some text

end GivenWord

structure Given where
  /-- The options with their words, in order. -/
  options : List (OptionForm × List Text) := []
  operands : List GivenWord := []
  /-- The words from the command on. -/
  command : Option (List Text) := none
  /-- The words that belong to nothing. -/
  extra : List Text := []
  deriving Repr

namespace Given

def has (given : Given) (option : OptionForm) : Bool :=
  given.options.any fun (other, _) => other = option

def last? (given : Given) (option : OptionForm) : Option (List Text) :=
  given.options.reverse.lookup option

def every (given : Given) (option : OptionForm) : List GivenWord :=
  (given.options.filter fun (other, _) => other = option).map fun (_, words) => words.head?

def conflict? (given : Given) (form : Form) (option : OptionForm) : Option OptionForm :=
  if form.alternatives.elem option then
    form.alternatives.find? fun other => other ≠ option && given.has other
  else none

def isInteger (text : Text) : Bool := (Decimal.readInt 10 text).isOk

def addOption (given : Given) (form : Form) (option : OptionForm) (words : List Text) :
    Except Refusal Given :=
  let wrong := if option.isInteger then words.find? (!isInteger ·) else none
  match wrong, given.conflict? form option with
  | some word, _ => .error (.notInteger option word)
  | none, some other => .error (.conflict option other)
  | none, none =>
      if option = .help then .error .help
      else .ok { given with options := given.options ++ [(option, words)] }

def addOptions (given : Given) (form : Form) (flags : List OptionForm) (option : OptionForm)
    (words : List Text) : Except Refusal Given := do
  let given ← flags.foldlM (fun given flag => given.addOption form flag []) given
  given.addOption form option words

end Given

/-- The options that share a word: some without words, the last one, and what is attached to it. -/
structure Cluster where
  flags : List OptionForm := []
  last : OptionForm
  attached : Option Text

namespace Cluster

def isShort : Text → Bool
  | '-' :: '-' :: _ => false
  | _ => true

def ofAttached (form : Form) (option : OptionForm) (name : Text) : Text → Except Refusal Cluster
  | [] =>
      if option.arity = .none then .error (.attachedWord option [])
      else .ok { last := option, attached := some [] }
  | char :: text =>
      if option.arity ≠ .none then .ok { last := option, attached := some (char :: text) }
      else
        match (if isShort name then form.option? ['-', char] else none) with
        | none => .error (.attachedWord option (char :: text))
        | some next =>
            if text.isEmpty then .ok { flags := [option], last := next, attached := none }
            else (ofAttached form next ['-', char] text).map fun cluster =>
              { cluster with flags := option :: cluster.flags }

def ofWord (form : Form) (option : OptionForm) (name : Text) :
    Option Text → Except Refusal Cluster
  | none => .ok { last := option, attached := none }
  | some text => ofAttached form option name text

/-- The words of the last option, attached or taken from some words, and the words left. -/
def takeWords (cluster : Cluster) (words : List Word) : Except Refusal (List Text × List Word) :=
  match cluster.attached, cluster.last.arity with
  | some text, _ => .ok ((GivenWord.ofText text).toList, words)
  | none, .none => .ok ([], words)
  | none, arity =>
      let reach := if arity = .one then 1 else words.length
      let taken := (words.take reach).takeWhile Word.isOperand
      if taken.isEmpty then .error (.missingWord cluster.last)
      else .ok (taken.map Word.text, words.drop taken.length)

end Cluster

namespace Given

def missingOperands (given : Given) (form : Form) : List Text :=
  form.operands.drop given.operands.length

def lacksCommand (given : Given) (form : Form) : Bool :=
  !form.commands.isEmpty && given.command.isNone

/--
The number of words up to the operand that comes first, with lone pairs of hyphens
around it, and its word.  Only where no such pair stands around it, it can be one.
-/
def operandReach (words : List Word) : Option (Nat × GivenWord) :=
  let before := (words.takeWhile Word.isSeparator).length
  match words.drop before with
  | word :: behind =>
      if word.isOperand then
        let reach := before + 1 + (behind.takeWhile Word.isSeparator).length
        some (reach, if reach = 1 then .ofText word.text else some word.text)
      else none
  | [] => none

/-- The words of a command: from its name on, unless a lone pair of hyphens stands there. -/
def setCommand (given : Given) (form : Form) (words : List Word) : Except Refusal Given :=
  let texts := words.map Word.text
  let name := texts.head?.getD []
  if form.commands.elem name then .ok { given with command := some texts }
  else .error (.unknownCommand name form.commands)

def readWords (form : Form) : (fuel : Nat) → Given → List Word → Except Refusal Given
  | 0, given, _ => .ok given
  | _ + 1, given, [] => .ok given
  | fuel + 1, given, word :: words =>
      match word.kind with
      | .unknownOption =>
          readWords form fuel { given with extra := given.extra ++ [word.text] } words
      | .option option name attached => do
          let cluster ← Cluster.ofWord form option name attached
          let (texts, words) ← cluster.takeWords words
          let given ← given.addOptions form cluster.flags cluster.last texts
          readWords form fuel given words
      | _ =>
          match operandReach (word :: words) with
          | none => readWords form fuel { given with extra := given.extra ++ [word.text] } words
          | some (reach, operand) =>
              if given.lacksCommand form then
                given.setCommand form (word :: words)
              else if (given.missingOperands form).isEmpty then
                readWords form fuel { given with extra := given.extra ++ [word.text] } words
              else
                readWords form fuel { given with operands := given.operands ++ [operand] }
                  ((word :: words).drop reach)

def hasAlternative (given : Given) (form : Form) : Bool :=
  form.alternatives.isEmpty || form.alternatives.any given.has

/-- The names of the operands that are still missing, a command among them. -/
def missing (given : Given) (form : Form) : List Text :=
  given.missingOperands form ++ if given.lacksCommand form then ["command".toList] else []

/-- What a command line gives, with nothing missing. -/
def ofTexts (form : Form) (texts : List Text) : Except Refusal Given := do
  let words ← Word.classify form texts
  let given ← readWords form (words.length + 1) {} words
  if !(given.missing form).isEmpty then throw (.missingOperands (given.missing form))
  if !given.hasAlternative form then throw (.noAlternative form.alternatives)
  pure given

end Given

end CommandLine

end SwiftWorkspace
