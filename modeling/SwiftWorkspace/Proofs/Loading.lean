import SwiftWorkspace.Proofs.Preservation
import SwiftWorkspace.Workspace.Error

/-!
# Loading settings

Whatever a file holds and whatever the reader of documents makes of it, settings that are
loaded can be used.  A file is refused for its form, its root or its number of workers;
besides, a content that is no text, other errors of the reader and an integer that is too
large are not caught.
-/

namespace SwiftWorkspace

namespace Settings

/-- Whether there is something to run, someone to run it and time for it. -/
structure IsUsable (settings : Settings) : Prop where
  build : settings.tasks.build ≠ []
  test : settings.tasks.test ≠ []
  lint : settings.tasks.lint ≠ []
  manifestName : settings.manifestName ≠ []
  command : settings.graph.command ≠ []
  workers : 1 ≤ settings.graph.workers
  timeout : ∀ timeout, settings.graph.timeout = some timeout → timeout > 0

theorem isUsable_usual (root : Path) : IsUsable { root } := by
  let tasks : TaskOptions := {}
  let graph : GraphSettings := {}
  have commands : tasks.build ≠ [] ∧ tasks.test ≠ [] ∧ tasks.lint ≠ [] := by decide
  have describing : graph.command ≠ [] := by decide
  have manifestName : "Package.swift".toList ≠ [] := by decide
  exact ⟨commands.1, commands.2.1, commands.2.2, manifestName, describing, Int.le_refl 1, nofun⟩

section Usable

variable {value : Option DocumentValue}

theorem ne_nil_of_readTextOr {default text : Text} (usual : default ≠ [])
    (read : readTextOr default value = .ok text) : text ≠ [] := by
  obtain ⟨found, -, read⟩ := Outcome.bind_eq_ok.mp read
  cases found with
  | none =>
      obtain rfl := Except.ok.inj read
      exact usual
  | some written =>
      obtain rfl := Except.ok.inj read
      split
      · exact usual
      · rename_i filled
        exact fun empty => filled (List.isEmpty_iff.mpr empty)

theorem readWorkers_pos {workers : Int} (read : readWorkers value = .ok workers) : 1 ≤ workers := by
  rw [readWorkers] at read
  split at read
  · obtain rfl := Except.ok.inj read
    decide
  · split at read
    · cases read
    · rename_i enough
      obtain rfl := Except.ok.inj read
      omega

theorem readTimeout?_pos {result : Option Float} (read : readTimeout? value = .ok result) :
    ∀ timeout, result = some timeout → timeout > 0 := by
  rintro timeout rfl
  obtain ⟨found, -, read⟩ := Outcome.bind_eq_ok.mp read
  cases found with
  | none => cases read
  | some seconds =>
      simp only [pure, Except.pure, Except.ok.injEq, Option.ite_none_right_eq_some,
        Option.some.injEq] at read
      exact read.2 ▸ read.1

theorem isUsable_ofDocument {root : Path} {document : DocumentValue} {settings : Settings}
    (read : ofDocument root document = .ok settings) : settings.IsUsable := by
  obtain ⟨commands, readCommands, read⟩ := Outcome.bind_eq_ok.mp read
  obtain ⟨graph, readGraph, read⟩ := Outcome.bind_eq_ok.mp read
  obtain ⟨manifestName, named, read⟩ := Outcome.bind_eq_ok.mp read
  obtain ⟨exclude, -, read⟩ := Outcome.bind_eq_ok.mp read
  obtain rfl := Except.ok.inj read
  obtain ⟨build, building, readCommands⟩ := Outcome.bind_eq_ok.mp readCommands
  obtain ⟨test, testing, readCommands⟩ := Outcome.bind_eq_ok.mp readCommands
  obtain ⟨lint, linting, readCommands⟩ := Outcome.bind_eq_ok.mp readCommands
  obtain rfl := Except.ok.inj readCommands
  obtain ⟨command, describing, readGraph⟩ := Outcome.bind_eq_ok.mp readGraph
  obtain ⟨workers, enough, readGraph⟩ := Outcome.bind_eq_ok.mp readGraph
  obtain ⟨timeout, positive, readGraph⟩ := Outcome.bind_eq_ok.mp readGraph
  obtain rfl := Except.ok.inj readGraph
  have usual := isUsable_usual root
  exact
    { build := ne_nil_of_readTextOr usual.build building
      test := ne_nil_of_readTextOr usual.test testing
      lint := ne_nil_of_readTextOr usual.lint linting
      manifestName := ne_nil_of_readTextOr usual.manifestName named
      command := ne_nil_of_readTextOr usual.command describing
      workers := readWorkers_pos enough
      timeout := readTimeout?_pos positive }

end Usable

/--
Whether an outcome fails, if it does, with an error that says what is wrong with the settings.
-/
def FailsForeseen {α : Type} (outcome : Except SettingsError α) : Prop :=
  ∀ error, outcome = .error error → error.isForeseen

namespace FailsForeseen

variable {α β : Type} {outcome : Except SettingsError α}

theorem ok (value : α) : FailsForeseen (.ok value) := nofun

theorem bind {next : α → Except SettingsError β} (first : FailsForeseen outcome)
    (rest : ∀ value, outcome = .ok value → FailsForeseen (next value)) :
    FailsForeseen (outcome >>= next) := by
  intro error failed
  cases outcome with
  | error cause =>
      obtain rfl := Except.error.inj failed
      exact first cause rfl
  | ok value => exact rest value rfl error failed

theorem mapM {action : β → Except SettingsError α} {items : List β}
    (each : ∀ item ∈ items, FailsForeseen (action item)) : FailsForeseen (items.mapM action) := by
  induction items with
  | nil => exact ok []
  | cons item items ih =>
      rw [List.mapM_cons]
      exact (each item (.head _)).bind fun result _ =>
        (ih fun other member => each other (.tail _ member)).bind fun results _ => ok _

end FailsForeseen

def isShort : DocumentValue → Bool
  | .int value => ¬Nat.pow 10 Decimal.maxDigits ≤ value.natAbs
  | _ => true

def hasFloat : DocumentValue → Bool
  | .int value => (Decimal.ofInt? value).isSome
  | _ => true

inductive Holds (document : DocumentValue) : DocumentValue → Prop
  | itself : Holds document document
  | item {items : List DocumentValue} {value : DocumentValue} (list : Holds document (.list items))
      (member : value ∈ items) : Holds document value
  | member {entries : List (Text × DocumentValue)} {key : Text} {value : DocumentValue}
      (mapping : Holds document (.mapping entries)) (inside : (key, value) ∈ entries) :
        Holds document value

/--
Whether a reader finds nothing wrong with a text but its form, and no integer in it is too
large.
-/
structure IsReadable (reader : DocumentReader) (text : Text) : Prop where
  caught : ∀ error, reader text = .error error → error = .malformed
  short : ∀ document, reader text = .ok document → ∀ value, Holds document value → isShort value
  near : ∀ document, reader text = .ok document →
    (member? "timeout" (member? "graph" (some document))).all hasFloat

section Foreseen

variable {value : Option DocumentValue}

theorem failsForeseen_textOf? {value : DocumentValue} (short : isShort value) :
    FailsForeseen (textOf? value) := by
  intro error failed
  unfold textOf? at failed
  split at failed
  · cases failed
  · cases failed
  · cases failed
  · split at failed
    · rename_i number tooLong
      rw [isShort, decide_eq_true_eq] at short
      exact absurd tooLong short
    · cases failed
  · cases failed

theorem failsForeseen_readText? (short : value.all isShort) : FailsForeseen (readText? value) := by
  cases value with
  | none => exact .ok _
  | some value => exact failsForeseen_textOf? short

theorem failsForeseen_readTextOr (short : value.all isShort) (default : Text) :
    FailsForeseen (readTextOr default value) :=
  (failsForeseen_readText? short).bind fun found _ => by
    cases found <;> exact .ok _

theorem failsForeseen_readWorkers (value : Option DocumentValue) :
    FailsForeseen (readWorkers value) := by
  intro error failed
  rw [readWorkers] at failed
  split at failed
  · cases failed
  · split at failed
    · obtain rfl := Except.error.inj failed
      rfl
    · cases failed

theorem failsForeseen_readFloat? (near : value.all hasFloat) :
    FailsForeseen (readFloat? value) := by
  intro error failed
  unfold readFloat? at failed
  split at failed
  · cases failed
  · cases failed
  · rename_i number
    rw [Option.all_some, hasFloat] at near
    obtain ⟨nearest, found⟩ := Option.isSome_iff_exists.mp near
    rw [found] at failed
    cases failed
  · cases failed

theorem failsForeseen_readTimeout? (near : value.all hasFloat) :
    FailsForeseen (readTimeout? value) :=
  (failsForeseen_readFloat? near).bind fun found _ => by
    cases found <;> exact .ok _

section Members

variable {document : DocumentValue}

theorem holds_member? (key : String) {value : Option DocumentValue}
    (held : ∀ found ∈ value, Holds document found) :
    ∀ found ∈ member? key value, Holds document found := by
  intro found member
  obtain ⟨outer, rfl, member⟩ := Option.bind_eq_some_iff.mp member
  replace member : outer.member? key.toList = some found := member
  unfold DocumentValue.member? at member
  split at member
  · rename_i entries
    obtain ⟨before, after, split, -⟩ := List.lookup_eq_some_iff.mp member
    exact .member (held _ rfl) (split ▸ List.mem_append_right _ (.head _))
  · cases member

variable (short : ∀ value, Holds document value → isShort value)
include short

theorem failsForeseen_member (default : Text) (key : String) {value : Option DocumentValue}
    (held : ∀ found ∈ value, Holds document found) :
    FailsForeseen (readTextOr default (member? key value)) :=
  failsForeseen_readTextOr
    ((Option.all_eq_true_iff_get _ _).mpr fun some =>
      short _ (holds_member? key held _ (Option.get_mem some))) default

theorem failsForeseen_readTexts {value : Option DocumentValue}
    (held : ∀ found ∈ value, Holds document found) : FailsForeseen (readTexts value) := by
  unfold readTexts
  split
  · exact .ok _
  · exact .ok _
  · rename_i items
    exact (FailsForeseen.mapM (fun item member =>
      failsForeseen_textOf? (short item (.item (held _ rfl) member)))).bind fun texts _ => .ok _
  · exact .ok _

theorem failsForeseen_readCommands {commands : Option DocumentValue}
    (held : ∀ found ∈ commands, Holds document found) : FailsForeseen (readCommands commands) :=
  (failsForeseen_member short _ _ held).bind fun _ _ =>
    (failsForeseen_member short _ _ held).bind fun _ _ =>
    (failsForeseen_member short _ _ held).bind fun _ _ => .ok _

theorem failsForeseen_readGraph {graph : Option DocumentValue}
    (held : ∀ found ∈ graph, Holds document found)
    (near : (member? "timeout" graph).all hasFloat) : FailsForeseen (readGraph graph) :=
  (failsForeseen_member short _ _ held).bind fun _ _ =>
    (failsForeseen_readWorkers _).bind fun _ _ =>
    (failsForeseen_readTimeout? near).bind fun _ _ => .ok _

theorem failsForeseen_ofDocument
    (near : (member? "timeout" (member? "graph" (some document))).all hasFloat)
    (root : Path) : FailsForeseen (ofDocument root document) := by
  have whole : ∀ found ∈ some document, Holds document found := by
    rintro found ⟨⟩
    exact .itself
  have below (key : String) := holds_member? key whole
  exact (failsForeseen_readCommands short (below _)).bind fun _ _ =>
    (failsForeseen_readGraph short (below _) near).bind fun _ _ =>
      (failsForeseen_member short _ _ whole).bind fun _ _ =>
      (failsForeseen_readTexts short (below _)).bind fun _ _ => .ok _

end Members

/-- Settings in a text that can be read are refused only for what is wrong with them. -/
theorem failsForeseen_ofText {reader : DocumentReader} {text : Text}
    (readable : text.strip = [] ∨ IsReadable reader text) (root : Path) :
    FailsForeseen (ofText reader root text) := by
  unfold ofText
  split
  · exact .ok _
  · rename_i filled
    have readable := readable.resolve_left fun empty => filled (List.isEmpty_iff.mpr empty)
    refine FailsForeseen.bind ?_ fun document read => ?_
    · intro error failed
      cases told : reader text with
      | error flaw =>
          rw [told] at failed
          obtain rfl := Except.error.inj failed
          rw [readable.caught flaw told]
          rfl
      | ok document =>
          rw [told] at failed
          cases failed
    · have told := Outcome.mapError_eq_ok.mp read
      split
      · exact .ok _
      · exact failsForeseen_ofDocument (readable.short _ told) (readable.near _ told) root
      · intro error failed
        obtain rfl := Except.error.inj failed
        rfl

end Foreseen

section Files

variable {reader : DocumentReader} {disk : Disk} {path file : Path} {octets : Bytes}

theorem isUsable_ofText {root : Path} {text : Text} {settings : Settings}
    (read : ofText reader root text = .ok settings) : settings.IsUsable := by
  unfold ofText at read
  split at read
  · obtain rfl := Except.ok.inj read
    exact isUsable_usual root
  · obtain ⟨document, -, read⟩ := Outcome.bind_eq_ok.mp read
    split at read
    · obtain rfl := Except.ok.inj read
      exact isUsable_usual root
    · exact isUsable_ofDocument read
    · cases read

theorem isUsable_of_load {settings : Settings} (loaded : load reader disk path = .ok settings) :
    settings.IsUsable := by
  obtain ⟨⟨file, content⟩, -, loaded⟩ := Outcome.bind_eq_ok.mp loaded
  cases content with
  | none =>
      obtain rfl := Except.ok.inj loaded
      exact isUsable_usual _
  | some text => exact isUsable_ofText loaded

theorem isPresent_of_read (content : disk.read file = .ok octets) :
    disk.isPresent file = .ok true := by
  rw [Disk.isPresent, Disk.find?, Disk.locate_of_read content]
  rfl

theorem load_eq (located : Settings.file disk path = .ok file)
    (content : disk.read file = .ok octets) :
    load reader disk path = ((disk.readText file).mapError .unreadable).bind
      (ofText reader file.parent) := by
  have present := isPresent_of_read content
  rw [load, readFile]
  simp only [located, present, bind, Except.bind, if_true]
  cases disk.readText file <;> rfl

end Files

/--
Settings that are loaded can always be used, whatever reads the documents.  With a file at its
place, loading them is refused only for what is wrong with them if the content is a text that
can be read as settings, and it fails if the content is no text.
-/
theorem load_settings (reader : DocumentReader) (disk : Disk) (path : Path) :
    (∀ settings, load reader disk path = .ok settings → settings.IsUsable) ∧
    ∀ file octets, Settings.file disk path = .ok file → disk.read file = .ok octets →
      (∀ text, octets = Utf8.encode text →
        (text.withLineFeeds.strip = [] ∨ IsReadable reader text.withLineFeeds) →
          FailsForeseen (load reader disk path)) ∧
      ((∀ text, octets ≠ Utf8.encode text) →
        ∃ invalid, load reader disk path = .error (.unreadable ⟨file, .notText invalid⟩)) := by
  refine ⟨fun settings => isUsable_of_load, fun file octets located content => ⟨?_, ?_⟩⟩
  · rintro text rfl readable
    have read : disk.readText file = .ok text.withLineFeeds :=
      Disk.readText_eq_ok_iff.mpr ⟨text, content, rfl⟩
    rw [load_eq located content, read]
    exact failsForeseen_ofText readable _
  · intro noText
    cases decoded : Utf8.decode octets with
    | ok text => exact absurd (Utf8.decode_eq_ok_iff.mp decoded) (noText text)
    | error invalid =>
        refine ⟨invalid, ?_⟩
        rw [load_eq located content, Disk.readText, content]
        simp only [bind, Except.bind, decoded]
        rfl

/-- A workspace without projects whose settings have the given content. -/
def configured (content : Bytes) : Disk where
  root := .directory [(fileName, .file content)]

theorem file_configured (content : Bytes) :
    Settings.file (configured content) ⟨.root, []⟩ = .ok ⟨.root, [fileName]⟩ := rfl

theorem read_configured (content : Bytes) :
    (configured content).read ⟨.root, [fileName]⟩ = .ok content := rfl

/-- A document that sets the number of workers, and its value. -/
def workersDocument (workers : Nat) : Text × DocumentValue :=
  ("graph:\n  max_workers: ".toList ++ Text.ofNat workers ++ ['\n'],
    .mapping [("graph".toList, .mapping [("max_workers".toList, .int workers)])])

def workersReader (workers : Nat) : DocumentReader := fun text =>
  if text = (workersDocument workers).1 then .ok (workersDocument workers).2 else .error .malformed

theorem isReadable_workersReader {workers : Nat} (few : workers < 10) (text : Text) :
    IsReadable (workersReader workers) text := by
  have told {document : DocumentValue} (read : workersReader workers text = .ok document) :
      document = (workersDocument workers).2 := by
    rw [workersReader] at read
    split at read
    · exact (Except.ok.inj read).symm
    · cases read
  have short : ¬Nat.pow 10 Decimal.maxDigits ≤ workers := by
    have least (digits : Nat) (some : digits ≠ 0) : 10 ≤ Nat.pow 10 digits :=
      Nat.le_self_pow some 10
    exact fun many => absurd (Nat.le_trans (least _ (by decide)) many) (Nat.not_le_of_lt few)
  constructor
  · intro error failed
    rw [workersReader] at failed
    split at failed
    · cases failed
    · exact (Except.error.inj failed).symm
  · intro document read value held
    obtain rfl := told read
    have inside : value = (workersDocument workers).2 ∨
        value = .mapping [("max_workers".toList, .int workers)] ∨ value = .int workers := by
      induction held with
      | itself => exact .inl rfl
      | item list member ih => rcases ih with same | same | same <;> cases same
      | member mapping inside ih =>
          rcases ih with same | same | same
          · obtain rfl := DocumentValue.mapping.inj same
            exact .inr (.inl (Prod.mk.inj (List.mem_singleton.mp inside)).2)
          · obtain rfl := DocumentValue.mapping.inj same
            exact .inr (.inr (Prod.mk.inj (List.mem_singleton.mp inside)).2)
          · cases same
    rcases inside with rfl | rfl | rfl
    · rfl
    · rfl
    · rw [isShort, decide_eq_true_eq, Int.natAbs_natCast]
      exact short
  · intro document read
    obtain rfl := told read
    rfl

/--
Two workers are welcome, no worker is refused, and an octet that starts no character is an
error.
-/
theorem load_settings_configured :
    (∃ settings, load (workersReader 2) (configured (Utf8.encode (workersDocument 2).1))
      ⟨.root, []⟩ = .ok settings ∧
      settings.IsUsable) ∧
    ((load (workersReader 0) (configured (Utf8.encode (workersDocument 0).1)) ⟨.root, []⟩).isOk =
      false ∧
      FailsForeseen (load (workersReader 0) (configured (Utf8.encode (workersDocument 0).1))
        ⟨.root, []⟩)) ∧
    ∃ invalid, load (workersReader 2) (configured [255]) ⟨.root, []⟩ =
      .error (.unreadable ⟨⟨.root, [fileName]⟩, .notText invalid⟩) := by
  refine ⟨?_, ⟨by decide +kernel, ?_⟩, ?_⟩
  · obtain ⟨settings, loaded⟩ := Outcome.exists_of_isOk
      (load (workersReader 2) (configured (Utf8.encode (workersDocument 2).1)) ⟨.root, []⟩)
        (by decide +kernel)
    exact ⟨settings, loaded, (load_settings _ _ _).1 settings loaded⟩
  · exact ((load_settings _ _ _).2 _ _ (file_configured _) (read_configured _)).1 _ rfl
      (.inr (isReadable_workersReader (by decide) _))
  · refine ((load_settings _ _ _).2 _ _ (file_configured _) (read_configured _)).2
      fun text same => ?_
    have decoded := Utf8.decode_eq_ok_iff.mpr same
    cases decoded

end Settings

end SwiftWorkspace
