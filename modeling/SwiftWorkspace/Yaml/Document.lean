import SwiftWorkspace.Yaml.Node
import SwiftWorkspace.Yaml.Tokens

/-!
# Documents from tokens

A node is an alias, or a scalar or a collection behind its anchor and its tag.
Where a key or a value is missing, an empty scalar takes its place.
-/

namespace SwiftWorkspace

namespace Yaml

/-- What is known at some place between the tokens of a document. -/
structure NodeReader where
  tokens : List Token
  /-- What the tag handles stand for. -/
  handles : List (Text × Text) := []
  anchors : List (Text × NodeId) := []
  nodes : List (NodeId × Node) := []
  /-- The number of the next node. -/
  next : NodeId := 0

abbrev NodeReading (α : Type) := StateT NodeReader (Except Flaw) α

namespace NodeReading

def peek : NodeReading Token := do
  match (← get).tokens with
  | [] => pure .streamEnd
  | .invalid flaw :: _ => throw flaw
  | token :: _ => pure token

def skip : NodeReading Unit := modify fun reader => { reader with tokens := reader.tokens.tail }

def allot (anchor : Option Text) : NodeReading NodeId := do
  let reader ← get
  match anchor with
  | none => set { reader with next := reader.next + 1 }
  | some name =>
      if (reader.anchors.lookup name).isSome then throw .malformed
      set { reader with next := reader.next + 1, anchors := (name, reader.next) :: reader.anchors }
  pure reader.next

def define (id : NodeId) (tag : Tag) (content : Content) : NodeReading NodeId := do
  modify fun reader => { reader with nodes := (id, ⟨tag, content⟩) :: reader.nodes }
  pure id

def addEmpty : NodeReading NodeId := do
  define (← allot none) (Tag.ofPlain []) (.scalar [])

def expandTag (handle : Option Text) (suffix : Text) : NodeReading Text := do
  match handle with
  | none => pure suffix
  | some handle =>
      match (← get).handles.lookup handle with
      | some replacement => pure (replacement ++ suffix)
      | none => throw .malformed

structure Properties where
  anchor : Option Text := none
  tag : Option Text := none

namespace Properties

def isPresent (properties : Properties) : Bool :=
  properties.anchor.isSome || properties.tag.isSome

def tagOr (properties : Properties) (untagged : Tag) : Tag :=
  match properties.tag with
  | none => untagged
  | some text => if text = ['!'] then untagged else .ofText text

def scalarTag (properties : Properties) (text : Text) (plain : Bool) : Tag :=
  properties.tagOr (if plain || properties.tag.isSome then .ofPlain text else .string)

end Properties

abbrev WrittenTag := Option Text × Text

def readTag? : NodeReading (Option WrittenTag) := do
  match ← peek with
  | .tag handle suffix =>
      skip
      pure (some (handle, suffix))
  | _ => pure none

def readAnchor? : NodeReading (Option Text) := do
  match ← peek with
  | .anchor name =>
      skip
      pure (some name)
  | _ => pure none

def readWrittenProperties : NodeReading (Option Text × Option WrittenTag) := do
  match ← readAnchor? with
  | some anchor => pure (some anchor, ← readTag?)
  | none =>
      match ← readTag? with
      | some tag => pure (← readAnchor?, some tag)
      | none => pure (none, none)

def readProperties : NodeReading Properties := do
  match ← readWrittenProperties with
  | (anchor, some (handle, suffix)) => pure { anchor, tag := some (← expandTag handle suffix) }
  | (anchor, none) => pure { anchor }

def endsBlockEntry : Token → Bool
  | .key | .value | .blockEnd => true
  | _ => false

def endsBlockItem : Token → Bool
  | .blockEntry => true
  | token => endsBlockEntry token

def endsFlowEntry : Token → Bool
  | .value | .flowEntry | .flowSequenceEnd | .flowMappingEnd => true
  | _ => false

def readOrEmpty (ends : Token → Bool) (read : NodeReading NodeId) : NodeReading NodeId := do
  if ends (← peek) then addEmpty else read

def readEntryValue (ends : Token → Bool) (read : NodeReading NodeId) : NodeReading NodeId := do
  if (← peek) = .value then
    skip
    readOrEmpty ends read
  else addEmpty

def readEntry (ends : Token → Bool) (read : NodeReading NodeId) : NodeReading NodeEntry := do
  skip
  let key ← readOrEmpty ends read
  pure (key, ← readEntryValue ends read)

def readComma (first : Bool) : NodeReading Unit := do
  if !first then
    if (← peek) = .flowEntry then skip else throw .malformed

mutual

/--
The node at the place.  Only inside a block it may be a block collection, and only
as a part of a block mapping a sequence that is not indented.
-/
def readNode : (fuel : Nat) → (inBlock inMapping : Bool) → NodeReading NodeId
  | 0, _, _ => throw .malformed
  | fuel + 1, inBlock, inMapping => do
      match ← peek with
      | .alias name =>
          skip
          match (← get).anchors.lookup name with
          | some id => pure id
          | none => throw .malformed
      | _ =>
          let properties ← readProperties
          let token ← peek
          let id ← allot properties.anchor
          let defineSequence (items : List NodeId) : NodeReading NodeId :=
            define id (properties.tagOr .sequence) (.sequence items)
          let defineMapping (entries : List NodeEntry) : NodeReading NodeId :=
            define id (properties.tagOr .mapping) (.mapping entries)
          match token, inBlock, inMapping with
          | .scalar text plain, _, _ =>
              skip
              define id (properties.scalarTag text plain) (.scalar text)
          | .blockEntry, _, true => defineSequence (← readBlockItems fuel true)
          | .flowSequenceStart, _, _ =>
              skip
              defineSequence (← readFlowItems fuel true)
          | .flowMappingStart, _, _ =>
              skip
              defineMapping (← readFlowEntries fuel true)
          | .blockSequenceStart, true, _ =>
              skip
              defineSequence (← readBlockItems fuel false)
          | .blockMappingStart, true, _ =>
              skip
              defineMapping (← readBlockEntries fuel)
          | _, _, _ =>
              if properties.isPresent then define id (properties.scalarTag [] true) (.scalar [])
              else throw .malformed

def readBlockItems : (fuel : Nat) → (inMapping : Bool) → NodeReading (List NodeId)
  | 0, _ => throw .malformed
  | fuel + 1, inMapping => do
      let token ← peek
      if token = .blockEntry then
        skip
        let item ← readOrEmpty endsBlockItem (readNode fuel true false)
        pure (item :: (← readBlockItems fuel inMapping))
      else if inMapping then pure []
      else if token = .blockEnd then
        skip
        pure []
      else throw .malformed

def readBlockEntries : (fuel : Nat) → NodeReading (List NodeEntry)
  | 0 => throw .malformed
  | fuel + 1 => do
      match ← peek with
      | .key =>
          let entry ← readEntry endsBlockEntry (readNode fuel true true)
          pure (entry :: (← readBlockEntries fuel))
      | .blockEnd =>
          skip
          pure []
      | _ => throw .malformed

def readFlowItems : (fuel : Nat) → (first : Bool) → NodeReading (List NodeId)
  | 0, _ => throw .malformed
  | fuel + 1, first => do
      if (← peek) = .flowSequenceEnd then
        skip
        pure []
      else
        readComma first
        match ← peek with
        | .flowSequenceEnd =>
            skip
            pure []
        | .key =>
            let id ← allot none
            let entry ← readEntry endsFlowEntry (readNode fuel false false)
            let item ← define id .mapping (.mapping [entry])
            pure (item :: (← readFlowItems fuel false))
        | _ =>
            let item ← readNode fuel false false
            pure (item :: (← readFlowItems fuel false))

def readFlowEntries : (fuel : Nat) → (first : Bool) → NodeReading (List NodeEntry)
  | 0, _ => throw .malformed
  | fuel + 1, first => do
      if (← peek) = .flowMappingEnd then
        skip
        pure []
      else
        readComma first
        match ← peek with
        | .flowMappingEnd =>
            skip
            pure []
        | .key =>
            let entry ← readEntry endsFlowEntry (readNode fuel false false)
            pure (entry :: (← readFlowEntries fuel false))
        | _ =>
            let key ← readNode fuel false false
            let value ← addEmpty
            pure ((key, value) :: (← readFlowEntries fuel false))

end

def standardHandles : List (Text × Text) :=
  [(['!'], ['!']), (['!', '!'], Tag.standardHandle)]

/-- The tag handles that some directives define; none may come twice. -/
def readDirectives : (fuel : Nat) → (versioned : Bool) → (handles : List (Text × Text)) →
    NodeReading (List (Text × Text))
  | 0, _, _ => throw .malformed
  | fuel + 1, versioned, handles => do
      match ← peek with
      | .directive directive =>
          skip
          match directive with
          | .version major =>
              if versioned || major ≠ 1 then throw .malformed
              readDirectives fuel true handles
          | .handle handle replacement =>
              if (handles.lookup handle).isSome then throw .malformed
              readDirectives fuel versioned ((handle, replacement) :: handles)
          | .other => readDirectives fuel versioned handles
      | _ => pure handles

def readContent (fuel : Nat) : NodeReading NodeId := do
  match ← peek with
  | .directive _ | .documentStart | .documentEnd | .streamEnd => addEmpty
  | _ => readNode fuel true false

def readMarked (fuel : Nat) : NodeReading NodeId := do
  let handles ← readDirectives fuel false []
  modify fun reader => { reader with handles := handles ++ standardHandles }
  if (← peek) = .documentStart then
    skip
    readContent fuel
  else throw .malformed

def skipEnds : (fuel : Nat) → NodeReading Unit
  | 0 => pure ()
  | fuel + 1 => do
      if (← peek) = .documentEnd then
        skip
        skipEnds fuel

def refuseDocument {α : Type} (fuel : Nat) : NodeReading α := do
  let _ ← readDirectives fuel false []
  let _ ← peek
  throw .malformed

def readDocument? (fuel : Nat) : NodeReading (Option NodeId) := do
  match ← peek with
  | .streamEnd => pure none
  | token =>
      let root ←
        match token with
        | .directive _ | .documentStart => readMarked fuel
        | _ => readNode fuel true false
      skipEnds fuel
      if (← peek) = .streamEnd then pure (some root) else refuseDocument fuel

end NodeReading

def Document.ofText? (text : Text) : Except Flaw (Option Document) := do
  let tokens := Token.ofText text
  let reader : NodeReader := { tokens, handles := NodeReading.standardHandles }
  let (root, reader) ← (NodeReading.readDocument? (2 * tokens.length + 2)).run reader
  pure (root.map fun root => { nodes := reader.nodes, root })

end Yaml

end SwiftWorkspace
