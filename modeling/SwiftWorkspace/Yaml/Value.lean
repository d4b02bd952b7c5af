import SwiftWorkspace.Yaml.Document
import SwiftWorkspace.Yaml.Scalar

/-!
# Values of documents

The values of the nodes of a document, where collections refer to the nodes that
they hold.  Nodes get their values level by level from the root on, so that the
first flaw on the way is that of the document.
-/

namespace SwiftWorkspace

namespace Yaml

inductive Value where
  | scalar (scalar : Scalar)
  | sequence (items : List NodeId)
  | mapping (entries : List NodeEntry)
  | set (members : List NodeId)
  | pairs (entries : List NodeEntry)
  deriving Repr

structure Values where
  values : List (NodeId × Value)
  root : NodeId
  deriving Repr

namespace Tag

def isScalar : Tag → Bool
  | .null | .bool | .int | .float | .binary | .timestamp | .string => true
  | _ => false

def isCollection : Tag → Bool
  | .sequence | .mapping | .set | .orderedMapping | .pairs => true
  | _ => false

end Tag

/-- The values found so far, and the collections whose parts are still without one. -/
structure Evaluation where
  /-- The document, where the mappings that have values are settled. -/
  document : Document
  values : List (NodeId × Value) := []
  /-- The nodes that need no further look. -/
  met : List NodeId := []
  waiting : List NodeId := []

namespace Evaluation

def readScalar (document : Document) (id : NodeId) (node : Node) : Except Flaw Scalar := do
  if !node.tag.isScalar then throw .malformed
  let text ← document.scalarText (document.nodes.length + 1) id
  match node.tag, node.content with
  | .timestamp, .mapping _ => throw .timeInMapping
  | tag, _ => Scalar.read tag text

def evaluate (state : Evaluation) (id : NodeId) : Except Flaw Evaluation :=
  match state.document.node? id with
  | none => .error .malformed
  | some node =>
      if state.met.elem id then .ok state
      else if node.tag.isCollection then
        .ok { state with met := id :: state.met, waiting := state.waiting ++ [id] }
      else do
        let scalar ← readScalar state.document id node
        pure { state with met := id :: state.met, values := (id, .scalar scalar) :: state.values }

def isCollection (state : Evaluation) (id : NodeId) : Bool :=
  (state.document.node? id).any fun node => node.tag.isCollection

/-- The values of a key and of what belongs to it; a collection cannot be a key. -/
def evaluateEntry (state : Evaluation) (entry : NodeEntry) : Except Flaw Evaluation := do
  let state ← state.evaluate entry.1
  if state.isCollection entry.1 then throw .malformed
  state.evaluate entry.2

def singlePair? (document : Document) (id : NodeId) : Option NodeEntry :=
  match document.entries? id with
  | some [entry] => some entry
  | _ => none

/-- The values of the entry that an item of a sequence of pairs holds. -/
def evaluatePair (state : Evaluation) (id : NodeId) : Except Flaw Evaluation :=
  match singlePair? state.document id with
  | none => .error .malformed
  | some (key, value) => do (← state.evaluate key).evaluate value

def define (state : Evaluation) (id : NodeId) (value : Value) : Evaluation :=
  { state with values := (id, value) :: state.values }

def evaluateItems (state : Evaluation) (id : NodeId) : Except Flaw Evaluation :=
  match state.document.node? id with
  | some ⟨_, .sequence items⟩ => do
      pure ((← items.foldlM evaluate state).define id (.sequence items))
  | _ => .error .malformed

def evaluateEntries (state : Evaluation) (id : NodeId) (value : List NodeEntry → Value) :
    Except Flaw Evaluation :=
  match state.document.settle? id with
  | none => .error .malformed
  | some document => do
      let entries := (document.entries? id).getD []
      let state ← entries.foldlM evaluateEntry { state with document }
      pure (state.define id (value entries))

def evaluatePairs (state : Evaluation) (id : NodeId) : Except Flaw Evaluation :=
  match state.document.node? id with
  | some ⟨_, .sequence items⟩ => do
      let state ← items.foldlM evaluatePair state
      pure (state.define id (.pairs (items.filterMap (singlePair? state.document))))
  | _ => .error .malformed

def evaluateCollection (state : Evaluation) (id : NodeId) : Except Flaw Evaluation :=
  if state.document.hasTag .sequence id then state.evaluateItems id
  else if state.document.hasTag .mapping id then state.evaluateEntries id .mapping
  else if state.document.hasTag .set id then
    state.evaluateEntries id fun entries => .set (entries.map Prod.fst)
  else state.evaluatePairs id

def run (state : Evaluation) : (fuel : Nat) → Except Flaw Evaluation
  | 0 => .ok state
  | fuel + 1 =>
      match state.waiting with
      | [] => .ok state
      | id :: waiting => do
          let state ← ({ state with waiting } : Evaluation).evaluateCollection id
          state.run fuel

end Evaluation

namespace Values

def ofDocument (document : Document) : Except Flaw Values := do
  let start ← ({ document } : Evaluation).evaluate document.root
  let state ← start.run (document.nodes.length + 1)
  pure { values := state.values, root := document.root }

def ofText? (text : Text) : Except Flaw (Option Values) := do
  match ← Document.ofText? text with
  | none => pure none
  | some document => (ofDocument document).map some

def value? (values : Values) (id : NodeId) : Option Value := values.values.lookup id

def text? (values : Values) (id : NodeId) : Option Text :=
  match values.value? id with
  | some (.scalar (.string text)) => some text
  | _ => none

end Values

end Yaml

end SwiftWorkspace
