import SwiftWorkspace.Yaml.Tag

/-!
# Documents as graphs of nodes

The nodes of a document are numbered, so that an alias can stand for a node that
is defined elsewhere, or for one that contains the alias itself.  What happens to a
node shows wherever an alias stands for it.
-/

namespace SwiftWorkspace

namespace Yaml

abbrev NodeId := Nat

abbrev NodeEntry := NodeId × NodeId

inductive Content where
  | scalar (text : Text)
  | sequence (items : List NodeId)
  | mapping (entries : List NodeEntry)
  deriving DecidableEq, Repr

/-- A node with the kind of value that it stands for. -/
structure Node where
  tag : Tag
  content : Content
  deriving DecidableEq, Repr

structure Document where
  nodes : List (NodeId × Node)
  root : NodeId
  deriving Repr

namespace Document

def node? (document : Document) (id : NodeId) : Option Node := document.nodes.lookup id

def hasTag (document : Document) (tag : Tag) (id : NodeId) : Bool :=
  (document.node? id).any fun node => node.tag = tag

def entries? (document : Document) (id : NodeId) : Option (List NodeEntry) :=
  match document.node? id with
  | some ⟨_, .mapping entries⟩ => some entries
  | _ => none

def setTag (document : Document) (id : NodeId) (tag : Tag) : Document :=
  { document with
    nodes := document.nodes.map fun (other, node) =>
      (other, if other = id then { node with tag } else node) }

def setEntries (document : Document) (id : NodeId) (entries : List NodeEntry) : Document :=
  { document with
    nodes := document.nodes.map fun (other, node) =>
      (other, if other = id then { node with content := .mapping entries } else node) }

def entryCount (document : Document) : Nat :=
  (document.nodes.flatMap fun (_, node) =>
    match node.content with
    | .mapping entries => entries
    | _ => []).length

def scalarText : (fuel : Nat) → Document → NodeId → Except Flaw Text
  | 0, _, _ => .error .endless
  | fuel + 1, document, id =>
      match document.node? id with
      | some ⟨_, .scalar text⟩ => .ok text
      | some ⟨_, .mapping entries⟩ =>
          match entries.find? fun (key, _) => document.hasTag .value key with
          | some (_, value) => scalarText fuel document value
          | none => .error .malformed
      | _ => .error .malformed

def mergedMappings? (document : Document) (id : NodeId) : Option (List NodeId) :=
  match document.node? id with
  | some ⟨_, .mapping _⟩ => some [id]
  | some ⟨_, .sequence items⟩ =>
      if items.all fun item => (document.entries? item).isSome then some items else none
  | _ => none

/-- The entries of some mappings, which are settled one by one; those of the last come first. -/
def takeOver (settle : Document → NodeId → Option Document) (document : Document)
    (sources : List NodeId) : Option (Document × List NodeEntry) :=
  sources.foldlM (fun (document, taken) source => do
    let document ← settle document source
    pure (document, (← document.entries? source) ++ taken)) (document, [])

def putFirst (document : Document) (id : NodeId) (taken : List NodeEntry) : Document :=
  if taken.isEmpty then document
  else document.setEntries id (taken ++ (document.entries? id).getD [])

/--
Settle the rest of the entries of a mapping, behind those that need no more.  A
mapping that takes over its own entries is settled on the way.
-/
def settleRest (settle : Document → NodeId → Option Document) (id : NodeId) :
    (taken before rest : List NodeEntry) → Document → Option Document
  | taken, _, [], document => some (document.putFirst id taken)
  | taken, before, (key, value) :: rest, document =>
      if document.hasTag .merge key then do
        let sources ← document.mergedMappings? value
        let left := before ++ rest
        let (document, more) ← (document.setEntries id left).takeOver settle sources
        if document.entries? id = some left then
          settleRest settle id (taken ++ more) before rest document
        else some (document.putFirst id (taken ++ more))
      else
        let document := if document.hasTag .value key then document.setTag key .string else document
        settleRest settle id taken (before ++ [(key, value)]) rest document

/--
Settle a mapping: its keys for merging give way to the entries that they take over,
and its key for the value as a scalar becomes a text.
-/
def settleWithin : (fuel : Nat) → Document → NodeId → Option Document
  | 0, _, _ => none
  | fuel + 1, document, id => do
      settleRest (settleWithin fuel) id [] [] (← document.entries? id) document

/-- The document with a mapping settled; every merge on the way removes an entry. -/
def settle? (document : Document) (id : NodeId) : Option Document :=
  settleWithin (document.entryCount + 1) document id

end Document

end Yaml

end SwiftWorkspace
