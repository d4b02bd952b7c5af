import SwiftWorkspace.Lookup.Query
import SwiftWorkspace.Manifest.Reading

/-!
# Reading by position

The parts of a manifest, read by queries that can fail: they look up characters and kinds by
position, the items of a list by their places, and a kind of target or product by its keyword,
and a dependency without exactly one address is missing it.  Where a reading fails, a default
stands for the part.
-/

namespace SwiftWorkspace

def bestEffort {α : Type} (reading : Lookup α) (default : α) : α :=
  match reading with
  | .ok value => value
  | .error _ => default

namespace TargetKind

def ofKeyword (keyword : Text) : Lookup TargetKind :=
  match ofKeyword? keyword with
  | some kind => .ok kind
  | none => .error (.keyword keyword)

end TargetKind

namespace ProductKind

def ofKeyword (keyword : Text) : Lookup ProductKind :=
  match ofKeyword? keyword with
  | some kind => .ok kind
  | none => .error (.keyword keyword)

end ProductKind

namespace Reference

def findCanonicalName (reference : Text) : Lookup Text :=
  let candidate := reference.strip
  if candidate.isEmpty then pure candidate
  else if isRemote candidate then pure (repositoryName candidate)
  else if candidate.elem '/' || candidate.elem '\\' then do
    let segment ← Lookup.last
        ((Text.trimEnd (· = '/') (Text.replace '\\' '/' candidate)).splitOn '/')
    pure (if segment.isEmpty then candidate else segment)
  else pure candidate

end Reference

namespace Dependency

def ofFields (fields : DependencyFields) : Lookup Dependency :=
  if addressed : fields.isAddressed = true then do
    let name ← if fields.name.isEmpty then Reference.findCanonicalName fields.address
        else pure fields.name
    pure ⟨{ fields with name }, addressed⟩
  else .error .address

end Dependency

namespace Tables

def nameBehind? (tables : Tables) (site : LabelSite) : Lookup (Option Text) := do
  match ← tables.literalAt? (← tables.skipTrivia site.position tables.text.length) with
  | none => pure none
  | some literal => pure (filled? (← tables.stringIn? literal))

def packageName (tables : Tables) : Lookup Text := do
  let sites := (← tables.labelSites Field.name.label).mergeSort LabelSite.le
  pure ((← sites.findSomeM? tables.nameBehind?).getD unknownPackage)

def platformIn? (tables : Tables) (element : Span) : Lookup (Option (Text × Text)) := do
  match ← tables.callIn? element with
  | none => pure none
  | some call =>
      let arguments ← tables.elements call.arguments
      if arguments.isEmpty then pure none
      else
        let first ← Lookup.item arguments 0
        let token := (← tables.stringIn? first).getD
          (Text.strip (Text.trimStart (· = '.') (tables.textIn first)))
        pure (if token.isEmpty then none else some (call.keyword, Platform.versionOf token))

/-- The platforms, unless there are none. -/
def platforms? (tables : Tables) : Lookup (Option (List (Text × Text))) := do
  match ← tables.labeledArray? Field.platforms.label [] with
  | none => pure none
  | some span =>
      let found := (← (← tables.elements span).filterMapM tables.platformIn?).foldl
        (fun platforms (platform, version) => Platform.assign platforms platform version) []
      pure (if found.isEmpty then none else some found)

def positionalVersion? (tables : Tables) (value : Span) : Lookup (Option Text) := do
  match ← tables.callIn? value with
  | some nested =>
      match filled? (← tables.labeledString? nested.arguments "from".toList) with
      | some version => pure (some version)
      | none =>
          let strings ← tables.stringElements nested.arguments
          if strings.isEmpty then pure none else pure (some (← Lookup.item strings 0))
  | none =>
      let written := tables.textIn value
      pure (if written.contains ['.', '.'] then
        some (written.filter fun char => char ≠ '"' && !isBlank char)
      else none)

def qualify (tables : Tables) (qualifiers : Qualifiers) (argument : Argument) :
    Lookup Qualifiers := do
  match argument.label with
  | none =>
      match filled? (← tables.positionalVersion? argument.value) with
      | some version => pure { qualifiers with version := some version }
      | none => pure qualifiers
  | some label =>
      if label = "from".toList || label = "exact".toList then
        pure { qualifiers with version := ← tables.stringIn? argument.value }
      else if label = "branch".toList then
        pure { qualifiers with branch := ← tables.stringIn? argument.value }
      else if label = "revision".toList then
        pure { qualifiers with commit := ← tables.stringIn? argument.value }
      else pure qualifiers

def qualifiers (tables : Tables) (span : Span) : Lookup Qualifiers := do
  (← tables.arguments span).foldlM tables.qualify {}

/-- The dependency that the call at the start of a span declares. -/
def dependencyIn? (tables : Tables) (span : Span) : Lookup (Option Dependency) := do
  match ← tables.callIn? span with
  | none => pure none
  | some call =>
      if call.keyword ≠ "package".toList then pure none
      else
        let name := (← tables.labeledString? call.arguments "name".toList).getD []
        match filled? (← tables.labeledString? call.arguments "url".toList) with
        | some url =>
            let asked ← tables.qualifiers call.arguments
            pure (some (← Dependency.ofFields
              { name, url := some url, version := asked.version, branch := asked.branch,
                commit := asked.commit }))
        | none =>
            match filled? (← tables.labeledString? call.arguments "path".toList) with
            | some path => pure (some (← Dependency.ofFields { name, path := some path }))
            | none => pure none

/-- The inside of the array of the package's dependencies. -/
def dependenciesSpan? (tables : Tables) : Lookup (Option Span) := do
  let targets ← tables.labeledArray? Field.targets.label []
  let products ← tables.labeledArray? Field.products.label []
  tables.labeledArray? Field.dependencies.label (targets.toList ++ products.toList)

def dependencies (tables : Tables) : Lookup (List Dependency) := do
  match ← tables.dependenciesSpan? with
  | none => pure []
  | some span => (← tables.elements span).filterMapM tables.dependencyIn?

def targetCallOf? (tables : Tables) (element : Span) : Lookup (Option (Call × Text)) := do
  match ← tables.callIn? element with
  | none => pure none
  | some call =>
      if (TargetKind.ofKeyword? call.keyword).isNone then pure none
      else
        let name := filled? (← tables.labeledString? call.arguments Field.name.label)
        pure (name.map fun name => (call, name))

def listed (tables : Tables) (call : Call) (label : Text) : Lookup (List Text) := do
  match ← tables.argumentArray? call.arguments label with
  | none => pure []
  | some span => tables.stringElements span

def targetOf (tables : Tables) (declared : Call × Text) : Lookup Target := do
  let (call, name) := declared
  let dependencies ← tables.listed call Field.dependencies.label
  let kind ← TargetKind.ofKeyword call.keyword
  pure { name, kind, dependencies, path := ← tables.labeledString? call.arguments "path".toList }

def targets (tables : Tables) : Lookup (List Target) := do
  match ← tables.labeledArray? Field.targets.label [] with
  | none => pure []
  | some span => (← (← tables.elements span).filterMapM tables.targetCallOf?).mapM tables.targetOf

def productIn? (tables : Tables) (element : Span) : Lookup (Option Product) := do
  match ← tables.callIn? element with
  | none => pure none
  | some call =>
      if (ProductKind.ofKeyword? call.keyword).isNone then pure none
      else
        match filled? (← tables.labeledString? call.arguments Field.name.label) with
        | none => pure none
        | some name =>
            let targets ← tables.listed call Field.targets.label
            pure (some { name, kind := ← ProductKind.ofKeyword call.keyword, targets })

def products (tables : Tables) : Lookup (List Product) := do
  match ← tables.labeledArray? Field.products.label [] with
  | none => pure []
  | some span => (← tables.elements span).filterMapM tables.productIn?

/-- The manifest with a default for each part that cannot be read. -/
def manifest (tables : Tables) : Manifest where
  name := bestEffort tables.packageName unknownPackage
  platforms := bestEffort tables.platforms? none
  dependencies := bestEffort tables.dependencies []
  targets := bestEffort tables.targets []
  products := bestEffort tables.products []

end Tables

namespace Manifest

def readByPosition (text : Text) : Lookup Manifest := do
  pure (← Tables.ofText text).manifest

end Manifest

end SwiftWorkspace
