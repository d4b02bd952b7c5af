import SwiftWorkspace.Manifest.Declaration
import SwiftWorkspace.Manifest.Layout

/-!
# Reading a manifest

Every text can be read as a manifest: what cannot be made out is left out.  The
name, the platforms, the dependencies, the targets and the products are read
independently of each other.
-/

namespace SwiftWorkspace

namespace Platform

def knownTokens : List Text :=
  ((List.range 6).map fun minor => "v10_".toList ++ Text.ofNat (minor + 10)) ++
    ((List.range 25).map fun major => 'v' :: Text.ofNat (major + 1)) ++
    ["v26".toList]

/-- The short code of a known token, its last character; other tokens stand for themselves. -/
def versionOf (token : Text) : Text :=
  if knownTokens.elem token then token.drop (token.length - 1) else token

def assign (platforms : List (Text × Text)) (platform version : Text) : List (Text × Text) :=
  if platforms.any (·.1 = platform) then
    platforms.map fun entry => if entry.1 = platform then (platform, version) else entry
  else platforms ++ [(platform, version)]

end Platform

namespace Source

/-- The name behind the least deeply nested label `name` that has a string that is not empty. -/
def packageName (source : Source) : Text :=
  let sites := (source.labelSites Field.name.label source.whole).mergeSort LabelSite.le
  (sites.findSome? fun site => do
    let literal ← source.literalAt? (source.skipTrivia site.position source.length)
    filled? (source.stringIn? literal)).getD unknownPackage

def platformIn? (source : Source) (element : Span) : Option (Text × Text) := do
  let call ← source.callIn? element
  let first ← (source.elements call.arguments).head?
  let token ← filled? <| some <| (source.stringIn? first).getD
    (Text.strip (Text.trimStart (· = '.') (source.textIn first)))
  pure (call.keyword, Platform.versionOf token)

/-- The platforms, unless there are none. -/
def platforms? (source : Source) : Option (List (Text × Text)) := do
  let span ← source.platformsSpan?
  let found := ((source.elements span).filterMap source.platformIn?).foldl
    (fun platforms (platform, version) => Platform.assign platforms platform version) []
  if found.isEmpty then none else some found

def dependencies (source : Source) : List Dependency :=
  match source.dependenciesSpan? with
  | none => []
  | some span => (source.elements span).filterMap source.dependencyIn?

def targetOf (source : Source) (target : TargetCall) : Target where
  name := target.name
  kind := target.kind
  dependencies :=
    match source.targetDependencies? target with
    | none => []
    | some span => source.stringElements span
  path := source.labeledString? target.call.arguments "path".toList

def targets (source : Source) : List Target := source.targetCalls.map source.targetOf

def productIn? (source : Source) (element : Span) : Option Product := do
  let call ← source.callIn? element
  let kind ← ProductKind.ofKeyword? call.keyword
  let name ← filled? (source.labeledString? call.arguments Field.name.label)
  let targets :=
    match source.argumentArray? call.arguments Field.targets.label with
    | none => []
    | some span => source.stringElements span
  pure { name, kind, targets }

def products (source : Source) : List Product :=
  match source.productsSpan? with
  | none => []
  | some span => (source.elements span).filterMap source.productIn?

end Source

namespace Manifest

def ofSource (source : Source) : Manifest where
  name := source.packageName
  platforms := source.platforms?
  dependencies := source.dependencies
  targets := source.targets
  products := source.products

def ofText (text : Text) : Manifest := ofSource (Source.ofText text)

end Manifest

end SwiftWorkspace
