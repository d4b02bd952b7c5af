import SwiftWorkspace.Manifest.Basic
import SwiftWorkspace.Requirement
import SwiftWorkspace.Source.Argument

/-!
# Declarations of dependencies

A dependency is declared by a call of `.package` with its address, and for a
URL with a requirement.  This module reads such a call and writes one.
-/

namespace SwiftWorkspace

/-- What a declaration asks of the versions of a package. -/
structure Qualifiers where
  version : Option Text := none
  branch : Option Text := none
  commit : Option Text := none
  deriving DecidableEq, Repr

namespace Source

/--
The version that an argument without label asks for: the start of a nested
call's range, its first string, or the text of a range between versions.
-/
def positionalVersion? (source : Source) (value : Span) : Option Text :=
  match source.callIn? value with
  | some nested =>
      (filled? (source.labeledString? nested.arguments "from".toList)).orElse fun _ =>
        (source.stringElements nested.arguments).head?
  | none =>
      let written := source.textIn value
      if written.contains ['.', '.'] then
        some (written.filter fun char => char ≠ '"' && !isBlank char)
      else none

def qualify (source : Source) (qualifiers : Qualifiers) (argument : Argument) : Qualifiers :=
  match argument.label with
  | none =>
      match filled? (source.positionalVersion? argument.value) with
      | some version => { qualifiers with version := some version }
      | none => qualifiers
  | some label =>
      let value := source.stringIn? argument.value
      if label = "from".toList || label = "exact".toList then { qualifiers with version := value }
      else if label = "branch".toList then { qualifiers with branch := value }
      else if label = "revision".toList then { qualifiers with commit := value }
      else qualifiers

/-- The qualifiers in an argument list; a later one replaces an earlier one of its kind. -/
def qualifiers (source : Source) (span : Span) : Qualifiers :=
  (source.arguments span).foldl source.qualify {}

/-- The dependency that the call at the start of a span declares. -/
def dependencyIn? (source : Source) (span : Span) : Option Dependency :=
  match source.callIn? span with
  | none => none
  | some call =>
      if call.keyword ≠ "package".toList then none
      else
        let name := (source.labeledString? call.arguments "name".toList).getD []
        match filled? (source.labeledString? call.arguments "url".toList) with
        | some url =>
            let asked := source.qualifiers call.arguments
            Dependency.ofFields?
              { name, url := some url, version := asked.version, branch := asked.branch,
                commit := asked.commit }
        | none =>
            match filled? (source.labeledString? call.arguments "path".toList) with
            | some path => Dependency.ofFields? { name, path := some path }
            | none => none

end Source

namespace Dependency

def ofDeclaration? (declaration : Text) : Option Dependency :=
  let source := Source.ofText declaration
  match source.elements source.whole with
  | [] => none
  | first :: _ => source.dependencyIn? first

def defaultRequirement : Text := "from: \"1.0.0\"".toList

def requirement (dependency : Dependency) : Text :=
  match filled? dependency.version, filled? dependency.branch, filled? dependency.commit with
  | some version, _, _ => Requirement.render version
  | none, some branch, _ => "branch: ".toList ++ Literal.encode branch
  | none, none, some commit => "revision: ".toList ++ Literal.encode commit
  | none, none, none => defaultRequirement

def declaration (dependency : Dependency) : Text :=
  match filled? dependency.path with
  | some path => ".package(path: ".toList ++ Literal.encode path ++ [')']
  | none =>
      ".package(url: ".toList ++ Literal.encode (dependency.url.getD []) ++ [',', ' '] ++
        dependency.requirement ++ [')']

end Dependency

end SwiftWorkspace
