import SwiftWorkspace.Edit.Package

/-!
# Messages of edits

The wording of the reasons why an edit fails, and of the warnings it gives.
-/

namespace SwiftWorkspace

namespace EditError

/-- The name of the error that the failure shows as. -/
def name : EditError → String
  | .noDependencies | .dependenciesNotArray _ | .targetUnnamed _ => "MalformedManifestError"
  | .targetNotFound _ => "TargetNotFoundError"
  | .dependencyNotFound _ => "DependencyNotFoundError"

def message : EditError → String
  | .noDependencies => "Could not find dependencies array in Package.swift"
  | .dependenciesNotArray target =>
      s!"Dependencies of target \"{target.asString}\" are not an array literal"
  | .targetUnnamed target => s!"Target \"{target.asString}\" has no name argument"
  | .targetNotFound target => s!"Target \"{target.asString}\" not found in Package.swift"
  | .dependencyNotFound identifier =>
      s!"Dependency \"{identifier.asString}\" is neither declared nor referenced by any target"

end EditError

namespace EditWarning

def message : EditWarning → String
  | .notReferenced name =>
      s!"Dependency \"{name.asString}\" was not found in any selected target"
  | .stillUsed name =>
      s!"Dependency \"{name.asString}\" is still used by some targets; keeping its declaration"

end EditWarning

def unaddressedMessage : String := "A dependency needs exactly one of 'url' or 'path'"

end SwiftWorkspace
