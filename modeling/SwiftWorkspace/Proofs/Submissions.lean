import SwiftWorkspace.Proofs.Histories
import SwiftWorkspace.Proofs.LocalEdges
import SwiftWorkspace.Workspace.Traffic

/-!
# What an addition writes

An addition of a URL that succeeds declares that URL behind the dependencies that it has
read, and nothing else.  A text that several additions have made, each from what the one
before it wrote, declares their URLs in that order.
-/

namespace SwiftWorkspace

namespace Text

theorem onLine_of_all {text : Text}
    (all : (text.all fun char => char ≠ '\n' ∧ char ≠ '\r') = true) : OnLine text :=
  forall_mem_of_all all

theorem OnLine.noFeed {text : Text} (line : text.OnLine) : '\n' ∉ text :=
  fun member => (line _ member).1 rfl

theorem OnLine.append {first second : Text} (front : first.OnLine) (back : second.OnLine) :
    OnLine (first ++ second) :=
  fun char member => (List.mem_append.mp member).elim (front char) (back char)

theorem OnLine.strip {text : Text} (line : text.OnLine) : OnLine text.strip := by
  intro char member
  simp only [Text.strip, Text.trim, Text.trimEnd, Text.trimStart, List.mem_reverse] at member
  exact line char (List.dropWhile_subset _ (List.mem_reverse.mp (List.dropWhile_subset _ member)))

end Text

namespace Requirement

open Text (OnLine onLine_of_all)

variable {text : Text}

theorem onLine_between (line : text.OnLine) : OnLine (between text) :=
  have mark : OnLine ['"'] := onLine_of_all (by decide)
  (mark.append line).append mark

theorem onLine_quoteRange {operator : Text} (word : operator.OnLine) (line : text.OnLine) :
    OnLine (quoteRange operator text) := by
  rw [quoteRange]
  split
  · rename_i lower upper parts
    have whole := breakAt?_eq_some parts
    have front : OnLine lower := fun char member => line char (by simp [whole, member])
    have back : OnLine upper := fun char member => line char (by simp [whole, member])
    have bound : OnLine (if lower.strip.isEmpty then [] else between lower.strip) := by
      split
      · simp [OnLine]
      · exact onLine_between front.strip
    exact (bound.append word).append (onLine_between back.strip)
  · exact line

/--
A requirement is written with the characters that it is asked with, quotation marks and fixed
words.
-/
theorem onLine_render (line : text.OnLine) : OnLine (render text) := by
  have label : OnLine (Text.ofString "from: ") := onLine_of_all (by decide)
  have half : OnLine halfOpen := onLine_of_all (by decide)
  have whole : OnLine closed := onLine_of_all (by decide)
  rw [render]
  split
  · exact line
  · split
    · exact label.append (onLine_between line)
    · split
      · exact label.append line
      · split
        · exact onLine_quoteRange half line
        · split
          · exact onLine_quoteRange whole line
          · exact label.append (onLine_between line)

end Requirement

namespace Dependency

open Text (OnLine onLine_of_all)

variable {dependency : Dependency} {url : Text} {version : Option Text}

theorem fields_of_url (made : ofFields? { url := some url, version := version } = some dependency) :
    dependency.toDependencyFields =
        { name := Reference.canonicalName url, url := some url, version := version } ∧
          url ≠ [] := by
  rw [ofFields?] at made
  split at made
  · rename_i addressed
    have filled : url ≠ [] := by
      rintro rfl
      exact absurd addressed (by simp [DependencyFields.isAddressed, filled?])
    obtain rfl := Option.some.inj made
    refine ⟨?_, filled⟩
    simp [DependencyFields.named, DependencyFields.address, filled?_of_filled filled]
  · cases made

variable (fields : dependency.toDependencyFields =
    { name := Reference.canonicalName url, url := some url, version := version })
  (url_line : url.OnLine) (version_line : ∀ asked ∈ version, Text.OnLine asked)
include fields url_line version_line

theorem onLine_declaration_of_url : Text.OnLine dependency.declaration := by
  have requirement : OnLine dependency.requirement := by
    have noBranch : filled? none = none := rfl
    rw [Dependency.requirement, fields]
    simp only [noBranch]
    cases found : filled? version with
    | none => exact onLine_of_all (by decide)
    | some asked => exact Requirement.onLine_render (version_line asked (mem_of_filled? found).1)
  have noPath : filled? dependency.path = none := by
    rw [fields]
    rfl
  have named : dependency.url.getD [] = url := by rw [fields]; rfl
  have front : OnLine ".package(url: ".toList := onLine_of_all (by decide)
  have comma : OnLine [',', ' '] := onLine_of_all (by decide)
  have close : OnLine [')'] := onLine_of_all (by decide)
  rw [declaration, noPath, named]
  exact (((front.append url_line.encode).append comma).append requirement).append close

theorem linear_of_url : dependency.Linear := by
  refine ⟨?_, ?_, ?_, ?_, ?_, ?_⟩ <;> rw [fields]
  · exact Reference.noFeed_canonicalName url_line.noFeed
  · simpa using url_line.noFeed
  · simp
  · exact fun asked member => (version_line asked member).noFeed
  · simp
  · simp

end Dependency

/-- The URLs of the dependencies that a manifest declares, in their order; a local one has none. -/
def declaredUrls (text : Text) : List (Option Text) :=
  (Manifest.ofText text).dependencies.map fun dependency => dependency.url

namespace Submission

/-- Whether the addition is one of a URL, and all that it writes fits on a line. -/
structure IsRemote (submission : Submission) : Prop where
  url : ∃ url, submission.dependency.url = some url ∧ url ≠ [] ∧ url.OnLine
  version : ∀ version ∈ submission.dependency.version, version.OnLine
  product : ∀ name ∈ submission.dependency.product, name.OnLine

variable {submission : Submission} {disk : Disk} {change : Change Dependency}

structure Declares (submission : Submission) (url : Text) (dependency : Dependency) : Prop where
  url_eq : submission.dependency.url = some url
  fields : dependency.toDependencyFields =
    { name := Reference.canonicalName url, url := some url, version :=
      submission.dependency.version }
  filled : url ≠ []
  accepted : ∀ version ∈ dependency.version, Requirement.isValid version
  linear : dependency.Linear
  line : Text.OnLine dependency.declaration
  name : Text.OnLine dependency.name

theorem address_of_url {request : DependencyRequest} {url : Text}
    {address : DependencyRequest.Address}
    (given : request.url = some url) (filled : url ≠ []) (found : request.address = .ok address) :
    address = .remote url ∧ ∀ version ∈ request.version, Requirement.isValid version := by
  rw [DependencyRequest.address, given, Dependency.filled?_of_filled filled] at found
  cases local_ : filled? request.localProject with
  | some reference => simp [local_] at found
  | none =>
      cases asked : request.version with
      | none =>
          simp only [local_, asked] at found
          exact ⟨(Except.ok.inj found).symm, by simp⟩
      | some version =>
          simp only [local_, asked] at found
          split at found
          · rename_i valid
            refine ⟨(Except.ok.inj found).symm, fun other member => ?_⟩
            rwa [← Option.some.inj member]
          · cases found

theorem IsRemote.exists_insert (remote : submission.IsRemote)
    (planned : submission.plan disk = .ok change) :
    ∃ url text product, submission.Declares url change.outcome ∧
      (∀ name ∈ product, Text.OnLine name) ∧
      submission.workspace.manifestPath disk submission.project = .ok change.path ∧
      disk.readText change.path = .ok text ∧
      Edit.insert text change.outcome submission.dependency.targets product = .ok change.text := by
  obtain ⟨addition⟩ := Workspace.exists_addition planned
  obtain ⟨url, given, filled, url_line⟩ := remote.url
  obtain ⟨remote_eq, accepted⟩ := address_of_url given filled addition.address_eq
  have fields_eq := addition.fields_eq
  rw [remote_eq, Workspace.newDependency] at fields_eq
  obtain ⟨parts, product⟩ := Prod.mk.inj (Except.ok.inj fields_eq)
  have made := addition.outcome_eq
  rw [← parts] at made
  have fields := (Dependency.fields_of_url made).1
  refine ⟨url, addition.text, addition.product, ⟨given, fields, filled, ?_, ?_, ?_, ?_⟩, ?_,
    addition.path_eq, addition.text_eq, addition.insert_eq⟩
  · rw [fields]
    exact accepted
  · exact Dependency.linear_of_url fields url_line remote.version
  · exact Dependency.onLine_declaration_of_url fields url_line remote.version
  · rw [fields]
    exact Reference.onLine_canonicalName url_line
  · intro name member
    rw [← product] at member
    exact remote.product name (Dependency.mem_of_filled? member).1

end Submission

/--
What stays of a manifest that additions at some places have made, each from what the one before
it wrote.
-/
structure Lineage (submissions : List Submission) (initial : Text) (places : List Nat)
    (text : Text) : Prop where
  plain : Plain text
  noReturn : '\r' ∉ text
  urls : declaredUrls text = declaredUrls initial ++
    places.map fun place => submissions[place]?.bind (·.dependency.url)

namespace Lineage

variable {submissions : List Submission} {initial old : Text} {places : List Nat} {place : Nat}
  {submission : Submission} {disk : Disk} {change : Change Dependency}

theorem refl (plain : Plain initial) (noReturn : '\r' ∉ initial) :
    Lineage submissions initial [] initial :=
  ⟨plain, noReturn, (List.append_nil _).symm⟩

theorem grow (lineage : Lineage submissions initial places old)
    (here : submissions[place]? = some submission)
    (remote : submission.IsRemote) (planned : submission.plan disk = .ok change)
    (read : disk.readText change.path = .ok old) :
    Lineage submissions initial (places ++ [place]) change.text := by
  obtain ⟨url, text, product, declares, product_line, -, text_eq, inserted⟩ :=
    remote.exists_insert planned
  obtain rfl := Except.ok.inj (text_eq.symm.trans read)
  obtain ⟨source, tidy, rfl⟩ := lineage.plain.exists_tidy
  have noFeed : ∀ name ∈ product, '\n' ∉ name :=
    fun name member => (product_line name member).noFeed
  refine ⟨?_, ?_, ?_⟩
  · obtain ⟨new, same, survives⟩ :=
      tidy.survives_insert declares.linear declares.accepted noFeed inserted
    rw [same]
    exact survives.tidy.plain
  · refine Edit.noReturn_insert declares.line ?_ inserted lineage.noReturn
    cases found : filled? product with
    | none => exact Reference.onLine_canonicalName declares.name
    | some name => exact product_line name (Dependency.mem_of_filled? found).1
  · obtain ⟨piece, declared, written⟩ := Dependency.exists_written declares.linear declares.accepted
    have dependencies := tidy.dependencies_of_insert written
      (Source.noFeed_reference declares.linear noFeed) inserted
    have url_eq : declared.url = some url := by
      rw [written.url, declares.fields]
      exact Dependency.filled?_of_filled declares.filled
    rw [declaredUrls, dependencies, List.map_append, ← declaredUrls, lineage.urls, List.map_append,
      List.append_assoc]
    simp [here, url_eq, declares.url_eq]

end Lineage

end SwiftWorkspace
