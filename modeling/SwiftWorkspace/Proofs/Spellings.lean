import SwiftWorkspace.Proofs.StableNames

/-!
# Spellings of an address

An address is recognised by its beginning, so it is one whatever stands behind it.  A repository
below an address can be spelled with a slash behind its name, with the ending of an archive, or
with both.  It has the same name in every spelling.
-/

namespace SwiftWorkspace

namespace Text

variable {holds drop : Char → Bool} {text more : Text}

/-- A run that ends inside a text ends there whatever follows. -/
theorem run_append_of_stops (stops : text.dropWhile holds ≠ []) (more : Text) :
    (text ++ more).takeWhile holds = text.takeWhile holds ∧
      (text ++ more).dropWhile holds = text.dropWhile holds ++ more := by
  have shorter : (text.takeWhile holds).length ≠ text.length := by
    have whole := congrArg List.length (List.takeWhile_append_dropWhile (p := holds) (l := text))
    have filled := List.length_pos_of_ne_nil stops
    rw [List.length_append] at whole
    omega
  rw [List.takeWhile_append, if_neg shorter, List.dropWhile_append, if_neg (by simpa using stops)]
  exact ⟨rfl, rfl⟩

/-- Trimming reaches back into the front of a text only where nothing is left behind it. -/
theorem trimEnd_append (drop : Char → Bool) (text more : Text) :
    trimEnd drop (text ++ more) = if trimEnd drop more = [] then trimEnd drop text
      else text ++ trimEnd drop more := by
  simp only [trimEnd, List.reverse_append, List.dropWhile_append, List.isEmpty_iff,
    List.reverse_eq_nil_iff]
  split
  · rfl
  · rw [List.reverse_append, List.reverse_reverse]

theorem trimEnd_of_forall (keeps : ∀ char ∈ text, drop char = false) :
    trimEnd drop text = text := by
  rw [← List.append_nil text, trimEnd_append_of_forall keeps]
  rfl

theorem trimStart_ne_nil_of_strip (filled : text.strip ≠ []) : text.dropWhile isBlank ≠ [] :=
  fun empty =>
  filled (by rw [strip, trim, trimStart, empty]; rfl)

/-- What is left of a text by stripping stands at the front where something follows the text. -/
theorem strip_prefix_strip_append (filled : text.strip ≠ []) (more : Text) :
    text.strip <+: (text ++ more).strip := by
  have start := (run_append_of_stops (trimStart_ne_nil_of_strip filled) more).2
  rw [strip, strip, trim, trim, trimStart, trimStart, start, trimEnd_append]
  split
  · exact List.prefix_rfl
  · exact (List.rdropWhile_prefix isBlank _).trans (List.prefix_append _ _)

theorem strip_append_of_trimmed (filled : text.strip ≠ []) (ends : trimEnd isBlank more = more)
    (more_filled : more ≠ []) : (text ++ more).strip = text.dropWhile isBlank ++ more := by
  rw [strip, trim, trimStart, (run_append_of_stops (trimStart_ne_nil_of_strip filled) more).2,
    trimEnd_append, ends, if_neg more_filled]

end Text

namespace Reference

variable {address candidate name front segment : Text}

theorem strip_ne_nil_of_isRemote (remote : isRemote address) : address.strip ≠ [] := by
  obtain ⟨head, separator, tail, whole, -⟩ := startsWithSegment_of_isRemote remote
  simp [whole]

section Beginnings

variable (more : Text)

theorem hasScheme_append (scheme : hasScheme candidate) : hasScheme (candidate ++ more) := by
  cases candidate with
  | nil => simp [hasScheme] at scheme
  | cons first rest =>
      simp only [hasScheme, Bool.and_eq_true, decide_eq_true_eq] at scheme
      obtain ⟨letter, marks⟩ := scheme
      have long : 3 ≤ (rest.dropWhile isSchemeChar).length := by
        have taken := congrArg List.length marks
        rw [List.length_take, List.length_cons, List.length_cons, List.length_singleton] at taken
        omega
      have stops : rest.dropWhile isSchemeChar ≠ [] := List.ne_nil_of_length_pos (by omega)
      rw [List.cons_append, hasScheme, (Text.run_append_of_stops stops more).2,
        List.take_append_of_le_length long, marks, letter]
      rfl

theorem hasUserHost_append (userHost : hasUserHost candidate) :
    hasUserHost (candidate ++ more) := by
  rw [hasUserHost] at userHost
  split at userHost
  case h_2 => cases userHost
  case h_1 first user rest userIs restIs =>
      simp only [Bool.and_eq_true, decide_eq_true_eq] at userHost
      obtain ⟨host, colon⟩ := userHost
      have starts : candidate.dropWhile isHostChar ≠ [] := restIs ▸ List.cons_ne_nil _ _
      obtain ⟨sameUser, sameRest⟩ := Text.run_append_of_stops starts more
      have stops : rest.dropWhile isHostChar ≠ [] := fun empty => by simp [empty] at colon
      obtain ⟨sameHost, behind⟩ := Text.run_append_of_stops stops more
      rw [hasUserHost, sameUser, sameRest, userIs, restIs]
      simp only [List.cons_append, sameHost, behind,
        List.head?_append_of_ne_nil _ stops, host, colon]
      rfl

theorem startsPath_append (path : startsPath candidate) : startsPath (candidate ++ more) := by
  unfold startsPath at path
  split at path
  case h_1 => rfl
  case h_2 rest =>
      simp only [Bool.and_eq_true, decide_eq_true_eq] at path
      obtain ⟨port, slash⟩ := path
      have stops : rest.dropWhile isDecimalDigit ≠ [] := fun empty => by simp [empty] at slash
      obtain ⟨samePort, behind⟩ := Text.run_append_of_stops stops more
      rw [List.cons_append, startsPath, samePort, behind,
        List.head?_append_of_ne_nil _ stops, port, slash]
      rfl
  case h_3 => cases path

theorem hasHost_append (host : hasHost candidate) : hasHost (candidate ++ more) := by
  simp only [hasHost, Bool.and_eq_true] at host ⊢
  obtain ⟨domain, path⟩ := host
  have stops : candidate.dropWhile isHostChar ≠ [] :=
    fun empty => by simp [empty, startsPath] at path
  obtain ⟨same, behind⟩ := Text.run_append_of_stops stops more
  rw [same, behind]
  exact ⟨domain, startsPath_append more path⟩

theorem isRemote_append (remote : isRemote address) : isRemote (address ++ more) := by
  obtain ⟨rest, same⟩ := Text.strip_prefix_strip_append (strip_ne_nil_of_isRemote remote) more
  simp only [isRemote, ← same, Bool.or_eq_true] at remote ⊢
  rcases remote with (scheme | userHost) | host
  · exact .inl (.inl (hasScheme_append rest scheme))
  · exact .inl (.inr (hasUserHost_append rest userHost))
  · exact .inr (hasHost_append rest host)

end Beginnings

section Endings

variable (whole : ∀ char ∈ segment, partsAddress char = false)
    (named : withoutArchiveSuffix segment ≠ [])
  {slashes : Text} (only : ∀ char ∈ slashes, char = '/')
include whole named only

theorem trimEnd_slashes :
    Text.trimEnd (· = '/') (front ++ '/' :: segment ++ slashes) = front ++ '/' :: segment := by
  have filled : segment ≠ [] := fun empty => named (by rw [empty]; rfl)
  have none : Text.trimEnd (· = '/') slashes = [] :=
    List.rdropWhile_eq_nil_iff.mpr fun char member => decide_eq_true (only char member)
  have kept : Text.trimEnd (· = '/') segment = segment :=
    Text.trimEnd_of_forall fun char member => (Bool.or_eq_false_iff.mp (whole char member)).1
  rw [Text.trimEnd_append, if_pos none, List.append_cons, Text.trimEnd_append, kept, if_neg filled]

/-- The last segment of an address names the repository, unless it names nothing. -/
theorem repositoryName_of_last :
    repositoryName (front ++ '/' :: segment ++ slashes) = withoutArchiveSuffix segment := by
  have parts : segments (front ++ '/' :: segment) = segments front ++ [segment] := by
    rw [segments_eq, List.splitOnP_append_cons front segment rfl, List.splitOnP_eq_singleton whole]
    rfl
  simp only [repositoryName, trimEnd_slashes whole named only, parts, List.reverse_append,
    List.reverse_singleton, List.singleton_append, List.map_cons]
  rw [List.find?_cons_of_pos (by simpa using named), Option.getD_some]

/-- Below an address every segment that names something names a repository. -/
theorem canonicalName_below (remote : isRemote address)
    (noBlank : ∀ char ∈ segment, isBlank char = false) :
    isRemote (address ++ ('/' :: segment ++ slashes)) ∧
      canonicalName (address ++ ('/' :: segment ++ slashes)) = withoutArchiveSuffix segment := by
  have below := isRemote_append ('/' :: segment ++ slashes) remote
  have solid : ∀ char ∈ '/' :: segment ++ slashes, isBlank char = false := by
    intro char member
    rcases List.mem_append.mp member with inside | slash
    · rcases List.mem_cons.mp inside with rfl | inside
      · decide
      · exact noBlank char inside
    · rw [only char slash]
      decide
  refine ⟨below, ?_⟩
  rw [canonicalName_of_isRemote below,
    Text.strip_append_of_trimmed (strip_ne_nil_of_isRemote remote)
    (Text.trimEnd_of_forall solid) (List.cons_ne_nil _ _), ← List.append_assoc]
  exact repositoryName_of_last whole named only

end Endings

/-- Whether a text can be the last segment of an address and is named as it is written there. -/
structure IsRepositoryName (name : Text) : Prop where
  filled : name ≠ []
  whole : ∀ char ∈ name, partsAddress char = false
  noBlank : ∀ char ∈ name, isBlank char = false
  bare : ¬ archiveSuffix <:+ name

/-- The ways to spell a repository of a name below an address. -/
def spellings (address name : Text) : List Text :=
  [address ++ '/' :: name, address ++ '/' :: name ++ ['/'], address ++ '/' :: name ++ archiveSuffix,
    address ++ '/' :: name ++ archiveSuffix ++ ['/']]

theorem withoutArchiveSuffix_of_bare (bare : ¬ archiveSuffix <:+ name) :
    withoutArchiveSuffix name = name := by
  rw [withoutArchiveSuffix, if_neg (by rwa [List.isSuffixOf_iff_suffix])]

theorem withoutArchiveSuffix_archive (name : Text) :
    withoutArchiveSuffix (name ++ archiveSuffix) = name := by
  rw [withoutArchiveSuffix, if_pos (List.isSuffixOf_iff_suffix.mpr (List.suffix_append _ _)),
    List.length_append, Nat.add_sub_cancel, List.take_left]

/--
All spellings of a repository below an address are addresses, and they have the name of the
repository.
-/
theorem canonicalName_of_mem_spellings (remote : isRemote address)
    (isName : IsRepositoryName name) :
    ∀ reference ∈ spellings address name, isRemote reference ∧ canonicalName reference = name := by
  have plain := withoutArchiveSuffix_of_bare isName.bare
  have archive := withoutArchiveSuffix_archive name
  have whole : ∀ char ∈ name ++ archiveSuffix, partsAddress char = false := by
    have suffix : ∀ char ∈ archiveSuffix, partsAddress char = false :=
      Text.forall_mem_of_all (by decide)
    exact fun char member => (List.mem_append.mp member).elim (isName.whole char) (suffix char)
  have noBlank : ∀ char ∈ name ++ archiveSuffix, isBlank char = false := by
    have suffix : ∀ char ∈ archiveSuffix, isBlank char = false := Text.forall_mem_of_all (by decide)
    exact fun char member => (List.mem_append.mp member).elim (isName.noBlank char) (suffix char)
  have spelled (slashes : Text) (only : ∀ char ∈ slashes, char = '/') :=
    canonicalName_below isName.whole (plain.symm ▸ isName.filled) only remote isName.noBlank
  have archived (slashes : Text) (only : ∀ char ∈ slashes, char = '/') :=
    canonicalName_below whole (archive.symm ▸ isName.filled) only remote noBlank
  rw [plain] at spelled
  rw [archive] at archived
  intro reference member
  simp only [spellings, List.mem_cons, List.not_mem_nil, or_false] at member
  rcases member with rfl | rfl | rfl | rfl
  · simpa using spelled [] (by simp)
  · simpa using spelled ['/'] (by simp)
  · simpa using archived [] (by simp)
  · simpa using archived ['/'] (by simp)

/-- A host with a port between blanks, and a name of dots and a user's mark. -/
theorem canonicalName_of_mem_spellings_port :
    isRemote " example.com:80/\t".toList ∧ IsRepositoryName "..@git".toList ∧
      ∀ reference ∈ spellings " example.com:80/\t".toList "..@git".toList,
        isRemote reference ∧ canonicalName reference = "..@git".toList := by
  have remote : isRemote " example.com:80/\t".toList := by decide +kernel
  have isName : IsRepositoryName "..@git".toList := 
    ⟨by decide, Text.forall_mem_of_all (by decide), Text.forall_mem_of_all (by decide), by decide⟩
  exact ⟨remote, isName, canonicalName_of_mem_spellings remote isName⟩

end Reference

end SwiftWorkspace
