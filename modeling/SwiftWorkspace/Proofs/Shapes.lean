import SwiftWorkspace.Proofs.Lexing
import SwiftWorkspace.Proofs.Rows
import SwiftWorkspace.Source.Argument

/-!
# Shapes of calls, arguments and arrays

A call, a labeled argument or an array is recognised by its own cells, wherever
they stand.  What is recognised keeps its shape when the cells inside of its
brackets are exchanged.
-/

namespace SwiftWorkspace

open Kind (chars)

/--
When the first of two ways to cut a list cuts later, it cuts a part off the rest of the other.
-/
theorem exists_middle {α : Type} {first last front back : List α}
    (same : first ++ last = front ++ back) (le : front.length ≤ first.length) :
    ∃ middle, first = front ++ middle ∧ back = middle ++ last := by
  rcases List.append_eq_append_iff.mp same with ⟨middle, front_eq, rfl⟩ | ⟨middle, rfl, rfl⟩
  · obtain rfl : middle = [] := by
      have := congrArg List.length front_eq
      simp only [List.length_append] at this
      exact List.length_eq_zero_iff.mp (by omega)
    exact ⟨[], by simpa using front_eq.symm, rfl⟩
  · exact ⟨middle, rfl, rfl⟩

theorem split_at_two {α : Type} {first last : α} {entries : List α} (inside : first ∈ entries)
    (there : last ∈ entries) (differs : first ≠ last) : ∃ front middle back,
      entries = front ++ first :: (middle ++ last :: back) ∨
        entries = front ++ last :: (middle ++ first :: back) := by
  obtain ⟨front, back, rfl⟩ := List.append_of_mem inside
  rcases List.mem_append.mp there with before | behind
  · obtain ⟨front, middle, rfl⟩ := List.append_of_mem before
    exact ⟨front, middle, back, .inr (by simp)⟩
  · obtain ⟨middle, back, rfl⟩ :=
      List.append_of_mem ((List.mem_cons.mp behind).resolve_left differs.symm)
    exact ⟨front, middle, back, .inl rfl⟩

theorem takeWhile_exact {α : Type} {holds : α → Bool} {body rest : List α}
    (inside : ∀ value ∈ body, holds value = true)
    (boundary : ∀ value ∈ rest.head?, holds value = false) :
    (body ++ rest).takeWhile holds = body := by
  rw [List.takeWhile_append_of_pos inside]
  cases rest with
  | nil => simp
  | cons value rest => simp [boundary value rfl]

structure IsIdentifier (word rest : List Cell) : Prop where
  first : ∃ cell ∈ word.head?, Source.isIdentifierStart cell.char
  inside : ∀ cell ∈ word, Source.isIdentifierChar cell.char
  boundary : ∀ cell ∈ rest.head?, Source.isIdentifierChar cell.char = false

theorem IsIdentifier.extend {word rest : List Cell} (identifier : IsIdentifier word rest)
    (filled : rest ≠ []) (more : List Cell) : IsIdentifier word (rest ++ more) := by
  refine ⟨identifier.first, identifier.inside, ?_⟩
  cases rest with
  | nil => exact absurd rfl filled
  | cons cell rest => simpa using identifier.boundary

namespace Source

theorem identifierOf?_append {word rest : List Cell} (identifier : IsIdentifier word rest) :
    identifierOf? (word ++ rest) = some (chars word) := by
  obtain ⟨first, found, starts⟩ := identifier.first
  cases word with
  | nil => simp at found
  | cons cell word =>
      obtain rfl : cell = first := by simpa using found
      have run : List.takeWhile (fun cell : Cell => isIdentifierChar cell.char)
          (cell :: word ++ rest) = cell :: word :=
        takeWhile_exact identifier.inside identifier.boundary
      rw [List.cons_append] at run ⊢
      simp only [identifierOf?, starts, if_true, run, chars]

theorem identifierOf?_eq_some {cells : List Cell} {name : Text}
    (found : identifierOf? cells = some name) :
    ∃ word rest, cells = word ++ rest ∧ IsIdentifier word rest ∧ name = chars word := by
  cases cells with
  | nil => simp [identifierOf?] at found
  | cons first cells =>
      simp only [identifierOf?] at found
      split at found
      · rename_i starts
        refine ⟨_, _, List.takeWhile_append_dropWhile.symm, ⟨⟨first, ?_, starts⟩, ?_, ?_⟩,
          (Option.some.inj found).symm⟩
        · have continues : isIdentifierChar first.char := by
            simp only [isIdentifierStart, isIdentifierChar, Bool.or_eq_true] at starts ⊢
            rcases starts with letter | low
            · exact .inl (.inl letter)
            · exact .inr low
          simp [continues]
        · exact fun cell member => List.all_eq_true.mp List.all_takeWhile cell member
        · intro cell member
          have := List.head?_dropWhile_not (fun cell => isIdentifierChar cell.char) (first :: cells)
          rw [Option.mem_def.mp member] at this
          simpa using this
      · cases found

namespace Shows

variable {source : Source} {position stop : Nat} {cells rest : List Cell}

theorem at? {cell : Cell} (stands : source.Shows position (cell :: cells)) :
    source.at? position = some cell := by
  obtain ⟨behind, same⟩ := stands
  rw [Source.at?, ← List.head?_drop, same]
  rfl

theorem hasCharAt {cell : Cell} (stands : source.Shows position (cell :: cells)) (char : Char) :
    source.hasCharAt position char = decide (cell.char = char) := by
  simp [Source.hasCharAt, stands.at?]

theorem hasCodeAt {cell : Cell} (stands : source.Shows position (cell :: cells)) (char : Char) :
    source.hasCodeAt position char = cell.isCodeChar char := by
  simp [Source.hasCodeAt, stands.at?]

theorem identifierAt? {word : List Cell} (stands : source.Shows position (word ++ rest))
    (identifier : IsIdentifier word rest) (filled : rest ≠ []) :
    source.identifierAt? position = some (chars word) := by
  obtain ⟨behind, same⟩ := stands
  rw [Source.identifierAt?, same, List.append_assoc,
    identifierOf?_append (identifier.extend filled behind)]

theorem skipTrivia {trivia : List Cell} {cell : Cell}
    (stands : source.Shows position (trivia ++ cell :: rest))
    (inside : ∀ cell ∈ trivia, cell.isTrivia) (boundary : cell.isTrivia = false)
    (le : position + trivia.length ≤ stop) :
    source.skipTrivia position stop = position + trivia.length := by
  obtain ⟨behind, same⟩ := stands
  rw [Source.skipTrivia, same, List.append_assoc, takeWhile_exact inside (by simpa using boundary)]
  omega

theorem skipTrivia_all {trivia : List Cell} (stands : source.Shows position trivia)
    (inside : ∀ cell ∈ trivia, cell.isTrivia) :
    source.skipTrivia position (position + trivia.length) = position + trivia.length := by
  obtain ⟨behind, same⟩ := stands
  rw [Source.skipTrivia, same, List.takeWhile_append_of_pos inside, List.length_append]
  omega

theorem insideBefore? {opening closing : Cell} {inner : List Cell}
    (stands : source.Shows position (opening :: (inner ++ closing :: rest)))
    (pairs : Pairs opening closing) (inside : Balanced inner)
    (lt : position + 1 + inner.length < stop) :
    source.insideBefore? position stop =
      some ⟨position + 1, position + 1 + inner.length⟩ := by
  obtain ⟨behind, same⟩ := stands
  have found : source.closing? position = some (position + 1 + inner.length) := by
    refine closing?_eq_some_iff.mpr ⟨source.cells.take position, opening, inner, closing,
      rest ++ behind, ?_, ?_, pairs, inside, rfl⟩
    · have whole := List.take_append_drop position source.cells
      rw [same] at whole
      simpa using whole.symm
    · have size := congrArg List.length same
      simp only [List.length_drop, List.length_append, List.length_cons] at size
      rw [List.length_take]
      omega
  simp [Source.insideBefore?, found, lt]

end Shows

theorem skipTrivia_spec (source : Source) (position count : Nat) :
    ∃ trivia rest, source.cells.drop position = trivia ++ rest ∧
      (∀ cell ∈ trivia, cell.isTrivia) ∧
      source.skipTrivia position (position + count) = position + trivia.length := by
  let run := (source.cells.drop position).takeWhile Cell.isTrivia
  obtain ⟨rest, whole⟩ := (List.take_prefix count run).trans (List.takeWhile_prefix Cell.isTrivia)
  refine ⟨run.take count, rest, whole.symm, fun cell member => ?_, ?_⟩
  · exact List.all_eq_true.mp List.all_takeWhile cell (List.mem_of_mem_take member)
  · simp only [skipTrivia, List.length_take, run]
    omega

theorem insideBefore?_eq_some {source : Source} {position stop : Nat} {found : Span}
    (search : source.insideBefore? position stop = some found) :
    ∃ opening inner closing behind,
      source.cells.drop position = opening :: (inner ++ closing :: behind) ∧
      Pairs opening closing ∧ Balanced inner ∧
      found = ⟨position + 1, position + 1 + inner.length⟩ ∧ position + 1 + inner.length < stop := by
  simp only [insideBefore?] at search
  cases closes : source.closing? position with
  | none => simp [closes] at search
  | some closing =>
      simp only [closes] at search
      split at search
      · rename_i lt
        obtain ⟨front, opening, inner, closer, behind, whole, rfl, pairs, inside, rfl⟩ :=
          closing?_eq_some_iff.mp closes
        exact ⟨opening, inner, closer, behind, by simp [whole], pairs, inside,
          (Option.some.inj search).symm, lt⟩
      · cases search

/--
A piece that begins with an identifier goes on with trivia and, in front of its stop, with more.
-/
theorem Shows.exists_word {source : Source} {position : Nat} {piece : List Cell} {name : Text}
    (stands : source.Shows position piece) (named : source.identifierAt? position = some name)
    (ahead : source.skipTrivia (position + name.length) (position + piece.length) <
      position + piece.length) :
    ∃ word trivia first rest, piece = word ++ (trivia ++ first :: rest) ∧ chars word = name ∧
      IsIdentifier word (trivia ++ [first]) ∧ (∀ cell ∈ trivia, cell.isTrivia) ∧
      source.skipTrivia (position + name.length) (position + piece.length) =
        position + word.length + trivia.length := by
  obtain ⟨behind, same⟩ := id stands
  rw [Source.identifierAt?, same] at named
  obtain ⟨word, rest, split, identifier, rfl⟩ := identifierOf?_eq_some named
  rw [Kind.length_chars] at ahead ⊢
  have within : word.length < piece.length := by
    simp only [Source.skipTrivia] at ahead
    omega
  obtain ⟨args, rfl, rfl⟩ := exists_middle split (by omega)
  obtain ⟨trivia, rest, cut, trivial, skipped⟩ :=
    skipTrivia_spec source (position + word.length) args.length
  rw [List.length_append, ← Nat.add_assoc, skipped] at ahead
  have drop_eq : source.cells.drop (position + word.length) = args ++ behind := by
    rw [← List.drop_drop, same, List.append_assoc, List.drop_left]
  obtain ⟨list, rfl, rfl⟩ := exists_middle (drop_eq.symm.trans cut) (by omega)
  cases list with
  | nil => simp at ahead
  | cons first list =>
      refine ⟨word, trivia, first, list, rfl, rfl,
        ⟨identifier.first, identifier.inside, ?_⟩, trivial, ?_⟩
      · have boundary := identifier.boundary
        cases trivia with
        | nil => simpa using boundary
        | cons cell trivia => simpa using boundary
      · rw [List.length_append, ← Nat.add_assoc, skipped]

/-- What is found before the stop of a piece lies between brackets of the piece. -/
theorem Shows.exists_inside {source : Source} {position : Nat} {piece : List Cell} {found : Span}
    (stands : source.Shows position piece)
    (search : source.insideBefore? position (position + piece.length) = some found) :
    ∃ opening inner closing rest, piece = opening :: (inner ++ closing :: rest) ∧
      Pairs opening closing ∧ Balanced inner ∧
        found = ⟨position + 1, position + 1 + inner.length⟩ := by
  obtain ⟨behind, same⟩ := stands
  obtain ⟨opening, inner, closing, more, reads, pairs, balanced, rfl, lt⟩ :=
    insideBefore?_eq_some search
  have split : piece ++ behind = (opening :: inner) ++ closing :: more := same.symm.trans reads
  obtain ⟨tail, rfl, tail_eq⟩ := exists_middle split (by
    rw [List.length_cons]
    omega)
  cases tail with
  | nil =>
      rw [List.append_nil, List.length_cons] at lt
      omega
  | cons closer tail =>
      obtain rfl : closing = closer := (List.cons.inj tail_eq).1
      exact ⟨opening, inner, closing, tail, rfl, pairs, balanced, rfl⟩

end Source

/--
A piece is a call: a dot, a keyword and an argument list in round brackets, of
which the head reaches up to the opening bracket, and the tail begins with the
closing one.
-/
structure IsCall (piece : List Cell) (keyword : Text) (head inner tail : List Cell) : Prop where
  whole : piece = head ++ (inner ++ tail)
  inside : Balanced inner
  headed : ∃ dot word trivia opening closing rest,
    head = dot :: (word ++ (trivia ++ [opening])) ∧ tail = closing :: rest ∧
      dot.isCodeChar '.' ∧ IsIdentifier word (trivia ++ [opening]) ∧ chars word = keyword ∧
      (∀ cell ∈ trivia, cell.isTrivia) ∧ opening.char = '(' ∧ Pairs opening closing

theorem IsCall.stands {source : Source} {position : Nat} {piece head inner tail : List Cell}
    {keyword : Text} (call : IsCall piece keyword head inner tail)
    (stands : source.Shows position piece) : source.Shows (position + head.length) inner := by
  rw [call.whole] at stands
  exact stands.right.left

theorem IsCall.exchange {piece head inner tail other : List Cell} {keyword : Text}
    (call : IsCall piece keyword head inner tail) (balanced : Balanced other) :
    IsCall (head ++ (other ++ tail)) keyword head other tail :=
  ⟨rfl, balanced, call.headed⟩

theorem Pairs.isTrivia_opening {opening closing : Cell} (pairs : Pairs opening closing) :
    opening.isTrivia = false := by
  obtain ⟨shape, opens, -⟩ := pairs
  have significant := (Cell.isSignificant_of_opens opens).1
  have code := Cell.isCode_of_opens opens
  simpa [Cell.isTrivia, Cell.isSignificant, Cell.isCode, code] using significant

namespace Source

theorem callIn?_of_isCall {source : Source} {position : Nat} {piece head inner tail : List Cell}
    {keyword : Text} (call : IsCall piece keyword head inner tail)
    (stands : source.Shows position piece) :
    source.callIn? ⟨position, position + piece.length⟩ =
      some ⟨keyword, ⟨position, position + piece.length⟩,
        ⟨position + head.length, position + head.length + inner.length⟩⟩ := by
  obtain ⟨rfl, inside, dot, word, trivia, opening, closing, rest, rfl, rfl, isDot, identifier,
    rfl, trivial, isOpening, pairs⟩ := call
  have parts : source.Shows position (dot :: (word ++ (trivia ++
      opening :: (inner ++ closing :: rest)))) := by simpa using stands
  have named : source.identifierAt? (position + 1) = some (chars word) := by
    refine parts.tail.identifierAt? ?_ (by simp)
    simpa using identifier.extend (by simp) (inner ++ closing :: rest)
  generalize size : position + (dot :: (word ++ (trivia ++ [opening])) ++
    (inner ++ closing :: rest)).length = stop
  have within : position + 1 + word.length + trivia.length + 1 + inner.length < stop := by
    simp only [List.length_append, List.length_cons, List.length_nil] at size
    omega
  have opens := parts.tail.right
  have skipped : source.skipTrivia (position + 1 + word.length) stop =
      position + 1 + word.length + trivia.length :=
    opens.skipTrivia trivial pairs.isTrivia_opening (by omega)
  have bracketed := opens.right.insideBefore? pairs inside within
  have filled : Span.isEmpty ⟨position, stop⟩ = false := by
    simp only [Span.isEmpty, decide_eq_false_iff_not]
    omega
  have ahead : ¬stop ≤ position + 1 + word.length + trivia.length := by omega
  simp only [callIn?, filled, parts.hasCodeAt, isDot, named, Kind.length_chars, skipped, ahead,
    opens.right.hasCharAt, isOpening, bracketed]
  simp
  omega

theorem callIn?_eq_some {source : Source} {position : Nat} {piece : List Cell} {call : Call}
    (stands : source.Shows position piece)
    (found : source.callIn? ⟨position, position + piece.length⟩ = some call) :
    ∃ head inner tail, IsCall piece call.keyword head inner tail ∧
      call.span = ⟨position, position + piece.length⟩ ∧
      call.arguments = ⟨position + head.length, position + head.length + inner.length⟩ := by
  cases piece with
  | nil => simp [callIn?, Span.isEmpty] at found
  | cons dot piece =>
      have stop : position + (dot :: piece).length = position + 1 + piece.length := by
        rw [List.length_cons]
        omega
      simp only [callIn?, stands.hasCodeAt, stop] at found ⊢
      split at found
      · cases found
      · rename_i starts
        obtain ⟨-, isDot⟩ : Span.isEmpty _ = false ∧ dot.isCodeChar '.' = true := by
          simpa using starts
        cases named : source.identifierAt? (position + 1) with
        | none => simp [named] at found
        | some keyword =>
            simp only [named] at found
            split at found
            · cases found
            · rename_i opens
              simp only [Bool.or_eq_true, decide_eq_true_eq, Bool.not_eq_true', not_or, Nat.not_le,
                Bool.not_eq_false] at opens
              obtain ⟨word, trivia, opening, rest, rfl, rfl, identifier, trivial, skipped⟩ :=
                stands.tail.exists_word named opens.1
              have list_at := stands.tail.right.right
              obtain ⟨inside, bracketed, rfl⟩ := Option.map_eq_some_iff.mp found
              rw [skipped, List.length_append, List.length_append, ← Nat.add_assoc,
                ← Nat.add_assoc] at bracketed
              obtain ⟨_, inner, closing, tail, same, pairs, balanced, rfl⟩ :=
                list_at.exists_inside bracketed
              obtain ⟨rfl, rfl⟩ := List.cons.inj same
              have isOpening := opens.2
              rw [skipped, list_at.hasCharAt, decide_eq_true_eq] at isOpening
              refine ⟨dot :: (word ++ (trivia ++ [opening])), inner, closing :: tail, ⟨by simp,
                balanced, dot, word, trivia, opening, closing, tail, rfl, rfl, isDot,
                  identifier, rfl,
                trivial, isOpening, pairs⟩, rfl, ?_⟩
              simp
              omega

/-- In cells without the shape of a call no call is found. -/
theorem callIn?_eq_none {source : Source} {position : Nat} {piece : List Cell}
    (missing : ¬∃ keyword head inner tail, IsCall piece keyword head inner tail)
    (stands : source.Shows position piece) :
    source.callIn? ⟨position, position + piece.length⟩ = none := by
  cases found : source.callIn? ⟨position, position + piece.length⟩ with
  | none => rfl
  | some call =>
      obtain ⟨head, inner, tail, shape, -⟩ := callIn?_eq_some stands found
      exact absurd ⟨_, head, inner, tail, shape⟩ missing

end Source

/--
A piece is an argument with a label: the label, a colon and a value, of which
the head reaches up to the first cell of the value.
-/
structure IsLabeled (piece : List Cell) (label : Text) (head value : List Cell) : Prop where
  whole : piece = head ++ value
  boundary : ∀ cell ∈ value.head?, cell.isTrivia = false
  headed : ∃ word trivia colon gap, head = word ++ (trivia ++ colon :: gap) ∧
    IsIdentifier word (trivia ++ [colon]) ∧ chars word = label ∧
    (∀ cell ∈ trivia, cell.isTrivia) ∧ colon.isCodeChar ':' ∧ ∀ cell ∈ gap, cell.isTrivia

theorem IsLabeled.exchange {piece head value other : List Cell} {label : Text}
    (labeled : IsLabeled piece label head value)
    (boundary : ∀ cell ∈ other.head?, cell.isTrivia = false) :
    IsLabeled (head ++ other) label head other :=
  ⟨rfl, boundary, labeled.headed⟩

theorem Cell.isTrivia_colon {cell : Cell} (colon : cell.isCodeChar ':') :
    cell.isTrivia = false ∧ cell.opens? = none ∧ cell.closes? = none := by
  obtain ⟨char, kind⟩ := cell
  simp only [isCodeChar, isCode, Bool.and_eq_true, decide_eq_true_eq] at colon
  obtain ⟨rfl, rfl⟩ := colon
  decide

theorem Cell.noBrackets_of_isTrivia {cell : Cell} (trivial : cell.isTrivia) :
    cell.opens? = none ∧ cell.closes? = none := by
  by_cases string : cell.kind = .string
  · simp [opens?, closes?, isCode, string]
  · refine noBrackets_of_isPadding ?_
    simp only [isTrivia, Bool.or_eq_true, decide_eq_true_eq] at trivial
    rcases trivial with comment | blank
    · simp [isPadding, isSignificant, isCode, comment]
    · simp [isPadding, isSignificant, isCode, string, blank]

theorem Cell.noBrackets_of_isIdentifierChar {cell : Cell}
    (word : Source.isIdentifierChar cell.char) : cell.opens? = none ∧ cell.closes? = none := by
  obtain ⟨char, kind⟩ := cell
  change Source.isIdentifierChar char = true at word
  have noOpening : Bracket.opened? char = none := by
    unfold Bracket.opened?
    split <;> first | rfl | (revert word; decide)
  have noClosing : Bracket.closed? char = none := by
    unfold Bracket.closed?
    split <;> first | rfl | (revert word; decide)
  simp [opens?, closes?, noOpening, noClosing]

theorem IsLabeled.stands {source : Source} {position : Nat} {piece head value : List Cell}
    {label : Text} (labeled : IsLabeled piece label head value)
    (stands : source.Shows position piece) : source.Shows (position + head.length) value := by
  rw [labeled.whole] at stands
  exact stands.right

theorem IsLabeled.balanced_head {piece head value : List Cell} {label : Text}
    (labeled : IsLabeled piece label head value) : Balanced head := by
  obtain ⟨word, trivia, colon, gap, rfl, identifier, -, trivial, isColon, gap_trivial⟩ :=
    labeled.headed
  refine .of_noBrackets fun cell member => ?_
  simp only [List.mem_append, List.mem_cons] at member
  rcases member with member | member | rfl | member
  · exact Cell.noBrackets_of_isIdentifierChar (identifier.inside cell member)
  · exact Cell.noBrackets_of_isTrivia (trivial cell member)
  · exact (Cell.isTrivia_colon isColon).2
  · exact Cell.noBrackets_of_isTrivia (gap_trivial cell member)

theorem IsLabeled.balanced_value {piece head value : List Cell} {label : Text}
    (labeled : IsLabeled piece label head value) (balanced : Balanced piece) : Balanced value := by
  rw [labeled.whole] at balanced
  exact balanced.of_append labeled.balanced_head

namespace Source

theorem argumentOf_of_isLabeled {source : Source} {position : Nat} {piece head value : List Cell}
    {label : Text} (labeled : IsLabeled piece label head value)
    (stands : source.Shows position piece) :
    source.argumentOf ⟨position, position + piece.length⟩ =
      ⟨some label, ⟨position + head.length, position + head.length + value.length⟩,
        ⟨position, position + piece.length⟩⟩ := by
  obtain ⟨rfl, boundary, word, trivia, colon, gap, rfl, identifier, rfl, trivial, isColon,
    gap_trivial⟩ := labeled
  have parts : source.Shows position (word ++ (trivia ++ colon :: (gap ++ value))) := by
    simpa using stands
  have named : source.identifierAt? position = some (chars word) := by
    refine parts.identifierAt? ?_ (by simp)
    simpa using identifier.extend (by simp) (gap ++ value)
  have more := parts.right.right
  generalize size : position + (word ++ (trivia ++ colon :: gap) ++ value).length = stop
  simp only [List.length_append, List.length_cons] at size
  have skipped : source.skipTrivia (position + word.length) stop =
      position + word.length + trivia.length :=
    parts.right.skipTrivia trivial (Cell.isTrivia_colon isColon).1 (by omega)
  have valued : source.skipTrivia (position + word.length + trivia.length + 1) stop =
      position + word.length + trivia.length + 1 + gap.length := by
    cases value with
    | nil =>
        rw [List.append_nil] at more
        rw [← more.tail.skipTrivia_all gap_trivial]
        congr 1
        simp only [List.length_nil] at size
        omega
    | cons cell value => exact more.tail.skipTrivia gap_trivial (boundary cell rfl) (by omega)
  have ahead : position + word.length ≤ stop ∧ position + word.length + trivia.length < stop := by
    omega
  simp only [argumentOf, named, Kind.length_chars, skipped, ahead, more.hasCodeAt, isColon, valued]
  simp
  omega

theorem argumentOf_of_not_isLabeled {source : Source} {position : Nat} {piece : List Cell}
    (unlabeled : ¬∃ label head value, IsLabeled piece label head value)
    (stands : source.Shows position piece) :
    source.argumentOf ⟨position, position + piece.length⟩ =
      ⟨none, ⟨position, position + piece.length⟩, ⟨position, position + piece.length⟩⟩ := by
  simp only [argumentOf]
  cases named : source.identifierAt? position with
  | none => rfl
  | some label =>
      simp only
      split
      · rename_i holds
        simp only [Bool.and_eq_true, decide_eq_true_eq] at holds
        obtain ⟨word, trivia, colon, rest, rfl, rfl, identifier, trivial, skipped⟩ :=
          stands.exists_word named holds.1.2
        have isColon := holds.2
        rw [skipped, stands.right.right.hasCodeAt] at isColon
        refine absurd ⟨chars word, word ++ (trivia ++ colon :: rest.takeWhile Cell.isTrivia),
          rest.dropWhile Cell.isTrivia, by simp, ?_, word, trivia, colon, _, rfl, identifier, rfl,
          trivial, isColon, ?_⟩ unlabeled
        · intro cell member
          have first := List.head?_dropWhile_not Cell.isTrivia rest
          rw [Option.mem_def.mp member] at first
          simpa using first
        · exact fun cell member => List.all_eq_true.mp List.all_takeWhile cell member
      · rfl

end Source

structure IsArray (value inner tail : List Cell) : Prop where
  inside : Balanced inner
  bracketed : ∃ opening closing rest, value = opening :: (inner ++ tail) ∧ tail = closing :: rest ∧
    opening.char = '[' ∧ Pairs opening closing

theorem IsArray.stands {source : Source} {position : Nat} {value inner tail : List Cell}
    (array : IsArray value inner tail) (stands : source.Shows position value) :
    source.Shows (position + 1) inner := by
  obtain ⟨opening, closing, rest, rfl, -⟩ := array.bracketed
  exact stands.tail.left

namespace Source

theorem arrayOf?_of_isArray {source : Source} {position : Nat} {value inner tail : List Cell}
    (array : IsArray value inner tail) (stands : source.Shows position value) :
    source.arrayOf? ⟨position, position + value.length⟩ =
      some ⟨position + 1, position + 1 + inner.length⟩ := by
  obtain ⟨inside, opening, closing, rest, rfl, rfl, isOpening, pairs⟩ := array
  have found := stands.insideBefore? pairs inside (Nat.lt_succ_self _)
  simp only [insideBefore?] at found
  cases closes : source.closing? position with
  | none => simp [closes] at found
  | some closing =>
      simp only [closes] at found
      split at found
      · simp only [arrayOf?, stands.hasCharAt, isOpening, closes]
        simpa [Span.isEmpty] using found
      · cases found

theorem arrayOf?_eq_some {source : Source} {position : Nat} {value : List Cell} {found : Span}
    (balanced : Balanced value) (stands : source.Shows position value)
    (search : source.arrayOf? ⟨position, position + value.length⟩ = some found) :
    ∃ inner tail, IsArray value inner tail ∧
      found = ⟨position + 1, position + 1 + inner.length⟩ := by
  cases value with
  | nil => simp [arrayOf?, Span.isEmpty] at search
  | cons opening value =>
      have begins := search
      simp only [arrayOf?, stands.hasCharAt] at begins
      split at begins
      · cases begins
      · rename_i holds
        obtain ⟨-, isOpening⟩ : Span.isEmpty _ = false ∧ opening.char = '[' := by
          simpa using holds
        obtain ⟨closing, closes, -⟩ := Option.map_eq_some_iff.mp begins
        have opens : opening.opens?.isSome := by
          simp only [closing?, stands.at?] at closes
          split at closes
          · assumption
          · cases closes
        generalize whole : opening :: value = cells at balanced
        cases balanced with
        | nil => cases whole
        | plain noOpening _ _ =>
            obtain rfl := (List.cons.inj whole).1
            simp [noOpening] at opens
        | @pair opening' closing' inner rest pairs inside _ =>
            obtain ⟨rfl, rfl⟩ := List.cons.inj whole
            have array : IsArray (opening :: (inner ++ closing' :: rest)) inner
                (closing' :: rest) :=
              ⟨inside, opening, closing', rest, rfl, rfl, isOpening, pairs⟩
            rw [arrayOf?_of_isArray array stands] at search
            exact ⟨inner, _, array, (Option.some.inj search).symm⟩

end Source

end SwiftWorkspace
