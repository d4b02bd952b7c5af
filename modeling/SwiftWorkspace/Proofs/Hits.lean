import SwiftWorkspace.Proofs.Labels
import SwiftWorkspace.Source.Literal
import SwiftWorkspace.Manifest.Basic

/-!
# Labels with a value

Of the labels of one name only those count that have a value of the right form:
an array, or a literal that is not empty.  How deep such labels lie in a row is
known from its elements.
-/

namespace SwiftWorkspace

def blankPoints : List Nat :=
  [9, 10, 11, 12, 13, 28, 29, 30, 31, 32, 133, 160, 5760, 8192, 8193, 8194, 8195, 8196,
    8197, 8198, 8199, 8200, 8201, 8202, 8232, 8233, 8239, 8287, 12288]

theorem of_isBlank (holds : Char → Prop) (each : ∀ point ∈ blankPoints, holds (Char.ofNat point))
    {char : Char} (blank : isBlank char) : holds char := by
  have point : char.toNat ∈ blankPoints := by
    simp only [isBlank, CodeRanges.holds, blankRanges, List.any_cons, List.any_nil,
      Bool.or_eq_true, Bool.and_eq_true, decide_eq_true_eq, Bool.or_false] at blank
    simp only [blankPoints, List.mem_cons, List.not_mem_nil, or_false]
    omega
  have same := each char.toNat point
  rwa [Char.ofNat_toNat] at same

theorem isWordChar_of_isBlank {char : Char} (blank : isBlank char) : isWordChar char = false := by
  have each : ∀ point ∈ blankPoints, isWordChar (Char.ofNat point) = false := by decide +kernel
  exact of_isBlank (isWordChar · = false) each blank

def opensArray (cells : List Cell) : Bool :=
  (cells.dropWhile Cell.isTrivia).head?.any (·.isCodeChar '[')

def textBehind? (cells : List Cell) : Option Text :=
  let literal := (cells.dropWhile Cell.isTrivia).takeWhile (·.kind = .string)
  if literal.head?.any (·.char = '"') then some (Literal.decode (Kind.chars literal)) else none

def namesText (cells : List Cell) : Bool := (filled? (textBehind? cells)).isSome

/-- Cells in front of which no literal and no array goes on or begins. -/
structure Calm (cells : List Cell) : Prop where
  head : ∀ cell ∈ cells.head?, cell.kind ≠ .string
  behind : ∀ cell ∈ (cells.dropWhile Cell.isTrivia).head?,
    cell.kind ≠ .string ∧ cell.isCodeChar '[' = false

theorem calm_cons {cell : Cell} (code : cell.kind = .code) (noTrivia : cell.isTrivia = false)
    (noArray : cell.isCodeChar '[' = false) (rest : List Cell) : Calm (cell :: rest) :=
  ⟨by simp [code], by simp [noTrivia, code, noArray]⟩

theorem Cell.kind_of_isPadding {cell : Cell} (padding : cell.isPadding) :
    cell.kind ≠ .string ∧ cell.isCodeChar '[' = false := by
  refine ⟨fun string => ?_, ?_⟩
  · simp [isPadding, isComma, isCodeChar, isCode, isSignificant, string] at padding
  · cases opening : cell.isCodeChar '[' with
    | false => rfl
    | true =>
        obtain ⟨char, kind⟩ := cell
        simp only [isCodeChar, isCode, Bool.and_eq_true, decide_eq_true_eq] at opening
        obtain ⟨rfl, rfl⟩ := opening
        exact absurd padding (by decide)

theorem calm_padding {cells : List Cell} (padding : ∀ cell ∈ cells, cell.isPadding) : Calm cells :=
  ⟨fun cell member => (Cell.kind_of_isPadding (padding cell (List.mem_of_mem_head? member))).1,
    fun cell member => Cell.kind_of_isPadding (padding cell
      (List.dropWhile_subset _ (List.mem_of_mem_head? member)))⟩

def Steady (good : List Cell → Bool) : Prop :=
  ∀ cells tail, Calm tail → good (cells ++ tail) = good cells

theorem steady_opensArray : Steady opensArray := by
  intro cells tail calm
  rw [opensArray, opensArray, List.dropWhile_append]
  cases rest : cells.dropWhile Cell.isTrivia with
  | nil =>
      have quiet := calm.behind
      cases head : (tail.dropWhile Cell.isTrivia).head? with
      | none => simp [head]
      | some cell => simp [head, (quiet cell (by simp [head])).2]
  | cons cell rest => simp

/-- A literal behind a label does not reach into cells that are no part of a literal. -/
theorem textBehind?_append (cells : List Cell) {tail : List Cell}
    (head : ∀ cell ∈ tail.head?, cell.kind ≠ .string)
    (behind : ∀ cell ∈ (tail.dropWhile Cell.isTrivia).head?, cell.kind ≠ .string) :
    textBehind? (cells ++ tail) = textBehind? cells := by
  rw [textBehind?, textBehind?, List.dropWhile_append]
  cases cells.dropWhile Cell.isTrivia with
  | nil =>
      cases dropped : tail.dropWhile Cell.isTrivia with
      | nil => simp
      | cons cell more => simp [behind cell (by simp [dropped])]
  | cons cell rest =>
      have ends : tail.takeWhile (·.kind = .string) = [] := by
        cases tail with
        | nil => rfl
        | cons first tail => simp [head first rfl]
      simp only [List.isEmpty_cons, Bool.false_eq_true, if_false, List.takeWhile_append, ends,
        List.append_nil]
      split
      · rename_i full
        have whole := List.takeWhile_prefix (fun cell : Cell => cell.kind = .string)
          (l := cell :: rest)
        rw [whole.eq_of_length full]
      · rfl

theorem steady_namesText : Steady namesText := fun cells tail calm => by
  rw [namesText, namesText, textBehind?_append cells calm.head
    fun cell found => (calm.behind cell found).1]

namespace Source

def hits (label : Text) (good : List Cell → Bool) (depth : Nat) (cells : List Cell) : List Nat :=
  ((marksFrom label 0 depth false cells).filter (good ·.behind)).map Mark.depth

section Parts

variable {label : Text} {good : List Cell → Bool} {depth : Nat}

theorem filter_extend (steady : Steady good) {tail : List Cell} (calm : Calm tail)
    (marks : List Mark) :
    ((marks.map (Mark.extend tail)).filter (good ·.behind)).map Mark.depth =
      (marks.filter (good ·.behind)).map Mark.depth := by
  rw [List.filter_map, List.map_map]
  have same : (fun mark : Mark => good mark.behind) ∘ Mark.extend tail =
      fun mark => good mark.behind := funext fun mark => steady mark.behind tail calm
  rw [same]
  rfl

/-- The hits around a cell that stops labels are those on both sides of it. -/
theorem hits_append (isLabel : IsLabel label) (steady : Steady good) {stop : Cell}
    (stops : Stops stop) (noArray : stop.isCodeChar '[' = false) (cells rest : List Cell) :
    hits label good depth (cells ++ stop :: rest) =
      hits label good depth cells ++
        hits label good (stop.depthAfter (Cell.depthOver depth cells)) rest := by
  have code : stop.kind = .code := by simpa [Cell.isCode] using stops.code
  rw [hits, marksFrom_append isLabel stops (Nat.zero_le _) (by simp), List.filter_append,
    List.map_append, filter_extend steady (calm_cons code stops.noTrivia noArray rest)]
  rfl

theorem hits_append_padding (steady : Steady good) {padding : List Cell}
    (inside : ∀ cell ∈ padding, cell.isPadding) (cells : List Cell) :
    hits label good depth (cells ++ padding) = hits label good depth cells := by
  have noColon : ∀ cell ∈ padding, cell.isCodeChar ':' = false := fun cell member =>
    isCodeChar_colon_of_isPadding (inside cell member)
  rw [hits, marksFrom_append_noColon noColon (Nat.zero_le _),
    filter_extend steady (calm_padding inside)]
  rfl

/-- Padding in front of some cells adds no hits, unless a word could go on behind it. -/
theorem hits_padding_append (isLabel : IsLabel label) {padding : List Cell}
    (inside : ∀ cell ∈ padding, cell.isPadding)
    (seam : ∀ cell ∈ padding.getLast?, cell.isWord = false) (cells : List Cell) :
    hits label good depth (padding ++ cells) = hits label good depth cells := by
  rw [hits, marksFrom_padding isLabel inside]
  cases last : padding.getLast? with
  | none => rfl
  | some cell => simp [hits, seam cell last]

theorem hits_padding {padding : List Cell} (inside : ∀ cell ∈ padding, cell.isPadding) :
    hits label good depth padding = [] := by
  have noColon : ∀ cell ∈ padding, cell.isCodeChar ':' = false := fun cell member =>
    isCodeChar_colon_of_isPadding (inside cell member)
  simp [hits, marksFrom_of_noColon noColon]

end Parts

end Source

theorem stops_of_isComma {cell : Cell} (comma : cell.isComma) : Stops cell := by
  obtain ⟨char, kind⟩ := cell
  simp only [Cell.isComma, Cell.isCodeChar, Cell.isCode, Bool.and_eq_true,
    decide_eq_true_eq] at comma
  obtain ⟨rfl, rfl⟩ := comma
  exact ⟨by decide, by decide, by decide, by decide⟩

def Row.Seamed (row : Row) : Prop :=
  ∀ entry ∈ row.entries, ∀ cell ∈ entry.1.getLast?, cell.isWord = false

namespace Source

theorem hits_entries {label : Text} (isLabel : IsLabel label) {good : List Cell → Bool}
    (steady : Steady good) (depth : Nat) {piece : List Cell}
    {entries : List (List Cell × List Cell)}
    {rest : List Cell} (balanced : Balanced piece) (solid : ∀ entry ∈ entries, Solid entry.2)
    (padding : ∀ entry ∈ entries, ∀ cell ∈ entry.1, cell.isPadding)
    (parted : ∀ entry ∈ entries, ∃ cell ∈ entry.1, cell.isComma)
    (seamed : ∀ entry ∈ entries, ∀ cell ∈ entry.1.getLast?, cell.isWord = false)
    (ends : ∀ cell ∈ rest, cell.isPadding) :
    hits label good depth (piece ++ (Row.flat entries ++ rest)) =
      hits label good depth piece ++ (entries.map Prod.snd).flatMap (hits label good depth) := by
  induction entries generalizing piece with
  | nil => simpa using hits_append_padding steady ends piece
  | cons entry entries ih =>
      obtain ⟨comma, member, isComma⟩ := parted entry (by simp)
      obtain ⟨front, back, split⟩ := List.append_of_mem member
      have inside := padding entry (by simp)
      have seam := seamed entry (by simp)
      rw [split] at inside seam
      have quiet : ∀ cell ∈ front, cell.isPadding :=
        fun cell member => inside cell (by simp [member])
      have level : Cell.depthOver depth (piece ++ front) = depth := by
        rw [Cell.depthOver_append, balanced.depthOver]
        exact (Balanced.of_noBrackets fun cell member =>
          Cell.noBrackets_of_isPadding (quiet cell member)).depthOver depth
      have noBrackets := Cell.noBrackets_of_isPadding (inside comma (by simp))
      have noArray := (Cell.kind_of_isPadding (inside comma (by simp))).2
      have whole : piece ++ (Row.flat (entry :: entries) ++ rest) =
          (piece ++ front) ++ comma :: (back ++ (entry.2 ++ (Row.flat entries ++ rest))) := by
        simp [split]
      rw [whole, hits_append isLabel steady (stops_of_isComma isComma) noArray, level,
        Cell.depthAfter_plain noBrackets.1 noBrackets.2, hits_append_padding steady quiet,
        hits_padding_append isLabel (fun cell member => inside cell (by simp [member])) ?_,
        ih (solid entry (by simp)).unbroken.balanced
          (fun other member => solid other (by simp [member]))
          (fun other member => padding other (by simp [member]))
          (fun other member => parted other (by simp [member]))
          (fun other member => seamed other (by simp [member]))]
      · simp
      · intro cell last
        exact seam cell (by simp [List.getLast?_cons, Option.mem_def.mp last])

theorem hits_row {label : Text} (isLabel : IsLabel label) {good : List Cell → Bool}
    (steady : Steady good) (depth : Nat) {row : Row} (valid : row.Valid) (seamed : row.Seamed) :
    hits label good depth row.cells = row.pieces.flatMap (hits label good depth) := by
  obtain ⟨entries, rest⟩ := row
  cases entries with
  | nil => simpa [Row.cells, Row.pieces] using hits_padding valid.rest
  | cons entry entries =>
      rw [Row.cells, Row.flat_cons, List.append_assoc, List.append_assoc,
        hits_padding_append isLabel (valid.padding entry (by simp)) (seamed entry (by simp))]
      exact hits_entries isLabel steady depth (valid.solid entry (by simp)).unbroken.balanced
          (fun other member => valid.solid other (List.mem_of_mem_tail member))
          (fun other member => valid.padding other (List.mem_of_mem_tail member)) valid.parted
          (fun other member => seamed other (List.mem_of_mem_tail member)) valid.rest

end Source

end SwiftWorkspace
