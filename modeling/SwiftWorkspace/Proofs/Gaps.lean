import SwiftWorkspace.Proofs.Boundaries
import SwiftWorkspace.Proofs.Remainders
import SwiftWorkspace.Proofs.Settled

/-!
# What the cuts between elements leave

A deletion cuts an element that goes and the start of the gap behind it.  The cut ends where
the pass is in code: behind a separator, behind blanks or behind the end of a line.  So of a
run of elements that go padding is left that is read on its own.
-/

namespace SwiftWorkspace

open Kind (Clear Firm Scans Settled chars isClosed)

theorem uncovered_covers_congr {α : Type} {spans others : List Span} {position : Nat}
    {values : List α}
    (left : ∀ span ∈ spans, span ∈ others ∨ span.stop ≤ position ∨
      position + values.length ≤ span.start)
    (right : ∀ span ∈ others, span ∈ spans ∨ span.stop ≤ position ∨
      position + values.length ≤ span.start) :
    uncovered (Span.covers spans) position values =
      uncovered (Span.covers others) position values := by
  refine uncovered_congr fun offset within => ?_
  rw [Bool.eq_iff_iff, Span.covers_eq_true_iff, Span.covers_eq_true_iff]
  constructor
  · rintro ⟨span, member, held⟩
    rcases left span member with inside | apart | apart
    · exact ⟨span, inside, held⟩
    · omega
    · omega
  · rintro ⟨span, member, held⟩
    rcases right span member with inside | apart | apart
    · exact ⟨span, inside, held⟩
    · omega
    · omega

theorem uncovered_of_apart {α : Type} {spans : List Span} {position : Nat} {values : List α}
    (apart : ∀ span ∈ spans, span.stop ≤ position ∨ position + values.length ≤ span.start) :
    uncovered (Span.covers spans) position values = values := by
  rw [uncovered_covers_congr (fun span member => .inr (apart span member))
    (by simp : ∀ span ∈ [], _)]
  exact uncovered_of_not_covered fun _ _ _ => rfl

/-- A span that holds all of some values leaves none of them. -/
theorem uncovered_of_mem {α : Type} {spans : List Span} {span : Span} {position : Nat}
    {values : List α}
    (member : span ∈ spans) (start : span.start ≤ position)
    (stop : position + values.length ≤ span.stop) :
    uncovered (Span.covers spans) position values = [] :=
  uncovered_of_covered fun place _ _ => Span.covers_eq_true_iff.mpr ⟨span, member, by omega⟩

theorem uncovered_gap {piece gap behind : List Cell} {cuts : List Span} {position count : Nat}
    (within : count ≤ gap.length)
    (later : ∀ cut ∈ cuts, position + piece.length + gap.length ≤ cut.start) :
    uncovered (Span.covers (⟨position, position + piece.length + count⟩ :: cuts)) position
        (piece ++ (gap ++ behind)) =
      gap.drop count ++ uncovered (Span.covers cuts)
        (position + piece.length + gap.length) behind := by
  have taken : (gap.take count).length = count := by
    rw [List.length_take]
    omega
  have size := List.length_drop (i := count) (l := gap)
  have split : piece ++ (gap ++ behind) =
      piece ++ (gap.take count ++ (gap.drop count ++ behind)) := by
    rw [← List.append_assoc (gap.take count), List.take_append_drop]
  rw [split, uncovered_append, uncovered_append, uncovered_append,
    uncovered_of_mem (.head _) (Nat.le_refl _) (by simp only; omega),
    uncovered_of_mem (.head _) (by simp only; omega) (by simp only [taken]; omega), List.nil_append,
    List.nil_append, uncovered_of_apart]
  · congr 1
    rw [taken, size]
    have place : position + piece.length + count + (gap.length - count) =
        position + piece.length + gap.length := by omega
    rw [place]
    exact uncovered_covers_congr (by grind) (by grind)
  · rw [taken, size]
    refine List.forall_mem_cons.mpr ⟨.inl (by simp only; omega), fun cut member => .inr ?_⟩
    have := later cut member
    omega

namespace Source

variable {source : Source} {position : Nat} {cells : List Cell}

/-- The blanks at the start of padding can be cut. -/
theorem Shows.exists_blanks (stands : source.Shows position cells)
    (slack : Slack cells) {stop : Nat} (size : stop = position + cells.length) :
    ∃ count, count ≤ cells.length ∧ Slack (cells.drop count) ∧
      ((source.textIn ⟨position, stop⟩).takeWhile fun char => char = ' ' || char = '\t').length =
        count := by
  have blank (cell : Cell) (holds : (cell.char = ' ' || cell.char = '\t') = true) :
      isBlank cell.char := by
    rcases Bool.or_eq_true_iff.mp holds with space | tab
    · rw [of_decide_eq_true space]
      decide
    · rw [of_decide_eq_true tab]
      decide
  have rest := slack.dropWhile_blank blank
  have split : cells.takeWhile (fun cell => cell.char = ' ' || cell.char = '\t') ++
      cells.dropWhile (fun cell => cell.char = ' ' || cell.char = '\t') = cells :=
        List.takeWhile_append_dropWhile
  rw [size, stands.textIn, chars, List.takeWhile_map, List.length_map]
  refine ⟨_, (List.takeWhile_prefix _).length_le, ?_, rfl⟩
  have dropped :=
    congrArg (List.drop (cells.takeWhile fun cell => cell.char = ' ' || cell.char = '\t').length)
    split
  rw [List.drop_left] at dropped
  exact dropped ▸ rest

/-- A cut that goes over the end of a line takes the line feed along. -/
theorem Shows.exists_nextLine (stands : source.Shows position cells) (slack : Slack cells)
    (feeds : ∀ cell ∈ cells, cell.kind = .comment → cell.char ≠ '\n') (starts : Bool) :
    ∃ passed more, cells = passed ++ more ∧ Slack more ∧
      (if starts && decide (position + endOfLine cells < position + cells.length) &&
          source.hasCharAt (position + endOfLine cells) '\n' then position + endOfLine cells + 1
        else position) = position + passed.length := by
  split
  case isTrue holds =>
    obtain ⟨⟨-, within⟩, isFeed⟩ :
        (starts = true ∧ position + endOfLine cells < position + cells.length) ∧
        source.hasCharAt (position + endOfLine cells) '\n' = true := by simpa using holds
    have taken : (cells.take (endOfLine cells)).length = endOfLine cells := by
      rw [List.length_take]
      omega
    have split := List.take_append_drop (endOfLine cells) cells
    generalize cells.take (endOfLine cells) = line at taken split
    rw [← taken] at isFeed split ⊢
    cases dropped : cells.drop line.length with
    | nil =>
        have := List.drop_eq_nil_iff.mp dropped
        omega
    | cons feed more =>
        rw [dropped] at split
        subst split
        rw [stands.right.hasCharAt, decide_eq_true_eq] at isFeed
        obtain ⟨rfl, slack_feed⟩ := slack.drop_feed isFeed (feeds feed (by simp))
        have single_feed : Slack ([⟨'\n', .code⟩] ++ more) := slack_feed
        refine ⟨line ++ [⟨'\n', .code⟩], more, by simp, single_feed.behind rfl rfl, ?_⟩
        simp [Nat.add_assoc]
  case isFalse => exact ⟨[], cells, rfl, slack, rfl⟩

theorem exists_cutEnd {element following : Span} {gap : List Cell}
    (shown : source.Shows element.stop gap)
    (slack : Slack gap) (feeds : ∀ cell ∈ gap, cell.kind = .comment → cell.char ≠ '\n')
    (size : following.start = element.stop + gap.length) :
    ∃ count, count ≤ gap.length ∧ Slack (gap.drop count) ∧
      source.cutEnd element following = element.stop + count := by
  rw [cutEnd, size, shown.commaAfter?]
  rcases padding_eq slack.padding with trivial | ⟨trivia, comma, behind, rfl, trivial, isComma⟩
  · refine ⟨gap.length, Nat.le_refl _, by simp [Slack.nil], ?_⟩
    rw [commaIn?_of_trivia trivial, Option.map_none]
  · have shown_behind : source.Shows (element.stop + trivia.length + 1) behind := shown.right.tail
    have ends : element.stop + (trivia ++ comma :: behind).length =
        element.stop + trivia.length + 1 + behind.length := by
      simp only [List.length_append, List.length_cons]
      omega
    have slack_behind : Slack behind := by
      rw [← List.singleton_append, ← List.append_assoc] at slack
      exact slack.behind (List.getLast?_concat ..) (congrArg Cell.kind (Row.eq_commaCell isComma))
    rw [commaIn?_append trivial isComma, Option.map_some, ends]
    simp only [shown_behind.endOfLineAfter]
    obtain ⟨passed, more, whole, slack_more, place⟩ := shown_behind.exists_nextLine slack_behind
      (fun cell member => feeds cell (by simp [member])) (source.startsLine element.start)
    have shown_more : source.Shows (element.stop + trivia.length + 1 + passed.length) more := by
      rw [whole] at shown_behind
      exact shown_behind.right
    have stop : element.stop + trivia.length + 1 + behind.length =
        element.stop + trivia.length + 1 + passed.length + more.length := by
      rw [whole, List.length_append]
      omega
    obtain ⟨count, within, rest, blanks⟩ := shown_more.exists_blanks slack_more stop
    refine ⟨trivia.length + 1 + passed.length + count, ?_, ?_, ?_⟩
    · simp only [whole, List.length_append, List.length_cons]
      omega
    · have front : trivia ++ comma :: behind = (trivia ++ comma :: passed) ++ more := by
        simp [whole]
      have size : trivia.length + 1 + passed.length = (trivia ++ comma :: passed).length := by
        simp only [List.length_append, List.length_cons]
        omega
      rwa [front, size, List.drop_length_add_append]
    · rw [place, blanks]
      omega

/-- The cuts of a run of elements that go, apart from those of the last one. -/
def gapCuts (source : Source) : List Span → List Span
  | element :: following :: elements =>
      ⟨element.start, source.cutEnd element following⟩ :: source.gapCuts (following :: elements)
  | _ => []

theorem cutsFrom_going {array : Span} {goes : Span → Bool} {kept run : Option Span}
    {element following : Span} {elements : List Span} (going : goes element = true) :
    source.cutsFrom array goes kept run (element :: following :: elements) =
      ⟨element.start, source.cutEnd element following⟩ ::
        source.cutsFrom array goes kept (some (run.getD element)) (following :: elements) := by
  rw [cutsFrom, if_pos going]

theorem cutsFrom_staying {array : Span} {goes : Span → Bool} {kept run : Option Span}
    {element : Span} {elements : List Span} (staying : goes element = false) :
    source.cutsFrom array goes kept run (element :: elements) =
      source.cutsFrom array goes (some element) none elements := by
  rw [cutsFrom, if_neg (by simp [staying])]

theorem cutsFrom_run {array : Span} {goes : Span → Bool} {kept run : Option Span}
    {first last : Span}
    {elements : List Span} (gone : ∀ element ∈ first :: elements, goes element = true)
    (ends : last ∈ (first :: elements).getLast?) :
    source.cutsFrom array goes kept run (first :: elements) =
      source.gapCuts (first :: elements) ++ source.lastCuts array last (run.getD first) kept := by
  induction elements generalizing first run with
  | nil =>
      obtain rfl : first = last := by simpa using ends
      simp [cutsFrom, gapCuts, gone]
  | cons following elements ih =>
      have more := @ih (some (run.getD first)) following
        (fun element member => gone element (.tail _ member))
        (by simpa using ends)
      rw [cutsFrom_going (gone first (.head _)), gapCuts, List.cons_append]
      exact congrArg (_ :: ·) more

/-- The cuts between elements of a run begin with an element and end before the next one. -/
theorem gapCuts_bounds {limit : Nat} {first last : Span} {elements : List Span}
    (inOrder : InOrder limit (first :: elements)) (ends : last ∈ (first :: elements).getLast?) :
    first.start ≤ last.start ∧
      ∀ cut ∈ source.gapCuts (first :: elements), first.start ≤ cut.start ∧
        cut.stop ≤ last.start := by
  induction elements generalizing first with
  | nil =>
      obtain rfl : first = last := by simpa using ends
      exact ⟨Nat.le_refl _, by simp [gapCuts]⟩
  | cons following elements ih =>
      obtain ⟨starts, cuts⟩ := ih inOrder.tail (by simpa using ends)
      have next := inOrder.head following (.head _)
      have filled := inOrder.filled first (.head _)
      refine ⟨by omega, fun cut member => ?_⟩
      rcases List.mem_cons.mp member with rfl | later
      · have stops := source.cutEnd_bounds next
        simp only
        omega
      · have bounds := cuts cut later
        omega

theorem exists_lastCuts (source : Source) (array : Span) {element : Span} (run kept : Span)
    (starts : source.startsLine element.start = true) :
    ∃ separators, source.lastCuts array element run (some kept) = separators ++
        [⟨(source.lastLineFeed? kept.stop run.start).getD element.start,
          source.lineEndBehind array element⟩] ∧
      (separators = [] ∨ ∃ comma, source.commaAfter? kept.stop element.start = some comma ∧
        separators = [⟨comma, comma + 1⟩]) := by
  simp only [lastCuts, starts, if_true, lineEndBehind]
  cases source.commaAfter? element.stop array.stop with
  | some comma => exact ⟨[], rfl, .inl rfl⟩
  | none =>
      cases found : source.commaAfter? kept.stop element.start with
      | none => exact ⟨[], rfl, .inl rfl⟩
      | some comma => exact ⟨_, rfl, .inr ⟨comma, rfl, rfl⟩⟩

end Source

theorem exists_uncovered_comma {trivia behind first last : List Cell} {comma : Cell}
    {separators : List Span}
    {position : Nat} {rest : Text} {final : Kind.Mode} (slack : Slack (trivia ++ comma :: behind))
    (isComma : comma.isComma) (whole : first ++ last = trivia ++ comma :: behind)
    (scans : Scans .code first rest final)
    (cuts : separators = [] ∨
      separators = [⟨position + trivia.length, position + trivia.length + 1⟩]) :
    Scans .code (uncovered (Span.covers separators) position first) rest final := by
  rcases cuts with rfl | rfl
  · rwa [uncovered_of_apart (by simp)]
  · rcases Nat.lt_or_ge trivia.length first.length with inside | outside
    · obtain ⟨more, rfl⟩ : ∃ more, first = trivia ++ comma :: more := by
        rcases List.append_eq_append_iff.mp whole with ⟨more, split, -⟩ | ⟨more, split, same⟩
        · have := congrArg List.length split
          simp only [List.length_append] at this
          omega
        · cases more with
          | nil => simp [split] at inside
          | cons other more => exact ⟨more, by rw [split, (List.cons.inj same).1]⟩
      have code : comma.kind = .code := congrArg Cell.kind (Row.eq_commaCell isComma)
      have parts : trivia ++ comma :: more = (trivia ++ [comma]) ++ more := by simp
      rw [parts] at scans
      have cut : uncovered (Span.covers [⟨position + trivia.length, position + trivia.length + 1⟩])
          position
          (trivia ++ ([comma] ++ more)) = trivia ++ more := Span.uncovered_cut rfl rfl
      rw [List.singleton_append] at cut
      rw [cut]
      exact ((slack.before isComma).settled _).append
        (scans.cut_behind (List.getLast?_concat ..) code).2
    · rwa [uncovered_of_apart]
      refine List.forall_mem_singleton.mpr (.inr ?_)
      simp only
      omega

/-- An element in front of which the padding is read on its own, and that is firm if it stays. -/
structure Loose (gone : List Cell → Bool) (entry : List Cell × List Cell) : Prop where
  solid : Solid entry.2
  slack : Slack entry.1
  feeds : ∀ cell ∈ entry.1, cell.kind = .comment → cell.char ≠ '\n'
  firm : gone entry.2 = false → Firm entry.2

namespace Row

variable {source : Source} {array : Span} {piece rest : List Cell}
    {entries : List (List Cell × List Cell)}
  {gone : List Cell → Bool} {position : Nat}

def spansWith (position : Nat) (piece : List Cell) (entries : List (List Cell × List Cell)) :
    List Span :=
  ⟨position, position + piece.length⟩ :: spansFrom (position + piece.length) entries

@[simp] theorem spansWith_nil :
    spansWith position piece [] = [⟨position, position + piece.length⟩] := rfl

@[simp] theorem spansWith_cons {padding next : List Cell} :
    spansWith position piece ((padding, next) :: entries) =
    ⟨position, position + piece.length⟩ :: spansWith (position + piece.length + padding.length)
      next entries := rfl

theorem exists_getLast?_spansWith (position : Nat) (piece : List Cell)
    (entries : List (List Cell × List Cell)) :
    ∃ last, last ∈ (spansWith position piece entries).getLast? :=
  ⟨_, List.getLast?_eq_some_getLast (List.cons_ne_nil _ _)⟩

theorem gapCuts_spansWith {limit : Nat} {last : Span}
    (inOrder : Source.InOrder limit (spansWith position piece entries))
    (ends : last ∈ (spansWith position piece entries).getLast?) :
    position ≤ last.start ∧
      ∀ cut ∈ source.gapCuts (spansWith position piece entries), position ≤ cut.start ∧
        cut.stop ≤ last.start :=
  source.gapCuts_bounds inOrder ends

/-- A run of elements that go leaves padding. -/
theorem slack_uncovered_run {count limit : Nat} {last : Span}
    (loose : ∀ entry ∈ entries, Loose gone entry)
    (stands : source.Shows position (piece ++ (flat entries ++ rest)))
    (inOrder : Source.InOrder limit (spansWith position piece entries))
    (ends : last ∈ (spansWith position piece entries).getLast?)
    (within : count ≤ rest.length) (slack : Slack (rest.drop count)) :
    Slack (uncovered (Span.covers (source.gapCuts (spansWith position piece entries) ++
        [⟨last.start, last.stop + count⟩]))
      position (piece ++ (flat entries ++ rest))) := by
  induction entries generalizing piece position with
  | nil =>
      obtain rfl : ⟨position, position + piece.length⟩ = last := by simpa using ends
      have cut : uncovered (Span.covers [⟨position, position + piece.length + count⟩]) position
          (piece ++ (rest ++ [])) = rest.drop count ++ uncovered (Span.covers []) _ [] :=
        uncovered_gap within (by simp)
      rw [uncovered_nil, List.append_nil, List.append_nil] at cut
      simpa only [spansWith_nil, Source.gapCuts, flat_nil, List.nil_append, cut] using slack
  | cons entry entries ih =>
      obtain ⟨padding, next⟩ := entry
      have here := loose (padding, next) (.head _)
      have parts : piece ++ (flat ((padding, next) :: entries) ++ rest) =
          piece ++ (padding ++ (next ++ (flat entries ++ rest))) := by
        simp
      rw [parts] at stands ⊢
      rw [spansWith_cons] at inOrder ends ⊢
      have ends_tail : last ∈
          (spansWith (position + piece.length + padding.length) next entries).getLast? := by
        simpa [spansWith] using ends
      obtain ⟨gap, gap_le, gap_slack, place⟩ : ∃ count, count ≤ padding.length ∧
          Slack (padding.drop count) ∧
          source.cutEnd ⟨position, position + piece.length⟩
            ⟨position + piece.length + padding.length,
            position + piece.length + padding.length + next.length⟩ =
              position + piece.length + count :=
        Source.exists_cutEnd stands.right.left here.slack here.feeds rfl
      obtain ⟨starts, bounds⟩ := source.gapCuts_bounds inOrder.tail ends_tail
      rw [spansWith, Source.gapCuts, place, List.cons_append, ← spansWith, uncovered_gap gap_le]
      · exact gap_slack.append
          (ih (fun entry member => loose entry (.tail _ member)) stands.right.right
          inOrder.tail ends_tail)
      · intro cut member
        rcases List.mem_append.mp member with gap | last
        · exact (bounds cut gap).1
        · rw [List.mem_singleton.mp last]
          exact starts

theorem stop_of_getLast?_spansFrom {last : Span}
    (ends : last ∈ (spansFrom position entries).getLast?) :
    last.stop = position + (flat entries).length := by
  rcases entries.eq_nil_or_concat with rfl | ⟨front, ⟨padding, piece⟩, rfl⟩
  · cases ends
  · rw [List.concat_eq_append, spansFrom_append, spansFrom, spansFrom, List.getLast?_concat] at ends
    rw [← Option.some.inj ends]
    simp only [List.concat_eq_append, flat_append, flat_cons, flat_nil, List.append_nil,
      List.length_append]
    omega

theorem stop_of_getLast?_spansWith {last : Span}
    (ends : last ∈ (spansWith position piece entries).getLast?) :
    last.stop = position + (piece ++ flat entries).length := by
  have spans : spansWith position piece entries = spansFrom position (([], piece) :: entries) := rfl
  rw [spans] at ends
  simpa using stop_of_getLast?_spansFrom ends

theorem shows_rest {last : Span} (stands : source.Shows position (piece ++ (flat entries ++ rest)))
    (ends : last ∈ (spansWith position piece entries).getLast?) : source.Shows last.stop rest := by
  rw [stop_of_getLast?_spansWith ends]
  rw [← List.append_assoc] at stands
  exact stands.right

/--
A last cut that ends in the padding behind the elements leaves what is in front of it, and the
end of that.
-/
theorem uncovered_last {others : List Span} {before middle : List Cell} {stop count : Nat}
    (place : stop = position + before.length + middle.length) (within : count ≤ rest.length)
    (early : ∀ cut ∈ others, cut.stop ≤ stop) :
    uncovered (Span.covers (others ++ [⟨position + before.length, stop + count⟩])) position
        (before ++ (middle ++ rest)) =
      uncovered (Span.covers others) position before ++ rest.drop count := by
  have taken : (rest.take count).length = count := by
    rw [List.length_take]
    omega
  have split : before ++ (middle ++ rest) =
      before ++ ((middle ++ rest.take count) ++ rest.drop count) := by
    rw [List.append_assoc, List.take_append_drop]
  have covered : position + before.length + (middle ++ rest.take count).length = stop + count := by
    rw [List.length_append, taken]
    omega
  have front : uncovered (Span.covers (others ++ [⟨position + before.length, stop + count⟩]))
      position before =
      uncovered (Span.covers others) position before := by
    refine uncovered_covers_congr (fun cut member => ?_) fun cut member =>
      .inl (List.mem_append_left _ member)
    rcases List.mem_append.mp member with other | last
    · exact .inl other
    · rw [List.mem_singleton.mp last]
      exact .inr (.inr (Nat.le_refl _))
  have back : uncovered (Span.covers (others ++ [⟨position + before.length, stop + count⟩]))
      (stop + count)
      (rest.drop count) = rest.drop count := by
    refine uncovered_of_apart fun cut member => .inl ?_
    rcases List.mem_append.mp member with other | last
    · exact Nat.le_add_right_of_le (early cut other)
    · rw [List.mem_singleton.mp last]
  rw [split, uncovered_append, uncovered_append, covered, front, back, uncovered_of_mem
    (List.mem_append_right _ (.head _)) (Nat.le_refl _) (Nat.le_of_eq covered), List.nil_append]

theorem slack_append {front tail : List Cell} {behind : Text} {middle : Kind.Mode}
    (scans : Scans .code front behind middle) (padding : ∀ cell ∈ front, cell.isPadding)
    (slack : Slack tail)
    (ends : middle = .code ∨ middle = .lineComment ∧ ⟨'\n', .code⟩ ∈ tail.head?) :
    Slack (front ++ tail) := by
  rcases ends with rfl | ⟨rfl, feed⟩
  · exact .append ⟨padding, scans.clear⟩ slack
  · obtain ⟨more, rfl⟩ := List.head?_eq_some_iff.mp feed
    have scans_feed : Scans .code ([] ++ ⟨'\n', .code⟩ :: more) [] .code := slack.clear
    obtain ⟨-, -, -, enters⟩ := scans_feed.cut_feed
    refine ⟨fun cell member => (List.mem_append.mp member).elim (padding cell)
      (slack.padding cell), ?_⟩
    exact (scans.exchange (.inr rfl) (by simp)).append (enters .lineComment (.inr rfl))

end Row

end SwiftWorkspace
