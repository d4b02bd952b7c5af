import SwiftWorkspace.Proofs.Boundaries
import SwiftWorkspace.Proofs.Gaps

/-!
# Deletions among comments

A cut of a deletion begins in front of an element or at a line feed, and it ends behind a
separator, behind blanks or at a line feed.  The pass is in code there, or in a line comment
that a line feed ends.  So what a deletion leaves is read as before, unless it takes
away the line feed behind a line comment.
-/

namespace SwiftWorkspace

open Kind (Clear Firm Scans chars isClosed)

namespace Row

variable {source : Source} {array : Span} {piece rest : List Cell}
    {entries : List (List Cell × List Cell)}
  {gone : List Cell → Bool} {position : Nat}

section Behind

variable {goes : Span → Bool} {kept last : Span} {padding trivia behind : List Cell} {comma : Cell}
  {others separators : List Span} {limit stop count : Nat}

/--
A last cut that begins at a line feed leaves padding, if it ends at one or the line feed ends no
comment.
-/
theorem slack_uncovered_line {before line middle : List Cell}
    (slack : Slack (before ++ ⟨'\n', .code⟩ :: line))
    (whole : before ++ ⟨'\n', .code⟩ :: line = trivia ++ comma :: behind) (isComma : comma.isComma)
    (cuts : separators = [] ∨
      separators = [⟨position + trivia.length, position + trivia.length + 1⟩])
    (place : stop = position + (before ++ ⟨'\n', .code⟩ :: line).length + middle.length)
    (bounds : ∀ cut ∈ others, position + (before ++ ⟨'\n', .code⟩ :: line).length ≤ cut.start ∧
      cut.stop ≤ stop)
    (within : count ≤ rest.length) (tail : Slack (rest.drop count))
    (ends : isClosed (chars before) ∨ ⟨'\n', .code⟩ ∈ (rest.drop count).head?) :
    Slack (uncovered
      (Span.covers (others ++ (separators ++ [⟨position + before.length, stop + count⟩]))) position
      (before ++ ⟨'\n', .code⟩ :: line ++ (middle ++ rest))) := by
  obtain ⟨final, settled, scans, -⟩ := Scans.cut_feed slack.clear
  have sizes := congrArg List.length whole
  simp only [List.length_append, List.length_cons] at sizes place bounds
  have early : ∀ cut ∈ others ++ separators, cut.stop ≤ stop := by
    intro cut member
    rcases List.mem_append.mp member with other | separator
    · exact (bounds cut other).2
    · rcases cuts with rfl | rfl
      · cases separator
      · rw [List.mem_singleton.mp separator]
        simp only
        omega
  have parts : before ++ ⟨'\n', .code⟩ :: line ++ (middle ++ rest) =
      before ++ ((⟨'\n', .code⟩ :: line ++ middle) ++ rest) := by
    simp
  have only : uncovered (Span.covers (others ++ separators)) position before =
      uncovered (Span.covers separators) position before := by
    refine uncovered_covers_congr (fun cut member => ?_) fun cut member =>
      .inl (List.mem_append_right _ member)
    refine (List.mem_append.mp member).elim (fun other => .inr (.inr ?_)) .inl
    have := (bounds cut other).1
    omega
  rw [parts, ← List.append_assoc others, uncovered_last _ within early, only]
  · refine slack_append (exists_uncovered_comma (whole ▸ slack) isComma whole scans cuts)
      (fun cell member => ?_) tail ?_
    · exact slack.padding cell (List.mem_append_left _ (mem_of_mem_uncovered member))
    · rcases ends with closed | feed
      · exact .inl (scans.code_of_isClosed settled closed)
      · exact settled.imp_right fun comment => ⟨comment, feed⟩
  · simp only [List.length_append, List.length_cons]
    omega

/-- Without such a line feed the padding stays, but for its comma. -/
theorem slack_uncovered_separators (slack : Slack padding)
    (whole : padding = trivia ++ comma :: behind) (isComma : comma.isComma)
    (cuts : separators = [] ∨
      separators = [⟨position + trivia.length, position + trivia.length + 1⟩])
    (loose : ∀ entry ∈ entries, Loose gone entry)
    (stands : source.Shows (position + padding.length) (piece ++ (flat entries ++ rest)))
    (inOrder : Source.InOrder limit (spansWith (position + padding.length) piece entries))
    (ends : last ∈ (spansWith (position + padding.length) piece entries).getLast?)
    (within : count ≤ rest.length) (tail : Slack (rest.drop count)) :
    Slack (uncovered
      (Span.covers (source.gapCuts (spansWith (position + padding.length) piece entries) ++
        (separators ++ [⟨last.start, last.stop + count⟩]))) position
      (padding ++ (piece ++ (flat entries ++ rest)))) := by
  obtain ⟨starts, bounds⟩ : position + padding.length ≤ last.start ∧ ∀ cut ∈ source.gapCuts _, _ :=
    gapCuts_spansWith inOrder ends
  have sizes := congrArg List.length whole
  simp only [List.length_append, List.length_cons] at sizes
  have in_padding : ∀ cut ∈ separators, cut.stop ≤ position + padding.length := by
    intro cut member
    rcases cuts with rfl | rfl
    · cases member
    · rw [List.mem_singleton.mp member]
      simp only
      omega
  generalize gaps : source.gapCuts (spansWith (position + padding.length) piece entries) =
    others at bounds ⊢
  have front : uncovered (Span.covers (others ++ (separators ++ [⟨last.start, last.stop + count⟩])))
      position
      padding = uncovered (Span.covers separators) position padding := by
    refine uncovered_covers_congr (fun cut member => ?_) fun cut member => .inl (by simp [member])
    rcases List.mem_append.mp member with other | member
    · exact .inr (.inr (bounds cut other).1)
    · refine (List.mem_append.mp member).imp id fun last => .inr ?_
      rw [List.mem_singleton.mp last]
      exact starts
  have back : uncovered (Span.covers (others ++ (separators ++ [⟨last.start, last.stop + count⟩])))
      (position + padding.length) (piece ++ (flat entries ++ rest)) =
        uncovered (Span.covers (others ++ [⟨last.start, last.stop + count⟩]))
          (position + padding.length)
          (piece ++ (flat entries ++ rest)) := by
    refine uncovered_covers_congr (fun cut member => ?_) fun cut member => .inl ?_
    · by_cases separator : cut ∈ separators
      · exact .inr (.inl (in_padding cut separator))
      · exact .inl (by simpa [separator] using member)
    · simp only [List.mem_append] at member ⊢
      exact member.imp_right .inr
  rw [uncovered_append, front, back]
  refine .append ⟨fun cell member => slack.padding cell (mem_of_mem_uncovered member), ?_⟩ ?_
  · exact (exists_uncovered_comma (whole ▸ slack) isComma (by rw [List.append_nil, whole])
      slack.clear cuts).clear
  · rw [← gaps]
    exact slack_uncovered_run loose stands inOrder ends within tail

theorem exists_separators {run : Span} (slack : Slack padding)
    (parted : ∃ cell ∈ padding, cell.isComma)
    (stands : source.Shows kept.stop padding) (within : kept.stop + padding.length ≤ last.start)
    (starts : source.startsLine last.start = true) :
    ∃ separators trivia comma behind, padding = trivia ++ comma :: behind ∧ comma.isComma ∧
      source.lastCuts array last run (some kept) = separators ++
        [⟨(source.lastLineFeed? kept.stop run.start).getD last.start,
          source.lineEndBehind array last⟩] ∧
      (separators = [] ∨ separators =
        [⟨kept.stop + trivia.length, kept.stop + trivia.length + 1⟩]) := by
  obtain ⟨separators, cuts, separated⟩ := source.exists_lastCuts array run kept starts
  obtain ⟨trivia, comma, behind, rfl, trivial, isComma⟩ : ∃ trivia comma behind,
      padding = trivia ++ comma :: behind ∧ (∀ cell ∈ trivia, cell.isTrivia) ∧ comma.isComma := by
    refine (padding_eq slack.padding).resolve_left fun trivial => ?_
    obtain ⟨cell, member, isComma⟩ := parted
    have trivia := trivial cell member
    rw [eq_commaCell isComma] at trivia
    exact absurd trivia (by decide)
  refine ⟨separators, trivia, comma, behind, rfl, isComma, cuts, separated.imp_right ?_⟩
  rintro ⟨found, search, rfl⟩
  rw [stands.commaAfter?_of_comma trivial isComma] at search
  · rw [Option.some.inj search]
  · simp only [List.length_append, List.length_cons] at within
    omega

/--
What is left behind the last element that stays is padding.  Its cut can begin at a line
feed.  If that ends a line comment, the cut has to end at a line feed, too.
-/
theorem slack_uncovered_behind (first : Loose gone (padding, piece))
    (parted : ∃ cell ∈ padding, cell.isComma)
    (loose : ∀ entry ∈ entries, Loose gone entry) (slack : Slack rest)
    (feeds : ∀ cell ∈ rest, cell.kind = .comment → cell.char ≠ '\n')
    (stands : source.Shows kept.stop (padding ++ (piece ++ (flat entries ++ rest))))
    (size : array.stop = kept.stop + (padding ++ (piece ++ (flat entries ++ rest))).length)
    (inOrder : Source.InOrder limit (spansWith (kept.stop + padding.length) piece entries))
    (goes_all : ∀ span ∈ spansWith (kept.stop + padding.length) piece entries, goes span = true)
    (ends : last ∈ (spansWith (kept.stop + padding.length) piece entries).getLast?)
    (ended : source.startsLine last.start →
      ∀ before line, padding = before ++ ⟨'\n', .code⟩ :: line →
      (∀ cell ∈ line, cell.char ≠ '\n') → isClosed (chars before) ∨
        (behindComma rest)[endOfLine (behindComma rest)]? = some ⟨'\n', .code⟩) :
    Slack (uncovered (Span.covers (source.cutsFrom array goes (some kept) none
        (spansWith (kept.stop + padding.length) piece entries)))
      kept.stop (padding ++ (piece ++ (flat entries ++ rest)))) := by
  obtain ⟨starts, bounds⟩ := source.gapCuts_bounds inOrder ends
  have stop := stop_of_getLast?_spansWith ends
  have filled := inOrder.filled last (List.mem_of_getLast? ends)
  have early : ∀ cut ∈ source.gapCuts (spansWith (kept.stop + padding.length) piece entries),
      cut.stop ≤ last.stop :=
    fun cut member => (bounds cut member).2.trans filled.1.le
  rw [spansWith, Source.cutsFrom_run goes_all ends, Option.getD_none, ← spansWith]
  cases line_starts : source.startsLine last.start with
  | false =>
      have inline : source.lastCuts array last ⟨kept.stop + padding.length,
          kept.stop + padding.length + piece.length⟩ (some kept) = [⟨kept.stop, last.stop⟩] := by
        simp [Source.lastCuts, line_starts]
      have parts : padding ++ (piece ++ (flat entries ++ rest)) =
          (padding ++ (piece ++ flat entries)) ++ rest := by
        simp
      have place : kept.stop + (padding ++ (piece ++ flat entries)).length = last.stop := by
        rw [stop, List.length_append, Nat.add_assoc]
      rw [inline, parts, uncovered_append, place,
        uncovered_of_mem (List.mem_append_right _ (.head _))
        (Nat.le_refl _) place.le, List.nil_append, uncovered_of_apart]
      · exact slack
      · intro cut member
        rcases List.mem_append.mp member with gap | final
        · exact .inl (early cut gap)
        · exact .inl (List.mem_singleton.mp final ▸ Nat.le_refl _)
  | true =>
      have size_rest : array.stop = last.stop + rest.length := by
        simp only [size, stop, List.length_append]
        omega
      obtain ⟨front, whole, comma, -, place⟩ :=
        (shows_rest stands.right ends).exists_lineEndBehind slack.padding
        size_rest
      obtain ⟨within, tail, head⟩ := slack.drop_lineEnd feeds whole comma
      have stands_padding := stands.left
      obtain ⟨separators, trivia, comma, behind, split, isComma, cuts, separated⟩ :=
        exists_separators first.slack parted stands_padding starts line_starts
      rw [cuts, place, Nat.add_assoc last.stop]
      -- Where no line feed stands in the padding, only its comma is cut.
      obtain ⟨before, line, split_line, feed, noFeed⟩ := Source.exists_line padding
      rcases before.eq_nil_or_concat with rfl | ⟨before, last_feed, rfl⟩
      · obtain rfl : padding = line := split_line
        rw [stands_padding.lastLineFeed?_eq_none noFeed rfl, Option.getD_none]
        exact slack_uncovered_separators first.slack split isComma separated loose
          stands.right inOrder ends
          within tail
      · rw [List.concat_eq_append, List.append_assoc, List.singleton_append] at split_line
        rw [List.concat_eq_append] at feed
        have slack_padding := split_line ▸ first.slack
        obtain ⟨rfl, -⟩ := slack_padding.drop_feed (feed last_feed (List.getLast?_concat ..))
          (first.feeds last_feed (by simp [split_line]))
        have found : source.lastLineFeed? kept.stop (kept.stop + padding.length) =
            some (kept.stop + before.length) := by
          rw [split_line] at stands_padding
          exact stands_padding.lastLineFeed?_eq rfl noFeed (by rw [split_line])
        have closed := (ended line_starts before line split_line noFeed).imp_right (head.trans ·)
        have between := fun cut member => And.intro (bounds cut member).1 (early cut member)
        rw [found, Option.getD_some, ← List.append_assoc piece]
        rw [split_line] at stop between split ⊢
        exact slack_uncovered_line slack_padding split isComma separated stop between
          within tail closed

end Behind

/-- Where all elements go, their cuts begin with the first one and leave padding. -/
theorem slack_uncovered_all {goes : Span → Bool} {run : Option Span} {limit : Nat}
    (loose : ∀ entry ∈ entries, Loose gone entry) (slack : Slack rest)
    (stands : source.Shows position (piece ++ (flat entries ++ rest)))
    (size : array.stop = position + (piece ++ (flat entries ++ rest)).length)
    (inOrder : Source.InOrder limit (spansWith position piece entries))
    (goes_all : ∀ span ∈ spansWith position piece entries, goes span = true) :
    (∀ cut ∈ source.cutsFrom array goes none run (spansWith position piece entries),
      position ≤ cut.start) ∧
      Slack (uncovered
        (Span.covers (source.cutsFrom array goes none run (spansWith position piece entries)))
        position (piece ++ (flat entries ++ rest))) := by
  obtain ⟨last, ends⟩ := exists_getLast?_spansWith position piece entries
  obtain ⟨starts, bounds⟩ : position ≤ last.start ∧
      ∀ cut ∈ source.gapCuts (spansWith position piece entries),
    position ≤ cut.start ∧ cut.stop ≤ last.start := gapCuts_spansWith inOrder ends
  have size_rest : array.stop = last.stop + rest.length := by
    rw [size, stop_of_getLast?_spansWith ends]
    simp only [List.length_append]
    omega
  obtain ⟨front, split, comma, place⟩ :=
    (shows_rest stands ends).exists_commaEnd slack.padding size_rest
  have behind := slack.of_behindComma split comma
  have dropped : rest.drop front.length = behindComma rest := by
    conv => lhs; arg 2; rw [split]
    exact List.drop_left
  have within : front.length ≤ rest.length := by
    rw [split, List.length_append]
    exact Nat.le_add_right ..
  rw [spansWith, Source.cutsFrom_run goes_all ends, Source.lastCuts, place, ← spansWith]
  refine ⟨fun cut member => ?_, slack_uncovered_run loose stands inOrder ends within
    (dropped ▸ behind)⟩
  rcases List.mem_append.mp member with gap | final
  · exact (bounds cut gap).1
  · rw [List.mem_singleton.mp final]
    exact starts

/--
Whether each run of elements that goes at the end of a row can lose the line feed in front of
it: that ends no line comment, or the line of the last element ends with another line feed.
-/
def Ended (gone : List Cell → Bool) (entries : List (List Cell × List Cell)) (rest : List Cell) :
    Prop :=
  ∀ front stay padding next back, entries = front ++ stay :: (padding, next) :: back →
    gone stay.2 = false →
    (∀ entry ∈ (padding, next) :: back, gone entry.2 = true) →
    ∀ before line, padding = before ++ ⟨'\n', .code⟩ :: line → (∀ cell ∈ line, cell.char ≠ '\n') →
      isClosed (chars before) ∨ (behindComma rest)[endOfLine (behindComma rest)]? =
        some ⟨'\n', .code⟩

theorem Ended.tail {entry : List Cell × List Cell} (ended : Ended gone (entry :: entries) rest) :
    Ended gone entries rest :=
  fun front stay padding next back split => ended (entry :: front) stay padding next back
    (by rw [split]; rfl)

section Whole

variable {query : Source → Span → Bool} {kept run : Option Span} {padding next behind : List Cell}

/-- An element that goes is cut with a part of the gap behind it. -/
theorem clear_uncovered_going (going : query source ⟨position, position + piece.length⟩ = true)
    (first : Loose gone (padding, next))
    (stands : source.Shows position (piece ++ (padding ++ behind)))
    (starts : ∀ cut ∈ source.cutsFrom array (query source) kept (some
      (run.getD ⟨position, position + piece.length⟩))
      (spansWith (position + piece.length + padding.length) next entries),
        position + piece.length + padding.length ≤ cut.start)
    (clear : Clear (uncovered (Span.covers (source.cutsFrom array (query source) kept
      (some (run.getD ⟨position, position + piece.length⟩))
        (spansWith (position + piece.length + padding.length) next entries)))
          (position + piece.length + padding.length) behind)) :
    Clear (uncovered (Span.covers (source.cutsFrom array (query source) kept run
        (spansWith position piece ((padding, next) :: entries))))
      position (piece ++ (padding ++ behind))) := by
  obtain ⟨count, within, gap, place⟩ : ∃ count, count ≤ padding.length ∧
      Slack (padding.drop count) ∧
      source.cutEnd ⟨position, position + piece.length⟩ ⟨position + piece.length + padding.length,
        position + piece.length + padding.length + next.length⟩ = position + piece.length + count :=
    Source.exists_cutEnd stands.right.left first.slack first.feeds rfl
  rw [spansWith_cons, spansWith, Source.cutsFrom_going going, place, ← spansWith,
    uncovered_gap within starts]
  exact gap.settled.append_clear clear

theorem clear_uncovered_staying (staying : query source ⟨position, position + piece.length⟩ = false)
    (firm : Firm piece) (first : Loose gone (padding, next))
    (parted : ∃ cell ∈ padding, cell.isComma)
    (starts : ∀ cut ∈ source.cutsFrom array (query source) (some
      ⟨position, position + piece.length⟩) none
      (spansWith (position + piece.length + padding.length) next entries),
        position + piece.length + padding.length ≤ cut.start)
    (clear : Clear (uncovered (Span.covers (source.cutsFrom array (query source)
      (some ⟨position, position + piece.length⟩) none
        (spansWith (position + piece.length + padding.length) next entries)))
          (position + piece.length + padding.length) behind)) :
    Clear (uncovered (Span.covers (source.cutsFrom array (query source) kept run
        (spansWith position piece ((padding, next) :: entries))))
      position (piece ++ (padding ++ behind))) := by
  have untouched : uncovered (Span.covers (source.cutsFrom array (query source)
      (some ⟨position, position + piece.length⟩) none
        (spansWith (position + piece.length + padding.length) next entries))) position
      (piece ++ padding) = piece ++ padding := by
    refine uncovered_of_apart fun cut member => .inr ?_
    rw [List.length_append, ← Nat.add_assoc]
    exact starts cut member
  rw [spansWith_cons, Source.cutsFrom_staying staying, ← List.append_assoc,
    uncovered_append, untouched, List.length_append, ← Nat.add_assoc, List.append_assoc]
  refine firm.append_clear (first.slack.settled.append_clear clear) ?_
  obtain ⟨comma, inside, -⟩ := parted
  cases padding with
  | nil => cases inside
  | cons cell padding => simpa using first.slack.head_ne_mark

/-- Behind the last element that stays a deletion leaves padding that is read on its own. -/
theorem clear_uncovered_last {lead : List Cell} (loc : Source.Local query) (solid : Solid piece)
    (firm : Firm piece) (staying : query source ⟨position, position + piece.length⟩ = false)
    (loose : ∀ entry ∈ (padding, next) :: entries, Loose (Source.read query) entry)
    (parted : ∃ cell ∈ padding, cell.isComma) (slack : Slack rest)
    (feeds : ∀ cell ∈ rest, cell.kind = .comment → cell.char ≠ '\n')
    (stands : source.Shows position (piece ++ (padding ++ (next ++ (flat entries ++ rest)))))
    (size : array.stop = position + (piece ++ (padding ++ (next ++ (flat entries ++ rest)))).length)
    (passing : Source.Passing array.stop kept run
      (spansWith position piece ((padding, next) :: entries)))
    (goes_all : ∀ span ∈ spansWith (position + piece.length + padding.length) next entries,
      query source span = true)
    (ended : ∀ last ∈ (spansWith (position + piece.length + padding.length) next entries).getLast?,
      source.startsLine last.start →
        Ended (Source.read query) ((lead, piece) :: (padding, next) :: entries) rest) :
    Clear (uncovered (Span.covers (source.cutsFrom array (query source) kept run
        (spansWith position piece ((padding, next) :: entries))))
      position (piece ++ (padding ++ (next ++ (flat entries ++ rest))))) := by
  have stands_flat : source.Shows (position + piece.length)
      (flat ((padding, next) :: entries)) := by
    have parts : padding ++ (next ++ (flat entries ++ rest)) =
        flat ((padding, next) :: entries) ++ rest := by
      simp
    have behind := stands.right
    rw [parts] at behind
    exact behind.left
  have gone_all : ∀ entry ∈ (padding, next) :: entries, Source.read query entry.2 = true :=
    (loc.forall_spans_iff (fun entry member => (loose entry member).solid.unbroken.balanced)
      stands_flat).mp goes_all
  have here : Source.read query piece = false :=
    (loc source position piece solid.unbroken.balanced stands.left).symm.trans staying
  obtain ⟨last, ends⟩ :=
    exists_getLast?_spansWith (position + piece.length + padding.length) next entries
  have behind : Slack (uncovered (Span.covers (source.cutsFrom array (query source)
      (some ⟨position, position + piece.length⟩) none
        (spansWith (position + piece.length + padding.length) next entries)))
          (position + piece.length)
      (padding ++ (next ++ (flat entries ++ rest)))) :=
    slack_uncovered_behind (loose _ (.head _)) parted
      (fun entry member => loose entry (.tail _ member)) slack feeds
      stands.right (by rw [size, List.length_append, Nat.add_assoc])
        passing.staying.inOrder goes_all ends
      fun starts => ended last ends starts [] (lead, piece) padding next entries rfl here gone_all
  have untouched : uncovered (Span.covers (source.cutsFrom array (query source)
      (some ⟨position, position + piece.length⟩) none
        (spansWith (position + piece.length + padding.length) next entries))) position piece =
          piece := by
    refine uncovered_of_apart fun cut member => .inr ?_
    exact (Source.cutsFrom_bounds (position + piece.length) passing.staying (by simp)
      passing.inOrder.head cut member).1
  rw [spansWith_cons, Source.cutsFrom_staying staying, uncovered_append, untouched]
  exact firm.append_clear behind.clear behind.head_ne_mark

/-- Where some element stays, what a deletion leaves from an element on is read on its own. -/
theorem clear_uncovered_from {lead : List Cell} (loc : Source.Local query) (solid : Solid piece)
    (firm : Source.read query piece = false → Firm piece)
    (loose : ∀ entry ∈ entries, Loose (Source.read query) entry)
    (parted : ∀ entry ∈ entries, ∃ cell ∈ entry.1, cell.isComma) (slack : Slack rest)
    (feeds : ∀ cell ∈ rest, cell.kind = .comment → cell.char ≠ '\n')
    (stands : source.Shows position (piece ++ (flat entries ++ rest)))
    (size : array.stop = position + (piece ++ (flat entries ++ rest)).length)
    (passing : Source.Passing array.stop kept run (spansWith position piece entries))
    (stays : ∃ span ∈ spansWith position piece entries, query source span = false)
    (ended : ∀ last ∈ (spansWith position piece entries).getLast?, source.startsLine last.start →
      Ended (Source.read query) ((lead, piece) :: entries) rest) :
    Clear (uncovered
      (Span.covers (source.cutsFrom array (query source) kept run
      (spansWith position piece entries)))
      position (piece ++ (flat entries ++ rest))) := by
  have here : query source ⟨position, position + piece.length⟩ = Source.read query piece :=
    loc source position piece solid.unbroken.balanced stands.left
  induction entries generalizing lead piece position kept run with
  | nil =>
      have staying : Source.read query piece = false := by
        simpa [here] using stays
      rw [spansWith_nil, Source.cutsFrom_staying (here.trans staying), Source.cutsFrom,
        uncovered_of_apart (by simp)]
      exact (firm staying).append_clear slack.clear slack.head_ne_mark
  | cons entry entries ih =>
      obtain ⟨padding, next⟩ := entry
      have first := loose (padding, next) (.head _)
      have comma := parted (padding, next) (.head _)
      have parts : piece ++ (flat ((padding, next) :: entries) ++ rest) =
          piece ++ (padding ++ (next ++ (flat entries ++ rest))) := by
        simp
      rw [parts] at stands size ⊢
      have ends_tail (last : Span)
          (found : last ∈ (spansWith (position + piece.length + padding.length) next
            entries).getLast?) :
          last ∈ (spansWith position piece ((padding, next) :: entries)).getLast? := by
        rw [spansWith_cons]
        simpa [spansWith] using found
      by_cases later : ∃ span ∈ spansWith (position + piece.length + padding.length) next entries,
          query source span = false
      · have size_tail : array.stop = position + piece.length + padding.length +
            (next ++ (flat entries ++ rest)).length := by
          simp only [size, List.length_append]
          omega
        have clear {kept run : Option Span}
            (passing : Source.Passing array.stop kept run
              (spansWith (position + piece.length + padding.length) next entries)) :=
          ih first.solid first.firm (fun entry member => loose entry (.tail _ member))
            (fun entry member => parted entry (.tail _ member)) stands.right.right
              size_tail passing later
            (fun last found starts => (ended last (ends_tail last found) starts).tail)
            (loc source _ next first.solid.unbroken.balanced stands.right.right.left)
        cases going : Source.read query piece with
        | true =>
            exact clear_uncovered_going (here.trans going) first stands
              (Source.start_of_mem_cutsFrom passing.going later) (clear passing.going)
        | false =>
            exact clear_uncovered_staying (here.trans going) (firm going) first comma
              (Source.start_of_mem_cutsFrom passing.staying later) (clear passing.staying)
      · have goes_all : ∀ span ∈ spansWith (position + piece.length + padding.length) next entries,
            query source span = true := by
          simpa using later
        have staying : query source ⟨position, position + piece.length⟩ = false := by
          obtain ⟨span, member, stays⟩ := stays
          rcases List.mem_cons.mp member with rfl | behind
          · exact stays
          · exact absurd ((goes_all span behind).symm.trans stays) (by simp)
        exact clear_uncovered_last loc solid (firm (here.symm.trans staying)) staying loose comma
          slack feeds stands
          size passing goes_all fun last found => ended last (ends_tail last found)

end Whole

/--
What a deletion leaves of a row is read on its own, where no line feed stands in a comment, no
element that stays ends with a slash, and no line comment loses the line feed behind it.
-/
theorem clear_uncovered {row : Row} (valid : row.Valid) (clear : Clear row.cells)
    {query : Source → Span → Bool}
    (loc : Source.Local query) (stands : source.Shows position row.cells)
    (whole : array = ⟨position, position + row.cells.length⟩)
    (feeds : ∀ cell ∈ row.cells, cell.kind = .comment → cell.char ≠ '\n')
    (slashes : ∀ entry ∈ row.entries, Source.read query entry.2 = false →
      ∀ cell ∈ entry.2.getLast?, cell ≠ ⟨'/', .code⟩)
    (ended : ∀ last ∈ (spansFrom position row.entries).getLast?, source.startsLine last.start →
      Ended (Source.read query) row.entries row.rest) :
    Clear (uncovered
      (Span.covers (source.cutsFrom array (query source) none none
      (spansFrom position row.entries)))
      position row.cells) := by
  have passing : Source.Passing array.stop none none (spansFrom position row.entries) :=
    whole ▸ passing_spansFrom valid position
  obtain ⟨entries, rest⟩ := row
  obtain ⟨parts, slack⟩ := valid.slack clear
  cases entries with
  | nil => rwa [spansFrom, Source.cutsFrom, uncovered_of_apart (by simp)]
  | cons entry entries =>
      obtain ⟨lead, piece⟩ := entry
      have cells : Row.cells ⟨(lead, piece) :: entries, rest⟩ =
          lead ++ (piece ++ (flat entries ++ rest)) := by
        simp [Row.cells]
      have spans : spansFrom position ((lead, piece) :: entries) =
          spansWith (position + lead.length) piece entries :=
        rfl
      have loose : ∀ entry ∈ (lead, piece) :: entries, Loose (Source.read query) entry := by
        intro entry member
        obtain ⟨slack, behind, scans⟩ := parts entry member
        refine ⟨valid.solid entry member, slack, fun cell found => feeds cell ?_, fun stays =>
          scans.firm_of_last (slashes entry member stays)⟩
        exact List.mem_append_left _
          (List.mem_flatMap.mpr ⟨entry, member, List.mem_append_left _ found⟩)
      have feeds_rest : ∀ cell ∈ rest, cell.kind = .comment → cell.char ≠ '\n' := fun cell found =>
        feeds cell (List.mem_append_right _ found)
      have first := loose (lead, piece) (.head _)
      have others (entry) (member : entry ∈ entries) := loose entry (.tail _ member)
      rw [cells] at stands whole ⊢
      rw [spans] at passing ended ⊢
      have size : array.stop = position + lead.length +
          (piece ++ (flat entries ++ rest)).length := by
        rw [whole, List.length_append, Nat.add_assoc]
      -- The padding in front of the first element is never cut.
      by_cases stays : ∃ span ∈ spansWith (position + lead.length) piece entries,
        query source span = false
      · have untouched : uncovered (Span.covers (source.cutsFrom array (query source) none none
            (spansWith (position + lead.length) piece entries))) position lead = lead :=
          uncovered_of_apart fun cut member =>
            .inr (Source.start_of_mem_cutsFrom passing stays cut member)
        rw [uncovered_append, untouched]
        exact first.slack.settled.append_clear
          (clear_uncovered_from loc first.solid first.firm others valid.parted
          slack feeds_rest stands.right size passing stays ended)
      · have goes_all : ∀ span ∈ spansWith (position + lead.length) piece entries,
            query source span = true := by
          simpa using stays
        obtain ⟨starts, left⟩ :=
          slack_uncovered_all others slack stands.right size passing.inOrder goes_all
        have untouched : uncovered (Span.covers (source.cutsFrom array (query source) none none
            (spansWith (position + lead.length) piece entries))) position lead = lead :=
          uncovered_of_apart fun cut member => .inr (starts cut member)
        rw [uncovered_append, untouched]
        exact (first.slack.append left).clear

end Row

end SwiftWorkspace
