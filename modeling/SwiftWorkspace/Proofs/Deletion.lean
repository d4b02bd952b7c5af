import SwiftWorkspace.Edit.Delete
import SwiftWorkspace.Proofs.Cuts

/-!
# The cuts of a deletion

The cuts of a deletion cover every element that goes and no element that stays.
Behind an element that stays, the padding up to the next element is not cut
either, unless no more element stays there.
-/

namespace SwiftWorkspace

namespace Source

variable {source : Source} {position start stop found : Nat}

theorem commaAfter?_bounds (comma : source.commaAfter? position stop = some found) :
    position ≤ found ∧ found < stop := by
  simp only [commaAfter?] at comma
  split at comma
  case isTrue within =>
      obtain rfl := Option.some.inj comma
      simp only [Bool.and_eq_true, decide_eq_true_eq] at within
      exact ⟨Nat.le_add_right .., within.1⟩
  case isFalse => simp at comma

theorem lineFeed?_bounds (feed : source.lineFeed? position stop = some found) :
    position ≤ found ∧ found < stop := by
  rw [lineFeed?, Text.findFrom?] at feed
  obtain ⟨offset, search, rfl⟩ := Option.map_eq_some_iff.mp feed
  obtain ⟨within, -⟩ := List.findIdx?_eq_some_iff_getElem.mp search
  have size : offset < stop - position := by
    refine Nat.lt_of_lt_of_le within ?_
    rw [Text.slice]
    exact List.length_take_le ..
  omega

theorem endOfLineAfter_bounds (ordered : position ≤ stop) :
    position ≤ source.endOfLineAfter position stop ∧
      source.endOfLineAfter position stop ≤ stop := by
  rw [endOfLineAfter]
  cases feed : source.lineFeed? position stop with
  | none => exact ⟨Nat.le_refl _, ordered⟩
  | some lineEnd =>
      have := lineFeed?_bounds feed
      simp only
      split <;> omega

theorem lastLineFeed?_bounds (feed : source.lastLineFeed? position stop = some found) :
    position ≤ found ∧ found < stop := by
  have below : source.lineStart stop ≤ stop := by
    simp only [lineStart, List.length_take]
    omega
  simp only [lastLineFeed?] at feed
  split at feed
  case isTrue within =>
      obtain rfl := Option.some.inj feed
      omega
  case isFalse => simp at feed

theorem cutEnd_bounds {element following : Span} (ordered : element.stop ≤ following.start) :
    element.stop ≤ source.cutEnd element following ∧
      source.cutEnd element following ≤ following.start := by
  rw [cutEnd]
  cases comma : source.commaAfter? element.stop following.start with
  | none => exact ⟨ordered, Nat.le_refl _⟩
  | some found =>
      have := commaAfter?_bounds comma
      have line := source.endOfLineAfter_bounds (show found + 1 ≤ following.start by omega)
      simp only
      generalize source.endOfLineAfter (found + 1) following.start = lineEnd at line
      have blanks (position : Nat) : (((source.textIn ⟨position, following.start⟩).takeWhile
          fun char => char = ' ' || char = '\t').length) ≤ following.start - position := by
        refine Nat.le_trans (List.takeWhile_prefix _).length_le ?_
        simp only [textIn, cellsIn, Span.size, List.length_map, List.length_take, List.length_drop]
        omega
      split
      case isTrue ends =>
          simp only [Bool.and_eq_true, decide_eq_true_eq] at ends
          have := blanks (lineEnd + 1)
          omega
      case isFalse =>
          have := blanks (found + 1)
          omega

/--
Whether each element ends before the next one starts, and none is empty or ends behind `limit`.
-/
structure InOrder (limit : Nat) (elements : List Span) : Prop where
  apart : elements.Pairwise fun left right => left.stop ≤ right.start
  filled : ∀ element ∈ elements, element.start < element.stop ∧ element.stop ≤ limit

theorem InOrder.tail {limit : Nat} {element : Span} {elements : List Span}
    (inOrder : InOrder limit (element :: elements)) : InOrder limit elements :=
  ⟨(List.pairwise_cons.mp inOrder.apart).2, fun other member =>
    inOrder.filled other (by simp [member])⟩

theorem InOrder.head {limit : Nat} {element : Span} {elements : List Span}
    (inOrder : InOrder limit (element :: elements)) :
    ∀ other ∈ elements, element.stop ≤ other.start :=
  (List.pairwise_cons.mp inOrder.apart).1

section Last

variable {array element run : Span} {kept : Option Span} {low : Nat}

/-- A cut at the end of the lines behind an element that stays begins behind that element. -/
theorem lineCut_bounds {stays : Span} (le_run : stays.stop ≤ run.start)
    (running : run.start ≤ element.start) :
    stays.stop ≤ (source.lastLineFeed? stays.stop run.start).getD element.start ∧
      (source.lastLineFeed? stays.stop run.start).getD element.start ≤ element.start := by
  cases feed : source.lastLineFeed? stays.stop run.start with
  | none => exact ⟨by simp only [Option.getD_none]; omega, Nat.le_refl _⟩
  | some found =>
      have := lastLineFeed?_bounds feed
      simp only [Option.getD_some]
      omega

/--
The cuts of the last element lie behind the last element that stays, and inside
of the array, and one of them covers the element.
-/
theorem lastCuts_spec (filled : element.start < element.stop ∧ element.stop ≤ array.stop)
    (running : run.start ≤ element.start)
    (behind : ∀ stays ∈ kept, low ≤ stays.stop ∧ stays.stop ≤ run.start)
    (above : low ≤ element.start) :
    (∀ cut ∈ source.lastCuts array element run kept,
      low ≤ cut.start ∧ cut.start ≤ cut.stop ∧ cut.stop ≤ array.stop) ∧
    ∃ cut ∈ source.lastCuts array element run kept,
      cut.start ≤ element.start ∧ element.stop ≤ cut.stop := by
  cases kept with
  | none =>
      have ends : element.stop ≤
            ((source.commaAfter? element.stop array.stop).map (· + 1)).getD element.stop ∧
          ((source.commaAfter? element.stop array.stop).map (· + 1)).getD element.stop ≤
            array.stop := by
        cases comma : source.commaAfter? element.stop array.stop with
        | none => exact ⟨Nat.le_refl _, filled.2⟩
        | some found =>
            have := commaAfter?_bounds comma
            simp only [Option.map_some, Option.getD_some]
            omega
      simp only [lastCuts, List.mem_singleton, forall_eq, exists_eq_left]
      omega
  | some stays =>
      obtain ⟨low_le, le_run⟩ := behind stays rfl
      have start : stays.stop ≤ (source.lastLineFeed? stays.stop run.start).getD
          element.start ∧ _ :=
        lineCut_bounds le_run running
      simp only [lastCuts]
      generalize (source.lastLineFeed? stays.stop run.start).getD element.start = begins at start
      split
      case isTrue =>
          cases comma : source.commaAfter? element.stop array.stop with
          | some found =>
              have := commaAfter?_bounds comma
              have line := source.endOfLineAfter_bounds (show found + 1 ≤ array.stop by omega)
              simp only [List.mem_singleton, forall_eq, exists_eq_left]
              omega
          | none =>
              have line := source.endOfLineAfter_bounds filled.2
              constructor
              · intro cut member
                rcases List.mem_append.mp member with separator | last
                · obtain ⟨found, search, rfl⟩ :=
                    Option.map_eq_some_iff.mp (Option.mem_toList.mp separator)
                  have := commaAfter?_bounds search
                  simp only
                  omega
                · obtain rfl := List.mem_singleton.mp last
                  simp only
                  omega
              · exact ⟨_, List.mem_append_right _ (List.mem_singleton_self _), start.2, line.1⟩
      case isFalse =>
          simp only [List.mem_singleton, forall_eq, exists_eq_left]
          omega

end Last

/-- The places of the last element that stays and of the first one behind it that goes. -/
structure Passing (limit : Nat) (kept run : Option Span) (elements : List Span) : Prop where
  inOrder : InOrder limit elements
  running : ∀ first ∈ run, ∀ element ∈ elements, first.start ≤ element.start
  behind : ∀ stays ∈ kept, (∀ first ∈ run, stays.stop ≤ first.start) ∧
    ∀ element ∈ elements, stays.stop ≤ element.start

namespace Passing

variable {limit : Nat} {kept run : Option Span} {element : Span} {elements : List Span}

theorem run_bounds (passing : Passing limit kept run (element :: elements)) :
    (run.getD element).start ≤ element.start ∧
      ∀ stays ∈ kept, stays.stop ≤ (run.getD element).start := by
  cases run with
  | none =>
      exact ⟨Nat.le_refl _, fun stays member => (passing.behind stays member).2 element (by simp)⟩
  | some first =>
      exact ⟨passing.running first rfl element (by simp), fun stays member =>
        (passing.behind stays member).1 first rfl⟩

theorem going (passing : Passing limit kept run (element :: elements)) :
    Passing limit kept (some (run.getD element)) elements := by
  obtain ⟨begins, before⟩ := passing.run_bounds
  refine ⟨passing.inOrder.tail, ?_, ?_⟩
  · rintro _ ⟨⟩ other inside
    have := passing.inOrder.head other inside
    have := passing.inOrder.filled element (by simp)
    omega
  · intro stays member
    refine ⟨?_, fun other inside => (passing.behind stays member).2 other (.tail _ inside)⟩
    rintro _ ⟨⟩
    exact before stays member

theorem staying (passing : Passing limit kept run (element :: elements)) :
    Passing limit (some element) none elements := by
  refine ⟨passing.inOrder.tail, by simp, ?_⟩
  rintro _ ⟨⟩
  exact ⟨by simp, passing.inOrder.head⟩

end Passing

section Cuts

variable {array : Span} {goes : Span → Bool} {kept run : Option Span} {elements : List Span}

/-- The cuts lie behind the last element that stays before them, and inside of the array. -/
theorem cutsFrom_bounds (low : Nat) (passing : Passing array.stop kept run elements)
    (behind : ∀ stays ∈ kept, low ≤ stays.stop)
    (above : ∀ element ∈ elements, low ≤ element.start) :
    ∀ cut ∈ source.cutsFrom array goes kept run elements,
      low ≤ cut.start ∧ cut.start ≤ cut.stop ∧ cut.stop ≤ array.stop := by
  induction elements generalizing kept run with
  | nil => simp [cutsFrom]
  | cons element elements ih =>
      have filled := passing.inOrder.filled element (by simp)
      have low_le := above element (by simp)
      have rest (other : Span) (inside : other ∈ elements) : low ≤ other.start :=
        above other (.tail _ inside)
      rw [cutsFrom]
      split
      case isTrue =>
          obtain ⟨begins, before⟩ := passing.run_bounds
          cases elements with
          | nil =>
              exact (lastCuts_spec filled begins
                (fun stays member => ⟨behind stays member, before stays member⟩) low_le).1
          | cons following more =>
              intro cut member
              rcases List.mem_cons.mp member with rfl | later
              · have ends := source.cutEnd_bounds (passing.inOrder.head following (by simp))
                have := passing.inOrder.filled following (by simp)
                simp only
                omega
              · exact ih passing.going behind rest cut later
      case isFalse =>
          refine ih passing.staying ?_ rest
          rintro _ ⟨⟩
          omega

theorem exists_cutsFrom (passing : Passing array.stop kept run elements) :
    ∀ element ∈ elements, goes element → ∃ cut ∈ source.cutsFrom array goes kept run elements,
      cut.start ≤ element.start ∧ element.stop ≤ cut.stop := by
  induction elements generalizing kept run with
  | nil => simp
  | cons first elements ih =>
      intro element member going
      rw [cutsFrom]
      split
      case isTrue =>
          obtain ⟨begins, before⟩ := passing.run_bounds
          cases elements with
          | nil =>
              obtain rfl := List.mem_singleton.mp member
              exact (lastCuts_spec (passing.inOrder.filled element (by simp)) begins
                (fun stays member => ⟨Nat.zero_le _, before stays member⟩) (Nat.zero_le _)).2
          | cons following more =>
              rcases List.mem_cons.mp member with rfl | inside
              · exact ⟨_, .head _, Nat.le_refl _,
                  (source.cutEnd_bounds (passing.inOrder.head following (by simp))).1⟩
              · obtain ⟨cut, found, covers⟩ := ih passing.going element inside going
                exact ⟨cut, .tail _ found, covers⟩
      case isFalse stays =>
          rcases List.mem_cons.mp member with rfl | inside
          · exact absurd going stays
          · exact ih passing.staying element inside going

theorem start_of_mem_cutsFrom {first : Span}
    (passing : Passing array.stop kept run (first :: elements))
    (stays : ∃ element ∈ first :: elements, goes element = false) :
    ∀ cut ∈ source.cutsFrom array goes kept run (first :: elements), first.start ≤ cut.start := by
  induction elements generalizing kept run first with
  | nil =>
      obtain ⟨element, member, stays⟩ := stays
      obtain rfl := List.mem_singleton.mp member
      simp [cutsFrom, stays]
  | cons following more ih =>
      have next := passing.inOrder.head following (by simp)
      have filled := passing.inOrder.filled first (by simp)
      rw [cutsFrom]
      split
      case isTrue going =>
          intro cut member
          rcases List.mem_cons.mp member with rfl | later
          · exact Nat.le_refl _
          · have stays : ∃ element ∈ following :: more, goes element = false := by
              obtain ⟨element, inside, stays⟩ := stays
              rcases List.mem_cons.mp inside with rfl | inside
              · simp [going] at stays
              · exact ⟨element, inside, stays⟩
            have := ih passing.going stays cut later
            omega
      case isFalse =>
          intro cut member
          have bounds := cutsFrom_bounds first.stop passing.staying
            (by simp) passing.inOrder.head cut member
          omega

theorem cutsFrom_append {front back : List Span} {element : Span} (stays : goes element = false)
    (passing : Passing array.stop kept run (front ++ element :: back)) :
    ∃ before, (∀ cut ∈ before, cut.stop ≤ element.start) ∧
      Passing array.stop (some element) none back ∧
      source.cutsFrom array goes kept run (front ++ element :: back) =
        before ++ source.cutsFrom array goes (some element) none back := by
  induction front generalizing kept run with
  | nil =>
      refine ⟨[], by simp, passing.staying, ?_⟩
      rw [List.nil_append, cutsFrom, stays]
      rfl
  | cons first front ih =>
      rw [List.cons_append, cutsFrom]
      rw [List.cons_append] at passing
      split
      case isTrue =>
          obtain ⟨before, ends, later, split⟩ := ih passing.going
          cases whole : front ++ element :: back with
          | nil => simp at whole
          | cons following more =>
              rw [whole] at split passing
              refine ⟨⟨first.start, source.cutEnd first following⟩ :: before, ?_, later, ?_⟩
              · intro cut member
                rcases List.mem_cons.mp member with rfl | inside
                · have next := source.cutEnd_bounds (passing.inOrder.head following (by simp))
                  have reaches : following.start ≤ element.start := by
                    have inOrder := passing.inOrder.tail
                    have inside : element ∈ following :: more := by simp [← whole]
                    rcases List.mem_cons.mp inside with rfl | inside
                    · exact Nat.le_refl _
                    · have := inOrder.head element inside
                      have := inOrder.filled following (by simp)
                      omega
                  simp only
                  omega
                · exact ends cut inside
              · rw [List.cons_append, ← split]
      case isFalse => exact ih passing.staying

end Cuts

end Source

end SwiftWorkspace
