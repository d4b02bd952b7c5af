import SwiftWorkspace.Edit.Splice

/-!
# Cutting out spans

Merging keeps the positions that some spans cover, and makes the spans separate.
Cutting separate spans out of a text leaves the characters at the positions that
no span covers.
-/

namespace SwiftWorkspace

def uncovered {α : Type} (covered : Nat → Bool) : (position : Nat) → List α → List α
  | _, [] => []
  | position, value :: values =>
      if covered position then uncovered covered (position + 1) values
      else value :: uncovered covered (position + 1) values

section Uncovered

variable {α β : Type} {covered other : Nat → Bool}

@[simp] theorem uncovered_nil (position : Nat) :
    uncovered covered position ([] : List α) = [] := rfl

@[simp] theorem uncovered_append (position : Nat) (first last : List α) :
    uncovered covered position (first ++ last) =
      uncovered covered position first ++ uncovered covered (position + first.length) last := by
  induction first generalizing position with
  | nil => simp
  | cons value first ih =>
      have shift : position + 1 + first.length = position + (first.length + 1) := by omega
      simp only [List.cons_append, uncovered, ih, List.length_cons, shift]
      split <;> rfl

theorem uncovered_of_covered {position : Nat} {values : List α}
    (inside : ∀ place, position ≤ place → place < position + values.length → covered place = true) :
    uncovered covered position values = [] := by
  induction values generalizing position with
  | nil => rfl
  | cons value values ih =>
      rw [uncovered, if_pos (inside position (Nat.le_refl _) (by simp))]
      refine ih fun place above below => inside place (by omega) ?_
      rw [List.length_cons]
      omega

theorem uncovered_of_not_covered {position : Nat} {values : List α}
    (outside : ∀ place, position ≤ place → place < position + values.length →
      covered place = false) :
    uncovered covered position values = values := by
  induction values generalizing position with
  | nil => rfl
  | cons value values ih =>
      rw [uncovered, outside position (Nat.le_refl _) (by simp), if_neg Bool.false_ne_true]
      refine congrArg (value :: ·) (ih fun place above below => outside place (by omega) ?_)
      rw [List.length_cons]
      omega

theorem uncovered_congr {position shifted : Nat} {values : List α}
    (same : ∀ offset, offset < values.length →
      covered (position + offset) = other (shifted + offset)) :
    uncovered covered position values = uncovered other shifted values := by
  induction values generalizing position shifted with
  | nil => rfl
  | cons value values ih =>
      have here := same 0 (by simp)
      have rest : uncovered covered (position + 1) values =
          uncovered other (shifted + 1) values := by
        refine ih fun offset within => ?_
        have later := same (offset + 1) (by simpa using within)
        rwa [← Nat.add_assoc, ← Nat.add_assoc, Nat.add_right_comm position,
          Nat.add_right_comm shifted]
          at later
      rw [uncovered, uncovered, rest]
      simp only [Nat.add_zero] at here
      rw [here]

theorem mem_of_mem_uncovered {position : Nat} {values : List α} {value : α}
    (member : value ∈ uncovered covered position values) : value ∈ values := by
  induction values generalizing position with
  | nil => simp at member
  | cons first values ih =>
      rw [uncovered] at member
      split at member
      · exact .tail _ (ih member)
      · rcases List.mem_cons.mp member with rfl | inside
        · exact .head _
        · exact .tail _ (ih inside)

theorem uncovered_sublist (position : Nat) (values : List α) :
    (uncovered covered position values).Sublist values := by
  induction values generalizing position with
  | nil => exact .slnil
  | cons value values ih =>
      rw [uncovered]
      split
      · exact .cons _ (ih _)
      · exact .cons_cons _ (ih _)

theorem map_uncovered (change : α → β) (position : Nat) (values : List α) :
    (uncovered covered position values).map change =
      uncovered covered position (values.map change) := by
  induction values generalizing position with
  | nil => rfl
  | cons value values ih =>
      rw [List.map_cons, uncovered, uncovered]
      split
      · exact ih _
      · rw [List.map_cons, ih]

end Uncovered

namespace Span

def covers (spans : List Span) (position : Nat) : Bool := spans.any (·.holds position)

@[simp] theorem covers_cons (span : Span) (spans : List Span) (position : Nat) :
    covers (span :: spans) position = (span.holds position || covers spans position) := rfl

theorem holds_iff {span : Span} {position : Nat} :
    span.holds position = true ↔ span.start ≤ position ∧ position < span.stop := by
  simp [holds]

theorem covers_eq_true_iff {spans : List Span} {position : Nat} :
    covers spans position = true ↔
      ∃ span ∈ spans, span.start ≤ position ∧ position < span.stop := by
  simp [covers, holds]

theorem covers_eq_false_iff {spans : List Span} {position : Nat} :
    covers spans position = false ↔
      ∀ span ∈ spans, position < span.start ∨ span.stop ≤ position := by
  simp only [covers, List.any_eq_false, holds, Bool.and_eq_true, decide_eq_true_eq,
    not_and, Nat.not_lt]
  constructor
  · intro outside span member
    rcases Nat.lt_or_ge position span.start with before | behind
    · exact .inl before
    · exact .inr (outside span member behind)
  · intro outside span member behind
    rcases outside span member with before | after
    · omega
    · exact after

theorem uncovered_cut {α : Type} {front inside back : List α} {base : Nat} {span : Span}
    (start : span.start = base + front.length) (stop : span.stop = span.start + inside.length) :
    uncovered (covers [span]) base (front ++ (inside ++ back)) = front ++ back := by
  rw [uncovered_append, uncovered_append, uncovered_of_not_covered, uncovered_of_covered,
    uncovered_of_not_covered, List.nil_append]
  all_goals
    intro place low high
    simp only [covers_eq_true_iff, covers_eq_false_iff, List.mem_singleton,
      forall_eq, exists_eq_left]
    omega

theorem uncovered_cut_cut {α : Type} {front first middle last back : List α} {base : Nat}
    {left right : Span} (left_start : left.start = base + front.length)
    (left_stop : left.stop = left.start + first.length)
    (right_start : right.start = left.stop + middle.length)
    (right_stop : right.stop = right.start + last.length) :
    uncovered (covers [left, right]) base (front ++ (first ++ (middle ++ (last ++ back)))) =
      front ++ (middle ++ back) := by
  rw [uncovered_append, uncovered_append, uncovered_append, uncovered_append,
    uncovered_of_not_covered,
    uncovered_of_covered, uncovered_of_not_covered, uncovered_of_covered, uncovered_of_not_covered,
    List.nil_append, List.nil_append]
  all_goals
    intro place low high
    simp only [covers_eq_true_iff, covers_eq_false_iff, List.mem_cons, List.not_mem_nil, or_false,
      forall_eq_or_imp, forall_eq, exists_eq_or_imp, exists_eq_left]
    omega

def Separate (spans : List Span) : Prop := spans.Pairwise fun left right => left.stop < right.start

theorem le_iff {left right : Span} :
    le left right = true ↔
      left.start < right.start ∨ (left.start = right.start ∧ left.stop ≤ right.stop) := by
  simp [le]

theorem mergeOnto_spec {current : Span} {spans : List Span} {limit : Nat}
    (sorted : spans.Pairwise fun left right => left.start ≤ right.start)
    (first : ∀ span ∈ spans, current.start ≤ span.start)
    (ordered : ∀ span ∈ spans, span.start ≤ span.stop ∧ span.stop ≤ limit)
    (here : current.start ≤ current.stop ∧ current.stop ≤ limit) :
    (∀ position, covers (mergeOnto current spans) position = covers (current :: spans) position) ∧
      Separate (mergeOnto current spans) ∧
      ∀ span ∈ mergeOnto current spans,
        current.start ≤ span.start ∧ span.start ≤ span.stop ∧ span.stop ≤ limit := by
  induction spans generalizing current with
  | nil => exact ⟨fun _ => rfl, by simp [mergeOnto, Separate], by simp [mergeOnto, here]⟩
  | cons next spans ih =>
      obtain ⟨later, sorted⟩ := List.pairwise_cons.mp sorted
      have next_first := first next (by simp)
      have next_here := ordered next (by simp)
      rw [mergeOnto]
      split
      case isTrue touches =>
          obtain ⟨covers, separate, bounds⟩ :=
            @ih ⟨current.start, max current.stop next.stop⟩ sorted
            (fun span member => first span (by simp [member]))
            (fun span member => ordered span (by simp [member])) (by simp only; omega)
          refine ⟨fun position => ?_, separate, bounds⟩
          rw [covers, covers_cons, covers_cons, covers_cons, ← Bool.or_assoc]
          refine congrArg (· || _) (Bool.eq_iff_iff.mpr ?_)
          rw [Bool.or_eq_true, holds_iff, holds_iff, holds_iff]
          simp only
          omega
      case isFalse apart =>
          obtain ⟨covers, separate, bounds⟩ := ih sorted later
            (fun span member => ordered span (by simp [member])) next_here
          refine ⟨fun position => ?_, List.pairwise_cons.mpr ⟨?_, separate⟩, ?_⟩
          · rw [covers_cons, covers, covers_cons current]
          · intro span member
            have := (bounds span member).1
            omega
          · intro span member
            rcases List.mem_cons.mp member with rfl | inside
            · exact ⟨Nat.le_refl _, here⟩
            · have := bounds span inside
              exact ⟨by omega, this.2⟩

theorem merge_spec {spans : List Span} {base limit : Nat}
    (ordered : ∀ span ∈ spans, base ≤ span.start ∧ span.start ≤ span.stop ∧ span.stop ≤ limit) :
    (∀ position, covers (merge spans) position = covers spans position) ∧ Separate (merge spans) ∧
      ∀ span ∈ merge spans, base ≤ span.start ∧ span.start ≤ span.stop ∧ span.stop ≤ limit := by
  have perm := List.mergeSort_perm spans le
  have sorted : (spans.mergeSort le).Pairwise fun left right => left.start ≤ right.start := by
    refine (List.pairwise_mergeSort ?_ ?_ spans).imp fun {left right} before => ?_
    · intro first second third left right
      rw [le_iff] at left right ⊢
      omega
    · intro left right
      rw [Bool.or_eq_true, le_iff, le_iff]
      omega
    · rw [le_iff] at before
      omega
  have same (position : Nat) : covers (spans.mergeSort le) position = covers spans position :=
    perm.any_eq
  rw [merge]
  cases found : spans.mergeSort le with
  | nil =>
      rw [found] at same
      exact ⟨same, .nil, by simp⟩
  | cons first rest =>
      rw [found] at same sorted perm
      obtain ⟨behind, sorted⟩ := List.pairwise_cons.mp sorted
      have inside (span : Span) (member : span ∈ first :: rest) :=
        ordered span (perm.mem_iff.mp member)
      obtain ⟨covers, separate, bounds⟩ := mergeOnto_spec sorted behind
        (fun span member => (inside span (by simp [member])).2) (inside first (by simp)).2
      refine ⟨fun position => (covers position).trans (same position), separate,
        fun span member => ?_⟩
      have start := (inside first (by simp)).1
      have := bounds span member
      exact ⟨by omega, this.2⟩

end Span

namespace Text

section Cut

variable {span : Span} {spans : List Span} (here : span.start ≤ span.stop)
  (later : ∀ other ∈ spans, span.stop ≤ other.start)

include later in
theorem not_covers_of_lt {place : Nat} (before : place < span.stop) :
    Span.covers spans place = false := by
  refine Span.covers_eq_false_iff.mpr fun other member => .inl ?_
  have := later other member
  omega

include here later in
/-- Cutting a span out of what further spans leave, which all lie behind it. -/
theorem cutSpan_uncovered (front inside behind : Text) (start : front.length = span.start)
    (stop : front.length + inside.length = span.stop) :
    cutSpan (uncovered (Span.covers spans) 0 (front ++ (inside ++ behind))) span =
      uncovered (Span.covers (span :: spans)) 0 (front ++ (inside ++ behind)) := by
  have stays {position : Nat} {text : Text} (before : position + text.length ≤ span.stop) :
      uncovered (Span.covers spans) position text = text :=
    uncovered_of_not_covered fun place _ within => not_covers_of_lt later (by omega)
  have first : uncovered (Span.covers (span :: spans)) 0 front = front := by
    refine uncovered_of_not_covered fun place _ within => ?_
    have outside : span.holds place = false := by
      rw [← Bool.not_eq_true, Span.holds_iff]
      omega
    rw [Span.covers_cons, outside, not_covers_of_lt later (by omega), Bool.or_false]
  have second : uncovered (Span.covers (span :: spans)) (0 + front.length) inside = [] := by
    refine uncovered_of_covered fun place above below => ?_
    have held : span.holds place = true := Span.holds_iff.mpr (by omega)
    rw [Span.covers_cons, held, Bool.true_or]
  have third : uncovered (Span.covers (span :: spans)) (0 + front.length + inside.length) behind =
      uncovered (Span.covers spans) (0 + front.length + inside.length) behind := by
    refine uncovered_congr fun offset _ => ?_
    have outside : span.holds (0 + front.length + inside.length + offset) = false := by
      rw [← Bool.not_eq_true, Span.holds_iff]
      omega
    rw [Span.covers_cons, outside, Bool.false_or]
  rw [uncovered_append, uncovered_append, uncovered_append, uncovered_append, first, second, third,
    stays (by omega), stays (by omega), List.nil_append, cutSpan, List.take_left' start]
  refine congrArg (front ++ ·) ?_
  rw [← List.append_assoc]
  exact List.drop_left' (by simpa using stop)

end Cut

theorem cutSpans_eq {spans : List Span} (separate : Span.Separate spans) {text : Text}
    (within : ∀ span ∈ spans, span.start ≤ span.stop ∧ span.stop ≤ text.length) :
    text.cutSpans spans = uncovered (Span.covers spans) 0 text := by
  induction spans with
  | nil => exact (uncovered_of_not_covered fun _ _ _ => rfl).symm
  | cons span spans ih =>
      obtain ⟨later, separate⟩ := List.pairwise_cons.mp separate
      obtain ⟨here, below⟩ := within span (by simp)
      have rest := ih separate fun other member => within other (by simp [member])
      have split : text = text.take span.start ++
          ((text.drop span.start).take (span.stop - span.start) ++ text.drop span.stop) := by
        have behind := List.take_append_drop (span.stop - span.start) (text.drop span.start)
        rw [List.drop_drop, Nat.add_sub_cancel' here] at behind
        rw [behind, List.take_append_drop]
      rw [cutSpans, List.foldr_cons, ← cutSpans, rest, split]
      refine cutSpan_uncovered here (fun other member => Nat.le_of_lt (later other member))
        _ _ _ ?_ ?_
      · rw [List.length_take]
        omega
      · rw [List.length_take, List.length_take, List.length_drop]
        omega

/-- Spans that are merged first, and are counted from a position, cut out what they cover. -/
theorem cutSpans_merge {spans : List Span} {base : Nat} {text : Text}
    (bounds : ∀ span ∈ spans, base ≤ span.start ∧ span.start ≤ span.stop ∧
      span.stop ≤ base + text.length) :
    text.cutSpans ((Span.merge spans).map (·.relativeTo base)) =
      uncovered (Span.covers spans) base text := by
  obtain ⟨covers, separate, inside⟩ := Span.merge_spec bounds
  have relative : ∀ span ∈ (Span.merge spans).map (·.relativeTo base),
      span.start ≤ span.stop ∧ span.stop ≤ text.length := by
    intro span member
    obtain ⟨other, here, rfl⟩ := List.mem_map.mp member
    have := inside other here
    simp only [Span.relativeTo]
    omega
  have apart : Span.Separate ((Span.merge spans).map (·.relativeTo base)) := by
    refine List.pairwise_map.mpr
      (separate.imp_of_mem fun {left right} left_member right_member before => ?_)
    have := inside left left_member
    have := inside right right_member
    simp only [Span.relativeTo]
    omega
  rw [cutSpans_eq apart relative]
  refine uncovered_congr fun offset _ => ?_
  rw [← covers, Bool.eq_iff_iff, Span.covers_eq_true_iff, Span.covers_eq_true_iff]
  constructor
  · rintro ⟨span, member, held⟩
    obtain ⟨other, here, rfl⟩ := List.mem_map.mp member
    have := inside other here
    refine ⟨other, here, ?_⟩
    simp only [Span.relativeTo] at held
    omega
  · rintro ⟨span, member, held⟩
    have := inside span member
    refine ⟨span.relativeTo base, List.mem_map_of_mem member, ?_⟩
    simp only [Span.relativeTo]
    omega

end Text

end SwiftWorkspace
