/-!
# Outcomes

What is known of an operation that can fail when it is known to have succeeded: it held a value,
and so did each of the operations that it is put together from.
-/

namespace SwiftWorkspace

namespace Outcome

variable {ε ε' α β : Type} {outcome : Except ε α}

theorem exists_of_isOk (outcome : Except ε α) (succeeds : outcome.isOk) :
    ∃ value, outcome = .ok value := by
  cases outcome with
  | error cause => cases succeeds
  | ok value => exact ⟨value, rfl⟩

theorem bind_eq_ok {next : α → Except ε β} {result : β} :
    (outcome >>= next) = .ok result ↔ ∃ value, outcome = .ok value ∧ next value = .ok result := by
  cases outcome <;> simp [bind, Except.bind]

theorem map_eq_ok {change : α → β} {result : β} :
    outcome.map change = .ok result ↔ ∃ value, outcome = .ok value ∧ change value = result := by
  cases outcome <;> simp [Except.map]

theorem mapError_eq_ok {change : ε → ε'} {value : α} :
    outcome.mapError change = .ok value ↔ outcome = .ok value := by
  constructor
  · intro mapped
    cases outcome with
    | ok held =>
        obtain rfl := Except.ok.inj mapped
        rfl
    | error cause => cases mapped
  · rintro rfl
    rfl

end Outcome

end SwiftWorkspace
