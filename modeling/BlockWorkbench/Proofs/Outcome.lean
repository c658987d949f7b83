import Mathlib
import BlockWorkbench.Fault

/-!
Computations that may fail. A sequence succeeds exactly if its first part does and the rest
succeeds on its result, so a successful sequence is taken apart into the results on the way.
-/

namespace BlockWorkbench

variable {ε α β : Type}

theorem bind_eq_ok {x : Except ε α} {f : α → Except ε β} {b : β} :
    (x >>= f) = .ok b ↔ ∃ a, x = .ok a ∧ f a = .ok b := by
  cases x with
  | error e => simp [bind, Except.bind]
  | ok a => simp [bind, Except.bind]

theorem bind_eq_error {x : Except ε α} {f : α → Except ε β} {e : ε} :
    (x >>= f) = .error e ↔ x = .error e ∨ ∃ a, x = .ok a ∧ f a = .error e := by
  cases x with
  | error e' => simp [bind, Except.bind]
  | ok a => simp [bind, Except.bind]

theorem mapError_eq_ok {ε ε' α : Type} {x : Except ε α} {f : ε → ε'} {a : α} :
    x.mapError f = .ok a ↔ x = .ok a := by
  cases x <;> simp [Except.mapError]

theorem map_eq_ok {x : Except ε α} {f : α → β} {b : β} :
    x.map f = .ok b ↔ ∃ a, x = .ok a ∧ f a = b := by
  cases x with
  | error e => simp [Except.map]
  | ok a => simp [Except.map]

/-- What every step of a loop keeps, the loop keeps. -/
theorem foldlM_keeps {f : α → β → Except ε α} {P : α → Prop} {steps : List β} {a b : α}
    (h : steps.foldlM f a = .ok b) (ha : P a)
    (hstep : ∀ step ∈ steps, ∀ a b, P a → f a step = .ok b → P b) : P b := by
  induction steps generalizing a with
  | nil =>
      cases h
      exact ha
  | cons step rest ih =>
      rw [List.foldlM_cons] at h
      obtain ⟨c, hc, h⟩ := bind_eq_ok.mp h
      have hP : P c := hstep step List.mem_cons_self a c ha hc
      exact ih h hP fun step hmem => hstep step (List.mem_cons_of_mem _ hmem)

@[simp]
theorem ok_map (a : α) (f : α → β) : (Except.ok a : Except ε α).map f = .ok (f a) := rfl

@[simp]
theorem error_map (e : ε) (f : α → β) : (Except.error e : Except ε α).map f = .error e := rfl

@[simp]
theorem ok_bind (a : α) (f : α → Except ε β) : (Except.ok a >>= f) = f a := rfl

@[simp]
theorem error_bind (e : ε) (f : α → Except ε β) : (Except.error e >>= f) = .error e := rfl

@[simp]
theorem pure_eq_ok (a : α) : (pure a : Except ε α) = .ok a := rfl

@[simp]
theorem throw_eq_error (e : ε) : (throw e : Except ε α) = .error e := rfl

end BlockWorkbench
