import BlockWorkbench.Proofs.Script.Running

/-!
Fuel bounds how far a run goes and nothing else: once it lasts, more of it changes neither the
outcome nor what the run leaves.
-/

namespace BlockWorkbench.Script

variable {α : Type}

/-- Where the fuel of `x` lasts, `y` does the same. -/
def Run.Lasts (x y : Run α) : Prop := ∀ m, (x m).1 ≠ .exhausted → y m = x m

theorem bind_apply {β : Type} (x : Run α) (f : α → Run β) (m : Machine) :
    (x >>= f) m = match x m with
      | (.value a, m) => f a m
      | (.raised r, m) => (.raised r, m)
      | (.exhausted, m) => (.exhausted, m) := rfl

theorem Run.Lasts.refl (x : Run α) : x.Lasts x := fun _ _ => rfl

theorem Run.Lasts.bind {β : Type} {x y : Run α} {f g : α → Run β} (hx : x.Lasts y)
    (hf : ∀ a, (f a).Lasts (g a)) : (x >>= f).Lasts (y >>= g) := by
  intro m h
  rw [bind_apply] at h ⊢
  rw [bind_apply]
  cases hxm : x m with | mk out m' =>
  rw [hxm] at h
  cases out with
  | value a => simpa [hx m (by simp [hxm]), hxm] using hf a m' h
  | raised r => simp [hx m (by simp [hxm]), hxm]
  | exhausted => exact absurd rfl h

theorem Run.Lasts.nested {x y : Run α} (h : x.Lasts y) : x.nested.Lasts y.nested := by
  intro m hm
  unfold Run.nested at hm ⊢
  split
  · rfl
  · rename_i hdepth
    simp only [if_neg hdepth] at hm
    rw [h _ hm]

theorem respected_lasts : Respected (fun _ => True) (fun _ => True) Run.Lasts where
  ofBinds := id
  inCall _ := trivial
  value _ := .refl _
  raised _ := .refl _
  exhausted _ := fun _ h => absurd rfl h
  bind := Run.Lasts.bind
  nested := Run.Lasts.nested
  ask _ := .refl _
  act _ := .refl _
  nameValue _ _ := .refl _
  bindName _ _ _ := .refl _
  makeFunction _ _ _ _ _ := .refl _
  register _ _ := .refl _
  manifest _ := .refl _

variable {fuel fuel' : Nat}

theorem lasts_call (h : fuel ≤ fuel') (f : Value) (args : List Value) :
    (call fuel f args).Lasts (call fuel' f args) :=
  (respected_lasts.related h).call f args

theorem lasts_runAll (h : fuel ≤ fuel') (program : Program) :
    (runAll fuel program).Lasts (runAll fuel' program) :=
  respected_lasts.runAll trivial h program

end BlockWorkbench.Script
