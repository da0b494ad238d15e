/-!
# Computations that can fail or have a state

A computation in steps succeeds when each of its steps does, and hands its state from step to step.
-/

namespace Blueprint

section Except

variable {ε α β : Type} {x : Except ε α} {f : α → Except ε β} {b : β}

instance decidableEqExcept [DecidableEq ε] [DecidableEq α] : DecidableEq (Except ε α)
  | .ok a, .ok b => decidable_of_iff (a = b) ⟨congrArg _, Except.ok.inj⟩
  | .error e, .error e' => decidable_of_iff (e = e') ⟨congrArg _, Except.error.inj⟩
  | .ok _, .error _ => .isFalse nofun
  | .error _, .ok _ => .isFalse nofun

theorem bind_eq_ok_iff : x >>= f = .ok b ↔ ∃ a, x = .ok a ∧ f a = .ok b := by
  cases x <;> simp [bind, Except.bind]

theorem bind_ne_ok (h : ∀ a, x ≠ .ok a) : x >>= f ≠ .ok b := by
  intro hb
  obtain ⟨a, ha, -⟩ := bind_eq_ok_iff.mp hb
  exact h a ha

theorem mapM_eq_ok {g : α → β} {l : List α} {f : α → Except ε β} (h : ∀ a ∈ l, f a = .ok (g a)) :
    l.mapM f = .ok (l.map g) := by
  induction l with
  | nil => rfl
  | cons a l ih =>
    rw [List.mapM_cons, h a List.mem_cons_self, ih fun b hb => h b (List.mem_cons_of_mem a hb)]
    rfl

end Except

theorem pure_apply {σ α : Type} (a : α) (s : σ) : (pure a : StateM σ α) s = (a, s) := rfl

theorem bind_apply {σ α β : Type} (x : StateM σ α) (f : α → StateM σ β) (s : σ) :
    (x >>= f) s = f (x s).1 (x s).2 := rfl

end Blueprint
