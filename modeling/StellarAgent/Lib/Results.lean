import Mathlib.Tactic

set_option autoImplicit false

/-! # Sequences of steps that may fail

A `do` block over `Except` is a chain of binds. It returns exactly if each of its steps does
(`bind_eq_ok`), which takes a chain apart from its front; where the outcome of the first step is
known, the chain goes on with it or is over (`ok_bind`, `error_bind`).
-/

namespace StellarAgent.Lib

section

variable {ε : Type*} {α β : Type}

theorem bind_eq_ok {x : Except ε α} {f : α → Except ε β} {b : β} :
    (x >>= f) = .ok b ↔ ∃ a, x = .ok a ∧ f a = .ok b := by
  cases x with
  | error e => simp [bind, Except.bind]
  | ok a => simp [bind, Except.bind]

theorem ok_bind (a : α) (f : α → Except ε β) : (Except.ok a >>= f) = f a := rfl

theorem error_bind (e : ε) (f : α → Except ε β) : (Except.error e >>= f) = .error e := rfl

theorem pure_eq_ok {a b : α} : (pure a : Except ε α) = .ok b ↔ a = b := by
  simp [pure, Except.pure]

/-- Where a map returns, each of its steps does. -/
theorem exists_of_mapM {f : α → Except ε β} {l : List α} {r : List β} (h : l.mapM f = .ok r) :
    ∀ a ∈ l, ∃ b, f a = .ok b := by
  induction l generalizing r with
  | nil => exact fun a ha => absurd ha List.not_mem_nil
  | cons x l ih =>
      rw [List.mapM_cons] at h
      obtain ⟨y, hy, h⟩ := bind_eq_ok.mp h
      obtain ⟨ys, hys, -⟩ := bind_eq_ok.mp h
      intro a ha
      rcases List.mem_cons.mp ha with rfl | ha
      · exact ⟨y, hy⟩
      · exact ih hys a ha

/-- The outcome of a step that is kept as an option. -/
theorem toOption_eq_some {x : Except ε α} {a : α} : x.toOption = some a ↔ x = .ok a := by
  cases x with
  | error e => simp [Except.toOption]
  | ok b => simp [Except.toOption]

end

end StellarAgent.Lib
