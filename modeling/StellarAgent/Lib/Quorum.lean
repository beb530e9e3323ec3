import StellarAgent.Lib.Runs

set_option autoImplicit false

/-! # Quorums and the approvals behind them

`Quorum k members p`: at least `k` different members have property `p`. A program that counts
along a list of members has found a quorum if the list has no duplicates (`Quorum.of_countP`).

The second part is about a register of approvals that is written and cleared in the course of a
run: an entry found there is an approval of the history that nothing has consumed since
(`Register.pending`).
-/

namespace StellarAgent.Lib

/-! ## Quorums -/

section

variable {ι : Type*} {k : ℕ} {members : List ι} {p q : ι → Prop}

/-- At least `k` different members have property `p`. -/
def Quorum (k : ℕ) (members : List ι) (p : ι → Prop) : Prop :=
  ∃ S : Finset ι, k ≤ S.card ∧ ∀ i ∈ S, i ∈ members ∧ p i

theorem Quorum.mono (h : Quorum k members p) (hpq : ∀ i ∈ members, p i → q i) :
    Quorum k members q := by
  obtain ⟨S, hcard, hS⟩ := h
  exact ⟨S, hcard, fun i hi => ⟨(hS i hi).1, hpq i (hS i hi).1 (hS i hi).2⟩⟩

/-- A count along a list without duplicates counts different members. -/
theorem Quorum.of_countP [DecidableEq ι] {c : ι → Bool} (hnodup : members.Nodup)
    (hk : k ≤ members.countP c) : Quorum k members (fun i => c i = true) := by
  refine ⟨(members.filter c).toFinset, ?_, fun i hi => ?_⟩
  · rw [List.toFinset_card_of_nodup (hnodup.filter c), ← List.countP_eq_length_filter]
    exact hk
  · exact List.mem_filter.mp (List.mem_toFinset.mp hi)

/-- A list of different members with the property is a quorum of its length. -/
theorem Quorum.of_nodup [DecidableEq ι] {l : List ι} (hnodup : l.Nodup) (hk : k ≤ l.length)
    (hl : ∀ i ∈ l, i ∈ members ∧ p i) : Quorum k members p := by
  refine ⟨l.toFinset, ?_, fun i hi => hl i (List.mem_toFinset.mp hi)⟩
  rw [List.toFinset_card_of_nodup hnodup]
  exact hk

/-- A quorum has a member. -/
theorem Quorum.exists_mem (h : Quorum k members p) (hk : 0 < k) : ∃ i ∈ members, p i := by
  obtain ⟨S, hcard, hS⟩ := h
  obtain ⟨i, hi⟩ := Finset.card_pos.mp (lt_of_lt_of_le hk hcard)
  exact ⟨i, hS i hi⟩

/-- A quorum is no larger than the set of its members. -/
theorem Quorum.le_card [DecidableEq ι] (h : Quorum k members p) : k ≤ members.toFinset.card := by
  obtain ⟨S, hcard, hS⟩ := h
  refine hcard.trans (Finset.card_le_card fun i hi => ?_)
  exact List.mem_toFinset.mpr (hS i hi).1

end

/-! ## Approvals in a run -/

section

variable {σ α κ ι : Type*}

/-- Some transition of `tr` approves at time `n`, and no later one consumes. -/
def Pending (time : σ → ℕ) (approves consumes : Transition σ α → Prop)
    (tr : List (Transition σ α)) (n : ℕ) : Prop :=
  ∃ before x after, tr = before ++ x :: after ∧ approves x ∧ time x.pre = n ∧
    ∀ y ∈ after, ¬ consumes y

variable {time : σ → ℕ} {approves approves' consumes : Transition σ α → Prop}
  {tr : List (Transition σ α)} {x : Transition σ α} {n : ℕ}

theorem Pending.now (hx : approves x) (hn : time x.pre = n) :
    Pending time approves consumes (tr ++ [x]) n :=
  ⟨tr, x, [], rfl, hx, hn, by simp⟩

theorem Pending.later (h : Pending time approves consumes tr n) (hx : ¬ consumes x) :
    Pending time approves consumes (tr ++ [x]) n := by
  obtain ⟨before, y, after, rfl, hy, hn, hafter⟩ := h
  refine ⟨before, y, after ++ [x], by simp, hy, hn, ?_⟩
  rw [List.forall_mem_append, List.forall_mem_singleton]
  exact ⟨hafter, hx⟩

theorem Pending.mono (h : Pending time approves consumes tr n)
    (himp : ∀ x ∈ tr, approves x → approves' x) : Pending time approves' consumes tr n := by
  obtain ⟨before, x, after, rfl, hx, hn, hafter⟩ := h
  exact ⟨before, x, after, rfl, himp x (by simp) hx, hn, hafter⟩

/-- A pending approval is one of the history. -/
theorem Pending.exists_mem (h : Pending time approves consumes tr n) : ∃ x ∈ tr, approves x := by
  obtain ⟨before, x, after, rfl, hx, _⟩ := h
  exact ⟨x, by simp, hx⟩

/-- How the steps of a program keep a register of approvals: an entry found after a step was
there before and the step did not consume it, or the step is the approval. -/
def Register (step : σ → α → σ → Prop) (time : σ → ℕ) (entry : σ → κ → ι → Option ℕ)
    (approves : Transition σ α → κ → ι → Prop) (consumes : Transition σ α → κ → Prop) : Prop :=
  ∀ s a s' key i n, step s a s' → entry s' key i = some n →
    (entry s key i = some n ∧ ¬ consumes ⟨s, a, s'⟩ key) ∨
      (approves ⟨s, a, s'⟩ key i ∧ time s = n)

/-- **An entry of the register is a pending approval of the history.** -/
theorem Register.pending {step : σ → α → σ → Prop} {entry : σ → κ → ι → Option ℕ}
    {approves : Transition σ α → κ → ι → Prop} {consumes : Transition σ α → κ → Prop}
    (hreg : Register step time entry approves consumes) {s t : σ} (h : Run step s tr t)
    (h0 : ∀ key i, entry s key i = none) {key : κ} {i : ι} (hentry : entry t key i = some n) :
    Pending time (fun x => approves x key i) (fun x => consumes x key) tr n := by
  -- induction on the run: the last step kept the entry, or wrote it
  induction h with
  | nil =>
      rw [h0] at hentry
      cases hentry
  | snoc _ hst ih =>
      rcases hreg _ _ _ _ _ _ hst hentry with ⟨hbefore, hkeep⟩ | ⟨happroves, hn⟩
      · exact (ih hbefore).later hkeep
      · exact Pending.now happroves hn

end

end StellarAgent.Lib
