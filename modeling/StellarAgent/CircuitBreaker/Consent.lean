import StellarAgent.CircuitBreaker.Quorum

set_option autoImplicit false

/-! # How old the consent to a flip can be

Each switch consumes its own proposals only, and nodes may propose to unpause while nothing is
paused. So proposals to unpause can lie ready when the system is paused, and lift that pause. What
bounds their age is the window, the last flip of the same switch and the last rotation of the
nodes: every node that a flip counts has consented after anything that lies further back.
-/

namespace StellarAgent.CircuitBreaker

open Lib Soroban

/-- The consent of `node` that a flip at `w` counts: a proposal inside the window that has not been
cleared, made at the end of `before`, ahead of `tail`. -/
structure Consent (before : List Tx) (w : State) (switch : Switch) (node : Address)
    (x : Tx) (tail : List Tx) : Prop where
  suffix : x :: tail <:+ before
  proposes : x.Proposes switch node
  recent : w.sequence ≤ x.pre.sequence + getProposeWindow w
  uncleared : ∀ y ∈ tail, ¬ y.Flips switch ∧ ¬ y.SetsNodes

section

variable {P : Platform} {d : Deployment} {w0 w w' : State} {t : Tx}
  {before after : List Tx} {switch : Switch}

/-- Ledger numbers do not go back along a run. -/
theorem sequence_le (h : Runs P d w before w') : w.sequence ≤ w'.sequence :=
  h.invariant (I := fun m => w.sequence ≤ m.sequence) le_rfl
    (fun _ _ _ hI hst => hI.trans (step_effect hst).1)

/-- Of two transactions of a run, the one at the higher ledger comes later. -/
theorem later_of_sequence_lt (h : Runs P d w0 before w) {s x : Tx} {us vs tail : List Tx}
    (hs : before = us ++ s :: vs) (hx : x :: tail <:+ before)
    (hlt : s.pre.sequence < x.pre.sequence) : x :: tail <:+ vs := by
  obtain ⟨xs, hxs⟩ := hx
  have heq : us ++ s :: vs = xs ++ x :: tail := hs.symm.trans hxs.symm
  rcases List.append_eq_append_iff.mp heq with ⟨zs, hzs, hrest⟩ | ⟨zs, hzs, hrest⟩
  · cases zs with
    | nil =>
        -- the same transaction
        obtain ⟨rfl, _⟩ := List.cons.inj hrest
        exact absurd hlt (lt_irrefl _)
    | cons z zs =>
        obtain ⟨_, rfl⟩ := List.cons.inj hrest
        exact ⟨zs, rfl⟩
  · cases zs with
    | nil =>
        obtain ⟨rfl, _⟩ := List.cons.inj hrest
        exact absurd hlt (lt_irrefl _)
    | cons z zs =>
        -- `x` comes before `s`, so its ledger is not the higher one
        obtain ⟨rfl, rfl⟩ := List.cons.inj hrest
        rw [← hxs] at h
        obtain ⟨_, hst, hrun⟩ := h.around
        obtain ⟨hrun', _, _⟩ := hrun.around
        have hle := (step_effect hst).1.trans (sequence_le hrun')
        exact absurd hlt (not_lt.mpr hle)

/-- **Consent is as fresh as the window.** In every run, behind every successful `execute_pause`
or `unpause` there are at least `QUORUM` entries of the trusted nodes, each with a proposal inside
the window, made since the last flip of the same switch and the last rotation of the nodes; and
made after every transaction, such as the flip of the other switch, that lies further back than
the window. -/
theorem consent_fresh (h0 : Genesis w0) (h : Runs P d w0 (before ++ t :: after) w)
    (hflips : t.Flips switch) :
    ∃ nodes : List Address, nodes.Sublist (getTrustedNodes t.pre) ∧ QUORUM ≤ nodes.length ∧
      ∀ node ∈ nodes, ∃ x tail, Consent before t.pre switch node x tail ∧
        ∀ us s vs, before = us ++ s :: vs →
          s.pre.sequence + getProposeWindow t.pre < t.pre.sequence → x :: tail <:+ vs := by
  obtain ⟨hbefore, hst, _⟩ := h.around
  have hcount := hflips.quorum hst
  rw [countValid, ← counted_length] at hcount
  refine ⟨countedNodes t.pre switch, List.filter_sublist, hcount, fun node hnode => ?_⟩
  obtain ⟨_, proposed_at, hentry, hrecent⟩ := mem_counted.mp hnode
  obtain ⟨xs, x, tail, hsplit, hx, hn, htail⟩ := proposal_pending h0 hbefore hentry
  have hsuffix : x :: tail <:+ before := ⟨xs, hsplit.symm⟩
  refine ⟨x, tail, ⟨hsuffix, hx, ?_, ?_⟩, ?_⟩
  · rw [hn]
    exact hrecent
  · intro y hy
    exact not_or.mp (htail y hy)
  · intro us s vs hs hold
    exact later_of_sequence_lt hbefore hs hsuffix (by omega)

end

/-! ## A pause that is lifted by earlier consent -/

section

open LocalNet

/-- The five nodes propose to unpause, then to pause, and the system is paused. -/
def consentedBefore : List Line :=
  setsUp [1, 2, 3, 4, 5] :: [1, 2, 3, 4, 5].map (proposes .unpause)
    ++ [1, 2, 3, 4, 5].map (proposes .pause)

theorem consent_fresh_unpause :
    ∃ nodes : List Address,
      nodes.Sublist (getTrustedNodes (circuitBreaker.outcome deployment
        (consentedBefore ++ [flips .pause]))) ∧ QUORUM ≤ nodes.length ∧
      ∀ node ∈ nodes, ∃ x tail,
        Consent (circuitBreaker.history deployment (consentedBefore ++ [flips .pause]))
          (circuitBreaker.outcome deployment (consentedBefore ++ [flips .pause])) .unpause node
          x tail ∧
        ∀ us s vs, circuitBreaker.history deployment (consentedBefore ++ [flips .pause])
            = us ++ s :: vs →
          s.pre.sequence + getProposeWindow (circuitBreaker.outcome deployment
              (consentedBefore ++ [flips .pause]))
            < (circuitBreaker.outcome deployment (consentedBefore ++ [flips .pause])).sequence →
          x :: tail <:+ vs := by
  have hflips : Tx.Flips (circuitBreaker.txAfter deployment (consentedBefore ++ [flips .pause])
      (flips .unpause)) .unpause := ⟨_, Contract.txAfter_calls (by decide +kernel)⟩
  exact consent_fresh deployment_genesis (Contract.script_runs_split
    (consentedBefore ++ [flips .pause]) (flips .unpause) [] (by decide +kernel)) hflips

/-- The pause is lifted at once, and nobody has consented since it was set. -/
theorem pause_lifted_by_earlier_consent :
    ¬ ∀ (P : Platform) (d : Deployment) (w0 w : State) (us vs after : List Tx) (s t : Tx)
      (switch other : Switch), Genesis w0 →
      Runs P d w0 (us ++ s :: vs ++ t :: after) w → switch ≠ other → s.Flips other →
      isPaused t.pre = other.flag → t.Flips switch → isPaused t.post = switch.flag →
      (∀ y ∈ vs, ¬ y.Flips switch) →
      ∃ nodes : List Address, nodes.Sublist (getTrustedNodes t.pre) ∧ QUORUM ≤ nodes.length ∧
        ∀ node ∈ nodes, ∃ x ∈ vs, Tx.Proposes x switch node := by
  intro h
  have hpauses : Tx.Flips (circuitBreaker.txAfter deployment consentedBefore (flips .pause))
      .pause := ⟨_, Contract.txAfter_calls (by decide +kernel)⟩
  have hflips : Tx.Flips (circuitBreaker.txAfter deployment (consentedBefore ++ [flips .pause])
      (flips .unpause)) .unpause := ⟨_, Contract.txAfter_calls (by decide +kernel)⟩
  have hrun := Contract.script_runs_split (K := circuitBreaker) (w := deployment)
    (consentedBefore ++ [flips .pause]) (flips .unpause) [] (by decide +kernel)
  rw [Contract.history_split] at hrun
  obtain ⟨nodes, _, hquorum, hnodes⟩ := h platform deployed deployment _ _ [] _ _ _ .unpause .pause
    deployment_genesis hrun (by decide) hpauses (by decide +kernel) hflips (by decide +kernel)
    (by simp)
  cases nodes with
  | nil => exact absurd hquorum (by decide)
  | cons node nodes =>
      obtain ⟨x, hx, _⟩ := hnodes node List.mem_cons_self
      cases hx

end

end StellarAgent.CircuitBreaker
