import StellarAgent.Lib.Results
import StellarAgent.Zk.Solvency

set_option autoImplicit false

/-! # The prover

`prove` of `zk/solvency_proof`. The proof system is the library's: whether a set of constraints is
satisfied and the proof itself are parameters. For a history whose periods never decrease, the
witness can be built exactly if no period exceeds the limit (`build_witness_ok_iff`), and then
the proof can be made (`prove_ok`).
-/

namespace StellarAgent.Zk

open Lib

inductive ProveError where
  | witness (error : Error)
  | TotalMismatch (computed claimed : ℕ)
  | Unsatisfiable
  deriving DecidableEq

/-- The sum of a history; `u128` sums wrap. -/
def history_total (history : List HistoryEntry) : ℕ :=
  (history.map HistoryEntry.amount).sum % 2 ^ 128

/-- `prove`, for the public inputs `limit_per_period` and `total_spent` -/
def prove {Proof : Type} (is_satisfied : List Constraint → Bool)
    (groth16 : List PrivatePayment → Fr × Fr → Proof) (history : List HistoryEntry)
    (limit_per_period total_spent : ℕ) : Except ProveError Proof :=
  if history_total history ≠ total_spent then
    .error (.TotalMismatch (history_total history) total_spent)
  else
    match build_witness history limit_per_period with
    | .error error => .error (.witness error)
    | .ok payments =>
        if is_satisfied (generate_constraints (Loop.start.assign payments) limit_per_period
            total_spent) then
          .ok (groth16 payments (limit_per_period, total_spent))
        else .error .Unsatisfiable

/-! ## Which histories have a witness -/

/-- The amounts of a history, each with its period -/
def grouped (history : List HistoryEntry) : List (ℕ × ℕ) :=
  history.map fun entry => (entry.amount, entry.period_index)

theorem grouped_ungroup (history : List HistoryEntry) :
    (grouped history).map (fun x => (⟨x.1, x.2⟩ : HistoryEntry)) = history := by
  rw [grouped, List.map_map]
  exact List.map_id history

/-- What the loop of `build_witness` takes stays within the limit, if its sums do not wrap. -/
theorem buildPayments_within {limit running current : ℕ} {first : Bool}
    {history : List HistoryEntry} {result : List PrivatePayment × ℕ}
    (hfits : limit < 2 ^ 127 ∨ running + (history.map HistoryEntry.amount).sum < 2 ^ 128)
    (hrunning : running ≤ limit) (hfirst : first = true → running = 0)
    (hordered : (current :: (grouped history).map Prod.snd).Pairwise (· ≤ ·))
    (h : buildPayments limit first running current history = .ok result) :
    RunsWithin limit running current (grouped history) := by
  induction history generalizing running current first result with
  | nil => trivial
  | cons entry history ih =>
      rw [buildPayments] at h
      split at h
      · cases h
      rename_i hamount
      have hbase : (if first = true ∨ entry.period_index ≠ current then 0 else running)
          = if entry.period_index = current then running else 0 := by
        by_cases hsame : entry.period_index = current
        · rw [if_pos hsame]
          by_cases hf : first = true
          · rw [if_pos (Or.inl hf), hfirst hf]
          · rw [if_neg (by simp [hf, hsame])]
        · rw [if_neg hsame, if_pos (Or.inr hsame)]
      have hwrap : ((if first = true ∨ entry.period_index ≠ current then 0 else running)
          + entry.amount) % 2 ^ 128
            = nextRunning running current entry.period_index entry.amount := by
        rw [hbase]
        refine Nat.mod_eq_of_lt ?_
        rw [List.map_cons, List.sum_cons] at hfits
        split <;> omega
      dsimp only at h
      rw [hwrap] at h
      split at h
      · cases h
      rename_i hspend
      obtain ⟨rest, hrest, _⟩ := bind_eq_ok.mp h
      have hcons := List.pairwise_cons.mp hordered
      have hnext : nextRunning running current entry.period_index entry.amount ≤
          running + entry.amount := by
        unfold nextRunning
        split <;> omega
      refine ⟨hcons.1 _ List.mem_cons_self, not_lt.mp hspend, ?_⟩
      refine ih ?_ (not_lt.mp hspend) (fun hfalse => by cases hfalse) hcons.2 hrest
      rw [List.map_cons, List.sum_cons] at hfits
      omega

/-- **Which histories have a witness.** If the periods never decrease, a history of at most
`MAX_PAYMENTS` payments has one exactly if no period exceeds the limit. -/
theorem build_witness_ok_iff {limit : ℕ} {history : List HistoryEntry} (hlimit : limit < 2 ^ 127)
    (hlength : history.length ≤ MAX_PAYMENTS)
    (hordered : ((grouped history).map Prod.snd).Pairwise (· ≤ ·)) :
    (∃ payments, build_witness history limit = .ok payments) ↔
      ∀ period, groupSum period (grouped history) ≤ limit := by
  constructor
  · rintro ⟨payments, h⟩
    rw [build_witness, if_neg (not_lt.mpr hlength)] at h
    obtain ⟨result, hbuild, _⟩ := bind_eq_ok.mp h
    have hstart : (0 :: (grouped history).map Prod.snd).Pairwise (· ≤ ·) :=
      List.pairwise_cons.mpr ⟨fun _ _ => Nat.zero_le _, hordered⟩
    have hwithin := buildPayments_within (Or.inl hlimit) (Nat.zero_le limit) (fun _ => rfl) hstart hbuild
    intro period
    have hgroup := ((runsWithin_iff (Nat.zero_le limit)).mp hwithin).2 period
    rwa [ite_self, zero_add] at hgroup
  · intro h
    have hbuild := build_witness_ok (hlimit.trans (by norm_num)) (by rwa [grouped, List.length_map])
      (⟨hordered, h⟩ : Grouped limit (grouped history))
    rw [grouped_ungroup] at hbuild
    exact ⟨_, hbuild⟩

/-! ## The proof -/

variable {holds : Constraint → Prop} {is_satisfied : List Constraint → Bool} {Proof : Type}
  {groth16 : List PrivatePayment → Fr × Fr → Proof}

/-- **What has a witness can be proved**, for its own total. -/
theorem prove_ok (hgadgets : Gadgets holds)
    (hsatisfied : ∀ constraints, is_satisfied constraints = true ↔ ∀ c ∈ constraints, holds c)
    {limit total : ℕ} {history : List HistoryEntry} (hlimit : limit < 2 ^ 128)
    (hlength : history.length ≤ MAX_PAYMENTS)
    (hordered : ((grouped history).map Prod.snd).Pairwise (· ≤ ·))
    (hperiods : ∀ entry ∈ history, entry.period_index < 2 ^ 127)
    (htotal : history_total history = total)
    (hsum : (history.map HistoryEntry.amount).sum < 2 ^ 128)
    (h : ∀ period, groupSum period (grouped history) ≤ limit) :
    ∃ payments, build_witness history limit = .ok payments ∧
      prove is_satisfied groth16 history limit total = .ok (groth16 payments (limit, total)) := by
  have hamounts : (grouped history).map Prod.fst = history.map HistoryEntry.amount := by
    rw [grouped, List.map_map]
    rfl
  have hexplains : Explains limit total (grouped history) := by
    refine ⟨by rwa [grouped, List.length_map], ⟨hordered, h⟩, ?_⟩
    rw [hamounts, ← htotal, history_total, Nat.mod_eq_of_lt hsum]
  have hsmall : ∀ x ∈ grouped history, x.2 < 2 ^ 127 := by
    intro x hx
    obtain ⟨entry, hentry, rfl⟩ := List.mem_map.mp hx
    exact hperiods entry hentry
  obtain ⟨payments, hbuild, _, hholds⟩ :=
    build_witness_satisfies hgadgets hlimit hsmall hexplains
  rw [grouped_ungroup] at hbuild
  refine ⟨payments, hbuild, ?_⟩
  rw [prove, if_neg (not_not.mpr htotal), hbuild]
  exact if_pos ((hsatisfied _).mpr hholds)

end StellarAgent.Zk
