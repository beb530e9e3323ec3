import StellarAgent.Zk.Prover

set_option autoImplicit false

/-! # What the prover accepts

`build_witness` says that it runs the checks of the circuit. It does not look at the order of the
periods, and its sums wrap as those of `history_total` do. So an accepted history can be proved
exactly if its periods never decrease and its amounts add up to a `u128` (`accepted_provable_iff`).
In the other direction nothing is missing: a history that respects the limit is proved.
-/

namespace StellarAgent.Zk

open Lib

/-! ## Overflow -/

/-- The sums that the loop of `build_witness` forms, before they wrap -/
def runningSums (first : Bool) (running_period_spend current_period : ℕ) :
    List HistoryEntry → List ℕ
  | [] => []
  | entry :: history =>
      let running :=
        if first ∨ entry.period_index ≠ current_period then 0 else running_period_spend
      (running + entry.amount) ::
        runningSums false ((running + entry.amount) % 2 ^ 128) entry.period_index history

/-- Neither `history_total` nor `build_witness` overflows. -/
structure Fits (history : List HistoryEntry) : Prop where
  total : (history.map HistoryEntry.amount).sum < 2 ^ 128
  running : ∀ sum ∈ runningSums true 0 0 history, sum < 2 ^ 128

/-- A history of `u128` amounts and `u64` periods -/
def MachineSized (history : List HistoryEntry) : Prop :=
  ∀ entry ∈ history, entry.amount < 2 ^ 128 ∧ entry.period_index < 2 ^ 64

/-- The periods never decrease. -/
def Ordered (history : List HistoryEntry) : Prop :=
  ((grouped history).map Prod.snd).Pairwise (· ≤ ·)

theorem runningSums_le {first : Bool} {running current : ℕ} {history : List HistoryEntry} :
    ∀ sum ∈ runningSums first running current history,
      sum ≤ running + (history.map HistoryEntry.amount).sum := by
  induction history generalizing first running current with
  | nil => exact fun sum hsum => absurd hsum List.not_mem_nil
  | cons entry history ih =>
      intro sum hsum
      rw [List.map_cons, List.sum_cons]
      have hbase : (if first = true ∨ entry.period_index ≠ current then 0 else running) ≤ running := by
        split
        · exact Nat.zero_le running
        · exact le_rfl
      rcases List.mem_cons.mp hsum with rfl | hrest
      · omega
      · have hnext := ih sum hrest
        have hwrap := Nat.mod_le ((if first = true ∨ entry.period_index ≠ current then 0
          else running) + entry.amount) (2 ^ 128)
        omega

/-- A total that fits is enough. -/
theorem fits_of_total {history : List HistoryEntry}
    (h : (history.map HistoryEntry.amount).sum < 2 ^ 128) : Fits history := by
  refine ⟨h, fun sum hsum => lt_of_le_of_lt ?_ h⟩
  have hle := runningSums_le sum hsum
  rwa [Nat.zero_add] at hle

/-! ## What is built -/

theorem buildPayments_eq {limit running current : ℕ} {first : Bool} {history : List HistoryEntry}
    {result : List PrivatePayment × ℕ}
    (h : buildPayments limit first running current history = .ok result) :
    result = ((grouped history).map toPayment, lastKey current (grouped history)) := by
  induction history generalizing running current first result with
  | nil => exact (Except.ok.inj h).symm
  | cons entry history ih =>
      rw [buildPayments] at h
      split at h
      · cases h
      dsimp only at h
      generalize (if first = true ∨ entry.period_index ≠ current then 0 else running) = base at h
      split at h
      · cases h
      obtain ⟨rest, hrest, h⟩ := bind_eq_ok.mp h
      obtain rfl := ih hrest
      exact (Except.ok.inj h).symm

/-- **The witness** is the history, padded. -/
theorem build_witness_eq {limit : ℕ} {history : List HistoryEntry} {payments : List PrivatePayment}
    (h : build_witness history limit = .ok payments) :
    history.length ≤ MAX_PAYMENTS ∧ payments = (padded (grouped history)).map toPayment := by
  rw [build_witness] at h
  split at h
  · cases h
  rename_i hlength
  obtain ⟨result, hbuild, h⟩ := bind_eq_ok.mp h
  obtain rfl := buildPayments_eq hbuild
  refine ⟨not_lt.mp hlength, ?_⟩
  rw [← Except.ok.inj h, padded, List.map_append, List.map_replicate, grouped, List.length_map]
  simp [toPayment]

theorem padded_small {history : List HistoryEntry} (h : MachineSized history) :
    ∀ x ∈ padded (grouped history), x.1 < 2 ^ 128 ∧ x.2 < 2 ^ 64 := by
  have hgrouped : ∀ x ∈ grouped history, x.1 < 2 ^ 128 ∧ x.2 < 2 ^ 64 := by
    intro x hx
    obtain ⟨entry, hentry, rfl⟩ := List.mem_map.mp hx
    exact h entry hentry
  intro x hx
  rcases List.mem_append.mp hx with hmem | hpad
  · exact hgrouped x hmem
  · rw [List.eq_of_mem_replicate hpad]
    refine ⟨by norm_num, ?_⟩
    rcases lastKey_eq_or_mem 0 (grouped history) with hzero | ⟨y, hy, hlast⟩
    · rw [hzero]
      norm_num
    · rw [hlast]
      exact (hgrouped y hy).2

/-! ## Accepted histories -/

section

variable {holds : Constraint → Prop} {is_satisfied : List Constraint → Bool} {Proof : Type}
  {groth16 : List PrivatePayment → Fr × Fr → Proof} {limit total : ℕ}
  {history : List HistoryEntry} {payments : List PrivatePayment}

/-- What is promised of an accepted history: no sum overflows, what `prove` assigns satisfies the
circuit, and `prove` does not find it unsatisfiable. -/
structure Provable (holds : Constraint → Prop) (is_satisfied : List Constraint → Bool)
    (groth16 : List PrivatePayment → Fr × Fr → Proof) (history : List HistoryEntry)
    (limit total : ℕ) (payments : List PrivatePayment) : Prop where
  fits : Fits history
  satisfied : Satisfies holds (Loop.start.assign payments) limit total
  proved : prove is_satisfied groth16 history limit total ≠ .error .Unsatisfiable

theorem amounts_grouped (history : List HistoryEntry) :
    (grouped history).map Prod.fst = history.map HistoryEntry.amount := by
  rw [grouped, List.map_map]
  rfl

theorem assign_length (loop : Loop) (payments : List PrivatePayment) :
    (loop.assign payments).length = payments.length := by
  induction payments generalizing loop with
  | nil => rfl
  | cons payment payments ih => rw [Loop.assign, List.length_cons, List.length_cons, ih]

/-- What does not satisfy the circuit is refused as unsatisfiable. -/
theorem prove_unsatisfiable
    (hsatisfied : ∀ constraints, is_satisfied constraints = true ↔ ∀ c ∈ constraints, holds c)
    (htotal : history_total history = total) (hbuild : build_witness history limit = .ok payments)
    (h : ¬ Satisfies holds (Loop.start.assign payments) limit total) :
    prove is_satisfied groth16 history limit total = .error .Unsatisfiable := by
  have hlength : (Loop.start.assign payments).length = MAX_PAYMENTS := by
    obtain ⟨hshort, rfl⟩ := build_witness_eq hbuild
    have hgrouped : (grouped history).length = history.length := List.length_map _
    rw [assign_length, List.length_map, padded, List.length_append, List.length_replicate, hgrouped]
    exact Nat.add_sub_of_le hshort
  rw [prove, if_neg (not_not.mpr htotal), hbuild]
  exact if_neg fun hall => h ⟨hlength, (hsatisfied _).mp hall⟩

/-- The circuit wants periods that never decrease. -/
theorem ordered_of_satisfies (hgadgets : Gadgets holds) (hsized : MachineSized history)
    (hlimit : limit < 2 ^ 128) (htotal : total < 2 ^ 128)
    (hbuild : build_witness history limit = .ok payments)
    (h : Satisfies holds (Loop.start.assign payments) limit total) : Ordered history := by
  obtain ⟨-, rfl⟩ := build_witness_eq hbuild
  have hexplains := satisfies_explains hgadgets hlimit htotal h
  have hsmall : ∀ x ∈ padded (grouped history), x.1 < 2 ^ 131 ∧ x.2 < 2 ^ 131 := by
    intro x hx
    have hx := padded_small hsized x hx
    omega
  rw [Loop.assign_read hsmall] at hexplains
  have hordered := hexplains.grouped.ordered
  rw [padded, List.map_append] at hordered
  exact (List.pairwise_append.mp hordered).1

/-- **Accepted histories with ordered periods and a total that fits satisfy the circuit.** -/
theorem satisfies_of_ordered (hgadgets : Gadgets holds) (hsized : MachineSized history)
    (hlimit : limit < 2 ^ 128) (htotal : history_total history = total)
    (hbuild : build_witness history limit = .ok payments) (hordered : Ordered history)
    (hsum : (history.map HistoryEntry.amount).sum < 2 ^ 128) :
    Satisfies holds (Loop.start.assign payments) limit total := by
  have hlength := (build_witness_eq hbuild).1
  have hbuild' := hbuild
  rw [build_witness, if_neg (not_lt.mpr hlength)] at hbuild'
  obtain ⟨result, hresult, -⟩ := bind_eq_ok.mp hbuild'
  have hstart : (0 :: (grouped history).map Prod.snd).Pairwise (· ≤ ·) :=
    List.pairwise_cons.mpr ⟨fun _ _ => Nat.zero_le _, hordered⟩
  have hwithin := buildPayments_within (Or.inr (by rwa [Nat.zero_add])) (Nat.zero_le limit)
    (fun _ => rfl) hstart hresult
  have hgroups : ∀ period, groupSum period (grouped history) ≤ limit := by
    intro period
    have hgroup := ((runsWithin_iff (Nat.zero_le limit)).mp hwithin).2 period
    rwa [ite_self, zero_add] at hgroup
  have hexplains : Explains limit total (grouped history) := by
    refine ⟨by rwa [grouped, List.length_map], ⟨hordered, hgroups⟩, ?_⟩
    rw [amounts_grouped, ← htotal, history_total, Nat.mod_eq_of_lt hsum]
  have hperiods : ∀ x ∈ grouped history, x.2 < 2 ^ 127 := by
    intro x hx
    obtain ⟨entry, hentry, rfl⟩ := List.mem_map.mp hx
    exact (hsized entry hentry).2.trans (by norm_num)
  obtain ⟨witness, hwitness, hsatisfies⟩ :=
    build_witness_satisfies hgadgets hlimit hperiods hexplains
  rw [grouped_ungroup, hbuild] at hwitness
  rwa [Except.ok.inj hwitness]

/-- **Which accepted histories can be proved**: those whose periods never decrease and whose amounts
add up to a `u128`. And a history that respects the limit is accepted and proved. -/
theorem accepted_provable_iff (hgadgets : Gadgets holds)
    (hsatisfied : ∀ constraints, is_satisfied constraints = true ↔ ∀ c ∈ constraints, holds c)
    (hsized : MachineSized history) (hlimit : limit < 2 ^ 128) (htotal : total < 2 ^ 128) :
    (∀ payments, history_total history = total → build_witness history limit = .ok payments →
      (Provable holds is_satisfied groth16 history limit total payments ↔
        Ordered history ∧ (history.map HistoryEntry.amount).sum < 2 ^ 128)) ∧
    (history.length ≤ MAX_PAYMENTS → Ordered history →
      (∀ period, groupSum period (grouped history) ≤ limit) →
      (history.map HistoryEntry.amount).sum = total →
      ∃ payments, build_witness history limit = .ok payments ∧
        prove is_satisfied groth16 history limit total = .ok (groth16 payments (limit, total))) := by
  constructor
  · intro payments hsum hbuild
    constructor
    · intro h
      exact ⟨ordered_of_satisfies hgadgets hsized hlimit htotal hbuild h.satisfied, h.fits.total⟩
    · rintro ⟨hordered, hfits⟩
      have hsatisfies :=
        satisfies_of_ordered hgadgets hsized hlimit hsum hbuild hordered hfits
      refine ⟨fits_of_total hfits, hsatisfies, ?_⟩
      rw [prove, if_neg (not_not.mpr hsum), hbuild]
      dsimp only
      rw [if_pos ((hsatisfied _).mpr hsatisfies.2)]
      exact fun h => by cases h
  · intro hlength hordered hgroups hsum
    have hfits : (history.map HistoryEntry.amount).sum < 2 ^ 128 := hsum ▸ htotal
    refine prove_ok hgadgets hsatisfied hlimit hlength hordered (fun entry hentry => ?_) ?_ hfits
      hgroups
    · exact (hsized entry hentry).2.trans (by norm_num)
    · rw [history_total, Nat.mod_eq_of_lt hfits, hsum]

end

/-! ## Samples -/

/-- The library's check of a constraint system -/
noncomputable def rowsSatisfied (constraints : List Constraint) : Bool :=
  @decide (∀ c ∈ constraints, c.Rows) (Classical.propDecidable _)

theorem rowsSatisfied_iff (constraints : List Constraint) :
    rowsSatisfied constraints = true ↔ ∀ c ∈ constraints, c.Rows :=
  @decide_eq_true_iff _ (Classical.propDecidable _)

/-- Two payments in one period and one in the next -/
def orderedHistory : List HistoryEntry := [⟨6, 3⟩, ⟨4, 3⟩, ⟨4, 8⟩]

theorem ordered_history_provable :
    ∃ payments, build_witness orderedHistory 10 = .ok payments ∧
      Provable Constraint.Rows rowsSatisfied (fun payments _ => payments) orderedHistory 10 14
        payments := by
  have hsized : MachineSized orderedHistory := by
    unfold MachineSized
    decide
  have hbuild : ∃ payments, build_witness orderedHistory 10 = .ok payments := ⟨_, rfl⟩
  obtain ⟨payments, hbuild⟩ := hbuild
  refine ⟨payments, hbuild, ?_⟩
  refine ((accepted_provable_iff rows_gadgets rowsSatisfied_iff hsized (by norm_num)
    (by norm_num)).1 payments (by decide) hbuild).mpr ⟨?_, by decide⟩
  unfold Ordered
  decide

/-- Two payments, the second in an earlier period -/
def reversedHistory : List HistoryEntry := [⟨1, 1⟩, ⟨1, 0⟩]

/-- `build_witness` takes a history that goes back, and the circuit does not. -/
theorem reversed_history_unsatisfiable :
    history_total reversedHistory = 2 ∧
    (∃ payments, build_witness reversedHistory 10 = .ok payments ∧
      ¬ Satisfies Constraint.Rows (Loop.start.assign payments) ((10 : ℕ) : Fr) ((2 : ℕ) : Fr)) ∧
    prove rowsSatisfied (fun payments _ => payments) reversedHistory 10 2 =
      .error .Unsatisfiable := by
  have hsized : MachineSized reversedHistory := by
    unfold MachineSized
    decide
  have hreversed : ¬ Ordered reversedHistory := by
    unfold Ordered
    decide
  obtain ⟨payments, hbuild⟩ : ∃ payments, build_witness reversedHistory 10 = .ok payments := ⟨_, rfl⟩
  have hunsatisfied : ¬ Satisfies Constraint.Rows (Loop.start.assign payments) ((10 : ℕ) : Fr)
      ((2 : ℕ) : Fr) := fun h =>
    hreversed (ordered_of_satisfies rows_gadgets hsized (by norm_num) (by norm_num) hbuild h)
  exact ⟨by decide, ⟨payments, hbuild, hunsatisfied⟩,
    prove_unsatisfiable rowsSatisfied_iff (by decide) hbuild hunsatisfied⟩

end StellarAgent.Zk
