import StellarAgent.Lib.RunningGroups
import StellarAgent.Zk.Circuit

set_option autoImplicit false

/-! # The solvency circuit says what it should

Natural-number payments explain a total within a limit if there are at most `MAX_PAYMENTS`, their
periods never decrease, no period exceeds the limit and the sum is the total.

* Soundness: read as natural numbers, the amounts and periods of a satisfying assignment explain
  the public inputs. Every amount is at most the limit, which is so far below the modulus that no
  sum of the circuit wraps.
* Completeness: periods are replaced by their ranks, which are small, and the list is padded; what
  `build_witness` makes of it is assigned.
-/

namespace StellarAgent.Zk

open Lib

/-! ## The natural-number meaning -/

/-- Payments, each with its period, that explain the total. -/
structure Explains (limit_per_period total_spent : ℕ) (payments : List (ℕ × ℕ)) : Prop where
  length_le : payments.length ≤ MAX_PAYMENTS
  grouped : Grouped limit_per_period payments
  total_eq : (payments.map Prod.fst).sum = total_spent

/-- The amount and the period of a slot as natural numbers. -/
def Slot.read (slot : Slot) : ℕ × ℕ := (slot.amount.val, slot.period_id.val)

/-! ## Small values do not wrap -/

theorem modulus_large : 2 ^ 131 < modulus := by
  unfold modulus
  norm_num

theorem half_large : 2 ^ 131 < half := by
  unfold half modulus
  norm_num

theorem val_cast {n : ℕ} (h : n < 2 ^ 131) : ((n : ℕ) : Fr).val = n :=
  ZMod.val_cast_of_lt (h.trans modulus_large)

theorem cast_inj {m n : ℕ} (hm : m < 2 ^ 131) (hn : n < 2 ^ 131)
    (h : ((m : ℕ) : Fr) = (n : ℕ)) : m = n := by
  rw [← val_cast hm, h, val_cast hn]

/-- The field element of a slot is the number that it is read as. -/
theorem cast_val (a : Fr) : ((a.val : ℕ) : Fr) = a := ZMod.natCast_zmod_val a

variable {holds : Constraint → Prop} (hgadgets : Gadgets holds)

/-! ## Soundness -/

include hgadgets

/-- **One payment.** What its constraints say about the numbers. -/
theorem Loop.constraints_sound {loop : Loop} {limit i : ℕ} {slot : Slot} (hlimit : limit < 2 ^ 128)
    (hrunning : loop.running_period_spend.val ≤ limit)
    (hholds : ∀ c ∈ loop.constraints limit i slot, holds c) :
    slot.amount.val ≤ limit ∧
      (i > 0 → loop.current_period_marker.val ≤ slot.period_id.val) ∧
      (loop.next slot).running_period_spend.val = nextRunning loop.running_period_spend.val
        loop.current_period_marker.val slot.period_id.val slot.amount.val ∧
      (loop.next slot).running_period_spend.val ≤ limit := by
  have hval : ((limit : ℕ) : Fr).val = limit := val_cast (by omega)
  have hamount : slot.amount.val ≤ limit := by
    rw [← hval]
    exact (hgadgets.less_sound _ _ (hholds _ (by simp [Loop.constraints]))).1
  have hspend : (loop.next slot).running_period_spend.val ≤ limit := by
    rw [← hval]
    exact (hgadgets.less_sound _ _ (hholds _ (by simp [Loop.constraints, Loop.next]))).1
  have hbit : slot.same_period = true ↔ slot.period_id = loop.current_period_marker :=
    (hgadgets.is_eq_iff _ _ _).mp (hholds _ (by simp [Loop.constraints]))
  have hbase : slot.period_base = if slot.same_period then loop.running_period_spend else 0 :=
    (hgadgets.select_iff _ _ _ _).mp (hholds _ (by simp [Loop.constraints]))
  have hread : slot.period_base.val = if slot.period_id.val = loop.current_period_marker.val
      then loop.running_period_spend.val else 0 := by
    rw [hbase]
    by_cases hsame : slot.period_id = loop.current_period_marker
    · rw [if_pos (hbit.mpr hsame), if_pos (congrArg ZMod.val hsame)]
    · rw [if_neg (fun h => hsame (hbit.mp h)),
        if_neg (fun h => hsame (ZMod.val_injective modulus h)), ZMod.val_zero]
  refine ⟨hamount, ?_, ?_, hspend⟩
  · intro hi
    exact (hgadgets.greater_sound _ _ (hholds _ (by simp [Loop.constraints, hi]))).1
  · have hsmall : slot.period_base.val ≤ limit := by
      rw [hread]
      split
      · exact hrunning
      · exact Nat.zero_le _
    have hlarge := modulus_large
    have hadd : (slot.period_base + slot.amount).val = slot.period_base.val + slot.amount.val :=
      ZMod.val_add_of_lt (by omega)
    rw [nextRunning, ← hread]
    exact hadd

/-- **The loop.** From the second payment on, the numbers stay within the limit. -/
theorem Loop.run_sound {loop : Loop} {limit i : ℕ} {slots : List Slot} (hlimit : limit < 2 ^ 128)
    (hi : i > 0) (hrunning : loop.running_period_spend.val ≤ limit)
    (hholds : ∀ c ∈ (loop.run limit i slots).1, holds c) :
    RunsWithin limit loop.running_period_spend.val loop.current_period_marker.val
      (slots.map Slot.read) := by
  induction slots generalizing loop i with
  | nil => trivial
  | cons slot slots ih =>
      rw [Loop.run, List.forall_mem_append] at hholds
      obtain ⟨_, horder, hnext, hspend⟩ :=
        Loop.constraints_sound hgadgets hlimit hrunning hholds.1
      rw [List.map_cons]
      refine ⟨horder hi, ?_, ?_⟩
      · show nextRunning _ _ slot.period_id.val slot.amount.val ≤ limit
        rw [← hnext]
        exact hspend
      · show RunsWithin limit (nextRunning _ _ slot.period_id.val slot.amount.val)
          slot.period_id.val (slots.map Slot.read)
        rw [← hnext]
        exact ih (Nat.succ_pos i) hspend hholds.2

omit hgadgets in
/-- The field total is the sum of the numbers. -/
theorem Loop.run_total (loop : Loop) (limit : Fr) (i : ℕ) (slots : List Slot) :
    (loop.run limit i slots).2.total
      = loop.total + (((slots.map Slot.read).map Prod.fst).sum : ℕ) := by
  induction slots generalizing loop i with
  | nil => simp [Loop.run]
  | cons slot slots ih =>
      show ((loop.next slot).run limit (i + 1) slots).2.total = _
      rw [ih, List.map_cons, List.map_cons, List.sum_cons, Nat.cast_add, ← add_assoc]
      congr 1
      show loop.total + slot.amount = loop.total + ((slot.amount.val : ℕ) : Fr)
      rw [cast_val]

/-- **Soundness.** A satisfying assignment is an explanation. -/
theorem satisfies_explains {limit total : ℕ} {slots : List Slot} (hlimit : limit < 2 ^ 128)
    (htotal : total < 2 ^ 128) (h : Satisfies holds slots limit total) :
    Explains limit total (slots.map Slot.read) := by
  obtain ⟨hlength, hholds⟩ := h
  rw [generate_constraints, List.forall_mem_append] at hholds
  have hgrouped : Grouped limit (slots.map Slot.read) := by
    cases slots with
    | nil => exact ⟨List.Pairwise.nil, fun _ => Nat.zero_le _⟩
    | cons slot slots =>
        have hfirst := hholds.1
        rw [Loop.run, List.forall_mem_append] at hfirst
        have hstart : Loop.start.running_period_spend.val ≤ limit := by
          rw [show Loop.start.running_period_spend = 0 from rfl, ZMod.val_zero]
          exact Nat.zero_le limit
        obtain ⟨hamount, _, hnext, hspend⟩ :=
          Loop.constraints_sound hgadgets hlimit hstart hfirst.1
        have hrest := Loop.run_sound hgadgets hlimit (Nat.succ_pos 0) hspend hfirst.2
        rw [hnext] at hrest
        have hzero : nextRunning Loop.start.running_period_spend.val
            Loop.start.current_period_marker.val slot.period_id.val slot.amount.val
              = slot.amount.val := by
          rw [nextRunning, show Loop.start.running_period_spend = 0 from rfl, ZMod.val_zero]
          simp
        rw [hzero] at hrest
        exact grouped_cons_iff.mpr ⟨hamount, hrest⟩
  refine ⟨?_, hgrouped, ?_⟩
  · rw [List.length_map, hlength]
  · have hequal := (hgadgets.equal_iff _ _).mp (hholds.2 _ List.mem_cons_self)
    rw [Loop.run_total, show Loop.start.total = 0 from rfl, zero_add] at hequal
    have hsum : ((slots.map Slot.read).map Prod.fst).sum ≤ MAX_PAYMENTS * limit := by
      rw [← hlength, ← List.length_map Slot.read, ← List.length_map Prod.fst, ← smul_eq_mul]
      refine List.sum_le_card_nsmul _ _ ?_
      intro amount hamount
      obtain ⟨x, hx, rfl⟩ := List.mem_map.mp hamount
      exact hgrouped.amount_le x hx
    unfold MAX_PAYMENTS at hsum
    exact cast_inj (by omega) (by omega) hequal

/-! ## Completeness -/

/-- A payment as field elements. -/
def toPayment (payment : ℕ × ℕ) : PrivatePayment := ⟨(payment.1 : ℕ), (payment.2 : ℕ)⟩

/-- **One payment.** What synthesis assigns satisfies its constraints. -/
theorem Loop.constraints_complete {loop : Loop} {limit running marker i : ℕ} {payment : ℕ × ℕ}
    {slot : Slot} (hslot : slot.toPrivatePayment = toPayment payment)
    (hbit : slot.same_period = decide (slot.period_id = loop.current_period_marker))
    (hbase : slot.period_base = if slot.same_period then loop.running_period_spend else 0)
    (hlimit : limit < 2 ^ 128) (hperiod : payment.2 < 2 ^ 127)
    (hloop : loop.running_period_spend = (running : ℕ) ∧
      loop.current_period_marker = (marker : ℕ))
    (hmarker : marker ≤ payment.2) (hamount : payment.1 ≤ limit)
    (hspend : nextRunning running marker payment.2 payment.1 ≤ limit) :
    (∀ c ∈ loop.constraints limit i slot, holds c) ∧
      (loop.next slot).running_period_spend
        = (nextRunning running marker payment.2 payment.1 : ℕ) := by
  have hlarge := half_large
  have hpay : slot.amount = (payment.1 : ℕ) ∧ slot.period_id = (payment.2 : ℕ) :=
    ⟨congrArg PrivatePayment.amount hslot, congrArg PrivatePayment.period_id hslot⟩
  have hlimitVal : ((limit : ℕ) : Fr).val = limit := val_cast (by omega)
  have hsame : slot.period_id = loop.current_period_marker ↔ payment.2 = marker := by
    rw [hpay.2, hloop.2]
    exact ⟨fun h => cast_inj (by omega) (by omega) h, fun h => by rw [h]⟩
  have hsum : slot.period_base + slot.amount
      = (nextRunning running marker payment.2 payment.1 : ℕ) := by
    rw [hbase, hbit, hpay.1, nextRunning, Nat.cast_add]
    congr 1
    by_cases heq : payment.2 = marker
    · rw [if_pos heq, decide_eq_true (hsame.mpr heq), if_pos rfl, hloop.1]
    · rw [if_neg heq, decide_eq_false (fun h => heq (hsame.mp h)), if_neg (by simp),
        Nat.cast_zero]
  have hless : ∀ n : ℕ, n ≤ limit → holds (.enforce_cmp (n : Fr) limit .lt true) := by
    intro n hn
    refine hgadgets.less_complete _ _ ?_ ?_
    · rw [hlimitVal, val_cast (by omega)]
      exact hn
    · rw [hlimitVal]
      omega
  refine ⟨?_, hsum⟩
  rw [Loop.constraints, List.forall_mem_append, List.forall_mem_append]
  refine ⟨⟨?_, ?_⟩, ?_⟩
  · rw [List.forall_mem_singleton, hpay.1]
    exact hless _ hamount
  · by_cases hi : i > 0
    · rw [if_pos hi, List.forall_mem_singleton, hpay.2, hloop.2]
      refine hgadgets.greater_complete _ _ ?_ ?_
      · rw [val_cast (by omega), val_cast (by omega)]
        exact hmarker
      · rw [val_cast (by omega)]
        omega
    · rw [if_neg hi]
      exact fun c hc => absurd hc List.not_mem_nil
  · rw [List.forall_mem_cons, List.forall_mem_cons, List.forall_mem_singleton]
    refine ⟨?_, ?_, ?_⟩
    · refine (hgadgets.is_eq_iff _ _ _).mpr ?_
      rw [hbit, decide_eq_true_eq]
    · exact (hgadgets.select_iff _ _ _ _).mpr hbase
    · rw [hsum]
      exact hless _ hspend

/-- **The loop.** -/
theorem Loop.assign_complete {loop : Loop} {limit running marker i : ℕ} {payments : List (ℕ × ℕ)}
    (hlimit : limit < 2 ^ 128) (hperiods : ∀ x ∈ payments, x.2 < 2 ^ 127)
    (hloop : loop.running_period_spend = (running : ℕ) ∧
      loop.current_period_marker = (marker : ℕ))
    (hruns : RunsWithin limit running marker payments) :
    ∀ c ∈ (loop.run limit i (loop.assign (payments.map toPayment))).1, holds c := by
  induction payments generalizing loop running marker i with
  | nil => exact fun c hc => absurd hc List.not_mem_nil
  | cons payment payments ih =>
      obtain ⟨hmarker, hspend, hrest⟩ := hruns
      have hamount : payment.1 ≤ limit := (Nat.le_add_left _ _).trans hspend
      let same_period := decide ((toPayment payment).period_id = loop.current_period_marker)
      let slot : Slot := { toPayment payment with
        same_period
        period_base := if same_period then loop.running_period_spend else 0 }
      have hslot : (∀ c ∈ loop.constraints limit i slot, holds c) ∧
          (loop.next slot).running_period_spend
            = (nextRunning running marker payment.2 payment.1 : ℕ) :=
        Loop.constraints_complete hgadgets rfl rfl rfl hlimit
          (hperiods payment List.mem_cons_self) hloop hmarker hamount hspend
      rw [List.map_cons, Loop.assign, Loop.run, List.forall_mem_append]
      exact ⟨hslot.1, ih (fun x hx => hperiods x (List.mem_cons_of_mem payment hx))
        ⟨hslot.2, rfl⟩ hrest⟩

omit hgadgets in
theorem Loop.assign_read {loop : Loop} {payments : List (ℕ × ℕ)}
    (hsmall : ∀ x ∈ payments, x.1 < 2 ^ 131 ∧ x.2 < 2 ^ 131) :
    (loop.assign (payments.map toPayment)).map Slot.read = payments := by
  induction payments generalizing loop with
  | nil => rfl
  | cons payment payments ih =>
      obtain ⟨hamount, hperiod⟩ := hsmall payment List.mem_cons_self
      rw [List.map_cons, Loop.assign, List.map_cons,
        ih (fun x hx => hsmall x (List.mem_cons_of_mem payment hx))]
      congr 1
      exact Prod.ext (val_cast hamount) (val_cast hperiod)

omit hgadgets in
/-- `build_witness` takes every history that stays within the limit. -/
theorem buildPayments_ok {limit running current : ℕ} {first : Bool} {payments : List (ℕ × ℕ)}
    (hlimit : limit < 2 ^ 128) (hfirst : first = true → running = 0)
    (hruns : RunsWithin limit running current payments) :
    buildPayments limit first running current (payments.map fun x => ⟨x.1, x.2⟩)
      = .ok (payments.map toPayment, lastKey current payments) := by
  induction payments generalizing running current first with
  | nil => rfl
  | cons payment payments ih =>
      obtain ⟨_, hspend, hrest⟩ := hruns
      have hamount : payment.1 ≤ limit := (Nat.le_add_left _ _).trans hspend
      have hbase : (if first = true ∨ payment.2 ≠ current then 0 else running)
          = if payment.2 = current then running else 0 := by
        by_cases hsame : payment.2 = current
        · rw [if_pos hsame]
          by_cases hf : first = true
          · rw [if_pos (Or.inl hf), hfirst hf]
          · rw [if_neg (by simp [hf, hsame])]
        · rw [if_neg hsame, if_pos (Or.inr hsame)]
      have hrunning : ((if first = true ∨ payment.2 ≠ current then 0 else running)
          + payment.1) % 2 ^ 128 = nextRunning running current payment.2 payment.1 := by
        rw [hbase]
        exact Nat.mod_eq_of_lt (by unfold nextRunning at hspend; omega)
      rw [List.map_cons, buildPayments, if_neg (not_lt.mpr hamount)]
      dsimp only
      rw [hrunning, if_neg (not_lt.mpr hspend), ih (fun h => by cases h) hrest]
      rfl

/-- The payments that `build_witness` makes of a history: padded with empty payments in the last
period. -/
def padded (payments : List (ℕ × ℕ)) : List (ℕ × ℕ) :=
  payments ++ List.replicate (MAX_PAYMENTS - payments.length) (0, lastKey 0 payments)

omit hgadgets in
theorem build_witness_ok {limit : ℕ} {payments : List (ℕ × ℕ)} (hlimit : limit < 2 ^ 128)
    (hlength : payments.length ≤ MAX_PAYMENTS) (h : Grouped limit payments) :
    build_witness (payments.map fun x => ⟨x.1, x.2⟩) limit
      = .ok ((padded payments).map toPayment) := by
  have hbuild : buildPayments limit true 0 0 (payments.map fun x => ⟨x.1, x.2⟩)
      = .ok (payments.map toPayment, lastKey 0 payments) :=
    buildPayments_ok hlimit (fun _ => rfl) h.runsWithin
  rw [build_witness, List.length_map, if_neg (not_lt.mpr hlength), hbuild, padded,
    List.map_append, List.map_replicate]
  show Except.ok _ = _
  simp [toPayment]

/-- **The prover's witness satisfies the circuit**, for every history with small periods that
explains the total. -/
theorem build_witness_satisfies {limit total : ℕ} {payments : List (ℕ × ℕ)}
    (hlimit : limit < 2 ^ 128) (hperiods : ∀ x ∈ payments, x.2 < 2 ^ 127)
    (h : Explains limit total payments) :
    ∃ witness, build_witness (payments.map fun x => ⟨x.1, x.2⟩) limit = .ok witness ∧
      Satisfies holds (Loop.start.assign witness) limit total := by
  have hlast : ∀ x ∈ payments, x.2 ≤ lastKey 0 payments := h.grouped.runsWithin.le_lastKey.2
  have hpadded : Grouped limit (padded payments) := h.grouped.pad hlast _
  have hlastSmall : lastKey 0 payments < 2 ^ 127 := by
    rcases lastKey_eq_or_mem 0 payments with hzero | ⟨x, hx, heq⟩
    · rw [hzero]
      norm_num
    · rw [heq]
      exact hperiods x hx
  have hsmall : ∀ x ∈ padded payments, x.2 < 2 ^ 127 := by
    intro x hx
    rcases List.mem_append.mp hx with hmem | hpad
    · exact hperiods x hmem
    · rw [List.eq_of_mem_replicate hpad]
      exact hlastSmall
  have hread : (Loop.start.assign ((padded payments).map toPayment)).map Slot.read
      = padded payments := by
    refine Loop.assign_read ?_
    intro x hx
    have hamount := hpadded.amount_le x hx
    have hperiod := hsmall x hx
    constructor <;> omega
  refine ⟨_, build_witness_ok hlimit h.length_le h.grouped, ?_, ?_⟩
  · rw [← List.length_map Slot.read, hread, padded, List.length_append, List.length_replicate]
    exact Nat.add_sub_of_le h.length_le
  · rw [generate_constraints, List.forall_mem_append, List.forall_mem_singleton]
    have hstart : Loop.start.running_period_spend = ((0 : ℕ) : Fr) ∧
        Loop.start.current_period_marker = ((0 : ℕ) : Fr) := by
      rw [Nat.cast_zero]
      exact ⟨rfl, rfl⟩
    refine ⟨Loop.assign_complete hgadgets hlimit hsmall hstart hpadded.runsWithin, ?_⟩
    have hsum : ((padded payments).map Prod.fst).sum = total := by
      rw [padded, List.map_append, List.sum_append, h.total_eq, List.map_replicate,
        List.sum_replicate]
      simp
    rw [hgadgets.equal_iff, Loop.run_total, hread, show Loop.start.total = 0 from rfl, zero_add,
      hsum]

/-- **Completeness.** Every explanation can be proved: ranks are small, and they group the payments
as their periods do. -/
theorem explains_satisfiable {limit total : ℕ} {payments : List (ℕ × ℕ)} (hlimit : limit < 2 ^ 128)
    (h : Explains limit total payments) : Satisfiable holds limit total := by
  have hranked : Explains limit total (byRank payments) := by
    refine ⟨?_, h.grouped.rank, ?_⟩
    · rw [byRank_length]
      exact h.length_le
    · rw [byRank_amounts]
      exact h.total_eq
  have hperiods : ∀ x ∈ byRank payments, x.2 < 2 ^ 127 := by
    intro x hx
    have hrank := byRank_le_length x hx
    have hcount := h.length_le
    unfold MAX_PAYMENTS at hcount
    omega
  obtain ⟨witness, _, hsatisfies⟩ := build_witness_satisfies hgadgets hlimit hperiods hranked
  exact ⟨_, hsatisfies⟩

/-- **The circuit is exact.** Its constraints can be satisfied exactly if payments explain the
public inputs, and what a satisfying assignment holds is such an explanation. -/
theorem solvency_circuit_exact {limit total : ℕ} (hlimit : limit < 2 ^ 127)
    (htotal : total < 2 ^ 127) :
    (Satisfiable holds limit total ↔ ∃ payments, Explains limit total payments) ∧
      ∀ slots, Satisfies holds slots limit total → Explains limit total (slots.map Slot.read) := by
  have hlimit' : limit < 2 ^ 128 := hlimit.trans (by norm_num)
  have htotal' : total < 2 ^ 128 := htotal.trans (by norm_num)
  have hsound : ∀ slots, Satisfies holds slots limit total →
      Explains limit total (slots.map Slot.read) :=
    fun slots hslots => satisfies_explains hgadgets hlimit' htotal' hslots
  refine ⟨⟨?_, ?_⟩, hsound⟩
  · rintro ⟨slots, hslots⟩
    exact ⟨_, hsound slots hslots⟩
  · rintro ⟨payments, hpayments⟩
    exact explains_satisfiable hgadgets hlimit' hpayments

omit hgadgets

/-! ## The library's gadgets -/

/-- What the rows of the gadgets say. A comparison that also accepts equality compares with the
right side plus one, and both sides are bounded by `half`. -/
def Constraint.Rows : Constraint → Prop
  | .enforce_cmp left right .lt true =>
      left.val ≤ half ∧ (right + 1).val ≤ half ∧ left.val < (right + 1).val
  | .enforce_cmp left right .lt false =>
      left.val ≤ half ∧ right.val ≤ half ∧ left.val < right.val
  | .enforce_cmp left right .gt true =>
      right.val ≤ half ∧ (left + 1).val ≤ half ∧ right.val < (left + 1).val
  | .enforce_cmp left right .gt false =>
      right.val ≤ half ∧ left.val ≤ half ∧ right.val < left.val
  | .enforce_cmp _ _ .eq _ => False
  | .is_eq left right bit => bit = true ↔ left = right
  | .conditionally_select bit true_value false_value result =>
      result = if bit then true_value else false_value
  | .enforce_equal left right => left = right

theorem val_add_one {b : Fr} (h : b.val + 1 < modulus) : (b + 1).val = b.val + 1 := by
  have hcast : b + 1 = ((b.val + 1 : ℕ) : Fr) := by
    rw [Nat.cast_add, cast_val, Nat.cast_one]
  rw [hcast, ZMod.val_cast_of_lt h]

/-- The largest element plus one is zero, and nothing is smaller than that. -/
theorem le_of_rows {a b : Fr} (hb : (b + 1).val ≤ half) (hlt : a.val < (b + 1).val) :
    a.val ≤ b.val ∧ b.val ≤ half := by
  have hbound : b.val < modulus := ZMod.val_lt b
  by_cases hlast : b.val + 1 = modulus
  · have hzero : b + 1 = 0 := by
      calc b + 1 = ((b.val + 1 : ℕ) : Fr) := by rw [Nat.cast_add, cast_val, Nat.cast_one]
        _ = 0 := by rw [hlast, ZMod.natCast_self]
    rw [hzero, ZMod.val_zero] at hlt
    exact absurd hlt (Nat.not_lt_zero _)
  · have hnext := val_add_one (b := b) (by omega)
    omega

theorem rows_of_le {a b : Fr} (hle : a.val ≤ b.val) (hb : b.val < half) :
    a.val ≤ half ∧ (b + 1).val ≤ half ∧ a.val < (b + 1).val := by
  have hhalf : half < modulus := by
    unfold half modulus
    norm_num
  have hnext := val_add_one (b := b) (by omega)
  omega

theorem rows_gadgets : Gadgets Constraint.Rows where
  less_sound _ _ h := le_of_rows h.2.1 h.2.2
  less_complete _ _ hle hb := rows_of_le hle hb
  greater_sound _ _ h := le_of_rows h.2.1 h.2.2
  greater_complete _ _ hle hb := rows_of_le hle hb
  is_eq_iff _ _ _ := Iff.rfl
  select_iff _ _ _ _ := Iff.rfl
  equal_iff _ _ := Iff.rfl

/-- Three payments of which two share a period. -/
theorem solvency_circuit_exact_three :
    Satisfiable Constraint.Rows ((10 : ℕ) : Fr) ((14 : ℕ) : Fr) := by
  refine ((solvency_circuit_exact rows_gadgets (by norm_num) (by norm_num)).1).mpr
    ⟨[(6, 3), (4, 3), (4, 8)], by decide, ⟨by decide, ?_⟩, by decide⟩
  intro key
  simp only [groupSum_cons, groupSum_nil]
  by_cases hthree : 3 = key
  · subst hthree
    decide
  · by_cases height : 8 = key
    · simp [hthree, height]
    · simp [hthree, height]

end StellarAgent.Zk
