import Mathlib.Data.ZMod.Basic
import Mathlib.Tactic

set_option autoImplicit false

/-! # The solvency circuit

`zk/solvency_proof`. `generate_constraints` walks `MAX_PAYMENTS` private payments with a running
sum for the current period and emits one gadget of the constraint library after the other. An
assignment is given by what the witness variables hold: the amount and the period of each slot, the
bit that `is_eq` allocates and the value that `conditionally_select` allocates. Sums of variables
are not allocated.

What the rows of a gadget mean is the library's part, so a set of satisfied constraints is a
parameter `holds`; `Gadgets` collects what the gadgets promise. `build_witness` is what the prover
fills in.
-/

namespace StellarAgent.Zk

/-! ## The field -/

/-- The order of the BLS12-381 scalar field. -/
def modulus : ℕ := 0x73eda753299d7d483339d80809a1d80553bda402fffe5bfeffffffff00000001

abbrev Fr := ZMod modulus

instance : NeZero modulus := ⟨by decide⟩

/-- The largest value that the comparison gadget accepts. -/
def half : ℕ := (modulus - 1) / 2

def MAX_PAYMENTS : ℕ := 8

/-! ## Constraints -/

structure PrivatePayment where
  amount : Fr
  period_id : Fr

def PrivatePayment.zero : PrivatePayment where
  amount := 0
  period_id := 0

/-- The witness variables of one payment. -/
structure Slot extends PrivatePayment where
  same_period : Bool
  period_base : Fr

/-- One call of a gadget, at the values of its variables. -/
inductive Constraint where
  | enforce_cmp (left right : Fr) (ordering : Ordering) (should_also_check_equality : Bool)
  | is_eq (left right : Fr) (bit : Bool)
  | conditionally_select (bit : Bool) (true_value false_value result : Fr)
  | enforce_equal (left right : Fr)

/-- What the gadgets promise. Comparisons are sound for values up to `half`, which they enforce,
and can be satisfied for values below it. -/
structure Gadgets (holds : Constraint → Prop) : Prop where
  less_sound : ∀ a b, holds (.enforce_cmp a b .lt true) → a.val ≤ b.val ∧ b.val ≤ half
  less_complete : ∀ a b : Fr, a.val ≤ b.val → b.val < half → holds (.enforce_cmp a b .lt true)
  greater_sound : ∀ a b, holds (.enforce_cmp a b .gt true) → b.val ≤ a.val ∧ a.val ≤ half
  greater_complete : ∀ a b : Fr, b.val ≤ a.val → a.val < half → holds (.enforce_cmp a b .gt true)
  is_eq_iff : ∀ a b bit, holds (.is_eq a b bit) ↔ (bit = true ↔ a = b)
  select_iff : ∀ bit t f result,
    holds (.conditionally_select bit t f result) ↔ result = if bit then t else f
  equal_iff : ∀ a b, holds (.enforce_equal a b) ↔ a = b

/-- The variables of the loop. -/
structure Loop where
  total : Fr
  running_period_spend : Fr
  current_period_marker : Fr

def Loop.start : Loop where
  total := 0
  running_period_spend := 0
  current_period_marker := 0

/-- The variables after a payment. -/
def Loop.next (loop : Loop) (slot : Slot) : Loop where
  total := loop.total + slot.amount
  running_period_spend := slot.period_base + slot.amount
  current_period_marker := slot.period_id

/-- The constraints of the payment with index `i`. -/
def Loop.constraints (loop : Loop) (limit_per_period : Fr) (i : ℕ) (slot : Slot) :
    List Constraint :=
  [.enforce_cmp slot.amount limit_per_period .lt true] ++
  (if i > 0 then [.enforce_cmp slot.period_id loop.current_period_marker .gt true] else []) ++
  [.is_eq slot.period_id loop.current_period_marker slot.same_period,
    .conditionally_select slot.same_period loop.running_period_spend 0 slot.period_base,
    .enforce_cmp (slot.period_base + slot.amount) limit_per_period .lt true]

/-- The loop over the payments, from index `i`. -/
def Loop.run (loop : Loop) (limit_per_period : Fr) (i : ℕ) : List Slot → List Constraint × Loop
  | [] => ([], loop)
  | slot :: slots =>
      let (constraints, last) := (loop.next slot).run limit_per_period (i + 1) slots
      (loop.constraints limit_per_period i slot ++ constraints, last)

/-- `SolvencyCircuit::generate_constraints` -/
def generate_constraints (slots : List Slot) (limit_per_period total_spent : Fr) :
    List Constraint :=
  let (constraints, last) := Loop.start.run limit_per_period 0 slots
  constraints ++ [.enforce_equal last.total total_spent]

/-- The assignment satisfies the constraint system. -/
def Satisfies (holds : Constraint → Prop) (slots : List Slot) (limit_per_period total_spent : Fr) :
    Prop :=
  slots.length = MAX_PAYMENTS ∧
    ∀ constraint ∈ generate_constraints slots limit_per_period total_spent, holds constraint

/-- **The constraint system with these public inputs can be satisfied.** -/
def Satisfiable (holds : Constraint → Prop) (limit_per_period total_spent : Fr) : Prop :=
  ∃ slots, Satisfies holds slots limit_per_period total_spent

/-- What synthesis assigns to the other variables, given the payments. -/
def Loop.assign (loop : Loop) : List PrivatePayment → List Slot
  | [] => []
  | payment :: payments =>
      let same_period := decide (payment.period_id = loop.current_period_marker)
      let slot : Slot := { payment with
        same_period
        period_base := if same_period then loop.running_period_spend else 0 }
      slot :: (loop.next slot).assign payments

/-! ## The prover's witness -/

inductive Error where
  | TooManyPayments (given max : ℕ)
  | PaymentExceedsLimit (amount limit : ℕ)
  deriving DecidableEq

/-- One payment of the owner's own record: a `u128` and a `u64`. -/
structure HistoryEntry where
  amount : ℕ
  period_index : ℕ
  deriving DecidableEq

/-- The loop of `build_witness`: the payments, and the last period. `u128` sums wrap. -/
def buildPayments (limit_per_period : ℕ) (first : Bool) (running_period_spend current_period : ℕ) :
    List HistoryEntry → Except Error (List PrivatePayment × ℕ)
  | [] => .ok ([], current_period)
  | entry :: history =>
      if entry.amount > limit_per_period then
        .error (.PaymentExceedsLimit entry.amount limit_per_period)
      else
        let running :=
          if first ∨ entry.period_index ≠ current_period then 0 else running_period_spend
        let running := (running + entry.amount) % 2 ^ 128
        if running > limit_per_period then .error (.PaymentExceedsLimit running limit_per_period)
        else do
          let (payments, last) ←
            buildPayments limit_per_period false running entry.period_index history
          .ok (⟨entry.amount, entry.period_index⟩ :: payments, last)

/-- `build_witness` -/
def build_witness (history : List HistoryEntry) (limit_per_period : ℕ) :
    Except Error (List PrivatePayment) :=
  if history.length > MAX_PAYMENTS then .error (.TooManyPayments history.length MAX_PAYMENTS)
  else do
    let (payments, last) ← buildPayments limit_per_period true 0 0 history
    .ok (payments ++ List.replicate (MAX_PAYMENTS - history.length) ⟨0, last⟩)

end StellarAgent.Zk
