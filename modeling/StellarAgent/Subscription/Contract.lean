import StellarAgent.Soroban.Transactions

set_option autoImplicit false
set_option linter.dupNamespace false

/-! # The subscription contract

`contracts/subscription/src/lib.rs`: a payer lets a payee draw a fixed amount once per interval, for
a limited number of periods. `collect` and `cancel` draw the periods that have elapsed, at most
`MAX_CATCHUP_PERIODS` of them in one call.

The source does not compile as it stands; it is read with `sub.max_periods` for the undefined
`max_periods` of `due_periods_capped`, and its misspelt names as the ones that they stand for.
Left out: the queries, and the admin, whom nothing asks.
-/

namespace StellarAgent.Subscription

open Soroban

/-- The periods that one call catches up at most. -/
def MAX_CATCHUP_PERIODS : Nat := 32

def MAX_SUBSCRIPTIONS_PER_PAYEE : Nat := 128

/-! ## Records and storage -/

inductive SubscriptionStatus where
  | Active
  | Cancelled
  | Completed
  | Exhausted
  deriving DecidableEq, Repr

structure Subscription where
  id : Nat
  payer : Address
  payee : Address
  token : Address
  amount : Int
  interval_ledgers : Nat
  max_periods : Nat
  current_period : Nat
  start_ledger : Nat
  next_collection_ledger : Nat
  status : SubscriptionStatus
  cancelled_at_ledger : Option Nat
  deriving DecidableEq

inductive SubscriptionError where
  | AlreadyInitialized
  | NotInitialized
  | InvalidAmount
  | InvalidInterval
  | InvalidCap
  | SubscriptionNotFound
  | NotAuthorized
  | NotDue
  | NotActive
  | CapExhausted
  | InsufficientBalance
  | TooManySubscriptions
  | InvalidSelfPay
  deriving DecidableEq, Repr

/-- The error's name, with which a call that panics on it fails. -/
def SubscriptionError.text : SubscriptionError → String
  | .AlreadyInitialized => "AlreadyInitialized"
  | .NotInitialized => "NotInitialized"
  | .InvalidAmount => "InvalidAmount"
  | .InvalidInterval => "InvalidInterval"
  | .InvalidCap => "InvalidCap"
  | .SubscriptionNotFound => "SubscriptionNotFound"
  | .NotAuthorized => "NotAuthorized"
  | .NotDue => "NotDue"
  | .NotActive => "NotActive"
  | .CapExhausted => "CapExhausted"
  | .InsufficientBalance => "InsufficientBalance"
  | .TooManySubscriptions => "TooManySubscriptions"
  | .InvalidSelfPay => "InvalidSelfPay"

/-- One field for each key. -/
structure Storage where
  subs : Option (List Subscription)
  subs_next : Option Nat

/-- The storage of a freshly deployed contract. -/
def Storage.fresh : Storage where
  subs := none
  subs_next := none

/-- The world a subscription contract runs in. It publishes no events. -/
abbrev State := World Storage Empty

/-! ## Reading and writing storage -/

/-- `load_subscriptions` -/
def loadSubscriptions (w : State) : List Subscription := w.storage.subs.getD []

/-- `save_subscriptions` -/
def saveSubscriptions (w : State) (subs : List Subscription) : State :=
  { w with storage := { w.storage with subs := some subs } }

/-- `next_id` -/
def nextId (w : State) : Nat := w.storage.subs_next.getD 0

/-- `bump_next_id` -/
def bumpNextId (w : State) : Result State := do
  let next ← checkU32 (nextId w + 1)
  return { w with storage := { w.storage with subs_next := some next } }

/-- `find_index`: the first subscription with the id. -/
def findIndex (subs : List Subscription) (id : Nat) : Option Nat :=
  subs.findIdx? (·.id = id)

/-- A subtraction of two `u32`. -/
def subU32 (n m : Nat) : Result Nat := if m ≤ n then .ok (n - m) else .error .overflow

@[simp] theorem subU32_eq_ok {n m k : Nat} : subU32 n m = .ok k ↔ m ≤ n ∧ n - m = k := by
  unfold subU32
  split <;> simp [*]

/-- `unwrap_or_panic_with` on a result. -/
def unwrapOrPanicWith {α : Type} (r : Except SubscriptionError α) (e : SubscriptionError) :
    Result α :=
  match r with
  | .ok a => .ok a
  | .error _ => .error (.msg e.text)

@[simp] theorem unwrapOrPanicWith_eq_ok {α : Type} {r : Except SubscriptionError α}
    {e : SubscriptionError} {a : α} : unwrapOrPanicWith r e = .ok a ↔ r = .ok a := by
  cases r <;> simp [unwrapOrPanicWith]

/-! ## Periods -/

/-- `due_periods_capped` -/
def duePeriodsCapped (sub : Subscription) (current_ledger : Nat) : Result Nat :=
  if current_ledger < sub.next_collection_ledger then .ok 0
  else do
    let elapsed := current_ledger - sub.next_collection_ledger
    panicIf (sub.interval_ledgers = 0) "attempt to divide by zero"
    let additional ← checkU32 (elapsed / sub.interval_ledgers + 1)
    let remaining ← subU32 sub.max_periods sub.current_period
    let due := min (min additional sub.max_periods) remaining
    return min due MAX_CATCHUP_PERIODS

/-- `i128::checked_mul` -/
def checkedMul (a b : Int) : Option Int := if IsI128 (a * b) then some (a * b) else none

/-- The subscription after `count` more periods. -/
def advanced (sub : Subscription) (count : Nat) : Subscription :=
  { sub with
    current_period := sub.current_period + count
    next_collection_ledger := sub.next_collection_ledger + count * sub.interval_ledgers
    status := if sub.current_period + count ≥ sub.max_periods then .Exhausted else sub.status }

/-- `advance_periods`. An `Err` is what the function returns, a panic undoes the whole call. -/
def advancePeriods (w : State) (sub : Subscription) (count : Nat) :
    Result (Except SubscriptionError (Nat × Subscription × State)) :=
  if count = 0 then .ok (.ok (0, sub, w))
  else match checkedMul sub.amount count with
    | none => .ok (.error .InvalidAmount)
    | some total => do
        let w ← w.transfer sub.token sub.payer sub.payee total
        let _ ← checkU32 (sub.current_period + count)
        let ledgers ← checkU32 (count * sub.interval_ledgers)
        let _ ← checkU32 (sub.next_collection_ledger + ledgers)
        return .ok (count, advanced sub count, w)

/-! ## Entry points -/

def subscribe (env : Env) (w : State) (payer payee token : Address) (amount : Int)
    (collection_interval max_periods : Nat) : Result (Nat × State) := do
  requireAuth env payer
  panicIf (amount ≤ 0) (SubscriptionError.text .InvalidAmount)
  panicIf (collection_interval = 0) (SubscriptionError.text .InvalidInterval)
  panicIf (max_periods = 0) (SubscriptionError.text .InvalidCap)
  panicIf (payer = payee) (SubscriptionError.text .InvalidSelfPay)
  let subs := loadSubscriptions w
  let payer_count := subs.countP fun s => s.payer = payer ∧ s.status = .Active
  panicIf (payer_count ≥ MAX_SUBSCRIPTIONS_PER_PAYEE)
    (SubscriptionError.text .TooManySubscriptions)
  let id := nextId w
  let w ← bumpNextId w
  let now := w.sequence
  let next_collection_ledger ← checkU32 (now + collection_interval)
  let sub : Subscription := {
    id, payer, payee, token, amount, interval_ledgers := collection_interval, max_periods
    current_period := 0, start_ledger := now, next_collection_ledger, status := .Active
    cancelled_at_ledger := none }
  return (id, saveSubscriptions w (subs ++ [sub]))

def collect (env : Env) (w : State) (id : Nat) (caller : Address) : Result (Nat × State) := do
  requireAuth env caller
  let subs := loadSubscriptions w
  let idx ← expect (findIndex subs id) (SubscriptionError.text .SubscriptionNotFound)
  let sub ← unwrap subs[idx]?
  panicIf (caller ≠ sub.payee) (SubscriptionError.text .NotAuthorized)
  panicIf (sub.status ≠ .Active) (SubscriptionError.text .NotActive)
  let now := w.sequence
  let due ← duePeriodsCapped sub now
  panicIf (due = 0) (SubscriptionError.text .NotDue)
  let result ← advancePeriods w sub due
  let (collected, sub, w) ← unwrapOrPanicWith result .InsufficientBalance
  return (collected, saveSubscriptions w (subs.set idx sub))

/-- The mark of a cancellation, unless the last period has just been drawn. -/
def markCancelled (sub : Subscription) (now : Nat) : Subscription :=
  if sub.status = .Active then
    { sub with status := .Cancelled, cancelled_at_ledger := some now }
  else sub

def cancel (env : Env) (w : State) (id : Nat) (caller : Address) : Result (Nat × State) := do
  requireAuth env caller
  let subs := loadSubscriptions w
  let idx ← expect (findIndex subs id) (SubscriptionError.text .SubscriptionNotFound)
  let sub ← unwrap subs[idx]?
  panicIf (caller ≠ sub.payer ∧ caller ≠ sub.payee) (SubscriptionError.text .NotAuthorized)
  panicIf (sub.status ≠ .Active) (SubscriptionError.text .NotActive)
  let now := w.sequence
  let due ← duePeriodsCapped sub now
  -- with nothing due, `advancePeriods` leaves everything as it is and settles zero periods
  let result ← advancePeriods w sub due
  let (settled, sub, w) ← unwrapOrPanicWith result .InsufficientBalance
  return (settled, saveSubscriptions w (subs.set idx (markCancelled sub now)))

/-! ## The contract as a transition system -/

inductive Call where
  | subscribe (payer payee token : Address) (amount : Int) (collection_interval max_periods : Nat)
  | collect (id : Nat) (caller : Address)
  | cancel (id : Nat) (caller : Address)

def exec (env : Env) (w : State) : Call → Result State
  | .subscribe payer payee token amount collection_interval max_periods =>
      Prod.snd <$> subscribe env w payer payee token amount collection_interval max_periods
  | .collect id caller => Prod.snd <$> collect env w id caller
  | .cancel id caller => Prod.snd <$> cancel env w id caller

/-- The arguments are values of their declared types. -/
def Call.WellTyped : Call → Prop
  | .subscribe _ _ _ amount collection_interval max_periods =>
      IsI128 amount ∧ collection_interval ≤ U32_MAX ∧ max_periods ≤ U32_MAX
  | .collect id _ => id ≤ U32_MAX
  | .cancel id _ => id ≤ U32_MAX

instance : DecidablePred Call.WellTyped
  | .subscribe .. => inferInstanceAs (Decidable (_ ∧ _))
  | .collect .. => inferInstanceAs (Decidable (_ ≤ _))
  | .cancel .. => inferInstanceAs (Decidable (_ ≤ _))

/-- The subscription contract. -/
def subscription : Contract Storage Empty Call where
  exec := exec
  wellTyped := Call.WellTyped

instance : DecidablePred subscription.wellTyped := inferInstanceAs (DecidablePred Call.WellTyped)

/-- The worlds a deployment starts in. -/
structure Genesis (w : State) : Prop where
  storage : w.storage = Storage.fresh
  sequence : w.sequence ≤ U32_MAX

abbrev Step (P : Platform) (d : Deployment) : State → Action Call → State → Prop :=
  subscription.Step P d

abbrev Tx := subscription.Tx

abbrev Runs (P : Platform) (d : Deployment) : State → List Tx → State → Prop :=
  subscription.Runs P d

end StellarAgent.Subscription
