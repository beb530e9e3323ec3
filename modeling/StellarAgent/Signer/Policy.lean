import StellarAgent.Lib.FinMap
import StellarAgent.Signer.Inspect

set_option autoImplicit false

/-! # What a key is allowed to sign

`services/signer/src/policy.rs`, but for its rate limits: a policy with its allowlists and
ceilings, and its evaluation on a decoded transaction or authorization entry. Every rule runs and
each objection is reported.
-/

namespace StellarAgent.Signer

open Lib Soroban

/-! ## Numbers -/

/-- `saturating_add` of `i128`. -/
def saturatingAdd (x y : Int) : Int := max I128_MIN (min I128_MAX (x + y))

/-- `saturating_add` over a list of amounts. -/
def saturatingSum (amounts : List Int) : Int := amounts.foldl saturatingAdd 0

theorem saturatingAdd_of_nonneg {x y : Int} (hx : 0 ≤ x) (hy : 0 ≤ y) :
    saturatingAdd x y = min I128_MAX (x + y) := by
  have hmin : I128_MIN ≤ 0 := by decide
  have hmax : 0 ≤ I128_MAX := by decide
  unfold saturatingAdd
  omega

/-- A sum that saturates stays saturated, since no amount is negative. -/
theorem foldl_saturatingAdd {amounts : List Int} {start : Int} (hstart : 0 ≤ start)
    (h : ∀ amount ∈ amounts, 0 ≤ amount) :
    amounts.foldl saturatingAdd (min I128_MAX start) = min I128_MAX (start + amounts.sum) := by
  induction amounts generalizing start with
  | nil => simp
  | cons amount amounts ih =>
      have hamount : 0 ≤ amount := h amount List.mem_cons_self
      have hmax : 0 ≤ I128_MAX := by decide
      have hadd : saturatingAdd (min I128_MAX start) amount = min I128_MAX (start + amount) := by
        rw [saturatingAdd_of_nonneg (le_min hmax hstart) hamount]
        omega
      rw [List.foldl_cons, hadd, ih (Int.add_nonneg hstart hamount)
        fun other hother => h other (List.mem_cons_of_mem _ hother), List.sum_cons]
      congr 1
      omega

/-- The saturating sum of amounts that are not negative. -/
theorem saturatingSum_of_nonneg {amounts : List Int} (h : ∀ amount ∈ amounts, 0 ≤ amount) :
    saturatingSum amounts = min I128_MAX amounts.sum := by
  have hfold := foldl_saturatingAdd le_rfl h
  rw [min_eq_right (by decide : (0 : Int) ≤ I128_MAX), zero_add] at hfold
  exact hfold

def parseDigits (digits : List Char) : Option Nat :=
  if digits ≠ [] ∧ digits.all Char.isDigit then
    some (digits.foldl (fun n c => n * 10 + (c.toNat - 48)) 0)
  else none

/-- `str::parse::<i128>` -/
def parseI128 (raw : String) : Option Int :=
  let value : Option Int :=
    match raw.toList with
    | '-' :: digits => (parseDigits digits).map fun n => -(n : Int)
    | '+' :: digits => (parseDigits digits).map fun n => (n : Int)
    | digits => (parseDigits digits).map fun n => (n : Int)
  value.filter fun n => IsI128 n

/-! ## Policies -/

inductive Decision where
  | Allow
  | Deny (violations : List Violation)
  deriving DecidableEq

/-- `Decision::violations` -/
def Decision.violations : Decision → List Violation
  | .Allow => []
  | .Deny violations => violations

/-- `Decision::from` -/
def Decision.ofViolations (violations : List Violation) : Decision :=
  if violations = [] then .Allow else .Deny violations

structure RateLimit where
  window_seconds : Nat
  max_requests : UInt32
  max_amount_stroops : Option String
  deriving DecidableEq

structure TimeWindow where
  start_hour_utc : Nat
  end_hour_utc : Nat
  days : List String
  not_before : Option Nat
  not_after : Option Nat
  deriving DecidableEq

structure Policy where
  networks : List String
  max_amount_stroops : Option String
  max_transaction_stroops : Option String
  recipients : List String
  contracts : List String
  functions : List String
  max_auth_validity_ledgers : Nat
  require_bounded_expiry : Bool
  unknown_calls : UnknownCallPolicy
  rate_limit : Option RateLimit
  time_window : Option TimeWindow
  deriving DecidableEq

/-- `Policy::default`: nothing is allowed. -/
def Policy.default : Policy where
  networks := []
  max_amount_stroops := none
  max_transaction_stroops := none
  recipients := []
  contracts := []
  functions := []
  max_auth_validity_ledgers := 100
  require_bounded_expiry := true
  unknown_calls := .Refuse
  rate_limit := none
  time_window := none

/-- `Policy::amount_cap` -/
def Policy.amountCap (policy : Policy) : Option Int := policy.max_amount_stroops.bind parseI128

/-- `Policy::transaction_cap` -/
def Policy.transactionCap (policy : Policy) : Option Int :=
  policy.max_transaction_stroops.bind parseI128

/-- The amount that a rate limit allows in one window. -/
def RateLimit.amountCap (limit : RateLimit) : Option Int := limit.max_amount_stroops.bind parseI128

/-- `weekday_index` -/
def weekdayIndex (day : String) : Option Nat :=
  match String.ofList (day.toList.map Char.toLower) with
  | "mon" => some 0
  | "monday" => some 0
  | "tue" => some 1
  | "tuesday" => some 1
  | "wed" => some 2
  | "wednesday" => some 2
  | "thu" => some 3
  | "thursday" => some 3
  | "fri" => some 4
  | "friday" => some 4
  | "sat" => some 5
  | "saturday" => some 5
  | "sun" => some 6
  | "sunday" => some 6
  | _ => none

/-- `weekday_name` -/
def weekdayName (index : Nat) : String :=
  ["mon", "tue", "wed", "thu", "fri", "sat", "sun"].getD (index % 7) ""

/-! ## Validation -/

def quoted (text : String) : String :=
  String.ofList [Char.ofNat 34] ++ text ++ String.ofList [Char.ofNat 34]

/-- The check of one amount of a policy file. -/
def validateAmount (name field : String) (value : Option String) : Except String Unit :=
  match value with
  | none => .ok ()
  | some raw =>
      if (parseI128 raw).isSome then .ok ()
      else .error ("policy `" ++ name ++ "`: " ++ field ++ " = " ++ quoted raw ++
        " is not an integer")

def RateLimit.validate (limit : RateLimit) (name : String) : Except String Unit :=
  match validateAmount name "rate_limit.max_amount_stroops" limit.max_amount_stroops with
  | .error error => .error error
  | .ok () =>
      if limit.window_seconds = 0 then
        .error ("policy `" ++ name ++ "`: rate_limit.window_seconds must be positive")
      else .ok ()

def TimeWindow.validate (window : TimeWindow) (name : String) : Except String Unit :=
  if window.end_hour_utc > 24 ∨ window.start_hour_utc > 23 then
    .error ("policy `" ++ name ++ "`: time_window hours must be 0–23 (start) and 0–24 (end)")
  else
    match window.days.find? fun day => (weekdayIndex day).isNone with
    | some day => .error ("policy `" ++ name ++ "`: time_window.days contains " ++ quoted day ++
        "; expected mon…sun")
    | none => .ok ()

/-- `Policy::validate` -/
def Policy.validate (policy : Policy) (name : String) : Except String Unit := do
  validateAmount name "max_amount_stroops" policy.max_amount_stroops
  validateAmount name "max_transaction_stroops" policy.max_transaction_stroops
  match policy.rate_limit with
  | some limit => limit.validate name
  | none => .ok ()
  match policy.time_window with
  | some window => window.validate name
  | none => .ok ()
  if policy.networks = [] then
    .error ("policy `" ++ name ++ "`: `networks` is empty, so every request would be refused. " ++
      "List the passphrases this key signs for.")
  else .ok ()

theorem RateLimit.validate_ok {limit : RateLimit} {name : String}
    (h : limit.validate name = .ok ()) : 0 < limit.window_seconds := by
  unfold RateLimit.validate at h
  split at h
  · cases h
  · split at h
    · cases h
    · rename_i hne
      omega

/-- The windows of a validated policy are not empty. -/
theorem Policy.validate_ok {policy : Policy} {limit : RateLimit} {name : String}
    (h : policy.validate name = .ok ()) (hlimit : policy.rate_limit = some limit) :
    0 < limit.window_seconds := by
  unfold Policy.validate at h
  rw [hlimit] at h
  simp only [bind, Except.bind] at h
  split at h
  · cases h
  · split at h
    · cases h
    · split at h
      · cases h
      · rename_i hvalid
        exact RateLimit.validate_ok hvalid

/-- The policies of the policy file, each validated when they were loaded. -/
structure PolicySet where
  policies : Map String Policy
  valid : ∀ name policy, policies.lookup name = some policy → policy.validate name = .ok ()

/-! ## Rules -/

/-- `check_network` -/
def checkNetwork (codec : Codec) (policy : Policy) (passphrase : String) : List Violation :=
  if passphrase ∈ policy.networks then []
  else [⟨"network", "this key does not sign for the network " ++ codec.debug passphrase⟩]

/-- `check_contract` -/
def checkContract (policy : Policy) (contract : String) : List Violation :=
  if contract ∈ policy.contracts then []
  else [⟨"contract_allowlist", "contract " ++ contract ++ " is not on this key's allowlist"⟩]

/-- `check_function` -/
def checkFunction (policy : Policy) (function : String) : List Violation :=
  if function ∈ policy.functions then []
  else [⟨"function_allowlist", "function `" ++ function ++ "` is not on this key's allowlist"⟩]

/-- `check_recipient` -/
def checkRecipient (policy : Policy) (recipient : String) : List Violation :=
  if recipient ∈ policy.recipients then []
  else [⟨"recipient_allowlist", recipient ++ " is not on this key's recipient allowlist"⟩]

/-- `check_amount` -/
def checkAmount (policy : Policy) (amount : Int) : List Violation :=
  if amount < 0 then [⟨"amount_cap", "amount " ++ toString amount ++ " is negative"⟩]
  else
    match policy.amountCap with
    | none => []
    | some cap =>
        if amount > cap then
          [⟨"amount_cap", "amount " ++ toString amount ++ " stroops is over the " ++
            toString cap ++ " limit"⟩]
        else []

/-- The four rules that each call of a request is held to. -/
def checkCall (policy : Policy) (call : InspectedCall) : List Violation :=
  checkContract policy call.contract ++ checkFunction policy call.function ++
    call.recipients.flatMap (checkRecipient policy) ++ call.amounts.flatMap (checkAmount policy)

/-- A number of at least two digits. -/
def twoDigits (n : Nat) : String := if n < 10 then "0" ++ toString n else toString n

/-- `check_time_window` -/
def checkTimeWindow (policy : Policy) (now : Nat) : List Violation :=
  match policy.time_window with
  | none => []
  | some window =>
      let hour := now % 86400 / 3600
      let day_index := (now / 86400 + 3) % 7
      (if window.not_before.any (now < ·) then
        [⟨"time_window", "this key is not yet permitted to sign"⟩] else []) ++
      (if window.not_after.any (· < now) then
        [⟨"time_window", "this key's signing period has ended"⟩] else []) ++
      (if hour < window.start_hour_utc ∨ hour ≥ window.end_hour_utc then
        [⟨"time_window", "the current hour (" ++ twoDigits hour ++
          ":00 UTC) is outside the permitted " ++ twoDigits window.start_hour_utc ++ ":00–" ++
          twoDigits window.end_hour_utc ++ ":00"⟩] else []) ++
      (if window.days ≠ [] ∧ day_index ∉ window.days.filterMap weekdayIndex then
        [⟨"time_window", weekdayName day_index ++ " is not a permitted signing day"⟩] else [])

/-! ## Evaluation -/

structure TransactionContext where
  transaction : InspectedTransaction
  network_passphrase : String
  signing_address : String
  now : Nat

structure AuthEntryContext where
  entry : InspectedAuthEntry
  network_passphrase : String
  signing_address : String
  requested_valid_until : Nat
  current_ledger : Nat
  now : Nat

def U32_MAX : Nat := 2 ^ 32 - 1

/-- `saturating_add` of `u32`. -/
def saturatingAddU32 (x y : Nat) : Nat := min U32_MAX (x + y)

/-- `evaluate_transaction` -/
def evaluateTransaction (codec : Codec) (policy : Policy) (ctx : TransactionContext) : Decision :=
  let transaction_total := saturatingSum (ctx.transaction.calls.flatMap InspectedCall.amounts)
  .ofViolations <|
    checkNetwork codec policy ctx.network_passphrase ++
    checkTimeWindow policy ctx.now ++
    (if ctx.transaction.source_account ≠ ctx.signing_address then
      [⟨"source_account", "the transaction is submitted from " ++ ctx.transaction.source_account ++
        ", but this key signs for " ++ ctx.signing_address⟩] else []) ++
    (if policy.require_bounded_expiry ∧ ctx.transaction.max_time = none then
      [⟨"bounded_expiry", "the transaction has no upper time bound, so a signature over it " ++
        "would stay submittable indefinitely"⟩] else []) ++
    ctx.transaction.calls.flatMap (checkCall policy) ++
    match policy.transactionCap with
    | none => []
    | some cap =>
        if transaction_total > cap then
          [⟨"transaction_cap", "the transaction moves " ++ toString transaction_total ++
            " stroops in total, over the " ++ toString cap ++ " limit"⟩]
        else []

/-- `evaluate_auth_entry` -/
def evaluateAuthEntry (codec : Codec) (policy : Policy) (ctx : AuthEntryContext) : Decision :=
  let ceiling := saturatingAddU32 ctx.current_ledger policy.max_auth_validity_ledgers
  .ofViolations <|
    checkNetwork codec policy ctx.network_passphrase ++
    checkTimeWindow policy ctx.now ++
    (if ctx.entry.address ≠ ctx.signing_address then
      [⟨"auth_address", "the entry authorises " ++ ctx.entry.address ++
        ", but this key signs for " ++ ctx.signing_address⟩] else []) ++
    (if ctx.requested_valid_until > ceiling then
      [⟨"auth_validity", "validUntilLedgerSeq " ++ toString ctx.requested_valid_until ++
        " is beyond the permitted " ++ toString policy.max_auth_validity_ledgers ++
        " ledgers past the current ledger " ++ toString ctx.current_ledger ++ " (ceiling " ++
        toString ceiling ++ ")"⟩] else []) ++
    match ctx.entry.call with
    | none => []
    | some call => checkCall policy call

/-! ## What is allowed -/

@[simp] theorem Decision.ofViolations_allow {violations : List Violation} :
    Decision.ofViolations violations = .Allow ↔ violations = [] := by
  unfold Decision.ofViolations
  split
  · simp_all
  · simp_all

@[simp] theorem Decision.violations_ofViolations {violations : List Violation} :
    (Decision.ofViolations violations).violations = violations := by
  unfold Decision.ofViolations
  by_cases h : violations = []
  · rw [if_pos h, h]
    rfl
  · rw [if_neg h]
    rfl

/-- A rule objects if its condition holds. -/
theorem objection_eq_nil {p : Prop} [Decidable p] {violation : Violation} :
    (if p then [violation] else []) = [] ↔ ¬ p := by
  rw [ite_eq_right_iff]
  exact forall_congr' (fun _ => iff_false_intro (List.cons_ne_nil violation []))

variable {codec : Codec} {policy : Policy}

@[simp] theorem checkNetwork_eq_nil {passphrase : String} :
    checkNetwork codec policy passphrase = [] ↔ passphrase ∈ policy.networks := by
  unfold checkNetwork; split <;> simp_all

@[simp] theorem checkContract_eq_nil {contract : String} :
    checkContract policy contract = [] ↔ contract ∈ policy.contracts := by
  unfold checkContract; split <;> simp_all

@[simp] theorem checkFunction_eq_nil {function : String} :
    checkFunction policy function = [] ↔ function ∈ policy.functions := by
  unfold checkFunction; split <;> simp_all

@[simp] theorem checkRecipient_eq_nil {recipient : String} :
    checkRecipient policy recipient = [] ↔ recipient ∈ policy.recipients := by
  unfold checkRecipient; split <;> simp_all

@[simp] theorem checkAmount_eq_nil {amount : Int} :
    checkAmount policy amount = [] ↔ 0 ≤ amount ∧ ∀ cap ∈ policy.amountCap, amount ≤ cap := by
  unfold checkAmount
  split
  · rename_i hnegative
    simp [not_le.mpr hnegative]
  · rename_i hnonneg
    cases policy.amountCap with
    | none => simpa using hnonneg
    | some cap =>
        simp only [gt_iff_lt, Option.mem_def, Option.some.injEq, forall_eq']
        split <;> simp_all

/-- **What the rules say of a call.** Its contract, its function and its recipients are on the
allowlists, and its amounts are between zero and the ceiling. -/
structure CallPasses (policy : Policy) (call : InspectedCall) : Prop where
  contract : call.contract ∈ policy.contracts
  function : call.function ∈ policy.functions
  recipients : ∀ recipient ∈ call.recipients, recipient ∈ policy.recipients
  amounts : ∀ amount ∈ call.amounts, 0 ≤ amount ∧ ∀ cap ∈ policy.amountCap, amount ≤ cap

@[simp] theorem checkCall_eq_nil {call : InspectedCall} :
    checkCall policy call = [] ↔ CallPasses policy call := by
  unfold checkCall
  simp only [List.append_eq_nil_iff, List.flatMap_eq_nil_iff, checkContract_eq_nil,
    checkFunction_eq_nil, checkRecipient_eq_nil, checkAmount_eq_nil]
  constructor
  · rintro ⟨⟨⟨hcontract, hfunction⟩, hrecipients⟩, hamounts⟩
    exact ⟨hcontract, hfunction, hrecipients, hamounts⟩
  · rintro ⟨hcontract, hfunction, hrecipients, hamounts⟩
    exact ⟨⟨⟨hcontract, hfunction⟩, hrecipients⟩, hamounts⟩

/-- What is allowed of a transaction. -/
structure TransactionAllowed (policy : Policy) (ctx : TransactionContext) : Prop where
  network : ctx.network_passphrase ∈ policy.networks
  time_window : checkTimeWindow policy ctx.now = []
  source_account : ctx.transaction.source_account = ctx.signing_address
  bounded_expiry : policy.require_bounded_expiry → ctx.transaction.max_time ≠ none
  calls : ∀ call ∈ ctx.transaction.calls, CallPasses policy call
  transaction_cap : ∀ cap ∈ policy.transactionCap,
    saturatingSum (ctx.transaction.calls.flatMap InspectedCall.amounts) ≤ cap

theorem evaluateTransaction_allow {ctx : TransactionContext} :
    evaluateTransaction codec policy ctx = .Allow ↔ TransactionAllowed policy ctx := by
  unfold evaluateTransaction
  simp only [Decision.ofViolations_allow, List.append_eq_nil_iff, List.flatMap_eq_nil_iff,
    checkNetwork_eq_nil, checkCall_eq_nil, objection_eq_nil]
  constructor
  · rintro ⟨⟨⟨⟨⟨hnetwork, htime⟩, hsource⟩, hexpiry⟩, hcalls⟩, hcap⟩
    refine ⟨hnetwork, htime, not_not.mp hsource, fun h hnone => hexpiry ⟨h, hnone⟩, hcalls, ?_⟩
    intro cap hcap'
    rw [Option.mem_def.mp hcap'] at hcap
    exact not_lt.mp (objection_eq_nil.mp hcap)
  · rintro ⟨hnetwork, htime, hsource, hexpiry, hcalls, hcap⟩
    refine ⟨⟨⟨⟨⟨hnetwork, htime⟩, not_not.mpr hsource⟩, fun h => hexpiry h.1 h.2⟩, hcalls⟩, ?_⟩
    cases htransaction : policy.transactionCap with
    | none => rfl
    | some cap => exact objection_eq_nil.mpr (not_lt.mpr (hcap cap htransaction))

/-- What is allowed of an authorization entry. -/
structure AuthEntryAllowed (policy : Policy) (ctx : AuthEntryContext) : Prop where
  network : ctx.network_passphrase ∈ policy.networks
  time_window : checkTimeWindow policy ctx.now = []
  auth_address : ctx.entry.address = ctx.signing_address
  auth_validity : ctx.requested_valid_until ≤
    saturatingAddU32 ctx.current_ledger policy.max_auth_validity_ledgers
  call : ∀ call ∈ ctx.entry.call, CallPasses policy call

theorem evaluateAuthEntry_allow {ctx : AuthEntryContext} :
    evaluateAuthEntry codec policy ctx = .Allow ↔ AuthEntryAllowed policy ctx := by
  unfold evaluateAuthEntry
  simp only [Decision.ofViolations_allow, List.append_eq_nil_iff, checkNetwork_eq_nil,
    objection_eq_nil]
  constructor
  · rintro ⟨⟨⟨⟨hnetwork, htime⟩, haddress⟩, hvalidity⟩, hcall⟩
    refine ⟨hnetwork, htime, not_not.mp haddress, not_lt.mp hvalidity, ?_⟩
    intro call hsome
    rw [Option.mem_def.mp hsome] at hcall
    exact checkCall_eq_nil.mp hcall
  · rintro ⟨hnetwork, htime, haddress, hvalidity, hcall⟩
    refine ⟨⟨⟨⟨hnetwork, htime⟩, not_not.mpr haddress⟩, not_lt.mpr hvalidity⟩, ?_⟩
    cases hsome : ctx.entry.call with
    | none => rfl
    | some call => exact checkCall_eq_nil.mpr (hcall call hsome)

end StellarAgent.Signer
