import StellarAgent.PaymentChannel.Storage
import StellarAgent.RateLimiter.Contract

set_option autoImplicit false

/-! # Decoding what a contract returns

`packages/core/src/decode.ts` and the decoders of `generated/contract-types.ts` that the predictor
uses. `scValToNative` makes an object with the field names of a record: a channel is decoded from
its object (`decodeChannel_nativeChannel`), and the object of the limits of an agent is refused
(`decodeRateLimit_nativeRateLimit`), since the decoder still asks for the window counters of an
earlier record.
-/

namespace StellarAgent.Prediction

open Soroban RateLimiter
open PaymentChannel (Channel SpendPeriod)

/-! ## Values -/

/-- A value of JavaScript as `scValToNative` makes them: its numbers come from `u32` and `i32`, so
they are integers. -/
inductive Native where
  | undefined
  | null
  | bool (value : Bool)
  | bigint (value : ℤ)
  | number (value : ℤ)
  | string (value : String)
  | bytes (value : Bytes)
  | array (items : List Native)
  | object (fields : List (String × Native))

/-- What is thrown -/
inductive Thrown where
  | stellarAgentError (code message : String)
  | typeError (message : String)
  deriving DecidableEq

@[simp] theorem ok_bind {A B : Type} (a : A) (f : A → Except Thrown B) :
    (Except.ok a >>= f) = f a := rfl

@[simp] theorem error_bind {A B : Type} (thrown : Thrown) (f : A → Except Thrown B) :
    (Except.error thrown >>= f) = .error thrown := rfl

/-- The field `name` of an object -/
def property (fields : List (String × Native)) (name : String) : Native :=
  ((fields.find? fun field => field.1 = name).map Prod.snd).getD .undefined

def MAX_SAFE_INTEGER : ℤ := 2 ^ 53 - 1

/-! ## `decode.ts` -/

def malformed {A : Type} (context : String) : Except Thrown A :=
  .error (.stellarAgentError "CONTRACT_ERROR" ("Contract returned a malformed " ++ context))

/-- The object as the function of its fields -/
def expectRecord (value : Native) (context : String) : Except Thrown (String → Native) :=
  match value with
  | .object fields => .ok (property fields)
  -- the bytes are an object without the fields of a record
  | .bytes _ => .ok fun _ => .undefined
  | _ => malformed context

/-- An object with a field `value` is decoded from it. -/
def expectBigInt (value : Native) (context : String) : Except Thrown ℤ :=
  match value with
  | .bigint n => .ok n
  | .number n =>
      if n.natAbs ≤ MAX_SAFE_INTEGER then .ok n else malformed (context ++ " (expected an integer)")
  | .object fields =>
      match _hfield : fields.find? fun field => field.1 = "value" with
      | some field => expectBigInt field.2 context
      | none => malformed (context ++ " (expected an integer)")
  | _ => malformed (context ++ " (expected an integer)")
termination_by sizeOf value
decreasing_by
  have hmem := List.sizeOf_lt_of_mem (List.mem_of_find?_eq_some _hfield)
  rcases field with ⟨name, inner⟩
  simp only [Native.object.sizeOf_spec, Prod.mk.sizeOf_spec] at hmem ⊢
  omega

def expectU32 (value : Native) (context : String) : Except Thrown ℤ :=
  match value with
  -- `Number` rounds a `bigint` beyond the safe ones to another that is not safe
  | .bigint n | .number n =>
      if n.natAbs ≤ MAX_SAFE_INTEGER then .ok n else malformed (context ++ " (expected a u32)")
  | _ => malformed (context ++ " (expected a u32)")

def expectBool (value : Native) (context : String) : Except Thrown Bool :=
  match value with
  | .bool b => .ok b
  | _ => malformed (context ++ " (expected a bool)")

def expectBytes (value : Native) (context : String) : Except Thrown Bytes :=
  match value with
  | .bytes b => .ok b
  | _ => malformed (context ++ " (expected bytes)")

def expectOptional {A : Type} (value : Native) (decode : Native → Except Thrown A) :
    Except Thrown (Option A) :=
  match value with
  | .null | .undefined => .ok none
  | value => some <$> decode value

/-- `PascalCase` to `snake_case` -/
def snakeCase : List Char → List Char
  | c :: d :: rest =>
      if (c.isLower ∨ c.isDigit) ∧ d.isUpper then c.toLower :: '_' :: snakeCase (d :: rest)
      else c.toLower :: snakeCase (d :: rest)
  | [c] => [c.toLower]
  | [] => []

section

/- What `String(value)` gives for a value that is not a string -/
variable (asString : Native → String)

def expectString (value : Native) (context : String) : Except Thrown String :=
  match value with
  | .string s => .ok s
  | .array _ | .object _ | .bytes _ => .ok (asString value)
  | _ => malformed (context ++ " (expected a string)")

def expectEnumTag (value : Native) (validVariants : List String) (context : String) :
    Except Thrown String :=
  let raw := match value with
    | .array (first :: _) => first
    | .array [] => .undefined
    | value => value
  let text := match raw with
    | .string s => s
    | raw => asString raw
  let tag := String.ofList (snakeCase text.toList)
  if tag ∈ validVariants then .ok tag
  else .error (.stellarAgentError "CONTRACT_ERROR"
    ("Contract returned unknown " ++ context ++ ": " ++ text))

/-! ## The generated decoders -/

def RAW_SPEND_PERIOD_VARIANTS : List String := ["per_ledger", "hourly", "daily"]

structure RawChannel where
  active : Bool
  agent : String
  allocated : ℤ
  collateral : ℤ
  dispute_ledgers : ℤ
  limit_per_period : ℤ
  owner : String
  period : String
  period_start_ledger : ℤ
  spent_this_period : ℤ
  token : String
  total_spent : ℤ
  voucher_signer : Option Bytes

def decodeChannel (value : Native) : Except Thrown RawChannel := do
  let v ← expectRecord value "Channel"
  let active ← expectBool (v "active") "Channel.active"
  let agent ← expectString asString (v "agent") "Channel.agent"
  let allocated ← expectBigInt (v "allocated") "Channel.allocated"
  let collateral ← expectBigInt (v "collateral") "Channel.collateral"
  let dispute_ledgers ← expectU32 (v "dispute_ledgers") "Channel.dispute_ledgers"
  let limit_per_period ← expectBigInt (v "limit_per_period") "Channel.limit_per_period"
  let owner ← expectString asString (v "owner") "Channel.owner"
  let period ← expectEnumTag asString (v "period") RAW_SPEND_PERIOD_VARIANTS "Channel.period"
  let period_start_ledger ← expectU32 (v "period_start_ledger") "Channel.period_start_ledger"
  let spent_this_period ← expectBigInt (v "spent_this_period") "Channel.spent_this_period"
  let token ← expectString asString (v "token") "Channel.token"
  let total_spent ← expectBigInt (v "total_spent") "Channel.total_spent"
  let voucher_signer ← expectOptional (v "voucher_signer")
    (fun value => expectBytes value "Channel.voucher_signer")
  return {
    active := active, agent, allocated, collateral, dispute_ledgers, limit_per_period, owner,
    period, period_start_ledger, spent_this_period, token, total_spent, voucher_signer }

structure RawRateLimit where
  active : Bool
  agent : String
  daily_spend : ℤ
  day_window_start : ℤ
  hour_window_start : ℤ
  hourly_spend : ℤ
  hourly_tx_count : ℤ
  max_per_day : ℤ
  max_per_hour : ℤ
  max_per_tx : ℤ
  max_txs_per_hour : ℤ
  owner : String

def decodeRateLimit (value : Native) : Except Thrown RawRateLimit := do
  let v ← expectRecord value "RateLimit"
  let active ← expectBool (v "active") "RateLimit.active"
  let agent ← expectString asString (v "agent") "RateLimit.agent"
  let daily_spend ← expectBigInt (v "daily_spend") "RateLimit.daily_spend"
  let day_window_start ← expectU32 (v "day_window_start") "RateLimit.day_window_start"
  let hour_window_start ← expectU32 (v "hour_window_start") "RateLimit.hour_window_start"
  let hourly_spend ← expectBigInt (v "hourly_spend") "RateLimit.hourly_spend"
  let hourly_tx_count ← expectU32 (v "hourly_tx_count") "RateLimit.hourly_tx_count"
  let max_per_day ← expectBigInt (v "max_per_day") "RateLimit.max_per_day"
  let max_per_hour ← expectBigInt (v "max_per_hour") "RateLimit.max_per_hour"
  let max_per_tx ← expectBigInt (v "max_per_tx") "RateLimit.max_per_tx"
  let max_txs_per_hour ← expectU32 (v "max_txs_per_hour") "RateLimit.max_txs_per_hour"
  let owner ← expectString asString (v "owner") "RateLimit.owner"
  return {
    active := active, agent, daily_spend, day_window_start, hour_window_start, hourly_spend,
    hourly_tx_count, max_per_day, max_per_hour, max_per_tx, max_txs_per_hour, owner }

/-! ## What the contracts return -/

/- The text of an address -/
variable (strkey : Address → String)

/-- A unit variant is a vector of its symbol. -/
def nativePeriod : SpendPeriod → Native
  | .PerLedger => .array [.string "PerLedger"]
  | .Hourly => .array [.string "Hourly"]
  | .Daily => .array [.string "Daily"]

/-- `scValToNative` of a channel -/
def nativeChannel (channel : Channel) : Native :=
  .object [
    ("active", .bool channel.active),
    ("agent", .string (strkey channel.agent)),
    ("allocated", .bigint channel.allocated),
    ("collateral", .bigint channel.collateral),
    ("dispute_ledgers", .number channel.dispute_ledgers),
    ("limit_per_period", .bigint channel.limit_per_period),
    ("owner", .string (strkey channel.owner)),
    ("period", nativePeriod channel.period),
    ("period_start_ledger", .number channel.period_start_ledger),
    ("spent_this_period", .bigint channel.spent_this_period),
    ("token", .string (strkey channel.token)),
    ("total_spent", .bigint channel.total_spent),
    ("voucher_signer", (channel.voucher_signer.map fun key => .bytes key.bytes).getD .null)]

def nativeBucket (bucket : SpendBucket) : Native :=
  .object [
    ("spend", .bigint bucket.spend),
    ("start_ledger", .number bucket.start_ledger),
    ("tx_count", .number bucket.tx_count)]

/-- `scValToNative` of the limits of an agent -/
def nativeRateLimit (limit : RateLimit) : Native :=
  .object [
    ("active", .bool limit.active),
    ("agent", .string (strkey limit.agent)),
    ("daily_buckets", .array (limit.daily_buckets.map nativeBucket)),
    ("hourly_buckets", .array (limit.hourly_buckets.map nativeBucket)),
    ("max_per_day", .bigint limit.max_per_day),
    ("max_per_hour", .bigint limit.max_per_hour),
    ("max_per_tx", .bigint limit.max_per_tx),
    ("max_txs_per_hour", .number limit.max_txs_per_hour),
    ("owner", .string (strkey limit.owner))]

/-! ## What the decoders make of them -/

def periodTag : SpendPeriod → String
  | .PerLedger => "per_ledger"
  | .Hourly => "hourly"
  | .Daily => "daily"

theorem expectEnumTag_nativePeriod (period : SpendPeriod) (context : String) :
    expectEnumTag asString (nativePeriod period) RAW_SPEND_PERIOD_VARIANTS context =
      .ok (periodTag period) := by
  have htag : ∀ variant tag, String.ofList (snakeCase variant.toList) = tag →
      tag ∈ RAW_SPEND_PERIOD_VARIANTS →
      expectEnumTag asString (.array [.string variant]) RAW_SPEND_PERIOD_VARIANTS context =
        .ok tag := by
    rintro variant tag rfl hmem
    exact if_pos hmem
  cases period with
  | PerLedger => exact htag _ _ (by decide) (by decide)
  | Hourly => exact htag _ _ (by decide) (by decide)
  | Daily => exact htag _ _ (by decide) (by decide)

/-- A `u32` of the contract is a safe integer. -/
theorem expectU32_number {n : ℕ} (hn : n ≤ U32_MAX) (context : String) :
    expectU32 (.number n) context = .ok (n : ℤ) := by
  have hsafe : ((n : ℤ).natAbs : ℤ) ≤ MAX_SAFE_INTEGER := by
    simp only [U32_MAX] at hn
    simp only [MAX_SAFE_INTEGER]
    omega
  exact if_pos hsafe

theorem expectOptional_key (key : Option (BytesN 32)) (context : String) :
    expectOptional ((key.map fun key => Native.bytes key.bytes).getD .null)
      (fun value => expectBytes value context) = .ok (key.map BytesN.bytes) := by
  cases key with
  | none => rfl
  | some key => rfl

/-- The decoded record of a channel -/
def rawChannel (channel : Channel) : RawChannel where
  active := channel.active
  agent := strkey channel.agent
  allocated := channel.allocated
  collateral := channel.collateral
  dispute_ledgers := channel.dispute_ledgers
  limit_per_period := channel.limit_per_period
  owner := strkey channel.owner
  period := periodTag channel.period
  period_start_ledger := channel.period_start_ledger
  spent_this_period := channel.spent_this_period
  token := strkey channel.token
  total_spent := channel.total_spent
  voucher_signer := channel.voucher_signer.map BytesN.bytes

/-- **A channel is decoded field by field.** -/
theorem decodeChannel_nativeChannel {channel : Channel}
    (hdispute : channel.dispute_ledgers ≤ U32_MAX)
    (hstart : channel.period_start_ledger ≤ U32_MAX) :
    decodeChannel asString (nativeChannel strkey channel) = .ok (rawChannel strkey channel) := by
  simp only [decodeChannel, nativeChannel, expectRecord, ok_bind, property, List.find?,
    String.reduceEq, decide_true, decide_false, Option.map_some, Option.getD_some, expectBool,
    expectString, expectBigInt, expectU32_number hdispute, expectU32_number hstart,
    expectEnumTag_nativePeriod, expectOptional_key]
  rfl

/-- **The limits of an agent are refused**: there is no `daily_spend` among their fields. -/
theorem decodeRateLimit_nativeRateLimit (limit : RateLimit) :
    decodeRateLimit asString (nativeRateLimit strkey limit) =
      malformed "RateLimit.daily_spend (expected an integer)" := by
  simp only [decodeRateLimit, nativeRateLimit, expectRecord, ok_bind, property, List.find?,
    String.reduceEq, decide_true, decide_false, Option.map_some, Option.map_none, Option.getD_some,
    Option.getD_none, expectBool, expectString, expectBigInt]
  rfl

end

end StellarAgent.Prediction
