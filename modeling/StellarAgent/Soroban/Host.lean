import Mathlib.Tactic

set_option autoImplicit false

/-! # The Soroban host, as far as the contracts use it

A contract call either returns or panics, and a panic rolls the whole call back; so a contract
function is a function into `Result`, the host's `Except`. This file has the vocabulary the
contract models share: addresses, panics, checked machine arithmetic (the release profile
builds with `overflow-checks = true`), the host's cryptography, the environment of one call, and
the world a contract runs in, with its own storage, the balances of all token contracts, the
ledger sequence number and the events of the current call.

Left out: entry lifetimes (`extend_ttl`) and resource metering. No entry is ever archived here.
-/

namespace StellarAgent.Soroban

/-! ## Addresses, panics and results -/

/-- An account or contract address. Contracts only ever compare them. -/
structure Address where
  id : Nat
  deriving DecidableEq, Repr

/-- How a call can fail. -/
inductive Panic where
  /-- `panic!(text)`, or `expect(text)` on a missing value. -/
  | msg (text : String)
  /-- `unwrap()` on a missing value. -/
  | unwrapNone
  /-- An arithmetic operation left the range of its type. -/
  | overflow
  /-- `require_auth` on an address that did not authorise the call. -/
  | auth (who : Address)
  /-- A host function or a called contract failed. -/
  | host (error : String)
  deriving DecidableEq, Repr

abbrev Result (α : Type) := Except Panic α

section

variable {α β : Type}

@[simp] theorem Result.bind_eq_ok {x : Result α} {f : α → Result β} {b : β} :
    (x >>= f) = .ok b ↔ ∃ a, x = .ok a ∧ f a = .ok b := by
  cases x with
  | error e => simp [bind, Except.bind]
  | ok a => simp [bind, Except.bind]

@[simp] theorem Result.bind_eq_error {x : Result α} {f : α → Result β} {e : Panic} :
    (x >>= f) = .error e ↔ x = .error e ∨ ∃ a, x = .ok a ∧ f a = .error e := by
  cases x with
  | error e => simp [bind, Except.bind]
  | ok a => simp [bind, Except.bind]

@[simp] theorem Result.pure_eq_ok {a b : α} : (pure a : Result α) = .ok b ↔ a = b := by
  simp [pure, Except.pure]

@[simp] theorem Result.pure_eq_error {a : α} {e : Panic} :
    (pure a : Result α) = .error e ↔ False := by
  simp [pure, Except.pure]

@[simp] theorem Result.map_eq_ok {x : Result α} {f : α → β} {b : β} :
    (f <$> x) = .ok b ↔ ∃ a, x = .ok a ∧ f a = b := by
  cases x with
  | error e => simp [Functor.map, Except.map]
  | ok a => simp [Functor.map, Except.map]

theorem Result.exists_of_isOk {x : Result α} (h : x.isOk = true) : ∃ a, x = .ok a := by
  cases x with
  | error e => cases h
  | ok a => exact ⟨a, rfl⟩

/-- `if c { panic!(text) }` -/
def panicIf (c : Prop) [Decidable c] (text : String) : Result Unit :=
  if c then .error (.msg text) else .ok ()

@[simp] theorem panicIf_eq_ok {c : Prop} [Decidable c] {text : String} {u : Unit} :
    panicIf c text = .ok u ↔ ¬ c := by
  unfold panicIf; split <;> simp [*]

@[simp] theorem panicIf_eq_error {c : Prop} [Decidable c] {text : String} {e : Panic} :
    panicIf c text = .error e ↔ c ∧ e = .msg text := by
  unfold panicIf
  split
  · rename_i h; simp [h, eq_comm]
  · rename_i h; simp [h]

/-- `o.expect(text)` -/
def expect (o : Option α) (text : String) : Result α :=
  match o with
  | some a => .ok a
  | none => .error (.msg text)

@[simp] theorem expect_eq_ok {o : Option α} {text : String} {a : α} :
    expect o text = .ok a ↔ o = some a := by
  cases o <;> simp [expect]

@[simp] theorem expect_eq_error {o : Option α} {text : String} {e : Panic} :
    expect o text = .error e ↔ o = none ∧ e = .msg text := by
  cases o <;> simp [expect, eq_comm]

/-- `o.unwrap()` -/
def unwrap (o : Option α) : Result α :=
  match o with
  | some a => .ok a
  | none => .error .unwrapNone

@[simp] theorem unwrap_eq_ok {o : Option α} {a : α} : unwrap o = .ok a ↔ o = some a := by
  cases o <;> simp [unwrap]

end

/-! ## Machine integers

Amounts are `i128`, ledger numbers `u32`, ids and voucher sequences `u64`. They are modelled by
`Int` and `Nat`, and every operation the code performs checks its result. -/

def I128_MAX : Int := 2 ^ 127 - 1
def I128_MIN : Int := -2 ^ 127
def U32_MAX : Nat := 2 ^ 32 - 1
def U64_MAX : Nat := 2 ^ 64 - 1

/-- `x` is a value of type `i128`. -/
def IsI128 (x : Int) : Prop := I128_MIN ≤ x ∧ x ≤ I128_MAX

instance (x : Int) : Decidable (IsI128 x) := inferInstanceAs (Decidable (_ ∧ _))

/-- The result of an `i128` operation, or a panic if it does not fit. -/
def checkI128 (x : Int) : Result Int := if IsI128 x then .ok x else .error .overflow

/-- The result of a `u32` operation. -/
def checkU32 (n : Nat) : Result Nat := if n ≤ U32_MAX then .ok n else .error .overflow

/-- The result of a `u64` operation. -/
def checkU64 (n : Nat) : Result Nat := if n ≤ U64_MAX then .ok n else .error .overflow

@[simp] theorem checkI128_eq_ok {x y : Int} : checkI128 x = .ok y ↔ IsI128 x ∧ x = y := by
  unfold checkI128; split <;> simp [*]

@[simp] theorem checkU32_eq_ok {n m : Nat} : checkU32 n = .ok m ↔ n ≤ U32_MAX ∧ n = m := by
  unfold checkU32; split <;> simp [*]

@[simp] theorem checkU64_eq_ok {n m : Nat} : checkU64 n = .ok m ↔ n ≤ U64_MAX ∧ n = m := by
  unfold checkU64; split <;> simp [*]

@[simp] theorem checkI128_eq_error {x : Int} {e : Panic} :
    checkI128 x = .error e ↔ ¬ IsI128 x ∧ e = .overflow := by
  unfold checkI128
  split
  · rename_i h; simp [h]
  · rename_i h; simp [h, eq_comm]

@[simp] theorem checkU32_eq_error {n : Nat} {e : Panic} :
    checkU32 n = .error e ↔ U32_MAX < n ∧ e = .overflow := by
  unfold checkU32
  split
  · rename_i h; simp [Nat.not_lt.mpr h]
  · rename_i h; simp [Nat.not_le.mp h, eq_comm]

/-! ## Byte strings of fixed length and the host's cryptography -/

abbrev Bytes := List UInt8

/-- `BytesN<n>`: exactly `n` bytes. -/
structure BytesN (n : Nat) where
  bytes : Bytes
  length_eq : bytes.length = n
  deriving DecidableEq

/-- The host functions the voucher scheme rests on: `Address::to_xdr`, `sha256` and
`ed25519_verify`, here as the question whether a signature verifies. -/
structure Platform where
  to_xdr : Address → Bytes
  sha256 : Bytes → BytesN 32
  ed25519_verify : BytesN 32 → Bytes → BytesN 64 → Bool

/-- One deployed contract: the network it lives on and its address there. -/
structure Deployment where
  network_id : BytesN 32
  address : Address
  deriving DecidableEq

/-! ## The environment of one call -/

/-- The arguments of a call to `execute_swap(from_token, from_amount, to_token, min_out, to)`. -/
structure SwapArgs where
  from_token : Address
  from_amount : Int
  to_token : Address
  min_out : Int
  recipient : Address

/-- What a swap venue does: the number it returns, and how much of `to_token` it really sends.
Nothing ties the two together. -/
structure SwapReply where
  output : Int
  delivered : Nat

/-- Everything a call sees from outside: who authorised it, and how the contracts it calls
answer (`none` when the called contract panics). A contract is never its own caller, so it does
not authorise calls to itself. -/
structure Env where
  platform : Platform
  contract : Deployment
  authorized : Address → Bool
  is_paused : Address → Option Bool
  get_price : Address → Address → Address → Option Int
  execute_swap : Address → SwapArgs → Option SwapReply
  self_unauthorized : authorized contract.address = false

/-- `env.current_contract_address()` -/
def Env.self (env : Env) : Address := env.contract.address

/-- `who.require_auth()` -/
def requireAuth (env : Env) (who : Address) : Result Unit :=
  if env.authorized who then .ok () else .error (.auth who)

@[simp] theorem requireAuth_eq_ok {env : Env} {who : Address} {u : Unit} :
    requireAuth env who = .ok u ↔ env.authorized who = true := by
  unfold requireAuth; split <;> simp [*]

theorem ne_self_of_authorized {env : Env} {who : Address} (h : env.authorized who = true) :
    who ≠ env.self := by
  rintro rfl
  simp [Env.self, env.self_unauthorized] at h

/-- `env.invoke_contract(callee, ..)`: the answer of another contract. The host refuses
re-entry, so a call to the contract itself fails. -/
def invokeContract {α : Type} (env : Env) (callee : Address) (answer : Option α) : Result α :=
  if callee = env.self then .error (.host "contract re-entry is not allowed")
  else match answer with
    | some a => .ok a
    | none => .error (.host "the called contract failed")

@[simp] theorem invokeContract_eq_ok {α : Type} {env : Env} {callee : Address}
    {answer : Option α} {a : α} :
    invokeContract env callee answer = .ok a ↔ callee ≠ env.self ∧ answer = some a := by
  unfold invokeContract
  split
  · simp [*]
  · cases answer <;> simp [*]

/-! ## Token balances and the world -/

/-- The balances of every token contract: token, holder, amount. -/
abbrev TokenLedger := Address → Address → Int

/-- Move `amount` of `token` from `source` to `dest`. -/
def TokenLedger.move (L : TokenLedger) (token source dest : Address) (amount : Int) :
    TokenLedger := fun t h =>
  if t = token then
    -- two summands, so that a transfer to oneself changes nothing
    L t h - (if h = source then amount else 0) + (if h = dest then amount else 0)
  else L t h

/-- An entry of the event stream: a token contract's `transfer` event or an event that the
contract itself published. -/
inductive HostEvent (E : Type) where
  | transfer (token source dest : Address) (amount : Int)
  | published (event : E)

/-- The world a contract with storage `S` and events `E` runs in. `events` holds the events of
the call under way, or of the last call. -/
structure World (S E : Type) where
  storage : S
  balance : TokenLedger
  sequence : Nat
  events : List (HostEvent E)

namespace World

variable {S E : Type}

/-- `env.events().publish(..)` -/
def publish (w : World S E) (e : E) : World S E :=
  { w with events := w.events ++ [.published e] }

/-- The world after a token contract moved `amount`. -/
def moved (w : World S E) (token source dest : Address) (amount : Int) : World S E :=
  { w with
    balance := w.balance.move token source dest amount
    events := w.events ++ [.transfer token source dest amount] }

/-- `token::Client::transfer`: the token contract moves exactly `amount`, or fails. -/
def transfer (w : World S E) (token source dest : Address) (amount : Int) :
    Result (World S E) :=
  if amount < 0 then .error (.host "negative amount is not allowed")
  else if w.balance token source < amount then .error (.host "balance is not sufficient")
  else .ok (w.moved token source dest amount)

@[simp] theorem transfer_eq_ok {w w' : World S E} {token source dest : Address} {amount : Int} :
    w.transfer token source dest amount = .ok w' ↔
      0 ≤ amount ∧ amount ≤ w.balance token source ∧ w' = w.moved token source dest amount := by
  unfold transfer
  split
  · simp only [reduceCtorEq, false_iff, not_and]; omega
  · split
    · simp only [reduceCtorEq, false_iff, not_and]; omega
    · simp only [Except.ok.injEq, eq_comm]
      constructor
      · intro h; exact ⟨by omega, by omega, h⟩
      · intro h; exact h.2.2

@[simp] theorem publish_storage (w : World S E) (e : E) : (w.publish e).storage = w.storage := rfl
@[simp] theorem publish_balance (w : World S E) (e : E) : (w.publish e).balance = w.balance := rfl
@[simp] theorem publish_sequence (w : World S E) (e : E) :
    (w.publish e).sequence = w.sequence := rfl
@[simp] theorem publish_events (w : World S E) (e : E) :
    (w.publish e).events = w.events ++ [.published e] := rfl

@[simp] theorem moved_storage (w : World S E) (token source dest : Address) (amount : Int) :
    (w.moved token source dest amount).storage = w.storage := rfl
@[simp] theorem moved_balance (w : World S E) (token source dest : Address) (amount : Int) :
    (w.moved token source dest amount).balance = w.balance.move token source dest amount := rfl
@[simp] theorem moved_sequence (w : World S E) (token source dest : Address) (amount : Int) :
    (w.moved token source dest amount).sequence = w.sequence := rfl
@[simp] theorem moved_events (w : World S E) (token source dest : Address) (amount : Int) :
    (w.moved token source dest amount).events
      = w.events ++ [.transfer token source dest amount] := rfl

end World

/-! ## A contract as a transition system -/

/-- A contract: its entry points and which arguments are values of their declared types. -/
structure Contract (S E C : Type) where
  exec : Env → World S E → C → Result (World S E)
  wellTyped : C → Prop

/-- What can happen to a deployment: somebody invokes it, ledgers close, or token balances
change by transactions the contract takes no part in. -/
inductive Action (C : Type) where
  | invoke (env : Env) (call : C)
  | closeLedgers (count : Nat)
  | external (balance : TokenLedger)

section

variable {S E C : Type}

/-- The world after an action. A panicking call is rolled back; in every case the event list
is that of this action. -/
def Contract.next (K : Contract S E C) (w : World S E) : Action C → World S E
  | .invoke env call =>
      match K.exec env { w with events := [] } call with
      | .ok w' => w'
      -- a panic undoes everything the call did
      | .error _ => { w with events := [] }
  | .closeLedgers count => { w with sequence := w.sequence + count, events := [] }
  | .external balance => { w with balance, events := [] }

theorem Contract.next_ok {K : Contract S E C} {w w' : World S E} {env : Env} {call : C}
    (h : K.exec env { w with events := [] } call = .ok w') : K.next w (.invoke env call) = w' := by
  simp only [Contract.next, h]

theorem Contract.next_error {K : Contract S E C} {w : World S E} {env : Env} {call : C}
    {e : Panic} (h : K.exec env { w with events := [] } call = .error e) :
    K.next w (.invoke env call) = { w with events := [] } := by
  simp only [Contract.next, h]

/-- Which actions can happen to deployment `d` on platform `P`: calls with arguments of the
declared types, ledger numbers that are `u32`, and foreign transactions that take nothing out
of the contract's own balances. -/
def Contract.Allowed (K : Contract S E C) (P : Platform) (d : Deployment) (w : World S E) :
    Action C → Prop
  | .invoke env call => env.platform = P ∧ env.contract = d ∧ K.wellTyped call
  | .closeLedgers count => w.sequence + count ≤ U32_MAX
  | .external balance => ∀ token, w.balance token d.address ≤ balance token d.address

/-- One step of deployment `d`. -/
def Contract.Step (K : Contract S E C) (P : Platform) (d : Deployment) (w : World S E)
    (a : Action C) (w' : World S E) : Prop :=
  K.Allowed P d w a ∧ w' = K.next w a

end

end StellarAgent.Soroban
