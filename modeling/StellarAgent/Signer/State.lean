import StellarAgent.Lib.RestartingWindows
import StellarAgent.Signer.Policy

set_option autoImplicit false

/-! # What the service keeps between requests

The rate limits of `services/signer/src/policy.rs`, one window for each subject, and the ratcheting
clock of `services/signer/src/ledger.rs`. Times and ledgers are natural numbers, of which the
source's are those below `2 ^ 64` and `2 ^ 32`.
-/

namespace StellarAgent.Signer

open Lib Soroban

/-! ## Rate limits -/

structure Window where
  started_at : Nat
  requests : Nat
  amount : Int
  deriving DecidableEq

/-- `Window::default` -/
def Window.default : Window := ⟨0, 0, 0⟩

structure RateLimitState where
  windows : Map String Window

/-- `RateLimitState::new` -/
def RateLimitState.new : RateLimitState := ⟨∅⟩

/-- `current_window` -/
def currentWindow (windows : Map String Window) (subject : String) (window_seconds now : Nat) :
    Window :=
  match windows.lookup subject with
  | some window => if now - window.started_at < window_seconds then window else ⟨now, 0, 0⟩
  | none => ⟨now, 0, 0⟩

/-- `RateLimitState::check`: it consumes nothing. -/
def RateLimitState.check (state : RateLimitState) (policy : Policy) (subject : String)
    (amount : Int) (now : Nat) : Option Violation :=
  match policy.rate_limit with
  | none => none
  | some limit =>
      let window := currentWindow state.windows subject limit.window_seconds now
      if window.requests ≥ limit.max_requests.toNat then
        some ⟨"rate_limit", toString window.requests ++ " of " ++
          toString limit.max_requests.toNat ++ " signing requests used in this " ++
          toString limit.window_seconds ++ "s window"⟩
      else
        match limit.amountCap with
        | none => none
        | some cap =>
            let projected := saturatingAdd window.amount amount
            if projected > cap then
              some ⟨"rate_limit", toString projected ++ " stroops would exceed the " ++
                toString cap ++ " allowed in this " ++ toString limit.window_seconds ++
                "s window"⟩
            else none

/-- A window that is over is replaced by one that starts now. -/
def Window.roll (window : Window) (window_seconds now : Nat) : Window :=
  if now - window.started_at ≥ window_seconds then ⟨now, 0, 0⟩ else window

/-- `windows.entry(subject).or_default()` -/
def RateLimitState.window (state : RateLimitState) (subject : String) : Window :=
  (state.windows.lookup subject).getD Window.default

/-- `RateLimitState::commit` -/
def RateLimitState.commit (state : RateLimitState) (policy : Policy) (subject : String)
    (amount : Int) (now : Nat) : RateLimitState :=
  match policy.rate_limit with
  | none => state
  | some limit =>
      let window := (state.window subject).roll limit.window_seconds now
      { windows := state.windows.insert subject
          { window with
            requests := saturatingAddU32 window.requests 1
            amount := saturatingAdd window.amount amount } }

/-! ## The ledger clock -/

structure RatchetingClock where
  state : Nat
  max_advance : Nat
  deriving DecidableEq

/-- `RatchetingClock::new` -/
def RatchetingClock.new (initial max_advance : Nat) : RatchetingClock where
  state := initial
  max_advance := max max_advance 1

/-- `observe` -/
def RatchetingClock.observe (clock : RatchetingClock) (claimed : Nat) :
    Except Nat Unit × RatchetingClock :=
  if clock.state = 0 then (.ok (), { clock with state := claimed })
  else if claimed ≤ clock.state then (.ok (), clock)
  else
    let ceiling := saturatingAddU32 clock.state clock.max_advance
    if claimed > ceiling then (.error ceiling, clock)
    else (.ok (), { clock with state := claimed })

/-! ## What a commit counts -/

section

variable {state : RateLimitState} {policy : Policy} {limit : RateLimit} {subject other : String}
  {amount : Int} {now : Nat}

theorem commit_lookup_of_ne (h : other ≠ subject) :
    (state.commit policy subject amount now).windows.lookup other = state.windows.lookup other := by
  unfold RateLimitState.commit
  cases policy.rate_limit with
  | none => rfl
  | some limit => exact Finmap.lookup_insert_of_ne _ h

theorem commit_window (hlimit : policy.rate_limit = some limit) :
    (state.commit policy subject amount now).window subject =
      let window := (state.window subject).roll limit.window_seconds now
      { window with
        requests := saturatingAddU32 window.requests 1
        amount := saturatingAdd window.amount amount } := by
  unfold RateLimitState.commit
  rw [hlimit, RateLimitState.window]
  dsimp only
  rw [Finmap.lookup_insert, Option.getD_some]

/-- **There is room for a request in the window it is counted in.** The window is not younger than
the request, a request is left, and the amount fits. -/
structure Room (limit : RateLimit) (window : Window) (amount : Int) (now : Nat) : Prop where
  on_time : window.started_at ≤ now
  requests : (window.roll limit.window_seconds now).requests < limit.max_requests.toNat
  amount : ∀ cap ∈ limit.amountCap, (window.roll limit.window_seconds now).amount + amount ≤ cap

instance (limit : RateLimit) (window : Window) (amount : Int) (now : Nat) :
    Decidable (Room limit window amount now) :=
  decidable_of_iff (window.started_at ≤ now ∧
      (window.roll limit.window_seconds now).requests < limit.max_requests.toNat ∧
      ∀ cap ∈ limit.amountCap, (window.roll limit.window_seconds now).amount + amount ≤ cap)
    ⟨fun h => ⟨h.1, h.2.1, h.2.2⟩, fun h => ⟨h.on_time, h.requests, h.amount⟩⟩

/-- What is counted of the requests, and of the amounts. -/
def Window.byRequests (window : Window) : LoadWindow := ⟨window.started_at, window.requests⟩
def Window.byAmount (window : Window) : LoadWindow := ⟨window.started_at, window.amount⟩

theorem roll_byRequests (window : Window) (window_seconds now : Nat) :
    (window.roll window_seconds now).byRequests = window.byRequests.roll window_seconds now := by
  unfold Window.roll LoadWindow.roll Window.byRequests
  by_cases h : now - window.started_at < window_seconds
  · rw [if_neg (not_le.mpr h), if_pos h]
  · rw [if_pos (not_lt.mp h), if_neg h]
    rfl

theorem roll_byAmount (window : Window) (window_seconds now : Nat) :
    (window.roll window_seconds now).byAmount = window.byAmount.roll window_seconds now := by
  unfold Window.roll LoadWindow.roll Window.byAmount
  by_cases h : now - window.started_at < window_seconds
  · rw [if_neg (not_le.mpr h), if_pos h]
  · rw [if_pos (not_lt.mp h), if_neg h]

theorem parseI128_isI128 {raw : String} {n : Int} (h : parseI128 raw = some n) : IsI128 n := by
  unfold parseI128 at h
  rw [Option.filter_eq_some_iff] at h
  simpa using h.2

theorem RateLimit.amountCap_le (limit : RateLimit) {cap : Int} (hcap : cap ∈ limit.amountCap) :
    cap ≤ I128_MAX := by
  obtain ⟨raw, _, hraw⟩ := Option.bind_eq_some_iff.mp hcap
  exact (parseI128_isI128 hraw).2

theorem roll_amount_nonneg {window : Window} (h : 0 ≤ window.amount) (window_seconds now : Nat) :
    0 ≤ (window.roll window_seconds now).amount := by
  unfold Window.roll
  split
  · exact le_rfl
  · exact h

theorem Room.fits_requests {window : Window} (h : Room limit window amount now) :
    FitsInto limit.window_seconds limit.max_requests.toNat window.byRequests ⟨now, 1⟩ := by
  refine ⟨h.on_time, ?_⟩
  have hrequests := h.requests
  rw [← roll_byRequests]
  show ((window.roll limit.window_seconds now).requests : ℤ) + 1 ≤ limit.max_requests.toNat
  omega

theorem Room.fits_amount {window : Window} (h : Room limit window amount now) {cap : Int}
    (hcap : limit.amountCap = some cap) :
    FitsInto limit.window_seconds cap window.byAmount ⟨now, amount⟩ := by
  refine ⟨h.on_time, ?_⟩
  rw [← roll_byAmount]
  exact h.amount cap hcap

/-- Where there is room, the requests are counted exactly. -/
theorem Room.commit_byRequests (hlimit : policy.rate_limit = some limit)
    (h : Room limit (state.window subject) amount now) :
    ((state.commit policy subject amount now).window subject).byRequests =
      (state.window subject).byRequests.count limit.window_seconds ⟨now, 1⟩ := by
  have hrequests := h.requests
  have hmax : limit.max_requests.toNat < 2 ^ 32 := limit.max_requests.toNat_lt
  rw [commit_window hlimit, LoadWindow.count, ← roll_byRequests]
  generalize (state.window subject).roll limit.window_seconds now = window at hrequests
  have hexact : saturatingAddU32 window.requests 1 = window.requests + 1 := by
    unfold saturatingAddU32 U32_MAX
    omega
  show (⟨window.started_at, (saturatingAddU32 window.requests 1 : Nat)⟩ : LoadWindow) = _
  rw [hexact, Nat.cast_add, Nat.cast_one]
  rfl

/-- Where there is room, the amounts are counted exactly. -/
theorem Room.commit_byAmount (hlimit : policy.rate_limit = some limit)
    (h : Room limit (state.window subject) amount now) {cap : Int}
    (hcap : limit.amountCap = some cap) (hamount : 0 ≤ amount)
    (hwindow : 0 ≤ (state.window subject).amount) :
    ((state.commit policy subject amount now).window subject).byAmount =
      (state.window subject).byAmount.count limit.window_seconds ⟨now, amount⟩ := by
  have hroom := h.amount cap hcap
  have hcap' : cap ≤ I128_MAX := limit.amountCap_le hcap
  have hrolled := roll_amount_nonneg hwindow limit.window_seconds now
  rw [commit_window hlimit, LoadWindow.count, ← roll_byAmount]
  generalize (state.window subject).roll limit.window_seconds now = window at hroom hrolled
  have hexact : saturatingAdd window.amount amount = window.amount + amount := by
    unfold saturatingAdd
    have hmin : I128_MIN ≤ 0 := by decide
    rw [min_eq_right (hroom.trans hcap'), max_eq_right (by omega)]
  show (⟨window.started_at, saturatingAdd window.amount amount⟩ : LoadWindow) = _
  rw [hexact]
  rfl

end

end StellarAgent.Signer
