import StellarAgent.PaymentChannel.System

set_option autoImplicit false

/-! # Scripted runs on a concrete deployment

A deployment on the test network with a handful of accounts, on which counterexamples and
instances of the general results are executed. A script is a list of `Move`s; `script_runs`
turns an executed script into a run.

The platform holds the real values where a script needs them: the XDR of contract addresses, the
SHA-256 digests of the contract's and the recipient's address, and Ed25519 signatures by the key
of RFC 8032's first test vector.
-/

namespace StellarAgent.PaymentChannel.Scenario

open Lib Soroban

/-! ## Accounts and cryptography -/

def contract : Address := ⟨1⟩
def owner : Address := ⟨2⟩
def agent : Address := ⟨3⟩
def recipient : Address := ⟨4⟩
def usdc : Address := ⟨5⟩
def eurc : Address := ⟨6⟩
def xlm : Address := ⟨7⟩
def venue : Address := ⟨8⟩
def oracle : Address := ⟨9⟩
def stranger : Address := ⟨10⟩

/-- The `n` bytes of a number. -/
def bytesN (n value : Nat) : BytesN n := ⟨toBE n value, toBE_length n value⟩

/-- The XDR of a contract address: `SCV_ADDRESS`, `SC_ADDRESS_TYPE_CONTRACT`, 32 bytes. -/
def contractXdr (address : Address) : Bytes := [0, 0, 0, 18, 0, 0, 0, 1] ++ toBE 32 address.id

def digest (message : Bytes) : BytesN 32 :=
  if message = contractXdr contract then
    bytesN 32 0x28415d19553c5d590306a4429847180a867cfcea9393db6b5a0e0635075ea936
  else if message = contractXdr recipient then
    bytesN 32 0x03b07df31ca4bcd5754b472170dd2e99570c11b0f73d632d4ad64170ddff48e3
  else bytesN 32 0

def voucherKey : BytesN 32 :=
  bytesN 32 0xd75a980182b10ab7d54bfed3c964073a0ee172f3daa62325af021a68f707511a

/-- The signatures of `voucherKey` on vouchers 1, 2 and 3 for channel 1 and `recipient`, over 20,
50 and 90. -/
def signature20 : BytesN 64 :=
  bytesN 64 (0xac1165047e422f3926b73c583b544cddc023201aef3bc6ee5c7f781c51557464 * 2 ^ 256
    + 0x0f4dbab823438f0d04081a35e255af61d3df76da964b658fc055622c4e879f04)
def signature50 : BytesN 64 :=
  bytesN 64 (0x8277cf9a7a65cd002adc007eaa359357947846ce3a3a764128b79ae29c25eed3 * 2 ^ 256
    + 0x394ac4097257d1487a966cbdaccf461643446ac02c6b49465511bb8aa18cbf01)
def signature90 : BytesN 64 :=
  bytesN 64 (0x3211c61fc7597907d9d388835798d7f7615383d6887a5d9e9dcb0beda1e53657 * 2 ^ 256
    + 0x5deac918e767d8875e1ac7b88eea96bef9e185e1564425ec9d4c681037e20501)

/-- The three messages, as the 151-byte numbers they are. -/
def message (sequence amount : Nat) : Nat :=
  ((0x5354454c4c41524147454e542d564f55434845522d5631 * 2 ^ 256
    + 0xcee0302d59844d32bdca915c8203dd44b33fbb7edc19051ea37abedf28ecd472) * 2 ^ 512
    + 0x28415d19553c5d590306a4429847180a867cfcea9393db6b5a0e0635075ea936 * 2 ^ 256
    + 0x03b07df31ca4bcd5754b472170dd2e99570c11b0f73d632d4ad64170ddff48e3) * 2 ^ 256
    + 1 * 2 ^ 192 + sequence * 2 ^ 128 + amount

def verifies (key : BytesN 32) (bytes : Bytes) (signature : BytesN 64) : Bool :=
  key = voucherKey &&
    [(message 1 20, signature20), (message 2 50, signature50), (message 3 90, signature90)].any
      (fun signed => bytes = toBE 151 signed.1 && signature = signed.2)

def testnet : Platform where
  to_xdr := contractXdr
  sha256 := digest
  ed25519_verify := verifies

def deployed : Deployment where
  network_id := bytesN 32 0xcee0302d59844d32bdca915c8203dd44b33fbb7edc19051ea37abedf28ecd472
  address := contract

/-! ## Calls -/

/-- A call authorised by `signers`, with a given swap venue. Nothing is paused and every pair
trades at par. -/
def callBy (signers : List Address) (execute_swap : SwapArgs → Option SwapReply) : Env where
  platform := testnet
  contract := deployed
  authorized := fun a => a ∈ signers ∧ a ≠ contract
  is_paused := fun _ => some false
  get_price := fun _ _ _ => some PRICE_SCALE
  execute_swap := fun _ args => execute_swap args
  self_unauthorized := by simp [deployed]

/-- A venue that delivers what it reports. -/
def honestSwap (args : SwapArgs) : Option SwapReply :=
  some ⟨args.from_amount, args.from_amount.toNat⟩

/-- One line of a script. -/
inductive Move where
  | invoke (signers : List Address) (execute_swap : SwapArgs → Option SwapReply) (call : Call)
  | wait (ledgers : Nat)

def Move.action : Move → Action Call
  | .invoke signers execute_swap call => .invoke (callBy signers execute_swap) call
  | .wait ledgers => .closeLedgers ledgers

/-- Everybody but the contract holds 1000 of every token; nothing has been called yet. -/
def start : State where
  storage := Storage.fresh
  balance := fun _ holder => if holder = contract then 0 else 1000
  sequence := 100
  events := []

theorem start_genesis : Genesis start := by
  refine ⟨rfl, fun token holder => ?_⟩
  show 0 ≤ (if holder = contract then (0 : Int) else 1000)
  split <;> omega

/-- The history of a script. -/
def history (script : List Move) : List Tx :=
  play paymentChannel.next start (script.map Move.action)

/-- The world at the end of a script. -/
def outcome (script : List Move) : State :=
  (script.map Move.action).foldl paymentChannel.next start

instance : DecidablePred Call.WellTyped
  | .openChannel .. => inferInstanceAs (Decidable (_ ∧ _))
  | .pay .. => inferInstanceAs (Decidable (_ ∧ _))
  | .payWithConversion .. => inferInstanceAs (Decidable (_ ∧ _))
  | .payWithRoute .. => inferInstanceAs (Decidable (_ ∧ _))
  | .topUp .. => inferInstanceAs (Decidable (_ ∧ _))
  | .closeChannel .. => inferInstanceAs (Decidable (_ ≤ _))
  | .setMultisigConfig .. => inferInstanceAs (Decidable (_ ∧ _))
  | .proposeMultisigConfig .. => inferInstanceAs (Decidable True)
  | .proposeCircuitBreaker .. => inferInstanceAs (Decidable True)
  | .setCircuitBreaker .. => inferInstanceAs (Decidable True)
  | .proposePriceOracle .. => inferInstanceAs (Decidable True)
  | .setPriceOracle .. => inferInstanceAs (Decidable True)
  | .proposeAmm .. => inferInstanceAs (Decidable True)
  | .setAmm .. => inferInstanceAs (Decidable True)
  | .enableVouchers .. => inferInstanceAs (Decidable (_ ∧ _))
  | .allocate .. => inferInstanceAs (Decidable (_ ∧ _))
  | .withdrawFree .. => inferInstanceAs (Decidable (_ ≤ _))
  | .closeCooperative .. => inferInstanceAs (Decidable (_ ∧ _))
  | .closeUnilateral .. => inferInstanceAs (Decidable (_ ∧ _))
  | .challenge .. => inferInstanceAs (Decidable (_ ∧ _))
  | .finalize .. => inferInstanceAs (Decidable (_ ≤ _))
  | .proposeSolvencyVk .. => inferInstanceAs (Decidable True)
  | .setSolvencyVk .. => inferInstanceAs (Decidable True)

/-- The calls of a script have arguments of their types, and its ledger numbers are `u32`. -/
def legal (w : State) : List Move → Bool
  | [] => true
  | .invoke signers execute_swap call :: script =>
      decide call.WellTyped &&
        legal (paymentChannel.next w (Move.invoke signers execute_swap call).action) script
  | .wait ledgers :: script =>
      decide (w.sequence + ledgers ≤ U32_MAX) &&
        legal (paymentChannel.next w (Move.wait ledgers).action) script

theorem legal_allowed (script : List Move) (w : State) (h : legal w script = true) :
    ∀ x ∈ play paymentChannel.next w (script.map Move.action),
      Step testnet deployed x.pre x.act x.post := by
  induction script generalizing w with
  | nil => intro x hx; cases hx
  | cons move script ih =>
      intro x hx
      cases move with
      | invoke signers execute_swap call =>
          rw [legal, Bool.and_eq_true, decide_eq_true_eq] at h
          rcases List.mem_cons.mp hx with rfl | hx
          · exact ⟨⟨rfl, rfl, h.1⟩, rfl⟩
          · exact ih _ h.2 x hx
      | wait ledgers =>
          rw [legal, Bool.and_eq_true, decide_eq_true_eq] at h
          rcases List.mem_cons.mp hx with rfl | hx
          · exact ⟨h.1, rfl⟩
          · exact ih _ h.2 x hx

/-- **An executed script is a run.** -/
theorem script_runs (script : List Move) (h : legal start script = true) :
    Runs testnet deployed start (history script) (outcome script) :=
  play_run _ _ (legal_allowed script start h)

/-- The transaction that `move` makes after `before`. -/
def txAfter (before : List Move) (move : Move) : Tx :=
  ⟨outcome before, move.action, paymentChannel.next (outcome before) move.action⟩

/-- What `script` does after `before`. -/
def historyAfter (before script : List Move) : List Tx :=
  play paymentChannel.next (outcome before) (script.map Move.action)

theorem history_split (before : List Move) (move : Move) (script : List Move) :
    history (before ++ move :: script)
      = history before ++ txAfter before move :: historyAfter (before ++ [move]) script := by
  simp only [history, List.map_append, List.map_cons, play_append, play, txAfter, historyAfter,
    outcome, List.foldl_append, List.map_nil, List.foldl_cons, List.foldl_nil]

/-- An executed script as the run before, at and after one of its lines. -/
theorem script_runs_split (before : List Move) (move : Move) (script : List Move)
    (h : legal start (before ++ move :: script) = true) :
    Runs testnet deployed start
      (history before ++ txAfter before move :: historyAfter (before ++ [move]) script)
      (outcome (before ++ move :: script)) := by
  rw [← history_split]
  exact script_runs _ h

theorem historyAfter_snoc (before script : List Move) (move : Move) :
    historyAfter before (script ++ [move])
      = historyAfter before script ++ [txAfter (before ++ script) move] := by
  simp only [historyAfter, List.map_append, List.map_cons, List.map_nil, play_append, play,
    txAfter, outcome, List.foldl_append]

/-- A call of a script that does not panic returned. -/
theorem txAfter_calls {before : List Move} {signers : List Address}
    {execute_swap : SwapArgs → Option SwapReply} {call : Call}
    (h : (exec (callBy signers execute_swap) (outcome before).quiet call).isOk = true) :
    (txAfter before (.invoke signers execute_swap call)).Calls (callBy signers execute_swap)
      call := by
  obtain ⟨w', hexec⟩ := Result.exists_of_isOk h
  have hnext : (txAfter before (.invoke signers execute_swap call)).post = w' :=
    paymentChannel.next_ok hexec
  rw [← hnext] at hexec
  exact ⟨rfl, hexec⟩

end StellarAgent.PaymentChannel.Scenario
