import StellarAgent.Lib.Runs
import StellarAgent.Soroban.Host

set_option autoImplicit false

/-! # Transactions of a deployed contract

The runs of a deployment, for any contract `K`: a transition is a transaction of the network, and
`K.Calls t env call` says that it was a call of an entry point that returned. Every other
transaction leaves the contract's storage alone (`step_cases`).

The second half runs scripts, lists of calls and waits, on a local network; a script of legal
moves is a run (`script_runs`), which is how counterexamples and instances are executed.
-/

namespace StellarAgent.Soroban

open Lib

/-- The world a call starts from: the same, with no events yet. -/
def World.quiet {S E : Type} (w : World S E) : World S E := { w with events := [] }

section

variable {S E C : Type}

@[simp] theorem World.quiet_storage (w : World S E) : w.quiet.storage = w.storage := rfl
@[simp] theorem World.quiet_balance (w : World S E) : w.quiet.balance = w.balance := rfl
@[simp] theorem World.quiet_sequence (w : World S E) : w.quiet.sequence = w.sequence := rfl
@[simp] theorem World.quiet_events (w : World S E) : w.quiet.events = [] := rfl

namespace Contract

/-- A transaction: the world before, what happened, and the world after. -/
abbrev Tx (_ : Contract S E C) := Transition (World S E) (Action C)

/-- The runs of deployment `d` on platform `P`. -/
abbrev Runs (K : Contract S E C) (P : Platform) (d : Deployment) :
    World S E → List K.Tx → World S E → Prop := Run (K.Step P d)

/-- The transaction is a call of an entry point that returned. -/
def Calls (K : Contract S E C) (t : K.Tx) (env : Env) (call : C) : Prop :=
  t.act = .invoke env call ∧ K.exec env t.pre.quiet call = .ok t.post

variable {K : Contract S E C} {P : Platform} {d : Deployment} {w w' : World S E} {a : Action C}

theorem Calls.unique {t : K.Tx} {env env' : Env} {call call' : C} (h : K.Calls t env call)
    (h' : K.Calls t env' call') : env' = env ∧ call' = call := by
  have heq := h.1.symm.trans h'.1
  simp only [Action.invoke.injEq] at heq
  exact ⟨heq.1.symm, heq.2.symm⟩

/-- **What a step can be**: a call that returned, or something that leaves the storage alone and
takes nothing out of the contract's balances. -/
theorem step_cases (h : K.Step P d w a w') :
    (w'.storage = w.storage ∧ w.sequence ≤ w'.sequence ∧ w'.events = [] ∧
        (∀ token, w.balance token d.address ≤ w'.balance token d.address) ∧
        ∀ env call, ¬ K.Calls ⟨w, a, w'⟩ env call) ∨
      ∃ env call, a = .invoke env call ∧ env.contract = d ∧ K.wellTyped call ∧
        K.exec env w.quiet call = .ok w' := by
  obtain ⟨hallowed, rfl⟩ := h
  cases a with
  | closeLedgers count =>
      refine .inl ⟨rfl, Nat.le_add_right _ _, rfl, fun _ => le_rfl, fun _ _ hcalls => ?_⟩
      cases hcalls.1
  | external balance =>
      refine .inl ⟨rfl, le_rfl, rfl, hallowed, fun _ _ hcalls => ?_⟩
      cases hcalls.1
  | invoke env call =>
      obtain ⟨_, hd, htyped⟩ := hallowed
      cases hexec : K.exec env w.quiet call with
      | ok w' =>
          rw [K.next_ok hexec]
          exact .inr ⟨env, call, rfl, hd, htyped, hexec⟩
      | error e =>
          rw [K.next_error hexec]
          refine .inl ⟨rfl, le_rfl, rfl, fun _ => le_rfl, fun env' call' hcalls => ?_⟩
          obtain ⟨hact, hok⟩ := hcalls
          cases hact
          cases hexec.symm.trans hok

theorem Calls.platform {env : Env} {call : C} (hst : K.Step P d w a w')
    (h : K.Calls ⟨w, a, w'⟩ env call) : env.contract = d := by
  obtain ⟨hact, _⟩ := h
  dsimp only at hact
  subst hact
  exact hst.1.2.1

end Contract

end

/-! ## Scripts -/

/-- One line of a script of deployment `d`: somebody calls an entry point, or ledgers close. -/
inductive Move (P : Platform) (d : Deployment) (C : Type) where
  | invoke (env : Env) (here : env.platform = P ∧ env.contract = d) (call : C)
  | wait (ledgers : Nat)

section

variable {S E C : Type} {P : Platform} {d : Deployment}

def Move.action : Move P d C → Action C
  | .invoke env _ call => .invoke env call
  | .wait ledgers => .closeLedgers ledgers

namespace Contract

variable (K : Contract S E C)

/-- The history of a script that starts in `w`. -/
def history (w : World S E) (script : List (Move P d C)) : List K.Tx :=
  play K.next w (script.map Move.action)

/-- The world at the end of a script. -/
def outcome (w : World S E) (script : List (Move P d C)) : World S E :=
  (script.map Move.action).foldl K.next w

/-- The transaction that `move` makes after `before`. -/
def txAfter (w : World S E) (before : List (Move P d C)) (move : Move P d C) : K.Tx :=
  ⟨K.outcome w before, move.action, K.next (K.outcome w before) move.action⟩

/-- What `script` does after `before`. -/
def historyAfter (w : World S E) (before script : List (Move P d C)) : List K.Tx :=
  play K.next (K.outcome w before) (script.map Move.action)

/-- The calls of a script have arguments of their types, and its ledger numbers are `u32`. -/
def legal [DecidablePred K.wellTyped] (w : World S E) : List (Move P d C) → Bool
  | [] => true
  | .invoke env here call :: script =>
      decide (K.wellTyped call) &&
        legal (K.next w (Move.invoke env here call).action) script
  | .wait ledgers :: script =>
      decide (w.sequence + ledgers ≤ U32_MAX) &&
        legal (K.next w (.closeLedgers ledgers)) script

variable {K} [DecidablePred K.wellTyped]

theorem legal_allowed (script : List (Move P d C)) (w : World S E)
    (h : K.legal w script = true) :
    ∀ x ∈ play K.next w (script.map Move.action), K.Step P d x.pre x.act x.post := by
  induction script generalizing w with
  | nil => intro x hx; cases hx
  | cons move script ih =>
      intro x hx
      cases move with
      | invoke env here call =>
          rw [legal, Bool.and_eq_true, decide_eq_true_eq] at h
          rcases List.mem_cons.mp hx with rfl | hx
          · exact ⟨⟨here.1, here.2, h.1⟩, rfl⟩
          · exact ih _ h.2 x hx
      | wait ledgers =>
          rw [legal, Bool.and_eq_true, decide_eq_true_eq] at h
          rcases List.mem_cons.mp hx with rfl | hx
          · exact ⟨h.1, rfl⟩
          · exact ih _ h.2 x hx

/-- **A legal script is a run.** -/
theorem script_runs {w : World S E} (script : List (Move P d C)) (h : K.legal w script = true) :
    K.Runs P d w (K.history w script) (K.outcome w script) :=
  play_run _ _ (legal_allowed script w h)

omit [DecidablePred K.wellTyped] in
theorem history_split (w : World S E) (before : List (Move P d C)) (move : Move P d C)
    (script : List (Move P d C)) :
    K.history w (before ++ move :: script) = K.history w before ++
      K.txAfter w before move :: K.historyAfter w (before ++ [move]) script := by
  simp only [history, List.map_append, List.map_cons, play_append, play, txAfter, historyAfter,
    outcome, List.foldl_append, List.map_nil, List.foldl_cons, List.foldl_nil]

/-- A legal script as the run before, at and after one of its lines. -/
theorem script_runs_split {w : World S E} (before : List (Move P d C)) (move : Move P d C)
    (script : List (Move P d C)) (h : K.legal w (before ++ move :: script) = true) :
    K.Runs P d w (K.history w before ++
        K.txAfter w before move :: K.historyAfter w (before ++ [move]) script)
      (K.outcome w (before ++ move :: script)) := by
  rw [← history_split]
  exact script_runs _ h

omit [DecidablePred K.wellTyped] in
/-- A later line of a script is one of the transactions after an earlier one. -/
theorem txAfter_mem_historyAfter (w : World S E) (start between : List (Move P d C))
    (move : Move P d C) (script : List (Move P d C)) :
    K.txAfter w (start ++ between) move
      ∈ K.historyAfter w start (between ++ move :: script) := by
  have hsplit : K.historyAfter w start (between ++ move :: script)
      = K.historyAfter w start between ++ K.txAfter w (start ++ between) move ::
        K.historyAfter w (start ++ between ++ [move]) script := by
    simp only [historyAfter, List.map_append, List.map_cons, play_append, play, txAfter, outcome,
      List.foldl_append, List.map_nil, List.foldl_cons, List.foldl_nil]
  rw [hsplit]
  exact List.mem_append_right _ List.mem_cons_self

omit [DecidablePred K.wellTyped] in
/-- A call of a script that does not panic returned. -/
theorem txAfter_calls {w : World S E} {before : List (Move P d C)} {env : Env}
    {here : env.platform = P ∧ env.contract = d} {call : C}
    (h : (K.exec env (K.outcome w before).quiet call).isOk = true) :
    K.Calls (K.txAfter w before (.invoke env here call)) env call := by
  obtain ⟨w', hexec⟩ := Result.exists_of_isOk h
  have hnext : (K.txAfter w before (.invoke env here call)).post = w' := K.next_ok hexec
  rw [← hnext] at hexec
  exact ⟨rfl, hexec⟩

end Contract

end

/-! ## A local network

The contracts that run on it use no cryptography, so its platform is a stand-in. -/

namespace LocalNet

def contract : Address := ⟨1⟩
def token : Address := ⟨2⟩
def breaker : Address := ⟨3⟩
def stranger : Address := ⟨9⟩

/-- The accounts `n`, from 10 on. -/
def account (n : Nat) : Address := ⟨10 + n⟩

def zeros (n : Nat) : BytesN n := ⟨List.replicate n 0, List.length_replicate⟩

def platform : Platform where
  to_xdr := fun _ => []
  sha256 := fun _ => zeros 32
  ed25519_verify := fun _ _ _ => false

def deployed : Deployment where
  network_id := zeros 32
  address := contract

/-- A call authorised by `signers`, while the circuit breaker reports `paused`. -/
def callBy (signers : List Address) (paused : Bool) : Env where
  platform := platform
  contract := deployed
  authorized := fun a => a ∈ signers ∧ a ≠ contract
  is_paused := fun _ => some paused
  get_price := fun _ _ _ => none
  execute_swap := fun _ _ => none
  self_unauthorized := by simp [deployed]

/-- A call authorised by `signers`, with nothing paused. -/
def signed {C : Type} (signers : List Address) (call : C) : Move platform deployed C :=
  .invoke (callBy signers false) ⟨rfl, rfl⟩ call

/-- A fresh deployment: everybody but the contract holds 1000 of every token. -/
def start {S : Type} (E : Type) (storage : S) : World S E where
  storage
  balance := fun _ holder => if holder = contract then 0 else 1000
  sequence := 100
  events := []

end LocalNet

end StellarAgent.Soroban
