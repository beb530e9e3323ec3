import StellarAgent.CircuitBreaker.Contract
import StellarAgent.Lib.Quorum

set_option autoImplicit false

/-! # The quorum behind a flip

A proposal found in storage is one of the history that no flip of the same switch has consumed
since, and that no rotation of the nodes has cleared (`proposal_pending`). The count of a flip
runs along the vector of trusted nodes as the admin gave it, so `QUORUM` different nodes stand
behind the flip only if the vector lists no node twice that is counted.
-/

namespace StellarAgent.CircuitBreaker

open Lib Soroban

/-! ## What a successful call has done -/

inductive Effect (env : Env) (w : State) (call : Call) : Storage → Prop
  | initialized {admin : Address} {trusted_nodes : List Address} {window : Nat}
      (call_eq : call = .initializeBreaker admin trusted_nodes window)
      (fresh : w.storage.admin = none) : Effect env w call {
        admin := some admin
        trusted_nodes := some trusted_nodes
        propose_window := some window
        proposals := fun _ => some ∅
        paused := some false }
  | nodesSet {admin : Address} {trusted_nodes : List Address}
      (call_eq : call = .setTrustedNodes admin trusted_nodes)
      (stored : w.storage.admin = some admin) : Effect env w call { w.storage with
        trusted_nodes := some trusted_nodes, proposals := fun _ => some ∅ }
  | windowSet {admin : Address} {window : Nat} (call_eq : call = .setProposeWindow admin window)
      (stored : w.storage.admin = some admin) :
      Effect env w call { w.storage with propose_window := some window }
  | proposed {switch : Switch} {node : Address} (call_eq : call = switch.proposal node)
      (auth : env.authorized node = true) (trusted : node ∈ getTrustedNodes w) :
      Effect env w call (recordProposal w switch node).storage
  | flipped {switch : Switch} (call_eq : call = switch.execution)
      (quorum : QUORUM ≤ countValid w (proposals w switch)) :
      Effect env w call (setProposals (setPaused w switch.flag) switch ∅).storage

theorem Effect.of_quiet {env : Env} {w : State} {call : Call} {s : Storage}
    (h : Effect env w.quiet call s) : Effect env w call s := by
  cases h with
  | initialized call_eq fresh => exact .initialized call_eq fresh
  | nodesSet call_eq stored => exact .nodesSet call_eq stored
  | windowSet call_eq stored => exact .windowSet call_eq stored
  | proposed call_eq auth trusted => exact .proposed call_eq auth trusted
  | flipped call_eq quorum => exact .flipped call_eq quorum

section

variable {env : Env} {w w' : State}

theorem requireAdmin_ok {admin : Address} {u : Unit} (h : requireAdmin env w admin = .ok u) :
    w.storage.admin = some admin := by
  simp only [requireAdmin, Result.bind_eq_ok, requireAuth_eq_ok, expect_eq_ok, panicIf_eq_ok,
    not_not] at h
  obtain ⟨_, _, stored, hstored, rfl⟩ := h
  exact hstored

theorem flip_ok {switch : Switch} {event : Event} (h : flip w switch event = .ok w') :
    QUORUM ≤ countValid w (proposals w switch) ∧
      w' = (setProposals (setPaused w switch.flag) switch ∅).publish event := by
  simp only [flip, Result.bind_eq_ok, panicIf_eq_ok, Result.pure_eq_ok] at h
  obtain ⟨_, hcount, rfl⟩ := h
  exact ⟨not_lt.mp hcount, rfl⟩

theorem exec_effect {call : Call} (h : exec env w call = .ok w') :
    w'.sequence = w.sequence ∧ Effect env w call w'.storage := by
  cases call with
  | initializeBreaker admin trusted_nodes window =>
      simp only [exec, initializeBreaker, Result.bind_eq_ok, panicIf_eq_ok, Result.pure_eq_ok,
        ne_eq, not_not] at h
      obtain ⟨_, hfresh, _, _, _, _, rfl⟩ := h
      exact ⟨rfl, .initialized rfl hfresh⟩
  | setTrustedNodes admin trusted_nodes =>
      simp only [exec, setTrustedNodes, Result.bind_eq_ok, Result.pure_eq_ok] at h
      obtain ⟨_, hadmin, rfl⟩ := h
      exact ⟨rfl, .nodesSet rfl (requireAdmin_ok hadmin)⟩
  | setProposeWindow admin window =>
      simp only [exec, setProposeWindow, Result.bind_eq_ok, panicIf_eq_ok, Result.pure_eq_ok] at h
      obtain ⟨_, hadmin, _, _, rfl⟩ := h
      exact ⟨rfl, .windowSet rfl (requireAdmin_ok hadmin)⟩
  | proposePause node =>
      simp only [exec, proposePause, requireTrusted, Result.bind_eq_ok, requireAuth_eq_ok,
        panicIf_eq_ok, Result.pure_eq_ok, not_not] at h
      obtain ⟨_, hauth, _, htrusted, _, _, rfl⟩ := h
      have hcall : Call.proposePause node = Switch.pause.proposal node := rfl
      exact ⟨rfl, .proposed hcall hauth htrusted⟩
  | proposeUnpause node =>
      simp only [exec, proposeUnpause, requireTrusted, Result.bind_eq_ok, requireAuth_eq_ok,
        panicIf_eq_ok, Result.pure_eq_ok, not_not] at h
      obtain ⟨_, hauth, _, htrusted, rfl⟩ := h
      have hcall : Call.proposeUnpause node = Switch.unpause.proposal node := rfl
      exact ⟨rfl, .proposed hcall hauth htrusted⟩
  | executePause =>
      obtain ⟨hquorum, rfl⟩ := flip_ok h
      have hcall : Call.executePause = Switch.pause.execution := rfl
      exact ⟨rfl, .flipped hcall hquorum⟩
  | unpause =>
      obtain ⟨hquorum, rfl⟩ := flip_ok h
      have hcall : Call.unpause = Switch.unpause.execution := rfl
      exact ⟨rfl, .flipped hcall hquorum⟩

end

section

variable {P : Platform} {d : Deployment} {w0 w w' : State} {a : Action Call} {t : Tx}
  {tr before after : List Tx} {switch : Switch} {node : Address}

theorem step_effect (h : Step P d w a w') : w.sequence ≤ w'.sequence ∧
    ((w'.storage = w.storage ∧ ∀ env call, ¬ circuitBreaker.Calls ⟨w, a, w'⟩ env call) ∨
      ∃ env call, circuitBreaker.Calls ⟨w, a, w'⟩ env call ∧ Effect env w call w'.storage) := by
  rcases Contract.step_cases h with
    ⟨hstorage, hsequence, _, _, hnocall⟩ | ⟨env, call, hact, _, _, hexec⟩
  · exact ⟨hsequence, .inl ⟨hstorage, hnocall⟩⟩
  · obtain ⟨hsequence, heffect⟩ := exec_effect hexec
    exact ⟨hsequence.ge, .inr ⟨env, call, ⟨hact, hexec⟩, heffect.of_quiet⟩⟩

/-! ## The register of proposals -/

/-- The ledger of the node's proposal. -/
def entry (w : State) (switch : Switch) (node : Address) : Option Nat :=
  (proposals w switch).lookup node

/-- The proposals of a switch are cleared by its flip and by a rotation of the nodes. -/
def Tx.Clears (x : Tx) (switch : Switch) : Prop := x.Flips switch ∨ x.SetsNodes

theorem not_clears {env : Env} {call : Call} {x : Tx} (hcalls : circuitBreaker.Calls x env call)
    (hflip : call ≠ switch.execution)
    (hset : ∀ admin trusted_nodes, call ≠ .setTrustedNodes admin trusted_nodes) :
    ¬ x.Clears switch := by
  rintro (⟨_, hcalls'⟩ | ⟨_, admin, trusted_nodes, hcalls'⟩)
  · exact hflip (hcalls.unique hcalls').2.symm
  · exact hset admin trusted_nodes (hcalls.unique hcalls').2.symm

theorem entry_setProposals (w : State) (s s' : Switch) (m : Map Address Nat) (node : Address) :
    entry (setProposals w s m) s' node = if s' = s then m.lookup node else entry w s' node := by
  unfold entry proposals setProposals
  by_cases hs : s' = s
  · subst hs
    simp
  · simp [hs]

theorem entry_congr {m m' : State} (h : m'.storage.proposals = m.storage.proposals)
    (switch : Switch) (node : Address) : entry m' switch node = entry m switch node := by
  unfold entry proposals
  rw [h]

theorem entry_cleared {m : State} (h : m.storage.proposals = fun _ => some ∅) (switch : Switch)
    (node : Address) : entry m switch node = none := by
  unfold entry proposals
  rw [h]
  rfl

theorem step_register :
    Register (Step P d) World.sequence entry Tx.Proposes Tx.Clears := by
  intro w a w' switch node n hst hentry
  rcases (step_effect hst).2 with ⟨hsame, hnocall⟩ | ⟨env, call, hcalls, heffect⟩
  · refine .inl ⟨?_, ?_⟩
    · rw [← entry_congr (congrArg Storage.proposals hsame)]
      exact hentry
    · rintro (⟨_, hcalls⟩ | ⟨_, _, _, hcalls⟩) <;> exact hnocall _ _ hcalls
  generalize hs : w'.storage = s at heffect
  cases heffect with
  | initialized call_eq fresh =>
      rw [entry_cleared (congrArg Storage.proposals hs)] at hentry
      cases hentry
  | nodesSet call_eq stored =>
      rw [entry_cleared (congrArg Storage.proposals hs)] at hentry
      cases hentry
  | windowSet call_eq stored =>
      rw [entry_congr (m := w) (by rw [hs])] at hentry
      subst call_eq
      refine .inl ⟨hentry, not_clears hcalls ?_ (by intro _ _ h; cases h)⟩
      cases switch <;> (intro h; cases h)
  | @proposed s node' call_eq auth trusted =>
      rw [entry_congr (m := recordProposal w s node') (congrArg Storage.proposals hs),
        recordProposal, entry_setProposals] at hentry
      subst call_eq
      have hkeeps : ¬ Tx.Clears ⟨w, a, w'⟩ switch := by
        refine not_clears hcalls ?_ ?_
        · cases s <;> cases switch <;> (intro h; cases h)
        · cases s <;> (intro _ _ h; cases h)
      by_cases hswitch : switch = s
      · subst hswitch
        rw [if_pos rfl] at hentry
        rcases Map.lookup_insert_some hentry with ⟨rfl, rfl⟩ | ⟨_, hold⟩
        · exact .inr ⟨⟨env, hcalls⟩, rfl⟩
        · exact .inl ⟨hold, hkeeps⟩
      · rw [if_neg hswitch] at hentry
        exact .inl ⟨hentry, hkeeps⟩
  | @flipped s call_eq quorum =>
      rw [entry_congr (m := setProposals (setPaused w s.flag) s ∅)
        (congrArg Storage.proposals hs), entry_setProposals] at hentry
      subst call_eq
      by_cases hswitch : switch = s
      · rw [if_pos hswitch] at hentry
        cases hentry
      · rw [if_neg hswitch] at hentry
        refine .inl ⟨hentry, not_clears hcalls ?_ ?_⟩
        · intro h
          cases s <;> cases switch <;> first | exact hswitch rfl | cases h
        · cases s <;> (intro _ _ h; cases h)

/-- **A proposal found in storage is one of the history**, not cleared since. -/
theorem proposal_pending (h0 : Genesis w0) (h : Runs P d w0 tr w) {n : Nat}
    (hentry : entry w switch node = some n) :
    Pending World.sequence (fun x : Tx => x.Proposes switch node)
      (fun x : Tx => x.Clears switch) tr n := by
  refine step_register.pending h (fun switch node => ?_) hentry
  unfold entry proposals
  rw [h0]
  rfl

/-- A flip has counted its proposals. -/
theorem Tx.Flips.quorum (hst : Step P d w a w') (h : Tx.Flips ⟨w, a, w'⟩ switch) :
    QUORUM ≤ countValid w (proposals w switch) := by
  obtain ⟨env, hcalls⟩ := h
  rcases (step_effect hst).2 with ⟨_, hnocall⟩ | ⟨env', call, hcalls', heffect⟩
  · exact absurd hcalls (hnocall _ _)
  obtain ⟨_, hcall⟩ := hcalls'.unique hcalls
  generalize w'.storage = s at heffect
  cases heffect with
  | initialized call_eq _ => cases switch <;> cases hcall.trans call_eq
  | nodesSet call_eq _ => cases switch <;> cases hcall.trans call_eq
  | windowSet call_eq _ => cases switch <;> cases hcall.trans call_eq
  | @proposed s _ call_eq _ _ => cases switch <;> cases s <;> cases hcall.trans call_eq
  | @flipped s call_eq quorum =>
      have heq := hcall.trans call_eq
      cases switch <;> cases s <;> first | exact quorum | cases heq

/-- The nodes that a flip of the switch counts, in the order of the trusted nodes. -/
def countedNodes (w : State) (switch : Switch) : List Address :=
  counted w.sequence (proposals w switch) (getTrustedNodes w) (getProposeWindow w)

/-- **The quorum of a flip.** In every run, behind every successful `execute_pause` or `unpause`
that counts no node twice there are at least `QUORUM` different trusted nodes, each with a
proposal inside the window that no earlier flip of the same switch has consumed. -/
theorem flip_quorum (h0 : Genesis w0) (h : Runs P d w0 (before ++ t :: after) w)
    (hflips : t.Flips switch) (hdistinct : (countedNodes t.pre switch).Nodup) :
    Quorum QUORUM (getTrustedNodes t.pre) (fun node => ∃ proposed_at,
      t.pre.sequence ≤ proposed_at + getProposeWindow t.pre ∧
        Pending World.sequence (fun x : Tx => x.Proposes switch node)
          (fun x : Tx => x.Flips switch) before proposed_at) := by
  obtain ⟨hbefore, hst, _⟩ := h.around
  have hcount := hflips.quorum hst
  rw [countValid, ← counted_length] at hcount
  refine Quorum.of_nodup hdistinct hcount (fun node hnode => ?_)
  obtain ⟨htrusted, proposed_at, hentry, hrecent⟩ := mem_counted.mp hnode
  obtain ⟨xs, x, ys, hsplit, hx, hn, hys⟩ := proposal_pending h0 hbefore hentry
  exact ⟨htrusted, proposed_at, hrecent, xs, x, ys, hsplit, hx, hn,
    fun y hy hflip => hys y hy (.inl hflip)⟩

end

/-! ## One node for all five -/

section

open LocalNet

/-- A fresh circuit breaker on the local network. -/
def deployment : State := start Event Storage.fresh

theorem deployment_genesis : Genesis deployment := rfl

abbrev Line := Move platform deployed Call

/-- The breaker trusts the accounts of the given numbers, with a window of 100 ledgers. -/
def setsUp (nodes : List Nat) : Line :=
  signed [stranger] (.initializeBreaker stranger (nodes.map account) 100)

def proposes (switch : Switch) (n : Nat) : Line :=
  signed [account n] (switch.proposal (account n))

def flips (switch : Switch) : Line := signed [] switch.execution

/-- Five nodes propose to pause. -/
def fivePropose : List Line := setsUp [1, 2, 3, 4, 5] :: [1, 2, 3, 4, 5].map (proposes .pause)

theorem flip_quorum_five :
    Quorum QUORUM (getTrustedNodes (circuitBreaker.outcome deployment fivePropose))
      (fun node => ∃ proposed_at, (circuitBreaker.outcome deployment fivePropose).sequence
          ≤ proposed_at + getProposeWindow (circuitBreaker.outcome deployment fivePropose) ∧
        Pending World.sequence (fun x : Tx => x.Proposes .pause node)
          (fun x : Tx => x.Flips .pause) (circuitBreaker.history deployment fivePropose)
          proposed_at) := by
  have hflips : Tx.Flips (circuitBreaker.txAfter deployment fivePropose (flips .pause)) .pause :=
    ⟨_, Contract.txAfter_calls (by decide +kernel)⟩
  exact flip_quorum deployment_genesis
    (Contract.script_runs_split fivePropose (flips .pause) [] (by decide +kernel)) hflips
    (by decide +kernel)

/-- One node is listed five times, and proposes once. -/
def onePropose : List Line := [setsUp [1, 1, 1, 1, 1], proposes .pause 1]

/-- Its proposal pauses the system. -/
theorem one_node_pauses :
    ¬ ∀ (P : Platform) (d : Deployment) (w0 w : State) (before after : List Tx) (t : Tx)
      (switch : Switch), Genesis w0 → Runs P d w0 (before ++ t :: after) w → t.Flips switch →
      Quorum QUORUM (getTrustedNodes t.pre) (fun node => ∃ proposed_at,
        t.pre.sequence ≤ proposed_at + getProposeWindow t.pre ∧
          Pending World.sequence (fun x : Tx => x.Proposes switch node)
            (fun x : Tx => x.Flips switch) before proposed_at) := by
  intro h
  have hflips : Tx.Flips (circuitBreaker.txAfter deployment onePropose (flips .pause)) .pause :=
    ⟨_, Contract.txAfter_calls (by decide +kernel)⟩
  have hquorum := h platform deployed deployment _ _ _ _ .pause deployment_genesis
    (Contract.script_runs_split onePropose (flips .pause) [] (by decide +kernel)) hflips
  exact absurd hquorum.le_card (by decide +kernel)

end

end StellarAgent.CircuitBreaker
