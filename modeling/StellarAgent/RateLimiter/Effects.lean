import StellarAgent.Lib.PeriodLimiter
import StellarAgent.RateLimiter.Contract

set_option autoImplicit false

/-! # What a successful call of the rate limiter has done

`Effect` lists what a call that returns leaves behind, and `Life` what a transaction does to the
limits of one agent.
-/

namespace StellarAgent.RateLimiter

open Lib Soroban

/-- The address whose authorisation a call needs. -/
def Call.caller : Call → Address
  | .setLimits owner _ _ _ _ _ => owner
  | .recordPayment recorder _ _ => recorder
  | .updateLimits owner _ _ _ _ _ => owner
  | .setAgentMultisig caller _ _ _ _ => caller
  | .proposeKillAgent owner _ => owner
  | .killAgent owner _ => owner

/-- The four numbers that an owner sets. -/
structure Caps where
  max_per_tx : Int
  max_per_hour : Int
  max_per_day : Int
  max_txs_per_hour : Nat

def RateLimit.caps (limit : RateLimit) : Caps where
  max_per_tx := limit.max_per_tx
  max_per_hour := limit.max_per_hour
  max_per_day := limit.max_per_day
  max_txs_per_hour := limit.max_txs_per_hour

/-- The record with `caps`, and with rings that start at ledger `now`. -/
def RateLimit.restarted (limit : RateLimit) (now : Nat) (caps : Caps) : RateLimit :=
  { limit with
    max_per_tx := caps.max_per_tx
    max_per_hour := caps.max_per_hour
    max_per_day := caps.max_per_day
    max_txs_per_hour := caps.max_txs_per_hour
    hourly_buckets := newBuckets now HOURLY_BUCKETS
    daily_buckets := newBuckets now DAILY_BUCKETS }

/-- The record that `set_limits` writes. -/
def freshLimit (now : Nat) (owner agent : Address) (caps : Caps) : RateLimit where
  agent := agent
  owner := owner
  max_per_tx := caps.max_per_tx
  max_per_hour := caps.max_per_hour
  max_per_day := caps.max_per_day
  max_txs_per_hour := caps.max_txs_per_hour
  hourly_buckets := newBuckets now HOURLY_BUCKETS
  daily_buckets := newBuckets now DAILY_BUCKETS
  active := true

/-- The ways through the guard of `kill_agent`. -/
inductive KillGate (w : State) (limit : RateLimit) (owner agent : Address) : State → Prop
  /-- No multi-sig configuration: the owner of the limits. -/
  | owner (unconfigured : (multisigs w).lookup agent = none) (owner_eq : limit.owner = owner) :
      KillGate w limit owner agent w
  /-- One owner of the configuration suffices. -/
  | member {ms : AgentMultisig} (configured : (multisigs w).lookup agent = some ms)
      (mem : owner ∈ ms.owners) (single : ¬ 1 < ms.threshold) : KillGate w limit owner agent w
  /-- The proposals reach the threshold, and are consumed. -/
  | quorum {ms : AgentMultisig} (configured : (multisigs w).lookup agent = some ms)
      (mem : owner ∈ ms.owners) (many : 1 < ms.threshold)
      (reached : ms.threshold ≤ countValidProposals w.sequence (proposals w agent) ms.owners
        ms.propose_window_ledgers) :
      KillGate w limit owner agent (setProposals w agent none)

inductive Effect (env : Env) (w : State) : Call → State → Prop
  | limitsSet (owner agent : Address) (caps : Caps) (positive : 0 < caps.max_per_tx)
      (tx_le : caps.max_per_tx ≤ caps.max_per_hour)
      (hour_le : caps.max_per_hour ≤ caps.max_per_day) :
      Effect env w
        (.setLimits owner agent caps.max_per_tx caps.max_per_hour caps.max_per_day
          caps.max_txs_per_hour)
        ((saveLimit w agent (freshLimit w.sequence owner agent caps)).publish
          (.set agent (freshLimit w.sequence owner agent caps)))
  /-- A payment of an agent that has no limits, or is killed. -/
  | ignored {recorder agent : Address} {amount : Int}
      (idle : ∀ limit, (limits w).lookup agent = some limit → limit.active = false) :
      Effect env w (.recordPayment recorder agent amount) w
  | paid {recorder agent : Address} {amount : Int} {limit limit' : RateLimit}
      (found : (limits w).lookup agent = some limit) (active : limit.active = true)
      (added : withPayment limit w.sequence amount = .ok limit') :
      Effect env w (.recordPayment recorder agent amount)
        (((saveLimit w agent limit').publish (.recorded agent amount)).publish
          (.updated agent limit'))
  | limitsUpdated {agent : Address} (caps : Caps) {limit : RateLimit}
      (found : (limits w).lookup agent = some limit) :
      Effect env w
        (.updateLimits limit.owner agent caps.max_per_tx caps.max_per_hour caps.max_per_day
          caps.max_txs_per_hour)
        ((saveLimit w agent (limit.restarted w.sequence caps)).publish
          (.updated agent (limit.restarted w.sequence caps)))
  | configured {agent : Address} (ms : AgentMultisig) {limit : RateLimit}
      (found : (limits w).lookup agent = some limit) :
      Effect env w
        (.setAgentMultisig limit.owner agent ms.owners ms.threshold ms.propose_window_ledgers)
        (World.publish { w with storage := { w.storage with
          ms_cfg := some ((multisigs w).insert agent ms) } }
          (.ms_cfg agent ms.owners ms.threshold))
  | killProposed {owner agent : Address} {ms : AgentMultisig}
      (configured : (multisigs w).lookup agent = some ms) (mem : owner ∈ ms.owners) :
      Effect env w (.proposeKillAgent owner agent)
        ((setProposals w agent (some ((proposals w agent).insert owner w.sequence))).publish
          (.prop_kill agent owner))
  | killed {owner agent : Address} {limit : RateLimit} {m : State}
      (found : (limits w).lookup agent = some limit) (gate : KillGate w limit owner agent m) :
      Effect env w (.killAgent owner agent)
        (((saveLimit m agent { limit with active := false }).publish (.killed agent)).publish
          (.killedLimit agent { limit with active := false }))

section

variable {env : Env} {w w' : State} {owner agent : Address}

theorem killGate_ok {limit : RateLimit} (h : killGate w limit owner agent = .ok w') :
    KillGate w limit owner agent w' := by
  unfold killGate at h
  split at h
  · rename_i ms hms
    simp only [Result.bind_eq_ok, panicIf_eq_ok, not_not] at h
    obtain ⟨_, hmem, h⟩ := h
    split at h
    · rename_i hmany
      simp only [Result.bind_eq_ok, panicIf_eq_ok, Result.pure_eq_ok, not_lt] at h
      obtain ⟨_, hreached, rfl⟩ := h
      exact .quorum hms hmem hmany hreached
    · rename_i hsingle
      cases h
      exact .member hms hmem hsingle
  · rename_i hnone
    simp only [Result.bind_eq_ok, panicIf_eq_ok, Result.pure_eq_ok, not_not] at h
    obtain ⟨_, howner, rfl⟩ := h
    exact .owner hnone howner

/-- **What a call that returns has done**, and who authorised it. -/
theorem exec_effect {call : Call} (h : exec env w call = .ok w') :
    env.authorized call.caller = true ∧ w'.sequence = w.sequence ∧ Effect env w call w' := by
  cases call with
  | setLimits owner agent max_per_tx max_per_hour max_per_day max_txs_per_hour =>
      simp only [exec, setLimits, Result.bind_eq_ok, requireAuth_eq_ok, panicIf_eq_ok,
        Result.pure_eq_ok, not_or, not_le, not_lt, gt_iff_lt] at h
      obtain ⟨_, hauth, _, ⟨hpos, _, _⟩, _, hhour, _, htx, rfl⟩ := h
      exact ⟨hauth, rfl, .limitsSet owner agent
        ⟨max_per_tx, max_per_hour, max_per_day, max_txs_per_hour⟩ hpos htx hhour⟩
  | recordPayment recorder agent amount =>
      simp only [exec, recordPayment, Result.bind_eq_ok, requireAuth_eq_ok] at h
      obtain ⟨_, hauth, h⟩ := h
      split at h
      · rename_i hnone
        cases h
        refine ⟨hauth, rfl, .ignored (fun limit hlimit => ?_)⟩
        cases hnone.symm.trans hlimit
      · rename_i limit hlimit
        split at h
        · rename_i hkilled
          cases h
          refine ⟨hauth, rfl, .ignored (fun limit' hlimit' => ?_)⟩
          cases hlimit.symm.trans hlimit'
          exact hkilled
        · rename_i hactive
          simp only [Result.bind_eq_ok, Result.pure_eq_ok] at h
          obtain ⟨limit', hadded, rfl⟩ := h
          exact ⟨hauth, rfl, .paid hlimit (Bool.not_eq_false _ ▸ hactive) hadded⟩
  | updateLimits owner agent max_per_tx max_per_hour max_per_day max_txs_per_hour =>
      simp only [exec, updateLimits, Result.bind_eq_ok, requireAuth_eq_ok, loadLimit_eq_ok,
        panicIf_eq_ok, Result.pure_eq_ok, not_not] at h
      obtain ⟨_, hauth, limit, hlimit, _, rfl, rfl⟩ := h
      exact ⟨hauth, rfl, .limitsUpdated
        ⟨max_per_tx, max_per_hour, max_per_day, max_txs_per_hour⟩ hlimit⟩
  | setAgentMultisig caller agent owners threshold window =>
      simp only [exec, setAgentMultisig, Result.bind_eq_ok, requireAuth_eq_ok, loadLimit_eq_ok,
        panicIf_eq_ok, Result.pure_eq_ok, not_not] at h
      obtain ⟨_, hauth, limit, hlimit, _, rfl, _, _, _, _, _, _, rfl⟩ := h
      exact ⟨hauth, rfl, .configured ⟨owners, threshold, window⟩ hlimit⟩
  | proposeKillAgent owner agent =>
      simp only [exec, proposeKillAgent, Result.bind_eq_ok, requireAuth_eq_ok, expect_eq_ok,
        panicIf_eq_ok, Result.pure_eq_ok, not_not] at h
      obtain ⟨_, hauth, ms, hms, _, hmem, rfl⟩ := h
      exact ⟨hauth, rfl, .killProposed hms hmem⟩
  | killAgent owner agent =>
      simp only [exec, killAgent, Result.bind_eq_ok, requireAuth_eq_ok, loadLimit_eq_ok,
        Result.pure_eq_ok] at h
      obtain ⟨_, hauth, limit, hlimit, m, hgate, rfl⟩ := h
      have hm : m.sequence = w.sequence := by
        cases killGate_ok hgate <;> rfl
      exact ⟨hauth, hm, .killed hlimit (killGate_ok hgate)⟩

end

/-! ## Transactions -/

/-- The limits of an agent. -/
def limitOf (w : State) (agent : Address) : Option RateLimit := (limits w).lookup agent

/-- The multi-sig configuration of an agent. -/
def configOf (w : State) (agent : Address) : Option AgentMultisig := (multisigs w).lookup agent

/-- A payment of `agent` that the contract has recorded, with the ledger `now`. -/
def paymentAt (now : Nat) (agent : Address) : HostEvent Event → Option (Nat × Int)
  | .published (.recorded agent' amount) => if agent' = agent then some (now, amount) else none
  | _ => none

/-- The payments of `agent` that the transaction records. -/
def Tx.payments (x : Tx) (agent : Address) : DebitLog :=
  x.post.events.filterMap (paymentAt x.pre.sequence agent)

/-- The call was authorised by `who`, as the contract asks. -/
def Tx.AuthorisedBy (x : Tx) (who : Address) : Prop :=
  ∃ env call, rateLimiter.Calls x env call ∧ call.caller = who ∧ env.authorized who = true

def Tx.SetsLimits (x : Tx) (owner agent : Address) (caps : Caps) : Prop :=
  ∃ env, rateLimiter.Calls x env (.setLimits owner agent caps.max_per_tx caps.max_per_hour
    caps.max_per_day caps.max_txs_per_hour)

def Tx.UpdatesLimits (x : Tx) (owner agent : Address) (caps : Caps) : Prop :=
  ∃ env, rateLimiter.Calls x env (.updateLimits owner agent caps.max_per_tx caps.max_per_hour
    caps.max_per_day caps.max_txs_per_hour)

def Tx.Configures (x : Tx) (owner agent : Address) (ms : AgentMultisig) : Prop :=
  ∃ env, rateLimiter.Calls x env (.setAgentMultisig owner agent ms.owners ms.threshold
    ms.propose_window_ledgers)

def Tx.Records (x : Tx) (agent : Address) (amount : Int) : Prop :=
  ∃ env recorder, rateLimiter.Calls x env (.recordPayment recorder agent amount)

def Tx.ProposesKill (x : Tx) (owner agent : Address) : Prop :=
  ∃ env, rateLimiter.Calls x env (.proposeKillAgent owner agent)

def Tx.Kills (x : Tx) (owner agent : Address) : Prop :=
  ∃ env, rateLimiter.Calls x env (.killAgent owner agent)

section

variable {P : Platform} {d : Deployment} {w w' : State} {a : Action Call} {agent : Address}

theorem step_effect (h : Step P d w a w') : w.sequence ≤ w'.sequence ∧
    ((w'.storage = w.storage ∧ w'.events = [] ∧
        ∀ env call, ¬ rateLimiter.Calls ⟨w, a, w'⟩ env call) ∨
      ∃ env call, rateLimiter.Calls ⟨w, a, w'⟩ env call ∧
        env.authorized call.caller = true ∧ Effect env w.quiet call w') := by
  rcases Contract.step_cases h with
    ⟨hstorage, hsequence, hevents, _, hnocall⟩ | ⟨env, call, hact, _, _, hexec⟩
  · exact ⟨hsequence, .inl ⟨hstorage, hevents, hnocall⟩⟩
  · obtain ⟨hauth, hsequence, heffect⟩ := exec_effect hexec
    exact ⟨hsequence.ge, .inr ⟨env, call, ⟨hact, hexec⟩, hauth, heffect⟩⟩

/-- What `set_limits` has done. -/
theorem Tx.SetsLimits.record {x : Tx} {owner : Address} {caps : Caps}
    (h : x.SetsLimits owner agent caps) :
    limitOf x.post agent = some (freshLimit x.pre.sequence owner agent caps) ∧
      x.post.sequence = x.pre.sequence ∧ 0 < caps.max_per_hour ∧ 0 < caps.max_per_day := by
  obtain ⟨env, _, hexec⟩ := h
  simp only [rateLimiter, exec, setLimits, Result.bind_eq_ok, panicIf_eq_ok, Result.pure_eq_ok,
    not_or, not_le] at hexec
  obtain ⟨_, _, _, ⟨_, hhour, hday⟩, _, _, _, _, hpost⟩ := hexec
  refine ⟨?_, ?_, hhour, hday⟩
  · rw [← hpost]
    exact Finmap.lookup_insert (limits x.pre)
  · rw [← hpost]
    rfl

/-! ## One agent in one step -/

/-- What a transaction does to the limits of `agent`. -/
inductive Life (x : Tx) (agent : Address) : Prop
  | untouched (record : limitOf x.post agent = limitOf x.pre agent)
      (unpaid : x.payments agent = [])
  | set {owner : Address} {caps : Caps} (sets : x.SetsLimits owner agent caps)
      (record : limitOf x.post agent = some (freshLimit x.pre.sequence owner agent caps))
      (unpaid : x.payments agent = [])
  | updated {caps : Caps} {limit : RateLimit} (before : limitOf x.pre agent = some limit)
      (updates : x.UpdatesLimits limit.owner agent caps)
      (record : limitOf x.post agent = some (limit.restarted x.pre.sequence caps))
      (unpaid : x.payments agent = [])
  | paid {amount : Int} {limit limit' : RateLimit} (records : x.Records agent amount)
      (before : limitOf x.pre agent = some limit) (active : limit.active = true)
      (added : withPayment limit x.pre.sequence amount = .ok limit')
      (record : limitOf x.post agent = some limit')
      (payment : x.payments agent = [(x.pre.sequence, amount)])
  | killed {owner : Address} {limit : RateLimit} {m : State}
      (before : limitOf x.pre agent = some limit) (kills : x.Kills owner agent)
      (gate : KillGate x.pre.quiet limit owner agent m)
      (record : limitOf x.post agent = some { limit with active := false })
      (unpaid : x.payments agent = [])

theorem limitOf_saveLimit (w : State) (agent agent' : Address) (limit : RateLimit) :
    limitOf (saveLimit w agent' limit) agent
      = if agent = agent' then some limit else limitOf w agent :=
  Map.lookup_insert_eq_ite agent' agent limit (limits w)

/-- **A step, seen from one agent.** -/
theorem step_life (hst : Step P d w a w') (agent : Address) : Life ⟨w, a, w'⟩ agent := by
  rcases (step_effect hst).2 with ⟨hsame, hevents, _⟩ | ⟨env, call, hcalls, _, heffect⟩
  · refine .untouched ?_ ?_
    · unfold limitOf limits
      rw [hsame]
    · unfold Tx.payments
      rw [hevents]
      rfl
  cases heffect with
  | limitsSet owner agent' caps positive tx_le hour_le =>
      have hrecord := limitOf_saveLimit w.quiet agent agent'
        (freshLimit w.sequence owner agent' caps)
      by_cases hagent : agent = agent'
      · subst hagent
        rw [if_pos rfl] at hrecord
        exact .set ⟨env, hcalls⟩ hrecord rfl
      · rw [if_neg hagent] at hrecord
        exact .untouched hrecord rfl
  | ignored idle => exact .untouched rfl rfl
  | @paid recorder agent' amount limit limit' found active added =>
      have hrecord := limitOf_saveLimit w.quiet agent agent' limit'
      by_cases hagent : agent = agent'
      · subst hagent
        rw [if_pos rfl] at hrecord
        have hpayment : Tx.payments ⟨w, a, ((saveLimit w.quiet agent limit').publish
            (.recorded agent amount)).publish (.updated agent limit')⟩ agent
            = [(w.sequence, amount)] := by
          simp [Tx.payments, paymentAt, saveLimit]
        exact .paid ⟨env, _, hcalls⟩ found active added hrecord hpayment
      · rw [if_neg hagent] at hrecord
        refine .untouched hrecord ?_
        simp [Tx.payments, paymentAt, saveLimit, Ne.symm hagent]
  | @limitsUpdated agent' caps limit found =>
      have hrecord := limitOf_saveLimit w.quiet agent agent' (limit.restarted w.sequence caps)
      by_cases hagent : agent = agent'
      · subst hagent
        rw [if_pos rfl] at hrecord
        exact .updated found ⟨env, hcalls⟩ hrecord rfl
      · rw [if_neg hagent] at hrecord
        exact .untouched hrecord rfl
  | configured ms found => exact .untouched rfl rfl
  | killProposed configured mem => exact .untouched rfl rfl
  | @killed owner agent' limit m found gate =>
      have hm : limitOf m agent = limitOf w agent ∧ m.events = [] := by
        cases gate <;> exact ⟨rfl, rfl⟩
      have hrecord := limitOf_saveLimit m agent agent' { limit with active := false }
      have hunpaid : Tx.payments ⟨w, a, ((saveLimit m agent' { limit with active := false }).publish
          (.killed agent')).publish (.killedLimit agent' { limit with active := false })⟩ agent
          = [] := by
        simp [Tx.payments, paymentAt, saveLimit, hm.2]
      by_cases hagent : agent = agent'
      · subst hagent
        rw [if_pos rfl] at hrecord
        exact .killed found ⟨env, hcalls⟩ gate hrecord hunpaid
      · rw [if_neg hagent, hm.1] at hrecord
        exact .untouched hrecord hunpaid

end

/-! ## On the local network -/

/-- The agent whose limits an action sets or updates. -/
def limitedAgent : Action Call → Option Address
  | .invoke _ (.setLimits _ agent _ _ _ _) => some agent
  | .invoke _ (.updateLimits _ agent _ _ _ _) => some agent
  | _ => none

theorem limitedAgent_ne {x : Tx} {agent : Address} (h : limitedAgent x.act ≠ some agent)
    (owner : Address) (caps : Caps) :
    ¬ x.SetsLimits owner agent caps ∧ ¬ x.UpdatesLimits owner agent caps := by
  constructor
  · rintro ⟨_, hact, _⟩
    rw [hact] at h
    exact h rfl
  · rintro ⟨_, hact, _⟩
    rw [hact] at h
    exact h rfl

section

open LocalNet

/-- A fresh rate limiter. -/
def deployment : State := start Event Storage.fresh

theorem deployment_genesis : Genesis deployment := rfl

abbrev Line := Move platform deployed Call

/-- Account `owner` sets the limits of the agent with account 2. -/
def setsLimits (owner : Nat) (caps : Caps) : Line :=
  signed [account owner] (.setLimits (account owner) (account 2) caps.max_per_tx caps.max_per_hour
    caps.max_per_day caps.max_txs_per_hour)

/-- The agent itself records a payment. -/
def records (amount : Int) : Line :=
  signed [account 2] (.recordPayment (account 2) (account 2) amount)

end

end StellarAgent.RateLimiter
