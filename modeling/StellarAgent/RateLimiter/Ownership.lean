import StellarAgent.Lib.Quorum
import StellarAgent.RateLimiter.Effects

set_option autoImplicit false

/-! # Who may change the limits of an agent

`update_limits` and `set_agent_multisig` ask for the owner of the record, `set_limits` for the
authorisation of its caller only: it replaces a record that somebody else owns, and leaves a
multi-sig configuration of that owner in force. Where no such replacement happens, the record
changes by the owner's own calls, by payments and by the kills of the owner's quorum
(`limits_owned`).
-/

namespace StellarAgent.RateLimiter

open Lib Soroban

/-! ## Kill proposals -/

/-- A kill of `agent` that consumes its proposals. -/
def Tx.KillsByQuorum (x : Tx) (agent : Address) : Prop :=
  ∃ owner ms, x.Kills owner agent ∧ configOf x.pre agent = some ms ∧ 1 < ms.threshold

/-- The ledger of the kill proposal of `node` for `agent`. -/
def killEntry (w : State) (agent node : Address) : Option Nat := (proposals w agent).lookup node

section

variable {P : Platform} {d : Deployment} {w0 w w' : State} {a : Action Call} {t : Tx}
  {before after : List Tx} {owner agent node : Address} {caps : Caps} {env : Env} {call : Call}

theorem killEntry_congr {m m' : State} (h : m.storage.prop_kill = m'.storage.prop_kill) :
    killEntry m agent node = killEntry m' agent node := by
  unfold killEntry proposals
  rw [h]

theorem killEntry_setProposals (m : State) (agent agent' node : Address)
    (p : Option (Map Address Nat)) : killEntry (setProposals m agent' p) agent node
      = if agent = agent' then (p.getD ∅).lookup node else killEntry m agent node := by
  unfold killEntry proposals setProposals
  by_cases hagent : agent = agent'
  · subst hagent
    rw [if_pos rfl]
    simp
  · rw [if_neg hagent]
    simp [Function.update_of_ne hagent]

/-- A proposal that the guard of a kill leaves was there before, and the kill was no quorum's. -/
theorem KillGate.killEntry {limit : RateLimit} {m : State} {agent' : Address} {n : Nat}
    (h : KillGate w limit owner agent' m)
    (hentry : RateLimiter.killEntry m agent node = some n) :
    RateLimiter.killEntry w agent node = some n ∧
      (agent = agent' → ∀ ms, configOf w agent = some ms → ¬ 1 < ms.threshold) := by
  cases h with
  | owner unconfigured _ =>
      refine ⟨hentry, ?_⟩
      rintro rfl ms hconfig
      cases unconfigured.symm.trans hconfig
  | member configured _ single =>
      refine ⟨hentry, ?_⟩
      rintro rfl ms hconfig
      obtain rfl := Option.some.inj (configured.symm.trans hconfig)
      exact single
  | quorum _ _ _ _ =>
      rw [killEntry_setProposals] at hentry
      by_cases hagent : agent = agent'
      · rw [if_pos hagent] at hentry
        cases hentry
      · rw [if_neg hagent] at hentry
        exact ⟨hentry, fun heq => absurd heq hagent⟩

/-- Only `kill_agent` kills. -/
theorem not_killsByQuorum (hcalls : rateLimiter.Calls ⟨w, a, w'⟩ env call)
    (hcall : ∀ owner, call ≠ .killAgent owner agent) :
    ¬ Tx.KillsByQuorum ⟨w, a, w'⟩ agent := by
  rintro ⟨owner, _, ⟨_, hkills⟩, _⟩
  exact hcall owner (hkills.unique hcalls).2

theorem step_register :
    Register (Step P d) World.sequence killEntry (fun x agent node => Tx.ProposesKill x node agent)
      Tx.KillsByQuorum := by
  intro w a w' agent node n hst hentry
  rcases (step_effect hst).2 with ⟨hsame, _, hnocall⟩ | ⟨env, call, hcalls, _, heffect⟩
  · refine .inl ⟨?_, ?_⟩
    · rw [← killEntry_congr (congrArg Storage.prop_kill hsame)]
      exact hentry
    · rintro ⟨_, _, ⟨_, hcalls⟩, _⟩
      exact hnocall _ _ hcalls
  cases heffect with
  | limitsSet | ignored | paid | limitsUpdated | configured =>
      exact .inl ⟨hentry, not_killsByQuorum hcalls (by intro _ h; cases h)⟩
  | @killProposed owner agent' ms configured mem =>
      have hkeeps : ¬ Tx.KillsByQuorum ⟨w, a, _⟩ agent :=
        not_killsByQuorum hcalls (by intro _ h; cases h)
      have hentry : killEntry (setProposals w agent'
          (some ((proposals w agent').insert owner w.sequence))) agent node = some n := hentry
      rw [killEntry_setProposals] at hentry
      by_cases hagent : agent = agent'
      · subst hagent
        rw [if_pos rfl] at hentry
        rcases Map.lookup_insert_some hentry with ⟨rfl, rfl⟩ | ⟨_, hold⟩
        · exact .inr ⟨⟨env, hcalls⟩, rfl⟩
        · exact .inl ⟨hold, hkeeps⟩
      · rw [if_neg hagent] at hentry
        exact .inl ⟨hentry, hkeeps⟩
  | @killed owner agent' limit m found gate =>
      obtain ⟨hkept, hsingle⟩ := gate.killEntry hentry
      refine .inl ⟨hkept, ?_⟩
      rintro ⟨_, ms, ⟨_, hkills⟩, hconfig, hmany⟩
      have hagent : agent = agent' := by
        have hcall := (hkills.unique hcalls).2
        cases hcall
        rfl
      exact hsingle hagent ms hconfig hmany

/-- **A kill proposal found in storage is one of the history**, not consumed since. -/
theorem killProposal_pending (h0 : Genesis w0) (h : Runs P d w0 before w) {n : Nat}
    (hentry : killEntry w agent node = some n) :
    Pending World.sequence (fun x : Tx => x.ProposesKill node agent)
      (fun x : Tx => x.KillsByQuorum agent) before n := by
  refine step_register.pending h (fun agent node => ?_) hentry
  unfold killEntry proposals
  rw [h0]
  rfl

/-- The owners `ms.owners` that stand behind a kill of `agent` in the world `w`: those with a
proposal of the history inside the window, not consumed by an earlier kill. -/
def KillQuorum (history : List Tx) (w : State) (agent : Address) (ms : AgentMultisig) : Prop :=
  ∃ members : List Address, members.Sublist ms.owners ∧ ms.threshold ≤ members.length ∧
    ∀ node ∈ members, ∃ proposed_at,
      w.sequence ≤ proposed_at + ms.propose_window_ledgers ∧
        Pending World.sequence (fun x : Tx => x.ProposesKill node agent)
          (fun x : Tx => x.KillsByQuorum agent) history proposed_at

theorem killQuorum_of_count (h0 : Genesis w0) (h : Runs P d w0 before w) {ms : AgentMultisig}
    (hcount : ms.threshold ≤ countValidProposals w.sequence (proposals w agent) ms.owners
      ms.propose_window_ledgers) : KillQuorum before w agent ms := by
  rw [← counted_length] at hcount
  refine ⟨_, List.filter_sublist, hcount, fun node hnode => ?_⟩
  obtain ⟨_, proposed_at, hentry, hrecent⟩ := mem_counted.mp hnode
  exact ⟨proposed_at, hrecent, killProposal_pending h0 h hentry⟩

/-! ## Rightful changes -/

/-- How the transaction `x` may change the record of `agent` under the limits of `owner`. -/
inductive Rightful (owner agent : Address) (history : List Tx) (x : Tx) : Prop
  | untouched (record : limitOf x.post agent = limitOf x.pre agent)
  | byOwner (authorised : x.AuthorisedBy owner)
  /-- A payment adds to the buckets. -/
  | recorded {amount : Int} {limit : RateLimit} (records : x.Records agent amount)
      (before : limitOf x.pre agent = some limit) (hourly daily : List SpendBucket)
      (added : withPayment limit x.pre.sequence amount
        = .ok { limit with hourly_buckets := hourly, daily_buckets := daily })
      (record : limitOf x.post agent
        = some { limit with hourly_buckets := hourly, daily_buckets := daily })
  /-- A member of the configuration that `owner` made kills the agent, with its quorum. -/
  | killed {member : Address} {ms : AgentMultisig} {limit : RateLimit}
      (kills : x.Kills member agent) (authorised : x.AuthorisedBy member)
      (in_force : configOf x.pre agent = some ms)
      (configured : ∃ y ∈ history, Tx.Configures y owner agent ms) (mem : member ∈ ms.owners)
      (quorum : 1 < ms.threshold → KillQuorum history x.pre agent ms)
      (before : limitOf x.pre agent = some limit)
      (record : limitOf x.post agent = some { limit with active := false })

/-- The caller of a call that returned has authorised it. -/
theorem Tx.authorisedBy {x : Tx} (h : rateLimiter.Calls x env call) :
    x.AuthorisedBy call.caller :=
  ⟨env, call, h, rfl, (exec_effect h.2).1⟩

theorem withPayment_keeps {limit limit' : RateLimit} {now : Nat} {amount : Int}
    (h : withPayment limit now amount = .ok limit') :
    limit' = { limit with
      hourly_buckets := limit'.hourly_buckets, daily_buckets := limit'.daily_buckets } := by
  simp only [withPayment, resetWindowsIfNeeded, Result.bind_eq_ok, Result.pure_eq_ok] at h
  obtain ⟨_, ⟨_, _, _, _, rfl⟩, _, _, _, _, rfl⟩ := h
  rfl

/-- What a step does to the multi-sig configuration of an agent. -/
theorem step_config (hst : Step P d w a w') (agent : Address) :
    configOf w' agent = configOf w agent ∨ ∃ limit ms, limitOf w agent = some limit ∧
      Tx.Configures ⟨w, a, w'⟩ limit.owner agent ms ∧ configOf w' agent = some ms := by
  rcases (step_effect hst).2 with ⟨hsame, _, _⟩ | ⟨env, call, hcalls, _, heffect⟩
  · unfold configOf multisigs
    rw [hsame]
    exact .inl rfl
  cases heffect with
  | limitsSet | ignored | paid | limitsUpdated | killProposed => exact .inl rfl
  | killed found gate => cases gate <;> exact .inl rfl
  | @configured agent' ms limit found =>
      have hconfig := Map.lookup_insert_eq_ite agent' agent ms (multisigs w)
      by_cases hagent : agent = agent'
      · subst hagent
        rw [if_pos rfl] at hconfig
        exact .inr ⟨limit, ms, found, ⟨env, hcalls⟩, hconfig⟩
      · rw [if_neg hagent] at hconfig
        exact .inl hconfig

/-- The record of `agent` is the owner's, and so is the multi-sig configuration in force. -/
structure Owned (owner agent : Address) (history : List Tx) (w : State) : Prop where
  record : ∃ limit, limitOf w agent = some limit ∧ limit.owner = owner
  config : ∀ ms, configOf w agent = some ms → ∃ y ∈ history, Tx.Configures y owner agent ms

/-- **One step** keeps the record with its owner, unless somebody else sets the limits. -/
theorem Owned.step {history : List Tx} (h : Owned owner agent history w) (hst : Step P d w a w')
    (hset : ∀ owner' caps, Tx.SetsLimits ⟨w, a, w'⟩ owner' agent caps → owner' = owner) :
    Owned owner agent (history ++ [⟨w, a, w'⟩]) w' := by
  obtain ⟨⟨limit, hlimit, howner⟩, hconfig⟩ := h
  refine ⟨?_, fun ms hms => ?_⟩
  · cases step_life hst agent with
    | untouched record _ => exact ⟨limit, record.trans hlimit, howner⟩
    | set sets record _ => exact ⟨_, record, hset _ _ sets⟩
    | updated before _ record _ | killed before _ _ record _ =>
        obtain rfl := Option.some.inj (hlimit.symm.trans before)
        exact ⟨_, record, howner⟩
    | paid _ before _ added record _ =>
        obtain rfl := Option.some.inj (hlimit.symm.trans before)
        refine ⟨_, record, ?_⟩
        rw [withPayment_keeps added]
        exact howner
  · rcases step_config hst agent with hsame | ⟨limit', ms', hlimit', hconfigures, hms'⟩
    · obtain ⟨y, hy, hyconf⟩ := hconfig ms (hsame.symm.trans hms)
      exact ⟨y, List.mem_append_left _ hy, hyconf⟩
    · obtain rfl := Option.some.inj (hlimit.symm.trans hlimit')
      obtain rfl := Option.some.inj (hms'.symm.trans hms)
      rw [howner] at hconfigures
      exact ⟨_, List.mem_append_right _ List.mem_cons_self, hconfigures⟩

/-- **One change** of an owned record is rightful. -/
theorem Owned.rightful (h0 : Genesis w0) (hrun : Runs P d w0 before w)
    (h : Owned owner agent before w) (hst : Step P d w a w')
    (hset : ∀ owner' caps, Tx.SetsLimits ⟨w, a, w'⟩ owner' agent caps → owner' = owner) :
    Rightful owner agent before ⟨w, a, w'⟩ := by
  obtain ⟨⟨limit, hlimit, howner⟩, hconfig⟩ := h
  cases step_life hst agent with
  | untouched record _ => exact .untouched record
  | set sets _ _ =>
      obtain rfl := hset _ _ sets
      obtain ⟨_, hcalls⟩ := sets
      exact .byOwner (Tx.authorisedBy hcalls)
  | updated before updates _ _ =>
      obtain rfl := Option.some.inj (hlimit.symm.trans before)
      obtain ⟨_, hcalls⟩ := updates
      exact .byOwner (howner ▸ Tx.authorisedBy hcalls)
  | @paid amount limit' limit'' records before _ added record _ =>
      have hkeeps := withPayment_keeps added
      rw [hkeeps] at added record
      exact .recorded records before _ _ added record
  | killed before kills gate record _ =>
      obtain ⟨_, hcalls⟩ := id kills
      cases gate with
      | owner unconfigured owner_eq =>
          obtain rfl := Option.some.inj (hlimit.symm.trans before)
          rw [howner] at owner_eq
          subst owner_eq
          exact .byOwner (Tx.authorisedBy hcalls)
      | member configured mem single =>
          exact .killed kills (Tx.authorisedBy hcalls) configured (hconfig _ configured) mem
            (fun hmany => absurd hmany single) before record
      | quorum configured mem many reached =>
          exact .killed kills (Tx.authorisedBy hcalls) configured (hconfig _ configured) mem
            (fun _ => killQuorum_of_count h0 hrun reached) before record

/-- The record of `agent` is there, and not active. -/
def Killed (w : State) (agent : Address) : Prop :=
  ∃ limit, limitOf w agent = some limit ∧ limit.active = false

theorem Tx.Kills.killed {x : Tx} (h : x.Kills owner agent) : Killed x.post agent := by
  obtain ⟨env, _, hexec⟩ := h
  obtain ⟨_, _, heffect⟩ :=
    exec_effect (show exec env x.pre.quiet (.killAgent owner agent) = .ok x.post from hexec)
  generalize x.post = w' at heffect
  cases heffect with
  | @killed _ _ limit m found gate =>
      exact ⟨_, (limitOf_saveLimit m agent agent _).trans (if_pos rfl), rfl⟩

/-- A killed agent stays so, unless its owner acts. -/
theorem Killed.step {x : Tx} {history : List Tx} (h : Killed x.pre agent)
    (hrightful : Rightful owner agent history x) (hidle : ¬ x.AuthorisedBy owner) :
    Killed x.post agent := by
  obtain ⟨limit, hlimit, hkilled⟩ := h
  cases hrightful with
  | untouched record => exact ⟨limit, record.trans hlimit, hkilled⟩
  | byOwner authorised => exact absurd authorised hidle
  | recorded _ before _ _ _ record =>
      obtain rfl := Option.some.inj (hlimit.symm.trans before)
      exact ⟨_, record, hkilled⟩
  | killed _ _ _ _ _ _ _ record => exact ⟨_, record, rfl⟩

/-! ## Over a run -/

theorem Owned.run {history tr : List Tx} (h : Owned owner agent history w)
    (hrun : Runs P d w tr w')
    (hset : ∀ x ∈ tr, ∀ owner' caps, x.SetsLimits owner' agent caps → owner' = owner) :
    Owned owner agent (history ++ tr) w' := by
  refine hrun.history_of (P := fun tr m => Owned owner agent (history ++ tr) m) hset ?_ ?_
  · rw [List.append_nil]
    exact h
  · intro tr m a m' _ hI hst hset
    rw [← List.append_assoc]
    exact hI.step hst hset

/-- What `set_limits` leaves is owned by its caller, if the configuration in force is. -/
theorem Tx.SetsLimits.owned (hst : Step P d t.pre t.act t.post)
    (h : t.SetsLimits owner agent caps)
    (hconfig : ∀ ms, configOf t.pre agent = some ms → ∃ y ∈ before, y.Configures owner agent ms) :
    Owned owner agent (before ++ [t]) t.post := by
  refine ⟨⟨_, h.record.1, rfl⟩, fun ms hms => ?_⟩
  obtain ⟨env, hcalls⟩ := h
  rcases step_config hst agent with hsame | ⟨_, _, _, ⟨_, hconfigures⟩, _⟩
  · obtain ⟨y, hy, hyconf⟩ := hconfig ms (hsame.symm.trans hms)
    exact ⟨y, List.mem_append_left _ hy, hyconf⟩
  · cases (hcalls.unique hconfigures).2

/-- **Ownership of the limits.** An owner sets the limits of an agent, while no multi-sig
configuration of anybody else is in force for it, and nobody else sets them later. In every
continuation the record changes by calls that the owner has authorised, by payments that add to
the buckets, and by kills of members of the owner's configuration with its quorum. A killed agent
stays inactive through every sequence of calls that the owner has not authorised. -/
theorem limits_owned (h0 : Genesis w0) (h : Runs P d w0 (before ++ t :: after) w)
    (hsets : t.SetsLimits owner agent caps)
    (hset : ∀ x ∈ after, ∀ owner' caps, x.SetsLimits owner' agent caps → owner' = owner)
    (hconfig : ∀ ms, configOf t.pre agent = some ms → ∃ y ∈ before, y.Configures owner agent ms) :
    (∀ xs x ys, after = xs ++ x :: ys → Rightful owner agent (before ++ t :: xs) x) ∧
      ∀ xs k us vs member, after = xs ++ k :: (us ++ vs) → k.Kills member agent →
        (∀ x ∈ us, ¬ x.AuthorisedBy owner) → ∀ x ∈ k :: us, Killed x.post agent := by
  obtain ⟨hbefore, hst, hafter⟩ := h.around
  have howned := hsets.owned hst hconfig
  have hrightful : ∀ xs x ys, after = xs ++ x :: ys →
      Rightful owner agent (before ++ t :: xs) x := by
    intro xs x ys hsplit
    rw [hsplit] at h hafter hset
    obtain ⟨hxs, hx, _⟩ := hafter.around
    have hhistory : before ++ t :: xs = before ++ [t] ++ xs := by simp
    have hrun : Runs P d w0 (before ++ t :: xs) x.pre := by
      rw [hhistory]
      exact Run.append (Run.append hbefore (Run.single hst)) hxs
    have hheld : Owned owner agent (before ++ t :: xs) x.pre := by
      rw [hhistory]
      exact howned.run hxs (fun y hy => hset y (List.mem_append_left _ hy))
    exact hheld.rightful h0 hrun hx (hset x (List.mem_append_right _ List.mem_cons_self))
  refine ⟨hrightful, ?_⟩
  intro xs k us vs member hsplit hkills hidle
  have hrun : Runs P d k.post (us ++ vs) w := by
    rw [hsplit] at hafter
    exact hafter.around.2.2
  obtain ⟨m, hrun', _⟩ := Run.split hrun
  have hus : ∀ x ∈ us, (∃ history, Rightful owner agent history x) ∧ ¬ x.AuthorisedBy owner := by
    intro x hx
    obtain ⟨us', us'', hus⟩ := List.append_of_mem hx
    have hsplit' : after = (xs ++ k :: us') ++ x :: (us'' ++ vs) := by
      rw [hsplit, hus]
      simp
    exact ⟨⟨_, hrightful _ _ _ hsplit'⟩, hidle x hx⟩
  have hkilled : Killed m agent ∧ ∀ x ∈ us, Killed x.post agent := by
    refine hrun'.safety (I := fun m => Killed m agent) hus hkills.killed ?_
    rintro m a m' hm _ ⟨⟨history, hx⟩, hidle⟩
    have hm' : Killed m' agent := Killed.step (x := ⟨m, a, m'⟩) hm hx hidle
    exact ⟨hm', hm'⟩
  rw [List.forall_mem_cons]
  exact ⟨hkills.killed, hkilled.2⟩

end

/-! ## Limits that somebody else sets -/

/-- The caller of an action. -/
def callerOf : Action Call → Option Address
  | .invoke _ call => some call.caller
  | _ => none

theorem callerOf_eq {x : Tx} {who : Address} (h : x.AuthorisedBy who) :
    callerOf x.act = some who := by
  obtain ⟨_, _, ⟨hact, _⟩, hcaller, _⟩ := h
  rw [hact, callerOf, hcaller]

/-- The caller of `set_agent_multisig`. -/
def configurer : Action Call → Option Address
  | .invoke _ (.setAgentMultisig caller _ _ _ _) => some caller
  | _ => none

theorem configurer_eq {x : Tx} {owner agent : Address} {ms : AgentMultisig}
    (h : x.Configures owner agent ms) : configurer x.act = some owner := by
  obtain ⟨_, hact, _⟩ := h
  rw [hact, configurer]

section

open LocalNet

def hundredCaps : Caps where
  max_per_tx := 100
  max_per_hour := 100
  max_per_day := 100
  max_txs_per_hour := 10

/-- Account `owner` gives account 2 a multi-sig configuration, with a window of 100 ledgers. -/
def configures (owner : Nat) (owners : List Nat) (threshold : Nat) : Line :=
  signed [account owner]
    (.setAgentMultisig (account owner) (account 2) (owners.map account) threshold 100)

def proposesKill (owner : Nat) : Line :=
  signed [account owner] (.proposeKillAgent (account owner) (account 2))

def kills (owner : Nat) : Line :=
  signed [account owner] (.killAgent (account owner) (account 2))

/-- Account 1 configures the accounts 1 and 3, both propose, and account 3 kills the agent. -/
def killedTogether : List Line :=
  [configures 1 [1, 3] 2, proposesKill 1, proposesKill 3, kills 3, records 10]

theorem limits_owned_quorum :
    let t := rateLimiter.txAfter deployment [] (setsLimits 1 hundredCaps)
    let after := rateLimiter.historyAfter deployment [setsLimits 1 hundredCaps] killedTogether
    (∀ xs x ys, after = xs ++ x :: ys → Rightful (account 1) (account 2) ([] ++ t :: xs) x) ∧
      ∀ xs k us vs member, after = xs ++ k :: (us ++ vs) → Tx.Kills k member (account 2) →
        (∀ x ∈ us, ¬ Tx.AuthorisedBy x (account 1)) →
        ∀ x ∈ k :: us, Killed x.post (account 2) := by
  intro t after
  have hsets : Tx.SetsLimits t (account 1) (account 2) hundredCaps :=
    ⟨_, Contract.txAfter_calls (by decide +kernel)⟩
  refine limits_owned deployment_genesis (Contract.script_runs_split [] _ killedTogether
    (by decide +kernel)) hsets ?_ ?_
  · have hnone : ∀ x ∈ after, limitedAgent x.act ≠ some (account 2) := by decide +kernel
    exact fun x hx owner' caps hset => absurd hset (limitedAgent_ne (hnone x hx) owner' caps).1
  · intro ms hms
    cases hms

/-- Account 1 kills the agent, and account 3 sets limits for it. -/
def takenOver : List Line := [kills 1, setsLimits 3 hundredCaps]

/-- Account 3 has set limits and made a configuration of its own before account 1 sets limits. -/
def inherited : List Line := [setsLimits 3 hundredCaps, configures 3 [3] 1]

theorem takenOver_alive :
    ¬ Killed (rateLimiter.outcome deployment (setsLimits 1 hundredCaps :: takenOver))
      (account 2) := by
  rintro ⟨limit, hlimit, hinactive⟩
  have hactive : (limitOf (rateLimiter.outcome deployment
      (setsLimits 1 hundredCaps :: takenOver)) (account 2)).map RateLimit.active = some true := by
    decide +kernel
  rw [hlimit, Option.map_some, hinactive] at hactive
  cases hactive

/-- The kill of the former owner is not rightful under the limits of account 1, which has made no
configuration. -/
theorem inherited_not_rightful :
    ¬ Rightful (account 1) (account 2)
      (rateLimiter.history deployment (inherited ++ [setsLimits 1 hundredCaps]))
      (rateLimiter.txAfter deployment (inherited ++ [setsLimits 1 hundredCaps]) (kills 3)) := by
  intro hrightful
  cases hrightful with
  | untouched record =>
      have hactive := congrArg (Option.map RateLimit.active) record
      exact absurd hactive (by decide +kernel)
  | byOwner authorised => exact absurd (callerOf_eq authorised) (by decide)
  | recorded records _ _ _ _ _ =>
      obtain ⟨_, _, hact, _⟩ := records
      cases hact
  | killed _ _ _ configured _ _ _ _ =>
      have hothers : ∀ y ∈ rateLimiter.history deployment
          (inherited ++ [setsLimits 1 hundredCaps]), configurer y.act ≠ some (account 1) := by
        decide +kernel
      obtain ⟨y, hy, hconfigures⟩ := configured
      exact absurd (configurer_eq hconfigures) (hothers y hy)

/-- A stranger revives a killed agent by setting limits for it; and a former owner, who sets
nothing any more, kills the agent of the new one. -/
theorem limits_taken_over :
    (¬ ∀ (P : Platform) (d : Deployment) (w0 w : State) (before after : List Tx) (t : Tx)
      (owner agent : Address) (caps : Caps), Genesis w0 → Runs P d w0 (before ++ t :: after) w →
      t.SetsLimits owner agent caps → ∀ xs k us vs member, after = xs ++ k :: (us ++ vs) →
      k.Kills member agent → (∀ x ∈ us, ¬ x.AuthorisedBy owner) →
      ∀ x ∈ k :: us, Killed x.post agent) ∧
    (¬ ∀ (P : Platform) (d : Deployment) (w0 w : State) (before after : List Tx) (t : Tx)
      (owner agent : Address) (caps : Caps), Genesis w0 → Runs P d w0 (before ++ t :: after) w →
      t.SetsLimits owner agent caps →
      (∀ x ∈ after, ∀ owner' caps, x.SetsLimits owner' agent caps → owner' = owner) →
      ∀ xs x ys, after = xs ++ x :: ys → Rightful owner agent (before ++ t :: xs) x) := by
  constructor
  · intro h
    have hsets : Tx.SetsLimits (rateLimiter.txAfter deployment [] (setsLimits 1 hundredCaps))
        (account 1) (account 2) hundredCaps := ⟨_, Contract.txAfter_calls (by decide +kernel)⟩
    have hkills : Tx.Kills (rateLimiter.txAfter deployment [setsLimits 1 hundredCaps] (kills 1))
        (account 1) (account 2) := ⟨_, Contract.txAfter_calls (by decide +kernel)⟩
    refine takenOver_alive (h platform deployed deployment _ _ _ _ _ _ _ deployment_genesis
      (Contract.script_runs_split [] _ takenOver (by decide +kernel)) hsets [] _
      [rateLimiter.txAfter deployment [setsLimits 1 hundredCaps, kills 1]
        (setsLimits 3 hundredCaps)] [] (account 1) rfl hkills ?_ _
      (List.mem_cons_of_mem _ List.mem_cons_self))
    rw [List.forall_mem_singleton]
    intro hauth
    exact absurd (callerOf_eq hauth) (by decide)
  · intro h
    have hsets : Tx.SetsLimits (rateLimiter.txAfter deployment inherited
        (setsLimits 1 hundredCaps)) (account 1) (account 2) hundredCaps :=
      ⟨_, Contract.txAfter_calls (by decide +kernel)⟩
    have hnone : ∀ x ∈ rateLimiter.historyAfter deployment
        (inherited ++ [setsLimits 1 hundredCaps]) [kills 3],
        limitedAgent x.act ≠ some (account 2) := by decide +kernel
    have hrightful := h platform deployed deployment _ _ _ _ _ _ _ deployment_genesis
      (Contract.script_runs_split inherited _ [kills 3] (by decide +kernel)) hsets
      (fun x hx owner' caps hset => absurd hset (limitedAgent_ne (hnone x hx) owner' caps).1)
      [] _ [] rfl
    refine inherited_not_rightful ?_
    rw [Contract.history_split]
    exact hrightful

end

end StellarAgent.RateLimiter
