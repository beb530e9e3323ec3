import StellarAgent.AgentWalletFactory.Contract

set_option autoImplicit false

/-! # The registry behind the factory

What the factory keeps is a list of agents: an id is a position, counted from 1, and a call that
returns makes one change to the list. `refines` connects the two along every run. From the list,
the queries are read off (`queries_exact`), and an agent is known by what has been done to it since
it was created (`agent_history`). The table can also be rebuilt from the `agent/state` events
(`agents_of_events`).
-/

namespace StellarAgent.AgentWalletFactory

open Lib Soroban

/-! ## The list of agents -/

abbrev Registry := List AgentInfo

inductive Change where
  | restarted
  | created (agent : AgentInfo)
  | switched (agent_id : Nat) (active : Bool)
  | counted (agent_id : Nat)
  deriving DecidableEq

/-- The agent with the id -/
def Registry.find (r : Registry) : Nat → Option AgentInfo
  | 0 => none
  | n + 1 => r[n]?

def Registry.update (r : Registry) (agent_id : Nat) (f : AgentInfo → AgentInfo) : Registry :=
  match agent_id with
  | 0 => r
  | n + 1 => r.modify n f

def Registry.apply (r : Registry) : Change → Registry
  | .restarted => []
  | .created agent => r ++ [agent]
  | .switched agent_id active => r.update agent_id fun agent => { agent with active }
  | .counted agent_id =>
      r.update agent_id fun agent => { agent with total_ops := agent.total_ops + 1 }

/-- Whether an agent is active after a change -/
def Change.switches (agent_id : Nat) (active : Bool) : Change → Bool
  | .switched id active' => if id = agent_id then active' else active
  | _ => active

/-- Whether the agent is active after the changes -/
def lastSwitch (agent_id : Nat) (changes : List Change) (active : Bool) : Bool :=
  changes.foldl (Change.switches agent_id) active

section

variable {r : Registry} {id agent_id : Nat} {agent : AgentInfo}

theorem find_append :
    Registry.find (r ++ [agent]) id = if id = r.length + 1 then some agent else r.find id := by
  cases id with
  | zero => rfl
  | succ n =>
      show (r ++ [agent])[n]? = if n + 1 = r.length + 1 then _ else r[n]?
      rcases lt_trichotomy n r.length with hlt | rfl | hlt
      · rw [List.getElem?_append_left hlt, if_neg (by omega)]
      · simp
      · rw [if_neg (by omega), List.getElem?_eq_none hlt.le]
        exact List.getElem?_eq_none (by rw [List.length_append]; exact hlt)

theorem find_update {f : AgentInfo → AgentInfo} : (r.update agent_id f).find id
    = if id = agent_id then (r.find id).map f else r.find id := by
  cases agent_id with
  | zero =>
      cases id with
      | zero => rfl
      | succ n => rfl
  | succ m =>
      cases id with
      | zero => rfl
      | succ n =>
          show (r.modify m f)[n]? = if n + 1 = m + 1 then r[n]?.map f else r[n]?
          rw [List.getElem?_modify]
          by_cases heq : m = n
          · simp [heq]
          · simp [heq, Ne.symm heq]

theorem length_update {f : AgentInfo → AgentInfo} : (r.update agent_id f).length = r.length := by
  cases agent_id with
  | zero => rfl
  | succ n => exact List.length_modify ..

/-- **An agent after some changes**: it is switched and counted, and else as it was. -/
theorem find_foldl (changes : List Change) (h : r.find agent_id = some agent)
    (hkept : .restarted ∉ changes) :
    Registry.find (changes.foldl Registry.apply r) agent_id = some { agent with
      active := lastSwitch agent_id changes agent.active
      total_ops := agent.total_ops + changes.count (.counted agent_id) } := by
  induction changes generalizing r agent with
  | nil => exact h
  | cons change changes ih =>
      have hkept' : Change.restarted ∉ changes := fun hmem => hkept (List.mem_cons_of_mem _ hmem)
      rw [List.foldl_cons]
      cases change with
      | restarted => exact absurd List.mem_cons_self hkept
      | created agent' =>
          have hfind : Registry.find (r ++ [agent']) agent_id = some agent := by
            rw [find_append, if_neg, h]
            rintro rfl
            have hnone : r[r.length]? = none := List.getElem?_eq_none le_rfl
            exact absurd (h.symm.trans hnone) (by simp)
          rw [Registry.apply, ih hfind hkept', List.count_cons_of_ne (by simp)]
          rfl
      | switched id active =>
          rw [Registry.apply, List.count_cons_of_ne (by simp)]
          by_cases hid : agent_id = id
          · have hfind : (r.update id fun agent => { agent with active }).find agent_id
                = some { agent with active } := by
              rw [find_update, if_pos hid, h]
              rfl
            rw [ih hfind hkept', lastSwitch, lastSwitch, List.foldl_cons, Change.switches,
              if_pos hid.symm]
          · have hfind : (r.update id fun agent => { agent with active }).find agent_id
                = some agent := by
              rw [find_update, if_neg hid, h]
            rw [ih hfind hkept', lastSwitch, lastSwitch, List.foldl_cons, Change.switches,
              if_neg (Ne.symm hid)]
      | counted id =>
          rw [Registry.apply]
          by_cases hid : agent_id = id
          · subst hid
            have hfind : (r.update agent_id fun agent =>
                { agent with total_ops := agent.total_ops + 1 }).find agent_id
                = some { agent with total_ops := agent.total_ops + 1 } := by
              rw [find_update, if_pos rfl, h]
              rfl
            rw [ih hfind hkept', List.count_cons_self, Nat.add_right_comm, Nat.add_assoc]
            rfl
          · have hfind : (r.update id fun agent =>
                { agent with total_ops := agent.total_ops + 1 }).find agent_id = some agent := by
              rw [find_update, if_neg hid, h]
            rw [ih hfind hkept', List.count_cons_of_ne (by simp [Ne.symm hid])]
            rfl

end

/-! ## What a call changes -/

/-- The change that a call makes when it returns -/
def Call.change (w : State) : Call → Change
  | .initializeFactory _ => .restarted
  | .createAgent owner agent_address name => .created {
      address := agent_address
      name
      owner
      active := true
      created_at := w.sequence
      total_ops := 0 }
  | .deactivateAgent _ agent_id => .switched agent_id false
  | .reactivateAgent _ agent_id => .switched agent_id true
  | .recordOperation agent_id => .counted agent_id

/-- The change of a transaction -/
def Tx.change (t : Tx) : Option Change :=
  match t.act with
  | .invoke env call =>
      if (exec env t.pre.quiet call).isOk then some (call.change t.pre) else none
  | _ => none

/-- The changes of a history -/
def changes (tr : List Tx) : List Change := tr.filterMap Tx.change

/-- The list of agents that a history makes -/
def registryOf (tr : List Tx) : Registry := (changes tr).foldl Registry.apply []

/-- The `agent/state` events of a world -/
def stateEvents (w : State) : List (Nat × AgentInfo) :=
  w.events.filterMap fun event =>
    match event with
    | .published (.state agent_id agent) => some (agent_id, agent)
    | _ => none

/-- The table stands for the list. -/
structure Table (w : State) (r : Registry) : Prop where
  counted : count w = r.length
  found : ∀ id, (agents w).lookup id = r.find id

/-- The agent that a call is about has this owner, who has authorised it if it switches. -/
def Authorized (env : Env) (w : State) : Change → Prop
  | .switched agent_id _ =>
      ∃ agent, (agents w).lookup agent_id = some agent ∧ env.authorized agent.owner = true
  | _ => True

/-- What a call that returns does. -/
structure Effect (env : Env) (w : State) (change : Change) (w' : State) : Prop where
  sequence : w'.sequence = w.sequence
  admin : w'.storage.admin = w.storage.admin ∨ change = .restarted
  restarts : change = .restarted → w.storage.admin = none ∧ w'.storage.admin ≠ none
  table : ∀ r, Table w r → Table w' (r.apply change)
  authorized : Authorized env w change
  events : change ≠ .restarted → agents w' =
    (stateEvents w').foldl (fun table entry => table.insert entry.1 entry.2) (agents w)

section

variable {env : Env} {w w' : State} {r : Registry} {id agent_id : Nat} {agent : AgentInfo}

/-- A table with one more agent. -/
theorem Table.created (h : Table w r) (hcount : count w' = r.length + 1)
    (hagents : agents w' = (agents w).insert (r.length + 1) agent) : Table w' (r ++ [agent]) where
  counted := by rw [hcount, List.length_append, List.length_singleton]
  found := by
    intro id
    rw [hagents, Map.lookup_insert_eq_ite, find_append, h.found]

/-- A table with another entry for an agent that is there. -/
theorem Table.updated {f : AgentInfo → AgentInfo} (h : Table w r) (hcount : count w' = count w)
    (hfound : (agents w).lookup agent_id = some agent)
    (hagents : agents w' = (agents w).insert agent_id (f agent)) :
    Table w' (r.update agent_id f) where
  counted := by rw [hcount, h.counted, length_update]
  found := by
    intro id
    rw [hagents, Map.lookup_insert_eq_ite, find_update]
    split_ifs with hid
    · rw [hid, ← h.found, hfound]
      rfl
    · exact h.found id

theorem initializeFactory_ok {admin : Address} (h : initializeFactory w.quiet admin = .ok w') :
    Effect env w .restarted w' := by
  simp only [initializeFactory, Result.bind_eq_ok, panicIf_eq_ok, not_not, Result.pure_eq_ok] at h
  obtain ⟨_, hadmin, rfl⟩ := h
  refine ⟨rfl, .inr rfl, fun _ => ⟨hadmin, by simp⟩, fun r _ => ⟨rfl, fun id => ?_⟩, trivial,
    fun hne => absurd rfl hne⟩
  cases id with
  | zero => rfl
  | succ n => rfl

theorem createAgent_ok {owner agent_address : Address} {name : String}
    (h : createAgent env w.quiet owner agent_address name = .ok w') :
    Effect env w ((Call.createAgent owner agent_address name).change w) w' := by
  simp only [createAgent, Result.bind_eq_ok, requireAuth_eq_ok, checkU64_eq_ok,
    Result.pure_eq_ok] at h
  obtain ⟨_, _, agent_id, ⟨_, rfl⟩, rfl⟩ := h
  refine ⟨rfl, .inl rfl, (fun hrestarted => by cases hrestarted), fun r htable => ?_, trivial,
    fun _ => rfl⟩
  have hcount : count w.quiet = r.length := htable.counted
  refine htable.created ?_ ?_
  · show count w.quiet + 1 = _
    rw [hcount]
  · rw [← hcount]
    rfl

theorem switchAgent_ok {owner : Address} {active : Bool} {event : Event}
    (h : switchAgent env w.quiet owner agent_id active event = .ok w')
    (hevent : ∀ id agent, event ≠ .state id agent) :
    Effect env w (.switched agent_id active) w' := by
  simp only [switchAgent, Result.bind_eq_ok, requireAuth_eq_ok, unwrap_eq_ok, expect_eq_ok,
    panicIf_eq_ok, not_not, Result.pure_eq_ok] at h
  obtain ⟨_, hauth, table, htable, agent, hfound, _, howner, rfl⟩ := h
  have hagents : agents w = table := by
    rw [agents, show w.storage.agents = some table from htable]
    rfl
  rw [← hagents] at hfound
  refine ⟨rfl, .inl rfl, (fun hrestarted => by cases hrestarted), fun r htable => ?_,
    ⟨agent, hfound, by rw [howner]; exact hauth⟩, fun _ => ?_⟩
  · exact htable.updated rfl hfound (by rw [hagents]; rfl)
  · rw [hagents]
    cases event with
    | state id agent => exact absurd rfl (hevent id agent)
    | _ => rfl

theorem recordOperation_ok (h : recordOperation w.quiet agent_id = .ok w') :
    Effect env w (.counted agent_id) w' := by
  simp only [recordOperation, Result.bind_eq_ok, unwrap_eq_ok, expect_eq_ok, checkU64_eq_ok,
    Result.pure_eq_ok] at h
  obtain ⟨table, htable, agent, hfound, total_ops, ⟨_, rfl⟩, rfl⟩ := h
  have hagents : agents w = table := by
    rw [agents, show w.storage.agents = some table from htable]
    rfl
  rw [← hagents] at hfound
  refine ⟨rfl, .inl rfl, (fun hrestarted => by cases hrestarted), fun r htable => ?_, trivial,
    fun _ => ?_⟩
  · exact htable.updated rfl hfound (by rw [hagents]; rfl)
  · rw [hagents]
    rfl

/-- **What any call does that returns.** -/
theorem exec_effect {call : Call} (h : exec env w.quiet call = .ok w') :
    Effect env w (call.change w) w' := by
  cases call with
  | initializeFactory admin => exact initializeFactory_ok h
  | createAgent owner agent_address name => exact createAgent_ok h
  | deactivateAgent owner agent_id => exact switchAgent_ok h (by simp)
  | reactivateAgent owner agent_id => exact switchAgent_ok h (by simp)
  | recordOperation agent_id => exact recordOperation_ok h

end

/-! ## Along a run -/

section

variable {P : Platform} {d : Deployment} {w0 w w' : State} {a : Action Call} {t : Tx}
  {tr before after : List Tx} {agent_id : Nat} {owner : Address}

/-- A step makes no change to the registry, or the change of a call that returned. -/
theorem step_cases (h : Step P d w a w') :
    (Tx.change ⟨w, a, w'⟩ = none ∧ w'.storage = w.storage ∧ w'.events = []) ∨
      ∃ env call, a = .invoke env call ∧ Tx.change ⟨w, a, w'⟩ = some (call.change w) ∧
        Effect env w (call.change w) w' := by
  rcases Contract.step_cases h with ⟨hsame, _, hevents, _, hnocall⟩ | ⟨env, call, rfl, _, _, hexec⟩
  · refine .inl ⟨?_, hsame, hevents⟩
    cases a with
    | invoke env call =>
        have hfails : ¬ (exec env w.quiet call).isOk = true := by
          intro hok
          obtain ⟨w'', hexec⟩ := Result.exists_of_isOk hok
          have hnext : w' = w'' := h.2.trans (Contract.next_ok hexec)
          exact hnocall env call ⟨rfl, hnext ▸ hexec⟩
        exact if_neg hfails
    | closeLedgers count => rfl
    | external balance => rfl
  · refine .inr ⟨env, call, rfl, ?_, exec_effect hexec⟩
    have hexec : exec env w.quiet call = .ok w' := hexec
    show (if (exec env w.quiet call).isOk then _ else none) = _
    rw [hexec]
    rfl

theorem table_congr {r : Registry} (h : Table w r) (hsame : w'.storage = w.storage) :
    Table w' r where
  counted := by
    rw [count, hsame]
    exact h.counted
  found := by
    rw [agents, hsame]
    exact h.found

theorem changes_snoc {t : Tx} : changes (tr ++ [t]) = changes tr ++ t.change.toList := by
  rw [changes, List.filterMap_append]
  cases h : t.change with
  | none => simp [changes, h]
  | some change => simp [changes, h]

/-- **The factory keeps the list of its changes**, from a table on. -/
theorem refines_from {r : Registry} (h : Runs P d w tr w') (hr : Table w r) :
    Table w' ((changes tr).foldl Registry.apply r) := by
  refine h.history (P := fun tr w' => Table w' ((changes tr).foldl Registry.apply r)) hr ?_
  intro tr m a m' _ ih hst
  rw [changes_snoc]
  rcases step_cases hst with ⟨hnone, hsame, _⟩ | ⟨env, call, _, hsome, heffect⟩
  · rw [hnone, Option.toList_none, List.append_nil]
    exact table_congr ih hsame
  · rw [hsome, Option.toList_some, List.foldl_append]
    exact heffect.table _ ih

theorem table_genesis (h0 : Genesis w0) : Table w0 [] where
  counted := by
    rw [count, h0]
    rfl
  found := by
    intro id
    rw [agents, h0]
    cases id with
    | zero => rfl
    | succ n => rfl

theorem refines (h0 : Genesis w0) (h : Runs P d w0 tr w) : Table w (registryOf tr) :=
  refines_from h (table_genesis h0)

/-- The factory is set up only once. -/
theorem admin_kept (h : Runs P d w tr w') (hadmin : w.storage.admin ≠ none) :
    w'.storage.admin ≠ none ∧ .restarted ∉ changes tr := by
  refine h.history (P := fun tr w' => w'.storage.admin ≠ none ∧ .restarted ∉ changes tr)
    ⟨hadmin, by simp [changes]⟩ ?_
  rintro tr m a m' _ ⟨hadmin, hnone⟩ hst
  rw [changes_snoc]
  rcases step_cases hst with ⟨hunchanged, hsame, _⟩ | ⟨env, call, _, hsome, heffect⟩
  · rw [hunchanged, hsame]
    exact ⟨hadmin, by simpa using hnone⟩
  · have hkept : call.change m ≠ .restarted :=
      fun hrestarted => hadmin (heffect.restarts hrestarted).1
    refine ⟨?_, ?_⟩
    · rw [heffect.admin.resolve_right hkept]
      exact hadmin
    · rw [hsome]
      simpa [Ne.symm hkept] using hnone

theorem getAgent_eq_ok {agent : AgentInfo} :
    getAgent w agent_id = .ok agent ↔ (agents w).lookup agent_id = some agent := by
  rw [getAgent, agents]
  cases w.storage.agents with
  | none => simp [unwrap, bind, Except.bind]
  | some table => simp

theorem filterMap_range (r : Registry) :
    (List.range r.length).filterMap (fun n => r[n]?) = r := by
  induction r with
  | nil => rfl
  | cons agent r ih =>
      rw [List.length_cons, List.range_succ_eq_map]
      show agent :: (List.map Nat.succ (List.range r.length)).filterMap _ = _
      rw [List.filterMap_map]
      exact congrArg (List.cons agent) ih

/-- The ids up to the count are those of the list, in its order. -/
theorem filterMap_find (r : Registry) : (List.range' 1 r.length).filterMap r.find = r := by
  rw [List.range'_eq_map_range, List.filterMap_map]
  have hfind : (r.find ∘ fun n => 1 + n) = fun n => r[n]? := by
    funext n
    show r.find (1 + n) = _
    rw [Nat.add_comm]
    rfl
  rw [hfind, filterMap_range]

theorem foldl_push (p : AgentInfo → Bool) (r : Registry) (init : List AgentInfo) :
    r.foldl (fun result agent => if p agent then result ++ [agent] else result) init
      = init ++ r.filter p := by
  induction r generalizing init with
  | nil => simp
  | cons agent r ih =>
      rw [List.foldl_cons, ih, List.filter_cons]
      split_ifs <;> simp

end

/-! A local network: the factory is set up, account 1 creates an agent, switches it off, and it is
counted twice. -/

section

open LocalNet

abbrev Line := Move platform deployed Call

def deployment : State := LocalNet.start Event Storage.fresh

theorem deployment_genesis : Genesis deployment := rfl

def setsUp : Line := signed [] (.initializeFactory (account 0))

def creates : Line := signed [account 1] (.createAgent (account 1) (account 2) "bot")

def worked : List Line := [
  signed [account 1] (.deactivateAgent (account 1) 1),
  signed [] (.recordOperation 1),
  signed [] (.recordOperation 1)]

def script : List Line := [setsUp] ++ creates :: worked

end

section

variable {P : Platform} {d : Deployment} {w0 w w' : State} {a : Action Call} {t : Tx}
  {tr before after : List Tx} {agent_id : Nat} {owner : Address}

/-- **Every query reads the list.** -/
theorem queries_exact (h0 : Genesis w0) (h : Runs P d w0 tr w) :
    totalAgents w = (registryOf tr).length ∧
    (∀ id agent, getAgent w id = .ok agent ↔ (registryOf tr).find id = some agent) ∧
    (∀ owner, getAgentsByOwner w owner =
      (registryOf tr).filter fun agent => decide (agent.owner = owner)) ∧
    ∀ address, isActiveAgent w address =
      (registryOf tr).any fun agent => decide (agent.address = address) && agent.active := by
  have htable := refines h0 h
  have hagents : (List.range' 1 (count w)).filterMap (fun i => (agents w).lookup i)
      = registryOf tr := by
    rw [htable.counted, funext htable.found]
    exact filterMap_find (registryOf tr)
  refine ⟨htable.counted, fun id agent => ?_, fun owner => ?_, fun address => ?_⟩
  · rw [getAgent_eq_ok, htable.found]
  · calc getAgentsByOwner w owner
        = ((List.range' 1 (count w)).filterMap fun i => (agents w).lookup i).foldl
            (fun result agent => if agent.owner = owner then result ++ [agent] else result) [] := by
          rw [getAgentsByOwner, List.foldl_filterMap]
          refine congrArg (List.foldl · [] _) (funext fun result => funext fun i => ?_)
          cases (agents w).lookup i with
          | none => rfl
          | some agent => rfl
      _ = (registryOf tr).filter fun agent => decide (agent.owner = owner) := by
          rw [hagents]
          simpa using foldl_push (fun agent => decide (agent.owner = owner)) (registryOf tr) []
  · calc isActiveAgent w address
        = ((List.range' 1 (count w)).filterMap fun i => (agents w).lookup i).any
            fun agent => decide (agent.address = address) && agent.active := by
          rw [isActiveAgent, List.any_filterMap]
          refine congrArg (List.any _) (funext fun i => ?_)
          cases (agents w).lookup i with
          | none => rfl
          | some agent => rfl
      _ = _ := by rw [hagents]

theorem queries_exact_script :
    getAgentsByOwner (agentWalletFactory.outcome deployment script) (LocalNet.account 1) =
      (registryOf (agentWalletFactory.history deployment script)).filter
        fun agent => decide (agent.owner = LocalNet.account 1) :=
  (queries_exact deployment_genesis
    (Contract.script_runs script (by decide +kernel))).2.2.1 (LocalNet.account 1)

/-- **What an agent is, by its history.** In a factory that is set up, an agent that is created
keeps its address, name, owner and ledger; it is active unless it was switched off last, only its
owner has switched it, and its operations are the calls of `record_operation` for it. -/
theorem agent_history (h0 : Genesis w0) (h : Runs P d w0 (before ++ t :: after) w)
    (hadmin : t.pre.storage.admin ≠ none) {env : Env} {agent_address : Address} {name : String}
    (hcreates : agentWalletFactory.Calls t env (.createAgent owner agent_address name)) :
    getAgent w (totalAgents t.post) = .ok {
      address := agent_address
      name
      owner
      active := lastSwitch (totalAgents t.post) (changes after) true
      created_at := t.pre.sequence
      total_ops := (changes after).count (.counted (totalAgents t.post)) } ∧
    ∀ x ∈ after, ∀ active, Tx.change x = some (.switched (totalAgents t.post) active) →
      ∃ env call, x.act = .invoke env call ∧ env.authorized owner = true := by
  obtain ⟨hbefore, hst, hafter⟩ := h.around
  have hexec : exec env t.pre.quiet (.createAgent owner agent_address name) = .ok t.post :=
    hcreates.2
  have heffect := exec_effect hexec
  have htable := heffect.table _ (refines h0 hbefore)
  have hkept : t.post.storage.admin ≠ none := by
    rw [heffect.admin.resolve_right (by simp [Call.change])]
    exact hadmin
  have hfind : Registry.find (Registry.apply (registryOf before)
      ((Call.createAgent owner agent_address name).change t.pre)) (totalAgents t.post) = some {
        address := agent_address, name, owner, active := true, created_at := t.pre.sequence
        total_ops := 0 } := by
    rw [totalAgents, htable.counted]
    show Registry.find (registryOf before ++ [_]) (registryOf before ++ [_]).length = _
    rw [find_append, List.length_append, List.length_singleton, if_pos rfl]
  -- the agent at any later moment
  have hlater : ∀ {tr w}, Runs P d t.post tr w → (agents w).lookup (totalAgents t.post) = some {
      address := agent_address
      name
      owner
      active := lastSwitch (totalAgents t.post) (changes tr) true
      created_at := t.pre.sequence
      total_ops := 0 + (changes tr).count (.counted (totalAgents t.post)) } := by
    intro tr w hrun
    rw [(refines_from hrun htable).found]
    exact find_foldl _ hfind (admin_kept hrun hkept).2
  refine ⟨?_, fun x hx active hswitched => ?_⟩
  · have hfound := hlater hafter
    rw [Nat.zero_add] at hfound
    exact getAgent_eq_ok.mpr hfound
  · obtain ⟨xs, ys, rfl⟩ := List.append_of_mem hx
    obtain ⟨hxs, hstx, _⟩ := hafter.around
    rcases step_cases hstx with ⟨hnone, _⟩ | ⟨env', call, hact, hsome, hauth⟩
    · rw [hnone] at hswitched
      cases hswitched
    · refine ⟨env', call, hact, ?_⟩
      have hauthorized := hauth.authorized
      rw [Option.some.inj (hsome.symm.trans hswitched)] at hauthorized
      obtain ⟨agent, hfound, hauthorized⟩ := hauthorized
      rw [hlater hxs] at hfound
      cases hfound
      exact hauthorized

theorem agent_history_script :
    getAgent (agentWalletFactory.outcome deployment script) 1 = .ok {
      address := LocalNet.account 2
      name := "bot"
      owner := LocalNet.account 1
      active := false
      created_at := 100
      total_ops := 2 } := by
  have hcreates : agentWalletFactory.Calls
      (agentWalletFactory.txAfter deployment [setsUp] creates)
      (LocalNet.callBy [LocalNet.account 1] false)
      (.createAgent (LocalNet.account 1) (LocalNet.account 2) "bot") :=
    Contract.txAfter_calls (by decide +kernel)
  exact (agent_history deployment_genesis (Contract.script_runs_split [setsUp] creates worked
    (by decide +kernel)) (by decide +kernel) hcreates).1

/-- Without a restart the table is the one before, with the events of the run. -/
theorem agents_of_run (h : Runs P d w tr w') (hadmin : w.storage.admin ≠ none) :
    agents w' = (tr.flatMap fun x => stateEvents x.post).foldl
      (fun table entry => table.insert entry.1 entry.2) (agents w) := by
  refine h.history (P := fun tr w' => agents w' = (tr.flatMap fun x => stateEvents x.post).foldl
    (fun table entry => table.insert entry.1 entry.2) (agents w)) rfl ?_
  intro tr m a m' hrun ih hst
  rw [List.flatMap_append, List.foldl_append, ← ih, List.flatMap_singleton]
  rcases step_cases hst with ⟨_, hsame, hevents⟩ | ⟨env, call, _, _, heffect⟩
  · rw [stateEvents, hevents, agents, hsame]
    rfl
  · refine heffect.events fun hrestarted => ?_
    exact (admin_kept hrun hadmin).1 (heffect.restarts hrestarted).1

/-- **The table can be rebuilt from its events**, once the factory is set up. -/
theorem agents_of_events (h : Runs P d w0 (before ++ t :: after) w) {env : Env} {admin : Address}
    (hsetup : agentWalletFactory.Calls t env (.initializeFactory admin)) :
    agents w = (after.flatMap fun x => stateEvents x.post).foldl
      (fun table entry => table.insert entry.1 entry.2) ∅ := by
  obtain ⟨_, _, hafter⟩ := h.around
  have hexec : exec env t.pre.quiet (.initializeFactory admin) = .ok t.post := hsetup.2
  have hstarted := agents_of_run hafter ((exec_effect hexec).restarts rfl).2
  have hempty : agents t.post = ∅ := by
    simp only [exec, initializeFactory, Result.bind_eq_ok, Result.pure_eq_ok] at hexec
    obtain ⟨_, _, hpost⟩ := hexec
    rw [← hpost]
    rfl
  rwa [hempty] at hstarted

theorem agents_of_events_script :
    agents (agentWalletFactory.outcome deployment script) =
      ((agentWalletFactory.historyAfter deployment [setsUp] (creates :: worked)).flatMap
        fun x => stateEvents x.post).foldl
          (fun table entry => table.insert entry.1 entry.2) ∅ := by
  have hsetup : agentWalletFactory.Calls (agentWalletFactory.txAfter deployment [] setsUp)
      (LocalNet.callBy [] false) (.initializeFactory (LocalNet.account 0)) :=
    Contract.txAfter_calls (by decide +kernel)
  exact agents_of_events (Contract.script_runs_split [] setsUp (creates :: worked)
    (by decide +kernel)) hsetup

end

end StellarAgent.AgentWalletFactory
