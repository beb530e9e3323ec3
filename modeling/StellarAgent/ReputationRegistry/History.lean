import StellarAgent.ReputationRegistry.Contract

set_option autoImplicit false

/-! # What a reputation stands for

A reputation is what reporters recorded of an agent: `reputation_history` reads it off the history
of calls, with the counts capped where the machine integers end, and says who could add to it. The
score made of it is bounded and only decays between two records (`score_of_history`).
-/

namespace StellarAgent.ReputationRegistry

open Lib Soroban

/-! ## Records -/

/-- How a job of an agent ended -/
structure Entry where
  outcome : Nat
  volume : Int
  ledger : Nat
  deriving DecidableEq

/-- The reputation that some records make: counts and volume up to the largest number there is, and
the first ledger there was, where ledger 0 is none. -/
def reputationOf (entries : List Entry) : Reputation where
  completions := min U32_MAX (entries.countP fun entry => entry.outcome = 0)
  refunds := min U32_MAX (entries.countP fun entry => entry.outcome = 1)
  disputes := min U32_MAX (entries.countP fun entry => 2 ≤ entry.outcome)
  volume := min I128_MAX (entries.map Entry.volume).sum
  first_seen := ((entries.map Entry.ledger).find? fun ledger => ledger ≠ 0).getD 0

/-- Who records what of whom in a call: the reporter, the agent, the volume and the outcome -/
def Call.record : Call → Option (Address × Address × Int × Nat)
  | .recordCompletion reporter agent volume => some (reporter, agent, volume, 0)
  | .recordRefund reporter agent volume => some (reporter, agent, volume, 1)
  | .recordDispute reporter agent volume => some (reporter, agent, volume, 2)
  | _ => none

/-- What a call on this ledger records of the agent -/
def Call.entry (agent : Address) (ledger : Nat) (call : Call) : Option Entry :=
  match call.record with
  | some (_, recorded, volume, outcome) =>
      if recorded = agent then some ⟨outcome, volume, ledger⟩ else none
  | none => none

/-- What a transaction records of the agent -/
def Tx.entry (agent : Address) (t : Tx) : Option Entry :=
  match t.act with
  | .invoke env call =>
      if (exec env t.pre.quiet call).isOk then call.entry agent t.pre.sequence else none
  | _ => none

/-- What a history records of the agent -/
def entries (tr : List Tx) (agent : Address) : List Entry := tr.filterMap (Tx.entry agent)

/-- Whether a transaction switches the reporter on or off -/
def Tx.switch (reporter : Address) (t : Tx) : Option Bool :=
  match t.act with
  | .invoke env (.setReporter admin named enabled) =>
      if (exec env t.pre.quiet (.setReporter admin named enabled)).isOk ∧ named = reporter then
        some enabled
      else none
  | _ => none

/-- Whether the reporter was switched on last -/
def switchedOn (tr : List Tx) (reporter : Address) : Bool :=
  (tr.filterMap (Tx.switch reporter)).getLast?.getD false

section

variable {entries : List Entry} {entry : Entry}

theorem record_volume {x : Int} (hsum : 0 ≤ x) {volume : Int} (hvolume : 0 ≤ volume) :
    saturatingAddI128 (min I128_MAX x) volume = min I128_MAX (x + volume) := by
  unfold saturatingAddI128
  simp only [I128_MAX, I128_MIN]
  omega

theorem record_count (n : Nat) : saturatingAdd (min U32_MAX n) 1 = min U32_MAX (n + 1) := by
  unfold saturatingAdd
  simp only [U32_MAX]
  omega

theorem reputationOf_first_seen : (reputationOf (entries ++ [entry])).first_seen
    = if (reputationOf entries).first_seen = 0 then entry.ledger
      else (reputationOf entries).first_seen := by
  unfold reputationOf
  dsimp only
  rw [List.map_append, List.find?_append]
  cases hfound : (entries.map Entry.ledger).find? fun ledger => ledger ≠ 0 with
  | none =>
      by_cases hzero : entry.ledger = 0
      · simp [hzero]
      · simp [hzero]
  | some first =>
      have hfirst : first ≠ 0 := by simpa using List.find?_some hfound
      simp [hfirst]

/-- What one record changes -/
theorem record_eq (rep : Reputation) (sequence : Nat) (volume : Int) {outcome : Nat}
    (houtcome : outcome ≤ 2) : rep.record sequence volume outcome = {
      completions := if outcome = 0 then saturatingAdd rep.completions 1 else rep.completions
      refunds := if outcome = 1 then saturatingAdd rep.refunds 1 else rep.refunds
      disputes := if outcome = 2 then saturatingAdd rep.disputes 1 else rep.disputes
      volume := saturatingAddI128 rep.volume volume
      first_seen := if rep.first_seen = 0 then sequence else rep.first_seen } := by
  have hcases : outcome = 0 ∨ outcome = 1 ∨ outcome = 2 := by omega
  unfold Reputation.record
  by_cases hseen : rep.first_seen = 0
  · rcases hcases with rfl | rfl | rfl
    · simp [hseen]
    · simp [hseen]
    · simp [hseen]
  · rcases hcases with rfl | rfl | rfl
    · simp [hseen]
    · simp [hseen]
    · simp [hseen]

/-- One more record -/
theorem reputationOf_snoc (hentries : ∀ entry ∈ entries, 0 ≤ entry.volume)
    (hvolume : 0 ≤ entry.volume) (houtcome : entry.outcome ≤ 2) :
    reputationOf (entries ++ [entry])
      = (reputationOf entries).record entry.ledger entry.volume entry.outcome := by
  have hsum : 0 ≤ (entries.map Entry.volume).sum := by
    refine List.sum_nonneg fun x hx => ?_
    obtain ⟨entry, hentry, rfl⟩ := List.mem_map.mp hx
    exact hentries entry hentry
  have hcount : ∀ p : Entry → Bool, min U32_MAX ((entries ++ [entry]).countP p)
      = if p entry then saturatingAdd (min U32_MAX (entries.countP p)) 1
        else min U32_MAX (entries.countP p) := by
    intro p
    rw [List.countP_append, List.countP_singleton]
    split_ifs
    · exact (record_count _).symm
    · rfl
  rw [record_eq _ _ _ houtcome]
  refine Reputation.ext ?_ ?_ ?_ ?_ reputationOf_first_seen
  · exact (hcount _).trans (if_congr decide_eq_true_iff rfl rfl)
  · exact (hcount _).trans (if_congr decide_eq_true_iff rfl rfl)
  · have htwo : 2 ≤ entry.outcome ↔ entry.outcome = 2 := by omega
    exact (hcount _).trans (if_congr (decide_eq_true_iff.trans htwo) rfl rfl)
  · show min I128_MAX (((entries ++ [entry]).map Entry.volume).sum) = _
    rw [List.map_append, List.sum_append, List.map_singleton, List.sum_singleton]
    exact (record_volume hsum hvolume).symm

end

/-! ## What a call does -/

/-- What a call that returns does. -/
inductive Effect (env : Env) (w : State) : Call → State → Prop
  | initialized {w' : State} {admin : Address} (fresh : w.storage.admin = none)
      (next : w'.storage = { w.storage with admin := some admin, reporters := some ∅ }) :
      Effect env w (.initializeRegistry admin) w'
  | switched {w' : State} {admin reporter : Address} {enabled : Bool}
      (auth : env.authorized admin = true) (admin_of : w.storage.admin = some admin)
      (next : w'.storage = { w.storage with
        reporters := some ((w.storage.reporters.getD ∅).insert reporter enabled) }) :
      Effect env w (.setReporter admin reporter enabled) w'
  | recorded {w' : State} {call : Call} {reporter agent : Address} {volume : Int} {outcome : Nat}
      (records : call.record = some (reporter, agent, volume, outcome)) (bounded : outcome ≤ 2)
      (auth : env.authorized reporter = true)
      (enabled : (w.storage.reporters.getD ∅).lookup reporter = some true) (nonneg : 0 ≤ volume)
      (admin_eq : w'.storage.admin = w.storage.admin)
      (reporters_eq : w'.storage.reporters = w.storage.reporters)
      (reputation_eq : w'.storage.reputation = w.storage.reputation.insert agent
        ((load w agent).record w.sequence volume outcome)) :
      Effect env w call w'

section

variable {env : Env} {w w' : State} {reporter agent : Address} {volume : Int} {outcome : Nat}

theorem record_ok {call : Call} (hcall : call.record = some (reporter, agent, volume, outcome))
    (hbound : outcome ≤ 2) (h : record env w.quiet reporter agent volume outcome = .ok w') :
    Effect env w call w' ∧ w'.sequence = w.sequence := by
  simp only [record, Result.bind_eq_ok, requireAuth_eq_ok, expect_eq_ok, panicIf_eq_ok,
    Bool.not_eq_false, not_lt, Result.pure_eq_ok] at h
  obtain ⟨_, hauth, reporters, hreporters, _, henabled, _, hnonneg, rfl⟩ := h
  have hstored : w.storage.reporters = some reporters := hreporters
  refine ⟨.recorded hcall hbound hauth ?_ hnonneg rfl rfl rfl, rfl⟩
  rw [hstored]
  cases hlookup : reporters.lookup reporter with
  | none =>
      rw [hlookup] at henabled
      cases henabled
  | some enabled =>
      rw [hlookup] at henabled
      rw [Option.getD_some] at henabled ⊢
      rw [hlookup, henabled]

/-- **What any call does that returns.** -/
theorem exec_effect {call : Call} (h : exec env w.quiet call = .ok w') :
    Effect env w call w' ∧ w'.sequence = w.sequence := by
  cases call with
  | initializeRegistry admin =>
      simp only [exec, initializeRegistry, Result.bind_eq_ok, panicIf_eq_ok, not_not,
        requireAuth_eq_ok, Result.pure_eq_ok] at h
      obtain ⟨_, hfresh, _, _, rfl⟩ := h
      exact ⟨.initialized hfresh rfl, rfl⟩
  | setReporter admin reporter enabled =>
      simp only [exec, setReporter, Result.bind_eq_ok, requireAuth_eq_ok, expect_eq_ok,
        panicIf_eq_ok, not_not, Result.pure_eq_ok] at h
      obtain ⟨_, hauth, _, hadmin, _, rfl, rfl⟩ := h
      exact ⟨.switched hauth hadmin rfl, rfl⟩
  | recordCompletion reporter agent volume => exact record_ok rfl (by decide) h
  | recordRefund reporter agent volume => exact record_ok rfl (by decide) h
  | recordDispute reporter agent volume => exact record_ok rfl (by decide) h

end

/-! ## Along a run -/

/-- What the storage says is what the history says. -/
structure Recorded (tr : List Tx) (w : State) : Prop where
  unset : w.storage.admin = none → w.storage.reporters = none
  reporters : ∀ reporter, ((w.storage.reporters.getD ∅).lookup reporter).getD false
    = switchedOn tr reporter
  reputation : ∀ agent, load w agent = reputationOf (entries tr agent)
  nonneg : ∀ agent, ∀ entry ∈ entries tr agent, 0 ≤ entry.volume

section

variable {P : Platform} {d : Deployment} {w0 w w' : State} {a : Action Call} {t : Tx}
  {tr before after : List Tx} {agent reporter : Address}

theorem entries_snoc : entries (tr ++ [t]) agent = entries tr agent ++ (t.entry agent).toList := by
  rw [entries, List.filterMap_append]
  cases h : t.entry agent with
  | none => simp [entries, h]
  | some entry => simp [entries, h]

theorem switchedOn_snoc :
    switchedOn (tr ++ [t]) reporter = (t.switch reporter).getD (switchedOn tr reporter) := by
  rw [switchedOn, List.filterMap_append]
  cases h : t.switch reporter with
  | none => simp [switchedOn, h]
  | some enabled => simp [h]

/-- A step that is no call that returned records and switches nothing. -/
theorem entry_of_no_call (hst : Step P d w a w')
    (hnocall : ∀ env call, ¬ reputationRegistry.Calls ⟨w, a, w'⟩ env call) :
    Tx.entry agent ⟨w, a, w'⟩ = none ∧ Tx.switch reporter ⟨w, a, w'⟩ = none := by
  cases a with
  | closeLedgers count => exact ⟨rfl, rfl⟩
  | external balance => exact ⟨rfl, rfl⟩
  | invoke env call =>
      have hfails : ¬ (exec env w.quiet call).isOk = true := by
        intro hok
        obtain ⟨w'', hexec⟩ := Result.exists_of_isOk hok
        have hnext : w' = w'' := hst.2.trans (Contract.next_ok hexec)
        exact hnocall env call ⟨rfl, hnext ▸ hexec⟩
      refine ⟨if_neg hfails, ?_⟩
      cases call with
      | setReporter admin named enabled => exact if_neg fun hboth => hfails hboth.1
      | _ => rfl

/-- What a call that returns records and switches. -/
theorem entry_of_call {env : Env} {call : Call} (h : exec env w.quiet call = .ok w') :
    Tx.entry agent ⟨w, .invoke env call, w'⟩ = call.entry agent w.sequence := by
  show (if (exec env w.quiet call).isOk then _ else none) = _
  rw [h]
  rfl

/-- **One step keeps the record.** -/
theorem recorded_step (h : Recorded tr w) (hst : Step P d w a w') :
    Recorded (tr ++ [⟨w, a, w'⟩]) w' := by
  rcases Contract.step_cases hst with ⟨hsame, -, -, -, hnocall⟩ | ⟨env, call, rfl, -, -, hexec⟩
  · have hnone : ∀ agent reporter, Tx.entry agent ⟨w, a, w'⟩ = none ∧
        Tx.switch reporter ⟨w, a, w'⟩ = none :=
      fun agent reporter => entry_of_no_call hst hnocall
    have hentries : ∀ agent, entries (tr ++ [⟨w, a, w'⟩]) agent = entries tr agent := by
      intro agent
      rw [entries_snoc, (hnone agent agent).1]
      exact List.append_nil _
    constructor
    · rw [hsame]
      exact h.unset
    · intro reporter
      rw [hsame, h.reporters, switchedOn_snoc, (hnone reporter reporter).2]
      rfl
    · intro agent
      rw [hentries, load, hsame]
      exact h.reputation agent
    · intro agent
      rw [hentries]
      exact h.nonneg agent
  have hcall : exec env w.quiet call = .ok w' := hexec
  obtain ⟨heffect, hsequence⟩ := exec_effect hcall
  have hquiet : call.record = none → ∀ agent,
      entries (tr ++ [⟨w, .invoke env call, w'⟩]) agent = entries tr agent := by
    intro hrecord agent
    rw [entries_snoc, entry_of_call hcall, Call.entry, hrecord]
    exact List.append_nil _
  cases heffect with
  | initialized hfresh hnext =>
      have hreporters := h.unset hfresh
      constructor
      · intro hnone
        rw [hnext] at hnone
        cases hnone
      · intro reporter
        rw [switchedOn_snoc, hnext]
        show (none : Option Bool).getD false = switchedOn tr reporter
        rw [← h.reporters, hreporters]
        rfl
      · intro agent
        rw [hquiet rfl, ← h.reputation, load, hnext]
        rfl
      · intro agent
        rw [hquiet rfl]
        exact h.nonneg agent
  | @switched _ admin named enabled hauth hadmin hnext =>
      constructor
      · intro hnone
        rw [hnext] at hnone
        rw [hadmin] at hnone
        cases hnone
      · intro reporter
        have hswitch : Tx.switch reporter ⟨w, .invoke env (.setReporter admin named enabled), w'⟩
            = if named = reporter then some enabled else none := by
          show (if (exec env w.quiet (.setReporter admin named enabled)).isOk ∧ named = reporter then
            some enabled else none) = _
          rw [hcall]
          by_cases hnamed : named = reporter
          · rw [if_pos hnamed, if_pos ⟨rfl, hnamed⟩]
          · rw [if_neg hnamed, if_neg fun hboth => hnamed hboth.2]
        rw [switchedOn_snoc, hswitch, hnext, ← h.reporters]
        show ((((w.storage.reporters.getD ∅).insert named enabled).lookup reporter).getD false) = _
        rw [Map.lookup_insert_eq_ite]
        by_cases hnamed : named = reporter
        · rw [if_pos hnamed.symm, if_pos hnamed]
          rfl
        · rw [if_neg (Ne.symm hnamed), if_neg hnamed]
          rfl
      · intro agent
        rw [hquiet rfl, ← h.reputation, load, hnext]
        rfl
      · intro agent
        rw [hquiet rfl]
        exact h.nonneg agent
  | @recorded _ _ reporter named volume outcome hrecord hbound hauth henabled hnonneg hadmin
      hreporters hreputation =>
      have hentries : ∀ agent, entries (tr ++ [⟨w, .invoke env call, w'⟩]) agent
          = if named = agent then entries tr agent ++ [⟨outcome, volume, w.sequence⟩]
            else entries tr agent := by
        intro agent
        rw [entries_snoc, entry_of_call hcall, Call.entry, hrecord]
        dsimp only
        split_ifs
        · rfl
        · exact List.append_nil _
      have hswitch : ∀ reporter, Tx.switch reporter ⟨w, .invoke env call, w'⟩ = none := by
        intro reporter
        cases call with
        | setReporter admin named enabled => cases hrecord
        | _ => rfl
      constructor
      · rw [hadmin, hreporters]
        exact h.unset
      · intro reporter
        rw [hreporters, h.reporters, switchedOn_snoc, hswitch]
        rfl
      · intro agent
        rw [hentries, load, hreputation, Map.lookup_insert_eq_ite]
        by_cases hnamed : named = agent
        · rw [if_pos hnamed.symm, if_pos hnamed, reputationOf_snoc (h.nonneg agent) hnonneg hbound,
            ← h.reputation agent, hnamed]
          rfl
        · rw [if_neg (Ne.symm hnamed), if_neg hnamed]
          exact h.reputation agent
      · intro agent entry hentry
        rw [hentries] at hentry
        split_ifs at hentry with hnamed
        · rcases List.mem_append.mp hentry with hentry | hentry
          · exact h.nonneg agent entry hentry
          · rw [List.mem_singleton.mp hentry]
            exact hnonneg
        · exact h.nonneg agent entry hentry

theorem recorded_run (h0 : Genesis w0) (h : Runs P d w0 tr w) : Recorded tr w := by
  refine h.history (P := fun tr w => Recorded tr w) ⟨?_, ?_, ?_, ?_⟩ ?_
  · rw [h0]
    exact fun _ => rfl
  · intro reporter
    rw [h0]
    rfl
  · intro agent
    rw [load, h0]
    rfl
  · intro agent entry hentry
    cases hentry
  · intro tr m a m' _ ih hst
    exact recorded_step ih hst

/-- Who a recorded entry is from -/
theorem entry_origin (h0 : Genesis w0) (h : Runs P d w0 (before ++ t :: after) w) {entry : Entry}
    (hentry : t.entry agent = some entry) :
    ∃ env call reporter, reputationRegistry.Calls t env call ∧
      call.record = some (reporter, agent, entry.volume, entry.outcome) ∧
      env.authorized reporter = true ∧ switchedOn before reporter = true := by
  obtain ⟨hbefore, hst, -⟩ := h.around
  have hrecorded := recorded_run h0 hbefore
  rcases Contract.step_cases hst with ⟨-, -, -, -, hnocall⟩ | ⟨env, call, hact, -, -, hexec⟩
  · have hnone : Tx.entry agent t = none ∧ Tx.switch agent t = none :=
      entry_of_no_call hst hnocall
    rw [hnone.1] at hentry
    cases hentry
  have hcall : exec env t.pre.quiet call = .ok t.post := hexec
  have heq : t.entry agent = call.entry agent t.pre.sequence := by
    rw [← entry_of_call hcall, ← hact]
  rw [heq, Call.entry] at hentry
  obtain ⟨heffect, -⟩ := exec_effect hcall
  refine ⟨env, call, ?_⟩
  cases heffect with
  | initialized _ _ => cases hentry
  | switched _ _ _ => cases hentry
  | @recorded _ _ reporter named volume outcome hrecord _ hauth henabled _ _ _ _ =>
      rw [hrecord] at hentry
      dsimp only at hentry
      split_ifs at hentry with hnamed
      cases hentry
      refine ⟨reporter, ⟨hact, hexec⟩, by rw [hrecord, hnamed], hauth, ?_⟩
      rw [← hrecorded.reporters, henabled]
      rfl

/-! ### The score -/

theorem decayBps_bounds (age : Nat) : 5000 ≤ decayBps age ∧ decayBps age ≤ 10000 := by
  unfold decayBps HALF_LIFE_LEDGERS
  by_cases hold : 52560 ≤ age
  · rw [if_pos hold]
    omega
  · rw [if_neg hold]
    omega

/-- A reputation that is older keeps less. -/
theorem decayBps_antitone {age later : Nat} (h : age ≤ later) : decayBps later ≤ decayBps age := by
  by_cases hold : 52560 ≤ later
  · have hlast : decayBps later = 5000 := if_pos hold
    rw [hlast]
    exact (decayBps_bounds age).1
  · unfold decayBps HALF_LIFE_LEDGERS
    rw [if_neg hold, if_neg (by omega)]
    omega

theorem baseScore_le (rep : Reputation) : baseScore rep ≤ 100 := by
  unfold baseScore saturatingAdd saturatingMul
  dsimp only
  refine Nat.div_le_of_le_mul ?_
  simp only [U32_MAX]
  omega

theorem score_eq (w : State) (agent : Address) : score w agent
    = baseScore (load w agent) * decayBps (w.sequence - (load w agent).first_seen) / 10000 := by
  unfold score
  dsimp only
  split_ifs with hnone
  · unfold baseScore
    dsimp only
    rw [hnone, Nat.div_zero, Nat.zero_mul, Nat.zero_div]
  · rfl

/-- Without records of the agent time passes and their reputation stays. -/
theorem load_of_no_entries (h : Runs P d w tr w') (hnone : entries tr agent = []) :
    load w' agent = load w agent ∧ w.sequence ≤ w'.sequence := by
  refine h.history (P := fun tr w' => entries tr agent = [] →
    load w' agent = load w agent ∧ w.sequence ≤ w'.sequence) (fun _ => ⟨rfl, le_rfl⟩) ?_ hnone
  intro tr m a m' _ ih hst hnone
  rw [entries_snoc, List.append_eq_nil_iff, Option.toList_eq_nil_iff] at hnone
  obtain ⟨hload, hsequence⟩ := ih hnone.1
  rcases Contract.step_cases hst with ⟨hsame, hle, -, -, -⟩ | ⟨env, call, rfl, -, -, hexec⟩
  · refine ⟨?_, hsequence.trans hle⟩
    rw [← hload, load, hsame]
    rfl
  obtain ⟨heffect, hsame⟩ := exec_effect hexec
  refine ⟨?_, hsequence.trans hsame.ge⟩
  rw [← hload]
  cases heffect with
  | initialized _ hnext =>
      rw [load, hnext]
      rfl
  | switched _ _ hnext =>
      rw [load, hnext]
      rfl
  | @recorded _ _ reporter named volume outcome hrecord _ _ _ _ _ _ hreputation =>
      have hentry := hnone.2
      rw [entry_of_call hexec, Call.entry, hrecord] at hentry
      dsimp only at hentry
      split_ifs at hentry with hnamed
      rw [load, hreputation, Map.lookup_insert_eq_ite, if_neg (Ne.symm hnamed)]
      rfl

end

/-! A local network: account 0 is the admin, account 1 reports of account 2 a completion and a
refund; then the score decays. -/

section

open LocalNet

abbrev Line := Move platform deployed Call

def deployment : State := LocalNet.start Empty Storage.fresh

theorem deployment_genesis : Genesis deployment := rfl

def reported : List Line := [
  signed [account 0] (.initializeRegistry (account 0)),
  signed [account 0] (.setReporter (account 0) (account 1) true),
  signed [account 1] (.recordCompletion (account 1) (account 2) 100),
  signed [account 1] (.recordRefund (account 1) (account 2) 20)]

end

section

variable {P : Platform} {d : Deployment} {w0 w w' : State} {tr tr' : List Tx} {agent : Address}

/-- **The score.** It is a percentage; as long as nothing is capped it is the average of 100 for a
completion, 50 for a refund and 0 for a dispute, with what its age leaves of it; and until the next
record it does not rise, and keeps half. -/
theorem score_of_history (h0 : Genesis w0) (h : Runs P d w0 tr w) (agent : Address) :
    score w agent ≤ 100 ∧
    (∀ completions refunds disputes,
      (entries tr agent).countP (fun entry => entry.outcome = 0) = completions →
      (entries tr agent).countP (fun entry => entry.outcome = 1) = refunds →
      (entries tr agent).countP (fun entry => 2 ≤ entry.outcome) = disputes →
      completions * 100 + refunds * 50 ≤ U32_MAX → completions + refunds + disputes ≤ U32_MAX →
      score w agent = (completions * 100 + refunds * 50) / (completions + refunds + disputes)
        * decayBps (w.sequence - (getReputation w agent).first_seen) / 10000) ∧
    ∀ tr' w', Runs P d w tr' w' → entries tr' agent = [] →
      score w' agent ≤ score w agent ∧ score w agent ≤ 2 * score w' agent + 1 := by
  have hbounded : ∀ w', score w' agent ≤ baseScore (load w' agent) ∧
      baseScore (load w' agent) ≤ 2 * score w' agent + 1 := by
    intro w'
    obtain ⟨hlow, hhigh⟩ := decayBps_bounds (w'.sequence - (load w' agent).first_seen)
    rw [score_eq]
    constructor
    · exact Nat.div_le_of_le_mul ((Nat.mul_le_mul_left _ hhigh).trans (Nat.mul_comm _ _).le)
    · have hhalf := Nat.mul_le_mul_left (baseScore (load w' agent)) hlow
      omega
  refine ⟨(hbounded w).1.trans (baseScore_le _), ?_, ?_⟩
  · intro completions refunds disputes hcompletions hrefunds hdisputes hweighted houtcomes
    have hload := (recorded_run h0 h).reputation agent
    rw [score_eq, getReputation]
    have hbase : baseScore (load w agent)
        = (completions * 100 + refunds * 50) / (completions + refunds + disputes) := by
      rw [hload]
      unfold baseScore reputationOf saturatingAdd saturatingMul
      dsimp only
      rw [hcompletions, hrefunds, hdisputes]
      congr 1
      · omega
      · omega
    rw [hbase]
  · intro tr' w' hrun hnone
    obtain ⟨hsame, hle⟩ := load_of_no_entries hrun hnone
    refine ⟨?_, ?_⟩
    · rw [score_eq, score_eq, hsame]
      refine Nat.div_le_div_right (Nat.mul_le_mul_left _ (decayBps_antitone ?_))
      omega
    · refine (hbounded w).1.trans ?_
      rw [← hsame]
      exact (hbounded w').2

theorem score_of_history_reported :
    score (reputationRegistry.outcome deployment reported) (LocalNet.account 2) = 75 := by
  have hscore := (score_of_history deployment_genesis
    (Contract.script_runs reported (by decide +kernel)) (LocalNet.account 2)).2.1 1 1 0
    (by decide +kernel) (by decide +kernel) (by decide +kernel) (by decide) (by decide)
  rw [hscore]
  decide +kernel

end

end StellarAgent.ReputationRegistry
