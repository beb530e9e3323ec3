import StellarAgent.BugBountyOracle.Effects

set_option autoImplicit false

/-! # The money of the bounties

In every reachable state the contract holds at least the amounts of its open bounties. A bounty
leaves `Open` in one way, together with one transfer of its amount: to the hunter of a submission
that is then the only accepted one, or to its sponsor with no submission accepted. After that its
record never changes.
-/

namespace StellarAgent.BugBountyOracle

open Lib Soroban

/-! ## Invariant -/

/-- What a bounty has escrowed of a token. -/
def fundedBy (token : Address) (_ : Nat) (bounty : Bounty) : Int :=
  if bounty.token = token ∧ bounty.status = .Open then bounty.amount else 0

/-- The sum of the amounts of the open bounties in `token`. -/
def funded (w : State) (token : Address) : Int := Map.total (fundedBy token) (loadBounties w)

/-- The winner of a bounty is an accepted submission of it. -/
def Won (w : State) (id : Nat) (bounty : Bounty) (submission_id : Nat)
    (submission : Submission) : Prop :=
  bounty.winning_submission = some submission_id ∧
    (loadSubmissions w).lookup submission_id = some submission ∧ submission.bounty_id = id ∧
    submission.status = .Accepted

/-- What holds of every bounty. -/
structure BountyInv (d : Deployment) (w : State) (id : Nat) (bounty : Bounty) : Prop where
  numbered : id ≤ w.storage.bcount.getD 0
  sponsor_ne : bounty.sponsor ≠ d.address
  undecided : bounty.status ≠ .Paid → bounty.winning_submission = none
  won : bounty.status = .Paid → ∃ submission_id submission, Won w id bounty submission_id submission

/-- What holds of every submission: it is of a stored bounty, which has paid it if it is accepted,
and it is the one that the index has for its payload. -/
structure SubmissionInv (d : Deployment) (w : State) (submission_id : Nat)
    (submission : Submission) : Prop where
  numbered : submission_id ≤ w.storage.scount.getD 0
  hunter_ne : submission.hunter ≠ d.address
  indexed : (payloadIndex w).lookup ⟨submission.bounty_id, submission.payload_hash⟩ =
    some submission_id
  stored : ∃ bounty, (loadBounties w).lookup submission.bounty_id = some bounty ∧
    (submission.status = .Accepted →
      bounty.status = .Paid ∧ bounty.winning_submission = some submission_id)

/-- What holds of every reachable state. -/
structure Inv (d : Deployment) (w : State) : Prop where
  bounty_inv : ∀ id bounty, (loadBounties w).lookup id = some bounty → BountyInv d w id bounty
  submission_inv : ∀ submission_id submission,
    (loadSubmissions w).lookup submission_id = some submission →
      SubmissionInv d w submission_id submission
  solvent : ∀ token, funded w token ≤ w.balance token d.address

section

variable {P : Platform} {d : Deployment} {env : Env} {w0 w w' : State} {a : Action Call} {x : Tx}
  {tr : List Tx} {id submission_id : Nat} {bounty : Bounty} {submission : Submission}

/-! ## What one entry contributes -/

theorem fundedBy_open {token : Address} (h : bounty.status = .Open) :
    fundedBy token id bounty = if token = bounty.token then bounty.amount else 0 := by
  unfold fundedBy
  by_cases ht : token = bounty.token
  · rw [if_pos ⟨ht.symm, h⟩, if_pos ht]
  · rw [if_neg (fun hand => ht hand.1.symm), if_neg ht]

theorem fundedBy_closed {token : Address} (h : bounty.status ≠ .Open) :
    fundedBy token id bounty = 0 := by
  unfold fundedBy
  rw [if_neg (fun hand => h hand.2)]

/-- A new bounty escrows what it brings. -/
theorem funded_new {token : Address}
    (hbounties : loadBounties w' = (loadBounties w).insert id bounty)
    (hfresh : (loadBounties w).lookup id = none) (hopen : bounty.status = .Open) :
    funded w' token = funded w token + if token = bounty.token then bounty.amount else 0 := by
  unfold funded
  rw [hbounties, Map.total_insert, Map.valueAt_none hfresh, fundedBy_open hopen]
  omega

/-- A bounty that stays open keeps its amount escrowed. -/
theorem funded_kept {bounty' : Bounty} {token : Address}
    (hbounties : loadBounties w' = (loadBounties w).insert id bounty')
    (hbefore : (loadBounties w).lookup id = some bounty) (hopen : bounty.status = .Open)
    (hopen' : bounty'.status = .Open) (htoken : bounty'.token = bounty.token)
    (hamount : bounty'.amount = bounty.amount) : funded w' token = funded w token := by
  unfold funded
  rw [hbounties, Map.total_insert, Map.valueAt_some hbefore, fundedBy_open hopen,
    fundedBy_open hopen', htoken, hamount]
  omega

/-- A bounty that is decided releases its amount. -/
theorem funded_decided {bounty' : Bounty} {token : Address}
    (hbounties : loadBounties w' = (loadBounties w).insert id bounty')
    (hbefore : (loadBounties w).lookup id = some bounty) (hopen : bounty.status = .Open)
    (hclosed : bounty'.status ≠ .Open) :
    funded w' token = funded w token - if token = bounty.token then bounty.amount else 0 := by
  unfold funded
  rw [hbounties, Map.total_insert, Map.valueAt_some hbefore, fundedBy_open hopen,
    fundedBy_closed hclosed]
  omega

/-! ## Steps -/

theorem step_effect (h : Step P d w a w') :
    (w'.storage = w.storage ∧ w'.transfersOut d.address = [] ∧
        ∀ token, w.balance token d.address ≤ w'.balance token d.address) ∨
      ∃ env, env.self = d.address ∧ Effect env w w' := by
  rcases Contract.step_cases h with
    ⟨hstorage, _, hevents, hbalance, _⟩ | ⟨env, call, _, hd, _, hexec⟩
  · refine .inl ⟨hstorage, ?_, hbalance⟩
    rw [World.transfersOut, World.transfers_of_events_nil hevents]
    rfl
  · exact .inr ⟨env, congrArg Deployment.address hd, exec_effect hexec⟩

/-- The next bounty id is free. -/
theorem Inv.fresh (h : Inv d w) (hid : id = w.storage.bcount.getD 0 + 1) :
    (loadBounties w).lookup id = none := by
  cases hbounty : (loadBounties w).lookup id with
  | none => rfl
  | some bounty =>
      have hle := (h.bounty_inv id bounty hbounty).numbered
      omega

/-- The next submission id is free. -/
theorem Inv.fresh_submission (h : Inv d w) (hid : submission_id = w.storage.scount.getD 0 + 1) :
    (loadSubmissions w).lookup submission_id = none := by
  cases hsubmission : (loadSubmissions w).lookup submission_id with
  | none => rfl
  | some submission =>
      have hle := (h.submission_inv submission_id submission hsubmission).numbered
      omega

/-- A bounty is won also after a submission that was not accepted has been written. -/
theorem Won.insert {submission_id' : Nat} {submission' : Submission}
    (h : Won w id bounty submission_id submission)
    (hsubmissions : loadSubmissions w' = (loadSubmissions w).insert submission_id' submission')
    (hbefore : ∀ old, (loadSubmissions w).lookup submission_id' = some old →
      old.status ≠ .Accepted) : Won w' id bounty submission_id submission := by
  obtain ⟨hwinner, hlookup, hof, haccepted⟩ := h
  refine ⟨hwinner, ?_, hof, haccepted⟩
  have hne : submission_id ≠ submission_id' := by
    rintro rfl
    exact hbefore submission hlookup haccepted
  rw [hsubmissions, Finmap.lookup_insert_of_ne _ hne, hlookup]

/-- What holds of a bounty holds after a step that leaves its winner accepted. -/
theorem BountyInv.keep (h : BountyInv d w id bounty)
    (hcount : w.storage.bcount.getD 0 ≤ w'.storage.bcount.getD 0)
    (hwon : ∀ submission_id submission, Won w id bounty submission_id submission →
      Won w' id bounty submission_id submission) : BountyInv d w' id bounty := by
  refine ⟨h.numbered.trans hcount, h.sponsor_ne, h.undecided, fun hpaid => ?_⟩
  obtain ⟨submission_id, submission, hold⟩ := h.won hpaid
  exact ⟨submission_id, submission, hwon _ _ hold⟩

/-- A submission has its bounty also after an open one has been written. -/
theorem SubmissionInv.stored_insert (h : SubmissionInv d w submission_id submission)
    (hbounties : loadBounties w' = (loadBounties w).insert id bounty)
    (hbefore : ∀ old, (loadBounties w).lookup id = some old → old.status = .Open) :
    ∃ bounty', (loadBounties w').lookup submission.bounty_id = some bounty' ∧
      (submission.status = .Accepted →
        bounty'.status = .Paid ∧ bounty'.winning_submission = some submission_id) := by
  obtain ⟨old, hold, haccepted⟩ := h.stored
  by_cases hid : submission.bounty_id = id
  · refine ⟨bounty, by rw [hbounties, hid, Finmap.lookup_insert], fun hstatus => ?_⟩
    rw [hid] at hold
    have hpaid := (haccepted hstatus).1
    rw [hbefore old hold] at hpaid
    cases hpaid
  · exact ⟨old, by rw [hbounties, Finmap.lookup_insert_of_ne _ hid, hold], haccepted⟩

theorem Inv.solvent_effect (h : Inv d w) (hself : env.self = d.address)
    (heffect : Effect env w w') (token : Address) :
    funded w' token ≤ w'.balance token d.address := by
  have hsolvent := h.solvent token
  have hbounty := h.bounty_inv
  cases heffect with
  | @funded id bounty next opened _ _ auth storage_eq balance_eq _ =>
      have hsponsor : bounty.sponsor ≠ d.address := hself ▸ ne_self_of_authorized auth
      have hbounties : loadBounties w' = (loadBounties w).insert id bounty := by
        unfold loadBounties
        rw [storage_eq]
        rfl
      rw [funded_new hbounties (h.fresh next) opened, balance_eq, hself,
        TokenLedger.move_dest hsponsor]
      omega
  | @submitted id submission_id count bounty submission before opened _ _ _ _ _ storage_eq
      balance_eq _ =>
      have hbounties : loadBounties w' =
          (loadBounties w).insert id { bounty with submission_count := count } := by
        unfold loadBounties
        rw [storage_eq]
        rfl
      rw [funded_kept hbounties before opened opened rfl rfl, balance_eq]
      exact hsolvent
  | rejected _ _ _ _ storage_eq balance_eq _ =>
      have hbounties : loadBounties w' = loadBounties w := by
        unfold loadBounties
        rw [storage_eq]
      unfold funded
      rw [hbounties, balance_eq]
      exact hsolvent
  | @accepted id submission_id bounty submission submission' before opened before_submission _ _ _ _
      storage_eq balance_eq _ =>
      have hhunter := (h.submission_inv _ _ before_submission).hunter_ne
      have hbounties : loadBounties w' = (loadBounties w).insert id { bounty with
          status := .Paid, winning_submission := some submission_id } := by
        unfold loadBounties
        rw [storage_eq]
        rfl
      rw [funded_decided hbounties before opened (by simp), balance_eq, hself,
        TokenLedger.move_source hhunter]
      omega
  | @refunded id bounty status before opened closed storage_eq balance_eq _ =>
      have hsponsor := (h.bounty_inv _ _ before).sponsor_ne
      have hbounties : loadBounties w' = (loadBounties w).insert id { bounty with status } := by
        unfold loadBounties
        rw [storage_eq]
        rfl
      have hclosed : status ≠ .Open := by rcases closed with rfl | rfl <;> simp
      rw [funded_decided hbounties before opened hclosed, balance_eq, hself,
        TokenLedger.move_source hsponsor]
      omega

theorem Inv.bounty_effect (h : Inv d w) (hself : env.self = d.address)
    (heffect : Effect env w w') (id : Nat) (bounty : Bounty)
    (hbounty : (loadBounties w').lookup id = some bounty) : BountyInv d w' id bounty := by
  revert id bounty
  cases heffect with
  | @funded id bounty next opened undecided _ auth storage_eq _ _ =>
      have hsponsor : bounty.sponsor ≠ d.address := hself ▸ ne_self_of_authorized auth
      rw [loadBounties, storage_eq]
      refine Map.forall_insert (fun id' bounty' _ hbounty' => ?_) ?_
      · refine (h.bounty_inv id' bounty' hbounty').keep (by simp [storage_eq, next]) ?_
        intro submission_id submission hwon
        refine ⟨hwon.1, ?_, hwon.2.2⟩
        rw [loadSubmissions, storage_eq]
        exact hwon.2.1
      · refine ⟨by simp [storage_eq], hsponsor, fun _ => undecided, fun hpaid => ?_⟩
        cases opened.symm.trans hpaid
  | @submitted id submission_id count bounty submission before opened next _ pending _ _ storage_eq
      _ _ =>
      have hsubmissions : loadSubmissions w' =
          (loadSubmissions w).insert submission_id submission := by
        unfold loadSubmissions
        rw [storage_eq]
        rfl
      have hkeep : ∀ id' bounty', BountyInv d w id' bounty' → BountyInv d w' id' bounty' := by
        intro id' bounty' hinv
        refine hinv.keep (by simp [storage_eq]) (fun _ _ hwon => hwon.insert hsubmissions ?_)
        intro old hold
        cases (h.fresh_submission next).symm.trans hold
      rw [loadBounties, storage_eq]
      refine Map.forall_insert (fun id' bounty' _ hbounty' => ?_) ?_
      · exact hkeep _ _ (h.bounty_inv id' bounty' hbounty')
      · have hinv := h.bounty_inv id bounty before
        refine hkeep _ _ ⟨hinv.numbered, hinv.sponsor_ne, hinv.undecided, fun hpaid => ?_⟩
        cases opened.symm.trans hpaid
  | @rejected submission_id submission submission' before pending _ _ storage_eq _ _ =>
      have hsubmissions : loadSubmissions w' =
          (loadSubmissions w).insert submission_id submission' := by
        unfold loadSubmissions
        rw [storage_eq]
        rfl
      intro id bounty hbounty
      rw [loadBounties, storage_eq] at hbounty
      refine (h.bounty_inv id bounty hbounty).keep (by simp [storage_eq])
        (fun _ _ hwon => hwon.insert hsubmissions ?_)
      intro old hold
      obtain rfl := Option.some.inj (before.symm.trans hold)
      simp [pending]
  | @accepted id submission_id bounty submission submission' before opened before_submission pending
      accepted of same storage_eq _ _ =>
      have hsubmissions : loadSubmissions w' =
          (loadSubmissions w).insert submission_id submission' := by
        unfold loadSubmissions
        rw [storage_eq]
        rfl
      rw [loadBounties, storage_eq]
      refine Map.forall_insert (fun id' bounty' _ hbounty' => ?_) ?_
      · refine (h.bounty_inv id' bounty' hbounty').keep (by simp [storage_eq])
          (fun _ _ hwon => hwon.insert hsubmissions ?_)
        intro old hold
        obtain rfl := Option.some.inj (before_submission.symm.trans hold)
        simp [pending]
      · have hinv := h.bounty_inv id bounty before
        refine ⟨by simpa [storage_eq] using hinv.numbered, hinv.sponsor_ne,
          fun hne => absurd rfl hne, fun _ => ⟨submission_id, submission', rfl, ?_, ?_, accepted⟩⟩
        · rw [hsubmissions, Finmap.lookup_insert]
        · rw [same.1, of]
  | @refunded id bounty status before opened closed storage_eq _ _ =>
      have hkeep : ∀ id' bounty', BountyInv d w id' bounty' → BountyInv d w' id' bounty' := by
        intro id' bounty' hinv
        refine hinv.keep (by simp [storage_eq]) (fun _ _ hwon => ⟨hwon.1, ?_, hwon.2.2⟩)
        rw [loadSubmissions, storage_eq]
        exact hwon.2.1
      rw [loadBounties, storage_eq]
      refine Map.forall_insert (fun id' bounty' _ hbounty' => ?_) ?_
      · exact hkeep _ _ (h.bounty_inv id' bounty' hbounty')
      · have hinv := h.bounty_inv id bounty before
        refine hkeep _ _ ⟨hinv.numbered, hinv.sponsor_ne, fun _ => ?_, fun hpaid => ?_⟩
        · exact hinv.undecided (by simp [opened])
        · rcases closed with rfl | rfl <;> cases hpaid

/-- A submission that is not rewritten itself keeps what holds of it when an open bounty, or one
that is new, is written. -/
theorem SubmissionInv.keep (h : SubmissionInv d w submission_id submission)
    (hbounties : loadBounties w' = (loadBounties w).insert id bounty)
    (hbefore : ∀ old, (loadBounties w).lookup id = some old → old.status = .Open)
    (hcount : w.storage.scount.getD 0 ≤ w'.storage.scount.getD 0)
    (hindex : ∀ key found, (payloadIndex w).lookup key = some found →
      (payloadIndex w').lookup key = some found) :
    SubmissionInv d w' submission_id submission :=
  ⟨h.numbered.trans hcount, h.hunter_ne, hindex _ _ h.indexed, h.stored_insert hbounties hbefore⟩

theorem Inv.submission_effect (h : Inv d w) (hself : env.self = d.address)
    (heffect : Effect env w w') (submission_id : Nat) (submission : Submission)
    (hsubmission : (loadSubmissions w').lookup submission_id = some submission) :
    SubmissionInv d w' submission_id submission := by
  revert submission_id submission
  cases heffect with
  | @funded id bounty next opened _ _ auth storage_eq _ _ =>
      have hbounties : loadBounties w' = (loadBounties w).insert id bounty := by
        unfold loadBounties
        rw [storage_eq]
        rfl
      intro submission_id submission hsubmission
      rw [loadSubmissions, storage_eq] at hsubmission
      refine (h.submission_inv _ _ hsubmission).keep hbounties ?_ (by simp [storage_eq])
        (by simp [payloadIndex, storage_eq])
      intro old hold
      cases (h.fresh next).symm.trans hold
  | @submitted id submission_id count bounty submission before opened next of pending auth new
      storage_eq _ _ =>
      have hbounties : loadBounties w' =
          (loadBounties w).insert id { bounty with submission_count := count } := by
        unfold loadBounties
        rw [storage_eq]
        rfl
      have hindex : payloadIndex w' =
          (payloadIndex w).insert ⟨id, submission.payload_hash⟩ submission_id := by
        unfold payloadIndex
        rw [storage_eq]
        rfl
      rw [loadSubmissions, storage_eq]
      refine Map.forall_insert (fun submission_id' submission' _ hsubmission' => ?_) ?_
      · refine (h.submission_inv _ _ hsubmission').keep hbounties ?_ (by simp [storage_eq, next]) ?_
        · intro old hold
          obtain rfl := Option.some.inj (before.symm.trans hold)
          exact opened
        · intro key found hfound
          have hne : key ≠ ⟨id, submission.payload_hash⟩ := by
            rintro rfl
            cases new.symm.trans hfound
          rw [hindex, Finmap.lookup_insert_of_ne _ hne, hfound]
      · refine ⟨by simp [storage_eq], hself ▸ ne_self_of_authorized auth, ?_, ?_⟩
        · rw [hindex, of, Finmap.lookup_insert]
        · refine ⟨_, by rw [hbounties, of, Finmap.lookup_insert], fun haccepted => ?_⟩
          cases pending.symm.trans haccepted
  | @rejected submission_id submission submission' before pending rejected same storage_eq _ _ =>
      have hkeep : ∀ submission_id' submission'', SubmissionInv d w submission_id' submission'' →
          SubmissionInv d w' submission_id' submission'' := by
        intro submission_id' submission'' hinv
        refine ⟨by simpa [storage_eq] using hinv.numbered, hinv.hunter_ne, ?_, ?_⟩
        · rw [payloadIndex, storage_eq]
          exact hinv.indexed
        · rw [loadBounties, storage_eq]
          exact hinv.stored
      rw [loadSubmissions, storage_eq]
      refine Map.forall_insert (fun _ _ _ hsubmission' => ?_) ?_
      · exact hkeep _ _ (h.submission_inv _ _ hsubmission')
      · have hinv := h.submission_inv _ _ before
        obtain ⟨stored, hstored, _⟩ := hinv.stored
        obtain ⟨hof, hhunter, hhash⟩ := same
        refine hkeep _ _ ⟨hinv.numbered, by rw [hhunter]; exact hinv.hunter_ne, ?_, ?_⟩
        · rw [hof, hhash]
          exact hinv.indexed
        · refine ⟨stored, by rw [hof]; exact hstored, fun haccepted => ?_⟩
          cases rejected.symm.trans haccepted
  | @accepted id submission_id bounty submission submission' before opened before_submission _ _ of
      same storage_eq _ _ =>
      have hbounties : loadBounties w' = (loadBounties w).insert id { bounty with
          status := .Paid, winning_submission := some submission_id } := by
        unfold loadBounties
        rw [storage_eq]
        rfl
      have hopen : ∀ old, (loadBounties w).lookup id = some old → old.status = .Open := by
        intro old hold
        obtain rfl := Option.some.inj (before.symm.trans hold)
        exact opened
      rw [loadSubmissions, storage_eq]
      refine Map.forall_insert (fun _ _ _ hsubmission' => ?_) ?_
      · exact (h.submission_inv _ _ hsubmission').keep hbounties hopen (by simp [storage_eq])
          (by simp [payloadIndex, storage_eq])
      · have hinv := h.submission_inv _ _ before_submission
        obtain ⟨hof, hhunter, hhash⟩ := same
        refine ⟨by simpa [storage_eq] using hinv.numbered, by rw [hhunter]; exact hinv.hunter_ne,
          ?_, ?_⟩
        · rw [hof, hhash, payloadIndex, storage_eq]
          exact hinv.indexed
        · exact ⟨_, by rw [hbounties, hof, of, Finmap.lookup_insert], fun _ => ⟨rfl, rfl⟩⟩
  | @refunded id bounty status before opened _ storage_eq _ _ =>
      have hbounties : loadBounties w' = (loadBounties w).insert id { bounty with status } := by
        unfold loadBounties
        rw [storage_eq]
        rfl
      intro submission_id submission hsubmission
      rw [loadSubmissions, storage_eq] at hsubmission
      refine (h.submission_inv _ _ hsubmission).keep hbounties ?_ (by simp [storage_eq])
        (by simp [payloadIndex, storage_eq])
      intro old hold
      obtain rfl := Option.some.inj (before.symm.trans hold)
      exact opened

theorem Inv.step (h : Inv d w) (hst : Step P d w a w') : Inv d w' := by
  rcases step_effect hst with ⟨hstorage, _, hbalance⟩ | ⟨env, hself, heffect⟩
  · obtain ⟨storage, balance, sequence, events⟩ := w'
    dsimp only at hstorage
    subst hstorage
    refine ⟨fun id bounty hbounty => ?_, fun id submission hsubmission => ?_, fun token => ?_⟩
    · exact (h.bounty_inv id bounty hbounty).keep le_rfl (fun _ _ hwon => hwon)
    · have hinv := h.submission_inv id submission hsubmission
      exact ⟨hinv.numbered, hinv.hunter_ne, hinv.indexed, hinv.stored⟩
    · exact (h.solvent token).trans (hbalance token)
  · exact ⟨h.bounty_effect hself heffect, h.submission_effect hself heffect,
      h.solvent_effect hself heffect⟩

theorem Inv.genesis (h0 : Genesis w0) : Inv d w0 := by
  have hbounties : loadBounties w0 = ∅ := by
    unfold loadBounties
    rw [h0.storage]
    rfl
  have hsubmissions : loadSubmissions w0 = ∅ := by
    unfold loadSubmissions
    rw [h0.storage]
    rfl
  refine ⟨fun id bounty hbounty => ?_, fun id submission hsubmission => ?_, fun token => ?_⟩
  · rw [hbounties] at hbounty
    cases hbounty
  · rw [hsubmissions] at hsubmission
    cases hsubmission
  · unfold funded
    rw [hbounties]
    exact h0.balance token d.address

theorem Inv.run (h : Inv d w) (hrun : Runs P d w tr w') : Inv d w' :=
  hrun.invariant (I := Inv d) h (fun _ _ _ hI hst => hI.step hst)

/-! ## Decisions and payments -/

/-- The bounty is stored, and no longer open. -/
def Decided (w : State) (id : Nat) (bounty : Bounty) : Prop :=
  (loadBounties w).lookup id = some bounty ∧ bounty.status ≠ .Open

/-- Who is paid with the bounty: the hunter of its winner, or its sponsor. -/
def PaidTo (w : State) (id : Nat) (bounty : Bounty) (dest : Address) : Prop :=
  (bounty.status = .Paid ∧ ∃ submission_id submission,
    Won w id bounty submission_id submission ∧ dest = submission.hunter) ∨
  ((bounty.status = .Expired ∨ bounty.status = .Cancelled) ∧ dest = bounty.sponsor)

/-- The transaction pays the bounty: its record goes from open to decided, and the only transfer out
of the contract takes its amount to the winner or back to the sponsor. -/
structure Tx.Pays (d : Deployment) (x : Tx) (id : Nat) (bounty : Bounty) (dest : Address) :
    Prop where
  opened : ∃ bounty', (loadBounties x.pre).lookup id = some bounty' ∧ bounty'.status = .Open ∧
    bounty = { bounty' with
      status := bounty.status, winning_submission := bounty.winning_submission }
  decided : Decided x.post id bounty
  paid_to : PaidTo x.post id bounty dest
  paid : x.post.transfersOut d.address = [⟨bounty.token, d.address, dest, bounty.amount⟩]

/-- Writing in place of an open or absent bounty adds a decided one or none. -/
theorem decided_insert (hbounties : loadBounties w' = (loadBounties w).insert id bounty)
    (hbefore : ∀ old, (loadBounties w).lookup id = some old → old.status = .Open)
    (id' : Nat) (bounty' : Bounty) :
    Decided w' id' bounty' ↔
      (id' = id ∧ bounty' = bounty ∧ bounty.status ≠ .Open) ∨ Decided w id' bounty' := by
  unfold Decided
  rw [hbounties, Map.lookup_insert_eq_ite]
  by_cases hid : id' = id
  · rw [if_pos hid, hid]
    constructor
    · rintro ⟨hsome, hdecided⟩
      obtain rfl := Option.some.inj hsome
      exact .inl ⟨rfl, rfl, hdecided⟩
    · rintro (⟨_, rfl, hdecided⟩ | ⟨hold, hdecided⟩)
      · exact ⟨rfl, hdecided⟩
      · exact absurd (hbefore _ hold) hdecided
  · rw [if_neg hid]
    constructor
    · exact .inr
    · rintro (⟨heq, _⟩ | h)
      · exact absurd heq hid
      · exact h

/-- Writing an open bounty decides none. -/
theorem decided_insert_open (hbounties : loadBounties w' = (loadBounties w).insert id bounty)
    (hbefore : ∀ old, (loadBounties w).lookup id = some old → old.status = .Open)
    (hopen : bounty.status = .Open) (id' : Nat) (bounty' : Bounty) :
    Decided w' id' bounty' ↔ Decided w id' bounty' := by
  rw [decided_insert hbounties hbefore]
  constructor
  · rintro (⟨_, _, hdecided⟩ | h)
    · exact absurd hopen hdecided
    · exact h
  · exact .inr

/-- Writing a decided bounty decides that one. -/
theorem decided_insert_decided (hbounties : loadBounties w' = (loadBounties w).insert id bounty)
    (hbefore : ∀ old, (loadBounties w).lookup id = some old → old.status = .Open)
    (hdecided : bounty.status ≠ .Open) (id' : Nat) (bounty' : Bounty) :
    Decided w' id' bounty' ↔ (id' = id ∧ bounty' = bounty) ∨ Decided w id' bounty' := by
  rw [decided_insert hbounties hbefore]
  simp only [hdecided, ne_eq, not_false_eq_true, and_true]

/-- **What a step does to the decisions**: it makes none, or it makes one and pays the bounty. -/
theorem Inv.step_decided (h : Inv d w) (hst : Step P d w a w') :
    ((∀ id bounty, Decided w' id bounty ↔ Decided w id bounty) ∧
        w'.transfersOut d.address = []) ∨
      ∃ id bounty dest, Tx.Pays d ⟨w, a, w'⟩ id bounty dest ∧ ∀ id' bounty',
        Decided w' id' bounty' ↔ (id' = id ∧ bounty' = bounty) ∨ Decided w id' bounty' := by
  rcases step_effect hst with ⟨hstorage, hnone, _⟩ | ⟨env, hself, heffect⟩
  · refine .inl ⟨fun id bounty => ?_, hnone⟩
    rw [Decided, Decided, loadBounties, loadBounties, hstorage]
  cases heffect with
  | @funded id bounty next opened _ _ _ storage_eq _ unpaid =>
      have hbounties : loadBounties w' = (loadBounties w).insert id bounty := by
        rw [loadBounties, storage_eq]
        rfl
      refine .inl ⟨decided_insert_open hbounties ?_ opened, hself ▸ unpaid⟩
      intro old hold
      cases (h.fresh next).symm.trans hold
  | @submitted id submission_id count bounty submission before opened _ _ _ _ _ storage_eq _
      unpaid =>
      have hbounties : loadBounties w' =
          (loadBounties w).insert id { bounty with submission_count := count } := by
        rw [loadBounties, storage_eq]
        rfl
      refine .inl ⟨decided_insert_open hbounties ?_ opened, hself ▸ unpaid⟩
      intro old hold
      obtain rfl := Option.some.inj (before.symm.trans hold)
      exact opened
  | rejected _ _ _ _ storage_eq _ unpaid =>
      refine .inl ⟨fun id bounty => ?_, hself ▸ unpaid⟩
      rw [Decided, Decided, loadBounties, loadBounties, storage_eq]
  | @accepted id submission_id bounty submission submission' before opened before_submission _
      accepted of same storage_eq _ paid =>
      have hbounties : loadBounties w' = (loadBounties w).insert id { bounty with
          status := .Paid, winning_submission := some submission_id } := by
        rw [loadBounties, storage_eq]
        rfl
      have hsubmission : (loadSubmissions w').lookup submission_id = some submission' := by
        rw [loadSubmissions, storage_eq]
        exact Finmap.lookup_insert _
      refine .inr ⟨id, _, submission.hunter, ⟨⟨bounty, before, opened, rfl⟩, ⟨?_, by simp⟩, ?_,
        hself ▸ paid⟩, decided_insert_decided hbounties ?_ (by simp)⟩
      · rw [hbounties, Finmap.lookup_insert]
      · exact .inl ⟨rfl, submission_id, submission',
          ⟨rfl, hsubmission, same.1.trans of, accepted⟩, same.2.1.symm⟩
      · intro old hold
        obtain rfl := Option.some.inj (before.symm.trans hold)
        exact opened
  | @refunded id bounty status before opened closed storage_eq _ paid =>
      have hbounties : loadBounties w' = (loadBounties w).insert id { bounty with status } := by
        rw [loadBounties, storage_eq]
        rfl
      have hclosed : status ≠ .Open := by rcases closed with rfl | rfl <;> simp
      refine .inr ⟨id, { bounty with status }, bounty.sponsor, ⟨⟨bounty, before, opened, rfl⟩, ⟨?_, hclosed⟩,
        .inr ⟨closed, rfl⟩, hself ▸ paid⟩, decided_insert_decided hbounties ?_ hclosed⟩
      · rw [hbounties, Finmap.lookup_insert]
      · intro old hold
        obtain rfl := Option.some.inj (before.symm.trans hold)
        exact opened

/-- A decided bounty stays as it is in every run. -/
theorem Decided.run (hdecided : Decided w id bounty) (h : Inv d w) (hrun : Runs P d w tr w') :
    Decided w' id bounty := by
  have hall : Inv d w' ∧ Decided w' id bounty := by
    refine hrun.invariant (I := fun m => Inv d m ∧ Decided m id bounty) ⟨h, hdecided⟩ ?_
    rintro m a m' ⟨hm, hold⟩ hst
    refine ⟨hm.step hst, ?_⟩
    rcases hm.step_decided hst with ⟨hsame, _⟩ | ⟨_, _, _, _, hone⟩
    · exact (hsame id bounty).mpr hold
    · exact (hone id bounty).mpr (.inr hold)
  exact hall.2

/-- Exactly one transaction of the history has paid the bounty, and that one has paid it so. -/
def PaidOnce (d : Deployment) (tr : List Tx) (id : Nat) (bounty : Bounty) : Prop :=
  ∃ before x after dest, tr = before ++ x :: after ∧ x.Pays d id bounty dest ∧
    ∀ y ∈ before ++ after, ∀ bounty' dest', ¬ y.Pays d id bounty' dest'

/-- **Every bounty is paid when it is decided, and only then.** -/
theorem paid_once (h0 : Inv d w0) (hnone : ∀ bounty, ¬ Decided w0 id bounty)
    (h : Runs P d w0 tr w) :
    (∀ bounty, Decided w id bounty → PaidOnce d tr id bounty) ∧
      ((∀ bounty, ¬ Decided w id bounty) → ∀ x ∈ tr, ∀ bounty dest, ¬ x.Pays d id bounty dest) := by
  have honce := h.once (Inv d) (fun m => ∃ bounty, Decided m id bounty)
    (fun x => ∃ bounty dest, Tx.Pays d x id bounty dest) h0 (by simpa using hnone) ?_
  · refine ⟨fun bounty hdecided => ?_, fun hopen x hx bounty dest hpays => ?_⟩
    · obtain ⟨before, x, after, rfl, ⟨bounty', dest, hx⟩, hothers⟩ := honce.1 ⟨bounty, hdecided⟩
      -- the record that was paid is the one that is there now
      obtain ⟨hrun, hst, hrest⟩ := h.around
      have hsame := hx.decided.run ((h0.run hrun).step hst) hrest
      obtain rfl := Option.some.inj (hsame.1.symm.trans hdecided.1)
      refine ⟨before, x, after, dest, rfl, hx, fun y hy bounty' dest' hpays => ?_⟩
      exact hothers y hy ⟨bounty', dest', hpays⟩
    · exact honce.2 (by simpa using hopen) x hx ⟨bounty, dest, hpays⟩
  · intro m a m' hm hst
    have hopen : ∀ {id bounty dest}, Tx.Pays d ⟨m, a, m'⟩ id bounty dest →
        ∀ bounty', ¬ Decided m id bounty' := by
      rintro id bounty dest ⟨⟨before, hbefore, hstatus, _⟩, _, _, _⟩ bounty' hdecided
      obtain rfl := Option.some.inj (hbefore.symm.trans hdecided.1)
      exact hdecided.2 hstatus
    refine ⟨hm.step hst, ?_, ?_⟩
    · rintro ⟨bounty, hdecided⟩
      refine ⟨⟨bounty, hdecided.run hm (Run.single hst)⟩, ?_⟩
      rintro ⟨bounty', dest, hpays⟩
      exact hopen hpays bounty hdecided
    · intro hnot
      constructor
      · rintro ⟨bounty, hdecided⟩
        rcases hm.step_decided hst with ⟨hsame, _⟩ | ⟨id', bounty', dest, hpays, hone⟩
        · exact absurd ⟨bounty, (hsame id bounty).mp hdecided⟩ hnot
        · rcases (hone id bounty).mp hdecided with ⟨rfl, rfl⟩ | hold
          · exact ⟨bounty, dest, hpays⟩
          · exact absurd ⟨bounty, hold⟩ hnot
      · rintro ⟨bounty, dest, hpays⟩
        exact ⟨bounty, hpays.decided⟩

/-- How the submissions of a bounty stand to its status: one is accepted, the winner, if it is
`Paid`, and otherwise none. -/
structure Concluded (w : State) (id : Nat) (bounty : Bounty) : Prop where
  paid : bounty.status = .Paid → ∃ submission_id submission,
    Won w id bounty submission_id submission ∧ ∀ other found,
      (loadSubmissions w).lookup other = some found → found.bounty_id = id →
        found.status = .Accepted → other = submission_id
  unpaid : bounty.status ≠ .Paid → bounty.winning_submission = none ∧ ∀ other found,
    (loadSubmissions w).lookup other = some found → found.bounty_id = id →
      found.status ≠ .Accepted

theorem Inv.concluded (h : Inv d w) (hbounty : (loadBounties w).lookup id = some bounty) :
    Concluded w id bounty := by
  have haccepted : ∀ other found, (loadSubmissions w).lookup other = some found →
      found.bounty_id = id → found.status = .Accepted →
        bounty.status = .Paid ∧ bounty.winning_submission = some other := by
    intro other found hfound hof hstatus
    obtain ⟨bounty', hbounty', hpaid⟩ := (h.submission_inv other found hfound).stored
    rw [hof] at hbounty'
    obtain rfl := Option.some.inj (hbounty.symm.trans hbounty')
    exact hpaid hstatus
  have hinv := h.bounty_inv id bounty hbounty
  refine ⟨fun hpaid => ?_, fun hunpaid => ⟨hinv.undecided hunpaid, ?_⟩⟩
  · obtain ⟨submission_id, submission, hwon⟩ := hinv.won hpaid
    refine ⟨submission_id, submission, hwon, fun other found hfound hof hstatus => ?_⟩
    have hwinner := (haccepted other found hfound hof hstatus).2
    exact Option.some.inj (hwinner.symm.trans hwon.1)
  · intro other found hfound hof hstatus
    exact hunpaid (haccepted other found hfound hof hstatus).1

/-- No two submissions of a bounty have the same payload. -/
theorem Inv.payload_unique (h : Inv d w) {other : Nat} {found : Submission}
    (hsubmission : (loadSubmissions w).lookup submission_id = some submission)
    (hfound : (loadSubmissions w).lookup other = some found)
    (hof : found.bounty_id = submission.bounty_id)
    (hpayload : found.payload_hash = submission.payload_hash) : other = submission_id := by
  have hfirst := (h.submission_inv _ _ hsubmission).indexed
  have hsecond := (h.submission_inv _ _ hfound).indexed
  rw [hof, hpayload] at hsecond
  exact Option.some.inj (hsecond.symm.trans hfirst)

/-- **Bounty conservation.** In every reachable state the balance of the contract covers, for every
token, the amounts of the open bounties. An open bounty has not been paid; a decided one was paid by
exactly one transaction, to the hunter of its only accepted submission or, with none accepted, to
its sponsor, and is as it was then. Nothing else leaves the contract, and the submissions of a
bounty differ in their payloads. -/
theorem bounty_conservation (h0 : Genesis w0) (h : Runs P d w0 tr w) :
    (∀ token, funded w token ≤ w.balance token d.address) ∧
      (∀ id bounty, (loadBounties w).lookup id = some bounty →
        (bounty.status = .Open → ∀ x ∈ tr, ∀ bounty' dest, ¬ x.Pays d id bounty' dest) ∧
          (bounty.status ≠ .Open → PaidOnce d tr id bounty) ∧ Concluded w id bounty) ∧
      (∀ x ∈ tr, x.post.transfersOut d.address = [] ∨ ∃ id bounty dest, x.Pays d id bounty dest) ∧
      (∀ x ∈ tr, ∀ id bounty, (loadBounties x.pre).lookup id = some bounty →
        bounty.status ≠ .Open → (loadBounties w).lookup id = some bounty) ∧
      ∀ one other submission found, (loadSubmissions w).lookup one = some submission →
        (loadSubmissions w).lookup other = some found → found.bounty_id = submission.bounty_id →
          found.payload_hash = submission.payload_hash → other = one := by
  have hinv0 : Inv d w0 := Inv.genesis h0
  have hinv : Inv d w := hinv0.run h
  have hnone : ∀ id bounty, ¬ Decided w0 id bounty := by
    rintro id bounty ⟨hbounty, _⟩
    rw [loadBounties, h0.storage] at hbounty
    cases hbounty
  refine ⟨hinv.solvent, fun id bounty hbounty => ⟨fun hopen => ?_, fun hdecided => ?_,
    hinv.concluded hbounty⟩, fun x hx => ?_, fun x hx id bounty hbounty hdecided => ?_,
    fun one other submission found hone hother => hinv.payload_unique hone hother⟩
  · refine (paid_once hinv0 (hnone id) h).2 (fun bounty' hdecided => ?_)
    obtain rfl := Option.some.inj (hbounty.symm.trans hdecided.1)
    exact hdecided.2 hopen
  · exact (paid_once hinv0 (hnone id) h).1 bounty ⟨hbounty, hdecided⟩
  · obtain ⟨xs, ys, _, hrun, hst, _⟩ := h.of_mem hx
    rcases (hinv0.run hrun).step_decided hst with ⟨_, hunpaid⟩ | ⟨id, bounty, dest, hpays, _⟩
    · exact .inl hunpaid
    · exact .inr ⟨id, bounty, dest, hpays⟩
  · obtain ⟨xs, ys, _, hrun, hst, hrest⟩ := h.of_mem hx
    have hpre : Inv d x.pre := hinv0.run hrun
    have hpost : Decided x.post id bounty :=
      Decided.run ⟨hbounty, hdecided⟩ hpre (Run.single hst)
    exact (hpost.run (hpre.step hst) hrest).1

end

/-! ## Two bounties on the local network -/

section

open LocalNet

/-- A fresh oracle on the local network. -/
def deployment : State := start Event Storage.fresh

theorem deployment_genesis : Genesis deployment := by
  refine ⟨rfl, fun token holder => ?_⟩
  show 0 ≤ (if holder = contract then (0 : Int) else 1000)
  split <;> omega

abbrev Line := Move platform deployed Call

/-- Account 1 funds a bounty with `amount`, until ledger 200, with account 3 as verifier. -/
def funds (amount : Int) : Line :=
  signed [account 1] (.createBounty (account 1) token amount (account 4) (zeros 32) (account 3) 200)

/-- Account 2 submits the payload to bounty `id`. -/
def submits (id : Nat) : Line :=
  signed [account 2] (.submitPayload (account 2) id (zeros 32) (zeros 32) (zeros 32))

/-- The first of two bounties is paid; the second expires and is closed by a stranger. -/
def twoBounties : List Line := [
  funds 30, funds 50, submits 1, submits 2,
  signed [account 3] (.acceptSubmission (account 3) 1 1 (zeros 32)),
  .wait 150,
  signed [stranger] (.closeExpired 2),
  signed [account 3] (.rejectSubmission (account 3) 2 2)]

theorem bounty_conservation_two_bounties :
    (∀ token, funded (oracle.outcome deployment twoBounties) token
        ≤ (oracle.outcome deployment twoBounties).balance token deployed.address) ∧
      (∀ id bounty, (loadBounties (oracle.outcome deployment twoBounties)).lookup id = some bounty →
        (bounty.status = .Open → ∀ x ∈ oracle.history deployment twoBounties, ∀ bounty' dest,
          ¬ Tx.Pays deployed x id bounty' dest) ∧
        (bounty.status ≠ .Open →
          PaidOnce deployed (oracle.history deployment twoBounties) id bounty) ∧
        Concluded (oracle.outcome deployment twoBounties) id bounty) ∧
      (∀ x ∈ oracle.history deployment twoBounties, x.post.transfersOut deployed.address = [] ∨
        ∃ id bounty dest, Tx.Pays deployed x id bounty dest) ∧
      (∀ x ∈ oracle.history deployment twoBounties, ∀ id bounty,
        (loadBounties x.pre).lookup id = some bounty → bounty.status ≠ .Open →
          (loadBounties (oracle.outcome deployment twoBounties)).lookup id = some bounty) ∧
      ∀ one other submission found,
        (loadSubmissions (oracle.outcome deployment twoBounties)).lookup one = some submission →
        (loadSubmissions (oracle.outcome deployment twoBounties)).lookup other = some found →
        found.bounty_id = submission.bounty_id →
        found.payload_hash = submission.payload_hash → other = one :=
  bounty_conservation deployment_genesis (Contract.script_runs twoBounties (by decide +kernel))

/-- The hunter has the first amount, the sponsor the second one back. -/
example : (oracle.outcome deployment twoBounties).balance token (account 2) = 1030 ∧
    (oracle.outcome deployment twoBounties).balance token (account 1) = 970 ∧
    (oracle.outcome deployment twoBounties).balance token contract = 0 := by decide +kernel

end

end StellarAgent.BugBountyOracle
