import StellarAgent.BugBountyOracle.Contract
import StellarAgent.Soroban.Money

set_option autoImplicit false

/-! # What a successful call of the oracle has done

A call that returns funds a bounty, records a submission of an open bounty, rejects a pending
submission, or decides an open bounty and pays it out: to a hunter or back to the sponsor
(`Effect`).
-/

namespace StellarAgent.BugBountyOracle

open Lib Soroban

inductive Effect (env : Env) (w w' : State) : Prop
  | funded {id : Nat} {bounty : Bounty} (next : id = w.storage.bcount.getD 0 + 1)
      (opened : bounty.status = .Open) (undecided : bounty.winning_submission = none)
      (positive : 0 < bounty.amount) (auth : env.authorized bounty.sponsor = true)
      (storage_eq : w'.storage = { w.storage with
        bounties := some ((loadBounties w).insert id bounty), bcount := some id })
      (balance_eq : w'.balance =
        w.balance.move bounty.token bounty.sponsor env.self bounty.amount)
      (unpaid : w'.transfersOut env.self = [])
  | submitted {id submission_id count : Nat} {bounty : Bounty} {submission : Submission}
      (before : (loadBounties w).lookup id = some bounty) (opened : bounty.status = .Open)
      (next : submission_id = w.storage.scount.getD 0 + 1) (of : submission.bounty_id = id)
      (pending : submission.status = .Pending) (auth : env.authorized submission.hunter = true)
      (new : (payloadIndex w).lookup ⟨id, submission.payload_hash⟩ = none)
      (storage_eq : w'.storage = { w.storage with
        bounties := some ((loadBounties w).insert id { bounty with submission_count := count })
        subs := some ((loadSubmissions w).insert submission_id submission)
        scount := some submission_id
        payhash := some ((payloadIndex w).insert ⟨id, submission.payload_hash⟩ submission_id) })
      (balance_eq : w'.balance = w.balance) (unpaid : w'.transfersOut env.self = [])
  | rejected {submission_id : Nat} {submission submission' : Submission}
      (before : (loadSubmissions w).lookup submission_id = some submission)
      (pending : submission.status = .Pending) (rejected : submission'.status = .Rejected)
      (same : submission'.bounty_id = submission.bounty_id ∧
        submission'.hunter = submission.hunter ∧
        submission'.payload_hash = submission.payload_hash)
      (storage_eq : w'.storage = { w.storage with
        subs := some ((loadSubmissions w).insert submission_id submission') })
      (balance_eq : w'.balance = w.balance) (unpaid : w'.transfersOut env.self = [])
  | accepted {id submission_id : Nat} {bounty : Bounty} {submission submission' : Submission}
      (before : (loadBounties w).lookup id = some bounty) (opened : bounty.status = .Open)
      (before_submission : (loadSubmissions w).lookup submission_id = some submission)
      (pending : submission.status = .Pending) (accepted : submission'.status = .Accepted)
      (of : submission.bounty_id = id)
      (same : submission'.bounty_id = submission.bounty_id ∧
        submission'.hunter = submission.hunter ∧
        submission'.payload_hash = submission.payload_hash)
      (storage_eq : w'.storage = { w.storage with
        bounties := some ((loadBounties w).insert id { bounty with
          status := .Paid, winning_submission := some submission_id })
        subs := some ((loadSubmissions w).insert submission_id submission') })
      (balance_eq : w'.balance =
        w.balance.move bounty.token env.self submission.hunter bounty.amount)
      (paid : w'.transfersOut env.self =
        [⟨bounty.token, env.self, submission.hunter, bounty.amount⟩])
  | refunded {id : Nat} {bounty : Bounty} {status : BountyStatus}
      (before : (loadBounties w).lookup id = some bounty) (opened : bounty.status = .Open)
      (closed : status = .Expired ∨ status = .Cancelled)
      (storage_eq : w'.storage = { w.storage with
        bounties := some ((loadBounties w).insert id { bounty with status }) })
      (balance_eq : w'.balance =
        w.balance.move bounty.token env.self bounty.sponsor bounty.amount)
      (paid : w'.transfersOut env.self =
        [⟨bounty.token, env.self, bounty.sponsor, bounty.amount⟩])

section

variable {env : Env} {w w' : State} {id submission_id : Nat}

/-! ## One lemma for each entry point -/

theorem createBounty_ok {sponsor token shadow_contract verifier : Address} {amount : Int}
    {assertion_id : BytesN 32} {deadline_ledger : Nat}
    (h : createBounty env w.quiet sponsor token amount shadow_contract assertion_id verifier
      deadline_ledger = .ok (id, w')) : Effect env w w' := by
  simp only [createBounty, nextBountyId, Result.bind_eq_ok, requireAuth_eq_ok, panicIf_eq_ok,
    World.transfer_eq_ok, checkU64_eq_ok, Result.pure_eq_ok, Prod.exists, Prod.mk.injEq] at h
  obtain ⟨_, hauth, _, hamount, _, _, w1, ⟨_, _, rfl⟩, _, w2, ⟨n, ⟨_, hn⟩, rfl, rfl⟩, rfl, rfl⟩ := h
  have hself : sponsor ≠ env.self := ne_self_of_authorized hauth
  subst hn
  refine .funded rfl rfl rfl (not_le.mp hamount) hauth rfl rfl ?_
  simp [World.transfersOut, saveBounty, World.transfers, HostEvent.transfer?, hself]

theorem submitPayload_ok {hunter : Address} {payload_hash failure_hash metadata_hash : BytesN 32}
    (h : submitPayload env w.quiet hunter id payload_hash failure_hash metadata_hash
      = .ok (submission_id, w')) : Effect env w w' := by
  simp only [submitPayload, nextSubmissionId, Result.bind_eq_ok, requireAuth_eq_ok,
    panicIf_eq_ok, loadBounty_eq_ok, checkU64_eq_ok, Result.pure_eq_ok, Prod.exists,
    Prod.mk.injEq, not_not] at h
  obtain ⟨_, hauth, bounty, hbounty, _, hopen, _, _, _, hnew, _, _, ⟨n, ⟨_, hn⟩, rfl, rfl⟩, count,
    _, rfl, rfl⟩ := h
  subst hn
  exact .submitted hbounty hopen rfl rfl rfl hauth hnew rfl rfl rfl

theorem acceptSubmission_ok {verifier : Address} {verifier_note_hash : BytesN 32}
    (h : acceptSubmission env w.quiet verifier id submission_id verifier_note_hash = .ok w') :
    Effect env w w' := by
  simp only [acceptSubmission, Result.bind_eq_ok, requireAuth_eq_ok, panicIf_eq_ok,
    loadBounty_eq_ok, loadSubmission_eq_ok, World.transfer_eq_ok, Result.pure_eq_ok,
    not_not] at h
  obtain ⟨_, _, bounty, hbounty, _, hopen, _, _, submission, hsubmission, _, hof, _, hpending, _,
    ⟨_, _, rfl⟩, rfl⟩ := h
  refine .accepted hbounty hopen hsubmission hpending ?_ hof ?_ rfl rfl ?_
  · rfl
  · exact ⟨rfl, rfl, rfl⟩
  · simp [World.transfersOut, saveBounty, saveSubmission, World.transfers, HostEvent.transfer?]

theorem rejectSubmission_ok {verifier : Address}
    (h : rejectSubmission env w.quiet verifier id submission_id = .ok w') : Effect env w w' := by
  simp only [rejectSubmission, Result.bind_eq_ok, requireAuth_eq_ok, panicIf_eq_ok,
    loadBounty_eq_ok, loadSubmission_eq_ok, Result.pure_eq_ok, not_not] at h
  obtain ⟨_, _, bounty, _, _, _, submission, hsubmission, _, _, _, hpending, rfl⟩ := h
  refine .rejected hsubmission hpending ?_ ?_ rfl rfl rfl
  · rfl
  · exact ⟨rfl, rfl, rfl⟩

/-- The end of a call that gives the money back. -/
theorem refund_effect {bounty : Bounty} {status : BountyStatus} {event : Event}
    (hbounty : (loadBounties w).lookup id = some bounty) (hopen : bounty.status = .Open)
    (hclosed : status = .Expired ∨ status = .Cancelled) :
    Effect env w ((saveBounty (w.quiet.moved bounty.token env.self bounty.sponsor bounty.amount)
      id { bounty with status }).publish event) := by
  refine .refunded hbounty hopen hclosed rfl rfl ?_
  simp [World.transfersOut, saveBounty, World.transfers, HostEvent.transfer?]

theorem closeExpired_ok (h : closeExpired env w.quiet id = .ok w') : Effect env w w' := by
  simp only [closeExpired, Result.bind_eq_ok, panicIf_eq_ok, loadBounty_eq_ok,
    World.transfer_eq_ok, Result.pure_eq_ok, not_not] at h
  obtain ⟨bounty, hbounty, _, hopen, _, _, _, ⟨_, _, rfl⟩, rfl⟩ := h
  exact refund_effect hbounty hopen (.inl rfl)

theorem cancelBounty_ok {sponsor : Address} (h : cancelBounty env w.quiet sponsor id = .ok w') :
    Effect env w w' := by
  simp only [cancelBounty, Result.bind_eq_ok, requireAuth_eq_ok, panicIf_eq_ok, loadBounty_eq_ok,
    World.transfer_eq_ok, Result.pure_eq_ok, not_not] at h
  obtain ⟨_, _, bounty, hbounty, _, _, _, hopen, _, _, _, ⟨_, _, rfl⟩, rfl⟩ := h
  exact refund_effect hbounty hopen (.inr rfl)

/-- **What a call that returns has done.** -/
theorem exec_effect {call : Call} (h : exec env w.quiet call = .ok w') : Effect env w w' := by
  cases call with
  | createBounty sponsor token amount shadow_contract assertion_id verifier deadline_ledger =>
      simp only [exec, Result.map_eq_ok] at h
      obtain ⟨⟨id, w1⟩, h, rfl⟩ := h
      exact createBounty_ok h
  | submitPayload hunter bounty_id payload_hash failure_hash metadata_hash =>
      simp only [exec, Result.map_eq_ok] at h
      obtain ⟨⟨submission_id, w1⟩, h, rfl⟩ := h
      exact submitPayload_ok h
  | acceptSubmission verifier bounty_id submission_id verifier_note_hash =>
      exact acceptSubmission_ok h
  | rejectSubmission verifier bounty_id submission_id => exact rejectSubmission_ok h
  | closeExpired bounty_id => exact closeExpired_ok h
  | cancelBounty sponsor bounty_id => exact cancelBounty_ok h

end

end StellarAgent.BugBountyOracle
