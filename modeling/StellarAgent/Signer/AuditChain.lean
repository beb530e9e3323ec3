import StellarAgent.Lib.Runs
import StellarAgent.Signer.Canonical

set_option autoImplicit false

/-! # The audit chain is tamper evident

A log is its chain state and what it has appended. Its runs are any calls of `record`, each
appended or refused by the sink without a trace, and any resumptions from the log's own number
and head. Every run leaves a list that `verify_chain` accepts.

Conversely an accepted list is determined by where it starts and the hash it ends with: from the
end backwards, equal hashes make equal records, and equal records carry equal hashes of the
records before them.
-/

namespace StellarAgent.Signer

open Lib Soroban

/-! ## Runs of a log -/

structure AuditLog where
  chain : ChainState
  appended : List AuditRecord

/-- `AuditLog::new`, before anything is recorded. -/
def AuditLog.new : AuditLog where
  chain := ChainState.fresh
  appended := []

inductive LogAction where
  /-- a call of `record`, with what the sink answers -/
  | record (pending : PendingRecord) (written : Except String Unit)
  /-- `resuming` from the log's own number and head -/
  | resume

def AuditLog.after (sha256 : Bytes → BytesN 32) (log : AuditLog) : LogAction → AuditLog
  | .record pending written =>
      let (answer, chain) := log.chain.record sha256 pending written
      match answer with
      | .ok record => { chain, appended := log.appended ++ [record] }
      | .error _ => { log with chain }
  | .resume => { log with chain := ChainState.resuming log.chain.seq log.chain.head }

/-- A step of a log. -/
def LogStep (sha256 : Bytes → BytesN 32) (log : AuditLog) (action : LogAction) (log' : AuditLog) :
    Prop := log' = log.after sha256 action

variable {sha256 : Bytes → BytesN 32}

/-- The record that the log makes is the one its chain waits for. -/
theorem ChainState.next_links (sha256 : Bytes → BytesN 32) (state : ChainState)
    (pending : PendingRecord) :
    (state.next sha256 pending).seq = state.seq ∧
      (state.next sha256 pending).prev_hash = state.head ∧
      (state.next sha256 pending).computeHash sha256 = (state.next sha256 pending).hash :=
  ⟨rfl, rfl, rfl⟩

/-- The appended records are linked from the start, and the chain state is at their end. -/
structure AuditLog.Linked (sha256 : Bytes → BytesN 32) (log : AuditLog) : Prop where
  verified : verifyFrom sha256 GENESIS_HASH 0 log.appended = .ok ()
  seq_eq : log.chain.seq = log.appended.length
  head_eq : log.chain.head = lastHash GENESIS_HASH log.appended

theorem AuditLog.new_linked : AuditLog.new.Linked sha256 := ⟨rfl, rfl, rfl⟩

theorem AuditLog.Linked.after {log : AuditLog} (h : log.Linked sha256) (action : LogAction) :
    (log.after sha256 action).Linked sha256 := by
  cases action with
  | record pending written =>
      cases written with
      | error error => exact h
      | ok _ =>
          have hnext := log.chain.next_links sha256 pending
          refine ⟨?_, ?_, ?_⟩
          · show verifyFrom sha256 GENESIS_HASH 0
              (log.appended ++ [log.chain.next sha256 pending]) = .ok ()
            rw [verifyFrom_append, verifyFrom_cons, zero_add, ← h.seq_eq, ← h.head_eq]
            exact ⟨h.verified, hnext.1, hnext.2.1, hnext.2.2, rfl⟩
          · show log.chain.seq + 1 = (log.appended ++ [log.chain.next sha256 pending]).length
            rw [List.length_append, List.length_singleton, h.seq_eq]
          · show (log.chain.next sha256 pending).hash
              = lastHash GENESIS_HASH (log.appended ++ [log.chain.next sha256 pending])
            rw [lastHash_append_singleton]
  | resume => exact ⟨h.verified, h.seq_eq, h.head_eq⟩

/-- A list that is linked from the start is accepted. -/
theorem verifyChain_of_verifyFrom {records : List AuditRecord}
    (h : verifyFrom sha256 GENESIS_HASH 0 records = .ok ()) :
    verifyChain sha256 records = .ok () := by
  cases records with
  | nil => rfl
  | cons record records =>
      have hseq : record.seq = 0 := (verifyFrom_cons.mp h).1
      show verifyFrom sha256 GENESIS_HASH record.seq (record :: records) = .ok ()
      rw [hseq]
      exact h

theorem log_run_linked {log : AuditLog} {tr : List (Transition AuditLog LogAction)}
    (h : Run (LogStep sha256) AuditLog.new tr log) : log.Linked sha256 := by
  refine h.invariant AuditLog.new_linked ?_
  intro m action m' hlinked hstep
  rw [hstep]
  exact hlinked.after action

/-! ## An accepted list is determined by its ends -/

/-- SHA-256 tells the records of the list apart. -/
def HashesApart (sha256 : Bytes → BytesN 32) (records : List AuditRecord) : Prop :=
  Set.InjOn sha256 {bytes | ∃ record ∈ records, record.hashInput = bytes}

theorem HashesApart.mono {xs ys : List AuditRecord} (h : HashesApart sha256 ys) (hsub : xs ⊆ ys) :
    HashesApart sha256 xs := by
  refine Set.InjOn.mono ?_ h
  rintro bytes ⟨record, hrecord, hbytes⟩
  exact ⟨record, hsub hrecord, hbytes⟩

/-- The hash that a record carries is as long as any hash. -/
theorem lastHash_length {records : List AuditRecord} {previous_hash : String} {seq : Nat}
    (h : verifyFrom sha256 previous_hash seq records = .ok ())
    (hprevious : previous_hash.toList.length = 64) :
    (lastHash previous_hash records).toList.length = 64 := by
  induction records generalizing previous_hash seq with
  | nil => exact hprevious
  | cons record records ih =>
      obtain ⟨_, _, hhash, hrest⟩ := verifyFrom_cons.mp h
      rw [lastHash_cons]
      refine ih hrest ?_
      rw [← hhash, computeHash_length]

theorem bytesN_ext {n : Nat} {x y : BytesN n} (h : x.bytes = y.bytes) : x = y := by
  cases x
  cases y
  simp_all

/-- Two records with the same hash are equal. -/
theorem record_eq_of_hash {r s : AuditRecord}
    (hapart : sha256 r.hashInput = sha256 s.hashInput → r.hashInput = s.hashInput)
    (hr : r.computeHash sha256 = r.hash) (hs : s.computeHash sha256 = s.hash)
    (hlength : r.prev_hash.toList.length = s.prev_hash.toList.length) (h : r.hash = s.hash) :
    r = s := by
  have hbytes : (sha256 r.hashInput).bytes = (sha256 s.hashInput).bytes := by
    refine hexEncode_injective ?_
    show r.computeHash sha256 = s.computeHash sha256
    rw [hr, hs, h]
  have hinput : r.hashInput = s.hashInput := hapart (bytesN_ext hbytes)
  have hunhashed : r.unhashed = s.unhashed := hashInput_inj hlength hinput
  calc r = { r.unhashed with hash := r.hash } := rfl
    _ = { s.unhashed with hash := s.hash } := by rw [hunhashed, h]
    _ = s := rfl

/-- The last record of an accepted list is linked to those before it. -/
theorem verifyFrom_last {records : List AuditRecord} {record : AuditRecord} {seq : Nat}
    (h : verifyFrom sha256 GENESIS_HASH seq (records ++ [record]) = .ok ()) :
    verifyFrom sha256 GENESIS_HASH seq records = .ok () ∧
      record.prev_hash = lastHash GENESIS_HASH records ∧
      record.computeHash sha256 = record.hash := by
  rw [verifyFrom_append, verifyFrom_cons] at h
  exact ⟨h.1, h.2.2.1, h.2.2.2.1⟩

/-- Linked lists with the same last hash are equal, whatever number they start with. -/
theorem verifyFrom_unique {xs ys : List AuditRecord} {m n : Nat}
    (hxs : verifyFrom sha256 GENESIS_HASH m xs = .ok ())
    (hys : verifyFrom sha256 GENESIS_HASH n ys = .ok ())
    (hapart : HashesApart sha256 (xs ++ ys))
    (hgenesis : ∀ record ∈ xs ++ ys, record.computeHash sha256 ≠ GENESIS_HASH)
    (hlast : lastHash GENESIS_HASH xs = lastHash GENESIS_HASH ys) : xs = ys := by
  -- from the end backwards: the last records are equal, so their links are
  induction xs using List.reverseRecOn generalizing ys with
  | nil =>
      cases ys using List.reverseRecOn with
      | nil => rfl
      | append_singleton ys y =>
          have hy := (verifyFrom_last hys).2.2
          rw [lastHash_nil, lastHash_append_singleton, ← hy] at hlast
          exact absurd hlast.symm (hgenesis y (by simp))
  | append_singleton xs x ih =>
      obtain ⟨hxs', hxlink, hx⟩ := verifyFrom_last hxs
      cases ys using List.reverseRecOn with
      | nil =>
          rw [lastHash_nil, lastHash_append_singleton, ← hx] at hlast
          exact absurd hlast (hgenesis x (by simp))
      | append_singleton ys y =>
          obtain ⟨hys', hylink, hy⟩ := verifyFrom_last hys
          rw [lastHash_append_singleton, lastHash_append_singleton] at hlast
          have hlength : x.prev_hash.toList.length = y.prev_hash.toList.length := by
            rw [hxlink, hylink, lastHash_length hxs' genesis_length,
              lastHash_length hys' genesis_length]
          have hxy : x = y := by
            refine record_eq_of_hash ?_ hx hy hlength hlast
            exact hapart ⟨x, by simp, rfl⟩ ⟨y, by simp, rfl⟩
          have hsub : xs ++ ys ⊆ xs ++ [x] ++ (ys ++ [y]) := by
            intro record hrecord
            rcases List.mem_append.mp hrecord with hmem | hmem
            · simp [hmem]
            · simp [hmem]
          have hrest : xs = ys := by
            refine ih hxs' hys' (hapart.mono hsub) (fun r hr => hgenesis r (hsub hr)) ?_
            rw [← hxlink, ← hylink, hxy]
          rw [hrest, hxy]

/-- **Tamper evidence.** Whatever a log is asked to record, however often the sink refuses a line
and the log is resumed from its own number and head, what it has appended is accepted. And of all
lists that are accepted only one ends with a given hash. -/
theorem audit_chain_tamper_evident (sha256 : Bytes → BytesN 32) :
    (∀ (tr : List (Transition AuditLog LogAction)) (log : AuditLog),
      Run (LogStep sha256) AuditLog.new tr log → verifyChain sha256 log.appended = .ok ()) ∧
    (∀ xs ys : List AuditRecord,
      verifyChain sha256 xs = .ok () → verifyChain sha256 ys = .ok () →
      HashesApart sha256 (xs ++ ys) →
      (∀ record ∈ xs ++ ys, record.computeHash sha256 ≠ GENESIS_HASH) →
      (xs.head?.map AuditRecord.seq).getD 0 = (ys.head?.map AuditRecord.seq).getD 0 →
      lastHash GENESIS_HASH xs = lastHash GENESIS_HASH ys → xs = ys) := by
  constructor
  · intro tr log hrun
    exact verifyChain_of_verifyFrom (log_run_linked hrun).verified
  · intro xs ys hxs hys hapart hgenesis _ hlast
    exact verifyFrom_unique hxs hys hapart hgenesis hlast

/-! ## An edited record -/

def samplePending : PendingRecord where
  at_time := 7
  request_id := "r-1"
  subject := some "agent"
  token_id := none
  key := none
  policy := none
  operation := .PublicKey
  request := RequestSummary.default
  outcome := .Refused "internal" []

/-- A digest whose bytes are all the same. -/
def digestOf (byte : UInt8) : BytesN 32 where
  bytes := List.replicate 32 byte
  length_eq := List.length_replicate

/-- A hash function that knows one text. -/
def hashKnowing (known bytes : Bytes) : BytesN 32 :=
  if bytes = known then digestOf 1 else digestOf 2

theorem hashKnowing_ne_genesis (known bytes : Bytes) :
    hexEncode (hashKnowing known bytes).bytes ≠ GENESIS_HASH := by
  unfold hashKnowing
  by_cases h : bytes = known
  · rw [if_pos h]
    decide
  · rw [if_neg h]
    decide

theorem hashKnowing_inj {known bytes : Bytes}
    (h : hashKnowing known bytes = hashKnowing known known) : bytes = known := by
  by_contra hne
  rw [hashKnowing, if_neg hne, hashKnowing, if_pos rfl] at h
  exact absurd h (by decide)

/-- The first record of a log, with the bytes that its hash was made of. -/
def sampleInput : Bytes := (ChainState.fresh.next (fun _ => digestOf 0) samplePending).hashInput

def sampleRecord : AuditRecord := ChainState.fresh.next (hashKnowing sampleInput) samplePending

/-- What is hashed does not depend on the hash. -/
theorem next_hashInput (f g : Bytes → BytesN 32) (state : ChainState) (pending : PendingRecord) :
    (state.next f pending).hashInput = (state.next g pending).hashInput := rfl

theorem sampleRecord_hashInput : sampleRecord.hashInput = sampleInput :=
  next_hashInput _ _ ChainState.fresh samplePending

/-- The log's first record is accepted; the same record with another time is not. -/
theorem audit_chain_tamper_evident_edit :
    verifyChain (hashKnowing sampleInput) [sampleRecord] = .ok () ∧
      verifyChain (hashKnowing sampleInput) [{ sampleRecord with at_time := 8 }] ≠ .ok () := by
  obtain ⟨hruns, hunique⟩ := audit_chain_tamper_evident (hashKnowing sampleInput)
  have hrun : Run (LogStep (hashKnowing sampleInput)) AuditLog.new
      [⟨AuditLog.new, .record samplePending (.ok ()), ⟨⟨1, sampleRecord.hash⟩, [sampleRecord]⟩⟩]
      ⟨⟨1, sampleRecord.hash⟩, [sampleRecord]⟩ := Run.single rfl
  have haccepted := hruns _ _ hrun
  refine ⟨haccepted, fun hedited => ?_⟩
  have hapart : HashesApart (hashKnowing sampleInput)
      ([sampleRecord] ++ [{ sampleRecord with at_time := 8 }]) := by
    rintro _ ⟨r, hr, rfl⟩ _ ⟨s, hs, rfl⟩ h
    simp only [List.cons_append, List.nil_append, List.mem_cons, List.not_mem_nil, or_false]
      at hr hs
    rcases hr with rfl | rfl
    · rw [sampleRecord_hashInput] at h ⊢
      exact (hashKnowing_inj h.symm).symm
    · rcases hs with rfl | rfl
      · rw [sampleRecord_hashInput] at h ⊢
        exact hashKnowing_inj h
      · rfl
  have hsame := hunique _ _ haccepted hedited hapart
    (fun record _ => hashKnowing_ne_genesis _ _) rfl rfl
  have htime : (7 : Nat) = 8 := congrArg (fun records => records.head?.elim 0 AuditRecord.at_time)
    hsame
  exact absurd htime (by decide)

end StellarAgent.Signer
