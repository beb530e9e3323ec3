import StellarAgent.Lib.Json
import StellarAgent.Signer.Error
import StellarAgent.Soroban.Host

set_option autoImplicit false

/-! # The audit log

`services/signer/src/audit.rs`: every request appends one record, and each record carries the
hash of the one before it. `verify_chain` walks a list of records and checks their numbers, their
links and their hashes.

What is hashed is the text that `serde_json` writes for the record: the fields in the order of the
declaration, absent options and empty lists skipped, the outcome flattened into the record.
`seq` is a `u64` that is never wrapped (the release profile checks overflow); it is a natural
number here. Encoding a record cannot fail.
-/

namespace StellarAgent.Signer

open Lib Soroban

/-! ## Text, bytes and hashes -/

/-- The bytes of a text. -/
def utf8 (text : List Char) : Bytes := text.flatMap String.utf8EncodeChar

/-- `hex::encode` -/
def hexEncode (bytes : Bytes) : String :=
  String.ofList (bytes.flatMap fun b =>
    [Nat.digitChar (b.toNat / 16), Nat.digitChar (b.toNat % 16)])

def GENESIS_HASH : String := String.ofList (List.replicate 64 '0')

/-! ## Records -/

inductive Operation where
  | PublicKey
  | SignTransaction
  | SignAuthEntry
  deriving DecidableEq

inductive Outcome where
  | Signed (payload_sha256 signature : String)
  | Refused (reason : String) (violations : List Violation)
  deriving DecidableEq

structure RequestSummary where
  network : Option String
  source_account : Option String
  envelope_sha256 : Option String
  calls : List String
  total_amount_stroops : Option String
  deriving DecidableEq

/-- `RequestSummary::default` -/
def RequestSummary.default : RequestSummary where
  network := none
  source_account := none
  envelope_sha256 := none
  calls := []
  total_amount_stroops := none

structure AuditRecord where
  seq : Nat
  at_time : Nat
  request_id : String
  subject : Option String
  token_id : Option String
  key : Option String
  policy : Option String
  operation : Operation
  request : RequestSummary
  outcome : Outcome
  prev_hash : String
  hash : String
  deriving DecidableEq

/-- What the service fills in; the log supplies the rest. -/
structure PendingRecord where
  at_time : Nat
  request_id : String
  subject : Option String
  token_id : Option String
  key : Option String
  policy : Option String
  operation : Operation
  request : RequestSummary
  outcome : Outcome
  deriving DecidableEq

/-! ## Canonical JSON -/

/-- `skip_serializing_if = "Option::is_none"` -/
def optionField (name : String) (value : Option String) : List (String × Json) :=
  match value with
  | none => []
  | some text => [(name, .str text)]

/-- `skip_serializing_if = "Vec::is_empty"` -/
def listField (name : String) (values : List Json) : List (String × Json) :=
  if values = [] then [] else [(name, .arr values)]

/-- `rename_all = "snake_case"` -/
def Operation.toJson : Operation → Json
  | .PublicKey => .str "public_key"
  | .SignTransaction => .str "sign_transaction"
  | .SignAuthEntry => .str "sign_auth_entry"

def Violation.toJson (v : Violation) : Json :=
  .obj [("rule", .str v.rule), ("detail", .str v.detail)]

/-- The fields of an outcome, after its tag. -/
def Outcome.fields : Outcome → List (String × Json)
  | .Signed payload_sha256 signature => [
      ("outcome", .str "signed"),
      ("payload_sha256", .str payload_sha256),
      ("signature", .str signature)]
  | .Refused reason violations =>
      [("outcome", .str "refused"), ("reason", .str reason)] ++
        listField "violations" (violations.map Violation.toJson)

def RequestSummary.toJson (s : RequestSummary) : Json :=
  .obj (optionField "network" s.network ++ optionField "source_account" s.source_account ++
    optionField "envelope_sha256" s.envelope_sha256 ++ listField "calls" (s.calls.map .str) ++
    optionField "total_amount_stroops" s.total_amount_stroops)

def AuditRecord.fields (r : AuditRecord) : List (String × Json) :=
  [("seq", .num r.seq), ("at", .num r.at_time), ("request_id", .str r.request_id)] ++
    optionField "subject" r.subject ++ optionField "token_id" r.token_id ++
    optionField "key" r.key ++ optionField "policy" r.policy ++
    [("operation", r.operation.toJson), ("request", r.request.toJson)] ++ r.outcome.fields ++
    [("prev_hash", .str r.prev_hash), ("hash", .str r.hash)]

/-- `serde_json::to_string` of a record. -/
def AuditRecord.line (r : AuditRecord) : List Char := (Json.obj r.fields).render

/-- The record that is hashed: the same, with the hash blanked. -/
def AuditRecord.unhashed (r : AuditRecord) : AuditRecord := { r with hash := "" }

/-- The bytes that `compute_hash` feeds to SHA-256. -/
def AuditRecord.hashInput (r : AuditRecord) : Bytes :=
  utf8 r.prev_hash.toList ++ utf8 r.unhashed.line

/-- `compute_hash` -/
def AuditRecord.computeHash (sha256 : Bytes → BytesN 32) (r : AuditRecord) : String :=
  hexEncode (sha256 r.hashInput).bytes

/-! ## The log -/

structure ChainState where
  seq : Nat
  head : String
  deriving DecidableEq

/-- `AuditLog::new` -/
def ChainState.fresh : ChainState where
  seq := 0
  head := GENESIS_HASH

/-- `AuditLog::resuming` -/
def ChainState.resuming (seq : Nat) (head : String) : ChainState where
  seq
  head

/-- The record that the log makes of a pending one. -/
def ChainState.next (sha256 : Bytes → BytesN 32) (state : ChainState) (pending : PendingRecord) :
    AuditRecord :=
  let record : AuditRecord := {
    seq := state.seq, at_time := pending.at_time, request_id := pending.request_id
    subject := pending.subject, token_id := pending.token_id, key := pending.key
    policy := pending.policy, operation := pending.operation, request := pending.request
    outcome := pending.outcome, prev_hash := state.head, hash := "" }
  { record with hash := record.computeHash sha256 }

/-- `AuditLog::record`, when the sink answers `written` to the line of the record. The chain moves
on only if the sink reports success. -/
def ChainState.record (sha256 : Bytes → BytesN 32) (state : ChainState) (pending : PendingRecord)
    (written : Except String Unit) : Except String AuditRecord × ChainState :=
  let record := state.next sha256 pending
  match written with
  | .error error => (.error error, state)
  | .ok () => (.ok record, { seq := state.seq + 1, head := record.hash })

/-! ## Verification -/

inductive ChainError where
  | HashMismatch (seq : Nat)
  | BrokenLink (seq expected_seq : Nat)
  | SequenceGap (seq expected : Nat)
  deriving DecidableEq

/-- The loop of `verify_chain`. -/
def verifyFrom (sha256 : Bytes → BytesN 32) (previous_hash : String) (expected_seq : Nat) :
    List AuditRecord → Except ChainError Unit
  | [] => .ok ()
  | record :: records =>
      if record.seq ≠ expected_seq then .error (.SequenceGap record.seq expected_seq)
      else if record.prev_hash ≠ previous_hash then
        .error (.BrokenLink record.seq (expected_seq - 1))
      else if record.computeHash sha256 ≠ record.hash then .error (.HashMismatch record.seq)
      else verifyFrom sha256 record.hash (expected_seq + 1) records

/-- `verify_chain` -/
def verifyChain (sha256 : Bytes → BytesN 32) (records : List AuditRecord) :
    Except ChainError Unit :=
  verifyFrom sha256 GENESIS_HASH ((records.head?.map AuditRecord.seq).getD 0) records

section

variable {sha256 : Bytes → BytesN 32} {previous_hash : String} {expected_seq : Nat}
  {record : AuditRecord} {records xs ys : List AuditRecord}

@[simp] theorem verifyFrom_nil : verifyFrom sha256 previous_hash expected_seq [] = .ok () := rfl

theorem verifyFrom_cons :
    verifyFrom sha256 previous_hash expected_seq (record :: records) = .ok () ↔
      record.seq = expected_seq ∧ record.prev_hash = previous_hash ∧
        record.computeHash sha256 = record.hash ∧
        verifyFrom sha256 record.hash (expected_seq + 1) records = .ok () := by
  rw [verifyFrom]
  by_cases hseq : record.seq = expected_seq
  · rw [if_neg (not_not.mpr hseq)]
    by_cases hlink : record.prev_hash = previous_hash
    · rw [if_neg (not_not.mpr hlink)]
      by_cases hhash : record.computeHash sha256 = record.hash
      · rw [if_neg (not_not.mpr hhash)]
        simp [hseq, hlink, hhash]
      · simp [hhash]
    · simp [hlink]
  · simp [hseq]

/-- The hash that the next record has to carry. -/
def lastHash (previous_hash : String) (records : List AuditRecord) : String :=
  (records.getLast?.map AuditRecord.hash).getD previous_hash

@[simp] theorem lastHash_nil : lastHash previous_hash [] = previous_hash := rfl

@[simp] theorem lastHash_append_singleton :
    lastHash previous_hash (records ++ [record]) = record.hash := by
  simp [lastHash]

theorem lastHash_cons : lastHash previous_hash (record :: records) = lastHash record.hash records := by
  cases records with
  | nil => rfl
  | cons r rs => simp [lastHash, List.getLast?_cons]

/-- A chain can be walked in two parts. -/
theorem verifyFrom_append :
    verifyFrom sha256 previous_hash expected_seq (xs ++ ys) = .ok () ↔
      verifyFrom sha256 previous_hash expected_seq xs = .ok () ∧
        verifyFrom sha256 (lastHash previous_hash xs) (expected_seq + xs.length) ys = .ok () := by
  induction xs generalizing previous_hash expected_seq with
  | nil => simp
  | cons x xs ih =>
      rw [List.cons_append, verifyFrom_cons, verifyFrom_cons, ih, lastHash_cons, List.length_cons,
        show expected_seq + 1 + xs.length = expected_seq + (xs.length + 1) by omega]
      simp only [and_assoc]

end

end StellarAgent.Signer
