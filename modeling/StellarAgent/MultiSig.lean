import StellarAgent.Lib.Runs

set_option autoImplicit false

/-! # Collecting signatures offline

`packages/core/src/multi-sig.ts`: copies of a transaction envelope are passed around, signed by one
key after the other and merged, until `enoughSignatures` finds as many signatures as the threshold
asks for. It counts signatures, not signers, and `mergeSignatures` calls the SDK's `addSignature`
without the second of its two arguments, so it fails on every copy that carries a signature.

The SDK's transactions are a parameter: what the hash of a transaction is, how keys sign and verify,
and what `addSignature` does. An XDR text is the envelope that it encodes.
-/

namespace StellarAgent.MultiSig

open Lib

/-! ## The SDK -/

inductive EnvelopeType where
  | txV0
  | tx
  | txFeeBump
  deriving DecidableEq, Repr

/-- `xdr.TransactionEnvelope`: a transaction with its decorated signatures. -/
structure Envelope (T S : Type) where
  type : EnvelopeType
  tx : T
  signatures : List S
  deriving DecidableEq, Repr

/-- What the SDK throws. -/
inductive SdkError where
  /-- `v1()` of an envelope of another type -/
  | notSet
  | invalidSignature
  | invalidPublicKey
  deriving DecidableEq, Repr

/-- The methods of the SDK that the module rests on, for one network: the hash that is signed,
`Keypair.signDecorated`, whether a decorated signature is one of a key, and
`addSignature(publicKey, signature)`, of which the second argument may be missing. -/
structure Sdk (K T H S : Type) where
  hash : EnvelopeType → T → H
  signDecorated : K → H → S
  verify : K → H → S → Bool
  addSignature : Envelope T S → S → Option String → Except SdkError (Envelope T S)

/-- What the documentation of the SDK says: a signature verifies, and `addSignature` throws without
a signature. -/
structure Sdk.Documented {K T H S : Type} (sdk : Sdk K T H S) : Prop where
  verify_sign : ∀ key hash, sdk.verify key hash (sdk.signDecorated key hash) = true
  addSignature_missing : ∀ tx sig, sdk.addSignature tx sig none = .error .invalidSignature

section

variable {K T H S : Type} (sdk : Sdk K T H S)

/-- `Transaction.sign(keypair)` -/
def Sdk.sign (envelope : Envelope T S) (keypair : K) : Envelope T S :=
  { envelope with signatures :=
      envelope.signatures ++ [sdk.signDecorated keypair (sdk.hash envelope.type envelope.tx)] }

/-- The signatures of `envelope.v1()` -/
def Envelope.v1Signatures (envelope : Envelope T S) : Except SdkError (List S) :=
  if envelope.type = .tx then .ok envelope.signatures else .error .notSet

/-! ## The module -/

def transactionSignatureCount (envelope : Envelope T S) : Except SdkError ℕ :=
  List.length <$> envelope.v1Signatures

def getSignaturesCollected (envelopeXdr : Envelope T S) : Except SdkError ℕ :=
  transactionSignatureCount envelopeXdr

def enoughSignatures (envelopeXdr : Envelope T S) (threshold : ℕ) : Except SdkError Bool :=
  (fun collected => decide (threshold ≤ collected)) <$> getSignaturesCollected envelopeXdr

def addSignatureToEnvelope (envelopeXdr : Envelope T S) (keypair : K) : Envelope T S :=
  sdk.sign envelopeXdr keypair

def mergeSignatures (baseXdr newXdr : Envelope T S) : Except SdkError (Envelope T S) := do
  let newSigs ← newXdr.v1Signatures
  newSigs.foldlM (fun baseTx sig => sdk.addSignature baseTx sig none) baseXdr

structure UnsignedTxBuild (T S : Type) where
  transactionXdr : Envelope T S
  authEntryXdrs : List String
  validUntilLedgerSeq : ℕ
  threshold : ℕ
  signaturesCollected : ℕ

def signUnsignedTx (buildResult : UnsignedTxBuild T S) (keypair : K) :
    Except SdkError (UnsignedTxBuild T S) := do
  let signedXdr := addSignatureToEnvelope sdk buildResult.transactionXdr keypair
  let collected ← getSignaturesCollected signedXdr
  return { buildResult with transactionXdr := signedXdr, signaturesCollected := collected }

/-- The check of `submitSigned`: whether the envelope is sent. -/
def submits (buildResult : UnsignedTxBuild T S) : Except SdkError Bool :=
  enoughSignatures buildResult.transactionXdr buildResult.threshold

/-! ## A collection -/

/-- What can happen in a collection: a copy comes in, somebody signs one or merges two. -/
inductive Action (K T S : Type) where
  | offer (copy : Envelope T S)
  | addSignatureToEnvelope (copy : Envelope T S) (keypair : K)
  | signUnsignedTx (buildResult : UnsignedTxBuild T S) (keypair : K)
  | mergeSignatures (base new : Envelope T S)

/-- The copies that are about after an action; a call that throws leaves none. -/
def next (copies : List (Envelope T S)) : Action K T S → List (Envelope T S)
  | .offer copy => copies ++ [copy]
  | .addSignatureToEnvelope copy keypair => copies ++ [addSignatureToEnvelope sdk copy keypair]
  | .signUnsignedTx buildResult keypair =>
      match signUnsignedTx sdk buildResult keypair with
      | .ok signed => copies ++ [signed.transactionXdr]
      | .error _ => copies
  | .mergeSignatures base new =>
      match mergeSignatures sdk base new with
      | .ok merged => copies ++ [merged]
      | .error _ => copies

/-- The copies that an action works on are about. -/
def Action.Possible (copies : List (Envelope T S)) : Action K T S → Prop
  | .offer _ => True
  | .addSignatureToEnvelope copy _ => copy ∈ copies
  | .signUnsignedTx buildResult _ => buildResult.transactionXdr ∈ copies
  | .mergeSignatures base new => base ∈ copies ∧ new ∈ copies

/-- One step of a collection. -/
def Step (copies : List (Envelope T S)) (a : Action K T S) (copies' : List (Envelope T S)) : Prop :=
  a.Possible copies ∧ copies' = next sdk copies a

/-! ## Signers -/

/-- The key has signed exactly the transaction in the envelope. -/
def HasSigned (envelope : Envelope T S) (key : K) : Prop :=
  ∃ sig ∈ envelope.signatures, sdk.verify key (sdk.hash envelope.type envelope.tx) sig = true

/-- A threshold that is met is met by as many different signers. -/
def CountsSigners (envelope : Envelope T S) : Prop :=
  ∀ threshold, enoughSignatures envelope threshold = .ok true →
    ∃ keys : Finset K, threshold ≤ keys.card ∧ ∀ key ∈ keys, HasSigned sdk envelope key

def SameTransaction (one other : Envelope T S) : Prop := one.type = other.type ∧ one.tx = other.tx

/-- Merging two copies of one transaction yields the union of their signers. -/
def MergesToUnion (base new : Envelope T S) : Prop :=
  SameTransaction base new → ∃ merged, mergeSignatures sdk base new = .ok merged ∧
    SameTransaction merged base ∧ ∀ key, HasSigned sdk merged key ↔
      HasSigned sdk base key ∨ HasSigned sdk new key

/-- Each signature of the envelope is by another key. -/
def SignedByDistinct (envelope : Envelope T S) : Prop :=
  ∃ keys : List K, keys.Nodup ∧ List.Forall₂
    (fun key sig => sdk.verify key (sdk.hash envelope.type envelope.tx) sig = true)
    keys envelope.signatures

/-- An action on which the module can be relied: a copy that comes in has one signature for each of
its signers, nobody signs a copy twice, and a copy that is merged into another of the same
transaction is unsigned. -/
def Action.Careful : Action K T S → Prop
  | .offer copy => SignedByDistinct sdk copy
  | .addSignatureToEnvelope copy keypair => ¬ HasSigned sdk copy keypair
  | .signUnsignedTx buildResult keypair => ¬ HasSigned sdk buildResult.transactionXdr keypair
  | .mergeSignatures base new =>
      SameTransaction base new → new.type = .tx ∧ new.signatures = []

/-- The merge of a step, if it is one, yields the union. -/
def Action.Merges : Action K T S → Prop
  | .offer _ => True
  | .addSignatureToEnvelope _ _ => True
  | .signUnsignedTx _ _ => True
  | .mergeSignatures base new => MergesToUnion sdk base new

section

variable {sdk}
variable {envelope base new merged : Envelope T S} {copies copies' : List (Envelope T S)}
  {a : Action K T S} {key : K} {tr : List (Transition (List (Envelope T S)) (Action K T S))}

theorem enoughSignatures_eq_true {threshold : ℕ} :
    enoughSignatures envelope threshold = .ok true ↔
      envelope.type = .tx ∧ threshold ≤ envelope.signatures.length := by
  unfold enoughSignatures getSignaturesCollected transactionSignatureCount Envelope.v1Signatures
  by_cases htype : envelope.type = .tx
  · simp [htype, Functor.map, Except.map]
  · simp [htype, Functor.map, Except.map]

/-- Signatures by different keys count signers. -/
theorem SignedByDistinct.counts (h : SignedByDistinct sdk envelope) :
    CountsSigners sdk envelope := by
  classical
  obtain ⟨keys, hnodup, hsigned⟩ := h
  intro threshold henough
  obtain ⟨_, hle⟩ := enoughSignatures_eq_true.mp henough
  refine ⟨keys.toFinset, ?_, fun key hkey => ?_⟩
  · rw [List.toFinset_card_of_nodup hnodup, hsigned.length_eq]
    exact hle
  · obtain ⟨i, hi, rfl⟩ := List.getElem_of_mem (List.mem_toFinset.mp hkey)
    have hi' : i < envelope.signatures.length := hsigned.length_eq ▸ hi
    exact ⟨envelope.signatures[i], List.getElem_mem hi', hsigned.get hi hi'⟩

/-- What is sent has as many signers as its threshold asks for, if its envelope counts signers. -/
theorem CountsSigners.submits {buildResult : UnsignedTxBuild T S}
    (h : CountsSigners sdk buildResult.transactionXdr) (hsent : submits buildResult = .ok true) :
    ∃ keys : Finset K, buildResult.threshold ≤ keys.card ∧
      ∀ key ∈ keys, HasSigned sdk buildResult.transactionXdr key :=
  h buildResult.threshold hsent

/-- Another key's signature is by another key. -/
theorem SignedByDistinct.sign (h : SignedByDistinct sdk envelope) (hdoc : sdk.Documented)
    (hnew : ¬ HasSigned sdk envelope key) : SignedByDistinct sdk (sdk.sign envelope key) := by
  obtain ⟨keys, hnodup, hsigned⟩ := h
  have hfresh : key ∉ keys := by
    intro hmem
    obtain ⟨i, hi, rfl⟩ := List.getElem_of_mem hmem
    have hi' : i < envelope.signatures.length := hsigned.length_eq ▸ hi
    exact hnew ⟨envelope.signatures[i], List.getElem_mem hi', hsigned.get hi hi'⟩
  refine ⟨keys ++ [key], ?_, ?_⟩
  · rw [List.nodup_append]
    refine ⟨hnodup, List.nodup_singleton _, fun one hone other hother => ?_⟩
    obtain rfl := List.mem_singleton.mp hother
    exact fun heq => hfresh (heq ▸ hone)
  · exact List.rel_append hsigned (.cons (hdoc.verify_sign _ _) .nil)

/-- **When a merge succeeds**: the copy merged in has no signatures, and nothing is added. -/
theorem mergeSignatures_eq_ok (hdoc : sdk.Documented) :
    mergeSignatures sdk base new = .ok merged ↔
      new.type = .tx ∧ new.signatures = [] ∧ merged = base := by
  unfold mergeSignatures Envelope.v1Signatures
  by_cases htype : new.type = .tx
  · rw [if_pos htype]
    cases hsigs : new.signatures with
    | nil => simp [bind, Except.bind, pure, Except.pure, htype, eq_comm]
    | cons sig sigs => simp [bind, Except.bind, hdoc.addSignature_missing]
  · rw [if_neg htype]
    simp [bind, Except.bind, htype]

/-- A merge of two copies yields the union exactly when the copy merged in is unsigned. -/
theorem mergesToUnion_iff (hdoc : sdk.Documented) :
    MergesToUnion sdk base new ↔
      (SameTransaction base new → new.type = .tx ∧ new.signatures = []) := by
  constructor
  · intro h hsame
    obtain ⟨merged, hmerged, _⟩ := h hsame
    obtain ⟨htype, hnone, _⟩ := (mergeSignatures_eq_ok hdoc).mp hmerged
    exact ⟨htype, hnone⟩
  · intro h hsame
    obtain ⟨htype, hnone⟩ := h hsame
    refine ⟨base, (mergeSignatures_eq_ok hdoc).mpr ⟨htype, hnone, rfl⟩, ⟨rfl, rfl⟩, fun key => ?_⟩
    have hnobody : ¬ HasSigned sdk new key := by
      rintro ⟨sig, hsig, _⟩
      rw [hnone] at hsig
      cases hsig
    constructor
    · exact .inl
    · exact fun hsigned => hsigned.resolve_right hnobody

theorem signUnsignedTx_transactionXdr {buildResult signed : UnsignedTxBuild T S}
    (h : signUnsignedTx sdk buildResult key = .ok signed) :
    signed.transactionXdr = sdk.sign buildResult.transactionXdr key := by
  unfold signUnsignedTx at h
  cases hcount : getSignaturesCollected
      (addSignatureToEnvelope sdk buildResult.transactionXdr key) with
  | error e => simp [hcount, bind, Except.bind] at h
  | ok collected =>
      simp only [hcount, bind, Except.bind, pure, Except.pure, Except.ok.injEq] at h
      rw [← h]
      rfl

/-- A careful step leaves only copies with one signature for each of their signers. -/
theorem step_distinct (hdoc : sdk.Documented) (hst : Step sdk copies a copies')
    (hcareful : a.Careful sdk) (h : ∀ copy ∈ copies, SignedByDistinct sdk copy) :
    ∀ copy ∈ copies', SignedByDistinct sdk copy := by
  obtain ⟨hpossible, rfl⟩ := hst
  have hsnoc : ∀ new : Envelope T S, SignedByDistinct sdk new →
      ∀ copy ∈ copies ++ [new], SignedByDistinct sdk copy := by
    intro new hnew
    rw [List.forall_mem_append, List.forall_mem_singleton]
    exact ⟨h, hnew⟩
  cases a with
  | offer copy => exact hsnoc copy hcareful
  | addSignatureToEnvelope copy keypair =>
      exact hsnoc _ ((h copy hpossible).sign hdoc hcareful)
  | signUnsignedTx buildResult keypair =>
      cases hsigned : signUnsignedTx sdk buildResult keypair with
      | error e =>
          simp only [next, hsigned]
          exact h
      | ok signed =>
          simp only [next, hsigned]
          refine hsnoc _ ?_
          rw [signUnsignedTx_transactionXdr hsigned]
          exact (h _ hpossible).sign hdoc hcareful
  | mergeSignatures base new =>
      cases hmerged : mergeSignatures sdk base new with
      | error e =>
          simp only [next, hmerged]
          exact h
      | ok merged =>
          simp only [next, hmerged]
          refine hsnoc _ ?_
          obtain ⟨_, _, rfl⟩ := (mergeSignatures_eq_ok hdoc).mp hmerged
          exact h _ hpossible.1

theorem step_merges (hdoc : sdk.Documented) (hcareful : a.Careful sdk) : a.Merges sdk := by
  cases a with
  | offer copy => trivial
  | addSignatureToEnvelope copy keypair => trivial
  | signUnsignedTx buildResult keypair => trivial
  | mergeSignatures base new => exact (mergesToUnion_iff hdoc).mpr hcareful

/-- **A careful collection counts signers.** In every run whose steps are careful, a threshold that
an envelope meets is met by as many different signers of its transaction, and every merge of two
copies of one transaction has yielded the union of their signers. -/
theorem collection_counts (hdoc : sdk.Documented) (h : Run (Step sdk) [] tr copies)
    (hcareful : ∀ x ∈ tr, x.act.Careful sdk) :
    (∀ copy ∈ copies, CountsSigners sdk copy) ∧ ∀ x ∈ tr, x.act.Merges sdk := by
  have hsafe := h.safety (I := fun copies => ∀ copy ∈ copies, SignedByDistinct sdk copy)
    (Q := fun x => x.act.Merges sdk) hcareful (by simp)
    (fun m a m' hm hst hcare => ⟨step_distinct hdoc hst hcare hm, step_merges hdoc hcare⟩)
  exact ⟨fun copy hcopy => (hsafe.1 copy hcopy).counts, hsafe.2⟩

end

end

/-! ## A small SDK -/

section

/-- Keys are numbers, and a signature names its key and what it signs. -/
def smallSdk : Sdk ℕ ℕ (EnvelopeType × ℕ) (ℕ × EnvelopeType × ℕ) where
  hash := fun type tx => (type, tx)
  signDecorated := fun key hash => (key, hash)
  verify := fun key hash sig => sig = (key, hash)
  addSignature := fun _ _ signature =>
    match signature with
    | none => .error .invalidSignature
    | some _ => .error .invalidPublicKey

theorem smallSdk_documented : smallSdk.Documented where
  verify_sign := by simp [smallSdk]
  addSignature_missing := by simp [smallSdk]

abbrev SmallEnvelope := Envelope ℕ (ℕ × EnvelopeType × ℕ)

/-- An unsigned transaction -/
def unsigned : SmallEnvelope := ⟨.tx, 7, []⟩

def signedBy (keys : List ℕ) : SmallEnvelope :=
  keys.foldl (addSignatureToEnvelope smallSdk) unsigned

/-- Two keys sign one after the other, and an unsigned copy is merged in. -/
def twoSigners : List (Action ℕ ℕ (ℕ × EnvelopeType × ℕ)) := [
  .offer unsigned, .addSignatureToEnvelope unsigned 1,
  .addSignatureToEnvelope (signedBy [1]) 2, .mergeSignatures (signedBy [1, 2]) unsigned]

theorem collection_counts_two_signers :
    (∀ copy ∈ twoSigners.foldl (next smallSdk) [], CountsSigners smallSdk copy) ∧
      ∀ x ∈ play (next smallSdk) [] twoSigners, x.act.Merges smallSdk := by
  refine collection_counts smallSdk_documented (play_run twoSigners [] ?_) ?_
  · simp [twoSigners, play, Step, Action.Possible, next, signedBy]
  · simp [twoSigners, play, Action.Careful, HasSigned, SignedByDistinct, signedBy,
      addSignatureToEnvelope, Sdk.sign, unsigned, smallSdk]

/-- One key that signs twice meets a threshold of two, and copies signed by two keys do not
merge. -/
theorem signers_miscounted :
    ¬ CountsSigners smallSdk (signedBy [1, 1]) ∧
      ¬ MergesToUnion smallSdk (signedBy [1]) (signedBy [2]) := by
  constructor
  · intro h
    obtain ⟨keys, hcard, hkeys⟩ := h 2 (by decide)
    have hone : keys ⊆ {1} := by
      intro key hkey
      obtain ⟨sig, hsig, hverify⟩ := hkeys key hkey
      have hsigs : (signedBy [1, 1]).signatures = [(1, .tx, 7), (1, .tx, 7)] := rfl
      rw [hsigs] at hsig
      obtain rfl : sig = (1, .tx, 7) := by simpa using hsig
      have hkey : 1 = key := congrArg Prod.fst (of_decide_eq_true hverify)
      exact Finset.mem_singleton.mpr hkey.symm
    have := Finset.card_le_card hone
    rw [Finset.card_singleton] at this
    omega
  · intro h
    obtain ⟨merged, hmerged, _⟩ := h ⟨rfl, rfl⟩
    exact absurd ((mergeSignatures_eq_ok smallSdk_documented).mp hmerged).2.1 (by decide)

end

end StellarAgent.MultiSig
