import StellarAgent.Lib.Json
import StellarAgent.Math.BidFairness
import StellarAgent.Math.FixedPoint
import StellarAgent.Routing.Types
import StellarAgent.Signer.Canonical

set_option autoImplicit false

/-! # Bid attestations

`packages/core/src/math/attestation.ts`: a scorer signs the digest of the bids, the weights and the
ranking, and a verifier checks the signature, the digest and the ranking. The hash, the signatures,
`base64` and the text of a number are parameters. An attestation is accepted with the bids it was
made of, in any order, and with their ranking, and with nothing else (`verifyBidAttestation_iff`).
-/

namespace StellarAgent.Math

open Lib Routing Soroban Decimal

/-! ## Types -/

def ATTESTATION_VERSION : Number := 1

/-- Default attestation lifetime, in seconds -/
def DEFAULT_TTL_SECONDS : Number := 300

/-- What is signed of an attestation -/
structure AttestationHeader where
  version : Number
  key_epoch : Number
  scorer_public_key : String
  weights : BidWeights
  issued_at : Number
  expires_at : Number
  digest : String

structure BidAttestation extends AttestationHeader where
  signature : String

structure AttestRankBidsOptions where
  key_epoch : Number
  ttl_seconds : Option Number

structure AttestedRanking where
  result : List ScoredBid
  attestation : BidAttestation

/-- One scorer key a verifier is willing to trust, and for how long -/
structure ScorerKeyRecord where
  epoch : Number
  public_key : String
  valid_from : Option Number
  valid_until : Option Number

inductive BidAttestationVerification where
  | valid (recomputed : List ScoredBid)
  | invalid (reason : String)

/-! ## Canonicalization -/

def canonicalBid (bid : AgentBid) : Json :=
  .obj [("agentAddress", .str bid.agent_address), ("price", .str bid.price),
    ("reputation", .str bid.reputation),
    ("estimatedLatencySeconds", .str bid.estimated_latency_seconds),
    ("successRate", .str bid.success_rate)]

def canonicalWeights (weights : BidWeights) : Json :=
  .obj [("price", .str weights.price), ("reputation", .str weights.reputation),
    ("latency", .str weights.latency), ("reliability", .str weights.reliability)]

def canonicalScoredBid (scored : ScoredBid) : Json :=
  .obj [("agentAddress", .str scored.agent_address), ("score", .str scored.score),
    ("breakdown", .obj [("priceScore", .str scored.breakdown.price_score),
      ("reputationScore", .str scored.breakdown.reputation_score),
      ("latencyScore", .str scored.breakdown.latency_score),
      ("reliabilityScore", .str scored.breakdown.reliability_score)])]

/-- `a.every((bid, i) => …)`, after the lengths -/
def scoredBidsEqual (a b : List ScoredBid) : Bool :=
  if a.length ≠ b.length then false
  else (a.zip b).all fun (x, y) =>
    (canonicalScoredBid x).render == (canonicalScoredBid y).render

/-- The bids, sorted by address -/
def sortedBids (bids : List AgentBid) : List AgentBid :=
  bids.insertionSort fun x y =>
    TypeScript.utf16 x.agent_address ≤ TypeScript.utf16 y.agent_address

/-- `JSON.stringify` of the digested object -/
def bidSetPayload (bids : List AgentBid) (weights : BidWeights) (result : List ScoredBid) :
    List Char :=
  (Json.obj [("bids", .arr ((sortedBids bids).map canonicalBid)),
    ("weights", canonicalWeights weights),
    ("result", .arr (result.map canonicalScoredBid))]).render

/-- An object whose values are rendered already -/
def renderRecord (fields : List (String × List Char)) : List Char :=
  '{' :: ((fields.flatMap fun (key, value) =>
    ',' :: (Json.renderString key.toList ++ ':' :: value)).tail ++ ['}'])

/-! ## Keys -/

/-- What the module uses of the Stellar SDK, of `Buffer` and of numbers -/
structure Runtime where
  Keypair : Type
  PublicKey : Type
  hash : Bytes → Bytes
  canSign : Keypair → Bool
  publicKey : Keypair → String
  sign : Keypair → Bytes → Bytes
  fromPublicKey : String → Option PublicKey
  /-- `none` if it throws -/
  verify : PublicKey → Bytes → Bytes → Option Bool
  toBase64 : Bytes → String
  fromBase64 : String → Bytes
  /-- `String(n)` -/
  numberText : Number → String
  /-- `JSON.stringify(n)` -/
  numberJson : Number → List Char

section

variable (runtime : Runtime) (bigNumber : String → Option ℚ)

def headerPayload (header : AttestationHeader) : List Char :=
  renderRecord [("version", runtime.numberJson header.version),
    ("keyEpoch", runtime.numberJson header.key_epoch),
    ("scorerPublicKey", (Json.str header.scorer_public_key).render),
    ("weights", (canonicalWeights header.weights).render),
    ("issuedAt", runtime.numberJson header.issued_at),
    ("expiresAt", runtime.numberJson header.expires_at),
    ("digest", (Json.str header.digest).render)]

def digestBidSet (bids : List AgentBid) (weights : BidWeights) (result : List ScoredBid) : Bytes :=
  runtime.hash (Signer.utf8 (bidSetPayload bids weights result))

def digestAttestationHeader (header : AttestationHeader) : Bytes :=
  runtime.hash (Signer.utf8 (headerPayload runtime header))

/-- `===` -/
def sameNumber (a b : Number) : Bool := a == b && a != .nan

/-- `Math.floor(ms / 1000)` -/
def floorSeconds : Number → Number
  | .finite ms => .finite ⌊ms / 1000⌋
  | ms => ms

/-! ## Attest -/

/-- `attestRankBids`, at the time `now` in milliseconds; an error is the message of the exception. -/
def attestRankBids (bids : List AgentBid) (weights : BidWeights) (scorerKeypair : runtime.Keypair)
    (options : AttestRankBidsOptions) (now : Number) : Except String AttestedRanking :=
  if runtime.canSign scorerKeypair = false then
    .error "attestRankBids: scorerKeypair must hold a secret key to sign attestations"
  else if options.key_epoch.isInteger = false ∨ options.key_epoch.lt 0 = true then
    .error ("attestRankBids: keyEpoch must be a non-negative integer, got " ++
      runtime.numberText options.key_epoch)
  else
    let ttlSeconds := options.ttl_seconds.getD DEFAULT_TTL_SECONDS
    if Number.lt 0 ttlSeconds = false then
      .error ("attestRankBids: ttlSeconds must be positive, got " ++ runtime.numberText ttlSeconds)
    else do
      let result ← (TypeScript.rankBids bigNumber bids weights).mapError FixedPointError.text
      let issuedAt := floorSeconds now
      let header : AttestationHeader := {
        version := ATTESTATION_VERSION
        key_epoch := options.key_epoch
        scorer_public_key := runtime.publicKey scorerKeypair
        weights := weights
        issued_at := issuedAt
        expires_at := issuedAt.add ttlSeconds
        digest := Signer.hexEncode (digestBidSet runtime bids weights result) }
      let signature :=
        runtime.toBase64 (runtime.sign scorerKeypair (digestAttestationHeader runtime header))
      return ⟨result, { header with signature := signature }⟩

/-! ## Verify -/

/-- The signature over the header is that of its scorer; what throws is no signature. -/
def signatureValid (scorer : runtime.PublicKey) (attestation : BidAttestation) : Bool :=
  (runtime.verify scorer
    (digestAttestationHeader runtime attestation.toAttestationHeader)
    (runtime.fromBase64 attestation.signature)).getD false

/-- `verifyBidAttestation`, at the time `now` in milliseconds -/
def verifyBidAttestation (bids : List AgentBid) (result : List ScoredBid)
    (attestation : BidAttestation) (trustedKeys : List ScorerKeyRecord) (now : Number) :
    BidAttestationVerification :=
  if attestation.version ≠ ATTESTATION_VERSION then
    .invalid ("unsupported attestation version: " ++ runtime.numberText attestation.version)
  else
    let epoch := runtime.numberText attestation.key_epoch
    match trustedKeys.find? fun k => sameNumber k.epoch attestation.key_epoch with
    | none => .invalid ("no trusted key registered for epoch " ++ epoch)
    | some record =>
        if record.public_key ≠ attestation.scorer_public_key then
          .invalid ("attestation's scorerPublicKey does not match the trusted key for epoch " ++
            epoch)
        else if record.valid_from.any (attestation.issued_at.lt ·) then
          .invalid ("key for epoch " ++ epoch ++
            " was not yet valid when this attestation was issued")
        else if record.valid_until.any (Number.lt · attestation.issued_at) then
          .invalid ("key for epoch " ++ epoch ++
            " had already been retired when this attestation was issued")
        else if attestation.expires_at.lt (floorSeconds now) then
          .invalid "attestation has expired"
        else
          match runtime.fromPublicKey attestation.scorer_public_key with
          | none => .invalid "attestation scorerPublicKey is not a valid Stellar public key"
          | some scorer =>
              if signatureValid runtime scorer attestation = false then
                .invalid "signature is invalid for the attested scorer public key"
              else if Signer.hexEncode (digestBidSet runtime bids attestation.weights result) ≠
                  attestation.digest then
                .invalid ("digest mismatch — the supplied bids/result do not match what the " ++
                  "scorer attested to")
              else
                match TypeScript.rankBids bigNumber bids attestation.weights with
                | .error err => .invalid ("recomputation failed: " ++ err.text)
                | .ok recomputed =>
                    if scoredBidsEqual recomputed result = false then
                      .invalid ("recomputed ranking does not match the attested result — the " ++
                        "scorer may have reported a different bid than the one it actually computed")
                    else .valid recomputed

end

/-! ## The payload determines the contest -/

theorem canonicalBid_injective : Function.Injective canonicalBid := by
  rintro ⟨address, price, reputation, latency, success⟩ ⟨address', price', reputation', latency',
    success'⟩ h
  simpa [canonicalBid] using h

theorem canonicalScoredBid_injective : Function.Injective canonicalScoredBid := by
  rintro ⟨address, score, price, reputation, latency, reliability⟩ ⟨address', score', price',
    reputation', latency', reliability'⟩ h
  simpa [canonicalScoredBid] using h

instance : Std.Total fun x y : AgentBid =>
    TypeScript.utf16 x.agent_address ≤ TypeScript.utf16 y.agent_address :=
  ⟨fun x y => le_total (TypeScript.utf16 x.agent_address) (TypeScript.utf16 y.agent_address)⟩

instance : IsTrans AgentBid fun x y =>
    TypeScript.utf16 x.agent_address ≤ TypeScript.utf16 y.agent_address :=
  ⟨fun _ _ _ hxy hyz => hxy.trans hyz⟩

section

variable {bids bids' : List AgentBid} {weights : BidWeights} {result result' : List ScoredBid}

/-- Bids with distinct addresses are sorted alike exactly if they are the same up to order. -/
theorem sortedBids_eq_iff (haddress : (bids.map AgentBid.agent_address).Nodup) :
    sortedBids bids' = sortedBids bids ↔ bids'.Perm bids := by
  constructor
  · intro h
    have hperm := List.perm_insertionSort (fun x y : AgentBid =>
      TypeScript.utf16 x.agent_address ≤ TypeScript.utf16 y.agent_address)
    have hself : (sortedBids bids').Perm bids := h ▸ hperm bids
    exact (hperm bids').symm.trans hself
  · intro h
    refine (insertionSort_eq_of_perm h.symm fun x hx y hy hxy hyx => ?_).symm
    have heq : x.agent_address = y.agent_address := utf16_injective (le_antisymm hxy hyx)
    exact List.inj_on_of_nodup_map haddress hx hy heq

variable (weights) in
/-- **Canonical encoding is injective**: the payload determines the bids up to their order, and the
ranking. -/
theorem bidSetPayload_eq_iff (haddress : (bids.map AgentBid.agent_address).Nodup) :
    bidSetPayload bids' weights result' = bidSetPayload bids weights result ↔
      bids'.Perm bids ∧ result' = result := by
  rw [← sortedBids_eq_iff haddress]
  constructor
  · intro h
    have hjson := Json.render_injective h
    simp only [Json.obj.injEq, List.cons.injEq, Prod.mk.injEq, true_and, and_true,
      Json.arr.injEq] at hjson
    exact ⟨List.map_injective_iff.mpr canonicalBid_injective hjson.1,
      List.map_injective_iff.mpr canonicalScoredBid_injective hjson.2⟩
  · rintro ⟨hsorted, rfl⟩
    rw [bidSetPayload, bidSetPayload, hsorted]

theorem scoredBidsEqual_self (result : List ScoredBid) : scoredBidsEqual result result = true := by
  rw [scoredBidsEqual, if_neg (not_not.mpr rfl), List.all_eq_true]
  intro pair hpair
  obtain ⟨i, hi, rfl⟩ := List.mem_iff_getElem.mp hpair
  simp

end

/-! ## One contest for each attestation -/

section

variable {runtime : Runtime} {bigNumber : String → Option ℚ} {bids bids' : List AgentBid}
  {weights : BidWeights} {scorerKeypair : runtime.Keypair} {options : AttestRankBidsOptions}
  {now later : Number} {attested : AttestedRanking} {result' : List ScoredBid}
  {trustedKeys : List ScorerKeyRecord}

/-- What is documented of the hash, the keys and `base64`: the hash has no collisions, a key pair
that can sign has a valid public key under which its signatures verify, and `base64` is read back. -/
structure Runtime.Lawful (runtime : Runtime) : Prop where
  hash : Function.Injective runtime.hash
  publicKey : ∀ keypair, ∃ key, runtime.fromPublicKey (runtime.publicKey keypair) = some key ∧
    ∀ message, runtime.canSign keypair = true →
      runtime.verify key message (runtime.sign keypair message) = some true
  base64 : ∀ bytes, runtime.fromBase64 (runtime.toBase64 bytes) = bytes

/-- The directory trusts the key of the attestation at the time it was issued, and the attestation
has not expired. -/
structure TrustedAt (trustedKeys : List ScorerKeyRecord) (attestation : BidAttestation)
    (now : Number) : Prop where
  trusted : ∃ record,
    trustedKeys.find? (fun k => sameNumber k.epoch attestation.key_epoch) = some record ∧
    record.public_key = attestation.scorer_public_key ∧
    record.valid_from.any (attestation.issued_at.lt ·) = false ∧
    record.valid_until.any (Number.lt · attestation.issued_at) = false
  fresh : attestation.expires_at.lt (floorSeconds now) = false

/-- What `attestRankBids` returns -/
structure AttestationOf (runtime : Runtime) (bigNumber : String → Option ℚ) (bids : List AgentBid)
    (weights : BidWeights) (scorerKeypair : runtime.Keypair) (options : AttestRankBidsOptions)
    (now : Number) (attested : AttestedRanking) : Prop where
  canSign : runtime.canSign scorerKeypair = true
  ranking : TypeScript.rankBids bigNumber bids weights = .ok attested.result
  version : attested.attestation.version = ATTESTATION_VERSION
  epoch : attested.attestation.key_epoch = options.key_epoch
  publicKey : attested.attestation.scorer_public_key = runtime.publicKey scorerKeypair
  sameWeights : attested.attestation.weights = weights
  issuedAt : attested.attestation.issued_at = floorSeconds now
  expiresAt : attested.attestation.expires_at =
    (floorSeconds now).add (options.ttl_seconds.getD DEFAULT_TTL_SECONDS)
  digest : attested.attestation.digest =
    Signer.hexEncode (digestBidSet runtime bids weights attested.result)
  signature : attested.attestation.signature = runtime.toBase64 (runtime.sign scorerKeypair
    (digestAttestationHeader runtime attested.attestation.toAttestationHeader))

theorem attestRankBids_ok
    (h : attestRankBids runtime bigNumber bids weights scorerKeypair options now = .ok attested) :
    AttestationOf runtime bigNumber bids weights scorerKeypair options now attested := by
  unfold attestRankBids at h
  split_ifs at h with hcan hepoch
  dsimp only at h
  split_ifs at h with httl
  obtain ⟨result, hresult, h⟩ := bind_eq_ok.mp h
  have hranking : TypeScript.rankBids bigNumber bids weights = .ok result := by
    cases hrank : TypeScript.rankBids bigNumber bids weights with
    | ok ranking =>
        rw [hrank] at hresult
        exact congrArg Except.ok (Except.ok.inj hresult)
    | error e =>
        rw [hrank] at hresult
        cases hresult
  obtain rfl := Except.ok.inj h
  exact ⟨by simpa using hcan, hranking, rfl, rfl, rfl, rfl, rfl, rfl, rfl, rfl⟩

/-- **A produced attestation** is accepted exactly with bids and a ranking whose digest is the
attested one and that is their ranking. -/
theorem verify_produced (hruntime : runtime.Lawful)
    (h : AttestationOf runtime bigNumber bids weights scorerKeypair options now attested)
    (htrusted : TrustedAt trustedKeys attested.attestation later) :
    (∃ recomputed, verifyBidAttestation runtime bigNumber bids' result' attested.attestation
      trustedKeys later = .valid recomputed) ↔
    digestBidSet runtime bids' weights result' = digestBidSet runtime bids weights attested.result ∧
      ∃ recomputed, TypeScript.rankBids bigNumber bids' weights = .ok recomputed ∧
        scoredBidsEqual recomputed result' = true := by
  obtain ⟨record, hrecord, hkey, hfrom, huntil⟩ := htrusted.trusted
  obtain ⟨key, hpublic, hverify⟩ := hruntime.publicKey scorerKeypair
  have hsignature : signatureValid runtime key attested.attestation = true := by
    rw [signatureValid, h.signature, hruntime.base64, hverify _ h.canSign, Option.getD_some]
  have hscorer : runtime.fromPublicKey attested.attestation.scorer_public_key = some key := by
    rw [h.publicKey, hpublic]
  unfold verifyBidAttestation
  rw [if_neg (not_not.mpr h.version)]
  dsimp only
  rw [hrecord]
  dsimp only
  rw [if_neg (not_not.mpr hkey), hfrom, if_neg Bool.false_ne_true, huntil,
    if_neg Bool.false_ne_true, htrusted.fresh, if_neg Bool.false_ne_true, hscorer]
  dsimp only
  rw [hsignature, if_neg (by simp), h.digest, h.sameWeights]
  by_cases hdigest : digestBidSet runtime bids' weights result' =
      digestBidSet runtime bids weights attested.result
  · rw [hdigest, if_neg (not_not.mpr rfl)]
    cases hrank : TypeScript.rankBids bigNumber bids' weights with
    | error err => simp
    | ok recomputed =>
        by_cases hequal : scoredBidsEqual recomputed result' = true
        · simp [hequal]
        · simp [hequal]
  · have hhex : Signer.hexEncode (digestBidSet runtime bids' weights result') ≠
        Signer.hexEncode (digestBidSet runtime bids weights attested.result) :=
      fun heq => hdigest (Signer.hexEncode_injective heq)
    rw [if_pos hhex]
    simp [hdigest]

/-- **An attestation binds exactly one contest**: it is accepted with its bids, in any order, and
their ranking, and with nothing else. -/
theorem verifyBidAttestation_iff (hruntime : runtime.Lawful) (hreads : ReadsDecimals bigNumber)
    (haddress : (bids.map AgentBid.agent_address).Nodup)
    (hattest : attestRankBids runtime bigNumber bids weights scorerKeypair options now =
      .ok attested)
    (htrusted : TrustedAt trustedKeys attested.attestation later) (bids' : List AgentBid)
    (result' : List ScoredBid) :
    (∃ recomputed, verifyBidAttestation runtime bigNumber bids' result' attested.attestation
      trustedKeys later = .valid recomputed) ↔
    bids'.Perm bids ∧ TypeScript.rankBids bigNumber bids weights = .ok result' := by
  have hproduced := attestRankBids_ok hattest
  have hdigest : digestBidSet runtime bids' weights result' =
      digestBidSet runtime bids weights attested.result ↔
        bids'.Perm bids ∧ result' = attested.result := by
    rw [← bidSetPayload_eq_iff weights haddress]
    exact ⟨fun h => Signer.utf8_injective (hruntime.hash h), fun h => by
      rw [digestBidSet, digestBidSet, h]⟩
  rw [verify_produced hruntime hproduced htrusted, hdigest, hproduced.ranking]
  constructor
  · rintro ⟨⟨hperm, rfl⟩, -⟩
    exact ⟨hperm, rfl⟩
  · rintro ⟨hperm, hresult⟩
    obtain rfl := Except.ok.inj hresult
    refine ⟨⟨hperm, rfl⟩, attested.result, ?_, scoredBidsEqual_self _⟩
    -- the ranking of the bids in another order
    by_cases hne : bids = []
    · subst hne
      rw [hperm.eq_nil, hproduced.ranking]
    · obtain ⟨hweights, hbids⟩ := rankBids_readable hne hproduced.ranking
      rw [rankBids_perm hreads hne haddress hweights hbids hperm, hproduced.ranking]

end

/-! ## A sample -/

/-- Keys that sign with their name, and a hash that keeps everything -/
def sampleRuntime : Runtime where
  Keypair := String
  PublicKey := String
  hash bytes := bytes
  canSign _ := true
  publicKey keypair := keypair
  sign keypair message := Signer.utf8 keypair.toList ++ message
  fromPublicKey text := some text
  verify key message signature := some (signature == Signer.utf8 key.toList ++ message)
  toBase64 bytes := String.ofList (bytes.map fun b => Char.ofNat b.toNat)
  fromBase64 text := text.toList.map fun c => UInt8.ofNat c.toNat
  numberText n := n.text
  numberJson n := n.text.toList

theorem sampleRuntime_lawful : sampleRuntime.Lawful where
  hash := fun _ _ h => h
  publicKey keypair := by
    refine ⟨keypair, rfl, fun message _ => ?_⟩
    exact congrArg some (beq_self_eq_true (sampleRuntime.sign keypair message))
  base64 bytes := by
    show (String.ofList (bytes.map fun b => Char.ofNat b.toNat)).toList.map _ = bytes
    rw [String.toList_ofList, List.map_map]
    refine List.map_congr_left (g := id) (fun b _ => ?_) |>.trans (List.map_id bytes)
    have hb := b.toNat_lt
    have hvalid : (Char.ofNat b.toNat).toNat = b.toNat := by
      have hsmall : b.toNat.isValidChar := Or.inl (by omega)
      rw [Char.ofNat, dif_pos hsmall]
      rfl
    show UInt8.ofNat (Char.ofNat b.toNat).toNat = b
    rw [hvalid]
    exact UInt8.ofNat_toNat

/-- The bids of a contest in another order are accepted with its ranking. -/
theorem swapped_bids_accepted : ∃ attested,
    attestRankBids sampleRuntime readAsRust [sampleBid, otherBid] equalWeights "GSCORER" ⟨0, none⟩
      1000000 = .ok attested ∧
    ∃ recomputed, verifyBidAttestation sampleRuntime readAsRust [otherBid, sampleBid]
      attested.result attested.attestation [⟨0, "GSCORER", none, none⟩] 1100000 =
        .valid recomputed := by
  have haddress : ([sampleBid, otherBid].map AgentBid.agent_address).Nodup := by decide
  have hread : ∀ text, (parse text).isOk = true → (readAsRust text).isSome = true :=
    fun text h => (readAsRust_literal text h).1
  have hbids : ∀ bid ∈ [sampleBid, otherBid], ReadableBid readAsRust bid := by
    intro bid hbid
    rcases List.mem_pair.mp hbid with rfl | rfl
    all_goals
      constructor
      all_goals exact hread _ (by decide +kernel)
  have hrank := rankBids_read readAsRust_reads (by simp) equalWeights_decimal hbids
  obtain ⟨attested, hattest⟩ : ∃ attested, attestRankBids sampleRuntime readAsRust
      [sampleBid, otherBid] equalWeights "GSCORER" ⟨0, none⟩ 1000000 = .ok attested := by
    unfold attestRankBids
    rw [hrank, if_neg (by decide), if_neg (by decide +kernel)]
    dsimp only
    rw [if_neg (by decide +kernel)]
    exact ⟨_, rfl⟩
  have hproduced := attestRankBids_ok hattest
  have htrusted : TrustedAt [⟨0, "GSCORER", none, none⟩] attested.attestation 1100000 := by
    refine ⟨⟨⟨0, "GSCORER", none, none⟩, ?_, hproduced.publicKey.symm, rfl, rfl⟩, ?_⟩
    · have hsame : sameNumber 0 0 = true := by decide +kernel
      rw [hproduced.epoch]
      exact List.find?_cons_of_pos hsame
    · rw [hproduced.expiresAt]
      decide +kernel
  refine ⟨attested, hattest, ?_⟩
  exact (verifyBidAttestation_iff sampleRuntime_lawful readAsRust_reads haddress hattest htrusted
    [otherBid, sampleBid] attested.result).mpr ⟨List.Perm.swap _ _ _, hproduced.ranking⟩

end StellarAgent.Math
