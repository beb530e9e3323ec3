import Mathlib.Data.List.DropRight
import StellarAgent.Signer.Canonical
import StellarAgent.Signer.Service

set_option autoImplicit false

/-! # Credentials

`services/signer/src/auth.rs`: a credential is kept as the hash of its token. `TokenStore.new` takes
the credentials of a configuration, in any order, if each hash is one and no two are the same. A
token then authenticates as the credential with its hash, until that is revoked or expires
(`authenticate_iff`).
-/

namespace StellarAgent.Signer

open Lib Soroban

structure TokenRecord where
  id : String
  subject : String
  token_sha256 : String
  label : String
  expires_at : Option Nat
  revoked_at : Option Nat
  deriving DecidableEq

/-- `is_valid_at` -/
def TokenRecord.isValidAt (record : TokenRecord) (now : Nat) : Bool :=
  if record.revoked_at.any fun revoked => revoked ≤ now then false
  else
    match record.expires_at with
    | some expiry => now < expiry
    | none => true

/-- `invalid_reason` -/
def TokenRecord.invalidReason (record : TokenRecord) (now : Nat) : Option String :=
  if record.revoked_at.any fun revoked => revoked ≤ now then some "revoked"
  else if record.expires_at.any fun expiry => expiry ≤ now then some "expired"
  else none

/-- `token_hash` -/
def tokenHash (sha256 : Bytes → BytesN 32) (token : String) : String :=
  hexEncode (sha256 (utf8 token.toList)).bytes

/-- `to_ascii_lowercase` -/
def toAsciiLowercase (text : String) : String := String.ofList (text.toList.map Char.toLower)

/-- `is_ascii_hexdigit` -/
def isAsciiHexdigit (c : Char) : Bool :=
  c.isDigit || decide ('a' ≤ c ∧ c ≤ 'f') || decide ('A' ≤ c ∧ c ≤ 'F')

/-- Sixty-four hex digits. A text of nothing else has as many bytes as characters. -/
def isHexDigest (hash : String) : Bool :=
  hash.toList.length == 64 && hash.toList.all isAsciiHexdigit

/-- The credentials by their hashes, in lower case. -/
structure TokenStore where
  by_hash : Map String TokenRecord
  keyed : ∀ hash record, by_hash.lookup hash = some record →
    hash = toAsciiLowercase record.token_sha256

def TokenStore.empty : TokenStore where
  by_hash := ∅
  keyed := by
    intro hash record h
    cases h

/-- One round of `TokenStore::new` -/
def TokenStore.add (store : TokenStore) (record : TokenRecord) : Except String TokenStore :=
  let hash := toAsciiLowercase record.token_sha256
  if isHexDigest hash = false then
    .error ("token " ++ record.id ++
      " has a token_sha256 that is not a 64-character hex digest")
  else
    match store.by_hash.lookup hash with
    | some existing => .error ("tokens " ++ existing.id ++ " and " ++ record.id ++
        " share a hash, so the caller's identity would be ambiguous")
    | none => .ok {
        by_hash := store.by_hash.insert hash record
        keyed := by
          intro hash' record' h
          rw [Map.lookup_insert_eq_ite] at h
          split at h
          · rename_i hsame
            cases h
            exact hsame
          · exact store.keyed hash' record' h }

/-- `TokenStore::new` -/
def TokenStore.new (records : List TokenRecord) : Except String TokenStore :=
  records.foldlM TokenStore.add TokenStore.empty

def unknownCredential : ServiceError := .new .Unauthenticated "unknown or missing credential"

/-- `TokenStore::authenticate` -/
def TokenStore.authenticate (store : TokenStore) (sha256 : Bytes → BytesN 32) (presented : String)
    (now : Nat) : Except ServiceError TokenRecord :=
  let hash := tokenHash sha256 presented
  match store.by_hash.lookup hash with
  | none => .error unknownCredential
  | some record =>
      -- the comparison in constant time, of the text as it was configured
      if record.token_sha256 ≠ hash then .error unknownCredential
      else
        match record.invalidReason now with
        | none => .ok record
        | some reason => .error ((ServiceError.new .CredentialRejected
            ("credential " ++ reason)).withInternal ("token " ++ record.id ++ " is " ++ reason))

/-- `split_once(' ')` -/
def splitOnce (text : List Char) : Option (List Char × List Char) :=
  match text.dropWhile (· ≠ ' ') with
  | [] => none
  | _ :: value => some (text.takeWhile (· ≠ ' '), value)

/-- `char::is_whitespace` of a character that a header can carry -/
def isHeaderSpace (c : Char) : Bool := c = ' ' || c = '\t'

/-- `bearer_token` of a header, which `HeaderValue::to_str` has made a text of ASCII characters -/
def bearerToken (header : List Char) : Option String :=
  match splitOnce header with
  | none => none
  | some (scheme, value) =>
      if scheme.map Char.toLower ≠ "bearer".toList then none
      else
        let token := (value.dropWhile isHeaderSpace).rdropWhile isHeaderSpace
        if token.isEmpty then none else some (String.ofList token)

/-! ## What the store holds -/

section

variable {store store' : TokenStore} {records : List TokenRecord} {record : TokenRecord}
  {sha256 : Bytes → BytesN 32} {presented hash : String} {now later : Nat}

theorem isValidAt_iff : record.isValidAt now = true ↔ record.invalidReason now = none := by
  obtain ⟨id, subject, token_sha256, label, expires_at, revoked_at⟩ := record
  unfold TokenRecord.isValidAt TokenRecord.invalidReason
  dsimp only
  split_ifs with hrevoked hexpired
  · simp
  · cases expires_at with
    | none => cases hexpired
    | some expiry => simpa using hexpired
  · cases expires_at with
    | none => simp
    | some expiry => simpa using hexpired

/-- A credential that is not accepted stays so. -/
theorem isValidAt_of_le (hle : now ≤ later) (h : record.isValidAt later = true) :
    record.isValidAt now = true := by
  obtain ⟨id, subject, token_sha256, label, expires_at, revoked_at⟩ := record
  unfold TokenRecord.isValidAt at h ⊢
  cases revoked_at with
  | none =>
      cases expires_at with
      | none => rfl
      | some expiry =>
          simp only [Option.any_none, Bool.false_eq_true, if_false, decide_eq_true_eq] at h ⊢
          omega
  | some revoked =>
      simp only [Option.any_some, decide_eq_true_eq] at h ⊢
      split_ifs at h with hrevoked
      rw [if_neg (by omega)]
      cases expires_at with
      | none => rfl
      | some expiry =>
          simp only [decide_eq_true_eq] at h ⊢
          omega

theorem add_eq_ok (h : store.add record = .ok store') :
    isHexDigest (toAsciiLowercase record.token_sha256) = true ∧
      store.by_hash.lookup (toAsciiLowercase record.token_sha256) = none ∧
      store'.by_hash = store.by_hash.insert (toAsciiLowercase record.token_sha256) record := by
  unfold TokenStore.add at h
  dsimp only at h
  split_ifs at h with hdigest
  rw [Bool.not_eq_false] at hdigest
  split at h
  · cases h
  · rename_i hnone
    cases h
    exact ⟨hdigest, hnone, rfl⟩

theorem exists_add (hdigest : isHexDigest (toAsciiLowercase record.token_sha256) = true)
    (hnone : store.by_hash.lookup (toAsciiLowercase record.token_sha256) = none) :
    ∃ store', store.add record = .ok store' := by
  unfold TokenStore.add
  dsimp only
  rw [if_neg (by simp [hdigest])]
  split
  · rename_i existing hsome
    rw [hnone] at hsome
    cases hsome
  · exact ⟨_, rfl⟩

/-- What is added is found under its hash, and the rest as before. -/
theorem lookup_add (h : store.add record = .ok store') {other : TokenRecord} :
    store'.by_hash.lookup hash = some other ↔ store.by_hash.lookup hash = some other ∨
      other = record ∧ toAsciiLowercase record.token_sha256 = hash := by
  obtain ⟨-, hnone, hinsert⟩ := add_eq_ok h
  rw [hinsert, Map.lookup_insert_eq_ite]
  by_cases hsame : hash = toAsciiLowercase record.token_sha256
  · subst hsame
    rw [if_pos rfl, hnone]
    simp [eq_comm]
  · rw [if_neg hsame]
    simp [Ne.symm hsame]

theorem lookup_foldlM (records : List TokenRecord)
    (h : records.foldlM TokenStore.add store = .ok store') :
    store'.by_hash.lookup hash = some record ↔ store.by_hash.lookup hash = some record ∨
      record ∈ records ∧ toAsciiLowercase record.token_sha256 = hash := by
  induction records generalizing store with
  | nil =>
      cases h
      simp
  | cons first rest ih =>
      rw [List.foldlM_cons] at h
      cases hadd : store.add first with
      | error text =>
          rw [hadd] at h
          cases h
      | ok next =>
          rw [hadd] at h
          rw [ih h, lookup_add hadd, List.mem_cons, or_assoc, or_and_right]
          refine or_congr_right (or_congr_left ⟨?_, ?_⟩)
          · rintro ⟨rfl, hhash⟩
            exact ⟨rfl, hhash⟩
          · rintro ⟨rfl, hhash⟩
            exact ⟨rfl, hhash⟩

/-- **The store holds the credentials it was made of.** -/
theorem lookup_new (h : TokenStore.new records = .ok store) :
    store.by_hash.lookup hash = some record ↔
      record ∈ records ∧ toAsciiLowercase record.token_sha256 = hash := by
  rw [lookup_foldlM records h]
  exact or_iff_right fun hempty => by cases hempty

/-- A hash is in lower case. -/
theorem toAsciiLowercase_hexEncode (bytes : Bytes) :
    toAsciiLowercase (hexEncode bytes) = hexEncode bytes := by
  have hdigit : ∀ n : Fin 16, (Nat.digitChar n).toLower = Nat.digitChar n := by decide
  have hpair : ∀ b : UInt8, [Nat.digitChar (b.toNat / 16), Nat.digitChar (b.toNat % 16)].map
      Char.toLower = [Nat.digitChar (b.toNat / 16), Nat.digitChar (b.toNat % 16)] := by
    intro b
    have hhigh := hdigit ⟨b.toNat / 16, by have := b.toNat_lt; omega⟩
    have hlow := hdigit ⟨b.toNat % 16, by omega⟩
    rw [List.map_cons, List.map_singleton]
    exact congrArg₂ (fun c d => [c, d]) hhigh hlow
  unfold toAsciiLowercase hexEncode
  rw [String.toList_ofList, List.map_flatMap]
  exact congrArg String.ofList (congrArg (fun f => List.flatMap f bytes) (funext hpair))

theorem authenticate_ok_iff : store.authenticate sha256 presented now = .ok record ↔
    store.by_hash.lookup (tokenHash sha256 presented) = some record ∧
      record.token_sha256 = tokenHash sha256 presented ∧ record.isValidAt now = true := by
  unfold TokenStore.authenticate
  dsimp only
  rw [isValidAt_iff]
  cases hlookup : store.by_hash.lookup (tokenHash sha256 presented) with
  | none => simp
  | some found =>
      dsimp only
      by_cases hhash : found.token_sha256 = tokenHash sha256 presented
      · rw [if_neg (not_not.mpr hhash)]
        cases hreason : found.invalidReason now with
        | none =>
            constructor
            · intro h
              cases h
              exact ⟨rfl, hhash, hreason⟩
            · rintro ⟨hsame, -, -⟩
              cases hsame
              rfl
        | some reason =>
            constructor
            · intro h
              cases h
            · rintro ⟨hsame, -, hvalid⟩
              cases hsame
              rw [hreason] at hvalid
              cases hvalid
      · rw [if_pos hhash]
        constructor
        · intro h
          cases h
        · rintro ⟨hsame, hequal, -⟩
          cases hsame
          exact absurd hequal hhash

/-- Which credentials a store takes after those it has. -/
theorem foldlM_isOk (records : List TokenRecord) :
    (∃ store', records.foldlM TokenStore.add store = .ok store') ↔
      (∀ record ∈ records, isHexDigest (toAsciiLowercase record.token_sha256) = true) ∧
      (records.map fun record => toAsciiLowercase record.token_sha256).Nodup ∧
      ∀ record ∈ records, store.by_hash.lookup (toAsciiLowercase record.token_sha256) = none := by
  induction records generalizing store with
  | nil =>
      constructor
      · rintro -
        refine ⟨?_, List.nodup_nil, ?_⟩
        · simp
        · simp
      · rintro -
        exact ⟨store, rfl⟩
  | cons first rest ih =>
      rw [List.foldlM_cons, List.map_cons, List.nodup_cons]
      constructor
      · rintro ⟨store', h⟩
        cases hadd : store.add first with
        | error text =>
            rw [hadd] at h
            cases h
        | ok next =>
            rw [hadd] at h
            obtain ⟨hdigest, hnone, hinsert⟩ := add_eq_ok hadd
            obtain ⟨hdigests, hnodup, hfree⟩ := ih.mp ⟨store', h⟩
            have hkept : ∀ record ∈ rest, toAsciiLowercase record.token_sha256
                ≠ toAsciiLowercase first.token_sha256 ∧
                store.by_hash.lookup (toAsciiLowercase record.token_sha256) = none := by
              intro record hmem
              have hlookup := hfree record hmem
              rw [hinsert, Map.lookup_insert_eq_ite] at hlookup
              split_ifs at hlookup with hsame
              exact ⟨hsame, hlookup⟩
            refine ⟨List.forall_mem_cons.mpr ⟨hdigest, hdigests⟩, ⟨?_, hnodup⟩,
              List.forall_mem_cons.mpr ⟨hnone, fun record hmem => (hkept record hmem).2⟩⟩
            intro hmem
            obtain ⟨record, hrecord, hsame⟩ := List.mem_map.mp hmem
            exact (hkept record hrecord).1 hsame
      · rintro ⟨hdigests, ⟨hfresh, hnodup⟩, hfree⟩
        obtain ⟨hdigest, hdigests⟩ := List.forall_mem_cons.mp hdigests
        obtain ⟨hnone, hfree⟩ := List.forall_mem_cons.mp hfree
        obtain ⟨next, hadd⟩ := exists_add hdigest hnone
        rw [hadd]
        refine ih.mpr ⟨hdigests, hnodup, fun record hmem => ?_⟩
        rw [(add_eq_ok hadd).2.2, Map.lookup_insert_eq_ite, if_neg, hfree record hmem]
        intro hsame
        exact hfresh (List.mem_map.mpr ⟨record, hmem, hsame⟩)

/-- The credential that a token authenticates as: the one that was configured with its hash, as the
hash is written, and that is neither revoked nor expired. -/
theorem authenticate_configured (h : TokenStore.new records = .ok store) :
    store.authenticate sha256 presented now = .ok record ↔ record ∈ records ∧
      record.token_sha256 = tokenHash sha256 presented ∧ record.isValidAt now = true := by
  rw [authenticate_ok_iff, lookup_new h]
  constructor
  · rintro ⟨⟨hmem, -⟩, hrest⟩
    exact ⟨hmem, hrest⟩
  · rintro ⟨hmem, hhash, hvalid⟩
    refine ⟨⟨hmem, ?_⟩, hhash, hvalid⟩
    rw [hhash]
    exact toAsciiLowercase_hexEncode _

/-- **What a configuration of credentials means.** It loads if its hashes are hex digests and all
different, case aside. Then, in whatever order they stand, a token authenticates as the credential
whose hash is written as that of the token, as long as this is neither revoked nor expired: as at
most one, and once refused it stays refused. -/
theorem authenticate_iff (sha256 : Bytes → BytesN 32) (records : List TokenRecord) :
    ((∃ store, TokenStore.new records = .ok store) ↔
      (∀ record ∈ records, isHexDigest (toAsciiLowercase record.token_sha256) = true) ∧
      (records.map fun record => toAsciiLowercase record.token_sha256).Nodup) ∧
    ∀ store, TokenStore.new records = .ok store → ∀ presented now,
      (∀ record, store.authenticate sha256 presented now = .ok record ↔ record ∈ records ∧
        record.token_sha256 = tokenHash sha256 presented ∧ record.isValidAt now = true) ∧
      ∀ later record, now ≤ later → store.authenticate sha256 presented later = .ok record →
        store.authenticate sha256 presented now = .ok record := by
  refine ⟨?_, fun store h presented now => ⟨fun record => authenticate_configured h, ?_⟩⟩
  · rw [TokenStore.new, foldlM_isOk]
    refine and_congr_right fun _ => and_iff_left ?_
    intro record _
    rfl
  · intro later record hle hlater
    obtain ⟨hlookup, hhash, hvalid⟩ := authenticate_ok_iff.mp hlater
    exact authenticate_ok_iff.mpr ⟨hlookup, hhash, isValidAt_of_le hle hvalid⟩

end

end StellarAgent.Signer
