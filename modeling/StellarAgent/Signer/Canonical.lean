import StellarAgent.Signer.Audit

set_option autoImplicit false

/-! # The text of a record determines the record

The canonical text skips absent options and empty lists and flattens the outcome into the record.
Nothing is lost by that: each field can be looked up by its name, so two records with the same
text are equal (`AuditRecord.line_injective`). With the encodings of text and digests being
injective too, what is hashed determines the record up to its hash (`hashInput_inj`).
-/

namespace StellarAgent.Signer

open Lib Soroban

/-! ## Bytes -/

theorem utf8_injective : Function.Injective utf8 := by
  intro s t h
  have hdecode : some s.toArray = some t.toArray := by
    rw [← List.utf8Decode?_utf8Encode, ← List.utf8Decode?_utf8Encode]
    exact congrArg (fun b : Bytes => b.toByteArray.utf8Decode?) h
  simpa using hdecode

theorem utf8_append (s t : List Char) : utf8 (s ++ t) = utf8 s ++ utf8 t := List.flatMap_append

/-- The two digits of a byte. -/
def hexPair (b : UInt8) : List Char :=
  [Nat.digitChar (b.toNat / 16), Nat.digitChar (b.toNat % 16)]

theorem digitChar_inj {m n : Nat} (hm : m < 16) (hn : n < 16)
    (h : Nat.digitChar m = Nat.digitChar n) : m = n := by
  have hall : ∀ a b : Fin 16, Nat.digitChar a = Nat.digitChar b → a = b := by decide
  have hfin := hall ⟨m, hm⟩ ⟨n, hn⟩ h
  exact congrArg Fin.val hfin

theorem hexPair_inj {b c : UInt8} (h : hexPair b = hexPair c) : b = c := by
  obtain ⟨hhigh, hlow⟩ := List.cons.inj h
  have hb := b.toNat_lt
  have hc := c.toNat_lt
  have hdiv : b.toNat / 16 = c.toNat / 16 := digitChar_inj (by omega) (by omega) hhigh
  have hmod : b.toNat % 16 = c.toNat % 16 :=
    digitChar_inj (by omega) (by omega) (List.cons.inj hlow).1
  have hnat : b.toNat = c.toNat := by omega
  exact UInt8.toNat_inj.mp hnat

theorem hexEncode_injective : Function.Injective hexEncode := by
  intro bs cs h
  have hpairs : bs.flatMap hexPair = cs.flatMap hexPair := String.ofList_injective h
  clear h
  induction bs generalizing cs with
  | nil =>
      cases cs with
      | nil => rfl
      | cons c cs => cases hpairs
  | cons b bs ih =>
      cases cs with
      | nil => cases hpairs
      | cons c cs =>
          rw [List.flatMap_cons, List.flatMap_cons] at hpairs
          obtain ⟨hpair, hrest⟩ := List.append_inj hpairs rfl
          rw [hexPair_inj hpair, ih hrest]

theorem hexEncode_length (bytes : Bytes) : (hexEncode bytes).toList.length = 2 * bytes.length := by
  unfold hexEncode
  rw [String.toList_ofList]
  induction bytes with
  | nil => rfl
  | cons b bytes ih =>
      rw [List.flatMap_cons, List.length_append, ih, List.length_cons, List.length_cons,
        List.length_cons, List.length_nil]
      omega

theorem genesis_length : GENESIS_HASH.toList.length = 64 := by
  unfold GENESIS_HASH
  rw [String.toList_ofList, List.length_replicate]

theorem computeHash_length (sha256 : Bytes → BytesN 32) (r : AuditRecord) :
    (r.computeHash sha256).toList.length = 64 := by
  unfold AuditRecord.computeHash
  rw [hexEncode_length, (sha256 r.hashInput).length_eq]

/-! ## Fields by name -/

theorem lookup_optionField (name key : String) (value : Option String) :
    (optionField name value).lookup key = if key == name then value.map .str else none := by
  cases value with
  | none => simp [optionField]
  | some text =>
      by_cases hkey : key == name
      · simp [optionField, List.lookup_cons, hkey]
      · simp [optionField, List.lookup_cons, hkey]

/-- A list field that is there has its items, one that is skipped has none. -/
theorem lookup_listField (name key : String) (values : List Json) :
    (listField name values).lookup key
      = if key == name ∧ values ≠ [] then some (.arr values) else none := by
  unfold listField
  by_cases hempty : values = []
  · simp [hempty]
  · by_cases hkey : key == name
    · simp [hempty, List.lookup_cons, hkey]
    · simp [hempty, List.lookup_cons, hkey]

/-! ## Records -/

theorem Operation.toJson_injective : Function.Injective Operation.toJson := by
  intro a b h
  cases a <;> cases b <;> first | rfl | simp [Operation.toJson] at h

theorem Violation.toJson_injective : Function.Injective Violation.toJson := by
  intro v w h
  have hfields := Json.obj.inj h
  simp only [List.cons.injEq, Prod.mk.injEq, Json.str.injEq] at hfields
  cases v
  cases w
  simp_all

theorem str_injective : Function.Injective Json.str := fun _ _ h => Json.str.inj h

/-- An option is written without loss. -/
theorem option_str_inj {a b : Option String} (h : a.map Json.str = b.map Json.str) : a = b :=
  Option.map_injective str_injective h

/-- A list is written without loss, although an empty one is skipped. -/
theorem list_arr_inj {α : Type} {f : α → Json} (hf : Function.Injective f) {xs ys : List α}
    (h : (if xs = [] then none else some (Json.arr (xs.map f)))
      = if ys = [] then none else some (Json.arr (ys.map f))) : xs = ys := by
  by_cases hxs : xs = []
  · by_cases hys : ys = []
    · rw [hxs, hys]
    · simp [hxs, hys] at h
  · by_cases hys : ys = []
    · simp [hxs, hys] at h
    · rw [if_neg hxs, if_neg hys] at h
      exact List.map_injective_iff.mpr hf (Json.arr.inj (Option.some.inj h))

theorem RequestSummary.toJson_injective : Function.Injective RequestSummary.toJson := by
  intro s t h
  have hfield := fun name : String => congrArg (List.lookup name) (Json.obj.inj h)
  have hnetwork := hfield "network"
  have hsource := hfield "source_account"
  have henvelope := hfield "envelope_sha256"
  have hcalls := hfield "calls"
  have htotal := hfield "total_amount_stroops"
  simp [List.lookup_append, lookup_optionField, lookup_listField]
    at hnetwork hsource henvelope hcalls htotal
  cases s
  cases t
  rw [RequestSummary.mk.injEq]
  exact ⟨option_str_inj hnetwork, option_str_inj hsource, option_str_inj henvelope,
    list_arr_inj str_injective hcalls, option_str_inj htotal⟩

/-- The names that the flattened outcome may bring into the record. -/
def outcomeNames : List String :=
  ["outcome", "payload_sha256", "signature", "reason", "violations"]

theorem Outcome.lookup_fields_none {outcome : Outcome} {name : String}
    (h : name ∉ outcomeNames) : outcome.fields.lookup name = none := by
  simp only [outcomeNames, List.mem_cons, List.not_mem_nil, or_false, not_or] at h
  obtain ⟨houtcome, hpayload, hsignature, hreason, hviolations⟩ := h
  cases outcome with
  | Signed payload_sha256 signature =>
      simp [Outcome.fields, List.lookup_cons, beq_false_of_ne houtcome,
        beq_false_of_ne hpayload, beq_false_of_ne hsignature]
  | Refused reason violations =>
      simp [Outcome.fields, List.lookup_cons, lookup_listField, beq_false_of_ne houtcome,
        beq_false_of_ne hreason, hviolations]

theorem Outcome.fields_injective {a b : Outcome}
    (h : ∀ name ∈ outcomeNames, a.fields.lookup name = b.fields.lookup name) : a = b := by
  have htag := h "outcome" (by decide)
  cases a with
  | Signed payload_sha256 signature =>
      cases b with
      | Signed payload_sha256' signature' =>
          have hpayload := h "payload_sha256" (by decide)
          have hsignature := h "signature" (by decide)
          simp [Outcome.fields, List.lookup_cons] at hpayload hsignature
          rw [hpayload, hsignature]
      | Refused reason violations => simp [Outcome.fields] at htag
  | Refused reason violations =>
      cases b with
      | Signed payload_sha256 signature => simp [Outcome.fields] at htag
      | Refused reason' violations' =>
          have hreason := h "reason" (by decide)
          have hviolations := h "violations" (by decide)
          simp [Outcome.fields, List.lookup_cons, lookup_listField] at hreason hviolations
          rw [hreason, list_arr_inj Violation.toJson_injective hviolations]

/-- The names of an outcome are not those of other fields of the record. -/
theorem AuditRecord.lookup_outcome (r : AuditRecord) {name : String} (h : name ∈ outcomeNames) :
    r.fields.lookup name = r.outcome.fields.lookup name := by
  simp only [outcomeNames, List.mem_cons, List.not_mem_nil, or_false] at h
  rcases h with rfl | rfl | rfl | rfl | rfl <;>
    simp [AuditRecord.fields, List.lookup_append, List.lookup_cons, lookup_optionField]

theorem AuditRecord.line_injective : Function.Injective AuditRecord.line := by
  intro r s h
  have hobj := Json.render_injective h
  have hfield := fun name : String => congrArg (List.lookup name) (Json.obj.inj hobj)
  have houtcome : r.outcome = s.outcome :=
    Outcome.fields_injective fun name hname => by
      rw [← r.lookup_outcome hname, ← s.lookup_outcome hname, hfield]
  have hnone : ∀ (outcome : Outcome) (name : String), name ∉ outcomeNames →
      outcome.fields.lookup name = none := fun _ _ hname => Outcome.lookup_fields_none hname
  have hseq := hfield "seq"
  have hat := hfield "at"
  have hid := hfield "request_id"
  have hsubject := hfield "subject"
  have htoken := hfield "token_id"
  have hkey := hfield "key"
  have hpolicy := hfield "policy"
  have hoperation := hfield "operation"
  have hrequest := hfield "request"
  have hprev := hfield "prev_hash"
  have hhash := hfield "hash"
  simp [AuditRecord.fields, List.lookup_append, List.lookup_cons, lookup_optionField, hnone,
    outcomeNames] at hseq hat hid hsubject htoken hkey hpolicy hoperation hrequest hprev hhash
  cases r
  cases s
  rw [AuditRecord.mk.injEq]
  exact ⟨hseq, hat, hid, option_str_inj hsubject, option_str_inj htoken, option_str_inj hkey,
    option_str_inj hpolicy, Operation.toJson_injective hoperation,
    RequestSummary.toJson_injective hrequest, houtcome, hprev, hhash⟩

/-! ## What is hashed -/

/-- The bytes that are hashed determine the record up to its hash, if the hash of the record
before is as long as a hash is. -/
theorem hashInput_inj {r s : AuditRecord}
    (hlength : r.prev_hash.toList.length = s.prev_hash.toList.length)
    (h : r.hashInput = s.hashInput) : r.unhashed = s.unhashed := by
  have htext : utf8 (r.prev_hash.toList ++ r.unhashed.line)
      = utf8 (s.prev_hash.toList ++ s.unhashed.line) := by
    rw [utf8_append, utf8_append]
    exact h
  have hline := (List.append_inj (utf8_injective htext) hlength).2
  exact AuditRecord.line_injective hline

end StellarAgent.Signer
