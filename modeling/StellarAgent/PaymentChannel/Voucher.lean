import StellarAgent.Lib.BigEndian
import StellarAgent.PaymentChannel.Storage

set_option autoImplicit false

/-! # Signed vouchers

`contracts/payment_channel/src/voucher.rs`: the bytes a voucher signature is made over, their
verification, and the order in which vouchers supersede each other; then the lemmas that make
the preimage injective, field by field.
-/

namespace StellarAgent.PaymentChannel

open Lib Soroban

/-- `b"STELLARAGENT-VOUCHER-V1"` -/
def VOUCHER_DOMAIN : Bytes :=
  [83, 84, 69, 76, 76, 65, 82, 65, 71, 69, 78, 84, 45, 86, 79, 85, 67, 72, 69, 82, 45, 86, 49]

def PREIMAGE_LEN : Nat := 151

/-- `sha256` of an address's XDR serialisation. -/
def addressDomain (P : Platform) (address : Address) : BytesN 32 := P.sha256 (P.to_xdr address)

/-- The bytes a voucher signature is made over, for deployment `d`. -/
def preimage (P : Platform) (d : Deployment) (channel_id : Nat) (recipient : Address)
    (sequence : Nat) (cumulative_amount : Int) : Bytes :=
  VOUCHER_DOMAIN ++ d.network_id.bytes ++ (addressDomain P d.address).bytes
    ++ (addressDomain P recipient).bytes ++ toBE 8 channel_id ++ toBE 8 sequence
    ++ intToBE 16 cumulative_amount

/-- `require_valid_signature`: the host's `ed25519_verify` panics on a bad signature. -/
def requireValidSignature (env : Env) (signer : BytesN 32) (channel_id : Nat)
    (recipient : Address) (sequence : Nat) (cumulative_amount : Int) (signature : BytesN 64) :
    Result Unit :=
  let message := preimage env.platform env.contract channel_id recipient sequence
    cumulative_amount
  if env.platform.ed25519_verify signer message signature then .ok ()
  else .error (.host "Error(Crypto, InvalidInput)")

/-- Whether `candidate` replaces `best`: strictly greater, on the amount. -/
def supersedes (candidate_amount best_amount : Int) : Bool := candidate_amount > best_amount

@[simp] theorem requireValidSignature_eq_ok {env : Env} {signer : BytesN 32} {channel_id : Nat}
    {recipient : Address} {sequence : Nat} {c : Int} {signature : BytesN 64} {u : Unit} :
    requireValidSignature env signer channel_id recipient sequence c signature = .ok u ↔
      env.platform.ed25519_verify signer
        (preimage env.platform env.contract channel_id recipient sequence c) signature
          = true := by
  unfold requireValidSignature
  dsimp only
  split <;> simp [*]

theorem requireValidSignature_eq_error {env : Env} {signer : BytesN 32} {channel_id : Nat}
    {recipient : Address} {sequence : Nat} {c : Int} {signature : BytesN 64} {e : Panic}
    (h : requireValidSignature env signer channel_id recipient sequence c signature = .error e) :
    e = .host "Error(Crypto, InvalidInput)" := by
  unfold requireValidSignature at h
  dsimp only at h
  split at h
  · cases h
  · cases h; rfl

theorem preimage_length (P : Platform) (d : Deployment) (channel_id : Nat) (recipient : Address)
    (sequence : Nat) (c : Int) :
    (preimage P d channel_id recipient sequence c).length = PREIMAGE_LEN := by
  simp [preimage, VOUCHER_DOMAIN, PREIMAGE_LEN, BytesN.length_eq]

/-- **Every field is bound by the preimage.** Fixed widths cut two equal preimages apart into
equal fields: the hashed addresses, and the integers modulo their width. -/
theorem preimage_fields {P : Platform} {d d' : Deployment} {id id' : Nat} {r r' : Address}
    {seq seq' : Nat} {c c' : Int}
    (h : preimage P d id r seq c = preimage P d' id' r' seq' c') :
    d.network_id = d'.network_id ∧ addressDomain P d.address = addressDomain P d'.address ∧
      addressDomain P r = addressDomain P r' ∧ id % 256 ^ 8 = id' % 256 ^ 8 ∧
      c % (256 ^ 16 : Nat) = c' % (256 ^ 16 : Nat) := by
  have hlen : ∀ x y : BytesN 32, x.bytes.length = y.bytes.length := fun x y => by
    rw [x.length_eq, y.length_eq]
  have hext : ∀ x y : BytesN 32, x.bytes = y.bytes → x = y := fun x y hxy => by
    cases x; cases y; cases hxy; rfl
  -- from the right: each field has a fixed width, so the rest has the same length on both sides
  obtain ⟨h5, hc⟩ := List.append_inj' h (by simp)
  obtain ⟨h4, _⟩ := List.append_inj' h5 (by simp)
  obtain ⟨h3, hid⟩ := List.append_inj' h4 (by simp)
  obtain ⟨h2, hr⟩ := List.append_inj' h3 (hlen _ _)
  obtain ⟨h1, ha⟩ := List.append_inj' h2 (hlen _ _)
  obtain ⟨_, hn⟩ := List.append_inj' h1 (hlen _ _)
  exact ⟨hext _ _ hn, hext _ _ ha, hext _ _ hr, toBE_mod_eq 8 hid, intToBE_emod_eq hc⟩

end StellarAgent.PaymentChannel
