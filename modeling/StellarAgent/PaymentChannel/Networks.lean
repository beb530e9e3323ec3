import StellarAgent.PaymentChannel.Payout

set_option autoImplicit false

/-! # Deployments side by side

Any number of PaymentChannels on any networks, and the holders of signing keys. A deployment is
named by its network id and its address there, so two networks are told apart by their ids.
Every deployment keeps its own world; what happens elsewhere on its network reaches it as foreign
token movements and closed ledgers.

Signatures are unforgeable: a call can present a signature only if everything that signature
verifies for was signed by the holder of the key (`Unforged`).
-/

namespace StellarAgent.PaymentChannel

open Lib Soroban

/-! ## Presenting a voucher -/

/-- The voucher that a call presents, with its signature. -/
def Call.voucher : Call → Option (Claim × BytesN 64)
  | .closeCooperative id r sequence c signature => some (⟨id, r, sequence, c⟩, signature)
  | .closeUnilateral _ id r sequence c signature => some (⟨id, r, sequence, c⟩, signature)
  | .challenge id r sequence c signature => some (⟨id, r, sequence, c⟩, signature)
  | _ => none

/-- The transaction is a call that presented `v` while `pk` was the key of its channel, and
returned. -/
def Tx.Presents (t : Tx) (v : Claim) (pk : BytesN 32) : Prop :=
  ∃ env call signature ch, t.Calls env call ∧ call.voucher = some (v, signature) ∧
    (loadChannels t.pre).lookup v.channel_id = some ch ∧ ch.voucher_signer = some pk

/-- A call that presents a voucher returns only if the channel's key signed it. -/
theorem exec_presents {env : Env} {w w' : State} {call : Call} {v : Claim}
    {signature : BytesN 64} (htyped : call.WellTyped) (h : exec env w call = .ok w')
    (hv : call.voucher = some (v, signature)) :
    ∃ ch a, Book.Presented (SignedBy env.platform env.contract signature) (book w) v ch a := by
  cases call with
  | closeCooperative id r sequence c signature' =>
      cases hv
      obtain ⟨⟨paid, w1⟩, hclose, _⟩ := Result.map_eq_ok.mp h
      obtain ⟨ch, a, _, hp, _⟩ :=
        closeCooperative_ok (v := ⟨id, r, sequence, c⟩) hclose ⟨htyped.1, htyped.2.2⟩
      exact ⟨ch, a, hp⟩
  | closeUnilateral closer id r sequence c signature' =>
      cases hv
      obtain ⟨ch, a, hp, _⟩ :=
        closeUnilateral_ok (v := ⟨id, r, sequence, c⟩) h ⟨htyped.1, htyped.2.2⟩
      exact ⟨ch, a, hp⟩
  | challenge id r sequence c signature' =>
      cases hv
      obtain ⟨ch, a, _, hp, _⟩ :=
        challenge_ok (v := ⟨id, r, sequence, c⟩) h ⟨htyped.1, htyped.2.2⟩
      exact ⟨ch, a, hp⟩
  | _ => cases hv

/-! ## The world of all deployments -/

structure Networks where
  world : Deployment → State
  /-- The messages that the holder of a key has signed. -/
  signed : BytesN 32 → Bytes → Prop

inductive NetworksAction where
  /-- The holder of `pk` signs a message. -/
  | sign (pk : BytesN 32) (message : Bytes)
  /-- Something happens to deployment `d`. -/
  | transact (d : Deployment) (a : Action Call)

/-- A presented signature verifies only for messages that were signed. -/
def Unforged (P : Platform) (signed : BytesN 32 → Bytes → Prop) (a : Action Call) : Prop :=
  ∀ env call v signature, a = .invoke env call → call.voucher = some (v, signature) →
    ∀ pk message, P.ed25519_verify pk message signature = true → signed pk message

def Networks.sign (n : Networks) (pk : BytesN 32) (message : Bytes) : Networks :=
  { n with signed := fun pk' m => n.signed pk' m ∨ (pk' = pk ∧ m = message) }

inductive Networks.Step (P : Platform) : Networks → NetworksAction → Networks → Prop
  | sign {n : Networks} {pk : BytesN 32} {message : Bytes} :
      Step P n (.sign pk message) (n.sign pk message)
  | transact {n : Networks} {d : Deployment} {a : Action Call} {w : State}
      (step : PaymentChannel.Step P d (n.world d) a w) (unforged : Unforged P n.signed a) :
      Step P n (.transact d a) { n with world := Function.update n.world d w }

/-- Before anything was called anywhere. -/
def Networks.Genesis (n : Networks) : Prop := ∀ d, PaymentChannel.Genesis (n.world d)

abbrev NetTx := Transition Networks NetworksAction

abbrev Networks.Runs (P : Platform) : Networks → List NetTx → Networks → Prop :=
  Run (Networks.Step P)

/-! ## What one deployment sees -/

/-- The transaction of deployment `d`, if it is one. -/
def NetTx.at (d : Deployment) (x : NetTx) : Option Tx :=
  match x.act with
  | .sign _ _ => none
  | .transact d' a => if d' = d then some ⟨x.pre.world d, a, x.post.world d⟩ else none

theorem NetTx.at_eq_some {d : Deployment} {x : NetTx} {t : Tx} (h : x.at d = some t) :
    ∃ a, x.act = .transact d a ∧ t = ⟨x.pre.world d, a, x.post.world d⟩ := by
  unfold NetTx.at at h
  split at h
  · cases h
  · rename_i d' a hact
    split at h
    · rename_i hd
      cases h
      exact ⟨a, hd ▸ hact, rfl⟩
    · cases h

section

variable {P : Platform} {n n' : Networks} {tr : List NetTx}

/-- **A run of everything is a run of each deployment.** -/
theorem Networks.Runs.at (h : Networks.Runs P n tr n') (d : Deployment) :
    PaymentChannel.Runs P d (n.world d) (tr.filterMap (NetTx.at d)) (n'.world d) := by
  refine Run.project (f := fun n => n.world d) h (fun m a m' hst => ?_)
  cases hst with
  | sign => exact .inl ⟨rfl, rfl⟩
  | @transact d' a w hstep _ =>
      -- the transaction of another deployment leaves this one where it is
      by_cases hd : d' = d
      · subst hd
        refine .inr ⟨a, if_pos rfl, ?_⟩
        simpa using hstep
      · refine .inl ⟨if_neg hd, ?_⟩
        exact Function.update_of_ne (Ne.symm hd) _ _

/-- **Authenticity of one presentation.** A presented voucher was signed by the key that the
channel had then, with exactly the message for this deployment. -/
theorem Networks.Step.presented_signed {x : NetTx} {d : Deployment} {t : Tx} {v : Claim}
    {pk : BytesN 32} (h : Networks.Step P x.pre x.act x.post) (ht : x.at d = some t)
    (hv : t.Presents v pk) : v.Typed ∧ x.pre.signed pk (v.message P d) := by
  obtain ⟨a, hact, rfl⟩ := NetTx.at_eq_some ht
  obtain ⟨env, call, signature, ch, ⟨hcall, hexec⟩, hvoucher, hl, hpk⟩ := hv
  rw [hact] at h
  generalize hpost : x.post = n' at h
  cases h with
  | transact hstep hunforged =>
      obtain rfl : a = .invoke env call := hcall
      obtain ⟨⟨hP, hd, htyped⟩, _⟩ := hstep
      obtain ⟨ch', _, hp⟩ := exec_presents htyped hexec hvoucher
      obtain ⟨pk', hpk', hv, hsig⟩ := hp.signed
      obtain rfl : ch = ch' := Option.some.inj (hl.symm.trans hp.channel)
      obtain rfl : pk = pk' := Option.some.inj (hpk.symm.trans hpk')
      subst hP hd
      exact ⟨hv, hunforged env call v signature rfl hvoucher pk _ hsig⟩

/-- The networks while deployment `d` is in world `w`. -/
def Networks.visit (n : Networks) (d : Deployment) (w : State) : Networks :=
  { n with world := Function.update n.world d w }

/-- The history of one deployment, told among the networks. -/
def Networks.visits (n : Networks) (d : Deployment) (tr : List Tx) : List NetTx :=
  tr.map (Transition.map (n.visit d) (fun t => .transact d t.act))

theorem NetTx.at_visit {d d' : Deployment} {t t' : Tx}
    (h : NetTx.at d' (t.map (n.visit d) (fun t => .transact d t.act)) = some t') :
    d' = d ∧ t' = t := by
  obtain ⟨a, hact, rfl⟩ := NetTx.at_eq_some h
  obtain ⟨rfl, rfl⟩ := NetworksAction.transact.inj hact
  refine ⟨rfl, ?_⟩
  simp [Transition.map, Networks.visit]

/-- **A run of one deployment is a run of everything**, if no presented signature is forged. -/
theorem Networks.Runs.of_runs {d : Deployment} {w w' : State} {txs : List Tx}
    (h : PaymentChannel.Runs P d w txs w') (hunforged : ∀ t ∈ txs, Unforged P n.signed t.act) :
    Networks.Runs P (n.visit d w) (n.visits d txs) (n.visit d w') := by
  induction h with
  | nil => exact Run.nil _
  | @snoc m m' a txs _ hst ih =>
      rw [List.forall_mem_append, List.forall_mem_singleton] at hunforged
      rw [Networks.visits, List.map_append]
      refine Run.snoc (ih hunforged.1) ?_
      have hstep : PaymentChannel.Step P d ((n.visit d m).world d) a m' := by
        have hworld : (n.visit d m).world d = m := Function.update_self ..
        rw [hworld]
        exact hst
      have hlifted := Networks.Step.transact hstep hunforged.2
      simpa [Networks.visit] using hlifted

end

end StellarAgent.PaymentChannel
