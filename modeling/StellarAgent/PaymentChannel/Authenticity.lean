import StellarAgent.PaymentChannel.Networks

set_option autoImplicit false

/-! # Vouchers are authentic and settle once

What a deployment settles was presented to it, in that transaction or in an earlier one that
opened or raised the close, and was then signed by the channel's key (`Runs.settled_presented`).
The signed message names network, deployment, recipient, channel and amount; a deployment settles
ever larger amounts for a pair (`Runs.settled_increasing`). So over all deployments of all
networks one message is settled at most once (`voucher_authenticity`).
-/

namespace StellarAgent.PaymentChannel

open Lib Soroban

/-! ## Where a close in flight comes from -/

/-- The close in flight stands at the voucher `v`. -/
def Claim.StandsIn (v : Claim) (key : PairKey) (s : Settlement) : Prop :=
  v.key = key ∧ v.sequence = s.best_sequence ∧ v.cumulative_amount = s.best_cumulative

section

variable {V : BytesN 32 → Claim → Prop} {b b' : Book} {op : BookOp} {key : PairKey}
  {s : Settlement} {v : Claim}

theorem Book.Step.flight_origin (h : Book.Step V b op b')
    (hs : b'.settlements.lookup key = some s) :
    b.settlements.lookup key = some s ∨
      ∃ v, (op = .disputed v ∨ op = .raised v) ∧ v.StandsIn key s := by
  cases h with
  | @disputed v ch a by_payer _ _ =>
      rcases Map.lookup_insert_some hs with ⟨rfl, rfl⟩ | ⟨_, hbefore⟩
      · exact .inr ⟨v, .inl rfl, rfl, rfl, rfl⟩
      · exact .inl hbefore
  | @raised v ch a s' _ _ _ _ =>
      rcases Map.lookup_insert_some hs with ⟨rfl, rfl⟩ | ⟨_, hbefore⟩
      · exact .inr ⟨v, .inr rfl, rfl, rfl, rfl⟩
      · exact .inl hbefore
  | @finalized v _ _ _ _ _ _ _ _ _ =>
      have hbefore : (b.settlements.erase v.key).lookup key = some s := hs
      exact .inl (Map.lookup_erase_some hbefore).2
  | _ => exact .inl hs

/-- A settlement while a close is in flight settles the voucher the close stands at. -/
theorem Book.Step.settled_stands {penalty : Int} (h : Book.Step V b (.settled v penalty) b')
    (hs : b.settlements.lookup v.key = some s) : v.StandsIn v.key s := by
  generalize hop : BookOp.settled v penalty = op at h
  cases h with
  | cooperative _ hquiet =>
      cases hop
      cases hquiet.symm.trans hs
  | finalized _ hs' _ _ hsequence hbest =>
      cases hop
      cases hs.symm.trans hs'
      exact ⟨rfl, hsequence, hbest⟩
  | _ => cases hop

end

section

variable {P : Platform} {d : Deployment} {w w' : State} {a : Action Call} {v : Claim}
  {tr : List Tx}

/-- What a returned call presents, the channel's key stood for. -/
theorem Tx.Calls.presents {t : Tx} {env : Env} {call : Call} {signature : BytesN 64}
    (h : t.Calls env call) (htyped : call.WellTyped) (hv : call.voucher = some (v, signature)) :
    ∃ pk, t.Presents v pk := by
  obtain ⟨ch, _, hp⟩ := exec_presents htyped h.2 hv
  obtain ⟨pk, hpk, _⟩ := hp.signed
  exact ⟨pk, env, call, signature, ch, h, hv, hp.channel, hpk⟩

/-- Opening or raising a close presents the voucher. -/
theorem Refines.flight_presented (hst : Step P d w a w') (h : Refines P d w a w')
    (hop : opOf a w'.events = .disputed v ∨ opOf a w'.events = .raised v) :
    ∃ pk, Tx.Presents ⟨w, a, w'⟩ v pk := by
  obtain ⟨env, call, rfl, htyped, hcalls⟩ :=
    step_called hst (by rcases hop with hop | hop <;> rw [hop] <;> nofun)
  have hreported := h.reported
  rcases hop with hop | hop
  · rw [hop] at hreported
    cases call with
    | closeUnilateral closer id r sequence c signature =>
        obtain rfl := hreported
        exact hcalls.presents htyped rfl
    | _ => exact hreported.elim
  · rw [hop] at hreported
    cases call with
    | challenge id r sequence c signature =>
        obtain rfl := hreported
        exact hcalls.presents htyped rfl
    | _ => exact hreported.elim

/-- A settlement presents its voucher itself, or finalizes a close that stands at it. -/
theorem Refines.settled_presented {penalty : Int} (hst : Step P d w a w')
    (h : Refines P d w a w') (hop : opOf a w'.events = .settled v penalty) :
    (∃ pk, Tx.Presents ⟨w, a, w'⟩ v pk) ∨
      ∃ s, (book w).settlements.lookup v.key = some s ∧ v.StandsIn v.key s := by
  obtain ⟨env, call, rfl, htyped, hcalls⟩ := step_called hst (by rw [hop]; nofun)
  have hreported := h.reported
  have hstep := h.step
  rw [hop] at hreported hstep
  cases call with
  | closeCooperative id r sequence c signature =>
      obtain ⟨rfl, _⟩ := hreported
      exact .inl (hcalls.presents htyped rfl)
  | finalize id r =>
      obtain ⟨⟨paid, w1⟩, hfinal, _⟩ := Result.map_eq_ok.mp hcalls.2
      obtain ⟨_, s, _, _, _, hs, _⟩ := finalize_ok hfinal
      have hkey : v.key = (id, r) := hreported
      have hs' : (book w).settlements.lookup v.key = some s := by
        rw [hkey]
        exact hs
      exact .inr ⟨s, hs', hstep.settled_stands hs'⟩
  | _ => exact hreported.elim

/-! ## The history of one deployment -/

/-- **What is settled was presented**, by the settlement itself or by an earlier call. -/
theorem Runs.settled_presented {xs ys : List Tx} {t : Tx} {penalty : Int} (h0 : Genesis w)
    (h : Runs P d w (xs ++ t :: ys) w') (hop : t.op = .settled v penalty) :
    ∃ y ∈ xs ++ [t], ∃ pk, y.Presents v pk := by
  obtain ⟨hrun, hst, _⟩ := h.around
  -- every close in flight stands at a voucher of the history
  have hflight : ∀ key s, (book t.pre).settlements.lookup key = some s →
      ∃ y ∈ xs, ∃ v pk, Tx.Presents y v pk ∧ v.StandsIn key s := by
    refine Runs.history (Q := fun tr w => ∀ key s, (book w).settlements.lookup key = some s →
      ∃ y ∈ tr, ∃ v pk, Tx.Presents y v pk ∧ v.StandsIn key s) hrun (genesis_inv h0) ?_ ?_
    · intro key s hs
      rw [genesis_book h0] at hs
      simp at hs
    · intro tr m a m' _ ih hst hrefines key s hs
      -- a close in flight was there before the step, or the step presented its voucher
      rcases hrefines.step.flight_origin hs with hs | ⟨v, hop, hstands⟩
      · obtain ⟨y, hy, hpresents⟩ := ih key s hs
        exact ⟨y, List.mem_append_left _ hy, hpresents⟩
      · obtain ⟨pk, hpk⟩ := hrefines.flight_presented hst hop
        exact ⟨_, List.mem_append_right _ (List.mem_singleton.mpr rfl), v, pk, hpk, hstands⟩
  have hrefines := step_refines (Runs.refines hrun (genesis_inv h0)).2 hst
  rcases hrefines.settled_presented hst hop with hnow | ⟨s, hs, hkey, hsequence, hbest⟩
  · exact ⟨t, List.mem_append_right _ (List.mem_singleton.mpr rfl), hnow⟩
  · obtain ⟨y, hy, v', pk, hpresents, hkey', hsequence', hbest'⟩ := hflight _ s hs
    have hv : v' = v := by
      cases v
      cases v'
      simp only [Claim.key, Prod.mk.injEq] at hkey'
      simp_all
    exact ⟨y, List.mem_append_left _ hy, pk, hv ▸ hpresents⟩

/-- **A pair is settled at ever larger amounts.** -/
theorem Runs.settled_increasing (h0 : Genesis w) (h : Runs P d w tr w') :
    tr.Pairwise (fun x y => ∀ v penalty v' penalty', x.op = .settled v penalty →
      y.op = .settled v' penalty' → v.key = v'.key →
      v.cumulative_amount < v'.cumulative_amount) := by
  -- together with: nothing settled exceeds the counter of its pair
  refine (Runs.history (Q := fun tr w => tr.Pairwise _ ∧ ∀ x ∈ tr, ∀ v penalty,
    x.op = .settled v penalty → v.cumulative_amount ≤ (book w).settledFor v.key) h
    (genesis_inv h0) ⟨List.Pairwise.nil, by simp⟩ ?_).1
  rintro tr m a m' hinv ⟨hpairs, hcounter⟩ _ hrefines
  have hstep := hrefines.step
  refine ⟨?_, ?_⟩
  · rw [List.pairwise_append]
    refine ⟨hpairs, List.pairwise_singleton _ _, ?_⟩
    intro x hx y hy v penalty v' penalty' hv hv' hkey
    obtain rfl := List.mem_singleton.mp hy
    have hop : opOf a m'.events = .settled v' penalty' := hv'
    rw [hop] at hstep
    obtain ⟨hfresh, _⟩ := hstep.settled_spec hinv
    calc v.cumulative_amount ≤ (book m).settledFor v.key := hcounter x hx v penalty hv
      _ = (book m).settledFor v'.key := by rw [hkey]
      _ < v'.cumulative_amount := hfresh
  · intro x hx v penalty hv
    -- the counter of a pair never falls
    have hmono : (book m).settledFor v.key ≤ (book m').settledFor v.key := by
      by_cases hsettles : ∃ v' penalty', opOf a m'.events = .settled v' penalty' ∧ v'.key = v.key
      · obtain ⟨v', penalty', hop, hkey⟩ := hsettles
        rw [hop] at hstep
        obtain ⟨hfresh, hpenalty, _, hafter⟩ := hstep.settled_spec hinv
        rw [hafter, if_pos hkey.symm, ← hkey]
        omega
      · rw [hstep.settledFor_keep (fun v' penalty' hop hkey => hsettles ⟨v', penalty', hop, hkey⟩)]
    -- an earlier settlement is below the counter already; this one moves the counter to or above it
    rcases List.mem_append.mp hx with hx | hx
    · calc v.cumulative_amount ≤ (book m).settledFor v.key := hcounter x hx v penalty hv
        _ ≤ (book m').settledFor v.key := hmono
    · obtain rfl := List.mem_singleton.mp hx
      have hop : opOf a m'.events = .settled v penalty := hv
      rw [hop] at hstep
      obtain ⟨_, hpenalty, _, hafter⟩ := hstep.settled_spec hinv
      rw [hafter, if_pos rfl]
      omega

end

/-! ## The history of all deployments -/

/-- Deployment `d` settles the voucher `v` here. -/
def NetTx.Settles (x : NetTx) (d : Deployment) (v : Claim) : Prop :=
  ∃ t penalty, x.at d = some t ∧ t.op = .settled v penalty

/-- Here `v` is presented to deployment `d` while `pk` is the key of its channel. -/
def NetTx.Presents (x : NetTx) (d : Deployment) (v : Claim) (pk : BytesN 32) : Prop :=
  ∃ t, x.at d = some t ∧ t.Presents v pk

/-- The addresses that the settled messages hash. -/
def settledAddresses (tr : List NetTx) : Set Address :=
  {address | ∃ x ∈ tr, ∃ d v, x.Settles d v ∧ (address = d.address ∨ address = v.recipient)}

theorem isI128_eq_of_emod {c c' : Int} (h : IsI128 c) (h' : IsI128 c')
    (hmod : c % (256 ^ 16 : Nat) = c' % (256 ^ 16 : Nat)) : c = c' := by
  obtain ⟨hlow, hhigh⟩ := h
  obtain ⟨hlow', hhigh'⟩ := h'
  norm_num [I128_MIN, I128_MAX] at *
  omega

/-- **Equal messages say the same** of the same deployment, where the hashes of the addresses
tell them apart. -/
theorem Claim.message_inj {P : Platform} {d d' : Deployment} {v v' : Claim} {used : Set Address}
    (hxdr : Set.InjOn P.to_xdr used) (hsha : Set.InjOn P.sha256 (P.to_xdr '' used))
    (hv : v.Typed) (hv' : v'.Typed) (hd : d.address ∈ used) (hd' : d'.address ∈ used)
    (hr : v.recipient ∈ used) (hr' : v'.recipient ∈ used)
    (h : v.message P d = v'.message P d') :
    d = d' ∧ v.key = v'.key ∧ v.cumulative_amount = v'.cumulative_amount := by
  have hdomain : Set.InjOn (addressDomain P) used :=
    hsha.comp hxdr (Set.mapsTo_image P.to_xdr used)
  obtain ⟨hnetwork, hcontract, hrecipient, hid, hc⟩ := preimage_fields h
  have haddress : d.address = d'.address := hdomain hd hd' hcontract
  have hr : v.recipient = v'.recipient := hdomain hr hr' hrecipient
  -- ids and amounts are in range, so equal modulo their width is equal
  have hid : v.channel_id = v'.channel_id := by
    have hle := hv.1
    have hle' := hv'.1
    norm_num [U64_MAX] at *
    omega
  refine ⟨?_, ?_, isI128_eq_of_emod hv.2 hv'.2 hc⟩
  · cases d
    cases d'
    simp_all
  · rw [Claim.key, Claim.key, hid, hr]

section

variable {P : Platform} {n n' : Networks} {tr : List NetTx} {d d' : Deployment} {v v' : Claim}

/-- What is settled anywhere was presented there, and signed for there. -/
theorem Networks.Runs.settled_signed {xs ys : List NetTx} {x : NetTx} (h0 : n.Genesis)
    (h : Networks.Runs P n (xs ++ x :: ys) n') (hx : x.Settles d v) :
    ∃ y ∈ xs ++ [x], ∃ pk, y.Presents d v pk ∧ v.Typed ∧ y.pre.signed pk (v.message P d) := by
  obtain ⟨t, penalty, ht, hop⟩ := hx
  have hrun := h.at d
  rw [List.filterMap_append, List.filterMap_cons_some ht] at hrun
  obtain ⟨t', ht', pk, hpresents⟩ := hrun.settled_presented (h0 d) hop
  have hmem : t' ∈ (xs ++ [x]).filterMap (NetTx.at d) := by
    rw [List.filterMap_append, List.filterMap_cons_some ht]
    exact ht'
  obtain ⟨y, hy, hat⟩ := List.mem_filterMap.mp hmem
  have hy' : y ∈ xs ++ x :: ys := by
    rw [List.append_cons]
    exact List.mem_append_left _ hy
  obtain ⟨_, _, _, _, hst, _⟩ := h.of_mem hy'
  exact ⟨y, hy, pk, ⟨t', hat, hpresents⟩, hst.presented_signed hat hpresents⟩

theorem Networks.Runs.settled_typed {x : NetTx} (h0 : n.Genesis) (h : Networks.Runs P n tr n')
    (hmem : x ∈ tr) (hx : x.Settles d v) : v.Typed := by
  obtain ⟨xs, ys, rfl⟩ := List.append_of_mem hmem
  obtain ⟨_, _, _, _, htyped, _⟩ := h.settled_signed h0 hx
  exact htyped

/-- One deployment never settles one voucher twice. -/
theorem Networks.Runs.settled_increasing (h0 : n.Genesis) (h : Networks.Runs P n tr n') :
    tr.Pairwise (fun x y => ∀ d v v', x.Settles d v → y.Settles d v' → v.key = v'.key →
      v.cumulative_amount < v'.cumulative_amount) := by
  rw [List.pairwise_iff_forall_sublist]
  rintro x y hsub d v v' ⟨t, penalty, ht, hop⟩ ⟨t', penalty', ht', hop'⟩ hkey
  have hpairs := (h.at d).settled_increasing (h0 d)
  rw [List.pairwise_filterMap, List.pairwise_iff_forall_sublist] at hpairs
  exact hpairs hsub t ht t' ht' v penalty v' penalty' hop hop' hkey

/-- **Voucher authenticity and no cross-replay.** Whatever deployment settles a voucher, the key
that its channel had when the voucher was presented has signed exactly the message for this
network, deployment, recipient, channel and amount. One message is settled in at most one
deployment for one pair, and there at most once. Assumed of the platform: no two of the addresses
involved have the same XDR, and no two of these XDRs the same SHA-256 digest. -/
theorem voucher_authenticity (h0 : n.Genesis) (h : Networks.Runs P n tr n')
    (hxdr : Set.InjOn P.to_xdr (settledAddresses tr))
    (hsha : Set.InjOn P.sha256 (P.to_xdr '' settledAddresses tr)) :
    (∀ xs x ys d v, tr = xs ++ x :: ys → x.Settles d v →
      ∃ y ∈ xs ++ [x], ∃ pk, y.Presents d v pk ∧ y.pre.signed pk (v.message P d)) ∧
    (∀ x ∈ tr, ∀ y ∈ tr, ∀ d v d' v', x.Settles d v → y.Settles d' v' →
      v.message P d = v'.message P d' → d = d' ∧ v.key = v'.key) ∧
    tr.Pairwise (fun x y => ∀ d v d' v', x.Settles d v → y.Settles d' v' →
      v.message P d ≠ v'.message P d') := by
  have hinj : ∀ x ∈ tr, ∀ y ∈ tr, ∀ d v d' v', x.Settles d v → y.Settles d' v' →
      v.message P d = v'.message P d' →
      d = d' ∧ v.key = v'.key ∧ v.cumulative_amount = v'.cumulative_amount := by
    intro x hx y hy d v d' v' hv hv' hmessage
    exact Claim.message_inj hxdr hsha (h.settled_typed h0 hx hv) (h.settled_typed h0 hy hv')
      ⟨x, hx, d, v, hv, .inl rfl⟩ ⟨y, hy, d', v', hv', .inl rfl⟩
      ⟨x, hx, d, v, hv, .inr rfl⟩ ⟨y, hy, d', v', hv', .inr rfl⟩ hmessage
  refine ⟨?_, ?_, ?_⟩
  · rintro xs x ys d v rfl hx
    obtain ⟨y, hy, pk, hpresents, _, hsigned⟩ := h.settled_signed h0 hx
    exact ⟨y, hy, pk, hpresents, hsigned⟩
  · intro x hx y hy d v d' v' hv hv' hmessage
    obtain ⟨hd, hkey, _⟩ := hinj x hx y hy d v d' v' hv hv' hmessage
    exact ⟨hd, hkey⟩
  -- equal messages are for one deployment and one pair, where the later amount is larger
  · refine List.Pairwise.imp_of_mem ?_ (h.settled_increasing h0)
    intro x y hx hy hlt d v d' v' hv hv' hmessage
    obtain ⟨rfl, hkey, hc⟩ := hinj x hx y hy d v d' v' hv hv' hmessage
    exact absurd hc (hlt d v v' hv hv' hkey).ne

end

/-! ## A dispute among the networks -/

section

open Scenario

/-- The payer's voucher key signs for 20 and for 50. The agent closes with 20, the recipient
challenges with 50, and the close is finalized. -/
def disputeScript : List Move := [
  .invoke [owner] honestSwap (.openChannel owner agent usdc 300 100 .Daily),
  .invoke [owner] honestSwap (.enableVouchers owner 1 voucherKey 720),
  .invoke [owner] honestSwap (.allocate owner 1 recipient 100),
  .invoke [agent] honestSwap (.closeUnilateral agent 1 recipient 1 20 signature20),
  .invoke [] honestSwap (.challenge 1 recipient 2 50 signature50),
  .wait 720,
  .invoke [] honestSwap (.finalize 1 recipient)]

/-- The script is legal, and does what it says. -/
theorem dispute_executed :
    legal start disputeScript = true ∧ (history disputeScript).map Tx.op =
      [.opened 1 300, .enabled 1 voucherKey 720, .reserved 1 recipient 100,
        .disputed ⟨1, recipient, 1, 20⟩, .raised ⟨1, recipient, 2, 50⟩, .idle,
        .settled ⟨1, recipient, 2, 50⟩ 30] := by decide +kernel

/-- Every deployment of every network, before its first call and before any signature. -/
def untouched : Networks where
  world := fun _ => start
  signed := fun _ _ => False

/-- The key has signed both vouchers. -/
def bothSigned : Networks :=
  (untouched.sign voucherKey (toBE 151 (message 1 20))).sign voucherKey (toBE 151 (message 2 50))

def disputeHistory : List NetTx :=
  [⟨untouched, .sign voucherKey (toBE 151 (message 1 20)),
      untouched.sign voucherKey (toBE 151 (message 1 20))⟩] ++
    [⟨untouched.sign voucherKey (toBE 151 (message 1 20)),
      .sign voucherKey (toBE 151 (message 2 50)), bothSigned⟩] ++
    bothSigned.visits deployed (history disputeScript)

theorem verifies_of_signed {pk : BytesN 32} {bytes : Bytes} {signature : BytesN 64}
    (hsignature : signature = signature20 ∨ signature = signature50)
    (h : verifies pk bytes signature = true) : bothSigned.signed pk bytes := by
  have h20 : signature20 ≠ signature50 ∧ signature20 ≠ signature90 := by decide
  have h50 : signature50 ≠ signature90 := by decide
  simp only [verifies, Bool.and_eq_true, decide_eq_true_eq, List.any_cons, List.any_nil,
    Bool.or_eq_true, Bool.or_false] at h
  obtain ⟨hpk, hcases⟩ := h
  rcases hcases with ⟨hbytes, _⟩ | ⟨hbytes, _⟩ | ⟨_, h90⟩
  · exact .inl (.inr ⟨hpk, hbytes⟩)
  · exact .inr ⟨hpk, hbytes⟩
  · rcases hsignature with rfl | rfl
    · exact absurd h90 h20.2
    · exact absurd h90 h50

/-- The number `message 1 20` is the preimage of the voucher over 20. -/
example : verifies voucherKey (preimage testnet deployed 1 recipient 1 20) signature20 = true := by
  decide +kernel

theorem dispute_unforged :
    ∀ t ∈ history disputeScript, Unforged testnet bothSigned.signed t.act := by
  rintro t ht env call v signature hact hv pk bytes hverify
  refine verifies_of_signed ?_ hverify
  have hcalls : ∀ t ∈ history disputeScript, ∀ env call, t.act = .invoke env call →
      ∀ v signature, call.voucher = some (v, signature) →
        signature = signature20 ∨ signature = signature50 := by
    simp only [history, disputeScript, List.map_cons, List.map_nil, Move.action, play,
      List.forall_mem_cons]
    simp [Call.voucher]
  exact hcalls t ht env call hact v signature hv

theorem dispute_runs :
    ∃ n', Networks.Runs testnet untouched disputeHistory n' := by
  have hruns := Networks.Runs.of_runs (n := bothSigned)
    (script_runs disputeScript dispute_executed.1) dispute_unforged
  have hstart : bothSigned.visit deployed start = bothSigned := by
    have hworld : bothSigned.world deployed = start := rfl
    unfold Networks.visit
    rw [← hworld, Function.update_eq_self]
  rw [hstart] at hruns
  exact ⟨_, Run.append (Run.append (Run.single .sign) (Run.single .sign)) hruns⟩

theorem dispute_addresses : settledAddresses disputeHistory ⊆ {contract, recipient} := by
  rintro address ⟨x, hx, d, v, ⟨t, penalty, ht, hop⟩, haddress⟩
  have hrecipient : ∀ t ∈ history disputeScript, ∀ v penalty, t.op = .settled v penalty →
      v.recipient = recipient := by
    intro t ht v penalty hop
    have hmem : BookOp.settled v penalty ∈ (history disputeScript).map Tx.op :=
      List.mem_map.mpr ⟨t, ht, hop⟩
    rw [dispute_executed.2] at hmem
    simp only [List.mem_cons, List.not_mem_nil, reduceCtorEq, or_false, false_or,
      BookOp.settled.injEq] at hmem
    rw [hmem.1]
  rcases List.mem_append.mp hx with hx | hx
  · rcases List.mem_append.mp hx with hx | hx
    · obtain rfl := List.mem_singleton.mp hx
      cases ht
    · obtain rfl := List.mem_singleton.mp hx
      cases ht
  · obtain ⟨t', ht', rfl⟩ := List.mem_map.mp hx
    obtain ⟨rfl, rfl⟩ := NetTx.at_visit ht
    rcases haddress with rfl | rfl
    · exact .inl rfl
    · exact .inr (hrecipient t ht' v penalty hop)

theorem voucher_authenticity_dispute :
    (∀ xs x ys d v, disputeHistory = xs ++ x :: ys → x.Settles d v →
      ∃ y ∈ xs ++ [x], ∃ pk, y.Presents d v pk ∧ y.pre.signed pk (v.message testnet d)) ∧
    (∀ x ∈ disputeHistory, ∀ y ∈ disputeHistory, ∀ d v d' v', x.Settles d v → y.Settles d' v' →
      v.message testnet d = v'.message testnet d' → d = d' ∧ v.key = v'.key) ∧
    disputeHistory.Pairwise (fun x y => ∀ d v d' v', x.Settles d v → y.Settles d' v' →
      v.message testnet d ≠ v'.message testnet d') := by
  obtain ⟨n', hruns⟩ := dispute_runs
  have hxdr : Set.InjOn contractXdr {contract, recipient} := by
    rw [Set.injOn_pair]
    intro h
    exact absurd h (by decide)
  have hsha : Set.InjOn digest (contractXdr '' {contract, recipient}) := by
    rw [Set.image_pair, Set.injOn_pair]
    intro h
    exact absurd h (by decide)
  exact voucher_authenticity (fun _ => start_genesis) hruns (hxdr.mono dispute_addresses)
    (hsha.mono (Set.image_mono dispute_addresses))

end

end StellarAgent.PaymentChannel
