import StellarAgent.PaymentChannel.Book
import StellarAgent.PaymentChannel.Vouchers

set_option autoImplicit false

/-! # What a successful call has done

One lemma `f_ok` for each entry point that touches channels or money: from `f .. = .ok ..` the
facts its checks establish, and the world it leaves, written out as one sequence of updates.
Nothing after this file unfolds those functions again on their successful paths.
-/

namespace StellarAgent.PaymentChannel

open Lib Soroban

/-! ## The books of a world -/

/-- The books that the storage of a world holds. -/
def book (w : State) : Book where
  ledger := w.sequence
  count := w.storage.count.getD 0
  channels := loadChannels w
  allocations := w.storage.allocations
  settlements := w.storage.settlements

section

variable (w : State) (id : Nat) (r : Address)

@[simp] theorem book_ledger : (book w).ledger = w.sequence := rfl
@[simp] theorem book_channels : (book w).channels = loadChannels w := rfl
@[simp] theorem book_allocation : (book w).allocations.lookup (id, r) = allocation w id r := rfl
@[simp] theorem book_settlement : (book w).settlements.lookup (id, r) = settlement w id r := rfl

@[simp] theorem book_publish (e : Event) : book (w.publish e) = book w := rfl
@[simp] theorem book_moved (token source dest : Address) (amount : Int) :
    book (w.moved token source dest amount) = book w := rfl
@[simp] theorem book_storeChannel (ch : Channel) :
    book (storeChannel w id ch) = (book w).setChannel id ch := rfl
@[simp] theorem book_saveChannel (ch : Channel) :
    book (saveChannel w id ch) = (book w).setChannel id ch := rfl
@[simp] theorem book_persistAllocation (a : Allocation) :
    book (persistAllocation w id r a) = (book w).setAllocation (id, r) a := rfl
@[simp] theorem book_persistSettlement (s : Settlement) :
    book (persistSettlement w id r s) = (book w).setSettlement (id, r) s := rfl
@[simp] theorem book_removeSettlement :
    book (removeSettlement w id r) = (book w).dropSettlement (id, r) := rfl

end

/-! ## The controls of a world -/

/-- The entries of instance storage that only admin calls write. -/
structure Controls where
  wired : WiredKey → Option Address
  sv_vk : Option SolvencyVerifyingKey
  admins : AdminKey → Option Address
  ms_own : Option (List Address)
  ms_thresh : Option Nat
  ms_win : Option Nat
  proposals : ProposalKey → Option (Map Address Nat)

def controls (w : State) : Controls where
  wired := w.storage.wired
  sv_vk := w.storage.sv_vk
  admins := w.storage.admins
  ms_own := w.storage.ms_own
  ms_thresh := w.storage.ms_thresh
  ms_win := w.storage.ms_win
  proposals := w.storage.proposals

/-! ## Token movements -/

/-- Only tokens have moved between the two worlds. -/
structure TokensMoved (w w' : State) : Prop where
  storage : w'.storage = w.storage
  sequence : w'.sequence = w.sequence
  events : ∃ ts, w'.events = w.events ++ ts ∧
    ∀ e ∈ ts, ∃ token source dest amount, e = HostEvent.transfer token source dest amount

namespace TokensMoved

variable {w w' w'' : State}

theorem refl (w : State) : TokensMoved w w := ⟨rfl, rfl, [], by simp, by simp⟩

theorem moved (w : State) (token source dest : Address) (amount : Int) :
    TokensMoved w (w.moved token source dest amount) :=
  ⟨rfl, rfl, [.transfer token source dest amount], rfl, by simp⟩

theorem trans (h : TokensMoved w w') (h' : TokensMoved w' w'') : TokensMoved w w'' := by
  obtain ⟨ts, he, hts⟩ := h.events
  obtain ⟨ts', he', hts'⟩ := h'.events
  refine ⟨h'.storage.trans h.storage, h'.sequence.trans h.sequence, ts ++ ts', ?_, ?_⟩
  · rw [he', he, List.append_assoc]
  · intro e hmem
    rcases List.mem_append.mp hmem with hmem | hmem
    · exact hts e hmem
    · exact hts' e hmem

theorem book_eq (h : TokensMoved w w') : book w' = book w := by
  unfold book loadChannels
  rw [h.storage, h.sequence]

theorem controls_eq (h : TokensMoved w w') : controls w' = controls w := by
  unfold controls
  rw [h.storage]

end TokensMoved

section

variable {env : Env} {w w' : State} {id : Nat} {r : Address}

/-! ## Opening and paying -/

theorem openChannel_ok {owner agent token : Address} {deposit limit : Int} {period : SpendPeriod}
    {new : Nat} (h : openChannel env w owner agent token deposit limit period = .ok (new, w')) :
    ∃ ch next, env.authorized owner = true ∧ Book.Opening w.sequence deposit ch ∧
      ch.owner = owner ∧ ch.token = token ∧ new = (book w).count + 1 ∧
      book next = { book w with count := (book w).count + 1 } ∧ controls next = controls w ∧
      next.balance = w.balance.move token owner env.self deposit ∧
      next.events = w.events ++ [.transfer token owner env.self deposit] ∧
      w' = ((storeChannel next new ch).publish (.opened new agent owner deposit)).publish
        (.channelState new ch) := by
  simp only [openChannel, nextId, Result.bind_eq_ok, Result.pure_eq_ok, requireAuth_eq_ok,
    panicIf_eq_ok, World.transfer_eq_ok, checkU64_eq_ok] at h
  obtain ⟨_, hauth, _, hdeposit, _, hlimit, _, _, w1, ⟨_, _, rfl⟩, ⟨next_id, w2⟩, hnext, hw⟩ := h
  obtain ⟨n, ⟨_, rfl⟩, hn⟩ := hnext
  cases hn
  cases hw
  refine ⟨_, _, hauth, ⟨by omega, rfl, ?_, rfl, rfl, rfl, rfl⟩, rfl, rfl, rfl, rfl, ?_, rfl, rfl,
    rfl⟩
  · show 0 ≤ limit
    omega
  · rfl

theorem rollPeriod_ok {now : Nat} {ch ch' : Channel} (h : rollPeriod now ch = .ok ch') :
    ch' = Book.rolled now ch := by
  simp only [rollPeriod, Result.bind_eq_ok, checkU32_eq_ok] at h
  obtain ⟨_, ⟨_, rfl⟩, h⟩ := h
  unfold Book.rolled
  split at h
  · rename_i hexpired
    rw [if_pos hexpired]
    exact (Result.pure_eq_ok.mp h).symm
  · rename_i hexpired
    rw [if_neg hexpired]
    exact (Result.pure_eq_ok.mp h).symm

/-- The three blocks of a payment function together are one debit. -/
theorem debit_ok {now : Nat} {ch ch1 ch' : Channel} {amount : Int} {u : Unit}
    (hpos : ¬ amount ≤ 0) (hroll : rollPeriod now ch = .ok ch1)
    (hcheck : checkSpend ch1 amount = .ok u) (hdebit : debit ch1 amount = .ok ch') :
    Book.Debit now ch amount ch' := by
  obtain rfl := rollPeriod_ok hroll
  simp only [checkSpend, Result.bind_eq_ok, checkI128_eq_ok, panicIf_eq_ok] at hcheck
  obtain ⟨_, ⟨_, rfl⟩, _, hlimit, _, ⟨_, rfl⟩, hfree⟩ := hcheck
  simp only [debit, Result.bind_eq_ok, checkI128_eq_ok, Result.pure_eq_ok] at hdebit
  obtain ⟨_, ⟨_, rfl⟩, _, ⟨_, rfl⟩, _, ⟨_, rfl⟩, rfl⟩ := hdebit
  -- the reset touches neither limit nor collateral, so both checks are about the old record
  simp only [Book.rolled_limit, Book.rolled_collateral, Book.rolled_allocated] at hlimit hfree
  exact ⟨by omega, by omega, by omega, by simp⟩

theorem pay_ok {agent : Address} {amount : Int} {memo : Bytes}
    (h : pay env w agent id r amount memo = .ok w') :
    ∃ ch ch', (book w).channels.lookup id = some ch ∧ Book.Debit w.sequence ch amount ch' ∧
      w' = ((storeChannel (w.moved ch.token env.self r amount) id ch').publish
        (.paid id agent r amount memo)).publish (.stateChannel id ch') := by
  simp only [pay, Result.bind_eq_ok, Result.pure_eq_ok, requireAuth_eq_ok, panicIf_eq_ok,
    unwrapChannel_eq_ok, World.transfer_eq_ok] at h
  obtain ⟨_, _, _, _, ch, hl, _, _, _, _, _, hpos, ch1, hroll, _, hcheck, w1, ⟨_, _, rfl⟩, ch',
    hdebit, rfl⟩ := h
  refine ⟨ch, ch', hl, debit_ok hpos hroll hcheck hdebit, ?_⟩
  rw [rollPeriod_ok hroll, Book.rolled_token]

theorem executeSwap_ok {venue : Address} {args : SwapArgs} {output : Int}
    (h : executeSwap env w venue args = .ok (output, w')) :
    ∃ reply, venue ≠ env.self ∧ env.execute_swap venue args = some reply ∧
      output = reply.output ∧
      w' = w.moved args.to_token venue args.recipient reply.delivered := by
  simp only [executeSwap, Result.bind_eq_ok, Result.pure_eq_ok, invokeContract_eq_ok,
    World.transfer_eq_ok] at h
  obtain ⟨reply, ⟨hne, hreply⟩, w1, ⟨_, _, rfl⟩, hw⟩ := h
  cases hw
  exact ⟨reply, hne, hreply, rfl, rfl⟩

theorem executeConversion_ok {send_token dest_token : Address} {amount min_received received : Int}
    (h : executeConversion env w send_token amount dest_token min_received r
      = .ok (received, w')) :
    ∃ amm, ∃ delivered : Nat, amm ≠ env.self ∧
      w' = (w.moved send_token env.self amm amount).moved dest_token amm r delivered := by
  simp only [executeConversion, Result.bind_eq_ok, expect_eq_ok, World.transfer_eq_ok] at h
  obtain ⟨amm, _, _, _, w1, ⟨_, _, rfl⟩, hswap⟩ := h
  obtain ⟨reply, hne, _, _, rfl⟩ := executeSwap_ok hswap
  exact ⟨amm, reply.delivered, hne, rfl⟩

theorem payWithConversion_ok {agent dest_token : Address} {amount min_received received : Int}
    {memo : Bytes}
    (h : payWithConversion env w agent id r amount dest_token min_received memo
      = .ok (received, w')) :
    ∃ ch ch' paid, (book w).channels.lookup id = some ch ∧
      Book.Debit w.sequence ch amount ch' ∧
      (dest_token = ch.token ∧ paid = w.moved ch.token env.self r amount ∨
        executeConversion env w ch.token amount dest_token min_received r
          = .ok (received, paid)) ∧
      w' = ((storeChannel paid id ch').publish
        (.convpaid id agent r amount dest_token received memo)).publish (.stateChannel id ch') := by
  simp only [payWithConversion, Result.bind_eq_ok, Result.pure_eq_ok, requireAuth_eq_ok,
    panicIf_eq_ok, unwrapChannel_eq_ok] at h
  obtain ⟨_, _, _, _, _, hpos, _, _, ch, hl, _, _, _, _, ch1, hroll, _, hcheck, ⟨x, paid⟩, hpaid,
    ch', hdebit, hw⟩ := h
  cases hw
  have htoken : ch1.token = ch.token := by rw [rollPeriod_ok hroll, Book.rolled_token]
  rw [htoken] at hpaid
  refine ⟨ch, ch', paid, hl, debit_ok hpos hroll hcheck hdebit, ?_, rfl⟩
  split at hpaid
  · rename_i hsame
    simp only [Result.bind_eq_ok, panicIf_eq_ok, World.transfer_eq_ok, Result.pure_eq_ok] at hpaid
    obtain ⟨_, _, w1, ⟨_, _, rfl⟩, hpaid⟩ := hpaid
    cases hpaid
    exact .inl ⟨hsame, rfl⟩
  · exact .inr hpaid

theorem payWithRoute_ok {agent dest_token : Address} {amount min_received received : Int}
    {route : List SwapHop} {valid_until : Nat} {memo : Bytes}
    (h : payWithRoute env w agent id r amount dest_token route min_received valid_until memo
      = .ok (received, w')) :
    ∃ ch ch' paid, (book w).channels.lookup id = some ch ∧
      Book.Debit w.sequence ch amount ch' ∧
      (dest_token = ch.token ∧ route = [] ∧ paid = w.moved ch.token env.self r amount ∨
        executeRoute env w ch.token amount dest_token route min_received r
          = .ok (received, paid)) ∧
      w' = ((storeChannel paid id ch').publish
        (.routepay id agent r amount dest_token received route.length memo)).publish
        (.stateChannel id ch') := by
  simp only [payWithRoute, Result.bind_eq_ok, Result.pure_eq_ok, requireAuth_eq_ok,
    panicIf_eq_ok, unwrapChannel_eq_ok] at h
  obtain ⟨_, _, _, _, _, hpos, _, _, _, _, ch, hl, _, _, _, _, ch1, hroll, _, hcheck, ⟨x, paid⟩,
    hpaid, ch', hdebit, hw⟩ := h
  cases hw
  have htoken : ch1.token = ch.token := by rw [rollPeriod_ok hroll, Book.rolled_token]
  rw [htoken] at hpaid
  refine ⟨ch, ch', paid, hl, debit_ok hpos hroll hcheck hdebit, ?_, rfl⟩
  split at hpaid
  · rename_i hsame
    simp only [Result.bind_eq_ok, panicIf_eq_ok, World.transfer_eq_ok, Result.pure_eq_ok] at hpaid
    obtain ⟨_, hroute, _, _, w1, ⟨_, _, rfl⟩, hpaid⟩ := hpaid
    cases hpaid
    exact .inl ⟨hsame, not_not.mp hroute, rfl⟩
  · exact .inr hpaid

theorem runHops_moved {min_received received : Int} {route : List SwapHop} {current : Int}
    (h : runHops env min_received r w current route = .ok (received, w')) : TokensMoved w w' := by
  induction route generalizing w current with
  | nil =>
      cases h
      exact TokensMoved.refl _
  | cons hop route ih =>
      simp only [runHops, Result.bind_eq_ok, World.transfer_eq_ok, panicIf_eq_ok] at h
      obtain ⟨w1, ⟨_, _, rfl⟩, ⟨output, w2⟩, hswap, _, _, hrest⟩ := h
      obtain ⟨reply, _, _, _, rfl⟩ := executeSwap_ok hswap
      exact (TokensMoved.moved w _ _ _ _).trans ((TokensMoved.moved _ _ _ _ _).trans (ih hrest))

theorem executeRoute_ok {send_token dest_token : Address} {amount min_received received : Int}
    {route : List SwapHop}
    (h : executeRoute env w send_token amount dest_token route min_received r
      = .ok (received, w')) :
    route ≠ [] ∧ validateRoute env.self send_token [send_token] route = .ok dest_token ∧
      runHops env min_received r w amount route = .ok (received, w') := by
  simp only [executeRoute, Result.bind_eq_ok, panicIf_eq_ok, Result.pure_eq_ok] at h
  obtain ⟨_, hne, _, _, dest, hvalid, _, hdest, _, _, ⟨x, w1⟩, hhops, _, _, hw⟩ := h
  cases hw
  rw [not_not] at hdest
  exact ⟨hne, hdest ▸ hvalid, hhops⟩

/-! ## Topping up and closing -/

theorem topUp_ok {owner : Address} {amount : Int} (h : topUp env w owner id amount = .ok w') :
    ∃ ch, env.authorized owner = true ∧ (book w).channels.lookup id = some ch ∧ 0 < amount ∧
      w' = ((storeChannel (w.moved ch.token owner env.self amount) id
        { ch with collateral := ch.collateral + amount }).publish
        (.topup id owner amount)).publish
        (.stateChannel id { ch with collateral := ch.collateral + amount }) := by
  simp only [topUp, Result.bind_eq_ok, Result.pure_eq_ok, requireAuth_eq_ok, panicIf_eq_ok,
    unwrapChannel_eq_ok, World.transfer_eq_ok, checkI128_eq_ok] at h
  obtain ⟨_, hauth, ch, hl, _, _, _, _, _, hpos, w1, ⟨_, _, rfl⟩, _, ⟨_, rfl⟩, rfl⟩ := h
  exact ⟨ch, hauth, hl, by omega, rfl⟩

theorem closeChannel_ok {owner : Address} (h : closeChannel env w owner id = .ok w') :
    ∃ ch ch' paid refund, env.authorized owner = true ∧
      (book w).channels.lookup id = some ch ∧ ch.owner = owner ∧
      refund = ch.collateral - ch.allocated ∧
      (0 < refund ∧ paid = w.moved ch.token env.self owner refund ∧
          ch' = { ch with collateral := ch.collateral - refund, active := false } ∨
        refund ≤ 0 ∧ paid = w ∧ ch' = { ch with active := false }) ∧
      w' = ((storeChannel paid id ch').publish (.closed id owner refund)).publish
        (.stateChannel id ch') := by
  simp only [closeChannel, Result.bind_eq_ok, Result.pure_eq_ok, requireAuth_eq_ok,
    panicIf_eq_ok, unwrapChannel_eq_ok, checkI128_eq_ok] at h
  obtain ⟨_, hauth, ch, hl, _, howner, _, ⟨_, rfl⟩, ⟨ch1, paid⟩, hpaid, hw⟩ := h
  cases hw
  refine ⟨ch, _, _, _, hauth, hl, not_not.mp howner, rfl, ?_, rfl⟩
  split at hpaid
  · rename_i hpos
    simp only [Result.bind_eq_ok, World.transfer_eq_ok, checkI128_eq_ok, Result.pure_eq_ok]
      at hpaid
    obtain ⟨w1, ⟨_, _, rfl⟩, _, ⟨_, rfl⟩, hpaid⟩ := hpaid
    cases hpaid
    exact .inl ⟨hpos, rfl, rfl⟩
  · rename_i hpos
    cases Result.pure_eq_ok.mp hpaid
    exact .inr ⟨not_lt.mp hpos, rfl, rfl⟩

theorem withdrawFree_ok {owner : Address} {free : Int}
    (h : withdrawFree env w owner id = .ok (free, w')) :
    ∃ ch, env.authorized owner = true ∧ (book w).channels.lookup id = some ch ∧
      ch.owner = owner ∧
      (w' = w ∨
        0 < free ∧ free = ch.collateral - ch.allocated ∧
          w' = (saveChannel (w.moved ch.token env.self owner free) id
            { ch with collateral := ch.collateral - free }).publish
            (.withdrew id owner free)) := by
  simp only [withdrawFree, Result.bind_eq_ok, requireAuth_eq_ok, loadChannel_eq_ok,
    panicIf_eq_ok, checkI128_eq_ok] at h
  obtain ⟨_, hauth, ch, hl, _, howner, _, ⟨_, rfl⟩, h⟩ := h
  refine ⟨ch, hauth, hl, not_not.mp howner, ?_⟩
  split at h
  · cases Result.pure_eq_ok.mp h
    exact .inl rfl
  · rename_i hpos
    simp only [Result.bind_eq_ok, World.transfer_eq_ok, checkI128_eq_ok, Result.pure_eq_ok] at h
    obtain ⟨w1, ⟨_, _, rfl⟩, _, ⟨_, rfl⟩, h⟩ := h
    cases h
    exact .inr ⟨not_le.mp hpos, rfl, rfl⟩

/-! ## Vouchers -/

theorem enableVouchers_ok {owner : Address} {pk : BytesN 32} {window : Nat}
    (h : enableVouchers env w owner id pk window = .ok w') :
    ∃ ch, env.authorized owner = true ∧ (book w).channels.lookup id = some ch ∧
      ch.owner = owner ∧ MIN_DISPUTE_LEDGERS ≤ window ∧
      w' = (saveChannel w id
        { ch with voucher_signer := some pk, dispute_ledgers := window }).publish
        (.enabled id pk window) := by
  simp only [enableVouchers, Result.bind_eq_ok, requireAuth_eq_ok, loadChannel_eq_ok,
    panicIf_eq_ok, Result.pure_eq_ok] at h
  obtain ⟨_, hauth, _, hlong, ch, hl, _, howner, _, _, rfl⟩ := h
  exact ⟨ch, hauth, hl, not_not.mp howner, not_lt.mp hlong, rfl⟩

theorem allocate_ok {owner : Address} {amount : Int}
    (h : allocate env w owner id r amount = .ok w') :
    ∃ ch, (book w).channels.lookup id = some ch ∧ ch.voucher_signer ≠ none ∧ 0 < amount ∧
      amount ≤ ch.collateral - ch.allocated ∧ settlement w id r = none ∧
      w' = (saveChannel (persistAllocation w id r
          { (book w).reservation (id, r) with
            amount := ((book w).reservation (id, r)).amount + amount }) id
          { ch with allocated := ch.allocated + amount }).publish
        (.allocated id r amount (((book w).reservation (id, r)).amount + amount)) := by
  simp only [allocate, Result.bind_eq_ok, requireAuth_eq_ok, loadChannel_eq_ok, panicIf_eq_ok,
    checkI128_eq_ok, Result.pure_eq_ok] at h
  obtain ⟨_, _, _, hpos, ch, hl, _, _, _, _, _, hsigner, _, ⟨_, rfl⟩, _, hfree, _, hquiet, _,
    ⟨_, rfl⟩, _, ⟨_, rfl⟩, rfl⟩ := h
  exact ⟨ch, hl, hsigner, by omega, by omega, not_not.mp hquiet, rfl⟩

/-- The integers of the voucher are values of their types. -/
def Claim.Typed (v : Claim) : Prop := v.channel_id ≤ U64_MAX ∧ IsI128 v.cumulative_amount

/-- The bytes that a signature on the voucher `v` is made over. -/
def Claim.message (P : Platform) (d : Deployment) (v : Claim) : Bytes :=
  preimage P d v.channel_id v.recipient v.sequence v.cumulative_amount

/-- `signature` is one by `pk` on the voucher `v` for deployment `d`. -/
def SignedBy (P : Platform) (d : Deployment) (signature : BytesN 64) (pk : BytesN 32)
    (v : Claim) : Prop :=
  v.Typed ∧ P.ed25519_verify pk (v.message P d) signature = true

/-- `pk` signed the voucher `v` for deployment `d`. -/
def Vouched (P : Platform) (d : Deployment) (pk : BytesN 32) (v : Claim) : Prop :=
  v.Typed ∧ ∃ signature, P.ed25519_verify pk (v.message P d) signature = true

theorem SignedBy.vouched {P : Platform} {d : Deployment} {signature : BytesN 64}
    {pk : BytesN 32} {v : Claim} (h : SignedBy P d signature pk v) : Vouched P d pk v :=
  ⟨h.1, signature, h.2⟩

/-- The checks of `verify_voucher`. -/
theorem verifyVoucher_eq_ok {ch : Channel} {sequence : Nat} {c : Int} {signature : BytesN 64}
    {u : Unit} :
    verifyVoucher env w ch id r sequence c signature = .ok u ↔
      ∃ pk a, ch.voucher_signer = some pk ∧ allocation w id r = some a ∧ 0 < c ∧ c ≤ a.amount ∧
        a.settled < c ∧ env.platform.ed25519_verify pk
          (preimage env.platform env.contract id r sequence c) signature = true := by
  simp only [verifyVoucher, Result.bind_eq_ok, expect_eq_ok, panicIf_eq_ok,
    requireValidSignature_eq_ok, not_le, not_lt]
  constructor
  · rintro ⟨pk, hpk, _, hpos, a, ha, _, hcovered, _, hfresh, hsig⟩
    exact ⟨pk, a, hpk, ha, hpos, hcovered, hfresh, hsig⟩
  · rintro ⟨pk, a, hpk, ha, hpos, hcovered, hfresh, hsig⟩
    exact ⟨pk, hpk, (), hpos, a, ha, (), hcovered, (), hfresh, hsig⟩

theorem verifyVoucher_ok {ch : Channel} {v : Claim} {signature : BytesN 64} {u : Unit}
    (h : verifyVoucher env w ch v.channel_id v.recipient v.sequence v.cumulative_amount signature
      = .ok u)
    (hl : (book w).channels.lookup v.channel_id = some ch) (htyped : v.Typed) :
    ∃ a, Book.Presented (SignedBy env.platform env.contract signature) (book w) v ch a := by
  obtain ⟨pk, a, hpk, ha, hpos, hcovered, hfresh, hsig⟩ := verifyVoucher_eq_ok.mp h
  exact ⟨a, hl, ⟨pk, hpk, htyped, hsig⟩, ha, hpos, hcovered, hfresh⟩

theorem payOut_ok {amount penalty : Int} (h : payOut env w id r amount penalty = .ok w') :
    ∃ ch a due, (book w).channels.lookup id = some ch ∧ allocation w id r = some a ∧
      due = amount - a.settled + penalty ∧ 0 ≤ due ∧
      w' = saveChannel (persistAllocation (w.moved ch.token env.self r due) id r
          { amount := 0, settled := amount + penalty }) id
        { ch with
          allocated := ch.allocated - a.amount
          collateral := ch.collateral - due
          total_spent := ch.total_spent + due } := by
  simp only [payOut, Result.bind_eq_ok, loadChannel_eq_ok, expect_eq_ok, checkI128_eq_ok,
    panicIf_eq_ok, World.transfer_eq_ok, Result.pure_eq_ok] at h
  obtain ⟨ch, hl, a, ha, _, ⟨_, rfl⟩, _, ⟨_, rfl⟩, _, _, _, _, w1, ⟨hdue, _, rfl⟩, _, ⟨_, rfl⟩, _,
    ⟨_, rfl⟩, _, ⟨_, rfl⟩, _, ⟨_, rfl⟩, rfl⟩ := h
  exact ⟨ch, a, _, hl, ha, rfl, hdue, rfl⟩

theorem closeCooperative_ok {v : Claim} {signature : BytesN 64} {paid : Int}
    (h : closeCooperative env w v.channel_id v.recipient v.sequence v.cumulative_amount signature
      = .ok (paid, w')) (htyped : v.Typed) :
    ∃ ch a next, Book.Presented (SignedBy env.platform env.contract signature) (book w) v ch a ∧
      settlement w v.channel_id v.recipient = none ∧
      payOut env w v.channel_id v.recipient v.cumulative_amount 0 = .ok next ∧
      w' = next.publish
        (.coopclose v.channel_id v.recipient v.sequence v.cumulative_amount) := by
  simp only [closeCooperative, Result.bind_eq_ok, loadChannel_eq_ok, requireAuth_eq_ok,
    panicIf_eq_ok, Result.pure_eq_ok] at h
  obtain ⟨_, _, ch, hl, _, _, _, _, _, hv, _, hquiet, next, hpay, hw⟩ := h
  cases hw
  obtain ⟨a, hp⟩ := verifyVoucher_ok hv hl htyped
  exact ⟨ch, a, next, hp, not_not.mp hquiet, hpay, rfl⟩

theorem closeUnilateral_ok {closer : Address} {v : Claim} {signature : BytesN 64}
    (h : closeUnilateral env w closer v.channel_id v.recipient v.sequence v.cumulative_amount
      signature = .ok w') (htyped : v.Typed) :
    ∃ ch a, Book.Presented (SignedBy env.platform env.contract signature) (book w) v ch a ∧
      settlement w v.channel_id v.recipient = none ∧
      w' = (persistSettlement w v.channel_id v.recipient {
          best_sequence := v.sequence
          best_cumulative := v.cumulative_amount
          opened_cumulative := v.cumulative_amount
          opened_at_ledger := w.sequence
          closed_by_payer := closer = ch.owner ∨ closer = ch.agent }).publish
        (.closing v.channel_id v.recipient closer v.cumulative_amount ch.dispute_ledgers) := by
  simp only [closeUnilateral, Result.bind_eq_ok, loadChannel_eq_ok, requireAuth_eq_ok,
    panicIf_eq_ok, Result.pure_eq_ok] at h
  obtain ⟨_, _, _, _, ch, hl, _, hv, _, hquiet, rfl⟩ := h
  obtain ⟨a, hp⟩ := verifyVoucher_ok hv hl htyped
  exact ⟨ch, a, hp, not_not.mp hquiet, rfl⟩

theorem challenge_ok {v : Claim} {signature : BytesN 64}
    (h : challenge env w v.channel_id v.recipient v.sequence v.cumulative_amount signature
      = .ok w') (htyped : v.Typed) :
    ∃ ch a s, Book.Presented (SignedBy env.platform env.contract signature) (book w) v ch a ∧
      settlement w v.channel_id v.recipient = some s ∧
      w.sequence < s.opened_at_ledger + ch.dispute_ledgers ∧
      s.best_cumulative < v.cumulative_amount ∧
      w' = (persistSettlement w v.channel_id v.recipient
          { s with best_sequence := v.sequence, best_cumulative := v.cumulative_amount }).publish
        (.challenge v.channel_id v.recipient v.sequence v.cumulative_amount) := by
  simp only [challenge, Result.bind_eq_ok, loadChannel_eq_ok, expect_eq_ok, checkU32_eq_ok,
    panicIf_eq_ok, Result.pure_eq_ok] at h
  obtain ⟨ch, hl, _, hv, s, hs, _, ⟨_, rfl⟩, _, hopen, _, hbetter, rfl⟩ := h
  obtain ⟨a, hp⟩ := verifyVoucher_ok hv hl htyped
  exact ⟨ch, a, s, hp, hs, not_le.mp hopen, by simpa [supersedes] using hbetter, rfl⟩

theorem penaltyFor_ok {s : Settlement} {a : Allocation} {penalty : Int}
    (h : penaltyFor s a = .ok penalty) : penalty = Book.penaltyOf s a := by
  unfold penaltyFor at h
  unfold Book.penaltyOf
  split at h
  · rename_i hraised
    simp only [Result.bind_eq_ok, checkI128_eq_ok, Result.pure_eq_ok] at h
    obtain ⟨_, ⟨_, rfl⟩, _, ⟨_, rfl⟩, rfl⟩ := h
    rw [if_pos hraised]
    split <;> omega
  · rename_i hraised
    rw [if_neg hraised]
    exact (Result.pure_eq_ok.mp h).symm

theorem finalize_ok {paid : Int} (h : finalize env w id r = .ok (paid, w')) :
    ∃ ch s a next, (book w).channels.lookup id = some ch ∧ settlement w id r = some s ∧
      allocation w id r = some a ∧ s.opened_at_ledger + ch.dispute_ledgers ≤ U32_MAX ∧
      s.opened_at_ledger + ch.dispute_ledgers ≤ w.sequence ∧
      payOut env (removeSettlement w id r) id r s.best_cumulative (Book.penaltyOf s a)
        = .ok next ∧
      w' = next.publish
        (.finalized id r s.best_sequence s.best_cumulative (Book.penaltyOf s a)) := by
  simp only [finalize, Result.bind_eq_ok, loadChannel_eq_ok, expect_eq_ok, checkU32_eq_ok,
    panicIf_eq_ok, Result.pure_eq_ok] at h
  obtain ⟨ch, hl, s, hs, _, ⟨hu32, rfl⟩, _, hended, a, ha, _, hpenalty, next, hpay, _, _, hw⟩ := h
  cases hw
  obtain rfl := penaltyFor_ok hpenalty
  exact ⟨ch, s, a, next, hl, hs, ha, hu32, not_lt.mp hended, hpay, rfl⟩

end

end StellarAgent.PaymentChannel
