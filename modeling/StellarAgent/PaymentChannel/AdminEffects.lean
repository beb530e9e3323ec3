import StellarAgent.PaymentChannel.Admin
import StellarAgent.PaymentChannel.Effects

set_option autoImplicit false

/-! # What a successful admin call has done

The counterpart of `Effects.lean` for the multi-sig and admin entry points. `AdminGate` and
`ConfigGate` list the ways through the guards of the setters and of `set_multisig_config`,
each with the world it passes on.
-/

namespace StellarAgent.PaymentChannel

open Lib Soroban

/-- Enough valid approvals under `key` for the threshold, counted as the code counts. -/
def QuorumReached (w : State) (key : ProposalKey) : Prop :=
  getMultisigThreshold w ≤ countValidProposals w.sequence (proposalsAt w key)
    (getMultisigOwners w) (getMultisigProposeWindow w)

/-- The ways through the guard of a setter. -/
inductive AdminGate (w : State) (admin : Address) (key : ProposalKey) (admin_key : AdminKey) :
    State → Prop
  /-- One owner suffices. -/
  | owner (member : admin ∈ getMultisigOwners w) (single : ¬ 1 < getMultisigThreshold w) :
      AdminGate w admin key admin_key w
  /-- The approvals reach the threshold, and are consumed. -/
  | quorum (member : admin ∈ getMultisigOwners w) (active : MultisigActive w)
      (reached : QuorumReached w key) : AdminGate w admin key admin_key (setProposals w key none)
  /-- No owners: the admin bound before. -/
  | bound (empty : getMultisigOwners w = []) (stored : w.storage.admins admin_key = some admin) :
      AdminGate w admin key admin_key w
  /-- No owners and no admin: the caller becomes the admin. -/
  | binds (empty : getMultisigOwners w = []) (free : w.storage.admins admin_key = none) :
      AdminGate w admin key admin_key (setAdmin w admin_key admin)

/-- The ways through the guard of `set_multisig_config`. -/
inductive ConfigGate (w : State) (caller : Address) : State → Prop
  | quorum (member : caller ∈ getMultisigOwners w) (active : MultisigActive w)
      (reached : QuorumReached w .prop_ms) : ConfigGate w caller (setProposals w .prop_ms none)
  | owner (member : caller ∈ getMultisigOwners w) (single : ¬ 1 < getMultisigThreshold w) :
      ConfigGate w caller w
  /-- No owners yet: anybody. -/
  | bootstrap (empty : getMultisigOwners w = []) : ConfigGate w caller w

section

variable {env : Env} {w w' : State}

theorem consumeQuorum_ok {key : ProposalKey} (h : consumeQuorum w key = .ok w') :
    QuorumReached w key ∧ w' = setProposals w key none := by
  simp only [consumeQuorum, Result.bind_eq_ok, panicIf_eq_ok, Result.pure_eq_ok] at h
  obtain ⟨_, hcount, rfl⟩ := h
  exact ⟨not_lt.mp hcount, rfl⟩

theorem adminGate_ok {admin : Address} {key : ProposalKey} {admin_key : AdminKey}
    {refusal : String} (h : adminGate w admin key admin_key refusal = .ok w') :
    AdminGate w admin key admin_key w' := by
  unfold adminGate at h
  split at h
  · rename_i howners
    simp only [Result.bind_eq_ok, panicIf_eq_ok, not_not] at h
    obtain ⟨_, hmember, h⟩ := h
    split at h
    · rename_i hthreshold
      obtain ⟨hreached, rfl⟩ := consumeQuorum_ok h
      exact .quorum hmember ⟨howners, hthreshold⟩ hreached
    · rename_i hthreshold
      cases h
      exact .owner hmember hthreshold
  · rename_i howners
    rw [not_not] at howners
    split at h
    · rename_i stored_admin hstored
      simp only [Result.bind_eq_ok, panicIf_eq_ok, not_not] at h
      obtain ⟨_, rfl, h⟩ := h
      cases h
      exact .bound howners hstored
    · rename_i hfree
      cases h
      exact .binds howners hfree

theorem configGate_ok {caller : Address} (h : configGate w caller = .ok w') :
    ConfigGate w caller w' := by
  unfold configGate at h
  split at h
  · rename_i hactive
    simp only [Result.bind_eq_ok, panicIf_eq_ok, not_not] at h
    obtain ⟨_, hmember, h⟩ := h
    obtain ⟨hreached, rfl⟩ := consumeQuorum_ok h
    exact .quorum hmember ⟨hactive.2, hactive.1⟩ hreached
  · rename_i hactive
    simp only [Result.bind_eq_ok, panicIf_eq_ok, not_and, not_not] at h
    obtain ⟨_, hmember, h⟩ := h
    cases h
    by_cases howners : getMultisigOwners w = []
    · exact .bootstrap howners
    · exact .owner (hmember howners) (fun hthreshold => hactive ⟨hthreshold, howners⟩)

theorem propose_ok {owner : Address} {key : ProposalKey} {event : Event}
    (h : propose env w owner key event = .ok w') :
    env.authorized owner = true ∧ w' = (recordProposal w key owner).publish event := by
  simp only [propose, requireMultisigOwner, Result.bind_eq_ok, requireAuth_eq_ok, panicIf_eq_ok,
    Result.pure_eq_ok] at h
  obtain ⟨_, hauth, _, _, rfl⟩ := h
  exact ⟨hauth, rfl⟩

theorem proposeSolvencyVk_ok {owner : Address} {vk : SolvencyVerifyingKey}
    (h : proposeSolvencyVk env w owner vk = .ok w') :
    env.authorized owner = true ∧
      w' = (recordProposal w .prop_svk owner).publish (.prop_svk owner) := by
  simp only [proposeSolvencyVk, requireMultisigOwner, Result.bind_eq_ok, requireAuth_eq_ok,
    panicIf_eq_ok, Result.pure_eq_ok] at h
  obtain ⟨_, hauth, _, _, _, _, rfl⟩ := h
  exact ⟨hauth, rfl⟩

theorem setWiredContract_ok {admin value : Address} {key : WiredKey} {admin_key : AdminKey}
    {refusal : String}
    (h : setWiredContract env w admin key value admin_key refusal = .ok w') :
    ∃ w1, env.authorized admin = true ∧ AdminGate w admin (.wired key value) admin_key w1 ∧
      w' = setWired w1 key value := by
  simp only [setWiredContract, Result.bind_eq_ok, requireAuth_eq_ok, Result.pure_eq_ok] at h
  obtain ⟨_, hauth, w1, hgate, rfl⟩ := h
  exact ⟨w1, hauth, adminGate_ok hgate, rfl⟩

theorem setSolvencyVk_ok {admin : Address} {vk : SolvencyVerifyingKey}
    (h : setSolvencyVk env w admin vk = .ok w') :
    ∃ w1, env.authorized admin = true ∧ AdminGate w admin .prop_svk .sv_admin w1 ∧
      w' = setSolvencyKey w1 vk := by
  simp only [setSolvencyVk, Result.bind_eq_ok, requireAuth_eq_ok, panicIf_eq_ok,
    Result.pure_eq_ok] at h
  obtain ⟨_, hauth, _, _, w1, hgate, rfl⟩ := h
  exact ⟨w1, hauth, adminGate_ok hgate, rfl⟩

theorem setMultisigConfig_ok {caller : Address} {owners : List Address} {threshold window : Nat}
    (h : setMultisigConfig env w caller owners threshold window = .ok w') :
    ∃ w1, env.authorized caller = true ∧ ConfigGate w caller w1 ∧
      w' = { w1 with
        storage := { w1.storage with
          ms_own := some owners, ms_thresh := some threshold, ms_win := some window }
        events := w1.events ++ [.published (.ms_cfg owners threshold)] } := by
  simp only [setMultisigConfig, Result.bind_eq_ok, requireAuth_eq_ok, panicIf_eq_ok,
    Result.pure_eq_ok] at h
  obtain ⟨_, hauth, _, _, _, _, _, _, w1, hgate, rfl⟩ := h
  exact ⟨w1, hauth, configGate_ok hgate, rfl⟩

/-! ## Admin calls and the books -/

/-- The books, the balances and the ledger number are untouched. -/
structure BooksKept (w w' : State) : Prop where
  book_eq : book w' = book w
  balance_eq : w'.balance = w.balance

theorem AdminGate.booksKept {admin : Address} {key : ProposalKey} {admin_key : AdminKey}
    (h : AdminGate w admin key admin_key w') : BooksKept w w' ∧ w'.events = w.events := by
  cases h <;> exact ⟨⟨rfl, rfl⟩, rfl⟩

theorem ConfigGate.booksKept {caller : Address} (h : ConfigGate w caller w') :
    BooksKept w w' ∧ w'.events = w.events := by
  cases h <;> exact ⟨⟨rfl, rfl⟩, rfl⟩

theorem propose_booksKept {owner : Address} {key : ProposalKey} {event : Event}
    (h : propose env w owner key event = .ok w') :
    BooksKept w w' ∧ w'.events = w.events ++ [.published event] := by
  obtain ⟨_, rfl⟩ := propose_ok h
  exact ⟨⟨rfl, rfl⟩, rfl⟩

theorem proposeSolvencyVk_booksKept {owner : Address} {vk : SolvencyVerifyingKey}
    (h : proposeSolvencyVk env w owner vk = .ok w') :
    BooksKept w w' ∧ w'.events = w.events ++ [.published (.prop_svk owner)] := by
  obtain ⟨_, rfl⟩ := proposeSolvencyVk_ok h
  exact ⟨⟨rfl, rfl⟩, rfl⟩

theorem setWiredContract_booksKept {admin value : Address} {key : WiredKey} {admin_key : AdminKey}
    {refusal : String}
    (h : setWiredContract env w admin key value admin_key refusal = .ok w') :
    BooksKept w w' ∧ w'.events = w.events := by
  obtain ⟨w1, _, hgate, rfl⟩ := setWiredContract_ok h
  obtain ⟨⟨hbook, hbalance⟩, hevents⟩ := hgate.booksKept
  exact ⟨⟨hbook, hbalance⟩, hevents⟩

theorem setSolvencyVk_booksKept {admin : Address} {vk : SolvencyVerifyingKey}
    (h : setSolvencyVk env w admin vk = .ok w') :
    BooksKept w w' ∧ w'.events = w.events := by
  obtain ⟨w1, _, hgate, rfl⟩ := setSolvencyVk_ok h
  obtain ⟨⟨hbook, hbalance⟩, hevents⟩ := hgate.booksKept
  exact ⟨⟨hbook, hbalance⟩, hevents⟩

theorem setMultisigConfig_booksKept {caller : Address} {owners : List Address}
    {threshold window : Nat}
    (h : setMultisigConfig env w caller owners threshold window = .ok w') :
    BooksKept w w' ∧ w'.events = w.events ++ [.published (.ms_cfg owners threshold)] := by
  obtain ⟨w1, _, hgate, rfl⟩ := setMultisigConfig_ok h
  obtain ⟨⟨hbook, hbalance⟩, hevents⟩ := hgate.booksKept
  exact ⟨⟨hbook, hbalance⟩, by rw [← hevents]⟩

end

end StellarAgent.PaymentChannel
