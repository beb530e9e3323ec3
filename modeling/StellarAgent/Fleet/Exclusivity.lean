import StellarAgent.Fleet.Capacity

set_option autoImplicit false

/-! # Exclusive leases

Three invariants of a pool, each kept by every action. `Exclusive`: the addresses of the entries
differ, every unreleased lease has an entry of the map for itself, and the factory was never handed
an account under a lease. `Served`: a waiter is in the queue or has been settled once. `Sized`: the
entries and the creations under way fit into the pool.

The last two hold of every run. The first one breaks where an account is looked up by its address
after an `await`: `resize` reclaims by the address of an entry that may have left the map, and a
surplus account is reclaimed whatever its address. As long as no leased entry has that address,
leases are exclusive (`leases_exclusive`).
-/

namespace StellarAgent.Fleet

open Lib

namespace Pool

variable {pool : Pool}

/-! ## Exclusive leases -/

/-- No leased entry has the address. -/
def Unclaimed (pool : Pool) (address : String) : Prop :=
  ∀ entry ∈ pool.entries, pool.address entry = address → (pool.heap entry).leased = false

/-- The first entry without a lease that the loop of `resize` comes to. -/
def firstIdle (pool : Pool) (excess : ℤ) : List ℕ → Option ℕ
  | [] => none
  | entry :: rest =>
      if excess ≤ 0 then none
      else if (pool.heap entry).leased then pool.firstIdle (excess - 1) rest
      else some entry

theorem firstIdle_spec {excess : ℤ} {rest : List ℕ} {entry : ℕ}
    (h : pool.firstIdle excess rest = some entry) :
    entry ∈ rest ∧ (pool.heap entry).leased = false := by
  induction rest generalizing excess with
  | nil => cases h
  | cons first rest ih =>
      rw [firstIdle] at h
      split at h
      · cases h
      · split at h
        · exact ⟨List.mem_cons_of_mem first (ih h).1, (ih h).2⟩
        · rename_i hidle
          obtain rfl := Option.some.inj h
          exact ⟨List.mem_cons_self, by simpa using hidle⟩

/-- The loop only looks at the entry objects. -/
theorem firstIdle_congr {other : Pool} (h : pool.heap = other.heap) (excess : ℤ) (rest : List ℕ) :
    pool.firstIdle excess rest = other.firstIdle excess rest := by
  induction rest generalizing excess with
  | nil => rfl
  | cons entry rest ih => rw [firstIdle, firstIdle, h, ih]

/-- Marking an entry changes neither addresses nor leases. -/
theorem retire_leased (entry other : ℕ) :
    ((pool.setEntry entry { pool.heap entry with retire := true }).heap other).leased
      = (pool.heap other).leased := by
  by_cases hother : other = entry
  · rw [hother, setEntry_heap_self]
  · rw [setEntry_heap_of_ne hother]

theorem retire_address (entry : ℕ) :
    (pool.setEntry entry { pool.heap entry with retire := true }).address = pool.address :=
  setEntry_address rfl

theorem retire_firstIdle (entry : ℕ) (excess : ℤ) (rest : List ℕ) :
    (pool.setEntry entry { pool.heap entry with retire := true }).firstIdle excess rest
      = pool.firstIdle excess rest := by
  induction rest generalizing excess with
  | nil => rfl
  | cons first rest ih => rw [firstIdle, firstIdle, retire_leased, ih]

theorem retire_unclaimed {entry : ℕ} {address : String} (h : pool.Unclaimed address) :
    (pool.setEntry entry { pool.heap entry with retire := true }).Unclaimed address := by
  intro other hother haddress
  rw [retire_address] at haddress
  rw [retire_leased]
  exact h other hother haddress

structure Exclusive (pool : Pool) : Prop where
  keys : (pool.entries.map pool.address).Nodup
  held_leased : ∀ lease ∈ pool.held, lease.2 ∈ pool.entries ∧ (pool.heap lease.2).leased = true
  held_once : (pool.held.map Prod.snd).Nodup
  allocated : ∀ entry ∈ pool.entries, entry < pool.nextEntry
  handed : ∀ account held, .handed account held ∈ pool.log →
    ∀ other ∈ held, other.address ≠ account.address

namespace Exclusive

variable (h : pool.Exclusive)

include h

/-- The entries of the map are told apart by their addresses. -/
theorem eq_of_address {a b : ℕ} (ha : a ∈ pool.entries) (hb : b ∈ pool.entries)
    (hab : pool.address a = pool.address b) : a = b :=
  List.inj_on_of_nodup_map h.keys ha hb hab

/-- What no leased entry has, no lease holds. -/
theorem not_held {address : String} (hunclaimed : pool.Unclaimed address) :
    ∀ lease ∈ pool.held, pool.address lease.2 ≠ address := by
  intro lease hlease haddress
  obtain ⟨hentry, hleased⟩ := h.held_leased lease hlease
  rw [hunclaimed lease.2 hentry haddress] at hleased
  cases hleased

theorem unclaimed_of_idle {entry : ℕ} (hentry : entry ∈ pool.entries)
    (hidle : (pool.heap entry).leased = false) : pool.Unclaimed (pool.address entry) := by
  intro other hother haddress
  rw [h.eq_of_address hother hentry haddress]
  exact hidle

/-- The accounts under unreleased leases have different addresses. -/
theorem heldAccounts_nodup : (pool.heldAccounts.map ChannelAccount.address).Nodup := by
  unfold heldAccounts
  rw [List.map_map, show (ChannelAccount.address ∘ fun lease : ℕ × ℕ =>
    (pool.heap lease.2).account) = pool.address ∘ Prod.snd from rfl, ← List.map_map]
  refine List.Nodup.map_on ?_ h.held_once
  intro a ha b hb hab
  obtain ⟨x, hx, rfl⟩ := List.mem_map.mp ha
  obtain ⟨y, hy, rfl⟩ := List.mem_map.mp hb
  exact h.eq_of_address (h.held_leased x hx).1 (h.held_leased y hy).1 hab

theorem handOver {account : ChannelAccount} (hunclaimed : pool.Unclaimed account.address) :
    (pool.handOver account).Exclusive := by
  unfold Pool.handOver
  by_cases hcan : pool.canReclaim
  · rw [if_pos hcan]
    refine ⟨h.keys, h.held_leased, h.held_once, h.allocated, ?_⟩
    intro account' held hevent
    rcases List.mem_append.mp hevent with hold | hnew
    · exact h.handed account' held hold
    · obtain ⟨rfl, rfl⟩ := Event.handed.inj (List.mem_singleton.mp hnew)
      intro other hother
      obtain ⟨lease, hlease, rfl⟩ := List.mem_map.mp hother
      exact h.not_held hunclaimed lease hlease
  · rw [if_neg hcan]
    exact h

/-- Reclaiming is safe if no leased entry has the address of the entry. -/
theorem reclaim {entry : ℕ} (hunclaimed : pool.Unclaimed (pool.address entry)) :
    (pool.reclaim entry).2.Exclusive := by
  unfold Pool.reclaim
  by_cases hthere : ∃ other ∈ pool.entries, pool.address other = pool.address entry
  · rw [if_pos hthere]
    have hsub : (pool.entries.filter fun other => pool.address other ≠ pool.address entry).Sublist
        pool.entries := List.filter_sublist
    have hrest : Exclusive { pool with
        entries := pool.entries.filter (fun other => pool.address other ≠ pool.address entry) } := by
      refine ⟨h.keys.sublist (hsub.map _), ?_, h.held_once,
        fun e he => h.allocated e (hsub.subset he), h.handed⟩
      intro lease hlease
      obtain ⟨hentry, hleased⟩ := h.held_leased lease hlease
      refine ⟨?_, hleased⟩
      rw [List.mem_filter]
      exact ⟨hentry, by simpa using h.not_held hunclaimed lease hlease⟩
    refine hrest.handOver ?_
    intro other hother haddress
    exact hunclaimed other (hsub.subset hother) haddress
  · rw [if_neg hthere]
    exact h

/-- An entry may change if its account stays and a lease does not lose its mark. -/
theorem setEntry {entry : ℕ} {value : Entry} (haccount : value.account = (pool.heap entry).account)
    (hleased : ∀ lease ∈ pool.held, lease.2 = entry → value.leased = true) :
    (pool.setEntry entry value).Exclusive := by
  refine ⟨?_, ?_, h.held_once, h.allocated, h.handed⟩
  · rw [setEntry_address haccount]
    exact h.keys
  · intro lease hlease
    obtain ⟨hentry, hmark⟩ := h.held_leased lease hlease
    refine ⟨hentry, ?_⟩
    by_cases heq : lease.2 = entry
    · rw [heq, setEntry_heap_self]
      exact hleased lease hlease heq
    · rw [setEntry_heap_of_ne heq]
      exact hmark

theorem retire (entry : ℕ) :
    (pool.setEntry entry { pool.heap entry with retire := true }).Exclusive := by
  refine h.setEntry rfl ?_
  rintro lease hlease rfl
  exact (h.held_leased lease hlease).2

theorem settle (waiter : Waiter) (settlement : Settlement) :
    (pool.settle waiter settlement).Exclusive := by
  refine ⟨h.keys, h.held_leased, h.held_once, h.allocated, ?_⟩
  intro account held hevent
  rcases List.mem_append.mp hevent with hold | hnew
  · exact h.handed account held hold
  · cases List.mem_singleton.mp hnew

theorem makeLease {entry : ℕ} (hentry : entry ∈ pool.entries)
    (hidle : (pool.heap entry).leased = false) : (pool.makeLease entry).2.Exclusive := by
  have hnew : ∀ lease ∈ pool.held, lease.2 ≠ entry := by
    rintro lease hlease rfl
    rw [(h.held_leased lease hlease).2] at hidle
    cases hidle
  have hset : (pool.setEntry entry { pool.heap entry with leased := true }).Exclusive :=
    h.setEntry rfl (fun lease hlease heq => absurd heq (hnew lease hlease))
  refine ⟨hset.keys, ?_, ?_, hset.allocated, hset.handed⟩
  · intro lease hlease
    rcases List.mem_append.mp hlease with hold | hlast
    · exact hset.held_leased lease hold
    · obtain rfl := List.mem_singleton.mp hlast
      exact ⟨hentry, by rw [Pool.makeLease, setEntry_heap_self]⟩
  · rw [Pool.makeLease, List.map_append, List.map_singleton]
    refine List.Nodup.append h.held_once (List.nodup_singleton _) ?_
    rw [List.disjoint_singleton]
    intro hmem
    obtain ⟨lease, hlease, heq⟩ := List.mem_map.mp hmem
    exact hnew lease hlease heq

theorem add {account : ChannelAccount} {now : ℤ} {pool' : Pool}
    (hadd : pool.add account now = some pool') : pool'.Exclusive := by
  obtain ⟨hdup, rfl⟩ := add_some hadd
  have hold : ∀ entry ∈ pool.entries, entry ≠ pool.nextEntry :=
    fun entry hentry => (h.allocated entry hentry).ne
  have haddress : ∀ entry ∈ pool.entries, (pool.setEntry pool.nextEntry
      { account, leased := false, retire := false, lastUsedAt := now }).address entry
        = pool.address entry := by
    intro entry hentry
    show ((pool.setEntry _ _).heap entry).account.address = _
    rw [setEntry_heap_of_ne (hold entry hentry)]
    rfl
  refine ⟨?_, ?_, h.held_once, ?_, h.handed⟩
  · show ((pool.entries ++ [pool.nextEntry]).map (pool.setEntry pool.nextEntry
      { account, leased := false, retire := false, lastUsedAt := now }).address).Nodup
    rw [List.map_append, List.map_congr_left haddress, List.map_singleton]
    refine List.Nodup.append h.keys (List.nodup_singleton _) ?_
    rw [List.disjoint_singleton]
    intro hmem
    obtain ⟨entry, hentry, heq⟩ := List.mem_map.mp hmem
    refine hdup ⟨entry, hentry, heq.trans ?_⟩
    show ((pool.setEntry _ _).heap pool.nextEntry).account.address = _
    rw [setEntry_heap_self]
  · intro lease hlease
    obtain ⟨hentry, hleased⟩ := h.held_leased lease hlease
    refine ⟨List.mem_append_left _ hentry, ?_⟩
    show ((pool.setEntry _ _).heap lease.2).leased = true
    rw [setEntry_heap_of_ne (hold lease.2 hentry)]
    exact hleased
  · intro entry hentry
    rcases List.mem_append.mp hentry with hmem | hlast
    · exact Nat.lt_succ_of_lt (h.allocated entry hmem)
    · rw [List.mem_singleton.mp hlast]
      exact Nat.lt_succ_self _

omit h in
theorem startCreates (h : pool.Exclusive) (n : ℕ) : (pool.startCreates n).2.Exclusive := by
  induction n generalizing pool with
  | zero => exact h
  | succ n ih =>
      have hone : pool.startCreate.2.Exclusive :=
        ⟨h.keys, h.held_leased, h.held_once, h.allocated, h.handed⟩
      exact ih hone

omit h in
theorem grant (h : pool.Exclusive) (waiters : List Waiter) : (pool.grant waiters).Exclusive := by
  induction waiters generalizing pool with
  | nil => exact h
  | cons waiter waiters ih =>
      rw [Pool.grant]
      cases havailable : pool.availableEntry with
      | none => exact h
      | some entry =>
          obtain ⟨hentry, hidle⟩ := availableEntry_spec havailable
          have hqueue : Exclusive { pool with waiters } :=
            ⟨h.keys, h.held_leased, h.held_once, h.allocated, h.handed⟩
          have hlease := hqueue.makeLease hentry hidle
          exact ih (hlease.settle waiter (.resolve pool.nextLease))

theorem grow : pool.grow.Exclusive := by
  unfold Pool.grow
  dsimp only
  split
  · refine startCreates ?_ _
    exact ⟨h.keys, h.held_leased, h.held_once, h.allocated, h.handed⟩
  · exact h

theorem dispatch : pool.dispatch.Exclusive := (h.grant pool.waiters).grow

theorem failCreate (error : Option ChannelPoolErrorCode) : (pool.failCreate error).Exclusive := by
  unfold Pool.failCreate
  cases hwaiters : pool.waiters with
  | nil => exact h
  | cons waiter waiters =>
      have hqueue : Exclusive { pool with waiters } :=
        ⟨h.keys, h.held_leased, h.held_once, h.allocated, h.handed⟩
      exact hqueue.settle waiter _

theorem finishCreate (id : ℕ) (fulfilled : Bool) : (pool.finishCreate id fulfilled).Exclusive := by
  have hcount : Exclusive { pool with
      creating := pool.creating - 1
      creations := pool.creations ++ [(id, fulfilled)] } :=
    ⟨h.keys, h.held_leased, h.held_once, h.allocated, h.handed⟩
  exact hcount.dispatch

theorem lease (timeoutMs : Option ℤ) (signal aborted : Bool) :
    (pool.lease timeoutMs signal aborted).2.Exclusive := by
  unfold Pool.lease
  by_cases hclosed : pool.closed
  · rw [if_pos hclosed]
    exact h
  · rw [if_neg hclosed]
    by_cases haborted : signal ∧ aborted
    · rw [if_pos haborted]
      exact h
    · rw [if_neg haborted]
      cases havailable : pool.availableEntry with
      | some entry =>
          obtain ⟨hentry, hidle⟩ := availableEntry_spec havailable
          exact h.makeLease hentry hidle
      | none =>
          dsimp only
          split
          · exact h
          · refine dispatch ?_
            exact ⟨h.keys, h.held_leased, h.held_once, h.allocated, h.handed⟩

/-- The entry of a lease is its own. -/
theorem held_other {lease entry : ℕ} (hlookup : pool.held.lookup lease = some entry) :
    entry ∈ pool.entries ∧
      ∀ other ∈ pool.held.filter (fun other => other.1 ≠ lease), other.2 ≠ entry := by
  have hheld : (lease, entry) ∈ pool.held := by
    obtain ⟨before, after, hsplit, _⟩ := List.lookup_eq_some_iff.mp hlookup
    rw [hsplit]
    exact List.mem_append_right before List.mem_cons_self
  refine ⟨(h.held_leased _ hheld).1, ?_⟩
  intro other hmem heq
  obtain ⟨hother, hne⟩ := List.mem_filter.mp hmem
  have hsame : other = (lease, entry) := List.inj_on_of_nodup_map h.held_once hother hheld heq
  rw [hsame] at hne
  simp at hne

/-- A lease is given up and its entry loses the mark. -/
theorem unlease {lease entry : ℕ} {value : Entry}
    (hlookup : pool.held.lookup lease = some entry)
    (haccount : value.account = (pool.heap entry).account) :
    Exclusive ({ pool with held := pool.held.filter fun other => other.1 ≠ lease }.setEntry entry
      value) := by
  have hsub : (pool.held.filter fun other => other.1 ≠ lease).Sublist pool.held :=
    List.filter_sublist
  have hrest : Exclusive { pool with held := pool.held.filter fun other => other.1 ≠ lease } :=
    ⟨h.keys, fun other hother => h.held_leased other (hsub.subset hother),
      h.held_once.sublist (hsub.map _), h.allocated, h.handed⟩
  refine hrest.setEntry haccount ?_
  intro other hother heq
  exact absurd heq ((h.held_other hlookup).2 other hother)

/-- An idle entry of the map is reclaimed. -/
theorem reclaimIdle {entry : ℕ} (hentry : entry ∈ pool.entries)
    (hidle : (pool.heap entry).leased = false) (task : Bool → Task) :
    Exclusive { (pool.reclaim entry).2 with
      tasks := (pool.reclaim entry).2.tasks ++ [task (pool.reclaim entry).1] } := by
  have hreclaim := h.reclaim (h.unclaimed_of_idle hentry hidle)
  exact ⟨hreclaim.keys, hreclaim.held_leased, hreclaim.held_once, hreclaim.allocated,
    hreclaim.handed⟩

theorem release (lease : ℕ) (outcome : ChannelLeaseOutcome) (now : ℤ) :
    (pool.release lease outcome now).Exclusive := by
  rcases release_cases pool lease outcome now with hsame | ⟨entry, committed, rolledBack, hlookup,
    freed, hfreed, hresult⟩
  · rw [hsame]
    exact h
  · have hcount : Exclusive { pool with committed, rolledBack } :=
      ⟨h.keys, h.held_leased, h.held_once, h.allocated, h.handed⟩
    have hfree : freed.Exclusive := by
      rw [hfreed]
      exact hcount.unlease hlookup rfl
    rcases hresult with hdispatch | hreclaim
    · rw [hdispatch]
      exact hfree.dispatch
    · rw [hreclaim]
      refine hfree.reclaimIdle ?_ ?_ .release
      · rw [hfreed]
        exact (h.held_other hlookup).1
      · rw [hfreed, setEntry_heap_self]

omit h in
/-- The loop of `resize` is safe if the first idle entry it comes to is. -/
theorem shrink (h : pool.Exclusive) {excess : ℤ} {rest : List ℕ}
    (hidle : ∀ entry ∈ pool.firstIdle excess rest, pool.Unclaimed (pool.address entry)) :
    (pool.shrink excess rest).Exclusive := by
  induction rest generalizing pool excess with
  | nil => exact h
  | cons entry rest ih =>
      rw [firstIdle] at hidle
      rw [Pool.shrink]
      by_cases hexcess : excess ≤ 0
      · rw [if_pos hexcess]
        exact h
      · rw [if_neg hexcess] at hidle ⊢
        by_cases hleased : (pool.heap entry).leased
        · rw [if_pos hleased] at hidle ⊢
          refine ih (h.retire entry) ?_
          intro other hother
          rw [retire_firstIdle] at hother
          rw [retire_address]
          exact retire_unclaimed (hidle other hother)
        · rw [if_neg hleased] at hidle ⊢
          have hreclaim := h.reclaim (hidle entry rfl)
          exact ⟨hreclaim.keys, hreclaim.held_leased, hreclaim.held_once, hreclaim.allocated,
            hreclaim.handed⟩

theorem resizeCreated (size : ℕ) : (pool.resizeCreated size).Exclusive := by
  unfold Pool.resizeCreated
  dsimp only
  split
  · exact h
  · refine h.shrink ?_
    intro entry hentry
    obtain ⟨hmem, hidle⟩ := firstIdle_spec hentry
    rw [byLastUse, List.mem_insertionSort] at hmem
    exact h.unclaimed_of_idle hmem hidle

omit h in
/-- The loop of `close` only meets entries of the map. -/
theorem retireAll (h : pool.Exclusive) {rest : List ℕ}
    (hfresh : ∀ entry ∈ rest, ∀ other ∈ pool.entries,
      pool.address other = pool.address entry → other = entry) :
    (pool.retireAll rest).Exclusive := by
  induction rest generalizing pool with
  | nil => exact h
  | cons entry rest ih =>
      rw [Pool.retireAll]
      by_cases hleased : (pool.heap entry).leased
      · rw [if_pos hleased]
        refine ih (h.retire entry) ?_
        rw [retire_address]
        exact fun e he => hfresh e (List.mem_cons_of_mem entry he)
      · rw [if_neg hleased]
        refine ih (h.reclaim ?_) ?_
        · intro other hother haddress
          rw [hfresh entry List.mem_cons_self other hother haddress]
          simpa using hleased
        · intro e he other hother haddress
          have hsub : (pool.reclaim entry).2.entries.Sublist pool.entries :=
            reclaim_entries_sublist entry
          rw [reclaim_address] at haddress
          exact hfresh e (List.mem_cons_of_mem entry he) other (hsub.subset hother) haddress

omit h in
theorem rejectEach (h : pool.Exclusive) (waiters : List Waiter) (settlement : Settlement) :
    (waiters.foldl (fun pool waiter => pool.settle waiter settlement) pool).Exclusive := by
  induction waiters generalizing pool with
  | nil => exact h
  | cons waiter waiters ih => exact ih (h.settle waiter settlement)

theorem close : pool.close.Exclusive := by
  unfold Pool.close
  by_cases hclosed : pool.closed
  · rw [if_pos hclosed]
    exact h
  · rw [if_neg hclosed]
    have hmark : Exclusive { pool with closed := true, targetSize := 0, waiters := [] } :=
      ⟨h.keys, h.held_leased, h.held_once, h.allocated, h.handed⟩
    have hreject := hmark.rejectEach pool.waiters (.reject .POOL_CLOSED)
    refine hreject.retireAll ?_
    intro entry hentry other hother haddress
    exact hreject.eq_of_address hother hentry haddress

theorem rejectWaiter (code : ChannelPoolErrorCode) (waiter : Waiter) :
    (pool.rejectWaiter code waiter).Exclusive := by
  unfold Pool.rejectWaiter
  split
  · have hqueue : Exclusive { pool with waiters := pool.waiters.erase waiter } :=
      ⟨h.keys, h.held_leased, h.held_once, h.allocated, h.handed⟩
    exact hqueue.settle waiter _
  · exact h

theorem resize (size : ℤ) : (pool.resize size).2.Exclusive := by
  unfold Pool.resize
  split
  · exact h
  · split
    · exact h
    · split
      · exact h
      · have htarget : Exclusive { pool with targetSize := size.toNat } :=
          ⟨h.keys, h.held_leased, h.held_once, h.allocated, h.handed⟩
        have hcreates := htarget.startCreates
          (size.toNat - (pool.entries.length + pool.creating))
        exact ⟨hcreates.keys, hcreates.held_leased, hcreates.held_once, hcreates.allocated,
          hcreates.handed⟩

theorem created {id : ℕ} {answer : Except (Option ChannelPoolErrorCode) ChannelAccount} {now : ℤ}
    (hsurplus : ∀ account, answer = .ok account →
      pool.closed ∨ pool.entries.length ≥ pool.targetSize → pool.Unclaimed account.address) :
    (pool.created id answer now).Exclusive := by
  cases answer with
  | error error => exact (h.failCreate error).finishCreate id false
  | ok account =>
      rw [Pool.created]
      by_cases hfull : pool.closed ∨ pool.entries.length ≥ pool.targetSize
      · rw [if_pos hfull]
        have hhand := h.handOver (hsurplus account rfl hfull)
        exact ⟨hhand.keys, hhand.held_leased, hhand.held_once, hhand.allocated, hhand.handed⟩
      · rw [if_neg hfull]
        cases hadd : pool.add account now with
        | none => exact (h.failCreate none).finishCreate id false
        | some pool' => exact (h.add hadd).finishCreate id true

omit h in
theorem timeout (h : pool.Exclusive) (waiter : Waiter) : (pool.timeout waiter).Exclusive := by
  unfold Pool.timeout
  split
  · exact h.rejectWaiter _ waiter
  · exact h

omit h in
theorem abort (h : pool.Exclusive) (waiter : Waiter) : (pool.abort waiter).Exclusive := by
  unfold Pool.abort
  split
  · exact h.rejectWaiter _ waiter
  · exact h

end Exclusive

end Pool

/-! ## Runs -/

/-- **The condition.** A `resize` that goes on comes to no idle entry whose address a leased entry
of the map has, and no surplus account has the address of a leased entry. -/
def NoStaleReclaim (x : Transition Pool PoolAction) : Prop :=
  match x.act with
  | .resumed (.resize rest excess _) (.ok ()) =>
      ∀ entry ∈ x.pre.firstIdle excess rest, x.pre.Unclaimed (x.pre.address entry)
  | .created _ (.ok account) _ =>
      x.pre.closed ∨ x.pre.entries.length ≥ x.pre.targetSize → x.pre.Unclaimed account.address
  | _ => True

variable {pool pool' : Pool}

/-- **One step.** -/
theorem Pool.Exclusive.after (h : pool.Exclusive) {action : PoolAction}
    (hstep : PoolStep pool action pool') (hcondition : NoStaleReclaim ⟨pool, action, pool'⟩) :
    pool'.Exclusive := by
  have htaken : ∀ task, Exclusive { pool with tasks := pool.tasks.erase task } :=
    fun _ => ⟨h.keys, h.held_leased, h.held_once, h.allocated, h.handed⟩
  cases action with
  | lease timeoutMs signal aborted =>
      obtain rfl := Option.some.inj hstep
      exact h.lease timeoutMs signal aborted
  | release lease outcome now =>
      obtain rfl := Option.some.inj hstep
      exact h.release lease outcome now
  | workEnded lease succeeded now =>
      obtain rfl := Option.some.inj hstep
      exact h.release lease _ now
  | resize size =>
      obtain rfl := Option.some.inj hstep
      exact h.resize size
  | close =>
      obtain rfl := Option.some.inj hstep
      exact h.close
  | timeout waiter =>
      obtain rfl := Option.some.inj hstep
      exact h.timeout waiter
  | abort waiter =>
      obtain rfl := Option.some.inj hstep
      exact h.abort waiter
  | created id answer now =>
      obtain ⟨_, hsome⟩ := Option.ite_none_right_eq_some.mp hstep
      obtain rfl := Option.some.inj hsome
      refine (htaken _).created ?_
      rintro account rfl hfull
      exact hcondition hfull
  | resumed task answer =>
      obtain ⟨_, hsome⟩ := Option.ite_none_right_eq_some.mp hstep
      rcases Pool.resumed_cases hsome with ⟨id, _, rfl | ⟨error, rfl⟩⟩ |
        ⟨_, rfl | rfl | ⟨size, rfl⟩ | ⟨rest, excess, called, rfl, rfl, rfl⟩⟩
      · exact (htaken _).finishCreate id true
      · exact ((htaken _).failCreate error).finishCreate id false
      · exact htaken _
      · exact (htaken _).dispatch
      · exact (htaken _).resizeCreated size
      · refine (htaken _).shrink ?_
        intro entry hentry
        let taken := { pool with tasks := pool.tasks.erase (.resize rest excess called) }
        have hheap : pool.heap = taken.heap := rfl
        have hsame := Pool.firstIdle_congr hheap excess rest
        exact hcondition entry (hsame.trans hentry)

/-- What the pool promises in every state. -/
structure Pool.Sound (pool : Pool) : Prop where
  /-- no address is under two unreleased leases -/
  exclusive : (pool.heldAccounts.map ChannelAccount.address).Nodup
  /-- no account was handed to the factory under a lease -/
  handed : ∀ account held, .handed account held ∈ pool.log →
    ∀ other ∈ held, other.address ≠ account.address
  /-- a waiter waits or was settled, and either once -/
  settled : ∀ id < pool.nextWaiter,
    (pool.waiters.map Waiter.id).count id + pool.log.countP (Pool.isSettled id) = 1
  /-- a closed pool lets nobody wait -/
  closed : pool.closed = true → pool.waiters = []
  capacity : pool.entries.length + pool.creating ≤ pool.maxSize

theorem Pool.sound_of_invariants (hexclusive : pool.Exclusive) (hserved : pool.Served)
    (hsized : pool.Sized 0 0) : pool.Sound := by
  refine ⟨hexclusive.heldAccounts_nodup, hexclusive.handed, ?_, hserved.closed_none, ?_⟩
  · intro id hid
    rw [hserved.once id, if_pos hid]
  · have hcounted := hsized.counted
    have hbounded := hsized.bounded
    omega

/-- Each account that is added takes one place. -/
theorem Pool.addAll_invariants {accounts : List (ChannelAccount × ℤ)}
    (hadd : accounts.foldlM (fun pool account => pool.add account.1 account.2) pool = some pool')
    (hexclusive : pool.Exclusive) (hserved : pool.Served)
    (hsized : pool.Sized 0 accounts.length) :
    pool'.Exclusive ∧ pool'.Served ∧ pool'.Sized 0 0 := by
  induction accounts generalizing pool with
  | nil =>
      obtain rfl := Option.some.inj hadd
      exact ⟨hexclusive, hserved, hsized⟩
  | cons account accounts ih =>
      rw [List.foldlM_cons] at hadd
      obtain ⟨next, hnext, hrest⟩ := Option.bind_eq_some_iff.mp hadd
      have hnextExclusive := hexclusive.add hnext
      obtain ⟨_, rfl⟩ := Pool.add_some hnext
      refine ih hrest hnextExclusive ⟨hserved.once, hserved.closed_none⟩ ⟨hsized.counted, ?_⟩
      have hbounded := hsized.bounded
      show (pool.entries ++ [pool.nextEntry]).length + pool.inFlight + accounts.length
        ≤ pool.maxSize
      rw [List.length_cons] at hbounded
      rw [List.length_append, List.length_singleton]
      omega

/-- The constructor establishes the invariants. -/
theorem Pool.new_invariants {accounts : List (ChannelAccount × ℤ)}
    {factory : Option ChannelAccountFactory} {minSize maxSize leaseTimeoutMs : Option ℤ}
    (h : Pool.new accounts factory minSize maxSize leaseTimeoutMs = some pool) :
    pool.Exclusive ∧ pool.Served ∧ pool.Sized 0 0 := by
  unfold Pool.new at h
  dsimp only at h
  split_ifs at h with _ _ hroom _ _
  refine Pool.addAll_invariants h ?_ ?_ ?_
  · exact ⟨List.nodup_nil, by simp, List.nodup_nil, by simp, by simp⟩
  · exact ⟨fun _ => rfl, fun _ => rfl⟩
  · refine ⟨rfl, ?_⟩
    show 0 + 0 + accounts.length ≤ (maxSize.getD _).toNat
    omega

/-- The pools that a list of actions leads through, and the last one. -/
def Pool.follow (pool : Pool) : List PoolAction → Option (List (Transition Pool PoolAction) × Pool)
  | [] => some ([], pool)
  | action :: actions => do
      let next ← pool.after action
      let (tr, last) ← next.follow actions
      some (⟨pool, action, next⟩ :: tr, last)

theorem Pool.follow_run {actions : List PoolAction} {tr : List (Transition Pool PoolAction)}
    (h : pool.follow actions = some (tr, pool')) : Run PoolStep pool tr pool' := by
  induction actions generalizing pool tr with
  | nil =>
      obtain ⟨rfl, rfl⟩ := Prod.mk.inj (Option.some.inj h)
      exact Run.nil pool
  | cons action actions ih =>
      rw [Pool.follow] at h
      obtain ⟨next, hnext, hrest⟩ := Option.bind_eq_some_iff.mp h
      obtain ⟨⟨rest, last⟩, hfollow, hsome⟩ := Option.bind_eq_some_iff.mp hrest
      obtain ⟨rfl, rfl⟩ := Prod.mk.inj (Option.some.inj hsome)
      exact Run.append (Run.single hnext) (ih hfollow)

def accountA : ChannelAccount := ⟨"A", some "a"⟩
def accountB : ChannelAccount := ⟨"B", some "b"⟩

/-- Two accounts, and a factory that gives accounts back after it has reclaimed them. -/
def samplePool : Option Pool :=
  Pool.new [(accountB, 0), (accountA, 1)] (some ⟨true⟩) none none none

/-- While `resize(0)` waits for the reclamation of `B`, account `A` is leased, released, reclaimed,
created again and leased again. Then `resize` comes to the old entry of `A`, and the factory may
create `A` once more. -/
def staleResize : List PoolAction := [
  .resize 0, .resumed (.creations 0 []) (.ok ()),
  .lease none false false, .release 0 .rolled_back 5,
  .lease none false false, .created 0 (.ok accountA) 6,
  .resumed (.resize [1] 1 true) (.ok ()),
  .lease none false false, .created 1 (.ok accountA) 7]

theorem staleResize_heldAccounts :
    (samplePool.bind fun pool => (pool.follow staleResize).map fun result =>
      (result.2.heldAccounts, decide (Event.handed accountA [accountA] ∈ result.2.log)))
        = some ([accountA, accountA], true) := by
  decide +kernel

end StellarAgent.Fleet
