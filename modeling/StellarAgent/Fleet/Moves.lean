import StellarAgent.Fleet.Capacity

set_option autoImplicit false

/-! # What an action does to the entries

The entry objects, the map and the leases of a pool are its shelf. Every action moves the shelf by a
few kinds of moves (`Pool.after_moves`), so what all moves keep, all actions keep.

`Tidy` is kept by all of them: the map has each address once, and a leased entry of the map is under
a lease.
-/

namespace StellarAgent.Fleet

open Lib

structure Shelf where
  heap : ℕ → Entry
  entries : List ℕ
  held : List (ℕ × ℕ)
  nextEntry : ℕ
  nextLease : ℕ

def Pool.shelf (pool : Pool) : Shelf :=
  ⟨pool.heap, pool.entries, pool.held, pool.nextEntry, pool.nextLease⟩

namespace Shelf

def address (shelf : Shelf) (entry : ℕ) : String := (shelf.heap entry).account.address

/-- What `#reclaim` takes out of the map. -/
def take (shelf : Shelf) (entry : ℕ) : Shelf :=
  { shelf with
    entries := shelf.entries.filter fun other => shelf.address other ≠ shelf.address entry }

def mark (shelf : Shelf) (entry : ℕ) : Shelf :=
  { shelf with
    heap := Function.update shelf.heap entry { shelf.heap entry with retire := true } }

def lease (shelf : Shelf) (entry : ℕ) : Shelf :=
  { shelf with
    heap := Function.update shelf.heap entry { shelf.heap entry with leased := true }
    held := shelf.held ++ [(shelf.nextLease, entry)]
    nextLease := shelf.nextLease + 1 }

/-- The lease is released. -/
def free (shelf : Shelf) (lease entry : ℕ) (now : ℤ) : Shelf :=
  { shelf with
    heap := Function.update shelf.heap entry
      { shelf.heap entry with leased := false, lastUsedAt := now }
    held := shelf.held.filter fun other => other.1 ≠ lease }

def add (shelf : Shelf) (account : ChannelAccount) (now : ℤ) : Shelf :=
  { shelf with
    heap := Function.update shelf.heap shelf.nextEntry
      { account, leased := false, retire := false, lastUsedAt := now }
    nextEntry := shelf.nextEntry + 1
    entries := shelf.entries ++ [shelf.nextEntry] }

/-- One move, where the pool is to hold `target` entries. -/
inductive Move (target : ℕ) (shelf : Shelf) : Shelf → Prop
  | mark {entry : ℕ} : (shelf.heap entry).leased = true → Move target shelf (shelf.mark entry)
  | lease {entry : ℕ} : entry ∈ shelf.entries → (shelf.heap entry).leased = false →
      Move target shelf (shelf.lease entry)
  | keep {lease entry : ℕ} {now : ℤ} : shelf.held.lookup lease = some entry →
      (shelf.heap entry).retire = false → shelf.entries.length ≤ target →
      Move target shelf (shelf.free lease entry now)
  | giveBack {lease entry : ℕ} {now : ℤ} : shelf.held.lookup lease = some entry →
      Move target shelf ((shelf.free lease entry now).take entry)
  | take {entry : ℕ} : (shelf.heap entry).leased = false → Move target shelf (shelf.take entry)
  | add {account : ChannelAccount} {now : ℤ} :
      (∀ entry ∈ shelf.entries, shelf.address entry ≠ account.address) →
      shelf.entries.length < target → Move target shelf (shelf.add account now)

def Moves (target : ℕ) : Shelf → Shelf → Prop := Relation.ReflTransGen (Move target)

theorem Moves.refl {target : ℕ} {shelf : Shelf} : Moves target shelf shelf :=
  Relation.ReflTransGen.refl

theorem Moves.single {target : ℕ} {shelf shelf' : Shelf} (h : Move target shelf shelf') :
    Moves target shelf shelf' := Relation.ReflTransGen.single h

theorem Moves.trans {target : ℕ} {a b c : Shelf} (hab : Moves target a b) (hbc : Moves target b c) :
    Moves target a c := Relation.ReflTransGen.trans hab hbc

/-- What every move keeps. -/
theorem Moves.keeps {target : ℕ} {P : Shelf → Prop}
    (hmove : ∀ shelf shelf', Move target shelf shelf' → P shelf → P shelf') {shelf shelf' : Shelf}
    (h : Moves target shelf shelf') (hP : P shelf) : P shelf' := by
  induction h with
  | refl => exact hP
  | tail _ hlast ih => exact hmove _ _ hlast ih

/-! ## Shelves in order -/

structure Tidy (shelf : Shelf) : Prop where
  keys : (shelf.entries.map shelf.address).Nodup
  allocated : ∀ entry ∈ shelf.entries, entry < shelf.nextEntry
  leased_held : ∀ entry ∈ shelf.entries, (shelf.heap entry).leased = true →
    ∃ lease, (lease, entry) ∈ shelf.held
  /-- the leases are numbered, each by its own number -/
  once : (shelf.held.map Prod.fst).Nodup
  numbered : ∀ lease ∈ shelf.held, lease.1 < shelf.nextLease

/-- An update that keeps the account keeps all addresses. -/
theorem update_address {shelf : Shelf} {entry : ℕ} {value : Entry}
    (h : value.account = (shelf.heap entry).account) :
    { shelf with heap := Function.update shelf.heap entry value }.address = shelf.address := by
  funext other
  show (Function.update shelf.heap entry value other).account.address = _
  by_cases hother : other = entry
  · rw [hother, Function.update_self, h]
    rfl
  · rw [Function.update_of_ne hother]
    rfl

section

variable {shelf : Shelf} {lease entry other : ℕ} (h : other ≠ entry)

include h

theorem mark_heap_of_ne : (shelf.mark entry).heap other = shelf.heap other :=
  Function.update_of_ne h _ _

theorem lease_heap_of_ne : (shelf.lease entry).heap other = shelf.heap other :=
  Function.update_of_ne h _ _

theorem free_heap_of_ne (now : ℤ) : (shelf.free lease entry now).heap other = shelf.heap other :=
  Function.update_of_ne h _ _

end

theorem mark_leased {shelf : Shelf} (entry other : ℕ) :
    ((shelf.mark entry).heap other).leased = (shelf.heap other).leased := by
  by_cases hsame : other = entry
  · rw [hsame]
    show (Function.update shelf.heap entry
      { shelf.heap entry with retire := true } entry).leased = _
    rw [Function.update_self]
  · rw [mark_heap_of_ne hsame]

theorem free_leased {shelf : Shelf} (lease entry : ℕ) (now : ℤ) :
    ((shelf.free lease entry now).heap entry).leased = false := by
  show (Function.update shelf.heap entry
    { shelf.heap entry with leased := false, lastUsedAt := now } entry).leased = false
  rw [Function.update_self]

namespace Tidy

variable {shelf : Shelf} (h : shelf.Tidy)

include h

theorem lookup {lease entry : ℕ} (hheld : (lease, entry) ∈ shelf.held) :
    shelf.held.lookup lease = some entry := by
  obtain ⟨before, after, hsplit⟩ := List.append_of_mem hheld
  refine List.lookup_eq_some_iff.mpr ⟨before, after, hsplit, fun other hother => ?_⟩
  have honce := h.once
  rw [hsplit, List.map_append, List.nodup_append] at honce
  have hne := honce.2.2 other.1 (List.mem_map_of_mem hother) lease (by simp)
  simpa using hne.symm

theorem mark (entry : ℕ) : (shelf.mark entry).Tidy := by
  have haddress : (shelf.mark entry).address = shelf.address := update_address rfl
  refine ⟨?_, h.allocated, ?_, h.once, h.numbered⟩
  · rw [haddress]
    exact h.keys
  · intro other hother hleased
    rw [mark_leased] at hleased
    exact h.leased_held other hother hleased

theorem lease (entry : ℕ) : (shelf.lease entry).Tidy := by
  have haddress : (shelf.lease entry).address = shelf.address := update_address rfl
  refine ⟨?_, h.allocated, ?_, ?_, ?_⟩
  · rw [haddress]
    exact h.keys
  · intro other hother hleased
    by_cases hsame : other = entry
    · rw [hsame]
      exact ⟨shelf.nextLease, List.mem_append_right _ List.mem_cons_self⟩
    · rw [lease_heap_of_ne hsame] at hleased
      obtain ⟨lease, hheld⟩ := h.leased_held other hother hleased
      exact ⟨lease, List.mem_append_left _ hheld⟩
  · show ((shelf.held ++ [(shelf.nextLease, entry)]).map Prod.fst).Nodup
    rw [List.map_append, List.map_singleton, List.nodup_append]
    refine ⟨h.once, List.nodup_singleton _, ?_⟩
    intro number hnumber other hother
    obtain ⟨lease, hlease, rfl⟩ := List.mem_map.mp hnumber
    obtain rfl := List.mem_singleton.mp hother
    exact (h.numbered lease hlease).ne
  · intro lease hlease
    rcases List.mem_append.mp hlease with hold | hnew
    · exact (h.numbered lease hold).trans (Nat.lt_succ_self _)
    · obtain rfl := List.mem_singleton.mp hnew
      exact Nat.lt_succ_self _

theorem free {lease entry : ℕ} (now : ℤ) (hlookup : shelf.held.lookup lease = some entry) :
    (shelf.free lease entry now).Tidy := by
  have haddress : (shelf.free lease entry now).address = shelf.address := update_address rfl
  refine ⟨?_, h.allocated, ?_, ?_, ?_⟩
  · rw [haddress]
    exact h.keys
  · intro other hother hleased
    by_cases hsame : other = entry
    · rw [hsame, free_leased] at hleased
      cases hleased
    · rw [free_heap_of_ne hsame] at hleased
      obtain ⟨number, hheld⟩ := h.leased_held other hother hleased
      refine ⟨number, List.mem_filter.mpr ⟨hheld, ?_⟩⟩
      have hne : number ≠ lease := by
        rintro rfl
        exact hsame (Option.some.inj ((h.lookup hheld).symm.trans hlookup))
      simpa using hne
  · exact h.once.sublist (List.filter_sublist.map Prod.fst)
  · exact fun other hother => h.numbered other (List.mem_of_mem_filter hother)

theorem take (entry : ℕ) : (shelf.take entry).Tidy := by
  have hsub : (shelf.take entry).entries.Sublist shelf.entries := List.filter_sublist
  refine ⟨h.keys.sublist (hsub.map shelf.address), ?_, ?_, h.once, h.numbered⟩
  · exact fun other hother => h.allocated other (hsub.subset hother)
  · exact fun other hother => h.leased_held other (hsub.subset hother)

theorem add {account : ChannelAccount} (now : ℤ)
    (hnew : ∀ entry ∈ shelf.entries, shelf.address entry ≠ account.address) :
    (shelf.add account now).Tidy := by
  have hother : ∀ entry ∈ shelf.entries,
      (shelf.add account now).heap entry = shelf.heap entry := fun entry hentry =>
    Function.update_of_ne (h.allocated entry hentry).ne _ _
  have hadded : (shelf.add account now).heap shelf.nextEntry =
      { account, leased := false, retire := false, lastUsedAt := now } := Function.update_self _ _ _
  have hmap : shelf.entries.map (shelf.add account now).address =
      shelf.entries.map shelf.address := by
    refine List.map_congr_left (fun entry hentry => ?_)
    unfold Shelf.address
    rw [hother entry hentry]
  refine ⟨?_, ?_, ?_, h.once, h.numbered⟩
  · show ((shelf.entries ++ [shelf.nextEntry]).map _).Nodup
    rw [List.map_append, hmap, List.map_singleton, List.nodup_append]
    refine ⟨h.keys, List.nodup_singleton _, ?_⟩
    intro address haddress other hsingle
    obtain ⟨entry, hentry, rfl⟩ := List.mem_map.mp haddress
    obtain rfl := List.mem_singleton.mp hsingle
    unfold Shelf.address at *
    rw [hadded]
    exact hnew entry hentry
  · intro entry hentry
    rcases List.mem_append.mp hentry with hold | hsingle
    · exact (h.allocated entry hold).trans (Nat.lt_succ_self _)
    · obtain rfl := List.mem_singleton.mp hsingle
      exact Nat.lt_succ_self _
  · intro entry hentry hleased
    rcases List.mem_append.mp hentry with hold | hsingle
    · rw [hother entry hold] at hleased
      exact h.leased_held entry hold hleased
    · obtain rfl := List.mem_singleton.mp hsingle
      rw [hadded] at hleased
      cases hleased

omit h in
/-- **Every move keeps a shelf in order.** -/
theorem move {target : ℕ} {shelf shelf' : Shelf} (hmove : Move target shelf shelf')
    (h : shelf.Tidy) : shelf'.Tidy := by
  cases hmove with
  | mark _ => exact h.mark _
  | lease _ _ => exact h.lease _
  | keep hlookup _ _ => exact h.free _ hlookup
  | giveBack hlookup => exact (h.free _ hlookup).take _
  | take _ => exact h.take _
  | add hnew _ => exact h.add _ hnew

theorem moves {target : ℕ} {shelf' : Shelf} (hmoves : Moves target shelf shelf') : shelf'.Tidy :=
  hmoves.keeps (fun _ _ => move) h

end Tidy

end Shelf

open Shelf

namespace Pool

variable {pool : Pool}

/-! ## The moves of the actions -/

theorem shelf_handOver (account : ChannelAccount) : (pool.handOver account).shelf = pool.shelf := by
  unfold Pool.handOver
  split <;> rfl

theorem shelf_reclaim (entry : ℕ) : (pool.reclaim entry).2.shelf = pool.shelf.take entry := by
  unfold Pool.reclaim
  by_cases hfound : ∃ other ∈ pool.entries, pool.address other = pool.address entry
  · rw [if_pos hfound]
    dsimp only
    rw [shelf_handOver]
    rfl
  · rw [if_neg hfound]
    push Not at hfound
    have hsame : pool.entries.filter (fun other => pool.address other ≠ pool.address entry) =
        pool.entries :=
      List.filter_eq_self.mpr (fun other hother => by simpa using hfound other hother)
    have htake : pool.shelf.take entry = { pool.shelf with
        entries := pool.entries.filter
          (fun other => pool.address other ≠ pool.address entry) } := rfl
    rw [htake, hsame]
    rfl

theorem shelf_startCreates (n : ℕ) : (pool.startCreates n).2.shelf = pool.shelf := by
  induction n generalizing pool with
  | zero => rfl
  | succ n ih => exact ih

theorem shelf_grow : pool.grow.shelf = pool.shelf := by
  unfold Pool.grow
  dsimp only
  split
  · exact shelf_startCreates _
  · rfl

theorem moves_grant {target : ℕ} {shelf : Shelf} (waiters : List Waiter) (h : shelf = pool.shelf) :
    Moves target shelf (pool.grant waiters).shelf := by
  induction waiters generalizing pool shelf with
  | nil =>
      rw [h]
      exact Moves.refl
  | cons waiter waiters ih =>
      rw [Pool.grant]
      cases havailable : pool.availableEntry with
      | none =>
          rw [h]
          exact Moves.refl
      | some entry =>
          obtain ⟨hentry, hidle⟩ := availableEntry_spec havailable
          have hlease : Move target pool.shelf (pool.shelf.lease entry) := .lease hentry hidle
          rw [h]
          exact (Moves.single hlease).trans (ih rfl)

theorem moves_dispatch {target : ℕ} {shelf : Shelf} (h : shelf = pool.shelf) :
    Moves target shelf pool.dispatch.shelf := by
  unfold Pool.dispatch
  rw [shelf_grow]
  exact moves_grant pool.waiters h

theorem shelf_failCreate (error : Option ChannelPoolErrorCode) :
    (pool.failCreate error).shelf = pool.shelf := by
  unfold Pool.failCreate
  split <;> rfl

theorem moves_finishCreate {target : ℕ} {shelf : Shelf} (id : ℕ) (fulfilled : Bool)
    (h : shelf = pool.shelf) : Moves target shelf (pool.finishCreate id fulfilled).shelf := by
  unfold Pool.finishCreate
  exact moves_dispatch h

theorem moves_lease {target : ℕ} (timeoutMs : Option ℤ) (signal aborted : Bool) :
    Moves target pool.shelf (pool.lease timeoutMs signal aborted).2.shelf := by
  unfold Pool.lease
  split
  · exact Moves.refl
  · split
    · exact Moves.refl
    · cases havailable : pool.availableEntry with
      | some entry =>
          obtain ⟨hentry, hidle⟩ := availableEntry_spec havailable
          exact Moves.single (Move.lease hentry hidle)
      | none =>
          dsimp only
          split
          · exact Moves.refl
          · exact moves_dispatch rfl

theorem moves_release (lease : ℕ) (outcome : ChannelLeaseOutcome) (now : ℤ) :
    Moves pool.targetSize pool.shelf (pool.release lease outcome now).shelf := by
  unfold Pool.release
  cases hlookup : pool.held.lookup lease with
  | none => exact Moves.refl
  | some entry =>
      cases outcome
      all_goals
        dsimp only
        split
        · have hback : Move pool.targetSize pool.shelf
              ((pool.shelf.free lease entry now).take entry) := .giveBack hlookup
          refine Moves.trans (Moves.single hback) ?_
          show Moves _ _ (Pool.reclaim _ entry).2.shelf
          rw [shelf_reclaim]
          exact Moves.refl
        · rename_i hkeep
          push Not at hkeep
          obtain ⟨hretire, _, hlength⟩ := hkeep
          have hmarked : (pool.heap entry).retire = false := by simpa using hretire
          have hkept : Move pool.targetSize pool.shelf (pool.shelf.free lease entry now) :=
            .keep hlookup hmarked hlength
          exact (Moves.single hkept).trans (moves_dispatch rfl)

theorem moves_shrink {target : ℕ} {shelf : Shelf} (excess : ℤ) (rest : List ℕ)
    (h : shelf = pool.shelf) : Moves target shelf (pool.shrink excess rest).shelf := by
  induction rest generalizing pool shelf excess with
  | nil =>
      rw [h]
      exact Moves.refl
  | cons entry rest ih =>
      rw [h, Pool.shrink]
      split
      · exact Moves.refl
      · split
        · rename_i hleased
          have hmark : Move target pool.shelf (pool.shelf.mark entry) := .mark hleased
          exact (Moves.single hmark).trans (ih _ rfl)
        · rename_i hleased
          have hidle : (pool.heap entry).leased = false := by simpa using hleased
          have htake : Move target pool.shelf (pool.shelf.take entry) := .take hidle
          refine (Moves.single htake).trans ?_
          show Moves _ _ (pool.reclaim entry).2.shelf
          rw [shelf_reclaim]
          exact Moves.refl

theorem moves_resizeCreated {target : ℕ} {shelf : Shelf} (size : ℕ) (h : shelf = pool.shelf) :
    Moves target shelf (pool.resizeCreated size).shelf := by
  unfold Pool.resizeCreated
  dsimp only
  split
  · rw [h]
    exact Moves.refl
  · exact moves_shrink _ _ h

theorem moves_retireAll {target : ℕ} {shelf : Shelf} (rest : List ℕ) (h : shelf = pool.shelf) :
    Moves target shelf (pool.retireAll rest).shelf := by
  induction rest generalizing pool shelf with
  | nil =>
      rw [h]
      exact Moves.refl
  | cons entry rest ih =>
      rw [h, Pool.retireAll]
      split
      · rename_i hleased
        have hmark : Move target pool.shelf (pool.shelf.mark entry) := .mark hleased
        exact (Moves.single hmark).trans (ih rfl)
      · rename_i hleased
        have hidle : (pool.heap entry).leased = false := by simpa using hleased
        have htake : Move target pool.shelf (pool.shelf.take entry) := .take hidle
        exact (Moves.single htake).trans (ih (shelf_reclaim entry).symm)

theorem moves_close {target : ℕ} : Moves target pool.shelf pool.close.shelf := by
  unfold Pool.close
  split
  · exact Moves.refl
  · dsimp only
    rw [settle_foldl]
    exact moves_retireAll _ rfl

theorem shelf_resize (size : ℤ) : (pool.resize size).2.shelf = pool.shelf := by
  unfold Pool.resize
  split
  · rfl
  · split
    · rfl
    · split
      · rfl
      · exact shelf_startCreates _

theorem shelf_rejectWaiter (code : ChannelPoolErrorCode) (waiter : Waiter) :
    (pool.rejectWaiter code waiter).shelf = pool.shelf := by
  unfold Pool.rejectWaiter
  split <;> rfl

theorem moves_created {target : ℕ} {shelf : Shelf} (id : ℕ)
    (answer : Except (Option ChannelPoolErrorCode) ChannelAccount) (now : ℤ)
    (h : shelf = pool.shelf) (htarget : target = pool.targetSize) :
    Moves target shelf (pool.created id answer now).shelf := by
  subst h htarget
  cases answer with
  | error error =>
      exact moves_finishCreate id false (shelf_failCreate error).symm
  | ok account =>
      rw [Pool.created]
      split
      · show Moves _ _ (pool.handOver account).shelf
        rw [shelf_handOver]
        exact Moves.refl
      · rename_i hroom
        push Not at hroom
        cases hadd : pool.add account now with
        | none =>
            exact moves_finishCreate id false (shelf_failCreate none).symm
        | some added =>
            obtain ⟨hnew, rfl⟩ := add_some hadd
            push Not at hnew
            have hmove : Move pool.targetSize pool.shelf (pool.shelf.add account now) :=
              .add hnew hroom.2
            exact (Moves.single hmove).trans (moves_finishCreate id true rfl)

/-- **Every action moves the shelf.** -/
theorem after_moves {action : PoolAction} {pool' : Pool} (hstep : PoolStep pool action pool') :
    Moves pool.targetSize pool.shelf pool'.shelf := by
  cases action with
  | lease timeoutMs signal aborted =>
      obtain rfl := Option.some.inj hstep
      exact moves_lease timeoutMs signal aborted
  | release lease outcome now =>
      obtain rfl := Option.some.inj hstep
      exact moves_release lease outcome now
  | workEnded lease succeeded now =>
      obtain rfl := Option.some.inj hstep
      exact moves_release lease _ now
  | resize size =>
      obtain rfl := Option.some.inj hstep
      rw [shelf_resize]
      exact Moves.refl
  | close =>
      obtain rfl := Option.some.inj hstep
      exact moves_close
  | timeout waiter =>
      obtain rfl := Option.some.inj hstep
      unfold Pool.timeout
      split
      · rw [shelf_rejectWaiter]
        exact Moves.refl
      · exact Moves.refl
  | abort waiter =>
      obtain rfl := Option.some.inj hstep
      unfold Pool.abort
      split
      · rw [shelf_rejectWaiter]
        exact Moves.refl
      · exact Moves.refl
  | created id answer now =>
      obtain ⟨_, hsome⟩ := Option.ite_none_right_eq_some.mp hstep
      obtain rfl := Option.some.inj hsome
      exact moves_created id answer now rfl rfl
  | resumed task answer =>
      obtain ⟨_, hsome⟩ := Option.ite_none_right_eq_some.mp hstep
      rcases Pool.resumed_cases hsome with ⟨id, _, rfl | ⟨error, rfl⟩⟩ |
        ⟨_, rfl | rfl | ⟨size, rfl⟩ | ⟨rest, excess, called, rfl, rfl, rfl⟩⟩
      · exact moves_finishCreate id true rfl
      · refine moves_finishCreate id false ?_
        rw [shelf_failCreate]
        rfl
      · exact Moves.refl
      · exact moves_dispatch rfl
      · exact moves_resizeCreated size rfl
      · exact moves_shrink excess rest rfl

end Pool

end StellarAgent.Fleet
