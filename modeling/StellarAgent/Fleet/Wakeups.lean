import StellarAgent.Fleet.Convergence

set_option autoImplicit false

/-! # Wake-ups

Whoever waits for a lease is served by `#dispatch`, and `#dispatch` leaves a pool awake
(`Pool.dispatch_awake`): as long as somebody waits, no entry is free, and creations are under way
for all who wait unless the pool is full or has no factory. Between two dispatches the pool falls
asleep where an entry leaves the map: at a release whose reclamation the factory rejects, and at a
`resize` that comes to an idle entry whose address a leased one has.
-/

namespace StellarAgent.Fleet

open Lib Shelf

/-- Every entry of the map is leased or marked. -/
def Shelf.Busy (shelf : Shelf) : Prop :=
  ∀ entry ∈ shelf.entries, (shelf.heap entry).leased = true ∨ (shelf.heap entry).retire = true

/-- Only leased entries of the map are marked. -/
def Shelf.Marked (shelf : Shelf) : Prop :=
  ∀ entry ∈ shelf.entries, (shelf.heap entry).retire = true → (shelf.heap entry).leased = true

/-- Where there is no room for an entry, none gets free. -/
theorem Shelf.busy_move {shelf shelf' : Shelf} (hmove : Move 0 shelf shelf') (h : shelf.Busy) :
    shelf'.Busy := by
  cases hmove with
  | @mark entry _ =>
      intro other hother
      by_cases hsame : other = entry
      · right
        rw [hsame]
        show (Function.update shelf.heap entry
          { shelf.heap entry with retire := true } entry).retire = true
        rw [Function.update_self]
      · rw [mark_heap_of_ne hsame]
        exact h other hother
  | @lease entry _ _ =>
      intro other hother
      by_cases hsame : other = entry
      · left
        rw [hsame]
        show (Function.update shelf.heap entry
          { shelf.heap entry with leased := true } entry).leased = true
        rw [Function.update_self]
      · rw [lease_heap_of_ne hsame]
        exact h other hother
  | keep _ _ hlength =>
      intro other hother
      have hpos : 0 < shelf.entries.length := List.length_pos_of_mem hother
      omega
  | @giveBack lease entry now _ =>
      intro other hother
      have hsame : (shelf.free lease entry now).heap other = shelf.heap other :=
        free_heap_of_ne (mem_take hother) now
      show ((shelf.free lease entry now).heap other).leased = true ∨
        ((shelf.free lease entry now).heap other).retire = true
      rw [hsame]
      exact h other (List.mem_of_mem_filter hother)
  | take _ => exact fun other hother => h other (List.mem_of_mem_filter hother)
  | add _ hroom => cases hroom

theorem Shelf.marked_move {target : ℕ} {shelf shelf' : Shelf} (hmove : Move target shelf shelf')
    (htidy : shelf.Tidy) (h : shelf.Marked) : shelf'.Marked := by
  cases hmove with
  | @mark entry hleased =>
      intro other hother hmarked
      rw [mark_leased]
      by_cases hsame : other = entry
      · rw [hsame]
        exact hleased
      · rw [mark_heap_of_ne hsame] at hmarked
        exact h other hother hmarked
  | @lease entry _ _ =>
      intro other hother hmarked
      by_cases hsame : other = entry
      · rw [hsame]
        show (Function.update shelf.heap entry
          { shelf.heap entry with leased := true } entry).leased = true
        rw [Function.update_self]
      · rw [lease_heap_of_ne hsame] at hmarked ⊢
        exact h other hother hmarked
  | @keep lease entry now _ hretire _ =>
      intro other hother hmarked
      by_cases hsame : other = entry
      · rw [hsame] at hmarked
        have hfreed : (Function.update shelf.heap entry
            { shelf.heap entry with leased := false, lastUsedAt := now } entry).retire = true :=
          hmarked
        rw [Function.update_self] at hfreed
        exact absurd (hretire.symm.trans hfreed) (by decide)
      · rw [free_heap_of_ne hsame] at hmarked ⊢
        exact h other hother hmarked
  | @giveBack lease entry now _ =>
      intro other hother hmarked
      have hsame : (shelf.free lease entry now).heap other = shelf.heap other :=
        free_heap_of_ne (mem_take hother) now
      have hbefore : ((shelf.free lease entry now).heap other).retire = true := hmarked
      show ((shelf.free lease entry now).heap other).leased = true
      rw [hsame] at hbefore ⊢
      exact h other (List.mem_of_mem_filter hother) hbefore
  | take _ => exact fun other hother => h other (List.mem_of_mem_filter hother)
  | @add account now _ _ =>
      intro other hother hmarked
      rcases List.mem_append.mp hother with hold | hnew
      · have hsame : (shelf.add account now).heap other = shelf.heap other :=
          Function.update_of_ne (htidy.allocated other hold).ne _ _
        rw [hsame] at hmarked ⊢
        exact h other hold hmarked
      · obtain rfl := List.mem_singleton.mp hnew
        have hadded : (shelf.add account now).heap shelf.nextEntry =
            { account, leased := false, retire := false, lastUsedAt := now } :=
          Function.update_self _ _ _
        rw [hadded] at hmarked
        cases hmarked

namespace Pool

variable {pool pool' : Pool}

/-! ## What a dispatch leaves behind -/

/-- No entry is free to be leased. -/
def Busy (pool : Pool) : Prop := pool.shelf.Busy

/-- Whoever waits has a creation, or the pool cannot grow. -/
def Grown (pool : Pool) : Prop :=
  pool.entries.length + pool.creating = pool.maxSize ∨ pool.waiters.length ≤ pool.creating ∨
    pool.factory = none

/-- **Nobody waits in vain.** -/
def Awake (pool : Pool) : Prop := pool.waiters = [] ∨ (pool.Busy ∧ pool.Grown)

theorem availableEntry_none_iff : pool.availableEntry = none ↔ pool.Busy := by
  show _ ↔ ∀ entry ∈ pool.entries,
    (pool.heap entry).leased = true ∨ (pool.heap entry).retire = true
  unfold availableEntry byLastUse
  rw [List.head?_eq_none_iff, ← List.length_eq_zero_iff, List.length_insertionSort,
    List.length_eq_zero_iff, List.filter_eq_nil_iff]
  refine forall₂_congr (fun entry _ => ?_)
  cases (pool.heap entry).leased <;> cases (pool.heap entry).retire <;> simp

theorem grant_busy (pool : Pool) :
    (pool.grant pool.waiters).waiters = [] ∨ (pool.grant pool.waiters).Busy := by
  generalize hwaiters : pool.waiters = waiters
  induction waiters generalizing pool with
  | nil => exact Or.inl hwaiters
  | cons waiter waiters ih =>
      rw [Pool.grant]
      cases havailable : pool.availableEntry with
      | none => exact Or.inr (availableEntry_none_iff.mp havailable)
      | some entry => exact ih _ rfl

theorem startCreates_grown (pool : Pool) (n : ℕ) :
    (pool.startCreates n).2.waiters = pool.waiters ∧
      (pool.startCreates n).2.creating = pool.creating + n ∧
      (pool.startCreates n).2.maxSize = pool.maxSize ∧
      (pool.startCreates n).2.factory = pool.factory := by
  induction n generalizing pool with
  | zero => exact ⟨rfl, rfl, rfl, rfl⟩
  | succ n ih =>
      obtain ⟨hwaiters, hcreating, hmax, hfactory⟩ := ih pool.startCreate.2
      refine ⟨hwaiters, ?_, hmax, hfactory⟩
      show (startCreates pool.startCreate.2 n).2.creating = _
      rw [hcreating]
      show pool.creating + 1 + n = _
      omega

theorem startCreates_tasks (n : ℕ) {task : Task} (h : task ∈ pool.tasks) :
    task ∈ (pool.startCreates n).2.tasks := by
  induction n generalizing pool with
  | zero => exact h
  | succ n ih =>
      have hone : task ∈ pool.startCreate.2.tasks := List.mem_append_left _ h
      exact ih hone

/-- The size of a pool after a dispatch bounds what it was before. -/
theorem grow_grown (hsized : pool.grow.entries.length + pool.grow.creating ≤ pool.grow.maxSize) :
    pool.grow.Grown := by
  unfold Pool.grow at hsized ⊢
  dsimp only at hsized ⊢
  split
  · rename_i hgrow
    rw [if_pos hgrow] at hsized
    obtain ⟨hdemand, hroom, _⟩ := hgrow
    generalize hcount : min (pool.waiters.length - pool.creating)
      (pool.maxSize - pool.entries.length - pool.creating) = growth at hsized ⊢
    generalize htarget : max pool.targetSize (pool.entries.length + pool.creating + growth) =
      targetSize at hsized ⊢
    have hframe := startCreates_grown { pool with targetSize } growth
    have hentries : (startCreates { pool with targetSize } growth).2.entries = pool.entries :=
      congrArg Shelf.entries (shelf_startCreates growth)
    obtain ⟨hwaiters, hcreating, hmax, _⟩ := hframe
    unfold Grown
    rw [hentries, hwaiters, hcreating, hmax]
    dsimp only
    omega
  · rename_i hstill
    rw [if_neg hstill] at hsized
    unfold Grown
    cases hfactory : pool.factory with
    | none => exact Or.inr (Or.inr rfl)
    | some factory =>
        rw [hfactory] at hstill
        simp only [Option.isSome_some, and_true] at hstill
        omega

theorem grow_waiters : pool.grow.waiters = pool.waiters := by
  unfold Pool.grow
  dsimp only
  split
  · exact (startCreates_grown _ _).1
  · rfl

/-- **A dispatch wakes the pool.** -/
theorem dispatch_awake
    (hsized : pool.dispatch.entries.length + pool.dispatch.creating ≤ pool.dispatch.maxSize) :
    (pool.dispatch.waiters = [] ∨ pool.dispatch.Busy) ∧ pool.dispatch.Grown := by
  refine ⟨?_, grow_grown hsized⟩
  have hshelf : pool.dispatch.shelf = (pool.grant pool.waiters).shelf := shelf_grow
  rcases grant_busy pool with hnone | hbusy
  · left
    exact grow_waiters.trans hnone
  · right
    unfold Busy
    rw [hshelf]
    exact hbusy

theorem Sized.size (h : pool.Sized 0 0) :
    pool.entries.length + pool.creating ≤ pool.maxSize := by
  have hcounted := h.counted
  have hbounded := h.bounded
  omega

/-! ## What a release and a `resize` leave behind -/

/-- A suspended `release` goes on without the factory, or waits for it and this counts. -/
def Pending (waits : Bool) (pool : Pool) : Prop :=
  ∃ called, .release called ∈ pool.tasks ∧ (called = true → waits = true)

/-- Between two dispatches -/
structure Alert (waits : Bool) (pool : Pool) : Prop where
  busy : pool.waiters = [] ∨ pool.Busy
  grown : pool.Grown ∨ pool.Pending waits

variable {waits : Bool}

theorem alert_dispatch
    (hsized : pool.dispatch.entries.length + pool.dispatch.creating ≤ pool.dispatch.maxSize) :
    pool.dispatch.Alert waits :=
  ⟨(dispatch_awake hsized).1, Or.inl (dispatch_awake hsized).2⟩

theorem alert_of_nobody (h : pool.waiters = []) : pool.Alert waits := by
  refine ⟨Or.inl h, Or.inl (Or.inr (Or.inl ?_))⟩
  rw [h]
  exact Nat.zero_le _

/-- What concerns neither entries nor creations and lets nobody wait more. -/
theorem Alert.still (h : pool.Alert waits) (hshelf : pool'.shelf = pool.shelf)
    (hwaiters : pool'.waiters.length ≤ pool.waiters.length)
    (hcreating : pool'.creating = pool.creating) (hmax : pool'.maxSize = pool.maxSize)
    (hfactory : pool'.factory = pool.factory)
    (hpending : pool.Pending waits → pool'.Grown ∨ pool'.Pending waits) : pool'.Alert waits := by
  have hentries : pool'.entries = pool.entries := congrArg Shelf.entries hshelf
  refine ⟨?_, ?_⟩
  · rcases h.busy with hnone | hbusy
    · rw [hnone] at hwaiters
      exact Or.inl (List.length_eq_zero_iff.mp (Nat.le_zero.mp hwaiters))
    · right
      unfold Busy
      rw [hshelf]
      exact hbusy
  · rcases h.grown with hgrown | hreleasing
    · left
      unfold Grown at hgrown ⊢
      rw [hentries, hcreating, hmax, hfactory]
      rcases hgrown with hfull | hcreate | hnone
      · exact Or.inl hfull
      · exact Or.inr (Or.inl (hwaiters.trans hcreate))
      · exact Or.inr (Or.inr hnone)
    · exact hpending hreleasing

theorem reclaim_frame (pool : Pool) (entry : ℕ) :
    (pool.reclaim entry).2.waiters = pool.waiters ∧
      (pool.reclaim entry).2.creating = pool.creating ∧
      (pool.reclaim entry).2.maxSize = pool.maxSize ∧
      (pool.reclaim entry).2.factory = pool.factory ∧
      (¬ pool.Present entry → (pool.reclaim entry).2.entries = pool.entries) := by
  unfold Pool.reclaim Pool.handOver Present
  split
  · rename_i hfound
    dsimp only
    split
    · exact ⟨rfl, rfl, rfl, rfl, fun h => absurd hfound h⟩
    · exact ⟨rfl, rfl, rfl, rfl, fun h => absurd hfound h⟩
  · exact ⟨rfl, rfl, rfl, rfl, fun _ => rfl⟩

/-- The loop of `resize` takes out at most the first idle entry that it meets. -/
theorem shrink_frame (pool : Pool) (excess : ℤ) (rest : List ℕ) :
    (pool.shrink excess rest).waiters = pool.waiters ∧
      (pool.shrink excess rest).creating = pool.creating ∧
      (pool.shrink excess rest).maxSize = pool.maxSize ∧
      (pool.shrink excess rest).factory = pool.factory ∧
      (∀ called, .release called ∈ pool.tasks →
        .release called ∈ (pool.shrink excess rest).tasks) ∧
      ((∀ entry ∈ pool.firstIdle excess rest, ¬ pool.Present entry) →
        (pool.shrink excess rest).entries = pool.entries) := by
  induction rest generalizing pool excess with
  | nil => exact ⟨rfl, rfl, rfl, rfl, fun _ h => h, fun _ => rfl⟩
  | cons entry rest ih =>
      rw [firstIdle, Pool.shrink]
      split
      · exact ⟨rfl, rfl, rfl, rfl, fun _ h => h, fun _ => rfl⟩
      · split
        · obtain ⟨hwaiters, hcreating, hmax, hfactory, htasks, hentries⟩ := ih
            (pool.setEntry entry { pool.heap entry with retire := true }) (excess - 1)
          refine ⟨hwaiters, hcreating, hmax, hfactory, htasks, fun h => hentries ?_⟩
          unfold Present
          rw [retire_firstIdle, retire_address]
          exact h
        · obtain ⟨hwaiters, hcreating, hmax, hfactory, hentries⟩ :=
            reclaim_frame pool entry
          refine ⟨hwaiters, hcreating, hmax, hfactory, fun called h => ?_,
            fun h => hentries (h entry rfl)⟩
          show Task.release called ∈ (pool.reclaim entry).2.tasks ++ _
          rw [reclaim_tasks]
          exact List.mem_append_left _ h

/-- `resize` keeps a pool alert, unless it takes an entry out while somebody waits. -/
theorem Alert.shrink (h : pool.Alert waits) {excess : ℤ} {rest : List ℕ}
    (hidle : ∀ entry ∈ pool.firstIdle excess rest, pool.Present entry →
      pool.waiters.length ≤ pool.creating) : (pool.shrink excess rest).Alert waits := by
  obtain ⟨hwaiters, hcreating, hmax, hfactory, htasks, hentries⟩ :=
    shrink_frame pool excess rest
  refine ⟨?_, ?_⟩
  · rw [hwaiters]
    refine h.busy.imp_right (fun hbusy => ?_)
    exact (moves_shrink excess rest rfl).keeps (P := Shelf.Busy) (fun _ _ => busy_move) hbusy
  · by_cases hfound : ∃ entry ∈ pool.firstIdle excess rest, pool.Present entry
    · obtain ⟨entry, hentry, hpresent⟩ := hfound
      left
      right
      left
      rw [hwaiters, hcreating]
      exact hidle entry hentry hpresent
    · push Not at hfound
      refine h.grown.imp ?_ ?_
      · intro hgrown
        unfold Grown
        rw [hentries hfound, hwaiters, hcreating, hmax, hfactory]
        exact hgrown
      · rintro ⟨called, htask, hcalled⟩
        exact ⟨called, htasks called htask, hcalled⟩

/-- What the `release` of a lease waits for: nothing, or `#reclaim`, which calls the factory or not.
The test is the one of `release`. -/
def releaseAwaits (pool : Pool) (lease : ℕ) : Option Bool :=
  match pool.held.lookup lease with
  | none => none
  | some entry =>
      if (pool.heap entry).retire ∨ pool.closed ∨ pool.entries.length > pool.targetSize then
        some (pool.reclaim entry).1
      else none

/-- Freeing an entry changes no address. -/
theorem free_present {freed : Pool} {entry : ℕ} (hentries : freed.entries = pool.entries)
    (haddress : freed.address = pool.address) (hcan : freed.canReclaim = pool.canReclaim) :
    (freed.reclaim entry).1 = (pool.reclaim entry).1 := by
  unfold Pool.reclaim
  rw [hentries, haddress, hcan]
  split <;> rfl

/-- **A release either dispatches, or gives the entry back.** -/
theorem release_awaits (lease : ℕ) (outcome : ChannelLeaseOutcome) (now : ℤ) :
    (pool.releaseAwaits lease = none ∧ (pool.release lease outcome now = pool ∨
      ∃ freed : Pool, pool.release lease outcome now = freed.dispatch)) ∨
    ∃ entry called, pool.releaseAwaits lease = some called ∧
      pool.held.lookup lease = some entry ∧
      (pool.release lease outcome now).shelf = (pool.shelf.free lease entry now).take entry ∧
      (pool.release lease outcome now).tasks = pool.tasks ++ [.release called] ∧
      (pool.release lease outcome now).waiters = pool.waiters ∧
      (pool.release lease outcome now).creating = pool.creating := by
  cases hlookup : pool.held.lookup lease with
  | none =>
      left
      unfold Pool.release releaseAwaits
      rw [hlookup]
      exact ⟨rfl, Or.inl rfl⟩
  | some entry =>
      have hawaits : pool.releaseAwaits lease =
          if (pool.heap entry).retire ∨ pool.closed ∨ pool.entries.length > pool.targetSize then
            some (pool.reclaim entry).1 else none := by
        unfold releaseAwaits
        rw [hlookup]
      unfold Pool.release
      rw [hlookup]
      by_cases hback : (pool.heap entry).retire ∨ pool.closed ∨
          pool.entries.length > pool.targetSize
      · rw [if_pos hback] at hawaits
        right
        refine ⟨entry, _, hawaits, rfl, ?_⟩
        cases outcome
        all_goals
          dsimp only
          rw [setEntry_heap_self]
          split
          · refine ⟨?_, ?_, (reclaim_frame _ entry).1, (reclaim_frame _ entry).2.1⟩
            · show Pool.shelf (Pool.reclaim _ entry).2 = _
              rw [shelf_reclaim]
              rfl
            · show (Pool.reclaim _ entry).2.tasks ++ _ = _
              rw [reclaim_tasks, free_present]
              · rfl
              · rfl
              · exact setEntry_address rfl
              · rfl
          · rename_i hkeep
            exact absurd hback hkeep
      · rw [if_neg hback] at hawaits
        left
        refine ⟨hawaits, Or.inr ?_⟩
        cases outcome
        all_goals
          dsimp only
          rw [setEntry_heap_self]
          split
          · rename_i hgive
            exact absurd hgive hback
          · exact ⟨_, rfl⟩

theorem Alert.release (h : pool.Alert waits) {lease : ℕ} {outcome : ChannelLeaseOutcome} {now : ℤ}
    (hsized : (pool.release lease outcome now).Sized 0 0)
    (hhands : waits = false → pool.releaseAwaits lease = some true →
      pool.waiters.length ≤ pool.creating) : (pool.release lease outcome now).Alert waits := by
  rcases release_awaits lease outcome now with ⟨_, hsame | ⟨freed, hfreed⟩⟩ |
    ⟨entry, called, hawaits, hlookup, hshelf, htasks, hwaiters, hcreating⟩
  · rw [hsame]
    exact h
  · rw [hfreed] at hsized ⊢
    exact alert_dispatch hsized.size
  · refine ⟨?_, ?_⟩
    · rw [hwaiters]
      refine h.busy.imp_right (fun hbusy => ?_)
      unfold Busy
      rw [hshelf]
      exact busy_move (.giveBack hlookup) hbusy
    · by_cases hcounts : called = true → waits = true
      · right
        refine ⟨called, ?_, hcounts⟩
        rw [htasks]
        exact List.mem_append_right _ List.mem_cons_self
      · push Not at hcounts
        obtain ⟨rfl, hwaits⟩ := hcounts
        left
        right
        left
        rw [hwaiters, hcreating]
        exact hhands (by simpa using hwaits) hawaits

end Pool

/-! ## The actions -/

/-- **The condition on an action.** No more lease calls wait than creations are under way, where a
release hands its entry to the factory (or, if such a release counts as pending, where the factory
rejects), and where `resize` takes out an entry that is not idle itself. -/
def Wakes (waits : Bool) (pool : Pool) : PoolAction → Prop
  | .release lease _ _ | .workEnded lease _ _ =>
      waits = false → pool.releaseAwaits lease = some true → pool.waiters.length ≤ pool.creating
  | .resumed (.release true) (.error _) => waits = true → pool.waiters.length ≤ pool.creating
  | .resumed (.resize rest excess _) (.ok ()) =>
      ∀ entry ∈ pool.firstIdle excess rest, pool.Present entry →
        pool.waiters.length ≤ pool.creating
  | _ => True

namespace Pool

variable {pool pool' : Pool} {waits : Bool}

/-- What a pool keeps between its actions. -/
structure Vigilant (waits : Bool) (pool : Pool) : Prop where
  tidy : pool.shelf.Tidy
  marked : pool.shelf.Marked
  sized : pool.Sized 0 0
  alert : pool.Alert waits

theorem Alert.lease (h : pool.Alert waits) (timeoutMs : Option ℤ) (signal aborted : Bool)
    (hsized : (pool.lease timeoutMs signal aborted).2.Sized 0 0) :
    (pool.lease timeoutMs signal aborted).2.Alert waits := by
  unfold Pool.lease at hsized ⊢
  split
  · exact h
  · rename_i hopen
    rw [if_neg hopen] at hsized
    split
    · exact h
    · rename_i haborted
      rw [if_neg haborted] at hsized
      cases havailable : pool.availableEntry with
      | some entry =>
          refine alert_of_nobody ?_
          rcases h.busy with hnone | hbusy
          · exact hnone
          · rw [availableEntry_none_iff.mpr hbusy] at havailable
            cases havailable
      | none =>
          rw [havailable] at hsized
          dsimp only at hsized ⊢
          split
          · exact h
          · rename_i hfactory
            rw [if_neg hfactory] at hsized
            exact alert_dispatch hsized.size

theorem Alert.resize (h : pool.Alert waits) (size : ℤ)
    (hsized : (pool.resize size).2.Sized 0 0) : (pool.resize size).2.Alert waits := by
  have hshelf : (pool.resize size).2.shelf = pool.shelf := shelf_resize size
  unfold Pool.resize at hsized hshelf ⊢
  split
  · exact h
  · rename_i hopen
    rw [if_neg hopen] at hsized hshelf
    split
    · exact h
    · rename_i hrange
      rw [if_neg hrange] at hsized hshelf
      split
      · exact h
      · rename_i hfactory
        rw [if_neg hfactory] at hsized hshelf
        dsimp only at hsized hshelf ⊢
        generalize hstarted : startCreates { pool with targetSize := size.toNat }
          (size.toNat - (pool.entries.length + pool.creating)) = started at hsized hshelf ⊢
        obtain ⟨hwaiters, hcreating, hmax, hnone⟩ :=
          startCreates_grown { pool with targetSize := size.toNat }
            (size.toNat - (pool.entries.length + pool.creating))
        rw [hstarted] at hwaiters hcreating hmax hnone
        have hentries : started.2.entries = pool.entries := congrArg Shelf.entries hshelf
        refine ⟨?_, ?_⟩
        · refine h.busy.imp (fun hnobody => hwaiters.trans hnobody) (fun hbusy => ?_)
          unfold Busy
          rw [hshelf]
          exact hbusy
        · refine h.grown.imp ?_ ?_
          · intro hgrown
            have hbound := hsized.size
            unfold Grown at hgrown ⊢
            dsimp only at hwaiters hcreating hmax hnone hbound ⊢
            rw [hentries, hwaiters, hcreating, hmax, hnone]
            rw [hentries, hcreating, hmax] at hbound
            rcases hgrown with hfull | hcreate | hfactory
            · left
              omega
            · right
              left
              omega
            · exact Or.inr (Or.inr hfactory)
          · rintro ⟨called, htask, hcalled⟩
            refine ⟨called, List.mem_append_left _ ?_, hcalled⟩
            rw [← hstarted]
            exact startCreates_tasks _ htask

theorem Alert.rejectWaiter (h : pool.Alert waits) (code : ChannelPoolErrorCode) (waiter : Waiter) :
    (pool.rejectWaiter code waiter).Alert waits := by
  refine h.still (shelf_rejectWaiter code waiter) ?_ ?_ ?_ ?_ ?_
  all_goals
    unfold Pool.rejectWaiter
    split
  · exact List.length_erase_le
  · exact le_rfl
  · rfl
  · rfl
  · rfl
  · rfl
  · rfl
  · rfl
  · exact Or.inr
  · exact Or.inr

theorem retireAll_waiters (rest : List ℕ) : (pool.retireAll rest).waiters = pool.waiters := by
  induction rest generalizing pool with
  | nil => rfl
  | cons entry rest ih =>
      rw [Pool.retireAll]
      split
      · exact ih
      · rw [ih]
        exact (reclaim_frame _ entry).1

theorem Alert.close (h : pool.Alert waits) : pool.close.Alert waits := by
  unfold Pool.close
  split
  · exact h
  · refine alert_of_nobody ?_
    dsimp only
    rw [retireAll_waiters, settle_foldl]

/-- A task goes on that nobody who waits depends on. -/
theorem Alert.taken (h : pool.Alert waits) {task : Task}
    (htask : ∀ called, (called = true → waits = true) → task = .release called →
      pool.waiters.length ≤ pool.creating) :
    Alert waits { pool with tasks := pool.tasks.erase task } := by
  refine ⟨h.busy, ?_⟩
  rcases h.grown with hgrown | ⟨called, hmem, hcalled⟩
  · exact Or.inl hgrown
  · by_cases hsame : task = .release called
    · exact Or.inl (Or.inr (Or.inl (htask called hcalled hsame)))
    · exact Or.inr ⟨called, (List.mem_erase_of_ne (Ne.symm hsame)).mpr hmem, hcalled⟩

theorem Alert.created (h : pool.Alert waits) (id : ℕ)
    (answer : Except (Option ChannelPoolErrorCode) ChannelAccount) (now : ℤ)
    (hsized : (pool.created id answer now).Sized 0 0) :
    (pool.created id answer now).Alert waits := by
  cases answer with
  | error error => exact alert_dispatch hsized.size
  | ok account =>
      unfold Pool.created at hsized ⊢
      dsimp only at hsized ⊢
      split
      · have hhand : (pool.handOver account).shelf = pool.shelf := shelf_handOver account
        refine h.still hhand ?_ ?_ ?_ ?_ ?_
        all_goals unfold Pool.handOver
        · split <;> exact le_rfl
        · split <;> rfl
        · split <;> rfl
        · split <;> rfl
        · rintro ⟨called, htask, hcalled⟩
          right
          split
          · exact ⟨called, List.mem_append_left _ htask, hcalled⟩
          · exact ⟨called, List.mem_append_left _ htask, hcalled⟩
      · rename_i hroom
        rw [if_neg hroom] at hsized
        cases hadd : pool.add account now with
        | none =>
            rw [hadd] at hsized
            exact alert_dispatch hsized.size
        | some added =>
            rw [hadd] at hsized
            exact alert_dispatch hsized.size

theorem Alert.resizeCreated (h : pool.Alert waits) (hmarked : pool.shelf.Marked) (size : ℕ) :
    (pool.resizeCreated size).Alert waits := by
  unfold Pool.resizeCreated
  dsimp only
  split
  · exact h
  · refine h.shrink ?_
    intro entry hentry _
    obtain ⟨hmem, hidle⟩ := firstIdle_spec hentry
    rw [byLastUse, List.mem_insertionSort] at hmem
    -- an idle entry of the map is free, so nobody waits
    rcases h.busy with hnobody | hbusy
    · rw [hnobody]
      exact Nat.zero_le _
    · have hleased : (pool.heap entry).leased = true := by
        rcases hbusy entry hmem with hleased | hretire
        · exact hleased
        · exact hmarked entry hmem hretire
      rw [hidle] at hleased
      cases hleased

theorem Alert.resumed (h : pool.Vigilant waits) {task : Task}
    {answer : Except (Option ChannelPoolErrorCode) Unit}
    (hstep : PoolStep pool (.resumed task answer) pool')
    (hwakes : Wakes waits pool (.resumed task answer)) : pool'.Alert waits := by
  have hsized := h.sized.after hstep
  obtain ⟨htask, hsome⟩ := Option.ite_none_right_eq_some.mp hstep
  cases task with
  | create id => cases hsome
  | surplus id =>
      cases answer with
      | ok _ =>
          obtain rfl := Option.some.inj hsome
          exact alert_dispatch hsized.size
      | error error =>
          obtain ⟨_, hsome⟩ := Option.ite_none_right_eq_some.mp hsome
          obtain rfl := Option.some.inj hsome
          exact alert_dispatch hsized.size
  | release called =>
      cases answer with
      | ok _ =>
          obtain rfl := Option.some.inj hsome
          exact alert_dispatch hsized.size
      | error error =>
          obtain ⟨hcalled, hsome⟩ := Option.ite_none_right_eq_some.mp hsome
          obtain rfl := Option.some.inj hsome
          refine h.alert.taken ?_
          rintro called' hwaits hsame
          obtain rfl := Task.release.inj hsame
          rw [hcalled] at hwakes
          exact hwakes (hwaits hcalled)
  | creations size ids =>
      have htaken : Alert waits { pool with tasks := pool.tasks.erase (.creations size ids) } :=
        h.alert.taken (fun _ _ hsame => nomatch hsame)
      cases answer with
      | ok _ =>
          obtain ⟨_, hsome⟩ := Option.ite_none_right_eq_some.mp hsome
          obtain rfl := Option.some.inj hsome
          exact htaken.resizeCreated h.marked size
      | error error =>
          obtain ⟨_, hsome⟩ := Option.ite_none_right_eq_some.mp hsome
          obtain rfl := Option.some.inj hsome
          exact htaken
  | resize rest excess called =>
      have htaken : Alert waits { pool with
          tasks := pool.tasks.erase (.resize rest excess called) } :=
        h.alert.taken (fun _ _ hsame => nomatch hsame)
      cases answer with
      | ok _ =>
          obtain rfl := Option.some.inj hsome
          refine htaken.shrink ?_
          intro entry hentry hpresent
          rw [tasks_firstIdle] at hentry
          exact hwakes entry hentry hpresent
      | error error =>
          obtain ⟨_, hsome⟩ := Option.ite_none_right_eq_some.mp hsome
          obtain rfl := Option.some.inj hsome
          exact htaken

theorem Alert.after (h : pool.Vigilant waits) {action : PoolAction}
    (hstep : PoolStep pool action pool') (hwakes : Wakes waits pool action) :
    pool'.Alert waits := by
  have hsized := h.sized.after hstep
  cases action with
  | lease timeoutMs signal aborted =>
      obtain rfl := Option.some.inj hstep
      exact h.alert.lease timeoutMs signal aborted hsized
  | release lease outcome now =>
      obtain rfl := Option.some.inj hstep
      exact h.alert.release hsized hwakes
  | workEnded lease succeeded now =>
      obtain rfl := Option.some.inj hstep
      exact h.alert.release hsized hwakes
  | resize size =>
      obtain rfl := Option.some.inj hstep
      exact h.alert.resize size hsized
  | close =>
      obtain rfl := Option.some.inj hstep
      exact h.alert.close
  | timeout waiter =>
      obtain rfl := Option.some.inj hstep
      unfold Pool.timeout
      split
      · exact h.alert.rejectWaiter _ waiter
      · exact h.alert
  | abort waiter =>
      obtain rfl := Option.some.inj hstep
      unfold Pool.abort
      split
      · exact h.alert.rejectWaiter _ waiter
      · exact h.alert
  | created id answer now =>
      obtain ⟨htask, hsome⟩ := Option.ite_none_right_eq_some.mp hstep
      obtain rfl := Option.some.inj hsome
      have htaken : Alert waits { pool with tasks := pool.tasks.erase (.create id) } :=
        h.alert.taken (fun _ _ hsame => nomatch hsame)
      exact htaken.created id answer now hsized
  | resumed task answer => exact resumed h hstep hwakes

theorem Vigilant.after (h : pool.Vigilant waits) {action : PoolAction}
    (hstep : PoolStep pool action pool') (hwakes : Wakes waits pool action) :
    pool'.Vigilant waits := by
  have hmoves := after_moves hstep
  have hboth := hmoves.keeps (P := fun shelf => shelf.Tidy ∧ shelf.Marked)
    (fun _ _ hmove hshelf => ⟨Tidy.move hmove hshelf.1, marked_move hmove hshelf.1 hshelf.2⟩)
    ⟨h.tidy, h.marked⟩
  exact ⟨hboth.1, hboth.2, h.sized.after hstep, Alert.after h hstep hwakes⟩

theorem new_vigilant {accounts : List (ChannelAccount × ℤ)}
    {factory : Option ChannelAccountFactory} {minSize maxSize leaseTimeoutMs : Option ℤ}
    (hnew : Pool.new accounts factory minSize maxSize leaseTimeoutMs = some pool) :
    pool.Vigilant waits := by
  have htidy := new_tidy hnew
  have hsized := (new_invariants hnew).2.2
  unfold Pool.new at hnew
  dsimp only at hnew
  split_ifs at hnew
  obtain ⟨hunmarked, hnobody⟩ := addAll_keeps
    (P := fun pool => (∀ entry, (pool.heap entry).retire = false) ∧ pool.waiters = []) (by
      rintro pool account now pool' hadd ⟨hunmarked, hnobody⟩
      obtain ⟨_, rfl⟩ := add_some hadd
      refine ⟨fun entry => ?_, hnobody⟩
      show (Function.update pool.heap pool.nextEntry _ entry).retire = false
      by_cases hsame : entry = pool.nextEntry
      · rw [hsame, Function.update_self]
      · rw [Function.update_of_ne hsame]
        exact hunmarked entry) hnew ⟨fun _ => rfl, rfl⟩
  refine ⟨htidy, ?_, hsized, alert_of_nobody hnobody⟩
  intro entry _ hretire
  exact absurd ((hunmarked entry).symm.trans hretire) (by decide)

theorem Alert.awake (h : pool.Alert waits) (hnone : ¬ pool.Pending waits) : pool.Awake := by
  refine h.busy.imp_right (fun hbusy => ⟨hbusy, ?_⟩)
  exact h.grown.resolve_right hnone

end Pool

/-! ## Use of a lease -/

/-- Where a call of `use` is. -/
inductive UseStage where
  /-- `use` of the pool waits for its `lease` call -/
  | leasing (waiter : ℕ)
  /-- the `lease` call of `use` of the pool was rejected -/
  | refused
  /-- the work is under way -/
  | working (lease : ℕ)
  /-- the work has ended, and `release` waits for `#reclaim`, which has called the factory or not -/
  | releasing (called : Bool)
  | fulfilled
  | rejected
  deriving DecidableEq

structure Use where
  stage : UseStage
  /-- whether the work callback was fulfilled, once it has ended -/
  worked : Option Bool
  deriving DecidableEq

/-- A pool, and the calls of `use` so far. -/
structure UsedPool where
  pool : Pool
  uses : List Use

inductive UseAction where
  /-- anything else that happens to the pool -/
  | pool (action : PoolAction)
  /-- `use` of the pool -/
  | use (timeoutMs : Option ℤ) (signal aborted : Bool)
  /-- a `use` of the pool has got the answer of its `lease` call -/
  | leased (use : ℕ)
  /-- `use` of a lease -/
  | useLease (lease : ℕ)
  | workEnded (use : ℕ) (succeeded : Bool) (now : ℤ)
  /-- the `#reclaim` that the `release` of a `use` waits for is settled -/
  | released (use : ℕ) (answer : Except (Option ChannelPoolErrorCode) Unit)

/-- How the promise of a waiter was settled. -/
def Pool.settlementOf (pool : Pool) (waiter : ℕ) : Option Settlement :=
  pool.log.findSome? fun event =>
    match event with
    | .settled other settlement => if other = waiter then some settlement else none
    | .handed _ _ => none

namespace UsedPool

variable {used used' : UsedPool}

/-- An action of others does not take what a `use` waits for. -/
def Leaves (used : UsedPool) : PoolAction → Prop
  | .workEnded _ _ _ => False
  | .resumed (.release called) _ =>
      used.uses.countP (fun use => use.stage = .releasing called) <
        used.pool.tasks.count (.release called)
  | _ => True

instance (used : UsedPool) (action : PoolAction) : Decidable (used.Leaves action) := by
  unfold Leaves
  split <;> infer_instance

/-- The pool and its uses after an action; nothing if the action is not possible. -/
def after (used : UsedPool) : UseAction → Option UsedPool
  | .pool action =>
      if used.Leaves action then
        (used.pool.after action).map fun pool => { used with pool }
      else none
  | .use timeoutMs signal aborted =>
      let (answer, pool) := used.pool.lease timeoutMs signal aborted
      let stage : UseStage :=
        match answer with
        | .lease id => .working id
        | .pending waiter => .leasing waiter
        | .thrown _ => .refused
      some { pool, uses := used.uses ++ [⟨stage, none⟩] }
  | .leased use =>
      match used.uses[use]? with
      | some ⟨.leasing waiter, _⟩ =>
          (used.pool.settlementOf waiter).map fun settlement =>
            let stage : UseStage :=
              match settlement with
              | .resolve lease => .working lease
              | .reject _ => .refused
            { used with uses := used.uses.set use ⟨stage, none⟩ }
      | _ => none
  | .useLease lease => some { used with uses := used.uses ++ [⟨.working lease, none⟩] }
  | .workEnded use succeeded now =>
      match used.uses[use]? with
      | some ⟨.working lease, _⟩ =>
          let stage : UseStage :=
            match used.pool.releaseAwaits lease with
            | some called => .releasing called
            | none => if succeeded then .fulfilled else .rejected
          some {
            pool := used.pool.workEnded lease succeeded now
            uses := used.uses.set use ⟨stage, some succeeded⟩ }
      | _ => none
  | .released use answer =>
      match used.uses[use]? with
      | some ⟨.releasing called, worked⟩ =>
          (used.pool.after (.resumed (.release called) answer)).map fun pool =>
            -- where the first `release` throws, the one in the `catch` finds the lease released
            let stage : UseStage :=
              match answer, worked with
              | .ok (), some true => .fulfilled
              | _, _ => .rejected
            { pool, uses := used.uses.set use ⟨stage, worked⟩ }
      | _ => none

/-- What the pool does in an action. -/
def performs (used : UsedPool) : UseAction → Option PoolAction
  | .pool action => some action
  | .use timeoutMs signal aborted => some (.lease timeoutMs signal aborted)
  | .leased _ => none
  | .useLease _ => none
  | .workEnded use succeeded now =>
      match used.uses[use]? with
      | some ⟨.working lease, _⟩ => some (.workEnded lease succeeded now)
      | _ => none
  | .released use answer =>
      match used.uses[use]? with
      | some ⟨.releasing called, _⟩ => some (.resumed (.release called) answer)
      | _ => none

/-- An action is at most one of the pool. -/
theorem after_performs {action : UseAction} (h : used.after action = some used') :
    used'.pool = used.pool ∨
      ∃ performed ∈ used.performs action, PoolStep used.pool performed used'.pool := by
  cases action with
  | pool action =>
      obtain ⟨_, hmap⟩ := Option.ite_none_right_eq_some.mp h
      obtain ⟨pool, hstep, rfl⟩ := Option.map_eq_some_iff.mp hmap
      exact Or.inr ⟨action, rfl, hstep⟩
  | use timeoutMs signal aborted =>
      obtain rfl := Option.some.inj h
      exact Or.inr ⟨_, rfl, rfl⟩
  | leased use =>
      left
      unfold UsedPool.after at h
      dsimp only at h
      split at h
      · obtain ⟨_, _, rfl⟩ := Option.map_eq_some_iff.mp h
        rfl
      · cases h
  | useLease lease =>
      obtain rfl := Option.some.inj h
      exact Or.inl rfl
  | workEnded use succeeded now =>
      right
      unfold UsedPool.after at h
      unfold performs
      dsimp only at h ⊢
      split at h
      · obtain rfl := Option.some.inj h
        exact ⟨_, rfl, rfl⟩
      · cases h
  | released use answer =>
      right
      unfold UsedPool.after at h
      unfold performs
      dsimp only at h ⊢
      split at h
      · obtain ⟨pool, hstep, rfl⟩ := Option.map_eq_some_iff.mp h
        exact ⟨_, rfl, hstep⟩
      · cases h

/-- How the uses can end: by the work, or where the factory rejects. -/
structure Ended (use : Use) : Prop where
  worked : ∀ called, use.stage = .releasing called → use.worked ≠ none
  rejected : use.stage = .rejected → use.worked = some false

/-- The factory does not reject while the `release` of a `use` waits for it whose work was
fulfilled. -/
def Answers (used : UsedPool) : UseAction → Prop
  | .released use (.error _) => ∀ found ∈ used.uses[use]?, found.worked ≠ some true
  | _ => True

theorem ended_after {action : UseAction} (h : used.after action = some used')
    (hended : ∀ use ∈ used.uses, Ended use) (hanswers : used.Answers action) :
    ∀ use ∈ used'.uses, Ended use := by
  have hset : ∀ (index : ℕ) (changed : Use), Ended changed →
      ∀ use ∈ used.uses.set index changed, Ended use := by
    intro index changed hchanged use huse
    rcases List.mem_or_eq_of_mem_set huse with hold | rfl
    · exact hended use hold
    · exact hchanged
  have hadd : ∀ started : Use, Ended started → ∀ use ∈ used.uses ++ [started], Ended use := by
    intro started hstarted
    rw [List.forall_mem_append, List.forall_mem_singleton]
    exact ⟨hended, hstarted⟩
  cases action with
  | pool action =>
      obtain ⟨_, hmap⟩ := Option.ite_none_right_eq_some.mp h
      obtain ⟨pool, _, rfl⟩ := Option.map_eq_some_iff.mp hmap
      exact hended
  | use timeoutMs signal aborted =>
      obtain rfl := Option.some.inj h
      refine hadd _ ?_
      split <;> exact ⟨nofun, nofun⟩
  | leased use =>
      unfold UsedPool.after at h
      dsimp only at h
      split at h
      · obtain ⟨settlement, _, rfl⟩ := Option.map_eq_some_iff.mp h
        refine hset use _ ?_
        cases settlement <;> exact ⟨nofun, nofun⟩
      · cases h
  | useLease lease =>
      obtain rfl := Option.some.inj h
      exact hadd _ ⟨nofun, nofun⟩
  | workEnded use succeeded now =>
      unfold UsedPool.after at h
      dsimp only at h
      split at h
      · obtain rfl := Option.some.inj h
        refine hset use _ ⟨nofun, ?_⟩
        split
        · nofun
        · cases succeeded
          · exact fun _ => rfl
          · nofun
      · cases h
  | released use answer =>
      unfold UsedPool.after at h
      dsimp only at h
      split at h
      · rename_i called worked hfound
        obtain ⟨pool, _, rfl⟩ := Option.map_eq_some_iff.mp h
        have hbefore := hended _ (List.mem_of_getElem? hfound)
        have hworked : worked ≠ none := hbefore.worked called rfl
        refine hset use _ ?_
        cases answer with
        | ok _ =>
            cases worked with
            | none => exact absurd rfl hworked
            | some succeeded => cases succeeded <;> exact ⟨nofun, by simp⟩
        | error error =>
            have hfailed : worked ≠ some true := hanswers _ hfound
            cases worked with
            | none => exact absurd rfl hworked
            | some succeeded =>
                cases succeeded
                · exact ⟨nofun, fun _ => rfl⟩
                · exact absurd rfl hfailed
      · cases h

end UsedPool

def UsedStep (used : UsedPool) (action : UseAction) (used' : UsedPool) : Prop :=
  used.after action = some used'

/-- **The condition on an action of a pool and its uses.** -/
def Meets (waits : Bool) (x : Transition UsedPool UseAction) : Prop :=
  (∀ performed ∈ x.pre.performs x.act, Wakes waits x.pre.pool performed) ∧ x.pre.Answers x.act

/-- **No wake-up is lost**, whether a release that waits for the factory is a pending step or not,
and a `use` is rejected only when its work was. -/
theorem no_lost_wakeup {accounts : List (ChannelAccount × ℤ)}
    {factory : Option ChannelAccountFactory} {minSize maxSize leaseTimeoutMs : Option ℤ}
    {pool : Pool} {used : UsedPool} {tr : List (Transition UsedPool UseAction)} {waits : Bool}
    (hnew : Pool.new accounts factory minSize maxSize leaseTimeoutMs = some pool)
    (hrun : Run UsedStep ⟨pool, []⟩ tr used) (hmeets : ∀ x ∈ tr, Meets waits x) :
    (¬ used.pool.Pending waits → used.pool.Awake) ∧
      ∀ use ∈ used.uses, use.stage = .rejected → use.worked = some false := by
  obtain ⟨⟨hvigilant, hended⟩, _⟩ := hrun.safety (Q := fun _ => True)
    (I := fun used => used.pool.Vigilant waits ∧ ∀ use ∈ used.uses, UsedPool.Ended use) hmeets
    ⟨Pool.new_vigilant hnew, by simp⟩ (by
      rintro before action next ⟨hbefore, hall⟩ hstep ⟨hwakes, hanswers⟩
      refine ⟨⟨?_, UsedPool.ended_after hstep hall hanswers⟩, trivial⟩
      rcases UsedPool.after_performs hstep with hsame | ⟨performed, hperformed, hpool⟩
      · rw [hsame]
        exact hbefore
      · exact hbefore.after hpool (hwakes performed hperformed))
  exact ⟨hvigilant.alert.awake, fun use huse => (hended use huse).rejected⟩

/-- Two accounts, and three calls of `use`: the last one waits. -/
def threeUses : List UseAction := [
  .use none false false, .use none false false, .use none false false]

/-- A full pool is awake. -/
theorem no_lost_wakeup_full :
    ∃ pool tr used, samplePool = some pool ∧ Run UsedStep ⟨pool, []⟩ tr used ∧
      used.pool.waiters.length = 1 ∧ used.pool.Awake := by
  have hvalues : (samplePool.bind fun pool =>
      (walk UsedPool.after ⟨pool, []⟩ threeUses).map fun result =>
        decide (result.2.pool.waiters.length = 1 ∧ result.2.pool.tasks = [])) = some true := by
    decide +kernel
  obtain ⟨pool, hpool, hrest⟩ := Option.bind_eq_some_iff.mp hvalues
  obtain ⟨⟨tr, used⟩, hwalk, hdecided⟩ := Option.map_eq_some_iff.mp hrest
  obtain ⟨hwaiters, htasks⟩ := of_decide_eq_true hdecided
  dsimp only at hwaiters htasks
  have hrun : Run UsedStep ⟨pool, []⟩ tr used := walk_run hwalk
  have hmeets : ∀ x ∈ tr, Meets false x := by
    intro x hx
    have hact : x.act ∈ tr.map Transition.act := List.mem_map_of_mem hx
    rw [walk_acts hwalk] at hact
    have huse : x.act = .use none false false := by
      simpa [threeUses] using hact
    unfold Meets
    rw [huse]
    exact ⟨fun performed hperformed => by cases hperformed; trivial, trivial⟩
  refine ⟨pool, tr, used, hpool, hrun, hwaiters, (no_lost_wakeup hpool hrun hmeets).1 ?_⟩
  rintro ⟨called, hcalled, _⟩
  rw [htasks] at hcalled
  cases hcalled

/-- Both accounts are leased, one to a `use`, and a third call waits. `resize(1)` marks the account
of the `use`, whose work succeeds; the factory rejects its reclamation. -/
def rejectedReclaim : List UseAction := [
  .pool (.lease none false false), .pool (.lease none false false), .useLease 0,
  .pool (.lease none false false), .pool (.resize 1),
  .pool (.resumed (.creations 1 []) (.ok ())), .workEnded 0 true 5, .released 0 (.error none)]

theorem rejectedReclaim_values :
    (samplePool.bind fun pool =>
      (walk UsedPool.after ⟨pool, []⟩ rejectedReclaim).map fun result =>
        decide (result.2.pool.tasks = [] ∧ result.2.pool.waiters.length = 1 ∧
          result.2.pool.entries.length = 1 ∧ result.2.pool.creating = 0 ∧
          result.2.pool.maxSize = 2 ∧ result.2.pool.factory.isSome = true ∧
          result.2.uses = [⟨.rejected, some true⟩])) = some true := by
  decide +kernel

/-- **A call waits for an account although the pool has room, and a `use` is rejected although its
work was fulfilled.** -/
theorem waiter_forgotten :
    ∃ pool tr used, samplePool = some pool ∧ Run UsedStep ⟨pool, []⟩ tr used ∧
      used.pool.tasks = [] ∧ ¬ used.pool.Awake ∧ ⟨.rejected, some true⟩ ∈ used.uses := by
  obtain ⟨pool, hpool, hrest⟩ := Option.bind_eq_some_iff.mp rejectedReclaim_values
  obtain ⟨⟨tr, used⟩, hwalk, hdecided⟩ := Option.map_eq_some_iff.mp hrest
  obtain ⟨htasks, hwaiters, hentries, hcreating, hmax, hfactory, huses⟩ :=
    of_decide_eq_true hdecided
  dsimp only at htasks hwaiters hentries hcreating hmax hfactory huses
  refine ⟨pool, tr, used, hpool, walk_run hwalk, htasks, ?_, ?_⟩
  · rintro (hnobody | ⟨_, hgrown⟩)
    · rw [hnobody] at hwaiters
      cases hwaiters
    · rcases hgrown with hfull | hcreate | hnone
      · omega
      · omega
      · rw [hnone] at hfactory
        cases hfactory
  · rw [huses]
    exact List.mem_singleton_self _

end StellarAgent.Fleet
