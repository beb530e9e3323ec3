import StellarAgent.Fleet.ChannelPool

set_option autoImplicit false

/-! # Waiters and capacity

Two invariants that every action of a pool keeps. `Served`: a waiter is in the queue or has been
settled, and either exactly once; a closed pool has no queue. `Sized`: the entries and the
creations under way fit into the pool, and `creating` counts the latter.
-/

namespace StellarAgent.Fleet

open Lib

namespace Pool

variable {pool : Pool}

/-! ## Waiters -/

def isSettled (waiter : ℕ) : Event → Bool
  | .settled other _ => other = waiter
  | .handed _ _ => false

structure Served (pool : Pool) : Prop where
  once : ∀ id, (pool.waiters.map Waiter.id).count id + pool.log.countP (isSettled id)
    = if id < pool.nextWaiter then 1 else 0
  closed_none : pool.closed = true → pool.waiters = []

theorem settle_foldl (waiters : List Waiter) (settlement : Settlement) :
    waiters.foldl (fun pool waiter => pool.settle waiter settlement) pool
      = { pool with log := pool.log ++
          waiters.map fun waiter => Event.settled waiter.id settlement } := by
  induction waiters generalizing pool with
  | nil => simp
  | cons waiter waiters ih =>
      rw [List.foldl_cons, ih, List.map_cons]
      simp [settle]

namespace Served

variable (h : pool.Served)

include h

/-- A waiter that leaves the queue is settled at the same time. -/
theorem take {waiter : Waiter} {waiters : List Waiter} (settlement : Settlement)
    (hperm : pool.waiters.Perm (waiter :: waiters)) :
    ({ pool with waiters }.settle waiter settlement).Served := by
  refine ⟨?_, ?_⟩
  · intro id
    have honce := h.once id
    rw [(hperm.map Waiter.id).count_eq, List.map_cons, List.count_cons] at honce
    show (waiters.map Waiter.id).count id
      + (pool.log ++ [Event.settled waiter.id settlement]).countP (isSettled id)
        = if id < pool.nextWaiter then 1 else 0
    rw [List.countP_append, List.countP_singleton, ← honce]
    by_cases hid : waiter.id = id
    · simp [isSettled, hid]
      omega
    · simp [isSettled, hid]
  · intro hclosed
    have hnil := h.closed_none hclosed
    rw [hnil] at hperm
    cases hperm.nil_eq

theorem handOver (account : ChannelAccount) : (pool.handOver account).Served := by
  unfold Pool.handOver
  split
  · refine ⟨?_, h.closed_none⟩
    intro id
    rw [List.countP_append]
    exact h.once id
  · exact h

theorem reclaim (entry : ℕ) : (pool.reclaim entry).2.Served := by
  unfold Pool.reclaim
  split
  · refine handOver ?_ _
    exact ⟨h.once, h.closed_none⟩
  · exact h

omit h in
theorem startCreates (h : pool.Served) (n : ℕ) : (pool.startCreates n).2.Served := by
  induction n generalizing pool with
  | zero => exact h
  | succ n ih =>
      have hone : pool.startCreate.2.Served := ⟨h.once, h.closed_none⟩
      exact ih hone

omit h in
theorem grant (h : pool.Served) : (pool.grant pool.waiters).Served := by
  generalize hwaiters : pool.waiters = waiters
  induction waiters generalizing pool with
  | nil => exact h
  | cons waiter waiters ih =>
      rw [Pool.grant]
      cases pool.availableEntry with
      | none => exact h
      | some entry =>
          have htake := h.take (.resolve pool.nextLease) (List.Perm.of_eq hwaiters)
          refine ih ?_ rfl
          exact ⟨htake.once, htake.closed_none⟩

theorem grow : pool.grow.Served := by
  unfold Pool.grow
  dsimp only
  split
  · refine startCreates ?_ _
    exact ⟨h.once, h.closed_none⟩
  · exact h

theorem dispatch : pool.dispatch.Served := h.grant.grow

theorem failCreate (error : Option ChannelPoolErrorCode) : (pool.failCreate error).Served := by
  unfold Pool.failCreate
  split
  · exact h
  · rename_i waiter waiters hwaiters
    exact h.take _ (List.Perm.of_eq hwaiters)

theorem finishCreate (id : ℕ) (fulfilled : Bool) : (pool.finishCreate id fulfilled).Served := by
  unfold Pool.finishCreate
  refine dispatch ?_
  exact ⟨h.once, h.closed_none⟩

theorem lease (timeoutMs : Option ℤ) (signal aborted : Bool) :
    (pool.lease timeoutMs signal aborted).2.Served := by
  unfold Pool.lease
  by_cases hclosed : pool.closed
  · rw [if_pos hclosed]
    exact h
  · rw [if_neg hclosed]
    split
    · exact h
    · split
      · exact ⟨h.once, h.closed_none⟩
      · dsimp only
        split
        · exact h
        · refine dispatch ⟨?_, fun hclosed' => absurd hclosed' hclosed⟩
          intro id
          have honce := h.once id
          show ((pool.waiters ++ [_]).map Waiter.id).count id + pool.log.countP (isSettled id)
            = if id < pool.nextWaiter + 1 then 1 else 0
          rw [List.map_append, List.map_singleton, List.count_append, List.count_singleton]
          by_cases hid : pool.nextWaiter = id
          · rw [← hid, if_neg (lt_irrefl _)] at honce
            rw [← hid, if_pos (beq_self_eq_true _), if_pos (Nat.lt_succ_self _)]
            omega
          · have hlt : id < pool.nextWaiter + 1 ↔ id < pool.nextWaiter := by omega
            rw [if_neg (by simpa using hid)]
            simp only [hlt]
            omega

theorem release (lease : ℕ) (outcome : ChannelLeaseOutcome) (now : ℤ) :
    (pool.release lease outcome now).Served := by
  rcases release_cases pool lease outcome now with hsame | ⟨entry, committed, rolledBack, _,
    freed, hfreed, hresult⟩
  · rw [hsame]
    exact h
  · have hfree : freed.Served := by
      rw [hfreed]
      exact ⟨h.once, h.closed_none⟩
    rcases hresult with hdispatch | hreclaim
    · rw [hdispatch]
      exact hfree.dispatch
    · have hrest := hfree.reclaim entry
      rw [hreclaim]
      exact ⟨hrest.once, hrest.closed_none⟩

theorem resize (size : ℤ) : (pool.resize size).2.Served := by
  unfold Pool.resize
  split
  · exact h
  · split
    · exact h
    · split
      · exact h
      · have htarget : Served { pool with targetSize := size.toNat } := ⟨h.once, h.closed_none⟩
        have hcreates := htarget.startCreates
          (size.toNat - (pool.entries.length + pool.creating))
        exact ⟨hcreates.once, hcreates.closed_none⟩

omit h in
theorem shrink (h : pool.Served) (excess : ℤ) (rest : List ℕ) :
    (pool.shrink excess rest).Served := by
  induction rest generalizing pool excess with
  | nil => exact h
  | cons entry rest ih =>
      rw [Pool.shrink]
      split
      · exact h
      · split
        · refine ih ?_ _
          exact ⟨h.once, h.closed_none⟩
        · have hreclaim := h.reclaim entry
          exact ⟨hreclaim.once, hreclaim.closed_none⟩

theorem resizeCreated (size : ℕ) : (pool.resizeCreated size).Served := by
  unfold Pool.resizeCreated
  dsimp only
  split
  · exact h
  · exact h.shrink _ _

omit h in
theorem retireAll (h : pool.Served) (rest : List ℕ) : (pool.retireAll rest).Served := by
  induction rest generalizing pool with
  | nil => exact h
  | cons entry rest ih =>
      rw [Pool.retireAll]
      split
      · refine ih ?_
        exact ⟨h.once, h.closed_none⟩
      · exact ih (h.reclaim entry)

/-- A closing pool settles its whole queue. -/
theorem rejectAll (settlement : Settlement) :
    Served (pool.waiters.foldl (fun pool waiter => pool.settle waiter settlement)
      { pool with closed := true, targetSize := 0, waiters := [] }) := by
  rw [settle_foldl]
  refine ⟨?_, fun _ => rfl⟩
  intro id
  have hcount : (pool.waiters.map fun waiter => Event.settled waiter.id settlement).countP
      (isSettled id) = (pool.waiters.map Waiter.id).count id := by
    rw [List.count, List.countP_map, List.countP_map]
    refine List.countP_congr (fun waiter _ => ?_)
    simp [isSettled]
  have honce := h.once id
  show ([] : List ℕ).count id
    + (pool.log ++ pool.waiters.map fun waiter => Event.settled waiter.id settlement).countP
      (isSettled id) = if id < pool.nextWaiter then 1 else 0
  rw [List.countP_append, hcount, List.count_nil]
  omega

theorem close : pool.close.Served := by
  unfold Pool.close
  split
  · exact h
  · exact (h.rejectAll (.reject .POOL_CLOSED)).retireAll _

theorem rejectWaiter (code : ChannelPoolErrorCode) (waiter : Waiter) :
    (pool.rejectWaiter code waiter).Served := by
  unfold Pool.rejectWaiter
  split
  · rename_i hmem
    exact h.take _ (List.perm_cons_erase hmem)
  · exact h

theorem timeout (waiter : Waiter) : (pool.timeout waiter).Served := by
  unfold Pool.timeout
  split
  · exact h.rejectWaiter _ waiter
  · exact h

theorem abort (waiter : Waiter) : (pool.abort waiter).Served := by
  unfold Pool.abort
  split
  · exact h.rejectWaiter _ waiter
  · exact h

theorem created (id : ℕ) (answer : Except (Option ChannelPoolErrorCode) ChannelAccount)
    (now : ℤ) : (pool.created id answer now).Served := by
  cases answer with
  | error error => exact (h.failCreate error).finishCreate id false
  | ok account =>
      rw [Pool.created]
      split
      · have hhand := h.handOver account
        exact ⟨hhand.once, hhand.closed_none⟩
      · split
        · exact (h.failCreate none).finishCreate id false
        · rename_i pool' hadd
          refine finishCreate ?_ id true
          obtain ⟨_, rfl⟩ := add_some hadd
          exact ⟨h.once, h.closed_none⟩

theorem resumed {task : Task} {answer : Except (Option ChannelPoolErrorCode) Unit} {pool' : Pool}
    (hresumed : pool.resumed task answer = some pool') : pool'.Served := by
  rcases resumed_cases hresumed with ⟨id, _, rfl | ⟨error, rfl⟩⟩ |
    ⟨_, rfl | rfl | ⟨size, rfl⟩ | ⟨rest, excess, _, _, _, rfl⟩⟩
  · exact h.finishCreate id true
  · exact (h.failCreate error).finishCreate id false
  · exact h
  · exact h.dispatch
  · exact h.resizeCreated size
  · exact h.shrink excess rest

/-- **Every action keeps the queue.** -/
theorem after {action : PoolAction} {pool' : Pool} (hstep : PoolStep pool action pool') :
    pool'.Served := by
  cases action with
  | lease timeoutMs signal aborted =>
      obtain rfl := Option.some.inj hstep
      exact h.lease timeoutMs signal aborted
  | release lease outcome now =>
      obtain rfl := Option.some.inj hstep
      exact h.release lease outcome now
  | workEnded lease succeeded now =>
      obtain rfl := Option.some.inj hstep
      exact h.release lease _ now
  | resize size =>
      obtain rfl := Option.some.inj hstep
      exact h.resize size
  | close =>
      obtain rfl := Option.some.inj hstep
      exact h.close
  | timeout waiter =>
      obtain rfl := Option.some.inj hstep
      exact h.timeout waiter
  | abort waiter =>
      obtain rfl := Option.some.inj hstep
      exact h.abort waiter
  | created id answer now =>
      obtain ⟨_, hsome⟩ := Option.ite_none_right_eq_some.mp hstep
      obtain rfl := Option.some.inj hsome
      refine created ?_ id answer now
      exact ⟨h.once, h.closed_none⟩
  | resumed task answer =>
      obtain ⟨_, hsome⟩ := Option.ite_none_right_eq_some.mp hstep
      refine resumed ?_ hsome
      exact ⟨h.once, h.closed_none⟩

end Served

/-! ## Capacity -/

/-- The creations that are under way. -/
def inFlight (pool : Pool) : ℕ := pool.tasks.countP Task.isCreation

/-- `busy` creations are just being finished, and there is room for `spare` more entries. -/
structure Sized (busy spare : ℕ) (pool : Pool) : Prop where
  counted : pool.creating = pool.inFlight + busy
  bounded : pool.entries.length + pool.inFlight + spare ≤ pool.maxSize

namespace Sized

variable {busy spare : ℕ} (h : pool.Sized busy spare)

include h

theorem handOver (account : ChannelAccount) : (pool.handOver account).Sized busy spare := by
  unfold Pool.handOver
  split
  · exact ⟨h.counted, h.bounded⟩
  · exact h

theorem reclaim (entry : ℕ) : (pool.reclaim entry).2.Sized busy spare := by
  unfold Pool.reclaim
  split
  · have hlength := List.length_filter_le
      (fun other => decide (pool.address other ≠ pool.address entry)) pool.entries
    have hbounded := h.bounded
    have hrest : Sized busy spare { pool with
        entries := pool.entries.filter (fun other => pool.address other ≠ pool.address entry) } := by
      refine ⟨h.counted, ?_⟩
      show (pool.entries.filter _).length + pool.inFlight + spare ≤ pool.maxSize
      omega
    exact hrest.handOver _
  · exact h

/-- A task that is no creation is started. -/
theorem start {task : Task} (htask : task.isCreation = false) :
    Sized busy spare { pool with tasks := pool.tasks ++ [task] } := by
  have hcount : (pool.tasks ++ [task]).countP Task.isCreation = pool.inFlight := by
    rw [List.countP_append, List.countP_singleton, htask]
    simp [inFlight]
  refine ⟨?_, ?_⟩
  · show pool.creating = (pool.tasks ++ [task]).countP Task.isCreation + busy
    rw [hcount]
    exact h.counted
  · show pool.entries.length + (pool.tasks ++ [task]).countP Task.isCreation + spare ≤ _
    rw [hcount]
    exact h.bounded

omit h in
theorem startCreates {n : ℕ} (h : pool.Sized busy (spare + n)) :
    (pool.startCreates n).2.Sized busy spare := by
  induction n generalizing pool with
  | zero => exact h
  | succ n ih =>
      have hcount : (pool.tasks ++ [Task.create pool.nextCreation]).countP Task.isCreation
          = pool.inFlight + 1 := by
        rw [List.countP_append, List.countP_singleton]
        rfl
      have hcounted := h.counted
      have hbounded := h.bounded
      have hone : pool.startCreate.2.Sized busy (spare + n) := by
        refine ⟨?_, ?_⟩
        · show pool.creating + 1 = (pool.tasks ++ [Task.create pool.nextCreation]).countP _ + busy
          rw [hcount]
          omega
        · show pool.entries.length + (pool.tasks ++ [Task.create pool.nextCreation]).countP _
            + (spare + n) ≤ pool.maxSize
          rw [hcount]
          omega
      exact ih hone

omit h in
theorem grant (h : pool.Sized busy spare) (waiters : List Waiter) :
    (pool.grant waiters).Sized busy spare := by
  induction waiters generalizing pool with
  | nil => exact h
  | cons waiter waiters ih =>
      rw [Pool.grant]
      cases pool.availableEntry with
      | none => exact h
      | some entry =>
          refine ih ?_
          exact ⟨h.counted, h.bounded⟩

omit h in
/-- Growth fits into the room that is left. -/
theorem grow (h : pool.Sized 0 0) : pool.grow.Sized 0 0 := by
  unfold Pool.grow
  dsimp only
  split
  · have hcounted := h.counted
    have hbounded := h.bounded
    refine startCreates ⟨h.counted, ?_⟩
    show pool.entries.length + pool.inFlight + (0 + _) ≤ pool.maxSize
    omega
  · exact h

omit h in
theorem dispatch (h : pool.Sized 0 0) : pool.dispatch.Sized 0 0 := (h.grant pool.waiters).grow

theorem failCreate (error : Option ChannelPoolErrorCode) :
    (pool.failCreate error).Sized busy spare := by
  unfold Pool.failCreate
  split
  · exact h
  · exact ⟨h.counted, h.bounded⟩

omit h in
theorem finishCreate (h : pool.Sized 1 0) (id : ℕ) (fulfilled : Bool) :
    (pool.finishCreate id fulfilled).Sized 0 0 := by
  refine dispatch ⟨?_, h.bounded⟩
  have hcounted := h.counted
  show pool.creating - 1 = pool.inFlight + 0
  omega

omit h in
theorem lease (h : pool.Sized 0 0) (timeoutMs : Option ℤ) (signal aborted : Bool) :
    (pool.lease timeoutMs signal aborted).2.Sized 0 0 := by
  unfold Pool.lease
  split
  · exact h
  · split
    · exact h
    · split
      · exact ⟨h.counted, h.bounded⟩
      · dsimp only
        split
        · exact h
        · exact dispatch ⟨h.counted, h.bounded⟩

omit h in
theorem release (h : pool.Sized 0 0) (lease : ℕ) (outcome : ChannelLeaseOutcome) (now : ℤ) :
    (pool.release lease outcome now).Sized 0 0 := by
  rcases release_cases pool lease outcome now with hsame | ⟨entry, committed, rolledBack, _,
    freed, hfreed, hresult⟩
  · rw [hsame]
    exact h
  · have hfree : freed.Sized 0 0 := by
      rw [hfreed]
      exact ⟨h.counted, h.bounded⟩
    rcases hresult with hdispatch | hreclaim
    · rw [hdispatch]
      exact hfree.dispatch
    · rw [hreclaim]
      exact (hfree.reclaim entry).start rfl

omit h in
theorem resize (h : pool.Sized 0 0) (size : ℤ) : (pool.resize size).2.Sized 0 0 := by
  unfold Pool.resize
  split
  · exact h
  · rename_i hrange
    split
    · exact h
    · split
      · exact h
      · have hcounted := h.counted
        have hbounded := h.bounded
        have hroom : Sized 0 (0 + (size.toNat - (pool.entries.length + pool.creating)))
            { pool with targetSize := size.toNat } := by
          refine ⟨h.counted, ?_⟩
          show pool.entries.length + pool.inFlight + (0 + _) ≤ pool.maxSize
          omega
        exact hroom.startCreates.start rfl

omit h in
theorem shrink (h : pool.Sized busy spare) (excess : ℤ) (rest : List ℕ) :
    (pool.shrink excess rest).Sized busy spare := by
  induction rest generalizing pool excess with
  | nil => exact h
  | cons entry rest ih =>
      rw [Pool.shrink]
      split
      · exact h
      · split
        · refine ih ?_ _
          exact ⟨h.counted, h.bounded⟩
        · exact (h.reclaim entry).start rfl

theorem resizeCreated (size : ℕ) : (pool.resizeCreated size).Sized busy spare := by
  unfold Pool.resizeCreated
  dsimp only
  split
  · exact h
  · exact h.shrink _ _

omit h in
theorem retireAll (h : pool.Sized busy spare) (rest : List ℕ) :
    (pool.retireAll rest).Sized busy spare := by
  induction rest generalizing pool with
  | nil => exact h
  | cons entry rest ih =>
      rw [Pool.retireAll]
      split
      · refine ih ?_
        exact ⟨h.counted, h.bounded⟩
      · exact ih (h.reclaim entry)

theorem close : pool.close.Sized busy spare := by
  unfold Pool.close
  split
  · exact h
  · dsimp only
    rw [settle_foldl]
    refine retireAll ?_ _
    exact ⟨h.counted, h.bounded⟩

theorem rejectWaiter (code : ChannelPoolErrorCode) (waiter : Waiter) :
    (pool.rejectWaiter code waiter).Sized busy spare := by
  unfold Pool.rejectWaiter
  split
  · exact ⟨h.counted, h.bounded⟩
  · exact h

theorem timeout (waiter : Waiter) : (pool.timeout waiter).Sized busy spare := by
  unfold Pool.timeout
  split
  · exact h.rejectWaiter _ waiter
  · exact h

theorem abort (waiter : Waiter) : (pool.abort waiter).Sized busy spare := by
  unfold Pool.abort
  split
  · exact h.rejectWaiter _ waiter
  · exact h

omit h in
/-- A suspended function goes on: its task is gone, and a creation is being finished. -/
theorem resume (h : pool.Sized 0 0) {task : Task} (htask : task ∈ pool.tasks) :
    (task.isCreation = true → Sized 1 1 { pool with tasks := pool.tasks.erase task }) ∧
      (task.isCreation = false → Sized 0 0 { pool with tasks := pool.tasks.erase task }) := by
  have hcount := (List.perm_cons_erase htask).countP_eq Task.isCreation
  rw [List.countP_cons] at hcount
  have hcounted := h.counted
  have hbounded := h.bounded
  unfold inFlight at hcounted hbounded
  refine ⟨fun hcreation => ⟨?_, ?_⟩, fun hother => ⟨?_, ?_⟩⟩
  · show pool.creating = (pool.tasks.erase task).countP Task.isCreation + 1
    rw [hcreation, if_pos rfl] at hcount
    omega
  · show pool.entries.length + (pool.tasks.erase task).countP Task.isCreation + 1
      ≤ pool.maxSize
    rw [hcreation, if_pos rfl] at hcount
    omega
  · show pool.creating = (pool.tasks.erase task).countP Task.isCreation + 0
    rw [hother, if_neg (by simp)] at hcount
    omega
  · show pool.entries.length + (pool.tasks.erase task).countP Task.isCreation + 0
      ≤ pool.maxSize
    rw [hother, if_neg (by simp)] at hcount
    omega

omit h in
theorem spareless (h : pool.Sized 1 1) : pool.Sized 1 0 :=
  ⟨h.counted, by have hbounded := h.bounded; omega⟩

omit h in
/-- The place of the creation is taken by the entry, or kept by the surplus account. -/
theorem created (h : pool.Sized 1 1) (id : ℕ)
    (answer : Except (Option ChannelPoolErrorCode) ChannelAccount) (now : ℤ) :
    (pool.created id answer now).Sized 0 0 := by
  cases answer with
  | error error => exact (h.spareless.failCreate error).finishCreate id false
  | ok account =>
      rw [Pool.created]
      split
      · have hhand := h.handOver account
        have hcounted := hhand.counted
        have hbounded := hhand.bounded
        have hcount : ((pool.handOver account).tasks ++ [Task.surplus id]).countP Task.isCreation
            = (pool.handOver account).inFlight + 1 := by
          rw [List.countP_append, List.countP_singleton]
          rfl
        refine ⟨?_, ?_⟩
        · show (pool.handOver account).creating
            = ((pool.handOver account).tasks ++ [Task.surplus id]).countP Task.isCreation + 0
          omega
        · show (pool.handOver account).entries.length
            + ((pool.handOver account).tasks ++ [Task.surplus id]).countP Task.isCreation + 0
              ≤ (pool.handOver account).maxSize
          omega
      · split
        · exact (h.spareless.failCreate none).finishCreate id false
        · rename_i pool' hadd
          refine finishCreate ?_ id true
          obtain ⟨_, rfl⟩ := add_some hadd
          have hbounded := h.bounded
          refine ⟨h.counted, ?_⟩
          show (pool.entries ++ [pool.nextEntry]).length + pool.inFlight + 0 ≤ pool.maxSize
          rw [List.length_append, List.length_singleton]
          omega

omit h in
/-- **Every action keeps the capacity.** -/
theorem after (h : pool.Sized 0 0) {action : PoolAction} {pool' : Pool}
    (hstep : PoolStep pool action pool') : pool'.Sized 0 0 := by
  cases action with
  | lease timeoutMs signal aborted =>
      obtain rfl := Option.some.inj hstep
      exact h.lease timeoutMs signal aborted
  | release lease outcome now =>
      obtain rfl := Option.some.inj hstep
      exact h.release lease outcome now
  | workEnded lease succeeded now =>
      obtain rfl := Option.some.inj hstep
      exact h.release lease _ now
  | resize size =>
      obtain rfl := Option.some.inj hstep
      exact h.resize size
  | close =>
      obtain rfl := Option.some.inj hstep
      exact h.close
  | timeout waiter =>
      obtain rfl := Option.some.inj hstep
      exact h.timeout waiter
  | abort waiter =>
      obtain rfl := Option.some.inj hstep
      exact h.abort waiter
  | created id answer now =>
      obtain ⟨htask, hsome⟩ := Option.ite_none_right_eq_some.mp hstep
      obtain rfl := Option.some.inj hsome
      exact ((h.resume htask).1 rfl).created id answer now
  | resumed task answer =>
      obtain ⟨htask, hsome⟩ := Option.ite_none_right_eq_some.mp hstep
      rcases resumed_cases hsome with ⟨id, rfl, hfinish⟩ | ⟨hother, hresult⟩
      · have hbusy := ((h.resume htask).1 rfl).spareless
        rcases hfinish with rfl | ⟨error, rfl⟩
        · exact hbusy.finishCreate id true
        · exact (hbusy.failCreate error).finishCreate id false
      · have hidle := (h.resume htask).2 hother
        rcases hresult with rfl | rfl | ⟨size, rfl⟩ | ⟨rest, excess, _, _, _, rfl⟩
        · exact hidle
        · exact hidle.dispatch
        · exact hidle.resizeCreated size
        · exact hidle.shrink excess rest

end Sized

end Pool

end StellarAgent.Fleet
