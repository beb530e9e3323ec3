import StellarAgent.Lib.Runs

set_option autoImplicit false

/-! # The channel-account pool

`packages/core/src/fleet/channelPool.ts`. A pool is what a `ChannelAccountPool` keeps between two
stretches of code without an `await`: its private fields, the entry objects that anything still
refers to, and the functions that are suspended, as *tasks*. Each action runs one stretch: a call
of a public method, a timer or an abort signal that fires, an answer of the factory, or a
suspended function that goes on.

Entries are objects with an identity: the map, the leases and a suspended `resize` refer to them by
number. The map is the list of its entries in the order of insertion, and the key of an entry is
the address of its account. What the pool tells the outside is its log.

Left out are `stats`, the texts of errors, and the metadata of accounts.
-/

namespace StellarAgent.Fleet

/-! ## Data -/

/-- A channel account. A missing signer is `none`. -/
structure ChannelAccount where
  address : String
  signer : Option String
  deriving DecidableEq

/-- A factory that is there; `reclaim` is optional. -/
structure ChannelAccountFactory where
  reclaims : Bool
  deriving DecidableEq

inductive ChannelLeaseOutcome where
  | committed
  | rolled_back
  deriving DecidableEq

inductive ChannelPoolErrorCode where
  | POOL_CLOSED
  | LEASE_TIMEOUT
  | LEASE_ABORTED
  | FACTORY_FAILED
  deriving DecidableEq

/-- What a method throws: a `ChannelPoolError` or a `RangeError`. -/
inductive Thrown where
  | pool (code : ChannelPoolErrorCode)
  | range
  deriving DecidableEq

structure Entry where
  account : ChannelAccount
  leased : Bool
  retire : Bool
  lastUsedAt : ℤ

/-- A lease call that waits, and whether it has a timer and listens to a signal. -/
structure Waiter where
  id : ℕ
  timer : Bool
  signal : Bool
  deriving DecidableEq

/-- How the promise of a waiter is settled. -/
inductive Settlement where
  | resolve (lease : ℕ)
  | reject (code : ChannelPoolErrorCode)
  deriving DecidableEq

inductive Event where
  | settled (waiter : ℕ) (settlement : Settlement)
  /-- `factory.reclaim` is called with the account, while these accounts are held by leases -/
  | handed (account : ChannelAccount) (held : List ChannelAccount)
  deriving DecidableEq

/-- A suspended function, with what it needs to go on. `called` says whether the `#reclaim` that it
waits for has called the factory. -/
inductive Task where
  /-- `#startCreate` at `factory.create()` -/
  | create (id : ℕ)
  /-- `#startCreate` at `factory.reclaim(account)` -/
  | surplus (id : ℕ)
  /-- `release` at `#reclaim(entry)` -/
  | release (called : Bool)
  /-- `resize` at `Promise.all(creations)` -/
  | creations (size : ℕ) (ids : List ℕ)
  /-- `resize` at `#reclaim(entry)`, with the entries after it -/
  | resize (rest : List ℕ) (excess : ℤ) (called : Bool)
  deriving DecidableEq

/-- The tasks that `creating` counts. -/
def Task.isCreation : Task → Bool
  | .create _ => true
  | .surplus _ => true
  | _ => false

structure Pool where
  factory : Option ChannelAccountFactory
  maxSize : ℕ
  leaseTimeoutMs : ℤ
  heap : ℕ → Entry
  nextEntry : ℕ
  entries : List ℕ
  waiters : List Waiter
  nextWaiter : ℕ
  /-- the leases whose `released` is still false, with their entries -/
  held : List (ℕ × ℕ)
  nextLease : ℕ
  targetSize : ℕ
  creating : ℕ
  closed : Bool
  committed : ℕ
  rolledBack : ℕ
  tasks : List Task
  nextCreation : ℕ
  /-- the promises of `#startCreate` that are settled, and whether they are fulfilled -/
  creations : List (ℕ × Bool)
  log : List Event

namespace Pool

/-! ## Entries -/

def address (pool : Pool) (entry : ℕ) : String := (pool.heap entry).account.address

def setEntry (pool : Pool) (entry : ℕ) (value : Entry) : Pool :=
  { pool with heap := Function.update pool.heap entry value }

/-- `#add`; nothing if it throws. -/
def add (pool : Pool) (account : ChannelAccount) (now : ℤ) : Option Pool :=
  if account.address = "" ∨ account.signer = none then none
  else if ∃ entry ∈ pool.entries, pool.address entry = account.address then none
  else
    let entry : Entry := { account, leased := false, retire := false, lastUsedAt := now }
    some { pool.setEntry pool.nextEntry entry with
      nextEntry := pool.nextEntry + 1
      entries := pool.entries ++ [pool.nextEntry] }

/-- The stable sort by `lastUsedAt`. -/
def byLastUse (pool : Pool) (entries : List ℕ) : List ℕ :=
  entries.insertionSort fun a b => (pool.heap a).lastUsedAt ≤ (pool.heap b).lastUsedAt

/-- `#availableEntry` -/
def availableEntry (pool : Pool) : Option ℕ :=
  (pool.byLastUse (pool.entries.filter fun entry =>
    !(pool.heap entry).leased && !(pool.heap entry).retire)).head?

/-- The accounts of the unreleased leases. -/
def heldAccounts (pool : Pool) : List ChannelAccount :=
  pool.held.map fun lease => (pool.heap lease.2).account

/-- Whether the factory has a `reclaim`. -/
def canReclaim (pool : Pool) : Bool :=
  match pool.factory with
  | none => false
  | some factory => factory.reclaims

/-- `this.#factory?.reclaim?.(account)`, up to its promise. -/
def handOver (pool : Pool) (account : ChannelAccount) : Pool :=
  if pool.canReclaim then { pool with log := pool.log ++ [.handed account pool.heldAccounts] }
  else pool

/-- `#reclaim` up to its `await`, and whether the factory has been called. The map is asked for
the address of the entry, not for the entry. -/
def reclaim (pool : Pool) (entry : ℕ) : Bool × Pool :=
  if ∃ other ∈ pool.entries, pool.address other = pool.address entry then
    let entries := pool.entries.filter fun other => pool.address other ≠ pool.address entry
    (pool.canReclaim, { pool with entries }.handOver (pool.heap entry).account)
  else (false, pool)

/-! ## Waiters and leases -/

/-- A waiter is told; it has been taken off the queue before. -/
def settle (pool : Pool) (waiter : Waiter) (settlement : Settlement) : Pool :=
  { pool with log := pool.log ++ [.settled waiter.id settlement] }

/-- `#makeLease` -/
def makeLease (pool : Pool) (entry : ℕ) : ℕ × Pool :=
  (pool.nextLease,
    { pool.setEntry entry { pool.heap entry with leased := true } with
      held := pool.held ++ [(pool.nextLease, entry)]
      nextLease := pool.nextLease + 1 })

/-- `#startCreate` up to `factory.create()`. Both callers have seen that there is a factory. -/
def startCreate (pool : Pool) : ℕ × Pool :=
  (pool.nextCreation,
    { pool with
      creating := pool.creating + 1
      nextCreation := pool.nextCreation + 1
      tasks := pool.tasks ++ [.create pool.nextCreation] })

def startCreates (pool : Pool) : ℕ → List ℕ × Pool
  | 0 => ([], pool)
  | n + 1 =>
      let (id, pool) := pool.startCreate
      let (ids, pool) := pool.startCreates n
      (id :: ids, pool)

/-- The loop of `#dispatch` over the waiters. -/
def grant (pool : Pool) : List Waiter → Pool
  | [] => pool
  | waiter :: waiters =>
      match pool.availableEntry with
      | none => pool
      | some entry =>
          let (lease, pool) := { pool with waiters }.makeLease entry
          (pool.settle waiter (.resolve lease)).grant waiters

/-- The growth of `#dispatch`. -/
def grow (pool : Pool) : Pool :=
  let demand := pool.waiters.length
  let room := pool.maxSize - pool.entries.length - pool.creating
  if demand > pool.creating ∧ room > 0 ∧ pool.factory.isSome then
    let growth := min (demand - pool.creating) room
    let targetSize := max pool.targetSize (pool.entries.length + pool.creating + growth)
    ({ pool with targetSize }.startCreates growth).2
  else pool

/-- `#dispatch` -/
def dispatch (pool : Pool) : Pool := (pool.grant pool.waiters).grow

/-! ## Public methods -/

/-- What a call of `lease` answers at once. -/
inductive LeaseAnswer where
  | lease (id : ℕ)
  | pending (waiter : ℕ)
  | thrown (error : Thrown)

/-- `lease`, up to its return -/
def lease (pool : Pool) (timeoutMs : Option ℤ) (signal aborted : Bool) : LeaseAnswer × Pool :=
  if pool.closed then (.thrown (.pool .POOL_CLOSED), pool)
  else if signal ∧ aborted then (.thrown (.pool .LEASE_ABORTED), pool)
  else
    match pool.availableEntry with
    | some entry =>
        let (id, pool) := pool.makeLease entry
        (.lease id, pool)
    | none =>
        if pool.entries = [] ∧ pool.creating = 0 ∧ pool.factory = none then
          (.thrown (.pool .FACTORY_FAILED), pool)
        else
          let waiter : Waiter := {
            id := pool.nextWaiter
            timer := timeoutMs.getD pool.leaseTimeoutMs > 0
            signal }
          let pool := { pool with
            waiters := pool.waiters ++ [waiter]
            nextWaiter := pool.nextWaiter + 1 }
          (.pending waiter.id, pool.dispatch)

/-- `release` of a lease, up to its `await` -/
def release (pool : Pool) (lease : ℕ) (outcome : ChannelLeaseOutcome) (now : ℤ) : Pool :=
  match pool.held.lookup lease with
  -- released before
  | none => pool
  | some entry =>
      let pool := { pool with held := pool.held.filter fun other => other.1 ≠ lease }
      let pool :=
        match outcome with
        | .committed => { pool with committed := pool.committed + 1 }
        | .rolled_back => { pool with rolledBack := pool.rolledBack + 1 }
      let pool := pool.setEntry entry { pool.heap entry with leased := false, lastUsedAt := now }
      if (pool.heap entry).retire ∨ pool.closed ∨ pool.entries.length > pool.targetSize then
        let (called, pool) := pool.reclaim entry
        { pool with tasks := pool.tasks ++ [.release called] }
      else pool.dispatch

/-- `use` of a lease, when its work has ended -/
def workEnded (pool : Pool) (lease : ℕ) (succeeded : Bool) (now : ℤ) : Pool :=
  pool.release lease (if succeeded then .committed else .rolled_back) now

/-- `resize`, up to `Promise.all` -/
def resize (pool : Pool) (size : ℤ) : Except Thrown Unit × Pool :=
  if pool.closed then (.error (.pool .POOL_CLOSED), pool)
  else if size < 0 ∨ size > pool.maxSize then (.error .range, pool)
  else if size > pool.entries.length + pool.creating ∧ pool.factory = none then
    (.error (.pool .FACTORY_FAILED), pool)
  else
    let size := size.toNat
    let (ids, pool) :=
      { pool with targetSize := size }.startCreates (size - (pool.entries.length + pool.creating))
    (.ok (), { pool with tasks := pool.tasks ++ [.creations size ids] })

/-- The loop of `resize` over the surplus entries, up to the next `await`. -/
def shrink (pool : Pool) (excess : ℤ) : List ℕ → Pool
  | [] => pool
  | entry :: rest =>
      if excess ≤ 0 then pool
      else if (pool.heap entry).leased then
        (pool.setEntry entry { pool.heap entry with retire := true }).shrink (excess - 1) rest
      else
        let (called, pool) := pool.reclaim entry
        { pool with tasks := pool.tasks ++ [.resize rest (excess - 1) called] }

/-- `resize` after its creations -/
def resizeCreated (pool : Pool) (size : ℕ) : Pool :=
  let excess : ℤ := pool.entries.length - size
  if excess ≤ 0 then pool else pool.shrink excess (pool.byLastUse pool.entries)

/-- The loop of `close` over the entries. -/
def retireAll (pool : Pool) : List ℕ → Pool
  | [] => pool
  | entry :: rest =>
      if (pool.heap entry).leased then
        (pool.setEntry entry { pool.heap entry with retire := true }).retireAll rest
      else (pool.reclaim entry).2.retireAll rest

/-- `close`, up to its `await` -/
def close (pool : Pool) : Pool :=
  if pool.closed then pool
  else
    let waiters := pool.waiters
    let pool := { pool with closed := true, targetSize := 0, waiters := [] }
    let pool := waiters.foldl (fun pool waiter => pool.settle waiter (.reject .POOL_CLOSED)) pool
    pool.retireAll pool.entries

/-! ## Callbacks -/

/-- `#removeWaiter`, and the rejection after it -/
def rejectWaiter (pool : Pool) (code : ChannelPoolErrorCode) (waiter : Waiter) : Pool :=
  if waiter ∈ pool.waiters then
    { pool with waiters := pool.waiters.erase waiter }.settle waiter (.reject code)
  else pool

/-- A timer fires. -/
def timeout (pool : Pool) (waiter : Waiter) : Pool :=
  if waiter.timer then pool.rejectWaiter .LEASE_TIMEOUT waiter else pool

/-- A signal is aborted. -/
def abort (pool : Pool) (waiter : Waiter) : Pool :=
  if waiter.signal then pool.rejectWaiter .LEASE_ABORTED waiter else pool

/-- The `catch` of `#startCreate`: a `ChannelPoolError` keeps its code. -/
def failCreate (pool : Pool) (error : Option ChannelPoolErrorCode) : Pool :=
  match pool.waiters with
  | [] => pool
  | waiter :: waiters =>
      { pool with waiters }.settle waiter (.reject (error.getD .FACTORY_FAILED))

/-- The `finally` of `#startCreate`, and its promise -/
def finishCreate (pool : Pool) (id : ℕ) (fulfilled : Bool) : Pool :=
  { pool with
    creating := pool.creating - 1
    creations := pool.creations ++ [(id, fulfilled)] }.dispatch

/-- `#startCreate` after `factory.create()` -/
def created (pool : Pool) (id : ℕ)
    (answer : Except (Option ChannelPoolErrorCode) ChannelAccount) (now : ℤ) : Pool :=
  match answer with
  | .error error => (pool.failCreate error).finishCreate id false
  | .ok account =>
      if pool.closed ∨ pool.entries.length ≥ pool.targetSize then
        let pool := pool.handOver account
        { pool with tasks := pool.tasks ++ [.surplus id] }
      else
        match pool.add account now with
        | none => (pool.failCreate none).finishCreate id false
        | some pool => pool.finishCreate id true

/-- A suspended function goes on after its promise is fulfilled or rejected; nothing if the promise
cannot be settled so yet. -/
def resumed (pool : Pool) (task : Task) (answer : Except (Option ChannelPoolErrorCode) Unit) :
    Option Pool :=
  match task, answer with
  | .create _, _ => none
  | .surplus id, .ok () => some (pool.finishCreate id true)
  | .surplus id, .error error =>
      if pool.canReclaim then some ((pool.failCreate error).finishCreate id false) else none
  | .release _, .ok () => some pool.dispatch
  | .release called, .error _ => if called then some pool else none
  | .creations size ids, .ok () =>
      if ∀ id ∈ ids, (id, true) ∈ pool.creations then some (pool.resizeCreated size) else none
  | .creations _ ids, .error _ =>
      if ∃ id ∈ ids, (id, false) ∈ pool.creations then some pool else none
  | .resize rest excess _, .ok () => some (pool.shrink excess rest)
  | .resize _ _ called, .error _ => if called then some pool else none

/-! ## What the helpers do -/

section

variable {pool : Pool}

theorem setEntry_heap_of_ne {entry other : ℕ} {value : Entry} (h : other ≠ entry) :
    (pool.setEntry entry value).heap other = pool.heap other := Function.update_of_ne h _ _

@[simp] theorem setEntry_heap_self {entry : ℕ} {value : Entry} :
    (pool.setEntry entry value).heap entry = value := Function.update_self _ _ _

theorem setEntry_address {entry : ℕ} {value : Entry}
    (h : value.account = (pool.heap entry).account) :
    (pool.setEntry entry value).address = pool.address := by
  funext other
  show ((pool.setEntry entry value).heap other).account.address = _
  by_cases hother : other = entry
  · rw [hother, setEntry_heap_self, h]
    rfl
  · rw [setEntry_heap_of_ne hother]
    rfl

theorem availableEntry_spec {entry : ℕ} (h : pool.availableEntry = some entry) :
    entry ∈ pool.entries ∧ (pool.heap entry).leased = false := by
  unfold availableEntry byLastUse at h
  have hmem := List.mem_of_head? h
  rw [List.mem_insertionSort, List.mem_filter, Bool.and_eq_true] at hmem
  obtain ⟨hentry, hleased, _⟩ := hmem
  exact ⟨hentry, by simpa using hleased⟩

theorem handOver_entries (account : ChannelAccount) :
    (pool.handOver account).entries = pool.entries := by
  unfold handOver
  split <;> rfl

theorem handOver_heap (account : ChannelAccount) : (pool.handOver account).heap = pool.heap := by
  unfold handOver
  split <;> rfl

theorem reclaim_entries_sublist (entry : ℕ) :
    (pool.reclaim entry).2.entries.Sublist pool.entries := by
  unfold reclaim
  split
  · rw [handOver_entries]
    exact List.filter_sublist
  · exact List.Sublist.refl _

theorem reclaim_tasks (entry : ℕ) : (pool.reclaim entry).2.tasks = pool.tasks := by
  unfold reclaim handOver
  split
  · dsimp only
    split <;> rfl
  · rfl

theorem reclaim_address (entry : ℕ) : (pool.reclaim entry).2.address = pool.address := by
  unfold reclaim
  split
  · funext other
    unfold address
    rw [handOver_heap]
  · rfl

theorem add_some {account : ChannelAccount} {now : ℤ} {pool' : Pool}
    (h : pool.add account now = some pool') :
    (¬ ∃ entry ∈ pool.entries, pool.address entry = account.address) ∧
      pool' = { pool.setEntry pool.nextEntry
          { account, leased := false, retire := false, lastUsedAt := now } with
        nextEntry := pool.nextEntry + 1
        entries := pool.entries ++ [pool.nextEntry] } := by
  unfold add at h
  by_cases hbad : account.address = "" ∨ account.signer = none
  · rw [if_pos hbad] at h
    cases h
  · rw [if_neg hbad] at h
    by_cases hdup : ∃ entry ∈ pool.entries, pool.address entry = account.address
    · rw [if_pos hdup] at h
      cases h
    · rw [if_neg hdup] at h
      exact ⟨hdup, (Option.some.inj h).symm⟩

theorem add_none_iff {account : ChannelAccount} {now : ℤ} :
    pool.add account now = none ↔ (account.address = "" ∨ account.signer = none) ∨
      ∃ entry ∈ pool.entries, pool.address entry = account.address := by
  unfold add
  split_ifs with hbad hdup
  · exact iff_of_true rfl (Or.inl hbad)
  · exact iff_of_true rfl (Or.inr hdup)
  · exact iff_of_false (by simp) (not_or.mpr ⟨hbad, hdup⟩)

/-- What `release` can do: nothing, or the entry is freed and then reclaimed or offered. -/
theorem release_cases (pool : Pool) (lease : ℕ) (outcome : ChannelLeaseOutcome) (now : ℤ) :
    pool.release lease outcome now = pool ∨
    ∃ entry committed rolledBack, pool.held.lookup lease = some entry ∧
      ∃ freed, freed = { pool with
          held := pool.held.filter fun other => other.1 ≠ lease
          committed, rolledBack }.setEntry entry
            { pool.heap entry with leased := false, lastUsedAt := now } ∧
        (pool.release lease outcome now = freed.dispatch ∨
          pool.release lease outcome now = { (freed.reclaim entry).2 with
            tasks := (freed.reclaim entry).2.tasks ++ [.release (freed.reclaim entry).1] }) := by
  unfold release
  cases hlookup : pool.held.lookup lease with
  | none => exact Or.inl rfl
  | some entry =>
      right
      cases outcome with
      | committed =>
          refine ⟨entry, pool.committed + 1, pool.rolledBack, rfl, _, rfl, ?_⟩
          dsimp only
          split
          · exact Or.inr rfl
          · exact Or.inl rfl
      | rolled_back =>
          refine ⟨entry, pool.committed, pool.rolledBack + 1, rfl, _, rfl, ?_⟩
          dsimp only
          split
          · exact Or.inr rfl
          · exact Or.inl rfl

/-- What a suspended function can do when it goes on. -/
theorem resumed_cases {task : Task} {answer : Except (Option ChannelPoolErrorCode) Unit}
    {pool' : Pool} (h : pool.resumed task answer = some pool') :
    (∃ id, task = .surplus id ∧ (pool' = pool.finishCreate id true ∨
      ∃ error, pool' = (pool.failCreate error).finishCreate id false)) ∨
    (task.isCreation = false ∧ (pool' = pool ∨ pool' = pool.dispatch ∨
      (∃ size, pool' = pool.resizeCreated size) ∨
      ∃ rest excess called, task = .resize rest excess called ∧ answer = .ok () ∧
        pool' = pool.shrink excess rest)) := by
  cases task with
  | create id => cases h
  | surplus id =>
      left
      cases answer with
      | ok _ => exact ⟨id, rfl, Or.inl (Option.some.inj h).symm⟩
      | error error =>
          have hsome := Option.ite_none_right_eq_some.mp h
          exact ⟨id, rfl, Or.inr ⟨error, (Option.some.inj hsome.2).symm⟩⟩
  | release called =>
      right
      cases answer with
      | ok _ => exact ⟨rfl, Or.inr (Or.inl (Option.some.inj h).symm)⟩
      | error error =>
          have hsome := Option.ite_none_right_eq_some.mp h
          exact ⟨rfl, Or.inl (Option.some.inj hsome.2).symm⟩
  | creations size ids =>
      right
      cases answer with
      | ok _ =>
          have hsome := Option.ite_none_right_eq_some.mp h
          exact ⟨rfl, Or.inr (Or.inr (Or.inl ⟨size, (Option.some.inj hsome.2).symm⟩))⟩
      | error error =>
          have hsome := Option.ite_none_right_eq_some.mp h
          exact ⟨rfl, Or.inl (Option.some.inj hsome.2).symm⟩
  | resize rest excess called =>
      right
      cases answer with
      | ok _ =>
          exact ⟨rfl, Or.inr (Or.inr (Or.inr
            ⟨rest, excess, called, rfl, rfl, (Option.some.inj h).symm⟩))⟩
      | error error =>
          have hsome := Option.ite_none_right_eq_some.mp h
          exact ⟨rfl, Or.inl (Option.some.inj hsome.2).symm⟩

end

end Pool

/-! ## Runs -/

inductive PoolAction where
  | lease (timeoutMs : Option ℤ) (signal aborted : Bool)
  | release (lease : ℕ) (outcome : ChannelLeaseOutcome) (now : ℤ)
  | workEnded (lease : ℕ) (succeeded : Bool) (now : ℤ)
  | resize (size : ℤ)
  | close
  | timeout (waiter : Waiter)
  | abort (waiter : Waiter)
  | created (id : ℕ) (answer : Except (Option ChannelPoolErrorCode) ChannelAccount) (now : ℤ)
  | resumed (task : Task) (answer : Except (Option ChannelPoolErrorCode) Unit)

/-- The pool after an action; nothing if the action is not possible. -/
def Pool.after (pool : Pool) : PoolAction → Option Pool
  | .lease timeoutMs signal aborted => some (pool.lease timeoutMs signal aborted).2
  | .release lease outcome now => some (pool.release lease outcome now)
  | .workEnded lease succeeded now => some (pool.workEnded lease succeeded now)
  | .resize size => some (pool.resize size).2
  | .close => some pool.close
  | .timeout waiter => some (pool.timeout waiter)
  | .abort waiter => some (pool.abort waiter)
  | .created id answer now =>
      if .create id ∈ pool.tasks then
        some ({ pool with tasks := pool.tasks.erase (.create id) }.created id answer now)
      else none
  | .resumed task answer =>
      if task ∈ pool.tasks then
        { pool with tasks := pool.tasks.erase task }.resumed task answer
      else none

def PoolStep (pool : Pool) (action : PoolAction) (pool' : Pool) : Prop :=
  pool.after action = some pool'

/-- The constructor; nothing if it throws. Each account comes with the reading of the clock when it
is added. -/
def Pool.new (accounts : List (ChannelAccount × ℤ)) (factory : Option ChannelAccountFactory)
    (minSize maxSize leaseTimeoutMs : Option ℤ) : Option Pool :=
  let minSize := minSize.getD accounts.length
  let maxSize := maxSize.getD (max 1 (max minSize accounts.length))
  let leaseTimeoutMs := leaseTimeoutMs.getD 30000
  if minSize < 0 then none
  else if maxSize < 1 ∨ maxSize < minSize then none
  else if accounts.length > maxSize then none
  else if minSize > accounts.length ∧ factory = none then none
  else if leaseTimeoutMs < 0 then none
  else
    accounts.foldlM (fun pool account => pool.add account.1 account.2) {
      factory, maxSize := maxSize.toNat, leaseTimeoutMs
      heap := fun _ => ⟨⟨"", none⟩, false, false, 0⟩
      nextEntry := 0, entries := [], waiters := [], nextWaiter := 0, held := [], nextLease := 0
      targetSize := max minSize.toNat accounts.length
      creating := 0, closed := false, committed := 0, rolledBack := 0
      tasks := [], nextCreation := 0, creations := [], log := [] }

end StellarAgent.Fleet
