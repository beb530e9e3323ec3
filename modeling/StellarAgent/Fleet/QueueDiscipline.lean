import StellarAgent.Fleet.SubmissionQueue

set_option autoImplicit false

/-! # The discipline of the submission queue

As long as neither the metrics sink nor the classifier throws (and no sleep is rejected), every
action of a queue is a sequence of a few moves (`SubmissionQueue.after_moves`). Two invariants of
queues are kept by each move: `Slots` is about keys and slots, and `Book` accounts for every task
that was accepted. That no task waits that could run holds between the actions (`Settled`).
-/

namespace StellarAgent.Fleet.Submission

open Lib

variable {V E : Type}

namespace SubmissionQueue

variable {queue queue' : SubmissionQueue V E} {strict : Bool}

/-! ## Moves -/

/-- One move of a queue. A strict one settles a task as soon as its execution is fulfilled. -/
inductive Move (strict : Bool) (queue : SubmissionQueue V E) : SubmissionQueue V E → Prop
  | accept {orderingKey : Option String} {signal : Bool} :
      Move strict queue { queue with
        pending := queue.pending ++ [⟨queue.nextItem, orderingKey, signal⟩]
        nextItem := queue.nextItem + 1
        log := queue.log ++ [.accepted ⟨queue.nextItem, orderingKey, signal⟩] }
  | start {item : QueueItem} : queue.pending.find? queue.isFree = some item →
      queue.running < queue.options.concurrency → Move strict queue ((queue.dequeue item).run item)
  | cancel {item : QueueItem} {result : Except (Rejection E) V} : item ∈ queue.pending →
      Move strict queue ({ queue with pending := queue.pending.erase item }.settle item.id result)
  | fulfil {run : Activation} {value : V} : strict = false → run ∈ queue.runs →
      run.phase = .executing →
        Move strict queue { queue with log := queue.log ++ [.fulfilled run.item.id value] }
  | succeed {run : Activation} {value : V} : run ∈ queue.runs → run.phase = .executing →
      Move strict queue ({ queue with
        log := queue.log ++ [Event.fulfilled run.item.id value] }.finish run (.ok value))
  | finish {run : Activation} {result : Except (Rejection E) V} : run ∈ queue.runs →
      run.phase = .executing → Move strict queue (queue.finish run result)
  | sleep {run : Activation} : run ∈ queue.runs → run.phase = .executing →
      run.attempt < queue.options.maxAttempts →
        Move strict queue (queue.setRun run run.attempt .sleeping)
  | wake {run : Activation} : run ∈ queue.runs → run.phase = .sleeping →
      Move strict queue (queue.woke run (.ok ()))
  | remove {run : Activation} : run ∈ queue.runs → run.phase = .ended →
      Move strict queue (queue.remove run)

/-- At the end of an action the waiting `drain` calls may be told, if nothing is left to do. -/
inductive Told (queue : SubmissionQueue V E) : SubmissionQueue V E → Prop
  | nobody : Told queue queue
  | told {closed : Bool} {drainWaiters calls : List ℕ} {nextDrain : ℕ} :
      (calls ≠ [] → queue.pending = [] ∧ queue.running = 0) → Told queue { queue with
        closed, drainWaiters, nextDrain
        log := queue.log ++ calls.map .drained }

def Moves (strict : Bool) : SubmissionQueue V E → SubmissionQueue V E → Prop :=
  Relation.ReflTransGen (Move strict)

theorem Moves.keeps {P : SubmissionQueue V E → Prop}
    (hmove : ∀ queue queue', Move strict queue queue' → P queue → P queue')
    (h : Moves strict queue queue')
    (hP : P queue) : P queue' := by
  induction h with
  | refl => exact hP
  | tail _ hlast ih => exact hmove _ _ hlast ih

/-! ## Keys and slots -/

structure Slots (queue : SubmissionQueue V E) : Prop where
  counted : queue.running = queue.runs.length
  limited : queue.running ≤ queue.options.concurrency
  /-- the active keys are those of the runs, each of one run -/
  active : ∀ key, key ∈ queue.activeKeys ↔ ∃ run ∈ queue.runs, run.item.key = some key
  alone : (queue.runs.filterMap fun run => run.item.key).Nodup

theorem isFree_iff {item : QueueItem} :
    queue.isFree item = true ↔ ∀ key, item.key = some key → key ∉ queue.activeKeys := by
  unfold isFree
  cases hkey : item.key with
  | none => simp
  | some key => simp

theorem setRun_items (queue : SubmissionQueue V E) (run : Activation) (attempt : ℕ)
    (phase : Phase) :
    (queue.setRun run attempt phase).runs.map Activation.item = queue.runs.map Activation.item := by
  unfold setRun
  rw [List.map_map]
  refine List.map_congr_left (fun other _ => ?_)
  show (if other = run then _ else other).item = other.item
  split
  · rename_i hsame
    rw [hsame]
  · rfl

/-- Slots only depend on the items of the runs. -/
theorem Slots.congr (h : queue.Slots) (hoptions : queue'.options = queue.options)
    (hrunning : queue'.running = queue.running) (hactive : queue'.activeKeys = queue.activeKeys)
    (hitems : queue'.runs.map Activation.item = queue.runs.map Activation.item) :
    queue'.Slots := by
  have hlength := congrArg List.length hitems
  rw [List.length_map, List.length_map] at hlength
  have hkeys : ∀ queue : SubmissionQueue V E, (queue.runs.filterMap fun run => run.item.key) =
      (queue.runs.map Activation.item).filterMap QueueItem.key := by
    intro queue
    rw [List.filterMap_map]
    rfl
  have hmem : ∀ (queue : SubmissionQueue V E) (key : String),
      (∃ run ∈ queue.runs, run.item.key = some key) ↔
        ∃ item ∈ queue.runs.map Activation.item, item.key = some key := by
    intro queue key
    simp
  refine ⟨?_, ?_, ?_, ?_⟩
  · rw [hrunning, hlength]
    exact h.counted
  · rw [hrunning, hoptions]
    exact h.limited
  · intro key
    rw [hactive, hmem, hitems, ← hmem]
    exact h.active key
  · rw [hkeys, hitems, ← hkeys]
    exact h.alone

theorem Slots.start (h : queue.Slots) {item : QueueItem} (hfree : queue.isFree item = true)
    (hslot : queue.running < queue.options.concurrency) : ((queue.dequeue item).run item).Slots := by
  have hnew := isFree_iff.mp hfree
  refine ⟨?_, hslot, ?_, ?_⟩
  · show queue.running + 1 = (queue.runs ++ [_]).length
    rw [h.counted, List.length_append, List.length_singleton]
  · intro key
    show key ∈ queue.activeKeys ∪ item.key.toFinset ↔
      ∃ run ∈ queue.runs ++ [(⟨item, 1, .executing⟩ : Activation)], run.item.key = some key
    rw [Finset.mem_union, h.active key, Option.mem_toFinset, Option.mem_def]
    constructor
    · rintro (⟨run, hrun, hkey⟩ | hkey)
      · exact ⟨run, List.mem_append_left _ hrun, hkey⟩
      · exact ⟨_, List.mem_append_right _ List.mem_cons_self, hkey⟩
    · rintro ⟨run, hrun, hkey⟩
      rcases List.mem_append.mp hrun with hold | hlast
      · exact Or.inl ⟨run, hold, hkey⟩
      · obtain rfl := List.mem_singleton.mp hlast
        exact Or.inr hkey
  · show ((queue.runs ++ [(⟨item, 1, .executing⟩ : Activation)]).filterMap
      fun run => run.item.key).Nodup
    rw [List.filterMap_append, List.nodup_append]
    refine ⟨h.alone, ?_, ?_⟩
    · cases hkey : item.key with
      | none => simp [hkey]
      | some key => simp [hkey]
    · intro key hkey other hother hsame
      obtain ⟨run, hrun, hrunKey⟩ := List.mem_filterMap.mp hkey
      have hitem : item.key = some other := by simpa using hother
      refine hnew other hitem ((h.active other).mpr ⟨run, hrun, ?_⟩)
      rw [← hsame]
      exact hrunKey

/-- The key of a run is of no other one. -/
theorem Slots.key_alone (h : queue.Slots) {run other : Activation} (hrun : run ∈ queue.runs)
    (hother : other ∈ queue.runs.erase run) {key : String} (hkey : run.item.key = some key) :
    other.item.key ≠ some key := by
  intro hsame
  have hperm : queue.runs.Perm (run :: queue.runs.erase run) := List.perm_cons_erase hrun
  have halone := (hperm.filterMap fun run => run.item.key).nodup_iff.mp h.alone
  have hcons : (run :: queue.runs.erase run).filterMap (fun run => run.item.key) =
      key :: (queue.runs.erase run).filterMap (fun run => run.item.key) :=
    List.filterMap_cons_some hkey
  rw [hcons, List.nodup_cons] at halone
  exact halone.1 (List.mem_filterMap.mpr ⟨other, hother, hsame⟩)

theorem Slots.remove (h : queue.Slots) {run : Activation} (hrun : run ∈ queue.runs) :
    (queue.remove run).Slots := by
  have hperm : queue.runs.Perm (run :: queue.runs.erase run) := List.perm_cons_erase hrun
  have hlength := hperm.length_eq
  have hcounted := h.counted
  have hlimited := h.limited
  rw [List.length_cons] at hlength
  refine ⟨?_, ?_, ?_, ?_⟩
  · show queue.running - 1 = (queue.runs.erase run).length
    omega
  · show queue.running - 1 ≤ queue.options.concurrency
    omega
  · intro key
    show key ∈ queue.activeKeys \ run.item.key.toFinset ↔
      ∃ other ∈ queue.runs.erase run, other.item.key = some key
    rw [Finset.mem_sdiff, h.active key, Option.mem_toFinset, Option.mem_def]
    constructor
    · rintro ⟨⟨other, hother, hkey⟩, hne⟩
      refine ⟨other, ?_, hkey⟩
      rcases List.mem_cons.mp (hperm.mem_iff.mp hother) with rfl | hrest
      · exact absurd hkey hne
      · exact hrest
    · rintro ⟨other, hother, hkey⟩
      refine ⟨⟨other, List.mem_of_mem_erase hother, hkey⟩, ?_⟩
      exact fun hsame => h.key_alone hrun hother hsame hkey
  · exact h.alone.sublist (List.erase_sublist.filterMap _)

/-- **Every move keeps the slots.** -/
theorem Slots.move (hmove : Move strict queue queue') (h : queue.Slots) : queue'.Slots := by
  cases hmove with
  | accept => exact h.congr rfl rfl rfl rfl
  | start hfind hslot => exact h.start (List.find?_some hfind) hslot
  | cancel _ => exact h.congr rfl rfl rfl rfl
  | fulfil _ _ _ => exact h.congr rfl rfl rfl rfl
  | succeed _ _ => exact h.congr rfl rfl rfl (setRun_items _ _ _ _)
  | finish _ _ => exact h.congr rfl rfl rfl (setRun_items _ _ _ _)
  | sleep _ _ _ => exact h.congr rfl rfl rfl (setRun_items _ _ _ _)
  | wake _ _ => exact h.congr rfl rfl rfl (setRun_items _ _ _ _)
  | remove hrun _ => exact h.remove hrun

/-! ## The books -/

def isSettled (id : ℕ) : Event V E → Bool
  | .settled item _ => item = id
  | _ => false

def isStarted (id : ℕ) : Event V E → Bool
  | .started item _ => item = id
  | _ => false

/-- The calls of `resolve` and `reject` for a task. -/
def settlements (queue : SubmissionQueue V E) (id : ℕ) : ℕ := queue.log.countP (isSettled id)

/-- The executions of a task. -/
def executions (queue : SubmissionQueue V E) (id : ℕ) : ℕ := queue.log.countP (isStarted id)

def waitingIn (items : List QueueItem) (id : ℕ) : ℕ := items.countP fun item => item.id = id

def underWayIn (runs : List Activation) (id : ℕ) : ℕ :=
  runs.countP fun run => run.item.id = id && run.phase ≠ .ended

/-- How often a task waits or is under way. -/
def unsettled (queue : SubmissionQueue V E) (id : ℕ) : ℕ :=
  waitingIn queue.pending id + underWayIn queue.runs id

theorem waitingIn_append (xs ys : List QueueItem) (id : ℕ) :
    waitingIn (xs ++ ys) id = waitingIn xs id + waitingIn ys id := List.countP_append

theorem waitingIn_cons (item : QueueItem) (items : List QueueItem) (id : ℕ) :
    waitingIn (item :: items) id = waitingIn items id + if item.id = id then 1 else 0 := by
  unfold waitingIn
  rw [List.countP_cons]
  simp

theorem underWayIn_append (xs ys : List Activation) (id : ℕ) :
    underWayIn (xs ++ ys) id = underWayIn xs id + underWayIn ys id := List.countP_append

theorem underWayIn_cons (run : Activation) (runs : List Activation) (id : ℕ) :
    underWayIn (run :: runs) id =
      underWayIn runs id + if run.item.id = id ∧ run.phase ≠ .ended then 1 else 0 := by
  unfold underWayIn
  rw [List.countP_cons]
  simp

/-- What is known about every task. -/
structure Book (queue : SubmissionQueue V E) : Prop where
  once : (queue.pending.map QueueItem.id ++ queue.runs.map fun run => run.item.id).Nodup
  numbered : ∀ id ∈ queue.pending.map QueueItem.id ++ queue.runs.map fun run => run.item.id,
    id < queue.nextItem
  /-- an accepted task waits, is under way or was settled, and exactly one of it -/
  accounted : ∀ id, queue.settlements id + queue.unsettled id = if id < queue.nextItem then 1 else 0
  fresh : ∀ id, queue.nextItem ≤ id → queue.executions id = 0
  waiting : ∀ item ∈ queue.pending, queue.executions item.id = 0
  underway : ∀ run ∈ queue.runs, queue.executions run.item.id = run.attempt ∧
    (run.phase = .sleeping → run.attempt < queue.options.maxAttempts)
  attempts : ∀ id, queue.executions id ≤ queue.options.maxAttempts

/-- The queue without the first free item -/
theorem find_split {item : QueueItem} (h : queue.pending.find? queue.isFree = some item) :
    ∃ before after, queue.pending = before ++ item :: after ∧
      (∀ other ∈ before, queue.isFree other = false) ∧
      queue.pending.eraseP queue.isFree = before ++ after := by
  obtain ⟨hfree, before, after, hsplit, hbefore⟩ := List.find?_eq_some_iff_append.mp h
  have hbusy : ∀ other ∈ before, queue.isFree other = false := by
    intro other hother
    simpa using hbefore other hother
  refine ⟨before, after, hsplit, hbusy, ?_⟩
  rw [hsplit, List.eraseP_append_right _ (fun other hother => by simp [hbusy other hother]),
    List.eraseP_cons_of_pos hfree]

/-- One `#run` changes, and the others stay. -/
theorem setRun_split (h : (queue.runs.map fun run => run.item.id).Nodup) {run : Activation}
    (hrun : run ∈ queue.runs) (attempt : ℕ) (phase : Phase) :
    ∃ before after, queue.runs = before ++ run :: after ∧
      (queue.setRun run attempt phase).runs = before ++ ⟨run.item, attempt, phase⟩ :: after := by
  obtain ⟨before, after, hsplit⟩ := List.append_of_mem hrun
  refine ⟨before, after, hsplit, ?_⟩
  rw [hsplit, List.map_append, List.map_cons, List.nodup_append, List.nodup_cons] at h
  have hbefore : ∀ other ∈ before, other ≠ run := by
    rintro other hother rfl
    exact h.2.2 _ (List.mem_map_of_mem hother) _ List.mem_cons_self rfl
  have hafter : ∀ other ∈ after, other ≠ run := by
    rintro other hother rfl
    exact h.2.1.1 (List.mem_map_of_mem hother)
  unfold setRun
  dsimp only
  rw [hsplit, List.map_append, List.map_cons, if_pos rfl]
  have hsame : ∀ others : List Activation, (∀ other ∈ others, other ≠ run) →
      others.map (fun other => if other = run then ⟨run.item, attempt, phase⟩ else other)
        = others := by
    intro others hne
    refine (List.map_congr_left (fun other hother => ?_)).trans (List.map_id others)
    rw [if_neg (hne other hother)]
    rfl
  rw [hsame before hbefore, hsame after hafter]

namespace Book

variable (h : queue.Book)

include h

theorem runs_once : (queue.runs.map fun run => run.item.id).Nodup :=
  (List.nodup_append.mp h.once).2.1

/-- What the log gains says nothing of settlements and executions. -/
theorem log {events : List (Event V E)} (hsettled : ∀ id, events.countP (isSettled id) = 0)
    (hstarted : ∀ id, events.countP (isStarted id) = 0)
    (hlog : queue'.log = queue.log ++ events) (hoptions : queue'.options = queue.options)
    (hpending : queue'.pending = queue.pending) (hruns : queue'.runs = queue.runs)
    (hnext : queue'.nextItem = queue.nextItem) : queue'.Book := by
  have hsettlements : ∀ id, queue'.settlements id = queue.settlements id := by
    intro id
    unfold settlements
    rw [hlog, List.countP_append, hsettled, Nat.add_zero]
  have hexecutions : ∀ id, queue'.executions id = queue.executions id := by
    intro id
    unfold executions
    rw [hlog, List.countP_append, hstarted, Nat.add_zero]
  refine ⟨?_, ?_, ?_, ?_, ?_, ?_, ?_⟩
  · rw [hpending, hruns]
    exact h.once
  · rw [hpending, hruns, hnext]
    exact h.numbered
  · intro id
    unfold unsettled
    rw [hsettlements, hpending, hruns, hnext]
    exact h.accounted id
  · intro id
    rw [hexecutions, hnext]
    exact h.fresh id
  · intro item
    rw [hexecutions, hpending]
    exact h.waiting item
  · intro run
    rw [hexecutions, hruns, hoptions]
    exact h.underway run
  · intro id
    rw [hexecutions, hoptions]
    exact h.attempts id

theorem accept (orderingKey : Option String) (signal : Bool) :
    Book { queue with
      pending := queue.pending ++ [⟨queue.nextItem, orderingKey, signal⟩]
      nextItem := queue.nextItem + 1
      log := queue.log ++ [.accepted ⟨queue.nextItem, orderingKey, signal⟩] } := by
  let item : QueueItem := ⟨queue.nextItem, orderingKey, signal⟩
  have hsettlements : ∀ id, (queue.log ++ [Event.accepted item]).countP (isSettled id) =
      queue.settlements id := by
    intro id
    rw [List.countP_append]
    rfl
  have hexecutions : ∀ id, (queue.log ++ [Event.accepted item]).countP (isStarted id) =
      queue.executions id := by
    intro id
    rw [List.countP_append]
    rfl
  have hperm : ((queue.pending ++ [item]).map QueueItem.id ++
      queue.runs.map fun run => run.item.id).Perm (queue.nextItem ::
        (queue.pending.map QueueItem.id ++ queue.runs.map fun run => run.item.id)) := by
    rw [List.map_append, List.append_assoc]
    exact List.perm_middle
  refine ⟨?_, ?_, ?_, ?_, ?_, ?_, ?_⟩
  · refine hperm.nodup_iff.mpr (List.nodup_cons.mpr ⟨?_, h.once⟩)
    exact fun hold => lt_irrefl _ (h.numbered _ hold)
  · intro id hid
    show id < queue.nextItem + 1
    rcases List.mem_cons.mp (hperm.mem_iff.mp hid) with rfl | hold
    · exact Nat.lt_succ_self _
    · exact (h.numbered id hold).trans (Nat.lt_succ_self _)
  · intro id
    have haccounted := h.accounted id
    unfold unsettled at haccounted
    show (queue.log ++ [Event.accepted item]).countP (isSettled id) +
      (waitingIn (queue.pending ++ [item]) id + underWayIn queue.runs id) =
        if id < queue.nextItem + 1 then 1 else 0
    rw [hsettlements, waitingIn_append, waitingIn_cons]
    show queue.settlements id + (waitingIn queue.pending id + (0 +
      if queue.nextItem = id then 1 else 0) + underWayIn queue.runs id) = _
    by_cases hid : queue.nextItem = id
    · rw [if_pos hid, if_pos (by omega)]
      rw [if_neg (by omega)] at haccounted
      omega
    · have hlt : id < queue.nextItem + 1 ↔ id < queue.nextItem := by omega
      rw [if_neg hid]
      simp only [hlt]
      omega
  · intro id hid
    have hid' : queue.nextItem + 1 ≤ id := hid
    exact (hexecutions id).trans (h.fresh id (by omega))
  · intro other hother
    refine (hexecutions other.id).trans ?_
    rcases List.mem_append.mp hother with hold | hnew
    · exact h.waiting other hold
    · obtain rfl := List.mem_singleton.mp hnew
      exact h.fresh queue.nextItem le_rfl
  · intro run hrun
    exact ⟨(hexecutions run.item.id).trans (h.underway run hrun).1, (h.underway run hrun).2⟩
  · intro id
    exact (hexecutions id).trans_le (h.attempts id)

theorem start {item : QueueItem} (hfind : queue.pending.find? queue.isFree = some item) :
    ((queue.dequeue item).run item).Book := by
  let run : Activation := ⟨item, 1, .executing⟩
  obtain ⟨before, after, hsplit, _, herase⟩ := find_split hfind
  have hmem : item ∈ queue.pending := List.mem_of_find?_eq_some hfind
  have hlt : item.id < queue.nextItem :=
    h.numbered item.id (List.mem_append_left _ (List.mem_map_of_mem hmem))
  have hperm : (queue.pending.map QueueItem.id ++ queue.runs.map fun run => run.item.id).Perm
      ((before ++ after).map QueueItem.id ++ (queue.runs ++ [run]).map fun run => run.item.id) := by
    rw [hsplit, List.map_append, List.map_cons, List.map_append, List.map_append, List.map_cons,
      List.map_nil, List.append_assoc, List.append_assoc]
    refine List.Perm.append_left _ ?_
    rw [List.cons_append, ← List.append_assoc]
    exact (List.perm_append_singleton item.id _).symm
  have hpending : ((queue.dequeue item).run item).pending = before ++ after := herase
  have hsettlements : ∀ id, (queue.log ++ [Event.started item.id 1]).countP (isSettled id) =
      queue.settlements id := by
    intro id
    rw [List.countP_append]
    rfl
  have hexecutions : ∀ id, (queue.log ++ [Event.started item.id 1]).countP (isStarted id) =
      queue.executions id + if item.id = id then 1 else 0 := by
    intro id
    rw [List.countP_append, List.countP_singleton]
    simp [executions, isStarted]
  have hnone : queue.executions item.id = 0 := h.waiting item hmem
  have honce := hperm.nodup_iff.mp h.once
  refine ⟨?_, ?_, ?_, ?_, ?_, ?_, ?_⟩
  · rw [hpending]
    exact honce
  · intro id hid
    rw [hpending] at hid
    exact h.numbered id (hperm.mem_iff.mpr hid)
  · intro id
    have haccounted := h.accounted id
    unfold unsettled at haccounted ⊢
    rw [hsplit, waitingIn_append, waitingIn_cons] at haccounted
    rw [hpending]
    show (queue.log ++ [Event.started item.id 1]).countP (isSettled id) +
      (waitingIn (before ++ after) id + underWayIn (queue.runs ++ [run]) id) =
        if id < queue.nextItem then 1 else 0
    rw [hsettlements, waitingIn_append, underWayIn_append, underWayIn_cons]
    show queue.settlements id + (waitingIn before id + waitingIn after id +
      (underWayIn queue.runs id + (0 + if item.id = id ∧ Phase.executing ≠ Phase.ended then 1
        else 0))) = _
    simp only [ne_eq, reduceCtorEq, not_false_eq_true, and_true]
    omega
  · intro id hid
    have hid' : queue.nextItem ≤ id := hid
    refine (hexecutions id).trans ?_
    rw [if_neg (by omega), h.fresh id hid]
  · intro other hother
    rw [hpending] at hother
    have hne : item.id ≠ other.id := by
      intro hsame
      have hlast : item.id ∈ (queue.runs ++ [run]).map fun run => run.item.id := by
        rw [List.map_append]
        exact List.mem_append_right _ List.mem_cons_self
      exact (List.nodup_append.mp honce).2.2 _ (List.mem_map_of_mem hother) _ hlast hsame.symm
    refine (hexecutions other.id).trans ?_
    rw [if_neg hne]
    refine h.waiting other ?_
    rw [hsplit]
    rcases List.mem_append.mp hother with hleft | hright
    · exact List.mem_append_left _ hleft
    · exact List.mem_append_right _ (List.mem_cons_of_mem item hright)
  · intro other hother
    have hother' : other ∈ queue.runs ++ [run] := hother
    rcases List.mem_append.mp hother' with hold | hnew
    · have hne : item.id ≠ other.item.id := by
        intro hsame
        exact (List.nodup_append.mp h.once).2.2 _ (List.mem_map_of_mem hmem) _
          (List.mem_map_of_mem hold) hsame
      refine ⟨(hexecutions other.item.id).trans ?_, (h.underway other hold).2⟩
      rw [if_neg hne]
      exact (h.underway other hold).1
    · obtain rfl := List.mem_singleton.mp hnew
      refine ⟨(hexecutions item.id).trans ?_, fun hphase => nomatch hphase⟩
      rw [if_pos rfl, hnone]
  · intro id
    refine (hexecutions id).trans_le ?_
    by_cases hid : item.id = id
    · rw [if_pos hid, ← hid, hnone]
      exact queue.options.maxAttempts_pos
    · rw [if_neg hid]
      exact h.attempts id

/-- An item leaves the queue and its promise is settled. -/
theorem cancel {item : QueueItem} (hmem : item ∈ queue.pending)
    (result : Except (Rejection E) V) :
    ({ queue with pending := queue.pending.erase item }.settle item.id result).Book := by
  have hperm : queue.pending.Perm (item :: queue.pending.erase item) := List.perm_cons_erase hmem
  have hsub : (queue.pending.erase item).Sublist queue.pending := List.erase_sublist
  have hids : ((queue.pending.erase item).map QueueItem.id ++
      queue.runs.map fun run => run.item.id).Sublist
        (queue.pending.map QueueItem.id ++ queue.runs.map fun run => run.item.id) :=
    (hsub.map QueueItem.id).append_right _
  have hsettlements : ∀ id, (queue.log ++ [Event.settled item.id result]).countP (isSettled id) =
      queue.settlements id + if item.id = id then 1 else 0 := by
    intro id
    rw [List.countP_append, List.countP_singleton]
    simp [settlements, isSettled]
  have hexecutions : ∀ id, (queue.log ++ [Event.settled item.id result]).countP (isStarted id) =
      queue.executions id := by
    intro id
    rw [List.countP_append]
    rfl
  refine ⟨h.once.sublist hids, fun id hid => h.numbered id (hids.subset hid), ?_, ?_, ?_, ?_, ?_⟩
  · intro id
    have haccounted := h.accounted id
    have hwaiting : waitingIn queue.pending id = waitingIn (item :: queue.pending.erase item) id :=
      hperm.countP_eq _
    unfold unsettled at haccounted
    rw [hwaiting, waitingIn_cons] at haccounted
    show (queue.log ++ [Event.settled item.id result]).countP (isSettled id) +
      (waitingIn (queue.pending.erase item) id + underWayIn queue.runs id) =
        if id < queue.nextItem then 1 else 0
    rw [hsettlements]
    omega
  · exact fun id hid => (hexecutions id).trans (h.fresh id hid)
  · exact fun other hother => (hexecutions other.id).trans (h.waiting other (hsub.subset hother))
  · exact fun run hrun => ⟨(hexecutions run.item.id).trans (h.underway run hrun).1,
      (h.underway run hrun).2⟩
  · exact fun id => (hexecutions id).trans_le (h.attempts id)

/-- A `#run` gets on: it settles its task when it ends, and starts it when it has slept. -/
theorem getOn {run : Activation} (hrun : run ∈ queue.runs) (attempt : ℕ) (phase : Phase)
    (events : List (Event V E))
    (hsettled : ∀ id, events.countP (isSettled id) =
      if run.item.id = id ∧ run.phase ≠ .ended ∧ phase = .ended then 1 else 0)
    (hstarted : ∀ id, events.countP (isStarted id) =
      if run.item.id = id then attempt - run.attempt else 0)
    (hattempt : run.attempt ≤ attempt) (hmax : attempt ≤ queue.options.maxAttempts)
    (hphase : run.phase = .ended → phase = .ended)
    (hsleeping : phase = .sleeping → attempt < queue.options.maxAttempts) :
    ({ queue with log := queue.log ++ events }.setRun run attempt phase).Book := by
  obtain ⟨before, after, hsplit, hset⟩ := setRun_split h.runs_once hrun attempt phase
  let run' : Activation := ⟨run.item, attempt, phase⟩
  have hruns : ({ queue with log := queue.log ++ events }.setRun run attempt phase).runs =
      before ++ run' :: after := hset
  have hitems : (queue.setRun run attempt phase).runs.map (fun run => run.item.id) =
      queue.runs.map fun run => run.item.id := by
    have hmap := congrArg (List.map QueueItem.id) (setRun_items queue run attempt phase)
    rw [List.map_map, List.map_map] at hmap
    exact hmap
  have hsettlements : ∀ id, (queue.log ++ events).countP (isSettled id) = queue.settlements id +
      if run.item.id = id ∧ run.phase ≠ .ended ∧ phase = .ended then 1 else 0 := by
    intro id
    rw [List.countP_append, hsettled]
    rfl
  have hexecutions : ∀ id, (queue.log ++ events).countP (isStarted id) = queue.executions id +
      if run.item.id = id then attempt - run.attempt else 0 := by
    intro id
    rw [List.countP_append, hstarted]
    rfl
  have hcount := (h.underway run hrun).1
  have hother : ∀ other ∈ before ++ after, other ∈ queue.runs ∧ run.item.id ≠ other.item.id := by
    have hids := h.runs_once
    rw [hsplit] at hids ⊢
    intro other hother
    have hperm : (before ++ run :: after).Perm (run :: (before ++ after)) := List.perm_middle
    have hnodup := (hperm.map fun run => run.item.id).nodup_iff.mp hids
    rw [List.map_cons, List.nodup_cons] at hnodup
    refine ⟨hperm.mem_iff.mpr (List.mem_cons_of_mem run hother), fun hsame => hnodup.1 ?_⟩
    rw [hsame]
    exact List.mem_map_of_mem hother
  refine ⟨?_, ?_, ?_, ?_, ?_, ?_, ?_⟩
  · show (queue.pending.map QueueItem.id ++
      (queue.setRun run attempt phase).runs.map fun run => run.item.id).Nodup
    rw [hitems]
    exact h.once
  · intro id hid
    have hid' : id ∈ queue.pending.map QueueItem.id ++
        (queue.setRun run attempt phase).runs.map fun run => run.item.id := hid
    rw [hitems] at hid'
    exact h.numbered id hid'
  · intro id
    have haccounted := h.accounted id
    unfold unsettled at haccounted
    rw [hsplit, underWayIn_append, underWayIn_cons] at haccounted
    show (queue.log ++ events).countP (isSettled id) + (waitingIn queue.pending id +
      underWayIn (queue.setRun run attempt phase).runs id) = if id < queue.nextItem then 1 else 0
    rw [hset, hsettlements, underWayIn_append, underWayIn_cons]
    show _ + _ + (waitingIn queue.pending id + (underWayIn before id + (underWayIn after id +
      if run.item.id = id ∧ phase ≠ .ended then 1 else 0))) = _
    by_cases hid : run.item.id = id
    · by_cases hended : phase = .ended
      · by_cases hwas : run.phase = .ended
        · simp only [hid, hended, hwas, ne_eq, not_true_eq_false, and_false, if_false] at *
          simpa using haccounted
        · simp only [hid, hended, hwas, ne_eq, not_true_eq_false, not_false_eq_true, and_true,
            and_false, if_true, if_false] at haccounted ⊢
          omega
      · have hwas : run.phase ≠ .ended := fun hwas => hended (hphase hwas)
        simp only [hid, hended, hwas, ne_eq, not_false_eq_true, and_true, and_false, if_true,
          if_false] at haccounted ⊢
        omega
    · simp only [hid, false_and, if_false] at haccounted ⊢
      omega
  · intro id hid
    have hlt : run.item.id < queue.nextItem :=
      h.numbered _ (List.mem_append_right _ (List.mem_map_of_mem hrun))
    have hid' : queue.nextItem ≤ id := hid
    refine (hexecutions id).trans ?_
    rw [if_neg (by omega), h.fresh id hid]
  · intro item hitem
    have hne : run.item.id ≠ item.id := fun hsame => (List.nodup_append.mp h.once).2.2 _
      (List.mem_map_of_mem hitem) _ (List.mem_map_of_mem hrun) hsame.symm
    refine (hexecutions item.id).trans ?_
    rw [if_neg hne]
    exact h.waiting item hitem
  · intro other hmem
    rw [hruns] at hmem
    rcases List.mem_cons.mp ((List.perm_middle).mem_iff.mp hmem) with rfl | hrest
    · refine ⟨(hexecutions run.item.id).trans ?_, hsleeping⟩
      rw [if_pos rfl, hcount]
      show run.attempt + (attempt - run.attempt) = attempt
      omega
    · obtain ⟨hold, hne⟩ := hother other hrest
      refine ⟨(hexecutions other.item.id).trans ?_, (h.underway other hold).2⟩
      rw [if_neg hne]
      exact (h.underway other hold).1
  · intro id
    refine (hexecutions id).trans_le ?_
    by_cases hid : run.item.id = id
    · rw [if_pos hid, ← hid, hcount]
      show run.attempt + (attempt - run.attempt) ≤ queue.options.maxAttempts
      omega
    · rw [if_neg hid]
      exact h.attempts id

theorem remove {run : Activation} (hrun : run ∈ queue.runs) (hended : run.phase = .ended) :
    (queue.remove run).Book := by
  have hperm : queue.runs.Perm (run :: queue.runs.erase run) := List.perm_cons_erase hrun
  have hsub : (queue.runs.erase run).Sublist queue.runs := List.erase_sublist
  have hids : (queue.pending.map QueueItem.id ++
      (queue.runs.erase run).map fun run => run.item.id).Sublist
        (queue.pending.map QueueItem.id ++ queue.runs.map fun run => run.item.id) :=
    (hsub.map _).append_left _
  refine ⟨h.once.sublist hids, fun id hid => h.numbered id (hids.subset hid), ?_, h.fresh,
    h.waiting, fun other hother => h.underway other (hsub.subset hother), h.attempts⟩
  intro id
  have haccounted := h.accounted id
  have hcount : underWayIn queue.runs id = underWayIn (run :: queue.runs.erase run) id :=
    hperm.countP_eq _
  unfold unsettled at haccounted
  rw [hcount, underWayIn_cons, if_neg (fun hopen => hopen.2 hended)] at haccounted
  exact haccounted

theorem attempt_le {run : Activation} (hrun : run ∈ queue.runs) :
    run.attempt ≤ queue.options.maxAttempts := by
  rw [← (h.underway run hrun).1]
  exact h.attempts run.item.id

theorem finish {run : Activation} (hrun : run ∈ queue.runs) (hphase : run.phase = .executing)
    (result : Except (Rejection E) V) : (queue.finish run result).Book := by
  refine h.getOn hrun _ _ [.settled run.item.id result] ?_ ?_ le_rfl (h.attempt_le hrun)
    (fun _ => rfl) (fun hsleeping => nomatch hsleeping)
  · intro id
    rw [List.countP_singleton, hphase]
    simp [isSettled]
  · intro id
    rw [Nat.sub_self, ite_self]
    rfl

omit h in
/-- **Every move keeps the books.** -/
theorem move (hmove : Move strict queue queue') (h : queue.Book) : queue'.Book := by
  cases hmove with
  | accept => exact h.accept _ _
  | start hfind _ => exact h.start hfind
  | cancel hmem => exact h.cancel hmem _
  | fulfil _ _ _ => exact h.log (fun _ => rfl) (fun _ => rfl) rfl rfl rfl rfl rfl
  | @succeed run value hrun hphase =>
      have hfulfilled : ({ queue with
          log := queue.log ++ [Event.fulfilled run.item.id value] } : SubmissionQueue V E).Book :=
        h.log (fun _ => rfl) (fun _ => rfl) rfl rfl rfl rfl rfl
      exact hfulfilled.finish hrun hphase (.ok value)
  | finish hrun hphase => exact h.finish hrun hphase _
  | @sleep run hrun hphase hattempt =>
      have hslept := h.getOn hrun run.attempt .sleeping [] (by simp) (by simp) le_rfl
        (h.attempt_le hrun) (fun hended => nomatch hphase.symm.trans hended) (fun _ => hattempt)
      rw [List.append_nil] at hslept
      exact hslept
  | @wake run hrun hphase =>
      refine h.getOn hrun _ _ [.started run.item.id (run.attempt + 1)] ?_ ?_
        (Nat.le_succ _) ((h.underway run hrun).2 hphase) ?_ (fun hsleeping => nomatch hsleeping)
      · intro id
        simp [isSettled]
      · intro id
        rw [List.countP_singleton]
        simp [isStarted]
      · exact fun hended => nomatch hphase.symm.trans hended
  | remove hrun hended => exact h.remove hrun hended

/-- A task that neither waits nor is under way was settled. -/
theorem exists_settled {id : ℕ} (hid : id < queue.nextItem) (hnone : queue.unsettled id = 0) :
    ∃ result, .settled id result ∈ queue.log := by
  have haccounted := h.accounted id
  rw [hnone, if_pos hid] at haccounted
  have hpos : 0 < queue.log.countP (isSettled id) := by
    show 0 < queue.settlements id
    omega
  obtain ⟨event, hevent, hsettled⟩ := List.countP_pos_iff.mp hpos
  cases event with
  | settled item result =>
      obtain rfl : item = id := by simpa [isSettled] using hsettled
      exact ⟨result, hevent⟩
  | accepted _ => cases hsettled
  | started _ _ => cases hsettled
  | fulfilled _ _ => cases hsettled
  | drained _ => cases hsettled

/-- Only accepted tasks are executed. -/
theorem started_lt {id attempt : ℕ} (hstarted : .started id attempt ∈ queue.log) :
    id < queue.nextItem := by
  by_contra hnot
  have hnone := h.fresh id (by omega)
  have hall := List.countP_eq_zero.mp hnone _ hstarted
  simp [isStarted] at hall

end Book

/-! ## The order of tasks with one key -/

/-- **Tasks with one key are executed one after another**: before a later one is, the earlier one
was settled. -/
def InOrder (log : List (Event V E)) : Prop :=
  ∀ earlier id attempt, earlier ++ [.started id attempt] <+: log →
    ∀ first second : QueueItem, .accepted first ∈ log → .accepted second ∈ log → second.id = id →
      first.id < id → first.key = second.key → first.key ≠ none →
        ∃ result, .settled first.id result ∈ earlier

theorem prefix_append_cases {α : Type} {xs ys zs : List α} {x : α} (h : xs ++ [x] <+: ys ++ zs) :
    xs ++ [x] <+: ys ∨ (x ∈ zs ∧ ∃ more, xs = ys ++ more) := by
  obtain ⟨rest, hrest⟩ := h
  rcases List.append_eq_append_iff.mp hrest with ⟨more, hys, _⟩ | ⟨more, hxs, hzs⟩
  · exact Or.inl ⟨more, hys.symm⟩
  · induction more using List.reverseRecOn with
    | nil =>
        left
        rw [List.append_nil] at hxs
        exact ⟨[], by rw [List.append_nil, hxs]⟩
    | append_singleton more last _ =>
        right
        rw [← List.append_assoc] at hxs
        obtain ⟨hmore, hlast⟩ := List.append_inj' hxs rfl
        obtain rfl := List.singleton_inj.mp hlast
        refine ⟨?_, more, hmore⟩
        rw [hzs]
        simp

theorem InOrder.extend {log events : List (Event V E)} (h : InOrder log) (bound : ℕ)
    (hold : ∀ id attempt, .started id attempt ∈ log → id < bound)
    (hnew : ∀ item : QueueItem, .accepted item ∈ events → bound ≤ item.id)
    (hstarted : ∀ id attempt, .started id attempt ∈ events → ∀ first second : QueueItem,
      .accepted first ∈ log ++ events → .accepted second ∈ log ++ events → second.id = id →
        first.id < id → first.key = second.key → first.key ≠ none →
          ∃ result, .settled first.id result ∈ log) : InOrder (log ++ events) := by
  intro earlier id attempt hprefix first second hfirst hsecond hid hlt hkey hsome
  rcases prefix_append_cases hprefix with hbefore | ⟨hevent, more, rfl⟩
  · have hbound := hold id attempt (hbefore.subset (by simp))
    have haccepted : ∀ item : QueueItem, item.id < bound → .accepted item ∈ log ++ events →
        .accepted item ∈ log := by
      intro item hitem hmem
      rcases List.mem_append.mp hmem with hleft | hright
      · exact hleft
      · exact absurd (hnew item hright) (by omega)
    exact h earlier id attempt hbefore first second (haccepted first (by omega) hfirst)
      (haccepted second (by omega) hsecond) hid hlt hkey hsome
  · obtain ⟨result, hresult⟩ :=
      hstarted id attempt hevent first second hfirst hsecond hid hlt hkey hsome
    exact ⟨result, List.mem_append_left _ hresult⟩

structure Ordered (queue : SubmissionQueue V E) : Prop where
  sorted : (queue.pending.map QueueItem.id).Pairwise (· < ·)
  /-- who waits behind a run was accepted after it -/
  behind : ∀ run ∈ queue.runs, ∀ item ∈ queue.pending, run.item.key = item.key →
    item.key ≠ none → run.item.id < item.id
  numbered : ∀ item : QueueItem, .accepted item ∈ queue.log → item.id < queue.nextItem
  unique : ∀ first second : QueueItem, .accepted first ∈ queue.log → .accepted second ∈ queue.log →
    first.id = second.id → first = second
  known : ∀ item ∈ queue.pending ++ queue.runs.map Activation.item, .accepted item ∈ queue.log
  inOrder : InOrder queue.log

namespace Ordered

variable (h : queue.Ordered)

include h

/-- What changes neither the waiting tasks nor what is accepted, and executes nothing. -/
theorem quiet (events : List (Event V E)) (hbook : queue.Book)
    (haccepted : ∀ item : QueueItem, .accepted item ∉ events)
    (hstarted : ∀ id attempt, .started id attempt ∉ events)
    (hlog : queue'.log = queue.log ++ events) (hnext : queue'.nextItem = queue.nextItem)
    (hpending : queue'.pending.Sublist queue.pending)
    (hruns : queue'.runs.map Activation.item ⊆ queue.runs.map Activation.item) :
    queue'.Ordered := by
  have hsame : ∀ item : QueueItem, .accepted item ∈ queue'.log ↔ .accepted item ∈ queue.log := by
    intro item
    rw [hlog, List.mem_append, or_iff_left (haccepted item)]
  refine ⟨h.sorted.sublist (hpending.map _), ?_, ?_, ?_, ?_, ?_⟩
  · intro run hrun item hitem hkey
    obtain ⟨other, hother, hsameItem⟩ := List.mem_map.mp (hruns (List.mem_map_of_mem hrun))
    rw [← hsameItem] at hkey ⊢
    exact h.behind other hother item (hpending.subset hitem) hkey
  · intro item hitem
    rw [hnext]
    exact h.numbered item ((hsame item).mp hitem)
  · intro first second hfirst hsecond
    exact h.unique first second ((hsame first).mp hfirst) ((hsame second).mp hsecond)
  · intro item hitem
    refine (hsame item).mpr (h.known item ?_)
    rcases List.mem_append.mp hitem with hleft | hright
    · exact List.mem_append_left _ (hpending.subset hleft)
    · exact List.mem_append_right _ (hruns hright)
  · rw [hlog]
    refine h.inOrder.extend queue.nextItem (fun id attempt => hbook.started_lt) ?_ ?_
    · exact fun item hitem => absurd hitem (haccepted item)
    · exact fun id attempt hmem => absurd hmem (hstarted id attempt)

theorem accept (hbook : queue.Book) (orderingKey : Option String) (signal : Bool) :
    Ordered { queue with
      pending := queue.pending ++ [⟨queue.nextItem, orderingKey, signal⟩]
      nextItem := queue.nextItem + 1
      log := queue.log ++ [.accepted ⟨queue.nextItem, orderingKey, signal⟩] } := by
  let item : QueueItem := ⟨queue.nextItem, orderingKey, signal⟩
  have hcases : ∀ other : QueueItem, .accepted other ∈ queue.log ++ [Event.accepted item] →
      .accepted other ∈ queue.log ∨ other = item := by
    intro other hother
    refine (List.mem_append.mp hother).imp_right (fun hlast => ?_)
    exact Event.accepted.inj (List.mem_singleton.mp hlast)
  refine ⟨?_, ?_, ?_, ?_, ?_, ?_⟩
  · show ((queue.pending ++ [item]).map QueueItem.id).Pairwise (· < ·)
    rw [List.map_append, List.map_singleton, List.pairwise_append]
    refine ⟨h.sorted, List.pairwise_singleton _ _, ?_⟩
    intro id hid last hlast
    obtain rfl := List.mem_singleton.mp hlast
    exact hbook.numbered id (List.mem_append_left _ hid)
  · intro run hrun other hother hkey hsome
    rcases List.mem_append.mp hother with hold | hnew
    · exact h.behind run hrun other hold hkey hsome
    · obtain rfl := List.mem_singleton.mp hnew
      exact hbook.numbered _ (List.mem_append_right _ (List.mem_map_of_mem hrun))
  · intro other hother
    rcases hcases other hother with hold | rfl
    · exact (h.numbered other hold).trans (Nat.lt_succ_self _)
    · exact Nat.lt_succ_self _
  · intro first second hfirst hsecond hid
    rcases hcases first hfirst with hold | rfl
    · rcases hcases second hsecond with hold' | rfl
      · exact h.unique first second hold hold' hid
      · exact absurd (h.numbered first hold) (by
          rw [hid]
          exact lt_irrefl _)
    · rcases hcases second hsecond with hold' | rfl
      · exact absurd (h.numbered second hold') (by
          rw [← hid]
          exact lt_irrefl _)
      · rfl
  · intro other hother
    have hmem : other ∈ queue.pending ++ [item] ++ queue.runs.map Activation.item := hother
    rw [List.append_assoc, List.mem_append, List.mem_append, List.mem_singleton] at hmem
    rcases hmem with hwaiting | rfl | hrunning
    · exact List.mem_append_left _ (h.known other (List.mem_append_left _ hwaiting))
    · exact List.mem_append_right _ List.mem_cons_self
    · exact List.mem_append_left _ (h.known other (List.mem_append_right _ hrunning))
  · refine h.inOrder.extend queue.nextItem (fun id attempt => hbook.started_lt) ?_ ?_
    · intro other hother
      obtain rfl := Event.accepted.inj (List.mem_singleton.mp hother)
      exact le_rfl
    · intro id attempt hmem
      cases List.mem_singleton.mp hmem

/-- A task that is neither in the queue nor in a slot was settled. -/
theorem settled_of_gone (hbook : queue.Book) {first : QueueItem}
    (hfirst : .accepted first ∈ queue.log) (hwaiting : first ∉ queue.pending)
    (hrunning : first ∉ queue.runs.map Activation.item) :
    ∃ result, .settled first.id result ∈ queue.log := by
  refine hbook.exists_settled (h.numbered first hfirst) ?_
  unfold unsettled
  have hwaits : waitingIn queue.pending first.id = 0 := by
    refine List.countP_eq_zero.mpr (fun other hother hid => hwaiting ?_)
    have hknown := h.known other (List.mem_append_left _ hother)
    rw [h.unique first other hfirst hknown (by simpa using Eq.symm (of_decide_eq_true hid))]
    exact hother
  have hruns : underWayIn queue.runs first.id = 0 := by
    refine List.countP_eq_zero.mpr (fun run hrun hid => hrunning ?_)
    obtain ⟨hsame, _⟩ := Bool.and_eq_true_iff.mp hid
    have hmem : run.item ∈ queue.runs.map Activation.item := List.mem_map_of_mem hrun
    have hknown := h.known run.item (List.mem_append_right _ hmem)
    rw [h.unique first run.item hfirst hknown (of_decide_eq_true hsame).symm]
    exact hmem
  rw [hwaits, hruns]

theorem start (hbook : queue.Book) (hslots : queue.Slots) {item : QueueItem}
    (hfind : queue.pending.find? queue.isFree = some item) :
    ((queue.dequeue item).run item).Ordered := by
  obtain ⟨before, after, hsplit, hbusy, herase⟩ := find_split hfind
  have hfree : queue.isFree item = true := List.find?_some hfind
  have hmem : item ∈ queue.pending := List.mem_of_find?_eq_some hfind
  have hknown := h.known item (List.mem_append_left _ hmem)
  have hsub : (before ++ after).Sublist queue.pending := by
    rw [hsplit]
    exact List.Sublist.append_left (List.sublist_cons_self item after) before
  -- whoever has the key of the item comes after it
  have hlater : ∀ other ∈ queue.pending, item.key = other.key →
      other = item ∨ item.id < other.id := by
    intro other hother hkey
    have hsorted := h.sorted
    rw [hsplit, List.map_append, List.map_cons, List.pairwise_append, List.pairwise_cons] at hsorted
    rw [hsplit, List.mem_append, List.mem_cons] at hother
    rcases hother with hbefore | rfl | hafter
    · have hnot := hbusy other hbefore
      unfold isFree at hnot hfree
      rw [← hkey, hfree] at hnot
      cases hnot
    · exact Or.inl rfl
    · exact Or.inr (hsorted.2.1.1 _ (List.mem_map_of_mem hafter))
  have hsame : ∀ other : QueueItem,
      .accepted other ∈ queue.log ++ [Event.started item.id 1] → .accepted other ∈ queue.log := by
    intro other hother
    simpa using hother
  have hpending : ((queue.dequeue item).run item).pending = before ++ after := herase
  refine ⟨?_, ?_, ?_, ?_, ?_, ?_⟩
  · rw [hpending]
    exact h.sorted.sublist (hsub.map _)
  · intro run hrun other hother hkey hsome
    rw [hpending] at hother
    rcases List.mem_append.mp hrun with hold | hnew
    · exact h.behind run hold other (hsub.subset hother) hkey hsome
    · obtain rfl := List.mem_singleton.mp hnew
      rcases hlater other (hsub.subset hother) hkey with rfl | hlt
      · have hids := hbook.once
        rw [hsplit, List.map_append, List.map_cons, List.append_assoc, List.nodup_append,
          List.cons_append, List.nodup_cons] at hids
        rcases List.mem_append.mp hother with hbefore | hafter
        · exact absurd rfl (hids.2.2 _ (List.mem_map_of_mem hbefore) _ List.mem_cons_self)
        · exact absurd (List.mem_append_left _ (List.mem_map_of_mem hafter)) hids.2.1.1
      · exact hlt
  · exact fun other hother => h.numbered other (hsame other hother)
  · exact fun first second hfirst hsecond =>
      h.unique first second (hsame first hfirst) (hsame second hsecond)
  · intro other hother
    refine List.mem_append_left _ (h.known other ?_)
    rw [hpending, List.mem_append] at hother
    rcases hother with hwaits | hruns
    · exact List.mem_append_left _ (hsub.subset hwaits)
    · have hmap : other ∈ (queue.runs ++ [(⟨item, 1, .executing⟩ : Activation)]).map
          Activation.item := hruns
      rw [List.map_append, List.mem_append] at hmap
      rcases hmap with hold | hnew
      · exact List.mem_append_right _ hold
      · obtain rfl := List.mem_singleton.mp hnew
        exact List.mem_append_left _ hmem
  · refine h.inOrder.extend queue.nextItem (fun id attempt => hbook.started_lt) ?_ ?_
    · intro other hother
      cases List.mem_singleton.mp hother
    · intro id attempt hstarted first second hfirst hsecond hid hlt hkey hsome
      obtain ⟨rfl, rfl⟩ := Event.started.inj (List.mem_singleton.mp hstarted)
      obtain rfl := h.unique second item (hsame second hsecond) hknown hid
      refine h.settled_of_gone hbook (hsame first hfirst) ?_ ?_
      · intro hwaits
        rcases hlater first hwaits hkey.symm with rfl | hafter
        · exact lt_irrefl _ hlt
        · omega
      · intro hruns
        obtain ⟨run, hrun, rfl⟩ := List.mem_map.mp hruns
        obtain ⟨key, hrunKey⟩ := Option.ne_none_iff_exists'.mp hsome
        rw [hkey] at hrunKey
        refine isFree_iff.mp hfree key hrunKey ((hslots.active key).mpr ⟨run, hrun, ?_⟩)
        rw [hkey]
        exact hrunKey

theorem wake (hbook : queue.Book) (hslots : queue.Slots) {run : Activation}
    (hrun : run ∈ queue.runs) : (queue.woke run (.ok ())).Ordered := by
  have hitem : run.item ∈ queue.runs.map Activation.item := List.mem_map_of_mem hrun
  have hknown := h.known run.item (List.mem_append_right _ hitem)
  have hsame : ∀ other : QueueItem,
      .accepted other ∈ queue.log ++ [Event.started run.item.id (run.attempt + 1)] →
        .accepted other ∈ queue.log := by
    intro other hother
    simpa using hother
  have hitems : (queue.woke run (.ok ())).runs.map Activation.item =
      queue.runs.map Activation.item := setRun_items _ run (run.attempt + 1) .executing
  refine ⟨h.sorted, ?_, ?_, ?_, ?_, ?_⟩
  · intro other hother item hwaits hkey
    have hmem : other.item ∈ (queue.woke run (.ok ())).runs.map Activation.item :=
      List.mem_map_of_mem hother
    rw [hitems] at hmem
    obtain ⟨before, hbefore, hbeforeItem⟩ := List.mem_map.mp hmem
    rw [← hbeforeItem] at hkey ⊢
    exact h.behind before hbefore item hwaits hkey
  · exact fun other hother => h.numbered other (hsame other hother)
  · exact fun first second hfirst hsecond =>
      h.unique first second (hsame first hfirst) (hsame second hsecond)
  · intro other hother
    rw [hitems] at hother
    exact List.mem_append_left _ (h.known other hother)
  · refine h.inOrder.extend queue.nextItem (fun id attempt => hbook.started_lt) ?_ ?_
    · intro other hother
      cases List.mem_singleton.mp hother
    · intro id attempt hstarted first second hfirst hsecond hid hlt hkey hsome
      obtain ⟨rfl, rfl⟩ := Event.started.inj (List.mem_singleton.mp hstarted)
      obtain rfl := h.unique second run.item (hsame second hsecond) hknown hid
      refine h.settled_of_gone hbook (hsame first hfirst) ?_ ?_
      · intro hwaits
        have hbehind := h.behind run hrun first hwaits hkey.symm hsome
        omega
      · intro hruns
        obtain ⟨other, hother, rfl⟩ := List.mem_map.mp hruns
        have hne : other ≠ run := by
          rintro rfl
          exact lt_irrefl _ hlt
        obtain ⟨key, hrunKey⟩ := Option.ne_none_iff_exists'.mp hsome
        refine hslots.key_alone hrun ((List.mem_erase_of_ne hne).mpr hother) ?_ hrunKey
        rw [← hkey]
        exact hrunKey

omit h in
/-- **Every move keeps the order.** -/
theorem move (hmove : Move strict queue queue') (hbook : queue.Book) (hslots : queue.Slots)
    (h : queue.Ordered) : queue'.Ordered := by
  cases hmove with
  | accept => exact h.accept hbook _ _
  | start hfind _ => exact h.start hbook hslots hfind
  | @cancel item result _ =>
      exact h.quiet [.settled item.id result] hbook (by simp) (by simp) rfl rfl List.erase_sublist
        (List.Subset.refl _)
  | @fulfil run value _ _ _ =>
      exact h.quiet [.fulfilled run.item.id value] hbook (by simp) (by simp) rfl rfl
        (List.Sublist.refl _) (List.Subset.refl _)
  | @succeed run value _ _ =>
      refine h.quiet [.fulfilled run.item.id value, .settled run.item.id (.ok value)] hbook
        (by simp) (by simp) (List.append_assoc _ _ _) rfl (List.Sublist.refl _) ?_
      show (queue.setRun run run.attempt .ended).runs.map Activation.item ⊆ _
      rw [setRun_items]
      exact List.Subset.refl _
  | @finish run result _ _ =>
      refine h.quiet [.settled run.item.id result] hbook (by simp) (by simp) rfl rfl
        (List.Sublist.refl _) ?_
      show (queue.setRun run run.attempt .ended).runs.map Activation.item ⊆ _
      rw [setRun_items]
      exact List.Subset.refl _
  | @sleep run _ _ _ =>
      refine h.quiet [] hbook (by simp) (by simp) (List.append_nil _).symm rfl
        (List.Sublist.refl _) ?_
      rw [setRun_items queue run run.attempt .sleeping]
      exact List.Subset.refl _
  | wake hrun _ => exact h.wake hbook hslots hrun
  | remove _ _ =>
      refine h.quiet [] hbook (by simp) (by simp) (List.append_nil _).symm rfl
        (List.Sublist.refl _) ?_
      exact (List.erase_sublist.map _).subset

end Ordered

/-! ## The work that is left -/

/-- The actions that a `#run` has before it, with the `finally` after it. -/
def workOf (maxAttempts : ℕ) (run : Activation) : ℕ :=
  match run.phase with
  | .executing => 2 * (maxAttempts - run.attempt) + 2
  | .sleeping => 2 * (maxAttempts - run.attempt) + 1
  | .ended => 1

def work (queue : SubmissionQueue V E) : ℕ :=
  2 * queue.options.maxAttempts * queue.pending.length +
    (queue.runs.map (workOf queue.options.maxAttempts)).sum

theorem start_work {item : QueueItem} (hfind : queue.pending.find? queue.isFree = some item) :
    ((queue.dequeue item).run item).work = queue.work := by
  obtain ⟨before, after, hsplit, _, herase⟩ := find_split hfind
  have hpending : ((queue.dequeue item).run item).pending = before ++ after := herase
  have hpos := queue.options.maxAttempts_pos
  unfold work
  rw [hpending, hsplit]
  show 2 * queue.options.maxAttempts * (before ++ after).length +
    ((queue.runs ++ [(⟨item, 1, .executing⟩ : Activation)]).map
      (workOf queue.options.maxAttempts)).sum = _
  rw [List.map_append, List.sum_append, List.length_append, List.length_append, List.length_cons]
  show 2 * queue.options.maxAttempts * (before.length + after.length) +
    ((queue.runs.map (workOf queue.options.maxAttempts)).sum +
      (2 * (queue.options.maxAttempts - 1) + 2 + 0)) = _
  have hone : 2 * (queue.options.maxAttempts - 1) + 2 + 0 = 2 * queue.options.maxAttempts := by
    omega
  rw [hone]
  ring

theorem setRun_work (hbook : queue.Book) {run : Activation} (hrun : run ∈ queue.runs)
    {attempt : ℕ} {phase : Phase}
    (hless : workOf queue.options.maxAttempts ⟨run.item, attempt, phase⟩ + 1 ≤
      workOf queue.options.maxAttempts run) :
    (queue.setRun run attempt phase).work + 1 ≤ queue.work := by
  obtain ⟨before, after, hsplit, hset⟩ := setRun_split hbook.runs_once hrun attempt phase
  unfold work
  rw [hset, hsplit]
  show 2 * queue.options.maxAttempts * queue.pending.length + ((before ++ _ :: after).map
    (workOf queue.options.maxAttempts)).sum + 1 ≤ _
  rw [List.map_append, List.sum_append, List.map_cons, List.sum_cons, List.map_append,
    List.sum_append, List.map_cons, List.sum_cons]
  omega

theorem remove_work {run : Activation} (hrun : run ∈ queue.runs) (hended : run.phase = .ended) :
    (queue.remove run).work + 1 ≤ queue.work := by
  have hperm : queue.runs.Perm (run :: queue.runs.erase run) := List.perm_cons_erase hrun
  have hsum := (hperm.map (workOf queue.options.maxAttempts)).sum_eq
  have hone : workOf queue.options.maxAttempts run = 1 := by
    unfold workOf
    rw [hended]
  rw [List.map_cons, List.sum_cons, hone] at hsum
  unfold work
  show 2 * queue.options.maxAttempts * queue.pending.length +
    ((queue.runs.erase run).map (workOf queue.options.maxAttempts)).sum + 1 ≤ _
  omega

/-! ## What every queue keeps -/

structure Kept (queue : SubmissionQueue V E) : Prop where
  slots : queue.Slots
  book : queue.Book
  ordered : queue.Ordered

theorem Kept.moves (h : queue.Kept) (hmoves : Moves strict queue queue') : queue'.Kept :=
  hmoves.keeps (fun _ _ hmove hkept => ⟨hkept.slots.move hmove, hkept.book.move hmove,
    hkept.ordered.move hmove hkept.book hkept.slots⟩) h

theorem Kept.told (h : queue.Kept) (htold : Told queue queue') : queue'.Kept := by
  cases htold with
  | nobody => exact h
  | @told _ _ calls _ _ =>
      refine ⟨h.slots.congr rfl rfl rfl rfl, ?_, ?_⟩
      · refine h.book.log (fun id => ?_) (fun id => ?_) rfl rfl rfl rfl rfl
        · rw [List.countP_map]
          exact List.countP_eq_zero.mpr (fun _ _ => by simp [isSettled])
        · rw [List.countP_map]
          exact List.countP_eq_zero.mpr (fun _ _ => by simp [isStarted])
      · exact h.ordered.quiet (calls.map .drained) h.book (by simp) (by simp) rfl rfl
          (List.Sublist.refl _) (List.Subset.refl _)

theorem new_kept (options : SubmissionQueueOptions) : (new options : SubmissionQueue V E).Kept := by
  refine ⟨⟨rfl, Nat.zero_le _, ?_, List.nodup_nil⟩, ⟨List.nodup_nil, ?_, ?_, ?_, ?_, ?_, ?_⟩,
    ⟨List.Pairwise.nil, ?_, ?_, ?_, ?_, ?_⟩⟩
  · simp [new]
  · simp [new]
  · intro id
    rfl
  · intro id _
    rfl
  · simp [new]
  · simp [new]
  · intro id
    exact Nat.zero_le _
  · simp [new]
  · simp [new]
  · simp [new]
  · simp [new]
  · intro earlier id attempt hprefix
    simp [new] at hprefix

/-- No task waits that could run. -/
def Blocked (queue : SubmissionQueue V E) : Prop :=
  queue.running < queue.options.concurrency → ∀ item ∈ queue.pending, queue.isFree item = false

theorem Blocked.congr (h : queue.Blocked) (hoptions : queue'.options = queue.options)
    (hrunning : queue'.running = queue.running) (hactive : queue'.activeKeys = queue.activeKeys)
    (hpending : queue'.pending ⊆ queue.pending) : queue'.Blocked := by
  intro hslot item hitem
  rw [hrunning, hoptions] at hslot
  have hbusy := h hslot item (hpending hitem)
  unfold isFree at hbusy ⊢
  rw [hactive]
  exact hbusy

/-! ## Actions without exceptions -/

/-- `#schedule` starts tasks until none can run, and if one can, it starts one. -/
theorem scheduleLoop_spec {depth : List (Option E)} (hcalm : ∀ thrown ∈ depth, thrown = none)
    {turns : ℕ} (hturns : queue.pending.length ≤ turns) :
    ∃ queue', queue.scheduleLoop depth turns = (none, queue') ∧ Moves strict queue queue' ∧
      queue'.Blocked ∧ queue'.options = queue.options ∧
      queue'.pending.length ≤ queue.pending.length ∧
      (queue'.work = queue.work ∧ queue'.nextItem = queue.nextItem) ∧
      (queue.running < queue.options.concurrency → (∃ item ∈ queue.pending, queue.isFree item) →
        queue'.pending.length < queue.pending.length) := by
  induction turns generalizing queue depth with
  | zero =>
      have hnone : queue.pending = [] := List.length_eq_zero_iff.mp (Nat.le_zero.mp hturns)
      refine ⟨queue, rfl, Relation.ReflTransGen.refl, ?_, rfl, le_rfl, ⟨rfl, rfl⟩, ?_⟩
      · intro _ item hitem
        rw [hnone] at hitem
        cases hitem
      · rintro _ ⟨item, hitem, _⟩
        rw [hnone] at hitem
        cases hitem
  | succ turns ih =>
      rw [scheduleLoop]
      by_cases hslot : queue.running < queue.options.concurrency
      · rw [if_pos hslot]
        cases hfind : queue.pending.find? queue.isFree with
        | none =>
            have hbusy := List.find?_eq_none.mp hfind
            refine ⟨queue, rfl, Relation.ReflTransGen.refl, ?_, rfl, le_rfl, ⟨rfl, rfl⟩, ?_⟩
            · exact fun _ item hitem => by simpa using hbusy item hitem
            · rintro _ ⟨item, hitem, hfree⟩
              exact absurd hfree (hbusy item hitem)
        | some item =>
            have hnone : depth.head?.join = none := by
              cases depth with
              | nil => rfl
              | cons thrown rest =>
                  rw [hcalm thrown List.mem_cons_self]
                  rfl
            obtain ⟨before, after, hsplit, _, herase⟩ := find_split hfind
            have hpending : ((queue.dequeue item).run item).pending = before ++ after := herase
            have hlength : queue.pending.length = (before ++ after).length + 1 := by
              rw [hsplit, List.length_append, List.length_append, List.length_cons]
              omega
            have hstart : Move strict queue ((queue.dequeue item).run item) := .start hfind hslot
            have htail : ∀ thrown ∈ depth.tail, thrown = none :=
              fun thrown hthrown => hcalm thrown (List.mem_of_mem_tail hthrown)
            have hrest : ((queue.dequeue item).run item).pending.length ≤ turns := by
              rw [hpending]
              omega
            obtain ⟨last, hlast, hmoves, hblocked, hoptions, hle, hwork, _⟩ := ih htail hrest
            rw [hpending] at hle
            dsimp only
            rw [hnone]
            refine ⟨last, hlast, Relation.ReflTransGen.head hstart hmoves, hblocked, hoptions, ?_,
              ⟨hwork.1.trans (start_work hfind), hwork.2⟩, ?_⟩
            · omega
            · intro _ _
              omega
      · rw [if_neg hslot]
        exact ⟨queue, rfl, Relation.ReflTransGen.refl, fun h => absurd h hslot, rfl, le_rfl,
          ⟨rfl, rfl⟩, fun h => absurd h hslot⟩

/-- Between two actions -/
structure Idle (queue : SubmissionQueue V E) : Prop where
  blocked : queue.Blocked
  bounded : queue.pending.length ≤ queue.options.maxQueueSize

theorem Idle.congr (h : queue.Idle) (hoptions : queue'.options = queue.options)
    (hrunning : queue'.running = queue.running) (hactive : queue'.activeKeys = queue.activeKeys)
    (hpending : queue'.pending.Sublist queue.pending) : queue'.Idle := by
  refine ⟨h.blocked.congr hoptions hrunning hactive hpending.subset, ?_⟩
  rw [hoptions]
  exact hpending.length_le.trans h.bounded

theorem Idle.told (h : queue.Idle) (htold : Told queue queue') : queue'.Idle := by
  cases htold with
  | nobody => exact h
  | told _ => exact h.congr rfl rfl rfl (List.Sublist.refl _)

theorem Told.options (htold : Told queue queue') : queue'.options = queue.options := by
  cases htold with
  | nobody => rfl
  | told _ => rfl

theorem resolveDrain_told : Told queue queue.resolveDrain := by
  unfold resolveDrain
  split
  · exact .nobody
  · rename_i hnothing
    push Not at hnothing
    refine .told (fun _ => ⟨List.length_eq_zero_iff.mp (by omega), by omega⟩)

theorem drain_told (closed : Bool) : Told queue { queue with closed }.drain := by
  unfold drain
  split
  · rename_i hnothing
    have htold : Told queue { queue with
        closed, drainWaiters := queue.drainWaiters
        nextDrain := queue.nextDrain + 1
        log := queue.log ++ [queue.nextDrain].map .drained } :=
      .told (fun _ => ⟨List.length_eq_zero_iff.mp hnothing.1, hnothing.2⟩)
    exact htold
  · have htold : Told queue { queue with
        closed, drainWaiters := queue.drainWaiters ++ [queue.nextDrain]
        nextDrain := queue.nextDrain + 1
        log := queue.log ++ ([] : List ℕ).map .drained } := .told (fun h => absurd rfl h)
    rw [List.map_nil, List.append_nil] at htold
    exact htold

/-- Neither the classifier nor the counter throws. -/
def Returns (handling : Handling E) : Prop :=
  (∃ classification, handling.classification = .ok classification) ∧ handling.counter = none

/-- **The condition on an action**: the metrics sink and the classifier do not throw, and a sleep
is not rejected. -/
def Calm : QueueAction V E → Prop
  | .submit _ _ _ _ depth => ∀ thrown ∈ depth, thrown = none
  | .executed _ (.ok _) none _ => True
  | .executed _ _ _ handling => Returns handling
  | .woke _ answer => answer = .ok ()
  | .finalize _ depth => ∀ thrown ∈ depth, thrown = none
  | _ => True

/-- What an action does that takes so many steps off the work: its moves, and then `drain` calls are
told. -/
def Does (strict : Bool) (steps : ℕ) (queue queue' : SubmissionQueue V E) : Prop :=
  ∃ middle, Moves strict queue middle ∧ Told middle queue' ∧ queue'.Idle ∧
    queue'.options = queue.options ∧ queue.nextItem ≤ queue'.nextItem ∧
    queue'.work + steps ≤
      queue.work + 2 * queue.options.maxAttempts * (queue'.nextItem - queue.nextItem)

theorem Does.after {middle : SubmissionQueue V E} {steps more : ℕ}
    (h : Does strict steps middle queue') (hmove : Move strict queue middle)
    (hoptions : middle.options = queue.options) (hnext : middle.nextItem = queue.nextItem)
    (hwork : middle.work + more ≤ queue.work) :
    Does strict (steps + more) queue queue' := by
  obtain ⟨last, hmoves, htold, hidle, hsame, hle, hsteps⟩ := h
  rw [hnext] at hle
  rw [hnext, hoptions] at hsteps
  exact ⟨last, .head hmove hmoves, htold, hidle, hsame.trans hoptions, hle, by omega⟩

theorem does_told (h : queue.Idle) (htold : Told queue queue') : Does strict 0 queue queue' := by
  refine ⟨queue, .refl, htold, h.told htold, htold.options, ?_⟩
  cases htold with
  | nobody => exact ⟨le_rfl, by omega⟩
  | told _ => exact ⟨le_rfl, Nat.le_add_right _ _⟩

theorem does_nothing (h : queue.Idle) : Does strict 0 queue queue := does_told h .nobody

theorem head_none {depth : List (Option E)} (hcalm : ∀ thrown ∈ depth, thrown = none) :
    depth.head?.join = none := by
  cases depth with
  | nil => rfl
  | cons thrown rest =>
      rw [hcalm thrown List.mem_cons_self]
      rfl

theorem does_submit (h : queue.Idle) (orderingKey : Option String) (signal aborted : Bool)
    (clock : Option E) {depth : List (Option E)} (hcalm : ∀ thrown ∈ depth, thrown = none) :
    Does strict 0 queue (queue.submit orderingKey signal aborted clock depth).2 := by
  unfold submit
  dsimp only
  split
  · exact does_nothing h
  · split
    · exact does_nothing h
    · split
      · exact does_nothing h
      · rename_i hroom
        cases clock with
        | some error => exact does_nothing h
        | none =>
            let item : QueueItem := ⟨queue.nextItem, orderingKey, signal⟩
            let accepted : SubmissionQueue V E := { queue with
              pending := queue.pending ++ [item]
              nextItem := queue.nextItem + 1
              log := queue.log ++ [.accepted item] }
            have haccept : Move strict queue accepted := .accept
            have hlength : accepted.pending.length = queue.pending.length + 1 := by
              show (queue.pending ++ [item]).length = _
              rw [List.length_append, List.length_singleton]
            have htail : ∀ thrown ∈ depth.tail, thrown = none :=
              fun thrown hthrown => hcalm thrown (List.mem_of_mem_tail hthrown)
            have hturns : accepted.pending.length ≤ accepted.pending.length := le_rfl
            obtain ⟨last, hlast, hmoves, hblocked, hoptions, hle, ⟨hwork, hnext⟩, hless⟩ :=
              scheduleLoop_spec htail hturns
            dsimp only
            rw [head_none hcalm]
            have hschedule : SubmissionQueue.schedule { queue with
                pending := queue.pending ++ [item]
                nextItem := queue.nextItem + 1
                log := queue.log ++ [.accepted item] } depth.tail = (none, last) := by
              unfold schedule
              rw [hlast]
            rw [hschedule]
            have hnextItem : last.nextItem = queue.nextItem + 1 := hnext
            refine ⟨last, .head haccept hmoves, .nobody, ⟨hblocked, ?_⟩, hoptions, ?_, ?_⟩
            · rw [hoptions]
              show last.pending.length ≤ queue.options.maxQueueSize
              have hbounded := h.bounded
              by_cases hnow : queue.running < queue.options.concurrency ∧ queue.isFree item = true
              · have hstarted := hless hnow.1
                  ⟨item, List.mem_append_right _ List.mem_cons_self, hnow.2⟩
                omega
              · have hspace : queue.pending.length < queue.options.maxQueueSize := by
                  by_contra hfull
                  exact hroom ⟨hnow, by omega⟩
                omega
            · show queue.nextItem ≤ last.nextItem
              omega
            · show last.work + 0 ≤
                queue.work + 2 * queue.options.maxAttempts * (last.nextItem - queue.nextItem)
              have hone : last.nextItem - queue.nextItem = 1 := by omega
              rw [hwork, hone]
              unfold work
              rw [hlength]
              show 2 * queue.options.maxAttempts * (queue.pending.length + 1) + _ + 0 ≤ _
              refine le_of_eq ?_
              ring

theorem finish_idle (h : queue.Idle) (run : Activation) (result : Except (Rejection E) V) :
    (queue.finish run result).Idle :=
  h.congr rfl rfl rfl (List.Sublist.refl _)

theorem finish_work (hbook : queue.Book) {run : Activation} (hrun : run ∈ queue.runs)
    (hphase : run.phase = .executing) (result : Except (Rejection E) V) :
    (queue.finish run result).work + 1 ≤ queue.work := by
  have hset : (queue.setRun run run.attempt .ended).work + 1 ≤ queue.work := by
    refine setRun_work hbook hrun ?_
    unfold workOf
    rw [hphase]
    dsimp only
    omega
  exact hset

theorem does_handle (h : queue.Idle) (hbook : queue.Book) {run : Activation}
    (hrun : run ∈ queue.runs) (hphase : run.phase = .executing) (error : E) {handling : Handling E}
    (hreturns : Returns handling) : Does strict 1 queue (queue.handle run error handling) := by
  obtain ⟨⟨classification, hclassification⟩, hcounter⟩ := hreturns
  have hfinish : Does strict (0 + 1) queue (queue.finish run (.error (.thrown error))) :=
    (does_nothing (finish_idle h run _)).after (.finish hrun hphase) rfl rfl
      (finish_work hbook hrun hphase _)
  unfold handle
  rw [hclassification, hcounter]
  dsimp only
  split
  · exact hfinish
  · split
    · exact hfinish
    · rename_i hretry
      push Not at hretry
      have hslept : (queue.setRun run run.attempt .sleeping).Idle :=
        h.congr rfl rfl rfl (List.Sublist.refl _)
      have hwork : (queue.setRun run run.attempt .sleeping).work + 1 ≤ queue.work := by
        refine setRun_work hbook hrun ?_
        unfold workOf
        rw [hphase]
      exact (does_nothing hslept).after (.sleep hrun hphase hretry.2) rfl rfl hwork

/-- **The steps that a `#run` takes.** -/
def steps : QueueAction V E → ℕ
  | .executed _ _ _ _ | .woke _ _ | .finalize _ _ => 1
  | _ => 0

/-- The clock and the histogram throw after a fulfilled execution. -/
def Disturbed : QueueAction V E → Prop
  | .executed _ (.ok _) telemetry _ => telemetry ≠ none
  | _ => False

/-- **An action without exceptions.** -/
theorem does_after (h : queue.Idle) (hbook : queue.Book) {action : QueueAction V E}
    (hstep : QueueStep queue action queue') (hcalm : Calm action)
    (hstrict : Disturbed action → strict = false) : Does strict (steps action) queue queue' := by
  cases action with
  | submit orderingKey signal aborted clock depth =>
      obtain rfl := Option.some.inj hstep
      exact does_submit h orderingKey signal aborted clock hcalm
  | drain =>
      obtain rfl := Option.some.inj hstep
      exact does_told h (drain_told queue.closed)
  | close =>
      obtain rfl := Option.some.inj hstep
      exact does_told h (drain_told true)
  | abort item depth =>
      obtain rfl := Option.some.inj hstep
      unfold abort
      split
      · rename_i hlistens
        let cancelled : SubmissionQueue V E := { queue with
          pending := queue.pending.erase item }.settle item.id (.error (.queue .ABORTED))
        have hcancel : Move strict queue cancelled := .cancel hlistens.1
        have hidle : cancelled.Idle := h.congr rfl rfl rfl List.erase_sublist
        have hwork : cancelled.work + 0 ≤ queue.work := by
          refine Nat.add_le_add_right (Nat.mul_le_mul_left _ ?_) _
          exact List.erase_sublist.length_le
        cases depth with
        | some error => exact (does_nothing hidle).after hcancel rfl rfl hwork
        | none => exact (does_told hidle resolveDrain_told).after hcancel rfl rfl hwork
      · exact does_nothing h
  | executed run result telemetry handling =>
      obtain ⟨⟨hrun, hphase⟩, hsome⟩ := Option.ite_none_right_eq_some.mp hstep
      obtain rfl := Option.some.inj hsome
      cases result with
      | error error => exact does_handle h hbook hrun hphase error hcalm
      | ok value =>
          let fulfilled : SubmissionQueue V E := { queue with
            log := queue.log ++ [.fulfilled run.item.id value] }
          have hidle : fulfilled.Idle := h.congr rfl rfl rfl (List.Sublist.refl _)
          have hbook' : fulfilled.Book :=
            hbook.log (fun _ => rfl) (fun _ => rfl) rfl rfl rfl rfl rfl
          have hwork : fulfilled.work + 0 ≤ queue.work := le_rfl
          cases telemetry with
          | some error =>
              have hloose := hstrict (fun hnone => nomatch hnone)
              have hfulfil : Move strict queue fulfilled := .fulfil hloose hrun hphase
              have hhandle : Does strict 1 fulfilled (fulfilled.handle run error handling) :=
                does_handle hidle hbook' hrun hphase error hcalm
              exact hhandle.after hfulfil rfl rfl hwork
          | none =>
              have hsucceed : Move strict queue (fulfilled.finish run (.ok value)) :=
                .succeed hrun hphase
              exact (does_nothing (finish_idle hidle run (.ok value))).after hsucceed rfl rfl
                (finish_work hbook' hrun hphase _)
  | woke run answer =>
      obtain ⟨⟨hrun, hphase⟩, hsome⟩ := Option.ite_none_right_eq_some.mp hstep
      obtain rfl := Option.some.inj hsome
      obtain rfl : answer = .ok () := hcalm
      have hidle : (queue.woke run (.ok ())).Idle := h.congr rfl rfl rfl (List.Sublist.refl _)
      have hattempt := (hbook.underway run hrun).2 hphase
      have hwork : (queue.setRun run (run.attempt + 1) .executing).work + 1 ≤ queue.work := by
        refine setRun_work hbook hrun ?_
        unfold workOf
        rw [hphase]
        dsimp only
        omega
      exact (does_nothing hidle).after (.wake hrun hphase) rfl rfl hwork
  | finalize run depth =>
      obtain ⟨⟨hrun, hphase⟩, hsome⟩ := Option.ite_none_right_eq_some.mp hstep
      obtain rfl := Option.some.inj hsome
      have hremove : Move strict queue (queue.remove run) := .remove hrun hphase
      have hturns : (queue.remove run).pending.length ≤ (queue.remove run).pending.length := le_rfl
      obtain ⟨last, hlast, hmoves, hblocked, hoptions, hle, ⟨hwork, hnext⟩, _⟩ :=
        scheduleLoop_spec hcalm hturns
      have hidle : last.Idle := by
        refine ⟨hblocked, ?_⟩
        rw [hoptions]
        exact hle.trans h.bounded
      unfold finalize schedule
      rw [hlast]
      have hscheduled : Does strict 0 (queue.remove run) last.resolveDrain := by
        have htold : Does strict 0 last last.resolveDrain := does_told hidle resolveDrain_told
        obtain ⟨_, _, _, hidle', hsame, hle', hwork'⟩ := htold
        refine ⟨last, hmoves, resolveDrain_told, hidle', hsame.trans hoptions, ?_, ?_⟩
        · rw [← hnext]
          exact hle'
        · rw [hoptions, hwork, hnext] at hwork'
          exact hwork'
      exact hscheduled.after hremove rfl rfl (remove_work hrun hphase)

/-- No move tells a `drain` call. -/
theorem Moves.drained (hmoves : Moves strict queue queue') {call : ℕ}
    (hcall : .drained call ∈ queue'.log) : .drained call ∈ queue.log := by
  revert hcall
  refine hmoves.keeps (P := fun last => .drained call ∈ last.log → .drained call ∈ queue.log) ?_
    (fun hcall => hcall)
  intro before next hmove hbefore hcall
  refine hbefore ?_
  cases hmove with
  | accept => simpa using hcall
  | start _ _ =>
      have hmem : Event.drained call ∈ before.log ++ [_] := hcall
      simpa using hmem
  | cancel _ =>
      have hmem : Event.drained call ∈ before.log ++ [_] := hcall
      simpa using hmem
  | fulfil _ _ _ => simpa using hcall
  | succeed _ _ =>
      have hmem : Event.drained call ∈ (before.log ++ [_]) ++ [_] := hcall
      simpa using hmem
  | finish _ _ =>
      have hmem : Event.drained call ∈ before.log ++ [_] := hcall
      simpa using hmem
  | sleep _ _ _ => exact hcall
  | wake _ _ =>
      have hmem : Event.drained call ∈ before.log ++ [_] := hcall
      simpa using hmem
  | remove _ _ => exact hcall

theorem Does.drained {steps : ℕ} (h : Does strict steps queue queue') (hkept : queue'.Kept)
    {call : ℕ} (hcall : .drained call ∈ queue'.log) :
    .drained call ∈ queue.log ∨ (queue'.pending = [] ∧ queue'.runs = []) := by
  obtain ⟨middle, hmoves, htold, _⟩ := h
  cases htold with
  | nobody => exact Or.inl (hmoves.drained hcall)
  | @told _ _ calls _ hnothing =>
      rcases List.mem_append.mp hcall with hold | hnew
      · exact Or.inl (hmoves.drained hold)
      · right
        have hsome : calls ≠ [] := by
          rintro rfl
          cases hnew
        obtain ⟨hpending, hrunning⟩ := hnothing hsome
        have hcounted : middle.running = middle.runs.length := hkept.slots.counted
        exact ⟨hpending, List.length_eq_zero_iff.mp (hcounted.symm.trans hrunning)⟩

theorem new_idle (options : SubmissionQueueOptions) : (new options : SubmissionQueue V E).Idle := by
  refine ⟨fun _ item hitem => ?_, Nat.zero_le _⟩
  cases hitem

end SubmissionQueue

/-! ## Runs -/

open SubmissionQueue

/-- **The discipline of a queue**, after a history. -/
structure Disciplined (options : SubmissionQueueOptions)
    (tr : List (Transition (SubmissionQueue V E) (QueueAction V E)))
    (queue : SubmissionQueue V E) : Prop where
  concurrency : queue.runs.length ≤ options.concurrency
  /-- no two tasks with one key are in slots at once -/
  no_overlap : (queue.runs.filterMap fun run => run.item.key).Nodup
  in_order : InOrder queue.log
  bounded : queue.pending.length ≤ options.maxQueueSize
  /-- with a free slot, every waiting task has the key of a task in a slot -/
  blocked : queue.runs.length < options.concurrency → ∀ item ∈ queue.pending,
    ∃ key, item.key = some key ∧ ∃ run ∈ queue.runs, run.item.key = some key
  /-- an accepted task was settled once, or it waits or is under way -/
  settles : ∀ item, .accepted item ∈ queue.log →
    queue.settlements item.id + queue.unsettled item.id = 1
  attempts : ∀ id, queue.executions id ≤ options.maxAttempts
  /-- while a task waits or is under way, a `#run` is under way, and all of them together take a
  bounded number of steps -/
  not_stuck : ∀ id, queue.unsettled id ≠ 0 → queue.runs ≠ []
  progress : (tr.map fun x => steps x.act).sum ≤ 2 * options.maxAttempts * queue.nextItem
  /-- a `drain` call is only told where nothing waits or is under way -/
  drains : ∀ x ∈ tr, ∀ call, .drained call ∈ x.post.log →
    .drained call ∈ x.pre.log ∨ (x.post.pending = [] ∧ x.post.runs = [])

/-- What holds between the actions is what the discipline needs. -/
theorem disciplined_of_kept {options : SubmissionQueueOptions} {queue : SubmissionQueue V E}
    {tr : List (Transition (SubmissionQueue V E) (QueueAction V E))}
    (hoptions : queue.options = options) (hkept : queue.Kept) (hidle : queue.Idle)
    (hwork : (tr.map fun x => steps x.act).sum + queue.work ≤
      2 * options.maxAttempts * queue.nextItem)
    (hdrains : ∀ x ∈ tr, ∀ call, .drained call ∈ x.post.log →
      .drained call ∈ x.pre.log ∨ (x.post.pending = [] ∧ x.post.runs = [])) :
    Disciplined options tr queue := by
  subst hoptions
  have hlimited := hkept.slots.limited
  have hcounted := hkept.slots.counted
  have hblocked : queue.runs.length < queue.options.concurrency → ∀ item ∈ queue.pending,
      ∃ key, item.key = some key ∧ ∃ run ∈ queue.runs, run.item.key = some key := by
    intro hslot item hitem
    have hbusy := hidle.blocked (by omega) item hitem
    have hnot : ¬ queue.isFree item = true := by simp [hbusy]
    rw [isFree_iff] at hnot
    push Not at hnot
    obtain ⟨key, hkey, hactive⟩ := hnot
    exact ⟨key, hkey, (hkept.slots.active key).mp hactive⟩
  refine ⟨by omega, hkept.slots.alone, hkept.ordered.inOrder, hidle.bounded, hblocked, ?_,
    hkept.book.attempts, ?_, by omega, hdrains⟩
  · intro item haccepted
    rw [hkept.book.accounted item.id, if_pos (hkept.ordered.numbered item haccepted)]
  · intro id hopen hnone
    have hwaits : queue.pending ≠ [] := by
      rintro hpending
      refine hopen ?_
      unfold unsettled
      rw [hpending, hnone]
      rfl
    obtain ⟨item, hitem⟩ := List.exists_mem_of_ne_nil _ hwaits
    have hslot : queue.runs.length < queue.options.concurrency := by
      rw [hnone]
      exact queue.options.concurrency_pos
    obtain ⟨_, _, run, hrun, _⟩ := hblocked hslot item hitem
    rw [hnone] at hrun
    cases hrun

/-- What a run without exceptions keeps. -/
theorem calm_run {options : SubmissionQueueOptions} {queue : SubmissionQueue V E}
    {tr : List (Transition (SubmissionQueue V E) (QueueAction V E))}
    (hrun : Run QueueStep (SubmissionQueue.new options) tr queue) (hcalm : ∀ x ∈ tr, Calm x.act) :
    (queue.options = options ∧ queue.Kept ∧ queue.Idle) ∧
      (tr.map fun x => steps x.act).sum + queue.work ≤
        2 * options.maxAttempts * queue.nextItem ∧
      ∀ x ∈ tr, ∀ call, .drained call ∈ x.post.log →
        .drained call ∈ x.pre.log ∨ (x.post.pending = [] ∧ x.post.runs = []) := by
  refine hrun.history_of (C := fun x => Calm x.act)
    (P := fun tr queue => (queue.options = options ∧ queue.Kept ∧ queue.Idle) ∧
      (tr.map fun x => steps x.act).sum + queue.work ≤
        2 * options.maxAttempts * queue.nextItem ∧
      ∀ x ∈ tr, ∀ call, .drained call ∈ x.post.log →
        .drained call ∈ x.pre.log ∨ (x.post.pending = [] ∧ x.post.runs = [])) hcalm ?_ ?_
  · refine ⟨⟨rfl, new_kept options, new_idle options⟩, ?_, by simp⟩
    simp [SubmissionQueue.new, work]
  · rintro before queue action next _ ⟨⟨hoptions, hkept, hidle⟩, hwork, hdrains⟩ hstep hmeets
    have hdoes : Does false (steps action) queue next :=
      does_after hidle hkept.book hstep hmeets (fun _ => rfl)
    obtain ⟨middle, hmoves, htold, hidle', hsame, hle, hsteps⟩ := id hdoes
    have hkept' := (hkept.moves hmoves).told htold
    refine ⟨⟨hsame.trans hoptions, hkept', hidle'⟩, ?_, ?_⟩
    · rw [List.map_append, List.sum_append, List.map_singleton, List.sum_singleton]
      rw [hoptions] at hsteps
      have hsplit : 2 * options.maxAttempts * next.nextItem =
          2 * options.maxAttempts * queue.nextItem +
            2 * options.maxAttempts * (next.nextItem - queue.nextItem) := by
        rw [← Nat.mul_add, Nat.add_sub_cancel' hle]
      show _ + steps action + _ ≤ _
      omega
    · rw [List.forall_mem_append, List.forall_mem_singleton]
      exact ⟨hdrains, fun call hcall => hdoes.drained hkept' hcall⟩

/-- **The queue keeps its discipline** in every run without exceptions of the metrics sink, the
classifier or a sleep. -/
theorem queue_discipline {options : SubmissionQueueOptions} {queue : SubmissionQueue V E}
    {tr : List (Transition (SubmissionQueue V E) (QueueAction V E))}
    (hrun : Run QueueStep (SubmissionQueue.new options) tr queue) (hcalm : ∀ x ∈ tr, Calm x.act) :
    Disciplined options tr queue := by
  obtain ⟨⟨hoptions, hkept, hidle⟩, hwork, hdrains⟩ := calm_run hrun hcalm
  exact disciplined_of_kept hoptions hkept hidle hwork hdrains

def sampleOptions : SubmissionQueueOptions where
  concurrency := 2
  maxQueueSize := 1
  maxAttempts := 2
  concurrency_pos := by decide
  maxAttempts_pos := by decide

/-- A call of the classifier that says when the network may be tried again. -/
def answering (classification : RetryClassification) : Handling String where
  classification := .ok classification
  counter := none

/-- Two tasks with one key: the first is executed twice, and the second waits for it. -/
def twoTasks : List (QueueAction ℕ String) :=
  let first : QueueItem := ⟨0, some "account", false⟩
  let second : QueueItem := ⟨1, some "account", false⟩
  [.submit (some "account") false false none [], .submit (some "account") false false none [],
    .drain,
    .executed ⟨first, 1, .executing⟩ (.error "429") none (answering .retryable),
    .woke ⟨first, 1, .sleeping⟩ (.ok ()),
    .executed ⟨first, 2, .executing⟩ (.ok 7) none (answering .permanent),
    .finalize ⟨first, 2, .ended⟩ [],
    .executed ⟨second, 1, .executing⟩ (.ok 8) none (answering .permanent),
    .finalize ⟨second, 1, .ended⟩ []]

/-- The discipline of two tasks with one key -/
theorem queue_discipline_two : ∃ tr, ∃ queue : SubmissionQueue ℕ String,
    Run QueueStep (SubmissionQueue.new sampleOptions) tr queue ∧
      (queue.executions 0 = 2 ∧ queue.executions 1 = 1 ∧ queue.settlements 0 = 1 ∧
        queue.settlements 1 = 1 ∧ queue.nextDrain = 1 ∧ queue.drainWaiters = []) ∧
      Disciplined sampleOptions tr queue := by
  have hvalues : (walk after (SubmissionQueue.new sampleOptions) twoTasks).map (fun result =>
      decide (result.2.executions 0 = 2 ∧ result.2.executions 1 = 1 ∧
        result.2.settlements 0 = 1 ∧ result.2.settlements 1 = 1 ∧ result.2.nextDrain = 1 ∧
        result.2.drainWaiters = [])) = some true := by decide +kernel
  obtain ⟨⟨tr, queue⟩, hwalk, hdecided⟩ := Option.map_eq_some_iff.mp hvalues
  have hrun : Run QueueStep (SubmissionQueue.new sampleOptions) tr queue := walk_run hwalk
  have hcalm : ∀ x ∈ tr, Calm x.act := by
    have hall : ∀ action ∈ twoTasks, Calm action := by simp [twoTasks, Calm, Returns, answering]
    intro x hx
    refine hall x.act ?_
    rw [← walk_acts hwalk]
    exact List.mem_map_of_mem hx
  exact ⟨tr, queue, hrun, of_decide_eq_true hdecided, queue_discipline hrun hcalm⟩

end StellarAgent.Fleet.Submission
