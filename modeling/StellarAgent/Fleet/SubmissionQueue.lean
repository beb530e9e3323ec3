import StellarAgent.Lib.Runs

set_option autoImplicit false

/-! # The submission queue

`packages/core/src/fleet/submissionQueue.ts`. A queue is what a `SubmissionQueue` keeps between two
stretches of code without an `await`, with the calls of `#run` that are suspended. Each action runs
one stretch: a call of a public method, a signal that fires, the promise of a task or of a sleep
that is settled, or the `finally` after a `#run`.

The metrics sink, the clock and the classifier are code of the caller, and so an action says what
each of their calls does in it: `none` where a call returns, and the error where it throws. Values
and errors of the tasks are arbitrary.

A task is an `async` function that does not call its queue before its first `await`. Left out are
`stats`, what is measured, and how long a retry sleeps.
-/

namespace StellarAgent.Fleet.Submission

/-! ## Classification -/

inductive RetryClassification where
  | retryable
  | expired
  | permanent
  deriving DecidableEq

/-- A piece of a pattern: a letter in either case, or any character that may also be missing
(`.?`). -/
inductive Piece where
  | letter (c : Char)
  | gap
  deriving DecidableEq

def isLineTerminator (c : Char) : Bool :=
  c = '\n' || c = '\r' || c = '\u2028' || c = '\u2029'

/-- The pattern matches at the beginning of the text. -/
def matchesHere : List Piece → List Char → Bool
  | [], _ => true
  | .letter _ :: _, [] => false
  | .letter c :: pieces, first :: text => first.toLower == c.toLower && matchesHere pieces text
  | .gap :: pieces, [] => matchesHere pieces []
  | .gap :: pieces, first :: text =>
      (!isLineTerminator first && matchesHere pieces text) || matchesHere pieces (first :: text)

/-- The pattern matches somewhere in the text. -/
def matchesIn (pieces : List Piece) (text : List Char) : Bool :=
  text.tails.any (matchesHere pieces)

/-- A pattern with a question mark for each `.?`. -/
def pattern (text : String) : List Piece :=
  text.toList.map fun c => if c = '?' then .gap else .letter c

def expiredPatterns : List String :=
  ["expired", "tx_too_late", "time?bound", "TRANSACTION_TIMEOUT"]

def retryablePatterns : List String :=
  ["TRY_AGAIN_LATER", "429", "rate?limit", "timeout", "timed out", "ECONNRESET", "ECONNREFUSED",
    "ENETUNREACH", "bad?seq", "tx_bad_seq", "NETWORK_ERROR"]

/-- `classifySubmissionError`, for the code and the message of an error as strings -/
def classifySubmissionError (code message : String) : RetryClassification :=
  let text := (code ++ " " ++ message).toList
  if expiredPatterns.any fun name => matchesIn (pattern name) text then .expired
  else if retryablePatterns.any fun name => matchesIn (pattern name) text then .retryable
  else .permanent

example : classifySubmissionError "" "Rate-limit reached" = .retryable := by decide +kernel

/-! ## Data -/

/-- The options, within the bounds that the constructor checks. -/
structure SubmissionQueueOptions where
  concurrency : ℕ
  maxQueueSize : ℕ
  maxAttempts : ℕ
  concurrency_pos : 1 ≤ concurrency
  maxAttempts_pos : 1 ≤ maxAttempts

/-- The checks of the constructor; nothing if it throws. -/
def SubmissionQueueOptions.new (concurrency maxQueueSize maxAttempts : Option ℤ) :
    Option SubmissionQueueOptions :=
  let concurrency := concurrency.getD 4
  let maxQueueSize := maxQueueSize.getD 1000
  let maxAttempts := maxAttempts.getD 3
  if hconcurrency : concurrency < 1 then none
  else if maxQueueSize < 0 then none
  else if hattempts : maxAttempts < 1 then none
  else some {
    concurrency := concurrency.toNat
    maxQueueSize := maxQueueSize.toNat
    maxAttempts := maxAttempts.toNat
    concurrency_pos := by omega
    maxAttempts_pos := by omega }

inductive SubmissionQueueErrorCode where
  | QUEUE_FULL
  | QUEUE_CLOSED
  | ABORTED
  deriving DecidableEq

/-- With what a promise is rejected: an error of the queue, or one that was thrown. -/
inductive Rejection (E : Type) where
  | queue (code : SubmissionQueueErrorCode)
  | thrown (error : E)
  deriving DecidableEq

/-- A submitted task, by its number, and whether it listens to a signal. -/
structure QueueItem where
  id : ℕ
  orderingKey : Option String
  signal : Bool
  deriving DecidableEq

/-- An empty `orderingKey` is none. -/
def QueueItem.key (item : QueueItem) : Option String :=
  if item.orderingKey = some "" then none else item.orderingKey

/-- Where a `#run` is. -/
inductive Phase where
  /-- at `item.task(attempt)` -/
  | executing
  /-- at `#sleep` -/
  | sleeping
  /-- settled, before its `finally` -/
  | ended
  deriving DecidableEq

/-- A call of `#run`. -/
structure Activation where
  item : QueueItem
  attempt : ℕ
  phase : Phase
  deriving DecidableEq

inductive Event (V E : Type) where
  /-- the task is put into the queue -/
  | accepted (item : QueueItem)
  /-- the task is executed -/
  | started (item attempt : ℕ)
  /-- an execution of the task is fulfilled -/
  | fulfilled (item : ℕ) (value : V)
  /-- the promise of the task is resolved or rejected -/
  | settled (item : ℕ) (result : Except (Rejection E) V)
  /-- a call of `drain` is resolved -/
  | drained (call : ℕ)
  deriving DecidableEq

structure SubmissionQueue (V E : Type) where
  options : SubmissionQueueOptions
  pending : List QueueItem
  activeKeys : Finset String
  drainWaiters : List ℕ
  running : ℕ
  closed : Bool
  runs : List Activation
  nextItem : ℕ
  nextDrain : ℕ
  log : List (Event V E)

/-- What the caller's code does when an execution has failed: the answer of the classifier, and the
error that the counter throws. -/
structure Handling (E : Type) where
  classification : Except E RetryClassification
  counter : Option E

namespace SubmissionQueue

variable {V E : Type}

/-- The constructor -/
def new (options : SubmissionQueueOptions) : SubmissionQueue V E where
  options := options
  pending := []
  activeKeys := ∅
  drainWaiters := []
  running := 0
  closed := false
  runs := []
  nextItem := 0
  nextDrain := 0
  log := []

/-! ## Scheduling -/

/-- The key of the item is not active. -/
def isFree (queue : SubmissionQueue V E) (item : QueueItem) : Bool :=
  match item.key with
  | none => true
  | some key => decide (key ∉ queue.activeKeys)

def settle (queue : SubmissionQueue V E) (item : ℕ) (result : Except (Rejection E) V) :
    SubmissionQueue V E :=
  { queue with log := queue.log ++ [.settled item result] }

/-- The first free item leaves the queue and takes a slot. -/
def dequeue (queue : SubmissionQueue V E) (item : QueueItem) : SubmissionQueue V E :=
  { queue with
    pending := queue.pending.eraseP queue.isFree
    activeKeys := queue.activeKeys ∪ item.key.toFinset
    running := queue.running + 1 }

/-- `#run`, up to its first `await` -/
def run (queue : SubmissionQueue V E) (item : QueueItem) : SubmissionQueue V E :=
  { queue with
    runs := queue.runs ++ [⟨item, 1, .executing⟩]
    log := queue.log ++ [.started item.id 1] }

/-- `#schedule`, with what the calls of `#recordDepth` throw, and the error that it throws itself.
Each turn takes an item off the queue, so there are no more turns than items. -/
def scheduleLoop (queue : SubmissionQueue V E) (depth : List (Option E)) :
    ℕ → Option E × SubmissionQueue V E
  | 0 => (none, queue)
  | turns + 1 =>
      if queue.running < queue.options.concurrency then
        match queue.pending.find? queue.isFree with
        | none => (none, queue)
        | some item =>
            match depth.head?.join with
            | some error => (some error, queue.dequeue item)
            | none => ((queue.dequeue item).run item).scheduleLoop depth.tail turns
      else (none, queue)

def schedule (queue : SubmissionQueue V E) (depth : List (Option E)) :
    Option E × SubmissionQueue V E :=
  queue.scheduleLoop depth queue.pending.length

/-- `#resolveDrain` -/
def resolveDrain (queue : SubmissionQueue V E) : SubmissionQueue V E :=
  if queue.pending.length > 0 ∨ queue.running > 0 then queue
  else { queue with
    drainWaiters := []
    log := queue.log ++ queue.drainWaiters.map .drained }

/-! ## Public methods -/

/-- What `submit` gives: a promise that is rejected at once, or the promise of an accepted item. -/
inductive SubmitAnswer (E : Type) where
  | rejected (rejection : Rejection E)
  | accepted (item : ℕ)

def submit (queue : SubmissionQueue V E) (orderingKey : Option String) (signal aborted : Bool)
    (clock : Option E) (depth : List (Option E)) : SubmitAnswer E × SubmissionQueue V E :=
  let item : QueueItem := { id := queue.nextItem, orderingKey, signal }
  if queue.closed then (.rejected (.queue .QUEUE_CLOSED), queue)
  else if signal ∧ aborted then (.rejected (.queue .ABORTED), queue)
  else if ¬ (queue.running < queue.options.concurrency ∧ queue.isFree item) ∧
      queue.pending.length ≥ queue.options.maxQueueSize then
    (.rejected (.queue .QUEUE_FULL), queue)
  else
    match clock with
    | some error => (.rejected (.thrown error), queue)
    | none =>
        let queue := { queue with
          pending := queue.pending ++ [item]
          nextItem := queue.nextItem + 1
          log := queue.log ++ [Event.accepted item] }
        match depth.head?.join with
        | some error => (.accepted item.id, queue.settle item.id (.error (.thrown error)))
        | none =>
            match queue.schedule depth.tail with
            | (some error, queue) =>
                (.accepted item.id, queue.settle item.id (.error (.thrown error)))
            | (none, queue) => (.accepted item.id, queue)

/-- `drain`, up to its `await` -/
def drain (queue : SubmissionQueue V E) : SubmissionQueue V E :=
  if queue.pending.length = 0 ∧ queue.running = 0 then
    { queue with
      nextDrain := queue.nextDrain + 1
      log := queue.log ++ [.drained queue.nextDrain] }
  else
    { queue with
      nextDrain := queue.nextDrain + 1
      drainWaiters := queue.drainWaiters ++ [queue.nextDrain] }

/-- `close`, up to its `await` -/
def close (queue : SubmissionQueue V E) : SubmissionQueue V E :=
  { queue with closed := true }.drain

/-! ## Callbacks -/

/-- `onAbort` of an item; a started one no longer listens. -/
def abort (queue : SubmissionQueue V E) (item : QueueItem) (depth : Option E) :
    SubmissionQueue V E :=
  if item ∈ queue.pending ∧ item.signal then
    let queue :=
      { queue with pending := queue.pending.erase item }.settle item.id (.error (.queue .ABORTED))
    match depth with
    | some _ => queue
    | none => queue.resolveDrain
  else queue

/-- A `#run` is now in another phase. -/
def setRun (queue : SubmissionQueue V E) (run : Activation) (attempt : ℕ) (phase : Phase) :
    SubmissionQueue V E :=
  { queue with
    runs := queue.runs.map fun other => if other = run then ⟨run.item, attempt, phase⟩ else other }

/-- `item.resolve` or `item.reject`, and the end of `#run` -/
def finish (queue : SubmissionQueue V E) (run : Activation) (result : Except (Rejection E) V) :
    SubmissionQueue V E :=
  (queue.settle run.item.id result).setRun run run.attempt .ended

/-- The `catch` of `#run`. What is thrown in it ends `#run`, and the promise of the item is left as it
is. -/
def handle (queue : SubmissionQueue V E) (run : Activation) (error : E) (handling : Handling E) :
    SubmissionQueue V E :=
  match handling.classification with
  | .error _ => queue.setRun run run.attempt .ended
  | .ok classification =>
      if classification = .expired then
        match handling.counter with
        | some _ => queue.setRun run run.attempt .ended
        | none => queue.finish run (.error (.thrown error))
      else if classification ≠ .retryable ∨ run.attempt ≥ queue.options.maxAttempts then
        queue.finish run (.error (.thrown error))
      else
        match handling.counter with
        | some _ => queue.setRun run run.attempt .ended
        | none => queue.setRun run run.attempt .sleeping

/-- `#run` after `item.task(attempt)`, with what the clock and the histogram throw -/
def executed (queue : SubmissionQueue V E) (run : Activation) (result : Except E V)
    (telemetry : Option E) (handling : Handling E) : SubmissionQueue V E :=
  match result with
  | .error error => queue.handle run error handling
  | .ok value =>
      let queue := { queue with log := queue.log ++ [Event.fulfilled run.item.id value] }
      match telemetry with
      | some error => queue.handle run error handling
      | none => queue.finish run (.ok value)

/-- `#run` after `#sleep` -/
def woke (queue : SubmissionQueue V E) (run : Activation) (answer : Except E Unit) :
    SubmissionQueue V E :=
  match answer with
  | .error _ => queue.setRun run run.attempt .ended
  | .ok () =>
      { queue with log := queue.log ++ [Event.started run.item.id (run.attempt + 1)] }.setRun run
        (run.attempt + 1) .executing

/-- The slot and the key of a `#run` are released. -/
def remove (queue : SubmissionQueue V E) (run : Activation) : SubmissionQueue V E :=
  { queue with
    runs := queue.runs.erase run
    running := queue.running - 1
    activeKeys := queue.activeKeys \ run.item.key.toFinset }

/-- The `finally` after `#run` -/
def finalize (queue : SubmissionQueue V E) (run : Activation) (depth : List (Option E)) :
    SubmissionQueue V E :=
  match (queue.remove run).schedule depth with
  | (some _, queue) => queue
  | (none, queue) => queue.resolveDrain

end SubmissionQueue

/-! ## Runs -/

inductive QueueAction (V E : Type) where
  | submit (orderingKey : Option String) (signal aborted : Bool) (clock : Option E)
      (depth : List (Option E))
  | drain
  | close
  | abort (item : QueueItem) (depth : Option E)
  | executed (run : Activation) (result : Except E V) (telemetry : Option E)
      (handling : Handling E)
  | woke (run : Activation) (answer : Except E Unit)
  | finalize (run : Activation) (depth : List (Option E))

/-- The queue after an action; nothing if the action is not possible. -/
def SubmissionQueue.after {V E : Type} (queue : SubmissionQueue V E) :
    QueueAction V E → Option (SubmissionQueue V E)
  | .submit orderingKey signal aborted clock depth =>
      some (queue.submit orderingKey signal aborted clock depth).2
  | .drain => some queue.drain
  | .close => some queue.close
  | .abort item depth => some (queue.abort item depth)
  | .executed run result telemetry handling =>
      if run ∈ queue.runs ∧ run.phase = .executing then
        some (queue.executed run result telemetry handling)
      else none
  | .woke run answer =>
      if run ∈ queue.runs ∧ run.phase = .sleeping then some (queue.woke run answer) else none
  | .finalize run depth =>
      if run ∈ queue.runs ∧ run.phase = .ended then some (queue.finalize run depth) else none

def QueueStep {V E : Type} (queue : SubmissionQueue V E) (action : QueueAction V E)
    (queue' : SubmissionQueue V E) : Prop :=
  queue.after action = some queue'

end StellarAgent.Fleet.Submission
