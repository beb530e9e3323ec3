import StellarAgent.Lib.Runs

set_option autoImplicit false

/-! # Scheduled report delivery

`packages/indexer/src/delivery.ts`: the tables of artifacts and deliveries of `ReportDeliveryStore`,
each of whose methods is atomic, and the loop of `ScheduledReportService.deliverDue`, of which any
number run at once on one store. Timestamps are milliseconds here; their ISO texts are ordered
alike. A statement that changes no row, where one was expected, throws.
-/

namespace StellarAgent.Indexer

open Lib

/-! ## Rows -/

inductive DeliveryStatus where
  | pending
  | delivering
  | retry
  | delivered
  | dead_letter
  deriving DecidableEq

inductive DestinationKind where
  | webhook
  | email
  deriving DecidableEq

structure ReportDestination where
  id : String
  kind : DestinationKind
  deriving DecidableEq

structure ReportSchedule where
  scheduleId : String
  destinations : List ReportDestination

structure StatementPeriod where
  fromTimestamp : ℕ
  throughTimestamp : ℕ
  deriving DecidableEq

structure GeneratedReportArtifact where
  statementId : String
  format : String
  contentType : String
  filename : String
  content : List UInt8
  deriving DecidableEq

structure StoredReportArtifact extends GeneratedReportArtifact where
  artifactId : String
  scheduleId : String
  runKey : String
  period : StatementPeriod
  sha256 : String
  createdAt : ℕ
  deriving DecidableEq

structure ReportDelivery where
  deliveryId : String
  artifactId : String
  scheduleId : String
  runKey : String
  destination : ReportDestination
  idempotencyKey : String
  status : DeliveryStatus
  attemptCount : ℕ
  nextAttemptAt : ℕ
  leaseUntil : Option ℕ
  lastError : Option String
  deliveredAt : Option ℕ
  createdAt : ℕ
  updatedAt : ℕ
  deriving DecidableEq

structure ClaimedDelivery where
  delivery : ReportDelivery
  artifact : StoredReportArtifact

structure ReportDeliveryStore where
  artifacts : List StoredReportArtifact
  deliveries : List ReportDelivery

namespace ReportDeliveryStore

/-- The row of a delivery -/
def delivery (store : ReportDeliveryStore) (deliveryId : String) : Option ReportDelivery :=
  store.deliveries.find? (·.deliveryId = deliveryId)

/-- `UPDATE report_deliveries SET … WHERE delivery_id = ? AND …` -/
def update (store : ReportDeliveryStore) (deliveryId : String) (which : ReportDelivery → Bool)
    (set : ReportDelivery → ReportDelivery) : ReportDeliveryStore :=
  { store with
    deliveries := store.deliveries.map fun row =>
      if row.deliveryId = deliveryId ∧ which row = true then set row else row }

/-! ## Generation -/

section

/- SHA-256 in hexadecimal digits -/
variable (hash : List UInt8 → String)

def hashText (value : String) : String := hash value.toUTF8.data.toList

def idempotencyKey (scheduleId runKey destinationId : String) : String :=
  scheduleId ++ ":" ++ runKey ++ ":" ++ destinationId

/-- `INSERT OR IGNORE` of a new delivery: its id and its key are unique. -/
def insertDelivery (schedule : ReportSchedule) (runKey artifactId : String) (timestamp : ℕ)
    (deliveries : List ReportDelivery) (destination : ReportDestination) : List ReportDelivery :=
  let key := idempotencyKey schedule.scheduleId runKey destination.id
  let deliveryId := "delivery_" ++ ((hashText hash key).take 32).toString
  if deliveries.any fun row => row.deliveryId = deliveryId || row.idempotencyKey = key then
    deliveries
  else deliveries ++ [{
    deliveryId := deliveryId
    artifactId := artifactId
    scheduleId := schedule.scheduleId
    runKey := runKey
    destination := destination
    idempotencyKey := key
    status := .pending
    attemptCount := 0
    nextAttemptAt := timestamp
    leaseUntil := none
    lastError := none
    deliveredAt := none
    createdAt := timestamp
    updatedAt := timestamp }]

/-- `INSERT OR IGNORE` of an artifact: its id and its run key are unique. -/
def insertArtifact (artifacts : List StoredReportArtifact) (artifact : StoredReportArtifact) :
    List StoredReportArtifact :=
  if artifacts.any fun row => row.artifactId = artifact.artifactId || row.runKey = artifact.runKey
  then artifacts
  else artifacts ++ [artifact]

/-- `enqueueArtifact`; an exception rolls the transaction back. -/
def enqueueArtifact (store : ReportDeliveryStore) (schedule : ReportSchedule) (runKey : String)
    (period : StatementPeriod) (generated : GeneratedReportArtifact) (now : ℕ) :
    Except String ReportDeliveryStore :=
  let sha256 := hash generated.content
  let artifacts := insertArtifact store.artifacts {
    toGeneratedReportArtifact := generated
    artifactId := "artifact_" ++ ((hashText hash runKey).take 32).toString
    scheduleId := schedule.scheduleId
    runKey := runKey
    period := period
    sha256 := sha256
    createdAt := now }
  match artifacts.find? (·.runKey = runKey) with
  | none => .error "Cannot read properties of undefined (reading 'sha256')"
  | some existing =>
      if existing.sha256 ≠ sha256 then
        .error ("run " ++ runKey ++ " already has a different immutable artifact")
      else .ok {
        artifacts := artifacts
        deliveries := schedule.destinations.foldl
          (insertDelivery hash schedule runKey existing.artifactId now) store.deliveries }

end

/-! ## Delivery -/

/-- Whether a delivery may be claimed: it waits for its next attempt, or its lease has expired. -/
def isDue (timestamp : ℕ) (row : ReportDelivery) : Bool :=
  match row.status with
  | .pending | .retry => decide (row.nextAttemptAt ≤ timestamp)
  | .delivering => row.leaseUntil.any (· ≤ timestamp)
  | .delivered | .dead_letter => false

/-- `ORDER BY next_attempt_at, delivery_id` -/
def dueBefore (a b : ReportDelivery) : Bool :=
  decide (a.nextAttemptAt < b.nextAttemptAt ∨
    a.nextAttemptAt = b.nextAttemptAt ∧ a.deliveryId ≤ b.deliveryId)

/-- The row that `claimDue` selects -/
def firstDue (store : ReportDeliveryStore) (timestamp : ℕ) : Option ReportDelivery :=
  ((store.deliveries.filter (isDue timestamp)).insertionSort fun a b => dueBefore a b = true).head?

/-- A row as a claim leaves it -/
def claimed (timestamp leaseMs : ℕ) (row : ReportDelivery) : ReportDelivery :=
  { row with
    status := .delivering
    attemptCount := row.attemptCount + 1
    leaseUntil := some (timestamp + leaseMs)
    updatedAt := timestamp }

def claimDue (store : ReportDeliveryStore) (now leaseMs : ℕ) :
    Except String (Option (ReportDeliveryStore × ClaimedDelivery)) :=
  if leaseMs = 0 then .error "leaseMs must be positive"
  else
    match store.firstDue now with
    | none => .ok none
    | some row =>
        match store.artifacts.find? (·.artifactId = row.artifactId) with
        | none => .error "Cannot read properties of undefined (reading 'content')"
        | some artifact =>
            .ok (some (store.update row.deliveryId
              (fun other => other.status = row.status ∧ other.attemptCount = row.attemptCount)
              (claimed now leaseMs), { delivery := claimed now leaseMs row, artifact }))

/-- A row as `markDelivered` leaves it -/
def delivered (now : ℕ) (row : ReportDelivery) : ReportDelivery :=
  { row with
    status := .delivered
    deliveredAt := some now
    leaseUntil := none
    lastError := none
    updatedAt := now }

/-- A row as `markFailed` leaves it -/
def failed (status : DeliveryStatus) (error : String) (nextAttemptAt now : ℕ)
    (row : ReportDelivery) : ReportDelivery :=
  { row with
    status := status
    nextAttemptAt := nextAttemptAt
    leaseUntil := none
    lastError := some (error.take 4000).toString
    updatedAt := now }

/-- A row as `replayDeadLetter` leaves it -/
def replayed (now : ℕ) (row : ReportDelivery) : ReportDelivery :=
  { row with
    status := .retry
    attemptCount := 0
    nextAttemptAt := now
    leaseUntil := none
    lastError := none
    updatedAt := now }

/-- Whether a delivery is claimed -/
def isDelivering (store : ReportDeliveryStore) (deliveryId : String) : Bool :=
  (store.delivery deliveryId).any (·.status = .delivering)

def markDelivered (store : ReportDeliveryStore) (deliveryId : String) (now : ℕ) :
    Except String ReportDeliveryStore :=
  if store.isDelivering deliveryId then
    .ok (store.update deliveryId (·.status = .delivering) (delivered now))
  else .error ("delivery " ++ deliveryId ++ " is not claimed")

/-- Neither does this name the claim. -/
def markFailed (store : ReportDeliveryStore) (deliveryId error : String)
    (nextAttemptAt maxAttempts now : ℕ) : Except String (ReportDeliveryStore × DeliveryStatus) :=
  match store.delivery deliveryId with
  | some current =>
      if current.status = .delivering then
        let status := if current.attemptCount ≥ maxAttempts then .dead_letter else .retry
        .ok (store.update deliveryId (fun _ => true) (failed status error nextAttemptAt now), status)
      else .error ("delivery " ++ deliveryId ++ " is not claimed")
  | none => .error ("delivery " ++ deliveryId ++ " is not claimed")

def replayDeadLetter (store : ReportDeliveryStore) (deliveryId : String) (now : ℕ) :
    Except String ReportDeliveryStore :=
  if (store.delivery deliveryId).any (·.status = .dead_letter) then
    .ok (store.update deliveryId (·.status = .dead_letter) (replayed now))
  else .error ("delivery " ++ deliveryId ++ " is not dead-lettered")

end ReportDeliveryStore

/-! ## Workers -/

/-- The options of the service, as its constructor and `claimDue` accept them -/
structure ServiceOptions where
  maxAttempts : ℕ
  baseRetryMs : ℕ
  maxRetryMs : ℕ
  leaseMs : ℕ
  maxAttempts_pos : 1 ≤ maxAttempts
  leaseMs_pos : 0 < leaseMs

/-- The local variables of a call of `deliverDue`; `now` is read once, when it starts. -/
structure Tick where
  now : ℕ
  left : ℕ
  delivered : ℕ
  retried : ℕ
  deadLettered : ℕ

/-- Where a call of `deliverDue` is -/
inductive Worker where
  | idle
  | looping (tick : Tick)
  | delivering (tick : Tick) (claim : ClaimedDelivery)
  | answered (tick : Tick) (claim : ClaimedDelivery) (outcome : Except String Unit)

/-- The claim that a worker works on -/
def Worker.claim? : Worker → Option ClaimedDelivery
  | .idle | .looping _ => none
  | .delivering _ claim | .answered _ claim _ => some claim

structure System where
  store : ReportDeliveryStore
  workers : ℕ → Worker

def System.init : System where
  store := { artifacts := [], deliveries := [] }
  workers := fun _ => .idle

/-- What can happen. `settle` is what follows the answer of the transport. -/
inductive Action where
  | enqueue (schedule : ReportSchedule) (runKey : String) (period : StatementPeriod)
      (generated : GeneratedReportArtifact) (now : ℕ)
  | start (worker now limit : ℕ)
  | claim (worker : ℕ)
  | answer (worker : ℕ) (outcome : Except String Unit)
  | settle (worker : ℕ)
  | crash (worker : ℕ)
  | replay (deliveryId : String) (now : ℕ)

/-- A worker goes on, with the store that it leaves. -/
def System.goOn (s : System) (w : ℕ) (store : ReportDeliveryStore) (worker : Worker) : System where
  store := store
  workers := Function.update s.workers w worker

section

variable (options : ServiceOptions)

/-- The delay after a failed attempt -/
def retryDelay (attemptCount : ℕ) : ℕ :=
  min options.maxRetryMs (options.baseRetryMs * 2 ^ (attemptCount - 1))

/-- The `catch` of `deliverDue`; what it throws itself ends the call. -/
def catchError (s : System) (w : ℕ) (tick : Tick) (claim : ClaimedDelivery) (error : String) :
    System :=
  match s.store.markFailed claim.delivery.deliveryId error
      (tick.now + retryDelay options claim.delivery.attemptCount) options.maxAttempts tick.now with
  | .ok (store, .dead_letter) =>
      s.goOn w store (.looping { tick with deadLettered := tick.deadLettered + 1 })
  | .ok (store, _) => s.goOn w store (.looping { tick with retried := tick.retried + 1 })
  | .error _ => s.goOn w s.store .idle

/-- What `deliverDue` does once the transport has answered -/
def settle (s : System) (w : ℕ) (tick : Tick) (claim : ClaimedDelivery)
    (outcome : Except String Unit) : System :=
  match outcome with
  | .error error => catchError options s w tick claim error
  | .ok () =>
      match s.store.markDelivered claim.delivery.deliveryId tick.now with
      | .ok store => s.goOn w store (.looping { tick with delivered := tick.delivered + 1 })
      | .error error => catchError options s w tick claim error

/-- The head of the loop: the limit, and the next claim -/
def claimNext (s : System) (w : ℕ) (tick : Tick) : System :=
  if tick.left = 0 then s.goOn w s.store .idle
  else
    match s.store.claimDue tick.now options.leaseMs with
    | .ok (some (store, claim)) =>
        s.goOn w store (.delivering { tick with left := tick.left - 1 } claim)
    | .ok none | .error _ => s.goOn w s.store .idle

/- SHA-256 in hexadecimal digits -/
variable (hash : List UInt8 → String)

/-- The state after an action, where it is possible -/
def after (s : System) : Action → Option System
  | .enqueue schedule runKey period generated now =>
      match s.store.enqueueArtifact hash schedule runKey period generated now with
      | .ok store => some { s with store }
      | .error _ => some s
  | .start w now limit =>
      match s.workers w with
      | .idle => some (s.goOn w s.store (.looping ⟨now, limit, 0, 0, 0⟩))
      | _ => none
  | .claim w =>
      match s.workers w with
      | .looping tick => some (claimNext options s w tick)
      | _ => none
  | .answer w outcome =>
      match s.workers w with
      | .delivering tick claim => some (s.goOn w s.store (.answered tick claim outcome))
      | _ => none
  | .settle w =>
      match s.workers w with
      | .answered tick claim outcome => some (settle options s w tick claim outcome)
      | _ => none
  | .crash w => some (s.goOn w s.store .idle)
  | .replay deliveryId now =>
      match s.store.replayDeadLetter deliveryId now with
      | .ok store => some { s with store }
      | .error _ => some s

/-- A run of the service from the empty store -/
abbrev Delivers (tr : List (Transition System Action)) (s : System) : Prop :=
  Run (fun s a t => after options hash s a = some t) System.init tr s

end

end StellarAgent.Indexer
