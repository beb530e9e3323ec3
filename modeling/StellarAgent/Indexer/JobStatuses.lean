import StellarAgent.Escrow.Delivery
import StellarAgent.Indexer.Decoder
import StellarAgent.Indexer.MemoryStore
import StellarAgent.Lib.StableSort

set_option autoImplicit false

/-! # The indexed status of a job

The events of the escrow contract, as they are decoded and stored, and the status that
`jobLifecycle` of both event stores folds from them. Each event of a call tells the status that the
call leaves the job in, but for the one of `resolve_dispute`: the fold has no case for it, and the job
stays disputed (`indexed_status_iff`).
-/

namespace StellarAgent.Indexer.Jobs

open Lib Soroban
open Prediction (Native)

/-! ## Events as values -/

section

/- The text of an address -/
variable (addressText : Address → String)

def nativeStatus : Escrow.JobStatus → Native
  | .Open => .array [.string "Open"]
  | .InProgress => .array [.string "InProgress"]
  | .PendingRelease => .array [.string "PendingRelease"]
  | .Completed => .array [.string "Completed"]
  | .Refunded => .array [.string "Refunded"]
  | .Disputed => .array [.string "Disputed"]

def nativeAddress (address : Address) : Native := .string (addressText address)

/-- The fields of a record are sorted by their names. -/
def nativeJob (job : Escrow.Job) : Native :=
  .object [
    ("amount", .bigint job.amount),
    ("arbiter", (job.arbiter.map (nativeAddress addressText)).getD .null),
    ("created_at", .number job.created_at),
    ("deadline_ledger", .number job.deadline_ledger),
    ("dispute_deadline_ledger",
      (job.dispute_deadline_ledger.map fun ledger : ℕ => Native.number ledger).getD .null),
    ("requester", nativeAddress addressText job.requester),
    ("result", (job.result.map Native.bytes).getD .null),
    ("status", nativeStatus job.status),
    ("task_description", .bytes job.task_description),
    ("token", nativeAddress addressText job.token),
    ("worker", (job.worker.map (nativeAddress addressText)).getD .null)]

/-- The two topics of an event -/
def topics : Escrow.Event → List Native
  | .created .. => [.string "escrow", .string "created"]
  | .stateJob .. => [.string "state", .string "job"]
  | .accepted .. => [.string "escrow", .string "accepted"]
  | .result .. => [.string "escrow", .string "result"]
  | .released .. => [.string "escrow", .string "released"]
  | .refunded .. => [.string "escrow", .string "refunded"]
  | .disputed .. => [.string "escrow", .string "disputed"]
  | .resolved .. => [.string "escrow", .string "resolved"]
  | .ms_cfg .. => [.string "admin", .string "ms_cfg"]
  | .prop_cb .. => [.string "admin", .string "prop_cb"]

/-- The value of an event, a tuple -/
def eventValue : Escrow.Event → Native
  | .created job_id requester amount =>
      .array [.bigint job_id, nativeAddress addressText requester, .bigint amount]
  | .stateJob job_id job => .array [.bigint job_id, nativeJob addressText job]
  | .accepted job_id worker | .result job_id worker =>
      .array [.bigint job_id, nativeAddress addressText worker]
  | .released job_id worker amount =>
      .array [.bigint job_id, nativeAddress addressText worker, .bigint amount]
  | .refunded job_id requester amount =>
      .array [.bigint job_id, nativeAddress addressText requester, .bigint amount]
  | .disputed job_id requester => .array [.bigint job_id, nativeAddress addressText requester]
  | .resolved job_id arbiter favor_worker =>
      .array [.bigint job_id, nativeAddress addressText arbiter, .bool favor_worker]
  | .ms_cfg owners threshold =>
      .array [.array (owners.map (nativeAddress addressText)), .number threshold]
  | .prop_cb owner circuit_breaker =>
      .array [nativeAddress addressText owner, nativeAddress addressText circuit_breaker]

/-- What the contract has published in a call, without the events of the tokens -/
def published : HostEvent Escrow.Event → Option Escrow.Event
  | .published event => some event
  | .transfer .. => none

/-- The events of a run, each with the ledger it is emitted in -/
def emitted (tr : List Escrow.Tx) : List (ℕ × Escrow.Event) :=
  tr.flatMap fun x => (x.post.events.filterMap published).map fun event => (x.post.sequence, event)

/-- A raw event carries an event of the contract. -/
structure Carries (raw : RawContractEvent) (event : ℕ × Escrow.Event) : Prop where
  ledger : raw.ledger = event.1
  topic : raw.topic.map ScVal.native = topics event.2
  value : raw.value.native = eventValue addressText event.2

/-- The stream of raw events is what a run emits: complete, and in order. -/
def Streams (raws : List RawContractEvent) (tr : List Escrow.Tx) : Prop :=
  List.Forall₂ (Carries addressText) raws (emitted tr)

end

/-! ## What the stores hold -/

section

variable (asString : Native → String) (localeCompare : String → String → Ordering)
  (address : String)

/-- The decoded events of a stream, without those that are not decoded -/
def decodedOf (raws : List RawContractEvent) : List DecodedEvent :=
  raws.filterMap fun raw => (decodeEvent asString raw .escrow address).toOption

/-- The rows of a stream -/
def rowsOf (raws : List RawContractEvent) : List StoredEvent :=
  (decodedOf asString address raws).map stored

/-- The escrow events among the rows are those of the stream; the rows may stand in any order. -/
def Holds (events : List StoredEvent) (raws : List RawContractEvent) : Prop :=
  (events.filter fun event => event.namespace = .escrow).Perm
    ((rowsOf asString address raws).filter fun event => event.namespace = .escrow)

/-- Ledgers and paging tokens increase along the stream, bytewise and by `localeCompare`. -/
def InOrder (raws : List RawContractEvent) : Prop :=
  (raws.map fun raw => (raw.ledger, raw.pagingToken)).Pairwise fun a b =>
    (precedes compare a b ∧ ¬ precedes compare b a) ∧
      (precedes localeCompare a b ∧ ¬ precedes localeCompare b a)

/-- A status of the contract, as the indexer names it -/
def named : Escrow.JobStatus → JobStatus
  | .Open => .Open
  | .InProgress => .InProgress
  | .PendingRelease => .PendingRelease
  | .Completed => .Completed
  | .Refunded => .Refunded
  | .Disputed => .Disputed

/-- The status of the contract's record -/
def recordStatus (w : Escrow.State) (id : ℕ) : JobStatus :=
  (((Escrow.jobs w).lookup id).map fun job => named job.status).getD .Unknown

/-- Both stores report the status of the record, once they hold the stream. -/
def Reports (raws : List RawContractEvent) (w : Escrow.State) (id : ℕ) : Prop :=
  (∀ store : EventStore, Holds asString address store.events raws →
    (store.jobLifecycle (toString id)).status = recordStatus w id) ∧
  ∀ store : InMemoryEventStore, Holds asString address store.events raws →
    (store.jobLifecycle localeCompare (toString id)).status = recordStatus w id

end

/-! ## Decoding the events -/

/-- What an event of a job is decoded to -/
def jobBody (addressText : Address → String) : Escrow.Event → Option EventBody
  | .created job_id requester amount =>
      some (.jobCreated (toString job_id) (addressText requester) (toString amount))
  | .accepted job_id worker => some (.accepted (toString job_id) (addressText worker))
  | .result job_id worker => some (.result (toString job_id) (addressText worker))
  | .released job_id worker amount =>
      some (.released (toString job_id) (addressText worker) (toString amount))
  | .refunded job_id requester amount =>
      some (.refunded (toString job_id) (addressText requester) (toString amount))
  | .disputed job_id requester => some (.disputed (toString job_id) (addressText requester))
  | .resolved job_id arbiter favor_worker =>
      some (.resolved (toString job_id) (addressText arbiter) favor_worker)
  | .stateJob .. | .ms_cfg .. | .prop_cb .. => none

section

variable {asString : Native → String} {addressText : Address → String} {address : String}
  {raw : RawContractEvent} {names action : String} {value : Native}

variable (asString) in
theorem topicText_of (h : raw.topic.map ScVal.native = [.string names, .string action]) :
    topicText asString raw 0 = .ok names ∧ topicText asString raw 1 = .ok action := by
  obtain ⟨first, rest, htopic, hfirst, hrest⟩ := List.map_eq_cons_iff.mp h
  obtain ⟨second, rest, hsecond, hnext, -⟩ := List.map_eq_cons_iff.mp hrest
  rw [topicText, topicText, htopic, hsecond]
  constructor
  · show scalar asString first.native = _
    rw [hfirst]
    rfl
  · show scalar asString second.native = _
    rw [hnext]
    rfl

theorem decodeEvent_of {nativeValues : List Native} {values : List String} {body : EventBody}
    (h : raw.topic.map ScVal.native = [.string names, .string action])
    (hvalue : raw.value.native = .array nativeValues)
    (hlength : field expectedLengths (names ++ "/" ++ action) = some nativeValues.length)
    (hvalues : scalars asString names (names ++ "/" ++ action) nativeValues = .ok values)
    (hbody : decodeBody asString (names ++ "/" ++ action) values nativeValues = .ok body) :
    ∃ event, decodeEvent asString raw .escrow address = .ok event ∧ event.body = body := by
  obtain ⟨hnames, haction⟩ := topicText_of asString h
  have htuple : tuple raw.value.native nativeValues.length (names ++ "/" ++ action) =
      .ok nativeValues := by
    rw [hvalue, tuple, if_pos rfl]
  unfold decodeEvent
  simp only [hnames, haction, ok_bind, hlength, htuple, hvalues, hbody]
  exact ⟨_, rfl, rfl⟩

/-- The events of jobs are decoded. -/
theorem decode_job {event : ℕ × Escrow.Event} (h : Carries addressText raw event)
    {body : EventBody} (hbody : jobBody addressText event.2 = some body) :
    ∃ decoded, decodeEvent asString raw .escrow address = .ok decoded ∧ decoded.body = body := by
  obtain ⟨hledger, htopic, hvalue⟩ := h
  obtain ⟨ledger, event⟩ := event
  cases event with
  | created job_id requester amount =>
      obtain rfl := Option.some.inj hbody
      exact decodeEvent_of htopic hvalue (by rfl) rfl rfl
  | accepted job_id worker =>
      obtain rfl := Option.some.inj hbody
      exact decodeEvent_of htopic hvalue (by rfl) rfl rfl
  | result job_id worker =>
      obtain rfl := Option.some.inj hbody
      exact decodeEvent_of htopic hvalue (by rfl) rfl rfl
  | released job_id worker amount =>
      obtain rfl := Option.some.inj hbody
      exact decodeEvent_of htopic hvalue (by rfl) rfl rfl
  | refunded job_id requester amount =>
      obtain rfl := Option.some.inj hbody
      exact decodeEvent_of htopic hvalue (by rfl) rfl rfl
  | disputed job_id requester =>
      obtain rfl := Option.some.inj hbody
      exact decodeEvent_of htopic hvalue (by rfl) rfl rfl
  | resolved job_id arbiter favor_worker =>
      obtain rfl := Option.some.inj hbody
      exact decodeEvent_of htopic hvalue (by rfl) rfl rfl
  | stateJob job_id job => cases hbody
  | ms_cfg owners threshold => cases hbody
  | prop_cb owner circuit_breaker => cases hbody

/-- No other event is decoded to one of the escrow's. -/
theorem decode_other {event : ℕ × Escrow.Event} (h : Carries addressText raw event)
    (hbody : jobBody addressText event.2 = none) {decoded : DecodedEvent}
    (hdecoded : decodeEvent asString raw .escrow address = .ok decoded) :
    decoded.body.namespace ≠ .escrow := by
  obtain ⟨hledger, htopic, hvalue⟩ := h
  obtain ⟨ledger, event⟩ := event
  cases event with
  | stateJob job_id job =>
      obtain ⟨hnames, haction⟩ := topicText_of asString htopic
      unfold decodeEvent at hdecoded
      have hlength : field expectedLengths ("state" ++ "/" ++ "job") = some 2 := by rfl
      simp only [hnames, haction, ok_bind, hlength] at hdecoded
      obtain ⟨nativeValues, htuple, hrest⟩ := bind_eq_ok.mp hdecoded
      obtain ⟨values, hvalues, hlast⟩ := bind_eq_ok.mp hrest
      obtain ⟨body, hstate, hresult⟩ := bind_eq_ok.mp hlast
      rw [hvalue] at htuple
      obtain rfl := Except.ok.inj htuple
      obtain rfl := Except.ok.inj hvalues
      obtain ⟨state, -, hbody⟩ := bind_eq_ok.mp hstate
      rw [← pure_eq_ok.mp hresult, ← pure_eq_ok.mp hbody]
      exact Namespace.noConfusion
  | ms_cfg owners threshold =>
      obtain ⟨hnames, haction⟩ := topicText_of asString htopic
      unfold decodeEvent at hdecoded
      have hlength : field expectedLengths ("admin" ++ "/" ++ "ms_cfg") = none := by rfl
      simp only [hnames, haction, ok_bind, hlength] at hdecoded
      cases hdecoded
  | prop_cb owner circuit_breaker =>
      obtain ⟨hnames, haction⟩ := topicText_of asString htopic
      unfold decodeEvent at hdecoded
      have hlength : field expectedLengths ("admin" ++ "/" ++ "prop_cb") = none := by rfl
      simp only [hnames, haction, ok_bind, hlength] at hdecoded
      cases hdecoded
  | _ => cases hbody

end

/-! ## The fold -/

/-- The fold over the events of the contract, for one job -/
def eventStatus (id : ℕ) (status : JobStatus) : Escrow.Event → JobStatus
  | .created job_id _ _ => if job_id = id then .Open else status
  | .accepted job_id _ => if job_id = id then .InProgress else status
  | .result job_id _ => if job_id = id then .PendingRelease else status
  | .released job_id _ _ => if job_id = id then .Completed else status
  | .refunded job_id _ _ => if job_id = id then .Refunded else status
  | .disputed job_id _ => if job_id = id then .Disputed else status
  | .resolved .. | .stateJob .. | .ms_cfg .. | .prop_cb .. => status

/-- A number is known from its decimal text. -/
theorem repr_inj {m n : ℕ} : m.repr = n.repr ↔ m = n := by
  constructor
  · intro h
    have hread := (bigInt_natCast m).symm.trans ((congrArg bigInt h).trans (bigInt_natCast n))
    exact_mod_cast Option.some.inj hread
  · intro h
    rw [h]

section

variable {asString : Native → String} {addressText : Address → String} {address : String} {id : ℕ}

/-- A row of the job moves the status as its event does, and no other row counts. -/
theorem statusAfter_stored {event : Escrow.Event} {decoded : DecodedEvent}
    (hbody : jobBody addressText event = some decoded.body) (status : JobStatus) :
    (if isJobEvent (toString id) (stored decoded) = true then statusAfter status (stored decoded)
      else status) = eventStatus id status event := by
  obtain ⟨metadata, body⟩ := decoded
  cases event with
  | stateJob job_id job => cases hbody
  | ms_cfg owners threshold => cases hbody
  | prop_cb owner circuit_breaker => cases hbody
  | _ =>
      obtain rfl := Option.some.inj hbody
      simp [isJobEvent, stored, entity, field, EventBody.fields, EventBody.namespace, statusAfter,
        EventBody.action, eventStatus, repr_inj]

/-- **The fold over the rows of a stream** is the fold over its events. -/
theorem foldl_rowsOf {raws : List RawContractEvent} {events : List (ℕ × Escrow.Event)}
    (h : List.Forall₂ (Carries addressText) raws events) (status : JobStatus) :
    ((rowsOf asString address raws).filter (isJobEvent (toString id))).foldl statusAfter status =
      (events.map Prod.snd).foldl (eventStatus id) status := by
  induction h generalizing status with
  | nil => rfl
  | @cons raw event raws events hcarries _ ih =>
      rw [List.map_cons, List.foldl_cons, ← ih]
      cases hbody : jobBody addressText event.2 with
      | some body =>
          obtain ⟨decoded, hdecoded, rfl⟩ :
              ∃ decoded, decodeEvent asString raw .escrow address = .ok decoded ∧
                decoded.body = body := decode_job hcarries hbody
          have hrows : rowsOf asString address (raw :: raws) =
              stored decoded :: rowsOf asString address raws := by
            simp [rowsOf, decodedOf, hdecoded, Except.toOption]
          rw [hrows, ← statusAfter_stored hbody]
          by_cases hrow : isJobEvent (toString id) (stored decoded) = true
          · rw [List.filter_cons_of_pos hrow, List.foldl_cons, if_pos hrow]
          · rw [List.filter_cons_of_neg hrow, if_neg hrow]
      | none =>
          have hstatus : eventStatus id status event.2 = status := by
            cases hevent : event.2 <;> rw [hevent] at hbody <;> first | rfl | cases hbody
          rw [hstatus]
          cases hdecoded : decodeEvent asString raw .escrow address with
          | error message => simp [rowsOf, decodedOf, hdecoded, Except.toOption]
          | ok decoded =>
              have hrows : rowsOf asString address (raw :: raws) =
                  stored decoded :: rowsOf asString address raws := by
                simp [rowsOf, decodedOf, hdecoded, Except.toOption]
              have hrow : ¬ isJobEvent (toString id) (stored decoded) = true := by
                intro hjob
                simp only [isJobEvent, decide_eq_true_eq] at hjob
                exact decode_other hcarries hbody hdecoded hjob.2.2
              rw [hrows, List.filter_cons_of_neg hrow]

end

/-! ## The stores -/

section

variable {asString : Native → String} {localeCompare : String → String → Ordering}
  {addressText : Address → String} {address : String} {id : ℕ} {raws : List RawContractEvent}

theorem isJobEvent_escrow (jobId : String) (event : StoredEvent) :
    (isJobEvent jobId event && decide (event.namespace = .escrow)) = isJobEvent jobId event := by
  unfold isJobEvent
  rw [← Bool.decide_and, decide_eq_decide]
  tauto

/-- The positions of rows are those of the raw events. -/
theorem positions_rowsOf :
    ((rowsOf asString address raws).map position).Sublist
      (raws.map fun raw => (raw.ledger, raw.pagingToken)) := by
  induction raws with
  | nil => exact List.Sublist.refl []
  | cons raw raws ih =>
      cases hdecoded : decodeEvent asString raw .escrow address with
      | error message =>
          have hrows : rowsOf asString address (raw :: raws) = rowsOf asString address raws := by
            simp [rowsOf, decodedOf, hdecoded, Except.toOption]
          rw [hrows]
          exact ih.cons _
      | ok decoded =>
          have hrows : rowsOf asString address (raw :: raws) =
              stored decoded :: rowsOf asString address raws := by
            simp [rowsOf, decodedOf, hdecoded, Except.toOption]
          obtain ⟨-, hledger, htoken, -⟩ := decodeEvent_metadata asString hdecoded
          have hposition : position (stored decoded) = (raw.ledger, raw.pagingToken) := by
            rw [position, stored_ledger, stored_pagingToken, hledger, htoken]
          rw [hrows, List.map_cons, hposition]
          exact ih.cons_cons _

/-- Rows of a stream in order are sorted as the stream is. -/
theorem sortBy_rows {compare' : String → String → Ordering} {events : List StoredEvent}
    (hheld : Holds asString address events raws)
    (horder : (raws.map fun raw => (raw.ledger, raw.pagingToken)).Pairwise fun a b =>
      precedes compare' a b ∧ ¬ precedes compare' b a) (jobId : String) :
    sortBy compare' position (events.filter (isJobEvent jobId)) =
      (rowsOf asString address raws).filter (isJobEvent jobId) := by
  refine insertionSort_eq_of_strict ?_ ?_
  · have hpositions : ((rowsOf asString address raws).map position).Pairwise fun a b =>
        precedes compare' a b ∧ ¬ precedes compare' b a := horder.sublist positions_rowsOf
    exact (List.pairwise_map.mp hpositions).sublist List.filter_sublist
  · have hperm := hheld.filter (isJobEvent jobId)
    rw [List.filter_filter, List.filter_filter] at hperm
    simpa only [isJobEvent_escrow] using hperm

/-- A store that commits the decoded events holds the stream. -/
theorem holds_committed {fromLedger throughLedger : ℤ} (hids : (raws.map RawContractEvent.id).Nodup)
    (hrange : ∀ raw ∈ raws, inRange fromLedger throughLedger raw.ledger = true) (stream : String) :
    Holds asString address (EventStore.empty.replaced fromLedger throughLedger
        (decodedOf asString address raws) stream).events raws ∧
      Holds asString address (InMemoryEventStore.empty.replaced fromLedger throughLedger
        (decodedOf asString address raws) stream).events raws := by
  have hmeta : ∀ raw event, (decodeEvent asString raw .escrow address).toOption = some event →
      event.eventId = raw.id ∧ event.ledger = raw.ledger := by
    intro raw event hevent
    obtain ⟨hid, hledger, -⟩ := decodeEvent_metadata asString (toOption_eq_some.mp hevent)
    exact ⟨hid, hledger⟩
  have hin : (decodedOf asString address raws).filter
      (fun event => inRange fromLedger throughLedger event.ledger) =
        decodedOf asString address raws := by
    refine List.filter_eq_self.mpr fun event hevent => ?_
    obtain ⟨raw, hraw, hdecoded⟩ := List.mem_filterMap.mp hevent
    rw [(hmeta raw event hdecoded).2]
    exact hrange raw hraw
  have hnodup : ((rowsOf asString address raws).map StoredEvent.eventId).Nodup := by
    rw [rowsOf, List.map_map]
    exact hids.sublist (map_filterMap_sublist (fun raw event h => (hmeta raw event h).1) raws)
  have hheld : Holds asString address
      (upsertAll StoredEvent.eventId [] (rowsOf asString address raws)) raws := by
    rw [upsertAll_of_new hnodup fun row hrow => absurd hrow List.not_mem_nil, List.nil_append]
    exact List.Perm.refl _
  constructor
  · show Holds asString address (upsertAll StoredEvent.eventId []
      (((decodedOf asString address raws).filter _).map stored)) raws
    rw [hin]
    exact hheld
  · show Holds asString address (upsertAll StoredEvent.eventId []
      (((decodedOf asString address raws).filter _).map stored)) raws
    rw [hin]
    exact hheld

variable (id) in
/-- **Both stores** fold the events of the stream. -/
theorem status_jobLifecycle {tr : List Escrow.Tx} (hstream : Streams addressText raws tr)
    (horder : InOrder localeCompare raws) :
    (∀ store : EventStore, Holds asString address store.events raws →
      (store.jobLifecycle (toString id)).status =
        ((emitted tr).map Prod.snd).foldl (eventStatus id) .Unknown) ∧
    ∀ store : InMemoryEventStore, Holds asString address store.events raws →
      (store.jobLifecycle localeCompare (toString id)).status =
        ((emitted tr).map Prod.snd).foldl (eventStatus id) .Unknown := by
  refine ⟨fun store hheld => ?_, fun store hheld => ?_⟩
  · show (store.rows (isJobEvent (toString id))).foldl statusAfter .Unknown = _
    rw [EventStore.rows, sortBy_rows hheld (horder.imp And.left), foldl_rowsOf hstream]
  · show (store.sorted localeCompare (isJobEvent (toString id))).foldl statusAfter .Unknown = _
    rw [InMemoryEventStore.sorted, sortBy_rows hheld (horder.imp And.right), foldl_rowsOf hstream]

end

/-! ## The contract -/

section

variable {env : Env} {w w' : Escrow.State} {id : ℕ}

/-- What a call publishes moves the status as the call does. -/
def Told (w w' : Escrow.State) (id : ℕ) : Prop :=
  (w'.events.filterMap published).foldl (eventStatus id) (recordStatus w id) = recordStatus w' id

theorem published_publish (m : Escrow.State) (event : Escrow.Event) :
    (m.publish event).events.filterMap published = m.events.filterMap published ++ [event] :=
  List.filterMap_append

theorem published_announce (m : Escrow.State) (job_id : ℕ) (job : Escrow.Job)
    (event : Escrow.Event) :
    (Escrow.announce m job_id job event).events.filterMap published =
      m.events.filterMap published ++ [event, .stateJob job_id job] := by
  rw [Escrow.announce, published_publish, published_publish, List.append_assoc]
  rfl

theorem recordStatus_insert {job : Escrow.Job} {job_id : ℕ}
    (hjobs : Escrow.jobs w' = (Escrow.jobs w).insert job_id job) :
    recordStatus w' id = if job_id = id then named job.status else recordStatus w id := by
  unfold recordStatus
  rw [hjobs, Map.lookup_insert_eq_ite]
  by_cases h : job_id = id
  · rw [if_pos h.symm, if_pos h]
    rfl
  · rw [if_neg (Ne.symm h), if_neg h]

/-- The end of every call about a job: its event tells the status it is stored with. -/
theorem told_announce {m : Escrow.State} {job : Escrow.Job} {job_id : ℕ} {event : Escrow.Event}
    (hjobs : Escrow.jobs m = Escrow.jobs w) (hevents : m.events.filterMap published = [])
    (hevent : ∀ status, eventStatus id status event =
      if job_id = id then named job.status else status) :
    Told w (Escrow.announce (Escrow.saveJob m job_id job) job_id job event) id := by
  have hpublished : (Escrow.announce (Escrow.saveJob m job_id job) job_id job event).events.filterMap
      published = [event, .stateJob job_id job] := by
    rw [published_announce]
    show m.events.filterMap published ++ _ = _
    rw [hevents]
    rfl
  have hinsert : Escrow.jobs (Escrow.announce (Escrow.saveJob m job_id job) job_id job event) =
      (Escrow.jobs w).insert job_id job := by
    rw [Escrow.jobs_announce, Escrow.jobs_saveJob, hjobs]
  rw [Told, hpublished, recordStatus_insert hinsert]
  exact hevent _

/-- A call that keeps the jobs and publishes nothing about them -/
theorem told_kept (hjobs : Escrow.jobs w' = Escrow.jobs w)
    (hevents : ∀ status, (w'.events.filterMap published).foldl (eventStatus id) status = status) :
    Told w w' id := by
  rw [Told, hevents, recordStatus, recordStatus, hjobs]

theorem resolveDispute_silent {arbiter : Address} {job_id : ℕ} {favor_worker : Bool}
    (h : Escrow.resolveDispute env w.quiet arbiter job_id favor_worker = .ok w')
    (status : JobStatus) :
    (w'.events.filterMap published).foldl (eventStatus id) status = status := by
  simp only [Escrow.resolveDispute, Result.bind_eq_ok, Result.pure_eq_ok, Prod.exists] at h
  obtain ⟨_, _, _, _, job, _, _, _, _, _, _, _, job', m, hpay, rfl⟩ := h
  have hevents : m.events.filterMap published = [] := by
    cases favor_worker with
    | true =>
        simp only [if_true, Result.bind_eq_ok, World.transfer_eq_ok, Result.pure_eq_ok,
          Prod.mk.injEq] at hpay
        obtain ⟨worker, _, _, ⟨_, _, rfl⟩, _, rfl⟩ := hpay
        rfl
    | false =>
        simp only [Bool.false_eq_true, if_false, Result.bind_eq_ok, World.transfer_eq_ok,
          Result.pure_eq_ok, Prod.mk.injEq] at hpay
        obtain ⟨_, ⟨_, _, rfl⟩, _, rfl⟩ := hpay
        rfl
  rw [published_announce]
  show (m.events.filterMap published ++ _).foldl (eventStatus id) status = _
  rw [hevents]
  rfl

/-- **Every call but a resolution tells what it does.** -/
theorem exec_told {call : Escrow.Call} (h : Escrow.exec env w.quiet call = .ok w')
    (hcall : ∀ arbiter favor_worker, call ≠ .resolveDispute arbiter id favor_worker) :
    Told w w' id := by
  cases call with
  | createJob requester token amount task_description deadline_ledger arbiter =>
      simp only [Escrow.exec, Result.map_eq_ok] at h
      obtain ⟨⟨job_id, w1⟩, h, rfl⟩ := h
      simp only [Escrow.createJob, Escrow.nextId, Result.bind_eq_ok, World.transfer_eq_ok,
        checkU64_eq_ok, Result.pure_eq_ok, Prod.exists, Prod.mk.injEq] at h
      obtain ⟨_, _, _, _, _, _, w1, ⟨_, _, rfl⟩, _, w2, ⟨n, _, rfl, rfl⟩, rfl, rfl⟩ := h
      exact told_announce rfl rfl fun status => rfl
  | acceptJob worker job_id =>
      simp only [Escrow.exec, Escrow.acceptJob, Result.bind_eq_ok, Result.pure_eq_ok] at h
      obtain ⟨_, _, job, _, _, _, _, _, rfl⟩ := h
      exact told_announce rfl rfl fun status => rfl
  | submitResult worker job_id result =>
      simp only [Escrow.exec, Escrow.submitResult, Result.bind_eq_ok, Result.pure_eq_ok] at h
      obtain ⟨_, _, job, _, _, _, _, _, _, _, rfl⟩ := h
      exact told_announce rfl rfl fun status => rfl
  | release releaser job_id =>
      simp only [Escrow.exec, Escrow.release, Result.bind_eq_ok, World.transfer_eq_ok,
        Result.pure_eq_ok] at h
      obtain ⟨_, _, _, _, job, _, _, _, _, _, worker, _, _, ⟨_, _, rfl⟩, rfl⟩ := h
      exact told_announce rfl rfl fun status => rfl
  | refund requester job_id =>
      simp only [Escrow.exec, Escrow.refund, Result.bind_eq_ok, World.transfer_eq_ok,
        Result.pure_eq_ok] at h
      obtain ⟨_, _, job, _, _, _, _, _, _, _, _, ⟨_, _, rfl⟩, rfl⟩ := h
      exact told_announce rfl rfl fun status => rfl
  | dispute requester job_id =>
      simp only [Escrow.exec, Escrow.dispute, Result.bind_eq_ok, Result.pure_eq_ok] at h
      obtain ⟨_, _, job, _, _, _, _, _, _, _, deadline, _, rfl⟩ := h
      exact told_announce rfl rfl fun status => rfl
  | resolveDispute arbiter job_id favor_worker =>
      have hne : job_id ≠ id := fun heq => hcall arbiter favor_worker (heq ▸ rfl)
      obtain ⟨job, -, -, -, hjobs⟩ := Escrow.resolveDispute_stores h
      rw [Told, resolveDispute_silent h, recordStatus_insert hjobs, if_neg hne]
  | setMultisigConfig caller owners threshold window =>
      simp only [Escrow.exec, Escrow.setMultisigConfig, Result.bind_eq_ok, Result.pure_eq_ok] at h
      obtain ⟨_, _, _, _, _, _, _, _, m, hgate, rfl⟩ := h
      have hkept := Escrow.configGate_ok hgate
      refine told_kept hkept.jobs_eq fun status => ?_
      rw [published_publish]
      show (m.events.filterMap published ++ _).foldl (eventStatus id) status = _
      rw [hkept.events_eq]
      rfl
  | proposeCircuitBreaker owner circuit_breaker =>
      simp only [Escrow.exec, Escrow.proposeCircuitBreaker, Result.bind_eq_ok,
        Result.pure_eq_ok] at h
      obtain ⟨_, _, _, _, rfl⟩ := h
      exact told_kept rfl fun status => rfl
  | setCircuitBreaker admin circuit_breaker =>
      simp only [Escrow.exec, Escrow.setCircuitBreaker, Result.bind_eq_ok, Result.pure_eq_ok] at h
      obtain ⟨_, _, m, hgate, rfl⟩ := h
      have hkept := Escrow.breakerGate_ok hgate
      refine told_kept hkept.jobs_eq fun status => ?_
      show (m.events.filterMap published).foldl (eventStatus id) status = _
      rw [hkept.events_eq]
      rfl

end

/-! ## Runs -/

section

variable {P : Platform} {d : Deployment} {w0 w w' : Escrow.State} {a : Soroban.Action Escrow.Call}
  {tr : List Escrow.Tx} {id : ℕ}

/-- The transaction resolves a dispute about the job. -/
def Resolves (x : Escrow.Tx) (id : ℕ) : Prop :=
  ∃ env arbiter favor_worker, Escrow.escrow.Calls x env (.resolveDispute arbiter id favor_worker)

theorem step_told (hst : Escrow.Step P d w a w') (hresolves : ¬ Resolves ⟨w, a, w'⟩ id) :
    Told w w' id := by
  rcases Contract.step_cases hst with ⟨hstorage, -, hevents, -⟩ | ⟨env, call, hact, -, -, hexec⟩
  · refine told_kept (Escrow.jobs_congr hstorage) fun status => ?_
    rw [hevents]
    rfl
  · refine exec_told hexec fun arbiter favor_worker hcall => hresolves ?_
    exact ⟨env, arbiter, favor_worker, hcall ▸ hact, hcall ▸ hexec⟩

/-- What a run has told of a job -/
def told (tr : List Escrow.Tx) (id : ℕ) : JobStatus :=
  ((emitted tr).map Prod.snd).foldl (eventStatus id) .Unknown

theorem told_snoc (tr : List Escrow.Tx) (x : Escrow.Tx) :
    told (tr ++ [x]) id =
      (x.post.events.filterMap published).foldl (eventStatus id) (told tr id) := by
  have hlast : (emitted [x]).map Prod.snd = x.post.events.filterMap published := by
    simp [emitted]
  have hemitted : emitted (tr ++ [x]) = emitted tr ++ emitted [x] := List.flatMap_append
  rw [told, hemitted, List.map_append, List.foldl_append, hlast, told]

/-- **The run lemma**: without resolutions the events tell the status of the record. -/
theorem told_run (h0 : Escrow.Genesis w0) (h : Escrow.Runs P d w0 tr w)
    (hresolves : ∀ x ∈ tr, ¬ Resolves x id) : told tr id = recordStatus w id := by
  refine h.history_of (P := fun tr m => told tr id = recordStatus m id) hresolves ?_
    fun xs m a m' _ ih hst hstep => ?_
  · rw [recordStatus, Escrow.jobs, h0.storage]
    rfl
  · rw [told_snoc, ih]
    exact step_told hst hstep

/-- A resolution is not told. -/
theorem resolved_untold {x : Escrow.Tx} (hresolves : Resolves x id) (tr : List Escrow.Tx) :
    told (tr ++ [x]) id = told tr id ∧ recordStatus x.pre id = .Disputed ∧
      recordStatus x.post id ≠ .Disputed := by
  obtain ⟨env, arbiter, favor_worker, -, hexec⟩ := hresolves
  obtain ⟨job, hjob, hdisputed, -, hjobs⟩ := Escrow.resolveDispute_stores hexec
  refine ⟨?_, ?_, ?_⟩
  · rw [told_snoc, resolveDispute_silent hexec]
  · rw [recordStatus, hjob, Option.map_some, hdisputed]
    rfl
  · rw [recordStatus_insert hjobs, if_pos rfl]
    cases favor_worker <;> exact JobStatus.noConfusion

end

/-! ## The statuses that are reported -/

section

variable {asString : Native → String} {localeCompare : String → String → Ordering}
  {addressText : Address → String} {address : String} {raws : List RawContractEvent}
  {tr : List Escrow.Tx} {w : Escrow.State} {id : ℕ}

/-- The stores report what the run has told. -/
theorem reports_iff (hstream : Streams addressText raws tr) (horder : InOrder localeCompare raws) :
    Reports asString localeCompare address raws w id ↔ told tr id = recordStatus w id := by
  obtain ⟨hstore, hmemory⟩ := status_jobLifecycle id hstream horder
  constructor
  · intro h
    let store : EventStore := { EventStore.empty with events := rowsOf asString address raws }
    rw [← h.1 store (List.Perm.refl _)]
    exact (hstore store (List.Perm.refl _)).symm
  · intro h
    exact ⟨fun store hheld => (hstore store hheld).trans h,
      fun store hheld => (hmemory store hheld).trans h⟩

/-- The stream of the first transactions is the first part of the stream. -/
theorem streams_prefix {xs ys : List Escrow.Tx} (hstream : Streams addressText raws (xs ++ ys)) :
    Streams addressText (raws.take (emitted xs).length) xs := by
  have hemitted : emitted (xs ++ ys) = emitted xs ++ emitted ys := List.flatMap_append
  rw [Streams, hemitted] at hstream
  exact List.forall₂_take_append raws (emitted xs) (emitted ys) hstream

theorem InOrder.sublist {raws' : List RawContractEvent} (h : InOrder localeCompare raws)
    (hsub : raws'.Sublist raws) : InOrder localeCompare raws' :=
  List.Pairwise.sublist (hsub.map _) h

end

/-- After every part of a run that stands at its beginning, both stores report the status of the
contract's record, when they hold the events of this part. -/
def StatusIndexed (asString : Native → String) (localeCompare : String → String → Ordering)
    (addressText : Address → String) (address : String) (P : Platform) (d : Deployment)
    (w0 : Escrow.State) (tr : List Escrow.Tx) (raws : List RawContractEvent) (id : ℕ) : Prop :=
  ∀ xs m raws', xs <+: tr → Escrow.Runs P d w0 xs m → raws' <+: raws →
    Streams addressText raws' xs → Reports asString localeCompare address raws' m id

/-- **The indexed status is the contract's**, throughout a run, exactly if the run has no
resolution of a dispute about the job. -/
theorem indexed_status_iff (asString : Native → String)
    (localeCompare : String → String → Ordering) (addressText : Address → String)
    (address : String) {P : Platform} {d : Deployment} {w0 w : Escrow.State}
    {tr : List Escrow.Tx} (h0 : Escrow.Genesis w0) (h : Escrow.Runs P d w0 tr w)
    {raws : List RawContractEvent} (hstream : Streams addressText raws tr)
    (horder : InOrder localeCompare raws) (id : ℕ) :
    StatusIndexed asString localeCompare addressText address P d w0 tr raws id ↔
      ∀ x ∈ tr, ¬ Resolves x id := by
  constructor
  · intro hindexed x hx hresolves
    obtain ⟨xs, ys, rfl, hbefore, hst, -⟩ := h.of_mem hx
    obtain ⟨hsame, hpre, hpost⟩ := resolved_untold hresolves xs
    have htold : ∀ zs rest m, xs ++ x :: ys = zs ++ rest → Escrow.Runs P d w0 zs m →
        told zs id = recordStatus m id := by
      intro zs rest m hsplit hrun
      have hstream' := streams_prefix (hsplit ▸ hstream)
      exact (reports_iff hstream' (horder.sublist (List.take_sublist _ _))).mp
        (hindexed zs m _ ⟨rest, hsplit.symm⟩ hrun (List.take_prefix _ _) hstream')
    have hprevious := htold xs (x :: ys) x.pre rfl hbefore
    have hnext := htold (xs ++ [x]) ys x.post (by simp) (hbefore.snoc hst)
    rw [hsame, hprevious, hpre] at hnext
    exact hpost hnext.symm
  · intro hnone xs m raws' hxs hrun hraws hstream'
    refine (reports_iff hstream' (horder.sublist hraws.sublist)).mpr ?_
    exact told_run h0 hrun fun x hx => hnone x (hxs.subset hx)

/-! ## A stream -/

/-- A raw event, whose token counts the events before it -/
def sampleRaw (event : (ℕ × Escrow.Event) × ℕ) : RawContractEvent where
  id := String.ofList (List.replicate event.2 '1')
  ledger := event.1.1
  ledgerClosedAt := ""
  contractId := some "CESCROW"
  txHash := ""
  pagingToken := String.ofList (List.replicate event.2 '1')
  topic := (topics event.1.2).map fun topic => ⟨topic, ""⟩
  value := ⟨eventValue (fun _ => "G") event.1.2, ""⟩

def sampleRaws (tr : List Escrow.Tx) : List RawContractEvent :=
  (emitted tr).zipIdx.map sampleRaw

theorem streams_sampleRaws (tr : List Escrow.Tx) :
    Streams (fun _ => "G") (sampleRaws tr) tr := by
  have hcarries : ∀ event : (ℕ × Escrow.Event) × ℕ,
      Carries (fun _ => "G") (sampleRaw event) event.1 := by
    intro event
    refine ⟨rfl, ?_, rfl⟩
    show ((topics event.1.2).map fun topic => (⟨topic, ""⟩ : ScVal)).map ScVal.native = _
    rw [List.map_map]
    exact List.map_id _
  rw [Streams, sampleRaws, List.forall₂_map_left_iff]
  have hzip : ∀ (events : List (ℕ × Escrow.Event)) (start : ℕ),
      List.Forall₂ (fun numbered event => Carries (fun _ => "G") (sampleRaw numbered) event)
        (events.zipIdx start) events := by
    intro events
    induction events with
    | nil => exact fun start => List.Forall₂.nil
    | cons event events ih =>
        exact fun start => List.Forall₂.cons (hcarries (event, start)) (ih (start + 1))
  exact hzip (emitted tr) 0

section

open LocalNet Escrow

/-- A job that is done and released -/
def releasedJob : List Escrow.Line :=
  [offers 30] ++ does 1 ++ [signed [account 1] (.release (account 1) 1)]

def resolves : Soroban.Action Escrow.Call → Bool
  | .invoke _ (.resolveDispute ..) => true
  | _ => false

theorem indexed_status_released :
    StatusIndexed (fun _ => "") compare (fun _ => "G") "CESCROW" platform deployed
      Escrow.deployment (escrow.history Escrow.deployment releasedJob)
      (sampleRaws (escrow.history Escrow.deployment releasedJob)) 1 := by
  refine (indexed_status_iff (fun _ => "") compare (fun _ => "G") "CESCROW" deployment_genesis
    (Contract.script_runs releasedJob (by decide +kernel)) (streams_sampleRaws _) ?_ 1).mpr ?_
  · unfold InOrder
    decide +kernel
  · have hnone : ∀ x ∈ escrow.history Escrow.deployment releasedJob, resolves x.act = false := by
      decide +kernel
    rintro x hx ⟨env, arbiter, favor_worker, hact, -⟩
    have hother := hnone x hx
    rw [hact] at hother
    cases hother

/-- A job that is done and disputed, and that the arbiter decides for the worker -/
def resolvedJob : List Escrow.Line :=
  [offers 30] ++ does 1 ++ [
    signed [account 1] (.dispute (account 1) 1),
    signed [account 3] (.resolveDispute (account 3) 1 true)]

/-- The contract has completed the job, and both stores report a dispute. -/
theorem resolved_job_indexed_disputed :
    ¬ StatusIndexed (fun _ => "") compare (fun _ => "G") "CESCROW" platform deployed
      Escrow.deployment (escrow.history Escrow.deployment resolvedJob)
      (sampleRaws (escrow.history Escrow.deployment resolvedJob)) 1 := by
  intro hindexed
  have hrun : Escrow.Runs platform deployed Escrow.deployment
      (escrow.history Escrow.deployment resolvedJob)
      (escrow.outcome Escrow.deployment resolvedJob) :=
    Contract.script_runs resolvedJob (by decide +kernel)
  have horder : InOrder compare (sampleRaws (escrow.history Escrow.deployment resolvedJob)) := by
    unfold InOrder
    decide +kernel
  have hreports := hindexed _ _ _ List.prefix_rfl hrun List.prefix_rfl (streams_sampleRaws _)
  have htold := (reports_iff (streams_sampleRaws _) horder).mp hreports
  revert htold
  decide +kernel

end

end StellarAgent.Indexer.Jobs
