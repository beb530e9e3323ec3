import StellarAgent.Indexer.Delivery

set_option autoImplicit false

/-! # The delivery protocol

What holds of every delivery over every run of any number of workers. A row that is delivered stays
as it is, and there is one artifact and one delivery for each run and destination
(`delivered_final`, `one_delivery`). That a delivery leaves `delivering` only through the worker
with the latest claim, and within its attempts, wants that no claim is taken over from a worker that
is still at it, nor beyond the last attempt (`delivery_protocol`): completion does not name the
claim, and taking over does not count the attempts.
-/

namespace StellarAgent.Indexer

open Lib ReportDeliveryStore

/-! ## Keys -/

/-- The ids and keys of the tables are unique, and a delivery has the key of its run and
destination. -/
structure Keyed (store : ReportDeliveryStore) : Prop where
  runs : (store.artifacts.map StoredReportArtifact.runKey).Nodup
  ids : (store.deliveries.map ReportDelivery.deliveryId).Nodup
  keys : (store.deliveries.map ReportDelivery.idempotencyKey).Nodup
  named : ∀ row ∈ store.deliveries, row.idempotencyKey =
    ReportDeliveryStore.idempotencyKey row.scheduleId row.runKey row.destination.id

/-- A change of a row that keeps what identifies it -/
structure KeepsKeys (set : ReportDelivery → ReportDelivery) : Prop where
  id : ∀ row, (set row).deliveryId = row.deliveryId
  key : ∀ row, (set row).idempotencyKey = row.idempotencyKey
  name : ∀ row, (set row).scheduleId = row.scheduleId ∧ (set row).runKey = row.runKey ∧
    (set row).destination = row.destination

theorem keepsKeys_claimed (timestamp leaseMs : ℕ) : KeepsKeys (claimed timestamp leaseMs) :=
  ⟨fun _ => rfl, fun _ => rfl, fun _ => ⟨rfl, rfl, rfl⟩⟩

theorem keepsKeys_delivered (now : ℕ) : KeepsKeys (delivered now) :=
  ⟨fun _ => rfl, fun _ => rfl, fun _ => ⟨rfl, rfl, rfl⟩⟩

theorem keepsKeys_failed (status : DeliveryStatus) (error : String) (nextAttemptAt now : ℕ) :
    KeepsKeys (failed status error nextAttemptAt now) :=
  ⟨fun _ => rfl, fun _ => rfl, fun _ => ⟨rfl, rfl, rfl⟩⟩

theorem keepsKeys_replayed (now : ℕ) : KeepsKeys (replayed now) :=
  ⟨fun _ => rfl, fun _ => rfl, fun _ => ⟨rfl, rfl, rfl⟩⟩

section

variable {store : ReportDeliveryStore} {set : ReportDelivery → ReportDelivery}

/-- The columns that `set` keeps are those of the table before. -/
theorem update_map {B : Type} (column : ReportDelivery → B) (h : ∀ row, column (set row) = column row)
    (deliveryId : String) (which : ReportDelivery → Bool) :
    (store.update deliveryId which set).deliveries.map column = store.deliveries.map column := by
  rw [update, List.map_map]
  refine List.map_congr_left fun row _ => ?_
  show column (if row.deliveryId = deliveryId ∧ which row = true then set row else row) = column row
  split_ifs
  · exact h row
  · rfl

theorem Keyed.update (h : Keyed store) (hset : KeepsKeys set) (deliveryId : String)
    (which : ReportDelivery → Bool) : Keyed (store.update deliveryId which set) where
  runs := h.runs
  ids := by
    rw [update_map _ hset.id]
    exact h.ids
  keys := by
    rw [update_map _ hset.key]
    exact h.keys
  named := by
    intro row hrow
    obtain ⟨old, hold, rfl⟩ := List.mem_map.mp hrow
    have hnamed := h.named old hold
    split_ifs
    · obtain ⟨hschedule, hrun, hdestination⟩ := hset.name old
      rw [hset.key, hschedule, hrun, hdestination]
      exact hnamed
    · exact hnamed

/-- The row of a delivery after an update -/
theorem delivery_update (hset : KeepsKeys set) (deliveryId d : String)
    (which : ReportDelivery → Bool) :
    (store.update deliveryId which set).delivery d =
      (store.delivery d).map fun row => if d = deliveryId ∧ which row = true then set row else row := by
  unfold delivery update
  rw [List.find?_map]
  have hsame : ∀ row : ReportDelivery, ((fun other : ReportDelivery =>
      decide (other.deliveryId = d)) ∘ fun row =>
        if row.deliveryId = deliveryId ∧ which row = true then set row else row) row =
      decide (row.deliveryId = d) := by
    intro row
    show decide ((if row.deliveryId = deliveryId ∧ which row = true then set row
      else row).deliveryId = d) = _
    split_ifs
    · rw [hset.id]
    · rfl
  rw [funext hsame]
  cases hfind : store.deliveries.find? fun row => row.deliveryId = d with
  | none => rfl
  | some row =>
      have hid : row.deliveryId = d := by simpa using List.find?_some hfind
      rw [Option.map_some, Option.map_some, hid]

/-- A row of the table is the row of its id. -/
theorem delivery_of_mem (h : Keyed store) {row : ReportDelivery} (hrow : row ∈ store.deliveries) :
    store.delivery row.deliveryId = some row := by
  cases hfind : store.delivery row.deliveryId with
  | none =>
      have := List.find?_eq_none.mp hfind row hrow
      simp at this
  | some other =>
      have hid : other.deliveryId = row.deliveryId := by simpa using List.find?_some hfind
      have hmem : other ∈ store.deliveries := List.mem_of_find?_eq_some hfind
      rw [List.inj_on_of_nodup_map h.ids hmem hrow hid]

theorem any_status {row : Option ReportDelivery} {status : DeliveryStatus} :
    row.any (·.status = status) = true ↔ ∃ r, row = some r ∧ r.status = status := by
  cases row with
  | none => simp
  | some row => simp

end

/-! ## Generation -/

section

variable {hash : List UInt8 → String} {store store' : ReportDeliveryStore}

theorem insertDelivery_cases (schedule : ReportSchedule) (runKey artifactId : String)
    (timestamp : ℕ) (deliveries : List ReportDelivery) (destination : ReportDestination) :
    insertDelivery hash schedule runKey artifactId timestamp deliveries destination = deliveries ∨
      ∃ row, insertDelivery hash schedule runKey artifactId timestamp deliveries destination =
          deliveries ++ [row] ∧
        (∀ other ∈ deliveries, other.deliveryId ≠ row.deliveryId ∧
          other.idempotencyKey ≠ row.idempotencyKey) ∧
        row.idempotencyKey =
          ReportDeliveryStore.idempotencyKey row.scheduleId row.runKey row.destination.id ∧
        row.status = .pending ∧ row.attemptCount = 0 := by
  unfold insertDelivery
  dsimp only
  split_ifs with hany
  · exact .inl rfl
  · refine .inr ⟨_, rfl, ?_, rfl, rfl, rfl⟩
    intro other hother
    have hnone := List.any_eq_false.mp (Bool.not_eq_true _ ▸ hany) other hother
    simpa [not_or] using hnone

theorem Keyed.snoc {row : ReportDelivery} (h : Keyed store)
    (hfresh : ∀ other ∈ store.deliveries, other.deliveryId ≠ row.deliveryId ∧
      other.idempotencyKey ≠ row.idempotencyKey)
    (hkey : row.idempotencyKey =
      ReportDeliveryStore.idempotencyKey row.scheduleId row.runKey row.destination.id) :
    Keyed { store with deliveries := store.deliveries ++ [row] } where
  runs := h.runs
  ids := by
    rw [List.map_append, List.map_singleton, List.nodup_append]
    refine ⟨h.ids, List.nodup_singleton _, ?_⟩
    intro id hid other hother
    obtain ⟨old, hold, rfl⟩ := List.mem_map.mp hid
    rw [List.mem_singleton.mp hother]
    exact (hfresh old hold).1
  keys := by
    rw [List.map_append, List.map_singleton, List.nodup_append]
    refine ⟨h.keys, List.nodup_singleton _, ?_⟩
    intro key hkey other hother
    obtain ⟨old, hold, rfl⟩ := List.mem_map.mp hkey
    rw [List.mem_singleton.mp hother]
    exact (hfresh old hold).2
  named := by
    rw [List.forall_mem_append, List.forall_mem_singleton]
    exact ⟨h.named, hkey⟩

/-- New rows of deliveries: the old ones stay, and are followed by pending ones with new keys. -/
theorem insertDeliveries (schedule : ReportSchedule) (runKey artifactId : String) (timestamp : ℕ)
    (destinations : List ReportDestination) (store : ReportDeliveryStore) (h : Keyed store) :
    let deliveries := destinations.foldl
      (insertDelivery hash schedule runKey artifactId timestamp) store.deliveries
    Keyed { store with deliveries } ∧
      ∀ d, (ReportDeliveryStore.mk store.artifacts deliveries).delivery d = store.delivery d ∨
        store.delivery d = none ∧
          ∃ row, (ReportDeliveryStore.mk store.artifacts deliveries).delivery d = some row ∧
            row.status = .pending ∧ row.attemptCount = 0 := by
  induction destinations generalizing store with
  | nil => exact ⟨h, fun d => .inl rfl⟩
  | cons destination destinations ih =>
      rw [List.foldl_cons]
      rcases insertDelivery_cases schedule runKey artifactId timestamp
        store.deliveries destination with hsame | ⟨row, hnew, hfresh, hkey, hstatus, hcount⟩
      · rw [hsame]
        exact ih store h
      · rw [hnew]
        obtain ⟨hkeyed, hrows⟩ :=
          ih { store with deliveries := store.deliveries ++ [row] } (h.snoc hfresh hkey)
        refine ⟨hkeyed, fun d => ?_⟩
        have hsnoc : (ReportDeliveryStore.mk store.artifacts
            (store.deliveries ++ [row])).delivery d =
            (store.delivery d).or (if row.deliveryId = d then some row else none) := by
          rw [delivery, List.find?_append, List.find?_singleton]
          simp [delivery]
        rcases hrows d with hkept | ⟨hnone, hpending⟩
        · rw [hkept, hsnoc]
          cases hd : store.delivery d with
          | some old => exact .inl rfl
          | none =>
              by_cases hid : row.deliveryId = d
              · exact .inr ⟨rfl, row, by rw [if_pos hid]; rfl, hstatus, hcount⟩
              · exact .inl (by rw [if_neg hid]; rfl)
        · rw [hsnoc, Option.or_eq_none_iff] at hnone
          exact .inr ⟨hnone.1, hpending⟩

theorem insertArtifact_runs {artifacts : List StoredReportArtifact}
    (h : (artifacts.map StoredReportArtifact.runKey).Nodup) (artifact : StoredReportArtifact) :
    ((insertArtifact artifacts artifact).map StoredReportArtifact.runKey).Nodup := by
  unfold insertArtifact
  split_ifs with hany
  · exact h
  · rw [List.map_append, List.map_singleton, List.nodup_append]
    refine ⟨h, List.nodup_singleton _, ?_⟩
    intro key hkey other hother
    obtain ⟨old, hold, rfl⟩ := List.mem_map.mp hkey
    have hnone := List.any_eq_false.mp (Bool.not_eq_true _ ▸ hany) old hold
    rw [List.mem_singleton.mp hother]
    simp only [Bool.or_eq_true, decide_eq_true_eq, not_or] at hnone
    exact hnone.2

/-- **What a generation does**: it keeps the rows of deliveries and adds pending ones. -/
theorem enqueueArtifact_rows {schedule : ReportSchedule} {runKey : String} {period : StatementPeriod}
    {generated : GeneratedReportArtifact} {now : ℕ} (h : Keyed store)
    (hok : store.enqueueArtifact hash schedule runKey period generated now = .ok store') :
    Keyed store' ∧ ∀ d, store'.delivery d = store.delivery d ∨
      store.delivery d = none ∧ ∃ row, store'.delivery d = some row ∧
        row.status = .pending ∧ row.attemptCount = 0 := by
  unfold enqueueArtifact at hok
  dsimp only at hok
  split at hok
  · cases hok
  · split_ifs at hok
    have hruns := insertArtifact_runs h.runs
    obtain rfl := Except.ok.inj hok
    obtain ⟨hkeyed, hrows⟩ := insertDeliveries schedule runKey _ now schedule.destinations
      store h
    exact ⟨⟨hruns _, hkeyed.ids, hkeyed.keys, hkeyed.named⟩, hrows⟩

end

/-! ## What a step does -/

section

variable {options : ServiceOptions} {hash : List UInt8 → String} {s t : System} {a : Action}

/-- The worker that acts -/
def Action.worker : Action → Option ℕ
  | .start w _ _ | .claim w | .answer w _ | .settle w | .crash w => some w
  | .enqueue .. | .replay .. => none

/-- **What a step can do to the row of a delivery.** -/
inductive RowStep (options : ServiceOptions) (s t : System) (a : Action) (d : String) : Prop where
  | same (h : t.store.delivery d = s.store.delivery d)
      (hclaim : ∀ w claim, a = .claim w → (t.workers w).claim? = some claim →
        claim.delivery.deliveryId ≠ d)
      (hreplay : ∀ now, a = .replay d now →
        ¬ (s.store.delivery d).any (·.status = .dead_letter) = true)
  | created (row : ReportDelivery) (hact : a.worker = none) (hreplay : ∀ id now, a ≠ .replay id now)
      (hs : s.store.delivery d = none) (ht : t.store.delivery d = some row)
      (hstatus : row.status = .pending) (hcount : row.attemptCount = 0)
  | claimed (w : ℕ) (row : ReportDelivery) (tick : Tick) (claim : ClaimedDelivery)
      (hact : a = .claim w) (hworker : s.workers w = .looping tick) (hleft : tick.left ≠ 0)
      (hdue : s.store.firstDue tick.now = some row) (hs : s.store.delivery d = some row)
      (ht : t.store.delivery d = some (claimed tick.now options.leaseMs row))
      (hclaim : (t.workers w).claim? = some claim) (hid : claim.delivery.deliveryId = d)
  | settled (w : ℕ) (row row' : ReportDelivery) (claim : ClaimedDelivery) (hact : a = .settle w)
      (hclaim : (s.workers w).claim? = some claim) (hid : claim.delivery.deliveryId = d)
      (hs : s.store.delivery d = some row) (hdelivering : row.status = .delivering)
      (ht : t.store.delivery d = some row') (hcount : row'.attemptCount = row.attemptCount)
      (hstatus : row'.status = .delivered ∨ row'.status = .dead_letter ∨
        row'.status = .retry ∧ row.attemptCount < options.maxAttempts)
  | replayed (now : ℕ) (row : ReportDelivery) (hact : a = .replay d now)
      (hs : s.store.delivery d = some row) (hdead : row.status = .dead_letter)
      (ht : t.store.delivery d = some (replayed now row))

theorem goOn_workers (s : System) (w v : ℕ) (store : ReportDeliveryStore) (worker : Worker) :
    (s.goOn w store worker).workers v = if v = w then worker else s.workers v :=
  Function.update_apply _ _ _ _

/-- The selected row is one of the table that is due. -/
theorem firstDue_mem {store : ReportDeliveryStore} {now : ℕ} {row : ReportDelivery}
    (h : store.firstDue now = some row) : row ∈ store.deliveries ∧ isDue now row = true := by
  have hmem := List.mem_of_mem_head? (Option.mem_def.mpr h)
  rw [List.mem_insertionSort] at hmem
  exact List.mem_filter.mp hmem

/-- The head of the loop ends the call, or claims the row that is selected. -/
theorem claimNext_cases (options : ServiceOptions) (s : System) (w : ℕ) (tick : Tick) :
    claimNext options s w tick = s.goOn w s.store .idle ∨
      ∃ row tick' claim, tick.left ≠ 0 ∧ s.store.firstDue tick.now = some row ∧
        claim.delivery = claimed tick.now options.leaseMs row ∧
        claimNext options s w tick = s.goOn w (s.store.update row.deliveryId
          (fun other => other.status = row.status ∧ other.attemptCount = row.attemptCount)
          (claimed tick.now options.leaseMs)) (.delivering tick' claim) := by
  unfold claimNext claimDue
  split_ifs with hleft hlease
  · exact .inl rfl
  · exact .inl rfl
  · cases hdue : s.store.firstDue tick.now with
    | none => exact .inl rfl
    | some row =>
        dsimp only
        cases hartifact : s.store.artifacts.find? (·.artifactId = row.artifactId) with
        | none => exact .inl rfl
        | some artifact => exact .inr ⟨row, _, _, hleft, rfl, rfl, rfl⟩

/-- The row after a failed attempt -/
theorem catchError_cases (options : ServiceOptions) (s : System) (w : ℕ) (tick : Tick)
    (claim : ClaimedDelivery) (error : String) :
    catchError options s w tick claim error = s.goOn w s.store .idle ∨
      ∃ row tick' status nextAttemptAt, s.store.delivery claim.delivery.deliveryId = some row ∧
        row.status = .delivering ∧
        (status = .dead_letter ∨ status = .retry ∧ row.attemptCount < options.maxAttempts) ∧
        catchError options s w tick claim error =
          s.goOn w (s.store.update claim.delivery.deliveryId (fun _ => true)
            (failed status error nextAttemptAt tick.now)) (.looping tick') := by
  unfold catchError markFailed
  cases hrow : s.store.delivery claim.delivery.deliveryId with
  | none => exact .inl rfl
  | some row =>
      by_cases hdelivering : row.status = .delivering
      · right
        simp only [hdelivering, if_true]
        by_cases hlast : row.attemptCount ≥ options.maxAttempts
        · rw [if_pos hlast]
          exact ⟨row, _, .dead_letter, _, rfl, hdelivering, .inl rfl, rfl⟩
        · rw [if_neg hlast]
          exact ⟨row, _, .retry, _, rfl, hdelivering, .inr ⟨rfl, not_le.mp hlast⟩, rfl⟩
      · left
        simp only [hdelivering, if_false]

/-- What follows the answer of the transport ends the call, or settles the row of the claim while
it is delivering. -/
theorem settle_cases (options : ServiceOptions) (s : System) (w : ℕ) (tick : Tick)
    (claim : ClaimedDelivery) (outcome : Except String Unit) :
    settle options s w tick claim outcome = s.goOn w s.store .idle ∨
      ∃ row tick' which set, s.store.delivery claim.delivery.deliveryId = some row ∧
        row.status = .delivering ∧ which row = true ∧ KeepsKeys set ∧
        (set row).attemptCount = row.attemptCount ∧
        ((set row).status = .delivered ∨ (set row).status = .dead_letter ∨
          (set row).status = .retry ∧ row.attemptCount < options.maxAttempts) ∧
        settle options s w tick claim outcome =
          s.goOn w (s.store.update claim.delivery.deliveryId which set) (.looping tick') := by
  have hcatch : ∀ error, catchError options s w tick claim error = s.goOn w s.store .idle ∨
      ∃ row tick' which set, s.store.delivery claim.delivery.deliveryId = some row ∧
        row.status = .delivering ∧ which row = true ∧ KeepsKeys set ∧
        (set row).attemptCount = row.attemptCount ∧
        ((set row).status = .delivered ∨ (set row).status = .dead_letter ∨
          (set row).status = .retry ∧ row.attemptCount < options.maxAttempts) ∧
        catchError options s w tick claim error =
          s.goOn w (s.store.update claim.delivery.deliveryId which set) (.looping tick') := by
    intro error
    rcases catchError_cases options s w tick claim error with
      hidle | ⟨row, tick', status, nextAttemptAt, hrow, hdelivering, hstatus, hgo⟩
    · exact .inl hidle
    · exact .inr ⟨row, tick', _, _, hrow, hdelivering, rfl, keepsKeys_failed status error _ _, rfl,
        .inr hstatus, hgo⟩
  cases outcome with
  | error error => exact hcatch error
  | ok _ =>
      unfold settle markDelivered
      by_cases hdelivering : s.store.isDelivering claim.delivery.deliveryId = true
      · obtain ⟨row, hrow, hstatus⟩ := any_status.mp hdelivering
        right
        simp only [hdelivering, if_true]
        exact ⟨row, _, _, _, hrow, hstatus, by simpa using hstatus,
          keepsKeys_delivered tick.now, rfl, .inl rfl, rfl⟩
      · simp only [hdelivering]
        exact hcatch _

/-- A step of a worker that leaves the store alone -/
theorem rowStep_same {d : String} (hstore : t.store = s.store)
    (hclaim : ∀ w claim, a = .claim w → (t.workers w).claim? = some claim →
      claim.delivery.deliveryId ≠ d)
    (hreplay : ∀ now, a ≠ .replay d now) : RowStep options s t a d :=
  .same (by rw [hstore]) hclaim fun now h => absurd h (hreplay now)

/-- **Every step is one of those.** -/
theorem after_row (hkeyed : Keyed s.store) (h : after options hash s a = some t) (d : String) :
    Keyed t.store ∧ RowStep options s t a d := by
  cases a with
  | enqueue schedule runKey period generated now =>
      simp only [after] at h
      split at h
      · rename_i store hok
        obtain rfl := Option.some.inj h
        obtain ⟨hkeyed', hrows⟩ := enqueueArtifact_rows hkeyed hok
        refine ⟨hkeyed', ?_⟩
        rcases hrows d with hsame | ⟨hnone, row, hrow, hstatus, hcount⟩
        · exact .same hsame (by rintro w claim ⟨⟩) (by rintro now ⟨⟩)
        · exact .created row rfl (by rintro id now ⟨⟩) hnone hrow hstatus hcount
      · obtain rfl := Option.some.inj h
        exact ⟨hkeyed, rowStep_same rfl (by rintro w claim ⟨⟩) (by rintro now ⟨⟩)⟩
  | start w now limit =>
      simp only [after] at h
      split at h
      · obtain rfl := Option.some.inj h
        exact ⟨hkeyed, rowStep_same rfl (by rintro w claim ⟨⟩) (by rintro now ⟨⟩)⟩
      · cases h
  | claim w =>
      simp only [after] at h
      split at h
      · rename_i tick hworker
        obtain rfl := Option.some.inj h
        rcases claimNext_cases options s w tick with
          hidle | ⟨row, tick', claim, hleft, hdue, hdelivery, hgo⟩
        · rw [hidle]
          refine ⟨hkeyed, rowStep_same rfl ?_ (by rintro now ⟨⟩)⟩
          rintro v claim ⟨⟩ hclaim
          rw [goOn_workers, if_pos rfl] at hclaim
          cases hclaim
        · rw [hgo]
          refine ⟨hkeyed.update (keepsKeys_claimed _ _) _ _, ?_⟩
          have hrow := delivery_of_mem hkeyed (firstDue_mem hdue).1
          have hworker' : ((s.goOn w (s.store.update row.deliveryId
              (fun other => other.status = row.status ∧ other.attemptCount = row.attemptCount)
              (claimed tick.now options.leaseMs)) (.delivering tick' claim)).workers w).claim? =
              some claim := by
            rw [goOn_workers, if_pos rfl]
            rfl
          have hid : claim.delivery.deliveryId = row.deliveryId := by
            rw [hdelivery]
            rfl
          have hupdate := @delivery_update s.store _
            (keepsKeys_claimed tick.now options.leaseMs) row.deliveryId d
            (fun other => other.status = row.status ∧ other.attemptCount = row.attemptCount)
          by_cases hd : d = row.deliveryId
          · subst hd
            refine .claimed w row tick claim rfl hworker hleft hdue hrow ?_ hworker' hid
            refine hupdate.trans ?_
            rw [hrow]
            simp
          · refine .same (hupdate.trans ?_) ?_ (by rintro now ⟨⟩)
            · simp [hd]
            · rintro v claim' ⟨⟩ hclaim
              rw [hworker'] at hclaim
              rw [← Option.some.inj hclaim, hid]
              exact Ne.symm hd
      · cases h
  | answer w outcome =>
      simp only [after] at h
      split at h
      · obtain rfl := Option.some.inj h
        exact ⟨hkeyed, rowStep_same rfl (by rintro w claim ⟨⟩) (by rintro now ⟨⟩)⟩
      · cases h
  | settle w =>
      simp only [after] at h
      split at h
      · rename_i tick claim outcome hworker
        obtain rfl := Option.some.inj h
        rcases settle_cases options s w tick claim outcome with
          hidle | ⟨row, tick', which, set, hrow, hdelivering, hwhich, hset, hcount, hstatus, hgo⟩
        · rw [hidle]
          exact ⟨hkeyed, rowStep_same rfl (by rintro w claim ⟨⟩) (by rintro now ⟨⟩)⟩
        · rw [hgo]
          refine ⟨hkeyed.update hset _ _, ?_⟩
          have hupdate := @delivery_update s.store _ hset claim.delivery.deliveryId d which
          by_cases hd : d = claim.delivery.deliveryId
          · subst hd
            refine .settled w row (set row) claim rfl (by rw [hworker]; rfl) rfl hrow hdelivering ?_
              hcount hstatus
            refine hupdate.trans ?_
            rw [hrow]
            simp [hwhich]
          · refine .same (hupdate.trans ?_) (by rintro w claim ⟨⟩) (by rintro now ⟨⟩)
            simp [hd]
      · cases h
  | crash w =>
      obtain rfl := Option.some.inj h
      exact ⟨hkeyed, rowStep_same rfl (by rintro w claim ⟨⟩) (by rintro now ⟨⟩)⟩
  | replay deliveryId now =>
      simp only [after, replayDeadLetter] at h
      by_cases hdead : (s.store.delivery deliveryId).any (·.status = .dead_letter) = true
      · rw [if_pos hdead] at h
        obtain rfl := Option.some.inj h
        refine ⟨hkeyed.update (keepsKeys_replayed now) _ _, ?_⟩
        have hupdate := @delivery_update s.store _ (keepsKeys_replayed now) deliveryId d
          (·.status = .dead_letter)
        obtain ⟨row, hrow, hstatus⟩ := any_status.mp hdead
        by_cases hd : d = deliveryId
        · subst hd
          refine .replayed now row rfl hrow hstatus (hupdate.trans ?_)
          rw [hrow]
          simp [hstatus]
        · refine .same (hupdate.trans ?_) (by rintro w claim ⟨⟩) ?_
          · simp [hd]
          · rintro now' hsame
            exact absurd (Action.replay.inj hsame).1.symm hd
      · rw [if_neg hdead] at h
        obtain rfl := Option.some.inj h
        refine ⟨hkeyed, .same rfl (by rintro w claim ⟨⟩) ?_⟩
        rintro now' hsame
        rw [← (Action.replay.inj hsame).1]
        exact hdead

/-- **The claims that workers are at**: a new one comes from `claim`, and `settle` ends one. -/
theorem after_claims (h : after options hash s a = some t) {v : ℕ} {claim : ClaimedDelivery}
    (hclaim : (t.workers v).claim? = some claim) :
    (s.workers v).claim? = some claim ∧ a ≠ .settle v ∨ a = .claim v := by
  have hgoOn : ∀ w store worker, t = s.goOn w store worker → v ≠ w →
      (s.workers v).claim? = some claim := by
    rintro w store worker rfl hne
    rwa [goOn_workers, if_neg hne] at hclaim
  have hended : ∀ w store worker, t = s.goOn w store worker → worker.claim? = none → v ≠ w := by
    rintro w store worker rfl hnone rfl
    rw [goOn_workers, if_pos rfl, hnone] at hclaim
    cases hclaim
  cases a with
  | enqueue schedule runKey period generated now =>
      simp only [after] at h
      split at h
      all_goals
        obtain rfl := Option.some.inj h
        exact .inl ⟨hclaim, by rintro ⟨⟩⟩
  | start w now limit =>
      simp only [after] at h
      split at h
      · obtain rfl := Option.some.inj h
        exact .inl ⟨hgoOn _ _ _ rfl (hended _ _ _ rfl rfl), by rintro ⟨⟩⟩
      · cases h
  | claim w =>
      by_cases hv : v = w
      · exact .inr (by rw [hv])
      · simp only [after] at h
        split at h
        · rename_i tick hworker
          obtain rfl := Option.some.inj h
          rcases claimNext_cases options s w tick with hidle | ⟨_, _, _, _, _, _, hgo⟩
          · exact .inl ⟨hgoOn _ _ _ hidle hv, by rintro ⟨⟩⟩
          · exact .inl ⟨hgoOn _ _ _ hgo hv, by rintro ⟨⟩⟩
        · cases h
  | answer w outcome =>
      simp only [after] at h
      split at h
      · rename_i tick claim' hworker
        obtain rfl := Option.some.inj h
        refine .inl ⟨?_, by rintro ⟨⟩⟩
        by_cases hv : v = w
        · -- the answer leaves the worker at its claim
          subst hv
          rw [goOn_workers, if_pos rfl] at hclaim
          rw [hworker]
          exact hclaim
        · exact hgoOn _ _ _ rfl hv
      · cases h
  | settle w =>
      simp only [after] at h
      split at h
      · rename_i tick claim' outcome hworker
        obtain rfl := Option.some.inj h
        have hne : v ≠ w ∧ (s.workers v).claim? = some claim := by
          rcases settle_cases options s w tick claim' outcome with
            hidle | ⟨_, _, _, _, _, _, _, _, _, _, hgo⟩
          · have hv := hended _ _ _ hidle rfl
            exact ⟨hv, hgoOn _ _ _ hidle hv⟩
          · have hv := hended _ _ _ hgo rfl
            exact ⟨hv, hgoOn _ _ _ hgo hv⟩
        exact .inl ⟨hne.2, fun hsame => hne.1 (Action.settle.inj hsame).symm⟩
      · cases h
  | crash w =>
      obtain rfl := Option.some.inj h
      exact .inl ⟨hgoOn _ _ _ rfl (hended _ _ _ rfl rfl), by rintro ⟨⟩⟩
  | replay deliveryId now =>
      simp only [after] at h
      split at h
      all_goals
        obtain rfl := Option.some.inj h
        exact .inl ⟨hclaim, by rintro ⟨⟩⟩

end

/-! ## What a history says of a delivery -/

/-- The worker that a transition gives a claim on a delivery -/
def claimedBy (d : String) (x : Transition System Action) : Option ℕ :=
  match x.act with
  | .claim w =>
      ((x.post.workers w).claim?.filter fun claim => claim.delivery.deliveryId = d).map fun _ => w
  | _ => none

/-- The worker with the latest claim on a delivery -/
def lastClaimant (d : String) (tr : List (Transition System Action)) : Option ℕ :=
  (tr.filterMap (claimedBy d)).getLast?

/-- Whether a transition replays a delivery -/
def replays (d : String) (x : Transition System Action) : Bool :=
  match x.act with
  | .replay deliveryId _ =>
      deliveryId = d && (x.pre.store.delivery d).any (·.status = .dead_letter)
  | _ => false

/-- How often a delivery has been attempted since it was last replayed, or created -/
def attempts (d : String) (tr : List (Transition System Action)) : ℕ :=
  tr.foldl (fun n x =>
    if replays d x then 0 else if (claimedBy d x).isSome then n + 1 else n) 0

section

variable {tr : List (Transition System Action)} {x : Transition System Action} {d : String}

theorem lastClaimant_snoc_none (h : claimedBy d x = none) :
    lastClaimant d (tr ++ [x]) = lastClaimant d tr := by
  rw [lastClaimant, lastClaimant, List.filterMap_append, List.filterMap_cons_none h,
    List.filterMap_nil, List.append_nil]

theorem lastClaimant_snoc_some {w : ℕ} (h : claimedBy d x = some w) :
    lastClaimant d (tr ++ [x]) = some w := by
  rw [lastClaimant, List.filterMap_append, List.filterMap_cons_some h, List.filterMap_nil,
    List.getLast?_append, List.getLast?_singleton, Option.some_or]

theorem attempts_snoc : attempts d (tr ++ [x]) =
    if replays d x then 0 else if (claimedBy d x).isSome then attempts d tr + 1
    else attempts d tr := by
  rw [attempts, attempts, List.foldl_append, List.foldl_cons, List.foldl_nil]

theorem claimedBy_none
    (h : ∀ w claim, x.act = .claim w → (x.post.workers w).claim? = some claim →
      claim.delivery.deliveryId ≠ d) : claimedBy d x = none := by
  unfold claimedBy
  split
  · rename_i w hact
    rw [Option.map_eq_none_iff, Option.filter_eq_none_iff]
    intro claim hclaim
    simpa using h w claim hact hclaim
  · rfl

theorem claimedBy_some {w : ℕ} {claim : ClaimedDelivery} (hact : x.act = .claim w)
    (hclaim : (x.post.workers w).claim? = some claim) (hid : claim.delivery.deliveryId = d) :
    claimedBy d x = some w := by
  unfold claimedBy
  rw [hact]
  dsimp only
  rw [hclaim, Option.filter_some, if_pos (by simpa using hid)]
  rfl

theorem claimedBy_act (h : ∀ w, x.act ≠ .claim w) : claimedBy d x = none :=
  claimedBy_none fun w _ hact _ => absurd hact (h w)

theorem replays_false
    (h : ∀ now, x.act = .replay d now →
      ¬ (x.pre.store.delivery d).any (·.status = .dead_letter) = true) : replays d x = false := by
  unfold replays
  split
  · rename_i deliveryId now hact
    by_cases hid : deliveryId = d
    · subst hid
      simpa using h now hact
    · simp [hid]
  · rfl

theorem replays_act (h : ∀ now, x.act ≠ .replay d now) : replays d x = false :=
  replays_false fun now hact => absurd hact (h now)

end

/-! ## The protocol -/

/-- A claim that takes over a delivery takes it from no worker that is still at it, and the delivery
has attempts left. -/
def TakesOverSafely (options : ServiceOptions) (x : Transition System Action) : Prop :=
  ∀ w tick row, x.act = .claim w → x.pre.workers w = .looping tick → tick.left ≠ 0 →
    x.pre.store.firstDue tick.now = some row → row.status = .delivering →
      (∀ v claim, (x.pre.workers v).claim? = some claim →
        claim.delivery.deliveryId ≠ row.deliveryId) ∧ row.attemptCount < options.maxAttempts

/-- A delivery leaves `delivering`. -/
def Leaves (d : String) (x : Transition System Action) : Prop :=
  (x.pre.store.delivery d).map ReportDelivery.status = some .delivering ∧
    (x.post.store.delivery d).map ReportDelivery.status ≠ some .delivering

/-- What the protocol promises of a history and the state it leads to. -/
structure Protocol (options : ServiceOptions) (tr : List (Transition System Action))
    (s : System) : Prop where
  /-- A delivery leaves `delivering` only through the worker with the latest claim on it. -/
  exclusive : ∀ before x later d, tr = before ++ x :: later → Leaves d x →
    ∃ w, x.act = .settle w ∧ lastClaimant d before = some w
  /-- A delivery that is delivered never changes. -/
  final : ∀ before x later d row, tr = before ++ x :: later →
    x.post.store.delivery d = some row → row.status = .delivered →
      s.store.delivery d = some row
  /-- Between replays a delivery is attempted at most `maxAttempts` times. -/
  attempts : ∀ before later d, tr = before ++ later → attempts d before ≤ options.maxAttempts
  artifacts : s.store.artifacts.Pairwise fun a b =>
    ¬ (a.scheduleId = b.scheduleId ∧ a.runKey = b.runKey)
  deliveries : s.store.deliveries.Pairwise fun a b =>
    ¬ (a.scheduleId = b.scheduleId ∧ a.runKey = b.runKey ∧ a.destination.id = b.destination.id)

/-- How often a delivery may have been attempted -/
def WithinAttempts (options : ServiceOptions) (row : ReportDelivery) : Prop :=
  match row.status with
  | .pending | .retry => row.attemptCount < options.maxAttempts
  | .delivering | .delivered | .dead_letter => row.attemptCount ≤ options.maxAttempts

/-- What holds of the state and the history of a run in which claims are taken over safely. -/
structure Sound (options : ServiceOptions) (tr : List (Transition System Action))
    (s : System) : Prop where
  held : ∀ v claim, (s.workers v).claim? = some claim →
    ∃ row, s.store.delivery claim.delivery.deliveryId = some row ∧ row.status = .delivering ∧
      lastClaimant claim.delivery.deliveryId tr = some v
  counted : ∀ d row, s.store.delivery d = some row →
    row.attemptCount = attempts d tr ∧ WithinAttempts options row
  absent : ∀ d, s.store.delivery d = none → attempts d tr = 0

section

variable {options : ServiceOptions} {hash : List UInt8 → String}
  {tr : List (Transition System Action)} {s t : System} {a : Action}

theorem WithinAttempts.le {row : ReportDelivery} (h : WithinAttempts options row) :
    row.attemptCount ≤ options.maxAttempts := by
  unfold WithinAttempts at h
  split at h <;> omega

/-- What is due is not settled. -/
theorem due_status {now : ℕ} {row : ReportDelivery} (h : isDue now row = true) :
    row.status ≠ .delivered ∧ row.status ≠ .dead_letter := by
  unfold isDue at h
  constructor
  · intro hstatus
    simp [hstatus] at h
  · intro hstatus
    simp [hstatus] at h

theorem RowStep.delivered {d : String} {row : ReportDelivery} (h : RowStep options s t a d)
    (hrow : s.store.delivery d = some row) (hstatus : row.status = .delivered) :
    t.store.delivery d = some row := by
  cases h with
  | same h _ _ => rw [h, hrow]
  | created _ _ _ hs _ _ _ =>
      rw [hs] at hrow
      cases hrow
  | claimed _ old _ _ _ _ _ hdue hs _ _ _ =>
      rw [hs] at hrow
      obtain rfl := Option.some.inj hrow
      exact absurd hstatus (due_status (firstDue_mem hdue).2).1
  | settled _ old _ _ _ _ _ hs hdelivering _ _ _ =>
      rw [hs] at hrow
      obtain rfl := Option.some.inj hrow
      rw [hdelivering] at hstatus
      cases hstatus
  | replayed _ old _ hs hdead _ =>
      rw [hs] at hrow
      obtain rfl := Option.some.inj hrow
      rw [hdead] at hstatus
      cases hstatus

/-- The claims that workers are at stay the latest ones on deliveries that are being delivered. -/
theorem Sound.held_step (hsound : Sound options tr s) (hkeyed : Keyed s.store)
    (hst : after options hash s a = some t) (hsafe : TakesOverSafely options ⟨s, a, t⟩)
    {v : ℕ} {claim : ClaimedDelivery} (hclaim : (t.workers v).claim? = some claim) :
    ∃ row, t.store.delivery claim.delivery.deliveryId = some row ∧ row.status = .delivering ∧
      lastClaimant claim.delivery.deliveryId (tr ++ [⟨s, a, t⟩]) = some v := by
  obtain ⟨-, hstep⟩ := after_row hkeyed hst claim.delivery.deliveryId
  rcases after_claims hst hclaim with ⟨hold, hnot⟩ | hact
  · obtain ⟨row, hrow, hstatus, hlast⟩ := hsound.held v claim hold
    cases hstep with
    | same h hother _ =>
        refine ⟨row, by rw [h, hrow], hstatus, ?_⟩
        rw [lastClaimant_snoc_none (claimedBy_none hother), hlast]
    | created _ _ _ hs _ _ _ =>
        rw [hs] at hrow
        cases hrow
    | claimed w old tick claim' hact hworker hleft hdue hs _ _ _ =>
        -- taken over from a worker that is still at it
        rw [hs] at hrow
        obtain rfl := Option.some.inj hrow
        obtain ⟨hnone, -⟩ := hsafe w tick old hact hworker hleft hdue hstatus
        have hid : old.deliveryId = claim.delivery.deliveryId := by
          simpa using List.find?_some hs
        exact absurd hid.symm (hnone v claim hold)
    | settled w old _ claim' hact hclaim' hid hs _ _ _ _ =>
        obtain ⟨_, _, _, hlast'⟩ := hsound.held w claim' hclaim'
        rw [hid, hlast] at hlast'
        rw [Option.some.inj hlast'] at hnot
        exact absurd hact hnot
    | replayed _ old _ hs hdead _ =>
        rw [hs] at hrow
        obtain rfl := Option.some.inj hrow
        rw [hdead] at hstatus
        cases hstatus
  · subst hact
    cases hstep with
    | same _ hother _ => exact absurd rfl (hother v claim rfl hclaim)
    | created _ hact _ _ _ _ _ => cases hact
    | claimed w old tick claim' hact _ _ _ _ ht hclaim' hid =>
        obtain rfl := Action.claim.inj hact
        exact ⟨_, ht, rfl, lastClaimant_snoc_some (claimedBy_some rfl hclaim' hid)⟩
    | settled _ _ _ _ hact _ _ _ _ _ _ _ => cases hact
    | replayed _ _ hact _ _ _ => cases hact

/-- The attempts are counted in the row, and are within bounds. -/
theorem Sound.counted_step (hsound : Sound options tr s) (hkeyed : Keyed s.store)
    (hst : after options hash s a = some t) (hsafe : TakesOverSafely options ⟨s, a, t⟩)
    (d : String) :
    (∀ row, t.store.delivery d = some row →
      row.attemptCount = attempts d (tr ++ [⟨s, a, t⟩]) ∧ WithinAttempts options row) ∧
      (t.store.delivery d = none → attempts d (tr ++ [⟨s, a, t⟩]) = 0) := by
  obtain ⟨-, hstep⟩ := after_row hkeyed hst d
  have hpos := options.maxAttempts_pos
  rw [attempts_snoc]
  cases hstep with
  | same h hother hreplay =>
      rw [replays_false hreplay, claimedBy_none hother, h]
      exact ⟨hsound.counted d, hsound.absent d⟩
  | created row hact hreplay hs ht hstatus hcount =>
      have hclaims : claimedBy d ⟨s, a, t⟩ = none := by
        refine claimedBy_act fun w h => ?_
        rw [show a = .claim w from h] at hact
        cases hact
      rw [replays_act fun now => hreplay d now, hclaims, ht]
      refine ⟨fun other hother => ?_, by rintro ⟨⟩⟩
      obtain rfl := Option.some.inj hother
      refine ⟨hcount.trans (hsound.absent d hs).symm, ?_⟩
      rw [WithinAttempts, hstatus, hcount]
      exact hpos
  | claimed w row tick claim hact hworker hleft hdue hs ht hclaim hid =>
      obtain ⟨hcount, hbound⟩ := hsound.counted d row hs
      have hless : row.attemptCount < options.maxAttempts := by
        obtain ⟨hdelivered, hdead⟩ := due_status (firstDue_mem hdue).2
        cases hstatus : row.status with
        | pending => simpa [WithinAttempts, hstatus] using hbound
        | retry => simpa [WithinAttempts, hstatus] using hbound
        | delivering => exact (hsafe w tick row hact hworker hleft hdue hstatus).2
        | delivered => exact absurd hstatus hdelivered
        | dead_letter => exact absurd hstatus hdead
      have hreplay : replays d ⟨s, a, t⟩ = false := by
        refine replays_act fun now h => ?_
        rw [show a = .replay d now from h] at hact
        cases hact
      rw [hreplay, claimedBy_some (x := ⟨s, a, t⟩) hact hclaim hid, ht]
      refine ⟨fun other hother => ?_, by rintro ⟨⟩⟩
      obtain rfl := Option.some.inj hother
      exact ⟨congrArg (· + 1) hcount, hless⟩
  | settled w row row' claim hact hclaim hid hs hdelivering ht hcount hstatus =>
      obtain ⟨hcount', hbound⟩ := hsound.counted d row hs
      have hclaims : claimedBy d ⟨s, a, t⟩ = none := by
        refine claimedBy_act fun w h => ?_
        rw [show a = .claim w from h] at hact
        cases hact
      have hreplay : replays d ⟨s, a, t⟩ = false := by
        refine replays_act fun now h => ?_
        rw [show a = .replay d now from h] at hact
        cases hact
      rw [hreplay, hclaims, ht]
      refine ⟨fun other hother => ?_, by rintro ⟨⟩⟩
      obtain rfl := Option.some.inj hother
      refine ⟨hcount.trans hcount', ?_⟩
      rcases hstatus with hdone | hdead | ⟨hretry, hless⟩
      · simpa only [WithinAttempts, hdone, hcount] using hbound.le
      · simpa only [WithinAttempts, hdead, hcount] using hbound.le
      · simpa only [WithinAttempts, hretry, hcount] using hless
  | replayed now row hact hs hdead ht =>
      have hreplay : replays d ⟨s, a, t⟩ = true := by
        rw [replays, show (⟨s, a, t⟩ : Transition System Action).act = .replay d now from hact]
        simp [hs, hdead]
      rw [hreplay, ht]
      refine ⟨fun other hother => ?_, by rintro ⟨⟩⟩
      obtain rfl := Option.some.inj hother
      exact ⟨rfl, hpos⟩

theorem keyed_init : Keyed System.init.store where
  runs := List.nodup_nil
  ids := List.nodup_nil
  keys := List.nodup_nil
  named := fun _ hrow => absurd hrow List.not_mem_nil

theorem Delivers.keyed (h : Delivers options hash tr s) : Keyed s.store :=
  h.invariant (I := fun s => Keyed s.store) keyed_init
    fun _ _ _ hkeyed hst => (after_row hkeyed hst "").1

/-- **A delivery that is delivered never changes**, whatever happens. -/
theorem delivered_final {m : System} {d : String} {row : ReportDelivery} (hkeyed : Keyed m.store)
    (h : Run (fun s a t => after options hash s a = some t) m tr s)
    (hrow : m.store.delivery d = some row) (hstatus : row.status = .delivered) :
    s.store.delivery d = some row :=
  (h.invariant (I := fun s => Keyed s.store ∧ s.store.delivery d = some row) ⟨hkeyed, hrow⟩
    fun _ _ _ hI hst => by
      obtain ⟨hkeyed', hstep⟩ := after_row hI.1 hst d
      exact ⟨hkeyed', hstep.delivered hI.2 hstatus⟩).2

/-- **There is at most one artifact for a run, and one delivery for a run and a destination**,
whatever happens. -/
theorem one_delivery (h : Delivers options hash tr s) :
    s.store.artifacts.Pairwise (fun a b => ¬ (a.scheduleId = b.scheduleId ∧ a.runKey = b.runKey)) ∧
      s.store.deliveries.Pairwise fun a b =>
        ¬ (a.scheduleId = b.scheduleId ∧ a.runKey = b.runKey ∧
          a.destination.id = b.destination.id) := by
  have hkeyed := Delivers.keyed h
  constructor
  · have hruns : s.store.artifacts.Pairwise fun a b => a.runKey ≠ b.runKey :=
      List.pairwise_map.mp hkeyed.runs
    exact hruns.imp fun hne hsame => hne hsame.2
  · have hkeys : s.store.deliveries.Pairwise fun a b => a.idempotencyKey ≠ b.idempotencyKey :=
      List.pairwise_map.mp hkeyed.keys
    refine hkeys.imp_of_mem fun {a b} ha hb hne hsame => hne ?_
    rw [hkeyed.named a ha, hkeyed.named b hb, hsame.1, hsame.2.1, hsame.2.2]

/-- The state and the history of a run in which claims are taken over safely -/
theorem sound_run (h : Delivers options hash tr s) (hsafe : ∀ x ∈ tr, TakesOverSafely options x) :
    Sound options tr s := by
  have hall := h.history_of (C := TakesOverSafely options)
    (P := fun tr s => Keyed s.store ∧ Sound options tr s) hsafe ?_ ?_
  · exact hall.2
  · refine ⟨keyed_init, ?_, ?_, fun _ _ => rfl⟩
    · rintro v claim ⟨⟩
    · rintro d row ⟨⟩
  · rintro xs m a m' _ ⟨hkeyed, hsound⟩ hst hmeets
    refine ⟨(after_row hkeyed hst "").1, ?_, ?_, ?_⟩
    · exact fun v claim => hsound.held_step hkeyed hst hmeets
    · exact fun d => (hsound.counted_step hkeyed hst hmeets d).1
    · exact fun d => (hsound.counted_step hkeyed hst hmeets d).2

/-- A step by which a delivery leaves `delivering` -/
theorem Sound.leaves (hsound : Sound options tr s) (hkeyed : Keyed s.store)
    (hst : after options hash s a = some t) {d : String} (hleaves : Leaves d ⟨s, a, t⟩) :
    ∃ w, a = .settle w ∧ lastClaimant d tr = some w := by
  obtain ⟨hpre, hpost⟩ := hleaves
  obtain ⟨-, hstep⟩ := after_row hkeyed hst d
  cases hstep with
  | same h _ _ =>
      rw [show t.store.delivery d = s.store.delivery d from h] at hpost
      exact absurd hpre hpost
  | created _ _ _ hs _ _ _ =>
      rw [show s.store.delivery d = none from hs] at hpre
      cases hpre
  | claimed _ _ _ _ _ _ _ _ _ ht _ _ =>
      rw [ht] at hpost
      exact absurd rfl hpost
  | settled w _ _ claim hact hclaim hid _ _ _ _ _ =>
      obtain ⟨_, _, _, hlast⟩ := hsound.held w claim hclaim
      exact ⟨w, hact, hid ▸ hlast⟩
  | replayed _ row _ hs hdead _ =>
      rw [show s.store.delivery d = some row from hs, Option.map_some, hdead] at hpre
      cases hpre

/-- **The delivery protocol** holds over every run in which a claim is taken over only from a worker
that is no longer at it, and while there are attempts left. -/
theorem delivery_protocol (h : Delivers options hash tr s)
    (hsafe : ∀ x ∈ tr, TakesOverSafely options x) : Protocol options tr s := by
  obtain ⟨hartifacts, hdeliveries⟩ := one_delivery h
  refine ⟨?_, ?_, ?_, hartifacts, hdeliveries⟩
  · rintro before x later d rfl hleaves
    obtain ⟨hbefore, hst, -⟩ := h.around
    have hsound := sound_run hbefore fun y hy => hsafe y (List.mem_append_left _ hy)
    exact hsound.leaves (Delivers.keyed hbefore) hst hleaves
  · rintro before x later d row rfl hrow hstatus
    obtain ⟨hbefore, hst, hafter⟩ := h.around
    have hkeyed := (after_row (Delivers.keyed hbefore) hst d).1
    exact delivered_final hkeyed hafter hrow hstatus
  · rintro before later d rfl
    obtain ⟨m, hbefore, -⟩ := h.split
    have hsound := sound_run hbefore fun y hy => hsafe y (List.mem_append_left _ hy)
    cases hrow : m.store.delivery d with
    | none =>
        rw [hsound.absent d hrow]
        exact Nat.zero_le _
    | some row =>
        obtain ⟨hcount, hbound⟩ := hsound.counted d row hrow
        rw [← hcount]
        exact hbound.le

end

/-! ## Samples -/

/-- The bytes themselves, in place of their digest -/
def sampleHash (bytes : List UInt8) : String :=
  String.ofList (bytes.map fun b => Char.ofNat b.toNat)

def sampleOptions : ServiceOptions where
  maxAttempts := 1
  baseRetryMs := 30000
  maxRetryMs := 1800000
  leaseMs := 60000
  maxAttempts_pos := le_rfl
  leaseMs_pos := by norm_num

/-- A report of a schedule with one destination -/
def sampleReport : Action :=
  .enqueue ⟨"weekly", [⟨"finance", .webhook⟩]⟩ "weekly:0" ⟨0, 99⟩
    ⟨"statement", "csv", "text/csv", "statement.csv", [1, 2, 3]⟩ 100

/-- Worker 1 fails, the dead letter is replayed, and worker 2 delivers it. -/
def replayedScript : List Action :=
  [sampleReport, .start 1 100 10, .claim 1, .answer 1 (.error "HTTP 503"), .settle 1,
    .replay "delivery_weekly:weekly:0:finance" 200, .start 2 200 10, .claim 2, .answer 2 (.ok ()),
    .settle 2]

/-- Whether a transition claims a delivery that is being delivered -/
def takesOver (x : Transition System Action) : Bool :=
  match x.act with
  | .claim w =>
      match x.pre.workers w with
      | .looping tick => (x.pre.store.firstDue tick.now).any (·.status = .delivering)
      | _ => false
  | _ => false

theorem takesOverSafely_of_not {options : ServiceOptions} {x : Transition System Action}
    (h : takesOver x = false) : TakesOverSafely options x := by
  intro w tick row hact hworker _ hdue hstatus
  rw [takesOver, hact] at h
  dsimp only at h
  rw [hworker] at h
  dsimp only at h
  rw [hdue] at h
  simp [hstatus] at h

theorem delivery_protocol_replayed :
    ∃ tr s, Delivers sampleOptions sampleHash tr s ∧
      (s.store.delivery "delivery_weekly:weekly:0:finance").map ReportDelivery.status =
        some .delivered ∧ Protocol sampleOptions tr s := by
  have hvalues : (walk (after sampleOptions sampleHash) System.init replayedScript).map (fun p =>
      decide ((p.2.store.delivery "delivery_weekly:weekly:0:finance").map ReportDelivery.status =
        some .delivered ∧ p.1.all (fun x => !takesOver x) = true)) = some true := by
    decide +kernel
  obtain ⟨⟨tr, s⟩, hwalk, hfacts⟩ := Option.map_eq_some_iff.mp hvalues
  obtain ⟨hstatus, hnone⟩ := of_decide_eq_true hfacts
  have hrun : Delivers sampleOptions sampleHash tr s := walk_run hwalk
  refine ⟨tr, s, hrun, hstatus, delivery_protocol hrun fun x hx => takesOverSafely_of_not ?_⟩
  simpa using List.all_eq_true.mp hnone x hx

/-- Worker 2 takes the delivery over from worker 1, whose transport then fails. -/
def overtakenScript : List Action :=
  [sampleReport, .start 1 100 10, .claim 1, .start 2 70000 10, .claim 2,
    .answer 1 (.error "timeout")]

/-- Worker 1 ends the delivery that worker 2 has claimed, in a second attempt where there is one. -/
theorem overtaken_delivery :
    ∃ before x s, Delivers sampleOptions sampleHash (before ++ [x]) s ∧
      Leaves "delivery_weekly:weekly:0:finance" x ∧ x.act = .settle 1 ∧
      lastClaimant "delivery_weekly:weekly:0:finance" before = some 2 ∧
      attempts "delivery_weekly:weekly:0:finance" before = 2 ∧
      ¬ Protocol sampleOptions (before ++ [x]) s := by
  have hvalues : (walk (after sampleOptions sampleHash) System.init overtakenScript).bind (fun p =>
      (after sampleOptions sampleHash p.2 (.settle 1)).map fun s =>
        decide ((p.2.store.delivery "delivery_weekly:weekly:0:finance").map
            ReportDelivery.status = some .delivering ∧
          (s.store.delivery "delivery_weekly:weekly:0:finance").map ReportDelivery.status ≠
            some .delivering ∧
          lastClaimant "delivery_weekly:weekly:0:finance" p.1 = some 2 ∧
          attempts "delivery_weekly:weekly:0:finance" p.1 = 2)) = some true := by
    decide +kernel
  obtain ⟨⟨before, m⟩, hwalk, hlast⟩ := Option.bind_eq_some_iff.mp hvalues
  obtain ⟨s, hsettle, hfacts⟩ := Option.map_eq_some_iff.mp hlast
  obtain ⟨hpre, hpost, hclaimant, hattempts⟩ := of_decide_eq_true hfacts
  have hleaves : Leaves "delivery_weekly:weekly:0:finance" ⟨m, .settle 1, s⟩ := ⟨hpre, hpost⟩
  refine ⟨before, ⟨m, .settle 1, s⟩, s, Run.snoc (walk_run hwalk) hsettle, hleaves, rfl, hclaimant,
    hattempts, fun hprotocol => ?_⟩
  obtain ⟨w, hact, hother⟩ := hprotocol.exclusive before _ [] _ rfl hleaves
  obtain rfl := Action.settle.inj hact
  rw [hclaimant] at hother
  cases hother

end StellarAgent.Indexer
