import StellarAgent.Indexer.Ledger
import StellarAgent.Lib.Results
import StellarAgent.Lib.StableTies
import StellarAgent.Lib.Tables

set_option autoImplicit false

/-! # What the normalized ledger keeps of its events

Each event of `normalizeLedger` gives at most one entry, which balances, and else an issue, if it
moves money at all. One `released` event slips through: without a worker it gives neither. The result
does not depend on the order of the events and fees, except where `localeCompare` does not tell texts
apart that differ (`normalizeLedger_faithful_iff`).
-/

namespace StellarAgent.Indexer

open Lib

/-! ## The order of positions -/

section

variable {localeCompare : String → String → Ordering} [Std.TransCmp localeCompare] {A : Type}

theorem precedes_total (a b : ℤ × String) :
    precedes localeCompare a b ∨ precedes localeCompare b a := by
  unfold precedes
  rcases lt_trichotomy a.1 b.1 with h | h | h
  · exact Or.inl (Or.inl h)
  · by_cases hgt : localeCompare a.2 b.2 = .gt
    · have hlt : localeCompare b.2 a.2 = .lt := Std.OrientedCmp.lt_of_gt hgt
      exact Or.inr (Or.inr ⟨h.symm, by rw [hlt]; decide⟩)
    · exact Or.inl (Or.inr ⟨h, hgt⟩)
  · exact Or.inr (Or.inl h)

theorem precedes_trans {a b c : ℤ × String} (hab : precedes localeCompare a b)
    (hbc : precedes localeCompare b c) : precedes localeCompare a c := by
  rcases hab with hab | ⟨hab, hab'⟩
  · rcases hbc with hbc | ⟨hbc, -⟩
    · exact Or.inl (hab.trans hbc)
    · exact Or.inl (hbc ▸ hab)
  · rcases hbc with hbc | ⟨hbc, hbc'⟩
    · exact Or.inl (hab ▸ hbc)
    · have hle : ∀ o : Ordering, o ≠ .gt ↔ o.isLE = true := by
        intro o
        cases o <;> decide
      refine Or.inr ⟨hab.trans hbc, (hle _).mpr ?_⟩
      exact Std.TransCmp.isLE_trans ((hle _).mp hab') ((hle _).mp hbc')

instance (key : A → ℤ × String) :
    Std.Total fun a b : A => precedes localeCompare (key a) (key b) :=
  ⟨fun a b => precedes_total (key a) (key b)⟩

instance (key : A → ℤ × String) :
    IsTrans A fun a b : A => precedes localeCompare (key a) (key b) :=
  ⟨fun _ _ _ => precedes_trans⟩

/-- Positions of which each precedes the other differ at most in texts that compare equal. -/
theorem ties_iff {a b : ℤ × String} :
    (precedes localeCompare a b ∧ precedes localeCompare b a) ↔
      a.1 = b.1 ∧ localeCompare a.2 b.2 = .eq := by
  unfold precedes
  constructor
  · rintro ⟨hab | ⟨hab, hle⟩, hba | ⟨hba, hge⟩⟩
    · omega
    · omega
    · omega
    · refine ⟨hab, ?_⟩
      cases h : localeCompare a.2 b.2 with
      | eq => rfl
      | gt => exact absurd h hle
      | lt => exact absurd (Std.OrientedCmp.gt_of_lt h) hge
  · rintro ⟨hledger, heq⟩
    have heq' : localeCompare b.2 a.2 = .eq := Std.OrientedCmp.eq_symm heq
    exact ⟨Or.inr ⟨hledger, by rw [heq]; decide⟩, Or.inr ⟨hledger.symm, by rw [heq']; decide⟩⟩

end

/-! ## The state of an event -/

/-- The channel or job whose state an event needs -/
def subjectOf (event : StoredEvent) : Option (SnapshotKind × String) :=
  let payload := event.payload.body
  match payload.namespace, field payload.fields "channelId", field payload.fields "jobId" with
  | .channel, some channelId, _ => some (.channel, channelId)
  | .escrow, _, some jobId => some (.job, jobId)
  | _, _, _ => none

/-- What an event gives with the state that it finds -/
def outcomeWith (event : StoredEvent) (state : Option (List (String × JsonValue))) : Outcome :=
  let outcome := match subjectOf event with
    | some (.channel, channelId) => normalizeChannel event channelId state
    | some (.job, jobId) => normalizeEscrow event jobId state
    | none => .ok .passed
  match outcome with
  | .ok outcome => outcome
  | .error message =>
      .raised (issue event
        (if "unbalanced".toList <:+: message.toList then .UNBALANCED_ENTRY else .INVALID_AMOUNT)
        message)

section

variable {localeCompare : String → String → Ordering} {events : List StoredEvent}
  {event : StoredEvent}

/-- The state that an event finds among all events -/
def stateIn (localeCompare : String → String → Ordering) (events : List StoredEvent)
    (event : StoredEvent) : Option (List (String × JsonValue)) :=
  (subjectOf event).bind fun subject =>
    stateFor localeCompare event (snapshots localeCompare events subject.1 subject.2)

theorem normalizeEvent_eq : normalizeEvent localeCompare events event =
    outcomeWith event (stateIn localeCompare events event) := by
  unfold normalizeEvent outcomeWith stateIn subjectOf
  dsimp only
  cases event.payload.body.namespace <;>
    cases field event.payload.body.fields "channelId" <;>
    cases field event.payload.body.fields "jobId" <;> rfl

/-- Where a snapshot stands in the canonical order -/
def snapshotPosition (snapshot : Snapshot) : ℤ × String := (snapshot.ledger, snapshot.pagingToken)

variable (localeCompare event) in
/-- The snapshot is a first one of the event's transaction, or, if the transaction has none, a last
one that is not after the event. -/
def MayServe (values : List Snapshot) (snapshot : Snapshot) : Prop :=
  let own := values.filter fun value => value.txHash = event.txHash
  let earlier := values.filter fun value => ¬ before localeCompare event value
  (snapshot ∈ own ∧ ∀ value ∈ own,
    precedes localeCompare (snapshotPosition snapshot) (snapshotPosition value)) ∨
  (own = [] ∧ snapshot ∈ earlier ∧ ∀ value ∈ earlier,
    precedes localeCompare (snapshotPosition value) (snapshotPosition snapshot))

theorem MayServe.mem {values : List Snapshot} {snapshot : Snapshot}
    (h : MayServe localeCompare event values snapshot) : snapshot ∈ values := by
  rcases h with ⟨hmem, -⟩ | ⟨-, hmem, -⟩
  · exact List.mem_of_mem_filter hmem
  · exact List.mem_of_mem_filter hmem

/-- Which snapshots may serve does not depend on their order. -/
theorem MayServe.perm {values values' : List Snapshot} {snapshot : Snapshot}
    (h : MayServe localeCompare event values snapshot) (hperm : values.Perm values') :
    MayServe localeCompare event values' snapshot := by
  have hown := hperm.filter fun value => decide (value.txHash = event.txHash)
  have hearlier := hperm.filter fun value => decide (¬ before localeCompare event value)
  rcases h with ⟨hmem, hleast⟩ | ⟨hnone, hmem, hgreatest⟩
  · exact Or.inl ⟨hown.subset hmem, fun value hvalue => hleast value (hown.symm.subset hvalue)⟩
  · refine Or.inr ⟨List.Perm.eq_nil (hnone ▸ hown.symm), hearlier.subset hmem,
      fun value hvalue => hgreatest value (hearlier.symm.subset hvalue)⟩

variable [Std.TransCmp localeCompare]

/-- What stands before a snapshot stands before those behind it. -/
theorem before_of_precedes {a b : Snapshot} (hbefore : before localeCompare event a)
    (hab : precedes localeCompare (snapshotPosition a) (snapshotPosition b)) :
    before localeCompare event b := by
  have hledgers : a.ledger ≤ b.ledger := by
    rcases hab with hlt | ⟨heq, -⟩
    · exact le_of_lt hlt
    · exact le_of_eq heq
  rcases hbefore with hlt | ⟨hledger, htoken⟩
  · exact Or.inl (lt_of_lt_of_le hlt hledgers)
  · rcases hab with hlt | ⟨heq, hle⟩
    · exact Or.inl (lt_of_eq_of_lt hledger hlt)
    · refine Or.inr ⟨hledger.trans heq, ?_⟩
      have hisLE : (localeCompare a.pagingToken b.pagingToken).isLE = true := by
        have hne : localeCompare a.pagingToken b.pagingToken ≠ .gt := hle
        cases hcmp : localeCompare a.pagingToken b.pagingToken with
        | gt => exact absurd hcmp hne
        | lt => rfl
        | eq => rfl
      exact Std.TransCmp.lt_of_lt_of_isLE htoken hisLE

/-- **The state of an event**: the first of its transaction, or the last one not after it -/
theorem stateFor_sortBy (values : List Snapshot) :
    stateFor localeCompare event (sortBy localeCompare snapshotPosition values) =
      match (sortBy localeCompare snapshotPosition
          (values.filter fun value => value.txHash = event.txHash)).head? with
      | some snapshot => some snapshot.state
      | none => ((sortBy localeCompare snapshotPosition
          (values.filter fun value => ¬ before localeCompare event value)).getLast?).map
            Snapshot.state := by
  have hsorted : (sortBy localeCompare snapshotPosition values).Pairwise fun a b =>
      precedes localeCompare (snapshotPosition a) (snapshotPosition b) :=
    List.pairwise_insertionSort _ values
  have htake := takeWhile_eq_filter
    (p := fun value => decide (¬ before localeCompare event value)) hsorted
    fun a b hab hb => by
      rw [decide_eq_true_eq] at hb ⊢
      exact fun hbefore => hb (before_of_precedes hbefore hab)
  rw [stateFor, htake, ← List.head?_filter]
  have hfilter : ∀ p : Snapshot → Bool,
      (sortBy localeCompare snapshotPosition values).filter p =
        sortBy localeCompare snapshotPosition (values.filter p) :=
    fun p => filter_insertionSort p values
  exact congrArg₂ (fun first last : Option Snapshot => match first with
      | some snapshot => some snapshot.state
      | none => last.map Snapshot.state)
    (congrArg List.head? (hfilter _)) (congrArg List.getLast? (hfilter _))

variable (localeCompare event) in
/-- The state that is found is that of a snapshot that may serve, if there is one. -/
theorem stateFor_cases (values : List Snapshot) :
    (stateFor localeCompare event (sortBy localeCompare snapshotPosition values) = none ∧
      ∀ snapshot, ¬ MayServe localeCompare event values snapshot) ∨
    ∃ snapshot, MayServe localeCompare event values snapshot ∧
      stateFor localeCompare event (sortBy localeCompare snapshotPosition values) =
        some snapshot.state := by
  rw [stateFor_sortBy]
  unfold MayServe sortBy
  dsimp only
  generalize values.filter (fun value => decide (value.txHash = event.txHash)) = own
  generalize values.filter (fun value => decide (¬ before localeCompare event value)) = earlier
  have hempty : ∀ l : List Snapshot, l.insertionSort (fun a b => precedes localeCompare
      (snapshotPosition a) (snapshotPosition b)) = [] → l = [] := by
    intro l hl
    have hperm := List.perm_insertionSort (fun a b => precedes localeCompare
      (snapshotPosition a) (snapshotPosition b)) l
    exact List.Perm.eq_nil (hl ▸ hperm.symm)
  cases hown : (own.insertionSort fun a b => precedes localeCompare (snapshotPosition a)
      (snapshotPosition b)).head? with
  | some snapshot => exact Or.inr ⟨snapshot, Or.inl (least_of_head? hown), rfl⟩
  | none =>
      obtain rfl := hempty own (List.head?_eq_none_iff.mp hown)
      cases hearlier : (earlier.insertionSort fun a b => precedes localeCompare
          (snapshotPosition a) (snapshotPosition b)).getLast? with
      | some snapshot =>
          exact Or.inr ⟨snapshot, Or.inr ⟨rfl, greatest_of_getLast? hearlier⟩, rfl⟩
      | none =>
          obtain rfl := hempty earlier (List.getLast?_eq_none_iff.mp hearlier)
          refine Or.inl ⟨rfl, fun snapshot hserve => ?_⟩
          rcases hserve with ⟨hmem, -⟩ | ⟨-, hmem, -⟩
          · exact List.not_mem_nil hmem
          · exact List.not_mem_nil hmem

theorem serves_first {snapshot : Snapshot} {rest : List Snapshot}
    (hown : snapshot.txHash = event.txHash)
    (hleast : ∀ value ∈ rest, value.txHash = event.txHash →
      precedes localeCompare (snapshotPosition snapshot) (snapshotPosition value)) :
    stateFor localeCompare event (sortBy localeCompare snapshotPosition (snapshot :: rest)) =
      some snapshot.state := by
  have hhead : ∀ value ∈ rest.filter (fun value => decide (value.txHash = event.txHash)),
      precedes localeCompare (snapshotPosition snapshot) (snapshotPosition value) := by
    intro value hvalue
    obtain ⟨hmem, htx⟩ := List.mem_filter.mp hvalue
    exact hleast value hmem (of_decide_eq_true htx)
  have hfilter : (snapshot :: rest).filter (fun value => decide (value.txHash = event.txHash)) =
      snapshot :: rest.filter fun value => decide (value.txHash = event.txHash) :=
    List.filter_cons_of_pos (by simpa using hown)
  rw [stateFor_sortBy, hfilter]
  unfold sortBy
  rw [insertionSort_cons_of_least hhead]
  rfl

theorem serves_last {snapshot : Snapshot} {rest : List Snapshot}
    (hother : ∀ value ∈ rest ++ [snapshot], value.txHash ≠ event.txHash)
    (hbefore : ¬ before localeCompare event snapshot)
    (hgreatest : ∀ value ∈ rest, ¬ before localeCompare event value →
      precedes localeCompare (snapshotPosition value) (snapshotPosition snapshot)) :
    stateFor localeCompare event (sortBy localeCompare snapshotPosition (rest ++ [snapshot])) =
      some snapshot.state := by
  have hnone : (rest ++ [snapshot]).filter
      (fun value => decide (value.txHash = event.txHash)) = [] :=
    List.filter_eq_nil_iff.mpr fun value hvalue => by simpa using hother value hvalue
  have hlast : ∀ value ∈ rest.filter (fun value => decide (¬ before localeCompare event value)),
      precedes localeCompare (snapshotPosition value) (snapshotPosition snapshot) := by
    intro value hvalue
    obtain ⟨hmem, hnot⟩ := List.mem_filter.mp hvalue
    exact hgreatest value hmem (of_decide_eq_true hnot)
  have hfilter : [snapshot].filter (fun value => decide (¬ before localeCompare event value)) =
      [snapshot] := List.filter_cons_of_pos (by simpa using hbefore)
  rw [stateFor_sortBy, hnone, List.filter_append, hfilter]
  unfold sortBy
  rw [insertionSort_concat_of_greatest hlast, List.getLast?_concat]
  rfl

/-- **Each snapshot that may serve does so** for some order of the events: one of the transaction
if it comes first, and another one if it comes last. -/
theorem MayServe.serves {kind : SnapshotKind} {id : String} {snapshot : Snapshot}
    (h : MayServe localeCompare event (events.filterMap (snapshotOf kind id)) snapshot) :
    ∃ events', events'.Perm events ∧
      stateFor localeCompare event (snapshots localeCompare events' kind id) =
        some snapshot.state := by
  obtain ⟨source, hsource, hsnapshot⟩ := List.mem_filterMap.mp h.mem
  obtain ⟨first, rest, rfl⟩ := List.append_of_mem hsource
  have hmiddle : (first ++ source :: rest).Perm (source :: (first ++ rest)) := List.perm_middle
  have hvalue : ∀ value ∈ (first ++ rest).filterMap (snapshotOf kind id),
      value ∈ (first ++ source :: rest).filterMap (snapshotOf kind id) := by
    intro value hmem
    refine (hmiddle.filterMap (snapshotOf kind id)).symm.subset ?_
    rw [List.filterMap_cons_some hsnapshot]
    exact List.mem_cons_of_mem snapshot hmem
  rcases h with ⟨hmem, hleast⟩ | ⟨hnone, hmem, hgreatest⟩
  · refine ⟨source :: (first ++ rest), hmiddle.symm, ?_⟩
    show stateFor localeCompare event (sortBy localeCompare snapshotPosition
      ((source :: (first ++ rest)).filterMap (snapshotOf kind id))) = _
    rw [List.filterMap_cons_some hsnapshot]
    refine serves_first (of_decide_eq_true (List.mem_filter.mp hmem).2) fun value hmem' htx => ?_
    exact hleast value (List.mem_filter.mpr ⟨hvalue value hmem', decide_eq_true htx⟩)
  · refine ⟨(first ++ rest) ++ [source],
      (List.perm_append_singleton source (first ++ rest)).trans hmiddle.symm, ?_⟩
    show stateFor localeCompare event (sortBy localeCompare snapshotPosition
      ((first ++ rest ++ [source]).filterMap (snapshotOf kind id))) = _
    have hlast : [source].filterMap (snapshotOf kind id) = [snapshot] := by
      rw [List.filterMap_cons_some hsnapshot, List.filterMap_nil]
    rw [List.filterMap_append, hlast]
    have hother : ∀ value ∈ (first ++ source :: rest).filterMap (snapshotOf kind id),
        value.txHash ≠ event.txHash := fun value hmem' => by
      simpa using List.filter_eq_nil_iff.mp hnone value hmem'
    refine serves_last (fun value hmem' => hother value ?_)
      (of_decide_eq_true (List.mem_filter.mp hmem).2) fun value hmem' hnot =>
        hgreatest value (List.mem_filter.mpr ⟨hvalue value hmem', decide_eq_true hnot⟩)
    rcases List.mem_append.mp hmem' with hmem' | hmem'
    · exact hvalue value hmem'
    · exact List.mem_singleton.mp hmem' ▸ List.mem_of_mem_filter hmem

end

/-! ## What an event gives -/

/-- An entry of the event, balanced -/
structure EntryOf (event : StoredEvent) (entry : LedgerEntry) : Prop where
  eventId : entry.eventId = some event.eventId
  entryId : entry.entryId = "event:" ++ event.eventId
  ledger : entry.ledger = event.ledger
  balanced : ∀ asset, totalOf asset entry.postings = 0

/-- What an outcome holds is about the event. -/
def Outcome.About (event : StoredEvent) : Outcome → Prop
  | entered entry => EntryOf event entry
  | raised found => ∃ code message, found = issue event code message
  | passed => True

section

variable {event : StoredEvent} {state : Option (List (String × JsonValue))} {outcome : Outcome}

theorem validateEntry_ok {entry entry' : LedgerEntry} (h : validateEntry entry = .ok entry') :
    entry' = entry ∧ ∀ asset, totalOf asset entry.postings = 0 := by
  unfold validateEntry at h
  split at h
  · cases h
  case h_2 hnone =>
    refine ⟨(Except.ok.inj h).symm, fun asset => ?_⟩
    by_cases hasset : asset ∈ entry.postings.map fun posting => posting.asset
    · simpa using List.find?_eq_none.mp hnone asset hasset
    · -- an asset without postings
      have hempty : entry.postings.filter (fun posting => posting.asset = asset) = [] := by
        refine List.filter_eq_nil_iff.mpr fun posting hposting heq => hasset ?_
        rw [← of_decide_eq_true heq]
        exact List.mem_map_of_mem hposting
      rw [totalOf, hempty]
      rfl

theorem entry_ok {kind : LedgerEntryKind} {referenceType : ReferenceType} {referenceId : String}
    {context : EconomicContext} {result : LedgerEntry}
    (h : entry event kind referenceType referenceId context = .ok result) :
    EntryOf event result := by
  obtain ⟨rfl, hbalanced⟩ := validateEntry_ok h
  exact ⟨rfl, rfl, rfl, hbalanced⟩

/-- What is booked is an entry of the event. -/
theorem booked_about {kind : LedgerEntryKind} {referenceType : ReferenceType}
    {referenceId : String} {context : EconomicContext}
    (h : Outcome.entered <$> entry event kind referenceType referenceId context = .ok outcome) :
    outcome.About event ∧ outcome ≠ .passed := by
  cases hentry : entry event kind referenceType referenceId context with
  | error message =>
      rw [hentry] at h
      cases h
  | ok result =>
      rw [hentry] at h
      obtain rfl := Except.ok.inj h
      exact ⟨entry_ok hentry, Outcome.noConfusion⟩

theorem normalizeChannel_about {channelId : String}
    (h : normalizeChannel event channelId state = .ok outcome) : outcome.About event := by
  unfold normalizeChannel at h
  dsimp only at h
  split at h
  · split at h
    case h_4 =>
      obtain ⟨source, -, h⟩ := bind_eq_ok.mp h
      obtain ⟨destination, -, h⟩ := bind_eq_ok.mp h
      exact (booked_about h).1
    case h_6 =>
      obtain rfl := pure_eq_ok.mp h
      trivial
    all_goals
      obtain ⟨value, -, h⟩ := bind_eq_ok.mp h
      exact (booked_about h).1
  · split at h
    · obtain rfl := pure_eq_ok.mp h
      exact ⟨_, _, rfl⟩
    · obtain rfl := pure_eq_ok.mp h
      trivial

theorem normalizeEscrow_about {jobId : String}
    (h : normalizeEscrow event jobId state = .ok outcome) : outcome.About event := by
  unfold normalizeEscrow at h
  dsimp only at h
  split at h
  · obtain ⟨value, -, h⟩ := bind_eq_ok.mp h
    split at h
    · exact (booked_about h).1
    · split at h
      · exact (booked_about h).1
      · obtain rfl := pure_eq_ok.mp h
        trivial
    · exact (booked_about h).1
    · split at h
      · obtain rfl := pure_eq_ok.mp h
        exact ⟨_, _, rfl⟩
      · exact (booked_about h).1
    · obtain rfl := pure_eq_ok.mp h
      trivial
  · split at h
    · obtain rfl := pure_eq_ok.mp h
      exact ⟨_, _, rfl⟩
    · obtain rfl := pure_eq_ok.mp h
      trivial

theorem outcomeWith_about (event : StoredEvent) (state : Option (List (String × JsonValue))) :
    (outcomeWith event state).About event := by
  unfold outcomeWith
  dsimp only
  split
  case h_1 outcome hok =>
    split at hok
    · exact normalizeChannel_about hok
    · exact normalizeEscrow_about hok
    · obtain rfl := Except.ok.inj hok
      trivial
  case h_2 => exact ⟨_, _, rfl⟩

/-- The kinds of events that move money -/
def booked : EventBody → Bool
  | .opened .. | .paid .. | .convpaid .. | .topup .. | .closed .. => true
  | .jobCreated .. | .released .. | .refunded .. | .resolved .. => true
  | _ => false

/-- A release without a worker, of a job with a complete state and with a readable amount -/
def ReleasedToNobody (event : StoredEvent) (state : Option (List (String × JsonValue))) : Prop :=
  ∃ jobId value, event.payload.body = .released jobId "" value ∧ (bigInt value).isSome ∧
    (truthy (text state "token")).isSome ∧ (truthy (text state "requester")).isSome ∧
    (truthy (text state "amount")).isSome

/-- The channel or job that an event of the namespaces `channel` and `escrow` names -/
def EventBody.subject : EventBody → Option (SnapshotKind × String)
  | .opened channelId .. | .paid channelId .. | .convpaid channelId .. | .topup channelId ..
  | .closed channelId .. => some (.channel, channelId)
  | .jobCreated jobId .. | .accepted jobId .. | .result jobId .. | .released jobId ..
  | .refunded jobId .. | .disputed jobId .. | .resolved jobId .. => some (.job, jobId)
  | _ => none

theorem subjectOf_eq (event : StoredEvent) : subjectOf event = event.payload.body.subject := by
  unfold subjectOf
  cases event.payload.body <;> rfl

/-- An action of a list is noticed where the context is missing. -/
theorem unnoticed {action : String} {actions : List String} {found : LedgerIssue}
    (h : (if action ∈ actions then return .raised found else return .passed : Except String Outcome) =
      .ok .passed) : action ∉ actions := by
  intro hmem
  rw [if_pos hmem] at h
  cases h

theorem normalizeChannel_ne_passed {channelId : String}
    (hsubject : event.payload.body.subject = some (.channel, channelId)) :
    normalizeChannel event channelId state ≠ .ok .passed := by
  intro h
  unfold normalizeChannel at h
  cases hbody : event.payload.body with
  | opened channelId agent owner deposit =>
      rw [hbody] at h
      dsimp only at h
      split at h
      · obtain ⟨value, -, h⟩ := bind_eq_ok.mp h
        exact (booked_about h).2 rfl
      · exact unnoticed h (by simp [EventBody.action])
  | paid channelId agent recipient amount memo =>
      rw [hbody] at h
      dsimp only at h
      split at h
      · obtain ⟨value, -, h⟩ := bind_eq_ok.mp h
        exact (booked_about h).2 rfl
      · exact unnoticed h (by simp [EventBody.action])
  | convpaid channelId agent recipient amount destinationToken received memo =>
      rw [hbody] at h
      dsimp only at h
      split at h
      · obtain ⟨source, -, h⟩ := bind_eq_ok.mp h
        obtain ⟨destination, -, h⟩ := bind_eq_ok.mp h
        exact (booked_about h).2 rfl
      · exact unnoticed h (by simp [EventBody.action])
  | topup channelId owner amount =>
      rw [hbody] at h
      dsimp only at h
      split at h
      · obtain ⟨value, -, h⟩ := bind_eq_ok.mp h
        exact (booked_about h).2 rfl
      · exact unnoticed h (by simp [EventBody.action])
  | closed channelId owner refund =>
      rw [hbody] at h
      dsimp only at h
      split at h
      · obtain ⟨value, -, h⟩ := bind_eq_ok.mp h
        exact (booked_about h).2 rfl
      · exact unnoticed h (by simp [EventBody.action])
  | _ =>
      rw [hbody] at hsubject
      cases hsubject

theorem amount_ok (value eventId : String) :
    (∃ n, amount value eventId = .ok n) ↔ (bigInt value).isSome := by
  unfold amount
  cases bigInt value with
  | none => simp
  | some n => simp

/-- A release passes if it is one to nobody. -/
theorem normalizeEscrow_released {jobId named worker value : String}
    (hbody : event.payload.body = .released named worker value) :
    normalizeEscrow event jobId state = .ok .passed ↔
      worker = "" ∧ (bigInt value).isSome ∧ (truthy (text state "token")).isSome ∧
        (truthy (text state "requester")).isSome ∧ (truthy (text state "amount")).isSome := by
  unfold normalizeEscrow
  rw [hbody]
  have hrequester : field (EventBody.released named worker value).fields "requester" = none := rfl
  have hworker : field (EventBody.released named worker value).fields "worker" = some worker := rfl
  have hvalue : field (EventBody.released named worker value).fields "amount" = some value := rfl
  simp only [hrequester, hworker, hvalue, Option.none_or, Option.some_or, Option.getD_some]
  have hmissing : ∀ found : LedgerIssue, (if (EventBody.released named worker value).action ∈
      ["created", "released", "refunded", "resolved"] then return .raised found
      else return .passed : Except String Outcome) ≠ .ok .passed :=
    fun found h => unnoticed h (by simp [EventBody.action])
  cases htoken : truthy (text state "token") with
  | none => exact iff_of_false (hmissing _) (by simp)
  | some asset =>
      cases hfrom : truthy (text state "requester") with
      | none => exact iff_of_false (hmissing _) (by simp)
      | some requester =>
          cases hamount : truthy (text state "amount") with
          | none => exact iff_of_false (hmissing _) (by simp)
          | some stateAmount =>
              simp only [Option.isSome_some, and_true]
              rw [← amount_ok value event.eventId]
              constructor
              · intro h
                obtain ⟨n, hn, h⟩ := bind_eq_ok.mp h
                refine ⟨?_, n, hn⟩
                by_contra hne
                have htruthy : truthy (some worker) = some worker := by simp [truthy, hne]
                rw [htruthy] at h
                exact (booked_about h).2 rfl
              · rintro ⟨rfl, n, hn⟩
                rw [hn, ok_bind]
                rfl

/-- **A booked event of a job passes** only as a release to nobody. -/
theorem normalizeEscrow_passed {jobId : String} (hbooked : booked event.payload.body = true)
    (hsubject : event.payload.body.subject = some (.job, jobId)) :
    normalizeEscrow event jobId state = .ok .passed ↔ ReleasedToNobody event state := by
  have hother : (∀ named worker value, event.payload.body ≠ .released named worker value) →
      ¬ ReleasedToNobody event state := by
    rintro hne ⟨named, value, hbody, -⟩
    exact hne named "" value hbody
  cases hbody : event.payload.body with
  | released named worker value =>
      rw [normalizeEscrow_released hbody]
      constructor
      · rintro ⟨rfl, hrest⟩
        exact ⟨named, value, hbody, hrest⟩
      · rintro ⟨named', value', hbody', hrest⟩
        obtain ⟨-, rfl, rfl⟩ := EventBody.released.inj (hbody.symm.trans hbody')
        exact ⟨rfl, hrest⟩
  | jobCreated named requester value =>
      refine iff_of_false (fun h => ?_) (hother (by simp [hbody]))
      unfold normalizeEscrow at h
      rw [hbody] at h
      dsimp only at h
      split at h
      · obtain ⟨value, -, h⟩ := bind_eq_ok.mp h
        exact (booked_about h).2 rfl
      · exact unnoticed h (by simp [EventBody.action])
  | refunded named requester value =>
      refine iff_of_false (fun h => ?_) (hother (by simp [hbody]))
      unfold normalizeEscrow at h
      rw [hbody] at h
      dsimp only at h
      split at h
      · obtain ⟨value, -, h⟩ := bind_eq_ok.mp h
        exact (booked_about h).2 rfl
      · exact unnoticed h (by simp [EventBody.action])
  | resolved named arbiter favorWorker =>
      refine iff_of_false (fun h => ?_) (hother (by simp [hbody]))
      unfold normalizeEscrow at h
      rw [hbody] at h
      dsimp only at h
      split at h
      · obtain ⟨value, -, h⟩ := bind_eq_ok.mp h
        split at h
        · cases h
        · exact (booked_about h).2 rfl
      · exact unnoticed h (by simp [EventBody.action])
  | _ =>
      rw [hbody] at hbooked hsubject
      first
        | cases hsubject
          done
        | exact absurd hbooked Bool.false_ne_true

theorem caught_passed (raise : String → LedgerIssue) (found : Except String Outcome) :
    (match found with
      | .ok outcome => outcome
      | .error message => .raised (raise message)) = .passed ↔ found = .ok .passed := by
  cases found with
  | error message => simp
  | ok outcome => simp

/-- **A booked event passes** only as a release to nobody; otherwise it gives an entry or an
issue. -/
theorem outcomeWith_passed (hbooked : booked event.payload.body = true) :
    outcomeWith event state = .passed ↔ ReleasedToNobody event state := by
  unfold outcomeWith
  rw [subjectOf_eq]
  refine (caught_passed _ _).trans ?_
  cases hsubject : event.payload.body.subject with
  | none =>
      exfalso
      cases hbody : event.payload.body <;> rw [hbody] at hbooked hsubject <;>
        first
          | cases hsubject
            done
          | exact absurd hbooked Bool.false_ne_true
  | some subject =>
      obtain ⟨kind, id⟩ := subject
      cases kind with
      | job => exact normalizeEscrow_passed hbooked hsubject
      | channel =>
          refine iff_of_false (normalizeChannel_ne_passed hsubject) ?_
          rintro ⟨named, value, hbody, -⟩
          rw [hbody] at hsubject
          cases hsubject

end

/-! ## Fees -/

/-- An entry of the fee, balanced -/
structure FeeEntryOf (fee : TransactionFee) (entry : LedgerEntry) : Prop where
  eventId : entry.eventId = none
  entryId : entry.entryId = "fee:" ++ fee.txHash
  txHash : entry.txHash = fee.txHash
  ledger : entry.ledger = fee.ledger
  balanced : ∀ asset, totalOf asset entry.postings = 0

theorem feeEntry_some {fee : TransactionFee} {entry : LedgerEntry} (h : feeEntry fee = some entry) :
    FeeEntryOf fee entry := by
  unfold feeEntry at h
  split at h
  · cases h
  · obtain ⟨rfl, hbalanced⟩ := validateEntry_ok (toOption_eq_some.mp h)
    exact ⟨rfl, rfl, rfl, rfl, hbalanced⟩

/-! ## The ledger -/

section

variable {localeCompare : String → String → Ordering} {events : List StoredEvent}
  {fees : List TransactionFee}

/-- What the events and the fees give, before it is sorted -/
def unsortedEntries (localeCompare : String → String → Ordering) (events : List StoredEvent)
    (fees : List TransactionFee) : List LedgerEntry :=
  ((sortBy localeCompare (fun event => (event.ledger, event.pagingToken)) events).filterMap
    fun event => (normalizeEvent localeCompare events event).entryOption) ++ fees.filterMap feeEntry

def unsortedIssues (localeCompare : String → String → Ordering) (events : List StoredEvent) :
    List LedgerIssue :=
  (sortBy localeCompare (fun event => (event.ledger, event.pagingToken)) events).filterMap
    fun event => (normalizeEvent localeCompare events event).issue?

theorem entries_eq : (normalizeLedger localeCompare events fees).entries =
    sortBy localeCompare (fun entry => (entry.ledger, entry.entryId))
      (unsortedEntries localeCompare events fees) := by
  unfold normalizeLedger unsortedEntries
  dsimp only
  rw [List.filterMap_map]
  rfl

theorem issues_eq : (normalizeLedger localeCompare events fees).issues =
    sortBy localeCompare (fun issue => (issue.ledger, issue.issueId))
      (unsortedIssues localeCompare events) := by
  unfold normalizeLedger unsortedIssues
  dsimp only
  rw [List.filterMap_map]
  rfl

theorem entryOption_eq_some {outcome : Outcome} {entry : LedgerEntry} :
    outcome.entryOption = some entry ↔ outcome = .entered entry := by
  cases outcome <;> simp [Outcome.entryOption]

theorem issue?_eq_some {outcome : Outcome} {found : LedgerIssue} :
    outcome.issue? = some found ↔ outcome = .raised found := by
  cases outcome <;> simp [Outcome.issue?]

theorem mem_entries {entry : LedgerEntry} :
    entry ∈ (normalizeLedger localeCompare events fees).entries ↔
      (∃ event ∈ events, normalizeEvent localeCompare events event = .entered entry) ∨
        ∃ fee ∈ fees, feeEntry fee = some entry := by
  rw [entries_eq, sortBy, List.mem_insertionSort, unsortedEntries, List.mem_append,
    List.mem_filterMap, List.mem_filterMap]
  simp only [sortBy, List.mem_insertionSort, entryOption_eq_some]

theorem mem_issues {found : LedgerIssue} :
    found ∈ (normalizeLedger localeCompare events fees).issues ↔
      ∃ event ∈ events, normalizeEvent localeCompare events event = .raised found := by
  rw [issues_eq, sortBy, List.mem_insertionSort, unsortedIssues, List.mem_filterMap]
  simp only [sortBy, List.mem_insertionSort, issue?_eq_some]

theorem normalizeEvent_about (event : StoredEvent) :
    (normalizeEvent localeCompare events event).About event := by
  rw [normalizeEvent_eq]
  exact outcomeWith_about event _

theorem entryOf {event : StoredEvent} {entry : LedgerEntry}
    (h : normalizeEvent localeCompare events event = .entered entry) : EntryOf event entry := by
  have habout : (normalizeEvent localeCompare events event).About event := normalizeEvent_about event
  rw [h] at habout
  exact habout

theorem issueOf {event : StoredEvent} {found : LedgerIssue}
    (h : normalizeEvent localeCompare events event = .raised found) :
    ∃ code message, found = issue event code message := by
  have habout : (normalizeEvent localeCompare events event).About event := normalizeEvent_about event
  rw [h] at habout
  exact habout

end

/-! ## Sorted results -/

section

variable {localeCompare : String → String → Ordering} {B : Type} {key : B → ℤ × String}
  {give : StoredEvent → Option B} {events events' : List StoredEvent} {extra extra' : List B}

/-- Where an event stands among the events -/
def eventPosition (event : StoredEvent) : ℤ × String := (event.ledger, event.pagingToken)

/-- Texts of one ledger that compare equal -/
def Ties (localeCompare : String → String → Ordering) (a b : ℤ × String) : Prop :=
  a.1 = b.1 ∧ localeCompare a.2 b.2 = .eq

/-- What events give, in their order, and what comes after it, sorted -/
def sortedGiven (localeCompare : String → String → Ordering) (key : B → ℤ × String)
    (give : StoredEvent → Option B) (events : List StoredEvent) (extra : List B) : List B :=
  sortBy localeCompare key ((sortBy localeCompare eventPosition events).filterMap give ++ extra)

/-- What is given does not come from two events, nor is it among the rest. -/
structure GivenOnce (give : StoredEvent → Option B) (events : List StoredEvent) (extra : List B) :
    Prop where
  once : ∀ event ∈ events, ∀ event' ∈ events, ∀ x, give event = some x → give event' = some x →
    event = event'
  fresh : ∀ event ∈ events, ∀ x ∈ extra, give event ≠ some x

variable [Std.TransCmp localeCompare]

/-- **Results without ties** are the same for every order. -/
theorem sortedGiven_eq (honce : GivenOnce give events extra) (hperm : events'.Perm events)
    (hextra : extra'.Perm extra)
    (hevents : ∀ event ∈ events, ∀ event' ∈ events, ∀ x x', give event = some x →
      give event' = some x' → Ties localeCompare (eventPosition event) (eventPosition event') →
      Ties localeCompare (key x) (key x') → event = event')
    (hrest : ∀ x ∈ extra, ∀ x' ∈ extra, Ties localeCompare (key x) (key x') → x = x') :
    sortedGiven localeCompare key give events' extra' =
      sortedGiven localeCompare key give events extra := by
  let q (x y : B) : Prop :=
    (∀ event ∈ events, ∀ event' ∈ events, give event = some x → give event' = some y →
      precedes localeCompare (eventPosition event) (eventPosition event')) ∧ (x ∈ extra → y ∈ extra)
  -- every order of the input gives a list that is sorted by the positions
  have hsorted : ∀ others rest, others.Perm events → rest.Perm extra →
      ((sortBy localeCompare eventPosition others).filterMap give ++ rest).Pairwise q := by
    intro others rest hothers hrestperm
    refine List.pairwise_append.mpr ⟨?_, ?_, ?_⟩
    · have hpairwise : (sortBy localeCompare eventPosition others).Pairwise fun a b =>
          precedes localeCompare (eventPosition a) (eventPosition b) :=
        List.pairwise_insertionSort _ others
      refine List.pairwise_filterMap.mpr (hpairwise.imp_of_mem fun ha hb hab => ?_)
      rename_i a b
      have ha : a ∈ events := hothers.subset ((List.mem_insertionSort _).mp ha)
      have hb : b ∈ events := hothers.subset ((List.mem_insertionSort _).mp hb)
      intro x hx y hy
      refine ⟨fun event he event' he' hgive hgive' => ?_, fun hmem => ?_⟩
      · rw [honce.once event he a ha x hgive hx, honce.once event' he' b hb y hgive' hy]
        exact hab
      · exact absurd hx (honce.fresh a ha x hmem)
    · refine List.pairwise_iff_forall_sublist.mpr fun hsub => ?_
      rename_i x y
      have hx : x ∈ extra := hrestperm.subset (hsub.subset (by simp))
      have hy : y ∈ extra := hrestperm.subset (hsub.subset (by simp))
      exact ⟨fun event he _ _ hgive _ => absurd hgive (honce.fresh event he x hx), fun _ => hy⟩
    · intro x hx y hy
      have hy : y ∈ extra := hrestperm.subset hy
      exact ⟨fun _ _ event' he' _ hgive' => absurd hgive' (honce.fresh event' he' y hy),
        fun _ => hy⟩
  refine insertionSort_eq_of_ties ?_ (hsorted events' extra' hperm hextra)
    (hsorted events extra (List.Perm.refl _) (List.Perm.refl _)) ?_
  · refine List.Perm.append (List.Perm.filterMap give ?_) hextra
    exact (List.perm_insertionSort _ events').trans
      (hperm.trans (List.perm_insertionSort _ events).symm)
  · intro x hx y hy hxy hyx hqxy hqyx
    have hties : Ties localeCompare (key x) (key y) := ties_iff.mp ⟨hxy, hyx⟩
    have hfrom : ∀ z ∈ (sortBy localeCompare eventPosition events').filterMap give ++ extra',
        (∃ event ∈ events, give event = some z) ∨ z ∈ extra := by
      intro z hz
      rcases List.mem_append.mp hz with hz | hz
      · obtain ⟨event, hevent, hgive⟩ := List.mem_filterMap.mp hz
        exact Or.inl ⟨event, hperm.subset ((List.mem_insertionSort _).mp hevent), hgive⟩
      · exact Or.inr (hextra.subset hz)
    rcases hfrom x hx with ⟨event, hevent, hgive⟩ | hx
    · rcases hfrom y hy with ⟨event', hevent', hgive'⟩ | hy
      · have hposition := ties_iff.mp ⟨hqxy.1 event hevent event' hevent' hgive hgive',
          hqyx.1 event' hevent' event hevent hgive' hgive⟩
        obtain rfl := hevents event hevent event' hevent' x y hgive hgive' hposition hties
        exact Option.some.inj (hgive.symm.trans hgive')
      · exact absurd hgive (honce.fresh event hevent x (hqyx.2 hy))
    · exact hrest x hx y (hqxy.2 hx) hties

end

end StellarAgent.Indexer
