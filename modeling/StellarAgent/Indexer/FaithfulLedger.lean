import StellarAgent.Indexer.Normalization

set_option autoImplicit false

/-! # When the normalized ledger is faithful

A ledger is faithful if it balances, if each event that moves money gives one entry or an issue, and
if the order of the events and fees does not matter. Two things stand in the way: releases to nobody,
and texts that differ but collate as equal (`normalizeLedger_faithful_iff`).
-/

namespace StellarAgent.Indexer

open Lib

section

variable {localeCompare : String → String → Ordering} {events events' : List StoredEvent}
  {fees fees' : List TransactionFee} {event event' : StoredEvent}

/-! ## Conditions -/

/-- **A faithful ledger** of the events and fees -/
structure Faithful (localeCompare : String → String → Ordering) (events : List StoredEvent)
    (fees : List TransactionFee) : Prop where
  balanced : ∀ entry ∈ (normalizeLedger localeCompare events fees).entries,
    ∀ asset, totalOf asset entry.postings = 0
  once : ∀ event ∈ events, ((normalizeLedger localeCompare events fees).entries.filter
    fun entry => entry.eventId = some event.eventId).length ≤ 1
  covered : ∀ event ∈ events, booked event.payload.body = true →
    (∃ entry ∈ (normalizeLedger localeCompare events fees).entries,
      entry.eventId = some event.eventId) ∨
    ∃ found ∈ (normalizeLedger localeCompare events fees).issues, found.eventId = event.eventId
  independent : ∀ events' fees', events'.Perm events → fees'.Perm fees →
    normalizeLedger localeCompare events' fees' = normalizeLedger localeCompare events fees

/-- The event gives an entry. -/
def Enters (localeCompare : String → String → Ordering) (events : List StoredEvent)
    (event : StoredEvent) : Prop :=
  ∃ entry, outcomeWith event (stateIn localeCompare events event) = .entered entry

/-- The event gives an issue, under the id of the text. -/
def Raises (localeCompare : String → String → Ordering) (events : List StoredEvent)
    (event : StoredEvent) (issueId : String) : Prop :=
  ∃ found, outcomeWith event (stateIn localeCompare events event) = .raised found ∧
    found.issueId = issueId

/-- **Ties are harmless**: the snapshots that may serve an event give the same, and no two events
or fees that stand at tied positions give results at tied positions. -/
structure TiesHarmless (localeCompare : String → String → Ordering) (events : List StoredEvent)
    (fees : List TransactionFee) : Prop where
  states : ∀ event ∈ events, ∀ kind id, subjectOf event = some (kind, id) → ∀ snapshot snapshot',
    MayServe localeCompare event (events.filterMap (snapshotOf kind id)) snapshot →
    MayServe localeCompare event (events.filterMap (snapshotOf kind id)) snapshot' →
    outcomeWith event (some snapshot.state) = outcomeWith event (some snapshot'.state)
  entries : ∀ event ∈ events, ∀ event' ∈ events,
    Enters localeCompare events event → Enters localeCompare events event' →
    Ties localeCompare (eventPosition event) (eventPosition event') →
    localeCompare ("event:" ++ event.eventId) ("event:" ++ event'.eventId) = .eq → event = event'
  issues : ∀ event ∈ events, ∀ event' ∈ events, ∀ issueId issueId',
    Raises localeCompare events event issueId → Raises localeCompare events event' issueId' →
    Ties localeCompare (eventPosition event) (eventPosition event') →
    localeCompare issueId issueId' = .eq → event = event'
  fees : ∀ fee ∈ fees, ∀ fee' ∈ fees,
    (bigInt fee.charged).isSome → (bigInt fee'.charged).isSome →
    Ties localeCompare (fee.ledger, "fee:" ++ fee.txHash) (fee'.ledger, "fee:" ++ fee'.txHash) →
    fee = fee'

/-! ## What always holds -/

theorem issue?_of_raised {found : LedgerIssue}
    (h : normalizeEvent localeCompare events event = .raised found) :
    found.eventId = event.eventId ∧ found.ledger = event.ledger := by
  obtain ⟨code, message, rfl⟩ := issueOf h
  exact ⟨rfl, rfl⟩

theorem entries_balanced {entry : LedgerEntry}
    (h : entry ∈ (normalizeLedger localeCompare events fees).entries) (asset : String) :
    totalOf asset entry.postings = 0 := by
  rcases mem_entries.mp h with ⟨event, -, hevent⟩ | ⟨fee, -, hfee⟩
  · exact (entryOf hevent).balanced asset
  · exact (feeEntry_some hfee).balanced asset

theorem eventId_inj (hids : (events.map StoredEvent.eventId).Nodup) (h : event ∈ events)
    (h' : event' ∈ events) (heq : event.eventId = event'.eventId) : event = event' :=
  List.inj_on_of_nodup_map hids h h' heq

/-- The entries of events have distinct event ids, and those of fees have none. -/
theorem entries_once (hids : (events.map StoredEvent.eventId).Nodup) (eventId : String) :
    ((normalizeLedger localeCompare events fees).entries.filter
      fun entry => entry.eventId = some eventId).length ≤ 1 := by
  let keys := fun event : StoredEvent => some event.eventId
  have hperm : (normalizeLedger localeCompare events fees).entries.Perm
      (unsortedEntries localeCompare events fees) := by
    rw [entries_eq]
    exact List.perm_insertionSort _ _
  rw [(hperm.filter _).length_eq, unsortedEntries, List.filter_append, List.length_append]
  have hfees : (fees.filterMap feeEntry).filter
      (fun entry => entry.eventId = some eventId) = [] := by
    refine List.filter_eq_nil_iff.mpr fun entry hentry => ?_
    obtain ⟨fee, -, hfee⟩ := List.mem_filterMap.mp hentry
    simp [(feeEntry_some hfee).eventId]
  rw [hfees, List.length_nil, Nat.add_zero]
  have hkey : ∀ event entry, (normalizeEvent localeCompare events event).entryOption = some entry →
      entry.eventId = keys event :=
    fun event entry h => (entryOf (entryOption_eq_some.mp h)).eventId
  have hsub := map_filterMap_sublist hkey (sortBy localeCompare eventPosition events)
  have hnodup : ((sortBy localeCompare eventPosition events).map keys).Nodup := by
    have hevents : (events.map keys).Nodup := by
      rw [show keys = some ∘ StoredEvent.eventId from rfl, ← List.map_map]
      exact hids.map (Option.some_injective _)
    exact ((List.perm_insertionSort _ events).map keys).nodup_iff.mpr hevents
  have hcount := List.nodup_iff_count_le_one.mp (hsub.nodup hnodup) (some eventId)
  rw [List.count_eq_length_filter, List.filter_map, List.length_map] at hcount
  convert hcount using 2
  refine List.filter_congr fun entry _ => ?_
  simp [beq_eq_decide]

variable (fees) in
/-- **An event is covered** unless it passes. -/
theorem covered_iff (hids : (events.map StoredEvent.eventId).Nodup) (hmem : event ∈ events) :
    ((∃ entry ∈ (normalizeLedger localeCompare events fees).entries,
        entry.eventId = some event.eventId) ∨
      ∃ found ∈ (normalizeLedger localeCompare events fees).issues,
        found.eventId = event.eventId) ↔
      normalizeEvent localeCompare events event ≠ .passed := by
  constructor
  · rintro (⟨entry, hentry, hid⟩ | ⟨found, hfound, hid⟩) hpassed
    · rcases mem_entries.mp hentry with ⟨event', hmem', hevent'⟩ | ⟨fee, -, hfee⟩
      · have heq : event' = event := eventId_inj hids hmem' hmem
          (Option.some.inj ((entryOf hevent').eventId.symm.trans hid))
        rw [heq, hpassed] at hevent'
        cases hevent'
      · rw [(feeEntry_some hfee).eventId] at hid
        cases hid
    · obtain ⟨event', hmem', hevent'⟩ := mem_issues.mp hfound
      have heq : event' = event :=
        eventId_inj hids hmem' hmem ((issue?_of_raised hevent').1.symm.trans hid)
      rw [heq, hpassed] at hevent'
      cases hevent'
  · intro hne
    cases hevent : normalizeEvent localeCompare events event with
    | entered entry =>
        exact Or.inl ⟨entry, mem_entries.mpr (Or.inl ⟨event, hmem, hevent⟩),
          (entryOf hevent).eventId⟩
    | raised found =>
        exact Or.inr ⟨found, mem_issues.mpr ⟨event, hmem, hevent⟩, (issue?_of_raised hevent).1⟩
    | passed => exact absurd hevent hne

end

/-! ## What depends on the order -/

section

variable {localeCompare : String → String → Ordering} {events events' : List StoredEvent}
  {fees fees' : List TransactionFee} {event event' : StoredEvent}

theorem feeEntry_isSome {fee : TransactionFee} :
    (feeEntry fee).isSome = (bigInt fee.charged).isSome := by
  unfold feeEntry
  cases bigInt fee.charged with
  | none => rfl
  | some value =>
      dsimp only
      cases hvalid : validateEntry _ with
      | ok entry => rfl
      | error message =>
          exfalso
          unfold validateEntry at hvalid
          split at hvalid
          case h_2 => cases hvalid
          case h_1 asset hfind =>
            -- what the payer is charged, the network gets
            have hne := List.find?_some hfind
            rw [decide_eq_true_eq] at hne
            refine hne ?_
            by_cases hasset : fee.asset.getD NATIVE_ASSET = asset
            · simp [totalOf, hasset]
            · simp [totalOf, hasset]

/-- Ledgers with the same entries and issues come from events with the same outcomes. -/
theorem outcome_of_ledger (hids : (events.map StoredEvent.eventId).Nodup)
    (hperm : events'.Perm events) (hmem : event ∈ events)
    (hledger : normalizeLedger localeCompare events' fees' =
      normalizeLedger localeCompare events fees) :
    normalizeEvent localeCompare events' event = normalizeEvent localeCompare events event := by
  have hmem' : event ∈ events' := hperm.symm.subset hmem
  have hids' : (events'.map StoredEvent.eventId).Nodup :=
    (hperm.map StoredEvent.eventId).nodup_iff.mpr hids
  cases hevent : normalizeEvent localeCompare events event with
  | entered entry =>
      have hentry : entry ∈ (normalizeLedger localeCompare events' fees').entries :=
        hledger ▸ mem_entries.mpr (Or.inl ⟨event, hmem, hevent⟩)
      rcases mem_entries.mp hentry with ⟨source, hsource, houtcome⟩ | ⟨fee, -, hfee⟩
      · have hid := (entryOf houtcome).eventId.symm.trans (entryOf hevent).eventId
        rw [← houtcome, eventId_inj hids' hsource hmem' (Option.some.inj hid)]
      · have hid := (feeEntry_some hfee).eventId.symm.trans (entryOf hevent).eventId
        cases hid
  | raised found =>
      have hfound : found ∈ (normalizeLedger localeCompare events' fees').issues :=
        hledger ▸ mem_issues.mpr ⟨event, hmem, hevent⟩
      obtain ⟨source, hsource, houtcome⟩ := mem_issues.mp hfound
      have hid := (issue?_of_raised houtcome).1.symm.trans (issue?_of_raised hevent).1
      rw [← houtcome, eventId_inj hids' hsource hmem' hid]
  | passed =>
      by_contra hne
      have hcovered := (covered_iff fees' hids' hmem').mpr hne
      rw [hledger] at hcovered
      exact (covered_iff fees hids hmem).mp hcovered hevent

variable [Std.TransCmp localeCompare]

variable (localeCompare) in
/-- **The state that is found** is the same for every order of the events, or a snapshot serves for
each order. -/
theorem stateIn_cases {kind : SnapshotKind} {id : String}
    (hsubject : subjectOf event = some (kind, id)) (hperm : events'.Perm events) :
    (stateIn localeCompare events' event = none ∧ stateIn localeCompare events event = none) ∨
    ∃ snapshot snapshot',
      MayServe localeCompare event (events.filterMap (snapshotOf kind id)) snapshot' ∧
      stateIn localeCompare events' event = some snapshot'.state ∧
      MayServe localeCompare event (events.filterMap (snapshotOf kind id)) snapshot ∧
      stateIn localeCompare events event = some snapshot.state := by
  have hvalues := hperm.filterMap (snapshotOf kind id)
  have hstate : ∀ others, stateIn localeCompare others event =
      stateFor localeCompare event (sortBy localeCompare snapshotPosition
        (others.filterMap (snapshotOf kind id))) := by
    intro others
    rw [stateIn, hsubject]
    rfl
  rw [hstate events', hstate events]
  rcases stateFor_cases localeCompare event
    (events'.filterMap (snapshotOf kind id)) with ⟨hnone', hserve'⟩ | ⟨snapshot', hserve', hstate'⟩
  · rcases stateFor_cases localeCompare event
      (events.filterMap (snapshotOf kind id)) with ⟨hnone, -⟩ | ⟨snapshot, hserve, -⟩
    · exact Or.inl ⟨hnone', hnone⟩
    · exact absurd (hserve.perm hvalues.symm) (hserve' snapshot)
  · rcases stateFor_cases localeCompare event
      (events.filterMap (snapshotOf kind id)) with ⟨-, hserve⟩ | ⟨snapshot, hserve, hstate⟩
    · exact absurd (hserve'.perm hvalues) (hserve snapshot')
    · exact Or.inr ⟨snapshot, snapshot', hserve'.perm hvalues, hstate', hserve, hstate⟩

/-- With harmless ties an event gives the same for every order of the events. -/
theorem outcome_of_harmless (h : TiesHarmless localeCompare events fees)
    (hperm : events'.Perm events) (hmem : event ∈ events) :
    normalizeEvent localeCompare events' event = normalizeEvent localeCompare events event := by
  rw [normalizeEvent_eq, normalizeEvent_eq]
  cases hsubject : subjectOf event with
  | none =>
      have hnone : ∀ others, stateIn localeCompare others event = none := by
        intro others
        rw [stateIn, hsubject]
        rfl
      rw [hnone events', hnone events]
  | some subject =>
      rcases stateIn_cases localeCompare hsubject hperm with
        ⟨hnone', hnone⟩ | ⟨snapshot, snapshot', hserve', hstate', hserve, hstate⟩
      · rw [hnone', hnone]
      · rw [hstate', hstate]
        exact h.states event hmem _ _ hsubject snapshot' snapshot hserve' hserve

omit [Std.TransCmp localeCompare] in
/-- The entries and issues, as lists that are given by the events and sorted -/
theorem normalizeLedger_eq (houtcome : ∀ event ∈ events',
    normalizeEvent localeCompare events' event = normalizeEvent localeCompare events event) :
    normalizeLedger localeCompare events' fees' =
      { entries := sortedGiven localeCompare (fun entry => (entry.ledger, entry.entryId))
          (fun event => (normalizeEvent localeCompare events event).entryOption) events'
          (fees'.filterMap feeEntry)
        issues := sortedGiven localeCompare (fun found => (found.ledger, found.issueId))
          (fun event => (normalizeEvent localeCompare events event).issue?) events' [] } := by
  have hsorted : ∀ event ∈ sortBy localeCompare eventPosition events',
      normalizeEvent localeCompare events' event = normalizeEvent localeCompare events event :=
    fun event hevent => houtcome event ((List.mem_insertionSort _).mp hevent)
  have hentries : (normalizeLedger localeCompare events' fees').entries = _ := entries_eq
  have hissues : (normalizeLedger localeCompare events' fees').issues = _ := issues_eq
  rw [unsortedEntries, List.filterMap_congr fun event hevent => by rw [hsorted event hevent]]
    at hentries
  rw [unsortedIssues, List.filterMap_congr fun event hevent => by rw [hsorted event hevent]]
    at hissues
  have heta : normalizeLedger localeCompare events' fees' =
      ⟨(normalizeLedger localeCompare events' fees').entries,
        (normalizeLedger localeCompare events' fees').issues⟩ := rfl
  rw [heta, hentries, hissues, sortedGiven, sortedGiven, List.append_nil]
  rfl

/-! ## One tie is enough -/

omit [Std.TransCmp localeCompare] in
variable (localeCompare) in
/-- What is given once stands once in the list. -/
theorem GivenOnce.nodup {B : Type} {give : StoredEvent → Option B} {extra : List B}
    (h : GivenOnce give events extra) (hevents : events.Nodup) (hextra : extra.Nodup)
    (hperm : events'.Perm events) :
    ((sortBy localeCompare eventPosition events').filterMap give ++ extra).Nodup := by
  have hsorted : (sortBy localeCompare eventPosition events').Perm events :=
    (List.perm_insertionSort _ events').trans hperm
  refine List.nodup_append.mpr ⟨?_, hextra, fun x hx y hy heq => ?_⟩
  · refine List.pairwise_filterMap.mpr ?_
    refine (hsorted.nodup_iff.mpr hevents).imp_of_mem fun {a b} ha hb hab x hx y hy heq => hab ?_
    exact h.once a (hsorted.subset ha) b (hsorted.subset hb) x hx (heq ▸ hy)
  · obtain ⟨event, hevent, hgive⟩ := List.mem_filterMap.mp hx
    exact h.fresh event (hsorted.subset hevent) y hy (heq ▸ hgive)

/-- **Ties show**: where the sorted results do not depend on the order of the events, no two events
at tied positions give results with tied keys. -/
theorem sortedGiven_ties {B : Type} {key : B → ℤ × String} {give : StoredEvent → Option B}
    {extra : List B} {x x' : B} (honce : GivenOnce give events extra) (hevents : events.Nodup)
    (hextra : extra.Nodup)
    (hsame : ∀ others, others.Perm events → sortedGiven localeCompare key give others extra =
      sortedGiven localeCompare key give events extra)
    (hmem : event ∈ events) (hmem' : event' ∈ events) (hgive : give event = some x)
    (hgive' : give event' = some x')
    (hposition : Ties localeCompare (eventPosition event) (eventPosition event'))
    (hkey : Ties localeCompare (key x) (key x')) : event = event' := by
  by_contra hne
  obtain ⟨rest, hfirst⟩ := exists_perm_pair hmem hmem' hne
  obtain ⟨rest', hsecond⟩ := exists_perm_pair hmem' hmem (Ne.symm hne)
  obtain ⟨hle, hge⟩ := ties_iff.mpr hposition
  obtain ⟨hkle, hkge⟩ := ties_iff.mpr hkey
  -- what the two events give stands in the order of the events
  have hpair : ∀ a b y z others, give a = some y → give b = some z →
      precedes localeCompare (eventPosition a) (eventPosition b) →
      [y, z].Sublist ((sortBy localeCompare eventPosition (a :: b :: others)).filterMap give ++
        extra) := by
    intro a b y z others hy hz hab
    have hsub : [a, b].Sublist (sortBy localeCompare eventPosition (a :: b :: others)) :=
      List.pair_sublist_insertionSort hab (by simp)
    have hgiven := hsub.filterMap give
    rw [List.filterMap_cons_some hy, List.filterMap_cons_some hz] at hgiven
    exact hgiven.trans (List.sublist_append_left _ _)
  have hnodup : ((sortBy localeCompare eventPosition (event :: event' :: rest)).filterMap give ++
      extra).Nodup := honce.nodup localeCompare hevents hextra hfirst.symm
  refine insertionSort_ne_of_swap (r := fun a b => precedes localeCompare (key a) (key b)) hnodup
    hkle hkge (hpair event event' x x' rest hgive hgive' hle)
    (hpair event' event x' x rest' hgive' hgive hge) ?_
  exact (hsame _ hfirst.symm).trans (hsame _ hsecond.symm).symm

/-- Fees at tied positions show as well. -/
theorem sortedGiven_fee_ties {give : StoredEvent → Option LedgerEntry} {key : LedgerEntry → ℤ × String}
    {fee fee' : TransactionFee} {x x' : LedgerEntry} 
    (honce : ∀ others : List TransactionFee, others.Perm fees →
      ((sortBy localeCompare eventPosition events).filterMap give ++
        others.filterMap feeEntry).Nodup)
    (hsame : ∀ others : List TransactionFee, others.Perm fees →
      sortedGiven localeCompare key give events (others.filterMap feeEntry) =
        sortedGiven localeCompare key give events (fees.filterMap feeEntry))
    (hmem : fee ∈ fees) (hmem' : fee' ∈ fees) (hfee : feeEntry fee = some x)
    (hfee' : feeEntry fee' = some x') (hkey : Ties localeCompare (key x) (key x')) :
    fee = fee' := by
  by_contra hne
  obtain ⟨rest, hfirst⟩ := exists_perm_pair hmem hmem' hne
  obtain ⟨rest', hsecond⟩ := exists_perm_pair hmem' hmem (Ne.symm hne)
  obtain ⟨hkle, hkge⟩ := ties_iff.mpr hkey
  have hpair : ∀ a b y z others, feeEntry a = some y → feeEntry b = some z →
      [y, z].Sublist ((sortBy localeCompare eventPosition events).filterMap give ++
        (a :: b :: others).filterMap feeEntry) := by
    intro a b y z others hy hz
    rw [List.filterMap_cons_some hy, List.filterMap_cons_some hz]
    exact List.Sublist.trans (by simp) (List.sublist_append_right _ _)
  refine insertionSort_ne_of_swap (r := fun a b => precedes localeCompare (key a) (key b))
    (honce _ hfirst.symm) hkle hkge (hpair fee fee' x x' rest hfee hfee')
    (hpair fee' fee x' x rest' hfee' hfee) ?_
  exact (hsame _ hfirst.symm).trans (hsame _ hsecond.symm).symm

/-! ## The condition -/

omit [Std.TransCmp localeCompare] in
theorem snapshotOf_position {kind : SnapshotKind} {id : String} {snapshot : Snapshot}
    (h : snapshotOf kind id event = some snapshot) :
    snapshotPosition snapshot = eventPosition event := by
  unfold snapshotOf at h
  split at h
  · cases h
  · split at h
    · split at h
      · obtain rfl := Option.some.inj h
        rfl
      · cases h
    · cases h

omit [Std.TransCmp localeCompare] in
theorem entries_givenOnce (hids : (events.map StoredEvent.eventId).Nodup) :
    GivenOnce (fun event => (normalizeEvent localeCompare events event).entryOption) events
      (fees.filterMap feeEntry) where
  once := fun event hmem event' hmem' entry hgive hgive' => by
    have hid := (entryOf (entryOption_eq_some.mp hgive)).eventId.symm.trans
      (entryOf (entryOption_eq_some.mp hgive')).eventId
    exact eventId_inj hids hmem hmem' (Option.some.inj hid)
  fresh := fun event _ entry hentry hgive => by
    obtain ⟨fee, -, hfee⟩ := List.mem_filterMap.mp hentry
    have hid := (feeEntry_some hfee).eventId.symm.trans (entryOf (entryOption_eq_some.mp hgive)).eventId
    cases hid

omit [Std.TransCmp localeCompare] in
theorem issues_givenOnce (hids : (events.map StoredEvent.eventId).Nodup) :
    GivenOnce (fun event => (normalizeEvent localeCompare events event).issue?) events [] where
  once := fun event hmem event' hmem' found hgive hgive' => by
    have hid := (issue?_of_raised (issue?_eq_some.mp hgive)).1.symm.trans
      (issue?_of_raised (issue?_eq_some.mp hgive')).1
    exact eventId_inj hids hmem hmem' hid
  fresh := fun _ _ found hfound => absurd hfound List.not_mem_nil

theorem feeEntries_nodup (hhashes : (fees.map TransactionFee.txHash).Nodup) :
    (fees.filterMap feeEntry).Nodup := by
  have hsub := map_filterMap_sublist (f := feeEntry) (k := TransactionFee.txHash)
    (fun fee entry h => (feeEntry_some h).txHash) fees
  exact (hsub.nodup hhashes).of_map

/-- **Harmless ties are enough** for a result that does not depend on the order. -/
theorem ledger_of_harmless (hids : (events.map StoredEvent.eventId).Nodup)
    (h : TiesHarmless localeCompare events fees) (hperm : events'.Perm events)
    (hfees : fees'.Perm fees) :
    normalizeLedger localeCompare events' fees' = normalizeLedger localeCompare events fees := by
  have houtcome : ∀ others, others.Perm events → ∀ event ∈ others,
      normalizeEvent localeCompare others event = normalizeEvent localeCompare events event :=
    fun others hothers event hevent => outcome_of_harmless h hothers (hothers.subset hevent)
  have hentries : sortedGiven localeCompare (fun entry : LedgerEntry => (entry.ledger, entry.entryId))
      (fun event => (normalizeEvent localeCompare events event).entryOption) events'
        (fees'.filterMap feeEntry) =
      sortedGiven localeCompare (fun entry => (entry.ledger, entry.entryId))
      (fun event => (normalizeEvent localeCompare events event).entryOption) events
        (fees.filterMap feeEntry) := by
    refine sortedGiven_eq (entries_givenOnce hids) hperm (hfees.filterMap feeEntry) ?_ ?_
    · intro event hmem event' hmem' x x' hgive hgive' hposition hkey
      have hentry := entryOption_eq_some.mp hgive
      have hentry' := entryOption_eq_some.mp hgive'
      have hid := hkey.2
      rw [(entryOf hentry).entryId, (entryOf hentry').entryId] at hid
      rw [normalizeEvent_eq] at hentry hentry'
      exact h.entries event hmem event' hmem' ⟨x, hentry⟩ ⟨x', hentry'⟩ hposition hid
    · intro x hx x' hx' hkey
      obtain ⟨fee, hmem, hfee⟩ := List.mem_filterMap.mp hx
      obtain ⟨fee', hmem', hfee'⟩ := List.mem_filterMap.mp hx'
      have hsome : (bigInt fee.charged).isSome = true := by rw [← feeEntry_isSome, hfee]; rfl
      have hsome' : (bigInt fee'.charged).isSome = true := by rw [← feeEntry_isSome, hfee']; rfl
      rw [(feeEntry_some hfee).ledger, (feeEntry_some hfee).entryId, (feeEntry_some hfee').ledger,
        (feeEntry_some hfee').entryId] at hkey
      obtain rfl := h.fees fee hmem fee' hmem' hsome hsome' hkey
      exact Option.some.inj (hfee.symm.trans hfee')
  have hissues : sortedGiven localeCompare (fun found : LedgerIssue => (found.ledger, found.issueId))
      (fun event => (normalizeEvent localeCompare events event).issue?) events' [] =
      sortedGiven localeCompare (fun found => (found.ledger, found.issueId))
      (fun event => (normalizeEvent localeCompare events event).issue?) events [] := by
    refine sortedGiven_eq (issues_givenOnce hids) hperm (List.Perm.refl _) ?_ ?_
    · intro event hmem event' hmem' x x' hgive hgive' hposition hkey
      have hissue := issue?_eq_some.mp hgive
      have hissue' := issue?_eq_some.mp hgive'
      rw [normalizeEvent_eq] at hissue hissue'
      exact h.issues event hmem event' hmem' x.issueId x'.issueId ⟨x, hissue, rfl⟩
        ⟨x', hissue', rfl⟩ hposition hkey.2
    · exact fun x hx => absurd hx List.not_mem_nil
  rw [normalizeLedger_eq (houtcome events' hperm),
    normalizeLedger_eq (houtcome events (List.Perm.refl _)), hentries, hissues]

omit [Std.TransCmp localeCompare] in
/-- A result that does not depend on the order consists of lists that do not. -/
theorem given_of_independent (hids : (events.map StoredEvent.eventId).Nodup)
    (h : ∀ events' fees', events'.Perm events → fees'.Perm fees →
      normalizeLedger localeCompare events' fees' = normalizeLedger localeCompare events fees)
    (hperm : events'.Perm events) (hfees : fees'.Perm fees) :
    sortedGiven localeCompare (fun entry : LedgerEntry => (entry.ledger, entry.entryId))
        (fun event => (normalizeEvent localeCompare events event).entryOption) events'
        (fees'.filterMap feeEntry) =
      sortedGiven localeCompare (fun entry => (entry.ledger, entry.entryId))
        (fun event => (normalizeEvent localeCompare events event).entryOption) events
        (fees.filterMap feeEntry) ∧
    sortedGiven localeCompare (fun found : LedgerIssue => (found.ledger, found.issueId))
        (fun event => (normalizeEvent localeCompare events event).issue?) events' [] =
      sortedGiven localeCompare (fun found => (found.ledger, found.issueId))
        (fun event => (normalizeEvent localeCompare events event).issue?) events [] := by
  have houtcome : ∀ event ∈ events',
      normalizeEvent localeCompare events' event = normalizeEvent localeCompare events event :=
    fun event hevent => outcome_of_ledger hids hperm (hperm.subset hevent) (h events' fees' hperm hfees)
  have hledger := h events' fees' hperm hfees
  rw [normalizeLedger_eq houtcome, normalizeLedger_eq fun _ _ => rfl] at hledger
  exact ⟨congrArg NormalizedLedger.entries hledger, congrArg NormalizedLedger.issues hledger⟩

/-- **Harmless ties are needed** for a result that does not depend on the order. -/
theorem harmless_of_independent (hids : (events.map StoredEvent.eventId).Nodup)
    (hhashes : (fees.map TransactionFee.txHash).Nodup)
    (h : ∀ events' fees', events'.Perm events → fees'.Perm fees →
      normalizeLedger localeCompare events' fees' = normalizeLedger localeCompare events fees) :
    TiesHarmless localeCompare events fees := by
  have hevents : events.Nodup := hids.of_map
  have hfeesSelf : fees.Perm fees := List.Perm.refl fees
  refine ⟨?_, ?_, ?_, ?_⟩
  · intro event hmem kind id hsubject snapshot snapshot' hserve hserve'
    -- each of the two serves for some order, and the outcome is the same for both
    have houtcome : ∀ value, MayServe localeCompare event
        (events.filterMap (snapshotOf kind id)) value →
        outcomeWith event (some value.state) = normalizeEvent localeCompare events event := by
      intro value hvalue
      obtain ⟨others, hothers, hstate⟩ := hvalue.serves
      rw [← outcome_of_ledger hids hothers hmem (h others fees hothers hfeesSelf),
        normalizeEvent_eq, stateIn, hsubject, Option.bind_some, hstate]
    rw [houtcome snapshot hserve, houtcome snapshot' hserve']
  · rintro event hmem event' hmem' ⟨x, hx⟩ ⟨x', hx'⟩ hposition hid
    rw [← normalizeEvent_eq] at hx hx'
    refine sortedGiven_ties (entries_givenOnce hids) hevents (feeEntries_nodup hhashes)
      (fun others hothers => (given_of_independent hids h hothers hfeesSelf).1) hmem hmem'
      (entryOption_eq_some.mpr hx) (entryOption_eq_some.mpr hx') hposition ?_
    refine ⟨?_, ?_⟩
    · rw [(entryOf hx).ledger, (entryOf hx').ledger]
      exact hposition.1
    · rw [(entryOf hx).entryId, (entryOf hx').entryId]
      exact hid
  · rintro event hmem event' hmem' issueId issueId' ⟨x, hx, rfl⟩ ⟨x', hx', rfl⟩ hposition hid
    rw [← normalizeEvent_eq] at hx hx'
    refine sortedGiven_ties (issues_givenOnce hids) hevents List.nodup_nil
      (fun others hothers => (given_of_independent hids h hothers hfeesSelf).2) hmem hmem'
      (issue?_eq_some.mpr hx) (issue?_eq_some.mpr hx') hposition ?_
    refine ⟨?_, hid⟩
    rw [(issue?_of_raised hx).2, (issue?_of_raised hx').2]
    exact hposition.1
  · intro fee hmem fee' hmem' hsome hsome' hkey
    rw [← feeEntry_isSome] at hsome hsome'
    obtain ⟨x, hx⟩ := Option.isSome_iff_exists.mp hsome
    obtain ⟨x', hx'⟩ := Option.isSome_iff_exists.mp hsome'
    refine sortedGiven_fee_ties (fun others hothers => ?_)
      (fun others hothers => (given_of_independent hids h (List.Perm.refl events) hothers).1)
      hmem hmem' hx hx' ?_
    · have hhashes' : (others.map TransactionFee.txHash).Nodup :=
        (hothers.map TransactionFee.txHash).nodup_iff.mpr hhashes
      exact (entries_givenOnce hids).nodup localeCompare hevents (feeEntries_nodup hhashes')
        (List.Perm.refl events)
    · rw [(feeEntry_some hx).ledger, (feeEntry_some hx).entryId, (feeEntry_some hx').ledger,
        (feeEntry_some hx').entryId]
      exact hkey

/-- Where texts that differ collate as different, and positions are distinct, there are no ties. -/
theorem harmless_of_distinct [Std.LawfulEqCmp localeCompare]
    (hpositions : (events.map eventPosition).Nodup)
    (hhashes : (fees.map TransactionFee.txHash).Nodup) :
    TiesHarmless localeCompare events fees := by
  have heq : ∀ a b : ℤ × String, Ties localeCompare a b → a = b :=
    fun a b h => Prod.ext h.1 (Std.LawfulEqCmp.eq_of_compare h.2)
  have hevent : ∀ event ∈ events, ∀ event' ∈ events,
      eventPosition event = eventPosition event' → event = event' :=
    fun event hmem event' hmem' h => List.inj_on_of_nodup_map hpositions hmem hmem' h
  refine ⟨?_, ?_, ?_, ?_⟩
  · intro event _ kind id _ snapshot snapshot' hserve hserve'
    have hposition : snapshotPosition snapshot = snapshotPosition snapshot' := by
      rcases hserve with ⟨hmem, hleast⟩ | ⟨hnone, hmem, hgreatest⟩
      · rcases hserve' with ⟨hmem', hleast'⟩ | ⟨hnone', -⟩
        · exact heq _ _ (ties_iff.mp ⟨hleast _ hmem', hleast' _ hmem⟩)
        · exact absurd (hnone' ▸ hmem) List.not_mem_nil
      · rcases hserve' with ⟨hmem', -⟩ | ⟨-, hmem', hgreatest'⟩
        · exact absurd (hnone ▸ hmem') List.not_mem_nil
        · exact heq _ _ (ties_iff.mp ⟨hgreatest' _ hmem, hgreatest _ hmem'⟩)
    obtain ⟨source, hsource, hsnapshot⟩ := List.mem_filterMap.mp hserve.mem
    obtain ⟨source', hsource', hsnapshot'⟩ := List.mem_filterMap.mp hserve'.mem
    rw [snapshotOf_position hsnapshot, snapshotOf_position hsnapshot'] at hposition
    obtain rfl := hevent source hsource source' hsource' hposition
    rw [Option.some.inj (hsnapshot.symm.trans hsnapshot')]
  · exact fun event hmem event' hmem' _ _ hposition _ =>
      hevent event hmem event' hmem' (heq _ _ hposition)
  · exact fun event hmem event' hmem' _ _ _ _ hposition _ =>
      hevent event hmem event' hmem' (heq _ _ hposition)
  · intro fee hmem fee' hmem' _ _ hkey
    have hhash : "fee:" ++ fee.txHash = "fee:" ++ fee'.txHash := congrArg Prod.snd (heq _ _ hkey)
    exact List.inj_on_of_nodup_map hhashes hmem hmem' ((String.append_right_inj _).mp hhash)

/-- **When the normalized ledger is faithful**: no release to nobody finds a complete state, and ties
are harmless. -/
theorem normalizeLedger_faithful_iff (hids : (events.map StoredEvent.eventId).Nodup)
    (hhashes : (fees.map TransactionFee.txHash).Nodup) :
    Faithful localeCompare events fees ↔
      (∀ event ∈ events, ¬ ReleasedToNobody event (stateIn localeCompare events event)) ∧
        TiesHarmless localeCompare events fees := by
  constructor
  · intro h
    refine ⟨fun event hmem hreleased => ?_, harmless_of_independent hids hhashes h.independent⟩
    have hbooked : booked event.payload.body = true := by
      obtain ⟨named, value, hbody, -⟩ := hreleased
      rw [hbody]
      rfl
    refine (covered_iff fees hids hmem).mp (h.covered event hmem hbooked) ?_
    rw [normalizeEvent_eq]
    exact (outcomeWith_passed hbooked).mpr hreleased
  · rintro ⟨hreleased, hharmless⟩
    refine ⟨fun entry hentry => entries_balanced hentry, fun event _ => entries_once hids _,
      fun event hmem hbooked => (covered_iff fees hids hmem).mpr fun hpassed => ?_,
      fun events' fees' hperm hfees => ledger_of_harmless hids hharmless hperm hfees⟩
    rw [normalizeEvent_eq] at hpassed
    exact hreleased event hmem ((outcomeWith_passed hbooked).mp hpassed)

end

/-- A snapshot of a job, and an event of the same transaction -/
def jobEvents (body : EventBody) : List StoredEvent :=
  let snapshot : EventBody := .jobState "1" (.object
    [("token", .string "CTOKEN"), ("requester", .string "GREQUESTER"), ("amount", .string "30")])
  [(body, "0"), (snapshot, "1")].map fun (body, index) => stored {
    eventId := "5-" ++ index
    contractKind := .escrow
    contractAddress := "CESCROW"
    ledger := 5
    ledgerClosedAt := "2026-01-01T00:00:00Z"
    txHash := "ab"
    pagingToken := "5-" ++ index
    rawTopicXdr := []
    rawValueXdr := ""
    body := body }

/-- A refund is one balanced entry, in whatever order the two events come. -/
theorem refund_faithful :
    Faithful compare (jobEvents (.refunded "1" "GREQUESTER" "30"))
      [⟨"ab", 5, "2026-01-01T00:00:00Z", "GPAYER", "100", none, none, none⟩] := by
  refine (normalizeLedger_faithful_iff (by decide) (by decide)).mpr
    ⟨?_, harmless_of_distinct (by decide) (by decide)⟩
  rintro event hmem ⟨named, value, hbody, -⟩
  have hother : ∀ event ∈ jobEvents (.refunded "1" "GREQUESTER" "30"),
      event.payload.body.action ≠ "released" := by decide
  exact hother event hmem (by rw [hbody]; rfl)

/-- A release without a worker moves money, and the ledger keeps nothing of it. -/
theorem release_to_nobody_uncovered :
    ((jobEvents (.released "1" "" "30")).map StoredEvent.eventId).Nodup ∧
    ((jobEvents (.released "1" "" "30")).map eventPosition).Nodup ∧
    (∃ event ∈ jobEvents (.released "1" "" "30"), booked event.payload.body = true) ∧
    (normalizeLedger compare (jobEvents (.released "1" "" "30")) []).entries.isEmpty = true ∧
    (normalizeLedger compare (jobEvents (.released "1" "" "30")) []).issues.isEmpty = true ∧
    ¬ Faithful compare (jobEvents (.released "1" "" "30")) [] := by
  have hentries : (normalizeLedger compare (jobEvents (.released "1" "" "30")) []).entries.isEmpty =
      true := by decide +kernel
  have hissues : (normalizeLedger compare (jobEvents (.released "1" "" "30")) []).issues.isEmpty =
      true := by decide +kernel
  refine ⟨by decide, by decide, ⟨_, List.mem_cons_self, rfl⟩, hentries, hissues, fun h => ?_⟩
  rcases h.covered _ List.mem_cons_self rfl with ⟨entry, hentry, -⟩ | ⟨found, hfound, -⟩
  · rw [List.isEmpty_iff.mp hentries] at hentry
    exact List.not_mem_nil hentry
  · rw [List.isEmpty_iff.mp hissues] at hfound
    exact List.not_mem_nil hfound

end StellarAgent.Indexer
