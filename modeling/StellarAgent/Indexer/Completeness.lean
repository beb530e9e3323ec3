import StellarAgent.Indexer.Polling
import StellarAgent.Indexer.StoreEffects

set_option autoImplicit false

/-! # No gap behind the checkpoint

For an event that the source holds whenever its ledger is `depth` below the highest one shown, a
fetch that is past its first page either has the event, or is still below it, or its range ends
below it (`Gathers`). So a commit stores every such event of its range, and one before the range is
where it was (`Complete`).
-/

namespace StellarAgent.Indexer

open Lib
open Prediction (Native)

section

variable {place : String →o ℤ}

theorem Source.ordered (source : Source place) {a b : RawContractEvent} (ha : a ∈ source.events)
    (hlt : a.ledger < b.ledger) (hb : place b.id = b.ledger) : a.id < b.id := by
  by_contra hnot
  have hle := place.monotone (not_lt.mp hnot)
  rw [hb, source.placed a ha] at hle
  omega

/-- Of a list in the order of the ids, an event is on the first page or after its last event. -/
theorem mem_page_or_after {l : List RawContractEvent} {event : RawContractEvent} {n : ℕ}
    (hsorted : l.Pairwise fun a b => a.id < b.id) (hmem : event ∈ l) (hpos : 0 < n) :
    event ∈ l.take n ∨
      ((l.take n).length = n ∧ ∃ last, (l.take n).getLast? = some last ∧ last.id < event.id) := by
  rw [← List.take_append_drop n l] at hmem
  rcases List.mem_append.mp hmem with htake | hdrop
  · exact Or.inl htake
  · have hlong : n < l.length := by
      by_contra hshort
      rw [List.drop_eq_nil_of_le (not_lt.mp hshort)] at hdrop
      cases hdrop
    have hlength : (l.take n).length = n := by
      rw [List.length_take]
      omega
    have hne : l.take n ≠ [] := by
      intro hnil
      rw [hnil] at hlength
      simp at hlength
      omega
    refine Or.inr ⟨hlength, (l.take n).getLast hne, List.getLast?_eq_some_getLast hne, ?_⟩
    rw [← List.take_append_drop n l] at hsorted
    exact (List.pairwise_append.mp hsorted).2.2 _ (List.getLast_mem hne) event hdrop

end

/-! ## Fetches -/

section

variable (options : IndexerOptions) {place : String →o ℤ} (event : RawContractEvent) (depth : ℤ)

/-- The fetch has had its first response. -/
def Fetch.Begun (fetch : Fetch) : Prop := ∀ ledger, fetch.next ≠ some (.startLedger ledger)

/-- What holds of a fetch, with regard to an event of the source -/
structure Gathers (place : String →o ℤ) (head : ℤ) (fetch : Fetch) : Prop where
  placed : ∀ raw ∈ fetch.rawEvents, place raw.id = raw.ledger
  distinct : (fetch.rawEvents.map RawContractEvent.id).Nodup
  first : ∀ ledger, fetch.next = some (.startLedger ledger) → fetch = Fetch.start ledger
  upTo : ∀ token, fetch.next = some (.cursor token) →
    fetch.fromLedger ≤ fetch.latestLedger ∧ ∀ raw ∈ fetch.rawEvents, raw.id ≤ token
  shown : fetch.Begun → fetch.latestLedger ≤ head
  found : fetch.Begun → fetch.fromLedger ≤ event.ledger →
    event.ledger + depth ≤ fetch.latestLedger →
    event ∈ fetch.rawEvents ∨ (∃ token, fetch.next = some (.cursor token) ∧ token < event.id) ∨
      (fetch.next = none ∧ fetch.throughLedger options < event.ledger)

theorem Gathers.start (head fromLedger : ℤ) :
    Gathers options event depth place head (Fetch.start fromLedger) where
  placed := by
    rintro raw ⟨⟩
  distinct := List.nodup_nil
  first := by
    rintro ledger ⟨⟩
    rfl
  upTo := by
    rintro token ⟨⟩
  shown := fun hbegun => absurd rfl (hbegun fromLedger)
  found := fun hbegun => absurd rfl (hbegun fromLedger)

/-- The event is held when its ledger is known and `depth` below the highest one shown. -/
def Held (s : SorobanEventIndexer place) : Prop :=
  event.ledger + depth ≤ s.head → event.ledger ≤ s.source.latestLedger →
    event ∈ s.source.events

/-- The last page of a fetch comes from a source that knows the ledger of the event, if that is in
the range. -/
def ReachesEvent (fetch : Fetch) (latestLedger : ℤ) : Prop :=
  fetch.next = none → fetch.fromLedger ≤ event.ledger →
    event.ledger ≤ fetch.throughLedger options → event.ledger ≤ latestLedger

end

section

variable {options : IndexerOptions} {place : String →o ℤ} {event : RawContractEvent} {depth : ℤ}
  {head head' : ℤ} {fetch : Fetch}

theorem Gathers.mono (h : Gathers options event depth place head fetch) (hle : head ≤ head') :
    Gathers options event depth place head' fetch :=
  { h with shown := fun hbegun => (h.shown hbegun).trans hle }

theorem answered_begun (source : Source place) (request : GetEventsRequest) :
    (fetch.answered options source request).Begun := by
  intro ledger
  show (if _ then _ else none) ≠ _
  split
  · rw [Ne, Option.map_eq_some_iff]
    rintro ⟨last, -, heq⟩
    cases heq
  · rintro ⟨⟩

/-- The facts about one page that the invariant needs -/
theorem mem_getEvents {source : Source place} {request : GetEventsRequest} {limit : ℕ}
    {raw : RawContractEvent} (h : raw ∈ source.getEvents request limit) :
    raw ∈ source.events ∧ request.wants raw = true :=
  List.mem_filter.mp (List.mem_of_mem_take h)

theorem getEvents_sorted (source : Source place) (request : GetEventsRequest) (limit : ℕ) :
    (source.getEvents request limit).Pairwise fun a b => a.id < b.id :=
  (source.sorted.sublist List.filter_sublist).sublist (List.take_sublist _ _)

/-- A further page keeps the ids apart. -/
theorem Gathers.distinct_append (h : Gathers options event depth place head fetch)
    {request : GetEventsRequest} (hnext : fetch.next = some request) (source : Source place)
    (limit : ℕ) :
    ((fetch.rawEvents ++ source.getEvents request limit).map RawContractEvent.id).Nodup := by
  have hpage : ((source.getEvents request limit).map RawContractEvent.id).Nodup := by
    refine List.Pairwise.map _ ?_ (getEvents_sorted source request limit)
    exact fun a b hlt => hlt.ne
  rw [List.map_append]
  refine List.nodup_append'.mpr ⟨h.distinct, hpage, ?_⟩
  cases request with
  | startLedger ledger =>
      rw [h.first ledger hnext]
      exact List.disjoint_nil_left _
  | cursor token =>
      intro id hid hid'
      obtain ⟨old, hold, rfl⟩ := List.mem_map.mp hid
      obtain ⟨new, hnew, heq⟩ := List.mem_map.mp hid'
      obtain ⟨hsource, hwants⟩ := mem_getEvents hnew
      have hafter : token < new.id := by
        rw [← source.token new hsource]
        simpa [GetEventsRequest.wants] using hwants
      have hbefore := (h.upTo token hnext).2 old hold
      rw [heq] at hafter
      exact absurd hafter (not_lt.mpr hbefore)

/-- Every id on a page is at most that of its last event. -/
theorem id_le_last {source : Source place} {request : GetEventsRequest} {limit : ℕ}
    {raw last : RawContractEvent} (hmem : raw ∈ source.getEvents request limit)
    (hlast : (source.getEvents request limit).getLast? = some last) : raw.id ≤ last.id := by
  obtain ⟨init, hinit⟩ := List.getLast?_eq_some_iff.mp hlast
  have hsorted := getEvents_sorted source request limit
  rw [hinit] at hmem hsorted
  rcases List.mem_append.mp hmem with hmem | hmem
  · exact ((List.pairwise_append.mp hsorted).2.2 raw hmem last List.mem_cons_self).le
  · rw [List.mem_singleton.mp hmem]

/-- A fetch that goes on after a page does so after the last event of it. -/
theorem answered_next {source : Source place} {request : GetEventsRequest} {token : String}
    (h : (fetch.answered options source request).next = some (.cursor token)) :
    ∃ last, (source.getEvents request options.pageSize).getLast? = some last ∧
      last.id = token := by
  have hnext : (if (source.getEvents request options.pageSize).length = options.pageSize then
      (source.getEvents request options.pageSize).getLast?.map
        fun last => GetEventsRequest.cursor last.pagingToken
      else none) = some (.cursor token) := h
  split at hnext
  · obtain ⟨last, hlast, heq⟩ := Option.map_eq_some_iff.mp hnext
    refine ⟨last, hlast, ?_⟩
    have hmem := (mem_getEvents (List.mem_of_getLast? hlast)).1
    rw [← source.token last hmem]
    exact GetEventsRequest.cursor.inj heq
  · cases hnext

/-- An event that a request asks for is on the page, or the fetch goes on below it. -/
theorem page_or_cursor (hpos : 0 < options.pageSize) {source : Source place}
    {request : GetEventsRequest} (hmem : event ∈ source.events)
    (hwants : request.wants event = true) :
    event ∈ source.getEvents request options.pageSize ∨
      ∃ token, (fetch.answered options source request).next = some (.cursor token) ∧
        token < event.id := by
  have hsorted := source.sorted.sublist (List.filter_sublist (p := request.wants))
  rcases mem_page_or_after hsorted (List.mem_filter.mpr ⟨hmem, hwants⟩) hpos with hpage | hafter
  · exact Or.inl hpage
  · obtain ⟨hfull, last, hlast, hlt⟩ := hafter
    refine Or.inr ⟨last.id, ?_, hlt⟩
    show (if (source.getEvents request options.pageSize).length = options.pageSize then
      (source.getEvents request options.pageSize).getLast?.map
        fun last => GetEventsRequest.cursor last.pagingToken
      else none) = some (.cursor last.id)
    have hlast' : (source.getEvents request options.pageSize).getLast? = some last := hlast
    have hsource := (mem_getEvents (List.mem_of_getLast? hlast')).1
    rw [if_pos (show (source.getEvents request options.pageSize).length = _ from hfull), hlast',
      Option.map_some, source.token last hsource]

theorem answered_latest_start (source : Source place) (ledger : ℤ) :
    ((Fetch.start ledger).answered options source (.startLedger ledger)).latestLedger =
      source.latestLedger :=
  if_pos (by simp [Fetch.start])

theorem answered_latest_of_le (h : fetch.fromLedger ≤ fetch.latestLedger) (source : Source place)
    (request : GetEventsRequest) :
    (fetch.answered options source request).latestLedger = fetch.latestLedger :=
  if_neg (not_lt.mpr h)

/-- **One page**: what is said of a fetch holds on. -/
theorem Gathers.page (hpos : 0 < options.pageSize) (hdepth : 0 ≤ depth)
    (h : Gathers options event depth place head fetch) {request : GetEventsRequest}
    (hnext : fetch.next = some request) {source : Source place}
    (hhead : source.latestLedger ≤ head)
    (hheld : event.ledger + depth ≤ head → event.ledger ≤ source.latestLedger →
      event ∈ source.events)
    (hplace : place event.id = event.ledger)
    (hreach : ReachesEvent options event (fetch.answered options source request)
      source.latestLedger) :
    Gathers options event depth place head (fetch.answered options source request) := by
  have hbegun : (fetch.answered options source request).Begun := answered_begun source request
  refine ⟨?_, h.distinct_append hnext source _, fun ledger hfirst => absurd hfirst (hbegun ledger),
    ?_, ?_, ?_⟩
  · intro raw hraw
    rcases List.mem_append.mp hraw with hraw | hraw
    · exact h.placed raw hraw
    · exact source.placed raw (mem_getEvents hraw).1
  · intro token htoken
    obtain ⟨last, hlast, rfl⟩ := answered_next htoken
    have hlastmem := List.mem_of_getLast? hlast
    obtain ⟨hsource, hwants⟩ := mem_getEvents hlastmem
    cases request with
    | startLedger ledger =>
        have hstart := h.first ledger hnext
        subst hstart
        refine ⟨?_, ?_⟩
        · rw [answered_latest_start]
          have hfrom : ledger ≤ last.ledger := by simpa [GetEventsRequest.wants] using hwants
          exact hfrom.trans (source.known last hsource)
        · intro raw hraw
          rcases List.mem_append.mp hraw with hraw | hraw
          · cases hraw
          · exact id_le_last hraw hlast
    | cursor before =>
        obtain ⟨hfrom, hold⟩ := h.upTo before hnext
        refine ⟨?_, ?_⟩
        · rw [answered_latest_of_le hfrom]
          exact hfrom
        · intro raw hraw
          rcases List.mem_append.mp hraw with hraw | hraw
          · have hafter : before < last.id := by
              rw [← source.token last hsource]
              simpa [GetEventsRequest.wants] using hwants
            exact (hold raw hraw).trans hafter.le
          · exact id_le_last hraw hlast
  · intro _
    cases request with
    | startLedger ledger =>
        have hstart := h.first ledger hnext
        subst hstart
        rw [answered_latest_start]
        exact hhead
    | cursor before =>
        rw [answered_latest_of_le (h.upTo before hnext).1]
        refine h.shown fun ledger hledger => ?_
        rw [hnext] at hledger
        cases hledger
  · intro _ hfrom hlatest
    have hsplit : ∀ (hmem : event ∈ source.events) (hwants : request.wants event = true),
        event ∈ (fetch.answered options source request).rawEvents ∨
          ∃ token, (fetch.answered options source request).next = some (.cursor token) ∧
            token < event.id :=
      fun hmem hwants => (page_or_cursor hpos hmem hwants).imp_left (List.mem_append_right _)
    cases request with
    | startLedger ledger =>
        have hstart := h.first ledger hnext
        subst hstart
        rw [answered_latest_start] at hlatest
        have hmem := hheld (hlatest.trans hhead) (by omega)
        have hwants : (GetEventsRequest.startLedger ledger).wants event = true :=
          decide_eq_true hfrom
        exact (hsplit hmem hwants).imp_right Or.inl
    | cursor before =>
        have hbefore := h.upTo before hnext
        rw [answered_latest_of_le hbefore.1] at hlatest
        have hunfinished : fetch.Begun := by
          intro ledger hledger
          rw [hnext] at hledger
          cases hledger
        rcases h.found hunfinished hfrom hlatest with hfound | ⟨token, htoken, hlt⟩ | ⟨hnone, -⟩
        · exact Or.inl (List.mem_append_left _ hfound)
        · rw [hnext] at htoken
          cases htoken
          by_cases hknown : event.ledger ≤ source.latestLedger
          · have hmem := hheld (hlatest.trans (h.shown hunfinished)) hknown
            have hwants : (GetEventsRequest.cursor before).wants event = true := by
              rw [GetEventsRequest.wants, source.token event hmem]
              exact decide_eq_true hlt
            exact (hsplit hmem hwants).imp_right Or.inl
          · -- the source is behind the event, and so is the whole page
            cases hdone : (fetch.answered options source (.cursor before)).next with
            | none =>
                refine Or.inr (Or.inr ⟨rfl, ?_⟩)
                by_contra hcovered
                exact hknown (hreach hdone hfrom (not_lt.mp hcovered))
            | some request =>
                refine Or.inr (Or.inl ?_)
                cases request with
                | startLedger ledger => exact absurd hdone (hbegun ledger)
                | cursor token =>
                    obtain ⟨last, hlast, rfl⟩ := answered_next hdone
                    obtain ⟨hsource, -⟩ := mem_getEvents (List.mem_of_getLast? hlast)
                    have hlastlt : last.ledger < event.ledger := by
                      have := source.known last hsource
                      omega
                    exact ⟨last.id, rfl, source.ordered hsource hlastlt hplace⟩
        · rw [hnext] at hnone
          cases hnone

end

/-! ## Commits -/

section

variable {asString : Native → String} {localeCompare : String → String → Ordering}
  {options : IndexerOptions} {place : String →o ℤ} {event : RawContractEvent} {depth : ℤ}
  {decodedEvent : DecodedEvent}

theorem decode_metadata {raw : RawContractEvent} {d : DecodedEvent}
    (h : decode asString options raw = .ok d) : d.eventId = raw.id ∧ d.ledger = raw.ledger := by
  unfold decode at h
  split at h
  · obtain ⟨hid, hledger, -⟩ := decodeEvent_metadata asString h
    exact ⟨hid, hledger⟩
  · cases h

/-- What is committed comes from the raw events. -/
theorem mem_decoded {fetch : Fetch} {d : DecodedEvent} :
    d ∈ fetch.decoded asString options ↔
      ∃ raw ∈ fetch.rawEvents, raw.ledger ≤ fetch.throughLedger options ∧
        decode asString options raw = .ok d := by
  unfold Fetch.decoded
  rw [List.mem_filterMap]
  constructor
  · rintro ⟨raw, hraw, hd⟩
    obtain ⟨hraw, hledger⟩ := List.mem_filter.mp hraw
    exact ⟨raw, hraw, by simpa using hledger, toOption_eq_some.mp hd⟩
  · rintro ⟨raw, hraw, hledger, hdecode⟩
    exact ⟨raw, List.mem_filter.mpr ⟨hraw, by simpa using hledger⟩, toOption_eq_some.mpr hdecode⟩

theorem decoded_ids {fetch : Fetch} (h : (fetch.rawEvents.map RawContractEvent.id).Nodup) :
    ((fetch.decoded asString options).map (·.eventId)).Nodup := by
  have hkey : ∀ raw d, (decode asString options raw).toOption = some d → d.eventId = raw.id :=
    fun raw d hd => (decode_metadata (toOption_eq_some.mp hd)).1
  refine List.Nodup.sublist ?_ h
  exact (map_filterMap_sublist hkey _).trans (List.filter_sublist.map _)

/-! ## The indexer -/

/-- What holds behind the checkpoint and in every fetch, with regard to an event and to what it is
decoded to -/
structure Complete (options : IndexerOptions) (event : RawContractEvent) (depth : ℤ)
    (decodedEvent : DecodedEvent) (s : SorobanEventIndexer place) : Prop where
  shown : s.source.latestLedger ≤ s.head
  placed : ∀ row ∈ s.store.events, place row.eventId = row.ledger
  behind : ∀ c, s.store.checkpoint "stellaragent" = some c → options.startLedger ≤ event.ledger →
    event.ledger < c - depth → stored decodedEvent ∈ s.store.events
  fetching : ∀ call fetch, s.fetches call = some fetch →
    Gathers options event depth place s.head fetch

/-- A commit jumps over no event that is not stored, and the last page of a fetch comes from a
source that knows the ledger of the event. -/
def Careful (options : IndexerOptions) (event : RawContractEvent) (decodedEvent : DecodedEvent)
    (x : Transition (SorobanEventIndexer place) (PollAction place)) : Prop :=
  match x.act with
  | .page call => ∀ fetch request, x.pre.fetches call = some fetch → fetch.next = some request →
      ReachesEvent options event (fetch.answered options x.pre.source request)
        x.pre.source.latestLedger
  | .commit call => ∀ fetch, x.pre.fetches call = some fetch → options.startLedger ≤ event.ledger →
      event.ledger < fetch.fromLedger → fetch.fromLedger ≤ fetch.throughLedger options →
      stored decodedEvent ∈ x.pre.store.events
  | _ => True

section

variable {s s' : SorobanEventIndexer place}

/-- A fetch is put in place or is over: the others are what they were. -/
theorem Complete.fetching_update (h : Complete options event depth decodedEvent s) {call : ℕ}
    {next : Option Fetch}
    (hnext : ∀ fetch, next = some fetch → Gathers options event depth place s.head fetch) :
    ∀ other fetch, Function.update s.fetches call next other = some fetch →
      Gathers options event depth place s.head fetch := by
  intro other fetch hfetch
  by_cases hother : other = call
  · subst hother
    rw [Function.update_self] at hfetch
    exact hnext fetch hfetch
  · rw [Function.update_of_ne hother] at hfetch
    exact h.fetching other fetch hfetch

/-- **A commit** of a range that jumps over nothing leaves nothing out. -/
theorem Complete.replaceRange (hlag : 0 ≤ options.finalityLag) (hdepth : 0 ≤ depth)
    (hdecode : decode asString options event = .ok decodedEvent)
    (h : Complete options event depth decodedEvent s) {fetch : Fetch}
    (hfetch : Gathers options event depth place s.head fetch) (hdone : fetch.next = none)
    (hjump : options.startLedger ≤ event.ledger → event.ledger < fetch.fromLedger →
      fetch.fromLedger ≤ fetch.throughLedger options → stored decodedEvent ∈ s.store.events)
    {store : EventStore}
    (hstore : fetch.replaceRange asString localeCompare options s.store = .ok store) :
    (∀ row ∈ store.events, place row.eventId = row.ledger) ∧
      ∀ c, store.checkpoint "stellaragent" = some c → options.startLedger ≤ event.ledger →
        event.ledger < c - depth → stored decodedEvent ∈ store.events := by
  obtain ⟨hid, hledger⟩ := decode_metadata hdecode
  by_cases hrange : fetch.fromLedger ≤ fetch.throughLedger options
  · have htables := EventStore.replaceRange_tables hrange hstore
    have hplaced : ∀ d ∈ fetch.decoded asString options, place d.eventId = d.ledger := by
      intro d hd
      obtain ⟨raw, hraw, -, hd⟩ := mem_decoded.mp hd
      obtain ⟨hid, hledger⟩ := decode_metadata hd
      rw [hid, hledger]
      exact hfetch.placed raw hraw
    refine ⟨?_, ?_⟩
    · intro row hrow
      rw [htables.events] at hrow
      rcases EventStore.of_mem_replaced hrow with hrow | ⟨d, hd, rfl⟩
      · exact h.placed row hrow
      · exact hplaced d hd
    · intro c hc hstart hbehind
      have hcheckpoint : c = fetch.throughLedger options + 1 := by
        rw [EventStore.checkpoint, htables.checkpoints] at hc
        have hnew := EventStore.replaced_checkpoint.symm.trans hc
        exact (Option.some.inj hnew).symm
      rw [htables.events]
      by_cases hfrom : event.ledger < fetch.fromLedger
      · have hmem := hjump hstart hfrom hrange
        refine EventStore.mem_replaced_of_outside hmem ?_ ?_
        · rintro ⟨hin, -⟩
          rw [stored_ledger, hledger] at hin
          exact absurd hin (not_le.mpr hfrom)
        · intro d hd hin _ heq
          have hsame := hplaced d hd
          have hhere := h.placed _ hmem
          rw [heq, stored_ledger, hledger, hsame] at hhere
          omega
      · -- the range covers the event, and the fetch is not below it any more
        have hthrough : fetch.throughLedger options =
            fetch.latestLedger - options.finalityLag := by
          unfold Fetch.throughLedger at hrange ⊢
          omega
        have hbegun : fetch.Begun := by
          intro ledger hnext
          rw [hdone] at hnext
          cases hnext
        rcases hfetch.found hbegun (not_lt.mp hfrom) (by omega) with
          hfound | ⟨token, htoken, -⟩ | ⟨-, hbeyond⟩
        · refine EventStore.mem_replaced (mem_decoded.mpr ⟨event, hfound, by omega, hdecode⟩) ?_
            (decoded_ids hfetch.distinct)
          rw [hledger]
          exact ⟨not_lt.mp hfrom, by omega⟩
        · rw [hdone] at htoken
          cases htoken
        · omega
  · have hsame : fetch.replaceRange asString localeCompare options s.store = .ok s.store :=
      EventStore.replaceRange_of_lt (not_le.mp hrange)
    have heq : s.store = store := Except.ok.inj (hsame.symm.trans hstore)
    rw [← heq]
    exact ⟨h.placed, h.behind⟩

theorem Complete.ended (h : Complete options event depth decodedEvent s) (call : ℕ) :
    Complete options event depth decodedEvent (s.ended call) :=
  { h with fetching := h.fetching_update (by rintro fetch ⟨⟩) }

/-- What a step does -/
inductive Stepped (asString : Native → String) (localeCompare : String → String → Ordering)
    (options : IndexerOptions) (s : SorobanEventIndexer place) :
    PollAction place → SorobanEventIndexer place → Prop
  | moved (source : Source place) : Stepped asString localeCompare options s (.moved source)
      { s with
        source := source
        head := max s.head source.latestLedger }
  | started (call : ℕ) (fromLedgerOverride : Option ℤ) (fromLedger : ℤ) :
      Stepped asString localeCompare options s (.run call fromLedgerOverride)
        { s with fetches := Function.update s.fetches call (some (Fetch.start fromLedger)) }
  | answered (call : ℕ) (fetch : Fetch) (request : GetEventsRequest)
      (hfetch : s.fetches call = some fetch) (hnext : fetch.next = some request) :
      Stepped asString localeCompare options s (.page call)
        { s with
          fetches := Function.update s.fetches call
            (some (fetch.answered options s.source request)) }
  | rejected (call : ℕ) : Stepped asString localeCompare options s (.rejected call) (s.ended call)
  | failed (call : ℕ) : Stepped asString localeCompare options s (.commit call) (s.ended call)
  | committed (call : ℕ) (fetch : Fetch) (store : EventStore)
      (hfetch : s.fetches call = some fetch) (hdone : fetch.next = none)
      (hstore : fetch.replaceRange asString localeCompare options s.store = .ok store) :
      Stepped asString localeCompare options s (.commit call) { s.ended call with store := store }
  | restarted : Stepped asString localeCompare options s .restart
      { s with fetches := fun _ => none }

theorem after_stepped {act : PollAction place}
    (h : s.after asString localeCompare options act = some s') :
    Stepped asString localeCompare options s act s' := by
  cases act with
  | moved source =>
      rw [← Option.some.inj h]
      exact .moved source
  | run call fromLedgerOverride =>
      simp only [SorobanEventIndexer.after] at h
      split at h
      · cases h
      · rw [← Option.some.inj h]
        exact .started call fromLedgerOverride _
  | page call =>
      simp only [SorobanEventIndexer.after] at h
      cases hfetch : s.fetches call with
      | none =>
          rw [hfetch] at h
          cases h
      | some fetch =>
          rw [hfetch] at h
          obtain ⟨request, hnext, heq⟩ := Option.map_eq_some_iff.mp h
          rw [← heq]
          exact .answered call fetch request hfetch hnext
  | rejected call =>
      simp only [SorobanEventIndexer.after] at h
      split at h
      · cases h
      · rw [← Option.some.inj h]
        exact .rejected call
  | commit call =>
      simp only [SorobanEventIndexer.after] at h
      split at h
      · rename_i fromLedger latestLedger rawEvents hfetch
        split at h
        · rename_i store hstore
          rw [← Option.some.inj h]
          exact .committed call _ store hfetch rfl hstore
        · rw [← Option.some.inj h]
          exact .failed call
      · cases h
  | restart =>
      rw [← Option.some.inj h]
      exact .restarted

/-- **One step** of the indexer or of its source -/
theorem Complete.step (hpos : 0 < options.pageSize) (hlag : 0 ≤ options.finalityLag)
    (hdepth : 0 ≤ depth) (hdecode : decode asString options event = .ok decodedEvent)
    (hplace : place event.id = event.ledger) {act : PollAction place}
    (h : Complete options event depth decodedEvent s)
    (hstep : s.after asString localeCompare options act = some s')
    (hheld : Held event depth s) (hcare : Careful options event decodedEvent ⟨s, act, s'⟩) :
    Complete options event depth decodedEvent s' := by
  cases after_stepped hstep with
  | moved source =>
      refine ⟨le_max_right _ _, h.placed, h.behind, fun call fetch hfetch => ?_⟩
      exact (h.fetching call fetch hfetch).mono (le_max_left _ _)
  | started call fromLedgerOverride fromLedger =>
      refine { h with fetching := h.fetching_update ?_ }
      rintro fetch ⟨⟩
      exact Gathers.start options event depth _ _
  | answered call fetch request hfetch hnext =>
      refine { h with fetching := h.fetching_update ?_ }
      rintro next ⟨⟩
      exact (h.fetching call fetch hfetch).page hpos hdepth hnext h.shown hheld hplace
        (hcare fetch request hfetch hnext)
  | rejected call => exact h.ended call
  | failed call => exact h.ended call
  | committed call fetch store hfetch hdone hstore =>
      obtain ⟨hplaced, hbehind⟩ := h.replaceRange hlag hdepth hdecode
        (h.fetching call fetch hfetch) hdone (hcare fetch hfetch) hstore
      exact { h.ended call with
        placed := hplaced
        behind := hbehind }
  | restarted => exact { h with fetching := by rintro call fetch ⟨⟩ }

end

/-! ## Runs -/

/-- The steps of an indexer and its source -/
def Polls (asString : Native → String) (localeCompare : String → String → Ordering)
    (options : IndexerOptions) (s : SorobanEventIndexer place) (act : PollAction place)
    (t : SorobanEventIndexer place) : Prop :=
  s.after asString localeCompare options act = some t

/-- Nothing is stored and nothing is fetched yet. -/
structure SorobanEventIndexer.IsNew (s : SorobanEventIndexer place) : Prop where
  store : s.store = .empty
  fetches : s.fetches = fun _ => none
  head : s.source.latestLedger ≤ s.head

theorem Complete.new {s : SorobanEventIndexer place} (h : s.IsNew) :
    Complete options event depth decodedEvent s where
  shown := h.head
  placed := by
    rw [h.store]
    rintro row ⟨⟩
  behind := by
    rw [h.store]
    rintro c ⟨⟩
  fetching := by
    rw [h.fetches]
    rintro call fetch ⟨⟩

/-- A call without an override that commits at the checkpoint it started from jumps over nothing
that the rollback window does not cover again. -/
theorem poll_covers {s : SorobanEventIndexer place} (hdepth : depth ≤ options.rollbackWindow)
    (h : Complete options event depth decodedEvent s) {c : ℤ}
    (hcheckpoint : s.store.checkpoint "stellaragent" = some c)
    (hstart : options.startLedger ≤ event.ledger)
    (hbefore : event.ledger < fromLedgerOf options (some c) none) :
    stored decodedEvent ∈ s.store.events := by
  refine h.behind c hcheckpoint hstart ?_
  unfold fromLedgerOf at hbefore
  simp only [Option.getD_some] at hbefore
  omega

/-- What holds of the first source and of each later one holds of the source throughout. -/
theorem sources_of_moved {P : Source place → Prop} {s t : SorobanEventIndexer place}
    {tr : List (Transition (SorobanEventIndexer place) (PollAction place))}
    (h : Run (Polls asString localeCompare options) s tr t) (hstart : P s.source)
    (hmoved : ∀ x ∈ tr, ∀ source, x.act = .moved source → P source) :
    P t.source ∧ ∀ x ∈ tr, P x.pre.source := by
  refine h.safety (I := fun m => P m.source) hmoved hstart ?_
  intro m act m' hm hstep hact
  refine ⟨?_, hm⟩
  cases after_stepped hstep with
  | moved source => exact hact source rfl
  | started | answered | rejected | failed | committed | restarted => exact hm

end

/-! ## Samples -/

def samplePlace : String →o ℤ where
  toFun id := if "2" ≤ id then 50 else 10
  monotone' := by
    intro a b hab
    dsimp only
    by_cases ha : "2" ≤ a
    · rw [if_pos ha, if_pos (ha.trans hab)]
    · rw [if_neg ha]
      split <;> norm_num

/-- The rate limiter kills an agent in ledger 50. -/
def sampleEvent : RawContractEvent where
  id := "2"
  ledger := 50
  ledgerClosedAt := "2026-01-01T00:00:00Z"
  contractId := some "CRATELIMITER"
  txHash := "ab"
  pagingToken := "2"
  topic := [⟨.string "rl", ""⟩, ⟨.string "killed", ""⟩]
  value := ⟨.string "GAGENT", ""⟩

def sampleDecoded : DecodedEvent where
  eventId := "2"
  contractKind := .rateLimiter
  contractAddress := "CRATELIMITER"
  ledger := 50
  ledgerClosedAt := "2026-01-01T00:00:00Z"
  txHash := "ab"
  pagingToken := "2"
  rawTopicXdr := ["", ""]
  rawValueXdr := ""
  body := .killed "GAGENT"

/-- A source before the event -/
def earlySource : Source samplePlace where
  latestLedger := 20
  events := []
  sorted := List.Pairwise.nil
  token := by rintro event ⟨⟩
  placed := by rintro event ⟨⟩
  known := by rintro event ⟨⟩

/-- A source after the event -/
def lateSource : Source samplePlace where
  latestLedger := 200
  events := [sampleEvent]
  sorted := List.pairwise_singleton _ _
  token := by
    intro event hevent
    rw [List.mem_singleton.mp hevent]
    rfl
  placed := by
    intro event hevent
    rw [List.mem_singleton.mp hevent]
    show (if "2" ≤ "2" then (50 : ℤ) else 10) = 50
    exact if_pos (le_refl "2")
  known := by
    intro event hevent
    rw [List.mem_singleton.mp hevent]
    show (50 : ℤ) ≤ 200
    norm_num

def pollOptions : IndexerOptions where
  contracts := [(.rateLimiter, "CRATELIMITER")]
  startLedger := 1
  rollbackWindow := 12
  finalityLag := 1
  pageSize := 100

def newIndexer (source : Source samplePlace) : SorobanEventIndexer samplePlace where
  source := source
  head := source.latestLedger
  store := .empty
  fetches := fun _ => none

theorem newIndexer_isNew (source : Source samplePlace) : (newIndexer source).IsNew :=
  ⟨rfl, rfl, le_rfl⟩

theorem decode_sampleEvent :
    decode (fun _ => "") pollOptions sampleEvent = .ok sampleDecoded := by
  rfl

/-- The steps of a call that has one page -/
def onePage (call : ℕ) (fromLedgerOverride : Option ℤ) : List (PollAction samplePlace) :=
  [.run call fromLedgerOverride, .page call, .commit call]

/-- What can be checked of a step to see that it is careful -/
theorem careful_of_reached {place : String →o ℤ} {options : IndexerOptions}
    {event : RawContractEvent} {d : DecodedEvent}
    {x : Transition (SorobanEventIndexer place) (PollAction place)}
    (hpage : ∀ call, x.act = .page call → event.ledger ≤ x.pre.source.latestLedger)
    (hcommit : ∀ call fetch, x.act = .commit call → x.pre.fetches call = some fetch →
      fetch.fromLedger ≤ event.ledger) : Careful options event d x := by
  unfold Careful
  split
  · rename_i call hact
    intro fetch request _ _ _ _ _
    exact hpage call hact
  · rename_i call hact
    intro fetch hfetch _ hbefore _
    exact absurd (hcommit call fetch hact hfetch) (not_le.mpr hbefore)
  · trivial

end StellarAgent.Indexer
