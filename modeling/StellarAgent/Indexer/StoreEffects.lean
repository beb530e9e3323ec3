import StellarAgent.Indexer.Store

set_option autoImplicit false

/-! # What the transactions of the event store do

A transaction that does not throw leaves the tables it has built, with the ledger that is normalized
from them.
-/

namespace StellarAgent.Indexer.EventStore

open Lib

section

variable {localeCompare : String → String → Ordering} {store store' : EventStore}
  {fromLedger throughLedger : ℤ} {events : List DecodedEvent} {stream : String}

/-- The tables that the ledger is rebuilt from -/
structure SameTables (store store' : EventStore) : Prop where
  events : store'.events = store.events
  participants : store'.participants = store.participants
  checkpoints : store'.checkpoints = store.checkpoints
  fees : store'.fees = store.fees

theorem rebuildLedger_tables (h : store.rebuildLedger localeCompare = .ok store') :
    SameTables store store' := by
  unfold rebuildLedger at h
  split at h
  · rw [← Except.ok.inj h]
    exact ⟨rfl, rfl, rfl, rfl⟩
  · cases h

theorem replaceRange_tables (hrange : fromLedger ≤ throughLedger)
    (h : store.replaceRange localeCompare fromLedger throughLedger events stream = .ok store') :
    SameTables (store.replaced fromLedger throughLedger events stream) store' := by
  unfold replaceRange at h
  rw [if_neg (not_lt.mpr hrange)] at h
  exact rebuildLedger_tables h

theorem replaceRange_of_lt (hrange : throughLedger < fromLedger) :
    store.replaceRange localeCompare fromLedger throughLedger events stream = .ok store := by
  unfold replaceRange
  rw [if_pos hrange]

/-! ## A replaced range -/

theorem inRange_iff {ledger : ℤ} :
    inRange fromLedger throughLedger ledger = true ↔
      fromLedger ≤ ledger ∧ ledger ≤ throughLedger := by
  simp [inRange]

/-- An event of the range is stored, if no later one has its id. -/
theorem mem_replaced {event : DecodedEvent} (hmem : event ∈ events)
    (hrange : fromLedger ≤ event.ledger ∧ event.ledger ≤ throughLedger)
    (hnodup : (events.map (·.eventId)).Nodup) :
    stored event ∈ (store.replaced fromLedger throughLedger events stream).events := by
  refine mem_upsertAll ?_ ?_
  · refine List.mem_map_of_mem (List.mem_filter.mpr ⟨hmem, inRange_iff.mpr hrange⟩)
  · have hids : (events.filter fun event => inRange fromLedger throughLedger event.ledger).map
        (StoredEvent.eventId ∘ stored) = (events.filter fun event =>
          inRange fromLedger throughLedger event.ledger).map (·.eventId) := rfl
    rw [List.map_map, hids]
    exact hnodup.sublist (List.filter_sublist.map _)

/-- A row outside of the range stays, if no event of the range has its id. -/
theorem mem_replaced_of_outside {row : StoredEvent} (hmem : row ∈ store.events)
    (hrange : ¬ (fromLedger ≤ row.ledger ∧ row.ledger ≤ throughLedger))
    (hne : ∀ event ∈ events, fromLedger ≤ event.ledger → event.ledger ≤ throughLedger →
      row.eventId ≠ event.eventId) :
    row ∈ (store.replaced fromLedger throughLedger events stream).events := by
  refine mem_upsertAll_of_ne (List.mem_filter.mpr ⟨hmem, ?_⟩) ?_
  · rw [Bool.not_eq_true', ← Bool.not_eq_true, inRange_iff]
    exact hrange
  · intro new hnew
    obtain ⟨event, hevent, rfl⟩ := List.mem_map.mp hnew
    obtain ⟨hevent, hin⟩ := List.mem_filter.mp hevent
    obtain ⟨hfrom, hthrough⟩ := inRange_iff.mp hin
    exact hne event hevent hfrom hthrough

theorem of_mem_replaced {row : StoredEvent}
    (h : row ∈ (store.replaced fromLedger throughLedger events stream).events) :
    row ∈ store.events ∨ ∃ event ∈ events, row = stored event := by
  rcases mem_of_mem_upsertAll h with h | h
  · exact Or.inl (List.mem_of_mem_filter h)
  · obtain ⟨event, hevent, rfl⟩ := List.mem_map.mp h
    exact Or.inr ⟨event, List.mem_of_mem_filter hevent, rfl⟩

@[simp] theorem replaced_checkpoint :
    (store.replaced fromLedger throughLedger events stream).checkpoint stream =
      some (throughLedger + 1) := by
  simp [replaced, checkpoint]

end

end StellarAgent.Indexer.EventStore
