import Mathlib.Data.List.Basic
import Mathlib.Tactic

set_option autoImplicit false

/-! # Tables with a primary key

A table is the list of its rows in the order in which they were inserted. `upsert` is
`INSERT … ON CONFLICT DO UPDATE`, and `Map.set` of a map that keeps the order of insertion: the row
with the same key is replaced where it stands, otherwise the new one comes last. The keys of the
rows stay distinct (`nodup_upsert`), and what a table holds under a key is what was put there last
(`lookup_upsert`).
-/

namespace StellarAgent.Lib

section

variable {A K : Type*} [DecidableEq K] (key : A → K)

def upsert (row : A) : List A → List A
  | [] => [row]
  | other :: rows => if key other = key row then row :: rows else other :: upsert row rows

/-- The row under a key -/
def lookup (rows : List A) (k : K) : Option A := rows.find? fun row => key row = k

/-- One row after the other -/
def upsertAll (rows new : List A) : List A := new.foldl (fun rows row => upsert key row rows) rows

variable {key} {row other : A} {rows new : List A}

/-! ## Rows -/

theorem mem_upsert_self : row ∈ upsert key row rows := by
  induction rows with
  | nil => exact List.mem_singleton_self row
  | cons other rows ih =>
      rw [upsert]
      split
      · exact List.mem_cons_self
      · exact List.mem_cons_of_mem _ ih

theorem mem_of_mem_upsert (h : other ∈ upsert key row rows) : other = row ∨ other ∈ rows := by
  induction rows with
  | nil => exact Or.inl (List.mem_singleton.mp h)
  | cons first rows ih =>
      rw [upsert] at h
      split at h
      · exact (List.mem_cons.mp h).imp_right (List.mem_cons_of_mem _)
      · rcases List.mem_cons.mp h with rfl | h
        · exact Or.inr List.mem_cons_self
        · exact (ih h).imp_right (List.mem_cons_of_mem _)

/-- The rows with other keys stay. -/
theorem mem_upsert_of_ne (h : other ∈ rows) (hne : key other ≠ key row) :
    other ∈ upsert key row rows := by
  induction rows with
  | nil => cases h
  | cons first rows ih =>
      rw [upsert]
      rcases List.mem_cons.mp h with rfl | h
      · rw [if_neg hne]
        exact List.mem_cons_self
      · split
        · exact List.mem_cons_of_mem _ h
        · exact List.mem_cons_of_mem _ (ih h)

theorem upsert_of_new (h : ∀ other ∈ rows, key other ≠ key row) :
    upsert key row rows = rows ++ [row] := by
  induction rows with
  | nil => rfl
  | cons first rows ih =>
      rw [upsert, if_neg (h first List.mem_cons_self),
        ih fun other hother => h other (List.mem_cons_of_mem _ hother)]
      rfl

theorem mem_keys_upsert {k : K} :
    k ∈ (upsert key row rows).map key ↔ k = key row ∨ k ∈ rows.map key := by
  induction rows with
  | nil => simp [upsert]
  | cons first rows ih =>
      rw [upsert]
      split
      · rename_i hkey
        simp [hkey]
      · simp only [List.map_cons, List.mem_cons, ih]
        tauto

/-- The keys of a table stay distinct. -/
theorem nodup_upsert (h : (rows.map key).Nodup) : ((upsert key row rows).map key).Nodup := by
  induction rows with
  | nil => simp [upsert]
  | cons first rows ih =>
      obtain ⟨hfirst, hrows⟩ := List.nodup_cons.mp h
      rw [upsert]
      split
      · rename_i hkey
        rw [List.map_cons, ← hkey]
        exact h
      · rename_i hkey
        refine List.nodup_cons.mpr ⟨?_, ih hrows⟩
        rw [mem_keys_upsert]
        rintro (heq | hmem)
        · exact hkey heq
        · exact hfirst hmem

/-- A row of a table is the one under its key. -/
theorem lookup_of_mem (hnodup : (rows.map key).Nodup) (h : row ∈ rows) :
    lookup key rows (key row) = some row := by
  induction rows with
  | nil => cases h
  | cons first rows ih =>
      obtain ⟨hfirst, hrows⟩ := List.nodup_cons.mp hnodup
      rcases List.mem_cons.mp h with rfl | h
      · simp [lookup]
      · have hne : key first ≠ key row := fun heq => hfirst (heq ▸ List.mem_map_of_mem h)
        rw [← ih hrows h]
        simp [lookup, hne]

theorem mem_of_lookup {k : K} (h : lookup key rows k = some row) : row ∈ rows ∧ key row = k :=
  ⟨List.mem_of_find?_eq_some h, by simpa using List.find?_some h⟩

@[simp] theorem lookup_upsert (k : K) :
    lookup key (upsert key row rows) k = if key row = k then some row else lookup key rows k := by
  induction rows with
  | nil => by_cases h : key row = k <;> simp [upsert, lookup, h]
  | cons first rows ih =>
      rw [upsert]
      by_cases hkey : key first = key row
      · rw [if_pos hkey]
        by_cases h : key row = k <;> simp [lookup, h, hkey]
      · rw [if_neg hkey]
        by_cases hfirst : key first = k
        · have h : key row ≠ k := fun heq => hkey (hfirst.trans heq.symm)
          simp [lookup, hfirst, h]
        · have hrest : ∀ rest : List A, lookup key (first :: rest) k = lookup key rest k :=
            fun rest => by simp [lookup, hfirst]
          rw [hrest, ih, hrest]

/-! ## Parts of a table -/

/-- In a part that rows with the same key are in together, a row is replaced or added alike. -/
theorem filter_upsert {p : A → Bool} (h : ∀ other ∈ rows, key other = key row → p other = p row) :
    (upsert key row rows).filter p =
      if p row then upsert key row (rows.filter p) else rows.filter p := by
  induction rows with
  | nil => by_cases hp : p row = true <;> simp [upsert, hp]
  | cons first rows ih =>
      have ih := ih fun other hother => h other (List.mem_cons_of_mem _ hother)
      have hfirst := h first List.mem_cons_self
      rw [upsert]
      by_cases hkey : key first = key row
      · rw [if_pos hkey]
        by_cases hp : p row = true
        · simp [hp, hfirst hkey, upsert, hkey]
        · simp [hp, hfirst hkey]
      · rw [if_neg hkey]
        by_cases hp : p row = true
        · by_cases hpf : p first = true
          · simp [hp, hpf, ih, upsert, hkey]
          · simp [hp, hpf, ih]
        · by_cases hpf : p first = true
          · simp [hp, hpf, ih]
          · simp [hp, hpf, ih]

/-! ## Many rows -/

@[simp] theorem upsertAll_nil : upsertAll key rows [] = rows := rfl

@[simp] theorem upsertAll_cons :
    upsertAll key rows (row :: new) = upsertAll key (upsert key row rows) new := rfl

theorem nodup_upsertAll (h : (rows.map key).Nodup) :
    ((upsertAll key rows new).map key).Nodup := by
  induction new generalizing rows with
  | nil => exact h
  | cons row new ih => exact ih (nodup_upsert h)

theorem mem_of_mem_upsertAll (h : other ∈ upsertAll key rows new) : other ∈ rows ∨ other ∈ new := by
  induction new generalizing rows with
  | nil => exact Or.inl h
  | cons row new ih =>
      rcases ih h with h | h
      · rcases mem_of_mem_upsert h with rfl | h
        · exact Or.inr List.mem_cons_self
        · exact Or.inl h
      · exact Or.inr (List.mem_cons_of_mem _ h)

theorem mem_upsertAll_of_ne (h : other ∈ rows) (hne : ∀ row ∈ new, key other ≠ key row) :
    other ∈ upsertAll key rows new := by
  induction new generalizing rows with
  | nil => exact h
  | cons row new ih =>
      exact ih (mem_upsert_of_ne h (hne row List.mem_cons_self))
        fun row' hrow' => hne row' (List.mem_cons_of_mem _ hrow')

/-- A new row that no later one replaces is there in the end. -/
theorem mem_upsertAll (h : row ∈ new) (hnodup : (new.map key).Nodup) :
    row ∈ upsertAll key rows new := by
  induction new generalizing rows with
  | nil => cases h
  | cons first new ih =>
      obtain ⟨hfirst, hnew⟩ := List.nodup_cons.mp hnodup
      rcases List.mem_cons.mp h with rfl | h
      · rw [upsertAll_cons]
        refine mem_upsertAll_of_ne mem_upsert_self fun other hother heq => hfirst ?_
        rw [heq]
        exact List.mem_map_of_mem hother
      · exact ih h hnew

theorem filter_upsertAll {p : A → Bool}
    (h : ∀ row ∈ rows ++ new, ∀ other ∈ new, key row = key other → p row = p other) :
    (upsertAll key rows new).filter p = upsertAll key (rows.filter p) (new.filter p) := by
  induction new generalizing rows with
  | nil => rfl
  | cons first new ih =>
      have hone : (upsert key first rows).filter p =
          if p first then upsert key first (rows.filter p) else rows.filter p :=
        filter_upsert fun other hother hkey =>
          h other (List.mem_append_left _ hother) first List.mem_cons_self hkey
      rw [upsertAll_cons, ih, hone]
      · by_cases hp : p first = true <;> simp [hp]
      · intro row hrow other hother hkey
        refine h row ?_ other (List.mem_cons_of_mem _ hother) hkey
        rcases List.mem_append.mp hrow with hrow | hrow
        · rcases mem_of_mem_upsert hrow with rfl | hrow
          · simp
          · simp [hrow]
        · simp [hrow]

/-- Rows with new keys come last, in their order. -/
theorem upsertAll_of_new (hnodup : (new.map key).Nodup)
    (h : ∀ row ∈ rows, ∀ other ∈ new, key row ≠ key other) :
    upsertAll key rows new = rows ++ new := by
  induction new generalizing rows with
  | nil => simp
  | cons first new ih =>
      obtain ⟨hfirst, hnew⟩ := List.nodup_cons.mp hnodup
      rw [upsertAll_cons, upsert_of_new fun row hrow => h row hrow first List.mem_cons_self,
        ih hnew]
      · simp
      · intro row hrow other hother heq
        rcases List.mem_append.mp hrow with hrow | hrow
        · exact h row hrow other (List.mem_cons_of_mem _ hother) heq
        · rw [List.mem_singleton.mp hrow] at heq
          exact hfirst (heq ▸ List.mem_map_of_mem hother)

/-! ## Rows made of rows -/

/-- Where some rows give a row with their own key, the new keys are among the old ones, in order. -/
theorem map_filterMap_sublist {B : Type*} {f : B → Option A} {k : B → K}
    (hkey : ∀ b a, f b = some a → key a = k b) (l : List B) :
    ((l.filterMap f).map key).Sublist (l.map k) := by
  induction l with
  | nil => exact List.Sublist.slnil
  | cons b l ih =>
      cases hb : f b with
      | none =>
          rw [List.filterMap_cons_none hb, List.map_cons]
          exact ih.cons (k b)
      | some a =>
          rw [List.filterMap_cons_some hb, List.map_cons, List.map_cons, hkey b a hb]
          exact ih.cons_cons (k b)

end

end StellarAgent.Lib
