import Mathlib.Data.Finmap
import Mathlib.Tactic

set_option autoImplicit false

/-! # Finite maps and sums over their entries

`Map K V` is Mathlib's finite map with a constant value type. `total f m` adds up `f k v` over
the entries `k ↦ v` of `m`; the lemmas say how one `insert` or one `erase` moves it, in terms of
what the map held at that key before (`Map.valueAt`).
-/

namespace StellarAgent.Lib

/-- A finite map from keys `K` to values `V`. -/
abbrev Map (K V : Type*) := Finmap (fun _ : K => V)

namespace Map

variable {K V : Type*}

/-- The sum of `f k v` over all entries. -/
def total (f : K → V → ℤ) (m : Map K V) : ℤ := (m.entries.map (fun e => f e.1 e.2)).sum

theorem total_neg (f : K → V → ℤ) (m : Map K V) :
    total (fun k v => -f k v) m = -total f m := by
  simp [total]

variable [DecidableEq K]

/-- `f k v` for the value `v` held at `k`, and zero where there is none. -/
def valueAt (f : K → V → ℤ) (k : K) (m : Map K V) : ℤ := (m.lookup k).elim 0 (f k)

theorem valueAt_some {f : K → V → ℤ} {k : K} {v : V} {m : Map K V} (h : m.lookup k = some v) :
    valueAt f k m = f k v := by simp [valueAt, h]

theorem valueAt_none {f : K → V → ℤ} {k : K} {m : Map K V} (h : m.lookup k = none) :
    valueAt f k m = 0 := by simp [valueAt, h]

theorem insert_erase_self (k : K) (v : V) (m : Map K V) :
    (m.erase k).insert k v = m.insert k v := by
  refine Finmap.ext_lookup (fun x => ?_)
  by_cases hx : x = k
  · subst hx; rw [Finmap.lookup_insert, Finmap.lookup_insert]
  · rw [Finmap.lookup_insert_of_ne _ hx, Finmap.lookup_insert_of_ne _ hx,
      Finmap.lookup_erase_ne hx]

/-- Writing back what is there changes nothing. -/
theorem insert_lookup_self {k : K} {v : V} {m : Map K V} (h : m.lookup k = some v) :
    m.insert k v = m := by
  refine Finmap.ext_lookup (fun x => ?_)
  by_cases hx : x = k
  · subst hx; rw [Finmap.lookup_insert, h]
  · rw [Finmap.lookup_insert_of_ne _ hx]

theorem erase_of_lookup_none {k : K} {m : Map K V} (h : m.lookup k = none) :
    m.erase k = m := by
  refine Finmap.ext_lookup (fun x => ?_)
  by_cases hx : x = k
  · subst hx; rw [Finmap.lookup_erase, h]
  · rw [Finmap.lookup_erase_ne hx]

theorem total_insert_fresh (f : K → V → ℤ) {k : K} (v : V) {m : Map K V}
    (h : m.lookup k = none) : total f (m.insert k v) = f k v + total f m := by
  rw [total, total, Finmap.entries_insert_of_notMem (Finmap.lookup_eq_none.mp h),
    Multiset.map_cons, Multiset.sum_cons]

/-- Erasing a key takes away what was held there. -/
theorem total_erase (f : K → V → ℤ) (k : K) (m : Map K V) :
    total f (m.erase k) = total f m - valueAt f k m := by
  cases h : m.lookup k with
  | none => rw [erase_of_lookup_none h, valueAt_none h, sub_zero]
  | some v =>
      have hins := total_insert_fresh f v (Finmap.lookup_erase k m)
      rw [insert_erase_self, insert_lookup_self h] at hins
      rw [valueAt_some h]
      omega

/-- Writing a key replaces what was held there. -/
theorem total_insert (f : K → V → ℤ) (k : K) (v : V) (m : Map K V) :
    total f (m.insert k v) = total f m - valueAt f k m + f k v := by
  calc total f (m.insert k v) = total f ((m.erase k).insert k v) := by rw [insert_erase_self]
    _ = f k v + total f (m.erase k) := total_insert_fresh f v (Finmap.lookup_erase k m)
    _ = f k v + (total f m - valueAt f k m) := by rw [total_erase]
    _ = total f m - valueAt f k m + f k v := by ring

theorem lookup_insert_eq_ite (k k' : K) (v : V) (m : Map K V) :
    (m.insert k v).lookup k' = if k' = k then some v else m.lookup k' := by
  by_cases h : k' = k
  · subst h; simp
  · rw [Finmap.lookup_insert_of_ne _ h, if_neg h]

theorem valueAt_insert (f : K → V → ℤ) (k k' : K) (v : V) (m : Map K V) :
    valueAt f k' (m.insert k v) = if k' = k then f k' v else valueAt f k' m := by
  unfold valueAt
  rw [lookup_insert_eq_ite]
  split <;> rfl

theorem lookup_erase_eq_ite (k k' : K) (m : Map K V) :
    (m.erase k).lookup k' = if k' = k then none else m.lookup k' := by
  by_cases h : k' = k
  · subst h; simp
  · rw [Finmap.lookup_erase_ne h, if_neg h]

/-- An entry after a write is the one just written, or was there before. -/
theorem lookup_insert_some {k k' : K} {v x : V} {m : Map K V}
    (h : (m.insert k v).lookup k' = some x) :
    (k' = k ∧ x = v) ∨ (k' ≠ k ∧ m.lookup k' = some x) := by
  rw [lookup_insert_eq_ite] at h
  by_cases hk : k' = k
  · rw [if_pos hk] at h
    exact .inl ⟨hk, (Option.some.inj h).symm⟩
  · rw [if_neg hk] at h
    exact .inr ⟨hk, h⟩

theorem lookup_erase_some {k k' : K} {x : V} {m : Map K V}
    (h : (m.erase k).lookup k' = some x) : k' ≠ k ∧ m.lookup k' = some x := by
  rw [lookup_erase_eq_ite] at h
  by_cases hk : k' = k
  · rw [if_pos hk] at h
    cases h
  · rw [if_neg hk] at h
    exact ⟨hk, h⟩

/-- What holds of the entries that stay and of the one written holds of all entries. -/
theorem forall_insert {Q : K → V → Prop} {k : K} {v : V} {m : Map K V}
    (hold : ∀ k' x, k' ≠ k → m.lookup k' = some x → Q k' x) (hnew : Q k v) :
    ∀ k' x, (m.insert k v).lookup k' = some x → Q k' x := by
  intro k' x hl
  rcases lookup_insert_some hl with ⟨rfl, rfl⟩ | ⟨hne, hl⟩
  · exact hnew
  · exact hold k' x hne hl

theorem forall_erase {Q : K → V → Prop} {k : K} {m : Map K V}
    (hold : ∀ k' x, k' ≠ k → m.lookup k' = some x → Q k' x) :
    ∀ k' x, (m.erase k).lookup k' = some x → Q k' x := by
  intro k' x hl
  obtain ⟨hne, hl⟩ := lookup_erase_some hl
  exact hold k' x hne hl

/-- A sum in which every entry counts at least zero is at least zero. -/
theorem total_nonneg (f : K → V → ℤ) (m : Map K V)
    (h : ∀ k v, m.lookup k = some v → 0 ≤ f k v) : 0 ≤ total f m := by
  induction m using Finmap.induction_on with
  | H l =>
      have hmem : ∀ e ∈ l.entries, 0 ≤ f e.1 e.2 := by
        intro e he
        refine h e.1 e.2 ?_
        rw [Finmap.lookup_toFinmap]
        exact AList.mem_lookup_iff.mpr he
      show 0 ≤ (l.entries.map (fun e => f e.1 e.2)).sum
      refine List.sum_nonneg (fun x hx => ?_)
      obtain ⟨e, he, rfl⟩ := List.mem_map.mp hx
      exact hmem e he

/-- Sums are compared entry by entry. -/
theorem total_le_total {f g : K → V → ℤ} {m : Map K V}
    (h : ∀ k v, m.lookup k = some v → f k v ≤ g k v) : total f m ≤ total g m := by
  have hdifference : 0 ≤ total (fun k v => g k v + -f k v) m :=
    total_nonneg _ m (fun k v hk => by have := h k v hk; omega)
  have hsplit : total (fun k v => g k v + -f k v) m = total g m + -total f m := by
    rw [← total_neg]
    simp [total]
  omega

theorem total_congr {f g : K → V → ℤ} {m : Map K V}
    (h : ∀ k v, m.lookup k = some v → f k v = g k v) : total f m = total g m :=
  le_antisymm (total_le_total (fun k v hk => (h k v hk).le))
    (total_le_total (fun k v hk => (h k v hk).ge))

/-- Each single entry is at most the sum, when every entry counts at least zero. -/
theorem le_total (f : K → V → ℤ) {m : Map K V}
    (h : ∀ k v, m.lookup k = some v → 0 ≤ f k v) {k : K} {v : V} (hk : m.lookup k = some v) :
    f k v ≤ total f m := by
  have hrest : 0 ≤ total f (m.erase k) :=
    total_nonneg f _ (forall_erase (fun k' v' _ => h k' v'))
  rw [total_erase, valueAt_some hk] at hrest
  omega

end Map

end StellarAgent.Lib
