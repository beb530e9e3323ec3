import Mathlib.Tactic

set_option autoImplicit false

/-! # Windows that restart

A counter with a window of fixed width: a hit is counted in the current window while the window is
less than `width` old, and else starts the next one. Hits may come out of order, so a hit may be
older than the window it is counted in.

`loadWithin_le`: if every hit fits into the window it is counted in, and none is older than that
window, then the hits of any window, by their own times, stay within the cap.
-/

namespace StellarAgent.Lib

/-- When a window started, and what has been counted in it. -/
structure LoadWindow where
  started : ℕ
  load : ℤ
  deriving DecidableEq

structure Hit where
  at_time : ℕ
  weight : ℤ
  deriving DecidableEq

/-- The window in which a hit at this time is counted. -/
def LoadWindow.roll (width : ℕ) (window : LoadWindow) (at_time : ℕ) : LoadWindow :=
  if at_time - window.started < width then window else ⟨at_time, 0⟩

/-- The window after a hit. -/
def LoadWindow.count (width : ℕ) (window : LoadWindow) (hit : Hit) : LoadWindow :=
  let rolled := window.roll width hit.at_time
  { rolled with load := rolled.load + hit.weight }

/-- The window after some hits. -/
def windowAfter (width : ℕ) (hits : List Hit) : LoadWindow :=
  hits.foldl (LoadWindow.count width) ⟨0, 0⟩

/-- A window that started at `start` has counted some hit. -/
def Started (width : ℕ) (hits : List Hit) (start : ℕ) : Prop :=
  ∃ before hit after, hits = before ++ hit :: after ∧
    (windowAfter width (before ++ [hit])).started = start

/-- What a hit counts of the time of `width` from `start` on. -/
def Hit.within (width start : ℕ) (hit : Hit) : ℤ :=
  if start ≤ hit.at_time ∧ hit.at_time < start + width then hit.weight else 0

/-- What the hits of that time add up to, by their own times. -/
def loadWithin (width start : ℕ) (hits : List Hit) : ℤ := (hits.map (Hit.within width start)).sum

/-- The hit fits into the window it is counted in, and is not older than the current one. -/
def FitsInto (width : ℕ) (cap : ℤ) (window : LoadWindow) (hit : Hit) : Prop :=
  window.started ≤ hit.at_time ∧ (window.roll width hit.at_time).load + hit.weight ≤ cap

section

variable {width : ℕ} {cap : ℤ} {hits : List Hit} {hit : Hit} {start : ℕ}

@[simp] theorem windowAfter_nil : windowAfter width [] = ⟨0, 0⟩ := rfl

theorem windowAfter_snoc :
    windowAfter width (hits ++ [hit]) = (windowAfter width hits).count width hit := by
  rw [windowAfter, List.foldl_append]
  rfl

theorem loadWithin_snoc : loadWithin width start (hits ++ [hit]) =
    loadWithin width start hits + hit.within width start := by
  simp [loadWithin]

theorem started_snoc : Started width (hits ++ [hit]) start ↔
    Started width hits start ∨ (windowAfter width (hits ++ [hit])).started = start := by
  constructor
  · rintro ⟨before, last, after, hsplit, hstart⟩
    cases after using List.reverseRecOn with
    | nil =>
        obtain ⟨rfl, hlast⟩ := List.append_inj' hsplit rfl
        obtain rfl := List.singleton_inj.mp hlast
        exact Or.inr hstart
    | append_singleton after z =>
        rw [← List.cons_append, ← List.append_assoc] at hsplit
        obtain ⟨hhits, -⟩ := List.append_inj' hsplit rfl
        exact Or.inl ⟨before, last, after, hhits, hstart⟩
  · rintro (⟨before, last, after, rfl, hstart⟩ | hstart)
    · exact ⟨before, last, after ++ [hit], by simp, hstart⟩
    · exact ⟨hits, hit, [], rfl, hstart⟩

theorem Started.append (h : Started width hits start) (later : List Hit) :
    Started width (hits ++ later) start := by
  obtain ⟨before, hit, after, rfl, hstart⟩ := h
  exact ⟨before, hit, after ++ later, by simp, hstart⟩

theorem started_of_ne_nil (h : hits ≠ []) : Started width hits (windowAfter width hits).started := by
  cases hits using List.reverseRecOn with
  | nil => exact absurd rfl h
  | append_singleton hits hit => exact started_snoc.mpr (Or.inr rfl)

/-- What holds after hits that fit. -/
structure Accrued (width : ℕ) (cap : ℤ) (hits : List Hit) (window : LoadWindow) : Prop where
  /-- every hit is before the end of the window -/
  latest : ∀ hit ∈ hits, hit.at_time < window.started + width
  /-- the window has counted the hits of its own time -/
  load_eq : loadWithin width window.started hits = window.load
  /-- earlier windows were over before the window started -/
  past : ∀ start, Started width hits start → start ≠ window.started →
    start + width ≤ window.started
  bounded : ∀ start, Started width hits start → loadWithin width start hits ≤ cap

theorem Accrued.nil : Accrued width cap [] ⟨0, 0⟩ := by
  have hnone : ∀ start, ¬ Started width [] start := by
    rintro start ⟨before, hit, after, hsplit, -⟩
    simp at hsplit
  exact ⟨by simp, rfl, fun start h => absurd h (hnone start), fun start h => absurd h (hnone start)⟩

/-- A window that is over counts nothing more. -/
theorem loadWithin_snoc_past (h : start + width ≤ hit.at_time) :
    loadWithin width start (hits ++ [hit]) = loadWithin width start hits := by
  rw [loadWithin_snoc, Hit.within, if_neg (fun hin => by omega), add_zero]

theorem Accrued.snoc (h : Accrued width cap hits (windowAfter width hits)) (hwidth : 0 < width)
    (hfits : FitsInto width cap (windowAfter width hits) hit) :
    Accrued width cap (hits ++ [hit]) (windowAfter width (hits ++ [hit])) := by
  have hstarted : ∀ start, Started width (hits ++ [hit]) start →
      Started width hits start ∨ start = (windowAfter width (hits ++ [hit])).started :=
    fun start hstart => (started_snoc.mp hstart).imp_right Eq.symm
  rw [windowAfter_snoc] at hstarted ⊢
  generalize windowAfter width hits = window at h hfits hstarted ⊢
  obtain ⟨hontime, hcap⟩ := hfits
  unfold LoadWindow.count at hstarted ⊢
  unfold LoadWindow.roll at hcap hstarted ⊢
  by_cases hin : hit.at_time - window.started < width
  -- the hit is counted in the current window
  · rw [if_pos hin] at hcap hstarted ⊢
    have hnow : loadWithin width window.started (hits ++ [hit]) = window.load + hit.weight := by
      rw [loadWithin_snoc, Hit.within, if_pos ⟨hontime, by omega⟩, h.load_eq]
    have hpast : ∀ start, Started width (hits ++ [hit]) start → start ≠ window.started →
        Started width hits start ∧ start + width ≤ window.started := by
      intro start hstart hne
      have hold : Started width hits start := (hstarted start hstart).resolve_right hne
      exact ⟨hold, h.past start hold hne⟩
    have hend : hit.at_time < window.started + width := by omega
    refine ⟨?_, hnow, fun start hstart hne => (hpast start hstart hne).2, ?_⟩
    · rw [List.forall_mem_append, List.forall_mem_singleton]
      exact ⟨h.latest, hend⟩
    · intro start hstart
      by_cases hstart' : start = window.started
      · rw [hstart', hnow]
        exact hcap
      · obtain ⟨hold, hover⟩ := hpast start hstart hstart'
        rw [loadWithin_snoc_past (hover.trans hontime)]
        exact h.bounded start hold
  -- the hit starts the next window
  · rw [if_neg hin] at hcap hstarted ⊢
    have hover : window.started + width ≤ hit.at_time := by omega
    have hpast : ∀ start, Started width hits start → start + width ≤ hit.at_time := by
      intro start hold
      by_cases hstart : start = window.started
      · rw [hstart]
        exact hover
      · have := h.past start hold hstart
        omega
    have hempty : loadWithin width hit.at_time hits = 0 := by
      refine List.sum_eq_zero (fun x hx => ?_)
      obtain ⟨other, hother, rfl⟩ := List.mem_map.mp hx
      have := h.latest other hother
      exact if_neg (fun hin => by omega)
    have hnow : loadWithin width hit.at_time (hits ++ [hit]) = 0 + hit.weight := by
      rw [loadWithin_snoc, Hit.within, if_pos ⟨le_rfl, by omega⟩, hempty]
    refine ⟨?_, hnow, ?_, ?_⟩
    · rw [List.forall_mem_append, List.forall_mem_singleton]
      refine ⟨fun other hother => ?_, by show hit.at_time < hit.at_time + width; omega⟩
      have := h.latest other hother
      show other.at_time < hit.at_time + width
      omega
    · intro start hstart hne
      exact hpast start ((hstarted start hstart).resolve_right hne)
    · intro start hstart
      rcases hstarted start hstart with hold | hnew
      · rw [loadWithin_snoc_past (hpast start hold)]
        exact h.bounded start hold
      · have hsame : start = hit.at_time := hnew
        rw [hsame, hnow]
        exact hcap

theorem accrued_of_fits (hwidth : 0 < width)
    (hfits : ∀ before hit after, hits = before ++ hit :: after →
      FitsInto width cap (windowAfter width before) hit) :
    Accrued width cap hits (windowAfter width hits) := by
  induction hits using List.reverseRecOn with
  | nil => exact Accrued.nil
  | append_singleton hits hit ih =>
      refine (ih ?_).snoc hwidth (hfits hits hit [] rfl)
      rintro before other after rfl
      exact hfits before other (after ++ [hit]) (by simp)

/-- **The windows stay within the cap.** -/
theorem loadWithin_le (hwidth : 0 < width)
    (hfits : ∀ before hit after, hits = before ++ hit :: after →
      FitsInto width cap (windowAfter width before) hit)
    (hstart : Started width hits start) : loadWithin width start hits ≤ cap :=
  (accrued_of_fits hwidth hfits).bounded start hstart

end

end StellarAgent.Lib
