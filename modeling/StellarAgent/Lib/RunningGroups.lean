import Mathlib.Tactic

set_option autoImplicit false

/-! # Running sums by group

A list of amounts, each with a key, is walked with one running sum that starts again when the key
changes. If the keys never decrease, the running sums stay within a limit exactly if the sum of
every group does (`runsWithin_iff`).

Only the order of the keys matters: each key may be replaced by its rank among the keys of the list
(`Grouped.rank`), which is at most the length of the list.
-/

namespace StellarAgent.Lib

variable {κ : Type*} [LinearOrder κ]

/-! ## Sums of groups -/

/-- The sum of the amounts under a key. -/
def groupSum (key : κ) (xs : List (ℕ × κ)) : ℕ :=
  (xs.map fun x => if x.2 = key then x.1 else 0).sum

@[simp] theorem groupSum_nil (key : κ) : groupSum key [] = 0 := rfl

@[simp] theorem groupSum_cons (key : κ) (x : ℕ × κ) (xs : List (ℕ × κ)) :
    groupSum key (x :: xs) = (if x.2 = key then x.1 else 0) + groupSum key xs := by
  simp [groupSum]

theorem groupSum_append (key : κ) (xs ys : List (ℕ × κ)) :
    groupSum key (xs ++ ys) = groupSum key xs + groupSum key ys := by
  simp [groupSum]

theorem groupSum_eq_zero {key : κ} {xs : List (ℕ × κ)} (h : ∀ x ∈ xs, x.2 = key → x.1 = 0) :
    groupSum key xs = 0 := by
  induction xs with
  | nil => rfl
  | cons x xs ih =>
      rw [groupSum_cons, ih (fun y hy => h y (List.mem_cons_of_mem x hy))]
      by_cases hkey : x.2 = key
      · rw [if_pos hkey, h x List.mem_cons_self hkey]
      · rw [if_neg hkey]

theorem le_groupSum {xs : List (ℕ × κ)} {x : ℕ × κ} (hx : x ∈ xs) : x.1 ≤ groupSum x.2 xs := by
  induction xs with
  | nil => cases hx
  | cons y ys ih =>
      rw [groupSum_cons]
      rcases List.mem_cons.mp hx with rfl | hmem
      · rw [if_pos rfl]
        exact Nat.le_add_right _ _
      · exact (ih hmem).trans (Nat.le_add_left _ _)

/-! ## The walk -/

/-- The sum that runs on with an amount under the key `t`. -/
def nextRunning (running : ℕ) (marker t : κ) (amount : ℕ) : ℕ :=
  (if t = marker then running else 0) + amount

/-- Keys never decrease from `marker` on, and no running sum exceeds the limit. -/
def RunsWithin (limit running : ℕ) (marker : κ) : List (ℕ × κ) → Prop
  | [] => True
  | (amount, t) :: xs =>
      marker ≤ t ∧ nextRunning running marker t amount ≤ limit ∧
        RunsWithin limit (nextRunning running marker t amount) t xs

/-- **The running sums are within the limit exactly if the groups are.** -/
theorem runsWithin_iff {limit running : ℕ} {marker : κ} {xs : List (ℕ × κ)}
    (hrunning : running ≤ limit) :
    RunsWithin limit running marker xs ↔
      (marker :: xs.map Prod.snd).Pairwise (· ≤ ·) ∧
        ∀ key, (if key = marker then running else 0) + groupSum key xs ≤ limit := by
  induction xs generalizing running marker with
  | nil =>
      refine ⟨fun _ => ⟨List.pairwise_singleton _ _, fun key => ?_⟩, fun _ => trivial⟩
      rw [groupSum_nil]
      split <;> omega
  | cons x xs ih =>
      obtain ⟨amount, t⟩ := x
      rw [RunsWithin, List.map_cons, List.pairwise_cons]
      constructor
      · rintro ⟨hmarker, hnext, hrest⟩
        obtain ⟨hsorted, hgroups⟩ := (ih hnext).mp hrest
        have hhead : ∀ u ∈ xs.map Prod.snd, t ≤ u := (List.pairwise_cons.mp hsorted).1
        refine ⟨⟨?_, hsorted⟩, ?_⟩
        · intro u hu
          rcases List.mem_cons.mp hu with rfl | hmem
          · exact hmarker
          · exact hmarker.trans (hhead u hmem)
        · intro key
          have hkey := hgroups key
          rw [groupSum_cons]
          show (if key = marker then running else 0)
            + ((if t = key then amount else 0) + groupSum key xs) ≤ limit
          by_cases ht : t = key
          · subst ht
            rw [if_pos rfl, nextRunning] at hkey
            rw [if_pos rfl]
            omega
          · -- the group of an older marker is closed
            rw [if_neg (Ne.symm ht)] at hkey
            rw [if_neg ht]
            by_cases hold : key = marker
            · subst hold
              have hclosed : groupSum key xs = 0 := by
                refine groupSum_eq_zero ?_
                intro y hy hykey
                have hle := hhead y.2 (List.mem_map_of_mem hy)
                rw [hykey] at hle
                exact absurd (le_antisymm hle hmarker) ht
              rw [if_pos rfl, hclosed]
              omega
            · rw [if_neg hold]
              omega
      · rintro ⟨⟨hmarker, hsorted⟩, hgroups⟩
        have hnext : nextRunning running marker t amount ≤ limit := by
          have hkey := hgroups t
          rw [groupSum_cons, if_pos rfl] at hkey
          unfold nextRunning
          omega
        refine ⟨hmarker t List.mem_cons_self, hnext, (ih hnext).mpr ⟨hsorted, ?_⟩⟩
        intro key
        have hkey := hgroups key
        rw [groupSum_cons] at hkey
        by_cases ht : key = t
        · subst ht
          rw [if_pos rfl] at hkey ⊢
          unfold nextRunning
          omega
        · rw [if_neg ht]
          omega

/-! ## Grouped lists -/

/-- Keys never decrease, and no group exceeds the limit. -/
structure Grouped (limit : ℕ) (xs : List (ℕ × κ)) : Prop where
  ordered : (xs.map Prod.snd).Pairwise (· ≤ ·)
  within : ∀ key, groupSum key xs ≤ limit

/-- The first amount starts a group whatever its key. -/
theorem grouped_cons_iff {limit amount : ℕ} {t : κ} {xs : List (ℕ × κ)} :
    Grouped limit ((amount, t) :: xs) ↔ amount ≤ limit ∧ RunsWithin limit amount t xs := by
  constructor
  · intro h
    have hamount : amount ≤ limit := (le_groupSum List.mem_cons_self).trans (h.within t)
    refine ⟨hamount, (runsWithin_iff hamount).mpr ⟨h.ordered, ?_⟩⟩
    intro key
    have hkey := h.within key
    rw [groupSum_cons] at hkey
    simpa only [eq_comm] using hkey
  · rintro ⟨hamount, hruns⟩
    obtain ⟨hordered, hwithin⟩ := (runsWithin_iff hamount).mp hruns
    refine ⟨hordered, ?_⟩
    intro key
    rw [groupSum_cons]
    simpa only [eq_comm] using hwithin key

theorem Grouped.amount_le {limit : ℕ} {xs : List (ℕ × κ)} (h : Grouped limit xs) :
    ∀ x ∈ xs, x.1 ≤ limit := fun x hx => (le_groupSum hx).trans (h.within x.2)

/-- Empty amounts may be added under a key that is not below the others. -/
theorem Grouped.pad {limit : ℕ} {xs : List (ℕ × κ)} (h : Grouped limit xs) {key : κ}
    (hkey : ∀ x ∈ xs, x.2 ≤ key) (n : ℕ) : Grouped limit (xs ++ List.replicate n (0, key)) := by
  refine ⟨?_, ?_⟩
  · rw [List.map_append, List.map_replicate, List.pairwise_append]
    refine ⟨h.ordered, List.pairwise_replicate.mpr (Or.inr le_rfl), ?_⟩
    intro a ha b hb
    obtain ⟨x, hx, rfl⟩ := List.mem_map.mp ha
    rw [List.eq_of_mem_replicate hb]
    exact hkey x hx
  · intro other
    have hzero : groupSum other (List.replicate n (0, key)) = 0 := by
      refine groupSum_eq_zero ?_
      intro y hy _
      rw [List.eq_of_mem_replicate hy]
    rw [groupSum_append, hzero]
    exact h.within other

/-- The keys may start anywhere if there is a smallest one. -/
theorem Grouped.runsWithin [OrderBot κ] {limit : ℕ} {xs : List (ℕ × κ)} (h : Grouped limit xs) :
    RunsWithin limit 0 ⊥ xs := by
  refine (runsWithin_iff (Nat.zero_le limit)).mpr ⟨?_, ?_⟩
  · rw [List.pairwise_cons]
    exact ⟨fun _ _ => bot_le, h.ordered⟩
  · intro key
    rw [ite_self, zero_add]
    exact h.within key

/-- The key that the walk ends with. -/
def lastKey (marker : κ) : List (ℕ × κ) → κ
  | [] => marker
  | x :: xs => lastKey x.2 xs

omit [LinearOrder κ] in
theorem lastKey_eq_or_mem (marker : κ) (xs : List (ℕ × κ)) :
    lastKey marker xs = marker ∨ ∃ x ∈ xs, lastKey marker xs = x.2 := by
  induction xs generalizing marker with
  | nil => exact Or.inl rfl
  | cons x xs ih =>
      right
      rcases ih x.2 with hhead | ⟨y, hy, hlast⟩
      · exact ⟨x, List.mem_cons_self, hhead⟩
      · exact ⟨y, List.mem_cons_of_mem x hy, hlast⟩

theorem RunsWithin.le_lastKey {limit running : ℕ} {marker : κ} {xs : List (ℕ × κ)}
    (h : RunsWithin limit running marker xs) :
    marker ≤ lastKey marker xs ∧ ∀ x ∈ xs, x.2 ≤ lastKey marker xs := by
  induction xs generalizing running marker with
  | nil => exact ⟨le_rfl, by simp⟩
  | cons x xs ih =>
      obtain ⟨hmarker, _, hrest⟩ := h
      obtain ⟨hlast, hall⟩ := ih hrest
      refine ⟨hmarker.trans hlast, ?_⟩
      intro y hy
      rcases List.mem_cons.mp hy with rfl | hmem
      · exact hlast
      · exact hall y hmem

/-! ## Ranks -/

/-- How many different keys of the list are smaller. -/
def keyRank (keys : List κ) (key : κ) : ℕ := (keys.toFinset.filter (· < key)).card

theorem keyRank_le_length (keys : List κ) (key : κ) : keyRank keys key ≤ keys.length :=
  (Finset.card_filter_le _ _).trans (List.toFinset_card_le keys)

theorem keyRank_mono {keys : List κ} {a b : κ} (h : a ≤ b) : keyRank keys a ≤ keyRank keys b := by
  refine Finset.card_le_card ?_
  intro c hc
  rw [Finset.mem_filter] at hc ⊢
  exact ⟨hc.1, hc.2.trans_le h⟩

theorem keyRank_lt {keys : List κ} {a b : κ} (ha : a ∈ keys) (h : a < b) :
    keyRank keys a < keyRank keys b := by
  refine Finset.card_lt_card ?_
  rw [Finset.ssubset_iff_of_subset]
  · refine ⟨a, ?_, ?_⟩
    · rw [Finset.mem_filter, List.mem_toFinset]
      exact ⟨ha, h⟩
    · rw [Finset.mem_filter]
      exact fun hmem => lt_irrefl a hmem.2
  · intro c hc
    rw [Finset.mem_filter] at hc ⊢
    exact ⟨hc.1, hc.2.trans h⟩

theorem keyRank_inj {keys : List κ} {a b : κ} (ha : a ∈ keys) (hb : b ∈ keys)
    (h : keyRank keys a = keyRank keys b) : a = b := by
  rcases lt_trichotomy a b with hlt | heq | hgt
  · exact absurd h (keyRank_lt ha hlt).ne
  · exact heq
  · exact absurd h (keyRank_lt hb hgt).ne'

/-- Each key replaced by its rank. -/
def byRank (xs : List (ℕ × κ)) : List (ℕ × ℕ) :=
  xs.map fun x => (x.1, keyRank (xs.map Prod.snd) x.2)

/-- A key that is injective on the list keeps the groups apart. -/
theorem groupSum_map {μ : Type*} [LinearOrder μ] {f : κ → μ} {xs : List (ℕ × κ)} {key : κ}
    (h : ∀ x ∈ xs, f x.2 = f key → x.2 = key) :
    groupSum (f key) (xs.map fun x => (x.1, f x.2)) = groupSum key xs := by
  induction xs with
  | nil => rfl
  | cons x xs ih =>
      rw [List.map_cons, groupSum_cons, groupSum_cons,
        ih (fun y hy => h y (List.mem_cons_of_mem x hy))]
      by_cases hkey : x.2 = key
      · rw [if_pos hkey, if_pos (congrArg f hkey)]
      · rw [if_neg hkey, if_neg (fun heq => hkey (h x List.mem_cons_self heq))]

/-- **Ranks group a list as its keys do.** -/
theorem Grouped.rank {limit : ℕ} {xs : List (ℕ × κ)} (h : Grouped limit xs) :
    Grouped limit (byRank xs) := by
  have hmem : ∀ x ∈ xs, x.2 ∈ xs.map Prod.snd := fun x hx => List.mem_map_of_mem hx
  refine ⟨?_, ?_⟩
  · have hmap : (byRank xs).map Prod.snd = (xs.map Prod.snd).map (keyRank (xs.map Prod.snd)) := by
      rw [byRank, List.map_map, List.map_map]
      rfl
    rw [hmap, List.pairwise_map]
    exact h.ordered.imp keyRank_mono
  · intro rank
    by_cases hused : ∃ x ∈ xs, keyRank (xs.map Prod.snd) x.2 = rank
    · obtain ⟨x, hx, rfl⟩ := hused
      have hsame : groupSum (keyRank (xs.map Prod.snd) x.2) (byRank xs) = groupSum x.2 xs :=
        groupSum_map (fun y hy heq => keyRank_inj (hmem y hy) (hmem x hx) heq)
      rw [hsame]
      exact h.within x.2
    · rw [groupSum_eq_zero]
      · exact Nat.zero_le _
      · intro y hy hrank
        obtain ⟨x, hx, rfl⟩ := List.mem_map.mp hy
        exact absurd ⟨x, hx, hrank⟩ hused

theorem byRank_amounts (xs : List (ℕ × κ)) : (byRank xs).map Prod.fst = xs.map Prod.fst := by
  rw [byRank, List.map_map]
  rfl

theorem byRank_length (xs : List (ℕ × κ)) : (byRank xs).length = xs.length := List.length_map _

theorem byRank_le_length {xs : List (ℕ × κ)} : ∀ x ∈ byRank xs, x.2 ≤ xs.length := by
  intro x hx
  obtain ⟨y, _, rfl⟩ := List.mem_map.mp hx
  have hle := keyRank_le_length (xs.map Prod.snd) y.2
  rwa [List.length_map] at hle

end StellarAgent.Lib
