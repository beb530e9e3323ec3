import StellarAgent.Lib.Tables

set_option autoImplicit false

/-! # Accumulators by key

A map from keys to accumulators, filled by a loop over items: each item updates the accumulator
under its key (`map.set(k, f(map.get(k)))`). Each key sees exactly its own items, in their order
(`held?_gather`), so what is known of one accumulator is known of the map. Accumulators whose
updates add an integer hold sums (`held_accumulate_sum`).
-/

namespace StellarAgent.Lib

section

variable {K V A : Type*} [DecidableEq K]

/-- `map.get(k)` -/
def held? (table : List (K × V)) (k : K) : Option V := (lookup Prod.fst table k).map Prod.snd

/-- `map.get(k) ?? start` -/
def held (start : V) (table : List (K × V)) (k : K) : V := (held? table k).getD start

/-! ## One accumulator for each key -/

section

variable (key : A → K) (step : A → Option V → V)

/-- The update of one item, from what is held under its key, if anything is -/
def gatherOne (table : List (K × V)) (a : A) : List (K × V) :=
  upsert Prod.fst (key a, step a (held? table (key a))) table

def gather (table : List (K × V)) (items : List A) : List (K × V) :=
  items.foldl (gatherOne key step) table

variable {key step} {table : List (K × V)} {items : List A} {k : K} {start : V}

@[simp] theorem held_nil : held start ([] : List (K × V)) k = start := rfl

@[simp] theorem gather_nil : gather key step table [] = table := rfl

theorem gather_cons {a : A} :
    gather key step table (a :: items) = gather key step (gatherOne key step table a) items := rfl

theorem gather_append {items' : List A} :
    gather key step table (items ++ items') =
      gather key step (gather key step table items) items' :=
  List.foldl_append

theorem held?_gatherOne {a : A} :
    held? (gatherOne key step table a) k =
      if key a = k then some (step a (held? table k)) else held? table k := by
  unfold held? gatherOne
  rw [lookup_upsert]
  by_cases h : key a = k
  · rw [if_pos h, if_pos h, h]
    rfl
  · rw [if_neg h, if_neg h]

/-- The accumulator of a key has seen the items of the key, and no others. -/
theorem held?_gather :
    held? (gather key step table items) k =
      (items.filter fun a => key a = k).foldl (fun v a => some (step a v)) (held? table k) := by
  induction items generalizing table with
  | nil => rfl
  | cons a items ih =>
      rw [gather_cons, ih, held?_gatherOne]
      by_cases h : key a = k
      · rw [if_pos h, List.filter_cons_of_pos (by simpa using h), List.foldl_cons]
      · rw [if_neg h, List.filter_cons_of_neg (by simpa using h)]

/-! ## Keys -/

theorem mem_keys_gather :
    k ∈ (gather key step table items).map Prod.fst ↔
      k ∈ table.map Prod.fst ∨ k ∈ items.map key := by
  induction items generalizing table with
  | nil => simp
  | cons a items ih =>
      rw [gather_cons, ih, gatherOne, mem_keys_upsert, List.map_cons, List.mem_cons]
      constructor
      · rintro ((h | h) | h)
        · exact Or.inr (Or.inl h)
        · exact Or.inl h
        · exact Or.inr (Or.inr h)
      · rintro (h | h | h)
        · exact Or.inl (Or.inr h)
        · exact Or.inl (Or.inl h)
        · exact Or.inr h

theorem nodup_keys_gather (h : (table.map Prod.fst).Nodup) :
    ((gather key step table items).map Prod.fst).Nodup := by
  induction items generalizing table with
  | nil => exact h
  | cons a items ih => exact ih (nodup_upsert h)

theorem held?_isSome : (held? table k).isSome ↔ k ∈ table.map Prod.fst := by
  unfold held? lookup
  rw [Option.isSome_map, List.find?_isSome]
  constructor
  · rintro ⟨row, hrow, hkey⟩
    exact List.mem_map.mpr ⟨row, hrow, by simpa using hkey⟩
  · intro h
    obtain ⟨row, hrow, hkey⟩ := List.mem_map.mp h
    exact ⟨row, hrow, by simpa using hkey⟩

/-- Under a key that is not there stands nothing yet. -/
theorem held_of_notMem (h : k ∉ table.map Prod.fst) : held start table k = start := by
  have hnone : held? table k = none := by
    rw [← Option.not_isSome_iff_eq_none, held?_isSome]
    exact h
  rw [held, hnone]
  rfl

theorem held_of_mem (hnodup : (table.map Prod.fst).Nodup) {v : V} (h : (k, v) ∈ table) :
    held start table k = v := by
  have hrow : lookup Prod.fst table k = some (k, v) := lookup_of_mem hnodup h
  rw [held, held?, hrow]
  rfl

end

/-! ## Accumulators that begin at one value -/

section

variable (start : V) (key : A → K) (step : A → V → V)

def accumulate (table : List (K × V)) (items : List A) : List (K × V) :=
  gather key (fun a v => step a (v.getD start)) table items

variable {start key step} {table : List (K × V)} {items : List A} {k : K}

@[simp] theorem accumulate_nil : accumulate start key step table [] = table := rfl

theorem held_accumulate_cons {a : A} :
    held start (accumulate start key step table (a :: items)) k =
      held start (accumulate start key step
        (gatherOne key (fun a v => step a (v.getD start)) table a) items) k := rfl

theorem held_gatherOne {a : A} :
    held start (gatherOne key (fun a v => step a (v.getD start)) table a) k =
      if key a = k then step a (held start table k) else held start table k := by
  unfold held
  rw [held?_gatherOne]
  by_cases h : key a = k
  · rw [if_pos h, if_pos h]
    rfl
  · rw [if_neg h, if_neg h]

theorem mem_keys_accumulate :
    k ∈ (accumulate start key step table items).map Prod.fst ↔
      k ∈ table.map Prod.fst ∨ k ∈ items.map key :=
  mem_keys_gather

end

/-! ## Sums -/

section

variable {start : V} {key : A → K} {step : A → V → V} {table : List (K × V)} {items : List A}
  {k : K}

/-- What the items of a key add up to -/
def sumAt (key : A → K) (delta : A → ℤ) (items : List A) (k : K) : ℤ :=
  (items.map fun a => if key a = k then delta a else 0).sum

section

variable {delta : A → ℤ}

@[simp] theorem sumAt_nil : sumAt key delta [] k = 0 := rfl

theorem sumAt_cons {a : A} :
    sumAt key delta (a :: items) k =
      (if key a = k then delta a else 0) + sumAt key delta items k := by
  rw [sumAt, List.map_cons, List.sum_cons]
  rfl

theorem sumAt_append {items' : List A} :
    sumAt key delta (items ++ items') k = sumAt key delta items k + sumAt key delta items' k := by
  simp [sumAt]

theorem sumAt_perm {items' : List A} (h : items.Perm items') :
    sumAt key delta items k = sumAt key delta items' k :=
  (h.map _).sum_eq

theorem sumAt_map {B : Type*} {bs : List B} {f : B → A} :
    sumAt key delta (bs.map f) k = sumAt (fun b => key (f b)) (fun b => delta (f b)) bs k := by
  rw [sumAt, List.map_map]
  rfl

theorem sumAt_flatMap {B : Type*} {bs : List B} {f : B → List A} :
    sumAt key delta (bs.flatMap f) k = (bs.map fun b => sumAt key delta (f b) k).sum := by
  induction bs with
  | nil => rfl
  | cons b bs ih => rw [List.flatMap_cons, sumAt_append, ih, List.map_cons, List.sum_cons]

theorem sumAt_eq_zero (h : ∀ a ∈ items, key a ≠ k) : sumAt key delta items k = 0 := by
  refine List.sum_eq_zero fun x hx => ?_
  obtain ⟨a, ha, rfl⟩ := List.mem_map.mp hx
  exact if_neg (h a ha)

theorem sumAt_congr {K' : Type*} [DecidableEq K'] {key' : A → K'} {k' : K'}
    (h : ∀ a ∈ items, key a = k ↔ key' a = k') :
    sumAt key delta items k = sumAt key' delta items k' := by
  refine congrArg List.sum (List.map_congr_left fun a ha => ?_)
  by_cases hkey : key a = k
  · rw [if_pos hkey, if_pos ((h a ha).mp hkey)]
  · rw [if_neg hkey, if_neg fun hkey' => hkey ((h a ha).mpr hkey')]

/-- Two ways to key the items of a list differ by the items that one of them alone puts there. -/
theorem sumAt_exchange {key' : A → K} :
    sumAt key delta items k + ((items.filter fun a => key' a = k ∧ key a ≠ k).map delta).sum =
      sumAt key' delta items k +
        ((items.filter fun a => key a = k ∧ key' a ≠ k).map delta).sum := by
  induction items with
  | nil => rfl
  | cons a items ih =>
      rw [sumAt_cons, sumAt_cons, List.filter_cons, List.filter_cons]
      by_cases h : key a = k <;> by_cases h' : key' a = k <;>
        simp only [h, h', ne_eq, not_true_eq_false, not_false_eq_true, and_false, and_true,
          decide_false, decide_true, Bool.false_eq_true, if_true, if_false, List.map_cons,
          List.sum_cons] <;> linarith

/-- What is left out of a sum under other keys does not count. -/
theorem sumAt_filter_of_ne {p : A → Bool} (h : ∀ a ∈ items, p a = false → key a ≠ k) :
    sumAt key delta (items.filter p) k = sumAt key delta items k := by
  induction items with
  | nil => rfl
  | cons a items ih =>
      have htail := ih fun b hb => h b (List.mem_cons_of_mem a hb)
      cases hp : p a with
      | true => rw [List.filter_cons_of_pos hp, sumAt_cons, sumAt_cons, htail]
      | false =>
          rw [List.filter_cons_of_neg (by simp [hp]), sumAt_cons, htail,
            if_neg (h a List.mem_cons_self hp), zero_add]

/-- An accumulator whose reading `φ` goes up by `delta` with each item has summed it up. -/
theorem held_accumulate_sum {φ : V → ℤ} (hstep : ∀ a v, φ (step a v) = φ v + delta a) :
    φ (held start (accumulate start key step table items) k) =
      φ (held start table k) + sumAt key delta items k := by
  induction items generalizing table with
  | nil => exact (add_zero _).symm
  | cons a items ih =>
      rw [held_accumulate_cons, ih, held_gatherOne, sumAt_cons]
      by_cases h : key a = k
      · rw [if_pos h, if_pos h, hstep, add_assoc]
      · rw [if_neg h, if_neg h, zero_add]

/-- A running total has summed up the items of its key. -/
theorem held_accumulate_add {table : List (K × ℤ)} :
    held 0 (accumulate 0 key (fun a total => total + delta a) table items) k =
      held 0 table k + sumAt key delta items k :=
  held_accumulate_sum (φ := fun total => total) fun _ _ => rfl

end

/-! ## Parts of a list -/

/-- Items that are in one of two parts, and never in both, add up to what the parts add up to. -/
theorem sum_map_filter_add {f : A → ℤ} {p q : A → Bool}
    (h : ∀ a ∈ items, ¬ (p a = true ∧ q a = true)) :
    ((items.filter p).map f).sum + ((items.filter q).map f).sum =
      ((items.filter fun a => p a || q a).map f).sum := by
  induction items with
  | nil => rfl
  | cons a items ih =>
      have htail := ih fun b hb => h b (List.mem_cons_of_mem a hb)
      have hhead := h a List.mem_cons_self
      cases hp : p a with
      | true =>
          have hq : q a = false := by simpa [hp] using hhead
          rw [List.filter_cons_of_pos hp, List.filter_cons_of_neg (by simp [hq]),
            List.filter_cons_of_pos (by simp [hp]), List.map_cons, List.map_cons, List.sum_cons,
            List.sum_cons, ← htail, add_assoc]
      | false =>
          cases hq : q a with
          | true =>
              rw [List.filter_cons_of_neg (by simp [hp]), List.filter_cons_of_pos hq,
                List.filter_cons_of_pos (by simp [hq]), List.map_cons, List.map_cons,
                List.sum_cons, List.sum_cons, ← htail]
              ring
          | false =>
              rw [List.filter_cons_of_neg (by simp [hp]), List.filter_cons_of_neg (by simp [hq]),
                List.filter_cons_of_neg (by simp [hp, hq]), htail]

theorem sumAt_filter_add {delta : A → ℤ} {p q : A → Bool}
    (h : ∀ a ∈ items, ¬ (p a = true ∧ q a = true)) :
    sumAt key delta (items.filter p) k + sumAt key delta (items.filter q) k =
      sumAt key delta (items.filter fun a => p a || q a) k :=
  sum_map_filter_add h

theorem nodup_eraseDups [BEq A] [LawfulBEq A] (items : List A) : items.eraseDups.Nodup := by
  induction hn : items.length using Nat.strong_induction_on generalizing items with
  | _ n ih =>
      cases items with
      | nil => exact List.nodup_nil
      | cons a items =>
          rw [List.eraseDups_cons]
          have hlt : (items.filter fun b => !b == a).length < n := by
            rw [← hn]
            exact Nat.lt_succ_of_le (List.length_filter_le _ _)
          refine List.nodup_cons.mpr ⟨fun h => ?_, ih _ hlt _ rfl⟩
          rw [List.mem_eraseDups, List.mem_filter] at h
          simpa using h.2

end

/-! ## Labelled accumulators -/

section

variable {L : Type*} {key : A → K} {step : A → Option V → V} {items : List A} {k : K}
  {label : V → L} {labelOf : A → L}

/-- The first item that shares the key of `a` -/
def firstLike (key : A → K) (items : List A) (a : A) : A :=
  (items.find? fun b => key b = key a).getD a

theorem firstLike_append {b : A} {items' : List A} (h : b ∈ items) :
    firstLike key (items ++ items') b = firstLike key items b := by
  unfold firstLike
  have hsome : (items.find? fun c => key c = key b).isSome :=
    List.find?_isSome.mpr ⟨b, h, by simp⟩
  obtain ⟨c, hc⟩ := Option.isSome_iff_exists.mp hsome
  rw [List.find?_append, hc]
  rfl

/-- An accumulator bears the label of the first item of its key. -/
theorem label_gather (hnew : ∀ a, label (step a none) = labelOf a)
    (hkeep : ∀ a v, label (step a (some v)) = label v) {v : V}
    (h : held? (gather key step [] items) k = some v) :
    ∃ b, (items.find? fun a => key a = k) = some b ∧ label v = labelOf b := by
  rw [held?_gather, ← List.head?_filter] at *
  cases hitems : items.filter fun a => key a = k with
  | nil =>
      rw [hitems] at h
      cases h
  | cons b rest =>
      rw [hitems, List.foldl_cons] at h
      refine ⟨b, rfl, ?_⟩
      -- later items keep the label
      have hrest : ∀ (rest : List A) (w v : V),
          rest.foldl (fun v a => some (step a v)) (some w) = some v → label v = label w := by
        intro rest
        induction rest with
        | nil =>
            intro w v hv
            rw [← Option.some.inj hv]
        | cons a rest ih =>
            intro w v hv
            exact (ih _ v hv).trans (hkeep a w)
      exact (hrest rest _ v h).trans (hnew b)

theorem sum_upsert {f : K × V → ℤ} {row : K × V} {rows : List (K × V)} :
    ((upsert Prod.fst row rows).map f).sum =
      (rows.map f).sum - ((held? rows row.1).map fun v => f (row.1, v)).getD 0 + f row := by
  induction rows with
  | nil => simp [upsert, held?, lookup]
  | cons first rows ih =>
      unfold held? lookup at ih ⊢
      rw [upsert]
      by_cases h : first.1 = row.1
      · rw [if_pos h, List.find?_cons_of_pos (by simpa using h)]
        have hfirst : (row.1, first.2) = first := Prod.ext h.symm rfl
        simp only [List.map_cons, List.sum_cons, Option.map_some, Option.getD_some, hfirst]
        ring
      · rw [if_neg h, List.find?_cons_of_neg (by simpa using h)]
        simp only [List.map_cons, List.sum_cons, ih]
        ring

/-- The accumulators that bear a label hold what the items add up to whose key was first met with
an item of that label. -/
theorem sumAt_gather [DecidableEq L] {measure : V → ℤ} {delta : A → ℤ}
    (hnew : ∀ a, label (step a none) = labelOf a)
    (hkeep : ∀ a v, label (step a (some v)) = label v)
    (hmeasure : ∀ a v, measure (step a v) = (v.map measure).getD 0 + delta a)
    (items : List A) (t : L) :
    sumAt (fun row : K × V => label row.2) (fun row => measure row.2) (gather key step [] items) t =
      sumAt (fun a => labelOf (firstLike key items a)) delta items t := by
  induction items using List.reverseRecOn with
  | nil => rfl
  | append_singleton items a ih =>
      rw [gather_append, sumAt_append]
      have hearlier : sumAt (fun b => labelOf (firstLike key (items ++ [a]) b)) delta items t =
          sumAt (fun b => labelOf (firstLike key items b)) delta items t :=
        sumAt_congr fun b hb => by rw [firstLike_append hb]
      rw [hearlier, ← ih]
      show sumAt _ _ (gatherOne key step (gather key step [] items) a) t = _
      generalize htable : gather key step [] items = table
      unfold sumAt
      rw [gatherOne, sum_upsert]
      dsimp only
      cases hheld : held? table (key a) with
      | some v =>
          obtain ⟨b, hfind, hlabel⟩ := label_gather hnew hkeep (htable ▸ hheld)
          have hfirst : firstLike key (items ++ [a]) a = b := by
            rw [firstLike, List.find?_append, hfind]
            rfl
          simp only [Option.map_some, Option.getD_some, hkeep, hmeasure, List.map_cons,
            List.map_nil, List.sum_cons, List.sum_nil, hfirst, hlabel]
          split <;> ring
      | none =>
          have hfind : (items.find? fun b => key b = key a) = none := by
            rw [List.find?_eq_none]
            intro b hb hkey
            have hmem : key a ∈ table.map Prod.fst := by
              rw [← htable]
              exact mem_keys_gather.mpr (Or.inr (List.mem_map.mpr ⟨b, hb, by simpa using hkey⟩))
            rw [← held?_isSome, hheld] at hmem
            cases hmem
          have hfirst : firstLike key (items ++ [a]) a = a := by
            rw [firstLike, List.find?_append, hfind]
            simp
          simp only [Option.map_none, Option.getD_none, hnew, hmeasure, List.map_cons, List.map_nil,
            List.sum_cons, List.sum_nil, hfirst]
          split <;> ring

end

end

end StellarAgent.Lib
