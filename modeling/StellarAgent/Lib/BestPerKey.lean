import Mathlib.Data.List.MinMax
import StellarAgent.Lib.StableSort
import StellarAgent.Lib.Tables

set_option autoImplicit false

/-! # The best row per key

A table that takes a new row where it holds none with its key or a worse one. What it holds under a
key in the end is the first of the best rows with it (`lookup_keepBestAll`). Cut to the rows with the
`n` smallest keys, it holds the best row of a key exactly if fewer than `n` keys are smaller
(`mem_shortlist_iff`), so two lists of rows with the same keys and the same best rows have one
shortlist (`shortlist_eq_iff`).
-/

namespace StellarAgent.Lib

/-! ## The first of the least -/

section

variable {A Q : Type*} [LinearOrder Q] {f : A → Q} {l m : List A} {a : A}

theorem argmin_append_left (ha : a ∈ l.argmin f) (h : ∀ b ∈ m, f a ≤ f b) :
    a ∈ (l ++ m).argmin f := by
  induction m using List.reverseRecOn with
  | nil => rwa [List.append_nil]
  | append_singleton m b ih =>
      have hrest : (l ++ m).argmin f = some a := ih fun c hc => h c (List.mem_append_left _ hc)
      have hb : f a ≤ f b := h b (by simp)
      rw [← List.append_assoc, List.argmin_concat, hrest]
      show (if f b < f a then some b else some a) = some a
      rw [if_neg (not_lt.mpr hb)]

/-- What is first among the least of two lists is so in one of them. -/
theorem argmin_append (ha : a ∈ (l ++ m).argmin f) : a ∈ l.argmin f ∨ a ∈ m.argmin f := by
  induction m using List.reverseRecOn generalizing a with
  | nil => exact Or.inl (by rwa [List.append_nil] at ha)
  | append_singleton m b ih =>
      rw [← List.append_assoc, List.argmin_concat] at ha
      rw [List.argmin_concat]
      cases hrest : (l ++ m).argmin f with
      | none =>
          rw [hrest] at ha
          have hm : m = [] := (List.append_eq_nil_iff.mp (List.argmin_eq_none.mp hrest)).2
          rw [hm]
          exact Or.inr ha
      | some c =>
          rw [hrest] at ha
          have ha : (if f b < f c then some b else some c) = some a := ha
          split_ifs at ha with hlt
          · refine Or.inr ?_
            cases hm : m.argmin f with
            | none => exact ha
            | some d =>
                have hd : d ∈ l ++ m := List.mem_append_right _ (List.argmin_mem hm)
                have hle : f c ≤ f d := List.le_of_mem_argmin hd hrest
                show (if f b < f d then some b else some d) = some a
                rwa [if_pos (hlt.trans_le hle)]
          · obtain rfl := Option.some.inj ha
            refine (ih hrest).imp_right fun hm => ?_
            have hm : m.argmin f = some c := hm
            rw [hm]
            show (if f b < f c then some b else some c) = some c
            rw [if_neg hlt]

/-- What is first among the least of many lists is so in one of them. -/
theorem argmin_flatten {ls : List (List A)} (ha : a ∈ ls.flatten.argmin f) :
    ∃ l ∈ ls, a ∈ l.argmin f := by
  induction ls with
  | nil => cases ha
  | cons l ls ih =>
      rcases argmin_append ha with h | h
      · exact ⟨l, List.mem_cons_self, h⟩
      · obtain ⟨l', hl', h⟩ := ih h
        exact ⟨l', List.mem_cons_of_mem l hl', h⟩

end

/-! ## Keeping the best -/

section

variable {A K Q : Type*} [DecidableEq K] [LinearOrder Q] (key : A → K) (f : A → Q)

/-- A row is taken if there is none with its key, or a worse one. -/
def keepBest (rows : List A) (row : A) : List A :=
  match lookup key rows (key row) with
  | none => upsert key row rows
  | some previous => if f row < f previous then upsert key row rows else rows

def keepBestAll (rows : List A) : List A := rows.foldl (keepBest key f) []

variable {key f} {rows new : List A} {row : A}

theorem nodup_keepBest (h : (rows.map key).Nodup) : ((keepBest key f rows row).map key).Nodup := by
  unfold keepBest
  split
  · exact nodup_upsert h
  · split_ifs
    · exact nodup_upsert h
    · exact h

theorem nodup_keepBestAll : ((keepBestAll key f new).map key).Nodup := by
  induction new using List.reverseRecOn with
  | nil => exact List.nodup_nil
  | append_singleton new row ih =>
      rw [keepBestAll, List.foldl_append]
      exact nodup_keepBest ih

theorem lookup_keepBest (k : K) :
    lookup key (keepBest key f rows row) k =
      if key row = k then
        (match lookup key rows k with
          | none => some row
          | some previous => if f row < f previous then some row else some previous)
      else lookup key rows k := by
  unfold keepBest
  by_cases hkey : key row = k
  · subst hkey
    rw [if_pos rfl]
    cases hlookup : lookup key rows (key row) with
    | none =>
        dsimp only
        rw [lookup_upsert, if_pos rfl]
    | some previous =>
        dsimp only
        split_ifs
        · rw [lookup_upsert, if_pos rfl]
        · exact hlookup
  · rw [if_neg hkey]
    split
    · rw [lookup_upsert, if_neg hkey]
    · split_ifs
      · rw [lookup_upsert, if_neg hkey]
      · rfl

/-- **Under each key the first of the best rows is kept.** -/
theorem lookup_keepBestAll (k : K) :
    lookup key (keepBestAll key f new) k = (new.filter fun row => key row = k).argmin f := by
  induction new using List.reverseRecOn with
  | nil => rfl
  | append_singleton new row ih =>
      rw [keepBestAll, List.foldl_append, List.foldl_cons, List.foldl_nil, lookup_keepBest,
        List.filter_append]
      by_cases hkey : key row = k
      · rw [if_pos hkey, List.filter_cons_of_pos (by simpa using hkey), List.filter_nil,
          List.argmin_concat]
        rw [keepBestAll] at ih
        rw [ih]
        cases (new.filter fun row => key row = k).argmin f with
        | none => rfl
        | some previous => rfl
      · rw [if_neg hkey, List.filter_cons_of_neg (by simpa using hkey), List.filter_nil,
          List.append_nil]
        exact ih

theorem mem_keepBestAll :
    row ∈ keepBestAll key f new ↔ row ∈ (new.filter fun other => key other = key row).argmin f := by
  rw [← lookup_keepBestAll]
  exact ⟨lookup_of_mem nodup_keepBestAll, fun h => (mem_of_lookup h).1⟩

/-- The keys stay what they were. -/
theorem mem_keys_keepBestAll {k : K} :
    k ∈ (keepBestAll key f new).map key ↔ k ∈ new.map key := by
  constructor
  · intro h
    obtain ⟨row, hrow, rfl⟩ := List.mem_map.mp h
    exact List.mem_map_of_mem (List.mem_of_mem_filter (List.argmin_mem (mem_keepBestAll.mp hrow)))
  · intro h
    obtain ⟨row, hrow, rfl⟩ := List.mem_map.mp h
    cases hbest : (new.filter fun other => key other = key row).argmin f with
    | none =>
        have hmem : row ∈ new.filter fun other => key other = key row := by simp [hrow]
        rw [List.argmin_eq_none.mp hbest] at hmem
        cases hmem
    | some best =>
        have hkey : key best = key row := by simpa using (List.mem_filter.mp
          (List.argmin_mem hbest)).2
        rw [← hkey]
        refine List.mem_map_of_mem (mem_keepBestAll.mpr ?_)
        rwa [hkey]

end

/-! ## The smallest keys -/

section

variable {A B K Q : Type*} [DecidableEq K] [LinearOrder B] [LinearOrder Q]

/-- One of the `n` smallest of some keys, by the order of their places -/
def AmongSmallest (place : K → B) (n : ℕ) (keys : Finset K) (k : K) : Prop :=
  k ∈ keys ∧ (keys.filter fun other => place other < place k).card < n

instance (place : K → B) (n : ℕ) (keys : Finset K) (k : K) :
    Decidable (AmongSmallest place n keys k) := inferInstanceAs (Decidable (_ ∧ _))

omit [DecidableEq K] in
/-- A key that is among the smallest of more keys is so of those it is left with. -/
theorem AmongSmallest.subset {place : K → B} {n : ℕ} {keys keys' : Finset K} {k : K}
    (h : AmongSmallest place n keys k) (hsub : keys' ⊆ keys) (hk : k ∈ keys') :
    AmongSmallest place n keys' k :=
  ⟨hk, (Finset.card_le_card (Finset.filter_subset_filter _ hsub)).trans_lt h.2⟩

/-- The first elements of a strictly sorted list are those with few below them. -/
theorem mem_take_iff {r : A → A → Prop} [DecidableRel r] [Std.Asymm r] {l : List A} {a : A} {n : ℕ}
    (h : l.Pairwise r) (ha : a ∈ l) : a ∈ l.take n ↔ (l.filter fun b => r b a).length < n := by
  induction h generalizing n with
  | nil => cases ha
  | @cons b l hb hl ih =>
      have hirrefl : ¬ r b b := fun hbb => Std.Asymm.asymm b b hbb hbb
      cases n with
      | zero => simp
      | succ n =>
          rw [List.take_succ_cons]
          rcases List.mem_cons.mp ha with rfl | hmem
          · have hnone : l.filter (fun c => r c a) = [] := by
              rw [List.filter_eq_nil_iff]
              intro c hc hca
              exact Std.Asymm.asymm a c (hb c hc) (by simpa using hca)
            simp [hirrefl, hnone]
          · have hba := hb a hmem
            have hne : a ≠ b := fun heq => hirrefl (heq ▸ hba)
            rw [List.mem_cons, or_iff_right hne, ih hmem,
              List.filter_cons_of_pos (by simpa using hba), List.length_cons]
            omega

variable (key : A → K) (f : A → Q) (place : K → B)

/-- The best rows with the `n` smallest keys, in the order of the keys -/
def shortlist (n : ℕ) (rows : List A) : List A :=
  ((keepBestAll key f rows).insertionSort fun a b => place (key a) ≤ place (key b)).take n

variable {key f place} {n : ℕ} {rows rows' : List A} {row : A}

@[simp] theorem shortlist_nil : shortlist key f place n [] = [] := List.take_nil

/-- Sorted by the places of their keys, the best rows stand in strict order. -/
theorem pairwise_sorted (hplace : Function.Injective place) :
    ((keepBestAll key f rows).insertionSort fun a b => place (key a) ≤ place (key b)).Pairwise
      fun a b => place (key a) < place (key b) := by
  have : Std.Total fun a b : A => place (key a) ≤ place (key b) :=
    ⟨fun a b => le_total (place (key a)) (place (key b))⟩
  have : IsTrans A fun a b => place (key a) ≤ place (key b) := ⟨fun _ _ _ => le_trans⟩
  have hsorted := List.pairwise_insertionSort (fun a b : A => place (key a) ≤ place (key b))
    (keepBestAll key f rows)
  have hkeys : ((keepBestAll key f rows).insertionSort
      fun a b => place (key a) ≤ place (key b)).Pairwise fun a b => key a ≠ key b := by
    have hperm := (List.perm_insertionSort (fun a b : A => place (key a) ≤ place (key b))
      (keepBestAll key f rows)).map key
    exact List.pairwise_map.mp (hperm.nodup_iff.mpr nodup_keepBestAll)
  exact (hsorted.and hkeys).imp fun hab => lt_of_le_of_ne hab.1 fun heq => hab.2 (hplace heq)

/-- **A row is on the shortlist if it is the best of its key and its key is among the smallest.** -/
theorem mem_shortlist_iff (hplace : Function.Injective place) :
    row ∈ shortlist key f place n rows ↔
      row ∈ (rows.filter fun other => key other = key row).argmin f ∧
        AmongSmallest place n (rows.map key).toFinset (key row) := by
  have : Std.Asymm fun a b : A => place (key a) < place (key b) := ⟨fun _ _ => lt_asymm⟩
  have hperm := List.perm_insertionSort (fun a b : A => place (key a) ≤ place (key b))
    (keepBestAll key f rows)
  -- the rows below are as many as the keys below
  have hcount : (((keepBestAll key f rows).insertionSort
      fun a b => place (key a) ≤ place (key b)).filter
        fun other => place (key other) < place (key row)).length =
      ((rows.map key).toFinset.filter fun other => place other < place (key row)).card := by
    rw [(hperm.filter _).length_eq]
    have hkeys : ((rows.map key).toFinset.filter fun other => place other < place (key row)) =
        (((keepBestAll key f rows).map key).filter
          fun other => place other < place (key row)).toFinset := by
      ext k
      rw [Finset.mem_filter, List.mem_toFinset, List.mem_toFinset, List.mem_filter,
        mem_keys_keepBestAll, decide_eq_true_iff]
    rw [hkeys, List.toFinset_card_of_nodup (nodup_keepBestAll.filter _), List.filter_map,
      List.length_map]
    rfl
  unfold shortlist
  constructor
  · intro h
    have hmem := List.mem_of_mem_take h
    have hbest := hperm.mem_iff.mp hmem
    rw [mem_take_iff (pairwise_sorted hplace) hmem, hcount] at h
    refine ⟨mem_keepBestAll.mp hbest, ?_, h⟩
    exact List.mem_toFinset.mpr (mem_keys_keepBestAll.mp (List.mem_map_of_mem hbest))
  · rintro ⟨hbest, -, hfew⟩
    have hmem := hperm.mem_iff.mpr (mem_keepBestAll.mpr hbest)
    rw [mem_take_iff (pairwise_sorted hplace) hmem, hcount]
    exact hfew

/-- Shortlists are equal if they have the same rows. -/
theorem shortlist_eq_iff (hplace : Function.Injective place) :
    shortlist key f place n rows = shortlist key f place n rows' ↔
      ∀ row, row ∈ shortlist key f place n rows ↔ row ∈ shortlist key f place n rows' := by
  refine ⟨fun h row => by rw [h], fun h => ?_⟩
  have hpairwise : ∀ rows : List A, (shortlist key f place n rows).Pairwise
      fun a b => place (key a) < place (key b) :=
    fun rows => (pairwise_sorted hplace).sublist (List.take_sublist n _)
  have hnodup : ∀ rows : List A, (shortlist key f place n rows).Nodup :=
    fun rows => (hpairwise rows).imp fun hlt heq => (heq ▸ hlt).ne rfl
  have hperm := (List.perm_ext_iff_of_nodup (hnodup rows) (hnodup rows')).mpr h
  exact List.Perm.eq_of_pairwise (fun a b _ _ hab hba => absurd hba (lt_asymm hab))
    (hpairwise rows) (hpairwise rows') hperm

/-- There is a row for every key that is among the smallest. -/
theorem exists_mem_shortlist {k : K} (hplace : Function.Injective place) :
    (∃ row ∈ shortlist key f place n rows, key row = k) ↔
      AmongSmallest place n (rows.map key).toFinset k := by
  constructor
  · rintro ⟨row, hrow, rfl⟩
    exact ((mem_shortlist_iff hplace).mp hrow).2
  · intro h
    have hkey := mem_keys_keepBestAll (f := f).mpr (List.mem_toFinset.mp h.1)
    obtain ⟨row, hrow, rfl⟩ := List.mem_map.mp hkey
    exact ⟨row, (mem_shortlist_iff hplace).mpr ⟨mem_keepBestAll.mp hrow, h⟩, rfl⟩

/-! ## Rows from several lists -/

variable {ls ls' : List (List A)}

/-- The lists that have a best row with a key agree on it. -/
def AgreeOn (key : A → K) (f : A → Q) (ls : List (List A)) (k : K) : Prop :=
  ∀ l ∈ ls, ∀ l' ∈ ls, ∀ a ∈ (l.filter fun row => key row = k).argmin f,
    ∀ b ∈ (l'.filter fun row => key row = k).argmin f,
      (∀ row ∈ ls.flatten, key row = k → f a ≤ f row) →
      (∀ row ∈ ls.flatten, key row = k → f b ≤ f row) → a = b

/-- The best row of all the lists is a list's own. -/
theorem exists_best {k : K}
    (h : row ∈ (ls.flatten.filter fun other => key other = k).argmin f) :
    (∃ l ∈ ls, row ∈ (l.filter fun other => key other = k).argmin f) ∧
      ∀ other ∈ ls.flatten, key other = k → f row ≤ f other := by
  refine ⟨?_, fun other hother hkey => ?_⟩
  · rw [List.filter_flatten] at h
    obtain ⟨part, hpart, hrow⟩ := argmin_flatten h
    obtain ⟨l, hl, rfl⟩ := List.mem_map.mp hpart
    exact ⟨l, hl, hrow⟩
  · exact List.le_of_mem_argmin (List.mem_filter.mpr ⟨hother, by simpa using hkey⟩) h

theorem keys_perm (h : ls'.Perm ls) :
    (ls'.flatten.map key).toFinset = (ls.flatten.map key).toFinset :=
  List.toFinset_eq_of_perm _ _ (h.flatten.map key)

/-- With a list in front whose best row is the best of all, that row is on the shortlist. -/
theorem mem_shortlist_of_front (hplace : Function.Injective place) {l : List A} {k : K}
    (hl : l ∈ ls) (hrow : row ∈ (l.filter fun other => key other = k).argmin f)
    (hbest : ∀ other ∈ ls.flatten, key other = k → f row ≤ f other)
    (hk : AmongSmallest place n (ls.flatten.map key).toFinset k) :
    ∃ ls' : List (List A), ls'.Perm ls ∧ row ∈ shortlist key f place n ls'.flatten := by
  obtain ⟨front, rest, rfl⟩ := List.append_of_mem hl
  have hperm : (l :: (front ++ rest)).Perm (front ++ l :: rest) := List.perm_middle.symm
  have hkey : key row = k := by simpa using (List.mem_filter.mp (List.argmin_mem hrow)).2
  subst hkey
  refine ⟨_, hperm, (mem_shortlist_iff hplace).mpr ⟨?_, ?_⟩⟩
  · rw [List.flatten_cons, List.filter_append]
    refine argmin_append_left hrow fun other hother => ?_
    obtain ⟨hmem, hsame⟩ := List.mem_filter.mp hother
    refine hbest other (hperm.flatten.mem_iff.mp ?_) (by simpa using hsame)
    rw [List.flatten_cons]
    exact List.mem_append_right _ hmem
  · rwa [keys_perm hperm]

/-- **The order of the lists makes no difference to the shortlist exactly if they agree on the
best row of every key that gets there.** -/
theorem shortlist_perm_iff (hplace : Function.Injective place) :
    (∀ ls' : List (List A), ls'.Perm ls →
        shortlist key f place n ls'.flatten = shortlist key f place n ls.flatten) ↔
      ∀ k, AmongSmallest place n (ls.flatten.map key).toFinset k → AgreeOn key f ls k := by
  constructor
  · intro h k hk l hl l' hl' a ha b hb hbestA hbestB
    obtain ⟨lsA, hpermA, hmemA⟩ := mem_shortlist_of_front hplace hl ha hbestA hk
    obtain ⟨lsB, hpermB, hmemB⟩ := mem_shortlist_of_front hplace hl' hb hbestB hk
    rw [h lsA hpermA, mem_shortlist_iff hplace] at hmemA
    rw [h lsB hpermB, mem_shortlist_iff hplace] at hmemB
    have hkeyA : key a = k := by simpa using (List.mem_filter.mp (List.argmin_mem ha)).2
    have hkeyB : key b = k := by simpa using (List.mem_filter.mp (List.argmin_mem hb)).2
    rw [hkeyA] at hmemA
    rw [hkeyB] at hmemB
    exact Option.mem_unique hmemA.1 hmemB.1
  · intro h ls' hperm
    -- what is best in one order is best in the other
    have hsame : ∀ row ∈ shortlist key f place n ls'.flatten,
        row ∈ shortlist key f place n ls.flatten := by
      intro row hrow
      obtain ⟨hbest, hamong⟩ := (mem_shortlist_iff hplace).mp hrow
      rw [keys_perm hperm] at hamong
      obtain ⟨other, hother, hkey⟩ := (exists_mem_shortlist (f := f) hplace).mpr hamong
      have hotherBest := ((mem_shortlist_iff hplace).mp hother).1
      rw [hkey] at hotherBest
      obtain ⟨⟨l, hl, hmem⟩, hleast⟩ := exists_best hbest
      obtain ⟨⟨l', hl', hmem'⟩, hleast'⟩ := exists_best hotherBest
      have heq : row = other := h _ hamong l (hperm.mem_iff.mp hl) l' hl' row hmem other hmem'
        (fun c hc => hleast c (hperm.flatten.mem_iff.mpr hc)) hleast'
      rw [heq]
      exact hother
    refine (shortlist_eq_iff hplace).mpr fun row => ⟨hsame row, fun hrow => ?_⟩
    obtain ⟨hbest, hamong⟩ := (mem_shortlist_iff hplace).mp hrow
    rw [← keys_perm hperm] at hamong
    obtain ⟨other, hother, hkey⟩ := (exists_mem_shortlist (f := f) hplace).mpr hamong
    have hotherBest := ((mem_shortlist_iff hplace).mp (hsame other hother)).1
    rw [hkey] at hotherBest
    rw [Option.mem_unique hbest hotherBest]
    exact hother

end

end StellarAgent.Lib
