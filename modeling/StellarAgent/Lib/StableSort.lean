import Mathlib.Data.List.Sort
import Mathlib.Tactic

set_option autoImplicit false

/-! # Stable sorting

`List.insertionSort` by an order in which elements may be equivalent keeps equivalent elements in
the order they had. So what it makes of a part of a list is that part of what it makes of the list
(`filter_insertionSort`), and a list that is sorted by a coarser key first is known from its parts
with equal key (`insertionSort_eq_of_groups`). Two orders that agree on the elements of a list sort it
alike (`insertionSort_congr`).
-/

namespace StellarAgent.Lib

/-! ## Orders that agree -/

section

variable {A : Type} {r s : A → A → Prop} [DecidableRel r] [DecidableRel s]

theorem orderedInsert_congr {a : A} {l : List A} (h : ∀ b ∈ l, r a b ↔ s a b) :
    l.orderedInsert r a = l.orderedInsert s a := by
  induction l with
  | nil => rfl
  | cons b l ih =>
      have hhead : r a b ↔ s a b := h b List.mem_cons_self
      have htail := ih fun c hc => h c (List.mem_cons_of_mem b hc)
      by_cases hr : r a b
      · rw [List.orderedInsert_cons, List.orderedInsert_cons, if_pos hr, if_pos (hhead.mp hr)]
      · rw [List.orderedInsert_cons, List.orderedInsert_cons, if_neg hr,
          if_neg (fun hs => hr (hhead.mpr hs)), htail]

/-- Orders that agree on an element and those after it sort a list alike. -/
theorem insertionSort_congr {l : List A} (h : l.Pairwise fun a b => r a b ↔ s a b) :
    l.insertionSort r = l.insertionSort s := by
  induction h with
  | nil => rfl
  | cons hhead _ ih =>
      rw [List.insertionSort_cons, List.insertionSort_cons, ih]
      exact orderedInsert_congr fun b hb => hhead b (List.mem_insertionSort s |>.mp hb)

end

/-! ## Parts of a list -/

section

variable {A B : Type*} {r : A → A → Prop} [DecidableRel r]

theorem filter_orderedInsert [IsTrans A r] (p : A → Bool) (a : A) {l : List A}
    (h : l.Pairwise r) :
    (l.orderedInsert r a).filter p =
      if p a then (l.filter p).orderedInsert r a else l.filter p := by
  induction h with
  | nil => by_cases hp : p a = true <;> simp [hp]
  | @cons b l hb _ ih =>
      by_cases hab : r a b
      · rw [List.orderedInsert_cons_of_le r l hab]
        by_cases hp : p a = true
        · rw [List.filter_cons_of_pos hp, if_pos hp]
          -- what is left of the list is above `a` as well
          by_cases hpb : p b = true
          · rw [List.filter_cons_of_pos hpb, List.orderedInsert_cons_of_le r _ hab]
          · rw [List.filter_cons_of_neg hpb]
            cases hrest : l.filter p with
            | nil => rfl
            | cons c rest =>
                have hc : c ∈ l := List.mem_of_mem_filter (hrest ▸ List.mem_cons_self)
                rw [List.orderedInsert_cons_of_le r _ (IsTrans.trans a b c hab (hb c hc))]
        · rw [List.filter_cons_of_neg hp, if_neg hp]
      · rw [List.orderedInsert_of_not_le r l hab]
        by_cases hpb : p b = true
        · rw [List.filter_cons_of_pos hpb, List.filter_cons_of_pos hpb, ih]
          by_cases hp : p a = true
          · rw [if_pos hp, if_pos hp, List.orderedInsert_of_not_le r _ hab]
          · rw [if_neg hp, if_neg hp]
        · rw [List.filter_cons_of_neg hpb, List.filter_cons_of_neg hpb, ih]

/-- Sorting a part of a list gives that part of the sorted list. -/
theorem filter_insertionSort [Std.Total r] [IsTrans A r] (p : A → Bool) (l : List A) :
    (l.insertionSort r).filter p = (l.filter p).insertionSort r := by
  induction l with
  | nil => rfl
  | cons a l ih =>
      rw [List.insertionSort_cons, filter_orderedInsert p a (List.pairwise_insertionSort r l), ih]
      by_cases hp : p a = true
      · rw [if_pos hp, List.filter_cons_of_pos hp, List.insertionSort_cons]
      · rw [if_neg hp, List.filter_cons_of_neg hp]

omit [DecidableRel r] in
/-- Two sorted lists are equal if their parts with equal key are, for a key that the order sorts
by first. -/
theorem eq_of_groups [LinearOrder B] {g : A → B} (hg : ∀ a b, r a b → g a ≤ g b) {l l' : List A}
    (h : l.Pairwise r) (h' : l'.Pairwise r)
    (hgroups : ∀ x, l.filter (fun a => g a = x) = l'.filter fun a => g a = x) : l = l' := by
  induction h generalizing l' with
  | nil =>
      cases l' with
      | nil => rfl
      | cons b l' =>
          have hb := hgroups (g b)
          rw [List.filter_cons_of_pos (by simp)] at hb
          cases hb
  | @cons a l ha hl ih =>
      cases l' with
      | nil =>
          have hb := hgroups (g a)
          rw [List.filter_cons_of_pos (by simp)] at hb
          cases hb
      | cons b l' =>
          have hl' := List.pairwise_cons.mp h'
          have hmem : ∀ c, c ∈ a :: l ↔ c ∈ b :: l' := by
            intro c
            have hc : c ∈ (a :: l).filter (fun a => g a = g c) ↔
                c ∈ (b :: l').filter fun a => g a = g c := by
              rw [hgroups (g c)]
            simpa using hc
          have hab : g a ≤ g b := by
            rcases List.mem_cons.mp ((hmem b).mpr List.mem_cons_self) with heq | hb
            · rw [heq]
            · exact hg a b (ha b hb)
          have hba : g b ≤ g a := by
            rcases List.mem_cons.mp ((hmem a).mp List.mem_cons_self) with heq | ha'
            · rw [heq]
            · exact hg b a (hl'.1 a ha')
          have heq : a = b := by
            have hhead := hgroups (g a)
            rw [List.filter_cons_of_pos (by simp),
              List.filter_cons_of_pos (by simp [le_antisymm hba hab])] at hhead
            exact (List.cons.inj hhead).1
          subst heq
          refine congrArg (a :: ·) (ih hl'.2 fun x => ?_)
          have hx := hgroups x
          by_cases hax : g a = x
          · rw [List.filter_cons_of_pos (by simpa using hax),
              List.filter_cons_of_pos (by simpa using hax)] at hx
            exact (List.cons.inj hx).2
          · rwa [List.filter_cons_of_neg (by simpa using hax),
              List.filter_cons_of_neg (by simpa using hax)] at hx

/-- Lists with equal parts sort alike, if the order sorts by the parts first. -/
theorem insertionSort_eq_of_groups [Std.Total r] [IsTrans A r] [LinearOrder B] {g : A → B}
    (hg : ∀ a b, r a b → g a ≤ g b) {l l' : List A}
    (hgroups : ∀ x, l.filter (fun a => g a = x) = l'.filter fun a => g a = x) :
    l.insertionSort r = l'.insertionSort r := by
  refine eq_of_groups hg (List.pairwise_insertionSort r l) (List.pairwise_insertionSort r l')
    fun x => ?_
  rw [filter_insertionSort, filter_insertionSort, hgroups]

/-- Lists with the same elements sort alike, if no two of them are equivalent. -/
theorem insertionSort_eq_of_perm [Std.Total r] [IsTrans A r] {l l' : List A} (h : l.Perm l')
    (hanti : ∀ a ∈ l, ∀ b ∈ l, r a b → r b a → a = b) :
    l.insertionSort r = l'.insertionSort r := by
  have hperm : (l.insertionSort r).Perm (l'.insertionSort r) :=
    (List.perm_insertionSort r l).trans (h.trans (List.perm_insertionSort r l').symm)
  refine List.Perm.eq_of_pairwise (fun a b ha hb => hanti a ?_ b ?_)
    (List.pairwise_insertionSort r l) (List.pairwise_insertionSort r l') hperm
  · exact (List.mem_insertionSort r).mp ha
  · exact h.mem_iff.mpr ((List.mem_insertionSort r).mp hb)

/-- A list in strict order is what its elements sort to, whatever the order is on others. -/
theorem insertionSort_eq_of_strict {l l' : List A} (h : l.Pairwise fun a b => r a b ∧ ¬ r b a)
    (hperm : l'.Perm l) : l'.insertionSort r = l := by
  induction l' generalizing l with
  | nil =>
      obtain rfl := hperm.nil_eq
      rfl
  | cons x l' ih =>
      obtain ⟨before, after, rfl⟩ := List.append_of_mem (hperm.subset List.mem_cons_self)
      have htail : l'.Perm (before ++ after) :=
        (hperm.trans List.perm_middle).cons_inv
      have hstrict : (before ++ after).Pairwise fun a b => r a b ∧ ¬ r b a :=
        h.sublist ((List.sublist_cons_self x after).append_left before)
      rw [List.insertionSort_cons, ih hstrict htail]
      -- it goes behind what precedes it, and before the rest
      obtain ⟨-, hafter, hcross⟩ := List.pairwise_append.mp h
      have hfirst := (List.pairwise_cons.mp hafter).1
      clear ih htail hstrict hperm h hafter
      induction before with
      | nil =>
          cases after with
          | nil => rfl
          | cons y after => exact if_pos (hfirst y List.mem_cons_self).1
      | cons y before ih =>
          have hy : ¬ r x y := (hcross y List.mem_cons_self x List.mem_cons_self).2
          rw [List.cons_append, List.orderedInsert, if_neg hy,
            ih fun a ha => hcross a (List.mem_cons_of_mem y ha)]
          rfl

end

/-! ## Places -/

/-- In a sorted list of distinct elements the order of the elements is that of their places. -/
theorem pair_sublist_iff {A : Type*} {r : A → A → Prop} [Std.Asymm r] {l : List A}
    (h : l.Pairwise r) {a b : A} (ha : a ∈ l) (hb : b ∈ l) : [a, b].Sublist l ↔ r a b := by
  refine ⟨fun hsub => List.pairwise_pair.mp (List.Pairwise.sublist hsub h), fun hab => ?_⟩
  induction h with
  | nil => cases ha
  | @cons c l hc _ ih =>
      rcases List.mem_cons.mp ha with rfl | hla
      · rcases List.mem_cons.mp hb with rfl | hlb
        · exact absurd hab (Std.Asymm.asymm _ _ hab)
        · exact (List.singleton_sublist.mpr hlb).cons_cons a
      · rcases List.mem_cons.mp hb with rfl | hlb
        · exact absurd hab (Std.Asymm.asymm _ _ (hc a hla))
        · exact (ih hla hlb).cons c

/-- **The place of an element** of a sorted list is the number of those that stand before it. -/
theorem findIdx_sorted {A : Type*} {r : A → A → Prop} [DecidableRel r] {p : A → Bool} {l : List A}
    {a : A} (hsorted : l.Pairwise r) (hmem : a ∈ l) (hp : ∀ b ∈ l, p b = true ↔ b = a)
    (hanti : ∀ b ∈ l, r a b → r b a → b = a) :
    l.findIdx p = l.countP fun b => decide (r b a) && !p b := by
  induction hsorted with
  | nil => cases hmem
  | @cons c l hc _ ih =>
      have hpl : ∀ b ∈ l, p b = true ↔ b = a := fun b hb => hp b (List.mem_cons_of_mem c hb)
      rw [List.findIdx_cons, List.countP_cons]
      by_cases hca : c = a
      · -- nothing behind the element stands before it
        have hpc : p c = true := (hp c List.mem_cons_self).mpr hca
        have hzero : l.countP (fun b => decide (r b a) && !p b) = 0 := by
          refine List.countP_eq_zero.mpr fun b hb hcount => ?_
          rw [Bool.and_eq_true, decide_eq_true_eq, Bool.not_eq_true'] at hcount
          have hba := hanti b (List.mem_cons_of_mem c hb) (hca ▸ hc b hb) hcount.1
          rw [(hpl b hb).mpr hba] at hcount
          exact Bool.noConfusion hcount.2
        simp [hpc, hzero]
      · have hla : a ∈ l := (List.mem_cons.mp hmem).resolve_left (Ne.symm hca)
        have hpc : p c = false := by
          rw [← Bool.not_eq_true, hp c List.mem_cons_self]
          exact hca
        rw [ih hla hpl fun b hb => hanti b (List.mem_cons_of_mem c hb)]
        simp [hpc, hc a hla]

end StellarAgent.Lib
