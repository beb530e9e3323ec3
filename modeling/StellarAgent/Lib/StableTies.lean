import StellarAgent.Lib.StableSort

set_option autoImplicit false

/-! # Ties in stable sorts

A stable sort leaves equivalent elements in the order of its input. Where the input is sorted by a
second order, the result is sorted by both (`pairwise_insertionSort_stable`), so it is the same for
all inputs if no two elements are equivalent under both. The first element of a sorted list is a
least one of its elements and the last is a greatest one, and each such element comes first, or
last, for some order of the input.
-/

namespace StellarAgent.Lib

section

variable {A : Type*} {r q : A → A → Prop} [DecidableRel r]

/-! ## Two orders -/

/-- **Stability**: what is sorted by `q`, and then by `r`, is sorted by `r`, and by `q` where `r` has
ties. -/
theorem pairwise_insertionSort_stable [Std.Total r] [IsTrans A r] {l : List A}
    (h : l.Pairwise q) : (l.insertionSort r).Pairwise fun a b => r a b ∧ (r b a → q a b) := by
  induction h with
  | nil => exact List.Pairwise.nil
  | @cons x l hx _ ih =>
      rw [List.insertionSort_cons]
      have hq : ∀ b ∈ l.insertionSort r, q x b :=
        fun b hb => hx b ((List.mem_insertionSort r).mp hb)
      have hsorted := List.pairwise_insertionSort r l
      generalize l.insertionSort r = sorted at ih hq hsorted
      induction sorted with
      | nil => exact List.pairwise_singleton _ x
      | cons y sorted ihsorted =>
          obtain ⟨hy, hrest⟩ := List.pairwise_cons.mp ih
          obtain ⟨hyr, hrestr⟩ := List.pairwise_cons.mp hsorted
          by_cases hxy : r x y
          · rw [List.orderedInsert_cons_of_le r sorted hxy]
            refine List.pairwise_cons.mpr ⟨fun b hb => ⟨?_, fun _ => hq b hb⟩, ih⟩
            rcases List.mem_cons.mp hb with rfl | hb
            · exact hxy
            · exact IsTrans.trans x y b hxy (hyr b hb)
          · rw [List.orderedInsert_of_not_le r sorted hxy]
            refine List.pairwise_cons.mpr ⟨fun b hb => ?_,
              ihsorted hrest (fun b hb => hq b (List.mem_cons_of_mem y hb)) hrestr⟩
            rcases List.mem_cons.mp ((List.perm_orderedInsert r x sorted).subset hb) with rfl | hb
            · exact ⟨(Std.Total.total b y).resolve_left hxy, fun hxy' => absurd hxy' hxy⟩
            · exact hy b hb

/-- Lists with the same elements that are sorted by `q` are sorted alike by `r`, if no two elements
are equivalent under both. -/
theorem insertionSort_eq_of_ties [Std.Total r] [IsTrans A r] {l l' : List A} (hperm : l.Perm l')
    (h : l.Pairwise q) (h' : l'.Pairwise q)
    (hanti : ∀ a ∈ l, ∀ b ∈ l, r a b → r b a → q a b → q b a → a = b) :
    l.insertionSort r = l'.insertionSort r := by
  have hsorted : (l.insertionSort r).Perm (l'.insertionSort r) :=
    (List.perm_insertionSort r l).trans (hperm.trans (List.perm_insertionSort r l').symm)
  refine hsorted.eq_of_pairwise (fun a b ha hb hab hba => ?_) (pairwise_insertionSort_stable h)
    (pairwise_insertionSort_stable h')
  exact hanti a ((List.mem_insertionSort r).mp ha) b
    (hperm.mem_iff.mpr ((List.mem_insertionSort r).mp hb)) hab.1 hba.1 (hab.2 hba.1) (hba.2 hab.1)

omit [DecidableRel r] in
/-- In a list of distinct elements two of them stand in one order only. -/
theorem not_pair_sublist_swap {l : List A} (h : l.Nodup) {a b : A} (hab : [a, b].Sublist l) :
    ¬ [b, a].Sublist l := by
  intro hba
  induction l with
  | nil => cases hab
  | cons c l ih =>
      obtain ⟨hc, hl⟩ := List.nodup_cons.mp h
      cases hab with
      | cons _ hab =>
          cases hba with
          | cons _ hba => exact ih hl hab hba
          | cons_cons _ _ => exact hc (hab.subset (by simp))
      | cons_cons _ hb =>
          have hmem : b ∈ l := List.singleton_sublist.mp hb
          cases hba with
          | cons _ hba => exact hc (hba.subset (by simp))
          | cons_cons _ _ => exact hc hmem

omit [DecidableRel r] in
/-- Two elements of a list come first in some order of it. -/
theorem exists_perm_pair {l : List A} {a b : A} (ha : a ∈ l) (hb : b ∈ l) (hne : a ≠ b) :
    ∃ rest, l.Perm (a :: b :: rest) := by
  obtain ⟨first, second, rfl⟩ := List.append_of_mem ha
  have hmem : b ∈ first ++ second := by
    rcases List.mem_append.mp hb with hb | hb
    · exact List.mem_append_left second hb
    · exact List.mem_append_right first ((List.mem_cons.mp hb).resolve_left (Ne.symm hne))
  obtain ⟨third, fourth, hsplit⟩ := List.append_of_mem hmem
  refine ⟨third ++ fourth, List.perm_middle.trans (List.Perm.cons a ?_)⟩
  rw [hsplit]
  exact List.perm_middle

/-- Two equivalent elements that stand in the one order in one list and in the other order in a
second one do so in the sorted lists as well, which therefore differ. -/
theorem insertionSort_ne_of_swap [Std.Total r] [IsTrans A r] {l l' : List A} {a b : A}
    (hnodup : l.Nodup) (hab : r a b) (hba : r b a) (h : [a, b].Sublist l)
    (h' : [b, a].Sublist l') : l.insertionSort r ≠ l'.insertionSort r := by
  intro heq
  have hfirst := List.pair_sublist_insertionSort hab h
  have hsecond := List.pair_sublist_insertionSort hba h'
  rw [← heq] at hsecond
  exact not_pair_sublist_swap ((List.perm_insertionSort r l).nodup_iff.mpr hnodup) hfirst hsecond

/-! ## First and last -/

theorem insertionSort_cons_of_least {a : A} {l : List A} (h : ∀ b ∈ l, r a b) :
    (a :: l).insertionSort r = a :: l.insertionSort r := by
  rw [List.insertionSort_cons]
  cases hsorted : l.insertionSort r with
  | nil => rfl
  | cons b rest =>
      have hb : b ∈ l := (List.mem_insertionSort r).mp (hsorted ▸ List.mem_cons_self)
      exact List.orderedInsert_cons_of_le r rest (h b hb)

theorem insertionSort_concat_of_greatest {a : A} {l : List A} (h : ∀ b ∈ l, r b a) :
    (l ++ [a]).insertionSort r = l.insertionSort r ++ [a] := by
  induction l with
  | nil => rfl
  | cons b l ih =>
      rw [List.cons_append, List.insertionSort_cons, List.insertionSort_cons,
        ih fun c hc => h c (List.mem_cons_of_mem b hc)]
      have hba := h b List.mem_cons_self
      generalize l.insertionSort r = sorted
      induction sorted with
      | nil => exact List.orderedInsert_cons_of_le r [] hba
      | cons c sorted ihsorted =>
          by_cases hbc : r b c
          · rw [List.cons_append, List.orderedInsert_cons_of_le r _ hbc,
              List.orderedInsert_cons_of_le r _ hbc]
            rfl
          · rw [List.cons_append, List.orderedInsert_of_not_le r _ hbc,
              List.orderedInsert_of_not_le r _ hbc, ihsorted]
            rfl

/-- The first of a sorted list is a least element. -/
theorem least_of_head? [Std.Total r] [IsTrans A r] {a : A} {l : List A}
    (h : (l.insertionSort r).head? = some a) : a ∈ l ∧ ∀ b ∈ l, r a b := by
  have hsorted := List.pairwise_insertionSort r l
  obtain ⟨rest, hrest⟩ := List.head?_eq_some_iff.mp h
  rw [hrest] at hsorted
  have hmem : ∀ b, b ∈ l ↔ b ∈ a :: rest := fun b => hrest ▸ (List.mem_insertionSort r).symm
  refine ⟨(hmem a).mpr List.mem_cons_self, fun b hb => ?_⟩
  rcases List.mem_cons.mp ((hmem b).mp hb) with rfl | hb
  · exact (Std.Total.total b b).elim id id
  · exact (List.pairwise_cons.mp hsorted).1 b hb

/-- The last of a sorted list is a greatest element. -/
theorem greatest_of_getLast? [Std.Total r] [IsTrans A r] {a : A} {l : List A}
    (h : (l.insertionSort r).getLast? = some a) : a ∈ l ∧ ∀ b ∈ l, r b a := by
  have hsorted := List.pairwise_insertionSort r l
  obtain ⟨rest, hrest⟩ := List.getLast?_eq_some_iff.mp h
  rw [hrest] at hsorted
  have hmem : ∀ b, b ∈ l ↔ b ∈ rest ++ [a] := fun b => hrest ▸ (List.mem_insertionSort r).symm
  refine ⟨(hmem a).mpr (by simp), fun b hb => ?_⟩
  rcases List.mem_append.mp ((hmem b).mp hb) with hb | hb
  · exact (List.pairwise_append.mp hsorted).2.2 b hb a (by simp)
  · rw [List.mem_singleton.mp hb]
    exact (Std.Total.total a a).elim id id

omit [DecidableRel r] in
/-- In a sorted list, what holds of an element if it holds of a later one holds of the first ones. -/
theorem takeWhile_eq_filter {p : A → Bool} {l : List A} (h : l.Pairwise r)
    (hp : ∀ a b, r a b → p b = true → p a = true) : l.takeWhile p = l.filter p := by
  induction h with
  | nil => rfl
  | @cons a l ha _ ih =>
      by_cases hpa : p a = true
      · rw [List.takeWhile_cons_of_pos hpa, List.filter_cons_of_pos hpa, ih]
      · rw [List.takeWhile_cons_of_neg hpa, List.filter_cons_of_neg hpa]
        refine (List.filter_eq_nil_iff.mpr fun b hb hpb => hpa ?_).symm
        exact hp a b (ha b hb) hpb

end

end StellarAgent.Lib
