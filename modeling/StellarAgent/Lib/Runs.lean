import Mathlib.Tactic

set_option autoImplicit false

/-! # Runs of a labelled step relation, with their history

A program is given by a relation `step : σ → α → σ → Prop`: in state `s` the action `a` may
lead to state `s'`. A *run* is a list of transitions that chain, oldest first, so a statement
about a run can speak of what happened in it and in which order, not only of where it ends.

* `Run.invariant` is the induction rule for a fact about states, `Run.history` the one for a
  fact that relates the state reached to the whole history.
* `Run.append` and `Run.split` cut a run at any point; `Run.of_mem` finds the two runs around
  a given transition.
* `Run.simulate` turns a step-by-step simulation into one of whole runs; `Run.project` is for a
  part of the state that not every step concerns.
* `tally f tr` sums a quantity over the history.
* `Once event tr`: the history holds exactly one `event`; `Run.once` finds it where a final state is
  entered.
* `Since starts holds tr`: something was started in the history and has held from then on.
* `play` executes a list of actions of a deterministic program, and `walk` one of a program whose
  actions are not always possible.
-/

namespace StellarAgent.Lib

/-- One step of a run: the state before, the action, and the state after. -/
structure Transition (σ α : Type*) where
  pre : σ
  act : α
  post : σ

section

variable {σ α : Type*}

/-- `Run step s tr t`: the transitions `tr`, oldest first, lead from `s` to `t`. -/
inductive Run (step : σ → α → σ → Prop) : σ → List (Transition σ α) → σ → Prop
  | nil (s : σ) : Run step s [] s
  | snoc {s t u : σ} {a : α} {tr : List (Transition σ α)} :
      Run step s tr t → step t a u → Run step s (tr ++ [⟨t, a, u⟩]) u

variable {step : σ → α → σ → Prop} {s t u : σ} {tr tr' : List (Transition σ α)}

/-- **The history rule.** A relation between the history and the state that holds at the
start and survives every step holds at the end of every run. -/
theorem Run.history {P : List (Transition σ α) → σ → Prop} (h : Run step s tr t)
    (h0 : P [] s)
    (hstep : ∀ tr m a m', Run step s tr m → P tr m → step m a m' → P (tr ++ [⟨m, a, m'⟩]) m') :
    P tr t := by
  induction h with
  | nil => exact h0
  | snoc hr hst ih => exact hstep _ _ _ _ hr ih hst

/-- **The invariant rule.** -/
theorem Run.invariant {I : σ → Prop} (h : Run step s tr t) (h0 : I s)
    (hstep : ∀ m a m', I m → step m a m' → I m') : I t :=
  h.history (P := fun _ m => I m) h0 (fun _ m a m' _ hI hst => hstep m a m' hI hst)

/-- **The history rule, step by step.** In the induction step the history is cut at the step:
`xs` lies before it and `ys` after it. -/
theorem Run.history_at {P : List (Transition σ α) → σ → Prop} (h : Run step s tr t)
    (h0 : P [] s)
    (hstep : ∀ xs m a m' ys, tr = xs ++ ⟨m, a, m'⟩ :: ys → Run step s xs m → P xs m →
      step m a m' → P (xs ++ [⟨m, a, m'⟩]) m') : P tr t := by
  suffices hall : ∀ rest, tr = tr ++ rest → P tr t from hall [] (List.append_nil tr).symm
  refine h.history (P := fun xs m => ∀ rest, tr = xs ++ rest → P xs m) (fun _ _ => h0) ?_
  intro xs m a m' hrun hP hst rest hsplit
  have hcut : tr = xs ++ ⟨m, a, m'⟩ :: rest := by
    rw [hsplit, List.append_assoc, List.singleton_append]
  exact hstep xs m a m' rest hcut hrun (hP _ hcut) hst

/-- The history rule for runs all of whose transitions meet a condition. -/
theorem Run.history_of {C : Transition σ α → Prop} {P : List (Transition σ α) → σ → Prop}
    (h : Run step s tr t) (hC : ∀ x ∈ tr, C x) (h0 : P [] s)
    (hstep : ∀ xs m a m', Run step s xs m → P xs m → step m a m' → C ⟨m, a, m'⟩ →
      P (xs ++ [⟨m, a, m'⟩]) m') : P tr t := by
  refine h.history_at h0 (fun xs m a m' ys hsplit hrun hP hst => ?_)
  have hmem : ⟨m, a, m'⟩ ∈ tr := by
    rw [hsplit]
    exact List.mem_append_right xs List.mem_cons_self
  exact hstep xs m a m' hrun hP hst (hC _ hmem)

/-- **The safety rule.** If every step from a state with `I` that meets `C` keeps `I` and is
safe, a run whose transitions meet `C` is safe throughout. -/
theorem Run.safety {I : σ → Prop} {C Q : Transition σ α → Prop} (h : Run step s tr t)
    (hC : ∀ x ∈ tr, C x) (h0 : I s)
    (hstep : ∀ m a m', I m → step m a m' → C ⟨m, a, m'⟩ → I m' ∧ Q ⟨m, a, m'⟩) :
    I t ∧ ∀ x ∈ tr, Q x := by
  refine h.history_of (P := fun tr m => I m ∧ ∀ x ∈ tr, Q x) hC ⟨h0, by simp⟩ ?_
  intro xs m a m' _ hP hst hmeets
  obtain ⟨hI, hQ⟩ := hstep m a m' hP.1 hst hmeets
  rw [List.forall_mem_append, List.forall_mem_singleton]
  exact ⟨hI, hP.2, hQ⟩

theorem Run.append (h : Run step s tr t) (h' : Run step t tr' u) :
    Run step s (tr ++ tr') u := by
  induction h' with
  | nil => simpa using h
  | snoc _ hst ih => rw [← List.append_assoc]; exact Run.snoc ih hst

theorem Run.single {a : α} (h : step s a t) : Run step s [⟨s, a, t⟩] t := by
  show Run step s ([] ++ [⟨s, a, t⟩]) t
  exact Run.snoc (Run.nil s) h

theorem Run.nil_inv (h : Run step s [] t) : s = t := by
  generalize htr : ([] : List (Transition σ α)) = tr at h
  cases h with
  | nil => rfl
  | snoc _ _ => simp at htr

theorem Run.snoc_inv {x : Transition σ α} (h : Run step s (tr ++ [x]) t) :
    Run step s tr x.pre ∧ step x.pre x.act x.post ∧ x.post = t := by
  generalize htr : tr ++ [x] = tr' at h
  cases h with
  | nil => simp at htr
  | snoc hr hst =>
      obtain ⟨rfl, hx⟩ := List.append_inj' htr rfl
      obtain rfl := List.singleton_inj.mp hx
      exact ⟨hr, hst, rfl⟩

/-- A run can be cut at any point of its history. -/
theorem Run.split {xs ys : List (Transition σ α)} (h : Run step s (xs ++ ys) t) :
    ∃ m, Run step s xs m ∧ Run step m ys t := by
  -- induction on the second part from its end, where runs grow
  induction ys using List.reverseRecOn generalizing t with
  | nil => exact ⟨t, by simpa using h, Run.nil t⟩
  | append_singleton zs z ih =>
      rw [← List.append_assoc] at h
      obtain ⟨hr, hst, rfl⟩ := h.snoc_inv
      obtain ⟨m, h1, h2⟩ := ih hr
      exact ⟨m, h1, Run.snoc h2 hst⟩

theorem Run.cons_inv {x : Transition σ α} (h : Run step s (x :: tr) t) :
    x.pre = s ∧ step s x.act x.post ∧ Run step x.post tr t := by
  have hcut : Run step s ([] ++ [x] ++ tr) t := h
  obtain ⟨m, h1, h2⟩ := Run.split hcut
  obtain ⟨hr, hst, rfl⟩ := Run.snoc_inv h1
  obtain rfl := hr.nil_inv
  exact ⟨rfl, hst, h2⟩

/-- The run up to a given transition, the step itself, and the run after it. -/
theorem Run.around {x : Transition σ α} {xs ys : List (Transition σ α)}
    (h : Run step s (xs ++ x :: ys) t) :
    Run step s xs x.pre ∧ step x.pre x.act x.post ∧ Run step x.post ys t := by
  obtain ⟨m, h1, h2⟩ := Run.split h
  obtain ⟨rfl, hst, h3⟩ := h2.cons_inv
  exact ⟨h1, hst, h3⟩

theorem Run.of_mem {x : Transition σ α} (h : Run step s tr t) (hx : x ∈ tr) :
    ∃ xs ys, tr = xs ++ x :: ys ∧ Run step s xs x.pre ∧ step x.pre x.act x.post ∧
      Run step x.post ys t := by
  obtain ⟨xs, ys, rfl⟩ := List.append_of_mem hx
  exact ⟨xs, ys, rfl, h.around⟩

/-! ## Simulation -/

/-- The image of a transition under a map of the states and a labelling of the transitions. -/
def Transition.map {τ β : Type*} (f : σ → τ) (g : Transition σ α → β) (x : Transition σ α) :
    Transition τ β := ⟨f x.pre, g x, f x.post⟩

/-- **The simulation rule.** If every step from a state with `I` keeps `I` and is, seen through
`f` and `g`, a step of `step'`, then a run is seen as a run. -/
theorem Run.simulate {τ β : Type*} {step' : τ → β → τ → Prop} {f : σ → τ}
    {g : Transition σ α → β} {I : σ → Prop} (h : Run step s tr t) (h0 : I s)
    (hstep : ∀ m a m', I m → step m a m' → step' (f m) (g ⟨m, a, m'⟩) (f m') ∧ I m') :
    Run step' (f s) (tr.map (Transition.map f g)) (f t) ∧ I t := by
  induction h with
  | nil => exact ⟨Run.nil _, h0⟩
  | snoc _ hst ih =>
      obtain ⟨hrun, hI⟩ := ih
      obtain ⟨hst', hI'⟩ := hstep _ _ _ hI hst
      refine ⟨?_, hI'⟩
      rw [List.map_append]
      exact Run.snoc hrun hst'

/-- **The projection rule.** If `g` picks out the transitions that `f` sees as steps of `step'`,
and `f` sees nothing of the others, then what `g` picks out of a run is a run. -/
theorem Run.project {τ β : Type*} {step' : τ → β → τ → Prop} {f : σ → τ}
    {g : Transition σ α → Option (Transition τ β)} (h : Run step s tr t)
    (hstep : ∀ m a m', step m a m' →
      (g ⟨m, a, m'⟩ = none ∧ f m' = f m) ∨
      ∃ b, g ⟨m, a, m'⟩ = some ⟨f m, b, f m'⟩ ∧ step' (f m) b (f m')) :
    Run step' (f s) (tr.filterMap g) (f t) := by
  induction h with
  | nil => exact Run.nil _
  | snoc _ hst ih =>
      rw [List.filterMap_append]
      rcases hstep _ _ _ hst with ⟨hnone, hsame⟩ | ⟨b, hsome, hst'⟩
      · rw [List.filterMap_cons_none hnone, List.filterMap_nil, List.append_nil, hsame]
        exact ih
      · rw [List.filterMap_cons_some hsome, List.filterMap_nil]
        exact Run.snoc ih hst'

/-! ## Sums over a history -/

/-- The sum of `f` over the transitions of a history. -/
def tally (f : Transition σ α → ℤ) (tr : List (Transition σ α)) : ℤ := (tr.map f).sum

@[simp] theorem tally_nil (f : Transition σ α → ℤ) : tally f [] = 0 := rfl

@[simp] theorem tally_append (f : Transition σ α → ℤ) (xs ys : List (Transition σ α)) :
    tally f (xs ++ ys) = tally f xs + tally f ys := by simp [tally]

@[simp] theorem tally_singleton (f : Transition σ α → ℤ) (x : Transition σ α) :
    tally f [x] = f x := by simp [tally]

theorem tally_eq_sum_range (f : Transition σ α → ℤ) (tr : List (Transition σ α)) :
    tally f tr = ∑ i ∈ Finset.range tr.length, tr[i]?.elim 0 f := by
  induction tr using List.reverseRecOn with
  | nil => rfl
  | append_singleton xs x ih =>
      rw [tally_append, tally_singleton, ih, List.length_append, List.length_singleton,
        Finset.sum_range_succ, List.getElem?_concat_length, Option.elim_some]
      congr 1
      refine Finset.sum_congr rfl (fun i hi => ?_)
      rw [List.getElem?_append_left (Finset.mem_range.mp hi)]

/-- **The assignment rule.** If every transition that counts for `f` is assigned one of its own
that counts at least as much for `g`, then `f` adds up to at most `g`. -/
theorem tally_le_tally {f g : Transition σ α → ℤ} {tr : List (Transition σ α)} (assigned : ℕ → ℕ)
    (hinj : Set.InjOn assigned {i : ℕ | 0 < tr[i]?.elim 0 f})
    (hle : ∀ i : ℕ, 0 < tr[i]?.elim 0 f → tr[i]?.elim 0 f ≤ tr[assigned i]?.elim 0 g)
    (hg : ∀ y ∈ tr, 0 ≤ g y) : tally f tr ≤ tally g tr := by
  have hnonneg : ∀ i : ℕ, 0 ≤ tr[i]?.elim 0 g := by
    intro i
    cases hi : tr[i]? with
    | none => exact le_rfl
    | some y => exact hg y (List.mem_of_getElem? hi)
  let counted := (Finset.range tr.length).filter (fun i => 0 < tr[i]?.elim 0 f)
  have hinj' : Set.InjOn assigned counted := by
    intro i hi j hj hij
    exact hinj (Finset.mem_filter.mp hi).2 (Finset.mem_filter.mp hj).2 hij
  have himage : counted.image assigned ⊆ Finset.range tr.length := by
    intro j hj
    obtain ⟨i, hi, rfl⟩ := Finset.mem_image.mp hj
    have hpos := (Finset.mem_filter.mp hi).2
    rw [Finset.mem_range]
    by_contra hout
    have hnone : tr[assigned i]? = none := List.getElem?_eq_none (not_lt.mp hout)
    have hbound := hle i hpos
    rw [hnone] at hbound
    exact absurd hpos (not_lt.mpr hbound)
  rw [tally_eq_sum_range, tally_eq_sum_range]
  calc ∑ i ∈ Finset.range tr.length, tr[i]?.elim 0 f
      ≤ ∑ i ∈ Finset.range tr.length, if 0 < tr[i]?.elim 0 f then tr[i]?.elim 0 f else 0 := by
        refine Finset.sum_le_sum (fun i _ => ?_)
        split <;> omega
    _ = ∑ i ∈ counted, tr[i]?.elim 0 f := (Finset.sum_filter _ _).symm
    _ ≤ ∑ i ∈ counted, tr[assigned i]?.elim 0 g :=
        Finset.sum_le_sum (fun i hi => hle i (Finset.mem_filter.mp hi).2)
    _ = ∑ j ∈ counted.image assigned, tr[j]?.elim 0 g :=
        (Finset.sum_image (f := fun j : ℕ => tr[j]?.elim 0 g) hinj').symm
    _ ≤ ∑ j ∈ Finset.range tr.length, tr[j]?.elim 0 g :=
        Finset.sum_le_sum_of_subset_of_nonneg himage (fun j _ _ => hnonneg j)

/-- Where each `i` is the key of some transition that has at least its weight, the weights add up
to at most the whole. -/
theorem sum_le_tally {ι : Type*} {f : Transition σ α → ℤ} {tr : List (Transition σ α)}
    {s : Finset ι} {weight : ι → ℤ} (key : Transition σ α → ι)
    (hpick : ∀ i ∈ s, ∃ x ∈ tr, key x = i ∧ weight i ≤ f x) (hf : ∀ x ∈ tr, 0 ≤ f x) :
    ∑ i ∈ s, weight i ≤ tally f tr := by
  classical
  have hf' : ∀ x ∈ tr.toFinset, 0 ≤ f x := fun x hx => hf x (List.mem_toFinset.mp hx)
  calc ∑ i ∈ s, weight i ≤ ∑ i ∈ s, ∑ x ∈ tr.toFinset with key x = i, f x := by
        refine Finset.sum_le_sum (fun i hi => ?_)
        obtain ⟨x, hx, hkey, hweight⟩ := hpick i hi
        have hmem : x ∈ tr.toFinset.filter (key · = i) :=
          Finset.mem_filter.mpr ⟨List.mem_toFinset.mpr hx, hkey⟩
        refine hweight.trans (Finset.single_le_sum (f := f) (fun y hy => ?_) hmem)
        exact hf' y (Finset.mem_filter.mp hy).1
    _ ≤ ∑ x ∈ tr.toFinset, f x :=
        Finset.sum_fiberwise_le_sum_of_sum_fiber_nonneg
          (fun i _ => Finset.sum_nonneg (fun y hy => hf' y (Finset.mem_filter.mp hy).1))
    _ ≤ ∑ x ∈ tr.toFinset, tr.count x • f x := by
        refine Finset.sum_le_sum (fun x hx => ?_)
        have hcount : 0 < tr.count x := List.count_pos_iff.mpr (List.mem_toFinset.mp hx)
        have hone : (1 : ℤ) ≤ tr.count x := by exact_mod_cast hcount
        rw [nsmul_eq_mul]
        exact le_mul_of_one_le_left (hf x (List.mem_toFinset.mp hx)) hone
    _ = tally f tr := (Finset.sum_list_map_count tr f).symm

/-! ## Once -/

/-- Exactly one transition of the history is an `event`. -/
def Once (event : Transition σ α → Prop) (tr : List (Transition σ α)) : Prop :=
  ∃ before x after, tr = before ++ x :: after ∧ event x ∧ ∀ y ∈ before ++ after, ¬ event y

/-- **The rule of the final state.** If `final` is entered by the steps that are an `event` and by
no others, and is never left, nor the place of another `event`, then it holds exactly after one
`event`, and before there has been none. -/
theorem Run.once (I final : σ → Prop) (event : Transition σ α → Prop) (h : Run step s tr t)
    (hI : I s) (h0 : ¬ final s)
    (hstep : ∀ m a m', I m → step m a m' → I m' ∧
      (final m → final m' ∧ ¬ event ⟨m, a, m'⟩) ∧ (¬ final m → (final m' ↔ event ⟨m, a, m'⟩))) :
    (final t → Once event tr) ∧ (¬ final t → ∀ x ∈ tr, ¬ event x) := by
  have hall : I t ∧ (final t → Once event tr) ∧ (¬ final t → ∀ x ∈ tr, ¬ event x) := by
    refine h.history (P := fun tr t =>
      I t ∧ (final t → Once event tr) ∧ (¬ final t → ∀ x ∈ tr, ¬ event x)) ?_ ?_
    · exact ⟨hI, fun hfinal => absurd hfinal h0, by simp⟩
    · rintro xs m a m' hrun ⟨hm, honce, hnone⟩ hst
      obtain ⟨hm', hkept, hentered⟩ := hstep m a m' hm hst
      by_cases hfinal : final m
      · -- entered before; this step is no second event
        obtain ⟨hfinal', hnot⟩ := hkept hfinal
        obtain ⟨before, x, after, rfl, hx, hothers⟩ := honce hfinal
        refine ⟨hm', fun _ => ⟨before, x, after ++ [⟨m, a, m'⟩], by simp, hx, ?_⟩,
          fun hnot' => absurd hfinal' hnot'⟩
        rw [← List.append_assoc, List.forall_mem_append, List.forall_mem_singleton]
        exact ⟨hothers, hnot⟩
      · refine ⟨hm', fun hfinal' => ⟨xs, ⟨m, a, m'⟩, [], rfl, (hentered hfinal).mp hfinal', ?_⟩,
          fun hfinal' => ?_⟩
        · rw [List.append_nil]
          exact hnone hfinal
        · rw [List.forall_mem_append, List.forall_mem_singleton]
          exact ⟨hnone hfinal, fun hevent => hfinal' ((hentered hfinal).mpr hevent)⟩
  exact hall.2

/-! ## Since -/

/-- Some transition of the history starts something, and in the state after it and after every
later transition `holds`. -/
def Since (starts : Transition σ α → Prop) (holds : σ → Prop) (tr : List (Transition σ α)) :
    Prop :=
  ∃ before x after, tr = before ++ x :: after ∧ starts x ∧ ∀ y ∈ x :: after, holds y.post

theorem Since.now {starts : Transition σ α → Prop} {holds : σ → Prop} {x : Transition σ α}
    (hx : starts x) (hholds : holds x.post) : Since starts holds (tr ++ [x]) :=
  ⟨tr, x, [], rfl, hx, by simpa using hholds⟩

theorem Since.later {starts : Transition σ α → Prop} {holds : σ → Prop} {x : Transition σ α}
    (h : Since starts holds tr) (hholds : holds x.post) : Since starts holds (tr ++ [x]) := by
  obtain ⟨before, y, after, rfl, hy, hafter⟩ := h
  refine ⟨before, y, after ++ [x], by simp, hy, ?_⟩
  rw [← List.cons_append, List.forall_mem_append, List.forall_mem_singleton]
  exact ⟨hafter, hholds⟩

/-! ## Executing a deterministic program -/

/-- The history of executing `acts` from `s` when `next` computes the state after. -/
def play (next : σ → α → σ) : σ → List α → List (Transition σ α)
  | _, [] => []
  | s, a :: acts => ⟨s, a, next s a⟩ :: play next (next s a) acts

theorem play_append (next : σ → α → σ) : ∀ (xs ys : List α) (s : σ),
    play next s (xs ++ ys) = play next s xs ++ play next (xs.foldl next s) ys
  | [], _, _ => rfl
  | x :: xs, ys, s => by
      rw [List.cons_append, play, play, play_append next xs ys, List.foldl_cons, List.cons_append]

/-- Executing `acts` is a run when every transition it makes is a step. -/
theorem play_run {next : σ → α → σ} : ∀ (acts : List α) (s : σ),
    (∀ x ∈ play next s acts, step x.pre x.act x.post) →
      Run step s (play next s acts) (acts.foldl next s)
  | [], s, _ => Run.nil s
  | a :: acts, s, h => by
      have hhead : step s a (next s a) := h ⟨s, a, next s a⟩ List.mem_cons_self
      have htail := play_run acts (next s a)
        (fun x hx => h x (List.mem_cons_of_mem _ hx))
      exact Run.append (Run.single hhead) htail

/-- The history of executing actions when `after` computes the state after an action, and the last
state; nothing if one of them is not possible. -/
def walk (after : σ → α → Option σ) (s : σ) : List α → Option (List (Transition σ α) × σ)
  | [] => some ([], s)
  | a :: acts =>
      (after s a).bind fun next =>
        (walk after next acts).map fun rest => (⟨s, a, next⟩ :: rest.1, rest.2)

theorem walk_run {after : σ → α → Option σ} {acts : List α}
    (h : walk after s acts = some (tr, t)) : Run (fun s a t => after s a = some t) s tr t := by
  induction acts generalizing s tr with
  | nil =>
      obtain ⟨rfl, rfl⟩ := Prod.mk.inj (Option.some.inj h)
      exact Run.nil s
  | cons a acts ih =>
      rw [walk] at h
      obtain ⟨next, hnext, hrest⟩ := Option.bind_eq_some_iff.mp h
      obtain ⟨⟨rest, last⟩, hwalk, hsome⟩ := Option.map_eq_some_iff.mp hrest
      obtain ⟨rfl, rfl⟩ := Prod.mk.inj hsome
      exact Run.append (Run.single hnext) (ih hwalk)

theorem walk_acts {after : σ → α → Option σ} {acts : List α}
    (h : walk after s acts = some (tr, t)) : tr.map Transition.act = acts := by
  induction acts generalizing s tr with
  | nil =>
      obtain ⟨rfl, _⟩ := Prod.mk.inj (Option.some.inj h)
      rfl
  | cons a acts ih =>
      rw [walk] at h
      obtain ⟨next, _, hrest⟩ := Option.bind_eq_some_iff.mp h
      obtain ⟨⟨rest, last⟩, hwalk, hsome⟩ := Option.map_eq_some_iff.mp hrest
      obtain ⟨rfl, rfl⟩ := Prod.mk.inj hsome
      rw [List.map_cons, ih hwalk]

end

end StellarAgent.Lib
