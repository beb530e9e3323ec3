import StellarAgent.Lib.Runs

set_option autoImplicit false

/-! # Programs that ask, and their interleavings

A `Program` asks operations one after another, may choose what to ask next by the answers, and
ends with a result. Between two questions it does nothing that others can see, so a question with
its answer is one atomic step.

* `Steps p es q`: asked the events `es`, the program `p` goes on as `q`; `Trace p es a`: it ends
  with `a`. `trace_bind` and its companions read the traces of a program off its text.
* `Steps.extend`: what has been asked so far is the beginning of a whole trace, so a fact about the
  beginnings of whole traces is a fact about programs under way.
* `Interleaved`: threads that share a state. `Interleaved.steps_of_run` projects a run to one
  thread; `follow` executes a schedule.
-/

namespace StellarAgent.Lib

/-! ## Programs -/

inductive Program (Op : Type) (Ans : Op → Type) (α : Type) where
  | ret (result : α)
  | ask (op : Op) (next : Ans op → Program Op Ans α)

/-- A question with its answer. -/
structure Event (Op : Type) (Ans : Op → Type) where
  op : Op
  answer : Ans op

section

variable {Op : Type} {Ans : Op → Type} {α β ε : Type}

namespace Program

protected def bind (p : Program Op Ans α) (f : α → Program Op Ans β) : Program Op Ans β :=
  match p with
  | .ret a => f a
  | .ask op next => .ask op fun answer => (next answer).bind f

instance : Monad (Program Op Ans) where
  pure := .ret
  bind := Program.bind

/-- Asked the events, the first program goes on as the second. -/
inductive Steps : Program Op Ans α → List (Event Op Ans) → Program Op Ans α → Prop
  | nil (p : Program Op Ans α) : Steps p [] p
  | cons {op : Op} {next : Ans op → Program Op Ans α} {answer : Ans op}
      {es : List (Event Op Ans)} {q : Program Op Ans α} :
      Steps (next answer) es q → Steps (.ask op next) (⟨op, answer⟩ :: es) q

/-- Asked the events, the program ends with the result. -/
def Trace (p : Program Op Ans α) (es : List (Event Op Ans)) (a : α) : Prop := Steps p es (.ret a)

variable {p q r : Program Op Ans α} {es es' : List (Event Op Ans)} {a : α}

theorem Steps.append (h : Steps p es q) (h' : Steps q es' r) : Steps p (es ++ es') r := by
  induction h with
  | nil => exact h'
  | cons _ ih => exact Steps.cons (ih h')

/-- One more question. -/
theorem Steps.snoc {e : Event Op Ans} {next : Ans e.op → Program Op Ans α}
    (h : Steps p es (.ask e.op next)) : Steps p (es ++ [e]) (next e.answer) := by
  have hlast : Steps (.ask e.op next) [e] (next e.answer) := Steps.cons (Steps.nil _)
  exact h.append hlast

theorem trace_ret {b : α} : Trace (.ret b : Program Op Ans α) es a ↔ es = [] ∧ a = b := by
  constructor
  · intro h
    cases h with
    | nil => exact ⟨rfl, rfl⟩
  · rintro ⟨rfl, rfl⟩
    exact Steps.nil _

theorem trace_ask {op : Op} {next : Ans op → Program Op Ans α} :
    Trace (.ask op next) es a ↔ ∃ answer rest, es = ⟨op, answer⟩ :: rest ∧
      Trace (next answer) rest a := by
  constructor
  · intro h
    cases h with
    | cons h => exact ⟨_, _, rfl, h⟩
  · rintro ⟨answer, rest, rfl, h⟩
    exact Steps.cons h

theorem trace_bind {f : α → Program Op Ans β} {b : β} :
    Trace (p >>= f) es b ↔
      ∃ a xs ys, es = xs ++ ys ∧ Trace p xs a ∧ Trace (f a) ys b := by
  show Trace (p.bind f) es b ↔ _
  induction p generalizing es with
  | ret c =>
      constructor
      · intro h
        exact ⟨c, [], es, rfl, trace_ret.mpr ⟨rfl, rfl⟩, h⟩
      · rintro ⟨a, xs, ys, rfl, hp, hf⟩
        obtain ⟨rfl, rfl⟩ := trace_ret.mp hp
        exact hf
  | ask op next ih =>
      constructor
      · intro h
        obtain ⟨answer, rest, rfl, hrest⟩ := trace_ask.mp h
        obtain ⟨a, xs, ys, rfl, hp, hf⟩ := (ih answer).mp hrest
        exact ⟨a, ⟨op, answer⟩ :: xs, ys, rfl, trace_ask.mpr ⟨answer, xs, rfl, hp⟩, hf⟩
      · rintro ⟨a, xs, ys, rfl, hp, hf⟩
        obtain ⟨answer, rest, rfl, hrest⟩ := trace_ask.mp hp
        exact trace_ask.mpr ⟨answer, rest ++ ys, rfl, (ih answer).mpr ⟨a, rest, ys, rfl, hrest, hf⟩⟩

/-- **A program is determined by its answers.** Of two traces that agree as far as both go, both
go as far, and end with the same result. -/
theorem Trace.unique {xs ys xs' ys' : List (Event Op Ans)} {b : α} (h : Trace p xs a)
    (h' : Trace p ys b) (heq : xs ++ xs' = ys ++ ys') : xs = ys ∧ a = b ∧ xs' = ys' := by
  induction p generalizing xs ys with
  | ret c =>
      obtain ⟨rfl, rfl⟩ := trace_ret.mp h
      obtain ⟨rfl, rfl⟩ := trace_ret.mp h'
      exact ⟨rfl, rfl, heq⟩
  | ask op next ih =>
      obtain ⟨answer, rest, rfl, hrest⟩ := trace_ask.mp h
      obtain ⟨answer', rest', rfl, hrest'⟩ := trace_ask.mp h'
      obtain ⟨hevent, htail⟩ := List.cons.inj heq
      cases hevent
      obtain ⟨rfl, hresult⟩ := ih answer hrest hrest' htail
      exact ⟨rfl, hresult⟩

/-- A program can always be answered to its end. -/
theorem exists_trace [∀ op, Nonempty (Ans op)] (p : Program Op Ans α) : ∃ es a, Trace p es a := by
  induction p with
  | ret a => exact ⟨[], a, trace_ret.mpr ⟨rfl, rfl⟩⟩
  | ask op next ih =>
      obtain ⟨answer⟩ := (inferInstance : Nonempty (Ans op))
      obtain ⟨es, a, h⟩ := ih answer
      exact ⟨⟨op, answer⟩ :: es, a, Steps.cons h⟩

/-- **What has been asked so far begins a whole trace.** -/
theorem Steps.extend [∀ op, Nonempty (Ans op)] (h : Steps p es q) :
    ∃ rest a, Trace p (es ++ rest) a := by
  obtain ⟨rest, a, hrest⟩ := q.exists_trace
  exact ⟨rest, a, h.append hrest⟩

end Program

/-! ## Programs that fail -/

/-- A program that ends with a result or an error. -/
abbrev Fallible (Op : Type) (Ans : Op → Type) (ε : Type) := ExceptT ε (Program Op Ans)

namespace Fallible

/-- Ask one operation. -/
def perform (op : Op) : Fallible Op Ans ε (Ans op) := ExceptT.lift (.ask op .ret)

/-- A computation that asks nothing. -/
def ofExcept (value : Except ε α) : Fallible Op Ans ε α := ExceptT.mk (.ret value)

/-- Run a program and go on with its result, also if that is an error. -/
def attempt (x : Fallible Op Ans ε α) : Fallible Op Ans ε (Except ε α) := ExceptT.lift x.run

/-- Asked the events, the program ends with the result or the error. -/
def Trace (x : Fallible Op Ans ε α) (es : List (Event Op Ans)) (result : Except ε α) : Prop :=
  Program.Trace x.run es result

variable {x : Fallible Op Ans ε α} {f : α → Fallible Op Ans ε β} {es : List (Event Op Ans)}
  {a : α} {e : ε} {result : Except ε α} {answered : Except ε β}

theorem trace_ofExcept {value : Except ε α} :
    Trace (ofExcept value : Fallible Op Ans ε α) es result ↔ es = [] ∧ result = value :=
  Program.trace_ret

theorem trace_pure : Trace (pure a : Fallible Op Ans ε α) es result ↔ es = [] ∧ result = .ok a :=
  Program.trace_ret

theorem trace_throw :
    Trace (throw e : Fallible Op Ans ε α) es result ↔ es = [] ∧ result = .error e :=
  Program.trace_ret

theorem trace_perform {op : Op} {result : Except ε (Ans op)} :
    Trace (perform op : Fallible Op Ans ε (Ans op)) es result ↔
      ∃ answer, es = [⟨op, answer⟩] ∧ result = .ok answer := by
  constructor
  · intro h
    obtain ⟨answer, rest, rfl, hrest⟩ := Program.trace_ask.mp h
    obtain ⟨rfl, rfl⟩ := Program.trace_ret.mp hrest
    exact ⟨answer, rfl, rfl⟩
  · rintro ⟨answer, rfl, rfl⟩
    exact Program.trace_ask.mpr ⟨answer, [], rfl, Program.trace_ret.mpr ⟨rfl, rfl⟩⟩

/-- What is bound to a program runs if the program does not fail. -/
theorem trace_bind :
    Trace (x >>= f) es answered ↔
      (∃ e, answered = .error e ∧ Trace x es (.error e)) ∨
      ∃ a xs ys, es = xs ++ ys ∧ Trace x xs (.ok a) ∧ Trace (f a) ys answered := by
  have hbind : Trace (x >>= f) es answered ↔ ∃ result xs ys, es = xs ++ ys ∧
      Program.Trace x.run xs result ∧ Program.Trace (ExceptT.bindCont f result) ys answered :=
    Program.trace_bind
  rw [hbind]
  constructor
  · rintro ⟨result, xs, ys, rfl, hx, hf⟩
    cases result with
    | error e =>
        obtain ⟨rfl, rfl⟩ := Program.trace_ret.mp hf
        exact Or.inl ⟨e, rfl, by rwa [List.append_nil]⟩
    | ok a => exact Or.inr ⟨a, xs, ys, rfl, hx, hf⟩
  · rintro (⟨e, rfl, hx⟩ | ⟨a, xs, ys, rfl, hx, hf⟩)
    · exact ⟨.error e, es, [], by rw [List.append_nil], hx, Program.trace_ret.mpr ⟨rfl, rfl⟩⟩
    · exact ⟨.ok a, xs, ys, rfl, hx, hf⟩

/-- What is bound to a computation. -/
theorem trace_ofExcept_bind {value : Except ε α} :
    Trace (ofExcept value >>= f) es answered ↔
      (∃ e, value = .error e ∧ es = [] ∧ answered = .error e) ∨
      ∃ a, value = .ok a ∧ Trace (f a) es answered := by
  rw [trace_bind]
  constructor
  · rintro (⟨e, rfl, h⟩ | ⟨a, xs, ys, rfl, h, hf⟩)
    · obtain ⟨rfl, hvalue⟩ := trace_ofExcept.mp h
      exact Or.inl ⟨e, hvalue.symm, rfl, rfl⟩
    · obtain ⟨rfl, hvalue⟩ := trace_ofExcept.mp h
      exact Or.inr ⟨a, hvalue.symm, hf⟩
  · rintro (⟨e, rfl, rfl, rfl⟩ | ⟨a, rfl, hf⟩)
    · exact Or.inl ⟨e, rfl, trace_ofExcept.mpr ⟨rfl, rfl⟩⟩
    · exact Or.inr ⟨a, [], es, rfl, trace_ofExcept.mpr ⟨rfl, rfl⟩, hf⟩

theorem trace_ofExcept_map {value : Except ε α} {g : α → β} :
    Trace (ofExcept value >>= fun a => (pure (g a) : Fallible Op Ans ε β)) es answered ↔
      es = [] ∧ answered = value.map g := by
  cases value with
  | error e => exact Program.trace_ret
  | ok a => exact Program.trace_ret

/-- What is bound to a question. -/
theorem trace_perform_bind {op : Op} {f : Ans op → Fallible Op Ans ε β} :
    Trace (perform op >>= f) es answered ↔
      ∃ answer rest, es = ⟨op, answer⟩ :: rest ∧ Trace (f answer) rest answered := by
  rw [trace_bind]
  constructor
  · rintro (⟨e, _, h⟩ | ⟨a, xs, ys, rfl, h, hf⟩)
    · obtain ⟨answer, _, hresult⟩ := trace_perform.mp h
      cases hresult
    · obtain ⟨answer, rfl, hresult⟩ := trace_perform.mp h
      cases hresult
      exact ⟨_, ys, rfl, hf⟩
  · rintro ⟨answer, rest, rfl, hf⟩
    exact Or.inr ⟨answer, [⟨op, answer⟩], rest, rfl, trace_perform.mpr ⟨answer, rfl, rfl⟩, hf⟩

/-- What is bound to a program that cannot fail. -/
theorem trace_lift_bind {p : Program Op Ans α} :
    Trace (ExceptT.lift p >>= f) es answered ↔
      ∃ a xs ys, es = xs ++ ys ∧ Program.Trace p xs a ∧ Trace (f a) ys answered := by
  have hbind : Trace (ExceptT.lift p >>= f) es answered ↔ ∃ result xs ys, es = xs ++ ys ∧
      Program.Trace (p >>= fun a => .ret (.ok a)) xs result ∧
      Program.Trace (ExceptT.bindCont f result) ys answered := Program.trace_bind
  rw [hbind]
  constructor
  · rintro ⟨result, xs, ys, rfl, hlift, hf⟩
    obtain ⟨a, xs, zs, rfl, hp, hret⟩ := Program.trace_bind.mp hlift
    obtain ⟨rfl, rfl⟩ := Program.trace_ret.mp hret
    rw [List.append_nil]
    exact ⟨a, xs, ys, rfl, hp, hf⟩
  · rintro ⟨a, xs, ys, rfl, hp, hf⟩
    refine ⟨.ok a, xs, ys, rfl, ?_, hf⟩
    exact Program.trace_bind.mpr ⟨a, xs, [], (List.append_nil xs).symm, hp,
      Program.trace_ret.mpr ⟨rfl, rfl⟩⟩

/-- What is bound to an attempt. -/
theorem trace_attempt_bind {f : Except ε α → Fallible Op Ans ε β} :
    Trace (attempt x >>= f) es answered ↔
      ∃ result xs ys, es = xs ++ ys ∧ Trace x xs result ∧ Trace (f result) ys answered :=
  trace_lift_bind

end Fallible

/-! ## Interleavings -/

/-- Threads that share a state. -/
structure Interleaved (ι σ : Type) (Op : Type) (Ans : Op → Type) (α : Type) where
  shared : σ
  thread : ι → Program Op Ans α

variable {ι σ χ : Type} [DecidableEq ι] {exec : σ → (op : Op) → χ → Ans op × σ}

/-- **One step of one thread.** It asks its next operation, which is answered from the shared
state and from what the outside chooses, and goes on with the answer. -/
def InterleavedStep (exec : σ → (op : Op) → χ → Ans op × σ) (m : Interleaved ι σ Op Ans α)
    (action : ι × Event Op Ans) (m' : Interleaved ι σ Op Ans α) : Prop :=
  ∃ (next : Ans action.2.op → Program Op Ans α) (choice : χ),
    m.thread action.1 = .ask action.2.op next ∧
    exec m.shared action.2.op choice = (action.2.answer, m'.shared) ∧
    m'.thread = Function.update m.thread action.1 (next action.2.answer)

/-- What the thread asked in a history. -/
def eventsOf {τ : Type} (i : ι) (tr : List (Transition τ (ι × Event Op Ans))) :
    List (Event Op Ans) :=
  tr.filterMap fun x => if x.act.1 = i then some x.act.2 else none

theorem mem_eventsOf {τ : Type} {i : ι} {tr : List (Transition τ (ι × Event Op Ans))}
    {e : Event Op Ans} : e ∈ eventsOf i tr ↔ ∃ x ∈ tr, x.act = (i, e) := by
  rw [eventsOf, List.mem_filterMap]
  refine exists_congr (fun x => and_congr_right (fun _ => ?_))
  rw [Option.ite_none_right_eq_some, Prod.ext_iff, Option.some_inj]

section

variable {τ : Type} {tr tr' : List (Transition τ (ι × Event Op Ans))} {i j : ι}
  {e : Event Op Ans} {k k' : τ}

@[simp] theorem eventsOf_nil :
    eventsOf i ([] : List (Transition τ (ι × Event Op Ans))) = [] := rfl

theorem eventsOf_append : eventsOf i (tr ++ tr') = eventsOf i tr ++ eventsOf i tr' :=
  List.filterMap_append

theorem eventsOf_snoc_self : eventsOf i (tr ++ [⟨k, (i, e), k'⟩]) = eventsOf i tr ++ [e] := by
  rw [eventsOf_append]
  simp [eventsOf]

theorem eventsOf_snoc_of_ne (h : j ≠ i) :
    eventsOf i (tr ++ [⟨k, (j, e), k'⟩]) = eventsOf i tr := by
  rw [eventsOf_append]
  simp [eventsOf, h]

end

namespace Interleaved

variable {m m' : Interleaved ι σ Op Ans α} {tr : List (Transition (Interleaved ι σ Op Ans α)
  (ι × Event Op Ans))}

/-- **The projection of a run to one thread.** -/
theorem steps_of_run (h : Run (InterleavedStep exec) m tr m') (i : ι) :
    (m.thread i).Steps (eventsOf i tr) (m'.thread i) := by
  refine h.history (P := fun tr m' => (m.thread i).Steps (eventsOf i tr) (m'.thread i))
    (Program.Steps.nil _) ?_
  rintro tr k ⟨j, e⟩ k' _ ih ⟨next, choice, hthread, _, hupdate⟩
  rw [hupdate]
  by_cases hij : j = i
  · obtain rfl := hij
    rw [eventsOf_snoc_self, Function.update_self]
    have hpre : (m.thread j).Steps (eventsOf j tr) (.ask e.op next) := by
      rw [← hthread]
      exact ih
    exact hpre.snoc
  · rw [eventsOf_snoc_of_ne hij, Function.update_of_ne (Ne.symm hij)]
    exact ih

/-- A thread that has ended has run its program. -/
theorem trace_of_run (h : Run (InterleavedStep exec) m tr m') {i : ι} {a : α}
    (hended : m'.thread i = .ret a) : (m.thread i).Trace (eventsOf i tr) a := by
  have hsteps := steps_of_run h i
  rw [hended] at hsteps
  exact hsteps

/-- A thread that has asked something is where its last step left it. -/
theorem exists_last (h : Run (InterleavedStep exec) m tr m') {i : ι} (hasked : eventsOf i tr ≠ []) :
    ∃ x ∈ tr, x.act.1 = i ∧ x.post.thread i = m'.thread i := by
  revert hasked
  refine h.history (P := fun tr m' => eventsOf i tr ≠ [] →
    ∃ x ∈ tr, x.act.1 = i ∧ x.post.thread i = m'.thread i) (fun hnil => absurd rfl hnil) ?_
  rintro tr k ⟨j, e⟩ k' _ ih ⟨next, choice, _, _, hupdate⟩ hasked
  by_cases hij : j = i
  · exact ⟨⟨k, (j, e), k'⟩, by simp, hij, rfl⟩
  · rw [eventsOf_snoc_of_ne hij] at hasked
    obtain ⟨x, hx, hact, hpost⟩ := ih hasked
    refine ⟨x, List.mem_append_left _ hx, hact, hpost.trans ?_⟩
    rw [hupdate, Function.update_of_ne (Ne.symm hij)]

/-! ## Executing a schedule -/

/-- The next step of a thread, with what the outside chooses. -/
def advance (exec : σ → (op : Op) → χ → Ans op × σ) (m : Interleaved ι σ Op Ans α) (i : ι)
    (choice : χ) : Option (Event Op Ans × Interleaved ι σ Op Ans α) :=
  match m.thread i with
  | .ret _ => none
  | .ask op next =>
      let (answer, shared) := exec m.shared op choice
      some (⟨op, answer⟩, { shared, thread := Function.update m.thread i (next answer) })

theorem advance_step {i : ι} {choice : χ} {e : Event Op Ans}
    (h : m.advance exec i choice = some (e, m')) : InterleavedStep exec m (i, e) m' := by
  rw [advance] at h
  split at h
  · cases h
  · rename_i op next hthread
    cases h
    exact ⟨next, choice, hthread, rfl, rfl⟩

/-- The history of a schedule, up to where a thread that has ended is scheduled. -/
def follow (exec : σ → (op : Op) → χ → Ans op × σ) (m : Interleaved ι σ Op Ans α) :
    List (ι × χ) → List (Transition (Interleaved ι σ Op Ans α) (ι × Event Op Ans)) ×
      Interleaved ι σ Op Ans α
  | [] => ([], m)
  | (i, choice) :: schedule =>
      match m.advance exec i choice with
      | none => ([], m)
      | some (e, m') =>
          let (tr, last) := follow exec m' schedule
          (⟨m, (i, e), m'⟩ :: tr, last)

theorem follow_run (schedule : List (ι × χ)) (m : Interleaved ι σ Op Ans α) :
    Run (InterleavedStep exec) m (follow exec m schedule).1 (follow exec m schedule).2 := by
  induction schedule generalizing m with
  | nil => exact Run.nil m
  | cons step schedule ih =>
      obtain ⟨i, choice⟩ := step
      rw [follow]
      cases hadvance : m.advance exec i choice with
      | none => exact Run.nil m
      | some next =>
          obtain ⟨e, m'⟩ := next
          exact Run.append (Run.single (advance_step hadvance)) (ih m')

end Interleaved

end

end StellarAgent.Lib
