import StellarAgent.Lib.Monitors

set_option autoImplicit false

/-! # A program and what goes on outside of it

An `Environment` says how the outside stirs by itself, and how it answers a question. A `World` is
the outside with a program; in a step of it the outside stirs, or the next question of the program
is answered.

What the program does is read off its text under the environment's `monitor`, where the outside may
stir any number of times before each answer. `Environment.under_run` carries it along a run, and
`Environment.result_of_run` says what holds once the program has ended. `Environment.logged` keeps
the questions and answers of the program beside the outside, so that what is read off the text may
be about them (`Environment.result_of_logged`).
-/

namespace StellarAgent.Lib

section

variable {Op : Type} {Ans : Op → Type} {α κ : Type}

structure Environment (Op : Type) (Ans : Op → Type) (κ : Type) where
  Stirs : κ → κ → Prop
  Answers : κ → Event Op Ans → κ → Prop

structure World (Op : Type) (Ans : Op → Type) (κ α : Type) where
  outside : κ
  program : Program Op Ans α

inductive WorldAct (Op : Type) (Ans : Op → Type) where
  | asked (e : Event Op Ans)
  | stirred

/-- The question that is answered, with its answer -/
def WorldAct.event : WorldAct Op Ans → Option (Event Op Ans)
  | .asked e => some e
  | .stirred => none

namespace Environment

variable (env : Environment Op Ans κ)

/-- One step of a world -/
def Step (w : World Op Ans κ α) (act : WorldAct Op Ans) (w' : World Op Ans κ α) : Prop :=
  match act with
  | .asked e => ∃ next, w.program = .ask e.op next ∧ env.Answers w.outside e w'.outside ∧
      w'.program = next e.answer
  | .stirred => env.Stirs w.outside w'.outside ∧ w'.program = w.program

/-- The environment when only some answers are given -/
def restrict (C : Event Op Ans → Prop) : Environment Op Ans κ where
  Stirs := env.Stirs
  Answers k e k' := env.Answers k e k' ∧ C e

/-- Before each answer the outside may stir any number of times. -/
def monitor : Monitor Op Ans κ where
  Allows _ _ := True
  Moves k e k' := ∃ mid, Relation.ReflTransGen env.Stirs k mid ∧ env.Answers mid e k'

variable {env} {p : Program Op Ans α} {post : α → κ → Prop} {k k' : κ}
  {w w' : World Op Ans κ α} {tr : List (Transition (World Op Ans κ α) (WorldAct Op Ans))}

theorem under_stirs (hpost : ∀ a k k', env.Stirs k k' → post a k → post a k')
    (hstirs : env.Stirs k k') (h : p.Under env.monitor post k) :
    p.Under env.monitor post k' := by
  cases p with
  | ret a => exact hpost a k k' hstirs h
  | ask op next =>
      refine ⟨trivial, fun answer k'' hmoves => ?_⟩
      obtain ⟨mid, hstirred, hanswers⟩ := hmoves
      exact h.2 answer k'' ⟨mid, hstirred.head hstirs, hanswers⟩

/-- **Along a run.** What the text of the program promises is promised in every state. -/
theorem under_run (hpost : ∀ a k k', env.Stirs k k' → post a k → post a k')
    (hrun : Run env.Step w tr w') (h : w.program.Under env.monitor post w.outside) :
    w'.program.Under env.monitor post w'.outside := by
  refine hrun.invariant (I := fun w => w.program.Under env.monitor post w.outside) h ?_
  rintro ⟨k, p⟩ act ⟨k', p'⟩ hk hstep
  cases act with
  | asked e =>
      obtain ⟨next, hp, hanswers, hp'⟩ := hstep
      obtain rfl : p = .ask e.op next := hp
      obtain rfl : p' = next e.answer := hp'
      exact hk.2 e.answer k' ⟨k, Relation.ReflTransGen.refl, hanswers⟩
  | stirred =>
      obtain ⟨hstirs, hp'⟩ := hstep
      obtain rfl : p' = p := hp'
      exact under_stirs hpost hstirs hk

theorem result_of_run (hpost : ∀ a k k', env.Stirs k k' → post a k → post a k')
    (hrun : Run env.Step w tr w') (h : w.program.Under env.monitor post w.outside) {a : α}
    (hended : w'.program = .ret a) : post a w'.outside := by
  have hunder := under_run hpost hrun h
  rw [hended] at hunder
  exact hunder

/-- The rule for one question: what holds before it is kept as the outside stirs. -/
theorem under_ask {op : Op} {next : Ans op → Program Op Ans α} {P : κ → Prop}
    (hstable : ∀ k k', env.Stirs k k' → P k → P k')
    (h : ∀ k answer k', P k → env.Answers k ⟨op, answer⟩ k' →
      (next answer).Under env.monitor post k') (hk : P k) :
    Program.Under env.monitor (.ask op next) post k := by
  refine ⟨trivial, fun answer k' hmoves => ?_⟩
  obtain ⟨mid, hstirred, hanswers⟩ := hmoves
  have hmid : P mid := by
    clear hanswers
    induction hstirred with
    | refl => exact hk
    | tail _ hstirs ih => exact hstable _ _ hstirs ih
  exact h mid answer k' hmid hanswers

/-- The rule for one question of a program that may fail. -/
theorem ends_perform {ε : Type} {op : Op} {P : κ → Prop} {post : Ans op → κ → Prop}
    {fails : ε → κ → Prop} (hstable : ∀ k k', env.Stirs k k' → P k → P k')
    (h : ∀ k answer k', P k → env.Answers k ⟨op, answer⟩ k' → post answer k') (hk : P k) :
    Fallible.Ends env.monitor (Fallible.perform op) post fails k :=
  under_ask hstable h hk

/-! ## Questions and answers kept -/

variable (env) in
/-- The environment with the questions and answers so far -/
def logged : Environment Op Ans (κ × List (Event Op Ans)) where
  Stirs x x' := env.Stirs x.1 x'.1 ∧ x'.2 = x.2
  Answers x e x' := env.Answers x.1 e x'.1 ∧ x'.2 = x.2 ++ [e]

/-- What the program asked in a history -/
def asked (tr : List (Transition (World Op Ans κ α) (WorldAct Op Ans))) : List (Event Op Ans) :=
  tr.filterMap fun x => x.act.event

theorem result_of_logged {post : α → κ × List (Event Op Ans) → Prop}
    (hpost : ∀ a x x', env.logged.Stirs x x' → post a x → post a x')
    (hrun : Run env.Step w tr w')
    (h : w.program.Under env.logged.monitor post (w.outside, [])) {a : α}
    (hended : w'.program = .ret a) : post a (w'.outside, asked tr) := by
  have hunder : w'.program.Under env.logged.monitor post (w'.outside, asked tr) := by
    refine hrun.history (P := fun tr w' =>
      w'.program.Under env.logged.monitor post (w'.outside, asked tr)) h ?_
    rintro tr ⟨k, p⟩ act ⟨k', p'⟩ _ hk hstep
    cases act with
    | asked e =>
        obtain ⟨next, hp, hanswers, hp'⟩ := hstep
        obtain rfl : p = .ask e.op next := hp
        obtain rfl : p' = next e.answer := hp'
        refine hk.2 e.answer _ ⟨_, Relation.ReflTransGen.refl, hanswers, ?_⟩
        simp [asked, WorldAct.event]
    | stirred =>
        obtain ⟨hstirs, hp'⟩ := hstep
        obtain rfl : p' = p := hp'
        refine under_stirs hpost ⟨hstirs, ?_⟩ hk
        simp [asked, WorldAct.event]
  rw [hended] at hunder
  exact hunder

/-! ## Runs by their questions -/

variable (env) in
/-- There is a run in which the program asks the events. -/
def Leads (w : World Op Ans κ α) (es : List (Event Op Ans)) (w' : World Op Ans κ α) : Prop :=
  ∃ tr, Run env.Step w tr w' ∧ asked tr = es

theorem Leads.trans {es es' : List (Event Op Ans)} {w'' : World Op Ans κ α}
    (h : env.Leads w es w') (h' : env.Leads w' es' w'') : env.Leads w (es ++ es') w'' := by
  obtain ⟨tr, hrun, rfl⟩ := h
  obtain ⟨tr', hrun', rfl⟩ := h'
  exact ⟨tr ++ tr', hrun.append hrun', List.filterMap_append⟩

theorem leads_asked {op : Op} {answer : Ans op} {next : Ans op → Program Op Ans α}
    (h : env.Answers k ⟨op, answer⟩ k') :
    env.Leads ⟨k, .ask op next⟩ [⟨op, answer⟩] ⟨k', next answer⟩ :=
  ⟨_, Run.single (show env.Step _ (.asked ⟨op, answer⟩) _ from ⟨next, rfl, h, rfl⟩), rfl⟩

theorem leads_stirred (h : env.Stirs k k') : env.Leads ⟨k, p⟩ [] ⟨k', p⟩ :=
  ⟨_, Run.single (show env.Step _ .stirred _ from ⟨h, rfl⟩), rfl⟩

/-- Questions that leave the outside as it is. -/
theorem leads_steps {es : List (Event Op Ans)} {q : Program Op Ans α} (h : p.Steps es q)
    (hanswers : ∀ e ∈ es, env.Answers k e k) : env.Leads ⟨k, p⟩ es ⟨k, q⟩ := by
  induction h with
  | nil p => exact ⟨[], Run.nil _, rfl⟩
  | cons _ ih =>
      have hfirst := hanswers _ List.mem_cons_self
      exact (leads_asked hfirst).trans (ih fun e he => hanswers e (List.mem_cons_of_mem _ he))

/-! ## Any answers -/

/-- A program that is answered in one way from now on. -/
theorem exists_trace_answered (answer : (op : Op) → Ans op) (p : Program Op Ans α) :
    ∃ es a, p.Trace es a ∧ ∀ e ∈ es, e = ⟨e.op, answer e.op⟩ := by
  induction p with
  | ret a => exact ⟨[], a, .nil _, fun e he => by cases he⟩
  | ask op next ih =>
      obtain ⟨es, a, htrace, hes⟩ := ih (answer op)
      exact ⟨⟨op, answer op⟩ :: es, a, .cons htrace, List.forall_mem_cons.mpr ⟨rfl, hes⟩⟩

variable (Op Ans) in
/-- An outside that answers anything -/
def anything : Environment Op Ans Unit where
  Stirs _ _ := False
  Answers _ _ _ := True

/-- What the text of a program promises for any answers is so of every trace. -/
theorem result_of_trace {post : α → Unit × List (Event Op Ans) → Prop} {es : List (Event Op Ans)}
    {a : α} (h : p.Under (anything Op Ans).logged.monitor post ((), []))
    (htrace : p.Trace es a) : post a ((), es) := by
  have hleads : (anything Op Ans).Leads ⟨(), p⟩ es ⟨(), .ret a⟩ :=
    leads_steps htrace fun _ _ => trivial
  obtain ⟨tr, hrun, rfl⟩ := hleads
  refine result_of_logged (fun a x x' hstirs => ?_) hrun h rfl
  exact False.elim hstirs.1

/-! ## Fewer answers -/

/-- A run whose answers are all among some answers. -/
theorem run_restrict {C : Event Op Ans → Prop} (hrun : Run env.Step w tr w')
    (hall : ∀ x ∈ tr, ∀ e, x.act = .asked e → C e) : Run (env.restrict C).Step w tr w' := by
  induction hrun with
  | nil => exact Run.nil _
  | @snoc t u act tr hr hst ih =>
      have hlast := hall _ (List.mem_append_right _ List.mem_cons_self)
      refine Run.snoc (ih fun x hx => hall x (List.mem_append_left _ hx)) ?_
      cases act with
      | asked e =>
          obtain ⟨next, hp, hanswers, hp'⟩ := hst
          exact ⟨next, hp, ⟨hanswers, hlast e rfl⟩, hp'⟩
      | stirred => exact hst

end Environment

end

end StellarAgent.Lib
