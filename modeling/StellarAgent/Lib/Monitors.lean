import StellarAgent.Lib.Programs

set_option autoImplicit false

/-! # Programs under a monitor

A `Monitor` watches what a program asks: at a position it allows some questions, and an answered
question takes it to another position. `Under m p post k` says that every question of `p`, started
at position `k`, is allowed where the monitor then is, and that `post` holds where `p` ends. The
rules follow the text of a program (`under_bind` and its companions). A fallible program may end
with an error anywhere.

`Steady`: what is allowed stays allowed as the position grows, so the monitor may move on its own
between two questions (`Under.grow`).
-/

namespace StellarAgent.Lib

section

variable {Op : Type} {Ans : Op → Type} {α β ε κ : Type}

/-- What may be asked at a position, and where a question with its answer leads to. -/
structure Monitor (Op : Type) (Ans : Op → Type) (κ : Type) where
  Allows : κ → Op → Prop
  Moves : κ → Event Op Ans → κ → Prop

/-- A larger position allows more, and leads to no other positions. -/
structure Monitor.Steady [LE κ] (m : Monitor Op Ans κ) : Prop where
  allows : ∀ k k' op, k ≤ k' → m.Allows k op → m.Allows k' op
  moves : ∀ k k' e k'', k ≤ k' → m.Moves k' e k'' → m.Moves k e k''

/-- The monitor that stays where it is, and allows the same questions all along. -/
def Monitor.only (Q : Op → Prop) : Monitor Op Ans Unit where
  Allows := fun _ => Q
  Moves := fun _ _ _ => True

variable (m : Monitor Op Ans κ)

namespace Program

protected theorem bind_ret (p : Program Op Ans α) : p.bind .ret = p := by
  induction p with
  | ret a => rfl
  | ask op next ih => exact congrArg (Program.ask op) (funext ih)

protected theorem bind_assoc {γ : Type} (p : Program Op Ans α) (f : α → Program Op Ans β)
    (g : β → Program Op Ans γ) : (p.bind f).bind g = p.bind fun a => (f a).bind g := by
  induction p with
  | ret a => rfl
  | ask op next ih => exact congrArg (Program.ask op) (funext ih)

instance : LawfulMonad (Program Op Ans) :=
  LawfulMonad.mk' (Program Op Ans) Program.bind_ret (fun _ _ => rfl) Program.bind_assoc

/-- Whatever the answers, the program asks only what is allowed, and ends with `post`. -/
def Under : Program Op Ans α → (α → κ → Prop) → κ → Prop
  | .ret a, post, k => post a k
  | .ask op next, post, k =>
      m.Allows k op ∧ ∀ answer k', m.Moves k ⟨op, answer⟩ k' → Under (next answer) post k'

variable {m} {p : Program Op Ans α} {post post' : α → κ → Prop} {k k' : κ}

theorem under_bind {f : α → Program Op Ans β} {post : β → κ → Prop} :
    Under m (p >>= f) post k ↔ Under m p (fun a => Under m (f a) post) k := by
  show Under m (p.bind f) post k ↔ _
  induction p generalizing k with
  | ret a => exact Iff.rfl
  | ask op next ih =>
      refine and_congr_right fun _ => forall_congr' fun answer => forall_congr' fun k' => ?_
      exact imp_congr_right fun _ => ih answer

/-- The rule of consequence. -/
theorem Under.imp (h : Under m p post k) (himp : ∀ a k, post a k → post' a k) :
    Under m p post' k := by
  induction p generalizing k with
  | ret a => exact himp a k h
  | ask op next ih => exact ⟨h.1, fun answer k' hmoves => ih answer (h.2 answer k' hmoves)⟩

/-- The monitor may move up between two questions. -/
theorem Under.grow [LE κ] (hsteady : m.Steady) (hpost : ∀ a k k', k ≤ k' → post a k → post a k')
    (hle : k ≤ k') (h : Under m p post k) : Under m p post k' := by
  cases p with
  | ret a => exact hpost a k k' hle h
  | ask op next =>
      refine ⟨hsteady.allows k k' op hle h.1, fun answer k'' hmoves => ?_⟩
      exact h.2 answer k'' (hsteady.moves k k' _ k'' hle hmoves)

/-- What is allowed all along may be more. -/
theorem Under.weaken {Q Q' : Op → Prop} {post : α → Unit → Prop} (himp : ∀ op, Q op → Q' op)
    (h : Under (Monitor.only Q) p post ()) : Under (Monitor.only Q') p post () := by
  induction p with
  | ret a => exact h
  | ask op next ih => exact ⟨himp op h.1, fun answer _ _ => ih answer (h.2 answer () trivial)⟩

/-- What is allowed all along is all that is asked. -/
theorem Under.of_steps {Q : Op → Prop} {post : α → Unit → Prop} {q : Program Op Ans α}
    {es : List (Event Op Ans)} (h : Under (Monitor.only Q) p post ()) (hsteps : Steps p es q) :
    ∀ e ∈ es, Q e.op := by
  induction hsteps with
  | nil => simp
  | cons _ ih => exact List.forall_mem_cons.mpr ⟨h.1, ih (h.2 _ () trivial)⟩

end Program

namespace Fallible

/-- `post` is promised of a result only. -/
def Under (x : Fallible Op Ans ε α) (post : α → κ → Prop) (k : κ) : Prop :=
  Program.Under m x.run (fun result k => ∀ a, result = .ok a → post a k) k

variable {m} {x : Fallible Op Ans ε α} {f : α → Fallible Op Ans ε β} {post : α → κ → Prop}
  {finish : β → κ → Prop} {k : κ}

theorem under_pure {a : α} (h : post a k) : Under m (pure a : Fallible Op Ans ε α) post k := by
  intro b hb
  obtain rfl := Except.ok.inj hb
  exact h

theorem under_throw {e : ε} : Under m (throw e : Fallible Op Ans ε α) post k := by
  intro b hb
  cases hb

theorem under_ofExcept {value : Except ε α} (h : ∀ a, value = .ok a → post a k) :
    Under m (ofExcept value : Fallible Op Ans ε α) post k := h

/-- One question. -/
theorem under_perform {op : Op} {post : Ans op → κ → Prop} (hallows : m.Allows k op)
    (h : ∀ answer k', m.Moves k ⟨op, answer⟩ k' → post answer k') :
    Under m (perform op : Fallible Op Ans ε (Ans op)) post k := by
  refine ⟨hallows, fun answer k' hmoves a ha => ?_⟩
  obtain rfl := Except.ok.inj ha
  exact h _ k' hmoves

theorem Under.imp {post' : α → κ → Prop} (h : Under m x post k)
    (himp : ∀ a k, post a k → post' a k) : Under m x post' k :=
  Program.Under.imp h fun _ k hresult a ha => himp a k (hresult a ha)

theorem under_bind (h : Under m x (fun a => Under m (f a) finish) k) :
    Under m (x >>= f) finish k := by
  refine Program.under_bind.mpr (Program.Under.imp h fun result k hresult => ?_)
  cases result with
  | error e =>
      intro b hb
      cases hb
  | ok a => exact hresult a rfl

/-- A program whose errors are taken as results. -/
theorem under_attempt {post : Except ε α → κ → Prop}
    (h : Program.Under m x.run post k) : Under m (attempt x) post k := by
  refine Program.under_bind.mpr (Program.Under.imp h fun result k hresult a ha => ?_)
  obtain rfl := Except.ok.inj ha
  exact hresult

/-- One program for each item of a list, in a position where each of them leads back to. -/
theorem under_mapM {A : Type} {g : A → Fallible Op Ans ε α} (I : κ → Prop) (items : List A)
    (h : ∀ item ∈ items, ∀ k, I k → Under m (g item) (fun _ => I) k) (hk : I k) :
    Under m (items.mapM g) (fun _ => I) k := by
  induction items generalizing k with
  | nil => exact under_pure hk
  | cons item items ih =>
      rw [List.mapM_cons]
      refine under_bind ((h item List.mem_cons_self k hk).imp fun a k hk => ?_)
      have hrest := ih (fun item hitem => h item (List.mem_cons_of_mem _ hitem)) hk
      exact under_bind (hrest.imp fun _ _ hk => under_pure hk)

/-! ## Results and errors -/

/-- `post` of a result, `fails` of an error -/
def Outcome (post : α → κ → Prop) (fails : ε → κ → Prop) : Except ε α → κ → Prop
  | .ok a => post a
  | .error e => fails e

/-- `post` is promised of a result, and `fails` of an error. -/
def Ends (m : Monitor Op Ans κ) (x : Fallible Op Ans ε α) (post : α → κ → Prop)
    (fails : ε → κ → Prop) (k : κ) : Prop :=
  Program.Under m x.run (Outcome post fails) k

variable {fails : ε → κ → Prop}

theorem ends_pure {a : α} (h : post a k) :
    Ends m (pure a : Fallible Op Ans ε α) post fails k := h

theorem ends_throw {e : ε} (h : fails e k) :
    Ends m (throw e : Fallible Op Ans ε α) post fails k := h

theorem ends_ofExcept {value : Except ε α} (h : Outcome post fails value k) :
    Ends m (ofExcept value : Fallible Op Ans ε α) post fails k := h

theorem Ends.imp {post' : α → κ → Prop} {fails' : ε → κ → Prop} (h : Ends m x post fails k)
    (hpost : ∀ a k, post a k → post' a k) (hfails : ∀ e k, fails e k → fails' e k) :
    Ends m x post' fails' k := by
  refine Program.Under.imp h fun result k hresult => ?_
  cases result with
  | error e => exact hfails e k hresult
  | ok a => exact hpost a k hresult

theorem ends_bind (h : Ends m x (fun a => Ends m (f a) finish fails) fails k) :
    Ends m (x >>= f) finish fails k := by
  refine Program.under_bind.mpr (Program.Under.imp h fun result k hresult => ?_)
  cases result with
  | error e => exact hresult
  | ok a => exact hresult

/-- One question, which does not fail. -/
theorem ends_perform {op : Op} {post : Ans op → κ → Prop} (hallows : m.Allows k op)
    (h : ∀ answer k', m.Moves k ⟨op, answer⟩ k' → post answer k') :
    Ends m (perform op : Fallible Op Ans ε (Ans op)) post fails k :=
  ⟨hallows, h⟩

/-- One question and what is bound to it. -/
theorem ends_perform_bind {op : Op} {f : Ans op → Fallible Op Ans ε α}
    (hallows : m.Allows k op)
    (h : ∀ answer k', m.Moves k ⟨op, answer⟩ k' → Ends m (f answer) post fails k') :
    Ends m (perform op >>= f) post fails k :=
  ends_bind (ends_perform hallows h)

theorem ends_mapM {A : Type} {g : A → Fallible Op Ans ε α} (I : κ → Prop) (items : List A)
    (h : ∀ item ∈ items, ∀ k, I k → Ends m (g item) (fun _ => I) fails k) (hk : I k) :
    Ends m (items.mapM g) (fun _ => I) fails k := by
  induction items generalizing k with
  | nil => exact ends_pure hk
  | cons item items ih =>
      rw [List.mapM_cons]
      refine ends_bind ((h item List.mem_cons_self k hk).imp (fun a k hk => ?_) fun _ _ he => he)
      have hrest := ih (fun item hitem => h item (List.mem_cons_of_mem _ hitem)) hk
      exact ends_bind (hrest.imp (fun _ _ hk => ends_pure hk) fun _ _ he => he)

/-- A program that goes on with the result or the error of another. -/
theorem ends_run {B : Type} {g : Except ε α → Program Op Ans B} {finish : B → κ → Prop}
    (h : Ends m x (fun a => Program.Under m (g (.ok a)) finish)
      (fun e => Program.Under m (g (.error e)) finish) k) :
    Program.Under m (x.run >>= g) finish k := by
  refine Program.under_bind.mpr (Program.Under.imp h fun result k hresult => ?_)
  cases result with
  | error e => exact hresult
  | ok a => exact hresult

end Fallible

end

end StellarAgent.Lib
