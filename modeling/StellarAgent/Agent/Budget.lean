import Mathlib.Data.List.Chain
import StellarAgent.Agent.Settlement

set_option autoImplicit false

/-! # What an invocation may ask for

However it is answered, one call submits at most three times for each of its envelopes, which are
the first one and at most `maxBumps` replacements, and it waits for half a minute and a little more
(`Spent`). A replacement bids at least ten times what it replaces, so its bids grow like the powers
of ten (`Tenfold`).
-/

namespace StellarAgent.Agent

open Lib
open Lib.Fallible (Ends perform)
open Signer (TransactionV1Envelope Transaction TxOperation SorobanAuthorizationEntry ScVal)
open Fleet.Fees (FeeStrategy FeeContext)

/-! ## Costs of events -/

def Op.submissions : Op → ℕ
  | .sendTransaction _ => 1
  | _ => 0

def Op.checks : Op → ℕ
  | .getTransaction _ => 1
  | _ => 0

/-- Milliseconds slept -/
def Op.slept : Op → ℕ
  | .sleep ms => ms
  | _ => 0

/-- What the events cost together -/
def total (cost : Op → ℕ) (es : List (Event Op Answer)) : ℕ := (es.map fun e => cost e.op).sum

@[simp] theorem total_nil (cost : Op → ℕ) : total cost [] = 0 := rfl

@[simp] theorem total_append (cost : Op → ℕ) (es es' : List (Event Op Answer)) :
    total cost (es ++ es') = total cost es + total cost es' := by
  simp [total]

@[simp] theorem total_singleton (cost : Op → ℕ) (e : Event Op Answer) :
    total cost [e] = cost e.op := by
  simp [total]

structure Spent (submissions checks slept : ℕ) (es : List (Event Op Answer)) : Prop where
  submissions_le : total Op.submissions es ≤ submissions
  checks_le : total Op.checks es ≤ checks
  slept_le : total Op.slept es ≤ slept

/-- The rate that a fee bump bids -/
def bid : Event Op Answer → Option ℤ
  | ⟨.getFee context, .ok fee⟩ => if context.phase = .fee_bump then some fee else none
  | _ => none

def bids (es : List (Event Op Answer)) : List ℤ := es.filterMap bid

/-- The rates of fee bumps are what a strategy bids. -/
def BidBy (strategy : FeeStrategy) (es : List (Event Op Answer)) : Prop :=
  ∀ context fee, ⟨.getFee context, .ok fee⟩ ∈ es → context.phase = .fee_bump →
    ∃ asked, Fallible.Trace (strategy.getFee context) asked (.ok fee)

/-- **Each rate is at least ten times the one before it.** -/
def Tenfold (rates : List ℤ) : Prop := rates.IsChain fun rate rate' => rate * 10 ≤ rate'

theorem bids_snoc {es : List (Event Op Answer)} {e : Event Op Answer} :
    bids (es ++ [e]) = bids es ++ (bid e).toList := by
  rw [bids, List.filterMap_append]
  cases h : bid e with
  | none => simp [bids, h]
  | some fee => simp [bids, h]

theorem BidBy.of_append {strategy : FeeStrategy} {es es' : List (Event Op Answer)}
    (h : BidBy strategy (es ++ es')) : BidBy strategy es :=
  fun context fee hmem => h context fee (List.mem_append_left _ hmem)

theorem Spent.snoc {n m t : ℕ} {es : List (Event Op Answer)} (h : Spent n m t es)
    (e : Event Op Answer) :
    Spent (n + e.op.submissions) (m + e.op.checks) (t + e.op.slept) (es ++ [e]) where
  submissions_le := by simpa using h.submissions_le
  checks_le := by simpa using h.checks_le
  slept_le := by simpa using h.slept_le

theorem Spent.mono {n m t n' m' t' : ℕ} {es : List (Event Op Answer)} (h : Spent n m t es)
    (hn : n ≤ n') (hm : m ≤ m') (ht : t ≤ t') : Spent n' m' t' es :=
  ⟨h.submissions_le.trans hn, h.checks_le.trans hm, h.slept_le.trans ht⟩

/-! ## What holds on the way -/

/-- What the call has asked, with any answers -/
abbrev Asked := Unit × List (Event Op Answer)

/-- The bounds of a whole call -/
structure Bounded (ctx : InvocationContext) (strategy : FeeStrategy) (x : Asked) : Prop where
  spent : Spent (3 * (1 + ctx.feeBump.maxBumps)) (3 * (1 + ctx.feeBump.maxBumps) + POLL_ATTEMPTS)
    (300 * (1 + ctx.feeBump.maxBumps) + 1000 * POLL_ATTEMPTS) x.2
  tenfold : ctx.feeBump.mode = .on_expiry → BidBy strategy x.2 → ∀ signed,
    (sent x.2).head? = some (.Tx signed) → Tenfold (innerRate signed :: bids x.2)

/-- Nothing has been submitted, and bids were only made if fees are always bumped. -/
structure Quiet (ctx : InvocationContext) (x : Asked) : Prop where
  unsent : sent x.2 = []
  spent : Spent 0 0 0 x.2
  unbid : ctx.feeBump.mode = .on_expiry → bids x.2 = []

/-- The call submits, and has bid the rate last. -/
structure Sending (ctx : InvocationContext) (strategy : FeeStrategy) (signed : TransactionV1Envelope)
    (started : Bool) (n m t : ℕ) (rate : ℤ) (x : Asked) : Prop where
  spent : Spent n m t x.2
  begun : started = true → sent x.2 ≠ []
  first : ctx.feeBump.mode = .on_expiry → ∀ envelope, (sent x.2).head? = some envelope →
    envelope = .Tx signed
  tenfold : ctx.feeBump.mode = .on_expiry → BidBy strategy x.2 → ∃ rates,
    innerRate signed :: bids x.2 = rates ++ [rate] ∧ Tenfold (rates ++ [rate])

section

variable {ctx : InvocationContext} {strategy : FeeStrategy} {signed : TransactionV1Envelope}
  {started : Bool} {n m t : ℕ} {rate : ℤ} {x : Asked} {e : Event Op Answer} {method : String}

/-- An event that costs nothing, and is no bid unless fees are always bumped. -/
theorem Quiet.snoc (h : Quiet ctx x) (hsent : sentEnvelope e = none)
    (hcost : (e.op.submissions, e.op.checks, e.op.slept) = (0, 0, 0))
    (hbid : ctx.feeBump.mode = .on_expiry → bid e = none) : Quiet ctx ((), x.2 ++ [e]) where
  unsent := by
    show sent (x.2 ++ [e]) = []
    rw [sent_snoc, h.unsent, hsent]
    rfl
  spent := by
    obtain ⟨hsubmissions, hcosts⟩ := Prod.mk.inj hcost
    obtain ⟨hchecks, hslept⟩ := Prod.mk.inj hcosts
    have hspent := h.spent.snoc e
    rwa [hsubmissions, hchecks, hslept] at hspent
  unbid := by
    intro hmode
    show bids (x.2 ++ [e]) = []
    rw [bids_snoc, h.unbid hmode, hbid hmode]
    rfl

theorem Quiet.bounded (h : Quiet ctx x) : Bounded ctx strategy x where
  spent := h.spent.mono (Nat.zero_le _) (Nat.zero_le _) (Nat.zero_le _)
  tenfold := by
    intro _ _ signed hfirst
    rw [h.unsent] at hfirst
    cases hfirst

theorem Quiet.sending (h : Quiet ctx x) :
    Sending ctx strategy signed false 0 0 0 (innerRate signed) x where
  spent := h.spent
  begun := fun hstarted => by cases hstarted
  first := by
    intro _ envelope hfirst
    rw [h.unsent] at hfirst
    cases hfirst
  tenfold := by
    intro hmode _
    refine ⟨[], ?_, List.isChain_singleton _⟩
    rw [h.unbid hmode]
    rfl

theorem Sending.bounded (h : Sending ctx strategy signed started n m t rate x)
    (hn : n ≤ 3 * (1 + ctx.feeBump.maxBumps))
    (hm : m ≤ 3 * (1 + ctx.feeBump.maxBumps) + POLL_ATTEMPTS)
    (ht : t ≤ 300 * (1 + ctx.feeBump.maxBumps) + 1000 * POLL_ATTEMPTS) :
    Bounded ctx strategy x where
  spent := h.spent.mono hn hm ht
  tenfold := by
    intro hmode hbid signed' hfirst
    obtain ⟨rates, hrates, htenfold⟩ := h.tenfold hmode hbid
    have heq := h.first hmode _ hfirst
    cases heq
    rw [hrates]
    exact htenfold

/-- An event that is no bid; the first submission is the signed transaction. -/
theorem Sending.snoc (h : Sending ctx strategy signed started n m t rate x) (hbid : bid e = none)
    {started' : Bool}
    (hbegun : started' = true → started = true ∨ ∃ envelope, sentEnvelope e = some envelope)
    (hfirst : ctx.feeBump.mode = .on_expiry → ∀ envelope, sentEnvelope e = some envelope →
      started = true ∨ envelope = .Tx signed) :
    Sending ctx strategy signed started' (n + e.op.submissions) (m + e.op.checks)
      (t + e.op.slept) rate ((), x.2 ++ [e]) where
  spent := h.spent.snoc e
  begun := by
    intro hstarted
    show sent (x.2 ++ [e]) ≠ []
    rw [sent_snoc]
    rcases hbegun hstarted with hstarted | ⟨envelope, henvelope⟩
    · simp [h.begun hstarted]
    · simp [henvelope]
  first := by
    intro hmode envelope hhead
    rw [sent_snoc] at hhead
    cases hsent : sent x.2 with
    | nil =>
        rw [hsent, List.nil_append, Option.head?_toList] at hhead
        rcases hfirst hmode envelope hhead with hstarted | heq
        · exact absurd hsent (h.begun hstarted)
        · exact heq
    | cons f rest =>
        rw [hsent] at hhead
        refine h.first hmode envelope ?_
        rw [hsent]
        exact hhead
  tenfold := by
    intro hmode hby
    obtain ⟨rates, hrates, htenfold⟩ := h.tenfold hmode hby.of_append
    refine ⟨rates, ?_, htenfold⟩
    rw [bids_snoc, hbid, Option.toList_none, List.append_nil]
    exact hrates

theorem Sending.mono {n' m' t' : ℕ} (h : Sending ctx strategy signed started n m t rate x)
    (hn : n ≤ n') (hm : m ≤ m') (ht : t ≤ t') :
    Sending ctx strategy signed started n' m' t' rate x :=
  ⟨h.spent.mono hn hm ht, h.begun, h.first, h.tenfold⟩

/-- An event that neither bids nor submits. -/
theorem Sending.plain (h : Sending ctx strategy signed started n m t rate x) (hbid : bid e = none)
    (hsent : sentEnvelope e = none) :
    Sending ctx strategy signed started (n + e.op.submissions) (m + e.op.checks)
      (t + e.op.slept) rate ((), x.2 ++ [e]) := by
  refine h.snoc hbid Or.inl fun _ envelope henvelope => ?_
  rw [hsent] at henvelope
  cases henvelope

/-- The next bid is no less than ten times the last one. -/
theorem Sending.bid (h : Sending ctx strategy signed started n m t rate x) {context : FeeContext}
    {fee : ℤ} (hphase : context.phase = .fee_bump)
    (hminimum : context.minimumFee = some (some (rate * 10))) :
    Sending ctx strategy signed started n m t fee
      ((), x.2 ++ [⟨.getFee context, .ok fee⟩]) where
  spent := h.spent.snoc ⟨.getFee context, .ok fee⟩
  begun := by
    intro hstarted
    show sent (x.2 ++ _) ≠ []
    rw [sent_snoc]
    exact List.append_ne_nil_of_left_ne_nil (h.begun hstarted) _
  first := by
    intro hmode envelope hhead
    rw [sent_snoc] at hhead
    exact h.first hmode envelope (by simpa [sentEnvelope] using hhead)
  tenfold := by
    intro hmode hby
    obtain ⟨rates, hrates, htenfold⟩ := h.tenfold hmode hby.of_append
    obtain ⟨asked, htrace⟩ := hby context fee (List.mem_append_right _ List.mem_cons_self) hphase
    obtain ⟨minimum, heq, _, hle⟩ := Fleet.Fees.getFee_bids htrace
    have hrate : rate * 10 = minimum := by
      rw [FeeContext.minimum, hminimum] at heq
      exact Option.some.inj heq
    refine ⟨rates ++ [rate], ?_, ?_⟩
    · rw [bids_snoc, ← List.cons_append, hrates, Agent.bid, if_pos hphase]
      rfl
    · rw [List.append_assoc]
      refine List.isChain_append_cons_cons.mpr ⟨htenfold, ?_, List.isChain_singleton _⟩
      rw [hrate]
      exact hle

end

/-! ## Along the pipeline -/

/-- Any answers, with what the call asks -/
abbrev freely : Monitor Op Answer Asked := (Environment.anything Op Answer).logged.monitor

section

variable {A : Type} {x : Asked} {fails : Thrown → Asked → Prop}

theorem asks {op : Op} {post : Answer op → Asked → Prop}
    (h : ∀ answer, post answer ((), x.2 ++ [⟨op, answer⟩])) :
    Ends freely (perform op : Task (Answer op)) post fails x := by
  refine Environment.ends_perform (P := fun y => y = x) (fun _ _ hstirs => ?_) ?_ rfl
  · exact False.elim hstirs.1
  · rintro _ answer ⟨_, es⟩ rfl ⟨_, hes⟩
    obtain rfl : es = _ := hes
    exact h answer

theorem orThrow_freely {answer : Except String A} {post : A → Asked → Prop}
    (hpost : ∀ a, answer = .ok a → post a x) (hfails : ∀ thrown, fails thrown x) :
    Ends freely (orThrow answer) post fails x := by
  refine Fallible.ends_ofExcept ?_
  cases answer with
  | error message => exact hfails _
  | ok a => exact hpost a rfl

theorem orThrowSigning_freely {answer : Except SignerError A} {post : A → Asked → Prop}
    (hpost : ∀ a, post a x) (hfails : ∀ thrown, fails thrown x) :
    Ends freely (orThrowSigning answer) post fails x := by
  refine Fallible.ends_ofExcept ?_
  cases answer with
  | error error => exact hfails _
  | ok a => exact hpost a

end

/-- The pauses between the attempts that are left -/
def backoff : ℕ → ℕ
  | 0 => 0
  | left + 1 => (if left = 0 then 0 else 100 * 2 ^ (2 - left)) + backoff left

section

variable {ctx : InvocationContext} {strategy : FeeStrategy} {signed : TransactionV1Envelope}
  {started : Bool} {n m t : ℕ} {rate : ℤ} {x : Asked} {method : String}

/-- At most one submission and one check for each attempt. -/
theorem sendAttempts_spent {envelope : Envelope} (left : ℕ)
    (hx : Sending ctx strategy signed started n m t rate x)
    (hfirst : ctx.feeBump.mode = .on_expiry → started = true ∨ envelope = .Tx signed) :
    Ends freely (sendAttempts ctx envelope method left)
      (fun _ x => Sending ctx strategy signed true (n + left) (m + left) (t + backoff left) rate x)
      (fun _ x => ∃ started, Sending ctx strategy signed started (n + left) (m + left)
        (t + backoff left) rate x) x := by
  induction left generalizing started n m t x with
  | zero => exact Fallible.ends_throw ⟨started, hx⟩
  | succ left ih =>
      have hretry : ∀ x, Sending ctx strategy signed true (n + 1) (m + 1) t rate x → Ends freely
          (if left = 0 then sendAttempts ctx envelope method left
            else do
              perform (Op.sleep (100 * 2 ^ (2 - left)))
              sendAttempts ctx envelope method left)
          (fun _ x => Sending ctx strategy signed true (n + (left + 1)) (m + (left + 1))
            (t + backoff (left + 1)) rate x)
          (fun _ x => ∃ started, Sending ctx strategy signed started (n + (left + 1))
            (m + (left + 1)) (t + backoff (left + 1)) rate x) x := by
        intro x hx
        have hn : n + 1 + left ≤ n + (left + 1) := by omega
        have hm : m + 1 + left ≤ m + (left + 1) := by omega
        by_cases hleft : left = 0
        · rw [if_pos hleft]
          have ht : t + backoff left ≤ t + backoff (left + 1) := by
            rw [backoff]
            omega
          refine (ih hx fun _ => Or.inl rfl).imp (fun _ _ h => h.mono hn hm ht) ?_
          rintro _ _ ⟨started, h⟩
          exact ⟨started, h.mono hn hm ht⟩
        · rw [if_neg hleft]
          refine Fallible.ends_bind (asks fun _ => ?_)
          have hslept := hx.plain (e := ⟨.sleep (100 * 2 ^ (2 - left)), ()⟩) rfl rfl
          have ht : t + 100 * 2 ^ (2 - left) + backoff left ≤ t + backoff (left + 1) := by
            rw [backoff, if_neg hleft]
            omega
          refine (ih hslept fun _ => Or.inl rfl).imp (fun _ _ h => h.mono hn hm ht) ?_
          rintro _ _ ⟨started, h⟩
          exact ⟨started, h.mono hn hm ht⟩
      rw [sendAttempts]
      refine Fallible.ends_bind (asks fun answer => ?_)
      have hsent : Sending ctx strategy signed true (n + 1) m t rate
          ((), x.2 ++ [⟨.sendTransaction envelope, answer⟩]) := by
        have henvelope : sentEnvelope ⟨.sendTransaction envelope, answer⟩ = some envelope := rfl
        refine hx.snoc rfl (fun _ => Or.inr ⟨envelope, henvelope⟩) fun hmode f hf => ?_
        cases hf
        exact hfirst hmode
      have hm : m ≤ m + (left + 1) := by omega
      have hn : n + 1 ≤ n + (left + 1) := by omega
      have ht : t ≤ t + backoff (left + 1) := by omega
      cases answer with
      | ok result =>
          dsimp only
          cases result.status with
          | PENDING => exact Fallible.ends_pure (hsent.mono hn hm ht)
          | DUPLICATE => exact Fallible.ends_pure (hsent.mono hn hm ht)
          | TRY_AGAIN_LATER => exact hretry _ (hsent.mono le_rfl (Nat.le_succ m) le_rfl)
          | ERROR => exact Fallible.ends_throw ⟨true, hsent.mono hn hm ht⟩
      | error error =>
          dsimp only
          refine Fallible.ends_bind (asks fun answer => ?_)
          have hchecked := hsent.plain (e := ⟨.getTransaction (ctx.sdk.hash envelope), answer⟩)
            rfl rfl
          have hm' : m + 1 ≤ m + (left + 1) := by omega
          have hagain : Ends freely
              (if left = 0 then throw (.other error) else
                if left = 0 then sendAttempts ctx envelope method left
                else do
                  perform (Op.sleep (100 * 2 ^ (2 - left)))
                  sendAttempts ctx envelope method left)
              (fun _ x => Sending ctx strategy signed true (n + (left + 1)) (m + (left + 1))
                (t + backoff (left + 1)) rate x)
              (fun _ x => ∃ started, Sending ctx strategy signed started (n + (left + 1))
                (m + (left + 1)) (t + backoff (left + 1)) rate x)
              ((), x.2 ++ [⟨.sendTransaction envelope, .error error⟩] ++
                [⟨.getTransaction (ctx.sdk.hash envelope), answer⟩]) := by
            by_cases hleft : left = 0
            · rw [if_pos hleft]
              exact Fallible.ends_throw ⟨true, hchecked.mono hn hm' ht⟩
            · rw [if_neg hleft]
              exact hretry _ hchecked
          cases answer with
          | error error => exact hagain
          | ok confirmation =>
              cases confirmation with
              | SUCCESS ledger returnValue feeCharged =>
                  exact Fallible.ends_pure (hchecked.mono hn hm' ht)
              | FAILED diagnostics => exact Fallible.ends_pure (hchecked.mono hn hm' ht)
              | NOT_FOUND => exact hagain

theorem getFee_spent {context : FeeContext} {fails : Thrown → Asked → Prop}
    (hx : Sending ctx strategy signed started n m t rate x) (hphase : context.phase = .fee_bump)
    (hminimum : context.minimumFee = some (some (rate * 10))) :
    Ends freely (perform (Op.getFee context) : Task (Answer (.getFee context)))
      (fun answer x => (∃ rate, Sending ctx strategy signed started n m t rate x) ∧
        ∀ fee, answer = .ok fee → Sending ctx strategy signed started n m t fee x) fails x := by
  refine asks fun answer => ?_
  cases answer with
  | error message =>
      refine ⟨⟨rate, hx.plain (e := ⟨.getFee context, .error message⟩) rfl rfl⟩, fun fee heq => ?_⟩
      cases heq
  | ok fee =>
      have hbid : Sending ctx strategy signed started n m t fee
          ((), x.2 ++ [⟨.getFee context, .ok fee⟩]) := hx.bid hphase hminimum
      refine ⟨⟨fee, hbid⟩, fun fee' heq => ?_⟩
      cases heq
      exact hbid

/-- A replacement asks for ten times the last bid. -/
theorem buildAndSignFeeBump_spent {fallbackSigner : SignerRole} {previousBumpRate : Option ℤ}
    (hx : Sending ctx strategy signed started n m t rate x)
    (hrate : previousBumpRate.getD (innerRate signed) = rate) :
    Ends freely (buildAndSignFeeBump ctx signed fallbackSigner true previousBumpRate)
      (fun bumped x => Sending ctx strategy signed started n m t bumped.feeRate x)
      (fun _ x => ∃ rate, Sending ctx strategy signed started n m t rate x) x := by
  unfold buildAndSignFeeBump
  refine Fallible.ends_bind (asks fun key => ?_)
  have hx := hx.plain (e := ⟨.getPublicKey _, key⟩) rfl rfl
  refine Fallible.ends_bind (orThrowSigning_freely (fun feeSource => ?_) fun _ => ⟨rate, hx⟩)
  have hminimum := congrArg (fun rate => some (some (rate * 10))) hrate
  refine Fallible.ends_bind ((getFee_spent hx rfl hminimum).imp ?_ fun _ _ h => h)
  rintro answer x ⟨hx, hfee⟩
  refine Fallible.ends_bind (orThrow_freely (fun fee heq => ?_) fun _ => hx)
  have hx := hfee fee heq
  refine Fallible.ends_bind (orThrow_freely (fun total _ => ?_) fun _ => ⟨fee, hx⟩)
  refine Fallible.ends_bind (asks fun answer => ?_)
  have hx := hx.plain (e := ⟨.signTransaction _ _, answer⟩) rfl rfl
  refine Fallible.ends_bind (orThrowSigning_freely (fun signed => ?_) fun _ => ⟨fee, hx⟩)
  cases signed with
  | Tx signed => exact Fallible.ends_throw ⟨fee, hx⟩
  | TxFeeBump signed => exact Fallible.ends_pure hx

theorem expiresSoon_spent {tx : Transaction} {threshold : ℤ} {fails : Thrown → Asked → Prop}
    (hx : Sending ctx strategy signed started n m t rate x) :
    Ends freely (expiresSoon tx threshold)
      (fun _ x => Sending ctx strategy signed started n m t rate x) fails x := by
  unfold expiresSoon
  split
  · exact Fallible.ends_pure hx
  · refine Fallible.ends_bind (asks fun now => ?_)
    exact Fallible.ends_pure (hx.plain (e := ⟨.now, now⟩) rfl rfl)

/-- A replacement needs the mode for it, and a bump that is left. -/
theorem shouldBump_spent {state : Submitted} {attempt : ℕ} {fails : Thrown → Asked → Prop}
    (hx : Sending ctx strategy signed started n m t rate x) :
    Ends freely (shouldBump ctx signed state attempt)
      (fun bump x => Sending ctx strategy signed started n m t rate x ∧
        (bump = true → ctx.feeBump.mode = .on_expiry ∧ state.bumps < ctx.feeBump.maxBumps))
      fails x := by
  unfold shouldBump
  split_ifs with hmode
  · exact Fallible.ends_pure ⟨hx, fun _ => hmode.2⟩
  · exact (expiresSoon_spent hx).imp (fun _ _ hx => ⟨hx, fun _ => hmode.2⟩) fun _ _ h => h
  · exact Fallible.ends_pure ⟨hx, fun hbump => by cases hbump⟩

/-- Three submissions more, and a bid. -/
theorem replaceEnvelope_spent {sourceSigner : SignerRole} {state : Submitted}
    (hx : Sending ctx strategy signed true n m t rate x)
    (hrate : state.previousBumpRate.getD (innerRate signed) = rate) :
    Ends freely (replaceEnvelope ctx signed sourceSigner method state)
      (fun state' x => state'.bumps = state.bumps + 1 ∧
        state'.submissionAttempts = state.submissionAttempts + 1 ∧
        Sending ctx strategy signed true (n + 3) (m + 3) (t + 300)
          (state'.previousBumpRate.getD (innerRate signed)) x)
      (fun _ x => ∃ started rate, Sending ctx strategy signed started (n + 3) (m + 3) (t + 300)
        rate x) x := by
  refine Fallible.ends_bind ((buildAndSignFeeBump_spent hx hrate).imp ?_ ?_)
  · intro bumped x hx
    refine Fallible.ends_bind ((sendAttempts_spent 3 hx fun _ => Or.inl rfl).imp ?_ ?_)
    · exact fun hash x hx => Fallible.ends_pure ⟨rfl, rfl, hx⟩
    · rintro thrown x ⟨started, hx⟩
      exact ⟨started, _, hx⟩
  · rintro thrown x ⟨rate, hx⟩
    exact ⟨true, rate, hx.mono (by omega) (by omega) (by omega)⟩

/-- The loop polls once a second, and replaces the envelope as often as it may. -/
theorem poll_spent {sourceSigner : SignerRole} {sourceAddress : String} {state : Submitted}
    (left : ℕ) {polled : ℕ} (hpolled : polled + left = POLL_ATTEMPTS)
    (hbumps : state.submissionAttempts ≤ 1 + state.bumps)
    (hmax : state.submissionAttempts ≤ 1 + ctx.feeBump.maxBumps)
    (hrate : ctx.feeBump.mode = .on_expiry →
      state.previousBumpRate.getD (innerRate signed) = rate)
    (hx : Sending ctx strategy signed true (3 * state.submissionAttempts)
      (3 * state.submissionAttempts + polled) (300 * state.submissionAttempts + 1000 * polled)
      rate x) :
    Ends freely (poll ctx signed sourceSigner sourceAddress method state left)
      (fun _ => Bounded ctx strategy) (fun _ => Bounded ctx strategy) x := by
  induction left generalizing state polled rate x with
  | zero => exact Fallible.ends_throw (hx.bounded (by omega) (by omega) (by omega))
  | succ left ih =>
      rw [poll]
      refine Fallible.ends_bind (asks fun answer => ?_)
      have hx := hx.plain (e := ⟨.getTransaction state.hash, answer⟩) rfl rfl
      have hpolled' : polled + 1 + left = POLL_ATTEMPTS := by omega
      have hbounded : ∀ {x started rate n m t}, Sending ctx strategy signed started n m t rate x →
          n ≤ 3 * state.submissionAttempts → m ≤ 3 * state.submissionAttempts + polled + 1 →
          t ≤ 300 * state.submissionAttempts + 1000 * polled →
          Bounded ctx strategy x :=
        fun hx hn hm ht => hx.bounded (by omega) (by omega) (by omega)
      refine Fallible.ends_bind (orThrow_freely (fun confirmation hanswer => ?_)
        fun _ => hbounded hx le_rfl le_rfl le_rfl)
      cases confirmation with
      | SUCCESS ledger returnValue feeCharged =>
          exact Fallible.ends_pure (hbounded hx le_rfl le_rfl le_rfl)
      | FAILED diagnostics => exact Fallible.ends_throw (hbounded hx le_rfl le_rfl le_rfl)
      | NOT_FOUND =>
          refine Fallible.ends_bind ((shouldBump_spent hx).imp ?_ fun _ _ h => h)
          rintro bump x ⟨hx, hbump⟩
          cases bump with
          | true =>
              obtain ⟨hmode, hleft⟩ := hbump rfl
              refine Fallible.ends_bind ((replaceEnvelope_spent hx (hrate hmode)).imp ?_ ?_)
              · rintro state' x ⟨hbumps', hattempts, hx⟩
                refine ih hpolled' (by omega) (by omega) (fun _ => rfl)
                  (hx.mono ?_ ?_ ?_)
                all_goals
                  simp only [Op.submissions, Op.checks, Op.slept]
                  omega
              · rintro thrown x ⟨started, rate, hx⟩
                refine hx.bounded ?_ ?_ ?_
                all_goals
                  simp only [Op.submissions, Op.checks, Op.slept]
                  omega
          | false =>
              refine Fallible.ends_bind (asks fun _ => ?_)
              have hx := hx.plain (e := ⟨.sleep 1000, ()⟩) rfl rfl
              refine ih hpolled' hbumps hmax hrate (hx.mono ?_ ?_ ?_)
              all_goals
                simp only [Op.submissions, Op.checks, Op.slept]
                omega

/-! ## Before the submission -/

theorem simulate_spent {tx : Transaction} (hx : Quiet ctx x) :
    Ends freely (simulate tx method) (fun _ => Quiet ctx) (fun _ => Quiet ctx) x := by
  refine Fallible.ends_bind (asks fun answer => ?_)
  have hx := hx.snoc (e := ⟨.simulateTransaction tx, answer⟩) rfl rfl fun _ => rfl
  refine Fallible.ends_bind (orThrow_freely (fun simulation _ => ?_) fun _ => hx)
  cases simulation with
  | error error => exact Fallible.ends_throw hx
  | restore => exact Fallible.ends_throw hx
  | success simulation => exact Fallible.ends_pure hx

theorem signEntry_spent {validUntilLedgerSeq : ℕ} {entry : SorobanAuthorizationEntry}
    (hx : Quiet ctx x) :
    Ends freely (signEntry validUntilLedgerSeq entry) (fun _ => Quiet ctx) (fun _ => Quiet ctx)
      x := by
  unfold signEntry
  split
  · exact Fallible.ends_pure hx
  · refine Fallible.ends_bind (asks fun answer => ?_)
    have hx := hx.snoc (e := ⟨.signAuthEntry entry _, answer⟩) rfl rfl fun _ => rfl
    exact orThrowSigning_freely (fun _ => hx) fun _ => hx

/-- A first submission that is always bumped. -/
theorem firstBump_spent (hmode : ctx.feeBump.mode = .always) {fallbackSigner : SignerRole}
    (hx : Quiet ctx x) :
    Ends freely (buildAndSignFeeBump ctx signed fallbackSigner false none)
      (fun _ => Quiet ctx) (fun _ => Quiet ctx) x := by
  have halways : ∀ {e : Event Op Answer}, ctx.feeBump.mode = .on_expiry → bid e = none := by
    intro e heq
    rw [hmode] at heq
    cases heq
  unfold buildAndSignFeeBump
  refine Fallible.ends_bind (asks fun key => ?_)
  have hx := hx.snoc (e := ⟨.getPublicKey _, key⟩) rfl rfl halways
  refine Fallible.ends_bind (orThrowSigning_freely (fun feeSource => ?_) fun _ => hx)
  refine Fallible.ends_bind (asks fun answer => ?_)
  have hx := hx.snoc (e := ⟨.getFee _, answer⟩) rfl rfl halways
  refine Fallible.ends_bind (orThrow_freely (fun fee _ => ?_) fun _ => hx)
  refine Fallible.ends_bind (orThrow_freely (fun total _ => ?_) fun _ => hx)
  refine Fallible.ends_bind (asks fun answer => ?_)
  have hx := hx.snoc (e := ⟨.signTransaction _ _, answer⟩) rfl rfl halways
  refine Fallible.ends_bind (orThrowSigning_freely (fun signed => ?_) fun _ => hx)
  cases signed with
  | Tx signed => exact Fallible.ends_throw hx
  | TxFeeBump signed => exact Fallible.ends_pure hx

/-- What is submitted first is the signed transaction, unless fees are always bumped. -/
structure Prepared.Plain (ctx : InvocationContext) (prepared : Prepared) : Prop where
  envelope : ctx.feeBump.mode = .on_expiry → prepared.envelope = .Tx prepared.signed
  rate : ctx.feeBump.mode = .on_expiry → prepared.previousBumpRate = none

theorem prepare_spent {sourceSigner : SignerRole} {operation : TxOperation} {tx : Transaction}
    {simulation : SimulationSuccess} (hx : Quiet ctx x) :
    Ends freely (prepare ctx sourceSigner operation tx simulation)
      (fun prepared x => Quiet ctx x ∧ prepared.Plain ctx) (fun _ => Quiet ctx) x := by
  unfold prepare
  refine Fallible.ends_bind ((Fallible.ends_mapM (Quiet ctx) _
    (fun entry _ x hx => signEntry_spent hx) hx).imp (fun auth x hx => ?_) fun _ _ h => h)
  dsimp only
  refine Fallible.ends_bind (asks fun answer => ?_)
  have hx := hx.snoc (e := ⟨.signTransaction _ _, answer⟩) rfl rfl fun _ => rfl
  refine Fallible.ends_bind (orThrowSigning_freely (fun signed => ?_) fun _ => hx)
  cases signed with
  | TxFeeBump signed => exact Fallible.ends_throw hx
  | Tx signed =>
      dsimp only
      split_ifs with halways
      · refine Fallible.ends_bind ((firstBump_spent halways.2 hx).imp (fun bumped x hx => ?_)
          fun _ _ h => h)
        refine Fallible.ends_pure ⟨hx, fun heq => ?_, fun heq => ?_⟩
        all_goals
          rw [halways.2] at heq
          cases heq
      · exact Fallible.ends_pure ⟨hx, fun _ => rfl, fun _ => rfl⟩

theorem beforeSubmission_spent {sourceAddress : String} {sourceSigner : SignerRole}
    {contractId : String} {args : List ScVal} {readOnly : Bool} (hx : Quiet ctx x) :
    Ends freely (beforeSubmission ctx sourceAddress sourceSigner contractId method args readOnly)
      (fun simulated x => Quiet ctx x ∧
        ∀ prepared, simulated = .mutation prepared → prepared.Plain ctx)
      (fun _ => Quiet ctx) x := by
  unfold beforeSubmission
  refine Fallible.ends_bind (asks fun answer => ?_)
  have hx := hx.snoc (e := ⟨.getAccount _, answer⟩) rfl rfl fun _ => rfl
  refine Fallible.ends_bind (orThrow_freely (fun account _ => ?_) fun _ => hx)
  dsimp only
  refine Fallible.ends_bind (asks fun answer => ?_)
  have hx := hx.snoc (e := ⟨.getFee _, answer⟩) rfl rfl fun _ => by cases answer <;> rfl
  refine Fallible.ends_bind (orThrow_freely (fun initialFee _ => ?_) fun _ => hx)
  refine Fallible.ends_bind (asks fun now => ?_)
  have hx := hx.snoc (e := ⟨.now, now⟩) rfl rfl fun _ => rfl
  refine Fallible.ends_bind ((simulate_spent hx).imp (fun simulation x hx => ?_) fun _ _ h => h)
  cases readOnly with
  | true =>
      refine Fallible.ends_pure ⟨hx, fun prepared heq => ?_⟩
      cases heq
  | false =>
      refine Fallible.ends_bind ((prepare_spent hx).imp ?_ fun _ _ h => h)
      rintro prepared x ⟨hx, hplain⟩
      refine Fallible.ends_pure ⟨hx, fun prepared' heq => ?_⟩
      cases heq
      exact hplain

/-! ## The whole call -/

theorem insideLease_spent {sourceAddress : String} {sourceSigner : SignerRole}
    {contractId : String} {args : List ScVal} {readOnly : Bool} (hx : Quiet ctx x) :
    Program.Under freely
      (insideLease ctx sourceAddress sourceSigner contractId method args readOnly)
      (fun _ => Bounded ctx strategy) x := by
  refine Fallible.ends_run ((beforeSubmission_spent hx).imp ?_ fun _ _ hx => hx.bounded)
  rintro simulated x ⟨hx, hplain⟩
  cases simulated with
  | query outcome => exact hx.bounded
  | mutation prepared =>
      have hplain := hplain prepared rfl
      have hx : Sending ctx strategy prepared.signed false 0 0 0 (innerRate prepared.signed) x :=
        hx.sending
      refine Fallible.ends_run ((sendAttempts_spent 3 hx fun hmode =>
        Or.inr (hplain.envelope hmode)).imp ?_ ?_)
      · intro hash x hx
        refine Fallible.ends_run ((poll_spent POLL_ATTEMPTS (Nat.zero_add _) (Nat.le_add_right _ _)
          (Nat.le_add_right _ _) (fun hmode => ?_) hx).imp (fun _ _ h => h) fun _ _ h => h)
        show prepared.previousBumpRate.getD _ = _
        rw [hplain.rate hmode]
        rfl
      · rintro thrown x ⟨started, hx⟩
        exact hx.bounded (by omega) (by omega) (by simp [backoff]; omega)

/-- An event that costs nothing at the end of a call. -/
theorem Bounded.snoc {e : Event Op Answer} (hx : Bounded ctx strategy x)
    (hcost : (e.op.submissions, e.op.checks, e.op.slept) = (0, 0, 0)) (hsent : sentEnvelope e = none)
    (hbid : bid e = none) : Bounded ctx strategy ((), x.2 ++ [e]) where
  spent := by
    obtain ⟨hsubmissions, hcosts⟩ := Prod.mk.inj hcost
    obtain ⟨hchecks, hslept⟩ := Prod.mk.inj hcosts
    have hspent := hx.spent.snoc e
    rwa [hsubmissions, hchecks, hslept] at hspent
  tenfold := by
    intro hmode hby signed hfirst
    have htenfold := hx.tenfold hmode hby.of_append signed
    rw [sent_snoc, hsent, Option.toList_none, List.append_nil] at hfirst
    rw [bids_snoc, hbid, Option.toList_none, List.append_nil]
    exact htenfold hfirst

theorem quiet_nil : Quiet ctx ((), []) := ⟨rfl, ⟨le_rfl, le_rfl, le_rfl⟩, fun _ => rfl⟩

theorem runInvocation_under_freely {contractId : String} {args : List ScVal} {readOnly : Bool} :
    Program.Under freely (runInvocation ctx contractId method args readOnly)
      (fun _ => Bounded ctx strategy) ((), []) := by
  have hown : ∀ {x sourceAddress sourceSigner}, Quiet ctx x → Program.Under freely
      (insideLease ctx sourceAddress sourceSigner contractId method args readOnly)
      (fun _ => Bounded ctx strategy) x := fun hx => insideLease_spent hx
  unfold runInvocation
  split_ifs
  · refine Environment.under_ask (P := fun y => y = ((), [])) (fun _ _ hstirs => ?_) ?_ rfl
    · exact False.elim hstirs.1
    rintro _ answer ⟨_, es⟩ rfl ⟨_, hes⟩
    obtain rfl : es = [⟨.lease, answer⟩] := hes
    have hx : Quiet ctx ((), [⟨.lease, answer⟩]) := quiet_nil.snoc rfl rfl fun _ => rfl
    cases answer with
    | error message => exact hx.bounded
    | ok address =>
        show Program.Under _
          (insideLease ctx address .channel contractId method args readOnly >>= _) _ _
        refine Program.under_bind.mpr ((hown hx).imp ?_)
        rintro ⟨result, accepted⟩ x hx
        refine Environment.under_ask (P := fun y => y = x) (fun _ _ hstirs => ?_) ?_ rfl
        · exact False.elim hstirs.1
        rintro _ answer ⟨_, es⟩ rfl ⟨_, hes⟩
        obtain rfl : es = _ := hes
        have hx := hx.snoc (e := ⟨.release (if accepted then .committed else .rolled_back), answer⟩)
          rfl rfl rfl
        cases answer with
        | error message => exact hx
        | ok _ => exact hx
  · refine Program.under_bind.mpr ((hown quiet_nil).imp ?_)
    rintro ⟨result, accepted⟩ x hx
    exact hx

/-- From now on everything fails. -/
def failing : (op : Op) → Answer op
  | .lease => .error ""
  | .release _ => .error ""
  | .getAccount _ => .error ""
  | .getFee _ => .error ""
  | .now => (0 : ℕ)
  | .sleep _ => ()
  | .simulateTransaction _ => .error ""
  | .getPublicKey _ => .error (.other "")
  | .signAuthEntry _ _ => .error (.other "")
  | .signTransaction _ _ => .error (.other "")
  | .sendTransaction _ => .error ""
  | .getTransaction _ => .error ""

/-- What the call has asked so far is the beginning of a whole call without another bid. -/
theorem exists_bounded {contractId : String} {args : List ScVal} {readOnly : Bool}
    {es : List (Event Op Answer)} {q : Program Op Answer (Except Thrown Outcome)}
    (strategy : FeeStrategy)
    (hsteps : (runInvocation ctx contractId method args readOnly).Steps es q) :
    ∃ rest, bids rest = [] ∧ (BidBy strategy es → BidBy strategy (es ++ rest)) ∧
      Bounded ctx strategy ((), es ++ rest) := by
  obtain ⟨rest, result, htrace, hrest⟩ := Environment.exists_trace_answered failing q
  have hfee : ∀ context fee, ⟨.getFee context, .ok fee⟩ ∈ rest → False := by
    intro context fee hmem
    cases hrest _ hmem
  refine ⟨rest, List.filterMap_eq_nil_iff.mpr ?_, fun hby context fee hmem hphase => ?_, ?_⟩
  · rintro ⟨op, answer⟩ he
    cases op with
    | getFee context =>
        cases answer with
        | error message => rfl
        | ok fee => exact (hfee context fee he).elim
    | _ => rfl
  · rcases List.mem_append.mp hmem with hmem | hmem
    · exact hby context fee hmem hphase
    · exact (hfee context fee hmem).elim
  · have hunder : Program.Under freely (runInvocation ctx contractId method args readOnly)
        (fun _ => Bounded ctx strategy) ((), []) := runInvocation_under_freely
    have hbounded := Environment.result_of_trace hunder (hsteps.append htrace)
    exact hbounded

variable {contractId : String} {args : List ScVal} {readOnly : Bool}
  {es : List (Event Op Answer)} {q : Program Op Answer (Except Thrown Outcome)}

def bumpingContext : InvocationContext where
  sdk := plainSdk
  address := "G"
  hasPool := false
  hasFeeStats := false
  feeBump := {
    enabled := true, mode := .on_expiry, hasSigner := false
    triggerAfterAttempts := 1, expiryThresholdSeconds := 10, maxBumps := 2 }

/-- What a fee bump over the envelope asks the strategy for -/
def bumpContext : FeeContext where
  phase := .fee_bump
  operationCount := 2
  minimumFee := some (some 1000)
  previousFee := some (some 100)
  soroban := some true
  hasFeeStats := false

def bumpingEvents : List (Event Op Answer) := [
  ⟨.getAccount "G", .ok ⟨channelAccount, 7⟩⟩,
  ⟨.getFee ⟨.initial, 1, some (some 100), none, some true, false⟩, .ok 100⟩,
  ⟨.now, (0 : ℕ)⟩,
  ⟨.simulateTransaction channelEnvelope.transaction, .ok (.success ⟨none, [], 0, [], 0⟩)⟩,
  ⟨.signTransaction .agent channelEnvelope, .ok channelEnvelope⟩,
  ⟨.sendTransaction channelEnvelope, .ok ⟨.PENDING, "a1", "", none⟩⟩,
  ⟨.getTransaction "a1", .ok .NOT_FOUND⟩,
  ⟨.getPublicKey .agent, .ok "G"⟩,
  ⟨.getFee bumpContext, .ok 1000⟩]

theorem bumping_steps : ∃ q,
    (runInvocation bumpingContext "C" "pay" [] false).Steps bumpingEvents q :=
  ⟨_, .cons (.cons (.cons (.cons (.cons (.cons (.cons (.cons (.cons (.nil _)))))))))⟩

/-- **A replacement bids at least ten times what it replaces**, with any fee strategy: the rate of
the envelope that was sent first and the bids of the fee bumps after it are tenfold. -/
theorem runInvocation_tenfold
    (hsteps : (runInvocation ctx contractId method args readOnly).Steps es q)
    (hmode : ctx.feeBump.mode = .on_expiry) (hby : BidBy strategy es)
    (hfirst : (sent es).head? = some (.Tx signed)) :
    Tenfold (innerRate signed :: bids es) := by
  obtain ⟨rest, hbids, hby', hbounded⟩ := exists_bounded strategy hsteps
  have hhead : (sent (es ++ rest)).head? = some (.Tx signed) := by
    rw [sent, List.filterMap_append, List.head?_append]
    exact Option.or_eq_some_iff.mpr (Or.inl hfirst)
  have htenfold := hbounded.tenfold hmode (hby' hby) signed hhead
  rw [bids, List.filterMap_append] at htenfold
  change Tenfold (innerRate signed :: (bids es ++ bids rest)) at htenfold
  rwa [hbids, List.append_nil] at htenfold

/-- A fixed fee is raised to what is asked for. -/
theorem runInvocation_tenfold_bumping : Tenfold [100, 1000] := by
  obtain ⟨q, hsteps⟩ := bumping_steps
  have hby : BidBy (.Fixed ⟨100, by decide⟩) bumpingEvents := by
    intro context fee hmem hphase
    have hcases : (context = ⟨.initial, 1, some (some 100), none, some true, false⟩ ∧ fee = 100) ∨
        (context = bumpContext ∧ fee = 1000) := by
      simpa [bumpingEvents] using hmem
    obtain ⟨rfl, _⟩ | ⟨rfl, rfl⟩ := hcases
    · cases hphase
    · exact ⟨[], Fallible.trace_ofExcept.mpr ⟨rfl, rfl⟩⟩
  exact runInvocation_tenfold hsteps rfl hby rfl

end

end StellarAgent.Agent
