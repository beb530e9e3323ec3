import StellarAgent.Agent.Invocation
import StellarAgent.Lib.Worlds

set_option autoImplicit false

/-! # What an invocation says of the ledger

A mutation of the TypeScript SDK runs against a network that anyone may send envelopes to, that
applies what it has received at any later moment, and that may receive a submission without
answering it. The RPC server tells the truth about what has been applied, and signers only add
signatures.

All envelopes of one call compete for one sequence number (`Submitting.slot`). So a call that
resolves has paid once, and a call that is rejected with the hash of a failed transaction never
pays; a lease is released as committed only if the network has an envelope of the call.
-/

namespace StellarAgent.Agent

open Lib
open Lib.Fallible (Ends perform)
open Signer (TransactionV1Envelope Transaction TxOperation SorobanAuthorizationEntry MuxedAccount
  ScVal)

/-! ## The network -/

deriving instance DecidableEq for MuxedAccount

/-- What applying a transaction takes: a sequence number of its source account -/
structure Slot where
  source : MuxedAccount
  sequence : ℤ
  deriving DecidableEq

namespace Envelope

def slot (envelope : Envelope) : Slot where
  source := envelope.transaction.source_account
  sequence := envelope.transaction.seq_num

theorem slot_unsigned (envelope : Envelope) : envelope.unsigned.slot = envelope.slot := by
  cases envelope with
  | Tx inner => rfl
  | TxFeeBump bump => rfl

theorem slot_eq_of_unsigned {e e' : Envelope} (h : e.unsigned = e'.unsigned) :
    e.slot = e'.slot := by
  rw [← e.slot_unsigned, h, e'.slot_unsigned]

end Envelope

/-- An envelope that has been applied, with success or not -/
structure Applied where
  envelope : Envelope
  success : Bool

/-- What the network has received, and what has settled each sequence number for good. -/
structure Network where
  received : List Envelope
  settled : Slot → Option Applied
  settled_spec : ∀ slot applied, settled slot = some applied →
    applied.envelope.slot = slot ∧ applied.envelope ∈ received

namespace Network

/-- Anyone's envelope is received, or a received one is applied. -/
inductive Stirs (k k' : Network) : Prop
  | received (envelope : Envelope) (hreceived : k'.received = envelope :: k.received)
      (hsettled : k'.settled = k.settled)
  | applied (applied : Applied) (hmem : applied.envelope ∈ k.received)
      (hfree : k.settled applied.envelope.slot = none) (hreceived : k'.received = k.received)
      (hsettled : k'.settled applied.envelope.slot = some applied)
      (hother : ∀ slot, slot ≠ applied.envelope.slot → k'.settled slot = k.settled slot)

/-- An envelope with the hash has been applied. -/
def Settled (sdk : StellarSdk) (k : Network) (hash : String) (success : Bool) : Prop :=
  ∃ slot envelope, k.settled slot = some ⟨envelope, success⟩ ∧ sdk.hash envelope = hash

/-- An envelope with the hash has been received. -/
def Known (sdk : StellarSdk) (k : Network) (hash : String) : Prop :=
  ∃ envelope ∈ k.received, sdk.hash envelope = hash

/-- What is said of a transaction is true. -/
def Reports (sdk : StellarSdk) (k : Network) (hash : String) :
    Except String Confirmation → Prop
  | .ok (.SUCCESS ..) => k.Settled sdk hash true
  | .ok (.FAILED _) => k.Settled sdk hash false
  | _ => True

/-- A submission, which may be received, answered or not. A receipt is given for its hash, and only
if the network has it. -/
structure Submits (sdk : StellarSdk) (k : Network) (envelope : Envelope)
    (answer : Except String SendResult) (k' : Network) : Prop where
  received : k'.received = k.received ∨ k'.received = envelope :: k.received
  settled : k'.settled = k.settled
  hash : ∀ result, answer = .ok result → result.hash = sdk.hash envelope
  accepted : ∀ result, answer = .ok result →
    result.status = .PENDING ∨ result.status = .DUPLICATE → k'.Known sdk (sdk.hash envelope)

/-- How a question is answered. -/
def Answers (sdk : StellarSdk) (k : Network) : Event Op Answer → Network → Prop
  | ⟨.sendTransaction envelope, answer⟩, k' => k.Submits sdk envelope answer k'
  | ⟨.getTransaction hash, answer⟩, k' => k' = k ∧ k.Reports sdk hash answer
  | ⟨.signTransaction _ envelope, answer⟩, k' =>
      k' = k ∧ ∀ signed, answer = .ok signed → signed.unsigned = envelope.unsigned
  | _, k' => k' = k

/-- What one call runs against -/
def environment (sdk : StellarSdk) : Environment Op Answer Network where
  Stirs := Stirs
  Answers := Answers sdk

/-- No two envelopes that were received or are among these have one hash. -/
def Distinct (sdk : StellarSdk) (k : Network) (sent : List Envelope) : Prop :=
  ∀ e ∈ k.received ++ sent, ∀ e' ∈ k.received ++ sent, sdk.hash e = sdk.hash e' →
    e.unsigned = e'.unsigned

/-- A later network has received more, and what is settled stays settled. -/
structure Later (k k' : Network) : Prop where
  received : k.received ⊆ k'.received
  settled : ∀ slot applied, k.settled slot = some applied → k'.settled slot = some applied

variable {sdk : StellarSdk} {k k' : Network} {hash : String}

theorem Stirs.later (h : k.Stirs k') : k.Later k' := by
  cases h with
  | received envelope hreceived hsettled =>
      refine ⟨fun e he => ?_, fun slot applied hslot => ?_⟩
      · rw [hreceived]
        exact List.mem_cons_of_mem _ he
      · rw [hsettled]
        exact hslot
  | applied applied hmem hfree hreceived hsettled hother =>
      refine ⟨hreceived ▸ List.Subset.refl _, fun slot applied' hslot => ?_⟩
      have hne : slot ≠ applied.envelope.slot := by
        rintro rfl
        rw [hfree] at hslot
        cases hslot
      rw [hother slot hne]
      exact hslot

theorem Submits.later {envelope : Envelope} {answer : Except String SendResult}
    (h : k.Submits sdk envelope answer k') : k.Later k' := by
  refine ⟨fun e he => ?_, fun slot applied hslot => by rw [h.settled]; exact hslot⟩
  rcases h.received with hreceived | hreceived
  · rw [hreceived]
    exact he
  · rw [hreceived]
    exact List.mem_cons_of_mem _ he

theorem Later.settled_hash {success : Bool} (h : k.Later k') :
    k.Settled sdk hash success → k'.Settled sdk hash success := by
  rintro ⟨slot, envelope, hslot, hhash⟩
  exact ⟨slot, envelope, h.settled _ _ hslot, hhash⟩

theorem Later.known (h : k.Later k') : k.Known sdk hash → k'.Known sdk hash := by
  rintro ⟨envelope, hmem, hhash⟩
  exact ⟨envelope, h.received hmem, hhash⟩

theorem Settled.known {success : Bool} (h : k.Settled sdk hash success) : k.Known sdk hash := by
  obtain ⟨slot, envelope, hslot, hhash⟩ := h
  exact ⟨envelope, (k.settled_spec _ _ hslot).2, hhash⟩

end Network

/-! ## What a call has asked -/

/-- The envelope that an event submits -/
def sentEnvelope : Event Op Answer → Option Envelope
  | ⟨.sendTransaction envelope, _⟩ => some envelope
  | _ => none

/-- Whether an event is a submission that the server has accepted -/
def isAccepted : Event Op Answer → Bool
  | ⟨.sendTransaction _, .ok result⟩ => result.status == .PENDING || result.status == .DUPLICATE
  | _ => false

/-- The envelopes submitted in a history -/
def sent (es : List (Event Op Answer)) : List Envelope := es.filterMap sentEnvelope

def Op.isLeasing : Op → Bool
  | .lease | .release _ => true
  | _ => false

/-- Neither a submission nor about a lease -/
def Op.isQuiet : Op → Bool
  | .sendTransaction _ | .lease | .release _ => false
  | _ => true

/-- What was asked after the beginning is not about a lease. -/
def Within (start es : List (Event Op Answer)) : Prop :=
  ∃ inner, es = start ++ inner ∧ ∀ e ∈ inner, e.op.isLeasing = false

/-- The network, and what the call has asked so far -/
abbrev Seen := Network × List (Event Op Answer)

section

variable {start es : List (Event Op Answer)} {e : Event Op Answer} {sdk : StellarSdk}
  {k k' : Network}

theorem sent_snoc : sent (es ++ [e]) = sent es ++ (sentEnvelope e).toList := by
  rw [sent, List.filterMap_append]
  cases h : sentEnvelope e with
  | none => simp [sent, h]
  | some envelope => simp [sent, h]

theorem within_self : Within start start := ⟨[], (List.append_nil start).symm, by simp⟩

theorem Within.snoc (h : Within start es) (he : e.op.isLeasing = false) :
    Within start (es ++ [e]) := by
  obtain ⟨inner, rfl, hinner⟩ := h
  refine ⟨inner ++ [e], List.append_assoc _ _ _, fun e' he' => ?_⟩
  rcases List.mem_append.mp he' with he' | he'
  · exact hinner e' he'
  · rw [List.mem_singleton.mp he']
    exact he

theorem mem_sent_snoc {envelope : Envelope} {answer : Except String SendResult} :
    envelope ∈ sent (es ++ [⟨.sendTransaction envelope, answer⟩]) := by
  rw [sent_snoc]
  exact List.mem_append_right _ List.mem_cons_self

theorem sentEnvelope_of_quiet (h : e.op.isQuiet = true) : sentEnvelope e = none := by
  obtain ⟨op, answer⟩ := e
  cases op <;> first | rfl | cases h

theorem isLeasing_of_quiet (h : e.op.isQuiet = true) : e.op.isLeasing = false := by
  obtain ⟨op, answer⟩ := e
  cases op <;> first | rfl | cases h

theorem isAccepted_of_quiet (h : e.op.isQuiet = true) : isAccepted e = false := by
  obtain ⟨op, answer⟩ := e
  cases op <;> first | rfl | cases h

/-- Only a submission changes the network. -/
theorem Network.Answers.eq_of_quiet (h : k.Answers sdk e k') (hquiet : e.op.isQuiet = true) :
    k' = k := by
  obtain ⟨op, answer⟩ := e
  cases op
  case sendTransaction => cases hquiet
  case getTransaction => exact h.1
  case signTransaction => exact h.1
  all_goals exact h

end

/-! ## What holds on the way -/

/-- What holds along the call: it is kept as the network moves, and by quiet questions. -/
structure Kept (P : Seen → Prop) : Prop where
  later : ∀ k k' es, k.Later k' → P (k, es) → P (k', es)
  quiet : ∀ k es e, e.op.isQuiet = true → P (k, es) → P (k, es ++ [e])

theorem Kept.and {P Q : Seen → Prop} (hP : Kept P) (hQ : Kept Q) : Kept fun x => P x ∧ Q x where
  later := fun k k' es hlater h => ⟨hP.later k k' es hlater h.1, hQ.later k k' es hlater h.2⟩
  quiet := fun k es e he h => ⟨hP.quiet k es e he h.1, hQ.quiet k es e he h.2⟩

theorem stirs_of_later {P : Seen → Prop} {sdk : StellarSdk}
    (hP : ∀ k k' es, k.Later k' → P (k, es) → P (k', es)) (x x' : Seen)
    (hstirs : (Network.environment sdk).logged.Stirs x x') (hx : P x) : P x' := by
  obtain ⟨k, es⟩ := x
  obtain ⟨k', es'⟩ := x'
  obtain ⟨hk, rfl⟩ : k.Stirs k' ∧ es' = es := hstirs
  exact hP k k' es' hk.later hx

theorem Kept.stirs {P : Seen → Prop} {sdk : StellarSdk} (hP : Kept P) (x x' : Seen)
    (hstirs : (Network.environment sdk).logged.Stirs x x') (hx : P x) : P x' :=
  stirs_of_later hP.later x x' hstirs hx

/-- Nothing has been submitted. -/
structure Preparing (start : List (Event Op Answer)) (x : Seen) : Prop where
  unsent : sent x.2 = []
  held : Within start x.2
  refused : ∀ e ∈ x.2, isAccepted e = false

/-- **What has been submitted competes for one sequence number**; the first submission has not
been accepted yet if this is the `first`, and else the network has an envelope of the call. -/
structure Submitting (sdk : StellarSdk) (start : List (Event Op Answer)) (slot : Slot)
    (first : Bool) (x : Seen) : Prop where
  slot : ∀ envelope ∈ sent x.2, envelope.slot = slot
  held : Within start x.2
  refused : first = true → ∀ e ∈ x.2, isAccepted e = false
  known : first = false → ∃ envelope ∈ sent x.2, x.1.Known sdk (sdk.hash envelope)

/-- The call has submitted an envelope with the hash, and the network has one. -/
structure Handed (sdk : StellarSdk) (hash : String) (x : Seen) : Prop where
  sent : ∃ envelope ∈ sent x.2, sdk.hash envelope = hash
  known : x.1.Known sdk hash

/-- An error that names the hash of a failed transaction is right about it. -/
def Rejected (sdk : StellarSdk) (thrown : Thrown) (x : Seen) : Prop :=
  ∀ error hash, thrown = .agent error → error.transactionHash = some hash →
    error.code ≠ .TRANSACTION_TIMEOUT →
    (∃ envelope ∈ sent x.2, sdk.hash envelope = hash) ∧ x.1.Settled sdk hash false

/-- A result is right about its hash. -/
def Confirmed (sdk : StellarSdk) (outcome : Outcome) (x : Seen) : Prop :=
  (∃ envelope ∈ sent x.2, sdk.hash envelope = outcome.tx.hash) ∧
    x.1.Settled sdk outcome.tx.hash true

section

variable {start : List (Event Op Answer)} {slot : Slot} {first : Bool} {sdk : StellarSdk}
  {hash : String} {x : Seen}

theorem preparing_kept : Kept (Preparing start) where
  later := fun _ _ _ _ h => ⟨h.unsent, h.held, h.refused⟩
  quiet := by
    intro k es e he h
    refine ⟨?_, ?_, fun e' he' => ?_⟩
    · show sent (es ++ [e]) = []
      rw [sent_snoc, h.unsent, sentEnvelope_of_quiet he]
      rfl
    · exact h.held.snoc (isLeasing_of_quiet he)
    · rcases List.mem_append.mp he' with he' | he'
      · exact h.refused e' he'
      · rw [List.mem_singleton.mp he']
        exact isAccepted_of_quiet he

theorem submitting_kept : Kept (Submitting sdk start slot first) where
  later := by
    intro k k' es hlater h
    refine ⟨h.slot, h.held, h.refused, fun hfirst => ?_⟩
    obtain ⟨envelope, hmem, hknown⟩ := h.known hfirst
    exact ⟨envelope, hmem, hlater.known hknown⟩
  quiet := by
    intro k es e he h
    refine ⟨fun envelope hmem => ?_, ?_, fun hfirst e' he' => ?_, fun hfirst => ?_⟩
    · rw [sent_snoc, sentEnvelope_of_quiet he] at hmem
      exact h.slot envelope (by simpa using hmem)
    · exact h.held.snoc (isLeasing_of_quiet he)
    · rcases List.mem_append.mp he' with he' | he'
      · exact h.refused hfirst e' he'
      · rw [List.mem_singleton.mp he']
        exact isAccepted_of_quiet he
    · obtain ⟨envelope, hmem, hknown⟩ := h.known hfirst
      refine ⟨envelope, ?_, hknown⟩
      rw [sent_snoc]
      exact List.mem_append_left _ hmem

theorem handed_kept : Kept (Handed sdk hash) where
  later := fun _ _ _ hlater h => ⟨h.sent, hlater.known h.known⟩
  quiet := by
    intro k es e _ h
    obtain ⟨envelope, hmem, hhash⟩ := h.sent
    refine ⟨⟨envelope, ?_, hhash⟩, h.known⟩
    rw [sent_snoc]
    exact List.mem_append_left _ hmem

/-- What has been submitted stays so. -/
theorem sent_kept {envelope : Envelope} : Kept fun x => envelope ∈ sent x.2 where
  later := fun _ _ _ _ h => h
  quiet := by
    intro k es e _ h
    rw [sent_snoc]
    exact List.mem_append_left _ h

theorem Preparing.submitting (h : Preparing start x) : Submitting sdk start slot true x where
  slot := by
    intro envelope hmem
    rw [h.unsent] at hmem
    cases hmem
  held := h.held
  refused := fun _ => h.refused
  known := fun hfirst => by cases hfirst

/-- The network has what has been submitted. -/
theorem Submitting.handed (h : Submitting sdk start slot first x)
    (hhanded : Handed sdk hash x) :
    Submitting sdk start slot false x where
  slot := h.slot
  held := h.held
  refused := fun hfirst => by cases hfirst
  known := by
    obtain ⟨envelope, hmem, rfl⟩ := hhanded.sent
    exact fun _ => ⟨envelope, hmem, hhanded.known⟩

/-- One more submission in the slot. -/
theorem Submitting.send {k k' : Network} {es : List (Event Op Answer)} {envelope : Envelope}
    {answer : Except String SendResult} {first' : Bool}
    (h : Submitting sdk start slot first (k, es))
    (hslot : envelope.slot = slot) (hsubmits : k.Submits sdk envelope answer k')
    (hrefused : first' = true →
      first = true ∧ isAccepted ⟨.sendTransaction envelope, answer⟩ = false)
    (hknown : first' = false → first = false ∨ k'.Known sdk (sdk.hash envelope)) :
    Submitting sdk start slot first' (k', es ++ [⟨.sendTransaction envelope, answer⟩]) where
  slot := by
    intro f hf
    rw [sent_snoc] at hf
    rcases List.mem_append.mp hf with hf | hf
    · exact h.slot f hf
    · rw [List.mem_singleton.mp hf]
      exact hslot
  held := h.held.snoc rfl
  refused := by
    intro hfirst e he
    rcases List.mem_append.mp he with he | he
    · exact h.refused (hrefused hfirst).1 e he
    · rw [List.mem_singleton.mp he]
      exact (hrefused hfirst).2
  known := by
    intro hfirst
    rcases hknown hfirst with hfirst | hknown
    · obtain ⟨f, hmem, hknown⟩ := h.known hfirst
      refine ⟨f, ?_, hsubmits.later.known hknown⟩
      rw [sent_snoc]
      exact List.mem_append_left _ hmem
    · exact ⟨envelope, mem_sent_snoc, hknown⟩

theorem rejected_of_unhashed {error : StellarAgentError} (h : error.transactionHash = none) :
    Rejected sdk (.agent error) x := by
  rintro _ hash heq hhash
  cases heq
  rw [h] at hhash
  cases hhash

theorem rejected_other {message : String} : Rejected sdk (.other message) x := by
  intro _ _ heq
  cases heq

theorem rejected_signing {error : SignerError} : Rejected sdk error.thrown x := by
  intro _ _ heq
  cases error <;> cases heq

end

/-! ## Along the pipeline -/

/-- The network, with what the call asks -/
abbrev watch (sdk : StellarSdk) : Monitor Op Answer Seen := (Network.environment sdk).logged.monitor

section

variable {sdk : StellarSdk} {A : Type} {x : Seen} {P : Seen → Prop}
  {fails : Thrown → Seen → Prop}

/-- A question that leaves the network as it is. -/
theorem quiet_ends {op : Op} {post : Answer op → Seen → Prop} (hquiet : op.isQuiet = true)
    (hP : Kept P) (hx : P x)
    (h : ∀ k es answer, P (k, es ++ [⟨op, answer⟩]) → k.Answers sdk ⟨op, answer⟩ k →
      post answer (k, es ++ [⟨op, answer⟩])) :
    Ends (watch sdk) (perform op : Task (Answer op)) post fails x := by
  refine Environment.ends_perform hP.stirs ?_ hx
  rintro ⟨k, es⟩ answer ⟨k', es'⟩ hk ⟨hanswers, hes⟩
  obtain rfl : es' = es ++ [⟨op, answer⟩] := hes
  obtain rfl : k' = k := hanswers.eq_of_quiet hquiet
  exact h k' es answer (hP.quiet k' es _ hquiet hk) hanswers

/-- A quiet question whose answer may be anything. -/
theorem quiet_ends' {op : Op} (hquiet : op.isQuiet = true) (hP : Kept P) (hx : P x) :
    Ends (watch sdk) (perform op : Task (Answer op)) (fun _ => P) fails x :=
  quiet_ends hquiet hP hx fun _ _ _ hk _ => hk

theorem orThrow_ends {answer : Except String A} {post : A → Seen → Prop}
    (hpost : ∀ a, answer = .ok a → post a x) (hfails : ∀ message, fails (.other message) x) :
    Ends (watch sdk) (orThrow answer) post fails x := by
  refine Fallible.ends_ofExcept ?_
  cases answer with
  | error message => exact hfails message
  | ok a => exact hpost a rfl

theorem orThrowSigning_ends {answer : Except SignerError A} {post : A → Seen → Prop}
    (hpost : ∀ a, answer = .ok a → post a x)
    (hfails : ∀ error, fails (SignerError.thrown error) x) :
    Ends (watch sdk) (orThrowSigning answer) post fails x := by
  refine Fallible.ends_ofExcept ?_
  cases answer with
  | error error => exact hfails error
  | ok a => exact hpost a rfl

end

section

variable {ctx : InvocationContext} {start : List (Event Op Answer)} {x : Seen} {slot : Slot}
  {first : Bool} {method : String}

/-- What is promised of an error while the call submits -/
abbrev Failing (sdk : StellarSdk) (start : List (Event Op Answer)) (slot : Slot) (first : Bool)
    (thrown : Thrown) (x : Seen) : Prop :=
  Submitting sdk start slot first x ∧ Rejected sdk thrown x

/-- **A submission that is accepted has reached the network.** -/
theorem sendAttempts_ends {envelope : Envelope} (hslot : envelope.slot = slot) (left : ℕ)
    (hx : Submitting ctx.sdk start slot first x) :
    Ends (watch ctx.sdk) (sendAttempts ctx envelope method left)
      (fun hash x => Submitting ctx.sdk start slot false x ∧ Handed ctx.sdk hash x)
      (Failing ctx.sdk start slot first) x := by
  induction left generalizing x with
  | zero => exact Fallible.ends_throw ⟨hx, rejected_of_unhashed rfl⟩
  | succ left ih =>
      have hretry : ∀ x, Submitting ctx.sdk start slot first x → Ends (watch ctx.sdk)
          (if left = 0 then sendAttempts ctx envelope method left
            else do
              perform (Op.sleep (100 * 2 ^ (2 - left)))
              sendAttempts ctx envelope method left)
          (fun hash x => Submitting ctx.sdk start slot false x ∧ Handed ctx.sdk hash x)
          (Failing ctx.sdk start slot first) x := by
        intro x hx
        split_ifs
        · exact ih hx
        · refine Fallible.ends_bind ((quiet_ends' rfl submitting_kept hx).imp ?_ fun _ _ h => h)
          exact fun _ _ hx => ih hx
      rw [sendAttempts]
      refine Fallible.ends_bind (Environment.ends_perform submitting_kept.stirs ?_ hx)
      rintro ⟨k, es⟩ answer ⟨k', es'⟩ hk ⟨hanswers, hes⟩
      obtain rfl : es' = es ++ [⟨.sendTransaction envelope, answer⟩] := hes
      have hsubmits : k.Submits ctx.sdk envelope answer k' := hanswers
      cases answer with
      | ok result =>
          have haccept : result.status = .PENDING ∨ result.status = .DUPLICATE →
              Submitting ctx.sdk start slot false
                  (k', es ++ [⟨.sendTransaction envelope, .ok result⟩]) ∧
                Handed ctx.sdk result.hash
                  (k', es ++ [⟨.sendTransaction envelope, .ok result⟩]) := by
            intro hstatus
            have hknown := hsubmits.accepted result rfl hstatus
            have hsent : Submitting ctx.sdk start slot false
                (k', es ++ [⟨.sendTransaction envelope, .ok result⟩]) :=
              hk.send hslot hsubmits (fun hfirst => by cases hfirst) fun _ => Or.inr hknown
            refine ⟨hsent, ?_⟩
            rw [hsubmits.hash result rfl]
            exact ⟨⟨envelope, mem_sent_snoc, rfl⟩, hknown⟩
          have hrefuse : isAccepted ⟨.sendTransaction envelope, .ok result⟩ = false →
              Submitting ctx.sdk start slot first
                (k', es ++ [⟨.sendTransaction envelope, .ok result⟩]) :=
            fun hrefused => hk.send hslot hsubmits (fun hfirst => ⟨hfirst, hrefused⟩) Or.inl
          cases hstatus : result.status with
          | PENDING =>
              dsimp only
              rw [hstatus]
              exact Fallible.ends_pure (haccept (Or.inl hstatus))
          | DUPLICATE =>
              dsimp only
              rw [hstatus]
              exact Fallible.ends_pure (haccept (Or.inr hstatus))
          | TRY_AGAIN_LATER =>
              dsimp only
              rw [hstatus]
              exact hretry _ (hrefuse (by simp [isAccepted, hstatus]))
          | ERROR =>
              dsimp only
              rw [hstatus]
              have hsent := hrefuse (by simp [isAccepted, hstatus])
              exact Fallible.ends_throw ⟨hsent, rejected_of_unhashed rfl⟩
      | error error =>
          have hsent : Submitting ctx.sdk start slot first
              (k', es ++ [⟨.sendTransaction envelope, .error error⟩]) :=
            hk.send hslot hsubmits (fun hfirst => ⟨hfirst, rfl⟩) Or.inl
          dsimp only
          refine Fallible.ends_bind (quiet_ends rfl (submitting_kept.and sent_kept)
            ⟨hsent, mem_sent_snoc⟩ ?_)
          rintro k es answer ⟨hk, hmem⟩ ⟨_, hreports⟩
          have hfound : ∀ success, k.Settled ctx.sdk (ctx.sdk.hash envelope) success →
              Submitting ctx.sdk start slot false
                  (k, es ++ [⟨.getTransaction (ctx.sdk.hash envelope), answer⟩]) ∧
                Handed ctx.sdk (ctx.sdk.hash envelope)
                  (k, es ++ [⟨.getTransaction (ctx.sdk.hash envelope), answer⟩]) := by
            intro success hsettled
            have hhanded : Handed ctx.sdk (ctx.sdk.hash envelope)
                (k, es ++ [⟨.getTransaction (ctx.sdk.hash envelope), answer⟩]) :=
              ⟨⟨envelope, hmem, rfl⟩, hsettled.known⟩
            exact ⟨hk.handed hhanded, hhanded⟩
          have hagain : Ends (watch ctx.sdk)
              (if left = 0 then throw (.other error) else
                if left = 0 then sendAttempts ctx envelope method left
                else do
                  perform (Op.sleep (100 * 2 ^ (2 - left)))
                  sendAttempts ctx envelope method left)
              (fun hash x => Submitting ctx.sdk start slot false x ∧ Handed ctx.sdk hash x)
              (Failing ctx.sdk start slot first)
              (k, es ++ [⟨.getTransaction (ctx.sdk.hash envelope), answer⟩]) := by
            by_cases hleft : left = 0
            · rw [if_pos hleft]
              exact Fallible.ends_throw ⟨hk, rejected_other⟩
            · rw [if_neg hleft]
              exact hretry _ hk
          cases answer with
          | error error => exact hagain
          | ok confirmation =>
              cases confirmation with
              | SUCCESS ledger returnValue feeCharged =>
                  exact Fallible.ends_pure (hfound true hreports)
              | FAILED diagnostics => exact Fallible.ends_pure (hfound false hreports)
              | NOT_FOUND => exact hagain

/-- A fee bump is for the transaction that it carries. -/
theorem buildAndSignFeeBump_ends {P : Seen → Prop} (hP : Kept P) (hx : P x)
    {inner : TransactionV1Envelope} {fallbackSigner : SignerRole} {replacement : Bool}
    {previousBumpRate : Option ℤ} :
    Ends (watch ctx.sdk) (buildAndSignFeeBump ctx inner fallbackSigner replacement previousBumpRate)
      (fun bumped x => P x ∧ bumped.envelope.slot = (Envelope.Tx inner).slot)
      (fun thrown x => P x ∧ Rejected ctx.sdk thrown x) x := by
  unfold buildAndSignFeeBump
  refine Fallible.ends_bind ((quiet_ends' rfl hP hx).imp (fun key x hx => ?_) fun _ _ h => h)
  refine Fallible.ends_bind (orThrowSigning_ends (fun feeSource _ => ?_)
    fun _ => ⟨hx, rejected_signing⟩)
  refine Fallible.ends_bind ((quiet_ends' rfl hP hx).imp (fun answer x hx => ?_) fun _ _ h => h)
  refine Fallible.ends_bind (orThrow_ends (fun fee _ => ?_) fun _ => ⟨hx, rejected_other⟩)
  refine Fallible.ends_bind (orThrow_ends (fun total _ => ?_) fun _ => ⟨hx, rejected_other⟩)
  refine Fallible.ends_bind (quiet_ends rfl hP hx ?_)
  rintro k es answer hk ⟨_, hsigned⟩
  refine Fallible.ends_bind (orThrowSigning_ends (fun signed hanswer => ?_)
    fun _ => ⟨hk, rejected_signing⟩)
  cases signed with
  | Tx signed => exact Fallible.ends_throw ⟨hk, rejected_of_unhashed rfl⟩
  | TxFeeBump signed =>
      have hslot := Envelope.slot_eq_of_unsigned (hsigned _ hanswer)
      exact Fallible.ends_pure ⟨hk, hslot⟩

theorem expiresSoon_ends {P : Seen → Prop} (hP : Kept P) (hx : P x) {tx : Transaction}
    {threshold : ℤ} {fails : Thrown → Seen → Prop} :
    Ends (watch ctx.sdk) (expiresSoon tx threshold) (fun _ => P) fails x := by
  unfold expiresSoon
  split
  · exact Fallible.ends_pure hx
  · refine Fallible.ends_bind ((quiet_ends' rfl hP hx).imp (fun _ _ hx => ?_) fun _ _ h => h)
    exact Fallible.ends_pure hx

theorem shouldBump_ends {P : Seen → Prop} (hP : Kept P) (hx : P x)
    {signed : TransactionV1Envelope} {state : Submitted} {attempt : ℕ}
    {fails : Thrown → Seen → Prop} :
    Ends (watch ctx.sdk) (shouldBump ctx signed state attempt) (fun _ => P) fails x := by
  unfold shouldBump
  split_ifs
  · exact Fallible.ends_pure hx
  · exact expiresSoon_ends hP hx
  · exact Fallible.ends_pure hx

/-- A replacement competes for the same sequence number. -/
theorem replaceEnvelope_ends {signed : TransactionV1Envelope} {sourceSigner : SignerRole}
    {state : Submitted} (hslot : (Envelope.Tx signed).slot = slot)
    (hx : Submitting ctx.sdk start slot false x) :
    Ends (watch ctx.sdk) (replaceEnvelope ctx signed sourceSigner method state)
      (fun state x => Submitting ctx.sdk start slot false x ∧ Handed ctx.sdk state.hash x)
      (Failing ctx.sdk start slot false) x := by
  refine Fallible.ends_bind ((buildAndSignFeeBump_ends submitting_kept hx).imp ?_
    fun _ _ h => h)
  rintro bumped x ⟨hx, hbumped⟩
  refine Fallible.ends_bind ((sendAttempts_ends (hbumped.trans hslot) 3 hx).imp
    (fun hash x hx => ?_) fun _ _ h => h)
  exact Fallible.ends_pure hx

/-- **What the polling loop says of the hash is so.** -/
theorem poll_ends {signed : TransactionV1Envelope} {sourceSigner : SignerRole}
    {sourceAddress : String} {state : Submitted} (hslot : (Envelope.Tx signed).slot = slot)
    (left : ℕ) (hx : Submitting ctx.sdk start slot false x) (hstate : Handed ctx.sdk state.hash x) :
    Ends (watch ctx.sdk) (poll ctx signed sourceSigner sourceAddress method state left)
      (fun outcome x => Submitting ctx.sdk start slot false x ∧ Confirmed ctx.sdk outcome x)
      (Failing ctx.sdk start slot false) x := by
  induction left generalizing x state with
  | zero =>
      refine Fallible.ends_throw ⟨hx, fun error hash heq _ hcode => ?_⟩
      cases heq
      exact absurd rfl hcode
  | succ left ih =>
      rw [poll]
      refine Fallible.ends_bind (quiet_ends rfl (submitting_kept.and handed_kept) ⟨hx, hstate⟩ ?_)
      rintro k es answer ⟨hk, hhanded⟩ ⟨_, hreports⟩
      refine Fallible.ends_bind (orThrow_ends (fun confirmation hanswer => ?_)
        fun _ => ⟨hk, rejected_other⟩)
      subst hanswer
      cases confirmation with
      | SUCCESS ledger returnValue feeCharged =>
          exact Fallible.ends_pure ⟨hk, hhanded.sent, hreports⟩
      | FAILED diagnostics =>
          refine Fallible.ends_throw ⟨hk, fun error hash heq hhash _ => ?_⟩
          cases heq
          cases hhash
          exact ⟨hhanded.sent, hreports⟩
      | NOT_FOUND =>
          refine Fallible.ends_bind ((shouldBump_ends (submitting_kept.and handed_kept)
            ⟨hk, hhanded⟩).imp ?_ fun _ _ h => h)
          rintro bump x ⟨hx, hstate⟩
          cases bump with
          | true =>
              refine Fallible.ends_bind ((replaceEnvelope_ends hslot hx).imp ?_ fun _ _ h => h)
              rintro state x ⟨hx, hstate⟩
              exact ih hx hstate
          | false =>
              refine Fallible.ends_bind ((quiet_ends' rfl (submitting_kept.and handed_kept)
                ⟨hx, hstate⟩).imp ?_ fun _ _ h => h)
              rintro _ x ⟨hx, hstate⟩
              exact ih hx hstate

/-! ## Before the submission -/

/-- What is submitted competes for the slot. -/
structure Prepared.InSlot (slot : Slot) (prepared : Prepared) : Prop where
  signed : (Envelope.Tx prepared.signed).slot = slot
  envelope : prepared.envelope.slot = slot

/-- What is promised of an error before the submission -/
abbrev Unsent (sdk : StellarSdk) (start : List (Event Op Answer)) (thrown : Thrown) (x : Seen) :
    Prop :=
  Preparing start x ∧ Rejected sdk thrown x

theorem simulate_ends {tx : Transaction} (hx : Preparing start x) :
    Ends (watch ctx.sdk) (simulate tx method) (fun _ => Preparing start)
      (Unsent ctx.sdk start) x := by
  refine Fallible.ends_bind ((quiet_ends' rfl preparing_kept hx).imp (fun answer x hx => ?_)
    fun _ _ h => h)
  refine Fallible.ends_bind (orThrow_ends (fun simulation _ => ?_) fun _ => ⟨hx, rejected_other⟩)
  cases simulation with
  | error error => exact Fallible.ends_throw ⟨hx, rejected_of_unhashed rfl⟩
  | restore => exact Fallible.ends_throw ⟨hx, rejected_of_unhashed rfl⟩
  | success simulation => exact Fallible.ends_pure hx

theorem signEntry_ends {validUntilLedgerSeq : ℕ} {entry : SorobanAuthorizationEntry}
    (hx : Preparing start x) :
    Ends (watch ctx.sdk) (signEntry validUntilLedgerSeq entry) (fun _ => Preparing start)
      (Unsent ctx.sdk start) x := by
  unfold signEntry
  split
  · exact Fallible.ends_pure hx
  · refine Fallible.ends_bind ((quiet_ends' rfl preparing_kept hx).imp (fun answer x hx => ?_)
      fun _ _ h => h)
    exact orThrowSigning_ends (fun _ _ => hx) fun _ => ⟨hx, rejected_signing⟩

/-- The assembled transaction is for the account and the sequence number it was built for. -/
def Assembles (sdk : StellarSdk) : Prop :=
  ∀ tx simulation, (sdk.assemble tx simulation).source_account = tx.source_account ∧
    (sdk.assemble tx simulation).seq_num = tx.seq_num

theorem prepare_ends (hassemble : Assembles ctx.sdk) {sourceSigner : SignerRole}
    {operation : TxOperation} {tx : Transaction} {simulation : SimulationSuccess}
    (hx : Preparing start x) :
    Ends (watch ctx.sdk) (prepare ctx sourceSigner operation tx simulation)
      (fun prepared x => Preparing start x ∧ prepared.InSlot ⟨tx.source_account, tx.seq_num⟩)
      (Unsent ctx.sdk start) x := by
  unfold prepare
  refine Fallible.ends_bind ((Fallible.ends_mapM (Preparing start) _
    (fun entry _ x hx => signEntry_ends hx) hx).imp (fun auth x hx => ?_) fun _ _ h => h)
  dsimp only
  refine Fallible.ends_bind (quiet_ends rfl preparing_kept hx ?_)
  rintro k es answer hk ⟨_, hsigned⟩
  refine Fallible.ends_bind (orThrowSigning_ends (fun signed hanswer => ?_)
    fun _ => ⟨hk, rejected_signing⟩)
  cases signed with
  | TxFeeBump signed => exact Fallible.ends_throw ⟨hk, rejected_of_unhashed rfl⟩
  | Tx signed =>
      have hslot : (Envelope.Tx signed).slot = ⟨tx.source_account, tx.seq_num⟩ := by
        obtain ⟨hsource, hseq⟩ :=
          hassemble { tx with operations := [authorized operation auth] } simulation
        rw [Envelope.slot_eq_of_unsigned (hsigned _ hanswer)]
        exact congrArg₂ Slot.mk hsource hseq
      dsimp only
      split_ifs
      · refine Fallible.ends_bind ((buildAndSignFeeBump_ends preparing_kept hk).imp ?_
          fun _ _ h => h)
        rintro bumped x ⟨hx, hbumped⟩
        exact Fallible.ends_pure ⟨hx, hslot, hbumped.trans hslot⟩
      · exact Fallible.ends_pure ⟨hk, hslot, hslot⟩

/-- A mutation that gets to its submission has one slot. -/
theorem beforeSubmission_ends (hassemble : Assembles ctx.sdk) {sourceAddress : String}
    {sourceSigner : SignerRole} {contractId : String} {args : List ScVal} (hx : Preparing start x) :
    Ends (watch ctx.sdk)
      (beforeSubmission ctx sourceAddress sourceSigner contractId method args false)
      (fun simulated x => Preparing start x ∧ ∃ prepared slot, simulated = .mutation prepared ∧
        prepared.InSlot slot)
      (Unsent ctx.sdk start) x := by
  unfold beforeSubmission
  refine Fallible.ends_bind ((quiet_ends' rfl preparing_kept hx).imp (fun answer x hx => ?_)
    fun _ _ h => h)
  refine Fallible.ends_bind (orThrow_ends (fun account _ => ?_) fun _ => ⟨hx, rejected_other⟩)
  dsimp only
  refine Fallible.ends_bind ((quiet_ends' rfl preparing_kept hx).imp (fun answer x hx => ?_)
    fun _ _ h => h)
  refine Fallible.ends_bind (orThrow_ends (fun initialFee _ => ?_) fun _ => ⟨hx, rejected_other⟩)
  refine Fallible.ends_bind ((quiet_ends' rfl preparing_kept hx).imp (fun now x hx => ?_)
    fun _ _ h => h)
  refine Fallible.ends_bind ((simulate_ends hx).imp (fun simulation x hx => ?_) fun _ _ h => h)
  refine Fallible.ends_bind ((prepare_ends hassemble hx).imp ?_ fun _ _ h => h)
  rintro prepared x ⟨hx, hslot⟩
  exact Fallible.ends_pure ⟨hx, prepared, _, rfl, hslot⟩

/-! ## The whole call -/

/-- What is so once the block within a lease has ended. -/
structure Ended (sdk : StellarSdk) (start : List (Event Op Answer)) (result : Except Thrown Outcome)
    (accepted : Bool) (x : Seen) : Prop where
  held : Within start x.2
  slot : ∀ e ∈ sent x.2, ∀ e' ∈ sent x.2, e.slot = e'.slot
  refused : accepted = false → ∀ e ∈ x.2, isAccepted e = false
  known : accepted = true → ∃ envelope ∈ sent x.2, x.1.Known sdk (sdk.hash envelope)
  confirmed : ∀ outcome, result = .ok outcome → Confirmed sdk outcome x
  rejected : ∀ thrown, result = .error thrown → Rejected sdk thrown x

/-- The block ends, before or after its first submission is accepted. -/
theorem Submitting.ended {sdk : StellarSdk} {result : Except Thrown Outcome}
    (h : Submitting sdk start slot first x)
    (hconfirmed : ∀ outcome, result = .ok outcome → Confirmed sdk outcome x)
    (hrejected : ∀ thrown, result = .error thrown → Rejected sdk thrown x) :
    Ended sdk start result (!first) x where
  held := h.held
  slot := fun e he e' he' => (h.slot e he).trans (h.slot e' he').symm
  refused := fun haccepted => h.refused (by simpa using haccepted)
  known := fun haccepted => h.known (by simpa using haccepted)
  confirmed := hconfirmed
  rejected := hrejected

theorem Submitting.failed {sdk : StellarSdk} {thrown : Thrown}
    (h : Failing sdk start slot first thrown x) :
    Ended sdk start (.error thrown) (!first) x := by
  refine h.1.ended (fun outcome heq => by cases heq) fun thrown' heq => ?_
  cases heq
  exact h.2

theorem Preparing.failed {sdk : StellarSdk} {thrown : Thrown} (h : Unsent sdk start thrown x) :
    Ended sdk start (.error thrown) false x where
  held := h.1.held
  slot := by
    intro e he
    rw [h.1.unsent] at he
    cases he
  refused := fun _ => h.1.refused
  known := fun haccepted => by cases haccepted
  confirmed := fun outcome heq => by cases heq
  rejected := by
    intro thrown' heq
    cases heq
    exact h.2

/-- **What one call comes to**, within a lease or without one. -/
theorem insideLease_under (hassemble : Assembles ctx.sdk) {sourceAddress : String}
    {sourceSigner : SignerRole} {contractId : String} {args : List ScVal}
    (hx : Preparing start x) :
    Program.Under (watch ctx.sdk)
      (insideLease ctx sourceAddress sourceSigner contractId method args false)
      (fun result x => Ended ctx.sdk start result.1 result.2 x) x := by
  refine Fallible.ends_run ((beforeSubmission_ends hassemble hx).imp ?_ ?_)
  · rintro _ x ⟨hx, prepared, slot, rfl, hslot⟩
    refine Fallible.ends_run ((sendAttempts_ends hslot.envelope 3 hx.submitting).imp ?_ ?_)
    · rintro hash x ⟨hx, hhanded⟩
      refine Fallible.ends_run ((poll_ends hslot.signed POLL_ATTEMPTS hx hhanded).imp ?_ ?_)
      · rintro outcome x ⟨hx, hconfirmed⟩
        refine hx.ended (fun outcome' heq => ?_) fun thrown heq => by cases heq
        cases heq
        exact hconfirmed
      · exact fun thrown x hfailing => Submitting.failed hfailing
    · exact fun thrown x hfailing => Submitting.failed hfailing
  · exact fun thrown x hunsent => Preparing.failed hunsent

end

/-- The questions about a lease: it is taken first and released last, as committed only if the
network has an envelope of the call, and as rolled back only if no submission was accepted. -/
inductive Leased (sdk : StellarSdk) (k : Network) : Bool → List (Event Op Answer) → Prop
  | own {es : List (Event Op Answer)} (hinner : ∀ e ∈ es, e.op.isLeasing = false) :
      Leased sdk k false es
  | denied (message : String) : Leased sdk k true [⟨.lease, .error message⟩]
  | released {address : String} {inner : List (Event Op Answer)} {outcome : ChannelLeaseOutcome}
      {answer : Except String Unit} (hinner : ∀ e ∈ inner, e.op.isLeasing = false)
      (hcommitted : outcome = .committed →
        ∃ envelope ∈ sent inner, k.Known sdk (sdk.hash envelope))
      (hrolledBack : outcome = .rolled_back → ∀ e ∈ inner, isAccepted e = false) :
      Leased sdk k true (⟨.lease, .ok address⟩ :: inner ++ [⟨.release outcome, answer⟩])

/-- What is so once the call has ended. -/
structure Completed (ctx : InvocationContext) (result : Except Thrown Outcome) (x : Seen) :
    Prop where
  slot : ∀ e ∈ sent x.2, ∀ e' ∈ sent x.2, e.slot = e'.slot
  leased : Leased ctx.sdk x.1 ctx.hasPool x.2
  confirmed : ∀ outcome, result = .ok outcome → Confirmed ctx.sdk outcome x
  rejected : ∀ thrown, result = .error thrown → Rejected ctx.sdk thrown x

section

variable {ctx : InvocationContext} {start : List (Event Op Answer)} {x : Seen} {method : String}
  {result : Except Thrown Outcome} {accepted : Bool} {sdk : StellarSdk}

/-- A result that says no more of the ledger than another one -/
structure SaysLess (result result' : Except Thrown Outcome) : Prop where
  confirmed : ∀ outcome, result = .ok outcome → result' = .ok outcome
  rejected : ∀ error hash, result = .error (.agent error) → error.transactionHash = some hash →
    result' = .error (.agent error)

theorem saysLess_caught : SaysLess (result.mapError (caught method)) result where
  confirmed := by
    intro outcome heq
    cases result with
    | error thrown => cases heq
    | ok outcome' =>
        cases heq
        rfl
  rejected := by
    intro error hash heq hhash
    cases result with
    | ok outcome => cases heq
    | error thrown =>
        cases thrown with
        | agent error' =>
            cases heq
            rfl
        | signing message => cases heq
        | other message =>
            cases heq
            cases hhash

theorem saysLess_other {message : String} : SaysLess (.error (.other message)) result where
  confirmed := fun outcome heq => by cases heq
  rejected := fun error hash heq => by cases heq

theorem Ended.later {k k' : Network} {es : List (Event Op Answer)} (hlater : k.Later k')
    (h : Ended sdk start result accepted (k, es)) :
    Ended sdk start result accepted (k', es) := by
  refine ⟨h.held, h.slot, h.refused, fun haccepted => ?_, fun outcome heq => ?_,
    fun thrown heq error hash hthrown hhash hcode => ?_⟩
  · obtain ⟨envelope, hmem, hknown⟩ := h.known haccepted
    exact ⟨envelope, hmem, hlater.known hknown⟩
  · obtain ⟨hmem, hsettled⟩ := h.confirmed outcome heq
    exact ⟨hmem, hlater.settled_hash hsettled⟩
  · obtain ⟨hmem, hsettled⟩ := h.rejected thrown heq error hash hthrown hhash hcode
    exact ⟨hmem, hlater.settled_hash hsettled⟩

/-- What the caller learns at the end. -/
theorem Ended.completed {k : Network} {es es' : List (Event Op Answer)}
    {result' : Except Thrown Outcome} (h : Ended ctx.sdk start result accepted (k, es))
    (hresult : SaysLess result' result) (hsent : sent es' = sent es)
    (hleased : Leased ctx.sdk k ctx.hasPool es') : Completed ctx result' (k, es') where
  slot := by
    show ∀ e ∈ sent es', ∀ e' ∈ sent es', e.slot = e'.slot
    rw [hsent]
    exact h.slot
  leased := hleased
  confirmed := by
    intro outcome heq
    show (∃ envelope ∈ sent es', _) ∧ _
    rw [hsent]
    exact h.confirmed outcome (hresult.confirmed outcome heq)
  rejected := by
    rintro _ heq error hash rfl hhash hcode
    show (∃ envelope ∈ sent es', _) ∧ _
    rw [hsent]
    exact h.rejected _ (hresult.rejected error hash heq hhash) error hash rfl hhash hcode

theorem Leased.later {k k' : Network} {pool : Bool} {es : List (Event Op Answer)}
    (hlater : k.Later k') (h : Leased sdk k pool es) : Leased sdk k' pool es := by
  cases h with
  | own hinner => exact .own hinner
  | denied message => exact .denied message
  | released hinner hcommitted hrolledBack =>
      refine .released hinner (fun houtcome => ?_) hrolledBack
      obtain ⟨envelope, hmem, hknown⟩ := hcommitted houtcome
      exact ⟨envelope, hmem, hlater.known hknown⟩

theorem Completed.later {k k' : Network} {es : List (Event Op Answer)} (hlater : k.Later k')
    (h : Completed ctx result (k, es)) : Completed ctx result (k', es) where
  slot := h.slot
  leased := h.leased.later hlater
  confirmed := by
    intro outcome heq
    obtain ⟨hmem, hsettled⟩ := h.confirmed outcome heq
    exact ⟨hmem, hlater.settled_hash hsettled⟩
  rejected := by
    intro thrown heq error hash hthrown hhash hcode
    obtain ⟨hmem, hsettled⟩ := h.rejected thrown heq error hash hthrown hhash hcode
    exact ⟨hmem, hlater.settled_hash hsettled⟩

/-- A lease is released as the block has ended. -/
theorem Ended.leased {k : Network} {es : List (Event Op Answer)} {address : String}
    {answer : Except String Unit} {pool : Bool} (hpool : pool = true)
    (h : Ended sdk [⟨.lease, .ok address⟩] result accepted (k, es)) :
    Leased sdk k pool
      (es ++ [⟨.release (if accepted then .committed else .rolled_back), answer⟩]) := by
  subst hpool
  obtain ⟨inner, rfl, hinner⟩ := h.held
  refine .released hinner (fun houtcome => ?_) fun houtcome e he => ?_
  · cases accepted with
    | true => exact h.known rfl
    | false => cases houtcome
  · cases accepted with
    | true => cases houtcome
    | false => exact h.refused rfl e (List.mem_append_right _ he)

theorem preparing_self {k : Network} (hunsent : sent start = [])
    (hrefused : ∀ e ∈ start, isAccepted e = false) : Preparing start (k, start) :=
  ⟨hunsent, within_self, hrefused⟩

/-- **The whole call, in any network.** -/
theorem runInvocation_under (hassemble : Assembles ctx.sdk) {contractId : String}
    {args : List ScVal} {k : Network} :
    Program.Under (watch ctx.sdk) (runInvocation ctx contractId method args false)
      (Completed ctx) (k, []) := by
  unfold runInvocation
  cases hpool : ctx.hasPool with
  | false =>
      have hstart : Preparing [] (k, []) := preparing_self rfl (by simp)
      refine Program.under_bind.mpr ((insideLease_under hassemble hstart).imp ?_)
      rintro ⟨result, accepted⟩ ⟨k, es⟩ hended
      refine hended.completed saysLess_caught rfl ?_
      obtain ⟨inner, rfl, hinner⟩ := hended.held
      rw [hpool]
      exact .own hinner
  | true =>
      refine Environment.under_ask (P := fun x => x.2 = []) (fun _ _ hstirs hx => hstirs.2.trans hx)
        ?_ rfl
      rintro ⟨k, _⟩ answer ⟨k', es'⟩ rfl ⟨_, hes⟩
      obtain rfl : es' = [⟨.lease, answer⟩] := hes
      cases answer with
      | error message =>
          show Completed ctx _ (k', [⟨.lease, .error message⟩])
          refine ⟨fun e he => ?_, ?_, fun outcome heq => ?_, fun thrown heq => ?_⟩
          · cases he
          · rw [hpool]
            exact .denied message
          · cases heq
          · cases heq
            exact rejected_of_unhashed rfl
      | ok address =>
          have hstart : Preparing [⟨.lease, .ok address⟩] (k', [⟨.lease, .ok address⟩]) :=
            preparing_self rfl (by simp [isAccepted])
          show Program.Under _
            (insideLease ctx address .channel contractId method args false >>= _) _ _
          refine Program.under_bind.mpr ((insideLease_under hassemble hstart).imp ?_)
          rintro ⟨result, accepted⟩ x hended
          refine Environment.under_ask
            (P := Ended ctx.sdk [⟨.lease, .ok address⟩] result accepted)
            (stirs_of_later fun _ _ _ => Ended.later) ?_ hended
          rintro ⟨k, es⟩ answer ⟨k', es'⟩ hended ⟨hk, hes⟩
          obtain rfl : es' = es ++ [⟨_, answer⟩] := hes
          obtain rfl : k' = k := hk
          have hsent : sent (es ++ [⟨.release (if accepted then .committed else .rolled_back),
              answer⟩]) = sent es := by
            rw [sent_snoc]
            exact List.append_nil _
          have hleased : Leased ctx.sdk k' ctx.hasPool
              (es ++ [⟨.release (if accepted then .committed else .rolled_back), answer⟩]) :=
            hended.leased hpool
          cases answer with
          | error message => exact hended.completed saysLess_other hsent hleased
          | ok _ => exact hended.completed saysLess_caught hsent hleased

end

/-! ## What the caller learns -/

/-- An envelope with the hash, which the call has submitted, settles the one sequence number of all
that it has submitted, now and ever after. -/
def Decided (sdk : StellarSdk) (k : Network) (envelopes : List Envelope) (hash : String)
    (success : Bool) : Prop :=
  ∃ applied : Applied, applied.success = success ∧ sdk.hash applied.envelope = hash ∧
    (∃ e ∈ envelopes, applied.envelope.unsigned = e.unsigned) ∧
    ∀ k', k.Later k' → ∀ e ∈ envelopes, k'.settled e.slot = some applied

theorem decided_of_settled {sdk : StellarSdk} {k : Network} {envelopes : List Envelope}
    {hash : String} {success : Bool} (hdistinct : k.Distinct sdk envelopes)
    (hslot : ∀ e ∈ envelopes, ∀ e' ∈ envelopes, e.slot = e'.slot)
    (hsent : ∃ e ∈ envelopes, sdk.hash e = hash) (hsettled : k.Settled sdk hash success) :
    Decided sdk k envelopes hash success := by
  obtain ⟨f, hf, rfl⟩ := hsent
  obtain ⟨slot, envelope, hsettled, hhash⟩ := hsettled
  obtain ⟨hslot', hreceived⟩ := k.settled_spec _ _ hsettled
  have hunsigned : envelope.unsigned = f.unsigned :=
    hdistinct _ (List.mem_append_left _ hreceived) _ (List.mem_append_right _ hf) hhash
  refine ⟨⟨envelope, success⟩, rfl, hhash, ⟨f, hf, hunsigned⟩, fun k' hlater e he => ?_⟩
  have heq : e.slot = slot := by
    rw [hslot e he f hf, ← Envelope.slot_eq_of_unsigned hunsigned]
    exact hslot'
  rw [heq]
  exact hlater.settled _ _ hsettled

section

variable {ctx : InvocationContext} {contractId method : String} {args : List ScVal}
  {k k' : Network}
  {tr : List (Transition (World Op Answer Network (Except Thrown Outcome)) (WorldAct Op Answer))}
  {result : Except Thrown Outcome}

/-- A call that has been run to its end. -/
abbrev Invoked (ctx : InvocationContext) (contractId method : String) (args : List ScVal)
    (k : Network)
    (tr : List (Transition (World Op Answer Network (Except Thrown Outcome)) (WorldAct Op Answer)))
    (k' : Network) (result : Except Thrown Outcome) : Prop :=
  Run (Network.environment ctx.sdk).Step ⟨k, runInvocation ctx contractId method args false⟩ tr
    ⟨k', .ret result⟩

theorem Invoked.completed (hassemble : Assembles ctx.sdk)
    (hrun : Invoked ctx contractId method args k tr k' result) :
    Completed ctx result (k', Environment.asked tr) :=
  Environment.result_of_logged
    (fun _ => stirs_of_later fun _ _ _ => Completed.later) hrun
    (runInvocation_under hassemble) rfl

/-! A call that leases an account, is confirmed at its first poll, and releases the lease: -/

/-- An SDK that assembles a transaction as it is -/
def plainSdk : StellarSdk where
  call := fun _ _ _ => { source_account := none, body := .Other .Payment [] }
  assemble := fun tx _ => tx
  feeBumpFee := fun _ fee _ => .ok fee
  hash := fun _ => "a1"

def pooledContext : InvocationContext where
  sdk := plainSdk
  address := "G"
  hasPool := true
  hasFeeStats := true
  feeBump := {
    enabled := false, mode := .on_expiry, hasSigner := false
    triggerAfterAttempts := 5, expiryThresholdSeconds := 10, maxBumps := 0 }

/-- The account that is leased -/
def channelAccount : MuxedAccount := .Ed25519 ⟨List.replicate 32 0, rfl⟩

def channelEnvelope : Envelope := .Tx {
  tx := buildTransaction ⟨channelAccount, 7⟩ (plainSdk.call "C" "pay" []) 100 0
  signatures := [] }

def emptyNetwork : Network where
  received := []
  settled := fun _ => none
  settled_spec := fun _ _ h => by cases h

def receivedNetwork : Network where
  received := [channelEnvelope]
  settled := fun _ => none
  settled_spec := fun _ _ h => by cases h

def settledNetwork : Network where
  received := [channelEnvelope]
  settled := fun slot => if slot = channelEnvelope.slot then some ⟨channelEnvelope, true⟩ else none
  settled_spec := by
    intro slot applied h
    obtain ⟨hslot, heq⟩ := Option.ite_none_right_eq_some.mp h
    cases heq
    exact ⟨hslot.symm, List.mem_cons_self⟩

/-- The result of the call -/
def channelOutcome : Outcome :=
  confirmedOutcome "C1" {
    envelope := channelEnvelope, hash := "a1", feeSource := none, feeBumped := false, bumps := 0
    previousBumpRate := none, submissionAttempts := 1 } 5 none none

/-- What the call asks up to its submission, and after it -/
def channelEvents : List (Event Op Answer) := [
  ⟨.lease, .ok "C1"⟩,
  ⟨.getAccount "C1", .ok ⟨channelAccount, 7⟩⟩,
  ⟨.getFee ⟨.initial, 1, some (some 100), none, some true, true⟩, .ok 100⟩,
  ⟨.now, (0 : ℕ)⟩,
  ⟨.simulateTransaction channelEnvelope.transaction, .ok (.success ⟨none, [], 0, [], 0⟩)⟩,
  ⟨.signTransaction .channel channelEnvelope, .ok channelEnvelope⟩]

def confirmationEvents : List (Event Op Answer) := [
  ⟨.getTransaction "a1", .ok (.SUCCESS 5 none none)⟩,
  ⟨.release .committed, .ok ()⟩]

def callEvents : List (Event Op Answer) :=
  channelEvents ++ ⟨.sendTransaction channelEnvelope, .ok ⟨.PENDING, "a1", "", none⟩⟩ ::
    confirmationEvents

theorem emptyNetwork_submits : emptyNetwork.Submits plainSdk channelEnvelope
    (.ok ⟨.PENDING, "a1", "", none⟩) receivedNetwork where
  received := Or.inr rfl
  settled := rfl
  hash := by
    intro result heq
    cases heq
    rfl
  accepted := fun _ _ _ => ⟨channelEnvelope, List.mem_cons_self, rfl⟩

theorem settledNetwork_settled :
    settledNetwork.settled channelEnvelope.slot = some ⟨channelEnvelope, true⟩ := by
  show (if channelEnvelope.slot = channelEnvelope.slot then _ else none) = _
  exact if_pos rfl

theorem receivedNetwork_stirs : receivedNetwork.Stirs settledNetwork :=
  .applied ⟨channelEnvelope, true⟩ List.mem_cons_self rfl rfl settledNetwork_settled
    fun _ hslot => if_neg hslot

theorem channel_steps : ∃ next : Answer (.sendTransaction channelEnvelope) → _,
    (runInvocation pooledContext "C" "pay" [] false).Steps channelEvents
      (.ask (.sendTransaction channelEnvelope) next) ∧
    (next (.ok ⟨.PENDING, "a1", "", none⟩)).Steps confirmationEvents
      (.ret (.ok channelOutcome)) :=
  ⟨_, .cons (.cons (.cons (.cons (.cons (.cons (.nil _)))))), .cons (.cons (.nil _))⟩

theorem channel_invoked : ∃ tr, Invoked pooledContext "C" "pay" [] emptyNetwork tr settledNetwork
    (.ok channelOutcome) ∧ Environment.asked tr = callEvents := by
  have hprepared : ∀ e ∈ channelEvents,
      (Network.environment plainSdk).Answers emptyNetwork e emptyNetwork := by
    refine List.forall_mem_cons.mpr ⟨rfl, List.forall_mem_cons.mpr ⟨rfl, List.forall_mem_cons.mpr
      ⟨rfl, List.forall_mem_cons.mpr ⟨rfl, List.forall_mem_cons.mpr ⟨rfl, ?_⟩⟩⟩⟩⟩
    refine List.forall_mem_singleton.mpr ⟨rfl, fun signed heq => ?_⟩
    cases heq
    rfl
  have hconfirmed : ∀ e ∈ confirmationEvents,
      (Network.environment plainSdk).Answers settledNetwork e settledNetwork := by
    refine List.forall_mem_cons.mpr ⟨⟨rfl, ?_⟩, List.forall_mem_singleton.mpr rfl⟩
    exact ⟨channelEnvelope.slot, channelEnvelope, settledNetwork_settled, rfl⟩
  obtain ⟨next, hbefore, hafter⟩ := channel_steps
  have hsubmits : (Network.environment plainSdk).Answers emptyNetwork
      ⟨.sendTransaction channelEnvelope, .ok ⟨.PENDING, "a1", "", none⟩⟩ receivedNetwork :=
    emptyNetwork_submits
  have hstirs : (Network.environment plainSdk).Stirs receivedNetwork settledNetwork :=
    receivedNetwork_stirs
  have hsubmitted := (Environment.leads_steps hbefore hprepared).trans
    (Environment.leads_asked hsubmits)
  have hsettled := hsubmitted.trans (Environment.leads_stirred hstirs)
  obtain ⟨tr, hrun, htr⟩ := hsettled.trans (Environment.leads_steps hafter hconfirmed)
  exact ⟨tr, hrun, htr⟩

theorem plainSdk_assembles : Assembles plainSdk := fun _ _ => ⟨rfl, rfl⟩

/-- **A call tells the truth about its payment.** When a mutation resolves, a transaction it has
submitted has succeeded; when it is rejected with the hash of a transaction that did not time out,
that one has failed. Either way this settles the one sequence number of all the envelopes that the
call has submitted, so none of the others is ever applied. -/
theorem runInvocation_decided (hassemble : Assembles ctx.sdk)
    (hrun : Invoked ctx contractId method args k tr k' result)
    (hdistinct : k'.Distinct ctx.sdk (sent (Environment.asked tr))) :
    (∀ outcome, result = .ok outcome →
      Decided ctx.sdk k' (sent (Environment.asked tr)) outcome.tx.hash true) ∧
    (∀ error hash, result = .error (.agent error) → error.transactionHash = some hash →
      error.code ≠ .TRANSACTION_TIMEOUT →
      Decided ctx.sdk k' (sent (Environment.asked tr)) hash false) := by
  have h := Invoked.completed hassemble hrun
  refine ⟨fun outcome heq => ?_, fun error hash heq hhash hcode => ?_⟩
  · obtain ⟨hsent, hsettled⟩ := h.confirmed outcome heq
    exact decided_of_settled hdistinct h.slot hsent hsettled
  · obtain ⟨hsent, hsettled⟩ := h.rejected _ heq error hash rfl hhash hcode
    exact decided_of_settled hdistinct h.slot hsent hsettled

theorem runInvocation_decided_channel :
    Decided plainSdk settledNetwork [channelEnvelope] "a1" true := by
  obtain ⟨tr, hrun, hasked⟩ := channel_invoked
  have hsent : sent (Environment.asked tr) = [channelEnvelope] := by
    rw [hasked]
    rfl
  have hdistinct : settledNetwork.Distinct plainSdk (sent (Environment.asked tr)) := by
    rw [hsent]
    have hall : ∀ e ∈ settledNetwork.received ++ [channelEnvelope], e = channelEnvelope := by
      intro e he
      rcases List.mem_append.mp he with he | he
      · exact List.mem_singleton.mp he
      · exact List.mem_singleton.mp he
    intro e he e' he' _
    rw [hall e he, hall e' he']
  rw [← hsent]
  exact (runInvocation_decided plainSdk_assembles hrun hdistinct).1 _ rfl

/-- **A lease spans the call and is released as what has become of it.** -/
theorem runInvocation_leased (hassemble : Assembles ctx.sdk)
    (hrun : Invoked ctx contractId method args k tr k' result) :
    Leased ctx.sdk k' ctx.hasPool (Environment.asked tr) :=
  (Invoked.completed hassemble hrun).leased

theorem runInvocation_leased_channel : Leased plainSdk settledNetwork true callEvents := by
  obtain ⟨tr, hrun, hasked⟩ := channel_invoked
  rw [← hasked]
  exact runInvocation_leased plainSdk_assembles hrun

end

end StellarAgent.Agent
