import StellarAgent.Lib.Monitors
import StellarAgent.Lib.Results
import StellarAgent.Sdk.Client

set_option autoImplicit false

/-! # Retrying a payment

A caller issues `payForApi` and issues it again whenever its error is retryable, against an RPC
server that answers what it likes and a ledger that applies an envelope it has been given at any
later moment, once its sequence number is the next one. Every attempt reads the account's sequence
number anew. So a second payment needs an attempt that reads it after the first payment has been
applied, and no run without such a read pays twice (`pays_once`): up to there the envelopes of all
attempts compete for one sequence number.
-/

namespace StellarAgent.Sdk

open Lib
open Lib.Fallible (perform attempt)
open Signer (Transaction TransactionV1Envelope Preconditions SorobanAuthorizationEntry TxOperation)

/-! ## The ledger and the caller -/

/-- The account's sequence number, what the network has been given of the caller's envelopes, and
which of them have paid. -/
structure Ledger where
  time : ℕ
  sequence : ℤ
  accepted : List Transaction
  paid : List Transaction

/-- Whether a transaction's time bounds hold. -/
def inTime (time : ℕ) (tx : Transaction) : Bool :=
  match tx.cond with
  | .Time bounds => bounds.min_time ≤ time && (bounds.max_time == 0 || time ≤ bounds.max_time)
  | _ => true

namespace Ledger

/-- A submission that reaches the network. -/
def accept (ledger : Ledger) : Op → Ledger
  | .post (.sendTransaction envelope) => { ledger with accepted := envelope.tx :: ledger.accepted }
  | _ => ledger

/-- The transaction consumes its sequence number; its payment succeeds or fails. -/
def apply (ledger : Ledger) (tx : Transaction) (succeeds : Bool) : Option Ledger :=
  if tx.seq_num = ledger.sequence + 1 ∧ inTime ledger.time tx = true then
    some { ledger with
      sequence := tx.seq_num
      paid := if succeeds then tx :: ledger.paid else ledger.paid }
  else none

end Ledger

/-- The ledger, and the caller within the attempt it is making. -/
structure World where
  ledger : Ledger
  caller : Program Op Answer (Except StellarAgentError TxResult)

section

variable (agent : StellarAgent) (params : PayForApiParams)

/-- The account that `account` reads of an answer. -/
def accountRead : Event Op Answer → Option AccountState
  | ⟨.post (.getLedgerEntries _), reply⟩ =>
      ((readReply agent.rpc "getLedgerEntries" reply) >>=
        readAccount agent.rpc agent.public_key).toOption
  | _ => none

/-- What account an answer gives is the account as it is. -/
def reportsCurrent (ledger : Ledger) (e : Event Op Answer) : Bool :=
  (accountRead agent e).all fun account => account.sequence == ledger.sequence

inductive Act where
  /-- The caller's question is answered; a submission may reach the network, answered or not. -/
  | asked (answers : (op : Op) → Answer op) (arrives : Bool)
  /-- The caller starts again after a retryable error. -/
  | reissue
  | wait (seconds : ℕ)
  /-- An accepted envelope is applied. -/
  | applied (index : ℕ) (succeeds : Bool)
  /-- Other transactions of the account consume sequence numbers. -/
  | others (sequence : ℤ)

def World.step (w : World) : Act → Option World
  | .asked answers arrives =>
      match w.caller with
      | .ret _ => none
      | .ask op next =>
          if reportsCurrent agent w.ledger ⟨op, answers op⟩ then
            some {
              ledger := if arrives then w.ledger.accept op else w.ledger
              caller := next (answers op) }
          else none
  | .reissue =>
      match w.caller with
      | .ret (.error error) =>
          if error.isRetryable then some { w with caller := (payForApi agent params).run } else none
      | _ => none
  | .wait seconds => some { w with ledger := { w.ledger with time := w.ledger.time + seconds } }
  | .applied index succeeds => do
      let tx ← w.ledger.accepted[index]?
      let ledger ← w.ledger.apply tx succeeds
      return { w with ledger }
  | .others sequence =>
      if w.ledger.sequence < sequence then some { w with ledger := { w.ledger with sequence } }
      else none

/-- The caller starts, and the network has none of its envelopes. -/
def World.start (time : ℕ) (sequence : ℤ) : World where
  ledger := { time, sequence, accepted := [], paid := [] }
  caller := (payForApi agent params).run

/-- The runs of the caller and the network. -/
abbrev Retrying (w : World) (tr : List (Transition World Act)) (w' : World) : Prop :=
  Run (fun w act w' => World.step agent params w act = some w') w tr w'

/-- A read of the account is answered only as long as no payment has been applied. -/
def ReadsBeforePaying (x : Transition World Act) : Prop :=
  ∀ answers arrives account next, x.act = .asked answers arrives →
    x.pre.caller = .ask (.post (.getLedgerEntries account)) next → x.pre.ledger.paid = []

/-! ## The envelopes of an attempt -/

/-- Submissions carry at most the sequence number of the position, which is at least the one after
any that has been read. -/
def submissions : Monitor Op Answer ℤ where
  Allows k op := ∀ envelope, op = .post (.sendTransaction envelope) → envelope.tx.seq_num ≤ k
  Moves k e k' := k ≤ k' ∧ ∀ account, accountRead agent e = some account → account.sequence + 1 ≤ k'

variable {agent params} {A : Type} {b k : ℤ}

theorem submissions_steady : (submissions agent).Steady where
  allows := fun _ _ _ hle h envelope hop => (h envelope hop).trans hle
  moves := fun _ _ _ _ hle h => ⟨hle.trans h.1, h.2⟩

/-- What is no submission is always allowed. -/
theorem perform_under {op : Op} (hop : ∀ envelope, op ≠ .post (.sendTransaction envelope))
    (hk : b ≤ k) :
    Fallible.Under (submissions agent) (perform op : Client (Answer op)) (fun _ k => b ≤ k) k := by
  refine Fallible.under_perform (fun envelope heq => absurd heq (hop envelope)) ?_
  exact fun _ _ hmoves => hk.trans hmoves.1

theorem request_under {call : RpcCall} (hcall : ∀ envelope, call ≠ .sendTransaction envelope)
    (hk : b ≤ k) :
    Fallible.Under (submissions agent) (request agent.rpc call) (fun _ k => b ≤ k) k := by
  have hop : ∀ envelope, Op.post call ≠ .post (.sendTransaction envelope) := by
    intro envelope heq
    exact hcall envelope (Op.post.inj heq)
  refine Fallible.under_bind ((perform_under hop hk).imp fun _ _ hk => ?_)
  exact Fallible.under_ofExcept fun _ _ => hk

/-- The account that is read lies below where the monitor then is. -/
theorem account_under :
    Fallible.Under (submissions agent) (account agent.rpc agent.public_key)
      (fun account k => account.sequence + 1 ≤ k) k := by
  unfold account
  split
  · exact Fallible.under_throw
  · rename_i account_id _
    refine Fallible.under_bind (Fallible.under_bind ?_)
    refine Fallible.under_perform (fun _ heq => by cases heq) fun reply k' hmoves => ?_
    refine Fallible.under_ofExcept fun value hvalue => ?_
    refine Fallible.under_ofExcept fun account haccount => ?_
    refine hmoves.2 account ?_
    show ((readReply agent.rpc "getLedgerEntries" reply) >>= _).toOption = some account
    have hreply : readReply agent.rpc "getLedgerEntries" reply = .ok value := hvalue
    rw [hreply, ok_bind, haccount]
    rfl

theorem prefixing_under {x : Client A} {post : A → ℤ → Prop} {method : String}
    (h : Fallible.Under (submissions agent) x post k) :
    Fallible.Under (submissions agent) (prefixing method x) post k := by
  refine Fallible.under_bind (Fallible.under_attempt ?_)
  refine Program.Under.imp h fun result k hresult => Fallible.under_ofExcept fun a ha => ?_
  cases result with
  | error e => cases ha
  | ok value =>
      cases ha
      exact hresult _ rfl

theorem simulateTransaction_under {envelope : TransactionV1Envelope} (hk : b ≤ k) :
    Fallible.Under (submissions agent) (simulateTransaction agent.rpc envelope)
      (fun _ k => b ≤ k) k := by
  have hrequest : Fallible.Under (submissions agent)
      (request agent.rpc (.simulateTransaction envelope)) (fun _ k => b ≤ k) k :=
    request_under (fun _ heq => by cases heq) hk
  exact Fallible.under_bind (hrequest.imp fun _ _ hk => Fallible.under_ofExcept fun _ _ => hk)

/-- A transaction carries the number after the one that was read. -/
theorem buildTransaction_under {account : AccountState} {operation : TxOperation} {fee : ℕ}
    {soroban_data : Option Soroban.Bytes} (hk : account.sequence + 1 ≤ k) :
    Fallible.Under (submissions agent)
      (buildTransaction agent account operation fee soroban_data)
      (fun tx k => account.sequence + 1 ≤ k ∧ tx.seq_num ≤ k) k := by
  refine Fallible.under_bind ((perform_under (fun _ heq => by cases heq) hk).imp ?_)
  intro elapsed k hk
  split
  · exact Fallible.under_throw
  · exact Fallible.under_pure ⟨hk, (min_le_left _ _).trans hk⟩

theorem signAuthEntry_under {entry : SorobanAuthorizationEntry} {valid_until : ℕ} (hk : b ≤ k) :
    Fallible.Under (submissions agent) (signAuthEntry agent entry valid_until)
      (fun _ k => b ≤ k) k := by
  unfold signAuthEntry
  split
  · exact Fallible.under_pure hk
  · refine Fallible.under_bind ((perform_under (fun _ heq => by cases heq) hk).imp ?_)
    intro signed k hk
    cases signed with
    | error message => exact Fallible.under_throw
    | ok signed =>
        dsimp only
        split
        · exact Fallible.under_pure hk
        · exact Fallible.under_throw

/-- The signed envelope carries the same transaction. -/
theorem signTransaction_under {envelope : TransactionV1Envelope} (hk : envelope.tx.seq_num ≤ k) :
    Fallible.Under (submissions agent) (signTransaction agent envelope)
      (fun signed k => signed.tx.seq_num ≤ k) k := by
  refine Fallible.under_bind ((perform_under (fun _ heq => by cases heq) hk).imp ?_)
  intro signatures k hk
  cases signatures with
  | error message => exact Fallible.under_throw
  | ok signatures => exact Fallible.under_pure hk

theorem getTransaction_under {hash : String} :
    Fallible.Under (submissions agent) (getTransaction agent.rpc hash) (fun _ _ => True) k := by
  have hrequest : Fallible.Under (submissions agent) (request agent.rpc (.getTransaction hash))
      (fun _ k' => k ≤ k') k := request_under (fun _ heq => by cases heq) (le_refl k)
  exact Fallible.under_bind (hrequest.imp fun _ _ _ => Fallible.under_ofExcept fun _ _ => trivial)

theorem pollRemaining_under {hash : String} {attempts : ℕ} (remaining : ℕ) :
    Fallible.Under (submissions agent) (pollRemaining agent.rpc hash attempts remaining)
      (fun _ _ => True) k := by
  induction remaining generalizing k with
  | zero => exact Fallible.under_throw
  | succ remaining ih =>
      refine Fallible.under_bind (getTransaction_under.imp fun response k _ => ?_)
      split_ifs
      · exact Fallible.under_pure trivial
      · refine Fallible.under_bind ?_
        refine (perform_under (fun _ heq => by cases heq) (le_refl k)).imp fun _ _ _ => ih
      · exact ih

/-- A submission needs no more than the number of its envelope. -/
theorem submit_under {method : String} {return_value : Signer.ScVal}
    {signed : TransactionV1Envelope} (hk : signed.tx.seq_num ≤ k) :
    Fallible.Under (submissions agent) (submit agent method return_value signed)
      (fun _ _ => True) k := by
  refine Fallible.under_bind (Fallible.under_bind (Fallible.under_bind ?_))
  refine Fallible.under_perform ?_ fun reply k' _ => ?_
  · rintro envelope heq
    cases heq
    exact hk
  refine Fallible.under_ofExcept fun value _ => Fallible.under_pure ?_
  split_ifs
  · exact Fallible.under_throw
  · refine Fallible.under_bind ((prefixing_under (pollRemaining_under _)).imp fun _ _ _ => ?_)
    exact Fallible.under_ofExcept fun _ _ => trivial

/-- The pipeline of one call: what it submits carries the number after the one it has read. -/
theorem invoke_under {contract_id method : String} {args : List Signer.ScVal} {read_only : Bool} :
    Fallible.Under (submissions agent) (invoke agent contract_id method args read_only)
      (fun _ _ => True) k := by
  refine Fallible.under_bind (Fallible.under_ofExcept fun operation _ => ?_)
  refine Fallible.under_bind (account_under.imp fun account k hk => ?_)
  refine Fallible.under_bind ((buildTransaction_under hk).imp ?_)
  rintro transaction k ⟨hk, _⟩
  refine Fallible.under_bind ((prefixing_under (simulateTransaction_under hk)).imp ?_)
  intro simulation k hk
  dsimp only
  split_ifs
  · exact Fallible.under_pure trivial
  · refine Fallible.under_bind ((Fallible.under_mapM (fun k => account.sequence + 1 ≤ k) _
      (fun entry _ k hk => signAuthEntry_under hk) hk).imp fun signed_auth k hk => ?_)
    refine Fallible.under_bind (Fallible.under_ofExcept fun args _ => ?_)
    refine Fallible.under_bind (Fallible.under_ofExcept fun authorized _ => ?_)
    refine Fallible.under_bind ((buildTransaction_under hk).imp ?_)
    rintro assembled k ⟨_, hseq⟩
    have hsign : Fallible.Under (submissions agent) (signTransaction agent (envelopeOf assembled))
        (fun signed k => signed.tx.seq_num ≤ k) k := signTransaction_under hseq
    exact Fallible.under_bind (hsign.imp fun signed k hk => submit_under hk)

theorem payForApi_under :
    Program.Under (submissions agent) (payForApi agent params).run (fun _ _ => True) k := by
  have hpay : Fallible.Under (submissions agent) (payForApi agent params) (fun _ _ => True) k := by
    refine Fallible.under_bind (Fallible.under_ofExcept fun arguments _ => ?_)
    exact Fallible.under_bind (invoke_under.imp fun _ _ _ => Fallible.under_pure trivial)
  exact Program.Under.imp hpay fun _ _ _ => trivial

/-! ## One payment -/

/-- The largest number that an envelope of the payment may carry: as long as it is unpaid the next
one, and from then on one that is consumed. -/
def Ledger.newest (ledger : Ledger) : ℤ :=
  if ledger.paid = [] then ledger.sequence + 1 else ledger.sequence

/-- What holds throughout the attempts. -/
structure Inv (agent : StellarAgent) (w : World) : Prop where
  once : w.ledger.paid.length ≤ 1
  accepted : ∀ tx ∈ w.ledger.accepted, tx.seq_num ≤ w.ledger.newest
  caller : Program.Under (submissions agent) w.caller (fun _ _ => True) w.ledger.newest

/-- A ledger that has moved on without a new envelope. -/
theorem Inv.move {w : World} (h : Inv agent w) {ledger : Ledger}
    (haccepted : ledger.accepted = w.ledger.accepted) (honce : ledger.paid.length ≤ 1)
    (hnewest : w.ledger.newest ≤ ledger.newest) : Inv agent { w with ledger } where
  once := honce
  accepted := by
    intro tx htx
    exact (h.accepted tx (haccepted ▸ htx)).trans hnewest
  caller := h.caller.grow submissions_steady (fun _ _ _ _ => id) hnewest

/-- An answer, and a submission that may reach the network. -/
theorem Inv.asked {w : World} (h : Inv agent w) {op : Op} {next : Answer op → _} {answer : Answer op}
    {arrives : Bool} (hcaller : w.caller = .ask op next)
    (hcurrent : reportsCurrent agent w.ledger ⟨op, answer⟩ = true)
    (hread : ∀ account, op = .post (.getLedgerEntries account) → w.ledger.paid = []) :
    Inv agent {
      ledger := if arrives then w.ledger.accept op else w.ledger
      caller := next answer } := by
  obtain ⟨hallows, hnext⟩ : (submissions agent).Allows w.ledger.newest op ∧ _ := by
    have hunder := h.caller
    rw [hcaller] at hunder
    exact hunder
  have hmoves : (submissions agent).Moves w.ledger.newest ⟨op, answer⟩ w.ledger.newest := by
    refine ⟨le_refl _, fun account haccount => ?_⟩
    have hsequence : account.sequence = w.ledger.sequence := by
      rw [reportsCurrent, haccount] at hcurrent
      exact beq_iff_eq.mp hcurrent
    -- only the answer to a read gives an account
    have hunpaid : w.ledger.paid = [] := by
      unfold accountRead at haccount
      split at haccount
      · rename_i heq
        cases heq
        exact hread _ rfl
      · cases haccount
    rw [Ledger.newest, if_pos hunpaid, hsequence]
  have hcaller' := hnext answer _ hmoves
  cases arrives with
  | false => exact ⟨h.once, h.accepted, hcaller'⟩
  | true =>
      rw [if_pos rfl]
      unfold Ledger.accept
      split
      · rename_i envelope
        refine ⟨h.once, ?_, hcaller'⟩
        intro tx htx
        rcases List.mem_cons.mp htx with rfl | htx
        · exact hallows envelope rfl
        · exact h.accepted tx htx
      · exact ⟨h.once, h.accepted, hcaller'⟩

/-- An envelope that is applied carries the next number, so nothing has been paid before. -/
theorem Inv.applied {w : World} (h : Inv agent w) {tx : Transaction} {succeeds : Bool}
    {ledger : Ledger} (htx : tx ∈ w.ledger.accepted)
    (happly : w.ledger.apply tx succeeds = some ledger) : Inv agent { w with ledger } := by
  obtain ⟨⟨hseq, _⟩, hledger⟩ := Option.ite_none_right_eq_some.mp happly
  cases hledger
  have hle := h.accepted tx htx
  have hunpaid : w.ledger.paid = [] := by
    by_contra hpaid
    rw [Ledger.newest, if_neg hpaid] at hle
    omega
  have hnewest : w.ledger.newest = tx.seq_num := by
    rw [Ledger.newest, if_pos hunpaid, hseq]
  rw [hunpaid]
  cases succeeds with
  | true => exact h.move rfl (le_refl 1) hnewest.le
  | false =>
      refine h.move rfl (Nat.zero_le 1) ?_
      show w.ledger.newest ≤ tx.seq_num + 1
      omega

/-- **One step.** -/
theorem Inv.step {w w' : World} {act : Act} (h : Inv agent w)
    (hstep : World.step agent params w act = some w') (hread : ReadsBeforePaying ⟨w, act, w'⟩) :
    Inv agent w' := by
  cases act with
  | asked answers arrives =>
      dsimp only [World.step] at hstep
      split at hstep
      · cases hstep
      · rename_i op next hcaller
        obtain ⟨hcurrent, hnext⟩ := Option.ite_none_right_eq_some.mp hstep
        cases hnext
        refine h.asked hcaller hcurrent ?_
        rintro account rfl
        exact hread answers arrives account next rfl hcaller
  | reissue =>
      dsimp only [World.step] at hstep
      split at hstep
      · obtain ⟨_, hagain⟩ := Option.ite_none_right_eq_some.mp hstep
        cases hagain
        exact ⟨h.once, h.accepted, payForApi_under⟩
      · cases hstep
  | wait seconds =>
      cases hstep
      exact h.move rfl h.once (le_refl _)
  | applied index succeeds =>
      obtain ⟨tx, htx, hrest⟩ := Option.bind_eq_some_iff.mp hstep
      obtain ⟨ledger, happly, hw'⟩ := Option.bind_eq_some_iff.mp hrest
      cases hw'
      exact h.applied (List.mem_of_getElem? htx) happly
  | others sequence =>
      obtain ⟨hlater, hmoved⟩ := Option.ite_none_right_eq_some.mp hstep
      cases hmoved
      refine h.move rfl h.once ?_
      show (if w.ledger.paid = [] then w.ledger.sequence + 1 else w.ledger.sequence) ≤
        (if w.ledger.paid = [] then sequence + 1 else sequence)
      split_ifs <;> omega

theorem Inv.start (time : ℕ) (sequence : ℤ) : Inv agent (World.start agent params time sequence) where
  once := Nat.zero_le _
  accepted := by
    intro tx htx
    cases htx
  caller := payForApi_under

end

/-- **A payment is made once**, however often it is retried, in every run in which no attempt reads
the account's sequence number after a payment of an earlier attempt has been applied. -/
theorem pays_once (agent : StellarAgent) (params : PayForApiParams) {time : ℕ} {sequence : ℤ}
    {tr : List (Transition World Act)} {w : World}
    (h : Retrying agent params (World.start agent params time sequence) tr w)
    (hread : ∀ x ∈ tr, ReadsBeforePaying x) :
    w.ledger.paid.length ≤ 1 := by
  have hinv : Inv agent w ∧ ∀ x ∈ tr, True := by
    refine h.safety (I := Inv agent) (Q := fun _ => True) hread (Inv.start time sequence) ?_
    exact fun m act m' hI hstep hC => ⟨hI.step hstep hC, trivial⟩
  exact hinv.1.once

/-! ## Two attempts whose answers are lost -/

section

def sampleId : Soroban.BytesN 32 := ⟨List.replicate 32 0, by decide⟩

/-- An answer with one ledger entry -/
def entryAnswer (xdr : String) : Value :=
  .object [("result", .object [("entries", .array [.object [("xdr", .string xdr)]])])]

/-- The answers of the RPC server -/
def sampleJson : List (String × Value) := [
  ("account at 7", entryAnswer "7"),
  ("account at 8", entryAnswer "8"),
  ("simulation", .object [("result", .object [("latestLedger", .number 50),
    ("minResourceFee", .string "10"), ("transactionData", .string "footprint")])])]

def sampleCodec : Codec where
  json text := sampleJson.lookup text
  statusText _ := "error"
  scVal _ := none
  authEntry _ := none
  transactionData _ := some []
  ledgerEntry text := (parseI64 text).map fun sequence => .Account sequence 100
  transactionMeta _ := none
  accountId _ := some sampleId
  muxedAccount _ := some (.Ed25519 sampleId)
  scAddress _ := some (.Account sampleId)
  contractId _ := some sampleId
  contractText _ := "CTOKEN"
  sha256 _ := sampleId
  nativeAssetPreimage _ := []

def sampleAgent : StellarAgent where
  public_key := "GAGENT"
  network_passphrase := "standalone"
  payment_channel := "CCHANNEL"
  asset_contracts _ := none
  rpc := ⟨sampleCodec, "http://localhost"⟩
  active_channel_id := some 1

def samplePayment : PayForApiParams where
  endpoint := "/inference"
  amount := "1.5"
  channel_id := none
  recipient := some "GPROVIDER"
  dest_asset := none
  min_received := none

/-- Everything is answered, but the answer to the submission is lost. -/
def losingAnswers (account : String) : (op : Op) → Answer op
  | .post (.getLedgerEntries _) => .response 200 account
  | .post (.simulateTransaction _) => .response 200 "simulation"
  | .post (.sendTransaction _) => .unreachable
  | .post (.getTransaction _) => .unreachable
  | .sleep => ()
  | .now => some 1000
  | .signTransaction _ _ => .ok []
  | .signAuthEntry _ _ _ => .error "refused"

/-- The account, the clock, the simulation, the clock again, the signature, and the submission,
which reaches the network. -/
def lostAttempt (account : String) : List Act :=
  List.replicate 5 (.asked (losingAnswers account) false) ++
    [.asked (losingAnswers account) true]

/-- An attempt that follows while the first is pending. -/
theorem pays_once_pending : ∃ tr w, Retrying sampleAgent samplePayment
    (World.start sampleAgent samplePayment 1000 7) tr w ∧ (∀ x ∈ tr, ReadsBeforePaying x) ∧
    w.ledger.accepted.length = 2 ∧ w.ledger.paid.length = 1 ∧ w.ledger.paid.length ≤ 1 := by
  have hvalues : (walk (World.step sampleAgent samplePayment)
      (World.start sampleAgent samplePayment 1000 7)
      (lostAttempt "account at 7" ++ [.reissue] ++ lostAttempt "account at 7" ++
        [.applied 1 true])).map (fun result =>
      decide ((∀ x ∈ result.1, x.pre.ledger.paid.isEmpty = true) ∧
        result.2.ledger.accepted.length = 2 ∧ result.2.ledger.paid.length = 1)) = some true := by
    decide +kernel
  obtain ⟨⟨tr, w⟩, hwalk, hdecided⟩ := Option.map_eq_some_iff.mp hvalues
  obtain ⟨hunpaid, haccepted, hpaid⟩ := of_decide_eq_true hdecided
  have hread : ∀ x ∈ tr, ReadsBeforePaying x :=
    fun x hx _ _ _ _ _ _ => List.isEmpty_iff.mp (hunpaid x hx)
  exact ⟨tr, w, walk_run hwalk, hread, haccepted, hpaid,
    pays_once sampleAgent samplePayment (walk_run hwalk) hread⟩

/-- The first payment is applied before the caller tries again. -/
theorem lost_answer_pays_twice : ¬ ∀ (agent : StellarAgent) (params : PayForApiParams) (time : ℕ)
    (sequence : ℤ) (tr : List (Transition World Act)) (w : World),
    Retrying agent params (World.start agent params time sequence) tr w →
      w.ledger.paid.length ≤ 1 := by
  have hvalues : (walk (World.step sampleAgent samplePayment)
      (World.start sampleAgent samplePayment 1000 7)
      (lostAttempt "account at 7" ++ [.applied 0 true, .reissue] ++ lostAttempt "account at 8" ++
        [.applied 0 true])).map (fun result =>
      decide (result.2.ledger.paid.length = 2)) = some true := by
    decide +kernel
  obtain ⟨⟨tr, w⟩, hwalk, hdecided⟩ := Option.map_eq_some_iff.mp hvalues
  intro h
  have hle := h sampleAgent samplePayment 1000 7 tr w (walk_run hwalk)
  rw [of_decide_eq_true hdecided] at hle
  exact absurd hle (by decide)

end

end StellarAgent.Sdk
