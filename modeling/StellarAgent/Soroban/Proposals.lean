import StellarAgent.Lib.FinMap
import StellarAgent.Soroban.Host

set_option autoImplicit false

/-! # Counting valid proposals

The loop that the contracts share: a map holds the ledger of each address' last proposal, and the
loop runs over a vector of addresses and counts those whose proposal is not older than a window.
An address that the vector lists twice is counted twice.
-/

namespace StellarAgent.Soroban

open Lib

/-- Whether `node` has a proposal that is not older than `window`. -/
def hasValidProposal (current_ledger : Nat) (proposals : Map Address Nat) (window : Nat)
    (node : Address) : Bool :=
  match proposals.lookup node with
  | some proposed_at => proposed_at ≥ current_ledger - window
  | none => false

/-- `count_valid_proposals(env, proposals, owners, window)` -/
def countValidProposals (current_ledger : Nat) (proposals : Map Address Nat)
    (owners : List Address) (window : Nat) : Nat :=
  owners.countP (hasValidProposal current_ledger proposals window)

variable {current_ledger window : Nat} {proposals : Map Address Nat} {owners : List Address}

theorem hasValidProposal_eq_true {node : Address} :
    hasValidProposal current_ledger proposals window node = true ↔
      ∃ proposed_at, proposals.lookup node = some proposed_at ∧
        current_ledger ≤ proposed_at + window := by
  unfold hasValidProposal
  cases proposals.lookup node with
  | none => simp
  | some proposed_at => simp

/-- The addresses that the loop counts, in the order of the vector. -/
def counted (current_ledger : Nat) (proposals : Map Address Nat) (owners : List Address)
    (window : Nat) : List Address :=
  owners.filter (hasValidProposal current_ledger proposals window)

theorem counted_length : (counted current_ledger proposals owners window).length
    = countValidProposals current_ledger proposals owners window :=
  List.countP_eq_length_filter.symm

theorem mem_counted {node : Address} :
    node ∈ counted current_ledger proposals owners window ↔ node ∈ owners ∧
      ∃ proposed_at, proposals.lookup node = some proposed_at ∧
        current_ledger ≤ proposed_at + window := by
  rw [counted, List.mem_filter, hasValidProposal_eq_true]

end StellarAgent.Soroban
