import StellarAgent.Soroban.Transactions

set_option autoImplicit false

/-! # The transfers of a call

What a transfer does to the balances of its two ends, and the list of the transfers that a call
made, as read from its events.
-/

namespace StellarAgent.Soroban

/-- A transfer of a token contract. -/
structure Transfer where
  token : Address
  source : Address
  dest : Address
  amount : Int
  deriving DecidableEq, Repr

section

variable {S E : Type}

/-- The transfer that an event reports. -/
def HostEvent.transfer? : HostEvent E → Option Transfer
  | .transfer token source dest amount => some { token, source, dest, amount }
  | .published _ => none

/-- The transfers of the last call, in their order. -/
def World.transfers (w : World S E) : List Transfer := w.events.filterMap HostEvent.transfer?

/-- Those of them that took something out of `self`. -/
def World.transfersOut (self : Address) (w : World S E) : List Transfer :=
  w.transfers.filter (·.source = self)

@[simp] theorem World.transfers_publish (w : World S E) (event : E) :
    (w.publish event).transfers = w.transfers := by
  simp [transfers, HostEvent.transfer?]

@[simp] theorem World.transfers_moved (w : World S E) (token source dest : Address)
    (amount : Int) : (w.moved token source dest amount).transfers =
      w.transfers ++ [⟨token, source, dest, amount⟩] := by
  simp [transfers, HostEvent.transfer?]

@[simp] theorem World.transfers_quiet (w : World S E) : w.quiet.transfers = [] := rfl

theorem World.transfers_congr {w w' : World S E} (h : w'.events = w.events) :
    w'.transfers = w.transfers := by
  unfold transfers
  rw [h]

theorem World.transfers_of_events_nil {w : World S E} (h : w.events = []) : w.transfers = [] := by
  unfold transfers
  rw [h]
  rfl

end

/-- A transfer to another takes the amount out of the sender's balance. -/
theorem TokenLedger.move_source {L : TokenLedger} {token source dest : Address} {amount : Int}
    (hne : dest ≠ source) (t : Address) :
    L.move token source dest amount t source = L t source - if t = token then amount else 0 := by
  unfold TokenLedger.move
  by_cases ht : t = token
  · rw [if_pos ht, if_pos rfl, if_neg (Ne.symm hne), if_pos ht, add_zero]
  · rw [if_neg ht, if_neg ht, sub_zero]

/-- A transfer from another adds the amount to the receiver's balance. -/
theorem TokenLedger.move_dest {L : TokenLedger} {token source dest : Address} {amount : Int}
    (hne : source ≠ dest) (t : Address) :
    L.move token source dest amount t dest = L t dest + if t = token then amount else 0 := by
  unfold TokenLedger.move
  by_cases ht : t = token
  · rw [if_pos ht, if_neg (Ne.symm hne), if_pos rfl, if_pos ht, sub_zero]
  · rw [if_neg ht, if_neg ht, add_zero]

end StellarAgent.Soroban
