import DopamintArena.Move.Tunnel.Invariants

/-!
Conservation of funds over a tunnel's whole life. Coins enter by deposits and
leave by transfers and returned coins; in between they sit in the tunnel's
balance or in an outstanding HTLC. One effect conserves them, hence so does a
run.
-/

namespace DopamintArena.Move

open Foundation

variable {env : Natives} {t t' : Tunnel} {tx : Tx} {r : Receipt} {history : List Entry}

def outstanding (t : Tunnel) : Nat :=
  Store.total (fun _ htlc => htlc.balance.toNat) t.htlcs

def transferred (transfers : List Transfer) : Nat :=
  (transfers.map fun transfer => transfer.amount.toNat).sum

def Entry.deposited : Entry → Nat
  | .created (.create ..) _ => 0
  | .created (.createAndFund _ _ partyACoin partyBCoin _) _ =>
    partyACoin.toNat + partyBCoin.toNat
  | .called tx _ => (tx.call.coin.getD 0).toNat

def Entry.receipt : Entry → Receipt
  | .created _ receipt => receipt
  | .called _ receipt => receipt

def Entry.paidOut (entry : Entry) : Nat :=
  transferred entry.receipt.transfers + (entry.receipt.returned.getD 0).toNat

def deposited (history : List Entry) : Nat := (history.map Entry.deposited).sum

def paidOut (history : List Entry) : Nat := (history.map Entry.paidOut).sum

@[simp] theorem deposited_append (history : List Entry) (entry : Entry) :
    deposited (history ++ [entry]) = deposited history + entry.deposited := by
  simp [deposited]

@[simp] theorem paidOut_append (history : List Entry) (entry : Entry) :
    paidOut (history ++ [entry]) = paidOut history + entry.paidOut := by
  simp [paidOut]

@[simp] theorem transferred_shares (t : Tunnel) (a b : UInt64) :
    transferred (shares t a b) = a.toNat + b.toNat := by
  simp [transferred, shares]

theorem closes_coin {c : Call} (h : c.closes = true) : c.coin = none := by
  cases c <;> simp_all [Call.closes, Call.coin]

/-- One effect conserves coins: what the tunnel and its HTLCs hold afterwards,
with what was paid, is what they held before with the coin brought in. -/
theorem effect_conserves {transfers : List Transfer} {returned : Option UInt64}
    (heffect : Effect env t tx t' transfers returned) :
    t'.balance.toNat + outstanding t' + transferred transfers +
        (returned.getD 0).toNat =
      t.balance.toNat + outstanding t + (tx.call.coin.getD 0).toNat := by
  cases heffect with
  | fund isPartyA _ deposit balance hcall =>
    obtain ⟨_, _, _, hactivated⟩ := maybeActivate_eq
      (fundedTunnel t isPartyA deposit balance tx.clock) tx.clock
    rw [hactivated, hcall]
    simp only [fundedTunnel, outstanding, transferred, List.map_nil, List.sum_nil, Option.getD_none,
      Option.getD_some, UInt64.toNat_zero]
    omega
  | close _ _ _ hreason =>
    rw [closes_coin (closeReason_closes hreason), transferred_shares]
    simp only [closedTunnel, outstanding, Option.getD_none, UInt64.toNat_zero]
    omega
  | lock _ _ _ _ _ _ hcall _ _ _ _ _ _ hfresh =>
      rw [hcall]
      simp only [outstanding, Store.total_insert _ _ hfresh, LockArgs.htlc, transferred,
        Call.coin, List.map_nil, List.sum_nil, Option.getD_none, UInt64.toNat_zero]
      omega
  | claim _ _ htlc _ hcall _ hentry | expire _ htlc _ hcall _ hentry =>
      have hshare := Store.total_erase (fun _ htlc => htlc.balance.toNat) hentry
      rw [hcall]
      simp only [outstanding, releasedTunnel, transferred, Call.coin, List.map_cons,
        List.map_nil, List.sum_cons, List.sum_nil, Option.getD_none, UInt64.toNat_zero]
      omega
  | withdraw _ _ hcall =>
    have hcoin : tx.call.coin = none := by
      rcases hcall with hcall | hcall <;> rw [hcall] <;> rfl
    rw [hcoin]
    simp only [outstanding, withdrawnTunnel, transferred, List.map_nil, List.sum_nil,
      Option.getD_none, Option.getD_some, UInt64.toNat_zero]
    omega
  | assignReferee _ hcall =>
    have hcoin : tx.call.coin = none := by
      rcases hcall with ⟨_, _, hcall⟩ | hcall <;> rw [hcall] <;> rfl
    rw [hcoin]
    simp [outstanding, transferred]
  | update _ _ _ hcall | raise _ _ _ _ hcall | resolve _ _ _ hcall | raiseCurrent _ hcall
  | extend _ _ hcall | destroy hcall | migrate hcall => rw [hcall]; rfl

/-- What the status says about the balance. -/
def StatusBalance (t : Tunnel) : Prop :=
  match t.status with
  | .created =>
    t.balance.toNat = t.partyADeposit.toNat + t.partyBDeposit.toNat
  | .active | .disputed =>
    t.state.partyABalance.toNat + t.state.partyBBalance.toNat = t.balance.toNat
  | .closed | .destroyed => t.balance.toNat = 0

theorem wellFormed_statusBalance (hwf : WellFormed t) : StatusBalance t := by
  unfold StatusBalance
  split <;> rename_i hstatus
  · exact (hwf.funding hstatus).1
  · exact hwf.allocated (.inl hstatus)
  · exact hwf.allocated (.inr hstatus)
  · exact hwf.emptied (.inl hstatus)
  · exact hwf.emptied (.inr hstatus)

theorem run_conserves (hrun : (tunnelSystem env).Run history t) :
    t.balance.toNat + outstanding t + paidOut history = deposited history := by
  refine hrun.invariant
    (I := fun h t => t.balance.toNat + outstanding t + paidOut h = deposited h) ?_ ?_
  · rintro h s ⟨g, r, hg, rfl, rfl⟩
    rcases genesis_cases hg with ⟨id, p, now, rfl, -, htunnel, htransfers, hreturned⟩ |
      ⟨_, _, _, _, _, _, rfl, -, -, -, hbalance, htunnel, htransfers,
        hreturned⟩
    · rw [htunnel]
      simp [paidOut, deposited, Entry.paidOut, Entry.deposited, Entry.receipt, htransfers,
        hreturned, transferred, outstanding, freshTunnel]
    · rw [htunnel]
      simp [paidOut, deposited, Entry.paidOut, Entry.deposited, Entry.receipt, htransfers,
        hreturned, transferred, outstanding, fundedAtCreation, freshTunnel, hbalance]
  · rintro h s label s' - hsum ⟨tx, r, hexec, rfl, rfl⟩
    have hstep := effect_conserves (exec_effect hexec)
    simp only [paidOut_append, deposited_append, Entry.paidOut, Entry.deposited,
      Entry.receipt]
    omega

/-- Funds are conserved at every point of every run, and the status fixes where
the tunnel's own balance stands. -/
theorem funds_conserved (hrun : (tunnelSystem env).Run history t) :
    t.balance.toNat + outstanding t + paidOut history = deposited history ∧
      StatusBalance t :=
  ⟨run_conserves hrun, wellFormed_statusBalance (reachable_wellFormed hrun)⟩

theorem funds_conserved_dispute : ∃ t history,
    replay permissive Sample.genesis
      (Sample.dispute ++ [⟨Sample.alice, 2000, .forceCloseAfterTimeout⟩]) =
        .ok (t, history) ∧
    t.balance.toNat + outstanding t + paidOut history = deposited history ∧
    StatusBalance t := by
  obtain ⟨⟨t, history⟩, hreplay⟩ := exists_ok_of_isOk
    (x := replay permissive Sample.genesis
      (Sample.dispute ++ [⟨Sample.alice, 2000, .forceCloseAfterTimeout⟩])) (by decide +kernel)
  exact ⟨t, history, hreplay, funds_conserved (replay_run hreplay)⟩

end DopamintArena.Move
