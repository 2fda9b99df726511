import DopamintArena.Move.Tunnel.Funds
import DopamintArena.Move.Tunnel.Htlc

/-!
The order of a tunnel's life, whatever is called, by whom and when: the referee
is chosen before any coin arrives, and nothing is left at the destruction.
-/

namespace DopamintArena.Move

open Foundation

variable {env : Natives} {t t' : Tunnel} {tx : Tx} {history : List Entry}

/-- A coin has arrived, or the tunnel no longer waits for one. -/
def Tunnel.Funded (t : Tunnel) : Prop :=
  t.partyADeposit ≠ 0 ∨ t.partyBDeposit ≠ 0 ∨ t.status ≠ .created

theorem effect_funded {transfers : List Transfer} {returned : Option UInt64} (hwf : WellFormed t)
    (hfunded : t.Funded) (heffect : Effect env t tx t' transfers returned) :
    t'.Funded ∧ t'.referee = t.referee := by
  cases heffect with
  | fund isPartyA coin deposit balance _ _ hcoin hdeposit =>
    obtain ⟨_, _, _, hactivated⟩ :=
      maybeActivate_eq (fundedTunnel t isPartyA deposit balance tx.clock) tx.clock
    have hpos : deposit ≠ 0 := by
      rintro rfl
      simp at hdeposit
      omega
    rw [hactivated]
    cases isPartyA
    · exact ⟨.inr (.inl hpos), rfl⟩
    · exact ⟨.inl hpos, rfl⟩
  | assignReferee _ _ hstatus hempty => simp [Tunnel.Funded, hstatus, hempty] at hfunded
  | withdraw _ _ _ hstatus hdeposit hbalance =>
    rw [withdraw_empties hwf hstatus hdeposit hbalance]
    exact ⟨.inr (.inr nofun), rfl⟩
  | update | extend | lock | claim | expire | migrate => exact ⟨hfunded, rfl⟩
  | raise | resolve | raiseCurrent | close | destroy => exact ⟨.inr (.inr nofun), rfl⟩

/-- Nobody names a referee, or another one, once coins are at stake: a tunnel still has the
referee of every moment of its past at which it was funded. -/
theorem referee_fixed_once_funded (hrun : (tunnelSystem env).Run history t) :
    ∀ e ∈ history, e.receipt.tunnel.Funded →
      t.Funded ∧ t.referee = e.receipt.tunnel.referee := by
  apply hrun.invariant (I := fun history t => ∀ e ∈ history, e.receipt.tunnel.Funded →
    t.Funded ∧ t.referee = e.receipt.tunnel.referee)
  · rintro _ _ ⟨g, r, -, rfl, rfl⟩
    simp [Entry.receipt]
  · rintro _ t _ _ hbefore ih ⟨tx, r, hexec, rfl, rfl⟩ e hmem hfunded
    rcases List.mem_append.mp hmem with hmem | hmem
    · obtain ⟨hnow, hsame⟩ := ih e hmem hfunded
      obtain ⟨hnext, hreferee⟩ :=
        effect_funded (reachable_wellFormed hbefore) hnow (exec_effect hexec)
      exact ⟨hnext, hreferee.trans hsame⟩
    · cases List.mem_singleton.mp hmem
      exact ⟨hfunded, rfl⟩

/-- The dispute of `dispute`, its forced close and the destruction of the empty tunnel. -/
def Sample.life : List Tx :=
  dispute ++ [⟨alice, 2000, .forceCloseAfterTimeout⟩, ⟨bob, 2001, .destroyTunnel⟩]

theorem referee_fixed_in_life : ∃ t history,
    replay permissive Sample.genesis Sample.life = .ok (t, history) ∧
    ∀ e ∈ history, e.receipt.tunnel.Funded →
      t.Funded ∧ t.referee = e.receipt.tunnel.referee := by
  obtain ⟨⟨t, history⟩, hreplay⟩ := exists_ok_of_isOk
    (x := replay permissive Sample.genesis Sample.life) (by decide +kernel)
  exact ⟨t, history, hreplay, referee_fixed_once_funded (replay_run hreplay)⟩

/-- The coins paid out of a destroyed tunnel are all that were ever paid in. -/
theorem destroyed_pays_all (hrun : (tunnelSystem env).Run history t)
    (hdestroyed : t.status = .destroyed) : paidOut history = deposited history := by
  have hconserved := run_conserves hrun
  have hempty := (reachable_wellFormed hrun).emptied (.inr hdestroyed)
  have hkeys : t.htlcs.keys = [] := by
    refine List.eq_nil_iff_forall_not_mem.mpr fun hash => ?_
    exact AList.lookup_eq_none.mp ((run_htlcInvariant hrun).destroyed hdestroyed hash)
  have hnone : outstanding t = 0 := by
    simp [outstanding, Store.total, List.map_eq_nil_iff.mp hkeys]
  omega

theorem destroyed_pays_all_life : ∃ t history,
    replay permissive Sample.genesis Sample.life = .ok (t, history) ∧
    t.status = .destroyed ∧ paidOut history = deposited history := by
  have hstatus : (replay permissive Sample.genesis Sample.life).map (·.1.status) =
      .ok .destroyed := by
    decide +kernel
  obtain ⟨⟨t, history⟩, hreplay, hdestroyed⟩ := map_ok_iff.mp hstatus
  exact ⟨t, history, hreplay, hdestroyed, destroyed_pays_all (replay_run hreplay) hdestroyed⟩

end DopamintArena.Move
