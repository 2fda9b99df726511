import DopamintArena.Move.Tunnel.Invariants

/-!
Disputes over whole runs. The nonces at which disputes were raised strictly
increase. No reachable tunnel is frozen: while it is active either party can
dispute the recorded state, and while it is disputed each side has a call that
closes it.
-/

namespace DopamintArena.Move

open Foundation

variable {env : Natives} {t t' : Tunnel} {tx : Tx} {r : Receipt} {history : List Entry}
variable {transfers : List Transfer} {returned : Option UInt64}

/-- The nonce a successful raise disputed. -/
def Entry.raisedNonce : Entry → Option Nat
  | .created _ _ => none
  | .called tx r =>
    match tx.call with
    | .raiseDispute _ _ | .raiseDisputeCurrentState => some r.tunnel.state.nonce.toNat
    | _ => none

def raisedNonces (history : List Entry) : List Nat :=
  history.filterMap Entry.raisedNonce

theorem effect_mark_le (heffect : Effect env t tx t' transfers returned) :
    t.lastDisputedNonce.toNat ≤ t'.lastDisputedNonce.toNat := by
  cases heffect with
  | fund isPartyA _ deposit balance =>
    obtain ⟨_, _, _, hactivated⟩ := maybeActivate_eq
      (fundedTunnel t isPartyA deposit balance tx.clock) tx.clock
    rw [hactivated]
    exact le_rfl
  | raise =>
    simp only
    omega
  | raiseCurrent =>
    simp only
    omega
  | _ => exact le_rfl

/-- A raise disputes a nonce at or above the mark and moves the mark past it. -/
theorem raisedNonce_mark {n : Nat} (heffect : Effect env t tx r.tunnel transfers returned)
    (hraised : (Entry.called tx r).raisedNonce = some n) :
    t.lastDisputedNonce.toNat ≤ n ∧ n < r.tunnel.lastDisputedNonce.toNat := by
  obtain ⟨_, _, _, _⟩ := r
  cases heffect with
  | raise _ _ _ _ hcall =>
    simp only [Entry.raisedNonce, hcall, Option.some.injEq, UpdateArgs.commitment]
      at hraised
    simp only
    omega
  | raiseCurrent _ hcall =>
    simp only [Entry.raisedNonce, hcall, Option.some.injEq] at hraised
    simp only
    omega
  | fund =>
    cases hkind : tx.call <;> simp_all [Entry.raisedNonce, Call.coin]
  | close _ _ _ hreason =>
    have hcloses := closeReason_closes hreason
    cases hkind : tx.call <;> simp_all [Entry.raisedNonce, Call.closes]
  | assignReferee _ hcall =>
    rcases hcall with ⟨_, _, hcall⟩ | hcall <;>
      simp [Entry.raisedNonce, hcall] at hraised
  | withdraw _ _ hcall =>
    rcases hcall with hcall | hcall <;> simp [Entry.raisedNonce, hcall] at hraised
  | _ => simp_all [Entry.raisedNonce]

/-- Successive raises dispute strictly increasing nonces, all below the mark. -/
theorem run_raisedNonces (hrun : (tunnelSystem env).Run history t) :
    (raisedNonces history).Pairwise (· < ·) ∧
      ∀ n ∈ raisedNonces history, n < t.lastDisputedNonce.toNat := by
  refine hrun.invariant (I := fun h t => (raisedNonces h).Pairwise (· < ·) ∧
    ∀ n ∈ raisedNonces h, n < t.lastDisputedNonce.toNat) ?_ ?_
  · rintro h s ⟨g, r, hg, rfl, rfl⟩
    have hnone : raisedNonces [.created g r] = [] := rfl
    simp [hnone]
  · rintro h s label s' - ⟨hsorted, hbelow⟩ ⟨tx, r, hexec, rfl, rfl⟩
    have heffect := exec_effect hexec
    have hmark := effect_mark_le heffect
    have hstill : ∀ n ∈ raisedNonces h, n < r.tunnel.lastDisputedNonce.toNat :=
      fun n hn => lt_of_lt_of_le (hbelow n hn) hmark
    cases hraised : (Entry.called tx r).raisedNonce with
    | none =>
      have hsame : raisedNonces (h ++ [.called tx r]) = raisedNonces h := by
        simp [raisedNonces, hraised]
      rw [hsame]
      exact ⟨hsorted, hstill⟩
    | some m =>
      obtain ⟨hlow, hhigh⟩ := raisedNonce_mark heffect hraised
      have hgrow : raisedNonces (h ++ [.called tx r]) = raisedNonces h ++ [m] := by
        simp [raisedNonces, hraised]
      rw [hgrow]
      refine ⟨pairwise_concat hsorted ?_, ?_⟩
      · intro n hn
        exact lt_of_lt_of_le (hbelow n hn) hlow
      · intro n hn
        rcases List.mem_append.mp hn with hn | hn
        · exact hstill n hn
        · rw [List.mem_singleton.mp hn]
          exact hhigh

theorem raiseDisputeCurrentState_succeeds {party : Address} (clock : UInt64)
    (hwf : WellFormed t) (hstatus : t.status = .active)
    (hparty : party = t.partyA.address ∨ party = t.partyB.address) :
    ∃ r, exec env t ⟨party, clock, .raiseDisputeCurrentState⟩ = .ok r := by
  have hfits := hwf.nonceBelowMax
  refine ⟨_, raiseDisputeCurrentState_ok_iff.mpr ⟨hwf.version, hstatus, hwf.timeoutPos,
    hparty, hwf.mark (.inr hstatus), t.state.nonce + 1, ?_, rfl⟩⟩
  exact toNat_add_of_fits (by simpa using hfits)

theorem agreeToDispute_succeeds {party : Address} (clock : UInt64)
    (hwf : WellFormed t) (hstatus : t.status = .disputed)
    (hparty : party = t.partyA.address ∨ party = t.partyB.address)
    (hother : some party ≠ t.disputeRaiser) :
    ∃ r, exec env t ⟨party, clock, .agreeToDispute⟩ = .ok r := by
  obtain ⟨raiser, hraiser, -⟩ := hwf.raiser hstatus
  exact ⟨_, agreeToDispute_ok_iff.mpr ⟨hwf.version, hstatus, by simp [hraiser], hother,
    hparty, hwf.allocated (.inr hstatus), rfl⟩⟩

/-- The penalty moves coins between the shares and never past the balance. -/
theorem exists_penalised (hwf : WellFormed t) (hstatus : t.status = .disputed)
    (raiser : Address) :
    ∃ a b : UInt64, Penalised t raiser a b ∧ a.toNat + b.toNat = t.balance.toNat := by
  have hsum := hwf.allocated (.inr hstatus)
  have hbound := t.balance.toNat_lt
  by_cases hraiser : raiser = t.partyA.address
  · obtain ⟨a, ha⟩ := exists_toNat_eq (n := t.state.partyABalance.toNat +
      min t.penaltyAmount.toNat t.state.partyBBalance.toNat) (by omega)
    obtain ⟨b, hb⟩ := exists_toNat_eq (n := t.state.partyBBalance.toNat -
      min t.penaltyAmount.toNat t.state.partyBBalance.toNat) (by omega)
    refine ⟨a, b, ?_, by omega⟩
    simp only [Penalised, hraiser, if_true]
    exact ⟨ha, hb⟩
  · obtain ⟨a, ha⟩ := exists_toNat_eq (n := t.state.partyABalance.toNat -
      min t.penaltyAmount.toNat t.state.partyABalance.toNat) (by omega)
    obtain ⟨b, hb⟩ := exists_toNat_eq (n := t.state.partyBBalance.toNat +
      min t.penaltyAmount.toNat t.state.partyABalance.toNat) (by omega)
    refine ⟨a, b, ?_, by omega⟩
    simp only [Penalised, hraiser, if_false]
    exact ⟨ha, hb⟩

theorem forceCloseAfterTimeout_succeeds {raiser : Address} {clock : UInt64}
    (hwf : WellFormed t) (hstatus : t.status = .disputed)
    (hraiser : t.disputeRaiser = some raiser)
    (htime : t.state.timestamp.toNat + t.timeoutMs.toNat ≤ clock.toNat) :
    ∃ r, exec env t ⟨raiser, clock, .forceCloseAfterTimeout⟩ = .ok r := by
  obtain ⟨a, b, hshares, hsum⟩ := exists_penalised hwf hstatus raiser
  exact ⟨_, forceCloseAfterTimeout_ok_iff.mpr ⟨hwf.version, hstatus, hwf.timeoutPos,
    hraiser, htime, a, b, hshares, hsum, rfl⟩⟩

/-- Funds are never stuck. In every reachable tunnel: while active, the mark is at
or below the nonce and either party can dispute the recorded state; while disputed,
one of the parties is the raiser, the other can agree at once and the raiser can
force the close from the deadline on; successive raises dispute increasing nonces;
and a forced close pays out the whole balance, after moving the capped penalty from
the other party to the raiser. -/
theorem funds_never_stuck (hrun : (tunnelSystem env).Run history t) :
    (t.status = .active →
      t.lastDisputedNonce.toNat ≤ t.state.nonce.toNat ∧
      ∀ party clock, party = t.partyA.address ∨ party = t.partyB.address →
        ∃ r, exec env t ⟨party, clock, .raiseDisputeCurrentState⟩ = .ok r) ∧
    (t.status = .disputed →
      ∃ raiser, t.disputeRaiser = some raiser ∧
        (raiser = t.partyA.address ∨ raiser = t.partyB.address) ∧
        (∀ party clock, party = t.partyA.address ∨ party = t.partyB.address →
          party ≠ raiser → ∃ r, exec env t ⟨party, clock, .agreeToDispute⟩ = .ok r) ∧
        ∀ clock : UInt64,
          t.state.timestamp.toNat + t.timeoutMs.toNat ≤ clock.toNat →
          ∃ r, exec env t ⟨raiser, clock, .forceCloseAfterTimeout⟩ = .ok r) ∧
    (raisedNonces history).Pairwise (· < ·) ∧
    ∀ sender clock r, exec env t ⟨sender, clock, .forceCloseAfterTimeout⟩ = .ok r →
      ∃ a b : UInt64, r.transfers = shares t a b ∧ r.returned = none ∧
        a.toNat + b.toNat = t.balance.toNat ∧ r.tunnel.balance = 0 ∧
        Penalised t sender a b ∧ t.disputeRaiser = some sender := by
  have hwf := reachable_wellFormed hrun
  refine ⟨?active, ?disputed, (run_raisedNonces hrun).1, ?forced⟩
  case active =>
    intro hstatus
    refine ⟨hwf.mark (.inr hstatus), ?_⟩
    intro party clock hparty
    exact raiseDisputeCurrentState_succeeds clock hwf hstatus hparty
  case disputed =>
    intro hstatus
    obtain ⟨raiser, hraiser, hparty⟩ := hwf.raiser hstatus
    refine ⟨raiser, hraiser, hparty, ?_, ?_⟩
    · intro party clock hmember hother
      apply agreeToDispute_succeeds clock hwf hstatus hmember
      rw [hraiser]
      simpa using hother
    · intro clock htime
      exact forceCloseAfterTimeout_succeeds hwf hstatus hraiser htime
  case forced =>
    intro sender clock r hexec
    obtain ⟨-, -, -, hraiser, -, a, b, hshares, hsum, rfl⟩ :=
      forceCloseAfterTimeout_ok_iff.mp hexec
    exact ⟨a, b, rfl, rfl, hsum, rfl, hshares, hraiser⟩

theorem funds_never_stuck_dispute : ∃ t history raiser,
    replay permissive Sample.genesis Sample.dispute = .ok (t, history) ∧
    t.status = .disputed ∧ t.disputeRaiser = some raiser ∧
    (raisedNonces history).Pairwise (· < ·) ∧
    (∀ party clock, party = t.partyA.address ∨ party = t.partyB.address →
      party ≠ raiser → ∃ r, exec permissive t ⟨party, clock, .agreeToDispute⟩ = .ok r) ∧
    ∀ clock : UInt64, t.state.timestamp.toNat + t.timeoutMs.toNat ≤ clock.toNat →
      ∃ r, exec permissive t ⟨raiser, clock, .forceCloseAfterTimeout⟩ = .ok r := by
  have heval : (replay permissive Sample.genesis Sample.dispute).map
      (fun s => s.1.status) = .ok .disputed := by
    decide +kernel
  obtain ⟨⟨t, history⟩, hreplay, hstatus⟩ := map_ok_iff.mp heval
  obtain ⟨-, hdisputed, hsorted, -⟩ := funds_never_stuck (replay_run hreplay)
  obtain ⟨raiser, hraiser, -, hagree, hforce⟩ := hdisputed hstatus
  exact ⟨t, history, raiser, hreplay, hstatus, hraiser, hsorted, hagree, hforce⟩

end DopamintArena.Move
