import DopamintArena.Move.Tunnel.Invariants

/-!
What a dispute pays, read off the history. Updates are accepted with strictly
increasing nonces, so the last accepted update has the highest one; a payout
gives each party its share in that update less what it locked afterwards.
-/

namespace DopamintArena.Move

open Foundation

variable {env : Natives} {t t' : Tunnel} {tx : Tx} {r : Receipt} {history : List Entry}
variable {transfers : List Transfer} {returned : Option UInt64}

def Call.update : Call → Option UpdateArgs
  | .updateState u _ _ | .raiseDispute u _ | .resolveDispute u _ _ => some u
  | _ => none

def Call.locked : Call → Nat
  | .lockHtlc l _ => l.amount.toNat
  | _ => 0

def Entry.accepted : Entry → Option UpdateArgs
  | .created _ _ => none
  | .called tx _ => tx.call.update

def acceptedUpdates (history : List Entry) : List UpdateArgs :=
  history.filterMap Entry.accepted

/-- The accepted update that stands at the end of a history. -/
def latestAccepted (history : List Entry) : Option UpdateArgs :=
  (acceptedUpdates history).getLast?

/-- What `party` has locked since the last acceptance, after one more entry. -/
def Entry.relock (party : Address) (locked : Nat) : Entry → Nat
  | .created _ _ => locked
  | .called tx _ =>
    if tx.call.update.isSome then 0
    else if tx.sender = party then locked + tx.call.locked
    else locked

/-- The total of the amounts `party` locked after the last accepted update. -/
def lockedSince (party : Address) (history : List Entry) : Nat :=
  history.foldl (Entry.relock party) 0

def UpdateArgs.balanceOf (u : UpdateArgs) (isPartyA : Bool) : UInt64 :=
  if isPartyA then u.partyABalance else u.partyBBalance

def Tunnel.party (t : Tunnel) (isPartyA : Bool) : PartyConfig :=
  if isPartyA then t.partyA else t.partyB

theorem partyOf_self {t : Tunnel} (hwf : WellFormed t) (side : Bool) :
    partyOf t (t.party side).address = .ok side := by
  rw [partyOf_ok_iff]
  cases side with
  | true => exact .inl ⟨rfl, rfl⟩
  | false => exact .inr ⟨rfl, Ne.symm hwf.parties, rfl⟩

theorem otherParty_eq_party (t : Tunnel) (side : Bool) : otherParty t side = t.party (!side) := by
  cases side <;> rfl

/-- One party's share in the latest accepted update, or its deposit when no update
was accepted. -/
def entitlement (t : Tunnel) (history : List Entry) (isPartyA : Bool) : Nat :=
  match latestAccepted history with
  | some u => (u.balanceOf isPartyA).toNat
  | none => (depositOf t isPartyA).toNat

/-- The stored commitment is the latest accepted update net of later locks. -/
structure Tallies (t : Tunnel) (history : List Entry) : Prop where
  share : ∀ isPartyA, (t.state.balanceOf isPartyA).toNat +
    lockedSince (t.party isPartyA).address history = entitlement t history isPartyA
  latest : ∀ u, latestAccepted history = some u →
    t.state.nonce = u.nonce ∧ t.state.stateHash = u.stateHash
  initial : latestAccepted history = none → t.state.nonce = 0

section Histories

theorem acceptedUpdates_append_none (hupdate : tx.call.update = none) :
    acceptedUpdates (history ++ [.called tx r]) = acceptedUpdates history := by
  simp [acceptedUpdates, Entry.accepted, hupdate]

theorem acceptedUpdates_append_some {u : UpdateArgs} (hupdate : tx.call.update = some u) :
    acceptedUpdates (history ++ [.called tx r]) = acceptedUpdates history ++ [u] := by
  simp [acceptedUpdates, Entry.accepted, hupdate]

theorem latestAccepted_append_none (hupdate : tx.call.update = none) :
    latestAccepted (history ++ [.called tx r]) = latestAccepted history := by
  rw [latestAccepted, acceptedUpdates_append_none hupdate, latestAccepted]

theorem latestAccepted_append_some {u : UpdateArgs} (hupdate : tx.call.update = some u) :
    latestAccepted (history ++ [.called tx r]) = some u := by
  rw [latestAccepted, acceptedUpdates_append_some hupdate, List.getLast?_concat]

theorem lockedSince_append (party : Address) (entry : Entry) :
    lockedSince party (history ++ [entry]) =
      entry.relock party (lockedSince party history) := by
  simp [lockedSince]

theorem lockedSince_append_quiet (party : Address) (hupdate : tx.call.update = none)
    (hlocked : tx.call.locked = 0) :
    lockedSince party (history ++ [.called tx r]) = lockedSince party history := by
  rw [lockedSince_append, Entry.relock, hupdate, hlocked]
  simp

theorem lockedSince_append_update (party : Address) {u : UpdateArgs}
    (hupdate : tx.call.update = some u) :
    lockedSince party (history ++ [.called tx r]) = 0 := by
  rw [lockedSince_append, Entry.relock, hupdate]
  simp

end Histories

/-- Accepting `u` makes it the entitlement, with nothing locked since. -/
theorem tallies_accept {u : UpdateArgs} (hupdate : tx.call.update = some u)
    (hstate : r.tunnel.state = u.commitment tx.clock) :
    Tallies r.tunnel (history ++ [.called tx r]) := by
  have hlatest : latestAccepted (history ++ [.called tx r]) = some u :=
    latestAccepted_append_some hupdate
  refine ⟨?_, ?_, ?_⟩
  · intro isPartyA
    rw [lockedSince_append_update _ hupdate, entitlement, hlatest, hstate]
    cases isPartyA <;> rfl
  · intro v hv
    rw [hlatest, Option.some.injEq] at hv
    subst hv
    rw [hstate]
    exact ⟨rfl, rfl⟩
  · intro hnone
    rw [hlatest] at hnone
    cases hnone

/-- The two tunnels agree on everything a tally reads. -/
structure SameStake (t t' : Tunnel) : Prop where
  share : ∀ isPartyA, t'.state.balanceOf isPartyA = t.state.balanceOf isPartyA
  nonce : t'.state.nonce = t.state.nonce
  stateHash : t'.state.stateHash = t.state.stateHash
  party : ∀ isPartyA, t'.party isPartyA = t.party isPartyA
  deposit : ∀ isPartyA, depositOf t' isPartyA = depositOf t isPartyA

theorem tallies_quiet (htally : Tallies t history) (hupdate : tx.call.update = none)
    (hlocked : tx.call.locked = 0) (hsame : SameStake t r.tunnel) :
    Tallies r.tunnel (history ++ [.called tx r]) := by
  have hlatest : latestAccepted (history ++ [.called tx r]) = latestAccepted history :=
    latestAccepted_append_none hupdate
  refine ⟨?_, ?_, ?_⟩
  · intro isPartyA
    have hshare := htally.share isPartyA
    rw [lockedSince_append_quiet _ hupdate hlocked, hsame.share, hsame.party, hshare,
      entitlement, entitlement, hlatest, hsame.deposit]
  · rw [hlatest, hsame.nonce, hsame.stateHash]
    exact htally.latest
  · rw [hlatest, hsame.nonce]
    exact htally.initial

theorem tallies_lock {l : LockArgs} {isPartyA : Bool} {rest : UInt64}
    (hwf : WellFormed t) (htally : Tallies t history)
    (hupdate : tx.call.update = none) (hlocked : tx.call.locked = l.amount.toNat)
    (hparty : partyOf t tx.sender = .ok isPartyA)
    (hrest : rest.toNat + l.amount.toNat = (t.state.balanceOf isPartyA).toNat)
    (hstate : r.tunnel.state = t.state.withBalance isPartyA rest)
    (hparties : ∀ side, r.tunnel.party side = t.party side)
    (hdeposit : ∀ side, depositOf r.tunnel side = depositOf t side) :
    Tallies r.tunnel (history ++ [.called tx r]) := by
  have hlatest : latestAccepted (history ++ [.called tx r]) = latestAccepted history :=
    latestAccepted_append_none hupdate
  have hsender : tx.sender = (t.party isPartyA).address ∧
      tx.sender ≠ (t.party (!isPartyA)).address := by
    have hne := hwf.parties
    rcases partyOf_ok_iff.mp hparty with ⟨rfl, hA⟩ | ⟨rfl, hA, hB⟩
    · exact ⟨hA, by rw [hA]; exact hne⟩
    · exact ⟨hB, hA⟩
  refine ⟨?_, ?_, ?_⟩
  · intro side
    have hshare := htally.share side
    have hsame : entitlement r.tunnel (history ++ [.called tx r]) side =
        entitlement t history side := by
      rw [entitlement, entitlement, hlatest, hdeposit]
    rw [hsame, ← hshare, hparties, lockedSince_append, Entry.relock, hupdate, hlocked,
      hstate]
    by_cases hside : side = isPartyA
    · subst hside
      have hown : ((t.state.withBalance side rest).balanceOf side) = rest := by
        cases side <;> rfl
      simp only [Option.isSome_none, Bool.false_eq_true, if_false, hsender.1, if_true, hown]
      omega
    · have hflip : side = !isPartyA := by
        cases side <;> cases isPartyA <;> simp_all
      have hkeep : (t.state.withBalance isPartyA rest).balanceOf side =
          t.state.balanceOf side := by
        subst hflip
        cases isPartyA <;> rfl
      have hother : ¬tx.sender = (t.party side).address := by
        rw [hflip]
        exact hsender.2
      simp [hother, hkeep]
  · rw [hlatest, hstate, withBalance_nonce, withBalance_stateHash]
    exact htally.latest
  · rw [hlatest, hstate, withBalance_nonce]
    exact htally.initial

theorem coin_quiet {c : Call} {coin : UInt64} (h : c.coin = some coin) :
    c.update = none ∧ c.locked = 0 := by
  cases c <;> simp_all [Call.coin, Call.update, Call.locked]

theorem closes_quiet {c : Call} (h : c.closes = true) : c.update = none ∧ c.locked = 0 := by
  cases c <;> simp_all [Call.closes, Call.update, Call.locked]

/-- The ghost record of a run: what was accepted, in order, and how the stored
commitment relates to it. -/
structure Recorded (history : List Entry) (t : Tunnel) : Prop where
  increasing : (acceptedUpdates history).Pairwise fun u v => u.nonce.toNat < v.nonce.toNat
  bounded : ∀ u ∈ acceptedUpdates history,
    u.nonce.toNat ≤ t.state.nonce.toNat ∧ u.nonce.toNat + 1 < 2 ^ 64
  waiting : t.status = .created →
    latestAccepted history = none ∧ (∀ party, lockedSince party history = 0) ∧
      t.state.nonce = 0
  standing : t.status = .active ∨ t.status = .disputed → Tallies t history

/-- A call that accepts nothing and keeps the nonce keeps the order of the accepted
updates; the status-dependent parts are left to each effect. -/
theorem recorded_quiet (hrec : Recorded history t) (hupdate : tx.call.update = none)
    (hnonce : r.tunnel.state.nonce = t.state.nonce)
    (hwaiting : r.tunnel.status = .created →
      t.status = .created ∧ tx.call.locked = 0)
    (hstanding : r.tunnel.status = .active ∨ r.tunnel.status = .disputed →
      Tallies r.tunnel (history ++ [.called tx r])) :
    Recorded (history ++ [.called tx r]) r.tunnel := by
  have hsame : acceptedUpdates (history ++ [.called tx r]) = acceptedUpdates history :=
    acceptedUpdates_append_none hupdate
  refine ⟨by rw [hsame]; exact hrec.increasing, ?_, ?_, hstanding⟩
  · rw [hsame, hnonce]
    exact hrec.bounded
  · intro hstatus
    obtain ⟨hbefore, hlocked⟩ := hwaiting hstatus
    obtain ⟨hlatest, htally, hzero⟩ := hrec.waiting hbefore
    refine ⟨?_, ?_, by rw [hnonce]; exact hzero⟩
    · rw [latestAccepted_append_none hupdate]
      exact hlatest
    · intro party
      rw [lockedSince_append_quiet party hupdate hlocked]
      exact htally party

/-- So does one that keeps the stakes and opens nothing. -/
theorem recorded_same (hrec : Recorded history t)
    (hquiet : tx.call.update = none ∧ tx.call.locked = 0) (hsame : SameStake t r.tunnel)
    (hcreated : r.tunnel.status = .created → t.status = .created)
    (hopen : r.tunnel.status = .active ∨ r.tunnel.status = .disputed →
      t.status = .active ∨ t.status = .disputed) :
    Recorded (history ++ [.called tx r]) r.tunnel := by
  apply recorded_quiet hrec hquiet.1 hsame.nonce
  · exact fun hstatus => ⟨hcreated hstatus, hquiet.2⟩
  · exact fun hstatus => tallies_quiet (hrec.standing (hopen hstatus)) hquiet.1 hquiet.2 hsame

theorem recorded_accept {u : UpdateArgs} (hrec : Recorded history t)
    (hupdate : tx.call.update = some u) (haccept : Acceptable t u tx.clock)
    (hstate : r.tunnel.state = u.commitment tx.clock)
    (hstatus : r.tunnel.status ≠ .created) :
    Recorded (history ++ [.called tx r]) r.tunnel := by
  have hgrow : acceptedUpdates (history ++ [.called tx r]) =
      acceptedUpdates history ++ [u] := acceptedUpdates_append_some hupdate
  have hnewer := haccept.newer
  refine ⟨?_, ?_, fun h => absurd h hstatus, fun _ => tallies_accept hupdate hstate⟩
  · rw [hgrow]
    apply pairwise_concat hrec.increasing
    intro v hv
    exact lt_of_le_of_lt (hrec.bounded v hv).1 hnewer
  · rw [hgrow, hstate]
    intro v hv
    rcases List.mem_append.mp hv with hv | hv
    · obtain ⟨hle, hmax⟩ := hrec.bounded v hv
      exact ⟨le_trans hle hnewer.le, hmax⟩
    · rw [List.mem_singleton.mp hv]
      exact ⟨le_rfl, haccept.belowMax⟩

/-- A deposit that activates the tunnel sets the shares to the deposits. -/
theorem tallies_activated {now : UInt64} (funded : Tunnel)
    (hrec : Recorded history t) (hstatus : t.status = .created)
    (hfunded : funded.status = .created) (hnonce : funded.state.nonce = t.state.nonce)
    (hupdate : tx.call.update = none) (hlocked : tx.call.locked = 0)
    (htunnel : r.tunnel = (maybeActivate funded now).1)
    (hactive : r.tunnel.status = .active ∨ r.tunnel.status = .disputed) :
    Tallies r.tunnel (history ++ [.called tx r]) := by
  obtain ⟨hlatest, htally, hzero⟩ := hrec.waiting hstatus
  have hnone : latestAccepted (history ++ [.called tx r]) = none := by
    rw [latestAccepted_append_none hupdate, hlatest]
  by_cases hready : funded.status = .created ∧ funded.partyADeposit > 0 ∧
      funded.partyBDeposit > 0
  · refine ⟨?_, ?_, ?_⟩
    · intro side
      rw [lockedSince_append_quiet _ hupdate hlocked, htally, entitlement, hnone, htunnel,
        maybeActivate, if_pos hready]
      cases side <;> rfl
    · intro u hu
      rw [hnone] at hu
      cases hu
    · intro _
      rw [htunnel, maybeActivate, if_pos hready]
      exact hnonce.trans hzero
  · rw [htunnel, maybeActivate, if_neg hready] at hactive
    simp [hfunded] at hactive

/-- Every effect keeps the record. -/
theorem recorded_effect (hwf : WellFormed t) (hrec : Recorded history t)
    (heffect : Effect env t tx r.tunnel r.transfers r.returned) :
    Recorded (history ++ [.called tx r]) r.tunnel := by
  generalize htunnel : r.tunnel = t' at heffect
  generalize r.transfers = transfers at heffect
  generalize r.returned = returned at heffect
  rw [← htunnel]
  cases heffect with
  | fund isPartyA _ deposit balance hcall hstatus =>
    obtain ⟨hupdate, hlocked⟩ := coin_quiet hcall
    refine recorded_quiet hrec hupdate ?_ (fun _ => ⟨hstatus, hlocked⟩) ?_
    · rw [htunnel, maybeActivate_nonce]
      rfl
    · exact tallies_activated (fundedTunnel t isPartyA deposit balance tx.clock) hrec
        hstatus hstatus rfl hupdate hlocked htunnel
  | update _ _ _ hcall hstatus haccept =>
    refine recorded_accept hrec (by rw [hcall]; rfl) haccept ?_ ?_ <;>
      simp [htunnel, hstatus]
  | raise _ _ _ _ hcall _ haccept | resolve _ _ _ hcall _ haccept =>
    refine recorded_accept hrec (by rw [hcall]; rfl) haccept ?_ ?_ <;>
      simp [htunnel]
  | raiseCurrent _ hcall hstatus | extend _ _ hcall hstatus =>
    refine recorded_same hrec (by rw [hcall]; exact ⟨rfl, rfl⟩) ?_ (by simp [htunnel])
      (fun _ => .inl hstatus)
    rw [htunnel]
    exact ⟨fun _ => rfl, rfl, rfl, fun _ => rfl, fun _ => rfl⟩
  | close _ _ _ hreason =>
    obtain ⟨hupdate, _⟩ := closes_quiet (closeReason_closes hreason)
    exact recorded_quiet hrec hupdate (by rw [htunnel]; rfl)
      (by simp [htunnel, closedTunnel]) (by simp [htunnel, closedTunnel])
  | lock _ _ _ _ _ _ hcall hstatus _ _ _ hparty _ _ _ hrest =>
      refine recorded_quiet hrec (by rw [hcall]; rfl) (by simp [htunnel])
        (by simp [htunnel, hstatus]) fun _ => ?_
      refine tallies_lock hwf (hrec.standing (.inl hstatus)) (by rw [hcall]; rfl)
        (by rw [hcall]; rfl) hparty hrest (by rw [htunnel])
        (fun side => by rw [htunnel]; rfl) (fun side => by rw [htunnel]; rfl)
  | claim _ _ _ _ hcall | expire _ _ _ hcall =>
    refine recorded_same hrec (by rw [hcall]; exact ⟨rfl, rfl⟩) ?_
      (by rw [htunnel]; exact id) (by rw [htunnel]; exact id)
    rw [htunnel]
    exact ⟨fun _ => rfl, rfl, rfl, fun _ => rfl, fun _ => rfl⟩
  | assignReferee _ hcall hstatus =>
    have hquiet : tx.call.update = none ∧ tx.call.locked = 0 := by
      rcases hcall with ⟨_, _, hcall⟩ | hcall <;> rw [hcall] <;> exact ⟨rfl, rfl⟩
    exact recorded_quiet hrec hquiet.1 (by rw [htunnel]) (fun _ => ⟨hstatus, hquiet.2⟩)
      (by simp [htunnel, hstatus])
  | withdraw _ _ hcall hstatus hdeposit hbalance =>
    have hquiet : tx.call.update = none ∧ tx.call.locked = 0 := by
      rcases hcall with hcall | hcall <;> rw [hcall] <;> exact ⟨rfl, rfl⟩
    have hzero := withdraw_empties hwf hstatus hdeposit hbalance
    exact recorded_quiet hrec hquiet.1 (by rw [htunnel]; rfl)
      (fun _ => ⟨hstatus, hquiet.2⟩) (by simp [htunnel, withdrawnTunnel, hzero])
  | destroy hcall =>
    exact recorded_quiet hrec (by rw [hcall]; rfl) (by rw [htunnel])
      (by simp [htunnel]) (by simp [htunnel])
  | migrate _ hversion =>
    exact absurd hversion hwf.current

theorem run_recorded (hrun : (tunnelSystem env).Run history t) : Recorded history t := by
  apply hrun.invariant (I := Recorded)
  · rintro h s ⟨g, r, hg, rfl, rfl⟩
    have haccepted : acceptedUpdates [.created g r] = [] := rfl
    have hlatest : latestAccepted [.created g r] = none := rfl
    have hlocked (party : Address) : lockedSince party [.created g r] = 0 := rfl
    refine ⟨by simp [haccepted], by simp [haccepted], ?_, ?_⟩ <;>
      rcases genesis_cases hg with ⟨id, p, now, -, -, htunnel, -⟩ |
        ⟨_, _, _, _, _, _, -, -, -, -, -, htunnel, -⟩
    · intro _
      rw [htunnel]
      exact ⟨hlatest, hlocked, rfl⟩
    · simp [htunnel, fundedAtCreation]
    · simp [htunnel, freshTunnel]
    · intro _
      rw [htunnel]
      refine ⟨?_, by simp [hlatest], fun _ => rfl⟩
      intro side
      rw [hlocked, entitlement, hlatest]
      cases side <;> rfl
  · rintro h s label s' hbefore hrec ⟨tx, r, hexec, rfl, rfl⟩
    exact recorded_effect (reachable_wellFormed hbefore) hrec (exec_effect hexec)

/-- The latest accepted update has the highest nonce of all accepted ones. -/
theorem latestAccepted_highest (hrec : Recorded history t) {u v : UpdateArgs}
    (hlatest : latestAccepted history = some u) (hv : v ∈ acceptedUpdates history) :
    v.nonce.toNat ≤ u.nonce.toNat := by
  obtain ⟨_, hsplit⟩ := List.getLast?_eq_some_iff.mp hlatest
  have hsorted := hrec.increasing
  rw [hsplit] at hv hsorted
  rcases List.mem_append.mp hv with hv | hv
  · exact ((List.pairwise_append.mp hsorted).2.2 v hv u (List.mem_singleton_self u)).le
  · rw [List.mem_singleton.mp hv]

/-- Accepted nonces strictly increase and stay below the reserved maximum. When a
dispute pays out, the stored shares are those of the accepted update with the
highest nonce, or the deposits when there is none, each less what that party locked
since; `agree_to_dispute` pays exactly these, `force_close_after_timeout` pays them
after the penalty. -/
theorem payout_of_latest_accepted (hrun : (tunnelSystem env).Run history t) :
    ((acceptedUpdates history).Pairwise fun u v => u.nonce.toNat < v.nonce.toNat) ∧
    (∀ u ∈ acceptedUpdates history, u.nonce.toNat < 2 ^ 64 - 1) ∧
    (∀ u, latestAccepted history = some u →
      u ∈ acceptedUpdates history ∧
      ∀ v ∈ acceptedUpdates history, v.nonce.toNat ≤ u.nonce.toNat) ∧
    ∀ sender clock r,
      (exec env t ⟨sender, clock, .agreeToDispute⟩ = .ok r →
        ∃ a b : UInt64, r.transfers = shares t a b ∧
          a.toNat + lockedSince t.partyA.address history = entitlement t history true ∧
          b.toNat + lockedSince t.partyB.address history = entitlement t history false) ∧
      (exec env t ⟨sender, clock, .forceCloseAfterTimeout⟩ = .ok r →
        ∃ a b : UInt64, r.transfers = shares t a b ∧ Penalised t sender a b ∧
          t.state.partyABalance.toNat + lockedSince t.partyA.address history =
            entitlement t history true ∧
          t.state.partyBBalance.toNat + lockedSince t.partyB.address history =
            entitlement t history false) := by
  have hrec := run_recorded hrun
  refine ⟨hrec.increasing, ?_, ?_, ?_⟩
  · intro u hu
    have hmax := (hrec.bounded u hu).2
    omega
  · intro u hlatest
    exact ⟨List.mem_of_getLast? hlatest, fun v hv => latestAccepted_highest hrec hlatest hv⟩
  · intro sender clock r
    constructor
    · intro hexec
      obtain ⟨-, hstatus, -, -, -, -, rfl⟩ := agreeToDispute_ok_iff.mp hexec
      have htally := hrec.standing (.inr hstatus)
      exact ⟨_, _, rfl, htally.share true, htally.share false⟩
    · intro hexec
      obtain ⟨-, hstatus, -, -, -, a, b, hshares, -, rfl⟩ :=
        forceCloseAfterTimeout_ok_iff.mp hexec
      have htally := hrec.standing (.inr hstatus)
      exact ⟨a, b, rfl, hshares, htally.share true, htally.share false⟩

theorem payout_of_latest_accepted_dispute : ∃ t history r,
    replay permissive Sample.genesis Sample.dispute = .ok (t, history) ∧
    exec permissive t ⟨Sample.alice, 2000, .forceCloseAfterTimeout⟩ = .ok r ∧
    ((acceptedUpdates history).Pairwise fun u v => u.nonce.toNat < v.nonce.toNat) ∧
    ∃ a b : UInt64, r.transfers = shares t a b ∧ Penalised t Sample.alice a b ∧
      t.state.partyABalance.toNat + lockedSince t.partyA.address history =
        entitlement t history true := by
  obtain ⟨⟨t, history⟩, hreplay⟩ := exists_ok_of_isOk
    (x := replay permissive Sample.genesis Sample.dispute) (by decide +kernel)
  have hclose : ((replay permissive Sample.genesis Sample.dispute).bind fun s =>
      exec permissive s.1 ⟨Sample.alice, 2000, .forceCloseAfterTimeout⟩).isOk = true := by
    decide +kernel
  rw [hreplay] at hclose
  obtain ⟨r, hexec⟩ := exists_ok_of_isOk hclose
  obtain ⟨hsorted, -, -, hpays⟩ := payout_of_latest_accepted (replay_run hreplay)
  obtain ⟨a, b, htransfers, hshares, hA, -⟩ := (hpays Sample.alice 2000 r).2 hexec
  exact ⟨t, history, r, hreplay, hexec, hsorted, a, b, htransfers, hshares, hA⟩

end DopamintArena.Move
