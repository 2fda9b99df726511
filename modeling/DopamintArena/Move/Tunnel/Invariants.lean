import DopamintArena.Move.Tunnel.Runs

/-!
What holds of a tunnel at every point of its life. `WellFormed` couples the
status with the balance, the signed shares, the nonce and the dispute
high-water mark; each effect keeps it, so every reachable tunnel has it.
-/

namespace DopamintArena.Move

open Foundation

variable {env : Natives} {t t' : Tunnel} {tx : Tx} {r : Receipt} {history : List Entry}
variable {id : Address} {p : CreateParams} {now balance : UInt64} {isPartyA : Bool}
variable {transfers : List Transfer} {returned : Option UInt64}

/-- The tunnel `create_and_fund` leaves behind. -/
def fundedAtCreation (id : Address) (p : CreateParams)
    (partyACoin partyBCoin balance now : UInt64) : Tunnel :=
  { freshTunnel id p now with
    balance := balance
    partyADeposit := partyACoin
    partyBDeposit := partyBCoin
    status := .active
    state :=
      { stateHash := [], nonce := 0, timestamp := now
        partyABalance := partyACoin, partyBBalance := partyBCoin } }

/-- The constructor guards that later arguments rely on. -/
structure ValidParams (p : CreateParams) : Prop where
  parties : p.partyAAddress ≠ p.partyBAddress
  timeoutPos : 0 < p.timeoutMs.toNat
  timeoutMax : p.timeoutMs.toNat ≤ maxTotalTimeoutMs.toNat

theorem buildTunnel_ok (h : buildTunnel id p now = .ok r) :
    ValidParams p ∧ r.tunnel = freshTunnel id p now ∧ r.transfers = [] ∧
      r.returned = none := by
  simp only [buildTunnel, validateCreateParams, returned, gt_iff_lt, UInt64.lt_iff_toNat_lt,
    UInt64.le_iff_toNat_le, UInt64.toNat_zero] at h
  obtain ⟨⟨hparties, -⟩, hpos, hmax, rfl⟩ := h
  exact ⟨⟨hparties, hpos, hmax⟩, rfl, rfl, rfl⟩

theorem createAndFundWithId_ok {id : Address} {p : CreateParams}
    {partyACoin partyBCoin now : UInt64}
    (h : createAndFundWithId id p partyACoin partyBCoin now = .ok r) :
    ValidParams p ∧ 0 < partyACoin.toNat ∧ 0 < partyBCoin.toNat ∧
      (∃ balance : UInt64, balance.toNat = partyACoin.toNat + partyBCoin.toNat ∧
        r.tunnel = fundedAtCreation id p partyACoin partyBCoin balance now) ∧
      r.transfers = [] ∧ r.returned = none := by
  simp only [createAndFundWithId, returned, depositInternal_ok_iff] at h
  obtain ⟨_, hbuilt, _, ⟨-, -, hA, depositA, balanceA, hdepositA, hbalanceA,
    rfl⟩, _, ⟨-, -, hB, depositB, balanceB, hdepositB, hbalanceB, rfl⟩, rfl⟩ := h
  obtain ⟨hvalid, htunnel, -, -⟩ := buildTunnel_ok hbuilt
  rw [htunnel] at hdepositA hbalanceA hdepositB hbalanceB
  have hposA : depositA > 0 := UInt64.lt_iff_toNat_lt.mpr (by
    simp only [UInt64.toNat_zero]
    omega)
  -- the first deposit leaves party B's at zero, so it does not activate
  have hfirst : maybeActivate
      (fundedTunnel (freshTunnel id p now) true depositA balanceA now) now =
      (fundedTunnel (freshTunnel id p now) true depositA balanceA now, []) := by
    simp [maybeActivate, fundedTunnel, freshTunnel]
  rw [hfirst] at hdepositB hbalanceB
  simp only [depositOf, freshTunnel, fundedTunnel, if_true, Bool.false_eq_true, if_false,
    UInt64.toNat_zero, Nat.zero_add] at hdepositA hbalanceA hdepositB hbalanceB
  have heqA : depositA = partyACoin := UInt64.toNat_inj.mp hdepositA
  have heqB : depositB = partyBCoin := UInt64.toNat_inj.mp hdepositB
  have hposB : depositB > 0 := UInt64.lt_iff_toNat_lt.mpr (by
    simp only [UInt64.toNat_zero]
    omega)
  refine ⟨hvalid, hA, hB, ⟨balanceB, by omega, ?_⟩, rfl, rfl⟩
  rw [htunnel, hfirst]
  subst heqA heqB
  simp [maybeActivate, fundedTunnel, freshTunnel, fundedAtCreation, hposA, hposB]

/-- A constructor leaves a fresh tunnel or one both sides have funded. -/
theorem genesis_cases {g : Genesis} (h : g.run = .ok r) :
    (∃ id p now, g = .create id p now ∧ ValidParams p ∧
      r.tunnel = freshTunnel id p now ∧ r.transfers = [] ∧ r.returned = none) ∨
    (∃ id p partyACoin partyBCoin now, ∃ balance : UInt64,
      g = .createAndFund id p partyACoin partyBCoin now ∧ ValidParams p ∧
      0 < partyACoin.toNat ∧ 0 < partyBCoin.toNat ∧
      balance.toNat = partyACoin.toNat + partyBCoin.toNat ∧
      r.tunnel = fundedAtCreation id p partyACoin partyBCoin balance now ∧
      r.transfers = [] ∧ r.returned = none) := by
  cases g with
  | create id p now =>
    obtain ⟨hvalid, htunnel, htransfers, hreturned⟩ := buildTunnel_ok h
    exact .inl ⟨id, p, now, rfl, hvalid, htunnel, htransfers, hreturned⟩
  | createAndFund id p partyACoin partyBCoin now =>
    obtain ⟨hvalid, hA, hB, ⟨balance, hbalance, htunnel⟩, htransfers, hreturned⟩ :=
      createAndFundWithId_ok h
    exact .inr ⟨id, p, partyACoin, partyBCoin, now, balance, rfl, hvalid, hA, hB,
      hbalance, htunnel, htransfers, hreturned⟩

/-- The status-indexed invariant of a tunnel. -/
structure WellFormed (t : Tunnel) : Prop where
  version : t.version = currentVersion
  parties : t.partyA.address ≠ t.partyB.address
  timeoutPos : 0 < t.timeoutMs.toNat
  timeoutMax : t.timeoutMs.toNat ≤ maxTotalTimeoutMs.toNat
  nonceBelowMax : t.state.nonce.toNat + 1 < 2 ^ 64
  funding : t.status = .created →
    t.balance.toNat = t.partyADeposit.toNat + t.partyBDeposit.toNat ∧
    (t.partyADeposit.toNat = 0 ∨ t.partyBDeposit.toNat = 0)
  allocated : t.status = .active ∨ t.status = .disputed →
    t.state.partyABalance.toNat + t.state.partyBBalance.toNat = t.balance.toNat
  emptied : t.status = .closed ∨ t.status = .destroyed → t.balance.toNat = 0
  mark : t.status = .created ∨ t.status = .active →
    t.lastDisputedNonce.toNat ≤ t.state.nonce.toNat
  disputedMark : t.status = .disputed →
    t.lastDisputedNonce.toNat ≤ t.state.nonce.toNat + 1
  raiser : t.status = .disputed → ∃ p, t.disputeRaiser = some p ∧
    (p = t.partyA.address ∨ p = t.partyB.address)

theorem wellFormed_freshTunnel (hvalid : ValidParams p) : WellFormed (freshTunnel id p now) where
  version := rfl
  parties := hvalid.parties
  timeoutPos := hvalid.timeoutPos
  timeoutMax := hvalid.timeoutMax
  nonceBelowMax := by simp [freshTunnel]
  funding _ := ⟨rfl, .inl rfl⟩
  allocated h := by simp [freshTunnel] at h
  emptied _ := rfl
  mark _ := le_rfl
  disputedMark h := by simp [freshTunnel] at h
  raiser h := by simp [freshTunnel] at h

theorem wellFormed_fundedAtCreation {partyACoin partyBCoin : UInt64} (hvalid : ValidParams p)
    (hbalance : balance.toNat = partyACoin.toNat + partyBCoin.toNat) :
    WellFormed (fundedAtCreation id p partyACoin partyBCoin balance now) where
  version := rfl
  parties := hvalid.parties
  timeoutPos := hvalid.timeoutPos
  timeoutMax := hvalid.timeoutMax
  nonceBelowMax := by simp [fundedAtCreation]
  funding h := by simp [fundedAtCreation] at h
  allocated _ := hbalance.symm
  emptied h := by simp [fundedAtCreation] at h
  mark _ := le_rfl
  disputedMark h := by simp [fundedAtCreation] at h
  raiser h := by simp [fundedAtCreation] at h

/-- Funding either leaves the tunnel waiting for the other side or activates it
with the deposits as the first signed shares. -/
theorem wellFormed_fund {coin deposit : UInt64} (hwf : WellFormed t) (hstatus : t.status = .created)
    (hdeposit : deposit.toNat = (depositOf t isPartyA).toNat + coin.toNat)
    (hbalance : balance.toNat = t.balance.toNat + coin.toNat) :
    WellFormed (maybeActivate (fundedTunnel t isPartyA deposit balance now) now).1 := by
  obtain ⟨_, _⟩ := hwf.funding hstatus
  have hmark := hwf.mark (.inl hstatus)
  have hfunded : balance.toNat =
      (fundedTunnel t isPartyA deposit balance now).partyADeposit.toNat +
        (fundedTunnel t isPartyA deposit balance now).partyBDeposit.toNat := by
    cases isPartyA <;> simp [fundedTunnel, depositOf] at hdeposit ⊢ <;> omega
  unfold maybeActivate
  split
  · exact { hwf with
      funding := fun h => by simp at h
      allocated := fun _ => hfunded.symm
      emptied := fun h => by simp at h
      mark := fun _ => hmark
      disputedMark := fun h => by simp at h
      raiser := fun h => by simp at h }
  · rename_i hwaiting
    have hzero : (fundedTunnel t isPartyA deposit balance now).partyADeposit.toNat = 0 ∨
        (fundedTunnel t isPartyA deposit balance now).partyBDeposit.toNat = 0 := by
      by_contra hboth
      refine hwaiting ⟨hstatus, UInt64.lt_iff_toNat_lt.mpr ?_,
        UInt64.lt_iff_toNat_lt.mpr ?_⟩ <;>
        simp only [UInt64.toNat_zero] <;> omega
    have hst : (fundedTunnel t isPartyA deposit balance now).status = .created := hstatus
    exact { hwf with
      funding := fun _ => ⟨hfunded, hzero⟩
      allocated := fun h => by simp [hst] at h
      emptied := fun h => by simp [hst] at h
      mark := fun _ => hmark
      disputedMark := fun h => by simp [hst] at h
      raiser := fun h => by simp [hst] at h }

theorem wellFormed_closedTunnel (hwf : WellFormed t) :
    WellFormed (closedTunnel t now) :=
  { hwf with
    funding := fun h => by simp [closedTunnel] at h
    allocated := fun h => by simp [closedTunnel] at h
    emptied := fun _ => rfl
    mark := fun h => by simp [closedTunnel] at h
    disputedMark := fun h => by simp [closedTunnel] at h
    raiser := fun h => by simp [closedTunnel] at h }

/-- A withdrawal takes the only deposit there is, so it always closes. -/
theorem withdraw_empties (hwf : WellFormed t) (hstatus : t.status = .created)
    (hdeposit : 0 < (depositOf t isPartyA).toNat)
    (hbalance : balance.toNat + (depositOf t isPartyA).toNat = t.balance.toNat) :
    balance = 0 := by
  obtain ⟨_, _⟩ := hwf.funding hstatus
  apply UInt64.toNat_inj.mp
  cases isPartyA <;> simp [depositOf] at hdeposit hbalance ⊢ <;> omega

@[simp] theorem withBalance_nonce (c : StateCommitment) (isPartyA : Bool)
    (rest : UInt64) : (c.withBalance isPartyA rest).nonce = c.nonce := by
  cases isPartyA <;> rfl

@[simp] theorem withBalance_stateHash (c : StateCommitment) (isPartyA : Bool)
    (rest : UInt64) : (c.withBalance isPartyA rest).stateHash = c.stateHash := by
  cases isPartyA <;> rfl

theorem partyOf_party {sender : Address} {isPartyA : Bool}
    (h : partyOf t sender = .ok isPartyA) :
    sender = t.partyA.address ∨ sender = t.partyB.address := by
  rcases partyOf_ok_iff.mp h with ⟨-, hA⟩ | ⟨-, -, hB⟩
  · exact .inl hA
  · exact .inr hB

/-- Every effect keeps the invariant. -/
theorem wellFormed_effect (hwf : WellFormed t) (heffect : Effect env t tx t' transfers returned) :
    WellFormed t' := by
  cases heffect with
  | fund _ _ _ _ _ hstatus _ hdeposit hbalance =>
    exact wellFormed_fund hwf hstatus hdeposit hbalance
  | update _ _ _ _ hstatus haccept =>
    have hmark := hwf.mark (.inr hstatus)
    have hnewer := haccept.newer
    exact { hwf with
      nonceBelowMax := haccept.belowMax
      funding := fun h => by simp [hstatus] at h
      allocated := fun _ => haccept.balanced
      mark := fun _ => by simp only [UpdateArgs.commitment]; omega
      disputedMark := fun h => by simp [hstatus] at h }
  | raise _ _ _ _ _ _ haccept _ hparty _ hhigh =>
    exact { hwf with
      nonceBelowMax := haccept.belowMax
      funding := fun h => by simp at h
      allocated := fun _ => haccept.balanced
      emptied := fun h => by simp at h
      mark := fun h => by simp at h
      disputedMark := fun _ => hhigh.le
      raiser := fun _ => ⟨_, rfl, partyOf_party hparty⟩ }
  | resolve _ _ _ _ hstatus haccept =>
    have hmark := hwf.disputedMark hstatus
    have hnewer := haccept.newer
    exact { hwf with
      nonceBelowMax := haccept.belowMax
      funding := fun h => by simp at h
      allocated := fun _ => haccept.balanced
      emptied := fun h => by simp at h
      mark := fun _ => by simp only [UpdateArgs.commitment]; omega
      disputedMark := fun h => by simp at h
      raiser := fun h => by simp at h }
  | raiseCurrent _ _ hstatus hparty _ hhigh =>
    exact { hwf with
      funding := fun h => by simp at h
      allocated := fun _ => hwf.allocated (.inl hstatus)
      emptied := fun h => by simp at h
      mark := fun h => by simp at h
      disputedMark := fun _ => hhigh.le
      raiser := fun _ => ⟨_, rfl, hparty⟩ }
  | close =>
    exact wellFormed_closedTunnel hwf
  | extend _ _ _ _ hcap =>
    have hpos := hwf.timeoutPos
    exact { hwf with
      timeoutPos := by simp only; omega
      timeoutMax := hcap }
  | lock _ _ isPartyA _ _ _ _ hstatus _ _ _ _ _ _ hbalance hrest =>
      have hsum := hwf.allocated (.inl hstatus)
      exact { hwf with
        nonceBelowMax := by simpa using hwf.nonceBelowMax
        funding := fun h => by simp [hstatus] at h
        allocated := fun _ => by
          cases isPartyA <;>
            simp [StateCommitment.balanceOf, StateCommitment.withBalance] at hrest ⊢ <;> omega
        emptied := fun h => by simp [hstatus] at h
        mark := fun _ => by simpa using hwf.mark (.inr hstatus)
        disputedMark := fun h => by simp [hstatus] at h }
  | claim | expire | assignReferee =>
      exact { hwf with }
  | withdraw _ _ _ hstatus hdeposit hbalance =>
    have hzero := withdraw_empties hwf hstatus hdeposit hbalance
    subst hzero
    exact { hwf with
      funding := fun h => by simp [withdrawnTunnel] at h
      allocated := fun h => by simp [withdrawnTunnel] at h
      emptied := fun _ => rfl
      mark := fun h => by simp [withdrawnTunnel] at h
      disputedMark := fun h => by simp [withdrawnTunnel] at h
      raiser := fun h => by simp [withdrawnTunnel] at h }
  | destroy _ hstatus =>
    exact { hwf with
      funding := fun h => by simp at h
      allocated := fun h => by simp at h
      emptied := fun _ => hwf.emptied (.inl hstatus)
      mark := fun h => by simp at h
      disputedMark := fun h => by simp at h
      raiser := fun h => by simp at h }
  | migrate =>
    exact { hwf with version := rfl }

/-- What no call ever changes. -/
structure SameIdentity (t t' : Tunnel) : Prop where
  id : t'.id = t.id
  partyA : t'.partyA = t.partyA
  partyB : t'.partyB = t.partyB
  createdAt : t'.createdAt = t.createdAt
  penaltyAmount : t'.penaltyAmount = t.penaltyAmount

theorem maybeActivate_eq (t : Tunnel) (now : UInt64) :
    ∃ status a b, (maybeActivate t now).1 =
      { t with
        status := status
        state := { t.state with partyABalance := a, partyBBalance := b } } := by
  unfold maybeActivate
  split
  · exact ⟨_, _, _, rfl⟩
  · exact ⟨t.status, t.state.partyABalance, t.state.partyBBalance, rfl⟩

@[simp] theorem maybeActivate_nonce (t : Tunnel) (now : UInt64) :
    (maybeActivate t now).1.state.nonce = t.state.nonce := by
  obtain ⟨_, _, _, hactivated⟩ := maybeActivate_eq t now
  rw [hactivated]

/-- A tunnel of the current version is not migrated. -/
theorem WellFormed.current (hwf : WellFormed t) : ¬t.version < currentVersion := by
  rw [hwf.version]
  decide

theorem effect_identity (heffect : Effect env t tx t' transfers returned) : SameIdentity t t' := by
  cases heffect with
  | fund isPartyA _ deposit balance =>
    obtain ⟨_, _, _, hactivated⟩ := maybeActivate_eq
      (fundedTunnel t isPartyA deposit balance tx.clock) tx.clock
    rw [hactivated]
    exact ⟨rfl, rfl, rfl, rfl, rfl⟩
  | _ => exact ⟨rfl, rfl, rfl, rfl, rfl⟩

/-- Every tunnel in every run is well formed. -/
theorem reachable_wellFormed (hrun : (tunnelSystem env).Run history t) :
    WellFormed t := by
  apply hrun.invariant (I := fun _ t => WellFormed t)
  · rintro h s ⟨g, r, hg, -, rfl⟩
    rcases genesis_cases hg with ⟨id, p, now, -, hvalid, htunnel, -⟩ |
      ⟨_, _, _, _, _, _, -, hvalid, -, -, hbalance, htunnel, -⟩
    · rw [htunnel]
      exact wellFormed_freshTunnel hvalid
    · rw [htunnel]
      exact wellFormed_fundedAtCreation hvalid hbalance
  · rintro h s label s' - hwf ⟨tx, r, hexec, -, rfl⟩
    exact wellFormed_effect hwf (exec_effect hexec)

end DopamintArena.Move
