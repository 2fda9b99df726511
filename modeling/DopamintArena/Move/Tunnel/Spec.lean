import DopamintArena.Move.Tunnel.Calls

/-!
What each call requires and what it returns, as one equivalence per function.
Amounts, nonces and clocks are compared as natural numbers from here on.
-/

namespace DopamintArena.Move

open Foundation

variable {env : Natives} {t : Tunnel} {u : UpdateArgs} {l : LockArgs} {r : Receipt}
variable {sigA sigB sig message : Bytes} {now : UInt64} {sender : Address}
variable {a b total : UInt64} {isPartyA : Bool} {party : PartyConfig}
variable {x y z amount timestamp : UInt64} {t' : Tunnel} {hash : Bytes} {referee : Address}

/-- `signature` passes the contract's check of `message` under `party`'s key. -/
def Verifies (env : Natives) (party : PartyConfig) (message signature : Bytes) : Prop :=
  verify env party.signatureType party.publicKey message signature = .ok true

instance : Decidable (Verifies env party message sig) :=
  inferInstanceAs (Decidable (_ = _))

/-- The tunnel after a close: status and balance change, nothing else. -/
def closedTunnel (t : Tunnel) (now : UInt64) : Tunnel :=
  { t with status := .closed, lastActivity := now, balance := 0 }

def shares (t : Tunnel) (a b : UInt64) : List Transfer :=
  [⟨a, t.partyA.address⟩, ⟨b, t.partyB.address⟩]

def StateCommitment.balanceOf (c : StateCommitment) (isPartyA : Bool) : UInt64 :=
  if isPartyA then c.partyABalance else c.partyBBalance

def StateCommitment.withBalance (c : StateCommitment) (isPartyA : Bool)
    (balance : UInt64) : StateCommitment :=
  if isPartyA then { c with partyABalance := balance }
  else { c with partyBBalance := balance }

def counterOf (t : Tunnel) (party : Address) : HTLCPartyCounter :=
  (t.counters.lookup party).getD ⟨0, 0⟩

/-- `(a, b)` are the stored balances after `raiser` took the capped penalty. -/
def Penalised (t : Tunnel) (raiser : Address) (a b : UInt64) : Prop :=
  let penalty := t.penaltyAmount.toNat
  let stateA := t.state.partyABalance.toNat
  let stateB := t.state.partyBBalance.toNat
  if raiser = t.partyA.address then
    a.toNat = stateA + min penalty stateB ∧ b.toNat = stateB - min penalty stateB
  else
    a.toNat = stateA - min penalty stateA ∧ b.toNat = stateB + min penalty stateA

/-- The guards shared by the three calls that accept a signed update. -/
structure Acceptable (t : Tunnel) (u : UpdateArgs) (now : UInt64) : Prop where
  hashLength : u.stateHash.length = 32
  newer : t.state.nonce.toNat < u.nonce.toNat
  belowMax : u.nonce.toNat + 1 < 2 ^ 64
  balanced : u.partyABalance.toNat + u.partyBBalance.toNat = t.balance.toNat
  notFuture : u.timestamp.toNat ≤ now.toNat
  notBefore : t.createdAt.toNat ≤ u.timestamp.toNat

theorem acceptable_iff : Acceptable t u now ↔ u.stateHash.length = 32 ∧
    t.state.nonce.toNat < u.nonce.toNat ∧ u.nonce.toNat + 1 < 2 ^ 64 ∧
    u.partyABalance.toNat + u.partyBBalance.toNat = t.balance.toNat ∧
    u.timestamp.toNat ≤ now.toNat ∧ t.createdAt.toNat ≤ u.timestamp.toNat :=
  ⟨fun ⟨h₁, h₂, h₃, h₄, h₅, h₆⟩ => ⟨h₁, h₂, h₃, h₄, h₅, h₆⟩,
    fun ⟨h₁, h₂, h₃, h₄, h₅, h₆⟩ => ⟨h₁, h₂, h₃, h₄, h₅, h₆⟩⟩

/-- A deadline that was computed without overflow has passed. -/
theorem exists_deadline_iff {n : Nat} {P : Prop} :
    (∃ deadline : UInt64, deadline.toNat = n ∧ deadline.toNat ≤ now.toNat ∧ P) ↔
      n ≤ now.toNat ∧ P := by
  constructor
  · rintro ⟨_, rfl, hpassed, hrest⟩
    exact ⟨hpassed, hrest⟩
  · rintro ⟨hpassed, hrest⟩
    obtain ⟨deadline, hdeadline⟩ := exists_toNat_eq (hpassed.trans_lt now.toNat_lt)
    exact ⟨deadline, hdeadline, by rwa [hdeadline], hrest⟩

theorem exists_counter_iff {P : HTLCPartyCounter → Prop} :
    (∃ counter, P counter) ↔ ∃ count totalLocked, P ⟨count, totalLocked⟩ :=
  ⟨fun ⟨_, h⟩ => ⟨_, _, h⟩, fun ⟨_, _, h⟩ => ⟨_, h⟩⟩

theorem add_ok_iff :
    add x y = .ok z ↔ z.toNat = x.toNat + y.toNat :=
  checkedAdd_ok_iff

theorem sub_ok_iff :
    sub x y = .ok z ↔ z.toNat + y.toNat = x.toNat :=
  checkedSub_ok_iff

theorem split_ok_iff :
    split x y = .ok z ↔ z.toNat + y.toNat = x.toNat :=
  checkedSub_ok_iff

theorem toNat_lt_maxU64_iff :
    x.toNat < maxU64.toNat ↔ x.toNat + 1 < 2 ^ 64 := by
  have hmax : maxU64.toNat = 2 ^ 64 - 1 := rfl
  omega

theorem partyOf_ok_iff :
    partyOf t sender = .ok isPartyA ↔
      isPartyA = true ∧ sender = t.partyA.address ∨
      isPartyA = false ∧ sender ≠ t.partyA.address ∧ sender = t.partyB.address := by
  unfold partyOf
  split
  · simp_all
  · split <;> simp_all

@[simp] theorem assertSigned_ok_iff {error : Abort} {v : Unit} :
    assertSigned env party message sig error = .ok v ↔
      Verifies env party message sig := by
  simp [assertSigned, Verifies]

@[simp] theorem assertBalanceSplit_ok_iff {v : Unit} :
    assertBalanceSplit a b total = .ok v ↔ a.toNat + b.toNat = total.toNat := by
  simp only [assertBalanceSplit, returned, sub_ok_iff, UInt64.le_iff_toNat_le]
  constructor
  · rintro ⟨_, _, _, rfl⟩
    omega
  · intro hsum
    exact ⟨by omega, b, by omega, rfl⟩

/-- Once the shares sum to the balance, `distribute` empties it. -/
theorem distribute_ok_iff {paid : Tunnel × List Transfer}
    (hsum : a.toNat + b.toNat = t.balance.toNat) :
    distribute t a b now = .ok paid ↔
      paid = (closedTunnel t now, shares t a b) := by
  simp only [distribute, closedTunnel, shares, returned, split_ok_iff]
  constructor
  · rintro ⟨_, _, afterB, _, rfl⟩
    have hzero : afterB = 0 := UInt64.toNat_inj.mp (by simp; omega)
    rw [hzero]
  · rintro rfl
    exact ⟨b, by omega, 0, by simp, rfl⟩

theorem split_and_distribute_iff {P : Tunnel × List Transfer → Prop} :
    (a.toNat + b.toNat = t.balance.toNat ∧ ∃ paid, distribute t a b now = .ok paid ∧ P paid) ↔
      a.toNat + b.toNat = t.balance.toNat ∧ P (closedTunnel t now, shares t a b) := by
  refine and_congr_right fun hsum => ?_
  simp only [distribute_ok_iff hsum, exists_eq_left]

theorem creditDeposit_ok_iff :
    creditDeposit t isPartyA amount = .ok t' ↔
      ∃ deposit : UInt64,
        deposit.toNat = (depositOf t isPartyA).toNat + amount.toNat ∧
        t' = if isPartyA then { t with partyADeposit := deposit }
          else { t with partyBDeposit := deposit } := by
  cases isPartyA <;>
    simp only [creditDeposit, depositOf, returned, add_ok_iff, Bool.false_eq_true, if_true,
      if_false]

theorem updateState_ok_iff :
    updateState env t u sigA sigB now = .ok r ↔
      t.version = currentVersion ∧ t.status = .active ∧ Acceptable t u now ∧
      Verifies env t.partyA (u.message t.id) sigA ∧
      Verifies env t.partyB (u.message t.id) sigB ∧
      r = { tunnel := { t with state := u.commitment now, lastActivity := now }
            events := [.stateUpdated t.id u.stateHash u.nonce now] } := by
  simp only [updateState, returned, assertBalanceSplit_ok_iff, assertSigned_ok_iff, gt_iff_lt,
    ge_iff_le, UInt64.lt_iff_toNat_lt, UInt64.le_iff_toNat_le, toNat_lt_maxU64_iff,
    acceptable_iff, and_assoc]

theorem closeCooperative_ok_iff :
    closeCooperative env t a b sigA sigB timestamp now = .ok r ↔
      t.version = currentVersion ∧ (t.status = .active ∨ t.status = .created) ∧
      a.toNat + b.toNat = t.balance.toNat ∧ (sigA ≠ [] ∧ sigB ≠ []) ∧
      ∃ finalNonce : UInt64, finalNonce.toNat = t.state.nonce.toNat + 1 ∧
        timestamp.toNat ≤ now.toNat ∧ t.createdAt.toNat ≤ timestamp.toNat ∧
        Verifies env t.partyA
          (serializeSettlement ⟨t.id, a, b, finalNonce, timestamp⟩) sigA ∧
        Verifies env t.partyB
          (serializeSettlement ⟨t.id, a, b, finalNonce, timestamp⟩) sigB ∧
        r = { tunnel := closedTunnel t now, transfers := shares t a b
              events := [.tunnelClosed t.id a b finalNonce now] } := by
  simp only [closeCooperative, returned, assertBalanceSplit_ok_iff, assertSigned_ok_iff,
    add_ok_iff, ge_iff_le, UInt64.le_iff_toNat_le]
  refine and_congr_right fun _ => and_congr_right fun _ => and_congr_right fun hsum => ?_
  simp only [distribute_ok_iff hsum, exists_eq_left]
  rfl

theorem closeCooperativeWithRoot_ok_iff {transcriptRoot : Bytes} :
    closeCooperativeWithRoot env t a b sigA sigB timestamp transcriptRoot now = .ok r ↔
      t.version = currentVersion ∧ (t.status = .active ∨ t.status = .created) ∧
      transcriptRoot.length = 32 ∧ a.toNat + b.toNat = t.balance.toNat ∧
      (sigA ≠ [] ∧ sigB ≠ []) ∧
      ∃ finalNonce : UInt64, finalNonce.toNat = t.state.nonce.toNat + 1 ∧
        timestamp.toNat ≤ now.toNat ∧ t.createdAt.toNat ≤ timestamp.toNat ∧
        Verifies env t.partyA (serializeSettlementWithRoot
          ⟨t.id, a, b, finalNonce, timestamp, transcriptRoot⟩) sigA ∧
        Verifies env t.partyB (serializeSettlementWithRoot
          ⟨t.id, a, b, finalNonce, timestamp, transcriptRoot⟩) sigB ∧
        r = { tunnel := closedTunnel t now, transfers := shares t a b
              events := [.tunnelClosedWithRoot t.id a b finalNonce transcriptRoot
                now] } := by
  simp only [closeCooperativeWithRoot, returned, assertBalanceSplit_ok_iff, assertSigned_ok_iff,
    add_ok_iff, ge_iff_le, UInt64.le_iff_toNat_le]
  refine and_congr_right fun _ => and_congr_right fun _ => and_congr_right fun _ =>
    and_congr_right fun hsum => ?_
  simp only [distribute_ok_iff hsum, exists_eq_left]
  rfl

theorem raiseDispute_ok_iff :
    raiseDispute env t u sig now sender = .ok r ↔
      t.version = currentVersion ∧ t.status = .active ∧ Acceptable t u now ∧
      t.lastDisputedNonce.toNat ≤ u.nonce.toNat ∧
      ∃ isPartyA, partyOf t sender = .ok isPartyA ∧
        Verifies env (otherParty t isPartyA) (u.message t.id) sig ∧
        ∃ highWater : UInt64, highWater.toNat = u.nonce.toNat + 1 ∧
          r = { tunnel := { t with
                  status := .disputed
                  disputeRaiser := some sender
                  lastDisputedNonce := highWater
                  state := u.commitment now
                  lastActivity := now }
                events := [.disputeRaised t.id sender u.stateHash u.nonce now] } := by
  simp only [raiseDispute, returned, assertBalanceSplit_ok_iff, assertSigned_ok_iff, add_ok_iff,
    gt_iff_lt, ge_iff_le, UInt64.lt_iff_toNat_lt, UInt64.le_iff_toNat_le, toNat_lt_maxU64_iff,
    acceptable_iff]
  constructor
  · rintro ⟨hver, hst, hlen, hsum, side, hside, hnew, hmax, hhigh, hfut, hbef, hrest⟩
    exact ⟨hver, hst, ⟨hlen, hnew, hmax, hsum, hfut, hbef⟩, hhigh, side, hside, hrest⟩
  · rintro ⟨hver, hst, ⟨hlen, hnew, hmax, hsum, hfut, hbef⟩, hhigh, side, hside, hrest⟩
    exact ⟨hver, hst, hlen, hsum, side, hside, hnew, hmax, hhigh, hfut, hbef, hrest⟩

theorem resolveDispute_ok_iff :
    resolveDispute env t u sigA sigB now = .ok r ↔
      t.version = currentVersion ∧ t.status = .disputed ∧ Acceptable t u now ∧
      Verifies env t.partyA (u.message t.id) sigA ∧
      Verifies env t.partyB (u.message t.id) sigB ∧
      r = { tunnel := { t with
              status := .active
              disputeRaiser := none
              state := u.commitment now
              lastActivity := now }
            events := [.disputeResolved t.id u.stateHash u.nonce u.partyABalance
              u.partyBBalance now] } := by
  simp only [resolveDispute, returned, assertBalanceSplit_ok_iff, assertSigned_ok_iff, gt_iff_lt,
    ge_iff_le, UInt64.lt_iff_toNat_lt, UInt64.le_iff_toNat_le, toNat_lt_maxU64_iff,
    acceptable_iff, and_assoc]

theorem raiseDisputeCurrentState_ok_iff :
    raiseDisputeCurrentState t now sender = .ok r ↔
      t.version = currentVersion ∧ t.status = .active ∧ 0 < t.timeoutMs.toNat ∧
      (sender = t.partyA.address ∨ sender = t.partyB.address) ∧
      t.lastDisputedNonce.toNat ≤ t.state.nonce.toNat ∧
      ∃ highWater : UInt64, highWater.toNat = t.state.nonce.toNat + 1 ∧
        r = { tunnel := { t with
                lastDisputedNonce := highWater
                status := .disputed
                disputeRaiser := some sender
                state := { t.state with timestamp := now }
                lastActivity := now }
              events := [.disputeRaised t.id sender t.state.stateHash t.state.nonce
                now] } := by
  simp only [raiseDisputeCurrentState, returned, add_ok_iff, gt_iff_lt, ge_iff_le,
    UInt64.lt_iff_toNat_lt, UInt64.le_iff_toNat_le, UInt64.toNat_zero, UInt64.reduceToNat]

private theorem toNat_min (x y : UInt64) : (min x y).toNat = min x.toNat y.toNat := by
  change (if x ≤ y then x else y).toNat = _
  split
  · rename_i hle
    exact (min_eq_left (UInt64.le_iff_toNat_le.mp hle)).symm
  · rename_i hlt
    rw [UInt64.le_iff_toNat_le, not_le] at hlt
    exact (min_eq_right hlt.le).symm

/-- The capped penalty never underflows; it moves as much as it can. -/
theorem applyPenalty_ok_iff {s : UInt64 × UInt64} :
    applyPenalty t sender = .ok s ↔ Penalised t sender s.1 s.2 := by
  obtain ⟨x, y⟩ := s
  by_cases hpos : t.penaltyAmount > 0
  · by_cases hraiser : sender = t.partyA.address <;>
      simp only [applyPenalty, Penalised, hpos, hraiser, if_true, if_false, returned, sub_ok_iff,
        add_ok_iff, toNat_min, Prod.mk.injEq]
    · constructor
      · rintro ⟨rest, hrest, sum, hsum, rfl, rfl⟩
        omega
      · rintro ⟨hx, hy⟩
        exact ⟨y, by omega, x, by omega, rfl, rfl⟩
    · constructor
      · rintro ⟨_, _, _, _, rfl, rfl⟩
        omega
      · rintro ⟨_, _⟩
        exact ⟨x, by omega, y, by omega, rfl, rfl⟩
  · have hzero : t.penaltyAmount.toNat = 0 := by
      rw [gt_iff_lt, UInt64.lt_iff_toNat_lt] at hpos
      simpa using hpos
    simp only [applyPenalty, Penalised, hpos, hzero, if_false, pure_ok_iff, Prod.mk.injEq,
      Nat.zero_min, Nat.add_zero, Nat.sub_zero, ite_self, UInt64.toNat_inj]

theorem forceCloseAfterTimeout_ok_iff :
    forceCloseAfterTimeout t now sender = .ok r ↔
      t.version = currentVersion ∧ t.status = .disputed ∧ 0 < t.timeoutMs.toNat ∧
      t.disputeRaiser = some sender ∧
      t.state.timestamp.toNat + t.timeoutMs.toNat ≤ now.toNat ∧
      ∃ a b : UInt64, Penalised t sender a b ∧ a.toNat + b.toNat = t.balance.toNat ∧
        r = { tunnel := closedTunnel t now, transfers := shares t a b
              events := [.tunnelClosed t.id a b t.state.nonce now] } := by
  have hsome : t.disputeRaiser = some sender → t.disputeRaiser.isSome = true := by
    intro hraiser
    rw [hraiser]
    rfl
  simp only [forceCloseAfterTimeout, returned, assertBalanceSplit_ok_iff, add_ok_iff,
    applyPenalty_ok_iff, gt_iff_lt, ge_iff_le, UInt64.lt_iff_toNat_lt, UInt64.le_iff_toNat_le,
    UInt64.toNat_zero, exists_deadline_iff, split_and_distribute_iff,
    eq_comm (a := some sender)]
  simp only [Prod.exists]
  tauto

theorem agreeToDispute_ok_iff :
    agreeToDispute t now sender = .ok r ↔
      t.version = currentVersion ∧ t.status = .disputed ∧
      t.disputeRaiser.isSome = true ∧ some sender ≠ t.disputeRaiser ∧
      (sender = t.partyA.address ∨ sender = t.partyB.address) ∧
      t.state.partyABalance.toNat + t.state.partyBBalance.toNat = t.balance.toNat ∧
      r = { tunnel := closedTunnel t now
            transfers := shares t t.state.partyABalance t.state.partyBBalance
            events := [.tunnelClosed t.id t.state.partyABalance t.state.partyBBalance
              t.state.nonce now] } := by
  simp only [agreeToDispute, returned, assertBalanceSplit_ok_iff, split_and_distribute_iff]

theorem extendTimeout_ok_iff {additionalMs : UInt64} :
    extendTimeout t additionalMs now sender = .ok r ↔
      t.version = currentVersion ∧ t.status = .active ∧ 0 < additionalMs.toNat ∧
      additionalMs.toNat ≤ maxTimeoutExtensionMs.toNat ∧
      t.timeoutMs.toNat + additionalMs.toNat ≤ maxTotalTimeoutMs.toNat ∧
      (sender = t.partyA.address ∨ sender = t.partyB.address) ∧
      ∃ timeoutMs : UInt64,
        timeoutMs.toNat = t.timeoutMs.toNat + additionalMs.toNat ∧
        r = { tunnel := { t with timeoutMs := timeoutMs, lastActivity := now }
              events := [.tunnelTimeoutExtended t.id sender additionalMs timeoutMs
                now] } := by
  simp only [extendTimeout, canExtendTimeout, decide_eq_true_eq, returned, add_ok_iff, sub_ok_iff,
    gt_iff_lt, UInt64.lt_iff_toNat_lt, UInt64.le_iff_toNat_le, UInt64.toNat_zero]
  constructor
  · rintro ⟨hver, _, hst, hpos, hcap, _, _, hfit, hparty, hrest⟩
    exact ⟨hver, hst, hpos, hcap, by omega, hparty, hrest⟩
  · rintro ⟨hver, hst, hpos, hcap, _, hparty, hrest⟩
    have hle : additionalMs.toNat ≤ maxTotalTimeoutMs.toNat := by omega
    have hsub := toNat_sub_of_toNat_le hle
    exact ⟨hver, by simp [hst], hst, hpos, hcap, maxTotalTimeoutMs - additionalMs,
      by omega, by omega, hparty, hrest⟩

theorem updatePartyHtlcCounter_add_ok_iff :
    updatePartyHtlcCounter t sender true amount = .ok t' ↔
      ∃ counter : HTLCPartyCounter,
        counter.count.toNat = (counterOf t sender).count.toNat + 1 ∧
        counter.totalLocked.toNat =
          (counterOf t sender).totalLocked.toNat + amount.toNat ∧
        t' = { t with counters := t.counters.insert sender counter } := by
  simp only [updatePartyHtlcCounter, counterOf, if_true, returned, add_ok_iff, UInt64.reduceToNat,
    exists_counter_iff, exists_and_left]

theorem updatePartyHtlcCounter_sub_ok_iff :
    updatePartyHtlcCounter t sender false amount = .ok t' ↔
      ∃ counter : HTLCPartyCounter,
        counter.count.toNat + 1 = (counterOf t sender).count.toNat ∧
        counter.totalLocked.toNat + amount.toNat =
          (counterOf t sender).totalLocked.toNat ∧
        t' = { t with counters := t.counters.insert sender counter } := by
  simp only [updatePartyHtlcCounter, counterOf, Bool.false_eq_true, if_false, returned, sub_ok_iff,
    UInt64.reduceToNat, exists_counter_iff, exists_and_left]

theorem debitState_ok_iff :
    debitState t isPartyA amount = .ok t' ↔
      ∃ rest : UInt64,
        rest.toNat + amount.toNat = (t.state.balanceOf isPartyA).toNat ∧
        t' = { t with state := t.state.withBalance isPartyA rest } := by
  cases isPartyA <;>
    simp only [debitState, StateCommitment.balanceOf, StateCommitment.withBalance, returned,
      sub_ok_iff, Bool.false_eq_true, if_true, if_false]

theorem lockHtlcInternal_ok_iff :
    lockHtlcInternal t l sender isPartyA now = .ok r ↔
      l.paymentHash ∉ t.htlcs ∧
      ∃ (balance rest : UInt64) (counter : HTLCPartyCounter),
        balance.toNat + l.amount.toNat = t.balance.toNat ∧
        rest.toNat + l.amount.toNat = (t.state.balanceOf isPartyA).toNat ∧
        counter.count.toNat = (counterOf t sender).count.toNat + 1 ∧
        counter.totalLocked.toNat =
          (counterOf t sender).totalLocked.toNat + l.amount.toNat ∧
        r = { tunnel := { t with
                balance := balance
                htlcs := t.htlcs.insert l.paymentHash (l.htlc sender)
                counters := t.counters.insert sender counter
                state := t.state.withBalance isPartyA rest
                lastActivity := now }
              events := [.htlcLocked t.id l.paymentHash l.amount sender l.receiver
                l.expiryMs] } := by
  simp only [lockHtlcInternal, returned, split_ok_iff, updatePartyHtlcCounter_add_ok_iff,
    debitState_ok_iff, UInt64.le_iff_toNat_le]
  constructor
  · rintro ⟨_, hfresh, balance, hbalance, _, ⟨counter, hcount, hlocked, rfl⟩, _,
      ⟨rest, hrest, rfl⟩, rfl⟩
    exact ⟨hfresh, balance, rest, counter, hbalance, hrest, hcount, hlocked, rfl⟩
  · rintro ⟨hfresh, balance, rest, counter, hbalance, hrest, hcount, hlocked, rfl⟩
    have hle : l.amount.toNat ≤ (t.state.balanceOf isPartyA).toNat := by omega
    exact ⟨hle, hfresh, balance, hbalance, _, ⟨counter, hcount, hlocked, rfl⟩, _,
      ⟨rest, hrest, rfl⟩, rfl⟩

theorem lockHtlc_ok_iff :
    lockHtlc env t l sig now sender = .ok r ↔
      t.version = currentVersion ∧ t.status = .active ∧ 0 < l.amount.toNat ∧
      l.paymentHash.length = 32 ∧ now.toNat < l.expiryMs.toNat ∧
      ∃ isPartyA, partyOf t sender = .ok isPartyA ∧
        Verifies env (otherParty t isPartyA) (l.message t.id sender) sig ∧
        lockHtlcInternal t l sender isPartyA now = .ok r := by
  simp only [lockHtlc, returned, assertSigned_ok_iff, gt_iff_lt, UInt64.lt_iff_toNat_lt,
    UInt64.toNat_zero]

theorem takeHtlc_ok_iff {htlc : TunnelHTLC} :
    takeHtlc t hash = .ok htlc ↔ t.htlcs.lookup hash = some htlc := by
  unfold takeHtlc
  split <;> simp_all

/-- The tunnel after the HTLC under `hash` was released at `now`. -/
def releasedTunnel (t : Tunnel) (hash : Bytes) (htlc : TunnelHTLC)
    (counter : HTLCPartyCounter) (now : UInt64) : Tunnel :=
  { t with
    htlcs := t.htlcs.erase hash
    counters := t.counters.insert htlc.sender counter
    lastActivity := now }

/-- `counter` is the counter of `htlc`'s sender without `htlc`. -/
def Uncounts (t : Tunnel) (htlc : TunnelHTLC) (counter : HTLCPartyCounter) : Prop :=
  counter.count.toNat + 1 = (counterOf t htlc.sender).count.toNat ∧
  counter.totalLocked.toNat + htlc.amount.toNat =
    (counterOf t htlc.sender).totalLocked.toNat

theorem exists_uncounted_iff {htlc : TunnelHTLC} {transfers : List Transfer}
    {events : List Event} :
    (∃ t', updatePartyHtlcCounter { t with htlcs := t.htlcs.erase hash } htlc.sender false
      htlc.amount = .ok t' ∧ r = { tunnel := { t' with lastActivity := now }, transfers, events }) ↔
    ∃ counter, Uncounts t htlc counter ∧
      r = { tunnel := releasedTunnel t hash htlc counter now, transfers, events } := by
  simp only [updatePartyHtlcCounter_sub_ok_iff]
  constructor
  · rintro ⟨_, ⟨counter, hcount, hlocked, rfl⟩, hrest⟩
    exact ⟨counter, ⟨hcount, hlocked⟩, hrest⟩
  · rintro ⟨counter, ⟨hcount, hlocked⟩, hrest⟩
    exact ⟨_, ⟨counter, hcount, hlocked, rfl⟩, hrest⟩

theorem claimHtlcInTunnel_ok_iff {preimage : Bytes} :
    claimHtlcInTunnel env t hash preimage now sender = .ok r ↔
      t.version = currentVersion ∧ t.status ≠ .destroyed ∧
      ∃ htlc, t.htlcs.lookup hash = some htlc ∧ sender = htlc.receiver ∧
        (env.blake2b256 preimage).bytes = htlc.paymentHash ∧
        now.toNat < htlc.expiryMs.toNat ∧
        ∃ counter, Uncounts t htlc counter ∧
          r = { tunnel := releasedTunnel t hash htlc counter now
                transfers := [⟨htlc.balance, htlc.receiver⟩]
                events := [.htlcClaimedInTunnel t.id hash htlc.amount
                  htlc.receiver] } := by
  simp only [claimHtlcInTunnel, returned, takeHtlc_ok_iff, UInt64.lt_iff_toNat_lt,
    exists_uncounted_iff]

theorem expireHtlcInTunnel_ok_iff :
    expireHtlcInTunnel t hash now sender = .ok r ↔
      t.version = currentVersion ∧ t.status ≠ .destroyed ∧
      ∃ htlc, t.htlcs.lookup hash = some htlc ∧
        htlc.expiryMs.toNat ≤ now.toNat ∧ sender = htlc.sender ∧
        ∃ counter, Uncounts t htlc counter ∧
          r = { tunnel := releasedTunnel t hash htlc counter now
                transfers := [⟨htlc.balance, htlc.sender⟩]
                events := [.htlcExpiredInTunnel t.id hash htlc.amount
                  htlc.sender] } := by
  simp only [expireHtlcInTunnel, returned, takeHtlc_ok_iff, ge_iff_le, UInt64.le_iff_toNat_le,
    exists_uncounted_iff]

theorem resolveDisputeExternal_ok_iff :
    resolveDisputeExternal t a b now sender = .ok r ↔
      t.version = currentVersion ∧ t.status = .disputed ∧ t.referee = some sender ∧
      a.toNat + b.toNat = t.balance.toNat ∧
      r = { tunnel := closedTunnel t now, transfers := shares t a b
            events := [.disputeResolvedByReferee t.id sender a b now] } := by
  have hsome : t.referee = some sender → t.referee.isSome = true := by
    intro href
    rw [href]
    rfl
  simp only [resolveDisputeExternal, returned, assertBalanceSplit_ok_iff,
    split_and_distribute_iff, eq_comm (a := some sender)]
  tauto

theorem resolveDisputeVerified_ok_iff :
    resolveDisputeVerified t a b now = .ok r ↔
      t.version = currentVersion ∧ t.status = .disputed ∧ 0 < t.timeoutMs.toNat ∧
      t.state.timestamp.toNat + t.timeoutMs.toNat ≤ now.toNat ∧
      a.toNat + b.toNat = t.balance.toNat ∧
      r = { tunnel := closedTunnel t now, transfers := shares t a b
            events := [.disputeResolvedByVerifiedProof t.id a b now] } := by
  simp only [resolveDisputeVerified, returned, assertBalanceSplit_ok_iff, add_ok_iff, gt_iff_lt,
    ge_iff_le, UInt64.lt_iff_toNat_lt, UInt64.le_iff_toNat_le, UInt64.toNat_zero,
    exists_deadline_iff, split_and_distribute_iff]

def withdrawnTunnel (t : Tunnel) (isPartyA : Bool) (balance now : UInt64) : Tunnel :=
  { t with
    partyADeposit := if isPartyA then 0 else t.partyADeposit
    partyBDeposit := if isPartyA then t.partyBDeposit else 0
    balance := balance
    lastActivity := now
    status := if balance = 0 then .closed else t.status }

theorem withdrawDeposit_ok_iff :
    withdrawDeposit t isPartyA now sender = .ok r ↔
      ∃ balance : UInt64,
        balance.toNat + (depositOf t isPartyA).toNat = t.balance.toNat ∧
        r = { tunnel := withdrawnTunnel t isPartyA balance now
              returned := some (depositOf t isPartyA)
              events := [.tunnelWithdrawal t.id sender (depositOf t isPartyA)
                now] } := by
  cases isPartyA <;>
    simp only [withdrawDeposit, withdrawnTunnel, returned, split_ok_iff, Bool.false_eq_true,
      if_true, if_false]

theorem withdrawTimeout_ok_iff :
    withdrawTimeout t now sender = .ok r ↔
      t.version = currentVersion ∧ t.status = .created ∧ 0 < t.timeoutMs.toNat ∧
      t.createdAt.toNat + t.timeoutMs.toNat ≤ now.toNat ∧
      ∃ isPartyA, partyOf t sender = .ok isPartyA ∧
        0 < (depositOf t isPartyA).toNat ∧
        withdrawDeposit t isPartyA now sender = .ok r := by
  simp only [withdrawTimeout, returned, add_ok_iff, gt_iff_lt, ge_iff_le, UInt64.lt_iff_toNat_lt,
    UInt64.le_iff_toNat_le, UInt64.toNat_zero, exists_deadline_iff]

/-- The tunnel with one deposit raised to `deposit`, before activation is
considered. -/
def fundedTunnel (t : Tunnel) (isPartyA : Bool) (deposit balance now : UInt64) : Tunnel :=
  { t with
    partyADeposit := if isPartyA then deposit else t.partyADeposit
    partyBDeposit := if isPartyA then t.partyBDeposit else deposit
    balance := balance
    lastActivity := now }

theorem depositInternal_ok_iff {coin : UInt64} :
    depositInternal t coin isPartyA now = .ok r ↔
      t.version = currentVersion ∧ t.status = .created ∧ 0 < coin.toNat ∧
      ∃ deposit balance : UInt64,
        deposit.toNat = (depositOf t isPartyA).toNat + coin.toNat ∧
        balance.toNat = t.balance.toNat + coin.toNat ∧
        r = { tunnel := (maybeActivate (fundedTunnel t isPartyA deposit balance now) now).1
              events := .tunnelDeposit t.id
                  (if isPartyA then t.partyA.address else t.partyB.address) coin balance ::
                (maybeActivate (fundedTunnel t isPartyA deposit balance now) now).2 } := by
  have hmin : minDeposit.toNat ≤ coin.toNat ↔ 0 < coin.toNat := Nat.succ_le_iff
  cases isPartyA <;>
    simp only [depositInternal, fundedTunnel, returned, creditDeposit_ok_iff, add_ok_iff,
      ge_iff_le, UInt64.le_iff_toNat_le, hmin, Bool.false_eq_true, if_true, if_false]
  all_goals
    refine and_congr_right fun _ => and_congr_right fun _ => and_congr_right fun _ => ?_
    constructor
    · rintro ⟨_, ⟨deposit, hdeposit, rfl⟩, balance, hbalance, rfl⟩
      exact ⟨deposit, balance, hdeposit, hbalance, rfl⟩
    · rintro ⟨deposit, balance, hdeposit, hbalance, rfl⟩
      exact ⟨_, ⟨deposit, hdeposit, rfl⟩, balance, hbalance, rfl⟩

end DopamintArena.Move
