import DopamintArena.Foundation.Runs
import DopamintArena.Move.Tunnel.Spec

/-!
A tunnel's whole life: it is created by one of the constructors and then
changed by successful calls, by any senders, with any arguments, in any
order. An aborted call changes nothing on chain and is not part of a run.

`Effect` says once, for all twenty-four calls, what a successful call can do;
every invariant below is proved from it and never unfolds a call again.
-/

namespace DopamintArena.Move

open Foundation

/-- A call of a public or package function of the module on one tunnel. -/
inductive Call
  | deposit (coin : UInt64)
  | depositPartyA (coin : UInt64)
  | depositPartyB (coin : UInt64)
  | updateState (u : UpdateArgs) (sigA sigB : Bytes)
  | closeCooperative (a b : UInt64) (sigA sigB : Bytes) (timestamp : UInt64)
  | closeCooperativeWithRoot (a b : UInt64) (sigA sigB : Bytes) (timestamp : UInt64)
      (transcriptRoot : Bytes)
  | closeCooperativeAndTransfer (a b : UInt64) (sigA sigB : Bytes) (timestamp : UInt64)
  | raiseDispute (u : UpdateArgs) (otherPartySig : Bytes)
  | resolveDispute (u : UpdateArgs) (sigA sigB : Bytes)
  | raiseDisputeCurrentState
  | forceCloseAfterTimeout
  | agreeToDispute
  | extendTimeout (additionalMs : UInt64)
  | lockHtlc (l : LockArgs) (counterpartySig : Bytes)
  | claimHtlcInTunnel (paymentHash preimage : Bytes)
  | expireHtlcInTunnel (paymentHash : Bytes)
  | setRefereeCosigned (referee : Address) (sigA sigB : Bytes)
  | setReferee (referee : Address)
  | resolveDisputeExternal (a b : UInt64)
  | resolveDisputeVerified (a b : UInt64)
  | withdrawBeforeActive
  | withdrawTimeout
  | destroyTunnel
  | migrate
deriving DecidableEq

/-- A transaction: who calls what, and the clock it sees. -/
structure Tx where
  sender : Address
  clock : UInt64
  call : Call
deriving DecidableEq

def exec (env : Natives) (t : Tunnel) (tx : Tx) : Except Abort Receipt :=
  match tx.call with
  | .deposit coin => deposit t coin tx.clock tx.sender
  | .depositPartyA coin => depositPartyA t coin tx.clock tx.sender
  | .depositPartyB coin => depositPartyB t coin tx.clock tx.sender
  | .updateState u sigA sigB => updateState env t u sigA sigB tx.clock
  | .closeCooperative a b sigA sigB timestamp =>
    closeCooperative env t a b sigA sigB timestamp tx.clock
  | .closeCooperativeWithRoot a b sigA sigB timestamp transcriptRoot =>
    closeCooperativeWithRoot env t a b sigA sigB timestamp transcriptRoot tx.clock
  | .closeCooperativeAndTransfer a b sigA sigB timestamp =>
    closeCooperativeAndTransfer env t a b sigA sigB timestamp tx.clock
  | .raiseDispute u otherPartySig => raiseDispute env t u otherPartySig tx.clock tx.sender
  | .resolveDispute u sigA sigB => resolveDispute env t u sigA sigB tx.clock
  | .raiseDisputeCurrentState => raiseDisputeCurrentState t tx.clock tx.sender
  | .forceCloseAfterTimeout => forceCloseAfterTimeout t tx.clock tx.sender
  | .agreeToDispute => agreeToDispute t tx.clock tx.sender
  | .extendTimeout additionalMs => extendTimeout t additionalMs tx.clock tx.sender
  | .lockHtlc l counterpartySig => lockHtlc env t l counterpartySig tx.clock tx.sender
  | .claimHtlcInTunnel paymentHash preimage =>
    claimHtlcInTunnel env t paymentHash preimage tx.clock tx.sender
  | .expireHtlcInTunnel paymentHash => expireHtlcInTunnel t paymentHash tx.clock tx.sender
  | .setRefereeCosigned referee sigA sigB => setRefereeCosigned env t referee sigA sigB
  | .setReferee referee => setReferee t referee tx.sender
  | .resolveDisputeExternal a b => resolveDisputeExternal t a b tx.clock tx.sender
  | .resolveDisputeVerified a b => resolveDisputeVerified t a b tx.clock
  | .withdrawBeforeActive => withdrawBeforeActive t tx.clock tx.sender
  | .withdrawTimeout => withdrawTimeout t tx.clock tx.sender
  | .destroyTunnel => destroyTunnel t tx.clock tx.sender
  | .migrate => migrate t tx.sender

/-- How a tunnel comes into being. -/
inductive Genesis
  | create (id : Address) (p : CreateParams) (now : UInt64)
  | createAndFund (id : Address) (p : CreateParams) (partyACoin partyBCoin now : UInt64)

def Genesis.run : Genesis → Except Abort Receipt
  | .create id p now => Move.create id p now
  | .createAndFund id p partyACoin partyBCoin now =>
    createAndFundWithId id p partyACoin partyBCoin now

inductive Entry
  | created (genesis : Genesis) (receipt : Receipt)
  | called (tx : Tx) (receipt : Receipt)

/-- The transition system of one tunnel. -/
def tunnelSystem (env : Natives) : System Tunnel Entry where
  init history t := ∃ g r, g.run = .ok r ∧ history = [.created g r] ∧ t = r.tunnel
  step t entry t' := ∃ tx r, exec env t tx = .ok r ∧ entry = .called tx r ∧ t' = r.tunnel

def Call.coin : Call → Option UInt64
  | .deposit coin | .depositPartyA coin | .depositPartyB coin => some coin
  | _ => none

/-- Why a close paid `a` and `b`. -/
inductive CloseReason (env : Natives) (t : Tunnel) (tx : Tx) (a b : UInt64) : Prop
  | cooperative (sigA sigB : Bytes) (finalNonce timestamp : UInt64)
      (hcall : tx.call = .closeCooperative a b sigA sigB timestamp ∨
        tx.call = .closeCooperativeAndTransfer a b sigA sigB timestamp)
      (hstatus : t.status = .active ∨ t.status = .created)
      (hnonce : finalNonce.toNat = t.state.nonce.toNat + 1)
      (hA : Verifies env t.partyA
        (serializeSettlement ⟨t.id, a, b, finalNonce, timestamp⟩) sigA)
      (hB : Verifies env t.partyB
        (serializeSettlement ⟨t.id, a, b, finalNonce, timestamp⟩) sigB)
  | cooperativeWithRoot (sigA sigB : Bytes) (finalNonce timestamp : UInt64)
      (transcriptRoot : Bytes)
      (hcall : tx.call =
        .closeCooperativeWithRoot a b sigA sigB timestamp transcriptRoot)
      (hstatus : t.status = .active ∨ t.status = .created)
      (hroot : transcriptRoot.length = 32)
      (hnonce : finalNonce.toNat = t.state.nonce.toNat + 1)
      (hA : Verifies env t.partyA (serializeSettlementWithRoot
        ⟨t.id, a, b, finalNonce, timestamp, transcriptRoot⟩) sigA)
      (hB : Verifies env t.partyB (serializeSettlementWithRoot
        ⟨t.id, a, b, finalNonce, timestamp, transcriptRoot⟩) sigB)
  | forced (hcall : tx.call = .forceCloseAfterTimeout) (hstatus : t.status = .disputed)
      (hraiser : t.disputeRaiser = some tx.sender)
      (htime : t.state.timestamp.toNat + t.timeoutMs.toNat ≤ tx.clock.toNat)
      (hshares : Penalised t tx.sender a b)
  | agreed (hcall : tx.call = .agreeToDispute) (hstatus : t.status = .disputed)
      (hraiser : some tx.sender ≠ t.disputeRaiser)
      (hparty : tx.sender = t.partyA.address ∨ tx.sender = t.partyB.address)
      (hA : a = t.state.partyABalance) (hB : b = t.state.partyBBalance)
  | external (hcall : tx.call = .resolveDisputeExternal a b)
      (hstatus : t.status = .disputed) (hreferee : t.referee = some tx.sender)
  | verified (hcall : tx.call = .resolveDisputeVerified a b)
      (hstatus : t.status = .disputed)
      (htime : t.state.timestamp.toNat + t.timeoutMs.toNat ≤ tx.clock.toNat)

def Call.closes : Call → Bool
  | .closeCooperative .. | .closeCooperativeWithRoot .. | .closeCooperativeAndTransfer ..
  | .forceCloseAfterTimeout | .agreeToDispute | .resolveDisputeExternal ..
  | .resolveDisputeVerified .. => true
  | _ => false

theorem closeReason_closes {env : Natives} {t : Tunnel} {tx : Tx} {a b : UInt64}
    (h : CloseReason env t tx a b) : tx.call.closes = true := by
  cases h with
  | cooperative _ _ _ _ hcall =>
    rcases hcall with hcall | hcall <;> rw [hcall] <;> rfl
  | cooperativeWithRoot _ _ _ _ _ hcall | forced hcall | agreed hcall | external hcall
  | verified hcall => rw [hcall]; rfl

/-- Everything a successful transaction can do: the tunnel it leaves, the coins
it transfers and the coin it returns. -/
inductive Effect (env : Natives) (t : Tunnel) (tx : Tx) :
    Tunnel → List Transfer → Option UInt64 → Prop
  | fund (isPartyA : Bool) (coin deposit balance : UInt64)
      (hcall : tx.call.coin = some coin) (hstatus : t.status = .created)
      (hcoin : 0 < coin.toNat)
      (hdeposit : deposit.toNat = (depositOf t isPartyA).toNat + coin.toNat)
      (hbalance : balance.toNat = t.balance.toNat + coin.toNat) :
      Effect env t tx
        (maybeActivate (fundedTunnel t isPartyA deposit balance tx.clock) tx.clock).1
        [] none
  | update (u : UpdateArgs) (sigA sigB : Bytes)
      (hcall : tx.call = .updateState u sigA sigB) (hstatus : t.status = .active)
      (haccept : Acceptable t u tx.clock)
      (hA : Verifies env t.partyA (u.message t.id) sigA)
      (hB : Verifies env t.partyB (u.message t.id) sigB) :
      Effect env t tx { t with state := u.commitment tx.clock, lastActivity := tx.clock }
        [] none
  | raise (u : UpdateArgs) (sig : Bytes) (isPartyA : Bool) (highWater : UInt64)
      (hcall : tx.call = .raiseDispute u sig) (hstatus : t.status = .active)
      (haccept : Acceptable t u tx.clock)
      (hmark : t.lastDisputedNonce.toNat ≤ u.nonce.toNat)
      (hparty : partyOf t tx.sender = .ok isPartyA)
      (hsig : Verifies env (otherParty t isPartyA) (u.message t.id) sig)
      (hhigh : highWater.toNat = u.nonce.toNat + 1) :
      Effect env t tx
        { t with
          status := .disputed
          disputeRaiser := some tx.sender
          lastDisputedNonce := highWater
          state := u.commitment tx.clock
          lastActivity := tx.clock }
        [] none
  | resolve (u : UpdateArgs) (sigA sigB : Bytes)
      (hcall : tx.call = .resolveDispute u sigA sigB) (hstatus : t.status = .disputed)
      (haccept : Acceptable t u tx.clock)
      (hA : Verifies env t.partyA (u.message t.id) sigA)
      (hB : Verifies env t.partyB (u.message t.id) sigB) :
      Effect env t tx
        { t with
          status := .active
          disputeRaiser := none
          state := u.commitment tx.clock
          lastActivity := tx.clock }
        [] none
  | raiseCurrent (highWater : UInt64)
      (hcall : tx.call = .raiseDisputeCurrentState) (hstatus : t.status = .active)
      (hparty : tx.sender = t.partyA.address ∨ tx.sender = t.partyB.address)
      (hmark : t.lastDisputedNonce.toNat ≤ t.state.nonce.toNat)
      (hhigh : highWater.toNat = t.state.nonce.toNat + 1) :
      Effect env t tx
        { t with
          lastDisputedNonce := highWater
          status := .disputed
          disputeRaiser := some tx.sender
          state := { t.state with timestamp := tx.clock }
          lastActivity := tx.clock }
        [] none
  | close (a b : UInt64) (hsum : a.toNat + b.toNat = t.balance.toNat)
      (hreason : CloseReason env t tx a b) :
      Effect env t tx (closedTunnel t tx.clock) (shares t a b) none
  | extend (additionalMs timeoutMs : UInt64)
      (hcall : tx.call = .extendTimeout additionalMs) (hstatus : t.status = .active)
      (hcap : timeoutMs.toNat ≤ maxTotalTimeoutMs.toNat)
      (htimeout : timeoutMs.toNat = t.timeoutMs.toNat + additionalMs.toNat) :
      Effect env t tx { t with timeoutMs := timeoutMs, lastActivity := tx.clock } [] none
  | lock (l : LockArgs) (sig : Bytes) (isPartyA : Bool) (balance rest : UInt64)
      (counter : HTLCPartyCounter)
      (hcall : tx.call = .lockHtlc l sig) (hstatus : t.status = .active)
      (hamount : 0 < l.amount.toNat) (hlength : l.paymentHash.length = 32)
      (hexpiry : tx.clock.toNat < l.expiryMs.toNat)
      (hparty : partyOf t tx.sender = .ok isPartyA)
      (hsig : Verifies env (otherParty t isPartyA) (l.message t.id tx.sender) sig)
      (hfresh : l.paymentHash ∉ t.htlcs)
      (hbalance : balance.toNat + l.amount.toNat = t.balance.toNat)
      (hrest : rest.toNat + l.amount.toNat = (t.state.balanceOf isPartyA).toNat)
      (hcount : counter.count.toNat = (counterOf t tx.sender).count.toNat + 1)
      (htotal : counter.totalLocked.toNat =
        (counterOf t tx.sender).totalLocked.toNat + l.amount.toNat) :
      Effect env t tx
        { t with
          balance := balance
          htlcs := t.htlcs.insert l.paymentHash (l.htlc tx.sender)
          counters := t.counters.insert tx.sender counter
          state := t.state.withBalance isPartyA rest
          lastActivity := tx.clock }
        [] none
  | claim (hash preimage : Bytes) (htlc : TunnelHTLC) (counter : HTLCPartyCounter)
      (hcall : tx.call = .claimHtlcInTunnel hash preimage)
      (hstatus : t.status ≠ .destroyed) (hentry : t.htlcs.lookup hash = some htlc)
      (hsender : tx.sender = htlc.receiver)
      (hpreimage : (env.blake2b256 preimage).bytes = htlc.paymentHash)
      (hexpiry : tx.clock.toNat < htlc.expiryMs.toNat)
      (hcounter : Uncounts t htlc counter) :
      Effect env t tx (releasedTunnel t hash htlc counter tx.clock)
        [⟨htlc.balance, htlc.receiver⟩] none
  | expire (hash : Bytes) (htlc : TunnelHTLC) (counter : HTLCPartyCounter)
      (hcall : tx.call = .expireHtlcInTunnel hash)
      (hstatus : t.status ≠ .destroyed) (hentry : t.htlcs.lookup hash = some htlc)
      (hexpiry : htlc.expiryMs.toNat ≤ tx.clock.toNat)
      (hsender : tx.sender = htlc.sender)
      (hcounter : Uncounts t htlc counter) :
      Effect env t tx (releasedTunnel t hash htlc counter tx.clock)
        [⟨htlc.balance, htlc.sender⟩] none
  | assignReferee (referee : Address)
      (hcall : (∃ sigA sigB, tx.call = .setRefereeCosigned referee sigA sigB) ∨
        tx.call = .setReferee referee)
      (hstatus : t.status = .created)
      (hempty : t.partyADeposit = 0 ∧ t.partyBDeposit = 0) :
      Effect env t tx { t with referee := some referee } [] none
  | withdraw (isPartyA : Bool) (balance : UInt64)
      (hcall : tx.call = .withdrawBeforeActive ∨ tx.call = .withdrawTimeout)
      (hstatus : t.status = .created)
      (hdeposit : 0 < (depositOf t isPartyA).toNat)
      (hbalance : balance.toNat + (depositOf t isPartyA).toNat = t.balance.toNat) :
      Effect env t tx (withdrawnTunnel t isPartyA balance tx.clock) []
        (some (depositOf t isPartyA))
  | destroy (hcall : tx.call = .destroyTunnel) (hstatus : t.status = .closed)
      (hA : partyHtlcLockedInternal t t.partyA.address = 0)
      (hB : partyHtlcLockedInternal t t.partyB.address = 0) :
      Effect env t tx { t with status := .destroyed } [] none
  | migrate (hcall : tx.call = .migrate) (hversion : t.version < currentVersion) :
      Effect env t tx { t with version := currentVersion } [] none

variable {env : Natives} {t : Tunnel} {tx : Tx} {r : Receipt}
variable {isPartyA : Bool} {txs : List Tx} {history : List Entry}

private theorem depositInternal_effect {coin : UInt64} (hcall : tx.call.coin = some coin)
    (h : depositInternal t coin isPartyA tx.clock = .ok r) :
    Effect env t tx r.tunnel r.transfers r.returned := by
  rw [depositInternal_ok_iff] at h
  obtain ⟨-, hstatus, hcoin, deposit, balance, hdeposit, hbalance, rfl⟩ := h
  exact .fund isPartyA coin deposit balance hcall hstatus hcoin hdeposit hbalance

private theorem withdrawDeposit_effect
    (hcall : tx.call = .withdrawBeforeActive ∨ tx.call = .withdrawTimeout)
    (hstatus : t.status = .created) (hdeposit : 0 < (depositOf t isPartyA).toNat)
    (h : withdrawDeposit t isPartyA tx.clock tx.sender = .ok r) :
    Effect env t tx r.tunnel r.transfers r.returned := by
  rw [withdrawDeposit_ok_iff] at h
  obtain ⟨balance, hbalance, rfl⟩ := h
  exact .withdraw isPartyA balance hcall hstatus hdeposit hbalance

private theorem closeCooperative_effect {a b timestamp : UInt64} {sigA sigB : Bytes}
    (hcall : tx.call = .closeCooperative a b sigA sigB timestamp ∨
      tx.call = .closeCooperativeAndTransfer a b sigA sigB timestamp)
    (h : closeCooperative env t a b sigA sigB timestamp tx.clock = .ok r) :
    Effect env t tx r.tunnel r.transfers r.returned := by
  rw [closeCooperative_ok_iff] at h
  obtain ⟨-, hstatus, hsum, -, finalNonce, hnonce, -, -, hA, hB, rfl⟩ := h
  exact .close a b hsum
    (.cooperative sigA sigB finalNonce timestamp hcall hstatus hnonce hA hB)

private theorem lockHtlc_effect {l : LockArgs} {sig : Bytes}
    (hcall : tx.call = .lockHtlc l sig)
    (h : lockHtlc env t l sig tx.clock tx.sender = .ok r) :
    Effect env t tx r.tunnel r.transfers r.returned := by
  rw [lockHtlc_ok_iff] at h
  obtain ⟨-, hstatus, hamount, hlength, hexpiry, isPartyA, hparty, hsig, hlock⟩ := h
  rw [lockHtlcInternal_ok_iff] at hlock
  obtain ⟨hfresh, balance, rest, counter, hbalance, hrest, hcount, htotal, rfl⟩ := hlock
  exact .lock l sig isPartyA balance rest counter hcall hstatus hamount hlength hexpiry
    hparty hsig hfresh hbalance hrest hcount htotal

/-- A successful transaction does one of the things `Effect` lists. -/
theorem exec_effect (h : exec env t tx = .ok r) :
    Effect env t tx r.tunnel r.transfers r.returned := by
  cases hcall : tx.call <;> simp only [exec, hcall] at h
  case deposit coin =>
    simp only [deposit, bind_ok_iff] at h
    obtain ⟨isPartyA, -, h⟩ := h
    exact depositInternal_effect (by rw [hcall]; rfl) h
  case depositPartyA coin =>
    simp only [depositPartyA, returned] at h
    exact depositInternal_effect (by rw [hcall]; rfl) h.2
  case depositPartyB coin =>
    simp only [depositPartyB, returned] at h
    exact depositInternal_effect (by rw [hcall]; rfl) h.2
  case updateState u sigA sigB =>
    rw [updateState_ok_iff] at h
    obtain ⟨-, hstatus, haccept, hA, hB, rfl⟩ := h
    exact .update u sigA sigB hcall hstatus haccept hA hB
  case closeCooperative a b sigA sigB timestamp =>
    exact closeCooperative_effect (.inl hcall) h
  case closeCooperativeWithRoot a b sigA sigB timestamp root =>
    rw [closeCooperativeWithRoot_ok_iff] at h
    obtain ⟨-, hstatus, hroot, hsum, -, finalNonce, hnonce, -, -, hA, hB, rfl⟩ := h
    exact .close a b hsum (.cooperativeWithRoot sigA sigB finalNonce timestamp root hcall
      hstatus hroot hnonce hA hB)
  case closeCooperativeAndTransfer a b sigA sigB timestamp =>
    exact closeCooperative_effect (.inr hcall) h
  case raiseDispute u sig =>
    rw [raiseDispute_ok_iff] at h
    obtain ⟨-, hstatus, haccept, hmark, isPartyA, hparty, hsig, highWater, hhigh, rfl⟩ := h
    exact .raise u sig isPartyA highWater hcall hstatus haccept hmark hparty hsig hhigh
  case resolveDispute u sigA sigB =>
    rw [resolveDispute_ok_iff] at h
    obtain ⟨-, hstatus, haccept, hA, hB, rfl⟩ := h
    exact .resolve u sigA sigB hcall hstatus haccept hA hB
  case raiseDisputeCurrentState =>
    rw [raiseDisputeCurrentState_ok_iff] at h
    obtain ⟨-, hstatus, -, hparty, hmark, highWater, hhigh, rfl⟩ := h
    exact .raiseCurrent highWater hcall hstatus hparty hmark hhigh
  case forceCloseAfterTimeout =>
    rw [forceCloseAfterTimeout_ok_iff] at h
    obtain ⟨-, hstatus, -, hraiser, htime, a, b, hshares, hsum, rfl⟩ := h
    exact .close a b hsum (.forced hcall hstatus hraiser htime hshares)
  case agreeToDispute =>
    rw [agreeToDispute_ok_iff] at h
    obtain ⟨-, hstatus, -, hraiser, hparty, hsum, rfl⟩ := h
    exact .close _ _ hsum (.agreed hcall hstatus hraiser hparty rfl rfl)
  case extendTimeout additionalMs =>
    rw [extendTimeout_ok_iff] at h
    obtain ⟨-, hstatus, -, -, _, -, timeoutMs, htimeout, rfl⟩ := h
    exact .extend additionalMs timeoutMs hcall hstatus (by omega) htimeout
  case lockHtlc l sig =>
    exact lockHtlc_effect hcall h
  case claimHtlcInTunnel hash preimage =>
    rw [claimHtlcInTunnel_ok_iff] at h
    obtain ⟨-, hstatus, htlc, hentry, hsender, hpreimage, hexpiry, counter, hcounter,
      rfl⟩ := h
    exact .claim hash preimage htlc counter hcall hstatus hentry hsender hpreimage hexpiry
      hcounter
  case expireHtlcInTunnel hash =>
    rw [expireHtlcInTunnel_ok_iff] at h
    obtain ⟨-, hstatus, htlc, hentry, hexpiry, hsender, counter, hcounter, rfl⟩ := h
    exact .expire hash htlc counter hcall hstatus hentry hexpiry hsender hcounter
  case setRefereeCosigned referee sigA sigB =>
    simp only [setRefereeCosigned, returned, assertSigned_ok_iff] at h
    obtain ⟨-, hstatus, hempty, -, -, -, rfl⟩ := h
    exact .assignReferee referee (.inl ⟨sigA, sigB, hcall⟩) hstatus hempty
  case setReferee referee =>
    simp only [setReferee, returned] at h
    obtain ⟨-, hstatus, hempty, -, rfl⟩ := h
    exact .assignReferee referee (.inr hcall) hstatus hempty
  case resolveDisputeExternal a b =>
    rw [resolveDisputeExternal_ok_iff] at h
    obtain ⟨-, hstatus, hreferee, hsum, rfl⟩ := h
    exact .close a b hsum (.external hcall hstatus hreferee)
  case resolveDisputeVerified a b =>
    rw [resolveDisputeVerified_ok_iff] at h
    obtain ⟨-, hstatus, -, htime, hsum, rfl⟩ := h
    exact .close a b hsum (.verified hcall hstatus htime)
  case withdrawBeforeActive =>
    simp only [withdrawBeforeActive, returned, gt_iff_lt, UInt64.lt_iff_toNat_lt] at h
    obtain ⟨-, hstatus, isPartyA, -, hdeposit, -, h⟩ := h
    exact withdrawDeposit_effect (.inl hcall) hstatus hdeposit h
  case withdrawTimeout =>
    rw [withdrawTimeout_ok_iff] at h
    obtain ⟨-, hstatus, -, -, _, -, hdeposit, h⟩ := h
    exact withdrawDeposit_effect (.inr hcall) hstatus hdeposit h
  case destroyTunnel =>
    simp only [destroyTunnel, returned] at h
    obtain ⟨-, hstatus, -, ⟨hA, hB⟩, -, rfl⟩ := h
    exact .destroy hcall hstatus hA hB
  case migrate =>
    simp only [migrate, returned] at h
    obtain ⟨-, hversion, rfl⟩ := h
    exact .migrate hcall hversion

def replay (env : Natives) (g : Genesis) (txs : List Tx) :
    Except Abort (Tunnel × List Entry) := do
  let r ← g.run
  System.replay (fun t tx => (exec env t tx).map fun r => (.called tx r, r.tunnel))
    r.tunnel [.created g r] txs

theorem replay_run {g : Genesis} (h : replay env g txs = .ok (t, history)) :
    (tunnelSystem env).Run history t := by
  simp only [replay, bind_ok_iff] at h
  obtain ⟨r, hg, h⟩ := h
  refine System.replay_run (.start ⟨g, r, hg, rfl, rfl⟩) h fun t tx label t' hcalled => ?_
  obtain ⟨r', hexec, ⟨⟩⟩ := map_ok_iff.mp hcalled
  exact ⟨tx, r', hexec, rfl, rfl⟩

/-- A platform on which every well-formed signature verifies and every preimage
hashes to the same value. Runs on concrete inputs are evaluated on it. -/
def permissive : Natives where
  ed25519Verify _ _ _ := true
  bls12381MinSigVerify _ _ _ := true
  bls12381MinPkVerify _ _ _ := true
  secp256k1Verify _ _ _ _ := true
  blake2b256 _ := Bytes32.fill 9

def signedOnly (messages : List Bytes) : Natives where
  ed25519Verify _ _ message := messages.contains message
  bls12381MinSigVerify _ _ _ := false
  bls12381MinPkVerify _ _ _ := false
  secp256k1Verify _ _ _ _ := false
  blake2b256 _ := Bytes32.fill 9

namespace Sample

def alice : Address := Bytes32.fill 1
def bob : Address := Bytes32.fill 2
def tunnelId : Address := Bytes32.fill 5
def key : Bytes := List.replicate 32 0
def sig : Bytes := List.replicate 64 0

/-- Alice and Bob open a tunnel with a timeout of a second and a penalty of 5. -/
def params : CreateParams where
  partyAAddress := alice
  partyAPk := key
  partyASigType := sigTypeEd25519
  partyBAddress := bob
  partyBPk := key
  partyBSigType := sigTypeEd25519
  timeoutMs := 1000
  penaltyAmount := 5

def genesis : Genesis := .create tunnelId params 10

def update (nonce a b : UInt64) : UpdateArgs :=
  ⟨List.replicate 32 7, nonce, a, b, 11⟩

/-- Thirty units under the payment hash that every preimage of `permissive`
opens, to Bob, before time 40. -/
def lock : LockArgs := ⟨List.replicate 32 9, 30, bob, 40⟩

/-- Both sides fund, an update is recorded, Alice locks and disputes a later
update, Bob claims during the dispute. -/
def dispute : List Tx :=
  [⟨alice, 10, .deposit 100⟩, ⟨bob, 11, .depositPartyB 50⟩,
   ⟨bob, 12, .updateState (update 4 80 70) sig sig⟩,
   ⟨alice, 13, .lockHtlc lock sig⟩,
   ⟨alice, 14, .raiseDispute (update 5 60 60) sig⟩,
   ⟨bob, 15, .claimHtlcInTunnel lock.paymentHash [3]⟩]

end Sample

end DopamintArena.Move
