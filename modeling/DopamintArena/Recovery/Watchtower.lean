import DopamintArena.Foundation.Polling
import DopamintArena.Move.Tunnel.Honest

/-!
The watchtower of `recovery/watchtower.ts` over the contract. It polls a tunnel,
`decideRecovery` picks an action from a snapshot, and the executor submits it for
the protected party. The counterparty is silent, so only these transactions
change the tunnel.

A recovery is what the watchtower is for: the tunnel closes and pays the
higher-nonce one of the update the protected party holds and the state on chain.
Whether it happens is decided by the state at the first poll alone. Milliseconds
are natural numbers here; the snapshot of a tunnel is what the chain stores.
-/

namespace DopamintArena.Recovery

open Foundation Move

inductive RecoveryAction
  | none
  | withdrawTimeout
  | raiseDispute
  | raiseDisputeCurrentState
  | resolveDispute
  | forceClose
deriving DecidableEq

structure TunnelLiveness where
  status : Status
  iAmDisputeRaiser : Bool
  hasCounterpartySignedNewerState : Bool
  createdAtMs : ℕ
  lastActivityMs : ℕ
  timeoutMs : ℕ
  nowMs : ℕ
  counterpartyDeposited : Bool
  heartbeatTimeoutMs : ℕ
  disputeStartMs : Option ℕ

/-- The dispute clock has started and run out. -/
def TunnelLiveness.disputeExpired (t : TunnelLiveness) : Bool :=
  match t.disputeStartMs with
  | some start => decide (t.nowMs ≥ start + t.timeoutMs)
  | .none => false

def decideRecovery (t : TunnelLiveness) : RecoveryAction :=
  match t.status with
  | .closed | .destroyed => .none
  | .disputed =>
    if !t.iAmDisputeRaiser && t.hasCounterpartySignedNewerState then .resolveDispute
    else if t.iAmDisputeRaiser && t.disputeExpired then .forceClose
    -- the other party raised and nothing newer is held, or the timeout is running
    else .none
  | .created =>
    if !t.counterpartyDeposited && decide (t.nowMs ≥ t.createdAtMs + t.timeoutMs) then
      .withdrawTimeout
    else .none
  | .active =>
    if (t.nowMs : ℤ) - t.lastActivityMs ≥ t.heartbeatTimeoutMs then
      if t.hasCounterpartySignedNewerState then .raiseDispute
      else .raiseDisputeCurrentState
    else .none

/-- What the protected party gives the watchtower: its side, the newest update it
holds with both signatures, when it last heard from the other party and how much
silence it tolerates. -/
structure WatchedTunnel where
  isPartyA : Bool
  update : UpdateArgs
  sigA : Bytes
  sigB : Bytes
  lastActivityMs : ℕ
  heartbeatTimeoutMs : ℕ

namespace WatchedTunnel

def address (w : WatchedTunnel) (t : Tunnel) : Address :=
  (t.party w.isPartyA).address

def fetchLiveness (w : WatchedTunnel) (t : Tunnel) (now : UInt64) : TunnelLiveness where
  status := t.status
  iAmDisputeRaiser := decide (t.disputeRaiser = some (w.address t))
  hasCounterpartySignedNewerState := decide (t.state.nonce.toNat < w.update.nonce.toNat)
  createdAtMs := t.createdAt.toNat
  lastActivityMs := w.lastActivityMs
  timeoutMs := t.timeoutMs.toNat
  nowMs := now.toNat
  counterpartyDeposited := decide (depositOf t (!w.isPartyA) > 0)
  heartbeatTimeoutMs := w.heartbeatTimeoutMs
  disputeStartMs := if t.status = .disputed then some t.state.timestamp.toNat else .none

/-- The call that carries an action out. -/
def call (w : WatchedTunnel) : RecoveryAction → Option Call
  | .none => Option.none
  | .withdrawTimeout => some .withdrawTimeout
  | .raiseDispute => some (.raiseDispute w.update (if w.isPartyA then w.sigB else w.sigA))
  | .raiseDisputeCurrentState => some .raiseDisputeCurrentState
  | .resolveDispute => some (.resolveDispute w.update w.sigA w.sigB)
  | .forceClose => some .forceCloseAfterTimeout

/-- The action for a tunnel at a time. -/
def action (w : WatchedTunnel) (t : Tunnel) (now : UInt64) : RecoveryAction :=
  decideRecovery (w.fetchLiveness t now)

end WatchedTunnel

/-- A watched tunnel, whether it is still watched, and the receipts of the actions
that went through. -/
structure WatchState where
  tunnel : Tunnel
  watching : Bool
  receipts : List Receipt

def WatchState.paid (s : WatchState) : List Transfer :=
  s.receipts.flatMap (·.transfers)

def WatchState.start (t : Tunnel) : WatchState :=
  ⟨t, true, []⟩

/-- One poll. A terminal action that went through ends the watching; an action that
aborts reports an error and is tried again. -/
def WatchedTunnel.tick (env : Natives) (w : WatchedTunnel) (now : UInt64)
    (s : WatchState) : WatchState :=
  if s.watching then
    match w.call (w.action s.tunnel now) with
    | .none => s
    | some call =>
      match exec env s.tunnel ⟨w.address s.tunnel, now, call⟩ with
      | .ok r =>
        { tunnel := r.tunnel
          watching := decide (w.action s.tunnel now ≠ .forceClose) &&
            decide (w.action s.tunnel now ≠ .withdrawTimeout)
          receipts := s.receipts ++ [r] }
      | .error _ => s
  else s

/-- The higher-nonce one of the held update and the state on chain. -/
def WatchedTunnel.higher (w : WatchedTunnel) (t : Tunnel) : StateCommitment :=
  if t.state.nonce.toNat < w.update.nonce.toNat then
    w.update.commitment t.state.timestamp
  else t.state

/-- Polling closes the tunnel, and the recovery paid out `c` with the raiser's
penalty and nothing else. -/
def ClosesWith (env : Natives) (w : WatchedTunnel) (clock : ℕ → UInt64) (t : Tunnel)
    (c : StateCommitment) : Prop :=
  ∃ n a b,
    (polled (w.tick env) clock (WatchState.start t) n).tunnel.status = .closed ∧
    (polled (w.tick env) clock (WatchState.start t) n).tunnel.state.nonce = c.nonce ∧
    Penalised { t with state := c } (w.address t) a b ∧
    (polled (w.tick env) clock (WatchState.start t) n).paid = shares t a b

/-- The contract's guards on an update that do not depend on the time or on the
state it replaces. -/
structure Admissible (t : Tunnel) (u : UpdateArgs) : Prop where
  hashLength : u.stateHash.length = 32
  belowMax : u.nonce.toNat + 1 < 2 ^ 64
  balanced : u.partyABalance.toNat + u.partyBBalance.toNat = t.balance.toNat
  notBefore : t.createdAt.toNat ≤ u.timestamp.toNat

/-- When a recovery starts well. With a newer update in hand, the contract admits it
and the protected party has not itself disputed an older state; with nothing newer,
the other party has not raised the dispute. -/
def WatchedTunnel.Recoverable (w : WatchedTunnel) (t : Tunnel) : Prop :=
  if t.state.nonce.toNat < w.update.nonce.toNat then
    Admissible t w.update ∧
      (t.status = .disputed → t.disputeRaiser ≠ some (w.address t))
  else t.status = .disputed → t.disputeRaiser = some (w.address t)

variable {env : Natives} {w : WatchedTunnel} {t : Tunnel} {s s₀ : WatchState} {r : Receipt}
variable {now : UInt64} {u : UpdateArgs} {history : List Entry} {clock : ℕ → UInt64}
variable {gap horizon i : ℕ} {receipts : List Receipt}

theorem admissible_of_acceptable (h : Acceptable t u now) : Admissible t u :=
  ⟨h.hashLength, h.belowMax, h.balanced, h.notBefore⟩

theorem Admissible.acceptable (h : Admissible t u)
    (hnewer : t.state.nonce.toNat < u.nonce.toNat)
    (htime : u.timestamp.toNat ≤ now.toNat) : Acceptable t u now :=
  ⟨h.hashLength, hnewer, h.belowMax, h.balanced, htime, h.notBefore⟩

theorem action_active (hstatus : t.status = .active) :
    w.action t now =
      if w.lastActivityMs + w.heartbeatTimeoutMs ≤ now.toNat then
        if t.state.nonce.toNat < w.update.nonce.toNat then .raiseDispute
        else .raiseDisputeCurrentState
      else .none := by
  have hsilent : (now.toNat : ℤ) - w.lastActivityMs ≥ w.heartbeatTimeoutMs ↔
      w.lastActivityMs + w.heartbeatTimeoutMs ≤ now.toNat := by
    omega
  simp [WatchedTunnel.action, decideRecovery, WatchedTunnel.fetchLiveness, hstatus, hsilent]

theorem action_disputed (hstatus : t.status = .disputed) :
    w.action t now =
      if t.disputeRaiser = some (w.address t) then
        if t.state.timestamp.toNat + t.timeoutMs.toNat ≤ now.toNat then .forceClose
        else .none
      else if t.state.nonce.toNat < w.update.nonce.toNat then .resolveDispute
      else .none := by
  by_cases hraiser : t.disputeRaiser = some (w.address t) <;>
    simp [WatchedTunnel.action, decideRecovery, WatchedTunnel.fetchLiveness, hstatus,
      hraiser, TunnelLiveness.disputeExpired]

/-- What a poll of a watched tunnel can do. -/
theorem tick_cases (env : Natives) (w : WatchedTunnel) (now : UInt64)
    (hwatching : s.watching = true) :
    w.tick env now s = s ∨
      ∃ call r, w.call (w.action s.tunnel now) = some call ∧
        exec env s.tunnel ⟨w.address s.tunnel, now, call⟩ = .ok r ∧
        w.tick env now s =
          { tunnel := r.tunnel
            watching := decide (w.action s.tunnel now ≠ .forceClose) &&
              decide (w.action s.tunnel now ≠ .withdrawTimeout)
            receipts := s.receipts ++ [r] } := by
  cases hcall : w.call (w.action s.tunnel now) with
  | none => exact .inl (by simp [WatchedTunnel.tick, hcall])
  | some call =>
    cases hexec : exec env s.tunnel ⟨w.address s.tunnel, now, call⟩ with
    | error =>
      exact .inl (by simp [WatchedTunnel.tick, hcall, hexec])
    | ok r =>
      simp [WatchedTunnel.tick, hwatching, hcall, hexec]

theorem tick_unwatched (hwatching : s.watching = false) : w.tick env now s = s := by
  simp [WatchedTunnel.tick, hwatching]

/-- After `i` polls the tunnel is `t`, still watched, and no coin was sent. -/
structure Pending (env : Natives) (w : WatchedTunnel) (clock : ℕ → UInt64)
    (s₀ : WatchState) (i : ℕ) (t : Tunnel) (receipts : List Receipt) : Prop where
  polled_eq : polled (w.tick env) clock s₀ i = ⟨t, true, receipts⟩
  unpaid : receipts.flatMap (·.transfers) = []
  reachable : ∃ history, (tunnelSystem env).Run history t

theorem Pending.wellFormed (hpending : Pending env w clock s₀ i t receipts) : WellFormed t := by
  obtain ⟨_, hrun⟩ := hpending.reachable
  exact reachable_wellFormed hrun

/-- An action that is the only one taken and that goes through from some time on is
carried out. -/
theorem Pending.leads {call : Call} {action : RecoveryAction} {due : ℕ}
    (hpending : Pending env w clock s₀ i t receipts) (hclock : Polls gap horizon clock)
    (hcall : w.call action = some call)
    (honly : ∀ now, w.action t now = action ∨ w.action t now = .none)
    (hdue : ∀ now, due ≤ now.toNat → w.action t now = action ∧
      ∃ r, exec env t ⟨w.address t, now, call⟩ = .ok r)
    (hroom : max (clock (i - 1)).toNat due + gap ≤ horizon) :
    ∃ k r, (clock k).toNat ≤ max (clock (i - 1)).toNat due + gap ∧
      exec env t ⟨w.address t, clock k, call⟩ = .ok r ∧
      polled (w.tick env) clock s₀ (k + 1) =
        { tunnel := r.tunnel
          watching := decide (action ≠ .forceClose) && decide (action ≠ .withdrawTimeout)
          receipts := receipts ++ [r] } := by
  let done := fun (now : UInt64) (s : WatchState) =>
    ∃ r, exec env t ⟨w.address t, now, call⟩ = .ok r ∧
      s = ⟨r.tunnel, decide (action ≠ .forceClose) && decide (action ≠ .withdrawTimeout),
        receipts ++ [r]⟩
  have hstay : ∀ now, w.tick env now ⟨t, true, receipts⟩ = ⟨t, true, receipts⟩ ∨
      done now (w.tick env now ⟨t, true, receipts⟩) := by
    intro now
    rcases tick_cases env w now (s := ⟨t, true, receipts⟩) rfl with
      hsame | ⟨call', r, hcall', hexec, htick⟩
    · exact .inl hsame
    · rcases honly now with haction | haction
      · rw [haction, hcall, Option.some.injEq] at hcall'
        subst hcall'
        exact .inr ⟨r, hexec, by rw [htick, haction]⟩
      · rw [haction] at hcall'
        cases hcall'
  have hdone : ∀ now : UInt64, due ≤ now.toNat →
      done now (w.tick env now ⟨t, true, receipts⟩) := by
    intro now hnow
    obtain ⟨haction, r, hexec⟩ := hdue now hnow
    exact ⟨r, hexec, by simp [WatchedTunnel.tick, haction, hcall, hexec]⟩
  obtain ⟨k, hbefore, r, hexec, hpolled⟩ :=
    hclock.leads hroom hpending.polled_eq hstay hdone
  exact ⟨k, r, hbefore, hexec, hpolled⟩

/-- A watched tunnel is pending again after an action that sends no coin. -/
theorem Pending.step {tx : Tx} {k : ℕ} (hpending : Pending env w clock s₀ i t receipts)
    (hexec : exec env t tx = .ok r) (htransfers : r.transfers = [])
    (hpolled : polled (w.tick env) clock s₀ k = ⟨r.tunnel, true, receipts ++ [r]⟩) :
    Pending env w clock s₀ k r.tunnel (receipts ++ [r]) := by
  obtain ⟨_, hrun⟩ := hpending.reachable
  refine ⟨hpolled, ?_, _, hrun.step ⟨tx, r, hexec, rfl, rfl⟩⟩
  rw [List.flatMap_append, hpending.unpaid]
  simpa using htransfers

/-- Polling from `s₀` closes the tunnel on the state of `t`. -/
def Settles (env : Natives) (w : WatchedTunnel) (clock : ℕ → UInt64) (s₀ : WatchState)
    (t : Tunnel) : Prop :=
  ∃ n a b,
    (polled (w.tick env) clock s₀ n).tunnel.status = .closed ∧
    (polled (w.tick env) clock s₀ n).tunnel.state.nonce = t.state.nonce ∧
    Penalised t (w.address t) a b ∧
    (polled (w.tick env) clock s₀ n).paid = shares t a b

theorem address_eq (w : WatchedTunnel) (t : Tunnel) :
    w.address t = t.partyA.address ∨ w.address t = t.partyB.address := by
  cases hside : w.isPartyA <;> simp [WatchedTunnel.address, Tunnel.party, hside]

section

variable (hpending : Pending env w clock s₀ i t receipts) (hclock : Polls gap horizon clock)
include hpending hclock

/-- A dispute the protected party raised is closed on the disputed state. -/
theorem settles_of_raiser (hstatus : t.status = .disputed)
    (hraiser : t.disputeRaiser = some (w.address t))
    (hroom : max (clock (i - 1)).toNat (t.state.timestamp.toNat + t.timeoutMs.toNat) +
      gap ≤ horizon) :
    Settles env w clock s₀ t := by
  have hwf := hpending.wellFormed
  have honly : ∀ now, w.action t now = .forceClose ∨ w.action t now = .none := by
    intro now
    rw [action_disputed hstatus, if_pos hraiser]
    split <;> simp
  obtain ⟨k, _, -, hexec, hpolled⟩ := hpending.leads hclock rfl honly
    (fun now hnow => ⟨by rw [action_disputed hstatus, if_pos hraiser, if_pos hnow],
      forceCloseAfterTimeout_succeeds hwf hstatus hraiser hnow⟩) hroom
  obtain ⟨-, -, -, -, -, a, b, hshares, -, rfl⟩ := forceCloseAfterTimeout_ok_iff.mp hexec
  refine ⟨k + 1, a, b, ?_, ?_, hshares, ?_⟩ <;> rw [hpolled]
  · rfl
  · rfl
  · simp [WatchState.paid, hpending.unpaid]

/-- An active tunnel with nothing newer in hand is closed on its state. -/
theorem settles_of_active (hstatus : t.status = .active)
    (hold : w.update.nonce.toNat ≤ t.state.nonce.toNat)
    (hroom : max (clock (i - 1)).toNat (w.lastActivityMs + w.heartbeatTimeoutMs) +
      t.timeoutMs.toNat + 2 * gap ≤ horizon) :
    Settles env w clock s₀ t := by
  have hwf := hpending.wellFormed
  have honly : ∀ now, w.action t now = .raiseDisputeCurrentState ∨
      w.action t now = .none := by
    intro now
    rw [action_active hstatus, if_neg (not_lt.mpr hold)]
    split <;> simp
  obtain ⟨k, _, _, hexec, hpolled⟩ := hpending.leads hclock rfl honly
    (fun now hnow => ⟨by
        rw [action_active hstatus, if_pos hnow, if_neg (not_lt.mpr hold)],
      raiseDisputeCurrentState_succeeds now hwf hstatus (address_eq w t)⟩) (by omega)
  have hnext := hexec
  obtain ⟨-, -, -, -, -, _, -, rfl⟩ := raiseDisputeCurrentState_ok_iff.mp hexec
  have hroom' : max (clock k).toNat ((clock k).toNat + t.timeoutMs.toNat) + gap ≤ horizon := by
    omega
  exact (settles_of_raiser (hpending.step hnext rfl hpolled) hclock rfl rfl hroom' :)

/-- An active tunnel with a newer admissible update in hand is closed on the update. -/
theorem settles_of_active_newer (hstatus : t.status = .active)
    (hnewer : t.state.nonce.toNat < w.update.nonce.toNat) (hadmissible : Admissible t w.update)
    (hsigned : Verifies env (otherParty t w.isPartyA) (w.update.message t.id)
      (if w.isPartyA then w.sigB else w.sigA))
    (hroom : max (clock (i - 1)).toNat (max (w.lastActivityMs + w.heartbeatTimeoutMs)
      w.update.timestamp.toNat) + t.timeoutMs.toNat + 2 * gap ≤ horizon) :
    Settles env w clock s₀ { t with state := w.update.commitment 0 } := by
  have hwf := hpending.wellFormed
  have honly : ∀ now, w.action t now = .raiseDispute ∨ w.action t now = .none := by
    intro now
    rw [action_active hstatus, if_pos hnewer]
    split <;> simp
  have hmark := hwf.mark (.inr hstatus)
  have hraise : ∀ now : UInt64, w.update.timestamp.toNat ≤ now.toNat →
      ∃ r, exec env t ⟨w.address t, now, .raiseDispute w.update
        (if w.isPartyA then w.sigB else w.sigA)⟩ = .ok r := by
    intro now hnow
    refine ⟨_, raiseDispute_ok_iff.mpr ⟨hwf.version, hstatus,
      hadmissible.acceptable hnewer hnow, by omega, w.isPartyA, partyOf_self hwf _, hsigned,
      w.update.nonce + 1, ?_, rfl⟩⟩
    have hfits := hadmissible.belowMax
    exact toNat_add_of_fits (by simpa using hfits)
  obtain ⟨k, _, _, hexec, hpolled⟩ := hpending.leads hclock rfl honly
    (fun now hnow => ⟨by
        rw [action_active hstatus, if_pos (le_of_max_le_left hnow), if_pos hnewer],
      hraise now (le_of_max_le_right hnow)⟩) (by omega)
  have hnext := hexec
  obtain ⟨-, -, -, -, -, -, -, _, -, rfl⟩ := raiseDispute_ok_iff.mp hexec
  have hroom' : max (clock k).toNat ((clock k).toNat + t.timeoutMs.toNat) + gap ≤ horizon := by
    omega
  exact (settles_of_raiser (hpending.step hnext rfl hpolled) hclock rfl rfl hroom' :)

/-- A dispute of the other party is answered with a newer admissible update, and the
tunnel is closed on the update. -/
theorem settles_of_answer (hstatus : t.status = .disputed)
    (hraiser : t.disputeRaiser ≠ some (w.address t))
    (hnewer : t.state.nonce.toNat < w.update.nonce.toNat) (hadmissible : Admissible t w.update)
    (hsignedA : Verifies env t.partyA (w.update.message t.id) w.sigA)
    (hsignedB : Verifies env t.partyB (w.update.message t.id) w.sigB)
    (hroom : max (clock (i - 1)).toNat (max (w.lastActivityMs + w.heartbeatTimeoutMs)
      w.update.timestamp.toNat) + t.timeoutMs.toNat + 3 * gap ≤ horizon) :
    Settles env w clock s₀ { t with state := w.update.commitment 0 } := by
  have hwf := hpending.wellFormed
  have hanswer : ∀ now, w.action t now = .resolveDispute := by
    intro now
    rw [action_disputed hstatus, if_neg hraiser, if_pos hnewer]
  have hresolve : ∀ now : UInt64, w.update.timestamp.toNat ≤ now.toNat →
      ∃ r, exec env t ⟨w.address t, now, .resolveDispute w.update w.sigA w.sigB⟩ = .ok r := by
    intro now hnow
    exact ⟨_, resolveDispute_ok_iff.mpr ⟨hwf.version, hstatus,
      hadmissible.acceptable hnewer hnow, hsignedA, hsignedB, rfl⟩⟩
  obtain ⟨k, _, _, hexec, hpolled⟩ := hpending.leads hclock rfl
    (fun now => .inl (hanswer now))
    (fun now hnow => ⟨hanswer now, hresolve now hnow⟩) (by omega)
  have hnext := hexec
  obtain ⟨-, -, -, -, -, rfl⟩ := resolveDispute_ok_iff.mp hexec
  have hroom' : max (clock k).toNat (w.lastActivityMs + w.heartbeatTimeoutMs) +
      t.timeoutMs.toNat + 2 * gap ≤ horizon := by
    omega
  exact (settles_of_active (hpending.step hnext rfl hpolled) hclock rfl le_rfl
    hroom' :)

end

theorem polled_of_abort (clock : ℕ → UInt64) (n : ℕ)
    (habort : ∀ now call r, w.call (w.action t now) = some call →
      exec env t ⟨w.address t, now, call⟩ ≠ .ok r) :
    polled (w.tick env) clock (WatchState.start t) n = WatchState.start t := by
  apply polled_invariant (I := fun s => s = WatchState.start t) rfl
  rintro now _ rfl
  rcases tick_cases env w now (s := WatchState.start t) rfl with
    hsame | ⟨call, r, hcall, hexec, -⟩
  · exact hsame
  · exact absurd hexec (habort now call r hcall)

/-- The watchtower waits for a silent raiser when it holds nothing newer. -/
theorem polled_of_other_raiser (clock : ℕ → UInt64) (n : ℕ)
    (hstatus : t.status = .disputed) (hraiser : t.disputeRaiser ≠ some (w.address t))
    (hold : w.update.nonce.toNat ≤ t.state.nonce.toNat) :
    polled (w.tick env) clock (WatchState.start t) n = WatchState.start t := by
  apply polled_of_abort
  intro now call r hcall
  rw [action_disputed hstatus, if_neg hraiser, if_neg (not_lt.mpr hold)] at hcall
  cases hcall

/-- A newer update that the contract does not admit is submitted again and again. -/
theorem polled_of_inadmissible (clock : ℕ → UInt64) (n : ℕ)
    (hstatus : t.status = .active ∨
      t.status = .disputed ∧ t.disputeRaiser ≠ some (w.address t))
    (hnewer : t.state.nonce.toNat < w.update.nonce.toNat)
    (hadmissible : ¬Admissible t w.update) :
    polled (w.tick env) clock (WatchState.start t) n = WatchState.start t := by
  apply polled_of_abort
  intro now call r hcall hexec
  apply hadmissible
  rcases hstatus with hactive | ⟨hdisputed, hraiser⟩
  · rw [action_active hactive, if_pos hnewer] at hcall
    split at hcall
    · cases hcall
      obtain ⟨-, -, hacceptable, -⟩ := raiseDispute_ok_iff.mp hexec
      exact admissible_of_acceptable hacceptable
    · cases hcall
  · rw [action_disputed hdisputed, if_neg hraiser, if_pos hnewer] at hcall
    cases hcall
    obtain ⟨-, -, hacceptable, -⟩ := resolveDispute_ok_iff.mp hexec
    exact admissible_of_acceptable hacceptable

/-- A dispute the protected party raised ends on the disputed nonce. -/
theorem nonce_of_raiser (clock : ℕ → UInt64) (n : ℕ) (hstatus : t.status = .disputed)
    (hraiser : t.disputeRaiser = some (w.address t)) :
    (polled (w.tick env) clock (WatchState.start t) n).tunnel.state.nonce =
      t.state.nonce := by
  have hkept : polled (w.tick env) clock (WatchState.start t) n = WatchState.start t ∨
      (polled (w.tick env) clock (WatchState.start t) n).watching = false ∧
      (polled (w.tick env) clock (WatchState.start t) n).tunnel.state.nonce =
        t.state.nonce := by
    apply polled_invariant (I := fun s => s = WatchState.start t ∨
      s.watching = false ∧ s.tunnel.state.nonce = t.state.nonce) (.inl rfl)
    rintro now s (rfl | ⟨hwatching, hnonce⟩)
    · rcases tick_cases env w now (s := WatchState.start t) rfl with
        hsame | ⟨call, r, hcall, hexec, htick⟩
      · exact .inl hsame
      · have haction : w.action t now = .forceClose := by
          simp only [WatchState.start, action_disputed hstatus, if_pos hraiser] at hcall ⊢
          split at hcall
          · rw [if_pos ‹_›]
          · cases hcall
        simp only [WatchState.start, haction, WatchedTunnel.call, Option.some.injEq] at hcall
        subst hcall
        obtain ⟨-, -, -, -, -, _, _, -, -, rfl⟩ := forceCloseAfterTimeout_ok_iff.mp hexec
        rw [htick]
        exact .inr ⟨by simp [WatchState.start, haction], rfl⟩
    · rw [tick_unwatched hwatching]
      exact .inr ⟨hwatching, hnonce⟩
  rcases hkept with hstart | ⟨-, hnonce⟩
  · rw [hstart]
    rfl
  · exact hnonce

/-- The time from which nothing but the dispute timeout is waited for: the first poll,
the end of the tolerated silence, the start of a running dispute, and the timestamp of
a newer update. -/
def WatchedTunnel.readyAt (w : WatchedTunnel) (t : Tunnel) (first : UInt64) : ℕ :=
  max (max first.toNat t.state.timestamp.toNat)
    (max (w.lastActivityMs + w.heartbeatTimeoutMs)
      (if t.state.nonce.toNat < w.update.nonce.toNat then w.update.timestamp.toNat else 0))

theorem closesWith_of_recoverable (hrun : (tunnelSystem env).Run history t)
    (hstatus : t.status = .active ∨ t.status = .disputed)
    (hsignedA : Verifies env t.partyA (w.update.message t.id) w.sigA)
    (hsignedB : Verifies env t.partyB (w.update.message t.id) w.sigB)
    (hclock : Polls gap horizon clock)
    (hroom : w.readyAt t (clock 0) + t.timeoutMs.toNat + 3 * gap ≤ horizon)
    (hrecoverable : w.Recoverable t) : ClosesWith env w clock t (w.higher t) := by
  have hpending : Pending env w clock (WatchState.start t) 0 t [] :=
    ⟨rfl, rfl, history, hrun⟩
  unfold WatchedTunnel.Recoverable at hrecoverable
  unfold WatchedTunnel.readyAt at hroom
  unfold WatchedTunnel.higher
  split at hrecoverable
  case isTrue hnewer =>
    obtain ⟨hadmissible, hraiser⟩ := hrecoverable
    rw [if_pos hnewer] at hroom ⊢
    rcases hstatus with hactive | hdisputed
    · have hsigned : Verifies env (otherParty t w.isPartyA) (w.update.message t.id)
          (if w.isPartyA then w.sigB else w.sigA) := by
        cases w.isPartyA with
        | true => exact hsignedB
        | false => exact hsignedA
      exact (settles_of_active_newer hpending hclock hactive hnewer hadmissible
        hsigned (by simp only [Nat.zero_sub]; omega) :)
    · exact (settles_of_answer hpending hclock hdisputed (hraiser hdisputed)
        hnewer hadmissible hsignedA hsignedB (by simp only [Nat.zero_sub]; omega) :)
  case isFalse hold =>
    rw [if_neg hold] at hroom ⊢
    rw [not_lt] at hold
    rcases hstatus with hactive | hdisputed
    · exact (settles_of_active hpending hclock hactive hold
        (by simp only [Nat.zero_sub]; omega) :)
    · exact (settles_of_raiser hpending hclock hdisputed (hrecoverable hdisputed)
        (by simp only [Nat.zero_sub]; omega) :)

theorem recoverable_of_closesWith
    (hstatus : t.status = .active ∨ t.status = .disputed)
    (hcloses : ClosesWith env w clock t (w.higher t)) : w.Recoverable t := by
  obtain ⟨n, _, _, hclosed, hnonce, -⟩ := hcloses
  have hmoved : polled (w.tick env) clock (WatchState.start t) n ≠ WatchState.start t := by
    intro hstart
    rw [hstart] at hclosed
    change t.status = .closed at hclosed
    rw [hclosed] at hstatus
    simp at hstatus
  unfold WatchedTunnel.Recoverable
  split
  case isTrue hnewer =>
    have hraiser : t.status = .disputed → t.disputeRaiser ≠ some (w.address t) := by
      intro hdisputed hraiser
      rw [nonce_of_raiser clock n hdisputed hraiser, WatchedTunnel.higher, if_pos hnewer]
        at hnonce
      rw [hnonce] at hnewer
      exact lt_irrefl _ hnewer
    refine ⟨?_, hraiser⟩
    by_contra hadmissible
    apply hmoved
    apply polled_of_inadmissible clock n ?_ hnewer hadmissible
    exact hstatus.imp_right fun hdisputed => ⟨hdisputed, hraiser hdisputed⟩
  case isFalse hold =>
    intro hdisputed
    by_contra hraiser
    exact hmoved (polled_of_other_raiser clock n hdisputed hraiser (not_lt.mp hold))

/-- The watchtower's liveness against a silent counterparty. From every reachable active
or disputed tunnel, with any update that both parties signed, polling closes the tunnel
and pays out the higher-nonce one of the update and the state on chain exactly when the
recovery starts well. -/
theorem recovers_iff_recoverable (hrun : (tunnelSystem env).Run history t)
    (hstatus : t.status = .active ∨ t.status = .disputed)
    (hsignedA : Verifies env t.partyA (w.update.message t.id) w.sigA)
    (hsignedB : Verifies env t.partyB (w.update.message t.id) w.sigB)
    (hclock : Polls gap horizon clock)
    (hroom : w.readyAt t (clock 0) + t.timeoutMs.toNat + 3 * gap ≤ horizon) :
    ClosesWith env w clock t (w.higher t) ↔ w.Recoverable t :=
  ⟨recoverable_of_closesWith hstatus,
    closesWith_of_recoverable hrun hstatus hsignedA hsignedB hclock hroom⟩

namespace Sample

open Move.Sample

/-- Alice is protected and holds the newest update. -/
def watched : WatchedTunnel := ⟨true, newest, sig, sig, 0, 5⟩

/-- A poll every millisecond for two seconds. -/
def everyMs (n : ℕ) : UInt64 := UInt64.ofNat (min n 2000)

theorem everyMs_polls : Polls 1 2000 everyMs := by
  have htime : ∀ n, (everyMs n).toNat = min n 2000 := by
    intro n
    exact UInt64.toNat_ofNat_of_lt' (by simp only [UInt64.size]; omega)
  refine ⟨?_, ?_⟩
  · intro m n hle
    simp only [htime]
    omega
  · intro time _ hroom
    refine ⟨time + 1, ?_⟩
    rw [htime]
    omega

/-- Bob disputes with the newest update. -/
def raisedByBob : Tx := ⟨bob, 12, .raiseDispute newest sig⟩

end Sample

theorem recovers_iff_recoverable_active :
    (∃ history, (tunnelSystem Move.Sample.newestOnly).Run history Move.Sample.opened) ∧
    Polls 1 2000 Sample.everyMs ∧
    ClosesWith Move.Sample.newestOnly Sample.watched Sample.everyMs Move.Sample.opened
      (Move.Sample.newest.commitment 10) := by
  obtain ⟨history, hrun⟩ := Move.Sample.opened_reachable
  have hrecoverable : Sample.watched.Recoverable Move.Sample.opened := by
    unfold WatchedTunnel.Recoverable
    rw [if_pos (by decide)]
    exact ⟨⟨by decide, by decide, by decide, by decide⟩, by decide⟩
  exact ⟨⟨history, hrun⟩, Sample.everyMs_polls,
    (recovers_iff_recoverable hrun (.inl rfl) (by decide +kernel) (by decide +kernel)
      Sample.everyMs_polls (by decide +kernel)).mpr hrecoverable⟩

/-- Bob disputes with the newest update and vanishes. Alice holds the same update, so the
watchtower waits forever, although the contract lets her agree to the dispute. -/
theorem silent_raiser_never_closed : ∃ history t,
    (tunnelSystem Move.Sample.newestOnly).Run history t ∧ t.status = .disputed ∧
    Verifies Move.Sample.newestOnly t.partyA (Sample.watched.update.message t.id)
      Sample.watched.sigA ∧
    Verifies Move.Sample.newestOnly t.partyB (Sample.watched.update.message t.id)
      Sample.watched.sigB ∧
    ∀ clock n, (polled (Sample.watched.tick Move.Sample.newestOnly) clock
      (WatchState.start t) n).tunnel.status = .disputed := by
  obtain ⟨_, hrun⟩ := Move.Sample.opened_reachable
  obtain ⟨r, hexec, hafter⟩ := Move.Sample.exec_after Move.Sample.opened Sample.raisedByBob
    (by decide +kernel)
  refine ⟨_, r.tunnel, hrun.step ⟨_, r, hexec, rfl, rfl⟩, ?_, ?_, ?_, ?_⟩
  · rw [hafter]
    decide +kernel
  · rw [hafter]
    decide +kernel
  · rw [hafter]
    decide +kernel
  · intro clock n
    rw [polled_of_other_raiser clock n, hafter]
    · decide +kernel
    · rw [hafter]
      decide +kernel
    · rw [hafter]
      decide +kernel
    · rw [hafter]
      decide +kernel

end DopamintArena.Recovery
