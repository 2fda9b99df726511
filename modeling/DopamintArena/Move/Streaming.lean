import DopamintArena.Foundation.Runs
import DopamintArena.Move.Tunnel.State

/-!
`streaming_payment.move`: funds that unlock linearly from the sender to the
recipient, with partial withdrawals, cancellation and top-ups.

The clock argument is `clock.timestamp_ms()` and `caller` is `ctx.sender()`.
Products are taken in `u128`, where two 64-bit values always fit, so they are
natural numbers; narrowing the quotient back to `u64` may abort. The memo is
never read and is left out.
-/

namespace DopamintArena.Move.Streaming

open Foundation

inductive Abort
  | notAuthorized
  | invalidState
  | invalidParameter
  | timeoutReached
  | invalidParties
  | invalidTimeout
  | insufficientBalance
  | invalidDepositAmount
  /-- Overflow, underflow, division by zero or a narrowing cast. -/
  | arithmeticError
  /-- `sui::balance::split` of more than the balance. -/
  | notEnough
deriving DecidableEq

inductive StreamStatus
  | active
  | completed
  | cancelled
deriving DecidableEq

def minDurationMs : UInt64 := 60000

structure PaymentStream where
  id : Address
  sender : Address
  recipient : Address
  totalAmount : UInt64
  withdrawnAmount : UInt64
  funds : UInt64
  startTimeMs : UInt64
  endTimeMs : UInt64
  status : StreamStatus
deriving DecidableEq

structure WithdrawalReceipt where
  streamId : Bytes
  amount : UInt64
  timestampMs : UInt64
  totalWithdrawn : UInt64
deriving DecidableEq

structure CancellationReceipt where
  streamId : Bytes
  refundedAmount : UInt64
  recipientReceived : UInt64
  timestampMs : UInt64
deriving DecidableEq

inductive StreamEvent
  | created (sender recipient : Address) (totalAmount startTimeMs endTimeMs : UInt64)
  | withdrawn (recipient : Address) (amount totalWithdrawn : UInt64)
  | cancelled (sender recipient : Address) (refundedAmount recipientReceived : UInt64)
  | completed (sender recipient : Address) (totalAmount : UInt64)
  | topUp (sender : Address) (amount : UInt64)
deriving DecidableEq

/-- What a successful call leaves behind: the stream, the coins transferred in
order, the events and the returned receipt. -/
structure Outcome (receipt : Type) where
  stream : PaymentStream
  transfers : List Transfer := []
  events : List StreamEvent := []
  returned : receipt

def add (x y : UInt64) : Except Abort UInt64 := checkedAdd .arithmeticError x y

def sub (x y : UInt64) : Except Abort UInt64 := checkedSub .arithmeticError x y

/-- `balance::split`: the value that remains. -/
def split (balance amount : UInt64) : Except Abort UInt64 :=
  checkedSub .notEnough balance amount

def createStream (id caller recipient : Address) (payment durationMs now : UInt64) :
    Except Abort (Outcome Unit) := do
  require (caller ≠ recipient) .invalidParties
  require (payment > 0) .invalidDepositAmount
  require (durationMs ≥ minDurationMs) .invalidTimeout
  let endTimeMs ← add now durationMs
  pure
    { stream :=
        { id := id, sender := caller, recipient := recipient
          totalAmount := payment, withdrawnAmount := 0, funds := payment
          startTimeMs := now, endTimeMs := endTimeMs, status := .active }
      events := [.created caller recipient payment now endTimeMs]
      returned := () }

def calculateUnlocked (stream : PaymentStream) (currentTimeMs : UInt64) :
    Except Abort UInt64 :=
  if currentTimeMs ≤ stream.startTimeMs then
    pure 0
  else if currentTimeMs ≥ stream.endTimeMs then
    pure stream.totalAmount
  else do
    let elapsed ← sub currentTimeMs stream.startTimeMs
    let duration ← sub stream.endTimeMs stream.startTimeMs
    require (duration ≠ 0) .arithmeticError
    checkedCast .arithmeticError
      (stream.totalAmount.toNat * elapsed.toNat / duration.toNat)

/-- The end of both withdrawals: record the new total, complete the stream if
nothing is left and pay the recipient. -/
def payRecipient (stream : PaymentStream) (amount withdrawnAmount now : UInt64) :
    Except Abort (Outcome WithdrawalReceipt) := do
  let status :=
    if withdrawnAmount ≥ stream.totalAmount then .completed else stream.status
  let funds ← split stream.funds amount
  pure
    { stream :=
        { stream with
          withdrawnAmount := withdrawnAmount, funds := funds, status := status }
      transfers := [⟨amount, stream.recipient⟩]
      events := .withdrawn stream.recipient amount withdrawnAmount ::
        if status = .completed then
          [.completed stream.sender stream.recipient stream.totalAmount]
        else []
      returned := ⟨stream.id.bytes, amount, now, withdrawnAmount⟩ }

def withdraw (stream : PaymentStream) (caller : Address) (now : UInt64) :
    Except Abort (Outcome WithdrawalReceipt) := do
  require (caller = stream.recipient) .notAuthorized
  require (stream.status = .active) .invalidState
  let unlocked ← calculateUnlocked stream now
  let available ← sub unlocked stream.withdrawnAmount
  require (available > 0) .insufficientBalance
  payRecipient stream available unlocked now

def withdrawAmount (stream : PaymentStream) (amount : UInt64) (caller : Address)
    (now : UInt64) : Except Abort (Outcome WithdrawalReceipt) := do
  require (caller = stream.recipient) .notAuthorized
  require (stream.status = .active) .invalidState
  let unlocked ← calculateUnlocked stream now
  let available ← sub unlocked stream.withdrawnAmount
  require (amount > 0 ∧ amount ≤ available) .insufficientBalance
  let withdrawnAmount ← add stream.withdrawnAmount amount
  payRecipient stream amount withdrawnAmount now

/-- Splits off `amount` for `recipient`, or does nothing when it is zero. -/
def payIfPositive (funds amount : UInt64) (recipient : Address) :
    Except Abort (UInt64 × List Transfer) :=
  if amount > 0 then do
    let remaining ← split funds amount
    pure (remaining, [⟨amount, recipient⟩])
  else
    pure (funds, [])

/-- The sender's refund is all that remains, not the computed amount. -/
def refundIfPositive (funds refundAmount : UInt64) (sender : Address) :
    Except Abort (UInt64 × List Transfer) :=
  if refundAmount > 0 then do
    let remaining ← split funds funds
    pure (remaining, [⟨funds, sender⟩])
  else
    pure (funds, [])

def cancelStream (stream : PaymentStream) (caller : Address) (now : UInt64) :
    Except Abort (Outcome CancellationReceipt) := do
  require (caller = stream.sender) .notAuthorized
  require (stream.status = .active) .invalidState
  let unlocked ← calculateUnlocked stream now
  let recipientOwed ← sub unlocked stream.withdrawnAmount
  let refundAmount ← sub stream.funds recipientOwed
  let afterOwed ← payIfPositive stream.funds recipientOwed stream.recipient
  let afterRefund ← refundIfPositive afterOwed.1 refundAmount stream.sender
  let received ← add stream.withdrawnAmount recipientOwed
  pure
    { stream := { stream with status := .cancelled, funds := afterRefund.1 }
      transfers := afterOwed.2 ++ afterRefund.2
      events := [.cancelled stream.sender stream.recipient refundAmount received]
      returned := ⟨stream.id.bytes, refundAmount, received, now⟩ }

def topUp (stream : PaymentStream) (additional additionalDurationMs : UInt64)
    (caller : Address) (now : UInt64) : Except Abort (Outcome Unit) := do
  require (caller = stream.sender) .notAuthorized
  require (stream.status = .active) .invalidState
  require (now < stream.endTimeMs) .timeoutReached
  require (additional > 0) .invalidDepositAmount
  require (additionalDurationMs > 0) .invalidParameter
  let prevUnlocked ← calculateUnlocked stream now
  let totalAmount ← add stream.totalAmount additional
  let funds ← add stream.funds additional
  let endTimeMs ← add stream.endTimeMs additionalDurationMs
  let extended :=
    { stream with totalAmount := totalAmount, funds := funds, endTimeMs := endTimeMs }
  let newUnlocked ← calculateUnlocked extended now
  require (newUnlocked ≥ prevUnlocked) .invalidParameter
  pure { stream := extended, events := [.topUp caller additional], returned := () }

/-!
The unlock line over the natural numbers.
-/

/-- What has unlocked of `total` at time `t` on the line from `start` to `stop`. -/
def unlockedBy (total start stop t : Nat) : Nat :=
  if t ≤ start then 0
  else if stop ≤ t then total
  else total * (t - start) / (stop - start)

section Line

variable {total start stop t later : Nat}

theorem unlockedBy_le : unlockedBy total start stop t ≤ total := by
  unfold unlockedBy
  split
  · exact Nat.zero_le _
  · split
    · exact Nat.le_refl _
    · refine Nat.div_le_of_le_mul ?_
      rw [Nat.mul_comm]
      exact Nat.mul_le_mul_right _ (by omega)

theorem unlockedBy_of_le (hline : start < stop) (ht : stop ≤ t) :
    unlockedBy total start stop t = total := by
  unfold unlockedBy
  rw [if_neg (by omega), if_pos ht]

theorem unlockedBy_mono (hline : start < stop) (htime : t ≤ later) :
    unlockedBy total start stop t ≤ unlockedBy total start stop later := by
  by_cases hend : stop ≤ later
  · rw [unlockedBy_of_le hline hend]
    exact unlockedBy_le
  · by_cases hstart : t ≤ start
    · unfold unlockedBy
      rw [if_pos hstart]
      exact Nat.zero_le _
    · unfold unlockedBy
      rw [if_neg hstart, if_neg (by omega), if_neg (by omega), if_neg hend]
      exact Nat.div_le_div_right (Nat.mul_le_mul_left _ (by omega))

end Line

def PaymentStream.unlockedAt (stream : PaymentStream) (now : UInt64) : Nat :=
  unlockedBy stream.totalAmount.toNat stream.startTimeMs.toNat stream.endTimeMs.toNat now.toNat

/-- `calculate_unlocked` never aborts and follows the line. -/
theorem calculateUnlocked_eq (stream : PaymentStream) (now : UInt64) :
    ∃ unlocked, calculateUnlocked stream now = .ok unlocked ∧
      unlocked.toNat = stream.unlockedAt now := by
  unfold calculateUnlocked PaymentStream.unlockedAt
  by_cases hstart : now ≤ stream.startTimeMs
  · refine ⟨0, if_pos hstart, ?_⟩
    rw [unlockedBy, if_pos (UInt64.le_iff_toNat_le.mp hstart), UInt64.toNat_zero]
  · rw [if_neg hstart]
    rw [UInt64.le_iff_toNat_le] at hstart
    by_cases hend : stream.endTimeMs ≤ now
    · refine ⟨stream.totalAmount, if_pos hend, ?_⟩
      rw [unlockedBy, if_neg hstart, if_pos (UInt64.le_iff_toNat_le.mp hend)]
    · rw [if_neg hend]
      rw [UInt64.le_iff_toNat_le] at hend
      have hstop := stream.endTimeMs.toNat_lt
      obtain ⟨elapsed, helapsed⟩ : ∃ elapsed : UInt64,
          elapsed.toNat = now.toNat - stream.startTimeMs.toNat := exists_toNat_eq (by omega)
      obtain ⟨duration, hduration⟩ : ∃ duration : UInt64,
          duration.toNat = stream.endTimeMs.toNat - stream.startTimeMs.toNat :=
        exists_toNat_eq (by omega)
      have hvalue : unlockedBy stream.totalAmount.toNat stream.startTimeMs.toNat
          stream.endTimeMs.toNat now.toNat =
            stream.totalAmount.toNat * elapsed.toNat / duration.toNat := by
        rw [unlockedBy, if_neg hstart, if_neg hend, helapsed, hduration]
      have hfits : stream.totalAmount.toNat * elapsed.toNat / duration.toNat < 2 ^ 64 :=
        hvalue ▸ Nat.lt_of_le_of_lt unlockedBy_le stream.totalAmount.toNat_lt
      obtain ⟨unlocked, hunlocked⟩ := exists_toNat_eq hfits
      refine ⟨unlocked, ?_, hunlocked.trans hvalue.symm⟩
      simp only [sub, bind_ok_iff, checkedSub_ok_iff, require_ok_iff, checkedCast_ok_iff]
      refine ⟨elapsed, by omega, duration, by omega, ⟨⟩, ?_, hunlocked⟩
      rw [Ne, ← UInt64.toNat_inj, UInt64.toNat_zero]
      omega

theorem calculateUnlocked_ok_iff {stream : PaymentStream} {now unlocked : UInt64} :
    calculateUnlocked stream now = .ok unlocked ↔ unlocked.toNat = stream.unlockedAt now := by
  obtain ⟨_, hok, hvalue⟩ := calculateUnlocked_eq stream now
  rw [hok, Except.ok.injEq, ← UInt64.toNat_inj, hvalue, eq_comm]

/-!
What a successful call does to the stream and to the coins.
-/

/-- The calls on an existing stream. -/
inductive StreamCall
  | withdraw
  | withdrawAmount (amount : UInt64)
  | cancelStream
  | topUp (additional additionalDurationMs : UInt64)

/-- The stream and the transfers a call leaves; its receipt goes to the caller. -/
def call (stream : PaymentStream) (caller : Address) (now : UInt64) :
    StreamCall → Except Abort (PaymentStream × List Transfer)
  | .withdraw => (withdraw stream caller now).map fun o => (o.stream, o.transfers)
  | .withdrawAmount amount =>
    (withdrawAmount stream amount caller now).map fun o => (o.stream, o.transfers)
  | .cancelStream => (cancelStream stream caller now).map fun o => (o.stream, o.transfers)
  | .topUp additional additionalDurationMs =>
    (topUp stream additional additionalDurationMs caller now).map fun o =>
      (o.stream, o.transfers)

/-- Everything a successful call can do. -/
inductive Effect (stream : PaymentStream) (now : UInt64) :
    StreamCall → PaymentStream → List Transfer → Prop
  | paid {request : StreamCall} {amount withdrawnAmount funds : UInt64}
      (hrequest : ∀ additional duration, request ≠ .topUp additional duration)
      (hactive : stream.status = .active)
      (hwithdrawn : withdrawnAmount.toNat = stream.withdrawnAmount.toNat + amount.toNat)
      (hunlocked : withdrawnAmount.toNat ≤ stream.unlockedAt now)
      (hfunds : funds.toNat + amount.toNat = stream.funds.toNat) :
      Effect stream now request
        { stream with
          withdrawnAmount := withdrawnAmount
          funds := funds
          status := if withdrawnAmount ≥ stream.totalAmount then .completed else stream.status }
        [⟨amount, stream.recipient⟩]
  | cancelled {owed refund : UInt64}
      (hactive : stream.status = .active)
      (howed : owed.toNat + stream.withdrawnAmount.toNat = stream.unlockedAt now)
      (hrefund : refund.toNat + owed.toNat = stream.funds.toNat) :
      Effect stream now .cancelStream { stream with status := .cancelled, funds := 0 }
        ((if owed > 0 then [⟨owed, stream.recipient⟩] else []) ++
          if refund > 0 then [⟨refund, stream.sender⟩] else [])
  | extended {additional additionalDurationMs totalAmount funds endTimeMs : UInt64}
      (hactive : stream.status = .active)
      (hadditional : 0 < additional.toNat)
      (hduration : stream.endTimeMs.toNat < endTimeMs.toNat)
      (htotal : totalAmount.toNat = stream.totalAmount.toNat + additional.toNat)
      (hfunds : funds.toNat = stream.funds.toNat + additional.toNat)
      (hline : stream.unlockedAt now ≤ PaymentStream.unlockedAt
        { stream with totalAmount := totalAmount, funds := funds, endTimeMs := endTimeMs } now) :
      Effect stream now (.topUp additional additionalDurationMs)
        { stream with totalAmount := totalAmount, funds := funds, endTimeMs := endTimeMs } []

section Calls

variable {stream stream' : PaymentStream} {caller : Address} {now : UInt64}
  {transfers : List Transfer}
variable {request : StreamCall} {amount funds : UInt64} {outcome : Outcome WithdrawalReceipt}

theorem effect_of_payRecipient {withdrawnAmount : UInt64}
    (hpay : payRecipient stream amount withdrawnAmount now = .ok outcome)
    (hrequest : ∀ additional duration, request ≠ .topUp additional duration)
    (hactive : stream.status = .active)
    (hwithdrawn : withdrawnAmount.toNat = stream.withdrawnAmount.toNat + amount.toNat)
    (hunlocked : withdrawnAmount.toNat ≤ stream.unlockedAt now) :
    Effect stream now request outcome.stream outcome.transfers := by
  simp only [payRecipient, split, bind_ok_iff, checkedSub_ok_iff, pure_ok_iff] at hpay
  obtain ⟨_, hfunds, rfl⟩ := hpay
  exact .paid hrequest hactive hwithdrawn hunlocked hfunds

theorem effect_of_withdraw (hcall : withdraw stream caller now = .ok outcome) :
    Effect stream now .withdraw outcome.stream outcome.transfers := by
  simp only [withdraw, sub, bind_ok_iff, require_ok_iff, checkedSub_ok_iff,
    calculateUnlocked_ok_iff] at hcall
  obtain ⟨-, -, -, hactive, _, hunlocked, _, _, -, -, hpay⟩ := hcall
  exact effect_of_payRecipient hpay (by simp) hactive (by omega) hunlocked.le

theorem effect_of_withdrawAmount (hcall : withdrawAmount stream amount caller now = .ok outcome) :
    Effect stream now (.withdrawAmount amount) outcome.stream outcome.transfers := by
  simp only [withdrawAmount, sub, add, bind_ok_iff, require_ok_iff, checkedSub_ok_iff,
    checkedAdd_ok_iff, calculateUnlocked_ok_iff] at hcall
  obtain ⟨-, -, -, hactive, _, _, _, _, -, hamount,
    _, hwithdrawn, hpay⟩ := hcall
  have hle := UInt64.le_iff_toNat_le.mp hamount.2
  exact effect_of_payRecipient hpay (by simp) hactive hwithdrawn (by omega)

theorem toNat_eq_zero (hzero : ¬amount > 0) : amount.toNat = 0 := by
  simpa using UInt64.le_iff_toNat_le.mp (UInt64.not_lt.mp hzero)

theorem payIfPositive_ok_iff {remaining : UInt64} {recipient : Address} :
    payIfPositive funds amount recipient = .ok (remaining, transfers) ↔
      remaining.toNat + amount.toNat = funds.toNat ∧
        transfers = if amount > 0 then [⟨amount, recipient⟩] else [] := by
  unfold payIfPositive split
  split
  · simp only [bind_ok_iff, checkedSub_ok_iff, pure_ok_iff, Prod.mk.injEq]
    constructor
    · rintro ⟨_, hvalue, rfl, htransfers⟩
      exact ⟨hvalue, htransfers⟩
    · rintro ⟨hvalue, htransfers⟩
      exact ⟨remaining, hvalue, rfl, htransfers⟩
  · rename_i hzero
    simp only [pure_ok_iff, Prod.mk.injEq, toNat_eq_zero hzero, Nat.add_zero, UInt64.toNat_inj]

theorem refundIfPositive_ok_iff {refundAmount : UInt64} {sender : Address}
    {left : UInt64 × List Transfer} :
    refundIfPositive funds refundAmount sender = .ok left ↔
      left = if refundAmount > 0 then (0, [⟨funds, sender⟩]) else (funds, []) := by
  unfold refundIfPositive split
  split
  · simp only [bind_ok_iff, checkedSub_ok_iff, pure_ok_iff]
    constructor
    · rintro ⟨value, _, heq⟩
      have hzero : value = 0 := by
        rw [← UInt64.toNat_inj, UInt64.toNat_zero]
        omega
      rw [heq, hzero]
    · intro heq
      exact ⟨0, by simp, heq⟩
  · rw [pure_ok_iff]

theorem effect_of_cancelStream {outcome : Outcome CancellationReceipt}
    (hcall : cancelStream stream caller now = .ok outcome) :
    Effect stream now .cancelStream outcome.stream outcome.transfers := by
  simp only [cancelStream, sub, add, bind_ok_iff, require_ok_iff, checkedSub_ok_iff,
    checkedAdd_ok_iff, calculateUnlocked_ok_iff, pure_ok_iff, Prod.exists,
    payIfPositive_ok_iff, refundIfPositive_ok_iff] at hcall
  obtain ⟨-, -, -, hactive, _, _, _, _, refund, hrefund, remaining, _,
    ⟨_, hpaid⟩, left, refunded, hleft, -, -, rfl⟩ := hcall
  have hsame : remaining = refund := by
    rw [← UInt64.toNat_inj]
    omega
  subst hsame
  have hfinal : left = 0 ∧ refunded = if remaining > 0 then [⟨remaining, stream.sender⟩] else [] := by
    split at hleft
    · rename_i hpositive
      obtain ⟨rfl, rfl⟩ := Prod.mk.inj hleft
      exact ⟨rfl, (if_pos hpositive).symm⟩
    · rename_i hzero
      obtain ⟨rfl, rfl⟩ := Prod.mk.inj hleft
      refine ⟨?_, (if_neg hzero).symm⟩
      exact UInt64.toNat_inj.mp (toNat_eq_zero hzero)
  obtain ⟨rfl, rfl⟩ := hfinal
  subst hpaid
  exact .cancelled hactive (by omega) hrefund

theorem effect_of_topUp {additional additionalDurationMs : UInt64} {outcome : Outcome Unit}
    (hcall : topUp stream additional additionalDurationMs caller now = .ok outcome) :
    Effect stream now (.topUp additional additionalDurationMs) outcome.stream
      outcome.transfers := by
  simp only [topUp, add, bind_ok_iff, require_ok_iff, checkedAdd_ok_iff,
    calculateUnlocked_ok_iff, pure_ok_iff] at hcall
  obtain ⟨-, -, -, hactive, -, -, -, hadditional, -, hduration, _, hprev,
    _, htotal, _, hfunds, _, _, _, hnew, -, hline, rfl⟩ :=
    hcall
  have hpositive : 0 < additional.toNat := by
    simpa using UInt64.lt_iff_toNat_lt.mp hadditional
  have hlonger : 0 < additionalDurationMs.toNat := by
    simpa using UInt64.lt_iff_toNat_lt.mp hduration
  refine .extended hactive hpositive (by omega) htotal hfunds ?_
  rw [← hprev, ← hnew]
  exact UInt64.le_iff_toNat_le.mp hline

theorem effect_of_call (hcall : call stream caller now request = .ok (stream', transfers)) :
    Effect stream now request stream' transfers := by
  cases request
  all_goals
    obtain ⟨_, hok, heq⟩ := map_ok_iff.mp hcall
    obtain ⟨rfl, rfl⟩ := Prod.mk.inj heq
  · exact effect_of_withdraw hok
  · exact effect_of_withdrawAmount hok
  · exact effect_of_cancelStream hok
  · exact effect_of_topUp hok

end Calls

/-!
A stream over time. The clock only moves forward, by waiting; a call happens
at the current clock value. The history records every deposit and every coin
transferred.
-/

structure StreamState where
  stream : PaymentStream
  now : UInt64

inductive StreamLabel
  | created (payment : UInt64)
  | waited
  | called (request : StreamCall) (transfers : List Transfer)

inductive StreamStep : StreamState → StreamLabel → StreamState → Prop
  | wait {stream : PaymentStream} {now later : UInt64} (htime : now ≤ later) :
      StreamStep ⟨stream, now⟩ .waited ⟨stream, later⟩
  | call {stream stream' : PaymentStream} {now : UInt64} {caller : Address}
      {request : StreamCall} {transfers : List Transfer}
      (hcall : call stream caller now request = .ok (stream', transfers)) :
      StreamStep ⟨stream, now⟩ (.called request transfers) ⟨stream', now⟩

/-- The streams `create_stream` shares, and what becomes of them. -/
def streams : System StreamState StreamLabel where
  init history s := ∃ id caller recipient payment durationMs outcome,
    createStream id caller recipient payment durationMs s.now = .ok outcome ∧
      history = [.created payment] ∧ s.stream = outcome.stream
  step := StreamStep

/-- What can become of the stream from `s` on. -/
def streamsAfter (s : StreamState) : System StreamState StreamLabel where
  init history s' := history = [] ∧ s' = s
  step := StreamStep

def StreamState.unlocked (s : StreamState) : Nat :=
  s.stream.unlockedAt s.now

def StreamLabel.deposit : StreamLabel → Nat
  | .created payment => payment.toNat
  | .called (.topUp additional _) _ => additional.toNat
  | _ => 0

def deposited (history : List StreamLabel) : Nat :=
  (history.map StreamLabel.deposit).sum

def transferredTo (address : Address) (transfers : List Transfer) : Nat :=
  ((transfers.filter fun transfer => transfer.recipient = address).map
    fun transfer => transfer.amount.toNat).sum

theorem transferredTo_append (address : Address) (transfers more : List Transfer) :
    transferredTo address (transfers ++ more) =
      transferredTo address transfers + transferredTo address more := by
  simp [transferredTo]

theorem transferredTo_singleton (address : Address) (transfer : Transfer) :
    transferredTo address [transfer] =
      if transfer.recipient = address then transfer.amount.toNat else 0 := by
  by_cases hrecipient : transfer.recipient = address <;> simp [transferredTo, hrecipient]

theorem transferredTo_ifPositive (address recipient : Address) (amount : UInt64) :
    transferredTo address (if amount > 0 then [⟨amount, recipient⟩] else []) =
      if recipient = address then amount.toNat else 0 := by
  split
  · rw [transferredTo_singleton]
  · rename_i hzero
    simp [transferredTo, toNat_eq_zero hzero]

def StreamLabel.payout (address : Address) : StreamLabel → Nat
  | .called _ transfers => transferredTo address transfers
  | _ => 0

def received (address : Address) (history : List StreamLabel) : Nat :=
  (history.map (StreamLabel.payout address)).sum

@[simp] theorem deposited_concat (history : List StreamLabel) (label : StreamLabel) :
    deposited (history ++ [label]) = deposited history + label.deposit := by
  simp [deposited]

@[simp] theorem received_concat (address : Address) (history : List StreamLabel)
    (label : StreamLabel) :
    received address (history ++ [label]) = received address history + label.payout address := by
  simp [received]

/-- What holds of a stream and its history. Up to a cancellation the recipient
has received exactly what the stream records as withdrawn. -/
structure Sound (history : List StreamLabel) (s : StreamState) : Prop where
  parties : s.stream.sender ≠ s.stream.recipient
  line : s.stream.startTimeMs.toNat < s.stream.endTimeMs.toNat
  withdrawn : s.stream.withdrawnAmount.toNat ≤ received s.stream.recipient history
  paid : received s.stream.recipient history ≤ s.unlocked
  conserved : received s.stream.recipient history + received s.stream.sender history +
    s.stream.funds.toNat = deposited history
  active : s.stream.status = .active →
    received s.stream.recipient history = s.stream.withdrawnAmount.toNat ∧
      s.stream.withdrawnAmount.toNat < s.stream.totalAmount.toNat ∧
      s.stream.funds.toNat + s.stream.withdrawnAmount.toNat = s.stream.totalAmount.toNat

section Invariant

variable {history : List StreamLabel} {s s' : StreamState} {label : StreamLabel}
  {stream stream' : PaymentStream} {now : UInt64} {transfers : List Transfer}
variable {request : StreamCall} {reason : Abort}

theorem sound_createStream {id caller recipient : Address} {payment durationMs : UInt64}
    {outcome : Outcome Unit}
    (hcreate : createStream id caller recipient payment durationMs now = .ok outcome) :
    Sound [.created payment] ⟨outcome.stream, now⟩ := by
  simp only [createStream, add, bind_ok_iff, require_ok_iff, checkedAdd_ok_iff,
    pure_ok_iff] at hcreate
  obtain ⟨-, hparties, -, hpayment, -, hduration, endTimeMs, _, rfl⟩ := hcreate
  have hpositive : 0 < payment.toNat := by
    simpa using UInt64.lt_iff_toNat_lt.mp hpayment
  have hlong : minDurationMs.toNat ≤ durationMs.toNat := UInt64.le_iff_toNat_le.mp hduration
  have hmin : minDurationMs.toNat = 60000 := rfl
  refine ⟨hparties, ?_, ?_, ?_, ?_, fun _ => ⟨?_, ?_, ?_⟩⟩
  · show now.toNat < endTimeMs.toNat
    omega
  all_goals simp [received, deposited, StreamLabel.payout, StreamLabel.deposit, hpositive]

theorem unlocked_mono_wait {later : UInt64}
    (hline : stream.startTimeMs.toNat < stream.endTimeMs.toNat) (htime : now ≤ later) :
    stream.unlockedAt now ≤ stream.unlockedAt later :=
  unlockedBy_mono hline (UInt64.le_iff_toNat_le.mp htime)

theorem unlocked_le_of_effect (heffect : Effect stream now request stream' transfers) :
    stream.unlockedAt now ≤ stream'.unlockedAt now := by
  cases heffect with
  | paid => exact le_rfl
  | cancelled => exact le_rfl
  | extended _ _ _ _ _ hline => exact hline

/-- Every effect keeps the books. -/
theorem sound_effect (hsound : Sound history ⟨stream, now⟩)
    (heffect : Effect stream now request stream' transfers) :
    Sound (history ++ [.called request transfers]) ⟨stream', now⟩ := by
  obtain ⟨hparties, hline, hwithdrawn, hpaid, hconserved, hactive⟩ := hsound
  simp only [StreamState.unlocked] at hpaid hwithdrawn hconserved hactive
  cases heffect with
  | @paid _ amount withdrawnAmount _ hrequest hopen =>
    obtain ⟨hreceived, hleft, htotal⟩ := hactive hopen
    have hdeposit : (StreamLabel.called request [⟨amount, stream.recipient⟩]).deposit = 0 := by
      cases request with
      | topUp additional duration => exact absurd rfl (hrequest additional duration)
      | _ => rfl
    refine ⟨hparties, hline, ?_, ?_, ?_, fun hstill => ?_⟩
    all_goals simp only [received_concat, deposited_concat, hdeposit, StreamLabel.payout,
      transferredTo_singleton, if_true, if_neg hparties.symm]
    · omega
    · show _ ≤ stream.unlockedAt now
      omega
    · omega
    · have hincomplete : ¬withdrawnAmount ≥ stream.totalAmount := by
        intro hcomplete
        simp only [if_pos hcomplete] at hstill
        cases hstill
      rw [ge_iff_le, UInt64.le_iff_toNat_le] at hincomplete
      omega
  | @cancelled owed refund hopen =>
    obtain ⟨hreceived, hleft, _⟩ := hactive hopen
    refine ⟨hparties, hline, ?_, ?_, ?_, fun hstill => by cases hstill⟩
    all_goals simp only [received_concat, deposited_concat, StreamLabel.payout,
      StreamLabel.deposit, transferredTo_append, transferredTo_ifPositive, if_true,
      if_neg hparties, if_neg hparties.symm, Nat.add_zero, UInt64.toNat_zero]
    · omega
    · show _ ≤ stream.unlockedAt now
      omega
    · omega
  | @extended _ _ _ _ _ hopen _ hduration _ _ hrise =>
      obtain ⟨_, _, _⟩ := hactive hopen
      refine ⟨hparties, hline.trans hduration, ?_, ?_, ?_, fun _ => ?_⟩
      all_goals simp only [received_concat, deposited_concat, StreamLabel.payout,
        StreamLabel.deposit, transferredTo, List.filter_nil, List.map_nil, List.sum_nil]
      · omega
      · exact hpaid.trans hrise
      · omega
      · omega

theorem sound_step (hsound : Sound history s) (hstep : StreamStep s label s') :
    Sound (history ++ [label]) s' := by
  cases hstep with
  | @wait _ _ _ htime =>
    obtain ⟨hparties, hline, hwithdrawn, hpaid, hconserved, hactive⟩ := hsound
    refine ⟨hparties, hline, ?_, ?_, ?_, ?_⟩
    all_goals simp only [received_concat, deposited_concat, StreamLabel.payout,
      StreamLabel.deposit, Nat.add_zero]
    · exact hwithdrawn
    · exact hpaid.trans (unlocked_mono_wait hline htime)
    · exact hconserved
    · exact hactive
  | call hcall => exact sound_effect hsound (effect_of_call hcall)

theorem sound_of_run (hrun : streams.Run history s) : Sound history s := by
  refine hrun.invariant (I := Sound) ?_ ?_
  · rintro _ ⟨stream, now⟩ ⟨id, caller, recipient, payment, durationMs, outcome, hcreate, rfl, rfl⟩
    exact sound_createStream hcreate
  · intro _ _ _ _ _ hsound hstep
    exact sound_step hsound hstep

/-- A step never takes back what has unlocked, top-ups included. -/
theorem unlocked_le_of_step (hsound : Sound history s) (hstep : StreamStep s label s') :
    s.unlocked ≤ s'.unlocked := by
  cases hstep with
  | wait htime => exact unlocked_mono_wait hsound.line htime
  | call hcall => exact unlocked_le_of_effect (effect_of_call hcall)

theorem unlocked_le_of_run {more : List StreamLabel} (hsound : Sound history s)
    (hrun : (streamsAfter s).Run more s') : s.unlocked ≤ s'.unlocked := by
  have hboth : Sound (history ++ more) s' ∧ s.unlocked ≤ s'.unlocked := by
    refine hrun.invariant (I := fun more s' => Sound (history ++ more) s' ∧
      s.unlocked ≤ s'.unlocked) ?_ ?_
    · rintro _ _ ⟨rfl, rfl⟩
      rw [List.append_nil]
      exact ⟨hsound, le_rfl⟩
    · rintro more before label after - ⟨hbefore, hle⟩ hstep
      rw [← List.append_assoc]
      exact ⟨sound_step hbefore hstep, hle.trans (unlocked_le_of_step hbefore hstep)⟩
  exact hboth.2

theorem payRecipient_ok {amount withdrawnAmount : UInt64}
    (hfunds : amount.toNat ≤ stream.funds.toNat) :
    ∃ outcome, payRecipient stream amount withdrawnAmount now = .ok outcome ∧
      outcome.transfers = [⟨amount, stream.recipient⟩] ∧
      outcome.stream.funds.toNat + amount.toNat = stream.funds.toNat := by
  have hsplit : split stream.funds amount = .ok (stream.funds - amount) := by
    apply checkedSub_ok_iff.mpr
    rw [toNat_sub_of_toNat_le hfunds, Nat.sub_add_cancel hfunds]
  cases hpay : payRecipient stream amount withdrawnAmount now with
  | error =>
    simp only [payRecipient, hsplit, ok_bind] at hpay
    cases hpay
  | ok =>
    simp only [payRecipient, split, bind_ok_iff, checkedSub_ok_iff, pure_ok_iff] at hpay
    obtain ⟨_, hremaining, rfl⟩ := hpay
    exact ⟨_, rfl, rfl, hremaining⟩

section

variable (hsound : Sound history ⟨stream, now⟩)
include hsound

/-- What the recipient may take is there: it is unlocked, not yet withdrawn and
still in the stream's funds. -/
theorem available_ok (hactive : stream.status = .active) :
    ∃ unlocked available, calculateUnlocked stream now = .ok unlocked ∧
      sub unlocked stream.withdrawnAmount = .ok available ∧
      unlocked.toNat = stream.unlockedAt now ∧
      available.toNat + stream.withdrawnAmount.toNat = unlocked.toNat ∧
      available.toNat ≤ stream.funds.toNat := by
  obtain ⟨unlocked, hunlocked, hvalue⟩ := calculateUnlocked_eq stream now
  obtain ⟨-, -, htotal⟩ := hsound.active hactive
  have hle : stream.withdrawnAmount.toNat ≤ unlocked.toNat := by
    rw [hvalue]
    exact hsound.withdrawn.trans hsound.paid
  have hcap : unlocked.toNat ≤ stream.totalAmount.toNat := by
    rw [hvalue]
    exact unlockedBy_le
  have hbound := unlocked.toNat_lt
  obtain ⟨available, _⟩ : ∃ available : UInt64,
      available.toNat = unlocked.toNat - stream.withdrawnAmount.toNat :=
    exists_toNat_eq (by omega)
  refine ⟨unlocked, available, hunlocked, checkedSub_ok_iff.mpr ?_, hvalue, ?_, ?_⟩
  · omega
  · omega
  · simp only at htotal
    omega

/-- `withdraw` fails only on its three guards. -/
theorem withdraw_error {caller : Address} (herror : withdraw stream caller now = .error reason) :
    reason = .notAuthorized ∨ reason = .invalidState ∨ reason = .insufficientBalance := by
  rcases bind_error_iff.mp herror with hcaller | ⟨_, -, herror⟩
  · exact .inl (require_error_iff.mp hcaller).2
  rcases bind_error_iff.mp herror with hstatus | ⟨_, hactive, herror⟩
  · exact .inr (.inl (require_error_iff.mp hstatus).2)
  obtain ⟨_, _, hunlocked, hsub, -, -, hfunds⟩ := available_ok hsound (require_ok_iff.mp hactive)
  rw [hunlocked, ok_bind, hsub, ok_bind] at herror
  rcases bind_error_iff.mp herror with hbalance | ⟨_, -, herror⟩
  · exact .inr (.inr (require_error_iff.mp hbalance).2)
  · obtain ⟨_, hok, -⟩ := payRecipient_ok hfunds
    rw [hok] at herror
    cases herror

theorem cancelStream_ok (hactive : stream.status = .active) :
    ∃ outcome, cancelStream stream stream.sender now = .ok outcome := by
  obtain ⟨unlocked, owed, hunlocked, hsub, -, _, _⟩ := available_ok hsound hactive
  have hbound := stream.funds.toNat_lt
  obtain ⟨refund, _⟩ : ∃ refund : UInt64,
      refund.toNat = stream.funds.toNat - owed.toNat := exists_toNat_eq (by omega)
  have hrest : sub stream.funds owed = .ok refund := checkedSub_ok_iff.mpr (by omega)
  have hpay := payIfPositive_ok_iff.mpr
    ⟨show refund.toNat + owed.toNat = stream.funds.toNat by omega,
      Eq.refl (if owed > 0 then [(⟨owed, stream.recipient⟩ : Transfer)] else [])⟩
  have hleft := refundIfPositive_ok_iff.mpr
    (Eq.refl (if refund > 0 then (0, [(⟨refund, stream.sender⟩ : Transfer)]) else (refund, [])))
  have hreceived : add stream.withdrawnAmount owed = .ok unlocked :=
    checkedAdd_ok_iff.mpr (by omega)
  unfold cancelStream
  rw [require_of rfl, ok_bind, require_of hactive, ok_bind, hunlocked, ok_bind, hsub, ok_bind,
    hrest, ok_bind, hpay, ok_bind, hleft, ok_bind, hreceived, ok_bind]
  exact ⟨_, rfl⟩

/-- `cancel_stream` fails only on its two guards. -/
theorem cancelStream_error {caller : Address}
    (herror : cancelStream stream caller now = .error reason) :
    reason = .notAuthorized ∨ reason = .invalidState := by
  rcases bind_error_iff.mp herror with hcaller | ⟨_, hcaller, hrest⟩
  · exact .inl (require_error_iff.mp hcaller).2
  rcases bind_error_iff.mp hrest with hstatus | ⟨_, hactive, -⟩
  · exact .inr (require_error_iff.mp hstatus).2
  · obtain ⟨_, hok⟩ := cancelStream_ok hsound (require_ok_iff.mp hactive)
    rw [require_ok_iff.mp hcaller, hok] at herror
    cases herror

/-- Once the end time has passed the recipient can take everything that is left. -/
theorem withdraw_after_end (hactive : stream.status = .active) (hend : stream.endTimeMs ≤ now) :
    ∃ outcome, withdraw stream stream.recipient now = .ok outcome ∧
      outcome.transfers = [⟨stream.funds, stream.recipient⟩] ∧
      outcome.stream.funds = 0 := by
  obtain ⟨unlocked, available, hunlocked, hsub, _, _, hfunds⟩ :=
    available_ok hsound hactive
  obtain ⟨-, hleft, htotal⟩ := hsound.active hactive
  have hall : stream.unlockedAt now = stream.totalAmount.toNat :=
    unlockedBy_of_le hsound.line (UInt64.le_iff_toNat_le.mp hend)
  simp only at hleft htotal
  have heq : available = stream.funds := by
    rw [← UInt64.toNat_inj]
    omega
  have hpositive : available > 0 := by
    rw [gt_iff_lt, UInt64.lt_iff_toNat_lt, UInt64.toNat_zero]
    omega
  obtain ⟨outcome, hok, htransfers, hremaining⟩ :
      ∃ outcome, payRecipient stream available unlocked now = .ok outcome ∧
        outcome.transfers = [⟨available, stream.recipient⟩] ∧
        outcome.stream.funds.toNat + available.toNat = stream.funds.toNat :=
    payRecipient_ok hfunds
  refine ⟨outcome, ?_, ?_, ?_⟩
  · unfold withdraw
    rw [require_of rfl, ok_bind, require_of hactive, ok_bind, hunlocked, ok_bind, hsub, ok_bind,
      require_of hpositive, ok_bind, hok]
  · rw [htransfers, heq]
  · rw [← UInt64.toNat_inj, UInt64.toNat_zero]
    rw [heq] at hremaining
    omega

end

end Invariant

/-- A stream keeps its books whatever happens to it: the coins add up, the
recipient never has more than what is unlocked, what is unlocked never shrinks
and never exceeds the total, neither a withdrawal nor a cancellation fails on
arithmetic, and after the end time the recipient can always take the rest. -/
theorem stream_sound {history : List StreamLabel} {s : StreamState}
    (hrun : streams.Run history s) :
    received s.stream.recipient history + received s.stream.sender history +
        s.stream.funds.toNat = deposited history ∧
    s.stream.withdrawnAmount.toNat ≤ received s.stream.recipient history ∧
    received s.stream.recipient history ≤ s.unlocked ∧
    s.unlocked ≤ s.stream.totalAmount.toNat ∧
    (∀ more s', (streamsAfter s).Run more s' → s.unlocked ≤ s'.unlocked) ∧
    (∀ caller reason, withdraw s.stream caller s.now = .error reason →
      reason = .notAuthorized ∨ reason = .invalidState ∨ reason = .insufficientBalance) ∧
    (∀ caller reason, cancelStream s.stream caller s.now = .error reason →
      reason = .notAuthorized ∨ reason = .invalidState) ∧
    (s.stream.status = .active → s.stream.endTimeMs ≤ s.now →
      ∃ outcome, withdraw s.stream s.stream.recipient s.now = .ok outcome ∧
        outcome.transfers = [⟨s.stream.funds, s.stream.recipient⟩] ∧
        outcome.stream.funds = 0) := by
  have hsound := sound_of_run hrun
  refine ⟨hsound.conserved, hsound.withdrawn, hsound.paid, unlockedBy_le, ?_, ?_, ?_, ?_⟩
  · intro more s' hmore
    exact unlocked_le_of_run hsound hmore
  · intro caller reason herror
    exact withdraw_error hsound herror
  · intro caller reason herror
    exact cancelStream_error hsound herror
  · intro hactive hend
    exact withdraw_after_end hsound hactive hend

def samplePayer : Address := ⟨List.replicate 32 1, rfl⟩
def samplePayee : Address := ⟨List.replicate 32 2, rfl⟩

/-- A stream of one hundred coins over a minute. -/
def sampleStream : PaymentStream :=
  ⟨samplePayer, samplePayer, samplePayee, 100, 0, 100, 0, 60000, .active⟩

/-- Half of it is withdrawn at half time, then a hundred coins and another
minute are added; at the new end the remaining coins are there to withdraw. -/
theorem stream_sound_topped_up :
    ∃ history s, streams.Run history s ∧ s.stream.endTimeMs ≤ s.now ∧
      received samplePayee history = 50 ∧ deposited history = 200 ∧
      ∃ outcome, withdraw s.stream s.stream.recipient s.now = .ok outcome ∧
        outcome.transfers = [⟨150, samplePayee⟩] ∧ outcome.stream.funds = 0 := by
  have hcreated : streams.Run [.created 100] ⟨sampleStream, 0⟩ :=
    .start ⟨samplePayer, samplePayer, samplePayee, 100, 60000, _, rfl, rfl, rfl⟩
  have hhalf : streams.Run [.created 100, .waited] ⟨sampleStream, 30000⟩ :=
    hcreated.step (.wait (by decide))
  have hpaid := hhalf.step (@StreamStep.call _ _ _ samplePayee .withdraw _ rfl)
  have htopped := hpaid.step (@StreamStep.call _ _ _ samplePayer (.topUp 100 60000) _ rfl)
  have hend := htopped.step (@StreamStep.wait _ _ 120000 (by decide))
  exact ⟨_, _, hend, by decide, by decide, by decide,
    (stream_sound hend).2.2.2.2.2.2.2 rfl (by decide)⟩

end DopamintArena.Move.Streaming
