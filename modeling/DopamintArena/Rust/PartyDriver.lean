import DopamintArena.Rust.SeatLog

/-!
The move loop of `tunnel-harness/src/party_driver.rs`. A driver stands at a
program point, and the definitions below are the pieces of the loop between two
points at which something outside the driver can intervene: the strategy, the
transport, the clock of the acknowledgement wait, the run control.

Observers and the recorder are left out but for the entries that are recorded;
opening and settling the tunnel are before and after the loop.
-/

namespace DopamintArena.Rust

open Foundation
open Foundation.Handshake (Side Message)

variable {State Move : Type}

structure DriverConfig (State Move : Type) where
  runtime : RuntimeConfig State Move
  canGracefullyClose : State → Bool
  proposerForNonce : UInt64 → Option Seat
  maxMoves : Nat
  maxAckResends : Nat
  /-- `run_control` is there. -/
  controlled : Bool

/-- Where a driver stands in the loop. -/
inductive Point (Move : Type)
  | top
  | planning (boundaryOk : Bool)
  /-- `reserve_move_proposal` was called. -/
  | reserving (mv : Move)
  /-- A stop was not requested, and a reservation is taken next. -/
  | claiming (mv : Move)
  /-- The move is not counted as in flight yet. -/
  | counting (mv : Move)
  | proposing (mv : Move)
  | awaiting (frame : Bytes) (proposedNonce : UInt64) (resends : Nat)
  /-- `recv_or_stop` was called. -/
  | arriving (boundaryOk : Bool)
  | subscribing (boundaryOk : Bool)
  /-- Waits for a frame, or for a change of the stop flag from the version it has seen. -/
  | parked (boundaryOk : Bool) (seen : Nat)
  /-- `record_committed_move` of a move of the peer was called. -/
  | recording
  /-- The move is not in flight any more and not counted yet. -/
  | tallying
  /-- Left the loop. -/
  | finished
  | failed (error : HarnessError)
deriving DecidableEq

structure Driver (State Move : Type) where
  point : Point Move
  seat : PartyRuntime State Move
  moves : Nat
  recorded : List (TranscriptEntry Move)

namespace Driver

variable (d : Driver State Move)

def goTo (point : Point Move) : Driver State Move := { d with point := point }

/-- The seat has committed the entry. -/
def commit (seat : PartyRuntime State Move) (entry : TranscriptEntry Move)
    (point : Point Move) : Driver State Move :=
  { point := point, seat := seat, moves := d.moves + 1, recorded := d.recorded ++ [entry] }

end Driver

namespace DriverConfig

variable (cfg : DriverConfig State Move) (d : Driver State Move)

def start (initial : Balances) : Driver State Move :=
  ⟨.top, cfg.runtime.withCodec initial, 0, []⟩

def boundaryOk : Bool := d.moves == 0 || cfg.canGracefullyClose d.seat.state

def notOurTurn : Bool :=
  (cfg.proposerForNonce d.seat.nonce).any fun proposer => proposer != cfg.runtime.seat

/-- From the head of the loop to the call of the strategy or of `recv_or_stop`. -/
def head (stopped graceful : Bool) : Driver State Move :=
  let windingDown := stopped && (!graceful || cfg.boundaryOk d)
  if cfg.runtime.protocol.isTerminal d.seat.state then d.goTo .finished
  else if cfg.maxMoves ≤ d.moves then
    d.goTo (.failed (.verification "max moves reached before terminal"))
  else if windingDown || cfg.notOurTurn d then d.goTo (.arriving (cfg.boundaryOk d))
  else d.goTo (.planning (cfg.boundaryOk d))

/-- The strategy has answered. -/
def planned (boundaryOk : Bool) : Option Move → Driver State Move
  | some mv => d.goTo (if cfg.controlled then .reserving mv else .proposing mv)
  | none => d.goTo (.arriving boundaryOk)

/-- Proposes the move and sends the frame. -/
def propose (mv : Move) (timestamp : UInt64) : Driver State Move × List Bytes :=
  match cfg.runtime.propose d.seat mv timestamp with
  | .error e => (d.goTo (.failed e), [])
  | .ok (frame, seat) =>
    ({ d with point := .awaiting frame (seat.nonce + 1) 0, seat := seat }, [frame])

/-- No frame within the window. -/
def timeout (frame : Bytes) (proposedNonce : UInt64) (resends : Nat) :
    Driver State Move × List Bytes :=
  if cfg.maxAckResends ≤ resends then
    (d.goTo (.failed (.frameTransport
      (.transport s!"no ack for nonce {proposedNonce} after {resends} resends"))), [])
  else (d.goTo (.awaiting frame proposedNonce (resends + 1)), [frame])

/-- A frame arrives at a driver that continues at `onNothing`, or at `onCommit` if the seat
commits. -/
def handle (bytes : Bytes) (onNothing onCommit : Point Move) : Driver State Move × List Bytes :=
  match cfg.runtime.handleFrame d.seat bytes with
  | (.error e, seat) => ({ d with point := .failed e, seat := seat }, [])
  | (.ok out, seat) =>
    match seat.takeLastCommitted with
    | (some entry, seat) => (d.commit seat entry onCommit, out)
    | (none, seat) => ({ d with point := onNothing, seat := seat }, out)

/-- A frame while the driver waits for an acknowledgement. -/
def ackArrives (frame : Bytes) (proposedNonce : UInt64) (resends : Nat) (bytes : Bytes) :
    Driver State Move × List Bytes :=
  cfg.handle d bytes (.awaiting frame proposedNonce resends) .top

/-- A frame while the driver waits for a move. -/
def moveArrives (bytes : Bytes) : Driver State Move × List Bytes :=
  cfg.handle d bytes .top (if cfg.controlled then .recording else .top)

end DriverConfig

/-! ### Drivers as sides of a handshake -/

/-- What a point says about the pending entry. -/
def Point.Holds (cfg : RuntimeConfig State Move) (x : Side (Entry State Move)) :
    Point Move → Prop
  | .awaiting frame proposedNonce _ => proposedNonce = nonceAt x.log.length ∧
      ∃ e, x.pending = some e ∧ cfg.Issues frame (.offer x.log.length e)
  | .failed _ => True
  | _ => x.pending = none

/-- The driver stands where the side stands. -/
structure DriverConfig.Drives (cfg : DriverConfig State Move) (initial : State)
    (d : Driver State Move) (x : Side (Entry State Move)) : Prop where
  follows : cfg.runtime.Follows initial d.seat x
  holds : d.point.Holds cfg.runtime x
  taken : d.seat.lastCommitted = none
  moves : d.moves = x.log.length

namespace DriverConfig

variable {cfg : DriverConfig State Move} {initial : State} {d : Driver State Move}
variable {x : Side (Entry State Move)} {e : Entry State Move} {k : Nat} {msg bytes : Bytes}
variable {sig : Bytes64} {onNothing onCommit : Point Move}
variable {seat : PartyRuntime State Move} {out : List Bytes}

theorem drives_start (cfg : DriverConfig State Move) (balances : Balances) :
    cfg.Drives (cfg.runtime.withCodec balances).state (cfg.start balances) Side.fresh :=
  ⟨cfg.runtime.follows_withCodec balances, rfl, rfl, rfl⟩

/-- What the head of the loop decides. -/
theorem head_cases (cfg : DriverConfig State Move) (d : Driver State Move)
    (stopped graceful : Bool) :
    (cfg.runtime.protocol.isTerminal d.seat.state = true ∧
      cfg.head d stopped graceful = d.goTo .finished) ∨
    (cfg.maxMoves ≤ d.moves ∧ cfg.head d stopped graceful =
      d.goTo (.failed (.verification "max moves reached before terminal"))) ∨
    (cfg.runtime.protocol.isTerminal d.seat.state = false ∧
      (stopped = true ∧ (graceful = false ∨ cfg.boundaryOk d = true) ∨ cfg.notOurTurn d = true) ∧
      cfg.head d stopped graceful = d.goTo (.arriving (cfg.boundaryOk d))) ∨
    (cfg.runtime.protocol.isTerminal d.seat.state = false ∧ d.moves < cfg.maxMoves ∧
      (stopped = true → graceful = true ∧ cfg.boundaryOk d = false) ∧
      cfg.notOurTurn d = false ∧
      cfg.head d stopped graceful = d.goTo (.planning (cfg.boundaryOk d))) := by
  unfold head
  by_cases hterminal : cfg.runtime.protocol.isTerminal d.seat.state = true
  · exact .inl ⟨hterminal, if_pos hterminal⟩
  · by_cases hmax : cfg.maxMoves ≤ d.moves
    · exact .inr (.inl ⟨hmax, (if_neg hterminal).trans (if_pos hmax)⟩)
    · simp only [hterminal, Bool.false_eq_true, if_false, hmax]
      by_cases hwait : (stopped && (!graceful || cfg.boundaryOk d) || cfg.notOurTurn d) = true
      · refine .inr (.inr (.inl ⟨trivial, ?_, if_pos hwait⟩))
        simpa using hwait
      · refine .inr (.inr (.inr ⟨trivial, by omega, ?_, ?_, if_neg hwait⟩))
        · rintro rfl
          simp only [Bool.true_and, Bool.or_eq_true, not_or, Bool.not_eq_true] at hwait
          simpa using hwait.1
        · simp only [Bool.or_eq_true, not_or, Bool.not_eq_true] at hwait
          exact hwait.2

theorem handle_nothing (h : cfg.runtime.handleFrame d.seat bytes = (.ok out, seat))
    (hnone : seat.lastCommitted = none) :
    cfg.handle d bytes onNothing onCommit =
      ({ d with point := onNothing, seat := seat.takeLastCommitted.2 }, out) := by
  simp [handle, h, PartyRuntime.takeLastCommitted, hnone]

theorem handle_commit {entry : TranscriptEntry Move}
    (h : cfg.runtime.handleFrame d.seat bytes = (.ok out, seat))
    (hsome : seat.lastCommitted = some entry) :
    cfg.handle d bytes onNothing onCommit =
      (d.commit seat.takeLastCommitted.2 entry onCommit, out) := by
  simp [handle, h, PartyRuntime.takeLastCommitted, hsome]

namespace Drives

section

variable (h : cfg.Drives initial d x)
include h

theorem goTo {point : Point Move} (hholds : point.Holds cfg.runtime x) :
    cfg.Drives initial (d.goTo point) x :=
  ⟨h.follows, hholds, h.taken, h.moves⟩

theorem propose (mv : Move) (timestamp : UInt64) :
    (∃ error, cfg.runtime.propose d.seat mv timestamp = .error error ∧
      cfg.propose d mv timestamp = (d.goTo (.failed error), [])) ∨
    ∃ e frame d', cfg.propose d mv timestamp = (d', [frame]) ∧
      e.mv = mv ∧ e.timestamp = timestamp ∧ d'.point = .awaiting frame (d.seat.nonce + 1) 0 ∧
      d'.recorded = d.recorded ∧
      cfg.runtime.Turn initial cfg.runtime.seat x.log e ∧
      cfg.runtime.Issues frame (.offer x.log.length e) ∧
      cfg.Drives initial d' (x.offer e) := by
  unfold DriverConfig.propose
  cases hok : cfg.runtime.propose d.seat mv timestamp with
  | error error => exact .inl ⟨error, rfl, rfl⟩
  | ok result =>
    obtain ⟨frame, _⟩ := result
    obtain ⟨-, e, hmv, htime, hturn, hfollows, hissues⟩ := h.follows.propose hok
    obtain ⟨-, -, _, _, -, -, -, rfl⟩ := RuntimeConfig.propose_ok_iff.mp hok
    exact .inr ⟨e, frame, _, rfl, hmv, htime, rfl, rfl, hturn, hissues, hfollows,
      ⟨h.follows.nonce_succ, e, rfl, hissues⟩, h.taken, h.moves⟩

theorem handle_same {out : List Bytes}
    (hhandle : cfg.runtime.handleFrame d.seat bytes = (.ok out, d.seat))
    (hholds : onNothing.Holds cfg.runtime x) : ∃ d',
      cfg.handle d bytes onNothing onCommit = (d', out) ∧ d'.point = onNothing ∧
      d'.recorded = d.recorded ∧ cfg.Drives initial d' x :=
  ⟨_, handle_nothing hhandle h.taken, rfl, rfl, h.follows.take, hholds, rfl, h.moves⟩

theorem handle_next (hfree : x.pending = none) (hby : e.bySeat ≠ cfg.runtime.seat)
    (happly : cfg.runtime.protocol.applyMove (stateAfter initial x.log) e.mv e.bySeat =
      .ok e.next) (hwrites : cfg.runtime.Writes x.log.length e msg)
    (hverify : cfg.runtime.verify cfg.runtime.opponentPk msg sig = true)
    (hdecode : cfg.runtime.decode bytes =
      .ok (cfg.runtime.wireFrame sig (.offer x.log.length e)))
    (hholds : onCommit.Holds cfg.runtime (x.accept e)) : ∃ reply d',
      cfg.handle d bytes onNothing onCommit = (d', [reply]) ∧ d'.point = onCommit ∧
      d'.recorded = d.recorded ++
        [cfg.runtime.transcriptEntry x.log.length e sig (cfg.runtime.sign msg)] ∧
      cfg.runtime.Issues reply (.receipt x.log.length e) ∧
      cfg.Drives initial d' (x.accept e) := by
  obtain ⟨reply, _, hhandle, hissues, hfollows, hcommitted⟩ :=
    h.follows.handle_next_offer hfree hby happly hwrites hverify hdecode
  refine ⟨reply, _, handle_commit hhandle hcommitted, rfl, rfl, hissues, hfollows.take, hholds,
    rfl, ?_⟩
  rw [Driver.commit, h.moves, Side.accept, List.length_append, List.length_singleton]

theorem handle_ack (hpending : x.pending = some e) (hwrites : cfg.runtime.Writes x.log.length e msg)
    (hverify : cfg.runtime.verify cfg.runtime.opponentPk msg sig = true)
    (hdecode : cfg.runtime.decode bytes =
      .ok (cfg.runtime.wireFrame sig (.receipt x.log.length e)))
    (hholds : onCommit.Holds cfg.runtime (x.commit e)) : ∃ d',
      cfg.handle d bytes onNothing onCommit = (d', []) ∧ d'.point = onCommit ∧
      d'.recorded = d.recorded ++
        [cfg.runtime.transcriptEntry x.log.length e (cfg.runtime.sign msg) sig] ∧
      cfg.Drives initial d' (x.commit e) := by
  obtain ⟨_, hhandle, hfollows, hcommitted⟩ :=
    h.follows.handle_receipt hpending hwrites hverify hdecode
  refine ⟨_, handle_commit hhandle hcommitted, rfl, rfl, hfollows.take, hholds, rfl, ?_⟩
  rw [Driver.commit, h.moves, Side.commit, List.length_append, List.length_singleton]

/-- A frame of an honest peer either takes the driver on, or it is a MOVE that comes while the
acknowledgement of the pending move is outstanding, and the driver fails. -/
theorem receive {y : Side (Entry State Move)} (hturns : cfg.runtime.protocol.TurnBased)
    (hinStep : Handshake.InStep (cfg.runtime.Turn initial cfg.runtime.seat)
      (cfg.runtime.Turn initial cfg.runtime.seat.other) x y) {message : Message (Entry State Move)}
    (hreads : cfg.runtime.Reads bytes message)
    (hbacks : y.Backs (cfg.runtime.Turn initial cfg.runtime.seat.other) message)
    (hnothing : onNothing.Holds cfg.runtime x)
    (hcommit : ∀ x' : Side (Entry State Move), x'.pending = none →
      onCommit.Holds cfg.runtime x') :
    (∃ x' d' out, cfg.handle d bytes onNothing onCommit = (d', out) ∧
      cfg.Drives initial d' x' ∧
      Handshake.Step cfg.runtime.Issues (cfg.runtime.Turn initial cfg.runtime.seat)
        (cfg.runtime.Turn initial cfg.runtime.seat.other) y x x' out ∧
      (x' = x ∧ d'.point = onNothing ∨
        x'.pending = none ∧ x'.log.length = x.log.length + 1 ∧ d'.point = onCommit)) ∨
    (cfg.handle d bytes onNothing onCommit =
        (d.goTo (.failed (.verification "expected ack, got move")), []) ∧
      x.pending.isSome = true ∧
      ∃ m, cfg.runtime.decode bytes = .ok (.move m) ∧ d.seat.nonce < m.nonce) := by
  obtain ⟨_, _, hwrites, hverify, hdecode⟩ := hreads
  have hne : cfg.runtime.seat ≠ cfg.runtime.seat.other := (Engine.otherParty_ne _).symm
  cases message with
  | offer _ e =>
    rcases hinStep.offer_cases (cfg.runtime.turn_exclusive hturns hne) hbacks with
      ⟨hk, hat⟩ | ⟨rfl, hfree, hlog, hpending⟩ | ⟨rfl, _, hown, -⟩
    · obtain ⟨out, hhandle, hout⟩ := h.follows.handle_stale_offer hk hwrites hdecode
      obtain ⟨d', hd, hpoint, -, hdrives⟩ := h.handle_same hhandle hnothing
      refine .inl ⟨x, d', out, hd, hdrives, hinStep.stays ?_, .inl ⟨rfl, hpoint⟩⟩
      intro reply hreply
      obtain ⟨_, hat', hissues⟩ := hout reply hreply
      exact ⟨_, hissues, hat'⟩
    · obtain ⟨⟨hby, happly⟩, -⟩ := hinStep.yoursTurn e hpending
      rw [← hlog] at happly
      obtain ⟨reply, d', hd, hpoint, -, hissues, hdrives⟩ := h.handle_next hfree
        (by rw [hby]; exact hne.symm) happly hwrites hverify hdecode (hcommit _ hfree)
      exact .inl ⟨x.accept e, d', [reply], hd, hdrives, hinStep.accepts hfree hlog hpending hissues,
        .inr ⟨hfree, by simp [Side.accept], hpoint⟩⟩
    · have hearly := h.follows.handle_early_offer hown (Nat.le_succ _) hwrites hdecode
      refine .inr ⟨by simp [handle, hearly, Driver.goTo], by rw [hown]; rfl, _, hdecode, ?_⟩
      exact h.follows.lt_nonceAt (Nat.le_succ _) hwrites.1
  | receipt _ e =>
    rcases hinStep.receipt_cases hbacks with ⟨hk, _⟩ | ⟨rfl, hpending, hlog⟩
    · obtain ⟨d', hd, hpoint, -, hdrives⟩ :=
        h.handle_same (h.follows.handle_old_receipt hk hwrites hdecode) hnothing
      exact .inl ⟨x, d', [], hd, hdrives, hinStep.stays Side.posts_nil, .inl ⟨rfl, hpoint⟩⟩
    · obtain ⟨d', hd, hpoint, -, hdrives⟩ :=
        h.handle_ack hpending hwrites hverify hdecode (hcommit _ rfl)
      exact .inl ⟨x.commit e, d', [], hd, hdrives, hinStep.commits hpending hlog,
        .inr ⟨rfl, by simp [Side.commit], hpoint⟩⟩

end

end Drives

end DriverConfig

end DopamintArena.Rust
