import DopamintArena.Rust.MixedPair
import DopamintArena.Rust.PartyDriver

/-!
A driver and an honest peer engine over a network that loses, repeats and
reorders frames. Nobody requests a stop: a run control without a limit grants
every reservation and never wakes the driver, so it is left out.

The driver treats every frame its seat refuses as fatal, also the peer's next
move when it overtakes the acknowledgement of the driver's own. And it counts
its resends per move, whichever of the two frames was lost.
-/

namespace DopamintArena.Rust

open Foundation
open Foundation.Handshake (Side Message)

variable {State Move Peer Action : Type}

/-- The engine at the other end. A refused frame has no answer. -/
structure PeerEngine (Peer Action : Type) where
  receive : Peer → Bytes → Peer × List Bytes
  /-- Proposes a move, or sends the pending one again. -/
  act : Peer → Action → Peer × List Bytes
  nonce : Peer → Nat
  waits : Peer → Bool

/-- The engine keeps to the handshake: `stands` says for which side it stands. -/
structure PeerEngine.Honest (engine : PeerEngine Peer Action) (cfg : RuntimeConfig State Move)
    (initial : State) (stands : Peer → Side (Entry State Move) → Prop) : Prop where
  nonce : ∀ q y, stands q y → engine.nonce q = y.log.length
  waits : ∀ q y, stands q y → engine.waits q = y.pending.isSome
  acts : ∀ q y action, stands q y → ∃ y', (y' = y ∨ ∃ e, y.pending = none ∧
      cfg.Turn initial cfg.seat.other y.log e ∧ y' = y.offer e) ∧
    stands (engine.act q action).1 y' ∧
    ∀ bytes ∈ (engine.act q action).2, ∃ message, cfg.Reads bytes message ∧
      y'.Backs (cfg.Turn initial cfg.seat.other) message
  resends : ∀ q y e, stands q y → y.pending = some e → ∃ action bytes,
    engine.act q action = (q, [bytes]) ∧ cfg.Reads bytes (.offer y.log.length e)
  accepts : ∀ q y e bytes, stands q y → y.pending = none → cfg.Turn initial cfg.seat y.log e →
    cfg.Issues bytes (.offer y.log.length e) → ∃ q' reply, engine.receive q bytes = (q', [reply]) ∧
      stands q' (y.accept e) ∧ cfg.Reads reply (.receipt y.log.length e)
  /-- A duplicate of the last confirmed move is acknowledged again. -/
  reacknowledges : ∀ q y k e bytes, stands q y → k + 1 = y.log.length → y.log[k]? = some e →
    e.bySeat = cfg.seat → cfg.Issues bytes (.offer k e) → ∃ reply,
      engine.receive q bytes = (q, [reply]) ∧ cfg.Reads reply (.receipt k e)
  repeats : ∀ q y k e bytes, stands q y → k + 1 < y.log.length → y.log[k]? = some e →
    e.bySeat = cfg.seat → cfg.Issues bytes (.offer k e) → ∃ out,
      engine.receive q bytes = (q, out) ∧ ∀ reply ∈ out, cfg.Reads reply (.receipt k e)
  refuses : ∀ q y k e bytes, stands q y → y.log.length < k → cfg.Issues bytes (.offer k e) →
    engine.receive q bytes = (q, [])
  confirms : ∀ q y e bytes, stands q y → y.pending = some e →
    cfg.Issues bytes (.receipt y.log.length e) → ∃ q', engine.receive q bytes = (q', []) ∧
      stands q' (y.commit e)
  ignores : ∀ q y k e bytes, stands q y → k < y.log.length → cfg.Issues bytes (.receipt k e) →
    engine.receive q bytes = (q, [])

/-- The two ends, and the frames sent to each. -/
structure MatchState (Peer State Move : Type) where
  driver : Driver State Move
  peer : Peer
  toPeer : List Bytes
  toDriver : List Bytes

/-- A frame is named by its place among those sent. -/
inductive MatchEvent (Move Action : Type)
  | turn (planned : Option Move) (timestamp : UInt64)
  | timeout
  | driverReceives (index : Nat)
  | peerReceives (index : Nat)
  | peerActs (action : Action)

/-- From the head of the loop to the next wait. -/
def DriverConfig.turn (cfg : DriverConfig State Move) (d : Driver State Move)
    (planned : Option Move) (timestamp : UInt64) : Driver State Move × List Bytes :=
  let ready := cfg.head d false false
  match ready.point, planned with
  | .planning _, some mv => cfg.propose ready mv timestamp
  | .planning boundaryOk, none => (ready.goTo (.parked boundaryOk 0), [])
  | .arriving boundaryOk, _ => (ready.goTo (.parked boundaryOk 0), [])
  | _, _ => (ready, [])

namespace MatchState

variable (w : MatchState Peer State Move)

def driverTakes (taken : Driver State Move × List Bytes) : MatchState Peer State Move :=
  { w with driver := taken.1, toPeer := w.toPeer ++ taken.2 }

def peerTakes (taken : Peer × List Bytes) : MatchState Peer State Move :=
  { w with peer := taken.1, toDriver := w.toDriver ++ taken.2 }

end MatchState

section

variable (cfg : DriverConfig State Move) (engine : PeerEngine Peer Action)

def DriverConfig.receives (d : Driver State Move) (bytes : Bytes) :
    Driver State Move × List Bytes :=
  match d.point with
  | .awaiting frame proposedNonce resends =>
    cfg.ackArrives d frame proposedNonce resends bytes
  | .parked _ _ => cfg.handle d bytes .top .top
  | _ => (d, [])

def matchStep (w : MatchState Peer State Move) :
    MatchEvent Move Action → MatchState Peer State Move
  | .turn planned timestamp =>
    match w.driver.point with
    | .top => w.driverTakes (cfg.turn w.driver planned timestamp)
    | _ => w
  | .timeout =>
    match w.driver.point with
    | .awaiting frame proposedNonce resends =>
      w.driverTakes (cfg.timeout w.driver frame proposedNonce resends)
    | _ => w
  | .driverReceives index =>
    (w.toDriver[index]?.map fun bytes => w.driverTakes (cfg.receives w.driver bytes)).getD w
  | .peerReceives index =>
    (w.toPeer[index]?.map fun bytes => w.peerTakes (engine.receive w.peer bytes)).getD w
  | .peerActs action => w.peerTakes (engine.act w.peer action)

def matchStart (peer : Peer) (balances : Balances) : MatchState Peer State Move :=
  ⟨cfg.start balances, peer, [], []⟩

def matchAfter (peer : Peer) (balances : Balances) (events : List (MatchEvent Move Action)) :
    MatchState Peer State Move :=
  events.foldl (matchStep cfg engine) (matchStart cfg peer balances)

/-- The driver waits for the acknowledgement of its move. -/
def Driver.Awaits (d : Driver State Move) : Prop :=
  ∃ frame proposedNonce resends, d.point = .awaiting frame proposedNonce resends

def Driver.Failed (d : Driver State Move) : Prop := ∃ error, d.point = .failed error

/-- No MOVE above the confirmed nonce is delivered while the driver waits for an acknowledgement,
and the wait does not time out more often than the move may be sent again. -/
def careful (w : MatchState Peer State Move) : MatchEvent Move Action → Bool
  | .timeout =>
    match w.driver.point with
    | .awaiting _ _ resends => resends < cfg.maxAckResends
    | _ => true
  | .driverReceives index =>
    match w.driver.point, w.toDriver[index]?.map cfg.runtime.decode with
    | .awaiting _ _ _, some (.ok (.move m)) => m.nonce ≤ w.driver.seat.nonce
    | _, _ => true
  | _ => true

def carefulRun (w : MatchState Peer State Move) : List (MatchEvent Move Action) → Bool
  | [] => true
  | event :: rest => careful cfg w event && carefulRun (matchStep cfg engine w event) rest

/-- The driver's own fault: it was to make too many moves, or its strategy planned a move that is
not legal or cannot be signed. -/
def OwnFault (d : Driver State Move) (planned : Option Move) (timestamp : UInt64) : Prop :=
  cfg.maxMoves ≤ d.moves ∨ ∃ mv, planned = some mv ∧
    ∀ result, cfg.runtime.propose d.seat mv timestamp ≠ .ok result

/-- The move is sent again, and neither it nor the answer is lost. -/
def driverRound (w : MatchState Peer State Move) : MatchState Peer State Move :=
  matchStep cfg engine (matchStep cfg engine (matchStep cfg engine w .timeout)
    (.peerReceives w.toPeer.length)) (.driverReceives w.toDriver.length)

/-- The peer acts, and neither its frame nor the answer is lost. -/
def peerRound (w : MatchState Peer State Move) (action : Action) : MatchState Peer State Move :=
  matchStep cfg engine (matchStep cfg engine (matchStep cfg engine w (.peerActs action))
    (.driverReceives w.toDriver.length)) (.peerReceives w.toPeer.length)

/-- The match keeps confirming moves. -/
structure KeepsConfirming (w : MatchState Peer State Move) : Prop where
  /-- The driver's pending move, unless the driver is ahead. -/
  driverMove : ∀ frame proposedNonce resends,
    w.driver.point = .awaiting frame proposedNonce resends → resends < cfg.maxAckResends →
    w.driver.seat.nonce.toNat ≤ engine.nonce w.peer →
    (driverRound cfg engine w).driver.point = .top ∧
      (driverRound cfg engine w).driver.seat.nonce = proposedNonce ∧
      engine.nonce (driverRound cfg engine w).peer = proposedNonce.toNat
  /-- Ahead of the peer the driver has confirmed a move that the peer waits for. -/
  ahead : engine.nonce w.peer < w.driver.seat.nonce.toNat → engine.waits w.peer = true
  /-- The peer's pending move, unless the peer is ahead. -/
  peerMove : engine.waits w.peer = true → engine.nonce w.peer ≤ w.driver.seat.nonce.toNat →
    w.driver.Awaits ∨ (∃ boundaryOk seen, w.driver.point = .parked boundaryOk seen) →
    ∃ action, ¬(peerRound cfg engine w action).driver.Failed ∧
      (peerRound cfg engine w action).driver.seat.nonce.toNat = engine.nonce w.peer + 1 ∧
      engine.nonce (peerRound cfg engine w action).peer = engine.nonce w.peer + 1

end

/-! ### The two ends stay in step -/

section

variable {cfg : DriverConfig State Move} {engine : PeerEngine Peer Action} {initial : State}
variable {stands : Peer → Side (Entry State Move) → Prop} {w : MatchState Peer State Move}
variable {x y x' y' : Side (Entry State Move)} {d : Driver State Move}

structure Matched (cfg : DriverConfig State Move) (initial : State)
    (stands : Peer → Side (Entry State Move) → Prop) (w : MatchState Peer State Move)
    (x y : Side (Entry State Move)) : Prop where
  drives : cfg.Drives initial w.driver x
  stands : stands w.peer y
  inStep : Handshake.InStep (cfg.runtime.Turn initial cfg.runtime.seat)
    (cfg.runtime.Turn initial cfg.runtime.seat.other) x y
  toPeer : x.Posts cfg.runtime.Issues (cfg.runtime.Turn initial cfg.runtime.seat) w.toPeer
  toDriver : y.Posts cfg.runtime.Reads (cfg.runtime.Turn initial cfg.runtime.seat.other) w.toDriver

theorem Matched.driverTakes (h : Matched cfg initial stands w x y)
    {taken : Driver State Move × List Bytes} (hdrives : cfg.Drives initial taken.1 x')
    (hstep : Handshake.Step cfg.runtime.Issues (cfg.runtime.Turn initial cfg.runtime.seat)
      (cfg.runtime.Turn initial cfg.runtime.seat.other) y x x' taken.2) :
    Matched cfg initial stands (w.driverTakes taken) x' y :=
  ⟨hdrives, h.stands, hstep.inStep, h.toPeer.append hstep.advances hstep.posts, h.toDriver⟩

theorem Matched.peerTakes (h : Matched cfg initial stands w x y) {taken : Peer × List Bytes}
    (hstands : stands taken.1 y')
    (hstep : Handshake.Step cfg.runtime.Reads (cfg.runtime.Turn initial cfg.runtime.seat.other)
      (cfg.runtime.Turn initial cfg.runtime.seat) x y y' taken.2) :
    Matched cfg initial stands (w.peerTakes taken) x y' :=
  ⟨h.drives, hstands, hstep.inStep.symm, h.toPeer, h.toDriver.append hstep.advances hstep.posts⟩

theorem Driver.not_failed {point : Point Move} (hpoint : d.point = point)
    (hok : ∀ error, point ≠ .failed error) : ¬d.Failed :=
  fun ⟨error, herror⟩ => hok error (hpoint.symm.trans herror)

/-- What the driver does at the head of the loop. -/
theorem DriverConfig.Drives.turn (h : cfg.Drives initial d x) (hfree : x.pending = none)
    (planned : Option Move) (timestamp : UInt64) :
    (cfg.Drives initial (cfg.turn d planned timestamp).1 x ∧
      (cfg.turn d planned timestamp).2 = [] ∧
      ((cfg.turn d planned timestamp).1.Failed → OwnFault cfg d planned timestamp)) ∨
    ∃ e frame, (cfg.turn d planned timestamp).2 = [frame] ∧
      cfg.runtime.Turn initial cfg.runtime.seat x.log e ∧
      cfg.runtime.Issues frame (.offer x.log.length e) ∧
      cfg.Drives initial (cfg.turn d planned timestamp).1 (x.offer e) ∧
      ¬(cfg.turn d planned timestamp).1.Failed := by
  have hidle : ∀ point : Point Move, (point = .finished ∨ ∃ boundaryOk, point = .parked boundaryOk 0) →
      cfg.Drives initial (d.goTo point) x ∧ ¬(d.goTo point).Failed := by
    rintro _ (rfl | ⟨boundaryOk, rfl⟩) <;>
      exact ⟨h.goTo hfree, Driver.not_failed rfl (by rintro error ⟨⟩)⟩
  rcases cfg.head_cases d false false with
    ⟨-, hhead⟩ | ⟨hmax, hhead⟩ | ⟨-, -, hhead⟩ | ⟨-, -, -, -, hhead⟩
  · obtain ⟨hdrives, hfailed⟩ := hidle .finished (.inl rfl)
    simp only [DriverConfig.turn, hhead, Driver.goTo]
    exact .inl ⟨hdrives, trivial, fun hf => absurd hf hfailed⟩
  · simp only [DriverConfig.turn, hhead, Driver.goTo]
    exact .inl ⟨h.goTo trivial, trivial, fun _ => .inl hmax⟩
  · obtain ⟨hdrives, hfailed⟩ := hidle (.parked (cfg.boundaryOk d) 0) (.inr ⟨_, rfl⟩)
    simp only [DriverConfig.turn, hhead, Driver.goTo]
    exact .inl ⟨hdrives, trivial, fun hf => absurd hf hfailed⟩
  · cases planned with
    | none =>
      obtain ⟨hdrives, hfailed⟩ := hidle (.parked (cfg.boundaryOk d) 0) (.inr ⟨_, rfl⟩)
      simp only [DriverConfig.turn, hhead, Driver.goTo]
      exact .inl ⟨hdrives, trivial, fun hf => absurd hf hfailed⟩
    | some mv =>
      have hready : cfg.Drives initial (d.goTo (.planning (cfg.boundaryOk d))) x := h.goTo hfree
      have hturn : cfg.turn d (some mv) timestamp =
          cfg.propose (d.goTo (.planning (cfg.boundaryOk d))) mv timestamp := by
        simp [DriverConfig.turn, hhead, Driver.goTo]
      rw [hturn]
      rcases hready.propose mv timestamp with ⟨error, herror, hresult⟩ |
        ⟨e, frame, _, hresult, -, -, hpoint, -, hlegal, hissues, hdrives⟩
      · rw [hresult]
        refine .inl ⟨h.goTo trivial, rfl, fun _ => .inr ⟨mv, rfl, ?_⟩⟩
        intro result hok
        have hseat : cfg.runtime.propose d.seat mv timestamp = .error error := herror
        rw [hseat] at hok
        cases hok
      · rw [hresult]
        exact .inr ⟨e, frame, rfl, hlegal, hissues, hdrives,
          Driver.not_failed hpoint (by rintro error ⟨⟩)⟩

/-- A driver that listens goes on from where it stands, or from the head of the loop. -/
theorem DriverConfig.Drives.listens (h : cfg.Drives initial d x)
    (hlistens : d.Awaits ∨ ∃ boundaryOk seen, d.point = .parked boundaryOk seen) (bytes : Bytes) :
    ∃ onNothing, cfg.receives d bytes = cfg.handle d bytes onNothing .top ∧
      onNothing.Holds cfg.runtime x ∧ (∀ error, onNothing ≠ .failed error) ∧
      (x.pending.isSome = true → d.Awaits) := by
  have hholds := h.holds
  rcases hlistens with ⟨frame, proposedNonce, resends, hpoint⟩ | ⟨boundaryOk, seen, hpoint⟩
  · rw [hpoint] at hholds
    exact ⟨.awaiting frame proposedNonce resends, by rw [DriverConfig.receives, hpoint]; rfl,
      hholds, by rintro error ⟨⟩, fun _ => ⟨_, _, _, hpoint⟩⟩
  · rw [hpoint] at hholds
    have hfree : x.pending = none := hholds
    exact ⟨.top, by rw [DriverConfig.receives, hpoint], hfree, by rintro error ⟨⟩, by simp [hfree]⟩

section

variable (h : Matched cfg initial stands w x y)
include h

theorem Matched.driverReceives (hturns : cfg.runtime.protocol.TurnBased) {bytes : Bytes}
    {message : Message (Entry State Move)} (hreads : cfg.runtime.Reads bytes message)
    (hbacks : y.Backs (cfg.runtime.Turn initial cfg.runtime.seat.other) message) :
    (∃ x', Matched cfg initial stands (w.driverTakes (cfg.receives w.driver bytes)) x' y) ∧
      ((cfg.receives w.driver bytes).1.Failed → w.driver.Failed ∨
        w.driver.Awaits ∧ ∃ m, cfg.runtime.decode bytes = .ok (.move m) ∧
          w.driver.seat.nonce < m.nonce) := by
  by_cases hlistens : w.driver.Awaits ∨ ∃ boundaryOk seen, w.driver.point = .parked boundaryOk seen
  · obtain ⟨_, hreceives, hnothing, hok, hawaits⟩ := h.drives.listens hlistens bytes
    rw [hreceives]
    have hcommit : ∀ x' : Side (Entry State Move), x'.pending = none →
        (Point.top : Point Move).Holds cfg.runtime x' := fun _ hfree => hfree
    rcases h.drives.receive hturns h.inStep hreads hbacks hnothing hcommit with
      ⟨x', _, _, hd, hdrives, hstep, hpoint⟩ | ⟨hd, hpending, hmove⟩
    · rw [hd]
      refine ⟨⟨x', h.driverTakes hdrives hstep⟩, fun hfailed => absurd hfailed ?_⟩
      rcases hpoint with ⟨-, hpoint⟩ | ⟨-, -, hpoint⟩
      · exact Driver.not_failed hpoint hok
      · exact Driver.not_failed hpoint (by rintro error ⟨⟩)
    · rw [hd]
      exact ⟨⟨x, h.driverTakes (h.drives.goTo trivial) (h.inStep.stays Side.posts_nil)⟩,
        fun _ => .inr ⟨hawaits hpending, hmove⟩⟩
  · have hsame : cfg.receives w.driver bytes = (w.driver, []) := by
      unfold DriverConfig.receives
      split
      · next hpoint => exact absurd (.inl ⟨_, _, _, hpoint⟩) hlistens
      · next hpoint => exact absurd (.inr ⟨_, _, hpoint⟩) hlistens
      · rfl
    rw [hsame]
    exact ⟨⟨x, h.driverTakes h.drives (h.inStep.stays Side.posts_nil)⟩, .inl⟩

theorem Matched.peerReceives (hpeer : engine.Honest cfg.runtime initial stands)
    (hturns : cfg.runtime.protocol.TurnBased) {bytes : Bytes} {message : Message (Entry State Move)}
    (hissues : cfg.runtime.Issues bytes message)
    (hbacks : x.Backs (cfg.runtime.Turn initial cfg.runtime.seat) message) :
    ∃ y', Matched cfg initial stands (w.peerTakes (engine.receive w.peer bytes)) x y' := by
  have hinStep := h.inStep.symm
  have hstay : ∀ out, engine.receive w.peer bytes = (w.peer, out) →
      y.Posts cfg.runtime.Reads (cfg.runtime.Turn initial cfg.runtime.seat.other) out →
      ∃ y', Matched cfg initial stands (w.peerTakes (engine.receive w.peer bytes)) x y' := by
    intro out hsame hout
    rw [hsame]
    exact ⟨y, h.peerTakes h.stands (hinStep.stays hout)⟩
  have hne : cfg.runtime.seat.other ≠ cfg.runtime.seat := Engine.otherParty_ne _
  cases message with
  | offer k e =>
    have hby : e.bySeat = cfg.runtime.seat := hbacks.1.1.1
    rcases hinStep.offer_cases (cfg.runtime.turn_exclusive hturns hne) hbacks with
      ⟨hk, hat⟩ | ⟨rfl, hfree, hlog, hpending⟩ | ⟨rfl, -⟩
    · by_cases hlast : k + 1 = y.log.length
      · obtain ⟨_, hsame, hreads⟩ := hpeer.reacknowledges _ _ _ _ _ h.stands hlast hat hby hissues
        exact hstay _ hsame (Side.posts_singleton hreads hat)
      · obtain ⟨_, hsame, hreads⟩ :=
          hpeer.repeats _ _ _ _ _ h.stands (by omega) hat hby hissues
        exact hstay _ hsame fun reply hreply => ⟨_, hreads reply hreply, hat⟩
    · have hturn := h.inStep.mineTurn e hpending
      rw [← hlog] at hturn
      obtain ⟨_, _, hreceive, hstands, hreads⟩ :=
        hpeer.accepts _ _ _ _ h.stands hfree hturn hissues
      rw [hreceive]
      exact ⟨_, h.peerTakes hstands (hinStep.accepts hfree hlog hpending hreads)⟩
    · exact hstay [] (hpeer.refuses _ _ _ _ _ h.stands (Nat.lt_succ_self _) hissues) Side.posts_nil
  | receipt _ e =>
    rcases hinStep.receipt_cases hbacks with ⟨hk, _⟩ | ⟨rfl, hpending, hlog⟩
    · exact hstay [] (hpeer.ignores _ _ _ _ _ h.stands hk hissues) Side.posts_nil
    · obtain ⟨_, hreceive, hstands⟩ := hpeer.confirms _ _ _ _ h.stands hpending hissues
      rw [hreceive]
      exact ⟨_, h.peerTakes hstands (hinStep.commits hpending hlog)⟩

/-- Every event keeps the two ends in step, and what makes the driver fail is its own fault or a
careless event. -/
theorem Matched.step (hpeer : engine.Honest cfg.runtime initial stands)
    (hturns : cfg.runtime.protocol.TurnBased) (event : MatchEvent Move Action) :
    (∃ x' y', Matched cfg initial stands (matchStep cfg engine w event) x' y') ∧
      ((matchStep cfg engine w event).driver.Failed → w.driver.Failed ∨
        (∃ planned timestamp, event = .turn planned timestamp ∧
          OwnFault cfg w.driver planned timestamp) ∨ careful cfg w event = false) := by
  cases event with
  | turn planned timestamp =>
    simp only [matchStep]
    split
    · next htop =>
        have hfree := h.drives.holds
        rw [htop] at hfree
        rcases h.drives.turn hfree planned timestamp with ⟨hdrives, hsent, hfault⟩ |
          ⟨e, frame, hsent, hturn, hissues, hdrives, hgood⟩
        · refine ⟨⟨x, y, h.driverTakes hdrives ?_⟩, fun hf => .inr (.inl ⟨_, _, rfl, hfault hf⟩)⟩
          rw [hsent]
          exact h.inStep.stays Side.posts_nil
        · refine ⟨⟨_, y, h.driverTakes hdrives ?_⟩, fun hf => absurd hf hgood⟩
          rw [hsent]
          exact h.inStep.offers hfree hturn hissues
    · exact ⟨⟨x, y, h⟩, .inl⟩
  | timeout =>
    simp only [matchStep]
    split
    · next frame proposedNonce resends hpoint =>
        have hholds := h.drives.holds
        rw [hpoint] at hholds
        obtain ⟨hnonce, e, hpending, hissues⟩ := hholds
        unfold DriverConfig.timeout
        split
        · next hmax =>
            refine ⟨⟨x, y, h.driverTakes (h.drives.goTo trivial) (h.inStep.stays Side.posts_nil)⟩,
              fun _ => .inr (.inr ?_)⟩
            simp only [careful, hpoint, decide_eq_false_iff_not]
            omega
        · refine ⟨⟨x, y, h.driverTakes (h.drives.goTo ⟨hnonce, e, hpending, hissues⟩)
            (h.inStep.resends hpending hissues)⟩, ?_⟩
          rintro ⟨_, ⟨⟩⟩
    · exact ⟨⟨x, y, h⟩, .inl⟩
  | driverReceives index =>
    simp only [matchStep]
    cases hbytes : w.toDriver[index]? with
    | none => exact ⟨⟨x, y, h⟩, .inl⟩
    | some bytes =>
      obtain ⟨message, hreads, hbacks⟩ := h.toDriver bytes (List.mem_of_getElem? hbytes)
      obtain ⟨⟨x', hmatched⟩, hfailed⟩ := h.driverReceives hturns hreads hbacks
      refine ⟨⟨x', y, hmatched⟩, fun hf => ?_⟩
      rcases hfailed hf with hearlier | ⟨⟨_, _, _, hpoint⟩, _, hdecode, hnonce⟩
      · exact .inl hearlier
      · refine .inr (.inr ?_)
        simp only [careful, hpoint, hbytes, Option.map_some, hdecode,
          decide_eq_false_iff_not]
        exact UInt64.not_le.mpr hnonce
  | peerReceives index =>
    simp only [matchStep]
    cases hbytes : w.toPeer[index]? with
    | none => exact ⟨⟨x, y, h⟩, .inl⟩
    | some bytes =>
      obtain ⟨_, hissues, hbacks⟩ := h.toPeer bytes (List.mem_of_getElem? hbytes)
      obtain ⟨y', hmatched⟩ := h.peerReceives hpeer hturns hissues hbacks
      exact ⟨⟨x, y', hmatched⟩, .inl⟩
  | peerActs action =>
    simp only [matchStep]
    obtain ⟨y', hy', hstands, hsent⟩ := hpeer.acts _ _ action h.stands
    rcases hy' with rfl | ⟨e, hfree, hturn, rfl⟩
    · exact ⟨⟨x, y', h.peerTakes hstands (h.inStep.symm.stays hsent)⟩, .inl⟩
    · exact ⟨⟨x, y.offer e, h.peerTakes hstands
        ⟨.offer e hfree, h.inStep.symm.offer hfree hturn, hsent⟩⟩, .inl⟩

end

theorem matchAfter_concat (peer : Peer) (balances : Balances)
    (events : List (MatchEvent Move Action)) (event : MatchEvent Move Action) :
    matchAfter cfg engine peer balances (events ++ [event]) =
      matchStep cfg engine (matchAfter cfg engine peer balances events) event := by
  simp [matchAfter]

theorem carefulRun_concat (w : MatchState Peer State Move)
    (events : List (MatchEvent Move Action)) (event : MatchEvent Move Action) :
    carefulRun cfg engine w (events ++ [event]) = (carefulRun cfg engine w events &&
      careful cfg (events.foldl (matchStep cfg engine) w) event) := by
  induction events generalizing w with
  | nil => simp [carefulRun]
  | cons _ _ ih => simp [carefulRun, ih, Bool.and_assoc]

theorem matched_after {balances : Balances} {peer : Peer}
    (hpeer : engine.Honest cfg.runtime (cfg.runtime.withCodec balances).state stands)
    (hturns : cfg.runtime.protocol.TurnBased) (hstart : stands peer Side.fresh)
    (events : List (MatchEvent Move Action)) : ∃ x y,
      Matched cfg (cfg.runtime.withCodec balances).state stands
        (matchAfter cfg engine peer balances events) x y := by
  induction events using List.reverseRecOn with
  | nil =>
    exact ⟨_, _, cfg.drives_start balances, hstart, Handshake.inStep_fresh, Side.posts_nil,
      Side.posts_nil⟩
  | append_singleton _ event ih =>
    obtain ⟨_, _, hmatched⟩ := ih
    rw [matchAfter_concat]
    exact (hmatched.step hpeer hturns event).1

/-! ### Rounds without losses -/

section

variable (h : Matched cfg initial stands w x y)
include h

variable (hpeer : engine.Honest cfg.runtime initial stands)
include hpeer

variable (hturns : cfg.runtime.protocol.TurnBased)
include hturns

theorem Matched.driver_move_confirmed {frame : Bytes} {proposedNonce : UInt64}
    {resends : Nat} (hpoint : w.driver.point = .awaiting frame proposedNonce resends)
    (hresends : resends < cfg.maxAckResends) (hbehind : x.log.length ≤ y.log.length) :
    (driverRound cfg engine w).driver.point = .top ∧
      (driverRound cfg engine w).driver.seat.nonce = proposedNonce ∧
      engine.nonce (driverRound cfg engine w).peer = proposedNonce.toNat := by
  have hholds := h.drives.holds
  rw [hpoint] at hholds
  obtain ⟨rfl, e, hpending, hissues⟩ := hholds
  have hturn := h.inStep.mineTurn e hpending
  have hbacks := Side.backs_pending hpending hturn
  have hne : cfg.runtime.seat.other ≠ cfg.runtime.seat := Engine.otherParty_ne _
  -- the peer confirms the move, or acknowledges it again
  obtain ⟨q', reply, hreceive, hstands, hreads⟩ : ∃ q' reply,
      engine.receive w.peer frame = (q', [reply]) ∧
      (∃ y', stands q' y' ∧ y'.log.length = x.log.length + 1) ∧
      cfg.runtime.Reads reply (.receipt x.log.length e) := by
    rcases h.inStep.symm.offer_cases (cfg.runtime.turn_exclusive hturns hne) hbacks with
      ⟨hk, hat⟩ | ⟨hk, hfree, hlog, -⟩ | ⟨hk, -⟩
    · have hlast : x.log.length + 1 = y.log.length := by
        have hle := h.inStep.symm.length_le
        omega
      obtain ⟨reply, hsame, hreads⟩ :=
        hpeer.reacknowledges _ _ _ _ _ h.stands hlast hat hturn.1.1 hissues
      exact ⟨w.peer, reply, hsame, ⟨y, h.stands, hlast.symm⟩, hreads⟩
    · rw [← hlog] at hturn
      rw [hk] at hissues ⊢
      obtain ⟨q', reply, hreceive, hstands, hreads⟩ :=
        hpeer.accepts _ _ _ _ h.stands hfree hturn hissues
      exact ⟨q', reply, hreceive, ⟨_, hstands, by simp [Side.accept]⟩, hreads⟩
    · omega
  obtain ⟨_, hstands, hlength⟩ := hstands
  obtain ⟨_, _, hwrites, hverify, hdecode⟩ := hreads
  have hbound : x.log.length + 1 < 2 ^ 64 := hwrites.1
  -- the driver after the timeout
  have hresent : cfg.Drives initial (w.driver.goTo (.awaiting frame (nonceAt x.log.length)
      (resends + 1))) x := h.drives.goTo ⟨rfl, e, hpending, hissues⟩
  have htop : Point.Holds cfg.runtime (x.commit e) (.top : Point Move) := rfl
  obtain ⟨d', hd, hpoint', -, hdrives⟩ : ∃ d', cfg.handle (w.driver.goTo (.awaiting frame
      (nonceAt x.log.length) (resends + 1))) reply (.awaiting frame (nonceAt x.log.length)
      (resends + 1)) .top = (d', []) ∧ _ :=
    hresent.handle_ack hpending hwrites hverify hdecode htop
  have hsent : (w.toPeer ++ [frame])[w.toPeer.length]? = some frame :=
    List.getElem?_concat_length
  have hanswer : (w.toDriver ++ [reply])[w.toDriver.length]? = some reply :=
    List.getElem?_concat_length
  have hround : driverRound cfg engine w =
      ⟨d', q', w.toPeer ++ [frame] ++ [], w.toDriver ++ [reply]⟩ := by
    simp only [driverRound, matchStep, hpoint, DriverConfig.timeout,
      if_neg (Nat.not_le.mpr hresends), MatchState.driverTakes, hsent, Option.map_some,
      Option.getD_some, hreceive, MatchState.peerTakes, hanswer, DriverConfig.receives,
      Driver.goTo, DriverConfig.ackArrives]
    rw [Driver.goTo] at hd
    rw [hd]
  rw [hround]
  refine ⟨hpoint', ?_, ?_⟩
  · apply UInt64.toNat_inj.mp
    rw [hdrives.follows.nonce, toNat_nonceAt hbound]
    simp [Side.commit]
  · rw [hpeer.nonce _ _ hstands, hlength, toNat_nonceAt hbound]

theorem Matched.peer_move_confirmed {e : Entry State Move} (hpending : y.pending = some e)
    (hbehind : y.log.length ≤ x.log.length)
    (hlistens : w.driver.Awaits ∨ ∃ boundaryOk seen, w.driver.point = .parked boundaryOk seen) :
    ∃ action, ¬(peerRound cfg engine w action).driver.Failed ∧
      (peerRound cfg engine w action).driver.seat.nonce.toNat = y.log.length + 1 ∧
      engine.nonce (peerRound cfg engine w action).peer = y.log.length + 1 := by
  obtain ⟨action, bytes, hact, _, _, hwrites, hverify, hdecode⟩ :=
    hpeer.resends _ _ e h.stands hpending
  have hturn := h.inStep.yoursTurn e hpending
  have hbacks := Side.backs_pending hpending hturn
  have hne : cfg.runtime.seat ≠ cfg.runtime.seat.other := (Engine.otherParty_ne _).symm
  have hby : e.bySeat ≠ cfg.runtime.seat := by
    rw [hturn.1.1]
    exact hne.symm
  -- the driver confirms the move, or acknowledges it again
  obtain ⟨d', reply, hreceive, hgood, hnonce, hissues⟩ : ∃ d' reply,
      cfg.receives w.driver bytes = (d', [reply]) ∧ ¬d'.Failed ∧
      d'.seat.nonce.toNat = y.log.length + 1 ∧
      cfg.runtime.Issues reply (.receipt y.log.length e) := by
    obtain ⟨onNothing, hreceives, hnothing, hok, -⟩ := h.drives.listens hlistens bytes
    rw [hreceives]
    rcases h.inStep.offer_cases (cfg.runtime.turn_exclusive hturns hne) hbacks with
      ⟨hk, hat⟩ | ⟨hk, hfree, hlog, -⟩ | ⟨hk, -⟩
    · have hlast : y.log.length + 1 = x.log.length := by
        have hle := h.inStep.length_le
        omega
      obtain ⟨reply, hhandle, hissues⟩ :=
        h.drives.follows.handle_last_offer hlast hat hby hwrites hdecode
      obtain ⟨d', hd, hpoint, -, hdrives⟩ : ∃ d',
          cfg.handle w.driver bytes onNothing .top = (d', [reply]) ∧ _ :=
        h.drives.handle_same hhandle hnothing
      refine ⟨d', reply, hd, Driver.not_failed hpoint hok, ?_, hissues⟩
      rw [hdrives.follows.nonce, hlast]
    · rw [hk] at hwrites hdecode ⊢
      rw [← hlog] at hturn
      have htop : Point.Holds cfg.runtime (x.accept e) (.top : Point Move) := hfree
      obtain ⟨reply, d', hd, hpoint, -, hissues, hdrives⟩ : ∃ reply d',
          cfg.handle w.driver bytes onNothing .top = (d', [reply]) ∧ _ :=
        h.drives.handle_next hfree hby hturn.1.2 hwrites hverify hdecode htop
      refine ⟨d', reply, hd, Driver.not_failed hpoint (by rintro error ⟨⟩), ?_, hissues⟩
      rw [hdrives.follows.nonce]
      simp [Side.accept]
    · omega
  obtain ⟨q', hconfirm, hstands⟩ := hpeer.confirms _ _ e reply h.stands hpending hissues
  have hround : peerRound cfg engine w action =
      ⟨d', q', w.toPeer ++ [reply], w.toDriver ++ [bytes] ++ []⟩ := by
    simp [peerRound, matchStep, hact, MatchState.peerTakes, hreceive,
      MatchState.driverTakes, hconfirm]
  refine ⟨action, ?_⟩
  rw [hround]
  refine ⟨hgood, hnonce, ?_⟩
  rw [hpeer.nonce _ _ hstands]
  simp [Side.commit]

theorem Matched.keepsConfirming : KeepsConfirming cfg engine w where
  driverMove := by
    intro frame proposedNonce resends hpoint hresends hbehind
    rw [h.drives.follows.nonce, hpeer.nonce _ _ h.stands] at hbehind
    exact h.driver_move_confirmed hpeer hturns hpoint hresends hbehind
  ahead := by
    intro hahead
    rw [h.drives.follows.nonce, hpeer.nonce _ _ h.stands] at hahead
    obtain ⟨e, hpending, -⟩ := h.inStep.symm.behind hahead
    rw [hpeer.waits _ _ h.stands, hpending]
    rfl
  peerMove := by
    intro hwaits hbehind hlistens
    rw [hpeer.waits _ _ h.stands] at hwaits
    rw [hpeer.nonce _ _ h.stands] at hbehind ⊢
    rw [h.drives.follows.nonce] at hbehind
    obtain ⟨_, hpending⟩ := Option.isSome_iff_exists.mp hwaits
    exact h.peer_move_confirmed hpeer hturns hpending hbehind hlistens

end

end

/-- In a careful run the driver fails by its own fault only, and the match keeps confirming
moves. -/
theorem careful_match_not_aborted {cfg : DriverConfig State Move}
    {engine : PeerEngine Peer Action} {stands : Peer → Side (Entry State Move) → Prop}
    {balances : Balances} {peer : Peer}
    (hpeer : engine.Honest cfg.runtime (cfg.runtime.withCodec balances).state stands)
    (hturns : cfg.runtime.protocol.TurnBased) (hstart : stands peer Side.fresh)
    (events : List (MatchEvent Move Action))
    (hcareful : carefulRun cfg engine (matchStart cfg peer balances) events = true) :
    ((matchAfter cfg engine peer balances events).driver.Failed →
      ∃ before planned timestamp rest, events = before ++ .turn planned timestamp :: rest ∧
        OwnFault cfg (matchAfter cfg engine peer balances before).driver planned timestamp) ∧
    KeepsConfirming cfg engine (matchAfter cfg engine peer balances events) := by
  obtain ⟨_, _, hmatched⟩ := matched_after hpeer hturns hstart events
  refine ⟨?_, hmatched.keepsConfirming hpeer hturns⟩
  clear hmatched
  induction events using List.reverseRecOn with
  | nil =>
    rintro ⟨_, ⟨⟩⟩
  | append_singleton events event ih =>
    intro hfailed
    obtain ⟨_, _, hmatched⟩ := matched_after hpeer hturns hstart events
    rw [carefulRun_concat, Bool.and_eq_true] at hcareful
    obtain ⟨hprior, hlast⟩ := hcareful
    rw [matchAfter_concat] at hfailed
    rcases (hmatched.step hpeer hturns event).2 hfailed with
      hearlier | ⟨planned, timestamp, rfl, hfault⟩ | hcareless
    · obtain ⟨before, planned, timestamp, rest, hsplit, hfault⟩ := ih hprior hearlier
      exact ⟨before, planned, timestamp, rest ++ [event], by rw [hsplit]; simp, hfault⟩
    · exact ⟨events, planned, timestamp, [], rfl, hfault⟩
    · exact absurd hlast (Bool.not_eq_true _ ▸ hcareless)

/-! ### The TypeScript tunnel as the peer -/

inductive TsAction (TsMove : Type)
  | propose (move : TsMove) (timestamp : Int)
  | resend

namespace MixedPair

variable {TsState TsMove : Type} (pair : MixedPair TsState TsMove State Move)

def tsTurnOf (s : Engine.Seat TsState TsMove) (result : Except String (Engine.Turn TsState TsMove)) :
    Engine.Seat TsState TsMove × List Bytes :=
  match result with
  | .ok turn => (turn.seat, turn.sent.map pair.encodeFrame)
  | .error _ => (s, [])

def engine : PeerEngine (Engine.Seat TsState TsMove) (TsAction TsMove) where
  receive s bytes := pair.tsTurnOf s (pair.decodeFrame bytes >>= Engine.onFrame pair.ts s)
  act s
    | .propose move timestamp => pair.tsTurnOf s (Engine.propose pair.ts s move timestamp)
    | .resend => pair.tsTurnOf s (.ok (Engine.resendPending pair.ts s))
  nonce s := s.nonce.toNat
  waits s := s.pending.isSome

/-- The seat stands where the side stands, after legal moves. -/
structure TsStands (g : GameMap TsState TsMove State Move) (initial : State)
    (s : Engine.Seat TsState TsMove) (y : Side (Entry State Move)) : Prop where
  follows : pair.TsFollows g initial s y
  reaches : pair.rust.protocol.Reaches initial (stateAfter initial y.log)
  turn : ∀ e, y.pending = some e → pair.rust.Turn initial pair.ts.selfParty y.log e

variable {pair} {g : GameMap TsState TsMove State Move} {start s : Engine.Seat TsState TsMove}
variable {balances : Balances} {initial : State}

theorem receive_eq {bytes : Bytes} {frame : Engine.Frame TsMove}
    (hdecode : pair.decodeFrame bytes = .ok frame) :
    pair.engine.receive s bytes = pair.tsTurnOf s (Engine.onFrame pair.ts s frame) := by
  simp [engine, hdecode, ok_bind]

theorem tsTurnOf_of_fails {result : Except String (Engine.Turn TsState TsMove)}
    (hfails : ∀ turn, result ≠ .ok turn) : pair.tsTurnOf s result = (s, []) := by
  cases result with
  | ok turn => exact absurd rfl (hfails turn)
  | error => rfl

/-- A TypeScript tunnel is an honest peer of games that keep to the locked total. -/
theorem Honest.engine_honest (h : pair.Honest g start balances)
    (hlocked : ∀ state, pair.rust.protocol.Reaches initial state →
      pair.lockedIn state = pair.ts.total) :
    pair.engine.Honest pair.rust initial (pair.TsStands g initial) where
  nonce := by
    intro s y hs
    change s.nonce.toNat = _
    rw [hs.follows.nonce, Int.toNat_natCast]
  waits := by
    intro s y hs
    change s.pending.isSome = _
    rcases hs.follows.pending with ⟨hs', hy⟩ | ⟨e, msg, _, move, hy, -, -, -, -, hs'⟩
    · rw [hs', hy]
      rfl
    · rw [hs', hy]
      rfl
  acts := by
    intro s y action hs
    rw [← h.sides]
    cases action with
    | propose move timestamp =>
      change ∃ y', _ ∧ pair.TsStands g initial
        (pair.tsTurnOf s (Engine.propose pair.ts s move timestamp)).1 y' ∧
        ∀ bytes ∈ (pair.tsTurnOf s (Engine.propose pair.ts s move timestamp)).2, _
      cases hok : Engine.propose pair.ts s move timestamp with
      | error =>
        exact ⟨y, .inl rfl, hs, Side.posts_nil⟩
      | ok =>
        obtain ⟨hfree, -, e, frame, hsent, hturn, -, hfollows, hreads⟩ :=
          hs.follows.propose h hok
        refine ⟨y.offer e, .inr ⟨e, hfree, hturn, rfl⟩, ⟨hfollows, hs.reaches, ?_⟩, ?_⟩
        · rintro _ ⟨⟩
          exact hturn
        · simp only [tsTurnOf, hsent]
          exact Side.posts_singleton hreads (Side.backs_pending rfl hturn)
    | resend =>
      refine ⟨y, .inl rfl, hs, ?_⟩
      change y.Posts pair.rust.Reads _ ((Engine.resendPending pair.ts s).sent.map pair.encodeFrame)
      cases hpending : y.pending with
      | none =>
        rw [Engine.resendPending, hs.follows.pending_none hpending]
        exact Side.posts_nil
      | some e =>
        obtain ⟨_, hresend, hreads⟩ := hs.follows.resend h hpending
        rw [hresend]
        exact Side.posts_singleton hreads (Side.backs_pending hpending (hs.turn e hpending))
  resends := by
    intro s y e hs hpending
    obtain ⟨frame, hresend, hreads⟩ := hs.follows.resend h hpending
    refine ⟨.resend, pair.encodeFrame frame, ?_, hreads⟩
    change pair.tsTurnOf s (.ok (Engine.resendPending pair.ts s)) = _
    rw [hresend]
    rfl
  accepts := by
    intro s y e bytes hs hfree hturn hissues
    obtain ⟨msg, hwrites, hdecode⟩ := h.ts_reads hissues
    have hnext := hs.reaches.step hturn.1.2
    obtain ⟨turn, held, frame, hok, hsent, -, -, hfollows, hreads⟩ :=
      hs.follows.next_offer h hfree hturn hwrites (hlocked _ hnext)
    refine ⟨turn.seat, pair.encodeFrame frame, ?_, ⟨hfollows, ?_, ?_⟩, hreads⟩
    · rw [receive_eq hdecode, hok]
      simp [tsTurnOf, hsent]
    · simpa [Side.accept] using hnext
    · intro e' he'
      rw [Side.accept, hfree] at he'
      cases he'
  reacknowledges := by
    intro s y k e bytes hs hlast hat hby hissues
    obtain ⟨msg, hwrites, hdecode⟩ := h.ts_reads hissues
    obtain ⟨frame, _, hok, hreads⟩ :=
      hs.follows.last_offer h hlast hat hby hwrites (pair.rust.sign msg)
    refine ⟨pair.encodeFrame frame, ?_, hreads⟩
    rw [receive_eq hdecode, hok]
    rfl
  repeats := by
    intro s y k e bytes hs hk hat hby hissues
    obtain ⟨msg, hwrites, hdecode⟩ := h.ts_reads hissues
    refine ⟨[], ?_, ?_⟩
    · rw [receive_eq hdecode, hs.follows.older_offer h hk hby hwrites]
      rfl
    · rintro reply ⟨⟩
  refuses := by
    intro s y k e bytes hs hk hissues
    obtain ⟨msg, hwrites, hdecode⟩ := h.ts_reads hissues
    rw [receive_eq hdecode]
    exact tsTurnOf_of_fails (hs.follows.early_offer hk hwrites _)
  confirms := by
    intro s y e bytes hs hpending hissues
    obtain ⟨msg, hwrites, hdecode⟩ := h.ts_reads hissues
    obtain ⟨turn, _, hok, hsent, -, -, -, hfollows⟩ := hs.follows.receipt h hpending hwrites
    refine ⟨turn.seat, ?_, hfollows, ?_, ?_⟩
    · rw [receive_eq hdecode, hok]
      simp [tsTurnOf, hsent]
    · simpa [Side.commit] using hs.reaches.step (hs.turn e hpending).1.2
    · rintro e' ⟨⟩
  ignores := by
    intro s y k e bytes hs hk hissues
    obtain ⟨msg, hwrites, hdecode⟩ := h.ts_reads hissues
    have hold : Engine.onFrame pair.ts s (pair.tsFrame g (pair.rust.sign msg) (.receipt k e)) =
        .ok { seat := s } := hs.follows.old_receipt hk hwrites _
    rw [receive_eq hdecode, hold]
    rfl

theorem Honest.tsStands_start (h : pair.Honest g start balances) :
    pair.TsStands g (pair.rust.withCodec balances).state start Side.fresh :=
  ⟨h.tsFollows, .start, by rintro e ⟨⟩⟩

end MixedPair

namespace Sample

/-- A driver for party A that sends a move again up to `resends` times. -/
def driver (resends : Nat) : DriverConfig Nat Unit where
  runtime := runtime .A
  canGracefullyClose _ := true
  proposerForNonce _ := none
  maxMoves := 100
  maxAckResends := resends
  controlled := false

theorem engine_honest_sample : mixedPair.engine.Honest (driver 150).runtime
    ((driver 150).runtime.withCodec ⟨10, 10⟩).state
    (mixedPair.TsStands identity ((driver 150).runtime.withCodec ⟨10, 10⟩).state) :=
  honest_mixedPair.engine_honest fun _ _ => rfl

/-- Party A moves; the acknowledgement is lost, and the move is sent again. -/
def lostAckResent : List (MatchEvent Unit (TsAction Unit)) :=
  [.turn (some ()) 5, .peerReceives 0, .timeout, .peerReceives 1, .driverReceives 1]

/-- Party A moves; the acknowledgement is lost, and party B's next move arrives first. -/
def overtaken : List (MatchEvent Unit (TsAction Unit)) :=
  [.turn (some ()) 5, .peerReceives 0, .peerActs (.propose () 6), .driverReceives 1]

/-- The move is lost once and then the acknowledgement is lost once. -/
def lostBoth : List (MatchEvent Unit (TsAction Unit)) :=
  [.turn (some ()) 5, .timeout, .peerReceives 1, .timeout]

end Sample

theorem careful_match_not_aborted_lost_ack :
    carefulRun (Sample.driver 150) Sample.mixedPair.engine
      (matchStart (Sample.driver 150) Sample.tsSeat ⟨10, 10⟩) Sample.lostAckResent = true ∧
    (matchAfter (Sample.driver 150) Sample.mixedPair.engine Sample.tsSeat ⟨10, 10⟩
      Sample.lostAckResent).driver.seat.nonce = 1 ∧
    ((matchAfter (Sample.driver 150) Sample.mixedPair.engine Sample.tsSeat ⟨10, 10⟩
        Sample.lostAckResent).driver.Failed →
      ∃ before planned timestamp rest,
        Sample.lostAckResent = before ++ .turn planned timestamp :: rest ∧
        OwnFault (Sample.driver 150) (matchAfter (Sample.driver 150) Sample.mixedPair.engine
          Sample.tsSeat ⟨10, 10⟩ before).driver planned timestamp) ∧
    KeepsConfirming (Sample.driver 150) Sample.mixedPair.engine
      (matchAfter (Sample.driver 150) Sample.mixedPair.engine Sample.tsSeat ⟨10, 10⟩
        Sample.lostAckResent) :=
  ⟨by decide +kernel, by decide +kernel,
    careful_match_not_aborted Sample.engine_honest_sample Sample.turnBased_turnGame
      Sample.honest_mixedPair.tsStands_start Sample.lostAckResent (by decide +kernel)⟩

/-- The peer's own next move, arriving before the acknowledgement, aborts the match, and so does
one loss of each of the two frames if the move may be sent again once. -/
theorem overtaken_ack_aborts_match :
    Sample.mixedPair.engine.Honest (Sample.driver 150).runtime
      ((Sample.driver 150).runtime.withCodec ⟨10, 10⟩).state
      (Sample.mixedPair.TsStands Sample.identity
        ((Sample.driver 150).runtime.withCodec ⟨10, 10⟩).state) ∧
    (Sample.driver 150).runtime.protocol.TurnBased ∧
    (matchAfter (Sample.driver 150) Sample.mixedPair.engine Sample.tsSeat ⟨10, 10⟩
      Sample.overtaken).driver.point = .failed (.verification "expected ack, got move") ∧
    (matchAfter (Sample.driver 1) Sample.mixedPair.engine Sample.tsSeat ⟨10, 10⟩
      Sample.lostBoth).driver.point =
        .failed (.frameTransport (.transport "no ack for nonce 1 after 1 resends")) :=
  ⟨Sample.engine_honest_sample, Sample.turnBased_turnGame, by decide +kernel, by decide +kernel⟩

end DopamintArena.Rust
