import DopamintArena.Rust.Coordinated

/-!
How two drivers of a tunnel stop together. A stop that is requested after the
proposer has looked at the stop flag and before it has entered the gate lets the
peer leave while the proposer goes on to propose, and the proposer fails. A stop
that is requested while a driver is about to subscribe to it does not wake that
driver; nor is a driver woken that looks at the gate after its move was answered
and before the peer has cleared it. Its peer leaves and waits for it in `settle`.

In any other run no driver fails, the drivers that have left stand at one nonce
with one transcript, and once they wind down every run has them leave after a
bounded number of steps.
-/

namespace DopamintArena.Rust

open Foundation TunnelSetup Tunnel
open Foundation.Handshake (Side unanswered)

variable {State Move : Type}

namespace TunnelSetup

variable (T : TunnelSetup State Move) (plans : State → Option Seat)

/-- Each event changes something, and none requests a stop again. -/
def Effective (now : RunLevelControl × Tunnel State Move) : List (TunnelEvent Move) → Prop
  | [] => True
  | event :: rest => event ≠ .requestStop ∧ T.step now event ≠ now ∧ Effective (T.step now event) rest

/-- Something can still happen, other than a request to stop. -/
def GoesOn (now : RunLevelControl × Tunnel State Move) : Prop :=
  ∃ event, event ≠ .requestStop ∧ T.calm plans now event = true ∧ T.step now event ≠ now

structure StopsTogether (now : RunLevelControl × Tunnel State Move) : Prop where
  noError : ∀ seat error, (now.2.driver seat).point ≠ .failed error
  /-- Drivers that have both left settle the same. -/
  agree : (∀ seat, (now.2.driver seat).point = .finished) → ∀ seat seat',
    (now.2.driver seat).seat.nonce = (now.2.driver seat').seat.nonce ∧
    T.protocol.balances (now.2.driver seat).seat.state =
      T.protocol.balances (now.2.driver seat').seat.state ∧
    rootForTunnel T.blake2b256 T.tunnelId (now.2.driver seat).recorded =
      rootForTunnel T.blake2b256 T.tunnelId (now.2.driver seat').recorded
  /-- Drivers that wind down go on until both have left. -/
  progress : T.WindsDown now → (∀ seat, (now.2.driver seat).moves < T.maxMoves seat) →
    (∀ seat, (now.2.driver seat).point = .finished) ∨ T.GoesOn plans now
  /-- And they do not go on for ever. -/
  bounded : T.WindsDown now → ∀ events, T.calmRun plans now events = true →
    T.Effective now events → events.length ≤ T.remaining now

end TunnelSetup

section

variable {T : TunnelSetup State Move} {plans : State → Option Seat} {initial : State}
variable {run : RunLevelControl} {t : Tunnel State Move} {side : Seat → Side (Entry State Move)}
variable {seat : Seat}

namespace Coordinated

/-! ### Drivers that wind down go on -/

variable {now : RunLevelControl × Tunnel State Move} {event : TunnelEvent Move}

theorem moved (seat : Seat)
    (hpoint : ((T.step now event).2.driver seat).point ≠ (now.2.driver seat).point) :
    T.step now event ≠ now := by
  intro hsame
  rw [hsame] at hpoint
  exact hpoint rfl

/-- After a stop an orderly event that does not misread the gate is calm. -/
theorem calm_of_stopped (hstopped : run.stopped = true)
    (horderly : T.orderly plans t event = true)
    (hlooks : misreads (run, t) event = false) :
    T.calm plans (run, t) event = true := by
  simp only [calm, hstopped, Bool.true_or, Bool.and_true, hlooks, Bool.not_false]
  exact horderly

theorem runs (hstopped : run.stopped = true) (hbelow : (t.driver seat).moves < T.maxMoves seat)
    (hlooks : misreads (run, t) (.driver seat .run) = false)
    (hpoint : ((T.advance run t seat).2.driver seat).point ≠ (t.driver seat).point) :
    T.GoesOn plans (run, t) := by
  refine ⟨.driver seat .run, by simp, calm_of_stopped hstopped ?_ hlooks, moved seat hpoint⟩
  rw [orderly]
  split
  · simp [hbelow]
  · rfl

theorem goes_on (hsound : T.Sound) (h : Coordinated T plans initial run t side)
    (hstopped : run.stopped = true) (hbelow : (t.driver seat).moves < T.maxMoves seat)
    (hbusy : ∀ frame proposedNonce resends,
      (t.driver seat).point ≠ .awaiting frame proposedNonce resends)
    (hactive : ∀ boundaryOk seen, (t.driver seat).point ≠ .parked boundaryOk seen)
    (hleft : (t.driver seat).point ≠ .finished)
    (hpeer : (t.driver seat.other).point.isRecording = false) :
    T.GoesOn plans (run, t) := by
  have hstanding := h.standing seat
  have hlooks : ∀ event, misreads (run, t) (.driver seat event) = false := by
    simp [misreads, hpeer]
  cases hpoint : (t.driver seat).point with
  | top =>
    apply runs hstopped hbelow (hlooks _)
    rw [advance, hpoint, put_driver_self]
    rcases (T.driver seat).head_cases (t.driver seat) run.stopped run.graceful with
      ⟨-, hhead⟩ | ⟨-, hhead⟩ | ⟨-, -, hhead⟩ | ⟨-, -, -, -, hhead⟩ <;>
      simp [hhead, Driver.goTo]
  | planning =>
    refine ⟨.driver seat (.plan none), by simp, calm_of_stopped hstopped rfl (hlooks _),
      moved seat ?_⟩
    simp [TunnelSetup.step, driverStep, hpoint, DriverConfig.planned, Driver.goTo]
  | reserving =>
    apply runs hstopped hbelow (hlooks _)
    rw [advance, hpoint]
    simp only [reserve, hstopped, if_true]
    split <;> simp [Driver.goTo]
  | claiming | counting =>
    rw [Standing, hpoint, hstopped] at hstanding
    cases hstanding.2
  | proposing =>
    refine ⟨.driver seat (.propose 0), by simp, calm_of_stopped hstopped rfl (hlooks _),
      moved seat ?_⟩
    obtain ⟨-, _, _, _, _, hsends, hawaiting, -, -⟩ :=
      h.proposes hsound hpoint 0
    simp only [TunnelSetup.step, driverStep, hpoint, hsends,
      deliver_driver_self, hawaiting]
    simp
  | awaiting => exact absurd hpoint (hbusy _ _ _)
  | arriving =>
    apply runs hstopped hbelow (hlooks _)
    rw [advance, hpoint]
    simp only [goTo_driver_self, Driver.goTo]
    split <;> simp
  | subscribing | recording | tallying =>
    apply runs hstopped hbelow (hlooks _)
    rw [advance, hpoint]
    simp [Driver.goTo]
  | parked => exact absurd hpoint (hactive _ _)
  | finished => exact absurd hpoint hleft
  | failed =>
    rw [Standing, hpoint] at hstanding
    exact hstanding.elim

/-- A driver that has a move to clear clears it. -/
theorem clears (hstopped : run.stopped = true)
    (hbelow : (t.driver seat).moves < T.maxMoves seat)
    (hrecording : (t.driver seat).point.isRecording = true) :
    T.GoesOn plans (run, t) := by
  cases hpoint : (t.driver seat).point <;> rw [hpoint] at hrecording <;> cases hrecording
  apply runs hstopped hbelow (by simp [misreads, hpoint])
  rw [advance, hpoint]
  simp [Driver.goTo]

theorem receives (hsound : T.Sound) (h : Coordinated T plans initial run t side)
    (hstopped : run.stopped = true) (hbelow : (t.driver seat).moves < T.maxMoves seat)
    (hwaits : (∃ frame proposedNonce resends,
        (t.driver seat).point = .awaiting frame proposedNonce resends) ∨
      ∃ boundaryOk seen, (t.driver seat).point = .parked boundaryOk seen)
    (hinbox : t.inbox seat ≠ []) :
    T.GoesOn plans (run, t) := by
  rcases hwaits with ⟨_, _, _, hpoint⟩ | ⟨_, _, hpoint⟩ <;>
    apply runs hstopped hbelow (by simp [misreads, hpoint])
  · rcases h.tied.receiveAck hsound hpoint with
      ⟨e, d', bytes, _, a, -, -, -, htop, -, hreceive, -⟩ | ⟨hnone, -⟩
    · rw [advance, hpoint]
      simp only [hreceive, deliver_driver_self, htop]
      simp
    · exact absurd hnone hinbox
  · rcases h.tied.receiveMove hsound hpoint run with
      ⟨_, _, _, hpending, -, -, -, -, hnext⟩ | ⟨hnone, -⟩
    · obtain ⟨_, _, _, hrecording, -, hreceive, -⟩ := hnext (h.open_of_pending hpending)
      rw [advance, hpoint]
      simp only [hreceive, deliver_driver_self, hrecording]
      simp
    · exact absurd hnone hinbox

/-- A driver that waits for an acknowledgement gets it, or its peer gets the move. -/
theorem awaiting_goes_on (hsound : T.Sound) (h : Coordinated T plans initial run t side)
    (hstopped : run.stopped = true) (hbelow : ∀ seat, (t.driver seat).moves < T.maxMoves seat)
    (hcleared : ∀ seat, (t.driver seat).point.isRecording = false) {frame : Bytes}
    {proposedNonce : UInt64} {resends : Nat}
    (hpoint : (t.driver seat).point = .awaiting frame proposedNonce resends) :
    T.GoesOn plans (run, t) := by
  rcases h.tied.receiveAck hsound hpoint with
    ⟨_, _, _, _, _, -, hinbox, -⟩ | ⟨-, hinbox, hunanswered⟩
  · exact h.receives hsound hstopped (hbelow _) (.inl ⟨_, _, _, hpoint⟩) (by simp [hinbox])
  · by_cases hbusy : ∃ frame proposedNonce resends,
        (t.driver seat.other).point = .awaiting frame proposedNonce resends
    · exact h.receives hsound hstopped (hbelow _) (.inl hbusy) hinbox
    · by_cases hactive : ∃ boundaryOk seen, (t.driver seat.other).point = .parked boundaryOk seen
      · exact h.receives hsound hstopped (hbelow _) (.inr hactive) hinbox
      · apply h.goes_on hsound hstopped (hbelow seat.other)
        · exact fun _ _ _ hother => hbusy ⟨_, _, _, hother⟩
        · exact fun _ _ hother => hactive ⟨_, _, hother⟩
        · intro hfinished
          have hleft := (h.left _ hfinished).2
          rw [Seat.other_other, hunanswered] at hleft
          cases hleft
        · exact hcleared _

variable {boundaryOk : Bool} {seen : Nat}

section

variable (h : Coordinated T plans initial run t side)
include h

theorem mayStop_of_winding (hwinds : T.WindsDown (run, t)) (hzero : t.inflight = 0)
    (hpoint : (t.driver seat).point = .parked boundaryOk seen) :
    t.mayStop run boundaryOk = true := by
  have hstanding := h.standing seat
  rw [Standing, hpoint] at hstanding
  have hstopped : run.stopped = true := hwinds.1
  simp only [mayStop, hstopped, hzero, beq_self_eq_true, Bool.true_and]
  cases hgraceful : run.graceful with
  | false => rfl
  | true =>
    rw [hstanding.2.1, (hwinds.2 hgraceful seat).1]
    rfl

/-- A driver that waits for a move while its peer is parked or has left: nothing is in flight, so it
is not dozing, and the stop wakes it. -/
theorem wakes (hwinds : T.WindsDown (run, t)) (hbelow : (t.driver seat).moves < T.maxMoves seat)
    (hpoint : (t.driver seat).point = .parked boundaryOk seen) (hinbox : t.inbox seat = [])
    (hother : (t.driver seat.other).point = .finished ∨
      ∃ boundaryOk seen, (t.driver seat.other).point = .parked boundaryOk seen) :
    T.GoesOn plans (run, t) := by
  have hstopped : run.stopped = true := hwinds.1
  have hfree : (side seat).pending = none := h.free (by simp [hpoint])
  have hfree' : (side seat.other).pending = none := by
    rcases hother with hother | ⟨_, _, hother⟩ <;> exact h.free (by simp [hother])
  have hquiet : (t.driver seat.other).point.inGate = 0 ∧
      (t.driver seat.other).point.isProposing = false ∧
      (t.driver seat.other).point.isRecording = false := by
    rcases hother with hother | ⟨_, _, hother⟩ <;> rw [hother] <;> exact ⟨rfl, rfl, rfl⟩
  have hself : (t.driver seat).point.inGate = 0 := by
    rw [hpoint]
    rfl
  have hzero : t.inflight = 0 := by
    rw [h.tied.gate seat]
    simp [share, hself, hquiet.1, unanswered, hfree, hfree']
  have hstop := h.mayStop_of_winding hwinds hzero hpoint
  have hseen : seen ≠ run.version := by
    intro hseen
    have hboundary : run.graceful = false ∨ boundaryOk = true := by
      simpa [mayStop, hstopped, hzero] using hstop
    have hexpects := h.awake hstopped seat (by simp [hpoint, Point.dozing, hseen, hboundary])
    simp [expects, hquiet.2.1, hinbox] at hexpects
  cases hdropped : t.dropped seat.other with
  | true =>
    apply runs hstopped hbelow (by simp [misreads, hpoint])
    rw [advance, hpoint]
    simp only [receiveMove, hinbox, hdropped, hstopped, if_true,
      goTo_driver_self]
    simp [Driver.goTo]
  | false =>
    refine ⟨.driver seat .wake, by simp, calm_of_stopped hstopped rfl ?_, moved seat ?_⟩
    · simp [misreads, hquiet.2.2]
    · have hnot : ¬(seen = run.version ∨ t.inbox seat ≠ [] ∨ t.dropped seat.other = true) := by
        simp [hseen, hinbox, hdropped]
      simp only [TunnelSetup.step, driverStep, hpoint, wake, if_neg hnot,
        if_pos hstop, goTo_driver_self]
      simp [Driver.goTo]

end

/-- As long as a driver is in the loop, something happens. -/
theorem progress (hsound : T.Sound) (h : Coordinated T plans initial run t side)
    (hwinds : T.WindsDown (run, t)) (hbelow : ∀ seat, (t.driver seat).moves < T.maxMoves seat)
    (hin : (t.driver seat).point ≠ .finished) :
    T.GoesOn plans (run, t) := by
  by_cases hclear : ∃ seat, (t.driver seat).point.isRecording = true
  · obtain ⟨_, hrecording⟩ := hclear
    exact clears hwinds.1 (hbelow _) hrecording
  have hcleared : ∀ seat, (t.driver seat).point.isRecording = false :=
    fun _ => Bool.eq_false_iff.mpr fun hrecording => hclear ⟨_, hrecording⟩
  by_cases hbusy : ∃ seat frame proposedNonce resends,
      (t.driver seat).point = .awaiting frame proposedNonce resends
  · obtain ⟨_, _, _, _, hpoint⟩ := hbusy
    exact h.awaiting_goes_on hsound hwinds.1 hbelow hcleared hpoint
  have hfree : ∀ seat frame proposedNonce resends,
      (t.driver seat).point ≠ .awaiting frame proposedNonce resends :=
    fun _ _ _ _ hpoint => hbusy ⟨_, _, _, _, hpoint⟩
  by_cases hparked : ∃ boundaryOk seen, (t.driver seat).point = .parked boundaryOk seen
  · obtain ⟨_, _, hpoint⟩ := hparked
    by_cases hinbox : t.inbox seat = []
    · by_cases hother : (t.driver seat.other).point = .finished ∨
          ∃ boundaryOk seen, (t.driver seat.other).point = .parked boundaryOk seen
      · exact h.wakes hwinds (hbelow _) hpoint hinbox hother
      · obtain ⟨hfinished, hother⟩ := not_or.mp hother
        exact h.goes_on hsound hwinds.1 (hbelow _) (hfree _)
          (fun _ _ hpoint => hother ⟨_, _, hpoint⟩) hfinished (hcleared _)
    · exact h.receives hsound hwinds.1 (hbelow _) (.inr ⟨_, _, hpoint⟩) hinbox
  · exact h.goes_on hsound hwinds.1 (hbelow _) (hfree _)
      (fun _ _ hpoint => hparked ⟨_, _, hpoint⟩) hin (hcleared _)

theorem bounded (hsound : T.Sound) (h : ∃ side, Coordinated T plans initial now.1 now.2 side)
    (hwinds : T.WindsDown now) (events : List (TunnelEvent Move))
    (hcalm : T.calmRun plans now events = true) (heffective : T.Effective now events) :
    events.length ≤ T.remaining now := by
  induction events generalizing now with
  | nil => exact Nat.zero_le _
  | cons _ _ ih =>
    obtain ⟨_, h⟩ := h
    obtain ⟨hne, hmoved, hrest⟩ := heffective
    simp only [calmRun, Bool.and_eq_true] at hcalm
    rcases h.onward_step hsound hcalm.1 hne with hsame | ⟨hnext, hshrinks⟩
    · exact absurd hsame hmoved
    · obtain ⟨hwinds', hless⟩ := hshrinks hwinds
      have hlength := ih hnext hwinds' hcalm.2 hrest
      rw [List.length_cons]
      exact Nat.lt_of_le_of_lt hlength hless

end Coordinated

end

namespace Sample

/-- A tunnel for the game in which the players take turns; it can be closed before each move of
party A. -/
def tunnel : TunnelSetup Nat Unit where
  protocol := turnGame
  canGracefullyClose n := n % 2 == 0
  proposerForNonce _ := none
  blake2b256 := (runtime .A).blake2b256
  verify := (runtime .A).verify
  encode := encode
  decode := decode
  tunnelId := "0x7"
  sign seat := signature (key seat)
  publicKey seat := Bytes32.fill (key seat)
  maxMoves _ := 100
  maxAckResends _ := 1

/-- The seat whose turn it is plans. -/
def planner (n : Nat) : Option Seat := some (if n % 2 = 0 then .A else .B)

def after (run : RunLevelControl) (events : List (TunnelEvent Unit)) :
    RunLevelControl × Tunnel Nat Unit :=
  events.foldl tunnel.step (run, tunnel.start ⟨10, 10⟩)

/-- One driver has left, the other stands elsewhere, and they do not stop together. -/
def Apart (run : RunLevelControl) (events : List (TunnelEvent Unit)) (left : Seat)
    (point : Point Unit) : Prop :=
  ((after run events).2.driver left).point = .finished ∧
    ((after run events).2.driver left.other).point = point ∧
    ¬tunnel.StopsTogether planner (after run events)

end Sample

/-- Under a hard stop that it has seen, a driver waits on for a move of a peer that has left. -/
theorem TunnelSetup.stalls {T : TunnelSetup State Move} {plans : State → Option Seat}
    {now : RunLevelControl × Tunnel State Move} (seat : Seat) (boundaryOk : Bool)
    (hpoint : (now.2.driver seat).point = .parked boundaryOk now.1.version)
    (hother : (now.2.driver seat.other).point = .finished) (hinbox : now.2.inbox seat = [])
    (hopen : now.2.dropped seat.other = false) (hstopped : now.1.stopped = true)
    (hhard : now.1.graceful = false)
    (hbelow : ∀ seat, (now.2.driver seat).moves < T.maxMoves seat) :
    ¬T.StopsTogether plans now := by
  intro h
  have hwinds : T.WindsDown now := by
    refine ⟨hstopped, fun hgraceful => ?_⟩
    rw [hhard] at hgraceful
    cases hgraceful
  obtain ⟨event, hne, hcalm, hmoved⟩ := (h.progress hwinds hbelow).resolve_left fun hall => by
    cases hpoint.symm.trans (hall seat)
  obtain ⟨run, t⟩ := now
  dsimp only at hpoint hother hinbox hopen
  apply hmoved
  clear hmoved
  cases event with
  | requestStop => exact absurd rfl hne
  | drop s =>
    clear hcalm hne
    revert s
    simp only [step, mayDrop]
    refine (Seat.forall_iff seat).mpr ⟨?_, ?_⟩
    · simp [hpoint]
    · simp [hpoint, hother]
  | driver s event =>
    have hfail : ∀ error, event ≠ .fail error := by
      rintro error rfl
      simp [calm, orderly] at hcalm
    clear hcalm hne
    revert s
    simp only [step]
    refine (Seat.forall_iff seat).mpr ⟨?_, ?_⟩
    · cases event <;> simp_all [driverStep, advance, receiveMove, wake]
    · cases event <;> simp_all [driverStep, advance]

end DopamintArena.Rust
