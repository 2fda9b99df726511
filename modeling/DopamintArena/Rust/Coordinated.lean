import DopamintArena.Rust.TiedDrivers

/-!
What keeps two drivers of a tunnel coordinated when a stop is requested. A
driver may leave the loop once the stop is requested and the gate is empty, but
the gate is raised only some steps after the proposer has looked at the stop
flag, and cleared only some steps after the receiver has answered; and a driver
that waits looks at flag and gate once before it subscribes to the flag.

`safeToStop` says that the flag is not raised inside one of these windows, and
`misreads` that a driver looks at the gate before its peer has cleared it. In a
run without either, the invariant `Coordinated` is kept, and each step of
drivers that wind down uses up some of a measure.
-/

namespace DopamintArena.Rust

open Foundation TunnelSetup Tunnel
open Foundation.Handshake (Side Message onTheWay unanswered)

variable {State Move : Type}

/-! ### When a stop is safe -/

/-- How many steps a driver can make from here after a stop. The frames it may still receive are
counted apart. -/
def Point.rank (version : Nat) : Point Move → Nat
  | .claiming _ | .counting _ => 40
  | .proposing _ => 30
  | .recording => 12
  | .tallying => 11
  | .planning _ => 10
  | .reserving _ | .awaiting _ _ _ => 9
  | .top => 8
  | .arriving _ => 7
  | .subscribing _ => 6
  | .parked _ seen => if seen = version then 4 else 5
  | .finished | .failed _ => 0

/-- The driver will propose whatever happens to the stop flag, and is not in the gate yet. -/
def Point.exposed (graceful boundaryOk : Bool) : Point Move → Bool
  | .planning _ | .reserving _ => graceful && boundaryOk
  | .claiming _ | .counting _ => true
  | _ => false

/-- The driver has looked at the flag and has not subscribed yet: a stop does not wake it. -/
def Point.heedless (graceful : Bool) : Point Move → Bool
  | .subscribing boundaryOk => !graceful || boundaryOk
  | _ => false

def Point.isProposing : Point Move → Bool
  | .proposing _ => true
  | _ => false

/-- The driver has answered the move of its peer, which the gate still counts. -/
def Point.isRecording : Point Move → Bool
  | .recording => true
  | _ => false

/-- The peer is in the gate with a move to send, or a frame is on its way. -/
def Tunnel.expects (t : Tunnel State Move) (seat : Seat) : Bool :=
  (t.driver seat.other).point.isProposing || !(t.inbox seat).isEmpty

namespace TunnelSetup

variable (T : TunnelSetup State Move) (plans : State → Option Seat)

/-- No driver is exposed, and a heedless one waits for a move that comes. -/
def safeToStop (now : RunLevelControl × Tunnel State Move) : Bool :=
  [.A, .B].all fun seat =>
    !(now.2.driver seat).point.exposed now.1.graceful
      ((T.driver seat).boundaryOk (now.2.driver seat)) &&
    (!(now.2.driver seat).point.heedless now.1.graceful || now.2.expects seat)

/-- The event requests a stop, or counts the last move of the limit. -/
def asksToStop (now : RunLevelControl × Tunnel State Move) : TunnelEvent Move → Bool
  | .requestStop => true
  | .driver seat .run =>
    match (now.2.driver seat).point with
    | .tallying => now.1.moveLimit.any fun moveLimit => moveLimit ≤ now.1.moves + 1
    | _ => false
  | _ => false

/-- The strategy plans legal moves in its turn only, the moves stay below the bound, no wait for an
acknowledgement times out and nothing outside the drivers fails. -/
def orderly (t : Tunnel State Move) : TunnelEvent Move → Bool
  | .driver seat .run =>
    match (t.driver seat).point with
    | .top => T.protocol.isTerminal (t.driver seat).seat.state ||
        decide ((t.driver seat).moves < T.maxMoves seat)
    | _ => true
  | .driver seat (.plan (some mv)) =>
    match (t.driver seat).point with
    | .planning _ => plans (t.driver seat).seat.state == some seat &&
        (T.protocol.applyMove (t.driver seat).seat.state mv seat).isOk
    | _ => true
  | .driver seat .timeout =>
    match (t.driver seat).point with
    | .awaiting _ _ _ => false
    | _ => true
  | .driver _ (.fail _) => false
  | _ => true

/-- After a stop the driver looks at the gate while its peer, which has answered the last move, has
not cleared it: it goes to sleep, and nothing wakes it. -/
def misreads (now : RunLevelControl × Tunnel State Move) : TunnelEvent Move → Bool
  | .driver seat event =>
    now.1.stopped && (now.2.driver seat.other).point.isRecording &&
      match event, (now.2.driver seat).point with
      | .run, .arriving boundaryOk => !now.1.graceful || boundaryOk
      | .wake, .parked boundaryOk _ => !now.1.graceful || boundaryOk
      | _, _ => false
  | _ => false

/-- An orderly event that does not raise the stop flag while that is not safe, and does not misread
the gate. -/
def calm (now : RunLevelControl × Tunnel State Move) (event : TunnelEvent Move) : Bool :=
  T.orderly plans now.2 event &&
    (now.1.stopped || !asksToStop now event || T.safeToStop now) && !misreads now event

/-- Every event of the run is calm. -/
def calmRun (now : RunLevelControl × Tunnel State Move) : List (TunnelEvent Move) → Bool
  | [] => true
  | event :: rest => T.calm plans now event && calmRun (T.step now event) rest

/-! ### What stopping together means -/

/-- A stop is requested, and it is honored as soon as the gate is empty. -/
def WindsDown (now : RunLevelControl × Tunnel State Move) : Prop :=
  now.1.stopped = true ∧ (now.1.graceful = true → ∀ seat,
    (T.driver seat).boundaryOk (now.2.driver seat) = true ∧
      (now.2.driver seat).seat.pending = none ∧ ∀ mv, (now.2.driver seat).point ≠ .proposing mv)

/-- How many steps a frame is worth. -/
def load (bytes : Bytes) : Nat :=
  match T.decode bytes with
  | .ok (.move _) => 10
  | _ => 1

/-- How many steps a driver can make until it has left and dropped its end. -/
def remainingOf (now : RunLevelControl × Tunnel State Move) (seat : Seat) : Nat :=
  (now.2.driver seat).point.rank now.1.version + ((now.2.inbox seat).map T.load).sum +
    (!now.2.dropped seat).toNat

def remaining (now : RunLevelControl × Tunnel State Move) : Nat :=
  T.remainingOf now .A + T.remainingOf now .B

end TunnelSetup

/-! ### The invariant -/

/-- The driver is past the point at which it looks at the stop flag. -/
def Point.moving : Point Move → Bool
  | .claiming _ | .counting _ | .proposing _ => true
  | _ => false

/-- The driver neither proposes, nor waits for an acknowledgement, nor is out of the loop. -/
def Point.idle : Point Move → Bool
  | .proposing _ | .awaiting _ _ _ | .finished | .failed _ => false
  | _ => true

/-- The driver neither leaves, nor proposes, nor dozes. -/
def Point.plain : Point Move → Bool
  | .top | .planning _ | .reserving _ | .arriving _ => true
  | _ => false

/-- The driver would honor the stop, but only a frame makes it look at the flag again. -/
def Point.dozing (run : RunLevelControl) : Point Move → Bool
  | .parked boundaryOk seen => (!run.graceful || boundaryOk) && seen == run.version
  | point => point.heedless run.graceful

namespace TunnelSetup

variable (T : TunnelSetup State Move) (plans : State → Option Seat)

/-- The driver was right to go on past the head of the loop. -/
def Ready (seat : Seat) (d : Driver State Move) : Prop :=
  T.protocol.isTerminal d.seat.state = false ∧ d.moves < T.maxMoves seat

/-- The planned move is a legal one in its turn. -/
def MayMove (seat : Seat) (d : Driver State Move) (mv : Move) : Prop :=
  T.Ready seat d ∧ plans d.seat.state = some seat ∧ T.protocol.Legal d.seat.state mv seat

/-- What is known of a driver that stands at its point. -/
def Standing (run : RunLevelControl) (seat : Seat) (d : Driver State Move) : Prop :=
  match d.point with
  | .planning boundaryOk => T.Ready seat d ∧ boundaryOk = (T.driver seat).boundaryOk d ∧
      (run.stopped = true → run.graceful = true → (T.driver seat).boundaryOk d = false)
  | .reserving mv => T.MayMove plans seat d mv ∧
      (run.stopped = true → run.graceful = true → (T.driver seat).boundaryOk d = false)
  | .claiming mv | .counting mv => T.MayMove plans seat d mv ∧ run.stopped = false
  | .proposing mv => T.MayMove plans seat d mv
  | .awaiting _ _ _ => T.protocol.isTerminal d.seat.state = false
  | .arriving boundaryOk | .subscribing boundaryOk => T.protocol.isTerminal d.seat.state = false ∧
      boundaryOk = (T.driver seat).boundaryOk d
  | .parked boundaryOk seen => T.protocol.isTerminal d.seat.state = false ∧
      boundaryOk = (T.driver seat).boundaryOk d ∧ seen ≤ run.version
  | .finished => T.protocol.isTerminal d.seat.state = true ∨
      run.stopped = true ∧ (run.graceful = true → (T.driver seat).boundaryOk d = true)
  | .failed _ => False
  | _ => True

end TunnelSetup

structure Coordinated (T : TunnelSetup State Move) (plans : State → Option Seat) (initial : State)
    (run : RunLevelControl) (t : Tunnel State Move) (side : Seat → Side (Entry State Move)) :
    Prop where
  tied : Tied T plans initial t side
  standing : ∀ seat, T.Standing plans run seat (t.driver seat)
  /-- Nobody proposes to a driver that has left. -/
  left : ∀ seat, (t.driver seat).point = .finished → (t.driver seat.other).point.moving = false ∧
    unanswered (side seat.other) (side seat) = false
  /-- A driver that dozes gets a move. -/
  awake : run.stopped = true → ∀ seat, (t.driver seat).point.dozing run = true →
    t.expects seat = true

section

variable {T : TunnelSetup State Move} {plans : State → Option Seat} {initial : State}
variable {run : RunLevelControl} {t : Tunnel State Move} {side : Seat → Side (Entry State Move)}
variable {seat : Seat}

namespace Coordinated

/-! ### Who may leave, and who may go on -/

section

variable (h : Coordinated T plans initial run t side)
include h

omit h in
theorem driver_goTo {point : Point Move} (hpoint : (t.driver seat).point = point) :
    (t.driver seat).goTo point = t.driver seat := by
  rw [← hpoint]
  rfl

theorem standing_at {point : Point Move} (hpoint : (t.driver seat).point = point) :
    T.Standing plans run seat ((t.driver seat).goTo point) := by
  rw [driver_goTo hpoint]
  exact h.standing seat

theorem free (hpoint : ∀ frame proposedNonce resends,
      (t.driver seat).point ≠ .awaiting frame proposedNonce resends) :
    (side seat).pending = none := by
  cases hpending : (side seat).pending with
  | none => rfl
  | some =>
    rcases h.tied.awaits hpending with ⟨_, _, _, hawaiting⟩ | ⟨error, hfailed⟩
    · exact absurd hawaiting (hpoint _ _ _)
    · exact (h.standing_at hfailed).elim

theorem idle_at {point : Point Move} (hpoint : (t.driver seat).point = point)
    (hidle : point.idle = true) :
    (side seat).pending = none ∧ (t.driver seat).point.out = false := by
  refine ⟨h.free ?_, ?_⟩
  · intro frame proposedNonce resends hawaiting
    rw [hpoint] at hawaiting
    rw [hawaiting] at hidle
    cases hidle
  · rw [hpoint]
    cases point <;> first | rfl | cases hidle

omit h in
theorem not_proposing {point : Point Move} (hidle : point.idle = true) :
    point.isProposing = false := by
  cases point <;> first | rfl | cases hidle

theorem finished_of_dropped (hdropped : t.dropped seat = true) :
    (t.driver seat).point = .finished := by
  have hout := h.tied.dropped _ hdropped
  have hstanding := h.standing seat
  cases hpoint : (t.driver seat).point <;> rw [hpoint] at hout <;>
    simp_all [Standing, Point.out]

theorem open_of_pending {e : Entry State Move} (hpending : (side seat).pending = some e) :
    t.dropped seat = false := by
  rw [Bool.eq_false_iff]
  intro hdropped
  have hnone : (side seat).pending = none := h.free (by simp [h.finished_of_dropped hdropped])
  rw [hpending] at hnone
  cases hnone

/-- A driver that may stop leaves a peer behind that does not propose any more. -/
theorem leave_stopped (seat : Seat) {boundaryOk : Bool} (hstop : t.mayStop run boundaryOk = true) :
    (t.driver seat.other).point.moving = false ∧
      unanswered (side seat.other) (side seat) = false := by
  simp only [mayStop, Bool.and_eq_true, beq_iff_eq] at hstop
  obtain ⟨⟨_, hzero⟩, -⟩ := hstop
  obtain ⟨hgate, hanswered⟩ := h.tied.idle hzero seat.other
  rw [Seat.other_other] at hanswered
  refine ⟨?_, hanswered⟩
  have hstanding := h.standing seat.other
  cases hpoint : (t.driver seat.other).point <;> rw [hpoint] at hgate <;>
    simp_all [Standing, Point.moving, Point.inGate]

theorem leave_terminal (hfree : (side seat).pending = none)
    (hterminal : T.protocol.isTerminal (t.driver seat).seat.state = true) :
    (t.driver seat.other).point.moving = false ∧
      unanswered (side seat.other) (side seat) = false := by
  have hend : (side seat).log = (side seat.other).log →
      T.protocol.isTerminal (t.driver seat.other).seat.state = true := by
    intro hlog
    rw [← (h.tied.same_driver hlog).1]
    exact hterminal
  have hstanding := h.standing seat.other
  constructor
  · cases hpoint : (t.driver seat.other).point with
    | claiming mv | counting mv | proposing mv =>
      have hother : (side seat.other).pending = none := h.free (by simp [hpoint])
      have hlast := hend (h.tied.same_log hfree hother)
      simp [Standing, hpoint, MayMove, Ready,
        hlast] at hstanding
    | _ => rfl
  · cases hpending : (side seat.other).pending with
    | none => simp [unanswered, hpending]
    | some =>
      simp only [unanswered, hpending, Option.isSome_some, Bool.true_and, decide_eq_false_iff_not]
      intro hle
      have hlog := (h.tied.inStep seat).eq_of_length
        (Nat.le_antisymm hle ((h.tied.inStep seat).not_behind hfree))
      have hlast := hend hlog
      rcases h.tied.awaits hpending with ⟨_, _, _, hpoint⟩ | ⟨error, hpoint⟩
      · simp [Standing, hpoint, hlast] at hstanding
      · simp [Standing, hpoint] at hstanding

/-- The reason for which the peer has left holds of the driver too. -/
theorem peer_left (hfree : (side seat).pending = none)
    (hpoint : (t.driver seat.other).point = .finished) :
    T.protocol.isTerminal (t.driver seat).seat.state = true ∨ run.stopped = true ∧
      (run.graceful = true → (T.driver seat).boundaryOk (t.driver seat) = true) := by
  have hlog := h.tied.same_log hfree (h.free (by simp [hpoint]))
  rw [(h.tied.same_driver hlog).1, h.tied.same_boundary hlog]
  exact h.standing_at hpoint

/-- What the gate counts while the driver has nothing pending and the peer nothing to clear is a
move of the peer. -/
theorem expects_of_inflight (hfree : (side seat).pending = none)
    (hgate : (t.driver seat).point.inGate = 0)
    (hpeer : (t.driver seat.other).point.isRecording = false) (hbusy : t.inflight ≠ 0) :
    t.expects seat = true := by
  have hinbox := h.tied.inbox seat
  rcases (h.tied.inStep seat).free_cases hfree with ⟨-, hanswered⟩ | ⟨_, -, -, hway⟩
  · have hself : unanswered (side seat) (side seat.other) = false := by simp [unanswered, hfree]
    have hother : (t.driver seat.other).point.inGate ≠ 0 := by
      rw [h.tied.gate seat] at hbusy
      simpa [share, hgate, hself, hanswered] using hbusy
    cases hpoint : (t.driver seat.other).point <;>
      simp_all [Point.inGate, Point.isRecording, expects, Point.isProposing]
  · rw [hway] at hinbox
    obtain ⟨_, _, -, -, hbytes⟩ := List.forall₂_cons_right_iff.mp hinbox
    simp [expects, hbytes]

/-- A driver that has a move to make still has a peer, unless a stop is honored here. -/
theorem peer_in (hfree : (side seat).pending = none)
    (hterminal : T.protocol.isTerminal (t.driver seat).seat.state = false)
    (hstop : run.stopped = true → run.graceful = true ∧
      (T.driver seat).boundaryOk (t.driver seat) = false) :
    (t.driver seat.other).point ≠ .finished := by
  intro hpoint
  rcases h.peer_left hfree hpoint with hend | ⟨hstopped, hboundary⟩
  · rw [hterminal] at hend
    cases hend
  · obtain ⟨hgraceful, hnot⟩ := hstop hstopped
    rw [hboundary hgraceful] at hnot
    cases hnot

/-! ### Steps that only move a driver on -/

variable {source : Point Move} (hpoint : (t.driver seat).point = source)
  (hidle : source.idle = true)
include hpoint hidle

theorem goTo (point : Point Move) (inflight : Nat)
    (hholds : (side seat).pending = none → point.Holds (T.runtime seat) (side seat))
    (hgate : inflight + source.inGate = t.inflight + point.inGate)
    (hstanding : T.Standing plans run seat ((t.driver seat).goTo point))
    (hleave : point = .finished → (t.driver seat.other).point.moving = false ∧
      unanswered (side seat.other) (side seat) = false)
    (hpeer : point.moving = true → (t.driver seat.other).point ≠ .finished)
    (hawake : run.stopped = true → point.dozing run = true → t.expects seat = true) :
    Coordinated T plans initial run ((t.goTo seat point).setInflight inflight) side where
  tied := by
    obtain ⟨hfree, hin⟩ := h.idle_at hpoint hidle
    exact h.tied.goTo hin (hholds hfree) (by rw [hpoint]; exact hgate)
  standing := by
    refine (Seat.forall_iff seat).mpr ?_
    simp only [setInflight_driver, goTo_driver_self, goTo_driver_other]
    exact ⟨hstanding, h.standing _⟩
  left := by
    refine (Seat.forall_iff seat).mpr ?_
    simp only [setInflight_driver, goTo_driver_self, goTo_driver_other,
      Seat.other_other]
    refine ⟨hleave, ?_⟩
    intro hfinished
    have hleft := h.left seat.other hfinished
    rw [Seat.other_other] at hleft
    refine ⟨?_, hleft.2⟩
    rw [Bool.eq_false_iff]
    exact fun hmoving => hpeer hmoving hfinished
  awake := by
    intro hstopped
    refine (Seat.forall_iff seat).mpr ?_
    simp only [expects, setInflight_driver, goTo_driver_self, goTo_driver_other, Driver.goTo,
      setInflight_inbox, goTo_inbox, Seat.other_other]
    refine ⟨hawake hstopped, fun hdozing => ?_⟩
    have hexpects := h.awake hstopped seat.other hdozing
    rw [expects, Seat.other_other, hpoint, not_proposing hidle, Bool.false_or] at hexpects
    rw [hexpects, Bool.or_true]

end

end Coordinated

/-! ### The measure -/

theorem TunnelSetup.remaining_eq (T : TunnelSetup State Move)
    (now : RunLevelControl × Tunnel State Move) (seat : Seat) :
    T.remaining now = T.remainingOf now seat + T.remainingOf now seat.other := by
  cases seat with
  | A => rfl
  | B => exact Nat.add_comm _ _

/-- Drivers that wind down still do after the step, and have fewer steps to make. -/
def TunnelSetup.Shrinks (T : TunnelSetup State Move) (now now' : RunLevelControl × Tunnel State Move) :
    Prop :=
  T.WindsDown now → T.WindsDown now' ∧ T.remaining now' < T.remaining now

/-- Nothing happens, or the drivers stay coordinated and come closer to the end. -/
def Onward (T : TunnelSetup State Move) (plans : State → Option Seat) (initial : State)
    (now now' : RunLevelControl × Tunnel State Move) : Prop :=
  now' = now ∨ (∃ side, Coordinated T plans initial now'.1 now'.2 side) ∧ T.Shrinks now now'

theorem shrinks_goTo (point : Point Move) (inflight : Nat) (hrank : T.WindsDown (run, t) →
      point.rank run.version < (t.driver seat).point.rank run.version ∧
        (run.graceful = true → ∀ mv, point ≠ .proposing mv)) :
    T.Shrinks (run, t) (run, (t.goTo seat point).setInflight inflight) := by
  intro hwinds
  obtain ⟨_, hnot⟩ := hrank hwinds
  refine ⟨⟨hwinds.1, ?_⟩, ?_⟩
  · intro hgraceful
    have hboth := hwinds.2 hgraceful
    refine (Seat.forall_iff seat).mpr ?_
    simp only [setInflight_driver, goTo_driver_self, goTo_driver_other]
    exact ⟨⟨(hboth seat).1, (hboth seat).2.1, hnot hgraceful⟩, hboth seat.other⟩
  · rw [T.remaining_eq _ seat, T.remaining_eq _ seat]
    simp only [remainingOf, setInflight_driver, goTo_driver_self,
      goTo_driver_other, setInflight_inbox, goTo_inbox,
      setInflight_dropped, goTo_dropped, Driver.goTo]
    omega

namespace Coordinated

variable (h : Coordinated T plans initial run t side)
include h

section

variable {source : Point Move} (hpoint : (t.driver seat).point = source)
  (hidle : source.idle = true)
include hpoint hidle

omit h hidle in
theorem onward_goTo {point : Point Move} {inflight : Nat}
    (hnext : Coordinated T plans initial run ((t.goTo seat point).setInflight inflight) side)
    (hrank : T.WindsDown (run, t) → point.rank run.version < source.rank run.version ∧
      (run.graceful = true → ∀ mv, point ≠ .proposing mv)) :
    Onward T plans initial (run, t) (run, (t.goTo seat point).setInflight inflight) :=
  .inr ⟨⟨side, hnext⟩, shrinks_goTo _ _ (by rw [hpoint]; exact hrank)⟩

theorem onward_plain (point : Point Move)
    (hholds : (side seat).pending = none → point.Holds (T.runtime seat) (side seat))
    (hgate : source.inGate = point.inGate) (hplain : point.plain = true)
    (hstanding : T.Standing plans run seat ((t.driver seat).goTo point))
    (hrank : T.WindsDown (run, t) → point.rank run.version < source.rank run.version) :
    Onward T plans initial (run, t) (run, t.goTo seat point) := by
  refine onward_goTo hpoint
    (h.goTo hpoint hidle point t.inflight hholds (by rw [hgate]) hstanding ?_ ?_ ?_) ?_
  · rintro rfl
    cases hplain
  · intro hmoving
    cases point <;> simp [Point.plain, Point.moving] at hplain hmoving
  · intro _ hdozing
    cases point <;> simp [Point.plain, Point.dozing, Point.heedless] at hplain hdozing
  · refine fun hwinds => ⟨hrank hwinds, ?_⟩
    rintro - mv rfl
    cases hplain

theorem onward_finish (hgate : source.inGate = 0) (hrank : 0 < source.rank run.version)
    (hstanding : T.Standing plans run seat ((t.driver seat).goTo .finished))
    (hleave : (t.driver seat.other).point.moving = false ∧
      unanswered (side seat.other) (side seat) = false) :
    Onward T plans initial (run, t) (run, t.goTo seat .finished) := by
  refine onward_goTo hpoint (h.goTo hpoint hidle .finished t.inflight id (by rw [hgate]; rfl)
    hstanding (fun _ => hleave) (by rintro ⟨⟩) (by rintro - ⟨⟩)) fun _ => ⟨hrank, by simp⟩

end

/-! ### The steps of a driver -/

theorem onward_top (hpoint : (t.driver seat).point = .top)
    (horderly : T.orderly plans t (.driver seat .run) = true) :
    Onward T plans initial (run, t) (T.advance run t seat) := by
  simp only [advance, hpoint]
  rcases (T.driver seat).head_cases (t.driver seat) run.stopped run.graceful with
    ⟨hterminal, hhead⟩ | ⟨hmax, hhead⟩ | ⟨hnot, hwhy, hhead⟩ | ⟨hnot, hbelow, hgo, -, hhead⟩
  · rw [hhead]
    exact h.onward_finish hpoint rfl rfl (by simp [Point.rank]) (.inl hterminal)
      (h.leave_terminal (h.idle_at hpoint rfl).1 hterminal)
  · by_cases hterminal : T.protocol.isTerminal (t.driver seat).seat.state = true
    · have hend : (T.driver seat).head (t.driver seat) run.stopped run.graceful =
          (t.driver seat).goTo .finished := if_pos hterminal
      rw [hend] at hhead
      cases congrArg Driver.point hhead
    · simp only [orderly, hpoint, hterminal, Bool.false_or,
        decide_eq_true_eq] at horderly
      exact absurd hmax (Nat.not_le.mpr horderly)
  · rw [hhead]
    exact h.onward_plain hpoint rfl (.arriving _) id rfl rfl
      ⟨hnot, rfl⟩ (fun _ => by simp [Point.rank])
  · rw [hhead]
    apply h.onward_plain hpoint rfl (.planning _) id rfl rfl
      ⟨⟨hnot, hbelow⟩, rfl, fun hs _ => (hgo hs).2⟩
    intro hwinds
    obtain ⟨hgraceful, hboundary⟩ := hgo hwinds.1
    rw [(hwinds.2 hgraceful seat).1] at hboundary
    cases hboundary

variable {boundaryOk : Bool}

theorem onward_plan (hpoint : (t.driver seat).point = .planning boundaryOk) (planned : Option Move)
    (horderly : T.orderly plans t (.driver seat (.plan planned)) = true) :
    Onward T plans initial (run, t)
      (run, t.put seat ((T.driver seat).planned (t.driver seat) boundaryOk planned)) := by
  obtain ⟨hready, hboundary, hstop⟩ := h.standing_at hpoint
  cases planned with
  | none =>
    exact h.onward_plain hpoint rfl (.arriving boundaryOk) id rfl rfl ⟨hready.1, hboundary⟩
      (fun _ => by simp [Point.rank])
  | some mv =>
    simp only [orderly, hpoint, Bool.and_eq_true, beq_iff_eq] at horderly
    obtain ⟨hplans, hlegal⟩ := horderly
    exact h.onward_plain hpoint rfl (.reserving mv) id rfl rfl
      ⟨⟨hready, hplans, exists_ok_of_isOk hlegal⟩, hstop⟩
      (fun _ => by simp [Point.rank])

variable {mv : Move}

theorem onward_reserving (hpoint : (t.driver seat).point = .reserving mv) :
    Onward T plans initial (run, t) (T.advance run t seat) := by
  have hfree := (h.idle_at hpoint rfl).1
  obtain ⟨hmove, hstop⟩ := h.standing_at hpoint
  simp only [advance, hpoint]
  rw [reserve]
  by_cases hgraceful : run.graceful = true
  · rw [if_pos hgraceful]
    refine onward_goTo hpoint (h.goTo hpoint rfl (.proposing mv) (t.inflight + 1) id rfl hmove
      (by rintro ⟨⟩) ?_ (by rintro - ⟨⟩)) ?_
    · exact fun _ => h.peer_in hfree hmove.1.1 fun hs => ⟨hgraceful, hstop hs hgraceful⟩
    · intro hwinds
      exact absurd (hwinds.2 hgraceful seat).1 (Bool.eq_false_iff.mp (hstop hwinds.1 hgraceful))
  · rw [if_neg hgraceful]
    by_cases hstopped : run.stopped = true
    · rw [if_pos hstopped]
      exact h.onward_plain hpoint rfl .top id rfl rfl trivial
        (fun _ => by simp [Point.rank])
    · rw [if_neg hstopped]
      have hpeer : (t.driver seat.other).point ≠ .finished :=
        h.peer_in hfree hmove.1.1 fun hs => absurd hs hstopped
      have hrunning : ¬T.WindsDown (run, t) := fun hwinds => hstopped hwinds.1
      rw [Bool.not_eq_true] at hstopped
      cases hlimit : run.moveLimit.isSome with
      | true | false =>
        exact onward_goTo hpoint (h.goTo hpoint rfl _ t.inflight id rfl ⟨hmove, hstopped⟩
          (by rintro ⟨⟩) (fun _ => hpeer) (by rintro - ⟨⟩)) fun hwinds => absurd hwinds hrunning

variable {run' : RunLevelControl}

/-- The invariant does not mention the counters. -/
theorem of_run (hstopped : run'.stopped = run.stopped) (hgraceful : run'.graceful = run.graceful)
    (hversion : run'.version = run.version) :
    Coordinated T plans initial run' t side where
  tied := h.tied
  standing := by
    intro seat
    have hstanding := h.standing seat
    unfold Standing at hstanding ⊢
    rw [hstopped, hgraceful, hversion]
    exact hstanding
  left := h.left
  awake := by
    have hdozing : ∀ point : Point Move, point.dozing run' = point.dozing run := by
      intro point
      cases point <;> simp [Point.dozing, Point.heedless, hgraceful, hversion]
    simp only [hdozing, hstopped]
    exact h.awake

theorem not_winding
    (hpoint : (t.driver seat).point = .claiming mv ∨ (t.driver seat).point = .counting mv) :
    T.MayMove plans seat (t.driver seat) mv ∧ run.stopped = false ∧
      (t.driver seat.other).point ≠ .finished ∧ ∀ now', T.Shrinks (run, t) now' := by
  obtain ⟨hmove, hstopped⟩ : T.MayMove plans seat (t.driver seat) mv ∧ run.stopped = false := by
    rcases hpoint with hpoint | hpoint <;> exact h.standing_at hpoint
  have hfree : (side seat).pending = none := by
    rcases hpoint with hpoint | hpoint <;> exact (h.idle_at hpoint rfl).1
  have hrunning : ¬run.stopped = true := by simp [hstopped]
  exact ⟨hmove, hstopped, h.peer_in hfree hmove.1.1 fun hs => absurd hs hrunning,
    fun now' hwinds => absurd hwinds.1 hrunning⟩

theorem onward_claiming (hpoint : (t.driver seat).point = .claiming mv) :
    Onward T plans initial (run, t) (T.advance run t seat) := by
  obtain ⟨hmove, hstopped, hpeer, hshrinks⟩ := h.not_winding (.inl hpoint)
  simp only [advance, hpoint]
  rw [claim]
  cases hlimit : run.moveLimit with
  | none => exact .inl rfl
  | some moveLimit =>
    by_cases hfull : moveLimit ≤ run.reservations
    · simp only [if_pos hfull]
      exact h.onward_plain hpoint rfl .top id rfl rfl trivial
        (fun _ => by simp [Point.rank])
    · simp only [if_neg hfull]
      refine .inr ⟨⟨side, ?_⟩, hshrinks _⟩
      exact (h.goTo hpoint rfl (.counting mv) t.inflight id rfl
        ⟨hmove, hstopped⟩ (by rintro ⟨⟩) (fun _ => hpeer) (by rintro - ⟨⟩)).of_run rfl rfl rfl

theorem onward_retry (hpoint : (t.driver seat).point = .claiming mv) :
    Onward T plans initial (run, t) (run, t.goTo seat (.reserving mv)) := by
  obtain ⟨hmove, hstopped, -, -⟩ := h.not_winding (.inl hpoint)
  exact h.onward_plain hpoint rfl (.reserving mv) id rfl rfl
    ⟨hmove, fun hs => by rw [hstopped] at hs; cases hs⟩ (fun _ => by simp [Point.rank])

theorem onward_counting (hpoint : (t.driver seat).point = .counting mv) :
    Onward T plans initial (run, t) (T.advance run t seat) := by
  obtain ⟨hmove, -, hpeer, hshrinks⟩ := h.not_winding (.inr hpoint)
  simp only [advance, hpoint]
  exact .inr ⟨⟨side, h.goTo hpoint rfl (.proposing mv) (t.inflight + 1) id rfl hmove
    (by rintro ⟨⟩) (fun _ => hpeer) (by rintro - ⟨⟩)⟩, hshrinks _⟩

theorem onward_stopped {source : Point Move} (hpoint : (t.driver seat).point = source)
    (hidle : source.idle = true) (hgate : source.inGate = 0)
    (hrank : 0 < source.rank run.version) (hstop : t.mayStop run boundaryOk = true)
    (hboundary : boundaryOk = (T.driver seat).boundaryOk (t.driver seat)) :
    Onward T plans initial (run, t) (run, t.goTo seat .finished) := by
  have hleave := h.leave_stopped seat hstop
  simp only [mayStop, Bool.and_eq_true, Bool.or_eq_true, Bool.not_eq_true'] at hstop
  obtain ⟨⟨hstopped, -⟩, hwhere⟩ := hstop
  refine h.onward_finish hpoint hidle hgate hrank (.inr ⟨hstopped, ?_⟩) hleave
  intro hgraceful
  rw [hgraceful] at hwhere
  rw [← hwhere.resolve_left (by simp)]
  exact hboundary.symm

/-- A driver that may not stop yet, and does not misread the gate, waits for a move that comes. -/
theorem expects_of_not_mayStop {event : DriverEvent Move} {source : Point Move}
    (hpoint : (t.driver seat).point = source) (hidle : source.idle = true)
    (hgate : source.inGate = 0) (hstopped : run.stopped = true)
    (hboundary : (!run.graceful || boundaryOk) = true) (hstop : ¬t.mayStop run boundaryOk = true)
    (hlooks : misreads (run, t) (.driver seat event) = false)
    (hevent : event = .run ∧ source = .arriving boundaryOk ∨
      event = .wake ∧ ∃ seen, source = .parked boundaryOk seen) :
    t.expects seat = true := by
  apply h.expects_of_inflight (h.idle_at hpoint hidle).1 (by rw [hpoint, hgate])
  · rcases hevent with ⟨rfl, rfl⟩ | ⟨rfl, _, rfl⟩ <;>
      simpa [misreads, hpoint, hstopped, hboundary] using hlooks
  · intro hzero
    exact hstop (by simp [mayStop, hstopped, hzero, hboundary])

theorem onward_arriving (hpoint : (t.driver seat).point = .arriving boundaryOk)
    (hlooks : misreads (run, t) (.driver seat .run) = false) :
    Onward T plans initial (run, t) (T.advance run t seat) := by
  have hstanding := h.standing_at hpoint
  simp only [advance, hpoint]
  by_cases hstop : t.mayStop run boundaryOk = true
  · rw [if_pos hstop]
    exact h.onward_stopped hpoint rfl rfl (by simp [Point.rank]) hstop hstanding.2
  · rw [if_neg hstop]
    refine onward_goTo hpoint (h.goTo hpoint rfl (.subscribing boundaryOk) t.inflight id rfl
      hstanding (by rintro ⟨⟩) (by rintro ⟨⟩) ?_) fun _ => ⟨by simp [Point.rank], by simp⟩
    exact fun hstopped hdozing => h.expects_of_not_mayStop hpoint rfl rfl hstopped hdozing hstop
      hlooks (.inl ⟨rfl, rfl⟩)

theorem onward_subscribing (hpoint : (t.driver seat).point = .subscribing boundaryOk) :
    Onward T plans initial (run, t) (T.advance run t seat) := by
  have hstanding := h.standing_at hpoint
  simp only [advance, hpoint]
  refine onward_goTo hpoint (h.goTo hpoint rfl (.parked boundaryOk run.version) t.inflight id rfl
    ⟨hstanding.1, hstanding.2, Nat.le_refl _⟩ (by rintro ⟨⟩) (by rintro ⟨⟩) ?_)
    fun _ => ⟨by simp [Point.rank], by simp⟩
  intro hstopped hdozing
  apply h.awake hstopped seat
  rw [hpoint]
  simpa [Point.dozing, Point.heedless] using hdozing

theorem onward_wake {seen : Nat} (hpoint : (t.driver seat).point = .parked boundaryOk seen)
    (hlooks : misreads (run, t) (.driver seat .wake) = false) :
    Onward T plans initial (run, t) (run, wake run t seat boundaryOk seen) := by
  have hstanding := h.standing_at hpoint
  rw [wake]
  by_cases hsleeps : seen = run.version ∨ t.inbox seat ≠ [] ∨ t.dropped seat.other = true
  · rw [if_pos hsleeps]
    exact .inl rfl
  · rw [if_neg hsleeps]
    have hnew : seen ≠ run.version := fun heq => hsleeps (.inl heq)
    by_cases hstop : t.mayStop run boundaryOk = true
    · rw [if_pos hstop]
      exact h.onward_stopped hpoint rfl rfl (by simp [Point.rank, hnew]) hstop hstanding.2.1
    · rw [if_neg hstop]
      refine onward_goTo hpoint (h.goTo hpoint rfl (.parked boundaryOk run.version) t.inflight id
        rfl ⟨hstanding.1, hstanding.2.1, Nat.le_refl _⟩ (by rintro ⟨⟩) (by rintro ⟨⟩) ?_)
        fun _ => ⟨by simp [Point.rank, hnew], by simp⟩
      intro hstopped hdozing
      simp only [Point.dozing, beq_self_eq_true, Bool.and_true] at hdozing
      exact h.expects_of_not_mayStop hpoint rfl rfl hstopped hdozing hstop hlooks
        (.inr ⟨rfl, seen, rfl⟩)

theorem onward_recording (hpoint : (t.driver seat).point = .recording) :
    Onward T plans initial (run, t) (T.advance run t seat) := by
  have hgate := h.tied.gate seat
  simp only [advance, hpoint]
  refine onward_goTo hpoint (h.goTo hpoint rfl .tallying (t.inflight - 1) id ?_ trivial
    (by rintro ⟨⟩) (by rintro ⟨⟩) (by rintro - ⟨⟩)) fun _ => ⟨by simp [Point.rank], by simp⟩
  simp only [share, hpoint, Point.inGate] at hgate ⊢
  omega

/-- A driver handles a frame or sends one, with a hard stop if any. -/
theorem onward_deliver {inbox : Seat → List Bytes} {d' : Driver State Move} {frames : List Bytes}
    {x' : Side (Entry State Move)} {point : Point Move}
    (htied : Tied T plans initial (deliver { t with inbox := inbox } seat d' frames)
      (Function.update side seat x')) (hinbox : inbox seat.other = t.inbox seat.other)
    (hpoint : d'.point = point) (hstanding : T.Standing plans run seat (d'.goTo point))
    (hplain : point ≠ .finished ∧ point.moving = false ∧ point.dozing run = false)
    (hleft : (t.driver seat.other).point = .finished → unanswered x' (side seat.other) = false)
    (hexpects : (t.driver seat).point.isProposing = false ∨ frames ≠ [])
    (hhard : T.WindsDown (run, t) → run.graceful = false)
    (hless : point.rank run.version + ((inbox seat).map T.load).sum + (frames.map T.load).sum <
      (t.driver seat).point.rank run.version + ((t.inbox seat).map T.load).sum) :
    Onward T plans initial (run, t) (run, deliver { t with inbox := inbox } seat d' frames) := by
  subst hpoint
  refine .inr ⟨⟨_, htied, ?_, ?_, ?_⟩, fun hwinds => ⟨⟨hwinds.1, ?_⟩, ?_⟩⟩
  · refine (Seat.forall_iff seat).mpr ?_
    rw [deliver_driver_self, deliver_driver_other]
    exact ⟨hstanding, h.standing _⟩
  · refine (Seat.forall_iff seat).mpr ?_
    rw [deliver_driver_self, deliver_driver_other, Seat.other_other, deliver_driver_self,
      Function.update_self, Function.update_of_ne seat.other_ne]
    exact ⟨fun hfinished => absurd hfinished hplain.1,
      fun hfinished => ⟨hplain.2.1, hleft hfinished⟩⟩
  · intro hstopped
    refine (Seat.forall_iff seat).mpr ?_
    rw [deliver_driver_self, deliver_driver_other, hplain.2.2]
    refine ⟨by rintro ⟨⟩, fun hdozing => ?_⟩
    have hbefore := h.awake hstopped seat.other hdozing
    rcases hexpects with hnot | hsome
    · simp_all [expects]
    · simp [expects, hsome]
  · rw [hhard hwinds]
    rintro ⟨⟩
  · rw [T.remaining_eq _ seat, T.remaining_eq _ seat]
    simp only [remainingOf, deliver_driver_self, deliver_driver_other, deliver_inbox_self,
      deliver_inbox_other, deliver_dropped, hinbox, List.map_append, List.sum_append]
    omega

/-- A graceful stop is not honored while a move is pending. -/
theorem hard_of_pending {e : Entry State Move}
    (hpending : (side seat).pending = some e) (hwinds : T.WindsDown (run, t)) :
    run.graceful = false := by
  rw [Bool.eq_false_iff]
  intro hgraceful
  have hnone := (h.tied.drives seat).follows.free_of_pending_none (hwinds.2 hgraceful seat).2.1
  rw [hpending] at hnone
  cases hnone

section

variable (hsound : T.Sound)
include hsound

theorem onward_awaiting {frame : Bytes} {proposedNonce : UInt64} {resends : Nat}
    (hpoint : (t.driver seat).point = .awaiting frame proposedNonce resends) :
    Onward T plans initial (run, t) (T.advance run t seat) := by
  simp only [advance, hpoint]
  rcases h.tied.receiveAck hsound hpoint with
    ⟨_, _, _, _, _, hpending, hinbox, _, htop, -, hreceive, htied⟩ |
    ⟨hinbox, -, hunanswered⟩
  · rw [hreceive]
    refine h.onward_deliver htied (take_inbox_other ..) htop trivial ⟨by simp, rfl, rfl⟩
      (fun _ => by simp [unanswered, Side.commit]) (.inl (by rw [hpoint]; rfl))
      (h.hard_of_pending hpending) ?_
    simp [hinbox, hpoint, Point.rank]
    omega
  · rw [receiveAck, hinbox]
    by_cases hdropped : t.dropped seat.other = true
    · have hleft := (h.left _ (h.finished_of_dropped hdropped)).2
      rw [Seat.other_other, hunanswered] at hleft
      cases hleft
    · simp only [hdropped]
      exact .inl rfl

theorem onward_parked {seen : Nat}
    (hpoint : (t.driver seat).point = .parked boundaryOk seen) :
    Onward T plans initial (run, t) (T.advance run t seat) := by
  have hfree := (h.idle_at hpoint rfl).1
  simp only [advance, hpoint]
  rcases h.tied.receiveMove hsound hpoint run with
    ⟨_, _, _, hpending, hlog, hinbox, hmove, -, hnext⟩ | ⟨hinbox, hanswered⟩
  · obtain ⟨_, _, _, hrecording, hack, hreceive, htied⟩ := hnext (h.open_of_pending hpending)
    rw [hreceive]
    refine h.onward_deliver htied (take_inbox_other ..) hrecording trivial ⟨by simp, rfl, rfl⟩
      (fun _ => by simp [unanswered, Side.accept, hfree]) (.inr (by simp))
      (h.hard_of_pending hpending) ?_
    simp only [hinbox, hpoint, Function.update_self, List.tail_cons, List.map_cons, List.map_nil,
      List.sum_cons, List.sum_nil, load, hmove, hack, Point.rank]
    split <;> omega
  · rw [receiveMove, hinbox]
    by_cases hdropped : t.dropped seat.other = true
    · simp only [hdropped, if_true]
      have hstanding := h.standing_at hpoint
      have hfinished := h.finished_of_dropped hdropped
      obtain ⟨hstopped, hboundary⟩ :=
        (h.peer_left hfree hfinished).resolve_left (Bool.eq_false_iff.mp hstanding.1)
      rw [if_pos hstopped]
      refine h.onward_finish hpoint rfl rfl ?_ (.inr ⟨hstopped, hboundary⟩)
        ⟨by rw [hfinished]; rfl, hanswered⟩
      rw [Point.rank]
      split <;> omega
    · simp only [hdropped]
      exact .inl rfl

theorem proposes (hpoint : (t.driver seat).point = .proposing mv) (timestamp : UInt64) :
    (t.driver seat.other).point ≠ .finished ∧ ∃ e d' frame proposedNonce,
      t.sends seat ((T.driver seat).propose (t.driver seat) mv timestamp) =
        t.deliver seat d' [frame] ∧
      d'.point = .awaiting frame proposedNonce 0 ∧
      T.protocol.isTerminal d'.seat.state = false ∧
      Tied T plans initial (t.deliver seat d' [frame])
        (Function.update side seat ((side seat).offer e)) := by
  have hfree : (side seat).pending = none := h.free (by simp [hpoint])
  have hdrives := h.tied.drives seat
  obtain ⟨⟨hterminal, hbelow⟩, hplans, next, happly⟩ := h.standing_at hpoint
  have hpeer : (t.driver seat.other).point ≠ .finished := by
    intro hfinished
    have hleft := (h.left _ hfinished).1
    rw [Seat.other_other, hpoint] at hleft
    cases hleft
  have hopen : t.dropped seat.other = false := by
    rw [Bool.eq_false_iff]
    exact fun hdropped => hpeer (h.finished_of_dropped hdropped)
  obtain ⟨bytes, rt', hok⟩ : ∃ bytes rt',
      (T.runtime seat).propose (t.driver seat).seat mv timestamp = .ok (bytes, rt') := by
    have hbound : (side seat).log.length + 1 < 2 ^ 64 := by
      have hmax := hsound.bounded seat
      have hmoves := hdrives.moves
      have hless : (t.driver seat).moves < T.maxMoves seat := hbelow
      omega
    apply hdrives.follows.can_propose (e := ⟨seat, mv, timestamp, next⟩) hfree
    refine ⟨⟨rfl, ?_⟩, hsound.writes _ _ hbound⟩
    rw [← h.tied.state]
    exact happly
  obtain ⟨e, d', frame, hsends, ⟨proposedNonce, hawaiting⟩, hstate, -, htied⟩ :=
    h.tied.propose hpoint hplans hopen hok
  exact ⟨hpeer, e, d', frame, proposedNonce, hsends, hawaiting,
    (congrArg T.protocol.isTerminal hstate).trans hterminal, htied⟩

theorem onward_propose (hpoint : (t.driver seat).point = .proposing mv) (timestamp : UInt64) :
    Onward T plans initial (run, t)
      (run, t.sends seat ((T.driver seat).propose (t.driver seat) mv timestamp)) := by
  obtain ⟨hpeer, _, _, frame, _, hsends, hawaiting, hterminal, htied⟩ :=
    h.proposes hsound hpoint timestamp
  rw [hsends]
  refine h.onward_deliver htied rfl hawaiting hterminal ⟨by simp, rfl, rfl⟩
    (fun hfinished => absurd hfinished hpeer) (.inr (by simp)) ?_ ?_
  · intro hwinds
    rw [Bool.eq_false_iff]
    exact fun hgraceful => (hwinds.2 hgraceful seat).2.2 mv hpoint
  · have hload : T.load frame ≤ 10 := by
      rw [load]
      split <;> omega
    simp [hpoint, Point.rank]
    omega

/-! ### The stop flag is raised -/

end

omit h in
theorem safe_at (hsafe : T.safeToStop (run, t) = true) (seat : Seat) :
    (t.driver seat).point.exposed run.graceful ((T.driver seat).boundaryOk (t.driver seat)) =
        false ∧
      ((t.driver seat).point.heedless run.graceful = true → t.expects seat = true) := by
  simp only [safeToStop, List.all_eq_true, Bool.and_eq_true, Bool.not_eq_true', Bool.or_eq_true]
    at hsafe
  obtain ⟨hhidden, hheeds⟩ := hsafe seat (by cases seat <;> simp)
  refine ⟨hhidden, fun hheedless => ?_⟩
  simpa [hheedless] using hheeds

theorem raise (hstopped : run'.stopped = true)
    (hgraceful : run'.graceful = run.graceful) (hversion : run'.version = run.version + 1)
    (hsafe : run.stopped = true ∨ T.safeToStop (run, t) = true) :
    Coordinated T plans initial run' t side where
  tied := h.tied
  standing := by
    intro seat
    have hstanding := h.standing seat
    have hhidden : run.stopped = true ∨ (t.driver seat).point.exposed run.graceful
        ((T.driver seat).boundaryOk (t.driver seat)) = false := by
      rcases hsafe with hyes | hsafe
      · exact .inl hyes
      · exact .inr (safe_at hsafe seat).1
    unfold Standing at hstanding ⊢
    rw [hgraceful]
    cases hpoint : (t.driver seat).point <;> rw [hpoint] at hstanding hhidden <;>
      simp only [Point.exposed, reduceCtorEq, or_false] at hstanding hhidden ⊢
    case planning boundaryOk =>
      refine ⟨hstanding.1, hstanding.2.1, fun _ hmode => ?_⟩
      rcases hhidden with hyes | hno
      · exact hstanding.2.2 hyes hmode
      · simpa [hmode] using hno
    case reserving mv =>
      refine ⟨hstanding.1, fun _ hmode => ?_⟩
      rcases hhidden with hyes | hno
      · exact hstanding.2 hyes hmode
      · simpa [hmode] using hno
    case claiming mv => exact absurd hhidden (by simp [hstanding.2])
    case counting mv => exact absurd hhidden (by simp [hstanding.2])
    case finished => exact hstanding.imp_right fun hyes => ⟨hstopped, hyes.2⟩
    case parked boundaryOk seen => exact ⟨hstanding.1, hstanding.2.1, by omega⟩
    all_goals exact hstanding
  left := h.left
  awake := by
    intro _ seat hdozing
    -- nobody parked has seen the new version
    have hheedless : (t.driver seat).point.heedless run.graceful = true := by
      have hstanding := h.standing seat
      cases hpoint : (t.driver seat).point <;> rw [hpoint] at hdozing <;>
        simp only [Point.dozing, Point.heedless, hgraceful, hversion, Bool.and_eq_true, beq_iff_eq,
          reduceCtorEq] at hdozing ⊢
      case subscribing => exact hdozing
      case parked =>
        rw [Standing, hpoint] at hstanding
        obtain ⟨-, -, _⟩ := hstanding
        omega
    rcases hsafe with hyes | hsafe
    · apply h.awake hyes seat
      cases hpoint : (t.driver seat).point <;> rw [hpoint] at hheedless <;>
        first | exact hheedless | cases hheedless
    · exact (safe_at hsafe seat).2 hheedless

omit h in
theorem rank_le (point : Point Move) (version version' : Nat) :
    point.rank version' ≤ point.rank version + 1 := by
  cases point with
  | parked =>
    simp only [Point.rank]
    split <;> split <;> omega
  | _ => exact Nat.le_succ _

theorem onward_tallying (hpoint : (t.driver seat).point = .tallying)
    (hsafe : run.stopped = true ∨ asksToStop (run, t) (.driver seat .run) = false ∨
      T.safeToStop (run, t) = true) :
    Onward T plans initial (run, t) (T.advance run t seat) := by
  have htop : ∀ run', Coordinated T plans initial run' t side →
      Coordinated T plans initial run' (t.goTo seat .top) side := by
    intro run' h'
    exact h'.goTo hpoint rfl .top t.inflight id rfl trivial (by rintro ⟨⟩) (by rintro ⟨⟩)
      (by rintro - ⟨⟩)
  have hgraceful : run.countMove.graceful = run.graceful := by
    rw [RunLevelControl.countMove]
    split <;> rfl
  have hcoordinated : Coordinated T plans initial run.countMove t side ∧
      (run.stopped = true → run.countMove.stopped = true) := by
    cases hask : run.moveLimit.any fun moveLimit => decide (moveLimit ≤ run.moves + 1) with
    | true =>
      have hraised : run.countMove = ({ run with moves := run.moves + 1 }).requestStop :=
        if_pos hask
      rw [hraised]
      refine ⟨h.raise rfl rfl rfl ?_, fun _ => rfl⟩
      simpa [asksToStop, hpoint, hask] using hsafe
    | false =>
      have hcounted : run.countMove = { run with moves := run.moves + 1 } :=
        if_neg (by simp [hask])
      rw [hcounted]
      exact ⟨h.of_run rfl rfl rfl, id⟩
  simp only [advance, hpoint]
  refine .inr ⟨⟨side, htop _ hcoordinated.1⟩, ?_⟩
  intro hwinds
  refine ⟨⟨hcoordinated.2 hwinds.1, ?_⟩, ?_⟩
  · rw [hgraceful]
    intro hmode
    have hboth := hwinds.2 hmode
    refine (Seat.forall_iff seat).mpr ?_
    simp only [goTo_driver_self, goTo_driver_other]
    exact ⟨⟨(hboth seat).1, (hboth seat).2.1, by simp [Driver.goTo]⟩, hboth seat.other⟩
  · have hother := rank_le (t.driver seat.other).point run.version run.countMove.version
    rw [T.remaining_eq _ seat, T.remaining_eq _ seat]
    simp only [remainingOf, goTo_driver_self, goTo_driver_other,
      goTo_inbox, goTo_dropped, Driver.goTo, hpoint]
    simp only [Point.rank] at hother ⊢
    omega

theorem onward_drop (seat : Seat) :
    Onward T plans initial (run, t) (T.step (run, t) (.drop seat)) := by
  rw [step]
  by_cases hmay : t.mayDrop seat = true
  · have hout : (t.driver seat).point.out = true := by
      rw [mayDrop] at hmay
      cases hpoint : (t.driver seat).point <;> first | rfl | simp [hpoint] at hmay
    simp only [if_pos hmay]
    cases hdropped : t.dropped seat with
    | true =>
      refine .inl ?_
      rw [← hdropped, Function.update_eq_self]
    | false =>
      refine .inr ⟨⟨side, h.tied.drop hout, h.standing, h.left, h.awake⟩, ?_⟩
      intro hwinds
      refine ⟨hwinds, ?_⟩
      rw [T.remaining_eq _ seat, T.remaining_eq _ seat]
      simp only [remainingOf, Function.update_self,
        Function.update_of_ne seat.other_ne, hdropped, Bool.not_true, Bool.not_false,
        Bool.toNat_true, Bool.toNat_false]
      omega
  · rw [if_neg hmay]
    exact .inl rfl

/-! ### Steps and runs -/

variable {event : TunnelEvent Move} (hsound : T.Sound)
include hsound

theorem onward_step (hcalm : T.calm plans (run, t) event = true) (hne : event ≠ .requestStop) :
    Onward T plans initial (run, t) (T.step (run, t) event) := by
  simp only [calm, Bool.and_eq_true, Bool.or_eq_true, Bool.not_eq_true'] at hcalm
  obtain ⟨⟨horderly, hsafe⟩, hlooks⟩ := hcalm
  cases event with
  | requestStop => exact absurd rfl hne
  | drop seat => exact h.onward_drop seat
  | driver seat event =>
    rw [step]
    cases event with
    | run =>
      rw [driverStep]
      cases hpoint : (t.driver seat).point with
      | top => exact h.onward_top hpoint horderly
      | reserving => exact h.onward_reserving hpoint
      | claiming => exact h.onward_claiming hpoint
      | counting => exact h.onward_counting hpoint
      | awaiting => exact h.onward_awaiting hsound hpoint
      | arriving => exact h.onward_arriving hpoint hlooks
      | subscribing => exact h.onward_subscribing hpoint
      | parked => exact h.onward_parked hsound hpoint
      | recording => exact h.onward_recording hpoint
      | tallying => exact h.onward_tallying hpoint (or_assoc.mp hsafe)
      | _ => exact .inl (by rw [advance, hpoint])
    | plan planned =>
      rw [driverStep]
      split
      · next hpoint => exact h.onward_plan hpoint planned horderly
      · exact .inl rfl
    | retry =>
      rw [driverStep]
      split
      · next hpoint => exact h.onward_retry hpoint
      · exact .inl rfl
    | propose timestamp =>
      rw [driverStep]
      split
      · next hpoint => exact h.onward_propose hsound hpoint timestamp
      · exact .inl rfl
    | timeout =>
      rw [driverStep]
      split
      · next hpoint =>
          have hno : T.orderly plans t (.driver seat .timeout) = true := horderly
          rw [orderly, hpoint] at hno
          cases hno
      · exact .inl rfl
    | wake =>
      rw [driverStep]
      split
      · next hpoint => exact h.onward_wake hpoint hlooks
      · exact .inl rfl
    | fail =>
      rw [orderly] at horderly
      cases horderly

theorem step (hcalm : T.calm plans (run, t) event = true) :
    ∃ side', Coordinated T plans initial (T.step (run, t) event).1 (T.step (run, t) event).2
      side' := by
  by_cases hstop : event = .requestStop
  · subst hstop
    refine ⟨side, h.raise rfl rfl rfl ?_⟩
    simpa [calm, orderly, asksToStop, misreads] using hcalm
  · rcases h.onward_step hsound hcalm hstop with hsame | ⟨hnext, -⟩
    · rw [hsame]
      exact ⟨side, h⟩
    · exact hnext

end Coordinated

end

end DopamintArena.Rust
