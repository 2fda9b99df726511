import DopamintArena.Rust.RunControl

/-!
The two drivers of a tunnel as the two sides of a handshake over a reliable
channel. `Tied` says what holds between the drivers, the frames on their way and
the gate, whatever the run control does; one lemma for each kind of step says
that it is kept.
-/

namespace DopamintArena.Rust

open Foundation Tunnel
open Foundation.Handshake (Side Message onTheWay unanswered unanswered_of_free)

variable {State Move : Type}

@[simp] theorem Seat.other_other (seat : Seat) : seat.other.other = seat :=
  Engine.otherParty_otherParty seat

theorem Seat.other_ne (seat : Seat) : seat.other ≠ seat := Engine.otherParty_ne seat

theorem Seat.forall_iff (seat : Seat) {P : Seat → Prop} :
    (∀ s, P s) ↔ P seat ∧ P seat.other := by
  refine ⟨fun h => ⟨h _, h _⟩, ?_⟩
  rintro ⟨_, _⟩ s
  cases seat <;> cases s <;> assumption

/-! ### Fields of a tunnel after an update -/

namespace Tunnel

variable (t : Tunnel State Move) (seat : Seat) (d : Driver State Move) (point : Point Move)

@[simp] theorem put_driver_self : (t.put seat d).driver seat = d := by simp [put]

@[simp] theorem put_driver_other : (t.put seat d).driver seat.other = t.driver seat.other := by
  simp [put, Seat.other_ne]

@[simp] theorem goTo_driver_self :
    (t.goTo seat point).driver seat = (t.driver seat).goTo point := put_driver_self ..

@[simp] theorem goTo_driver_other :
    (t.goTo seat point).driver seat.other = t.driver seat.other := put_driver_other ..

@[simp] theorem goTo_inbox : (t.goTo seat point).inbox = t.inbox := rfl

@[simp] theorem goTo_dropped : (t.goTo seat point).dropped = t.dropped := rfl

@[simp] theorem setInflight_driver (n : Nat) : (t.setInflight n).driver = t.driver := rfl

@[simp] theorem setInflight_inbox (n : Nat) : (t.setInflight n).inbox = t.inbox := rfl

@[simp] theorem setInflight_dropped (n : Nat) : (t.setInflight n).dropped = t.dropped := rfl

@[simp] theorem setInflight_inflight (n : Nat) : (t.setInflight n).inflight = n := rfl

@[simp] theorem take_inbox_other : (t.take seat).inbox seat.other = t.inbox seat.other := by
  simp [take, Seat.other_ne]

/-- The driver has done this and its frames are on their way. -/
def deliver (d : Driver State Move) (frames : List Bytes) : Tunnel State Move :=
  { t.put seat d with
    inbox := Function.update t.inbox seat.other (t.inbox seat.other ++ frames) }

section

variable (frames : List Bytes)

@[simp] theorem deliver_driver_self :
    (t.deliver seat d frames).driver seat = d := put_driver_self ..

@[simp] theorem deliver_driver_other :
    (t.deliver seat d frames).driver seat.other = t.driver seat.other := put_driver_other ..

@[simp] theorem deliver_inbox_self :
    (t.deliver seat d frames).inbox seat = t.inbox seat := by
  simp [deliver, (Seat.other_ne seat).symm]

@[simp] theorem deliver_inbox_other :
    (t.deliver seat d frames).inbox seat.other = t.inbox seat.other ++ frames := by
  simp [deliver]

@[simp] theorem deliver_dropped :
    (t.deliver seat d frames).dropped = t.dropped := rfl

@[simp] theorem deliver_inflight :
    (t.deliver seat d frames).inflight = t.inflight := rfl

theorem sends_of_open (hopen : t.dropped seat.other = false) :
    t.sends seat (d, frames) = t.deliver seat d frames := by
  rw [sends, if_neg]
  · rfl
  · rintro ⟨-, hdropped⟩
    rw [hopen] at hdropped
    cases hdropped

end

theorem sends_nothing : t.sends seat (d, []) = t.deliver seat d [] := by
  rw [sends, if_neg]
  · rfl
  · rintro ⟨hne, -⟩
    exact hne rfl

end Tunnel

/-! ### The invariant -/

namespace TunnelSetup

/-- What the drivers rely on: keys and frames that fit together, one state to start from, and a
tunnel id and nonces that can be written. -/
structure Sound (T : TunnelSetup State Move) : Prop where
  verifies : ∀ seat msg, T.verify (T.publicKey seat) msg (T.sign seat msg) = true
  decodes : ∀ frame, T.decode (T.encode frame) = .ok frame
  sameStart : ∀ balances, T.protocol.initialState ⟨T.tunnelId, balances, .A⟩ =
    T.protocol.initialState ⟨T.tunnelId, balances, .B⟩
  writable : ∃ id, addressToBytes32 T.tunnelId = .ok id
  bounded : ∀ seat, T.maxMoves seat < 2 ^ 64

variable (T : TunnelSetup State Move) (plans : State → Option Seat) (initial : State)

/-- The seat may append the entry: it is its turn to plan, and the move is legal. -/
def Mine (seat : Seat) (log : List (Entry State Move)) (e : Entry State Move) : Prop :=
  (T.runtime seat).Turn initial seat log e ∧ plans (stateAfter initial log) = some seat

def messageFor (k : Nat) (e : Entry State Move) : Bytes :=
  (serializeStateUpdate
    ((T.runtime e.bySeat).updateOf e.next (nonceAt k) e.timestamp)).toOption.getD []

def entryFor (k : Nat) (e : Entry State Move) : TranscriptEntry Move :=
  (T.runtime e.bySeat).transcriptEntry k e (T.sign e.bySeat (T.messageFor k e))
    (T.sign e.bySeat.other (T.messageFor k e))

end TunnelSetup

/-- How much of the gate is due to where the driver stands. -/
def Point.inGate : Point Move → Nat
  | .proposing _ => 1
  | .recording => 1
  | _ => 0

/-- How much of the gate a seat has brought in or has to clear. -/
def Tunnel.share (t : Tunnel State Move) (side : Seat → Side (Entry State Move)) (seat : Seat) :
    Nat :=
  (t.driver seat).point.inGate + (unanswered (side seat) (side seat.other)).toNat

structure Tied (T : TunnelSetup State Move) (plans : State → Option Seat) (initial : State)
    (t : Tunnel State Move) (side : Seat → Side (Entry State Move)) : Prop where
  drives : ∀ seat, (T.driver seat).Drives initial (t.driver seat) (side seat)
  inStep : ∀ seat, Handshake.InStep (T.Mine plans initial seat) (T.Mine plans initial seat.other)
    (side seat) (side seat.other)
  inbox : ∀ seat, List.Forall₂ (T.runtime seat.other).Issues (t.inbox seat)
    (onTheWay (side seat) (side seat.other))
  recorded : ∀ seat, (t.driver seat).recorded = (side seat).log.mapIdx T.entryFor
  gate : ∀ seat, t.inflight = t.share side seat + t.share side seat.other
  dropped : ∀ seat, t.dropped seat = true → (t.driver seat).point.out = true

variable {T : TunnelSetup State Move} {plans : State → Option Seat} {initial : State}
variable {t : Tunnel State Move} {side : Seat → Side (Entry State Move)} {seat : Seat}
variable {e : Entry State Move} {bytes : Bytes}

theorem TunnelSetup.mine_exclusive (log : List (Entry State Move)) (e e' : Entry State Move)
    (h : T.Mine plans initial seat log e) : ¬T.Mine plans initial seat.other log e' := by
  intro h'
  have hsame : some seat = some seat.other := h.2.symm.trans h'.2
  exact seat.other_ne (Option.some.inj hsame).symm

theorem TunnelSetup.entryFor_eq {k : Nat} {msg : Bytes}
    (hwrites : (T.runtime seat).Writes k e msg) :
    T.entryFor k e = (T.runtime seat).transcriptEntry k e (T.sign e.bySeat msg)
      (T.sign e.bySeat.other msg) := by
  have hmsg : serializeStateUpdate ((T.runtime e.bySeat).updateOf e.next (nonceAt k) e.timestamp) =
      .ok msg := hwrites.2
  rw [entryFor, messageFor, hmsg]
  rfl

theorem TunnelSetup.Sound.writes (h : T.Sound) (k : Nat) (e : Entry State Move)
    (hk : k + 1 < 2 ^ 64) : ∃ msg, (T.runtime seat).Writes k e msg := by
  obtain ⟨id, hid⟩ := h.writable
  simp only [RuntimeConfig.Writes, serializeStateUpdate, returned, expect_ok_iff]
  exact ⟨_, hk, id, hid, rfl⟩

theorem TunnelSetup.Sound.reads (h : T.Sound) {message : Message (Entry State Move)}
    (hissues : (T.runtime seat.other).Issues bytes message) :
    ∃ msg, (T.runtime seat).Writes message.index message.entry msg ∧
      (T.runtime seat).verify (T.runtime seat).opponentPk msg (T.sign seat.other msg) = true ∧
      (T.runtime seat).decode bytes =
        .ok ((T.runtime seat).wireFrame (T.sign seat.other msg) message) := by
  obtain ⟨msg, hwrites, rfl⟩ := hissues
  refine ⟨msg, hwrites, h.verifies _ _, ?_⟩
  have hframe : (T.runtime seat.other).wireFrame (T.sign seat.other msg) message =
      (T.runtime seat).wireFrame (T.sign seat.other msg) message := by
    cases message <;> rfl
  exact (congrArg (fun frame => T.decode (T.encode frame)) hframe).trans (h.decodes _)

theorem TunnelSetup.Sound.decodes_receipt (h : T.Sound) {k : Nat}
    (hissues : (T.runtime seat).Issues bytes (.receipt k e)) :
    ∃ a, T.decode bytes = .ok (.ack a) := by
  obtain ⟨_, -, rfl⟩ := hissues
  exact ⟨_, h.decodes _⟩

namespace Tied

/-! ### What the invariant says -/

section

variable (h : Tied T plans initial t side)
include h

theorem inbox_other (seat : Seat) : List.Forall₂ (T.runtime seat).Issues (t.inbox seat.other)
    (onTheWay (side seat.other) (side seat)) := by
  have hother := h.inbox seat.other
  rwa [Seat.other_other] at hother

theorem state (seat : Seat) :
    (t.driver seat).seat.state = stateAfter initial (side seat).log := (h.drives seat).follows.state

/-- With nothing pending on either side the drivers stand at one state. -/
theorem same_log (hfree : (side seat).pending = none) (hother : (side seat.other).pending = none) :
    (side seat).log = (side seat.other).log :=
  (h.inStep seat).eq_of_no_pending hfree hother

theorem same_driver (hlog : (side seat).log = (side seat.other).log) :
    (t.driver seat).seat.state = (t.driver seat.other).seat.state ∧
      (t.driver seat).seat.nonce = (t.driver seat.other).seat.nonce ∧
      (t.driver seat).moves = (t.driver seat.other).moves ∧
      (t.driver seat).recorded = (t.driver seat.other).recorded := by
  refine ⟨?_, ?_, ?_, ?_⟩
  · rw [h.state, h.state, hlog]
  · apply UInt64.toNat_inj.mp
    rw [(h.drives seat).follows.nonce, (h.drives seat.other).follows.nonce, hlog]
  · rw [(h.drives seat).moves, (h.drives seat.other).moves, hlog]
  · rw [h.recorded, h.recorded, hlog]

theorem same_boundary (hlog : (side seat).log = (side seat.other).log) :
    (T.driver seat).boundaryOk (t.driver seat) =
      (T.driver seat.other).boundaryOk (t.driver seat.other) := by
  obtain ⟨hstate, -, hmoves, -⟩ := h.same_driver hlog
  simp only [DriverConfig.boundaryOk, hstate, hmoves]
  rfl

/-- With nothing in flight no driver is about to propose or to record, and every offer was taken
over. -/
theorem idle (hzero : t.inflight = 0) (seat : Seat) :
    (t.driver seat).point.inGate = 0 ∧ unanswered (side seat) (side seat.other) = false := by
  have hshare := h.gate seat
  have hself : t.share side seat = 0 := by omega
  obtain ⟨hpoint, hoffer⟩ := Nat.add_eq_zero_iff.mp hself
  exact ⟨hpoint, by simpa using hoffer⟩

end

/-! ### What a step keeps -/

theorem of_seat (seat : Seat)
    (hdrives : (T.driver seat).Drives initial (t.driver seat) (side seat) ∧
      (T.driver seat.other).Drives initial (t.driver seat.other) (side seat.other))
    (hinStep : Handshake.InStep (T.Mine plans initial seat) (T.Mine plans initial seat.other)
      (side seat) (side seat.other))
    (hinbox : List.Forall₂ (T.runtime seat.other).Issues (t.inbox seat)
        (onTheWay (side seat) (side seat.other)) ∧
      List.Forall₂ (T.runtime seat).Issues (t.inbox seat.other)
        (onTheWay (side seat.other) (side seat)))
    (hrecorded : (t.driver seat).recorded = (side seat).log.mapIdx T.entryFor ∧
      (t.driver seat.other).recorded = (side seat.other).log.mapIdx T.entryFor)
    (hgate : t.inflight = t.share side seat + t.share side seat.other)
    (hdropped : (t.dropped seat = true → (t.driver seat).point.out = true) ∧
      (t.dropped seat.other = true → (t.driver seat.other).point.out = true)) :
    Tied T plans initial t side where
  drives := (Seat.forall_iff seat).mpr hdrives
  inStep := (Seat.forall_iff seat).mpr ⟨hinStep, by rw [Seat.other_other]; exact hinStep.symm⟩
  inbox := (Seat.forall_iff seat).mpr ⟨hinbox.1, by rw [Seat.other_other]; exact hinbox.2⟩
  recorded := (Seat.forall_iff seat).mpr hrecorded
  gate := by
    refine (Seat.forall_iff seat).mpr ⟨hgate, ?_⟩
    rw [Seat.other_other, hgate, Nat.add_comm]
  dropped := (Seat.forall_iff seat).mpr hdropped

section

variable (h : Tied T plans initial t side)
include h

theorem goTo {point : Point Move} {inflight : Nat} (hin : (t.driver seat).point.out = false)
    (hholds : point.Holds (T.runtime seat) (side seat))
    (hgate : inflight + (t.driver seat).point.inGate = t.inflight + point.inGate) :
    Tied T plans initial ((t.goTo seat point).setInflight inflight) side := by
  apply of_seat seat
  · simp only [setInflight_driver, goTo_driver_self, goTo_driver_other]
    exact ⟨(h.drives seat).goTo hholds, h.drives _⟩
  · exact h.inStep seat
  · exact ⟨h.inbox seat, h.inbox_other seat⟩
  · simp only [setInflight_driver, goTo_driver_self, goTo_driver_other]
    exact ⟨h.recorded seat, h.recorded _⟩
  · have hbefore := h.gate seat
    simp only [share, setInflight_driver, setInflight_inflight,
      goTo_driver_self, goTo_driver_other, Driver.goTo] at hbefore ⊢
    omega
  · simp only [setInflight_driver, setInflight_dropped, goTo_driver_self,
      goTo_driver_other, goTo_dropped]
    refine ⟨?_, h.dropped _⟩
    intro hdropped
    have hout := h.dropped seat hdropped
    rw [hin] at hout
    cases hout

theorem drop (hout : (t.driver seat).point.out = true) :
    Tied T plans initial { t with dropped := Function.update t.dropped seat true } side := by
  refine ⟨h.drives, h.inStep, h.inbox, h.recorded, h.gate, ?_⟩
  refine (Seat.forall_iff seat).mpr ⟨fun _ => hout, ?_⟩
  intro hdropped
  simp only [Function.update_of_ne seat.other_ne] at hdropped
  exact h.dropped _ hdropped

theorem open_of_in (hin : (t.driver seat).point.out = false) :
    t.dropped seat = false := by
  rw [Bool.eq_false_iff]
  intro hdropped
  rw [h.dropped seat hdropped] at hin
  cases hin

/-- What a driver has pending, it waits for, unless it has failed. -/
theorem awaits (hpending : (side seat).pending = some e) :
    (∃ frame proposedNonce resends, (t.driver seat).point = .awaiting frame proposedNonce resends) ∨
      ∃ error, (t.driver seat).point = .failed error := by
  have hholds := (h.drives seat).holds
  cases hpoint : (t.driver seat).point <;> rw [hpoint] at hholds <;>
    simp_all [Point.Holds]

/-- A driver takes a step, with or without a message from its inbox, and its frames are on their
way. -/
theorem delivers {inbox : Seat → List Bytes} {d' : Driver State Move} {frames : List Bytes}
    {x' : Side (Entry State Move)} (hin : (t.driver seat).point.out = false)
    (hdrives : (T.driver seat).Drives initial d' x')
    (hinStep : Handshake.InStep (T.Mine plans initial seat) (T.Mine plans initial seat.other) x'
      (side seat.other))
    (hinbox : List.Forall₂ (T.runtime seat.other).Issues (inbox seat)
        (onTheWay x' (side seat.other)) ∧
      List.Forall₂ (T.runtime seat).Issues (inbox seat.other ++ frames)
        (onTheWay (side seat.other) x'))
    (hrecorded : d'.recorded = x'.log.mapIdx T.entryFor)
    (hgate : (t.driver seat).point.inGate + (unanswered (side seat) (side seat.other)).toNat +
        (unanswered (side seat.other) (side seat)).toNat = d'.point.inGate +
        (unanswered x' (side seat.other)).toNat + (unanswered (side seat.other) x').toNat) :
    Tied T plans initial (deliver { t with inbox := inbox } seat d' frames)
      (Function.update side seat x') := by
  apply of_seat seat
  · simp only [deliver_driver_self, deliver_driver_other, Function.update_self,
      Function.update_of_ne seat.other_ne]
    exact ⟨hdrives, h.drives _⟩
  · simp only [Function.update_self, Function.update_of_ne seat.other_ne]
    exact hinStep
  · simp only [deliver_inbox_self, deliver_inbox_other, Function.update_self,
      Function.update_of_ne seat.other_ne]
    exact hinbox
  · simp only [deliver_driver_self, deliver_driver_other, Function.update_self,
      Function.update_of_ne seat.other_ne]
    exact ⟨hrecorded, h.recorded _⟩
  · have hbefore := h.gate seat
    simp only [share, deliver_driver_self, deliver_driver_other,
      deliver_inflight, Function.update_self, Function.update_of_ne seat.other_ne,
      Seat.other_other] at hbefore ⊢
    omega
  · simp only [deliver_driver_self, deliver_driver_other, deliver_dropped]
    refine ⟨?_, h.dropped _⟩
    intro hdropped
    rw [h.open_of_in hin] at hdropped
    cases hdropped

theorem propose {mv : Move} {timestamp : UInt64} (hpoint : (t.driver seat).point = .proposing mv)
    (hplans : plans (t.driver seat).seat.state = some seat) (hopen : t.dropped seat.other = false)
    {result : Bytes × PartyRuntime State Move}
    (hok : (T.runtime seat).propose (t.driver seat).seat mv timestamp = .ok result) :
    ∃ e d' frame, t.sends seat ((T.driver seat).propose (t.driver seat) mv timestamp) =
        t.deliver seat d' [frame] ∧
      (∃ proposedNonce, d'.point = .awaiting frame proposedNonce 0) ∧
      d'.seat.state = (t.driver seat).seat.state ∧ d'.moves = (t.driver seat).moves ∧
      Tied T plans initial (t.deliver seat d' [frame])
        (Function.update side seat ((side seat).offer e)) := by
  have hdrives := h.drives seat
  have hfree : (side seat).pending = none := by
    have hholds := hdrives.holds
    rwa [hpoint] at hholds
  rcases hdrives.propose mv timestamp with ⟨error, herror, -⟩ |
    ⟨e, frame, d', hpropose, -, -, hawaiting, hrecorded, hturn, hissues, hdrives'⟩
  · have herror' : (T.runtime seat).propose (t.driver seat).seat mv timestamp = .error error := herror
    rw [hok] at herror'
    cases herror'
  obtain ⟨hreceived, hsent, hunanswered⟩ := (h.inStep seat).onTheWay_offer hfree e
  have hmine : T.Mine plans initial seat (side seat).log e := by
    refine ⟨hturn, ?_⟩
    rw [← h.state]
    exact hplans
  refine ⟨e, d', frame, ?_, ⟨_, hawaiting⟩, ?_, ?_, ?_⟩
  · rw [hpropose, sends_of_open _ _ _ _ hopen]
  · rw [hdrives'.follows.state, h.state]
    rfl
  · rw [hdrives'.moves, hdrives.moves]
    rfl
  apply h.delivers (by rw [hpoint]; rfl) hdrives' ((h.inStep seat).offer hfree hmine)
  · rw [hreceived, hsent]
    exact ⟨h.inbox seat, List.rel_append (h.inbox_other seat) (.cons hissues .nil)⟩
  · exact hrecorded.trans (h.recorded seat)
  · have hother : unanswered (side seat.other) ((side seat).offer e) =
        unanswered (side seat.other) (side seat) := rfl
    simp [hpoint, hawaiting, unanswered_of_free hfree, hother, hunanswered, Point.inGate]

end

/-- A driver that waits for an acknowledgement meets it, or its move is still on its way. -/
theorem receiveAck (hsound : T.Sound) (h : Tied T plans initial t side) {frame : Bytes}
    {proposedNonce : UInt64} {resends : Nat}
    (hpoint : (t.driver seat).point = .awaiting frame proposedNonce resends) :
    (∃ e d' bytes rest a, (side seat).pending = some e ∧ t.inbox seat = bytes :: rest ∧
      T.decode bytes = .ok (.ack a) ∧ d'.point = .top ∧
      unanswered (side seat) (side seat.other) = false ∧
      T.receiveAck t seat frame proposedNonce resends = (t.take seat).deliver seat d' [] ∧
      Tied T plans initial ((t.take seat).deliver seat d' [])
        (Function.update side seat ((side seat).commit e))) ∨
    (t.inbox seat = [] ∧ t.inbox seat.other ≠ [] ∧
      unanswered (side seat) (side seat.other) = true) := by
  have hdrives := h.drives seat
  have hholds := hdrives.holds
  rw [hpoint] at hholds
  obtain ⟨-, e, hpending, -⟩ := hholds
  have hinbox := h.inbox seat
  rcases (h.inStep seat).pending_cases T.mine_exclusive hpending with
    ⟨hlog, hway⟩ | ⟨hway, hoffer, hunanswered⟩
  · rw [hway] at hinbox
    obtain ⟨bytes, rest, hissues, hrest, hbytes⟩ := List.forall₂_cons_right_iff.mp hinbox
    obtain ⟨msg, hwrites, hverify, hdecode⟩ := hsound.reads hissues
    obtain ⟨d', hd, htop, hrecorded, hdrives'⟩ : ∃ d',
        (T.driver seat).ackArrives (t.driver seat) frame proposedNonce resends bytes = (d', []) ∧
        d'.point = .top ∧ _ ∧ _ :=
      hdrives.handle_ack hpending hwrites hverify hdecode rfl
    obtain ⟨hsent, hanswered, hother⟩ := Handshake.InStep.onTheWay_commit hlog
    refine .inl ⟨e, d', bytes, rest, _, hpending, hbytes, hdecode, htop, hanswered, ?_, ?_⟩
    · rw [TunnelSetup.receiveAck, hbytes]
      exact (congrArg _ hd).trans (sends_nothing ..)
    apply h.delivers (by rw [hpoint]; rfl) hdrives' ((h.inStep seat).commit hlog)
    · simp only [Function.update_self, Function.update_of_ne seat.other_ne, hsent, hbytes,
        List.tail_cons, List.append_nil]
      exact ⟨hrest, h.inbox_other seat⟩
    · have hby : e.bySeat = seat := (hdrives.follows.pending_some hpending).1
      have hentry : T.entryFor (side seat).log.length e = _ := TunnelSetup.entryFor_eq hwrites
      rw [Side.commit, List.mapIdx_concat, hentry, hby, ← h.recorded]
      exact hrecorded
    · have hself := unanswered_of_free (show ((side seat).commit e).pending = none from rfl)
      simp [hpoint, htop, hself, hother, hanswered, Point.inGate]
  · rw [hway, List.forall₂_nil_right_iff] at hinbox
    refine .inr ⟨hinbox, ?_, hunanswered⟩
    intro hnone
    have hother := h.inbox_other seat
    rw [hnone, List.forall₂_nil_left_iff] at hother
    exact hoffer hother

/-- A driver that waits for a move meets it, or no move is on its way. -/
theorem receiveMove (hsound : T.Sound) (h : Tied T plans initial t side) {boundaryOk : Bool}
    {seen : Nat} (hpoint : (t.driver seat).point = .parked boundaryOk seen)
    (run : RunLevelControl) :
    (∃ e bytes m, (side seat.other).pending = some e ∧ (side seat).log = (side seat.other).log ∧
      t.inbox seat = [bytes] ∧ T.decode bytes = .ok (.move m) ∧
      unanswered (side seat.other) (side seat) = true ∧
      (t.dropped seat.other = false → ∃ d' reply a, d'.point = .recording ∧
        T.decode reply = .ok (.ack a) ∧
        T.receiveMove run t seat = (t.take seat).deliver seat d' [reply] ∧
        Tied T plans initial ((t.take seat).deliver seat d' [reply])
          (Function.update side seat ((side seat).accept e)))) ∨
    (t.inbox seat = [] ∧ unanswered (side seat.other) (side seat) = false) := by
  have hdrives := h.drives seat
  have hfree : (side seat).pending = none := by
    have hholds := hdrives.holds
    rwa [hpoint] at hholds
  have hinbox := h.inbox seat
  rcases (h.inStep seat).free_cases hfree with ⟨hway, hanswered⟩ | ⟨e, hpending, hlog, hway⟩
  · rw [hway, List.forall₂_nil_right_iff] at hinbox
    exact .inr ⟨hinbox, hanswered⟩
  rw [hway] at hinbox
  obtain ⟨bytes, _, hissues, hrest, hbytes⟩ := List.forall₂_cons_right_iff.mp hinbox
  obtain rfl := List.forall₂_nil_right_iff.mp hrest
  obtain ⟨msg, hwrites, hverify, hdecode⟩ := hsound.reads hissues
  obtain ⟨⟨⟨hby, happly⟩, -⟩, -⟩ := (h.inStep seat).yoursTurn e hpending
  rw [← hlog] at happly
  obtain ⟨hreceived, hsent, hunanswered, hanswered⟩ :=
    Handshake.InStep.onTheWay_accept hfree hlog hpending
  refine .inl ⟨e, bytes, _, hpending, hlog, hbytes, hdecode, hunanswered, ?_⟩
  intro hopen
  have hne : e.bySeat ≠ (T.driver seat).runtime.seat := by
    rw [hby]
    exact seat.other_ne
  obtain ⟨reply, d', hd, hrecording, hrecorded, hreply, hdrives'⟩ : ∃ reply d',
      (T.driver seat).moveArrives (t.driver seat) bytes = (d', [reply]) ∧
      d'.point = .recording ∧ _ ∧ _ ∧ _ :=
    hdrives.handle_next hfree hne happly hwrites hverify hdecode hfree
  obtain ⟨a, hack⟩ := hsound.decodes_receipt hreply
  refine ⟨d', reply, a, hrecording, hack, ?_, ?_⟩
  · rw [TunnelSetup.receiveMove, hbytes]
    exact (congrArg ((t.take seat).sends seat) hd).trans (sends_of_open _ _ _ _ hopen)
  apply h.delivers (by rw [hpoint]; rfl) hdrives' ((h.inStep seat).accept hfree hlog hpending)
  · simp only [Function.update_self, Function.update_of_ne seat.other_ne, hreceived, hsent, hbytes,
      List.tail_cons]
    exact ⟨.nil, List.rel_append (h.inbox_other seat) (.cons hreply .nil)⟩
  · have hentry : T.entryFor (side seat).log.length e = _ := TunnelSetup.entryFor_eq hwrites
    rw [Side.accept, List.mapIdx_concat, hentry, hby, Seat.other_other, ← h.recorded]
    exact hrecorded
  · have hself := unanswered_of_free (show ((side seat).accept e).pending = none from hfree)
    simp [hpoint, hrecording, unanswered_of_free hfree, hself, hunanswered, hanswered, Point.inGate]

end Tied

end DopamintArena.Rust
