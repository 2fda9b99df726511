import DopamintArena.Rust.TsSeatLog

/-!
A Rust runtime and a TypeScript tunnel at the two ends of one tunnel. A frame
stays in the inbox of its receiver once sent, so it may be delivered late, more
than once, out of order or never. A call that fails changes what the seat itself
changes: nothing in TypeScript, and in Rust whatever `handle_frame` leaves.

The two seats are the two sides of a handshake over one log of moves.
-/

namespace DopamintArena.Rust

open Foundation
open Foundation.Handshake (Side Message)

variable {TsState TsMove State Move : Type}

/-- The two seats, the frames sent to each, and what each has confirmed: the updates passed to
`onConfirmed` and the entries taken by `take_last_committed`. -/
structure MixedState (TsState TsMove State Move : Type) where
  ts : Engine.Seat TsState TsMove
  rust : PartyRuntime State Move
  toTs : List Bytes
  toRust : List Bytes
  tsConfirmed : List Engine.CoSignedUpdate
  rustConfirmed : List (TranscriptEntry Move)

/-- What the players and the network do. A frame is named by its place in the inbox. -/
inductive MixedEvent (TsMove Move : Type)
  | tsPropose (move : TsMove) (timestamp : Int)
  | tsResend
  | tsReceive (index : Nat)
  | rustPropose (mv : Move) (timestamp : UInt64)
  | rustResend
  | rustReceive (index : Nat)

namespace MixedState

variable (w : MixedState TsState TsMove State Move)

def rustSends (rt : PartyRuntime State Move) (out : List Bytes) :
    MixedState TsState TsMove State Move :=
  { w with rust := rt, toTs := w.toTs ++ out }

def rustTakes (rt : PartyRuntime State Move) (out : List Bytes) :
    MixedState TsState TsMove State Move :=
  { w.rustSends rt.takeLastCommitted.2 out with
    rustConfirmed := w.rustConfirmed ++ rt.takeLastCommitted.1.toList }

end MixedState

namespace MixedPair

variable (pair : MixedPair TsState TsMove State Move) (w : MixedState TsState TsMove State Move)

def tsTakes (turn : Engine.Turn TsState TsMove) : MixedState TsState TsMove State Move :=
  { w with
    ts := turn.seat
    toRust := w.toRust ++ turn.sent.map pair.encodeFrame
    tsConfirmed := w.tsConfirmed ++ turn.confirmed.toList }

def tsTakesOk (result : Except String (Engine.Turn TsState TsMove)) :
    MixedState TsState TsMove State Move :=
  match result with
  | .ok turn => pair.tsTakes w turn
  | .error _ => w

def tsReceive (bytes : Bytes) : MixedState TsState TsMove State Move :=
  pair.tsTakesOk w (pair.decodeFrame bytes >>= Engine.onFrame pair.ts w.ts)

def rustReceive (bytes : Bytes) : MixedState TsState TsMove State Move :=
  match pair.rust.handleFrame w.rust bytes with
  | (.ok out, rt) => w.rustTakes rt out
  | (.error _, rt) => w.rustTakes rt []

/-- The MOVE of the pending proposal, which the driver keeps. -/
def rustPendingFrame : Option Bytes :=
  w.rust.pending.map fun p => pair.rust.encode (.move (pair.rust.moveFrame p))

def step : MixedEvent TsMove Move → MixedState TsState TsMove State Move
  | .tsPropose move timestamp => pair.tsTakesOk w (Engine.propose pair.ts w.ts move timestamp)
  | .tsResend => pair.tsTakes w (Engine.resendPending pair.ts w.ts)
  | .tsReceive index => (w.toTs[index]?.map (pair.tsReceive w)).getD w
  | .rustPropose mv timestamp =>
    match pair.rust.propose w.rust mv timestamp with
    | .ok (bytes, rt) => w.rustSends rt [bytes]
    | .error _ => w
  | .rustResend => w.rustSends w.rust (pair.rustPendingFrame w).toList
  | .rustReceive index => (w.toRust[index]?.map (pair.rustReceive w)).getD w

def start (seat : Engine.Seat TsState TsMove) (balances : Balances) :
    MixedState TsState TsMove State Move :=
  ⟨seat, pair.rust.withCodec balances, [], [], [], []⟩

def after (seat : Engine.Seat TsState TsMove) (balances : Balances)
    (events : List (MixedEvent TsMove Move)) : MixedState TsState TsMove State Move :=
  events.foldl pair.step (pair.start seat balances)

/-- The Rust seat sends its pending move again, and neither the frame nor the answer is lost. -/
def rustRound : MixedState TsState TsMove State Move :=
  if w.rust.pending.isNone then w
  else
    pair.step (pair.step (pair.step w .rustResend) (.tsReceive w.toTs.length))
      (.rustReceive w.toRust.length)

/-- The TypeScript seat sends its pending move again, and nothing is lost. -/
def tsRound : MixedState TsState TsMove State Move :=
  if w.ts.pending.isNone then w
  else
    pair.step (pair.step (pair.step w .tsResend) (.rustReceive w.toRust.length))
      (.tsReceive w.toTs.length)

/-! ### The two seats as sides of a handshake -/

/-- The state is that of the two sides `x`, for the Rust seat, and `y`. -/
structure Joined (g : GameMap TsState TsMove State Move) (initial : State)
    (x y : Side (Entry State Move)) : Prop where
  rust : pair.rust.Follows initial w.rust x
  ts : pair.TsFollows g initial w.ts y
  inStep : Handshake.InStep (pair.rust.Turn initial pair.rust.seat)
    (pair.rust.Turn initial pair.ts.selfParty) x y
  toTs : x.Posts pair.rust.Issues (pair.rust.Turn initial pair.rust.seat) w.toTs
  toRust : y.Posts pair.rust.Reads (pair.rust.Turn initial pair.ts.selfParty) w.toRust
  taken : w.rust.lastCommitted = none
  rustConfirmed : w.rustConfirmed.map (TranscriptEntry.update pair.rust.tunnelId) =
    x.log.mapIdx pair.update
  tsConfirmed : w.tsConfirmed.map Engine.CoSignedUpdate.update =
    y.log.mapIdx fun k e => (pair.update k e).toTs

variable {pair w} {g : GameMap TsState TsMove State Move} {initial : State}
variable {x y x' y' : Side (Entry State Move)} {seat : Engine.Seat TsState TsMove}
variable {balances : Balances}
variable {rt : PartyRuntime State Move} {turn : Engine.Turn TsState TsMove} {bytes msg : Bytes}
variable {message : Message (Entry State Move)} {frame : Engine.Frame TsMove} {e : Entry State Move}

theorem Joined.rustTurn (hj : pair.Joined w g initial x y) {out : List Bytes}
    {committed : List (TranscriptEntry Move)} (hfollows : pair.rust.Follows initial rt x')
    (hstep : Handshake.Step pair.rust.Issues (pair.rust.Turn initial pair.rust.seat)
      (pair.rust.Turn initial pair.ts.selfParty) y x x' out) (htaken : rt.lastCommitted = none)
    (hcommitted : (w.rustConfirmed ++ committed).map (TranscriptEntry.update pair.rust.tunnelId) =
      x'.log.mapIdx pair.update) :
    pair.Joined { w.rustSends rt out with rustConfirmed := w.rustConfirmed ++ committed } g
      initial x' y :=
  ⟨hfollows, hj.ts, hstep.inStep, hj.toTs.append hstep.advances hstep.posts, hj.toRust, htaken,
    hcommitted, hj.tsConfirmed⟩

theorem Joined.tsTurn (hj : pair.Joined w g initial x y)
    (hfollows : pair.TsFollows g initial turn.seat y')
    (hstep : Handshake.Step pair.rust.Reads (pair.rust.Turn initial pair.ts.selfParty)
      (pair.rust.Turn initial pair.rust.seat) x y y' (turn.sent.map pair.encodeFrame))
    (hconfirmed : (w.tsConfirmed ++ turn.confirmed.toList).map Engine.CoSignedUpdate.update =
      y'.log.mapIdx fun k e => (pair.update k e).toTs) :
    pair.Joined (pair.tsTakes w turn) g initial x y' :=
  ⟨hj.rust, hfollows, hstep.inStep.symm, hj.toTs, hj.toRust.append hstep.advances hstep.posts,
    hj.taken, hj.rustConfirmed, hconfirmed⟩

theorem tsTakesOk_of_fails {result : Except String (Engine.Turn TsState TsMove)}
    (hfails : ∀ turn, result ≠ .ok turn) : pair.tsTakesOk w result = w := by
  cases result with
  | ok turn => exact absurd rfl (hfails turn)
  | error => rfl

theorem tsReceive_eq (hdecode : pair.decodeFrame bytes = .ok frame) :
    pair.tsReceive w bytes = pair.tsTakesOk w (Engine.onFrame pair.ts w.ts frame) := by
  rw [MixedPair.tsReceive, hdecode]
  rfl

theorem ts_rustReceive (w : MixedState TsState TsMove State Move) (bytes : Bytes) :
    (pair.rustReceive w bytes).ts = w.ts := by
  unfold MixedPair.rustReceive
  split <;> rfl

section

variable (h : pair.Honest g seat balances) (hturns : pair.rust.protocol.TurnBased)
include h hturns

theorem Joined.rustReceive (hj : pair.Joined w g initial x y) (hreads : pair.rust.Reads bytes message)
    (hbacks : y.Backs (pair.rust.Turn initial pair.ts.selfParty) message) :
    ∃ x', x.Advances x' ∧ pair.Joined (pair.rustReceive w bytes) g initial x' y := by
  obtain ⟨_, _, hwrites, hverify, hdecode⟩ := hreads
  -- unless the frame is news, the seat stays as it is and answers from its log
  have hstays : ∀ result out, pair.rust.handleFrame w.rust bytes = (result, w.rust) →
      (result = .ok out ∨ out = [] ∧ ∃ e, result = .error e) →
      x.Posts pair.rust.Issues (pair.rust.Turn initial pair.rust.seat) out →
      pair.Joined (pair.rustReceive w bytes) g initial x y := by
    intro result out hhandle hresult hout
    have hjoined : pair.Joined (w.rustTakes w.rust out) g initial x y := by
      refine hj.rustTurn hj.rust.take (hj.inStep.stays hout) rfl ?_
      rw [PartyRuntime.takeLastCommitted, hj.taken]
      simpa using hj.rustConfirmed
    rcases hresult with rfl | ⟨rfl, e, rfl⟩
    · rw [MixedPair.rustReceive, hhandle]
      exact hjoined
    · rw [MixedPair.rustReceive, hhandle]
      exact hjoined
  cases message with
  | offer _ e =>
    rcases hj.inStep.offer_cases
      (pair.rust.turn_exclusive hturns h.rust_ne_ts) hbacks with
      ⟨hk, hat⟩ | ⟨rfl, hfree, hlog, hpending⟩ | ⟨rfl, own, hown, hlog⟩
    · obtain ⟨out, hhandle, hout⟩ := hj.rust.handle_stale_offer hk hwrites hdecode
      refine ⟨x, .stay, hstays _ out hhandle (.inl rfl) ?_⟩
      intro reply hreply
      obtain ⟨_, hat', hissues⟩ := hout reply hreply
      exact ⟨_, hissues, hat'⟩
    · obtain ⟨⟨hby, happly⟩, -⟩ := hj.inStep.yoursTurn e hpending
      rw [← hlog] at happly
      obtain ⟨reply, rt, hhandle, hissues, hfollows, hcommitted⟩ :=
        hj.rust.handle_next_offer hfree (by rw [hby]; exact h.rust_ne_ts.symm) happly hwrites
          hverify hdecode
      refine ⟨x.accept e, .accept e hfree, ?_⟩
      rw [MixedPair.rustReceive, hhandle]
      refine hj.rustTurn hfollows.take (hj.inStep.accepts hfree hlog hpending hissues) rfl ?_
      rw [PartyRuntime.takeLastCommitted, hcommitted, List.map_append, hj.rustConfirmed]
      simp only [Side.accept, List.mapIdx_concat]
      rfl
    · exact ⟨x, .stay, hstays _ [] (hj.rust.handle_early_offer hown (Nat.le_succ _) hwrites
        hdecode) (.inr ⟨rfl, _, rfl⟩) Side.posts_nil⟩
  | receipt _ e =>
    rcases hj.inStep.receipt_cases hbacks with ⟨hk, _⟩ | ⟨rfl, hpending, hlog⟩
    · exact ⟨x, .stay, hstays _ [] (hj.rust.handle_old_receipt hk hwrites hdecode) (.inl rfl)
        Side.posts_nil⟩
    · obtain ⟨_, hhandle, hfollows, hcommitted⟩ :=
        hj.rust.handle_receipt hpending hwrites hverify hdecode
      refine ⟨x.commit e, .commit e hpending, ?_⟩
      rw [MixedPair.rustReceive, hhandle]
      refine hj.rustTurn hfollows.take (hj.inStep.commits hpending hlog) rfl ?_
      rw [PartyRuntime.takeLastCommitted, hcommitted, List.map_append, hj.rustConfirmed]
      simp only [Side.commit, List.mapIdx_concat]
      rfl

theorem Joined.tsReceive (hj : pair.Joined w g initial x y) (hissues : pair.rust.Issues bytes message)
    (hbacks : x.Backs (pair.rust.Turn initial pair.rust.seat) message) :
    ∃ y', TsKeeps w.ts (pair.tsReceive w bytes).ts ∧
      pair.Joined (pair.tsReceive w bytes) g initial x y' := by
  have hinStep := hj.inStep.symm
  obtain ⟨msg, hwrites, hdecode⟩ := h.ts_reads hissues
  rw [tsReceive_eq hdecode]
  generalize hresult : Engine.onFrame pair.ts w.ts
    (pair.tsFrame g (pair.rust.sign msg) message) = result
  -- unless the frame is news, the seat stays as it is and answers from its log
  have hstays : ∀ turn, result = .ok turn → turn.seat = w.ts → turn.confirmed = none →
      y.Posts pair.rust.Reads (pair.rust.Turn initial pair.ts.selfParty)
        (turn.sent.map pair.encodeFrame) →
      ∃ y', TsKeeps w.ts (pair.tsTakesOk w result).ts ∧
        pair.Joined (pair.tsTakesOk w result) g initial x y' := by
    intro turn hok hseat hconfirmed hsent
    rw [hok]
    refine ⟨y, fun p hp => .inl ((congrArg Engine.Seat.pending hseat).trans hp), ?_⟩
    refine hj.tsTurn (hseat ▸ hj.ts) (hinStep.stays hsent) ?_
    rw [hconfirmed]
    simpa using hj.tsConfirmed
  have hfails : (∀ turn, result ≠ .ok turn) → ∃ y', TsKeeps w.ts (pair.tsTakesOk w result).ts ∧
      pair.Joined (pair.tsTakesOk w result) g initial x y' := by
    intro hfails
    rw [tsTakesOk_of_fails hfails]
    exact ⟨y, fun p hp => .inl hp, hj⟩
  subst hresult
  cases message with
  | offer k e =>
    have hby : e.bySeat = pair.rust.seat := hbacks.1.1.1
    rcases hinStep.offer_cases (pair.rust.turn_exclusive hturns h.rust_ne_ts.symm)
      hbacks with ⟨hk, hat⟩ | ⟨rfl, hfree, hlog, hpending⟩ | ⟨rfl, -⟩
    · by_cases hlast : k + 1 = y.log.length
      · obtain ⟨_, _, hok, hreads⟩ := hj.ts.last_offer h hlast hat hby hwrites _
        exact hstays _ hok rfl rfl (Side.posts_singleton hreads hat)
      · have holder : k + 1 < y.log.length := by omega
        exact hstays _ (hj.ts.older_offer h holder hby hwrites _) rfl rfl Side.posts_nil
    · have hturn := hj.inStep.mineTurn e hpending
      rw [← hlog] at hturn
      by_cases hlocked : pair.lockedIn e.next = pair.ts.total
      · obtain ⟨turn, held, frame, hok, hsent, hconfirmed, hupdate, hfollows, hreads⟩ :=
          hj.ts.next_offer h hfree hturn hwrites hlocked
        rw [hok]
        refine ⟨y.accept e, ?_, hj.tsTurn hfollows ?_ ?_⟩
        · intro p hp
          rw [hj.ts.pending_none hfree] at hp
          cases hp
        · rw [hsent]
          exact hinStep.accepts hfree hlog hpending hreads
        · rw [hconfirmed, List.map_append, hj.tsConfirmed]
          simp [Side.accept, hupdate]
      · exact hfails (hj.ts.unbalanced_offer h hturn hwrites hlocked _)
    · exact hfails (hj.ts.early_offer (Nat.lt_succ_self _) hwrites _)
  | receipt _ e =>
    rcases hinStep.receipt_cases hbacks with ⟨hk, _⟩ | ⟨rfl, hpending, hlog⟩
    · exact hstays _ (hj.ts.old_receipt hk hwrites _) rfl rfl Side.posts_nil
    · obtain ⟨_, _, hok, hsent, hconfirmed, hupdate, hkeeps, hfollows⟩ :=
        hj.ts.receipt h hpending hwrites
      rw [hok]
      refine ⟨y.commit e, hkeeps, hj.tsTurn hfollows ?_ ?_⟩
      · rw [hsent]
        exact hinStep.commits hpending hlog
      · rw [hconfirmed, List.map_append, hj.tsConfirmed]
        simp [Side.commit, hupdate]

/-- Every event is a step of the handshake on each side. -/
theorem Joined.step (hj : pair.Joined w g initial x y) (event : MixedEvent TsMove Move) :
    ∃ x' y', x.Advances x' ∧ TsKeeps w.ts (pair.step w event).ts ∧
      pair.Joined (pair.step w event) g initial x' y' := by
  have hsame : ∀ w' : MixedState TsState TsMove State Move, w'.ts = w.ts → TsKeeps w.ts w'.ts := by
    intro w' hts p hp
    rw [hts]
    exact .inl hp
  cases event with
  | tsPropose move timestamp =>
    simp only [MixedPair.step]
    cases hok : Engine.propose pair.ts w.ts move timestamp with
    | error => exact ⟨x, y, .stay, hsame _ rfl, hj⟩
    | ok =>
      obtain ⟨hfree, hconfirmed, e, frame, hsent, hturn, -, hfollows, hreads⟩ :=
        hj.ts.propose h hok
      refine ⟨x, y.offer e, .stay, ?_, hj.tsTurn hfollows ?_ ?_⟩
      · intro p hp
        rw [hj.ts.pending_none hfree] at hp
        cases hp
      · rw [hsent]
        exact hj.inStep.symm.offers hfree hturn hreads
      · rw [hconfirmed, Option.toList_none, List.append_nil]
        exact hj.tsConfirmed
  | tsResend =>
    refine ⟨x, y, .stay, hsame _ rfl, ?_⟩
    simp only [MixedPair.step]
    refine hj.tsTurn hj.ts ?_ (by simpa [Engine.resendPending] using hj.tsConfirmed)
    cases hpending : y.pending with
    | none =>
      rw [Engine.resendPending, hj.ts.pending_none hpending]
      exact hj.inStep.symm.stays Side.posts_nil
    | some =>
      obtain ⟨_, hresend, hreads⟩ := hj.ts.resend h hpending
      rw [hresend]
      exact hj.inStep.symm.resends hpending hreads
  | tsReceive index =>
    simp only [MixedPair.step]
    cases hbytes : w.toTs[index]? with
    | none => exact ⟨x, y, .stay, hsame _ rfl, hj⟩
    | some bytes =>
      obtain ⟨message, hissues, hbacks⟩ := hj.toTs bytes (List.mem_of_getElem? hbytes)
      obtain ⟨y', hkeeps, hjoined⟩ := hj.tsReceive h hturns hissues hbacks
      exact ⟨x, y', .stay, hkeeps, hjoined⟩
  | rustPropose mv timestamp =>
    simp only [MixedPair.step]
    cases hok : pair.rust.propose w.rust mv timestamp with
    | error => exact ⟨x, y, .stay, hsame _ rfl, hj⟩
    | ok result =>
      obtain ⟨bytes, rt⟩ := result
      obtain ⟨hfree, e, -, -, hturn, hfollows, hissues⟩ := hj.rust.propose hok
      have htaken : rt.lastCommitted = none := by
        obtain ⟨-, -, _, _, -, -, -, rfl⟩ := RuntimeConfig.propose_ok_iff.mp hok
        exact hj.taken
      refine ⟨x.offer e, y, .offer e hfree, hsame _ rfl, ?_⟩
      have hjoined := hj.rustTurn hfollows (hj.inStep.offers hfree hturn hissues) htaken
        (by rw [List.append_nil]; exact hj.rustConfirmed)
      rw [List.append_nil] at hjoined
      exact hjoined
  | rustResend =>
    refine ⟨x, y, .stay, hsame _ rfl, ?_⟩
    simp only [MixedPair.step]
    have hstep : Handshake.Step pair.rust.Issues (pair.rust.Turn initial pair.rust.seat)
        (pair.rust.Turn initial pair.ts.selfParty) y x x (pair.rustPendingFrame w).toList := by
      cases hpending : x.pending with
      | none =>
        rw [rustPendingFrame, hj.rust.pending_none hpending]
        exact hj.inStep.stays Side.posts_nil
      | some =>
        obtain ⟨_, hp, hissues⟩ := hj.rust.resend hpending
        rw [rustPendingFrame, hp]
        exact hj.inStep.resends hpending hissues
    have hjoined := hj.rustTurn hj.rust hstep hj.taken
      (by rw [List.append_nil]; exact hj.rustConfirmed)
    rw [List.append_nil] at hjoined
    exact hjoined
  | rustReceive index =>
    simp only [MixedPair.step]
    cases hbytes : w.toRust[index]? with
    | none => exact ⟨x, y, .stay, hsame _ rfl, hj⟩
    | some bytes =>
      obtain ⟨_, hreads, hbacks⟩ := hj.toRust bytes (List.mem_of_getElem? hbytes)
      obtain ⟨x', hadvances, hjoined⟩ := hj.rustReceive h hturns hreads hbacks
      exact ⟨x', y, hadvances, hsame _ (ts_rustReceive w bytes), hjoined⟩

theorem joined_after (events : List (MixedEvent TsMove Move)) :
    ∃ x y, pair.Joined (pair.after seat balances events) g
      (pair.rust.withCodec balances).state x y := by
  induction events using List.reverseRecOn with
  | nil =>
    exact ⟨Side.fresh, Side.fresh, pair.rust.follows_withCodec balances, h.tsFollows,
      Handshake.inStep_fresh, Side.posts_nil, Side.posts_nil, rfl, rfl, rfl⟩
  | append_singleton _ event ih =>
    obtain ⟨_, _, hj⟩ := ih
    obtain ⟨x', y', -, -, hj'⟩ := hj.step h hturns event
    refine ⟨x', y', ?_⟩
    rw [after, List.foldl_append]
    exact hj'

end

/-! ### Resends -/

/-- The two seats have confirmed equally many moves. -/
def SameNonce (w : MixedState TsState TsMove State Move) : Prop :=
  (w.rust.nonce.toNat : Int) = w.ts.nonce

theorem Joined.sameNonce_iff (hj : pair.Joined w g initial x y) :
    SameNonce w ↔ x.log.length = y.log.length := by
  rw [SameNonce, hj.rust.nonce, hj.ts.nonce]
  omega

theorem rustRound_eq (hframe : pair.rustPendingFrame w = some bytes) :
    pair.rustRound w = pair.step (pair.tsReceive (w.rustSends w.rust [bytes]) bytes)
      (.rustReceive w.toRust.length) := by
  have hpending : w.rust.pending.isNone = false := by
    cases hp : w.rust.pending with
    | none =>
      rw [rustPendingFrame, hp] at hframe
      cases hframe
    | some => rfl
  simp [rustRound, hpending, MixedPair.step, hframe, MixedState.rustSends]

theorem tsRound_eq (hresend : Engine.resendPending pair.ts w.ts = { seat := w.ts, sent := [frame] })
    (hpending : w.ts.pending.isNone = false) :
    pair.tsRound w = pair.step (pair.rustReceive
        { w with toRust := w.toRust ++ [pair.encodeFrame frame] } (pair.encodeFrame frame))
      (.tsReceive w.toTs.length) := by
  simp [tsRound, hpending, MixedPair.step, hresend, tsTakes]

section

variable (h : pair.Honest g seat balances) (hj : pair.Joined w g initial x y)
include h hj

theorem Joined.rustRound_eq (hpending : x.pending = some e)
    (hwrites : pair.rust.Writes x.log.length e msg) : ∃ bytes,
      pair.rustRound w = pair.step (pair.tsTakesOk (w.rustSends w.rust [bytes])
        (Engine.onFrame pair.ts w.ts (pair.tsFrame g (pair.rust.sign msg)
          (.offer x.log.length e)))) (.rustReceive w.toRust.length) := by
  obtain ⟨p, hp, hissues⟩ := hj.rust.resend hpending
  obtain ⟨msg', hwrites', hdecode⟩ := h.ts_reads hissues
  obtain rfl : msg' = msg := Except.ok.inj (hwrites'.2.symm.trans hwrites.2)
  refine ⟨pair.rust.encode (.move (pair.rust.moveFrame p)), ?_⟩
  rw [MixedPair.rustRound_eq (by rw [rustPendingFrame, hp]; rfl), tsReceive_eq hdecode]
  rfl

theorem Joined.rustRound_answered (hpending : x.pending = some e)
    (hwrites : pair.rust.Writes x.log.length e msg)
    (hok : Engine.onFrame pair.ts w.ts (pair.tsFrame g (pair.rust.sign msg)
      (.offer x.log.length e)) = .ok turn) (hsent : turn.sent = [frame])
    (hreads : pair.rust.Reads (pair.encodeFrame frame) (.receipt x.log.length e)) :
    (pair.rustRound w).ts = turn.seat ∧
      (pair.rustRound w).rust.nonce.toNat = x.log.length + 1 := by
  obtain ⟨bytes, hround⟩ := hj.rustRound_eq h hpending hwrites
  obtain ⟨_, _, hwrites', hverify, hdecode⟩ := hreads
  obtain ⟨rt, hhandle, hfollows, -⟩ := hj.rust.handle_receipt hpending hwrites' hverify hdecode
  have hround' : pair.rustRound w =
      (pair.tsTakes (w.rustSends w.rust [bytes]) turn).rustTakes rt [] := by
    rw [hround, hok]
    simp [tsTakesOk, MixedPair.step, tsTakes, hsent, MixedState.rustSends,
      MixedPair.rustReceive, hhandle]
  rw [hround']
  refine ⟨rfl, ?_⟩
  change rt.nonce.toNat = _
  rw [hfollows.nonce, Side.commit, List.length_append, List.length_singleton]

theorem Joined.rustRound_refused (hpending : x.pending = some e)
    (hwrites : pair.rust.Writes x.log.length e msg)
    (hfails : ∀ turn, Engine.onFrame pair.ts w.ts (pair.tsFrame g (pair.rust.sign msg)
      (.offer x.log.length e)) ≠ .ok turn) :
    (pair.rustRound w).ts = w.ts ∧ (pair.rustRound w).rust = w.rust := by
  obtain ⟨_, hround⟩ := hj.rustRound_eq h hpending hwrites
  rw [hround, tsTakesOk_of_fails hfails]
  simp [MixedPair.step, MixedState.rustSends]

/-- The Rust seat, if it is not ahead, brings both seats to one nonce by sending its pending move
again: to that of the move, unless the TypeScript seat refuses its balances. -/
theorem Joined.rustRound (hturns : pair.rust.protocol.TurnBased)
    (hpending : x.pending = some e) (hbehind : x.log.length ≤ y.log.length) :
    SameNonce (pair.rustRound w) ∧
      (pair.lockedIn e.next = pair.ts.total →
        (pair.rustRound w).rust.nonce.toNat = x.log.length + 1) := by
  obtain ⟨hby, msg, hwrites, -⟩ := hj.rust.pending_some hpending
  have hturn := hj.inStep.mineTurn e hpending
  rcases Nat.eq_or_lt_of_le hbehind with heq | hlt
  · -- the peer has not confirmed the move yet
    have hlog := hj.inStep.eq_of_length heq
    have hfree := hj.inStep.free_of_pending (pair.rust.turn_exclusive hturns h.rust_ne_ts)
      hpending heq
    rw [hlog] at hturn hwrites
    by_cases hlocked : pair.lockedIn e.next = pair.ts.total
    · obtain ⟨_, _, frame, hok, hsent, -, -, hfollows, hreads⟩ :=
        hj.ts.next_offer h hfree hturn hwrites hlocked
      rw [← hlog] at hwrites hok hreads
      obtain ⟨hts, hrust⟩ := hj.rustRound_answered h hpending hwrites hok hsent hreads
      refine ⟨?_, fun _ => hrust⟩
      rw [SameNonce, hrust, hts, hfollows.nonce, Side.accept, List.length_append, heq]
      rfl
    · have hfails := hj.ts.unbalanced_offer h hturn hwrites hlocked (pair.rust.sign msg)
      rw [← hlog] at hwrites hfails
      obtain ⟨hts, hrust⟩ := hj.rustRound_refused h hpending hwrites hfails
      refine ⟨?_, fun hlocked' => absurd hlocked' hlocked⟩
      rw [SameNonce, hrust, hts]
      exact hj.sameNonce_iff.mpr heq
  · -- the peer has confirmed it, and its acknowledgement did not arrive
    obtain ⟨hlength, hat⟩ := hj.inStep.last_of_behind hpending hlt
    obtain ⟨_, _, hok, hreads⟩ :=
      hj.ts.last_offer h hlength hat hby hwrites (pair.rust.sign msg)
    obtain ⟨hts, hrust⟩ := hj.rustRound_answered h hpending hwrites hok rfl hreads
    refine ⟨?_, fun _ => hrust⟩
    rw [SameNonce, hrust, hts, hj.ts.nonce, hlength]

theorem Joined.rustRound_ahead (hpending : x.pending = some e)
    (hahead : y.log.length < x.log.length) :
    (pair.rustRound w).ts = w.ts ∧ (pair.rustRound w).rust = w.rust := by
  obtain ⟨-, _, hwrites, -⟩ := hj.rust.pending_some hpending
  exact hj.rustRound_refused h hpending hwrites (hj.ts.early_offer hahead hwrites _)

/-! The same for the TypeScript seat. -/

theorem Joined.tsRound_eq (hpending : y.pending = some e) :
    ∃ frame,
      pair.rust.Reads (pair.encodeFrame frame) (.offer y.log.length e) ∧
      pair.tsRound w = pair.step (pair.rustReceive
        { w with toRust := w.toRust ++ [pair.encodeFrame frame] } (pair.encodeFrame frame))
        (.tsReceive w.toTs.length) := by
  obtain ⟨frame, hresend, hreads⟩ := hj.ts.resend h hpending
  obtain ⟨-, _, _, _, -, -, -, hs⟩ := hj.ts.pending_some hpending
  exact ⟨frame, hreads, MixedPair.tsRound_eq hresend (by rw [hs]; rfl)⟩

theorem Joined.tsRound_answered (hpending : y.pending = some e)
    {reply : Bytes} (hround : pair.tsRound w = pair.step (pair.rustReceive
        { w with toRust := w.toRust ++ [pair.encodeFrame frame] } (pair.encodeFrame frame))
        (.tsReceive w.toTs.length))
    (hhandle : pair.rust.handleFrame w.rust (pair.encodeFrame frame) = (.ok [reply], rt))
    (hissues : pair.rust.Issues reply (.receipt y.log.length e)) :
    (pair.tsRound w).rust.nonce = rt.nonce ∧ (pair.tsRound w).ts.nonce = y.log.length + 1 := by
  obtain ⟨msg, hwrites, hdecode⟩ := h.ts_reads hissues
  obtain ⟨turn, _, hok, -, -, -, -, hfollows⟩ := hj.ts.receipt h hpending hwrites
  have hround' : pair.tsRound w = pair.tsTakesOk
      (MixedState.rustTakes { w with toRust := w.toRust ++ [pair.encodeFrame frame] } rt [reply])
      (Engine.onFrame pair.ts w.ts (pair.tsFrame g (pair.rust.sign msg)
        (.receipt y.log.length e))) := by
    rw [hround]
    simp [MixedPair.rustReceive, hhandle, MixedPair.step, MixedState.rustTakes,
      MixedState.rustSends, tsReceive_eq hdecode]
  rw [hround', hok]
  refine ⟨rfl, ?_⟩
  change turn.seat.nonce = _
  rw [hfollows.nonce, Side.commit, List.length_append, List.length_singleton]
  rfl

theorem Joined.tsRound (hturns : pair.rust.protocol.TurnBased)
    (hpending : y.pending = some e) (hbehind : y.log.length ≤ x.log.length) :
    SameNonce (pair.tsRound w) ∧ (pair.tsRound w).ts.nonce = y.log.length + 1 := by
  obtain ⟨_, ⟨_, _, hwrites, hverify, hdecode⟩, hround⟩ := hj.tsRound_eq h hpending
  have hturn := hj.inStep.yoursTurn e hpending
  have hby : e.bySeat ≠ pair.rust.seat := by
    rw [hturn.1.1]
    exact h.rust_ne_ts.symm
  rcases Nat.eq_or_lt_of_le hbehind with heq | hlt
  · have hlog := hj.inStep.symm.eq_of_length heq
    have hfree := hj.inStep.symm.free_of_pending
      (pair.rust.turn_exclusive hturns h.rust_ne_ts.symm) hpending heq
    rw [hlog] at hturn hwrites hdecode
    obtain ⟨reply, _, hhandle, hissues, hfollows, -⟩ :=
      hj.rust.handle_next_offer hfree hby hturn.1.2 hwrites hverify hdecode
    rw [← hlog] at hissues
    obtain ⟨hrust, hts⟩ := hj.tsRound_answered h hpending hround hhandle hissues
    refine ⟨?_, hts⟩
    rw [SameNonce, hrust, hts, hfollows.nonce, Side.accept, List.length_append, heq]
    rfl
  · obtain ⟨hlength, hat⟩ := hj.inStep.symm.last_of_behind hpending hlt
    obtain ⟨_, hhandle, hissues⟩ := hj.rust.handle_last_offer hlength hat hby hwrites hdecode
    obtain ⟨hrust, hts⟩ := hj.tsRound_answered h hpending hround hhandle hissues
    refine ⟨?_, hts⟩
    rw [SameNonce, hrust, hts, hj.rust.nonce, ← hlength]
    rfl

theorem Joined.tsRound_ahead (hpending : y.pending = some e)
    (hahead : x.log.length < y.log.length) :
    (pair.tsRound w).ts = w.ts ∧ (pair.tsRound w).rust = w.rust := by
  obtain ⟨_, ⟨_, _, hwrites, _, hdecode⟩, hround⟩ := hj.tsRound_eq h hpending
  obtain ⟨_, hown, -⟩ := hj.inStep.behind hahead
  have hhandle := hj.rust.handle_early_offer hown (Nat.le_of_lt hahead) hwrites hdecode
  have htaken : w.rust.takeLastCommitted.2 = w.rust := by
    rw [PartyRuntime.takeLastCommitted, ← hj.taken]
  rw [hround]
  simp [MixedPair.rustReceive, hhandle, MixedPair.step, MixedState.rustTakes, MixedState.rustSends,
    htaken]

end

/-! ### One tunnel -/

/-- Each seat has confirmed one update for every nonce up to its own, and an update that both have
confirmed has the same bytes. -/
structure SameUpdates (pair : MixedPair TsState TsMove State Move)
    (w : MixedState TsState TsMove State Move) : Prop where
  rustCount : w.rustConfirmed.length = w.rust.nonce.toNat
  tsCount : (w.tsConfirmed.length : Int) = w.ts.nonce
  rustNonce : ∀ i entry, w.rustConfirmed[i]? = some entry → entry.nonce.toNat = i + 1
  tsNonce : ∀ (i : Nat) (held : Engine.CoSignedUpdate), w.tsConfirmed[i]? = some held →
    held.update.nonce = i + 1
  sameBytes : ∀ (i : Nat) (entry : TranscriptEntry Move) (held : Engine.CoSignedUpdate),
    w.rustConfirmed[i]? = some entry → w.tsConfirmed[i]? = some held →
      ∃ bytes, serializeStateUpdate (entry.update pair.rust.tunnelId) = .ok bytes ∧
      Engine.serializeStateUpdate held.update = .ok bytes

/-- Neither seat loses a pending proposal: it stays pending or becomes the confirmed state. -/
def KeepsProposals (w w' : MixedState TsState TsMove State Move) : Prop :=
  (∀ p, w.rust.pending = some p → w'.rust.pending = some p ∨
    w'.rust.pending = none ∧ w'.rust.nonce = p.nonce ∧ w'.rust.state = p.next) ∧
  TsKeeps w.ts w'.ts

/-- What resends achieve when nothing is lost any more. -/
structure CatchesUp (pair : MixedPair TsState TsMove State Move)
    (w : MixedState TsState TsMove State Move) : Prop where
  /-- Seats that wait for nothing have the same nonce. -/
  quiet : w.rust.pending = none → w.ts.pending = none → SameNonce w
  /-- The pending move of the seat that is not ahead. -/
  rustResend : ∀ p, w.rust.pending = some p → (w.rust.nonce.toNat : Int) ≤ w.ts.nonce →
    SameNonce (pair.rustRound w) ∧
      (pair.lockedIn p.next = pair.ts.total → (pair.rustRound w).rust.nonce = p.nonce)
  tsResend : ∀ p, w.ts.pending = some p → w.ts.nonce ≤ w.rust.nonce.toNat →
    SameNonce (pair.tsRound w) ∧ (pair.tsRound w).ts.nonce = p.update.nonce
  /-- Resends of both seats, in either order. -/
  bothResend : SameNonce (pair.tsRound (pair.rustRound w)) ∧
    SameNonce (pair.rustRound (pair.tsRound w))

theorem written_of_legit {seat seat' : Seat} {log : List (Entry State Move)} {k : Nat}
    (hlegit : Handshake.Legit (pair.rust.Turn initial seat)
      (pair.rust.Turn initial seat') log) (hat : log[k]? = some e) :
    ∃ msg, pair.rust.Writes k e msg := by
  have hk := (List.getElem?_eq_some_iff.mp hat).1
  have htake : (log.take k).length = k := by simp [Nat.le_of_lt hk]
  rcases hlegit k e hat with ⟨-, msg, hwrites⟩ | ⟨-, msg, hwrites⟩
  · rw [htake] at hwrites
    exact ⟨msg, hwrites⟩
  · rw [htake] at hwrites
    exact ⟨msg, hwrites⟩

section

variable (hj : pair.Joined w g initial x y)
include hj

theorem Joined.rust_record {i : Nat} {entry : TranscriptEntry Move}
    (hentry : w.rustConfirmed[i]? = some entry) :
    ∃ e, x.log[i]? = some e ∧ entry.update pair.rust.tunnelId = pair.update i e := by
  have hat : (w.rustConfirmed.map (TranscriptEntry.update pair.rust.tunnelId))[i]? =
      some (entry.update pair.rust.tunnelId) := by
    rw [List.getElem?_map, hentry]
    rfl
  rw [hj.rustConfirmed, List.getElem?_mapIdx] at hat
  obtain ⟨e, he, hupdate⟩ := Option.map_eq_some_iff.mp hat
  exact ⟨e, he, hupdate.symm⟩

theorem Joined.ts_record {i : Nat} {held : Engine.CoSignedUpdate}
    (hheld : w.tsConfirmed[i]? = some held) :
    ∃ e, y.log[i]? = some e ∧ held.update = (pair.update i e).toTs := by
  have hat : (w.tsConfirmed.map Engine.CoSignedUpdate.update)[i]? = some held.update := by
    rw [List.getElem?_map, hheld]
    rfl
  rw [hj.tsConfirmed, List.getElem?_mapIdx] at hat
  obtain ⟨e, he, hupdate⟩ := Option.map_eq_some_iff.mp hat
  exact ⟨e, he, hupdate.symm⟩

theorem Joined.sameUpdates : pair.SameUpdates w where
  rustCount := by
    have hlength := congrArg List.length hj.rustConfirmed
    rw [List.length_map, List.length_mapIdx] at hlength
    rw [hlength, hj.rust.nonce]
  tsCount := by
    have hlength := congrArg List.length hj.tsConfirmed
    rw [List.length_map, List.length_mapIdx] at hlength
    rw [hlength, hj.ts.nonce]
  rustNonce := by
    intro i entry hentry
    obtain ⟨e, hat, hupdate⟩ := hj.rust_record hentry
    obtain ⟨msg, hbound, -⟩ := written_of_legit hj.inStep.legit.1 hat
    have hnonce : entry.nonce = nonceAt i := congrArg StateUpdate.nonce hupdate
    rw [hnonce, toNat_nonceAt hbound]
  tsNonce := by
    intro i held hheld
    obtain ⟨e, hat, hupdate⟩ := hj.ts_record hheld
    obtain ⟨msg, hbound, -⟩ := written_of_legit hj.inStep.legit.2 hat
    rw [hupdate, toTs_update_nonce hbound]
  sameBytes := by
    intro i entry held hentry hheld
    obtain ⟨_, hat, hupdate⟩ := hj.rust_record hentry
    obtain ⟨_, hat', hupdate'⟩ := hj.ts_record hheld
    obtain rfl := hj.inStep.agree hat hat'
    obtain ⟨msg, hwrites⟩ := written_of_legit hj.inStep.legit.1 hat
    refine ⟨msg, ?_, ?_⟩
    · rw [hupdate]
      exact hwrites.2
    · rw [hupdate']
      exact serialize_toTs_iff.mpr hwrites.2

theorem Joined.nonces :
    w.ts.nonce ≤ w.rust.nonce.toNat + 1 ∧ (w.rust.nonce.toNat : Int) ≤ w.ts.nonce + 1 := by
  have hxy := hj.inStep.length_le
  have hyx := hj.inStep.symm.length_le
  rw [hj.rust.nonce, hj.ts.nonce]
  omega

theorem Joined.quiet (hx : w.rust.pending = none) (hy : w.ts.pending = none) : SameNonce w := by
  rw [hj.sameNonce_iff, hj.inStep.eq_of_no_pending (hj.rust.free_of_pending_none hx)
    (hj.ts.free_of_pending_none hy)]

end

theorem rustRound_of_none (hfree : w.rust.pending = none) : pair.rustRound w = w := by
  rw [rustRound, hfree]
  rfl

theorem tsRound_of_none (hfree : w.ts.pending = none) : pair.tsRound w = w := by
  rw [tsRound, hfree]
  rfl

section

variable (h : pair.Honest g seat balances) (hturns : pair.rust.protocol.TurnBased)
include h hturns

/-- A round is a run of three events, or nothing happens. -/
theorem joined_rounds (hj : pair.Joined w g initial x y) :
    (∃ x' y', pair.Joined (pair.rustRound w) g initial x' y') ∧
      ∃ x' y', pair.Joined (pair.tsRound w) g initial x' y' := by
  have hthree : ∀ first second third, ∃ x' y',
      pair.Joined (pair.step (pair.step (pair.step w first) second) third) g initial x' y' := by
    intro first second third
    obtain ⟨_, _, -, -, hfirst⟩ := hj.step h hturns first
    obtain ⟨_, _, -, -, hsecond⟩ := hfirst.step h hturns second
    obtain ⟨x', y', -, -, hthird⟩ := hsecond.step h hturns third
    exact ⟨x', y', hthird⟩
  constructor
  · unfold MixedPair.rustRound
    split
    · exact ⟨x, y, hj⟩
    · exact hthree _ _ _
  · unfold MixedPair.tsRound
    split
    · exact ⟨x, y, hj⟩
    · exact hthree _ _ _

/-- A round of the Rust seat levels the two, or the TypeScript seat is behind and both are as
they were. -/
theorem Joined.rustRound_cases (hj : pair.Joined w g initial x y) :
    SameNonce (pair.rustRound w) ∨ y.log.length < x.log.length ∧
      (pair.rustRound w).ts = w.ts ∧ (pair.rustRound w).rust = w.rust := by
  rcases Nat.lt_or_ge y.log.length x.log.length with hahead | hbehind
  · refine .inr ⟨hahead, ?_⟩
    cases hpending : x.pending with
    | none =>
      rw [rustRound_of_none (hj.rust.pending_none hpending)]
      exact ⟨rfl, rfl⟩
    | some => exact hj.rustRound_ahead h hpending hahead
  · left
    cases hpending : x.pending with
    | none =>
      rw [rustRound_of_none (hj.rust.pending_none hpending), hj.sameNonce_iff]
      exact Nat.le_antisymm hbehind (hj.inStep.not_behind hpending)
    | some => exact (hj.rustRound h hturns hpending hbehind).1

theorem Joined.tsRound_cases (hj : pair.Joined w g initial x y) :
    SameNonce (pair.tsRound w) ∨ x.log.length < y.log.length ∧
      (pair.tsRound w).ts = w.ts ∧ (pair.tsRound w).rust = w.rust := by
  rcases Nat.lt_or_ge x.log.length y.log.length with hahead | hbehind
  · refine .inr ⟨hahead, ?_⟩
    cases hpending : y.pending with
    | none =>
      rw [tsRound_of_none (hj.ts.pending_none hpending)]
      exact ⟨rfl, rfl⟩
    | some => exact hj.tsRound_ahead h hpending hahead
  · left
    cases hpending : y.pending with
    | none =>
      rw [tsRound_of_none (hj.ts.pending_none hpending), hj.sameNonce_iff]
      exact Nat.le_antisymm (hj.inStep.symm.not_behind hpending) hbehind
    | some => exact (hj.tsRound h hturns hpending hbehind).1

/-- A seat that is behind, and is not levelled by a round of the other, is not ahead after it. -/
theorem Joined.bothResend (hj : pair.Joined w g initial x y) :
    SameNonce (pair.tsRound (pair.rustRound w)) ∧ SameNonce (pair.rustRound (pair.tsRound w)) := by
  have hahead : ∀ {w' x' y'}, pair.Joined w' g initial x' y' → w'.ts = w.ts → w'.rust = w.rust →
      x'.log.length = x.log.length ∧ y'.log.length = y.log.length := by
    intro w' x' y' hj' hts hrust
    have hrustNonce := hj'.rust.nonce
    have htsNonce := hj'.ts.nonce
    rw [hrust, hj.rust.nonce] at hrustNonce
    rw [hts, hj.ts.nonce] at htsNonce
    omega
  obtain ⟨⟨x₁, y₁, hj₁⟩, x₂, y₂, hj₂⟩ := joined_rounds h hturns hj
  constructor
  · rcases hj₁.tsRound_cases h hturns with hsame | ⟨hlt, hts, hrust⟩
    · exact hsame
    · rw [SameNonce, hts, hrust]
      rcases hj.rustRound_cases h hturns with hsame | ⟨hlt', hts', hrust'⟩
      · exact hsame
      · have hlengths := hahead hj₁ hts' hrust'
        omega
  · rcases hj₂.rustRound_cases h hturns with hsame | ⟨hlt, hts, hrust⟩
    · exact hsame
    · rw [SameNonce, hts, hrust]
      rcases hj.tsRound_cases h hturns with hsame | ⟨hlt', hts', hrust'⟩
      · exact hsame
      · have hlengths := hahead hj₂ hts' hrust'
        omega

end

end MixedPair

/-- A Rust seat and a TypeScript seat form one tunnel. After any events they have confirmed the
same updates, differ by at most one nonce, keep their proposals whatever comes next, and reach one
nonce again by resends. -/
theorem mixed_pair_one_tunnel {pair : MixedPair TsState TsMove State Move}
    {g : GameMap TsState TsMove State Move} {seat : Engine.Seat TsState TsMove}
    {balances : Balances} (h : pair.Honest g seat balances)
    (hturns : pair.rust.protocol.TurnBased) (events : List (MixedEvent TsMove Move)) :
    pair.SameUpdates (pair.after seat balances events) ∧
      ((pair.after seat balances events).ts.nonce ≤
          (pair.after seat balances events).rust.nonce.toNat + 1 ∧
        ((pair.after seat balances events).rust.nonce.toNat : Int) ≤
          (pair.after seat balances events).ts.nonce + 1) ∧
      (∀ event, MixedPair.KeepsProposals (pair.after seat balances events)
        (pair.step (pair.after seat balances events) event)) ∧
      pair.CatchesUp (pair.after seat balances events) := by
  obtain ⟨_, _, hj⟩ := MixedPair.joined_after h hturns events
  refine ⟨hj.sameUpdates, hj.nonces, ?_, ?_⟩
  · intro event
    obtain ⟨_, _, hadvances, hkeeps, hj'⟩ := hj.step h hturns event
    exact ⟨hj.rust.keeps hj'.rust hadvances, hkeeps⟩
  · refine ⟨hj.quiet, ?_, ?_, hj.bothResend h hturns⟩
    · intro p hp hbehind
      rw [hj.rust.nonce, hj.ts.nonce] at hbehind
      rcases hj.rust.pending with ⟨hnone, -⟩ | ⟨e, msg, hpending, -, hwrites, hsome⟩
      · rw [hp] at hnone
        cases hnone
      · rw [hp] at hsome
        cases hsome
        obtain ⟨hsame, hcommits⟩ := hj.rustRound h hturns hpending (by omega)
        refine ⟨hsame, fun hlocked => UInt64.toNat_inj.mp ?_⟩
        rw [hcommits hlocked, RuntimeConfig.pendingFor, toNat_nonceAt hwrites.1]
    · intro p hp hbehind
      rw [hj.rust.nonce, hj.ts.nonce] at hbehind
      rcases hj.ts.pending with ⟨hnone, -⟩ | ⟨_, _, _, _, hpending, -, hwrites, -, -, hsome⟩
      · rw [hp] at hnone
        cases hnone
      · rw [hp] at hsome
        cases hsome
        obtain ⟨hsame, hconfirms⟩ := hj.tsRound h hturns hpending (by omega)
        refine ⟨hsame, ?_⟩
        rw [hconfirms, MixedPair.toTs_update_nonce hwrites.1]

namespace Sample

def tsTurnGame : Engine.Protocol Nat Unit where
  name := "turns"
  initialState _ := 0
  applyMove := turnGame.applyMove
  encodeState n := .ok (turnGame.encodeState n)
  balances _ := ⟨10, 10⟩
  isTerminal _ := false

/-- Both sides have the same states and moves. -/
def identity : GameMap Nat Unit Nat Unit := ⟨Eq, id, id⟩

theorem samePlay_turnGame : SamePlay identity tsTurnGame turnGame where
  initialState _ _ _ := rfl
  moveOfTs := by
    rintro t _ move party t' rfl happly
    exact ⟨t', happly, rfl⟩
  moveOfRust := by
    rintro t _ mv party s' rfl happly
    exact ⟨s', happly, rfl⟩
  encodeState := by
    rintro t _ rfl
    rfl
  balances _ _ _ := rfl

theorem turnBased_turnGame : turnGame.TurnBased := by
  rintro n move move' ⟨next, hA⟩ ⟨next', hB⟩
  by_cases heven : n % 2 = 0
  · simp [turnGame, heven] at hB
  · simp [turnGame, heven] at hA

def tsEndpoint (party : Engine.Party) : Engine.PartyEndpoint where
  publicKey := [key party]
  scheme := Engine.schemeEd25519
  sign := some fun message => (signature (key party) message).bytes
  verify message sig := sig == (signature (key party) message).bytes

def tsOptions : Engine.DistributedConfig Unit where
  tunnelId := "0x7"
  self := tsEndpoint .B
  opponent := { tsEndpoint .A with sign := none }
  selfParty := .B
  moveCodec := none

def tsCrypto : Engine.Crypto where
  blake2b256 := (runtime .A).blake2b256
  ed25519Verify sig message publicKey := sig == (signature (publicKey.headD 0) message).bytes

def bytes32 (bytes : Bytes) : Bytes32 := (decode32 bytes).1

def bytes64 (bytes : Bytes) : Bytes64 := (decode64 bytes).1

/-- A TypeScript frame as the Rust seat has it. -/
def ofTs : Engine.Frame Unit → TunnelFrame Unit
  | .move m => .move
      { nonce := Engine.word m.nonce, bySeat := m.byParty, mv := m.move
        timestamp := Engine.word m.timestamp, stateHash := bytes32 m.stateHash
        partyABalance := Engine.word m.partyABalance, partyBBalance := Engine.word m.partyBBalance
        sigProposer := bytes64 m.sigProposer }
  | .ack a => .ack ⟨Engine.word a.nonce, bytes64 a.sigResponder⟩

def toTs : TunnelFrame Unit → Engine.Frame Unit
  | .move m => .move (m.toTs m.mv)
  | .ack a => .ack a.toTs

/-- Party A in Rust and party B in TypeScript. -/
def mixedPair : MixedPair Nat Unit Nat Unit where
  ts :=
    { crypto := tsCrypto, protocol := tsTurnGame, tunnelId := "0x7", self := tsEndpoint .B
      sign := fun message => (signature (key .B) message).bytes
      opponent := { tsEndpoint .A with sign := none }, selfParty := .B, total := 20, codec := id }
  rust := runtime .A
  encodeFrame frame := encode (ofTs frame)
  decodeFrame bytes := ((decode bytes).mapError CodecError.text).map toTs

def tsSeat : Engine.Seat Nat Unit := ⟨0, 0, none, none⟩

theorem word_toNat (n : UInt64) : Engine.word n.toNat = n := by
  simp [Engine.word]

theorem ofTs_toTs (frame : TunnelFrame Unit) : ofTs (toTs frame) = frame := by
  cases frame with
  | move m =>
    simp only [toTs, ofTs, MoveFrame.toTs, word_toNat, bytes64, decode64_bytes, bytes32]
    rw [← List.append_nil m.stateHash.bytes, decode32_bytes]
  | ack => simp [toTs, ofTs, AckFrame.toTs, word_toNat, bytes64, decode64_bytes]

theorem honest_mixedPair : mixedPair.Honest identity tsSeat ⟨10, 10⟩ where
  created := ⟨tsCrypto, tsTurnGame, tsOptions, rfl⟩
  game := samePlay_turnGame
  tunnelId := rfl
  sides := rfl
  hash _ := rfl
  tsSigns message := ⟨signature (key .B) message, rfl, by
    simp [mixedPair, runtime, Bytes32.fill, Seat.other, Engine.otherParty, List.replicate]⟩
  rustSigns message := by simp [mixedPair, tsEndpoint, runtime]
  movesToTs m := by
    simp only [mixedPair, runtime, decode_encode]
    rfl
  acksToTs a := by
    simp only [mixedPair, runtime, decode_encode]
    rfl
  movesToRust m move _ := by
    change decode (encode (ofTs (toTs (.move m)))) = _
    rw [ofTs_toTs, decode_encode]
  acksToRust a := by
    change decode (encode (ofTs (toTs (.ack a)))) = _
    rw [ofTs_toTs, decode_encode]

/-- The acknowledgement of the first move is lost, and party B moves on. -/
def lostAck : List (MixedEvent Unit Unit) :=
  [.rustPropose () 5, .tsReceive 0, .tsPropose () 6, .rustReceive 1]

def afterLostAck : MixedState Nat Unit Nat Unit := mixedPair.after tsSeat ⟨10, 10⟩ lostAck

end Sample

/-- After a lost acknowledgement both seats wait, one nonce apart; the resend of the Rust seat
brings them together. -/
theorem mixed_pair_one_tunnel_lost_ack :
    Sample.afterLostAck.rust.nonce = 0 ∧ Sample.afterLostAck.ts.nonce = 1 ∧
      Sample.afterLostAck.rust.pending.isSome = true ∧
      Sample.afterLostAck.ts.pending.isSome = true ∧
      (Sample.mixedPair.rustRound Sample.afterLostAck).rust.nonce = 1 ∧
      Sample.mixedPair.SameUpdates Sample.afterLostAck ∧
      (Sample.afterLostAck.ts.nonce ≤ Sample.afterLostAck.rust.nonce.toNat + 1 ∧
        (Sample.afterLostAck.rust.nonce.toNat : Int) ≤ Sample.afterLostAck.ts.nonce + 1) ∧
      (∀ event, MixedPair.KeepsProposals Sample.afterLostAck
        (Sample.mixedPair.step Sample.afterLostAck event)) ∧
      Sample.mixedPair.CatchesUp Sample.afterLostAck :=
  ⟨by decide +kernel, by decide +kernel, by decide +kernel, by decide +kernel, by decide +kernel,
    mixed_pair_one_tunnel Sample.honest_mixedPair Sample.turnBased_turnGame Sample.lostAck⟩

end DopamintArena.Rust
