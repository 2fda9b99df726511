import DopamintArena.Engine.Runs
import DopamintArena.Games.Payments

/-!
Two honest seats of one tunnel. They propose, re-send and receive each other's
frames in any order; a frame stays in the inbox once sent, so it may be
delayed, duplicated, reordered or never delivered, but not forged.

A seat signs one state hash per nonce, and the two seats never hold
conflicting co-signed updates, exactly as long as nobody co-signs a move that
crosses its own different proposal for the same nonce.
-/

namespace DopamintArena.Engine

open Foundation

variable {State Move : Type}

/-- The two seats and the frames sent to each. -/
structure PairState (State Move : Type) where
  seat : Party → Seat State Move
  inbox : Party → List (Frame Move)

/-- What an honest player and the network do to a seat. -/
def Playable (inbox : List (Frame Move)) : Input State Move → Prop
  | .propose _ _ => True
  | .resendPending => True
  | .frame frame => frame ∈ inbox
  | _ => False

/-- The pair after `party` took a turn. -/
def PairState.advance (w : PairState State Move) (party : Party) (turn : Turn State Move) :
    PairState State Move where
  seat := Function.update w.seat party turn.seat
  inbox := Function.update w.inbox (otherParty party)
    (w.inbox (otherParty party) ++ turn.sent)

def pairSystem (cfg : Party → Config State Move) (start : Party → Seat State Move) :
    System (PairState State Move) (Party × SeatEntry State Move) where
  init history w := history = [] ∧ w = ⟨start, fun _ => []⟩
  step w entry w' := act (cfg entry.1) (w.seat entry.1) entry.2.input = .ok entry.2.turn ∧
    entry.2.before = w.seat entry.1 ∧ Playable (w.inbox entry.1) entry.2.input ∧
    w' = w.advance entry.1 entry.2.turn

/-- Two seats the constructor built for the two sides of one tunnel. A signature of one
verifies at the other only for the message that was signed. -/
structure HonestPair (crypto : Crypto) (protocol : Protocol State Move)
    (options : Party → DistributedConfig Move) (initialBalances : Balances)
    (cfg : Party → Config State Move) (start : Party → Seat State Move) : Prop where
  created : ∀ party, create crypto protocol (options party) initialBalances =
    .ok (cfg party, start party)
  side : ∀ party, (options party).selfParty = party
  tunnelId : ∀ party, (options party).tunnelId = (options (otherParty party)).tunnelId
  binding : ∀ party message message', (cfg party).opponent.verify message
    ((cfg (otherParty party)).sign message') = true → message = message'

def entriesOf (party : Party) (history : List (Party × SeatEntry State Move)) :
    List (SeatEntry State Move) :=
  history.filterMap fun entry => if entry.1 = party then some entry.2 else none

def signedBy (party : Party) (history : List (Party × SeatEntry State Move)) :
    List StateUpdate :=
  signedUpdates (entriesOf party history)

/-- The fully signed updates a seat came to hold. -/
def confirmedBy (party : Party) (history : List (Party × SeatEntry State Move)) :
    List CoSignedUpdate :=
  (entriesOf party history).filterMap fun entry => entry.turn.confirmed

/-- Each seat signs one hash per nonce and the two never hold conflicting updates. -/
def NoEquivocation (history : List (Party × SeatEntry State Move)) : Prop :=
  (∀ party, SignsOnce (signedBy party history)) ∧
    ∀ held ∈ confirmedBy .A history, ∀ held' ∈ confirmedBy .B history,
      held.update.nonce = held'.update.nonce →
      held.update.stateHash = held'.update.stateHash

/-- No seat co-signed a move that crosses its own proposal. -/
def NoCrossing (history : List (Party × SeatEntry State Move)) : Prop :=
  ∀ entry ∈ history, ¬Crosses entry.2.before entry.2.input

section

variable {crypto : Crypto} {protocol : Protocol State Move}
variable {options : Party → DistributedConfig Move} {initialBalances : Balances}
variable {cfg : Party → Config State Move} {start : Party → Seat State Move}
variable {history : List (Party × SeatEntry State Move)} {w : PairState State Move}
variable {party : Party} {entry : SeatEntry State Move}
variable {other : Party} {sender self : Config State Move} {signed extra : List StateUpdate}
variable {s : Seat State Move} {input : Input State Move} {turn : Turn State Move}
variable {held : CoSignedUpdate}

theorem entriesOf_append_self :
    entriesOf party (history ++ [(party, entry)]) = entriesOf party history ++ [entry] := by
  simp [entriesOf]

theorem entriesOf_append_other (hne : other ≠ party) :
    entriesOf party (history ++ [(other, entry)]) = entriesOf party history := by
  simp [entriesOf, hne]

theorem mem_entriesOf : entry ∈ entriesOf party history ↔ (party, entry) ∈ history := by
  simp only [entriesOf, List.mem_filterMap]
  constructor
  · rintro ⟨⟨_, _⟩, hmem, hentry⟩
    split at hentry
    · next hparty =>
        cases hentry
        rw [← hparty]
        exact hmem
    · cases hentry
  · intro hmem
    exact ⟨_, hmem, by simp⟩

theorem pair_seat_run (hrun : (pairSystem cfg start).Run history w) (party : Party) :
    (seatSystem (cfg party) (start party)).Run (entriesOf party history) (w.seat party) := by
  induction hrun with
  | start hstart =>
    obtain ⟨rfl, rfl⟩ := hstart
    exact .start ⟨rfl, rfl⟩
  | @step _ _ _ entry _ hstep ih =>
    obtain ⟨actor, entry⟩ := entry
    obtain ⟨hact, hentry, -, rfl⟩ := hstep
    by_cases hactor : actor = party
    · subst hactor
      rw [entriesOf_append_self]
      refine ih.step ⟨hact, hentry, ?_⟩
      simp [PairState.advance]
    · rw [entriesOf_append_other hactor]
      simpa [PairState.advance, Function.update_of_ne (Ne.symm hactor)] using ih

/-- A frame whose sender has signed what it is about. -/
def Sourced (sender : Config State Move) (signed : List StateUpdate) : Frame Move → Prop
  | .move frame => ∃ u ∈ signed, u.nonce = frame.nonce ∧ u.stateHash = frame.stateHash
  | .ack frame => ∃ u ∈ signed, ∃ msg, serializeStateUpdate u = .ok msg ∧
      frame.sigResponder = sender.sign msg

theorem Sourced.append {frame : Frame Move} (h : Sourced sender signed frame) :
    Sourced sender (signed ++ extra) frame := by
  cases frame with
  | move | ack =>
    obtain ⟨u, hu, hrest⟩ := h
    exact ⟨u, List.mem_append_left _ hu, hrest⟩

theorem effect_sourced (hg : Grounded sender signed s) (heffect : Effect sender s input turn) :
    ∀ frame ∈ turn.sent, Sourced sender (signed ++ turn.updates) frame := by
  intro frame hframe
  cases heffect with
  | idle | seated | acked | adopted | half | halfWithRoot => cases hframe
  | resent p hpending =>
    rw [List.mem_singleton.mp hframe]
    exact ⟨p.update, List.mem_append_left _ (hg.pendingSigned p hpending), rfl, rfl⟩
  | reacked _ latest msg _ _ hmsg =>
    rw [List.mem_singleton.mp hframe]
    exact ⟨latest.update, by simp [Turn.updates, reacknowledgement, Signed.update?], msg,
      hmsg, rfl⟩
  | proposed _ _ _ update =>
    rw [List.mem_singleton.mp hframe]
    exact ⟨update, by simp [Turn.updates, Signed.update?], rfl, rfl⟩
  | accepted _ _ update msg _ _ hderived =>
    rw [List.mem_singleton.mp hframe]
    exact ⟨update, by simp [Turn.updates, acceptance, Signed.update?], msg,
      hderived.serialized, rfl⟩

/-- An update fully signed at `held` was signed with this nonce and hash. -/
def Covers (signed : List StateUpdate) (held : CoSignedUpdate) : Prop :=
  ∃ u ∈ signed, u.nonce = held.update.nonce ∧ u.stateHash = held.update.stateHash

theorem Covers.append (h : Covers signed held) : Covers (signed ++ extra) held := by
  obtain ⟨u, hu, hrest⟩ := h
  exact ⟨u, List.mem_append_left _ hu, hrest⟩

/-- An update that a seat confirms from a sourced frame was signed by both. -/
theorem effect_confirmed {other : Config State Move} {signed' : List StateUpdate}
    {inbox : List (Frame Move)} (hbinding : ∀ message message',
      self.opponent.verify message (other.sign message') = true → message = message')
    (htunnel : ∀ u ∈ signed', u.tunnelId = self.tunnelId) (hg : Grounded self signed s)
    (hinbox : ∀ frame ∈ inbox, Sourced other signed' frame) (hplay : Playable inbox input)
    (heffect : Effect self s input turn) (hheld : turn.confirmed = some held) :
    Covers (signed ++ turn.updates) held ∧ Covers signed' held := by
  cases heffect with
  | idle | resent | reacked | seated | proposed | adopted | half | halfWithRoot => cases hheld
  | accepted _ _ update _ _ hnonce hderived hmatches =>
    cases hheld
    obtain ⟨u, hu, hunonce, huhash⟩ := hinbox _ hplay
    refine ⟨⟨update, by simp [Turn.updates, acceptance, Signed.update?], ?_, ?_⟩,
      u, hu, ?_, ?_⟩ <;> rw [coSign_update]
    · rw [hunonce, hnonce, hderived.nonce]
    · rw [huhash, hmatches.stateHash]
  | acked _ p hpending _ _ hverified =>
    cases hheld
    have hmine := hg.pendingSigned p hpending
    obtain ⟨u, hu, _, hmsg, hsig⟩ := hinbox _ hplay
    rw [hsig] at hverified
    -- the acknowledged message is the one the peer signed, so the update is the same
    have hsame : p.update = u := by
      have hmessage := hbinding _ _ hverified
      refine serializeStateUpdate_inj ?_ (hg.pendingMessage p hpending) ?_
      · rw [hg.tunnelId _ hmine, htunnel u hu]
      · rw [hmessage]
        exact hmsg
    refine ⟨⟨p.update, List.mem_append_left _ hmine, ?_, ?_⟩, u, hu, ?_, ?_⟩ <;>
      rw [coSign_update]
    · rw [hsame]
    · rw [hsame]

/-- What holds across the two seats, crossing moves or not. -/
structure PairInvariant (cfg : Party → Config State Move)
    (history : List (Party × SeatEntry State Move)) (w : PairState State Move) : Prop where
  sourced : ∀ party, ∀ frame ∈ w.inbox party,
    Sourced (cfg (otherParty party)) (signedBy (otherParty party) history) frame
  held : ∀ party, ∀ held ∈ confirmedBy party history, ∀ signer,
    Covers (signedBy signer history) held

theorem signedBy_append_self :
    signedBy party (history ++ [(party, entry)]) =
      signedBy party history ++ entry.turn.updates := by
  rw [signedBy, entriesOf_append_self, signedUpdates_append, signedUpdates_singleton, signedBy]

theorem signedBy_append_other (hne : other ≠ party) :
    signedBy party (history ++ [(other, entry)]) = signedBy party history := by
  rw [signedBy, entriesOf_append_other hne, signedBy]

theorem confirmedBy_append_self :
    confirmedBy party (history ++ [(party, entry)]) =
      confirmedBy party history ++ entry.turn.confirmed.toList := by
  rw [confirmedBy, entriesOf_append_self, List.filterMap_append, confirmedBy]
  cases hconfirmed : entry.turn.confirmed <;> simp [hconfirmed]

theorem confirmedBy_append_other (hne : other ≠ party) :
    confirmedBy party (history ++ [(other, entry)]) = confirmedBy party history := by
  rw [confirmedBy, entriesOf_append_other hne, confirmedBy]

theorem Covers.signedBy_append {signer actor : Party} (h : Covers (signedBy signer history) held) :
    Covers (signedBy signer (history ++ [(actor, entry)])) held := by
  by_cases hactor : actor = signer
  · subst hactor
    rw [signedBy_append_self]
    exact h.append
  · rw [signedBy_append_other hactor]
    exact h

section

variable (hpair : HonestPair crypto protocol options initialBalances cfg start)
include hpair

variable (hrun : (pairSystem cfg start).Run history w)
include hrun

theorem HonestPair.grounded (party : Party) :
    Grounded (cfg party) (signedBy party history) (w.seat party) :=
  seat_grounded (create_ok (hpair.created party)).fresh (pair_seat_run hrun party)

omit hrun in
theorem HonestPair.same_tunnelId (party : Party) :
    (cfg (otherParty party)).tunnelId = (cfg party).tunnelId := by
  rw [(create_ok (hpair.created party)).tunnelId, hpair.tunnelId party,
    (create_ok (hpair.created (otherParty party))).tunnelId]

theorem pairInvariant_step {w' : PairState State Move} {entry : Party × SeatEntry State Move}
    (hinv : PairInvariant cfg history w)
    (hstep : (pairSystem cfg start).step w entry w') :
    PairInvariant cfg (history ++ [entry]) w' := by
  obtain ⟨actor, entry⟩ := entry
  obtain ⟨hact, -, hplay, rfl⟩ := hstep
  have heffect := act_effect hact
  have hg := hpair.grounded hrun actor
  have hother : otherParty actor ≠ actor := otherParty_ne actor
  refine ⟨?_, ?_⟩
  · intro party frame hframe
    by_cases hparty : party = otherParty actor
    · subst hparty
      simp only [PairState.advance, Function.update_self, List.mem_append] at hframe
      rw [otherParty_otherParty, signedBy_append_self]
      rcases hframe with hframe | hframe
      · have hsourced := hinv.sourced (otherParty actor) frame hframe
        rw [otherParty_otherParty] at hsourced
        exact hsourced.append
      · exact effect_sourced hg heffect frame hframe
    · have hself : party = actor := by
        rw [← otherParty_otherParty actor]
        exact eq_otherParty_of_ne hparty
      subst hself
      simp only [PairState.advance, Function.update_of_ne (Ne.symm hother)] at hframe
      rw [signedBy_append_other (Ne.symm hother)]
      exact hinv.sourced party frame hframe
  · intro party held hheld signer
    by_cases hparty : actor = party
    · subst hparty
      rw [confirmedBy_append_self, List.mem_append, Option.mem_toList] at hheld
      rcases hheld with hheld | hheld
      · exact (hinv.held actor held hheld signer).signedBy_append
      · obtain ⟨hmine, htheirs⟩ := effect_confirmed (hpair.binding actor)
          (fun u hu => by
            rw [(hpair.grounded hrun (otherParty actor)).tunnelId u hu,
              hpair.same_tunnelId])
          hg (hinv.sourced actor) hplay heffect hheld
        by_cases hsigner : signer = actor
        · subst hsigner
          rw [signedBy_append_self]
          exact hmine
        · rw [eq_otherParty_of_ne hsigner, signedBy_append_other (Ne.symm hother)]
          exact htheirs
    · rw [confirmedBy_append_other hparty] at hheld
      exact (hinv.held party held hheld signer).signedBy_append

theorem pair_invariant :
    PairInvariant cfg history w := by
  apply hrun.invariant (I := PairInvariant cfg)
  · rintro _ _ ⟨rfl, rfl⟩
    refine ⟨?_, ?_⟩
    · intro party frame hframe
      cases hframe
    · intro party held hheld
      cases hheld
  · intro history w entry w' hbefore hinv hstep
    exact pairInvariant_step hpair hbefore hinv hstep

end

theorem pair_playable (hrun : (pairSystem cfg start).Run history w)
    {entry : Party × SeatEntry State Move} (hentry : entry ∈ history) :
    ∃ inbox, Playable inbox entry.2.input := by
  induction hrun with
  | start hstart =>
    obtain ⟨rfl, -⟩ := hstart
    cases hentry
  | step _ hstep ih =>
    rcases List.mem_append.mp hentry with hentry | hentry
    · exact ih hentry
    · rw [List.mem_singleton.mp hentry]
      exact ⟨_, hstep.2.2.1⟩

/-- A seat that never crosses its own proposal signs one hash per nonce. -/
theorem pair_committed (hpair : HonestPair crypto protocol options initialBalances cfg start)
    (hrun : (pairSystem cfg start).Run history w) (hclean : NoCrossing history)
    (party : Party) : Committed (signedBy party history) (w.seat party) := by
  refine seat_committed (create_ok (hpair.created party)).fresh (pair_seat_run hrun party)
    ?_ ?_
  · intro entry hentry
    exact hclean _ (mem_entriesOf.mp hentry)
  · intro entry hentry state coSigned hinput
    obtain ⟨_, hplay⟩ := pair_playable hrun (mem_entriesOf.mp hentry)
    rw [hinput] at hplay
    exact hplay

theorem signedBy_subset (signer : Party) (entry : Party × SeatEntry State Move) :
    signedBy signer history ⊆ signedBy signer (history ++ [entry]) := by
  obtain ⟨actor, entry⟩ := entry
  by_cases hactor : actor = signer
  · subst hactor
    rw [signedBy_append_self]
    exact List.subset_append_left _ _
  · rw [signedBy_append_other hactor]
    exact List.Subset.refl _

theorem crossing_signs_twice (hg : Grounded self signed s) (hact : act self s input = .ok turn)
    (hcross : Crosses s input) : ¬SignsOnce (signed ++ turn.updates) := by
  intro honce
  obtain ⟨frame, p, rfl, hpending, _, hne⟩ := hcross
  obtain ⟨-, -, next, update, msg, hderived, hmatches, rfl⟩ :=
    (onMove_ok_iff (by omega)).mp hact
  have hmine := List.mem_append_left (acceptance self s frame next update msg).updates
    (hg.pendingSigned p hpending)
  have htheirs : update ∈ signed ++ (acceptance self s frame next update msg).updates := by
    simp [Turn.updates, acceptance, Signed.update?]
  have hsame := honce update htheirs p.update hmine
    (by rw [hderived.nonce, hg.pendingNonce p hpending])
  exact hne (hmatches.stateHash.trans hsame)

theorem noCrossing_of_signsOnce
    (hpair : HonestPair crypto protocol options initialBalances cfg start)
    (hrun : (pairSystem cfg start).Run history w)
    (honce : ∀ party, SignsOnce (signedBy party history)) : NoCrossing history := by
  induction hrun with
  | start hstart =>
    obtain ⟨rfl, -⟩ := hstart
    intro entry hentry
    cases hentry
  | @step _ _ _ last hbefore hstep ih =>
    have hearlier := ih fun party u hu v hv =>
      honce party u (signedBy_subset party last hu) v (signedBy_subset party last hv)
    intro entry hentry
    rcases List.mem_append.mp hentry with hentry | hentry
    · exact hearlier entry hentry
    · rw [List.mem_singleton.mp hentry]
      obtain ⟨actor, last⟩ := last
      obtain ⟨hact, hseat, -, -⟩ := hstep
      intro hcross
      rw [hseat] at hcross
      apply crossing_signs_twice (hpair.grounded hbefore actor) hact hcross
      have hactor := honce actor
      rw [signedBy_append_self] at hactor
      exact hactor

/-- Two honest seats equivocate exactly when one of them co-signs a move that crosses
its own proposal. -/
theorem noEquivocation_iff
    (hpair : HonestPair crypto protocol options initialBalances cfg start)
    (hrun : (pairSystem cfg start).Run history w) :
    NoEquivocation history ↔ NoCrossing history := by
  constructor
  · intro h
    exact noCrossing_of_signsOnce hpair hrun h.1
  · intro hclean
    have honce party := (pair_committed hpair hrun hclean party).once
    have hinv := pair_invariant hpair hrun
    refine ⟨honce, ?_⟩
    intro held hheld held' hheld' hnonce
    obtain ⟨u, hu, hunonce, huhash⟩ := hinv.held .A held hheld .A
    obtain ⟨v, hv, hvnonce, hvhash⟩ := hinv.held .B held' hheld' .A
    rw [← huhash, ← hvhash]
    exact honce .A u hu v hv (by rw [hunonce, hvnonce, hnonce])

end

/-- A step of a pair given by position: a proposal, a re-send, or the delivery of the
frame at an index of the inbox. -/
inductive PairMove (Move : Type)
  | propose (party : Party) (move : Move) (timestamp : Int)
  | resend (party : Party)
  | deliver (party : Party) (index : Nat)

def PairMove.resolve (w : PairState State Move) :
    PairMove Move → Except String (Party × Input State Move)
  | .propose party move timestamp => .ok (party, .propose move timestamp)
  | .resend party => .ok (party, .resendPending)
  | .deliver party index =>
    match (w.inbox party)[index]? with
    | some frame => .ok (party, .frame frame)
    | none => .error "no such frame"

def pairReplay (cfg : Party → Config State Move) :
    PairState State Move → List (Party × SeatEntry State Move) → List (PairMove Move) →
    Except String (PairState State Move × List (Party × SeatEntry State Move)) :=
  System.replay fun w step => do
    let (party, input) ← step.resolve w
    let turn ← act (cfg party) (w.seat party) input
    pure ((party, ⟨w.seat party, input, turn⟩), w.advance party turn)

theorem resolve_playable {w : PairState State Move} {step : PairMove Move} {party : Party}
    {input : Input State Move} (h : step.resolve w = .ok (party, input)) :
    Playable (w.inbox party) input := by
  cases step with
  | propose =>
    cases h
    trivial
  | resend =>
    cases h
    trivial
  | deliver =>
    simp only [PairMove.resolve] at h
    split at h
    · next frame hframe =>
        cases h
        exact List.mem_of_getElem? hframe
    · cases h

theorem pairReplay_run {cfg : Party → Config State Move} {start : Party → Seat State Move}
    {w w' : PairState State Move} {history history' : List (Party × SeatEntry State Move)}
    {steps : List (PairMove Move)} (hrun : (pairSystem cfg start).Run history w)
    (h : pairReplay cfg w history steps = .ok (w', history')) :
    (pairSystem cfg start).Run history' w' := by
  refine System.replay_run hrun h fun w step entry w' hstep => ?_
  simp only [returned] at hstep
  obtain ⟨⟨_, _⟩, hresolve, _, hact, ⟨⟩⟩ := hstep
  exact ⟨hact, rfl, resolve_playable hresolve, rfl⟩

namespace Sample

/-- A hash that keeps the last 32 bytes, and signatures that repeat the message behind
the signer's key. -/
def crypto : Crypto where
  blake2b256 bytes := ⟨(bytes.reverse ++ List.replicate 32 0).take 32, by simp⟩
  ed25519Verify signature message publicKey := signature == publicKey ++ message

def key : Party → Bytes
  | .A => [1]
  | .B => [2]

def endpoint (party : Party) : PartyEndpoint where
  publicKey := key party
  scheme := schemeEd25519
  sign := some fun message => key party ++ message
  verify message signature := signature == key party ++ message

def options (Move : Type) (party : Party) : DistributedConfig Move where
  tunnelId := "0x7"
  self := endpoint party
  opponent := { endpoint (otherParty party) with sign := none }
  selfParty := party
  moveCodec := some id

def config (protocol : Protocol State Move) (total : Int) (party : Party) :
    Config State Move where
  crypto := crypto
  protocol := protocol
  tunnelId := "0x7"
  self := endpoint party
  sign message := key party ++ message
  opponent := { endpoint (otherParty party) with sign := none }
  selfParty := party
  total := total
  codec := id

def freshSeat (protocol : Protocol State Move) (initialBalances : Balances) :
    Seat State Move where
  state := protocol.initialState ⟨"0x7", initialBalances⟩
  nonce := 0
  latest := none
  pending := none

def paymentsPair : PairState Games.PaymentsState Games.PaymentMove :=
  ⟨fun _ => freshSeat Games.Payments.protocol ⟨10, 10⟩, fun _ => []⟩

theorem create_sample (protocol : Protocol State Move) (initialBalances : Balances) (party : Party)
    (hbalanced : (protocol.balances (protocol.initialState ⟨"0x7", initialBalances⟩)).a +
      (protocol.balances (protocol.initialState ⟨"0x7", initialBalances⟩)).b =
      initialBalances.a + initialBalances.b) :
    create crypto protocol (options Move party) initialBalances =
      .ok (config protocol (initialBalances.a + initialBalances.b) party,
        freshSeat protocol initialBalances) := by
  simp [create, options, endpoint, require, hbalanced, config, freshSeat]

theorem honestPair_sample (protocol : Protocol State Move) (initialBalances : Balances)
    (hbalanced : (protocol.balances (protocol.initialState ⟨"0x7", initialBalances⟩)).a +
      (protocol.balances (protocol.initialState ⟨"0x7", initialBalances⟩)).b =
      initialBalances.a + initialBalances.b) :
    HonestPair crypto protocol (options Move) initialBalances
      (config protocol (initialBalances.a + initialBalances.b))
      (fun _ => freshSeat protocol initialBalances) where
  created party := create_sample protocol initialBalances party hbalanced
  side _ := rfl
  tunnelId _ := rfl
  binding party message message' h := by
    have hkey : key (otherParty party) ++ message' = key (otherParty party) ++ message := by
      simpa [config, endpoint] using h
    exact (List.append_cancel_left hkey).symm

def paymentsConfig := config Games.Payments.protocol (10 + 10)

/-- Party A pays one unit and party B acknowledges it. -/
def exchange : List (PairMove Games.PaymentMove) :=
  [.propose .A ⟨.A, 1⟩ 5, .deliver .B 0, .deliver .A 0]

/-- Both sides pay one unit at the same time; the two MOVE frames cross. -/
def crossing : List (PairMove Games.PaymentMove) :=
  [.propose .A ⟨.A, 1⟩ 5, .propose .B ⟨.B, 1⟩ 5, .deliver .B 0, .deliver .A 0]

end Sample

theorem noEquivocation_iff_exchange : ∃ w history,
    pairReplay Sample.paymentsConfig Sample.paymentsPair [] Sample.exchange =
      .ok (w, history) ∧ (w.seat .A).nonce = 1 ∧ (w.seat .B).nonce = 1 ∧
    (NoEquivocation history ↔ NoCrossing history) := by
  have heval : (pairReplay Sample.paymentsConfig Sample.paymentsPair [] Sample.exchange).map
      (fun r => ((r.1.seat .A).nonce, (r.1.seat .B).nonce)) = .ok (1, 1) := by
    decide +kernel
  obtain ⟨⟨w, history⟩, hreplay, hnonces⟩ := map_ok_iff.mp heval
  obtain ⟨hA, hB⟩ := Prod.mk.inj hnonces
  exact ⟨w, history, hreplay, hA, hB, noEquivocation_iff
    (Sample.honestPair_sample Games.Payments.protocol ⟨10, 10⟩ (by decide))
    (pairReplay_run (.start ⟨rfl, rfl⟩) hreplay)⟩

/-- Crossing payments: each seat signs two hashes at nonce 1, and the two end up holding
fully signed updates for nonce 1 that differ. -/
theorem equivocation_by_crossing_payments :
    HonestPair Sample.crypto Games.Payments.protocol (Sample.options Games.PaymentMove)
      ⟨10, 10⟩ Sample.paymentsConfig Sample.paymentsPair.seat ∧
    ∃ w history, (pairSystem Sample.paymentsConfig Sample.paymentsPair.seat).Run history w ∧
      (∀ party, (signedBy party history).map StateUpdate.nonce = [1, 1]) ∧
      (∀ party, ¬SignsOnce (signedBy party history)) ∧
      (∃ held held', (w.seat .A).latest = some held ∧ (w.seat .B).latest = some held' ∧
        held.update.nonce = 1 ∧ held'.update.nonce = 1 ∧
        held.update.stateHash ≠ held'.update.stateHash) ∧
      ¬NoEquivocation history := by
  refine ⟨Sample.honestPair_sample Games.Payments.protocol ⟨10, 10⟩ (by decide), ?_⟩
  have heval : (pairReplay Sample.paymentsConfig Sample.paymentsPair []
      Sample.crossing).map (fun r =>
        ([Party.A, .B].map fun party =>
          ((signedBy party r.2).map StateUpdate.nonce, decide (SignsOnce (signedBy party r.2))),
          (r.1.seat .A).latest.map (fun held => held.update.nonce),
          (r.1.seat .B).latest.map (fun held => held.update.nonce),
          decide ((r.1.seat .A).latest.map (fun held => held.update.stateHash) =
            (r.1.seat .B).latest.map (fun held => held.update.stateHash)))) =
      .ok ([([1, 1], false), ([1, 1], false)], some 1, some 1, false) := by
    decide +kernel
  obtain ⟨⟨w, history⟩, hreplay, hfacts⟩ := map_ok_iff.mp heval
  simp only [List.map_cons, List.map_nil, List.cons.injEq, Prod.mk.injEq,
    decide_eq_false_iff_not, and_true] at hfacts
  obtain ⟨⟨⟨hnoncesA, htwiceA⟩, hnoncesB, htwiceB⟩, hlatestA, hlatestB, hconflict⟩ := hfacts
  obtain ⟨held, hheldA, hnonceA⟩ := Option.map_eq_some_iff.mp hlatestA
  obtain ⟨held', hheldB, hnonceB⟩ := Option.map_eq_some_iff.mp hlatestB
  rw [hheldA, hheldB, Option.map_some, Option.map_some, Option.some.injEq] at hconflict
  refine ⟨w, history, pairReplay_run (.start ⟨rfl, rfl⟩) hreplay, ?_, ?_,
    ⟨held, held', hheldA, hheldB, hnonceA, hnonceB, hconflict⟩, ?_⟩
  · rintro (_ | _)
    · exact hnoncesA
    · exact hnoncesB
  · rintro (_ | _)
    · exact htwiceA
    · exact htwiceB
  · intro hnone
    exact htwiceA (hnone.1 .A)

end DopamintArena.Engine
