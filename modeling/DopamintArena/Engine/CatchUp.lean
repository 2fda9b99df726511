import DopamintArena.Engine.Reconcile

/-!
Agreement of two seats over any number of drops, and what an exchange of
resyncs achieves. The seats are at most one move apart whatever happens to
their frames. They are level again, with nothing left to answer, once
everything of the exchange after the last drop has arrived, unless a MOVE of
this exchange arrives at a seat that has not reached the nonce before it: such a
MOVE is refused until the next exchange.
-/

namespace DopamintArena.Engine

open Foundation

variable {State Move StateJson MoveJson : Type}
variable {adapter : ResumeAdapter State Move StateJson MoveJson}
variable {protocol : Protocol State Move} {R : State → State → Prop}
variable {cfg : Party → Config State Move}
variable {w w' : Link State Move StateJson} {party : Party} {s : Seat State Move}
variable {sent tracked : List (PeerMessage Move StateJson)}

theorem party_cases (party q : Party) : q = party ∨ q = otherParty party := by
  by_cases h : q = party
  · exact .inl h
  · exact .inr (eq_otherParty_of_ne h)

namespace Link

@[simp] theorem advance_seat_self : (w.advance party s sent tracked).seat party = s := by
  simp [advance]

@[simp] theorem advance_seat_other : (w.advance party s sent tracked).seat (otherParty party) =
    w.seat (otherParty party) := by
  simp [advance, otherParty_ne]

@[simp] theorem advance_inbox_self :
    (w.advance party s sent tracked).inbox party = w.inbox party := by
  simp [advance, (otherParty_ne party).symm]

@[simp] theorem advance_inbox_other : (w.advance party s sent tracked).inbox (otherParty party) =
    w.inbox (otherParty party) ++ framesIn sent := by
  simp [advance]

@[simp] theorem advance_outstanding_self :
    (w.advance party s sent tracked).outstanding party = w.outstanding party := by
  simp [advance, (otherParty_ne party).symm]

@[simp] theorem advance_outstanding_other :
    (w.advance party s sent tracked).outstanding (otherParty party) =
      w.outstanding (otherParty party) ++ tracked := by
  simp [advance]

@[simp] theorem consume_outstanding_self (index : Nat) :
    (w.consume party index).outstanding party = (w.outstanding party).eraseIdx index := by
  simp [consume]

@[simp] theorem consume_outstanding_other (index : Nat) :
    (w.consume party index).outstanding (otherParty party) =
      w.outstanding (otherParty party) := by
  simp [consume, otherParty_ne]

end Link

theorem mem_framesIn {frame : Frame Move} :
    frame ∈ framesIn sent ↔ PeerMessage.frame frame ∈ sent := by
  simp only [framesIn, List.mem_filterMap]
  constructor
  · rintro ⟨message, hmem, hframe⟩
    cases message with
    | frame =>
      cases hframe
      exact hmem
    | resync => cases hframe
  · intro hmem
    exact ⟨_, hmem, rfl⟩

/-- The two seats and everything on its way between them. -/
structure Agreement (adapter : ResumeAdapter State Move StateJson MoveJson)
    (cfg : Party → Config State Move) (R : State → State → Prop)
    (w : Link State Move StateJson) : Prop where
  ok : ∀ party, SeatOk cfg party (w.seat party)
  aligned : ∀ party, Aligned R (w.seat party) (w.seat (otherParty party))
  frames : ∀ party, ∀ frame ∈ w.inbox party,
    MessageOk adapter cfg (otherParty party) (w.seat party) (w.seat (otherParty party))
      (.frame frame)
  messages : ∀ party, ∀ message ∈ w.outstanding party,
    MessageOk adapter cfg (otherParty party) (w.seat party) (w.seat (otherParty party)) message

section

variable (h : Connected protocol adapter R cfg)
include h

section

variable (hw : Agreement adapter cfg R w)
include hw

theorem Agreement.advance
    (hkeeps : Keeps adapter cfg R party (w.seat party) (w.seat (otherParty party)) s sent)
    (htracked : ∀ message ∈ tracked, message ∈ sent) :
    Agreement adapter cfg R (w.advance party s sent tracked) where
  ok q := by
    rcases party_cases party q with rfl | rfl
    · rw [Link.advance_seat_self]
      exact hkeeps.ok
    · rw [Link.advance_seat_other]
      exact hw.ok _
  aligned q := by
    rcases party_cases party q with rfl | rfl
    · rw [Link.advance_seat_self, Link.advance_seat_other]
      exact hkeeps.aligned
    · rw [otherParty_otherParty, Link.advance_seat_self, Link.advance_seat_other]
      exact hkeeps.aligned.symm h
  frames q frame hframe := by
    rcases party_cases party q with rfl | rfl
    · rw [Link.advance_inbox_self] at hframe
      rw [Link.advance_seat_self, Link.advance_seat_other]
      exact hkeeps.incoming _ (hw.frames _ frame hframe)
    · rw [Link.advance_inbox_other, List.mem_append, mem_framesIn] at hframe
      rw [otherParty_otherParty, Link.advance_seat_self, Link.advance_seat_other]
      rcases hframe with hframe | hframe
      · have hok := hw.frames _ frame hframe
        rw [otherParty_otherParty] at hok
        exact hkeeps.outgoing _ hok
      · exact hkeeps.sent _ hframe
  messages q message hmessage := by
    rcases party_cases party q with rfl | rfl
    · rw [Link.advance_outstanding_self] at hmessage
      rw [Link.advance_seat_self, Link.advance_seat_other]
      exact hkeeps.incoming _ (hw.messages _ message hmessage)
    · rw [Link.advance_outstanding_other, List.mem_append] at hmessage
      rw [otherParty_otherParty, Link.advance_seat_self, Link.advance_seat_other]
      rcases hmessage with hmessage | hmessage
      · have hok := hw.messages _ message hmessage
        rw [otherParty_otherParty] at hok
        exact hkeeps.outgoing _ hok
      · exact hkeeps.sent _ (htracked message hmessage)

omit h in
theorem Agreement.consume (index : Nat) :
    Agreement adapter cfg R (w.consume party index) where
  ok := hw.ok
  aligned := hw.aligned
  frames := hw.frames
  messages q message hmessage := by
    rcases party_cases party q with rfl | rfl
    · rw [Link.consume_outstanding_self] at hmessage
      exact hw.messages _ message (List.mem_of_mem_eraseIdx hmessage)
    · rw [Link.consume_outstanding_other] at hmessage
      exact hw.messages _ message hmessage

/-- What a received message does, whichever way it arrived. -/
theorem Agreement.reacts {message : PeerMessage Move StateJson}
    (hmessage : MessageOk adapter cfg (otherParty party) (w.seat party)
      (w.seat (otherParty party)) message) :
    Reacts adapter cfg R party (w.seat party) (w.seat (otherParty party)) message :=
  reacts_message h (hw.ok party) (hw.ok _) (hw.aligned party) hmessage

theorem Agreement.keeps {message : PeerMessage Move StateJson}
    (hmessage : MessageOk adapter cfg (otherParty party) (w.seat party)
      (w.seat (otherParty party)) message) :
    Keeps adapter cfg R party (w.seat party) (w.seat (otherParty party))
      (onMessage adapter (cfg party) (w.seat party) message).1
      (onMessage adapter (cfg party) (w.seat party) message).2 :=
  (hw.reacts h hmessage).keeps h (hw.ok party) (hw.ok _) (hw.aligned party)

omit hw in
omit h in
theorem propose_ok {self : Config State Move} {move : Move} {timestamp : Int}
    {turn : Turn State Move} (hact : act self s (.propose move timestamp) = .ok turn) :
    ∃ p, s.pending = none ∧
      Derived self s p.move self.selfParty p.timestamp p.next p.update p.msg ∧
      p.sigSelf = self.sign p.msg ∧ turn.seat = { s with pending := some p } ∧
      turn.sent = [pendingMoveFrame self p] := by
  simp only [act, propose, returned] at hact
  obtain ⟨_, hseated, rfl⟩ := hact
  obtain ⟨hfree, _, _, _, hderived, rfl⟩ := seatPending_ok_iff.mp hseated
  exact ⟨_, hfree, hderived, rfl, rfl, rfl⟩

/-- No event disturbs the agreement of the seats. -/
theorem agreement_step {event : LinkEvent Move} (hstep : linkStep adapter cfg w event = some w') :
    Agreement adapter cfg R w' := by
  cases event with
  | propose party move timestamp =>
    simp only [linkStep] at hstep
    cases hact : act (cfg party) (w.seat party) (.propose move timestamp) with
    | error => simp [hact] at hstep
    | ok =>
      obtain ⟨_, hfree, hderived, hsig, hseat, hsent⟩ := propose_ok hact
      simp only [hact, Option.some.injEq, hseat, hsent] at hstep
      subst hstep
      apply hw.advance h
        (keeps_proposed (hw.ok party) (hw.aligned party) hfree hderived hsig)
      intro message hmessage
      split at hmessage
      · exact hmessage
      · cases hmessage
  | resend party =>
    simp only [linkStep, Option.some.injEq] at hstep
    subst hstep
    exact hw.advance h (keeps_same (hw.ok party) (hw.aligned party) messageOk_resent) (by simp)
  | disconnect =>
    simp only [linkStep, Option.some.injEq] at hstep
    subst hstep
    exact ⟨hw.ok, hw.aligned, hw.frames, by simp⟩
  | resumeKick party =>
    simp only [linkStep, Option.some.injEq] at hstep
    subst hstep
    have hkeeps : Keeps adapter cfg R party (w.seat party) (w.seat (otherParty party))
        (w.seat party) (.resync (sendResync adapter (w.seat party)) ::
          resent (cfg party) (w.seat party)) := by
      apply keeps_same (hw.ok party) (hw.aligned party)
      intro message hmessage
      rcases List.mem_cons.mp hmessage with rfl | hmessage
      · exact messageOk_sendResync h (hw.ok party) (hw.ok _) (hw.aligned party)
      · exact messageOk_resent message hmessage
    have hadvanced := hw.advance h hkeeps fun message hmessage => hmessage
    exact ⟨hadvanced.ok, hadvanced.aligned, hadvanced.frames, hadvanced.messages⟩
  | redeliver party =>
    simp only [linkStep, Option.map_eq_some_iff] at hstep
    obtain ⟨frame, hframe, rfl⟩ := hstep
    have hok := hw.frames party frame (List.mem_of_getElem? hframe)
    exact hw.advance h (hw.keeps h hok) (by simp)
  | deliver party index =>
    simp only [linkStep, Option.map_eq_some_iff] at hstep
    obtain ⟨message, hmessage, rfl⟩ := hstep
    have hok := hw.messages party message (List.mem_of_getElem? hmessage)
    exact (hw.consume index).advance h (hw.keeps h hok) fun reply hreply => hreply

end

theorem agreement_run {start : Party → Seat State Move}
    {history : List (LinkEntry State Move StateJson)}
    (hfresh : ∀ party, Fresh (start party))
    (hstart : ∀ party, R (start party).state (start (otherParty party)).state)
    (hrun : (linkSystem adapter cfg start).Run history w) : Agreement adapter cfg R w := by
  apply hrun.invariant (I := fun _ w => Agreement adapter cfg R w)
  · rintro _ _ ⟨-, rfl⟩
    refine ⟨?_, ?_, by simp, by simp⟩
    · intro party
      have hpending := (hfresh party).pending
      have hlatest := (hfresh party).latest
      constructor <;> intro x hx <;> simp_all
    · intro party
      left
      exact ⟨by rw [(hfresh party).nonce, (hfresh _).nonce], hstart party⟩
  · rintro _ w entry w' - hw ⟨rfl, hstep⟩
    exact agreement_step h hw hstep

end

/-- Every pending proposal of a seat that is back has its MOVE or the acknowledgement of it
still on its way. -/
def Due (cfg : Party → Config State Move) (w : Link State Move StateJson) : Prop :=
  ∀ party p, (w.seat party).pending = some p → w.resynced party = false ∨
    .frame (pendingMoveFrame (cfg party) p) ∈ w.outstanding (otherParty party) ∨
    ∃ sig, .frame (.ack ⟨p.update.nonce, sig⟩) ∈ w.outstanding party

theorem mem_outstanding_or {index : Nat} {message other : PeerMessage Move StateJson}
    (hmessage : (w.outstanding party)[index]? = some message)
    (hother : other ∈ w.outstanding party) :
    other = message ∨ other ∈ (w.outstanding party).eraseIdx index := by
  obtain ⟨hlt, hget⟩ := List.getElem?_eq_some_iff.mp hmessage
  have hperm := List.getElem_cons_eraseIdx_perm hlt
  rw [← hperm.mem_iff, List.mem_cons, hget] at hother
  exact hother

theorem Due.advance (hdue : Due cfg w)
    (hself : ∀ p, s.pending = some p → (w.seat party).pending = some p ∨
      w.resynced party = false ∨ .frame (pendingMoveFrame (cfg party) p) ∈ tracked) :
    Due cfg (w.advance party s sent tracked) := by
  intro q p hp
  rcases party_cases party q with rfl | rfl
  · rw [Link.advance_seat_self] at hp
    rw [Link.advance_outstanding_self, Link.advance_outstanding_other, List.mem_append]
    rcases hself p hp with hold | hback | hnew
    · rcases hdue _ p hold with hback | hmove | hack
      · exact .inl hback
      · exact .inr (.inl (.inl hmove))
      · exact .inr (.inr hack)
    · exact .inl hback
    · exact .inr (.inl (.inr hnew))
  · rw [Link.advance_seat_other] at hp
    rcases hdue _ p hp with hback | hmove | ⟨sig, hack⟩
    · exact .inl hback
    · rw [otherParty_otherParty] at hmove ⊢
      rw [Link.advance_outstanding_self]
      exact .inr (.inl hmove)
    · rw [Link.advance_outstanding_other]
      exact .inr (.inr ⟨sig, List.mem_append_left _ hack⟩)

theorem Due.deliver {index : Nat} {message : PeerMessage Move StateJson}
    (hdue : Due cfg w) (ht : SeatOk cfg (otherParty party) (w.seat (otherParty party)))
    (hmessage : (w.outstanding party)[index]? = some message)
    (hreaction : Reaction adapter cfg R party (w.seat party) (w.seat (otherParty party)) message
      s sent)
    (horder : ∀ frame, message = .frame (.move frame) →
      frame.nonce ≤ (w.seat party).nonce + 1) :
    Due cfg ((w.consume party index).advance party s sent sent) := by
  intro q p hp
  rcases party_cases party q with rfl | rfl
  · rw [Link.advance_seat_self] at hp
    rw [Link.advance_outstanding_self, Link.advance_outstanding_other,
      Link.consume_outstanding_self, Link.consume_outstanding_other]
    rcases hdue _ p (hreaction.pending_old hp) with hback | hmove | ⟨sig, hack⟩
    · exact .inl hback
    · exact .inr (.inl (List.mem_append_left _ hmove))
    · rcases mem_outstanding_or hmessage hack with harrived | hstill
      · exact absurd harrived.symm (hreaction.not_awaited hp sig)
      · exact .inr (.inr ⟨sig, hstill⟩)
  · rw [Link.advance_seat_other] at hp
    rw [otherParty_otherParty, Link.advance_outstanding_self, Link.advance_outstanding_other,
      Link.consume_outstanding_self, Link.consume_outstanding_other]
    rcases hdue _ p hp with hback | hmove | ⟨sig, hack⟩
    · exact .inl hback
    · rw [otherParty_otherParty] at hmove
      rcases mem_outstanding_or hmessage hmove with harrived | hstill
      · have hnonce := horder _ harrived.symm
        have hnext := (ht.derived p hp).nonce
        obtain ⟨sig, hsig⟩ := hreaction.acknowledges ht hp harrived.symm
          (by simp only at hnonce; omega)
        exact .inr (.inr ⟨sig, List.mem_append_right _ hsig⟩)
      · exact .inr (.inl hstill)
    · exact .inr (.inr ⟨sig, List.mem_append_left _ hack⟩)

/-- After a drop neither seat is back. -/
theorem due_disconnect {event : LinkEvent Move} (hdrop : event.isDisconnect = true)
    (hstep : linkStep adapter cfg w event = some w') : Due cfg w' := by
  cases event <;> cases hdrop
  simp only [linkStep, Option.some.injEq] at hstep
  subst hstep
  intro party p _
  exact .inl rfl

section

variable (h : Connected protocol adapter R cfg)
include h

theorem due_step {event : LinkEvent Move} (hw : Agreement adapter cfg R w) (hdue : Due cfg w)
    (horder : inOrder (w, event) = true) (hstep : linkStep adapter cfg w event = some w') :
    Due cfg w' := by
  cases event with
  | propose party move timestamp =>
    simp only [linkStep] at hstep
    cases hact : act (cfg party) (w.seat party) (.propose move timestamp) with
    | error => simp [hact] at hstep
    | ok =>
      obtain ⟨p, -, -, -, hseat, hsent⟩ := propose_ok hact
      simp only [hact, Option.some.injEq, hseat, hsent] at hstep
      subst hstep
      apply hdue.advance
      intro q hq
      cases hq
      cases hback : w.resynced party with
      | false => exact .inr (.inl rfl)
      | true => exact .inr (.inr (by simp))
  | resend =>
    simp only [linkStep, Option.some.injEq] at hstep
    subst hstep
    exact hdue.advance fun p hp => .inl hp
  | disconnect => exact due_disconnect rfl hstep
  | resumeKick party =>
    simp only [linkStep, Option.some.injEq] at hstep
    subst hstep
    intro q p hp
    rcases party_cases party q with rfl | rfl
    · right
      left
      simp only [Link.advance_seat_self] at hp
      simp [resent, resendPending, hp]
    · have hadvanced (sent : List (PeerMessage Move StateJson)) :
          Due cfg (w.advance party (w.seat party) sent sent) :=
        hdue.advance fun p hp => .inl hp
      rcases hadvanced _ _ p hp with hback | hother
      · left
        simp only [Function.update_of_ne (otherParty_ne party)]
        exact hback
      · exact .inr hother
  | redeliver party =>
    simp only [linkStep, Option.map_eq_some_iff] at hstep
    obtain ⟨frame, hframe, rfl⟩ := hstep
    have hreacts := hw.reacts h (hw.frames party frame (List.mem_of_getElem? hframe))
    exact hdue.advance fun p hp => .inl (hreacts.pending_old hp)
  | deliver party =>
    simp only [linkStep, Option.map_eq_some_iff] at hstep
    obtain ⟨message, hmessage, rfl⟩ := hstep
    have hreacts := hw.reacts h (hw.messages party message (List.mem_of_getElem? hmessage))
    apply hdue.deliver (hw.ok _) hmessage hreacts
    intro frame hframe
    rw [hframe] at hmessage
    simpa [inOrder, hmessage] using horder

theorem due_run {start : Party → Seat State Move} {history : List (LinkEntry State Move StateJson)}
    (hfresh : ∀ party, Fresh (start party))
    (hstart : ∀ party, R (start party).state (start (otherParty party)).state)
    (hrun : (linkSystem adapter cfg start).Run history w)
    (horder : ∀ entry ∈ sinceDisconnect history, inOrder entry = true) : Due cfg w := by
  induction hrun with
  | start hinit =>
    obtain ⟨-, rfl⟩ := hinit
    intro party p hp
    exact .inl rfl
  | @step _ _ _ entry hbefore hstep ih =>
    obtain ⟨rfl, hstep⟩ := hstep
    cases hdrop : entry.2.isDisconnect with
    | true => exact due_disconnect hdrop hstep
    | false =>
      rw [sinceDisconnect, List.rtakeWhile_concat_pos _ _ _ (by simp [hdrop])] at horder
      have hdue := ih fun earlier hearlier => horder earlier (List.mem_append_left _ hearlier)
      exact due_step h (agreement_run h hfresh hstart hbefore) hdue (horder _ (by simp)) hstep

theorem Agreement.agree (hw : Agreement adapter cfg R w) (party : Party) :
    Agree protocol (w.seat party) (w.seat (otherParty party)) := by
  have haligned := hw.aligned party
  refine ⟨?_, fun hnonce => (h.replicas .A).encodeState _ _ (haligned.level hnonce).2⟩
  rcases haligned with hlevel | ⟨p, held, hbehind⟩ | ⟨p, held, hahead⟩
  · have hnonce := hlevel.1
    omega
  · have hnonce := hbehind.nonce
    omega
  · have hnonce := hahead.nonce
    omega

/-- With nothing on its way nothing is pending, and then the seats are level. -/
theorem Agreement.converged (hw : Agreement adapter cfg R w) (hdue : Due cfg w)
    (hsettled : w.settled = true) :
    Converged protocol (w.seat .A) (w.seat .B) := by
  simp only [Link.settled, Bool.and_eq_true, List.isEmpty_iff] at hsettled
  obtain ⟨⟨⟨hbackA, hbackB⟩, hemptyA⟩, hemptyB⟩ := hsettled
  have hback (party : Party) : w.resynced party = true ∧ w.outstanding party = [] := by
    cases party
    · exact ⟨hbackA, hemptyA⟩
    · exact ⟨hbackB, hemptyB⟩
  have hfree (party : Party) : (w.seat party).pending = none := by
    cases hpending : (w.seat party).pending with
    | none => rfl
    | some p =>
      rcases hdue party p hpending with haway | hmove | ⟨sig, hack⟩
      · rw [(hback party).1] at haway
        cases haway
      · rw [(hback _).2] at hmove
        cases hmove
      · rw [(hback party).2] at hack
        cases hack
  have hlevel : Level R (w.seat .A) (w.seat .B) := by
    rcases hw.aligned .A with hlevel | ⟨p, held, hbehind⟩ | ⟨p, held, hahead⟩
    · exact hlevel
    · have hpending := hbehind.pending
      rw [hfree] at hpending
      cases hpending
    · have hpending := hahead.pending
      rw [hfree] at hpending
      cases hpending
  exact ⟨hlevel.1, (h.replicas .A).encodeState _ _ hlevel.2, hfree .A, hfree .B⟩

end

theorem HonestPair.connected {crypto : Crypto} {options : Party → DistributedConfig Move}
    {initialBalances : Balances} {start : Party → Seat State Move}
    (hpair : HonestPair crypto protocol options initialBalances cfg start)
    (hkeys : KeysWork cfg) (hturn : protocol.TurnBased)
    (hreplicas : ∀ party, Replicas protocol (cfg party).codec adapter R) :
    Connected protocol adapter R cfg where
  turnBased := hturn
  replicas := hreplicas
  keys := hkeys
  side party := by rw [(create_ok (hpair.created party)).selfParty, hpair.side]
  protocol party := (create_ok (hpair.created party)).protocol
  crypto p q := by rw [(create_ok (hpair.created p)).crypto, (create_ok (hpair.created q)).crypto]
  tunnelId p q := by
    rcases party_cases p q with rfl | rfl
    · rfl
    · exact (hpair.same_tunnelId p).symm
  total p q := by rw [(create_ok (hpair.created p)).total, (create_ok (hpair.created q)).total]

/-- Two honest seats are never more than one move apart and agree at the same nonce. Once
everything of the exchange after the last drop has arrived, in order, they are level and have
answered each other. -/
theorem seats_agree_and_catch_up {crypto : Crypto}
    {options : Party → DistributedConfig Move} {initialBalances : Balances}
    {start : Party → Seat State Move} {history : List (LinkEntry State Move StateJson)}
    (hpair : HonestPair crypto protocol options initialBalances cfg start)
    (hkeys : KeysWork cfg) (hturn : protocol.TurnBased)
    (hreplicas : ∀ party, Replicas protocol (cfg party).codec adapter R)
    (hrun : (linkSystem adapter cfg start).Run history w) :
    Agree protocol (w.seat .A) (w.seat .B) ∧
      ((∀ entry ∈ sinceDisconnect history, inOrder entry = true) → w.settled = true →
        Converged protocol (w.seat .A) (w.seat .B)) := by
  have hconnected := hpair.connected hkeys hturn hreplicas
  have hfresh (party : Party) := (create_ok (hpair.created party)).fresh
  have hstart (party : Party) : R (start party).state (start (otherParty party)).state := by
    rw [(create_ok (hpair.created party)).state, (create_ok (hpair.created _)).state,
      hpair.tunnelId party]
    exact (hreplicas party).initial _
  have hagreement := agreement_run hconnected hfresh hstart hrun
  refine ⟨hagreement.agree hconnected .A, ?_⟩
  intro horder hsettled
  exact hagreement.converged hconnected (due_run hconnected hfresh hstart hrun horder) hsettled

def linkReplay (adapter : ResumeAdapter State Move StateJson MoveJson)
    (cfg : Party → Config State Move) : Link State Move StateJson →
    List (LinkEntry State Move StateJson) → List (LinkEvent Move) →
    Except Unit (Link State Move StateJson × List (LinkEntry State Move StateJson)) :=
  System.replay fun w event =>
    match linkStep adapter cfg w event with
    | none => .error ()
    | some w' => .ok ((w, event), w')

theorem linkReplay_run {start : Party → Seat State Move}
    {history history' : List (LinkEntry State Move StateJson)} {events : List (LinkEvent Move)}
    (hrun : (linkSystem adapter cfg start).Run history w)
    (h : linkReplay adapter cfg w history events = .ok (w', history')) :
    (linkSystem adapter cfg start).Run history' w' := by
  refine System.replay_run hrun h fun w event entry w' hnext => ?_
  split at hnext
  · cases hnext
  · next hstep =>
      cases hnext
      exact ⟨rfl, hstep⟩

namespace Sample

theorem keysWork_sample (protocol : Protocol State Move) (total : Int) :
    KeysWork (config protocol total) where
  opponent party message := by simp [config, endpoint]
  partyA party message := by cases party <;> simp [config, crypto, endpoint, partyA, otherParty]
  partyB party message := by cases party <;> simp [config, crypto, endpoint, partyB, otherParty]
  schemeA party := by cases party <;> rfl
  schemeB party := by cases party <;> rfl

/-- Where moves and states are sent as they are, replicas are equal. -/
theorem replicas_plain (protocol : Protocol State Move) :
    Replicas protocol id (plainAdapter State Move) Eq where
  initial _ := rfl
  symm _ _ h := h.symm
  encodeState _ _ h := by rw [h]
  balances _ _ h := by rw [h]
  applyMove s t move party next h hnext := ⟨next, by rw [← h]; exact hnext, rfl⟩
  adapter s _ _ := ⟨s, rfl, rfl⟩

def boardLink : Link Games.TicTacToeState Games.TicTacToeMove Games.TicTacToeState :=
  ⟨fun _ => boardSeat, fun _ => [], fun _ => false, fun _ => []⟩

def linkedReplay := linkReplay (plainAdapter Games.TicTacToeState Games.TicTacToeMove)
  boardConfig boardLink []

/-- Party A moves, party B co-signs and moves in turn. Nothing party B sent arrives before
the connection drops, and both come back. -/
def dropped : List (LinkEvent Games.TicTacToeMove) :=
  [.propose .A (mark 0) 5, .redeliver .B 0, .propose .B (mark 1) 6, .disconnect,
    .resumeKick .A, .resumeKick .B]

/-- Party B's MOVE overtakes its resync, and then the acknowledgement from before the drop
arrives. -/
def overtaken : List (LinkEvent Games.TicTacToeMove) :=
  dropped ++ [.deliver .A 1, .redeliver .A 0, .deliver .A 0, .deliver .B 0, .deliver .B 0,
    .deliver .A 0]

/-- Another drop, and everything of the new exchange arrives in the order it was sent. -/
def droppedAgain : List (LinkEvent Games.TicTacToeMove) :=
  overtaken ++ [.disconnect, .resumeKick .A, .resumeKick .B, .deliver .A 0, .deliver .A 0,
    .deliver .B 0, .deliver .B 0, .deliver .A 0, .deliver .B 0]

theorem honestPair_board : HonestPair crypto ticTacToe (options Games.TicTacToeMove) ⟨500, 500⟩
    boardConfig fun _ => boardSeat :=
  honestPair_sample ticTacToe ⟨500, 500⟩ (by decide)

end Sample

/-- The seats catch up in the second exchange, whatever went wrong in the first. -/
theorem seats_agree_and_catch_up_board : ∃ w history,
    Sample.linkedReplay Sample.droppedAgain = .ok (w, history) ∧ w.settled = true ∧
      (w.seat .A).nonce = 2 ∧ Converged Sample.ticTacToe (w.seat .A) (w.seat .B) := by
  have heval : (Sample.linkedReplay Sample.droppedAgain).map (fun r =>
      (r.1.settled, (r.1.seat .A).nonce, (sinceDisconnect r.2).all inOrder)) =
        .ok (true, 2, true) := by
    decide +kernel
  obtain ⟨⟨w, history⟩, hreplay, hfacts⟩ := map_ok_iff.mp heval
  simp only [Prod.mk.injEq, List.all_eq_true] at hfacts
  obtain ⟨hsettled, hnonce, horder⟩ := hfacts
  exact ⟨w, history, hreplay, hsettled, hnonce, (seats_agree_and_catch_up Sample.honestPair_board
    (Sample.keysWork_sample _ _) (Games.TicTacToe.turnBased _ _)
    (fun _ => Sample.replicas_plain _)
    (linkReplay_run (.start ⟨rfl, rfl⟩) hreplay)).2 horder hsettled⟩

/-- A MOVE that arrives before the one it follows is refused and not asked for again. Both
seats are back, everything has arrived, and party B still waits for an answer. -/
theorem proposal_unanswered_after_overtaking :
    HonestPair Sample.crypto Sample.ticTacToe (Sample.options Games.TicTacToeMove) ⟨500, 500⟩
        Sample.boardConfig (fun _ => Sample.boardSeat) ∧
      KeysWork Sample.boardConfig ∧ Sample.ticTacToe.TurnBased ∧
      (∀ party, Replicas Sample.ticTacToe (Sample.boardConfig party).codec
        (Sample.plainAdapter _ _) Eq) ∧
      ∃ w history, (linkSystem (Sample.plainAdapter _ _) Sample.boardConfig
          fun _ => Sample.boardSeat).Run history w ∧
        w.settled = true ∧ (w.seat .B).pending.isSome = true ∧
        ¬Converged Sample.ticTacToe (w.seat .A) (w.seat .B) := by
  refine ⟨Sample.honestPair_board, Sample.keysWork_sample _ _, Games.TicTacToe.turnBased _ _,
    fun _ => Sample.replicas_plain _, ?_⟩
  have heval : (Sample.linkedReplay Sample.overtaken).map (fun r =>
      (r.1.settled, (r.1.seat .B).pending.isSome)) = .ok (true, true) := by
    decide +kernel
  obtain ⟨⟨w, history⟩, hreplay, hfacts⟩ := map_ok_iff.mp heval
  simp only [Prod.mk.injEq] at hfacts
  obtain ⟨hsettled, hpending⟩ := hfacts
  refine ⟨w, history, linkReplay_run (.start ⟨rfl, rfl⟩) hreplay, hsettled, hpending, ?_⟩
  intro hconverged
  rw [hconverged.answered.2] at hpending
  cases hpending

end DopamintArena.Engine
