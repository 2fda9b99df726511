import DopamintArena.Engine.Runs

/-!
A seat together with everything it has signed. What others can present to it
under its own name is limited to that: a checkpoint that carries a valid
signature of the seat carries one the seat made.
-/

namespace DopamintArena.Engine

open Foundation
open DopamintArena.Move (domainStart domainStart_append domainStart_stateUpdate)

variable {State Move : Type} {cfg : Config State Move} {s : Seat State Move}

def Signed.message : Signed → Except String Bytes
  | .update u => serializeStateUpdate u
  | .settlement s => serializeSettlement s
  | .settlementWithRoot s => serializeSettlementWithRoot s

def updatesOf (signed : List Signed) : List StateUpdate := signed.filterMap Signed.update?

@[simp] theorem updatesOf_append (signed signed' : List Signed) :
    updatesOf (signed ++ signed') = updatesOf signed ++ updatesOf signed' := by
  simp [updatesOf]

theorem mem_updatesOf {signed : List Signed} {u : StateUpdate} :
    u ∈ updatesOf signed ↔ Signed.update u ∈ signed := by
  simp only [updatesOf, List.mem_filterMap]
  constructor
  · rintro ⟨item, hmem, hitem⟩
    cases item <;> simp only [Signed.update?, Option.some.injEq, reduceCtorEq] at hitem
    rw [← hitem]
    exact hmem
  · intro hmem
    exact ⟨_, hmem, rfl⟩

/-- This seat's signature in a co-signed update. -/
def ownHalf (cfg : Config State Move) (coSigned : CoSignedUpdate) : Bytes :=
  match cfg.selfParty with
  | .A => coSigned.sigA
  | .B => coSigned.sigB

/-- A checkpoint carries no signature of this seat that the seat did not make. -/
def Unforged (cfg : Config State Move) (signed : List Signed) (input : Input State Move) :
    Prop :=
  ∀ state coSigned msg, input = .adoptCheckpoint state coSigned →
    serializeStateUpdate coSigned.update = .ok msg →
    cfg.crypto.ed25519Verify (ownHalf cfg coSigned) msg cfg.self.publicKey = true →
    ∃ item ∈ signed, item.message = .ok msg

theorem unforged_of_play {signed : List Signed} {input : Input State Move}
    (hplay : ∀ state coSigned, input ≠ .adoptCheckpoint state coSigned) :
    Unforged cfg signed input := by
  intro state coSigned msg hinput
  exact absurd hinput (hplay state coSigned)

theorem domainStart_update {u : StateUpdate} {msg : Bytes}
    (h : serializeStateUpdate u = .ok msg) :
    domainStart msg = bytesOf "sui_tunnel::st" := by
  obtain ⟨_, -, -, rfl⟩ := serializeStateUpdate_ok_iff.mp h
  exact domainStart_stateUpdate _

/-- Nothing but an update has the message of an update. -/
theorem Signed.of_message {item : Signed} {u : StateUpdate} {msg : Bytes}
    (hitem : item.message = .ok msg) (hu : serializeStateUpdate u = .ok msg) :
    ∃ v, item = .update v ∧ serializeStateUpdate v = .ok msg := by
  have hdomain := domainStart_update hu
  cases item with
  | update v => exact ⟨v, rfl, hitem⟩
  | settlement =>
    simp only [Signed.message, serializeSettlement, returned, List.append_assoc] at hitem
    obtain ⟨_, -, _, -, _, -, _, -, _, -, rfl⟩ := hitem
    rw [domainStart_append (by decide)] at hdomain
    exact absurd hdomain (by decide)
  | settlementWithRoot =>
    simp only [Signed.message, serializeSettlementWithRoot, returned, List.append_assoc] at hitem
    obtain ⟨-, _, -, _, -, _, -, _, -, _, -, rfl⟩ := hitem
    rw [domainStart_append (by decide)] at hdomain
    exact absurd hdomain (by decide)

/-- A checkpoint a seat can adopt is one it has signed. -/
theorem Unforged.signed {signed : List Signed} {state : State} {coSigned : CoSignedUpdate}
    {msg : Bytes} (h : Unforged cfg signed (.adoptCheckpoint state coSigned))
    (htunnel : ∀ u ∈ updatesOf signed, u.tunnelId = cfg.tunnelId)
    (hadoptable : Adoptable cfg s state coSigned msg) :
    coSigned.update ∈ updatesOf signed := by
  have hverified : cfg.crypto.ed25519Verify (ownHalf cfg coSigned) msg cfg.self.publicKey =
      true := by
    have hA := hadoptable.verifiedA
    have hB := hadoptable.verifiedB
    cases hside : cfg.selfParty <;> simp only [partyA, partyB, hside] at hA hB <;>
      simp only [ownHalf, hside] <;> assumption
  obtain ⟨_, hmem, hmessage⟩ :=
    h state coSigned msg rfl hadoptable.serialized hverified
  obtain ⟨v, rfl, hv⟩ := Signed.of_message hmessage hadoptable.serialized
  have hvmem := mem_updatesOf.mpr hmem
  have hsame := serializeStateUpdate_inj
    (hadoptable.tunnelId.trans (htunnel v hvmem).symm) hadoptable.serialized hv
  rw [hsame]
  exact hvmem

/-- A checkpoint at the seat's own nonce is for the state the seat is in. -/
def KeepsOwnState (s : Seat State Move) (input : Input State Move) : Prop :=
  ∀ state coSigned, input = .adoptCheckpoint state coSigned →
    coSigned.update.nonce = s.nonce → state = s.state

/-- A seat and what it has signed. -/
structure Signer (State Move : Type) where
  seat : Seat State Move
  signed : List Signed

/-- The runs of one seat whose signatures nobody forges. -/
def signerSystem (cfg : Config State Move) (start : Seat State Move) :
    System (Signer State Move) (SeatEntry State Move) where
  init history w := history = [] ∧ w = ⟨start, []⟩
  step w entry w' := act cfg w.seat entry.input = .ok entry.turn ∧ entry.before = w.seat ∧
    Unforged cfg w.signed entry.input ∧
    w' = ⟨entry.turn.seat, w.signed ++ entry.turn.signed⟩

theorem signer_grounded {start : Seat State Move} {history : List (SeatEntry State Move)}
    {w : Signer State Move} (hfresh : Fresh start)
    (hrun : (signerSystem cfg start).Run history w) :
    Grounded cfg (updatesOf w.signed) w.seat := by
  apply hrun.invariant (I := fun _ w => Grounded cfg (updatesOf w.signed) w.seat)
  · rintro _ _ ⟨-, rfl⟩
    exact grounded_fresh hfresh
  · rintro _ _ _ _ - hgrounded ⟨hact, -, -, rfl⟩
    rw [updatesOf_append]
    exact grounded_effect hgrounded (act_effect hact)

end DopamintArena.Engine
