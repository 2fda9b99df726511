import DopamintArena.Engine.Runs

/-!
What a seat has checked about the updates it holds: the tunnel, the length of
the hash, the sum of the shares, and for its latest update both signatures.
-/

namespace DopamintArena.Engine

open Foundation

variable {State Move : Type} {cfg : Config State Move} {s : Seat State Move}
variable {move : Move} {party : Party} {timestamp : Int} {next : State} {update : StateUpdate}
variable {msg : Bytes}

/-- A signature of `party` by one of the checks a seat makes: its own signer made it, it
verified as the opponent's, or it verified inside a checkpoint. -/
def ValidSignature (cfg : Config State Move) (party : Party) (message signature : Bytes) :
    Prop :=
  party = cfg.selfParty ∧ signature = cfg.sign message ∨
  party = otherParty cfg.selfParty ∧ cfg.opponent.verify message signature = true ∨
  cfg.crypto.ed25519Verify signature message
    (match party with
      | .A => (partyA cfg).publicKey
      | .B => (partyB cfg).publicKey) = true

/-- What a seat has established about an update before it signs it or keeps it. -/
structure Presentable (cfg : Config State Move) (u : StateUpdate) (message : Bytes) :
    Prop where
  tunnelId : u.tunnelId = cfg.tunnelId
  hashLength : u.stateHash.length = 32
  balanced : u.partyABalance + u.partyBBalance = cfg.total
  serialized : serializeStateUpdate u = .ok message

/-- An update with both signatures checked. -/
structure FullySigned (cfg : Config State Move) (held : CoSignedUpdate) (message : Bytes) :
    Prop where
  presentable : Presentable cfg held.update message
  sigA : ValidSignature cfg .A message held.sigA
  sigB : ValidSignature cfg .B message held.sigB

/-- What a seat holds is presentable, and what it holds as its latest is fully signed. -/
structure Sound (cfg : Config State Move) (s : Seat State Move) : Prop where
  pending : ∀ p, s.pending = some p → Presentable cfg p.update p.msg ∧
    p.sigSelf = cfg.sign p.msg
  latest : ∀ held, s.latest = some held → ∃ message, FullySigned cfg held message

theorem Derived.presentable (h : Derived cfg s move party timestamp next update msg) :
    Presentable cfg update msg := by
  obtain ⟨encoded, -, hhash⟩ := h.describes.encoded
  refine ⟨h.describes.tunnelId, ?_, h.describes.balanced, h.serialized⟩
  rw [hhash]
  exact Bytes32.length_bytes _

/-- The two halves of a co-signed update end up on the right sides. -/
theorem fullySigned_coSign {u : StateUpdate} {sigOther : Bytes}
    (hpresentable : Presentable cfg u msg) (hother : cfg.opponent.verify msg sigOther = true) :
    FullySigned cfg (coSign cfg u (cfg.sign msg) sigOther) msg := by
  cases hside : cfg.selfParty with
  | A =>
    simp only [coSign, hside]
    exact ⟨hpresentable, .inl ⟨hside.symm, rfl⟩, .inr (.inl ⟨by rw [hside]; rfl, hother⟩)⟩
  | B =>
    simp only [coSign, hside]
    exact ⟨hpresentable, .inr (.inl ⟨by rw [hside]; rfl, hother⟩), .inl ⟨hside.symm, rfl⟩⟩

theorem Sound.dropOvertaken (h : Sound cfg s) (nonce : Int) :
    ∀ p, dropOvertaken s.pending nonce = some p → Presentable cfg p.update p.msg ∧
      p.sigSelf = cfg.sign p.msg := by
  intro p hp
  exact h.pending p (dropOvertaken_some.mp hp).1

theorem sound_seated (h : Sound cfg s)
    (hderived : Derived cfg s move party timestamp next update msg) :
    Sound cfg { s with pending := some (proposal cfg move timestamp next update msg) } where
  pending p hp := by
    cases hp
    exact ⟨hderived.presentable, rfl⟩
  latest := h.latest

theorem sound_effect {input : Input State Move} {turn : Turn State Move} (h : Sound cfg s)
    (heffect : Effect cfg s input turn) : Sound cfg turn.seat := by
  cases heffect with
  | idle => exact h
  | resent => exact h
  | reacked => exact h
  | half => exact h
  | halfWithRoot => exact h
  | seated _ _ _ _ _ _ hderived | proposed _ _ _ _ _ _ hderived => exact sound_seated h hderived
  | accepted _ _ _ msg _ _ hderived hmatches =>
    refine ⟨h.dropOvertaken _, ?_⟩
    intro held hheld
    cases hheld
    exact ⟨msg, fullySigned_coSign hderived.presentable hmatches.verified⟩
  | acked _ p hpending _ _ hverified =>
    obtain ⟨hpresentable, hsig⟩ := h.pending p hpending
    refine ⟨fun p' hp' => (by cases hp'), ?_⟩
    intro held hheld
    cases hheld
    refine ⟨p.msg, ?_⟩
    rw [hsig]
    exact fullySigned_coSign hpresentable hverified
  | adopted _ _ msg hadoptable =>
    refine ⟨h.dropOvertaken _, ?_⟩
    intro held hheld
    cases hheld
    obtain ⟨encoded, -, hhash⟩ := hadoptable.encoded
    refine ⟨msg, ⟨hadoptable.tunnelId, ?_, hadoptable.balanced, hadoptable.serialized⟩,
      .inr (.inr hadoptable.verifiedA), .inr (.inr hadoptable.verifiedB)⟩
    rw [hhash]
    exact Bytes32.length_bytes _

theorem sound_fresh (hfresh : Fresh s) : Sound cfg s where
  pending p h := by rw [hfresh.pending] at h; cases h
  latest held h := by rw [hfresh.latest] at h; cases h

end DopamintArena.Engine
