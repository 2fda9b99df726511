import DopamintArena.Engine.Pair
import DopamintArena.Foundation.Bisimulation

/-!
What a fully signed update says about the state it is adopted with.
`adoptCheckpoint` compares the hash of the state's encoding, and nothing else
of the state, so an update pins the game exactly if states with one encoding
behave alike from then on.
-/

namespace DopamintArena.Engine

open Foundation

variable {State Move : Type}

/-- What the engine reads off a state. -/
structure Shown where
  encoded : Except String Bytes
  balances : Balances
  isTerminal : Bool

/-- A protocol as a machine over moves by either seat. -/
def Protocol.reactive (protocol : Protocol State Move) :
    Reactive State (Move × Party) Shown String where
  step state turn := protocol.applyMove state turn.1 turn.2
  view state :=
    ⟨protocol.encodeState state, protocol.balances state, protocol.isTerminal state⟩

/-- The two states show the same, and so do the states that any moves accepted from both
lead to, where the same moves by the same seats are legal. -/
def Protocol.SameBehaviour (protocol : Protocol State Move) (state state' : State) : Prop :=
  Reactive.SameBehaviour protocol.reactive protocol.reactive state state'

/-- States with the same encoding behave alike. -/
def Protocol.EncodesBehaviour (protocol : Protocol State Move) : Prop :=
  ∀ state state' bytes, protocol.encodeState state = .ok bytes →
    protocol.encodeState state' = .ok bytes → protocol.SameBehaviour state state'

/-- The encoding determines what the protocol reads: it never reads what `erase` takes out of a
state, and states with one encoding differ in nothing else. -/
def Protocol.EncodesRead (protocol : Protocol State Move) : Prop :=
  ∃ erase : State → State, protocol.reactive.Blind erase ∧
    ∀ state state' bytes, protocol.encodeState state = .ok bytes →
      protocol.encodeState state' = .ok bytes → erase state = erase state'

theorem Protocol.EncodesRead.encodesBehaviour {protocol : Protocol State Move}
    (h : protocol.EncodesRead) : protocol.EncodesBehaviour := by
  obtain ⟨erase, hblind, hinj⟩ := h
  intro state state' bytes hstate hstate'
  exact hblind.bisimulation.sameBehaviour (hinj state state' bytes hstate hstate')

/-- The configuration runs this protocol with this hash. -/
structure Drives (hash : Bytes → Bytes32) (protocol : Protocol State Move)
    (cfg : Config State Move) : Prop where
  protocol : cfg.protocol = protocol
  hash : cfg.crypto.blake2b256 = hash

/-- The seat takes the state over: the update is not older than what it has, and
`adoptCheckpoint` does not throw. -/
def Adopts (cfg : Config State Move) (seat : Seat State Move) (state : State)
    (coSigned : CoSignedUpdate) : Prop :=
  seat.nonce ≤ coSigned.update.nonce ∧ ∃ turn, adoptCheckpoint cfg seat state coSigned = .ok turn

/-- The hash tells the encodings of the two states apart. -/
def Separates (hash : Bytes → Bytes32) (protocol : Protocol State Move) (state state' : State) :
    Prop :=
  ∀ bytes bytes', protocol.encodeState state = .ok bytes →
    protocol.encodeState state' = .ok bytes' → hash bytes = hash bytes' → bytes = bytes'

/-- Any two states that seats take over for one update behave alike. -/
def CheckpointsPin (hash : Bytes → Bytes32) (protocol : Protocol State Move) : Prop :=
  ∀ cfg cfg' seat seat' state state' coSigned, Drives hash protocol cfg →
    Drives hash protocol cfg' → Adopts cfg seat state coSigned →
    Adopts cfg' seat' state' coSigned → Separates hash protocol state state' →
    protocol.SameBehaviour state state'

variable {hash : Bytes → Bytes32} {protocol : Protocol State Move}

theorem Adopts.encoded {cfg : Config State Move} {seat : Seat State Move} {state : State}
    {coSigned : CoSignedUpdate} (h : Adopts cfg seat state coSigned)
    (hcfg : Drives hash protocol cfg) :
    ∃ bytes, protocol.encodeState state = .ok bytes ∧
      coSigned.update.stateHash = (hash bytes).bytes := by
  obtain ⟨_, _, hturn⟩ := h
  rcases adoptCheckpoint_ok hturn with ⟨_, -⟩ | ⟨_, hadoptable, -⟩
  · omega
  · obtain ⟨bytes, hbytes, hhash⟩ := hadoptable.encoded
    rw [hcfg.protocol] at hbytes
    rw [hcfg.hash] at hhash
    exact ⟨bytes, hbytes, hhash⟩

/-- A tunnel with keys that sign by repeating the message, over any hash. -/
def openConfig (hash : Bytes → Bytes32) (protocol : Protocol State Move) : Config State Move :=
  { Sample.config protocol 0 .A with
    crypto := { Sample.crypto with blake2b256 := hash } }

def openSeat (state : State) : Seat State Move := ⟨state, 0, none, none⟩

/-- The first update, over some bytes, signed by both keys. -/
def openUpdate (hash : Bytes → Bytes32) (bytes : Bytes) : StateUpdate :=
  ⟨"0x7", (hash bytes).bytes, 1, 1, 0, 0⟩

theorem exists_adopts (hash : Bytes → Bytes32) (protocol : Protocol State Move)
    (bytes : Bytes) : ∃ coSigned, ∀ state : State, protocol.encodeState state = .ok bytes →
      Adopts (openConfig hash protocol) (openSeat state) state coSigned := by
  have hzero : IsU64 0 := by decide
  have hone : IsU64 1 := by decide
  have hencodable : (openUpdate hash bytes).Encodable := ⟨hone, hone, hzero, hzero⟩
  have hid : ∃ id, addressToBytes32 "0x7" = .ok id := exists_ok_of_isOk (by decide +kernel)
  obtain ⟨id, hid⟩ := hid
  have hmsg := hencodable.serialized hid
  have hnotOlder : (0 : Int) ≤ 1 := by decide
  refine ⟨⟨openUpdate hash bytes,
    Sample.key .A ++ DopamintArena.Move.serializeStateUpdate ((openUpdate hash bytes).onChain id),
    Sample.key .B ++ DopamintArena.Move.serializeStateUpdate
      ((openUpdate hash bytes).onChain id)⟩, ?_⟩
  intro state hstate
  refine ⟨hnotOlder, _, adoptCheckpoint_of_adoptable rfl rfl
    ⟨rfl, hnotOlder, rfl, ⟨bytes, hstate, rfl⟩, hmsg, ?_, ?_⟩⟩
  · exact beq_self_eq_true _
  · exact beq_self_eq_true _

/-- Adoption pins the game exactly if the encoding determines the behaviour. -/
theorem checkpointsPin_iff : CheckpointsPin hash protocol ↔ protocol.EncodesBehaviour := by
  constructor
  · intro hpin state state' bytes hstate hstate'
    obtain ⟨coSigned, hadopts⟩ := exists_adopts hash protocol bytes
    have hcfg : Drives hash protocol (openConfig hash protocol) := ⟨rfl, rfl⟩
    refine hpin _ _ _ _ _ _ _ hcfg hcfg (hadopts state hstate) (hadopts state' hstate') ?_
    intro b b' hb hb' _
    rw [hstate] at hb
    rw [hstate'] at hb'
    exact Except.ok.inj (hb.symm.trans hb')
  · intro hencodes cfg cfg' seat seat' state state' coSigned hcfg hcfg' hadopts hadopts' hhash
    obtain ⟨bytes, hbytes, hsigned⟩ := hadopts.encoded hcfg
    obtain ⟨bytes', hbytes', hsigned'⟩ := hadopts'.encoded hcfg'
    have hsame := hhash bytes bytes' hbytes hbytes'
      (Bytes32.ext_bytes (hsigned.symm.trans hsigned'))
    rw [← hsame] at hbytes'
    exact hencodes state state' bytes hbytes hbytes'

end DopamintArena.Engine
