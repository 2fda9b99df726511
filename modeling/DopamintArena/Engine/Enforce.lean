import DopamintArena.Engine.Sound
import DopamintArena.Games.Cross
import DopamintArena.Move.Tunnel.Payouts

/-!
From the off-chain engine to the contract: when is the update a seat holds as
its latest accepted by `raise_dispute` and `resolve_dispute`?

Everything the contract checks about hash, balances, tunnel and signatures is
guaranteed by the seat's own checks. Two fields the seat signs without looking
at them are left: the timestamp, which the contract wants between the creation
of the tunnel and its clock, and the nonce, whose maximum it refuses.
-/

namespace DopamintArena.Engine

open Foundation
open DopamintArena.Move (Natives Tunnel Tx Receipt UpdateArgs Verifies Acceptable exec
  tunnelSystem WellFormed reachable_wellFormed raiseDispute_ok_iff resolveDispute_ok_iff
  partyOf_self otherParty_eq_party)

variable {State Move : Type} {cfg : Config State Move} {s : Seat State Move}
variable {u : StateUpdate} {message : Bytes} {t : Tunnel} {env : Natives} {held : CoSignedUpdate}
variable {clock : UInt64}

/-- The arguments of the dispute calls for an update. -/
def StateUpdate.args (u : StateUpdate) : UpdateArgs where
  stateHash := u.stateHash
  nonce := word u.nonce
  partyABalance := word u.partyABalance
  partyBBalance := word u.partyBBalance
  timestamp := word u.timestamp

/-- The side of a party in the contract. -/
def Party.isA : Party → Bool
  | .A => true
  | .B => false

/-- `t` is the tunnel the seat plays on: the same id, the locked total, and signatures
the seat accepts are signatures the contract accepts. -/
structure OnChain (env : Natives) (cfg : Config State Move) (t : Tunnel) : Prop where
  id : addressToBytes32 cfg.tunnelId = .ok t.id
  total : cfg.total = t.balance.toNat
  verifies : ∀ party message signature, ValidSignature cfg party message signature →
    Verifies env (t.party party.isA) message signature

/-- The seat's dispute with `held`: it raises with the opponent's signature. -/
def raiseTx (cfg : Config State Move) (t : Tunnel) (held : CoSignedUpdate) (clock : UInt64) :
    Tx where
  sender := (t.party cfg.selfParty.isA).address
  clock := clock
  call := .raiseDispute held.update.args
    (match cfg.selfParty with
      | .A => held.sigB
      | .B => held.sigA)

/-- The seat's answer to a dispute with `held`. -/
def resolveTx (cfg : Config State Move) (t : Tunnel) (held : CoSignedUpdate)
    (clock : UInt64) : Tx where
  sender := (t.party cfg.selfParty.isA).address
  clock := clock
  call := .resolveDispute held.update.args held.sigA held.sigB

/-- Both dispute calls of the seat succeed whenever the chain is behind `held`. -/
def Enforceable (env : Natives) (cfg : Config State Move) (t : Tunnel)
    (held : CoSignedUpdate) (clock : UInt64) : Prop :=
  (t.status = .active → (t.state.nonce.toNat : Int) < held.update.nonce →
    ∃ r, exec env t (raiseTx cfg t held clock) = .ok r) ∧
  (t.status = .disputed → (t.state.nonce.toNat : Int) < held.update.nonce →
    ∃ r, exec env t (resolveTx cfg t held clock) = .ok r)

/-- The fields the contract checks and the seat does not. -/
structure Timely (createdAt adoptedAt : UInt64) (u : StateUpdate) : Prop where
  notBefore : (createdAt.toNat : Int) ≤ u.timestamp
  notFuture : u.timestamp ≤ adoptedAt.toNat
  belowMax : u.nonce < u64Max

theorem args_message (hid : addressToBytes32 cfg.tunnelId = .ok t.id)
    (h : Presentable cfg u message) :
    u.args.message t.id = message := by
  obtain ⟨_, hid', -, rfl⟩ := serializeStateUpdate_ok_iff.mp h.serialized
  rw [h.tunnelId, hid, Except.ok.injEq] at hid'
  subst hid'
  rfl

theorem Presentable.encodable (h : Presentable cfg u message) : u.Encodable := by
  obtain ⟨_, -, hencodable, -⟩ := serializeStateUpdate_ok_iff.mp h.serialized
  exact hencodable

/-- What the contract asks of a presentable update, in the seat's own terms. -/
theorem acceptable_iff {env : Natives} {t : Tunnel} {u : StateUpdate} {message : Bytes}
    {clock : UInt64} (hchain : OnChain env cfg t) (h : Presentable cfg u message) :
    Acceptable t u.args clock ↔
      (t.state.nonce.toNat : Int) < u.nonce ∧ Timely t.createdAt clock u := by
  obtain ⟨hnonce, htimestamp, hA, hB⟩ := h.encodable
  have hn := toNat_word hnonce
  have ht := toNat_word htimestamp
  have ha := toNat_word hA
  have hb := toNat_word hB
  have hbalanced := h.balanced
  have htotal := hchain.total
  have hnonceLow := hnonce.1
  have htimestampLow := htimestamp.1
  have hALow := hA.1
  have hBLow := hB.1
  constructor
  · rintro ⟨-, hnewer, hmax, -, hfuture, hbefore⟩
    simp only [StateUpdate.args] at hnewer hmax hfuture hbefore
    exact ⟨by omega, by omega, by omega, by rw [u64Max]; omega⟩
  · rintro ⟨_, _, _, hmax⟩
    rw [u64Max] at hmax
    refine ⟨h.hashLength, ?_, ?_, ?_, ?_, ?_⟩ <;> simp only [StateUpdate.args] <;> omega

/-- The seat's `raise_dispute` succeeds exactly on a newer and timely update. -/
theorem raise_succeeds_iff (hwf : WellFormed t) (hchain : OnChain env cfg t)
    (hsigned : FullySigned cfg held message) (hactive : t.status = .active) :
    (∃ r, exec env t (raiseTx cfg t held clock) = .ok r) ↔
      (t.state.nonce.toNat : Int) < held.update.nonce ∧
        Timely t.createdAt clock held.update := by
  rw [← acceptable_iff hchain hsigned.presentable]
  constructor
  · rintro ⟨_, hexec⟩
    exact (raiseDispute_ok_iff.mp hexec).2.2.1
  · intro haccept
    have hmark := hwf.mark (.inr hactive)
    have hnewer := haccept.newer
    have hfits : (held.update.args.nonce).toNat + (1 : UInt64).toNat < 2 ^ 64 :=
      haccept.belowMax
    have hmessage := args_message hchain.id hsigned.presentable
    have hother : Verifies env (DopamintArena.Move.otherParty t cfg.selfParty.isA)
        (held.update.args.message t.id)
        (match cfg.selfParty with
          | .A => held.sigB
          | .B => held.sigA) := by
      rw [hmessage, otherParty_eq_party]
      cases cfg.selfParty with
      | A => exact hchain.verifies .B _ _ hsigned.sigB
      | B => exact hchain.verifies .A _ _ hsigned.sigA
    exact ⟨_, raiseDispute_ok_iff.mpr ⟨hwf.version, hactive, haccept, by omega,
      cfg.selfParty.isA, partyOf_self hwf _, hother, held.update.args.nonce + 1,
      toNat_add_of_fits hfits, rfl⟩⟩

/-- The seat's `resolve_dispute` succeeds exactly on a newer and timely update. -/
theorem resolve_succeeds_iff (hwf : WellFormed t) (hchain : OnChain env cfg t)
    (hsigned : FullySigned cfg held message) (hdisputed : t.status = .disputed) :
    (∃ r, exec env t (resolveTx cfg t held clock) = .ok r) ↔
      (t.state.nonce.toNat : Int) < held.update.nonce ∧
        Timely t.createdAt clock held.update := by
  rw [← acceptable_iff hchain hsigned.presentable]
  have hmessage := args_message hchain.id hsigned.presentable
  constructor
  · rintro ⟨_, hexec⟩
    exact (resolveDispute_ok_iff.mp hexec).2.2.1
  · intro haccept
    have hA := hchain.verifies .A _ _ hsigned.sigA
    have hB := hchain.verifies .B _ _ hsigned.sigB
    rw [← hmessage] at hA hB
    exact ⟨_, resolveDispute_ok_iff.mpr ⟨hwf.version, hdisputed, haccept, hA, hB, rfl⟩⟩

/-- The runs of one seat, each call stamped with the chain time at which it was made. -/
def timedSystem (cfg : Config State Move) (start : Seat State Move) :
    System (Seat State Move) (UInt64 × SeatEntry State Move) where
  init history s := history = [] ∧ s = start
  step s entry s' := (seatSystem cfg start).step s entry.2 s'

def SeatEntry.adopts (entry : SeatEntry State Move) : Option CoSignedUpdate :=
  if entry.turn.seat.latest = entry.before.latest then none else entry.turn.seat.latest

/-- Everything a seat adopted as its latest, with the chain times. -/
def adoptions (history : List (UInt64 × SeatEntry State Move)) :
    List (UInt64 × CoSignedUpdate) :=
  history.filterMap fun entry => entry.2.adopts.map (entry.1, ·)

/-- Both dispute calls accept `held` from `adoptedAt` on, on every tunnel the seat may be
playing on that was created at `createdAt`. -/
def EnforceableFrom (env : Natives) (cfg : Config State Move) (createdAt adoptedAt : UInt64)
    (held : CoSignedUpdate) : Prop :=
  ∀ past t clock, (tunnelSystem env).Run past t → OnChain env cfg t →
    t.createdAt = createdAt → adoptedAt ≤ clock → Enforceable env cfg t held clock

section Timed

variable {start : Seat State Move} {history : List (UInt64 × SeatEntry State Move)}

theorem adoptions_append (entry : UInt64 × SeatEntry State Move) :
    adoptions (history ++ [entry]) =
      adoptions history ++ (entry.2.adopts.map (entry.1, ·)).toList := by
  rw [adoptions, List.filterMap_append, adoptions]
  cases hadopts : entry.2.adopts <;> simp [hadopts]

theorem timed_sound (hfresh : Fresh start) (hrun : (timedSystem cfg start).Run history s) :
    Sound cfg s := by
  apply hrun.invariant (I := fun _ s => Sound cfg s)
  · rintro _ _ ⟨-, rfl⟩
    exact sound_fresh hfresh
  · rintro _ _ _ _ - hsound ⟨hact, -, rfl⟩
    exact sound_effect hsound (act_effect hact)

/-- What a seat adopted is fully signed, and its latest is something it adopted. -/
theorem timed_adoptions (hfresh : Fresh start)
    (hrun : (timedSystem cfg start).Run history s) :
    (∀ a ∈ adoptions history, ∃ message, FullySigned cfg a.2 message) ∧
      ∀ held, s.latest = some held → ∃ clock, (clock, held) ∈ adoptions history := by
  induction hrun with
  | start hstart =>
    obtain ⟨rfl, rfl⟩ := hstart
    refine ⟨fun a ha => (by cases ha), ?_⟩
    intro held hheld
    rw [hfresh.latest] at hheld
    cases hheld
  | @step _ _ _ entry hbefore hstep ih =>
    obtain ⟨clock, entry⟩ := entry
    obtain ⟨hadopted, hlatest⟩ := ih
    have hsound := timed_sound hfresh (hbefore.step hstep)
    obtain ⟨-, hseat, rfl⟩ := hstep
    rw [adoptions_append]
    by_cases hsame : entry.turn.seat.latest = entry.before.latest
    · have hnone : entry.adopts = none := by simp [SeatEntry.adopts, hsame]
      simp only [hnone, Option.map_none, Option.toList_none, List.append_nil]
      refine ⟨hadopted, ?_⟩
      rw [hsame, hseat]
      exact hlatest
    · have hsome : entry.adopts = entry.turn.seat.latest := by simp [SeatEntry.adopts, hsame]
      rw [hsome]
      refine ⟨?_, ?_⟩
      · intro a ha
        rcases List.mem_append.mp ha with ha | ha
        · exact hadopted a ha
        · rw [Option.mem_toList, Option.map_eq_some_iff] at ha
          obtain ⟨held, hheld, rfl⟩ := ha
          exact hsound.latest held hheld
      · intro held hheld
        change entry.turn.seat.latest = some held at hheld
        exact ⟨clock, List.mem_append_right _ (by simp [hheld])⟩

/-- A fully signed update is enforceable from its adoption on exactly when its timestamp
lies between the creation of the tunnel and the adoption, and its nonce is not the
maximum. -/
theorem enforceableFrom_iff {env : Natives} {past : List DopamintArena.Move.Entry}
    {t₀ : Tunnel} {held : CoSignedUpdate} {message : Bytes} {adoptedAt : UInt64}
    (hopen : (tunnelSystem env).Run past t₀) (hactive : t₀.status = .active)
    (hzero : t₀.state.nonce = 0) (hchain : OnChain env cfg t₀)
    (hsigned : FullySigned cfg held message) (hpositive : 0 < held.update.nonce) :
    EnforceableFrom env cfg t₀.createdAt adoptedAt held ↔
      Timely t₀.createdAt adoptedAt held.update := by
  constructor
  · intro h
    have hraise := (h past t₀ adoptedAt hopen hchain rfl (UInt64.le_refl _)).1 hactive
      (by rw [hzero, UInt64.toNat_zero]; exact hpositive)
    exact ((raise_succeeds_iff (reachable_wellFormed hopen) hchain hsigned hactive).mp
      hraise).2
  · intro htimely past t clock hreach honChain hcreated hlater
    have hwf := reachable_wellFormed hreach
    rw [UInt64.le_iff_toNat_le] at hlater
    have hfuture := htimely.notFuture
    have htimely' : Timely t.createdAt clock held.update := by
      refine ⟨?_, by omega, htimely.belowMax⟩
      rw [hcreated]
      exact htimely.notBefore
    refine ⟨?_, ?_⟩
    · intro hstatus hnewer
      exact (raise_succeeds_iff hwf honChain hsigned hstatus).mpr ⟨hnewer, htimely'⟩
    · intro hstatus hnewer
      exact (resolve_succeeds_iff hwf honChain hsigned hstatus).mpr ⟨hnewer, htimely'⟩

/-- The updates a seat adopts over a run, its latest among them, are enforceable from
their adoption on exactly when the timestamps and nonces it signed are ones the contract
takes. -/
theorem latest_enforceable_iff {crypto : Crypto} {protocol : Protocol State Move}
    {options : DistributedConfig Move} {initialBalances : Balances} {env : Natives}
    {past : List DopamintArena.Move.Entry} {t₀ : Tunnel}
    (hcreate : create crypto protocol options initialBalances = .ok (cfg, start))
    (hopen : (tunnelSystem env).Run past t₀) (hactive : t₀.status = .active)
    (hzero : t₀.state.nonce = 0) (hchain : OnChain env cfg t₀)
    (hrun : (timedSystem cfg start).Run history s) :
    (∀ held, s.latest = some held → ∃ clock, (clock, held) ∈ adoptions history) ∧
    ((∀ a ∈ adoptions history, EnforceableFrom env cfg t₀.createdAt a.1 a.2) ↔
      ∀ a ∈ adoptions history, 0 < a.2.update.nonce →
        Timely t₀.createdAt a.1 a.2.update) := by
  have hfresh := (create_ok hcreate).fresh
  obtain ⟨hsigned, hlatest⟩ := timed_adoptions hfresh hrun
  refine ⟨hlatest, ?_⟩
  constructor
  · intro h a ha hpositive
    obtain ⟨message, hfull⟩ := hsigned a ha
    exact (enforceableFrom_iff hopen hactive hzero hchain hfull hpositive).mp (h a ha)
  · intro h a ha
    obtain ⟨_, hfull⟩ := hsigned a ha
    by_cases hpositive : 0 < a.2.update.nonce
    · exact (enforceableFrom_iff hopen hactive hzero hchain hfull hpositive).mpr
        (h a ha hpositive)
    · -- a checkpoint at nonce 0 is never newer than the chain
      intro past t clock _ _ _ _
      exact ⟨fun _ hnewer => by omega, fun _ hnewer => by omega⟩

end Timed

/-- `pvpMatchHook.ts`: whose turn it is to propose at a nonce. -/
def turn (nonce : Int) : Party :=
  if nonce.tmod 2 = 0 then .A else .B

/-- The timer `maybePropose` sets, when it fires: the app of a seat proposes the player's
intent, with timestamp 0. Whatever `propose` throws is swallowed. -/
def maybePropose {Intent : Type} (cfg : Config State Move) (s : Seat State Move)
    (intentToMove : Party → Intent → Move) (intent : Intent) : Turn State Move :=
  if cfg.protocol.isTerminal s.state = true then { seat := s }
  else if turn s.nonce ≠ cfg.selfParty then { seat := s }
  else if s.pending.any (fun p => decide (s.nonce < p.update.nonce)) = true then { seat := s }
  else
    match propose cfg s (intentToMove cfg.selfParty intent) 0 with
    | .ok turn => turn
    | .error _ => { seat := s }

def timedReplay (cfg : Config State Move) :
    Seat State Move → List (UInt64 × SeatEntry State Move) →
    List (UInt64 × Input State Move) →
    Except String (Seat State Move × List (UInt64 × SeatEntry State Move)) :=
  System.replay fun s timed =>
    (act cfg s timed.2).map fun turn => ((timed.1, ⟨s, timed.2, turn⟩), turn.seat)

theorem timedReplay_run {start : Seat State Move}
    {history history' : List (UInt64 × SeatEntry State Move)} {s' : Seat State Move}
    {inputs : List (UInt64 × Input State Move)}
    (hrun : (timedSystem cfg start).Run history s)
    (h : timedReplay cfg s history inputs = .ok (s', history')) :
    (timedSystem cfg start).Run history' s' := by
  refine System.replay_run hrun h fun s timed entry s' hstep => ?_
  obtain ⟨_, hact, ⟨⟩⟩ := map_ok_iff.mp hstep
  exact ⟨hact, rfl, rfl⟩

namespace Sample

def walletKey : Party → Bytes
  | .A => List.replicate 32 1
  | .B => List.replicate 32 2

def walletSig : Party → Bytes
  | .A => List.replicate 64 1
  | .B => List.replicate 64 2

/-- A signature repeats the first byte of the key. -/
def walletVerify (signature publicKey : Bytes) : Bool :=
  signature == List.replicate 64 (publicKey.headD 0)

theorem length_padded (bytes : Bytes) :
    ((bytes.reverse ++ List.replicate 32 0).take 32).length = 32 := by
  simp

def walletCrypto : Crypto where
  blake2b256 bytes := ⟨(bytes.reverse ++ List.replicate 32 0).take 32, length_padded bytes⟩
  ed25519Verify signature _ publicKey := walletVerify signature publicKey

def walletNatives : Natives :=
  { DopamintArena.Move.permissive with
    ed25519Verify := fun signature publicKey _ => walletVerify signature publicKey }

def walletEndpoint (party : Party) : PartyEndpoint where
  publicKey := walletKey party
  scheme := schemeEd25519
  sign := some fun _ => walletSig party
  verify _ signature := signature == walletSig party

/-- A lane race in which no hazard ever stands in the way. -/
def race : Protocol Games.CrossState Games.CrossMove := Games.Cross.protocol fun _ _ _ _ => false

def raceOptions (party : Party) : DistributedConfig Games.CrossMove where
  tunnelId := "0x7"
  self := walletEndpoint party
  opponent := { walletEndpoint (otherParty party) with sign := none }
  selfParty := party
  moveCodec := some id

def raceConfig (party : Party) : Config Games.CrossState Games.CrossMove where
  crypto := walletCrypto
  protocol := race
  tunnelId := "0x7"
  self := walletEndpoint party
  sign _ := walletSig party
  opponent := { walletEndpoint (otherParty party) with sign := none }
  selfParty := party
  total := 1000
  codec := id

def raceSeat : Seat Games.CrossState Games.CrossMove where
  state := race.initialState ⟨"0x7", ⟨500, 500⟩⟩
  nonce := 0
  latest := none
  pending := none

theorem create_race (party : Party) :
    create walletCrypto race (raceOptions party) ⟨500, 500⟩ =
      .ok (raceConfig party, raceSeat) := rfl

def raceParams : DopamintArena.Move.CreateParams :=
  { DopamintArena.Move.Sample.params with
    partyAPk := walletKey .A
    partyBPk := walletKey .B }

def raceId : Bytes32 := ⟨List.replicate 31 0 ++ [7], rfl⟩

/-- The tunnel of the race, created and funded at time 10. -/
def raceTunnel : Tunnel :=
  DopamintArena.Move.fundedAtCreation raceId raceParams 500 500 1000 10

theorem raceTunnel_reachable : ∃ past, (tunnelSystem walletNatives).Run past raceTunnel := by
  obtain ⟨r, hcreated⟩ := exists_ok_of_isOk
    (x := (DopamintArena.Move.Genesis.createAndFund raceId raceParams 500 500 10).run)
    (by decide +kernel)
  obtain ⟨-, -, -, ⟨balance, hbalance, htunnel⟩, -⟩ :=
    DopamintArena.Move.createAndFundWithId_ok hcreated
  have hsum : balance = 1000 := UInt64.toNat_inj.mp (hbalance.trans (by decide))
  subst hsum
  exact ⟨_, .start ⟨_, r, hcreated, rfl, htunnel.symm⟩⟩

theorem onChain_race (party : Party) : OnChain walletNatives (raceConfig party) raceTunnel where
  id := by cases party <;> decide +kernel
  total := by cases party <;> rfl
  verifies side message signature h := by
    have hsig : signature = walletSig side := by
      rcases h with ⟨rfl, rfl⟩ | ⟨rfl, hverify⟩ | hverify
      · rfl
      · exact eq_of_beq hverify
      · have hkey := eq_of_beq hverify
        cases side <;> cases party <;> exact hkey
    subst hsig
    cases side <;> rfl

/-- `usePvpChickenCross.ts`: each seat fills in its own direction. -/
def intentToMove (role : Party) (dir : Option Games.CrossDir) : Games.CrossMove :=
  match role with
  | .A => ⟨dir, none⟩
  | .B => ⟨none, dir⟩

/-- What party B's seat answers to the frames of a turn of party A. -/
def acknowledged (turn : Turn Games.CrossState Games.CrossMove) :
    List (Frame Games.CrossMove) :=
  turn.sent.flatMap fun frame =>
    match act (raceConfig .B) raceSeat (.frame frame) with
    | .ok answer => answer.sent
    | .error _ => []

/-- Party A's seat hops north and receives the answer, all at chain time 20. -/
def hopNorth (timestamp : Int) :
    List (UInt64 × Input Games.CrossState Games.CrossMove) :=
  match propose (raceConfig .A) raceSeat (intentToMove .A (some .north)) timestamp with
  | .ok turn => (20, .propose (intentToMove .A (some .north)) timestamp) ::
      (acknowledged turn).map fun frame => (20, .frame frame)
  | .error _ => []

end Sample

/-- With a timestamp between the creation of the tunnel and the adoption, the hop can be
enforced from then on. -/
theorem latest_enforceable_iff_hop : ∃ s history held,
    timedReplay (Sample.raceConfig .A) Sample.raceSeat [] (Sample.hopNorth 15) =
      .ok (s, history) ∧
    s.latest = some held ∧ held.update.nonce = 1 ∧
    ∀ a ∈ adoptions history,
      EnforceableFrom Sample.walletNatives (Sample.raceConfig .A) 10 a.1 a.2 := by
  have heval : (timedReplay (Sample.raceConfig .A) Sample.raceSeat []
      (Sample.hopNorth 15)).map (fun r => (r.1.latest.map (fun held => held.update.nonce),
        (adoptions r.2).map (fun a => (a.1, a.2.update.timestamp, a.2.update.nonce)))) =
      .ok (some 1, [(20, 15, 1)]) := by
    decide +kernel
  obtain ⟨⟨s, history⟩, hreplay, hfacts⟩ := map_ok_iff.mp heval
  obtain ⟨hlatest, hadopted⟩ := Prod.mk.inj hfacts
  obtain ⟨held, hheld, hnonce⟩ := Option.map_eq_some_iff.mp hlatest
  obtain ⟨_, hopen⟩ := Sample.raceTunnel_reachable
  refine ⟨s, history, held, hreplay, hheld, hnonce, ?_⟩
  refine (latest_enforceable_iff (Sample.create_race .A) hopen rfl rfl
    (Sample.onChain_race .A) (timedReplay_run (.start ⟨rfl, rfl⟩) hreplay)).2.mpr ?_
  intro a ha _
  have hfields := List.mem_map_of_mem (f := fun a : UInt64 × CoSignedUpdate =>
    (a.1, a.2.update.timestamp, a.2.update.nonce)) ha
  rw [hadopted, List.mem_singleton] at hfields
  obtain ⟨hclock, htimestamp, hnonce'⟩ := by simpa only [Prod.mk.injEq] using hfields
  rw [hclock]
  exact ⟨by rw [htimestamp]; decide, by rw [htimestamp]; decide, by rw [hnonce']; decide⟩

/-- The app proposes with timestamp 0, so the hop its opponent acknowledged cannot be
disputed with: the contract refuses a timestamp before the creation of the tunnel. -/
theorem zero_timestamp_unenforceable : ∃ past s history held,
    create Sample.walletCrypto Sample.race (Sample.raceOptions .A) ⟨500, 500⟩ =
      .ok (Sample.raceConfig .A, Sample.raceSeat) ∧
    (tunnelSystem Sample.walletNatives).Run past Sample.raceTunnel ∧
    Sample.raceTunnel.status = .active ∧ Sample.raceTunnel.state.nonce = 0 ∧
    OnChain Sample.walletNatives (Sample.raceConfig .A) Sample.raceTunnel ∧
    (timedSystem (Sample.raceConfig .A) Sample.raceSeat).Run history s ∧
    (history.head?.map fun entry => entry.2.turn.sent) =
      some (maybePropose (Sample.raceConfig .A) Sample.raceSeat Sample.intentToMove
        (some .north)).sent ∧
    s.latest = some held ∧ held.update.nonce = 1 ∧ (20, held) ∈ adoptions history ∧
    (∀ clock, 20 ≤ clock → ¬∃ r, exec Sample.walletNatives Sample.raceTunnel
      (raiseTx (Sample.raceConfig .A) Sample.raceTunnel held clock) = .ok r) := by
  have heval : (timedReplay (Sample.raceConfig .A) Sample.raceSeat []
      (Sample.hopNorth 0)).map (fun r => (r.2.head?.map (fun entry => entry.2.turn.sent),
        r.1.latest.map (fun held =>
          (held.update.nonce, held.update.timestamp, decide ((20, held) ∈ adoptions r.2))))) =
      .ok (some (maybePropose (Sample.raceConfig .A) Sample.raceSeat Sample.intentToMove
        (some .north)).sent, some (1, 0, true)) := by
    decide +kernel
  obtain ⟨⟨s, history⟩, hreplay, hfacts⟩ := map_ok_iff.mp heval
  obtain ⟨hsent, hlatest⟩ := Prod.mk.inj hfacts
  obtain ⟨held, hheld, hfields⟩ := Option.map_eq_some_iff.mp hlatest
  obtain ⟨hnonce, htimestamp, hmem⟩ := by simpa only [Prod.mk.injEq] using hfields
  obtain ⟨past, hopen⟩ := Sample.raceTunnel_reachable
  have hrun := timedReplay_run (.start ⟨rfl, rfl⟩) hreplay
  have hfresh := (create_ok (Sample.create_race .A)).fresh
  refine ⟨past, s, history, held, Sample.create_race .A, hopen, rfl, rfl,
    Sample.onChain_race .A, hrun, hsent, hheld, hnonce,
    of_decide_eq_true hmem, ?_⟩
  rintro clock - hraised
  obtain ⟨_, hfull⟩ := (timed_sound hfresh hrun).latest held hheld
  have htimely := ((raise_succeeds_iff (reachable_wellFormed hopen)
    (Sample.onChain_race .A) hfull rfl).mp hraised).2
  have hbefore := htimely.notBefore
  rw [htimestamp] at hbefore
  exact absurd hbefore (by decide)

end DopamintArena.Engine
