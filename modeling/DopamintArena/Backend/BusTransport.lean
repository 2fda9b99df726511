import DopamintArena.Foundation.Outcome
import DopamintArena.Foundation.Ring

/-!
`fleet/bus_transport.rs`: what a bot sends over the bus and what it replays when
the human comes back. The JSON parser is a parameter. A payload handed to
`relay_to_other` counts as emitted; where it is routed is not part of this
model, and payloads are text, as a payload that is not UTF-8 is refused before
anything happens.

The ring of recent frames holds the last eight sends, and a MOVE that is sent
again takes another place in it.
-/

namespace DopamintArena.Backend

open Foundation

/-- `serde_json::Value`, as far as it is looked into. -/
inductive Json
  | text (value : String)
  | object (fields : List (String × Json))
  | other

namespace Json

def get? (value : Json) (key : String) : Option Json :=
  match value with
  | .object fields => fields.lookup key
  | .text _ | .other => none

def asStr : Json → Option String
  | .text value => some value
  | .object _ | .other => none

end Json

/-- The value of decimal digits. -/
def decimalValue (digits : List Char) : Option Nat :=
  digits.foldlM (fun value c => if c.isDigit then some (value * 10 + (c.toNat - 48)) else none) 0

/-- `parse::<u64>()`: digits behind an optional plus sign. -/
def parseU64 (text : String) : Option Nat := do
  let digits := match text.toList with
    | '+' :: rest => rest
    | other => other
  if digits.isEmpty then none
  else
    let value ← decimalValue digits
    if value < 2 ^ 64 then some value else none

/-- `serde_json::from_str(…).ok()`. -/
abbrev JsonParser := String → Option Json

section

variable (fromStr : JsonParser)

def frameNonce (payload : String) : Option Nat := do
  let env ← fromStr payload
  if (env.get? "t").bind Json.asStr ≠ some "frame" then none
  else
    let data ← (env.get? "data").bind Json.asStr
    let inner ← fromStr data
    ((inner.get? "nonce").bind Json.asStr).bind parseU64

def resyncNonce (payload : String) : Option Nat := do
  let v ← fromStr payload
  if (v.get? "t").bind Json.asStr ≠ some "resync" then none
  else ((v.get? "nonce").bind Json.asStr).bind parseU64

end

def resumeReplayFrames : Nat := 8

inductive ServerMsg
  | relay (matchId payload : String)
  | peerDropped (matchId : String)
  | peerResumed (matchId : String)
  | other

structure BusRelayTransport where
  matchId : String
  peerOnline : Bool := true
  recentFrames : List (Nat × String) := []
  /-- What was handed to `relay_to_other`, oldest first. -/
  emitted : List String := []

/-- What a message means to `recv_payload`. -/
inductive Received
  | payload (text : String)
  | goOn

namespace BusRelayTransport

variable (fromStr : JsonParser)

/-- The frames a replay from `k` emits. -/
def replay (t : BusRelayTransport) (k : Nat) : List String :=
  (t.recentFrames.filter fun frame => k ≤ frame.1).map Prod.snd

def replaySince (t : BusRelayTransport) (k : Nat) : BusRelayTransport :=
  { t with emitted := t.emitted ++ t.replay k }

def sendPayload (t : BusRelayTransport) (payload : String) : BusRelayTransport :=
  let sent := { t with emitted := t.emitted ++ [payload] }
  match frameNonce fromStr payload with
  | some nonce => { sent with
      recentFrames := pushBounded resumeReplayFrames t.recentFrames (nonce, payload) }
  | none => sent

/-- One message in the loop of `recv_payload`. -/
def onServerMsg (t : BusRelayTransport) : ServerMsg → Received × BusRelayTransport
  | .relay matchId payload =>
    if matchId = t.matchId then
      match resyncNonce fromStr payload with
      | some k => (.goOn, t.replaySince k)
      | none => (.payload payload, t)
    else (.goOn, t)
  | .peerDropped _ => (.goOn, { t with peerOnline := false })
  | .peerResumed _ => (.goOn, { t with peerOnline := true })
  | .other => (.goOn, t)

end BusRelayTransport

/-- What happens on the transport: the bot sends, or the relay has a message. -/
inductive BusEvent
  | send (payload : String)
  | message (msg : ServerMsg)

namespace BusRelayTransport

variable {fromStr : JsonParser} {t : BusRelayTransport}
variable {matchId : String} {events : List BusEvent} {frame : Nat × String}

def step (fromStr : JsonParser) (t : BusRelayTransport) : BusEvent → BusRelayTransport
  | .send payload => t.sendPayload fromStr payload
  | .message msg => (t.onServerMsg fromStr msg).2

def after (fromStr : JsonParser) (matchId : String) (events : List BusEvent) :
    BusRelayTransport :=
  events.foldl (step fromStr) { matchId := matchId }

/-- The frames among the sends, with their nonces. -/
def sentFrames (fromStr : JsonParser) (events : List BusEvent) : List (Nat × String) :=
  events.filterMap fun
    | .send payload => (frameNonce fromStr payload).map fun nonce => (nonce, payload)
    | .message _ => none

theorem recentFrames_onServerMsg (msg : ServerMsg) :
    (t.onServerMsg fromStr msg).2.recentFrames = t.recentFrames := by
  cases msg with
  | relay _ payload =>
    simp only [onServerMsg]
    split
    · cases resyncNonce fromStr payload <;> rfl
    · rfl
  | peerDropped => rfl
  | peerResumed => rfl
  | other => rfl

/-- Whatever else happens, the ring holds the last frames sent. -/
theorem recentFrames_after (fromStr : JsonParser) (matchId : String) (events : List BusEvent) :
    (after fromStr matchId events).recentFrames =
      lastOf resumeReplayFrames (sentFrames fromStr events) := by
  induction events using List.reverseRecOn with
  | nil => rfl
  | append_singleton events event ih =>
    have hafter : after fromStr matchId (events ++ [event]) =
        step fromStr (after fromStr matchId events) event := by
      simp [after]
    rw [hafter, sentFrames, List.filterMap_append, ← sentFrames]
    cases event with
    | message =>
      rw [step, recentFrames_onServerMsg, ih]
      simp
    | send payload =>
      rw [step, sendPayload]
      cases hnonce : frameNonce fromStr payload with
      | none => simpa [hnonce] using ih
      | some =>
        simp only [ih, pushBounded_lastOf]
        simp [hnonce]

/-- A replay emits every frame from `k` on, oldest first. -/
def ReplaysFrom (fromStr : JsonParser) (matchId : String) (events : List BusEvent) (k : Nat) :
    Prop :=
  (∀ frame ∈ sentFrames fromStr events, k ≤ frame.1 →
      frame.2 ∈ (after fromStr matchId events).replay k) ∧
    ((after fromStr matchId events).recentFrames.filter fun frame => k ≤ frame.1).Pairwise
      fun frame later => frame.1 ≤ later.1

theorem nonce_of_sentFrames (h : frame ∈ sentFrames fromStr events) :
    frameNonce fromStr frame.2 = some frame.1 := by
  obtain ⟨event, -, hevent⟩ := List.mem_filterMap.mp h
  cases event with
  | message => cases hevent
  | send =>
    obtain ⟨_, hnonce, rfl⟩ := Option.map_eq_some_iff.mp hevent
    exact hnonce

theorem mem_replay_iff {k : Nat} (hframe : frame ∈ sentFrames fromStr events) (hk : k ≤ frame.1) :
    frame.2 ∈ (after fromStr matchId events).replay k ↔
      frame ∈ lastOf resumeReplayFrames (sentFrames fromStr events) := by
  rw [replay, recentFrames_after, List.mem_map]
  constructor
  · rintro ⟨_, hkept, hsame⟩
    have hmem := (List.mem_filter.mp hkept).1
    have hnonce := nonce_of_sentFrames ((lastOf_sublist _ _).subset hmem)
    rw [hsame, nonce_of_sentFrames hframe, Option.some.injEq] at hnonce
    rwa [← Prod.ext hnonce.symm hsame]
  · intro hmem
    exact ⟨frame, List.mem_filter.mpr ⟨hmem, by simpa using hk⟩, rfl⟩

end BusRelayTransport

open BusRelayTransport in
/-- For sends whose nonces never decrease, a replay from `k` is complete and in order exactly if
each frame from `k` on was last sent among the last eight sends. -/
theorem replay_complete_iff {fromStr : JsonParser} {matchId : String} {events : List BusEvent}
    {k : Nat}
    (hordered : (sentFrames fromStr events).Pairwise fun frame later => frame.1 ≤ later.1) :
    ReplaysFrom fromStr matchId events k ↔
      ∀ frame ∈ sentFrames fromStr events, k ≤ frame.1 →
        ∃ before later, sentFrames fromStr events = before ++ frame :: later ∧
          later.length < 8 := by
  constructor
  · rintro ⟨hcomplete, -⟩ frame hframe hk
    exact mem_lastOf_iff.mp ((mem_replay_iff hframe hk).mp (hcomplete frame hframe hk))
  · intro hrecent
    constructor
    · intro frame hframe hk
      exact (mem_replay_iff hframe hk).mpr (mem_lastOf_iff.mpr (hrecent frame hframe hk))
    · rw [recentFrames_after]
      exact hordered.sublist (List.filter_sublist.trans (lastOf_sublist _ _))

namespace Sample

/-- An envelope is one letter for its frame: `a` for an ACK of nonce 1 and `m` for a MOVE of
nonce 2. The inner frame is the nonce. -/
def fromStr : JsonParser
  | "a" => some (.object [("t", .text "frame"), ("kind", .text "ack"), ("data", .text "1")])
  | "m" => some (.object [("t", .text "frame"), ("kind", .text "move"), ("data", .text "2")])
  | "1" => some (.object [("kind", .text "ack"), ("nonce", .text "1")])
  | "2" => some (.object [("kind", .text "move"), ("nonce", .text "2")])
  | _ => none

/-- The bot acknowledges a move, makes its own, and sends it again while no acknowledgement
comes. -/
def resent (sends : Nat) : List BusEvent := .send "a" :: List.replicate sends (.send "m")

end Sample

/-- With six more sends of the MOVE the ring is full, and still holds the ACK. -/
theorem replay_complete_iff_ring_full :
    BusRelayTransport.ReplaysFrom Sample.fromStr "match" (Sample.resent 7) 1 ∧
      (BusRelayTransport.after Sample.fromStr "match" (Sample.resent 7)).replay 1 =
        "a" :: List.replicate 7 "m" := by
  refine ⟨(replay_complete_iff (by decide)).mpr fun frame hframe _ => ?_, by decide⟩
  have hsent : BusRelayTransport.sentFrames Sample.fromStr (Sample.resent 7) =
      (1, "a") :: List.replicate 7 (2, "m") := by
    decide
  rw [hsent] at hframe ⊢
  rcases List.mem_cons.mp hframe with rfl | hmove
  · exact ⟨[], _, rfl, by decide⟩
  · rw [List.eq_of_mem_replicate hmove]
    exact ⟨(1, "a") :: List.replicate 6 (2, "m"), [], rfl, by decide⟩

/-- The MOVE was sent again seven times: two frames were sent, and one of them is gone. -/
theorem resends_evict_frames :
    (BusRelayTransport.sentFrames Sample.fromStr (Sample.resent 8)).Pairwise
      (fun frame later => frame.1 ≤ later.1) ∧
    (BusRelayTransport.sentFrames Sample.fromStr (Sample.resent 8)).dedup =
      [(1, "a"), (2, "m")] ∧
    (BusRelayTransport.after Sample.fromStr "match" (Sample.resent 8)).replay 1 =
      List.replicate 8 "m" ∧
    ¬BusRelayTransport.ReplaysFrom Sample.fromStr "match" (Sample.resent 8) 1 := by
  have hreplay : (BusRelayTransport.after Sample.fromStr "match" (Sample.resent 8)).replay 1 =
      List.replicate 8 "m" := by
    decide
  refine ⟨by decide, by decide, hreplay, ?_⟩
  rintro ⟨hcomplete, -⟩
  have hmem := hcomplete (1, "a") (by decide) (by decide)
  rw [hreplay] at hmem
  revert hmem
  decide

end DopamintArena.Backend
