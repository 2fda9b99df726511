import DopamintArena.Games.Commitment

/-!
The protocols without turns: metered calls (`protocol/apiCredits.ts`), chat
(`protocol/chat.ts`) and the two painted walls (`protocol/worldCanvas.ts` and
`protocol/worldCanvasPvp.ts`). What was said or painted is folded into a
rolling digest, so a state stays small.
-/

namespace DopamintArena.Games

open Foundation Engine

def rollingDigest (hash : Hash) (prevDigest delta : Bytes) : Bytes :=
  (hash (prevDigest ++ delta)).bytes

/-- The layout the encodings share: a digest and three numbers behind the domain. -/
def encodeStream (domain digest : Bytes) (x y z : Int) : Except String Bytes := do
  let x ← u64ToBeBytes x
  let y ← u64ToBeBytes y
  let z ← u64ToBeBytes z
  pure (domain ++ digest ++ x ++ y ++ z)

theorem encodeStream_inj {domain digest digest' bytes : Bytes} {x y z x' y' z' : Int}
    (h : encodeStream domain digest x y z = .ok bytes)
    (h' : encodeStream domain digest' x' y' z' = .ok bytes) :
    digest = digest' ∧ x = x' ∧ y = y' ∧ z = z' := by
  simp only [encodeStream, returned] at h h'
  obtain ⟨_, hx, _, hy, _, hz, rfl⟩ := h
  obtain ⟨_, hx', _, hy', _, hz', hbytes⟩ := h'
  obtain ⟨hbytes, hz⟩ := u64ToBeBytes_append_inj hz hz' hbytes
  obtain ⟨hbytes, hy⟩ := u64ToBeBytes_append_inj hy hy' hbytes
  obtain ⟨hbytes, hx⟩ := u64ToBeBytes_append_inj hx hx' hbytes
  exact ⟨List.append_cancel_left hbytes, hx, hy, hz⟩

/-! ### Metered calls -/

structure ApiCreditsState where
  client : Int
  provider : Int
  total : Int
  calls : Int
deriving DecidableEq

inductive ApiCreditsMove
  | call
deriving DecidableEq

namespace ApiCredits

variable (costPerCall : Int)

def initialState (ctx : ProtocolContext) : ApiCreditsState where
  client := ctx.initialBalances.a
  provider := ctx.initialBalances.b
  total := ctx.initialBalances.a + ctx.initialBalances.b
  calls := 0

def applyMove (state : ApiCreditsState) (_move : ApiCreditsMove) (byParty : Party) :
    Except String ApiCreditsState := do
  require (byParty = .A) "only the client (A) makes calls"
  require (costPerCall ≤ state.client) "out of credits: remaining balance can't cover a call"
  pure
    { client := state.client - costPerCall
      provider := state.provider + costPerCall
      total := state.total
      calls := state.calls + 1 }

def encodeState (state : ApiCreditsState) : Except String Bytes :=
  encodeStream (protocolDomain "api_credits.v1") [] state.client state.provider state.calls

/-- The protocol for a price, which the constructor wants positive. -/
def protocol : Protocol ApiCreditsState ApiCreditsMove where
  name := "api_credits.v1"
  initialState := initialState
  applyMove := applyMove costPerCall
  encodeState := encodeState
  balances state := ⟨state.client, state.provider⟩
  isTerminal state := decide (state.client < costPerCall)

end ApiCredits

/-! ### Chat -/

structure ChatStateData where
  transcriptDigest : Bytes
  messageCount : Int
  lastSender : Option Party
  balanceA : Int
  balanceB : Int
  total : Int
deriving DecidableEq

structure ChatMove where
  text : String
  tip : Option Int
deriving DecidableEq

namespace Chat

variable (hash : Hash)

def partyByte : Party → UInt8
  | .A => 1
  | .B => 2

def initialState (ctx : ProtocolContext) : ChatStateData where
  transcriptDigest := List.replicate 32 0
  messageCount := 0
  lastSender := none
  balanceA := ctx.initialBalances.a
  balanceB := ctx.initialBalances.b
  total := ctx.initialBalances.a + ctx.initialBalances.b

/-- The balances after an optional tip of the sender. -/
def tipped (balanceA balanceB : Int) (tip : Option Int) (byParty : Party) :
    Except String (Int × Int) :=
  match tip with
  | none => pure (balanceA, balanceB)
  | some tip =>
    if tip = 0 then pure (balanceA, balanceB)
    else do
      require (0 ≤ tip) "tip must be non-negative"
      let senderBal := match byParty with
        | .A => balanceA
        | .B => balanceB
      require (tip ≤ senderBal) s!"tip {tip} exceeds {byParty.text} balance {senderBal}"
      pure <| match byParty with
        | .A => (balanceA - tip, balanceB + tip)
        | .B => (balanceA + tip, balanceB - tip)

def applyMove (state : ChatStateData) (move : ChatMove) (byParty : Party) :
    Except String ChatStateData := do
  let messageBytes := move.text.toUTF8.toList
  require (messageBytes.length ≠ 0) "chat message must be non-empty"
  let length ← u64ToBeBytes messageBytes.length
  let delta := (hash (partyByte byParty :: length ++ messageBytes)).bytes
  let (balanceA, balanceB) ← tipped state.balanceA state.balanceB move.tip byParty
  pure
    { transcriptDigest := rollingDigest hash state.transcriptDigest delta
      messageCount := state.messageCount + 1
      lastSender := some byParty
      balanceA, balanceB
      total := state.total }

def encodeState (state : ChatStateData) : Except String Bytes :=
  encodeStream (protocolDomain "chat.v1") state.transcriptDigest state.messageCount
    state.balanceA state.balanceB

def protocol : Protocol ChatStateData ChatMove where
  name := "chat.v1"
  initialState := initialState
  applyMove := applyMove hash
  encodeState := encodeState
  balances state := ⟨state.balanceA, state.balanceB⟩
  isTerminal _ := false

end Chat

/-! ### The wall of one painter -/

/-- The constructor wants all three positive. -/
structure WorldCanvasConfig where
  chunkSize : Int := 256
  numColors : Int := 16
  cap : Int := 1000000000000

structure WorldCanvasState where
  rollingDigest : Bytes
  count : Int
  lastPainter : Option Party
  balanceA : Int
  balanceB : Int
  total : Int
deriving DecidableEq

structure WorldCanvasMove where
  cx : Int
  cy : Int
  x : Int
  y : Int
  color : Int
deriving DecidableEq

namespace WorldCanvas

def coordMin : Int := -2 ^ 63
def coordMax : Int := 2 ^ 63 - 1

def painterByte : Party → UInt8
  | .A => 1
  | .B => 2

/-- `(n << 1n) ^ (n >> 63n)` on a signed 64-bit index. -/
def zigzag64 (n : Int) : Int := if n < 0 then -2 * n - 1 else 2 * n

def encodeWorldCanvasMove (move : WorldCanvasMove) (byParty : Party) : Except String Bytes := do
  let place ← u64s [zigzag64 move.cx, zigzag64 move.cy, move.x, move.y]
  pure (painterByte byParty :: place ++ [byteOf move.color])

variable (hash : Hash) (cfg : WorldCanvasConfig)

def initialState (ctx : ProtocolContext) : WorldCanvasState where
  rollingDigest := List.replicate 32 0
  count := 0
  lastPainter := none
  balanceA := ctx.initialBalances.a
  balanceB := ctx.initialBalances.b
  total := ctx.initialBalances.a + ctx.initialBalances.b

def applyMove (state : WorldCanvasState) (move : WorldCanvasMove) (byParty : Party) :
    Except String WorldCanvasState := do
  require (state.count < cfg.cap) "canvas paint cap reached"
  require (coordMin ≤ move.cx ∧ move.cx ≤ coordMax)
    s!"chunk cx out of signed-64 range: {move.cx}"
  require (coordMin ≤ move.cy ∧ move.cy ≤ coordMax)
    s!"chunk cy out of signed-64 range: {move.cy}"
  require (0 ≤ move.x ∧ move.x < cfg.chunkSize) s!"x out of range: {move.x}"
  require (0 ≤ move.y ∧ move.y < cfg.chunkSize) s!"y out of range: {move.y}"
  require (0 ≤ move.color ∧ move.color < cfg.numColors) s!"color out of range: {move.color}"
  let delta ← encodeWorldCanvasMove move byParty
  pure
    { state with
      rollingDigest := Games.rollingDigest hash state.rollingDigest delta
      count := state.count + 1
      lastPainter := some byParty }

def encodeState (state : WorldCanvasState) : Except String Bytes :=
  encodeStream (protocolDomain "world_canvas.v1") state.rollingDigest state.count
    state.balanceA state.balanceB

def protocol : Protocol WorldCanvasState WorldCanvasMove where
  name := "world_canvas.v1"
  initialState := initialState
  applyMove := applyMove hash cfg
  encodeState := encodeState
  balances state := ⟨state.balanceA, state.balanceB⟩
  isTerminal state := decide (cfg.cap ≤ state.count)

end WorldCanvas

/-! ### The wall of two painters -/

structure PvpCellMove where
  cx : Int
  cy : Int
  x : Int
  y : Int
  color : Int
  seq : Int
deriving DecidableEq

structure PvpPaintMove where
  cells : List PvpCellMove
deriving DecidableEq

/-- A painted cell for the renderer. -/
structure PvpCell where
  gx : Int
  gy : Int
  color : Int
  byParty : Party
  seq : Int
  pseq : Int
deriving DecidableEq

structure PvpCanvasState where
  digest : Bytes
  cells : List PvpCell
  paintCount : Int
  updates : Int
  appliedSeqA : Int
  appliedSeqB : Int
  balanceA : Int
  balanceB : Int
  total : Int
deriving DecidableEq

namespace WorldCanvasPvp

def chunkSize : Int := 256
def numColors : Int := 16
def maxRenderCells : Nat := 8000
def maxBatchCells : Nat := 128
def worldCanvasUpdateCap : Int := 100000

/-- The text of a painted cell, which the digest takes in. The sequence number is not part
of it. -/
def cellDelta (c : PvpCellMove) (byParty : Party) : Bytes :=
  bytesOf s!"{byParty.text}|{c.cx},{c.cy}|{c.x},{c.y}|{c.color}"

def isLegalCell (c : PvpCellMove) : Bool :=
  decide (0 ≤ c.x ∧ c.x < chunkSize ∧ 0 ≤ c.y ∧ c.y < chunkSize ∧ 0 ≤ c.color ∧
    c.color < numColors ∧ 0 ≤ c.seq)

variable (hash : Hash)

def initialState (ctx : ProtocolContext) : PvpCanvasState where
  digest := (hash (protocolDomain "world_canvas.stroke.v1")).bytes
  cells := []
  paintCount := 0
  updates := 0
  appliedSeqA := 0
  appliedSeqB := 0
  balanceA := ctx.initialBalances.a
  balanceB := ctx.initialBalances.b
  total := ctx.initialBalances.a + ctx.initialBalances.b

/-- The idempotency cursor of a seat. -/
def appliedSeq (state : PvpCanvasState) : Party → Int
  | .A => state.appliedSeqA
  | .B => state.appliedSeqB

/-- One round of the loop over a batch: a cell at or below the cursor is skipped. -/
def paint (byParty : Party) (state : PvpCanvasState) (c : PvpCellMove) :
    Except String PvpCanvasState := do
  require (isLegalCell c = true) "world-canvas-pvp: illegal paint"
  if c.seq ≤ appliedSeq state byParty then pure state
  else
    let paintCount := state.paintCount + 1
    pure
      { state with
        appliedSeqA := if byParty = .A then c.seq else state.appliedSeqA
        appliedSeqB := if byParty = .A then state.appliedSeqB else c.seq
        digest := rollingDigest hash state.digest (cellDelta c byParty)
        paintCount
        cells := state.cells ++ [⟨c.cx * chunkSize + c.x, c.cy * chunkSize + c.y, c.color,
          byParty, paintCount, c.seq⟩] }

def applyMove (state : PvpCanvasState) (move : PvpPaintMove) (byParty : Party) :
    Except String PvpCanvasState := do
  require (move.cells.length ≤ maxBatchCells) "world-canvas-pvp: illegal batch"
  let painted ← move.cells.foldlM (paint hash byParty) state
  pure
    { painted with
      cells := painted.cells.drop (painted.cells.length - maxRenderCells)
      updates := if state.paintCount < painted.paintCount then state.updates + 1
        else state.updates }

def encodeState (state : PvpCanvasState) : Except String Bytes := .ok state.digest

def protocol : Protocol PvpCanvasState PvpPaintMove where
  name := "world_canvas.stroke.v1"
  initialState := initialState hash
  applyMove := applyMove hash
  encodeState := encodeState
  balances state := ⟨state.balanceA, state.balanceB⟩
  isTerminal state := decide (worldCanvasUpdateCap ≤ state.updates)

end WorldCanvasPvp

end DopamintArena.Games
