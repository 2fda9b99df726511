import DopamintArena.Backend.SettleBatch

/-!
The batched settle path of `sui.rs`: resolve the tunnels of all closes, read the
epoch, and hand the batch to `split_submit`, which submits each sub-batch as one
transaction. The fullnode is a parameter, typed: the shapes of its JSON are left
out, and so are the nonce of a transaction and the settler's signature.

A `Chain` is a node that never rate-limits and answers truthfully. Each close is
judged on its own tunnel; a transaction takes effect as a whole or not at all.
-/

namespace DopamintArena.Backend

open Foundation

/-- A shared object's reference: id and the version it was first shared at. -/
structure SharedRef where
  id : Bytes32
  initialSharedVersion : UInt64
deriving DecidableEq

inductive RpcError
  | transient (retryAfter : Option UInt64)
  | permanent

/-- An `anyhow` error: its text, and the rate limit it stems from, if it does. -/
structure Failure where
  text : String
  rateLimit : Option (Option UInt64)

def anyhowToCloseError (e : Failure) : CloseError :=
  match e.rateLimit with
  | some retryAfter => .transient e.text retryAfter
  | none => .rejected e.text

def anyhow (text : String) : Failure := ⟨text, none⟩

/-- One object of `sui_multiGetObjects`: its shared version, if it is shared, and its text. -/
structure RpcObject where
  initialSharedVersion : Option UInt64
  text : String

/-- One call of `close_cooperative_with_root` for every close. -/
structure CloseTx where
  calls : List (CloseArgs × SharedRef)
  gasBudget : Nat
  gasPrice : UInt64
  epoch : UInt64

/-- The effects of a transaction: the text of a status other than success, and the digest. -/
structure Effects where
  failure : Option String
  digest : Option String

structure Node (σ : Type) where
  multiGetObjects : σ → List String → Except RpcError (List RpcObject)
  latestSystemState : σ → Except RpcError (UInt64 × UInt64)
  dryRun : σ → CloseTx → Except RpcError Effects
  execute : σ → CloseTx → Except RpcError Effects × σ

/-- The context keeps a rate limit as the source of the error. -/
def rpc {α : Type} (method : String) (answer : Except RpcError α) : Except Failure α :=
  match answer with
  | .ok a => .ok a
  | .error (.transient retryAfter) => .error ⟨s!"rpc {method}", some retryAfter⟩
  | .error .permanent => .error ⟨s!"rpc {method}", none⟩

/-- `ok_or_else`. -/
def okOr {α ε : Type} (o : Option α) (e : ε) : Except ε α :=
  match o with
  | some a => .ok a
  | none => .error e

def gasBudgetPerClose : Nat := 100000000
def maxBatchGasBudget : Nat := 50000 * 1000000000
def maxSettleSplitDepth : Nat := 7

section Settler

variable {σ : Type} (node : Node σ) (addressFromStr : String → Option Bytes32)

def resolveOne (obj : RpcObject) (id : String) : Except Failure SharedRef := do
  let isv ← okOr obj.initialSharedVersion
    (anyhow s!"object {id} is not a shared tunnel: {obj.text}")
  let address ← okOr (addressFromStr id) (anyhow "tunnel id")
  pure ⟨address, isv⟩

def resolveChunk (s : σ) (chunk : List String) : Except Failure (List SharedRef) := do
  let arr ← rpc "sui_multiGetObjects" (node.multiGetObjects s chunk)
  require (arr.length = chunk.length)
    (anyhow s!"multiGetObjects returned {arr.length} objects for {chunk.length} ids")
  (arr.zip chunk).mapM fun p => resolveOne addressFromStr p.1 p.2

/-- `for chunk in ids.chunks(50)`. -/
def resolveChunks (s : σ) : (fuel : Nat) → List String → Except Failure (List SharedRef)
  | 0, _ => pure []
  | fuel + 1, ids =>
    if ids.isEmpty then pure []
    else do
      let refs ← resolveChunk node addressFromStr s (ids.take 50)
      let rest ← resolveChunks s fuel (ids.drop 50)
      pure (refs ++ rest)

def resolveSharedMany (s : σ) (ids : List String) : Except Failure (List SharedRef) :=
  resolveChunks node addressFromStr s ids.length ids

def epochAndGasPrice (s : σ) : Except Failure (UInt64 × UInt64) :=
  rpc "suix_getLatestSuiSystemState" (node.latestSystemState s)

def buildCloseBatchTx (closes : List CloseArgs) (tunnels : List SharedRef)
    (gasPrice epoch : UInt64) : Except String CloseTx := do
  require (closes ≠ []) "empty batch"
  require (closes.length = tunnels.length)
    s!"closes/tunnels length mismatch: {closes.length} vs {tunnels.length}"
  let calls ← (closes.zip tunnels).mapM fun p => do
    require (p.1.transcriptRoot.length = 32)
      s!"transcript_root must be 32 bytes, got {p.1.transcriptRoot.length}"
    pure p
  pure
    { calls
      gasBudget := min (min (gasBudgetPerClose * closes.length) (2 ^ 64 - 1)) maxBatchGasBudget
      gasPrice := if gasPrice = 0 then 1 else gasPrice
      epoch }

def dryRun (s : σ) (tx : CloseTx) : Except Failure Unit := do
  let effects ← rpc "sui_dryRunTransactionBlock" (node.dryRun s tx)
  match effects.failure with
  | some text => .error (anyhow s!"close dry-run failed: {text}")
  | none => pure ()

def execute (s : σ) (tx : CloseTx) : Except Failure String × σ :=
  let (answer, s) := node.execute s tx
  (do
    let effects ← rpc "sui_executeTransactionBlock" answer
    match effects.failure with
    | some text => .error (anyhow s!"on-chain execution failed: {text}")
    | none => okOr effects.digest (anyhow "no digest in execute result"), s)

def trySubmitOnePtb (s : σ) (sub : List CloseArgs) (refs : List SharedRef)
    (epoch gasPrice : UInt64) : CloseResult × σ :=
  match buildCloseBatchTx sub refs gasPrice epoch with
  | .error e => (.error (.rejected s!"build batch: {e}"), s)
  | .ok tx =>
    match dryRun node s tx with
    | .error e => (.error (anyhowToCloseError e), s)
    | .ok () =>
      match execute node s tx with
      | (.error e, s) => (.error (anyhowToCloseError e), s)
      | (.ok digest, s) => (.ok digest, s)

/-- The closure that `split_submit` gets; a missing key of `ref_map` is a panic. -/
def submitSub (refMap : List (String × SharedRef)) (epoch gasPrice : UInt64) (s : σ)
    (sub : List CloseArgs) : Except String (CloseResult × σ) := do
  let refs ← sub.mapM fun c => okOr (refMap.lookup c.tunnelId) "no entry found for key"
  pure (trySubmitOnePtb node s sub refs epoch gasPrice)

def submitCloseBatch (s : σ) (closes : List CloseArgs) :
    Except String (List CloseResult × σ) :=
  if closes.isEmpty then .ok ([], s)
  else
    let ids := closes.map CloseArgs.tunnelId
    match resolveSharedMany node addressFromStr s ids with
    | .error e => .ok (closes.map fun _ => .error (anyhowToCloseError e), s)
    | .ok refs =>
      match epochAndGasPrice node s with
      | .error e => .ok (closes.map fun _ => .error (anyhowToCloseError e), s)
      | .ok (epoch, gasPrice) =>
        -- A map collected from pairs keeps the last value of a key.
        let refMap := (ids.zip refs).reverse
        splitSubmit closes maxSettleSplitDepth (submitSub node refMap epoch gasPrice) s

end Settler

/-! ### A truthful node -/

/-- What the chain knows: how it reads an id, which objects are shared, and which closes their
tunnel accepts while it is open. -/
structure Chain where
  address : String → Option Bytes32
  sharedVersion : Bytes32 → Option UInt64
  accepts : Bytes32 → CloseArgs → Bool
  epoch : UInt64
  gasPrice : UInt64
  digest : CloseTx → String

namespace Chain

variable (chain : Chain)

/-- One call, on the tunnels that are closed already. -/
def closeOne (closed : List Bytes32) (call : CloseArgs × SharedRef) : Option (List Bytes32) :=
  if chain.sharedVersion call.2.id = some call.2.initialSharedVersion ∧
      chain.accepts call.2.id call.1 = true ∧ call.2.id ∉ closed then
    some (call.2.id :: closed)
  else none

/-- The calls of a transaction, one after another; an abort undoes them all. -/
def runTx (closed : List Bytes32) (tx : CloseTx) : Option (List Bytes32) :=
  tx.calls.foldlM chain.closeOne closed

def node : Node (List Bytes32) where
  multiGetObjects _ ids :=
    match ids.mapM chain.address with
    | some addresses => .ok (addresses.map fun id => ⟨chain.sharedVersion id, ""⟩)
    | none => .error .permanent
  latestSystemState _ := .ok (chain.epoch, chain.gasPrice)
  dryRun closed tx :=
    .ok ⟨if (chain.runTx closed tx).isSome then none else some "abort", none⟩
  execute closed tx :=
    match chain.runTx closed tx with
    | some after => (.ok ⟨none, some (chain.digest tx)⟩, after)
    | none => (.ok ⟨some "abort", some (chain.digest tx)⟩, closed)

def refOf (id : String) : Option SharedRef := do
  let address ← chain.address id
  let version ← chain.sharedVersion address
  pure ⟨address, version⟩

/-- The close would succeed on its own. -/
def Lands (closed : List Bytes32) (c : CloseArgs) : Prop :=
  ∃ ref, chain.refOf c.tunnelId = some ref ∧ chain.accepts ref.id c = true ∧ ref.id ∉ closed ∧
    c.transcriptRoot.length = 32

/-- The result that a close deserves. -/
def Fair (closed : List Bytes32) (c : CloseArgs) (r : CloseResult) : Prop :=
  (chain.Lands closed c ∧ ∃ digest, r = .ok digest) ∨
    (¬chain.Lands closed c ∧ ∃ msg, r = .error (.rejected msg))

end Chain

end DopamintArena.Backend
