import DopamintArena.Backend.SettleQueue
import DopamintArena.Foundation.Taint

/-!
The sponsor of `sui.rs`: a client sends a transaction kind and names a sender, and
the settler wraps it into a transaction of this sender whose gas it pays itself.
The gate is `validate_sponsorable_inner`. The transaction types follow the SDK;
the BCS decoding of the kind, the dry run and the signature are left out.
-/

namespace DopamintArena.Backend

open Foundation
open DopamintArena.Engine (toHex)

inductive Primitive
  | bool | u8 | u16 | u32 | u64 | u128 | u256 | address | signer
deriving DecidableEq

inductive TypeTag
  | primitive (type : Primitive)
  | vector (element : TypeTag)
  | struct (address : Bytes32) (module name : String) (typeParams : List TypeTag)

namespace TypeTag

mutual

def decEq : (x y : TypeTag) → Decidable (x = y)
  | .primitive p, .primitive p' => decidable_of_iff (p = p') (by simp)
  | .vector e, .vector e' =>
    have := decEq e e'
    decidable_of_iff (e = e') (by simp)
  | .struct a m n ps, .struct a' m' n' ps' =>
    have := decEqList ps ps'
    decidable_of_iff (a = a' ∧ m = m' ∧ n = n' ∧ ps = ps') (by simp)
  | .primitive _, .vector _ | .primitive _, .struct _ _ _ _ | .vector _, .primitive _
  | .vector _, .struct _ _ _ _ | .struct _ _ _ _, .primitive _ | .struct _ _ _ _, .vector _ =>
    isFalse (by simp)

def decEqList : (xs ys : List TypeTag) → Decidable (xs = ys)
  | [], [] => isTrue rfl
  | x :: xs, y :: ys =>
    have := decEq x y
    have := decEqList xs ys
    decidable_of_iff (x = y ∧ xs = ys) (by simp)
  | [], _ :: _ | _ :: _, [] => isFalse (by simp)

end

instance : DecidableEq TypeTag := decEq

end TypeTag

inductive Argument
  | gas
  | input (index : Nat)
  | result (command : Nat)
  | nestedResult (command index : Nat)
deriving DecidableEq

structure MoveCall where
  package : Bytes32
  module : String
  function : String
  typeArguments : List TypeTag
  arguments : List Argument
deriving DecidableEq

/-- `other` is a command that this version of the SDK does not know. -/
inductive Command
  | moveCall (call : MoveCall)
  | transferObjects (objects : List Argument) (address : Argument)
  | splitCoins (coin : Argument) (amounts : List Argument)
  | mergeCoins (coin : Argument) (coinsToMerge : List Argument)
  | publish
  | makeMoveVector (elements : List Argument)
  | upgrade (ticket : Argument)
  | other
deriving DecidableEq

inductive WithdrawFrom
  | sender
  | sponsor
deriving DecidableEq

structure FundsWithdrawal where
  amount : UInt64
  coinType : TypeTag
  source : WithdrawFrom
deriving DecidableEq

inductive Input
  | pure (value : Bytes)
  | immutableOrOwned (id : Bytes32)
  | shared (id : Bytes32)
  | receiving (id : Bytes32)
  | fundsWithdrawal (w : FundsWithdrawal)
deriving DecidableEq

structure ProgrammableTransaction where
  inputs : List Input
  commands : List Command
deriving DecidableEq

/-! ### The gate -/

def suiFrameworkAddress : Bytes32 := ⟨List.replicate 31 0 ++ [2], rfl⟩

def sponsorTunnelFns : List String :=
  ["create", "deposit_party_a", "deposit_party_b", "entry_deposit", "entry_create_and_share",
    "create_and_fund", "close_cooperative", "close_cooperative_with_root",
    "entry_close_cooperative", "entry_close_cooperative_with_root"]

structure ExampleModule where
  package : Bytes32
  module : String
  fns : List String

def commandReferencesGas : Command → Bool
  | .moveCall call => call.arguments.any (· = .gas)
  | .splitCoins coin amounts => decide (coin = .gas) || amounts.any (· = .gas)
  | .mergeCoins coin coinsToMerge => decide (coin = .gas) || coinsToMerge.any (· = .gas)
  | .transferObjects objects address => decide (address = .gas) || objects.any (· = .gas)
  | .makeMoveVector elements => elements.any (· = .gas)
  | .publish | .upgrade _ | .other => false

def coinTypeAddress : TypeTag → Option Bytes32
  | .struct address _ _ _ => some address
  | _ => none

section Gate

variable (packageId : Bytes32) (coinType : TypeTag) (examples : List ExampleModule)

section

variable (call : MoveCall)

def isTunnelCall : Prop :=
  call.package = packageId ∧ call.module = "tunnel" ∧ call.function ∈ sponsorTunnelFns

def isFrameworkShare : Prop :=
  call.package = suiFrameworkAddress ∧ call.module = "transfer" ∧
    call.function = "public_share_object"

def isMtpsPackageCall : Prop :=
  coinTypeAddress coinType = some call.package ∧ call.module = "mtps" ∧ call.function = "mint_nft"

def isCoinBalanceOp : Prop :=
  call.package = suiFrameworkAddress ∧ call.module = "coin" ∧
    call.function ∈ ["redeem_funds", "send_funds", "destroy_zero"]

def isExampleCall : Prop :=
  ∃ e ∈ examples, call.package = e.package ∧ call.module = e.module ∧ call.function ∈ e.fns

/-- The calls that are generic over the coin. -/
def isCoinGeneric : Prop :=
  isTunnelCall packageId call ∨ isCoinBalanceOp call ∨ isExampleCall examples call

/-- The calls that the sponsor pays for. -/
def isSponsored : Prop :=
  isTunnelCall packageId call ∨ isFrameworkShare call ∨ isMtpsPackageCall coinType call ∨
    isCoinBalanceOp call ∨ isExampleCall examples call

end

instance (call : MoveCall) : Decidable (isTunnelCall packageId call) :=
  inferInstanceAs (Decidable (_ ∧ _))

instance (call : MoveCall) : Decidable (isFrameworkShare call) :=
  inferInstanceAs (Decidable (_ ∧ _))

instance (call : MoveCall) : Decidable (isMtpsPackageCall coinType call) :=
  inferInstanceAs (Decidable (_ ∧ _))

instance (call : MoveCall) : Decidable (isCoinBalanceOp call) :=
  inferInstanceAs (Decidable (_ ∧ _))

instance (call : MoveCall) : Decidable (isExampleCall examples call) :=
  inferInstanceAs (Decidable (∃ e ∈ examples, _))

instance (call : MoveCall) : Decidable (isCoinGeneric packageId examples call) :=
  inferInstanceAs (Decidable (_ ∨ _))

instance (call : MoveCall) : Decidable (isSponsored packageId coinType examples call) :=
  inferInstanceAs (Decidable (_ ∨ _))

def validateCommand (cmd : Command) : Except String Unit := do
  require (commandReferencesGas cmd = false)
    "sponsor refuses a command that references the gas coin"
  match cmd with
  | .moveCall call => do
    require (isSponsored packageId coinType examples call)
      ("sponsor refuses move call " ++ textOf call.package ++ "::" ++ call.module ++ "::" ++
        call.function)
    require (isCoinGeneric packageId examples call → call.typeArguments = [coinType])
      "sponsor refuses move call with an unexpected coin type"
  | .publish | .upgrade _ => .error "sponsor refuses publish/upgrade commands"
  | .splitCoins _ _ | .mergeCoins _ _ | .transferObjects _ _ | .makeMoveVector _ => pure ()
  | .other => .error "sponsor refuses an unrecognized command"

def validateInput : Input → Except String Unit
  | .fundsWithdrawal w => do
    require (w.source = .sender)
      "sponsor refuses a FundsWithdrawal that is not from the sender"
    require (w.coinType = coinType)
      "sponsor refuses a FundsWithdrawal of an unexpected coin type"
  | _ => pure ()

def validateSponsorableInner (ptb : ProgrammableTransaction) : Except String Unit := do
  ptb.commands.forM (validateCommand packageId coinType examples)
  ptb.inputs.forM (validateInput coinType)

end Gate

/-! ### The sponsored transaction -/

def sponsorGasBudgetPerCommand : Nat := 100000000

inductive TransactionKind
  | programmableTransaction (ptb : ProgrammableTransaction)
  | other
deriving DecidableEq

/-- A transaction whose gas is drawn from the address balance of `gasOwner`. -/
structure SponsoredTx where
  kind : TransactionKind
  sender : Bytes32
  gasOwner : Bytes32
  price : UInt64
  budget : Nat
  epoch : UInt64
  nonce : UInt32
deriving DecidableEq

def buildSponsoredTx (packageId : Bytes32) (coinType : TypeTag) (examples : List ExampleModule)
    (sender gasOwner : Bytes32) (kind : TransactionKind) (gasPrice epoch : UInt64)
    (nonce : UInt32) : Except String SponsoredTx := do
  let numCommands ← match kind with
    | .programmableTransaction ptb => do
      validateSponsorableInner packageId coinType examples ptb
      pure ptb.commands.length
    | .other => .error "only programmable transactions can be sponsored"
  pure
    { kind
      sender
      gasOwner
      price := if gasPrice = 0 then 1 else gasPrice
      budget := max (min (sponsorGasBudgetPerCommand * numCommands) (2 ^ 64 - 1))
        sponsorGasBudgetPerCommand
      epoch
      nonce }

/-! ### Where the coins come from -/

inductive Place
  | gas
  | input (index : Nat)
  | result (command : Nat)
deriving DecidableEq

/-- All results of a command share a place. -/
def Argument.place : Argument → Place
  | .gas => .gas
  | .input index => .input index
  | .result command | .nestedResult command _ => .result command

def Command.arguments : Command → List Argument
  | .moveCall call => call.arguments
  | .transferObjects objects address => objects ++ [address]
  | .splitCoins coin amounts => coin :: amounts
  | .mergeCoins coin coinsToMerge => coin :: coinsToMerge
  | .makeMoveVector elements => elements
  | .upgrade ticket => [ticket]
  | .publish | .other => []

inductive Origin
  | gasCoin
  | balance (owner : Bytes32)
  | object (id : Bytes32)
deriving DecidableEq

namespace ProgrammableTransaction

/-- The origins of an input; a withdrawal draws on the balance of the sender or of the gas
owner. -/
def inputOrigins (sender gasOwner : Bytes32) : Input → Set Origin
  | .pure _ => ∅
  | .immutableOrOwned id | .shared id | .receiving id => {.object id}
  | .fundsWithdrawal w =>
    {.balance (match w.source with
      | .sender => sender
      | .sponsor => gasOwner)}

/-- What the places hold before the first command. -/
def initialFlow (ptb : ProgrammableTransaction) (sender gasOwner : Bytes32) :
    Taint.Flow Place Origin
  | .gas => {.gasCoin}
  | .input index => {o | ∃ i, ptb.inputs[index]? = some i ∧ o ∈ inputOrigins sender gasOwner i}
  | .result _ => ∅

/-- The commands as operations on the places. -/
def program (ptb : ProgrammableTransaction) : List (Operation Place) :=
  ptb.commands.zipIdx.map fun p => ⟨p.1.arguments.map Argument.place, .result p.2⟩

/-- The gas owner's funds. -/
def gasOwnerFunds (gasOwner : Bytes32) : Set Origin := {.gasCoin, .balance gasOwner}

/-- No value that reaches a command derives from the gas owner's funds. -/
def SparesGasOwner (ptb : ProgrammableTransaction) (sender gasOwner : Bytes32) : Prop :=
  Taint.Clean (gasOwnerFunds gasOwner) (ptb.initialFlow sender gasOwner) ptb.program

end ProgrammableTransaction

end DopamintArena.Backend
