import DopamintArena.Foundation.Bytes
import DopamintArena.Foundation.Outcome

/-!
`wallet-pool/src/fund.rs`: the transaction that splits the master's coins and
pays them out. The builder and the codecs are those of the SDK: the calls of the
builder are recorded, and whether the result builds is a parameter, as is the node
behind the RPC client. Signing and sending the transaction are left out. A failed
`expect` is an error of its own.
-/

namespace DopamintArena.WalletPool

open Foundation

inductive Error
  | rpc (message : String)
  | transaction (message : String)
  | insufficientFunds (message : String)
  | invalidInput (message : String)
  | panicked (message : String)
deriving DecidableEq

structure Coin where
  coinType : String
  objectId : String
  version : UInt64
  digest : String
  balance : UInt64
deriving DecidableEq

/-! ### The transaction builder -/

/-- An owned object. -/
structure ObjectInput where
  id : Bytes32
  version : UInt64
  digest : Bytes32
deriving DecidableEq

inductive CallArg
  | object (input : ObjectInput)
  | amount (value : UInt64)
  | address (value : Bytes32)
deriving DecidableEq

inductive Argument
  | gas
  | input (index : Nat)
  | result (command index : Nat)
deriving DecidableEq

inductive Command
  | mergeCoins (target : Argument) (sources : List Argument)
  | splitCoins (coin : Argument) (amounts : List Argument)
  | transferObjects (objects : List Argument) (address : Argument)
deriving DecidableEq

/-- What `fund` has called the SDK's builder with: a record of the calls, with the arguments the
builder hands out for inputs and results. -/
structure TransactionBuilder where
  sender : Option Bytes32 := none
  gasBudget : Option UInt64 := none
  gasPrice : Option UInt64 := none
  gasObjects : List ObjectInput := []
  inputs : List CallArg := []
  commands : List Command := []

namespace TransactionBuilder

def addInput (tx : TransactionBuilder) (arg : CallArg) : Argument × TransactionBuilder :=
  (.input tx.inputs.length, { tx with inputs := tx.inputs ++ [arg] })

def addInputs (tx : TransactionBuilder) : List CallArg → List Argument × TransactionBuilder
  | [] => ([], tx)
  | arg :: rest =>
    let (a, tx) := tx.addInput arg
    let (as, tx) := tx.addInputs rest
    (a :: as, tx)

def addGasObjects (tx : TransactionBuilder) (inputs : List ObjectInput) : TransactionBuilder :=
  { tx with gasObjects := tx.gasObjects ++ inputs }

def addCommand (tx : TransactionBuilder) (command : Command) : TransactionBuilder :=
  { tx with commands := tx.commands ++ [command] }

def mergeCoins (tx : TransactionBuilder) (target : Argument) (sources : List Argument) :
    TransactionBuilder :=
  tx.addCommand (.mergeCoins target sources)

/-- One new coin for each amount. -/
def splitCoins (tx : TransactionBuilder) (coin : Argument) (amounts : List Argument) :
    List Argument × TransactionBuilder :=
  ((List.range amounts.length).map (.result tx.commands.length),
    tx.addCommand (.splitCoins coin amounts))

def transferObjects (tx : TransactionBuilder) (objects : List Argument) (address : Argument) :
    TransactionBuilder :=
  tx.addCommand (.transferObjects objects address)

end TransactionBuilder

/-- The parts of the SDK whose code is elsewhere. -/
structure Sdk where
  addressFromHex : String → Except String Bytes32
  digestFromBase58 : String → Except String Bytes32
  tryBuild : TransactionBuilder → Except String Unit

structure SuiRpc where
  getCoins : (owner coinType : String) → Except Error (List Coin)

/-! ### Funding -/

def suiCoinType : String := "0x2::sui::SUI"
def gasBudget : UInt64 := 200000000
def gasPrice : UInt64 := 1000

structure FundOptions where
  coinType : String
  amountPerRecipient : UInt64
  recipients : List String

def checkedAdd (a b : UInt64) : Option UInt64 :=
  if a.toNat + b.toNat < 2 ^ 64 then some (a + b) else none

def checkedMul (a b : UInt64) : Option UInt64 :=
  if a.toNat * b.toNat < 2 ^ 64 then some (a * b) else none

/-- `sort_by_key(|c| Reverse(c.balance))`, a stable sort. -/
def sortDescending (coins : List Coin) : List Coin :=
  coins.insertionSort fun c d => d.balance ≤ c.balance

/-- The loop over the sorted coins. -/
def selectLoop (amount : UInt64) :
    List Coin → UInt64 → List Coin → Option (UInt64 × List Coin)
  | [], sum, selected => some (sum, selected)
  | coin :: rest, sum, selected =>
    if amount ≤ sum then some (sum, selected)
    else do
      let sum ← checkedAdd sum coin.balance
      selectLoop amount rest sum (selected ++ [coin])

def selectCoinsForAmount (coins : List Coin) (amount : UInt64) : Option (List Coin) := do
  let (sum, selected) ← selectLoop amount (sortDescending coins) 0 []
  if amount ≤ sum then some selected else none

section

variable (sdk : Sdk)

/-- `map_err(|e| Error::InvalidInput(format!("invalid {what}: {e}")))`. -/
def invalid {α : Type} (what : String) (result : Except String α) : Except Error α :=
  result.mapError fun e => .invalidInput s!"invalid {what}: {e}"

/-- `ok_or_else`. -/
def okOr {α : Type} (value : Option α) (error : Error) : Except Error α :=
  match value with
  | some a => .ok a
  | none => .error error

/-- For SUI the selected coins also pay the gas. -/
def requiredBalance (isSui : Bool) (totalAmount : UInt64) : Except Error UInt64 :=
  if isSui then
    okOr (checkedAdd totalAmount gasBudget) (.invalidInput "required balance overflows u64")
  else .ok totalAmount

def objectIdFromStr (s : String) : Except Error Bytes32 :=
  invalid s!"object id {s}" (sdk.addressFromHex s)

def digestFromStr (s : String) : Except Error Bytes32 :=
  invalid s!"digest {s}" (sdk.digestFromBase58 s)

def coinToObjectInput (coin : Coin) : Except Error ObjectInput := do
  let id ← objectIdFromStr sdk coin.objectId
  let digest ← digestFromStr sdk coin.digest
  pure ⟨id, coin.version, digest⟩

def addGasObjectsFromCoins (tx : TransactionBuilder) (coins : List Coin) :
    Except Error TransactionBuilder := do
  let inputs ← coins.mapM (coinToObjectInput sdk)
  pure (tx.addGasObjects inputs)

def addMergeCommandIfNeeded (tx : TransactionBuilder) (target : Argument)
    (sources : List Coin) : Except Error TransactionBuilder :=
  if sources.isEmpty then .ok tx
  else do
    let inputs ← sources.mapM fun c =>
      (coinToObjectInput sdk c).mapError fun _ => .panicked "coin inputs already validated"
    let (sourceArgs, tx) := tx.addInputs (inputs.map .object)
    pure (tx.mergeCoins target sourceArgs)

/-- `for (coin, recipient) in split_coins.zip(recipients)`. -/
def addTransfers (tx : TransactionBuilder) :
    List (Argument × String) → Except Error TransactionBuilder
  | [] => pure tx
  | (coin, recipient) :: rest => do
    let recipientAddr ← invalid s!"recipient address {recipient}"
      (sdk.addressFromHex recipient)
    let (recipientArg, tx) := tx.addInput (.address recipientAddr)
    addTransfers (tx.transferObjects [coin] recipientArg) rest

/-- The coin to split: for SUI the gas coin, else a token coin next to separate gas coins. -/
def addCoins (rpc : SuiRpc) (masterAddress : String) (isSui : Bool)
    (selectedCoins : List Coin) (tx : TransactionBuilder) :
    Except Error (Argument × TransactionBuilder) :=
  if isSui then do
    let tx ← addGasObjectsFromCoins sdk tx selectedCoins
    let tx ← addMergeCommandIfNeeded sdk tx .gas selectedCoins.tail
    pure (.gas, tx)
  else do
    let gasCoins ← rpc.getCoins masterAddress suiCoinType
    let selectedGas ← okOr (selectCoinsForAmount gasCoins gasBudget)
      (.insufficientFunds s!"no set of SUI coins with aggregate balance >= {gasBudget}")
    let tx ← addGasObjectsFromCoins sdk tx selectedGas
    let tx ← addMergeCommandIfNeeded sdk tx .gas selectedGas.tail
    match selectedCoins with
    | [] => .error (.panicked "index out of bounds")
    | first :: others =>
      let input ← coinToObjectInput sdk first
      let (coinArg, tx) := tx.addInput (.object input)
      let tx ← addMergeCommandIfNeeded sdk tx coinArg others
      pure (coinArg, tx)

/-- Splits one coin for each recipient and transfers it. -/
def addPayouts (opts : FundOptions) (coinArg : Argument) (tx : TransactionBuilder) :
    Except Error TransactionBuilder :=
  let (amounts, tx) := tx.addInputs (opts.recipients.map fun _ => .amount opts.amountPerRecipient)
  let (splitCoins, tx) := tx.splitCoins coinArg amounts
  addTransfers sdk tx (splitCoins.zip opts.recipients)

/-- `fund` up to `try_build`. -/
def fundTransaction (rpc : SuiRpc) (masterAddress : String) (opts : FundOptions) :
    Except Error TransactionBuilder := do
  require (opts.recipients.isEmpty = false)
    (Error.invalidInput "at least one recipient is required")
  require (opts.amountPerRecipient ≠ 0)
    (Error.invalidInput "amount_per_recipient must be greater than zero")
  let sender ← invalid "master address" (sdk.addressFromHex masterAddress)
  let totalAmount ← okOr
    (checkedMul opts.amountPerRecipient (UInt64.ofNat opts.recipients.length))
    (.invalidInput "total amount overflows u64")
  let coins ← rpc.getCoins masterAddress opts.coinType
  let isSui := opts.coinType == suiCoinType
  let requiredCoinBalance ← requiredBalance isSui totalAmount
  let selectedCoins ← okOr (selectCoinsForAmount coins requiredCoinBalance)
    (.insufficientFunds s!"no set of {opts.coinType} coins with aggregate balance >= {requiredCoinBalance}")
  let tx : TransactionBuilder :=
    { sender := some sender, gasBudget := some gasBudget, gasPrice := some gasPrice }
  let (coinArg, tx) ← addCoins sdk rpc masterAddress isSui selectedCoins tx
  let tx ← addPayouts sdk opts coinArg tx
  (sdk.tryBuild tx).mapError fun e => .transaction s!"failed to build PTB: {e}"
  pure tx

end

end DopamintArena.WalletPool
