import DopamintArena.Engine.Protocol

/-!
`protocol/payments.ts`: bidirectional micropayments. Either side may pay at any
time.
-/

namespace DopamintArena.Games

open Foundation Engine

structure PaymentsState where
  balanceA : Int
  balanceB : Int
  total : Int
  count : Int
deriving DecidableEq

structure PaymentMove where
  fromParty : Party
  amount : Int
deriving DecidableEq

namespace Payments

def initialState (ctx : ProtocolContext) : PaymentsState where
  balanceA := ctx.initialBalances.a
  balanceB := ctx.initialBalances.b
  total := ctx.initialBalances.a + ctx.initialBalances.b
  count := 0

def applyMove (state : PaymentsState) (move : PaymentMove) (byParty : Party) :
    Except String PaymentsState := do
  require (move.fromParty = byParty)
    s!"move.from ({move.fromParty.text}) must equal signer ({byParty.text})"
  require (0 < move.amount) "payment amount must be positive"
  let fromBal := match move.fromParty with
    | .A => state.balanceA
    | .B => state.balanceB
  require (move.amount ≤ fromBal)
    s!"insufficient balance: {move.fromParty.text} has {fromBal}, sends {move.amount}"
  pure <| match move.fromParty with
    | .A => { state with
        balanceA := state.balanceA - move.amount, balanceB := state.balanceB + move.amount
        count := state.count + 1 }
    | .B => { state with
        balanceA := state.balanceA + move.amount, balanceB := state.balanceB - move.amount
        count := state.count + 1 }

def encodeState (state : PaymentsState) : Except String Bytes := do
  let balanceA ← u64ToBeBytes state.balanceA
  let balanceB ← u64ToBeBytes state.balanceB
  let count ← u64ToBeBytes state.count
  pure (protocolDomain "payments.v1" ++ balanceA ++ balanceB ++ count)

def protocol : Protocol PaymentsState PaymentMove where
  name := "payments.v1"
  initialState := initialState
  applyMove := applyMove
  encodeState := encodeState
  balances state := ⟨state.balanceA, state.balanceB⟩
  isTerminal _ := false

/-- The encoding determines everything but the locked total. -/
theorem encodeState_inj {s s' : PaymentsState} {bytes : Bytes}
    (hs : encodeState s = .ok bytes) (hs' : encodeState s' = .ok bytes) :
    s.balanceA = s'.balanceA ∧ s.balanceB = s'.balanceB ∧ s.count = s'.count := by
  simp only [encodeState, returned] at hs hs'
  obtain ⟨_, ha, _, hb, _, hc, rfl⟩ := hs
  obtain ⟨_, ha', _, hb', _, hc', hbytes⟩ := hs'
  obtain ⟨hbytes, hcount⟩ := u64ToBeBytes_append_inj hc hc' hbytes
  obtain ⟨hbytes, hB⟩ := u64ToBeBytes_append_inj hb hb' hbytes
  obtain ⟨-, hA⟩ := u64ToBeBytes_append_inj ha ha' hbytes
  exact ⟨hA, hB, hcount⟩

theorem encodesBalances : protocol.EncodesBalances := by
  intro s s' bytes hs hs'
  obtain ⟨hA, hB, -⟩ := encodeState_inj hs hs'
  simp [protocol, hA, hB]

end Payments

end DopamintArena.Games
