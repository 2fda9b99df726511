import DopamintArena.Engine.Wire

/-!
`protocol/Protocol.ts`: what a game supplies to the off-chain engine. A
protocol that throws on an illegal move, or while encoding a state, returns
an error here. Everything about keys, wire bytes and the chain stays with the
engine.
-/

namespace DopamintArena.Engine

open Foundation

/-- The two sides of a tunnel. -/
inductive Party
  | A
  | B
deriving DecidableEq

def otherParty : Party → Party
  | .A => .B
  | .B => .A

/-- The name of a side inside an error message. -/
def Party.text : Party → String
  | .A => "A"
  | .B => "B"

structure Balances where
  a : Int
  b : Int
deriving DecidableEq

structure ProtocolContext where
  tunnelId : String
  initialBalances : Balances

/-- A protocol over an off-chain tunnel. -/
structure Protocol (State Move : Type) where
  name : String
  movesCarrySecrets : Bool := false
  initialState : ProtocolContext → State
  applyMove : State → Move → Party → Except String State
  encodeState : State → Except String Bytes
  balances : State → Balances
  isTerminal : State → Bool

/-- A move is legal if applying it does not throw. -/
def Protocol.Legal {State Move : Type} (protocol : Protocol State Move) (state : State)
    (move : Move) (party : Party) : Prop :=
  ∃ next, protocol.applyMove state move party = .ok next

/-- At most one seat has a legal move in any state. -/
def Protocol.TurnBased {State Move : Type} (protocol : Protocol State Move) : Prop :=
  ∀ state move move', protocol.Legal state move .A → ¬protocol.Legal state move' .B

/-- No seat has a legal move any more. -/
def Protocol.Frozen {State Move : Type} (protocol : Protocol State Move) (state : State) :
    Prop :=
  ∀ move party, ¬protocol.Legal state move party

/-- States with the same encoding have the same balances. -/
def Protocol.EncodesBalances {State Move : Type} (protocol : Protocol State Move) : Prop :=
  ∀ state state' bytes, protocol.encodeState state = .ok bytes →
    protocol.encodeState state' = .ok bytes → protocol.balances state = protocol.balances state'

def protocolDomain (name : String) : Bytes := bytesOf ("sui_tunnel::proto::" ++ name)

/-- Each part becomes its length as a `u64` followed by the part. An array is shorter
than `2^64`, so the length is always in range. -/
def lengthPrefixedConcat (parts : List Bytes) : Bytes :=
  (parts.map fun part => beBytes 8 part.length ++ part).flatten

@[simp] theorem otherParty_otherParty (p : Party) : otherParty (otherParty p) = p := by
  cases p <;> rfl

theorem otherParty_ne (p : Party) : otherParty p ≠ p := by
  cases p <;> decide

theorem eq_otherParty_of_ne {p q : Party} (h : p ≠ q) : p = otherParty q := by
  cases p <;> cases q <;> first | rfl | exact absurd rfl h

theorem Protocol.TurnBased.not_both {State Move : Type} {protocol : Protocol State Move}
    (h : protocol.TurnBased) {state : State} {move move' : Move} {p q : Party} (hne : p ≠ q)
    (hp : protocol.Legal state move p) : ¬protocol.Legal state move' q := by
  intro hq
  cases p <;> cases q
  · exact hne rfl
  · exact h state move move' hp hq
  · exact h state move' move hq hp
  · exact hne rfl

end DopamintArena.Engine
