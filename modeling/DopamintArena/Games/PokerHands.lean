import Mathlib.Data.List.Sort
import DopamintArena.Games.Commitment

/-!
The card evaluator of `protocol/quantumPoker.ts`. A card is a number below 52:
its rank is the remainder modulo 13 and its suit the quotient. Exact duplicates
are legal cards of the virtual deck, so five of a kind is a category.
-/

namespace DopamintArena.Games

open Foundation Engine

structure BestHand where
  score : Int
  cards : List Int
deriving DecidableEq

namespace QuantumPoker

def validateCards (cards : List Int) : Except String Unit :=
  match cards.find? (fun c => decide (c < 0 ∨ 51 < c)) with
  | some c => .error s!"card out of range 0..51: {c}"
  | none => .ok ()

/-- The choices of `k` cards in the order of their positions. -/
def combinations : Nat → List Int → List (List Int)
  | 0, _ => [[]]
  | _ + 1, [] => []
  | k + 1, card :: cards => (combinations k cards).map (card :: ·) ++ combinations (k + 1) cards

/-- How often each rank occurs, most frequent and then highest first, as pairs of count
and rank. -/
def rankGroups (ranks : List Int) : List (Nat × Int) :=
  (ranks.dedup.map fun rank => (ranks.count rank, rank)).insertionSort fun x y =>
    y.1 < x.1 ∨ (x.1 = y.1 ∧ y.2 ≤ x.2)

/-- The top rank of a straight in distinct ranks sorted downwards; with the ace low it
is 3. -/
def straightHigh : List Int → Option Int
  | [a, b, c, d, e] =>
    if a - e = 4 then some a
    else if a = 12 ∧ b = 3 ∧ c = 2 ∧ d = 1 ∧ e = 0 then some 3
    else none
  | _ => none

def categoryOf (groups : List (Nat × Int)) (straight flush : Bool) : Int :=
  let first := (groups.map Prod.fst).getD 0 0
  let second := (groups.map Prod.fst).getD 1 0
  if first = 5 then 9
  else if straight && flush then 8
  else if first = 4 then 7
  else if first = 3 ∧ second = 2 then 6
  else if flush then 5
  else if straight then 4
  else if first = 3 then 3
  else if first = 2 ∧ second = 2 then 2
  else if first = 2 then 1
  else 0

def evaluate5 (cards : List Int) : Except String Int := do
  require (cards.length = 5) "evaluate5 needs exactly 5 cards"
  validateCards cards
  let ranks := (cards.map fun c => c.tmod 13).insertionSort (· ≥ ·)
  let suits := cards.map fun c => c.tdiv 13
  let flush := suits.all fun suit => decide (suit = suits.getD 0 0)
  let groups := rankGroups ranks
  let high := straightHigh (ranks.dedup.insertionSort (· ≥ ·))
  let category := categoryOf groups high.isSome flush
  let tieBreak := match high with
    | some top => [top]
    | none => groups.map Prod.snd
  pure ((List.range 5).foldl (fun score i => score * 13 + tieBreak.getD i 0) category)

/-- Keeps the first of the best hands. -/
def betterHand (best : Option BestHand) (hand : List Int) : Except String (Option BestHand) := do
  let score ← evaluate5 hand
  match best with
  | none => pure (some ⟨score, hand⟩)
  | some b => if b.score < score then pure (some ⟨score, hand⟩) else pure (some b)

def bestPokerHand (cards : List Int) : Except String BestHand := do
  require (5 ≤ cards.length) "bestPokerHand needs at least 5 cards"
  require (cards.length ≤ 7) "bestPokerHand supports at most 7 cards"
  validateCards cards
  let best ← (combinations 5 cards).foldlM betterHand none
  match best with
  | some b => pure b
  | none => .error "no hand"

end QuantumPoker

end DopamintArena.Games
