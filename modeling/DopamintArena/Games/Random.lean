import DopamintArena.Engine.Protocol

/-!
The public pseudo-randomness of the grid games. JavaScript's `Math.imul`, `^`,
`|` and `>>>` work on 32-bit words, so the generators are word arithmetic; a
draw is kept as the numerator of the fraction over `2^32` that the code
divides out.
-/

namespace DopamintArena.Games

open Foundation Engine

/-- The UTF-16 code units `charCodeAt` returns. -/
def utf16Units (text : String) : List Nat :=
  text.toList.flatMap fun c =>
    if c.toNat < 0x10000 then [c.toNat]
    else [0xD800 + (c.toNat - 0x10000) / 0x400, 0xDC00 + (c.toNat - 0x10000) % 0x400]

/-- FNV-1a over the code units of the tunnel id. -/
def seedFromTunnelId (tunnelId : String) : Int :=
  ((utf16Units tunnelId).foldl
    (fun h code => (h ^^^ code.toUInt32) * 16777619) (2166136261 : UInt32)).toNat

/-- One draw of Mulberry32: the next state, and the draw as a numerator over `2^32`. -/
def mulberry32 (a : UInt32) : UInt32 × UInt32 :=
  let a := a + 0x6d2b79f5
  let t := (a ^^^ (a >>> 15)) * (1 ||| a)
  let t := (t + (t ^^^ (t >>> 7)) * (61 ||| t)) ^^^ t
  (a, t ^^^ (t >>> 14))

end DopamintArena.Games
