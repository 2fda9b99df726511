import DopamintArena.Move.Tunnel.HtlcReuse
import DopamintArena.Move.Tunnel.Lifecycle
import DopamintArena.Move.Referee
import DopamintArena.Engine.Enforce
import DopamintArena.Engine.Process
import DopamintArena.Engine.CatchUp
import DopamintArena.Games.Shipped
import DopamintArena.Recovery.Watchtower
import DopamintArena.Games.BattleshipAnswers
import DopamintArena.Rust.BattleshipWinner
import DopamintArena.Move.Committee
import DopamintArena.Move.Streaming
import DopamintArena.Proof.Verify
import DopamintArena.Backend.Isolation
import DopamintArena.Backend.NoLoss
import DopamintArena.Backend.DurableSeal
import DopamintArena.Backend.SponsorFunds
import DopamintArena.Backend.ControlStore
import DopamintArena.Backend.SettleOnce
import DopamintArena.WalletPool.CoinsApart
import DopamintArena.Backend.BusTransport
import DopamintArena.Rust.DriverPeer
import DopamintArena.Rust.CoordinatedStop
import DopamintArena.Games.PokerSecrets
import DopamintArena.Games.Alternation
import DopamintArena.Games.BombItBlasts
import DopamintArena.Games.CrossPayouts
import DopamintArena.Rust.MoveHistory
import DopamintArena.Rust.CaroWins
import DopamintArena.Rust.Commitments
