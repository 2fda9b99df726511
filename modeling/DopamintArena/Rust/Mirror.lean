import DopamintArena.Engine.Checkpoint
import DopamintArena.Games.Commitment
import DopamintArena.Rust.Harness

/-!
A Rust protocol next to the TypeScript protocol of the same name. Every sound state
in Rust has a mirror image on the other side; if the mirror images show the same,
and moves lead from mirror image to mirror image, the two are the same machine.
-/

namespace DopamintArena.Rust

open Foundation

/-- A Rust protocol as a machine over the moves of the wire, which it parses first. -/
def Protocol.reactive {State Move WireMove : Type} (protocol : Protocol State Move)
    (decode : WireMove → Except String Move) :
    Reactive State (WireMove × Seat) Engine.Shown String where
  step s turn := do
    let mv ← decode turn.1
    protocol.applyMove s mv turn.2
  view s :=
    ⟨.ok (protocol.encodeState s),
      ⟨(protocol.balances s).a.toNat, (protocol.balances s).b.toNat⟩, protocol.isTerminal s⟩

section Bytes

theorem lengthPrefixed_eq (bytes : Bytes) :
    lengthPrefixed bytes = beBytes 8 bytes.length ++ bytes := by
  rw [lengthPrefixed, u64ToBeBytes, UInt64.toNat_ofNat', ← beBytes_mod 8 bytes.length]
  rfl

theorem lengthPrefixedConcat_cons (part : Bytes) (parts : List Bytes) :
    Engine.lengthPrefixedConcat (part :: parts) =
      lengthPrefixed part ++ Engine.lengthPrefixedConcat parts := by
  rw [lengthPrefixed_eq]
  rfl

theorem lengthPrefixedConcat_nil : Engine.lengthPrefixedConcat [] = [] := rfl

theorem u64ToBeBytes_toNat (v : UInt64) :
    Engine.u64ToBeBytes (v.toNat : Int) = .ok (u64ToBeBytes v) := by
  have hlt := v.toNat_lt
  have hrange : Engine.IsU64 (v.toNat : Int) := ⟨by omega, by simp only [Engine.u64Max]; omega⟩
  rw [Engine.u64ToBeBytes_ok_iff]
  refine ⟨hrange, ?_⟩
  rw [Move.u64ToBeBytes_eq, Engine.toNat_word hrange]
  rfl

theorem u64s_toNat (values : List UInt64) :
    Games.u64s (values.map fun v => (v.toNat : Int)) = .ok (values.map u64ToBeBytes).flatten := by
  have hparts : (values.map fun v => (v.toNat : Int)).mapM Engine.u64ToBeBytes =
      .ok (values.map u64ToBeBytes) := by
    rw [List.mapM_map]
    exact mapM_ok_of_forall fun v _ => u64ToBeBytes_toNat v
  rw [Games.u64s, hparts]
  rfl

end Bytes

/-- The mirror image of a step is a step, and whatever the mirror image accepts is accepted. -/
theorem bisimulation_of_mirror {State Move TsState WireMove : Type}
    {ts : Engine.Protocol TsState WireMove} {protocol : Protocol State Move}
    {decode : WireMove → Except String Move} {mirror : State → TsState} {Sound : State → Prop}
    (hview : ∀ s, Sound s →
      ts.reactive.view (mirror s) = (protocol.reactive decode).view s)
    (haccepts : ∀ {s move seat next}, Sound s → ts.applyMove (mirror s) move seat = .ok next →
      ∃ mv t, decode move = .ok mv ∧ protocol.applyMove s mv seat = .ok t)
    (hmirror : ∀ {s move mv seat t}, Sound s → decode move = .ok mv →
      protocol.applyMove s mv seat = .ok t →
        ts.applyMove (mirror s) move seat = .ok (mirror t) ∧ Sound t) :
    Reactive.Bisimulation ts.reactive (protocol.reactive decode)
      (fun s s' => s = mirror s' ∧ Sound s') where
  alike := by
    rintro _ s ⟨rfl, hsound⟩
    refine ⟨hview s hsound, ?_⟩
    rintro ⟨move, seat⟩
    constructor
    · rintro ⟨next, hnext⟩
      obtain ⟨mv, t, hmv, ht⟩ := haccepts hsound hnext
      exact ⟨t, bind_ok_iff.mpr ⟨mv, hmv, ht⟩⟩
    · rintro ⟨t, ht⟩
      obtain ⟨mv, hmv, ht⟩ := bind_ok_iff.mp ht
      exact ⟨_, (hmirror hsound hmv ht).1⟩
  step := by
    rintro _ s ⟨move, seat⟩ next t ⟨rfl, hsound⟩ hnext ht
    obtain ⟨_, hmv, ht⟩ := bind_ok_iff.mp ht
    obtain ⟨hstep, hsound'⟩ := hmirror hsound hmv ht
    exact ⟨Except.ok.inj (hnext.symm.trans hstep), hsound'⟩

end DopamintArena.Rust
