import DopamintArena.Engine.Wire
import DopamintArena.Foundation.Buffer
import DopamintArena.Foundation.Fields

/-!
The two other ways `core/wire.ts` handles the bytes of a state update: the
parser, and the writer that reuses one buffer. The parser reads every field
back from where the serializer put it. The writer overwrites every byte behind
the id, so nothing of an earlier update is left, not even of one it gave up in
the middle.
-/

namespace DopamintArena.Engine

open Foundation

def domainStateUpdate : Bytes := bytesOf "sui_tunnel::state_update"

theorem length_domainStateUpdate : domainStateUpdate.length = 24 := by decide

/-! ### Ids as hexadecimal text -/

def hexChar (n : Nat) : Char := Char.ofNat (if n < 10 then 48 + n else 87 + n)

/-- The two characters of a byte in the table `HEX`. -/
def hexPair (byte : UInt8) : List Char := [hexChar (byte.toNat / 16), hexChar (byte.toNat % 16)]

def toHex (bytes : Bytes) : String := String.ofList (bytes.flatMap hexPair)

theorem hexDigit_hexChar {n : Nat} (h : n < 16) : hexDigit (hexChar n) = some n := by
  have hall : ∀ n < 16, hexDigit (hexChar n) = some n := by decide
  exact hall n h

theorem hexByte_pair (byte : UInt8) (rest : List Char) :
    hexByte (hexPair byte ++ rest) 0 = byte := by
  have hbyte := byte.toNat_lt
  simp only [hexByte, hexPair, List.cons_append, List.nil_append, Nat.mul_zero,
    List.getD_cons_zero, Nat.zero_add, List.getD_cons_succ, hexDigit_hexChar
      (Nat.div_lt_of_lt_mul (by omega : byte.toNat < 16 * 16)),
    hexDigit_hexChar (Nat.mod_lt byte.toNat (by decide : 0 < 16)), Option.getD_some]
  rw [Nat.div_add_mod' byte.toNat 16]
  simp

theorem hexByte_succ (byte : UInt8) (rest : List Char) (i : Nat) :
    hexByte (hexPair byte ++ rest) (i + 1) = hexByte rest i := by
  simp only [hexByte, hexPair, List.cons_append, List.nil_append, Nat.mul_add, Nat.mul_one,
    List.getD_cons_succ]

theorem map_hexByte (bytes : Bytes) :
    (List.range bytes.length).map (hexByte (bytes.flatMap hexPair)) = bytes := by
  induction bytes with
  | nil => rfl
  | cons byte rest ih =>
    have htail : (List.range rest.length).map
        (hexByte (hexPair byte ++ rest.flatMap hexPair) ∘ Nat.succ) = rest := by
      calc _ = (List.range rest.length).map (hexByte (rest.flatMap hexPair)) :=
            List.map_congr_left fun i _ => hexByte_succ byte _ i
        _ = rest := ih
    rw [List.length_cons, List.range_succ_eq_map, List.map_cons, List.map_map,
      List.flatMap_cons, hexByte_pair, htail]

theorem addressToBytes32_toHex (id : Bytes32) : addressToBytes32 ("0x" ++ toHex id.bytes) = .ok id := by
  have hlist : ("0x" ++ toHex id.bytes).toList = '0' :: 'x' :: id.bytes.flatMap hexPair := by
    simp [toHex]
  have hlength : (id.bytes.flatMap hexPair).length = 64 := by
    simp [hexPair]
  have hdigits : (id.bytes.flatMap hexPair).all (fun c => (hexDigit c).isSome) = true := by
    rw [List.all_flatMap, List.all_eq_true]
    intro byte _
    have hbyte := byte.toNat_lt
    simp only [hexPair, List.all_cons, List.all_nil, hexDigit_hexChar
      (Nat.div_lt_of_lt_mul (by omega : byte.toNat < 16 * 16)),
      hexDigit_hexChar (Nat.mod_lt byte.toNat (by decide : 0 < 16)), Option.isSome_some]
    rfl
  simp only [addressToBytes32, hlist, stripHexMark, returned]
  refine ⟨hdigits, by omega, ?_⟩
  apply Bytes32.ext_bytes
  have hbytes := map_hexByte id.bytes
  rw [id.length_bytes] at hbytes
  simp only [hlength, Nat.sub_self, List.replicate_zero, List.nil_append]
  exact hbytes.symm

theorem toHex_inj {x y : Bytes32} (h : toHex x.bytes = toHex y.bytes) : x = y := by
  have hx := addressToBytes32_toHex x
  rw [h, addressToBytes32_toHex] at hx
  exact (Except.ok.inj hx).symm

theorem hexPair_digits (byte : UInt8) :
    ∀ c ∈ hexPair byte, c.toLower = c ∧ c ≠ 'x' ∧ c ≠ 'X' := by
  have hdigit : ∀ n < 16, (hexChar n).toLower = hexChar n ∧ hexChar n ≠ 'x' ∧ hexChar n ≠ 'X' := by
    decide
  have hbyte := byte.toNat_lt
  intro c hc
  rw [hexPair, List.mem_cons, List.mem_singleton] at hc
  rcases hc with rfl | rfl
  · exact hdigit _ (by omega)
  · exact hdigit _ (by omega)

theorem map_toLower_hex (bytes : Bytes) :
    (bytes.flatMap hexPair).map Char.toLower = bytes.flatMap hexPair := by
  rw [List.map_flatMap]
  refine List.flatMap_congr fun byte _ => ?_
  exact (List.map_congr_left fun c hc => (hexPair_digits byte c hc).1).trans (List.map_id _)

variable {bytes : Bytes}

theorem hex_ne_mark {a b : Char} {rest : List Char} (h : bytes.flatMap hexPair = a :: b :: rest) :
    b ≠ 'x' ∧ b ≠ 'X' := by
  have hmem : b ∈ bytes.flatMap hexPair := by
    rw [h]
    exact List.mem_cons_of_mem _ List.mem_cons_self
  obtain ⟨byte, -, hb⟩ := List.mem_flatMap.mp hmem
  exact (hexPair_digits byte b hb).2

/-! ### The parser -/

def u64FromBeBytes (bytes : Bytes) (offset : Nat) : Except String Int := do
  require (offset + 8 ≤ bytes.length) s!"u64 read out of range at offset {offset}"
  pure (ofBeBytes ((bytes.drop offset).take 8))

def stateUpdateLen : Nat := domainStateUpdate.length + 32 + 32 + 4 * 8

def parseStateUpdate (message : Bytes) : Except String StateUpdate := do
  require (message.length = stateUpdateLen)
    s!"state update must be {stateUpdateLen} bytes, got {message.length}"
  require (message.take domainStateUpdate.length = domainStateUpdate)
    "state update domain prefix mismatch"
  let o := domainStateUpdate.length
  let tunnelId := "0x" ++ toHex ((message.drop o).take 32)
  let o := o + 32
  let stateHash := (message.drop o).take 32
  let o := o + 32
  let nonce ← u64FromBeBytes message o
  let timestamp ← u64FromBeBytes message (o + 8)
  let partyABalance ← u64FromBeBytes message (o + 16)
  let partyBBalance ← u64FromBeBytes message (o + 24)
  pure { tunnelId, stateHash, nonce, timestamp, partyABalance, partyBBalance }

/-- The fields behind the domain, as they lie in the message. -/
structure UpdateFields where
  id : Bytes32
  stateHash : Bytes
  nonce : UInt64
  timestamp : UInt64
  partyABalance : UInt64
  partyBBalance : UInt64

namespace UpdateFields

def message (f : UpdateFields) : Bytes :=
  Move.serializeStateUpdate
    ⟨f.id, f.stateHash, f.nonce, f.timestamp, f.partyABalance, f.partyBBalance⟩

def update (f : UpdateFields) : StateUpdate where
  tunnelId := "0x" ++ toHex f.id.bytes
  stateHash := f.stateHash
  nonce := f.nonce.toNat
  timestamp := f.timestamp.toNat
  partyABalance := f.partyABalance.toNat
  partyBBalance := f.partyBBalance.toNat

theorem length_message (f : UpdateFields) : f.message.length = 88 + f.stateHash.length := by
  have hdomain := length_domainStateUpdate
  simp only [domainStateUpdate] at hdomain
  simp only [message, Move.serializeStateUpdate, List.length_append, hdomain,
    Bytes32.length_bytes, Move.length_u64ToBeBytes]
  omega

end UpdateFields

theorem drop_field {field rest : Bytes} {offset length : Nat}
    (h : bytes.drop offset = field ++ rest) (hlength : field.length = length) :
    bytes.drop (offset + length) = rest := by
  rw [← List.drop_drop, h, List.drop_left' hlength]

theorem u64FromBeBytes_field {bytes rest : Bytes} {value : UInt64} {offset : Nat}
    (h : bytes.drop offset = Move.u64ToBeBytes value ++ rest) :
    u64FromBeBytes bytes offset = .ok value.toNat := by
  have hrange : offset + 8 ≤ bytes.length := by
    have hlength := congrArg List.length h
    rw [List.length_drop, List.length_append, Move.length_u64ToBeBytes] at hlength
    omega
  simp only [u64FromBeBytes, returned]
  refine ⟨hrange, ?_⟩
  rw [h, List.take_left' (Move.length_u64ToBeBytes value), Move.u64ToBeBytes_eq,
    ofBeBytes_beBytes value.toNat_lt]

/-- The parser returns the fields. -/
theorem parseStateUpdate_message {f : UpdateFields} (hhash : f.stateHash.length = 32) :
    parseStateUpdate f.message = .ok f.update := by
  have hlength : f.message.length = stateUpdateLen := by
    rw [f.length_message, hhash, stateUpdateLen, length_domainStateUpdate]
  have hmessage : f.message = domainStateUpdate ++ (f.id.bytes ++ (f.stateHash ++
      (Move.u64ToBeBytes f.nonce ++ (Move.u64ToBeBytes f.timestamp ++
        (Move.u64ToBeBytes f.partyABalance ++ (Move.u64ToBeBytes f.partyBBalance ++ [])))))) := by
    simp [UpdateFields.message, Move.serializeStateUpdate, domainStateUpdate]
  generalize f.message = message at hlength hmessage ⊢
  have hdomain : message.take domainStateUpdate.length = domainStateUpdate := by
    rw [hmessage, List.take_left]
  have hid := congrArg (List.drop domainStateUpdate.length) hmessage
  rw [List.drop_left] at hid
  have hstateHash := drop_field hid f.id.length_bytes
  have hnonce := drop_field hstateHash hhash
  have htimestamp := drop_field hnonce (Move.length_u64ToBeBytes _)
  have hpartyA := drop_field htimestamp (Move.length_u64ToBeBytes _)
  have hpartyB := drop_field hpartyA (Move.length_u64ToBeBytes _)
  simp only [parseStateUpdate, returned]
  refine ⟨hlength, hdomain, _, u64FromBeBytes_field hnonce, _, u64FromBeBytes_field htimestamp, _,
    u64FromBeBytes_field hpartyA, _, u64FromBeBytes_field hpartyB, ?_⟩
  rw [hid, hstateHash, List.take_left' f.id.length_bytes, List.take_left' hhash]
  rfl

/-- The serializer writes the fields back. -/
theorem serializeStateUpdate_update (f : UpdateFields) :
    serializeStateUpdate f.update = .ok f.message := by
  have hword : ∀ value : UInt64, IsU64 value.toNat ∧ word value.toNat = value := by
    intro value
    have hvalue := value.toNat_lt
    refine ⟨⟨by omega, by simp only [u64Max]; omega⟩, ?_⟩
    simp [word]
  refine serializeStateUpdate_ok_iff.mpr ⟨f.id, addressToBytes32_toHex f.id,
    ⟨(hword _).1, (hword _).1, (hword _).1, (hword _).1⟩, ?_⟩
  simp [UpdateFields.message, StateUpdate.onChain, UpdateFields.update, (hword _).2]

theorem exists_word {field : Bytes} (h : field.length = 8) :
    ∃ value, Move.u64ToBeBytes value = field := by
  refine ⟨UInt64.ofNat (ofBeBytes field), ?_⟩
  have hlt := ofBeBytes_lt field
  have hbytes := beBytes_ofBeBytes field
  rw [h] at hlt hbytes
  rw [Move.u64ToBeBytes_eq, UInt64.toNat_ofNat_of_lt' hlt, hbytes]

/-- A byte string with the length and the domain of an update is the message of some fields. -/
theorem exists_fields {bytes : Bytes} (hlength : bytes.length = stateUpdateLen)
    (hdomain : bytes.take domainStateUpdate.length = domainStateUpdate) :
    ∃ f : UpdateFields, f.stateHash.length = 32 ∧ f.message = bytes := by
  have hrest : (bytes.drop domainStateUpdate.length).length = 32 + (32 + (8 + (8 + (8 + 8)))) := by
    rw [List.length_drop, hlength, stateUpdateLen]
    omega
  obtain ⟨id, rest, hbytes, hid, hrest⟩ := exists_field hrest
  obtain ⟨hash, rest, rfl, hhash, hrest⟩ := exists_field hrest
  obtain ⟨nonce, rest, rfl, hnonce, hrest⟩ := exists_field hrest
  obtain ⟨timestamp, _, rfl, htimestamp, hrest⟩ := exists_field hrest
  obtain ⟨partyA, partyB, rfl, hpartyA, hpartyB⟩ := exists_field hrest
  obtain ⟨nonce, rfl⟩ := exists_word hnonce
  obtain ⟨timestamp, rfl⟩ := exists_word htimestamp
  obtain ⟨partyA, rfl⟩ := exists_word hpartyA
  obtain ⟨partyB, rfl⟩ := exists_word hpartyB
  refine ⟨⟨⟨id, hid⟩, hash, nonce, timestamp, partyA, partyB⟩, hhash, ?_⟩
  have hsplit := List.take_append_drop domainStateUpdate.length bytes
  rw [hdomain, hbytes] at hsplit
  rw [← hsplit]
  simp [UpdateFields.message, Move.serializeStateUpdate, domainStateUpdate]

variable {u : StateUpdate}

/-- Parsing what was serialized gives the update back, with the id in its canonical text. -/
theorem parseStateUpdate_serialize (hhash : u.stateHash.length = 32)
    (h : serializeStateUpdate u = .ok bytes) :
    ∃ id, addressToBytes32 u.tunnelId = .ok id ∧
      parseStateUpdate bytes = .ok { u with tunnelId := "0x" ++ toHex id.bytes } := by
  obtain ⟨id, hid, hu, rfl⟩ := serializeStateUpdate_ok_iff.mp h
  have hnat : ∀ value : Int, IsU64 value → ((word value).toNat : Int) = value := by
    intro value hvalue
    rw [toNat_word hvalue]
    exact Int.toNat_of_nonneg hvalue.1
  have hparse := parseStateUpdate_message (f := ⟨id, u.stateHash, word u.nonce, word u.timestamp,
    word u.partyABalance, word u.partyBBalance⟩) hhash
  refine ⟨id, hid, hparse.trans ?_⟩
  simp [UpdateFields.update, hnat _ hu.nonce, hnat _ hu.timestamp, hnat _ hu.partyABalance,
    hnat _ hu.partyBBalance]

/-- The parser accepts the serialized updates only. -/
theorem serializeStateUpdate_parse (h : parseStateUpdate bytes = .ok u) :
    serializeStateUpdate u = .ok bytes := by
  have hchecks : bytes.length = stateUpdateLen ∧
      bytes.take domainStateUpdate.length = domainStateUpdate := by
    simp only [parseStateUpdate, returned] at h
    exact ⟨h.1, h.2.1⟩
  obtain ⟨f, hhash, rfl⟩ := exists_fields hchecks.1 hchecks.2
  rw [parseStateUpdate_message hhash] at h
  rw [← Except.ok.inj h]
  exact serializeStateUpdate_update f

/-! ### The writer -/

/-- The fields a writer never changes. -/
structure StateUpdateWriter where
  tailOffset : Nat
  stateHashLen : Nat

/-- The arguments of one `write`. -/
structure UpdateTail where
  stateHash : Bytes
  nonce : Int
  timestamp : Int
  partyABalance : Int
  partyBBalance : Int

namespace StateUpdateWriter

def create (tunnelId : String) (stateHashLen : Nat) :
    Except String (StateUpdateWriter × Bytes) := do
  let prefixLen := domainStateUpdate.length + 32
  let buf : Bytes := List.replicate (prefixLen + stateHashLen + 32) 0
  let buf := overwrite buf 0 domainStateUpdate
  let id ← addressToBytes32 tunnelId
  let buf := overwrite buf domainStateUpdate.length id.bytes
  pure (⟨prefixLen, stateHashLen⟩, buf)

/-- `setBigUint64` of the buffer's view, with the check of its argument. -/
def setBigUint64 (offset : Nat) (value : Int) : EStateM String Bytes PUnit := do
  let bytes ← reading fun _ => u64ToBeBytes value
  modify fun buf => overwrite buf offset bytes

def write (w : StateUpdateWriter) (u : UpdateTail) : EStateM String Bytes Bytes := do
  reading fun _ => require (u.stateHash.length = w.stateHashLen)
    s!"stateHash length {u.stateHash.length} != configured {w.stateHashLen}"
  let o := w.tailOffset
  modify fun buf => overwrite buf o u.stateHash
  let o := o + w.stateHashLen
  setBigUint64 o u.nonce
  let o := o + 8
  setBigUint64 o u.timestamp
  let o := o + 8
  setBigUint64 o u.partyABalance
  let o := o + 8
  setBigUint64 o u.partyBBalance
  get

/-- What each of a sequence of writes returns or throws, the buffer being passed on. -/
def writes (w : StateUpdateWriter) : Bytes → List UpdateTail → List (Except String Bytes)
  | _, [] => []
  | buf, u :: rest =>
    match (w.write u).run buf with
    | .ok bytes buf => .ok bytes :: w.writes buf rest
    | .error e buf => .error e :: w.writes buf rest

/-- The serializer on the same arguments, for a hash of the configured length. -/
def serialized (tunnelId : String) (stateHashLen : Nat) (u : UpdateTail) :
    Except String Bytes := do
  require (u.stateHash.length = stateHashLen)
    s!"stateHash length {u.stateHash.length} != configured {stateHashLen}"
  serializeStateUpdate
    ⟨tunnelId, u.stateHash, u.nonce, u.timestamp, u.partyABalance, u.partyBBalance⟩

/-- The buffer starts with the domain and the id, and has room for the rest. -/
def Framed (id : Bytes32) (stateHashLen : Nat) (buf : Bytes) : Prop :=
  ∃ tail, buf = domainStateUpdate ++ id.bytes ++ tail ∧ tail.length = stateHashLen + 32

variable {tunnelId : String} {stateHashLen : Nat} {buf : Bytes}

theorem create_framed {w : StateUpdateWriter} (h : create tunnelId stateHashLen = .ok (w, buf)) :
    ∃ id, addressToBytes32 tunnelId = .ok id ∧ w = ⟨56, stateHashLen⟩ ∧
      Framed id stateHashLen buf := by
  simp only [create, returned, Prod.mk.injEq] at h
  obtain ⟨id, hid, rfl, rfl⟩ := h
  refine ⟨id, hid, rfl, List.replicate (stateHashLen + 32) 0, ?_, List.length_replicate⟩
  have hsplit : (List.replicate (domainStateUpdate.length + 32 + stateHashLen + 32) 0 : Bytes) =
      [] ++ List.replicate domainStateUpdate.length 0 ++
        (List.replicate 32 0 ++ List.replicate (stateHashLen + 32) 0) := by
    simp only [List.nil_append, List.replicate_append_replicate, Nat.add_assoc]
  have hdomain := overwrite_field [] (List.replicate 32 0 ++ List.replicate (stateHashLen + 32) 0)
    (List.length_replicate (n := domainStateUpdate.length) (a := (0 : UInt8))).symm
  rw [hsplit, show (0 : Nat) = ([] : Bytes).length from rfl, hdomain, List.nil_append,
    ← List.append_assoc]
  exact overwrite_field _ _ (by rw [id.length_bytes, List.length_replicate])

variable {front old : Bytes} {offset : Nat}

/-- One integer field is overwritten, or left as it was if the value is out of range. -/
theorem setBigUint64_bind {α : Type} {rest : Bytes} {value : Int}
    {f : PUnit → EStateM String Bytes α} (hoffset : offset = front.length) (hold : old.length = 8) :
    (setBigUint64 offset value >>= f).run (front ++ old ++ rest) =
      match u64ToBeBytes value with
      | .ok bytes => (f ()).run (front ++ bytes ++ rest)
      | .error e => .error e (front ++ old ++ rest) := by
  simp only [setBigUint64, EStateM.run, bind, EStateM.bind, reading]
  cases hvalue : u64ToBeBytes value with
  | error => rfl
  | ok bytes =>
    have hlength : bytes.length = old.length := by
      rw [length_of_u64ToBeBytes hvalue, hold]
    subst hoffset
    exact congrArg (fun buffer => (f ()).run buffer) (overwrite_field front rest hlength)

/-- Integer fields overwritten one after the other. -/
def setNumbers : Nat → List Int → EStateM String Bytes PUnit
  | _, [] => pure ()
  | offset, value :: rest => do
    setBigUint64 offset value
    setNumbers (offset + 8) rest

variable {values : List Int}

theorem length_numbers {parts : List Bytes} (h : values.mapM u64ToBeBytes = .ok parts) :
    parts.flatten.length = 8 * values.length := by
  induction values generalizing parts with
  | nil =>
    cases h
    rfl
  | cons _ _ ih =>
    simp only [List.mapM_cons, returned] at h
    obtain ⟨_, hbytes, _, hparts, rfl⟩ := h
    rw [List.flatten_cons, List.length_append, length_of_u64ToBeBytes hbytes, ih hparts,
      List.length_cons]
    omega

/-- The fields are overwritten from the left, up to the first value that is out of range. -/
theorem setNumbers_run (hoffset : offset = front.length) (hold : old.length = 8 * values.length) :
    ∃ tail : Bytes, tail.length = old.length ∧
      (setNumbers offset values).run (front ++ old) =
        match values.mapM u64ToBeBytes with
        | .ok parts => .ok () (front ++ parts.flatten)
        | .error e => .error e (front ++ tail) := by
  induction values generalizing front old offset with
  | nil =>
    have hnil : old = [] := List.eq_nil_of_length_eq_zero hold
    subst hnil
    exact ⟨[], rfl, rfl⟩
  | cons value rest ih =>
    have hsplit : old.length = 8 + 8 * rest.length := by
      rw [hold, List.length_cons]
      omega
    obtain ⟨field, old', rfl, hfield, hold'⟩ := exists_field hsplit
    rw [setNumbers, ← List.append_assoc, setBigUint64_bind hoffset hfield, List.mapM_cons]
    cases hvalue : u64ToBeBytes value with
    | error => exact ⟨field ++ old', rfl, by rw [List.append_assoc]; rfl⟩
    | ok bytes =>
      have hbytes := length_of_u64ToBeBytes hvalue
      have hnext : offset + 8 = (front ++ bytes).length := by
        rw [List.length_append, hbytes, hoffset]
      obtain ⟨tail, htail, hrun⟩ := ih hnext hold'
      refine ⟨bytes ++ tail, ?_, ?_⟩
      · rw [List.length_append, List.length_append, hbytes, hfield, htail]
      · simp only [ok_bind]
        rw [hrun]
        cases rest.mapM u64ToBeBytes with
        | error | ok => simp only [List.append_assoc]; rfl

theorem write_eq (w : StateUpdateWriter) (u : UpdateTail) :
    w.write u = (do
      reading fun _ => require (u.stateHash.length = w.stateHashLen)
        s!"stateHash length {u.stateHash.length} != configured {w.stateHashLen}"
      modify fun buf => overwrite buf w.tailOffset u.stateHash
      setNumbers (w.tailOffset + w.stateHashLen)
        [u.nonce, u.timestamp, u.partyABalance, u.partyBBalance]
      get) := by
  simp [write, setNumbers]

theorem serialized_eq {tunnelId : String} {id : Bytes32} (hid : addressToBytes32 tunnelId = .ok id)
    (stateHashLen : Nat) (u : UpdateTail) :
    serialized tunnelId stateHashLen u = (do
      require (u.stateHash.length = stateHashLen)
        s!"stateHash length {u.stateHash.length} != configured {stateHashLen}"
      let parts ← [u.nonce, u.timestamp, u.partyABalance, u.partyBBalance].mapM u64ToBeBytes
      pure (domainStateUpdate ++ id.bytes ++ u.stateHash ++ parts.flatten)) := by
  simp only [serialized, serializeStateUpdate, hid, ok_bind, List.mapM_cons, List.mapM_nil,
    bind_assoc, pure_bind, List.flatten_cons, List.flatten_nil, List.append_nil,
    List.append_assoc]
  rfl

/-- A write leaves a framed buffer, whether it returns or throws, and does the one or the
other exactly as the serializer. -/
theorem write_framed {tunnelId : String} {id : Bytes32} {stateHashLen : Nat} {buf : Bytes}
    (hid : addressToBytes32 tunnelId = .ok id) (h : Framed id stateHashLen buf) (u : UpdateTail) :
    ∃ buf', Framed id stateHashLen buf' ∧
      (write ⟨56, stateHashLen⟩ u).run buf =
        match serialized tunnelId stateHashLen u with
        | .ok bytes => .ok bytes buf'
        | .error e => .error e buf' := by
  rw [write_eq, serialized_eq hid]
  by_cases hlength : u.stateHash.length = stateHashLen
  · obtain ⟨_, rfl, htail⟩ := h
    obtain ⟨hash, numbers, rfl, hhash, hnumbers⟩ := exists_field htail
    have hfront : (domainStateUpdate ++ id.bytes).length = 56 := by
      rw [List.length_append, length_domainStateUpdate, id.length_bytes]
    have hset : overwrite (domainStateUpdate ++ id.bytes ++ (hash ++ numbers)) 56 u.stateHash =
        domainStateUpdate ++ id.bytes ++ u.stateHash ++ numbers := by
      rw [← hfront, ← List.append_assoc]
      exact overwrite_field _ _ (by rw [hlength, hhash])
    have hoffset : 56 + stateHashLen = (domainStateUpdate ++ id.bytes ++ u.stateHash).length := by
      rw [List.length_append, hfront, hlength]
    have hframed : ∀ rest : Bytes, rest.length = 32 →
        Framed id stateHashLen (domainStateUpdate ++ id.bytes ++ u.stateHash ++ rest) := by
      intro rest hrest
      refine ⟨u.stateHash ++ rest, List.append_assoc _ _ _, ?_⟩
      rw [List.length_append, hlength, hrest]
    have hnumbers' : numbers.length =
        8 * [u.nonce, u.timestamp, u.partyABalance, u.partyBBalance].length := hnumbers
    obtain ⟨rest, hrest, hrun⟩ := setNumbers_run hoffset hnumbers'
    simp only [EStateM.run_bind, run_reading, require_of hlength, EStateM.run_modify, hset, hrun,
      ok_bind]
    cases hparts : [u.nonce, u.timestamp, u.partyABalance, u.partyBBalance].mapM u64ToBeBytes with
    | error => exact ⟨_, hframed rest (hrest.trans hnumbers), rfl⟩
    | ok parts => exact ⟨_, hframed parts.flatten (length_numbers hparts), rfl⟩
  · refine ⟨buf, h, ?_⟩
    simp only [EStateM.run_bind, run_reading, require_of_not hlength]
    rfl

/-- A reused writer produces after each write what the serializer produces, whatever was
written before. -/
theorem writes_eq {id : Bytes32} (hid : addressToBytes32 tunnelId = .ok id)
    (h : Framed id stateHashLen buf) (us : List UpdateTail) :
    writes ⟨56, stateHashLen⟩ buf us = us.map (serialized tunnelId stateHashLen) := by
  induction us generalizing buf with
  | nil => rfl
  | cons u _ ih =>
    obtain ⟨_, hframed, hrun⟩ := write_framed hid h u
    rw [writes, hrun, List.map_cons, ← ih hframed]
    cases serialized tunnelId stateHashLen u with
    | error => rfl
    | ok => rfl

end StateUpdateWriter

end DopamintArena.Engine
