import DopamintArena.Engine.StateUpdates

/-!
`proof/settleBinary.ts`: the binary body of a settle request. A header of 229
bytes at fixed offsets is followed by as many entries as it counts, each with
its message behind a 16-bit length. An array has fewer than 2^32 elements, so
the count never wraps; a message length does.

The decoder's position is modelled by the bytes that are left. A slice that
reaches past the end is shorter than asked for, and only a `DataView` read
there throws. Reading back an encoded body gives the body when its messages fit
their length fields. What the decoder accepts is an encoded body exactly when
it is as long as its count and lengths announce.
-/

namespace DopamintArena.Proof

open Foundation
open DopamintArena.Engine (hexDigit hexPair toHex stripHexMark u64ToBeBytes u64FromBeBytes IsU64
  word drop_field)

def settleBodyVersion : UInt8 := 0x01
def headerLen : Nat := 229

/-- One co-signed entry as it appears on the wire. -/
structure SettleEntry where
  message : Bytes
  sigA : Bytes
  sigB : Bytes
deriving DecidableEq

structure SettleBody where
  tunnelId : String
  partyABalance : Int
  partyBBalance : Int
  finalNonce : Int
  timestamp : Int
  transcriptRoot : Bytes
  sigA : Bytes
  sigB : Bytes
  entries : List SettleEntry
  length_entries : entries.length < 2 ^ 32
deriving DecidableEq

/-! ### The encoder -/

/-- The white space and line ends that `parseInt` skips. -/
def isJsSpace (c : Char) : Bool :=
  (0x09 ≤ c.toNat && c.toNat ≤ 0x0D) || (0x2000 ≤ c.toNat && c.toNat ≤ 0x200A) ||
    [0x20, 0xA0, 0x1680, 0x2028, 0x2029, 0x202F, 0x205F, 0x3000, 0xFEFF].contains c.toNat

/-- `parseInt(text, 16)`: the digits up to the first other character, `none` for `NaN`. -/
def parseIntHex (text : List Char) : Option Int :=
  let text := text.dropWhile isJsSpace
  let negative := text.head? = some '-'
  let text := if text.head? = some '-' ∨ text.head? = some '+' then text.tail else text
  let digits := (stripHexMark text).takeWhile fun c => (hexDigit c).isSome
  let value : Int := digits.foldl (fun n c => 16 * n + ((hexDigit c).getD 0 : Nat)) 0
  if digits.isEmpty then none else some (if negative then -value else value)

def toUint8 (value : Option Int) : UInt8 := (value.getD 0 % 256).toNat.toUInt8

def id32 (tunnelId : String) : Bytes :=
  let h := match tunnelId.toList with
    | '0' :: 'x' :: rest => rest
    | other => other
  let b := List.replicate (64 - h.length) '0' ++ h
  (List.range 32).map fun i => toUint8 (parseIntHex ((b.drop (2 * i)).take 2))

/-- `setUint16` keeps the low 16 bits. -/
def u16 (n : Nat) : Bytes := beBytes 2 n

def u32 (n : Nat) : Bytes := beBytes 4 n

def encodeEntry (e : SettleEntry) : Except String Bytes := do
  require (e.sigA.length = 64 ∧ e.sigB.length = 64) "entry sigs must be 64 bytes"
  pure (u16 e.message.length ++ e.message ++ e.sigA ++ e.sigB)

def encodeSettleBody (b : SettleBody) : Except String Bytes := do
  require (b.transcriptRoot.length = 32) "transcriptRoot must be 32 bytes"
  require (b.sigA.length = 64 ∧ b.sigB.length = 64) "settlement sigs must be 64 bytes"
  let partyABalance ← u64ToBeBytes b.partyABalance
  let partyBBalance ← u64ToBeBytes b.partyBBalance
  let finalNonce ← u64ToBeBytes b.finalNonce
  let timestamp ← u64ToBeBytes b.timestamp
  let parts ← b.entries.mapM encodeEntry
  pure ([settleBodyVersion] ++ id32 b.tunnelId ++ partyABalance ++ partyBBalance ++ finalNonce ++
    timestamp ++ b.transcriptRoot ++ b.sigA ++ b.sigB ++ u32 b.entries.length ++ parts.flatten)

/-! ### The decoders -/

def getUint16 (bytes : Bytes) (offset : Nat) : Except String Nat := do
  require (offset + 2 ≤ bytes.length) "Offset is outside the bounds of the DataView"
  pure (ofBeBytes ((bytes.drop offset).take 2))

def getUint32 (bytes : Bytes) (offset : Nat) : Except String UInt32 := do
  require (offset + 4 ≤ bytes.length) "Offset is outside the bounds of the DataView"
  pure (UInt32.ofNat (ofBeBytes ((bytes.drop offset).take 4)))

/-- `bytes.slice(start, end)`. -/
def slice (bytes : Bytes) (start stop : Nat) : Bytes := (bytes.drop start).take (stop - start)

variable {rest : Bytes}

theorem slice_field {bytes field : Bytes} {start stop : Nat} (h : bytes.drop start = field ++ rest)
    (hlength : field.length = stop - start) :
    slice bytes start stop = field := by
  rw [slice, h, List.take_left' hlength]

/-- The entry whose message has `msgLen` bytes, cut off the front, and what is left. -/
def sliceEntry (msgLen : Nat) (rest : Bytes) : SettleEntry × Bytes :=
  (⟨slice rest 0 msgLen, slice rest msgLen (msgLen + 64),
    slice rest (msgLen + 64) (msgLen + 64 + 64)⟩, rest.drop (msgLen + 64 + 64))

/-- The `while` loop of `decodeSettleEntries`; every pass moves on, so the length
is enough fuel. -/
def decodeRun : Nat → Bytes → Except String (List SettleEntry)
  | 0, _ => pure []
  | fuel + 1, rest =>
    if rest.length = 0 then pure []
    else do
      require (2 ≤ rest.length) "truncated entry length prefix"
      let msgLen ← getUint16 rest 0
      let rest := rest.drop 2
      require (msgLen + 128 ≤ rest.length) "truncated entry body"
      let entries ← decodeRun fuel (sliceEntry msgLen rest).2
      pure ((sliceEntry msgLen rest).1 :: entries)

def decodeSettleEntries (bytes : Bytes) : Except String (List SettleEntry) :=
  decodeRun bytes.length bytes

/-- The `for` loop of `decodeSettleBody`. -/
def decodeCounted : (count : Nat) → Bytes →
    Except String { entries : List SettleEntry // entries.length = count }
  | 0, _ => pure ⟨[], rfl⟩
  | count + 1, rest => do
    let msgLen ← getUint16 rest 0
    let rest := rest.drop 2
    let entries ← decodeCounted count (sliceEntry msgLen rest).2
    pure ⟨(sliceEntry msgLen rest).1 :: entries.val, congrArg (· + 1) entries.property⟩

def decodeSettleBody (bytes : Bytes) : Except String SettleBody := do
  require (headerLen ≤ bytes.length) "settle body too short"
  require (bytes.headD 0 = settleBodyVersion) s!"unexpected settle version: {bytes.headD 0}"
  let tunnelId := "0x" ++ toHex (slice bytes 1 33)
  let partyABalance ← u64FromBeBytes bytes 33
  let partyBBalance ← u64FromBeBytes bytes 41
  let finalNonce ← u64FromBeBytes bytes 49
  let timestamp ← u64FromBeBytes bytes 57
  let transcriptRoot := slice bytes 65 97
  let sigA := slice bytes 97 161
  let sigB := slice bytes 161 225
  let count ← getUint32 bytes 225
  let entries ← decodeCounted count.toNat (bytes.drop headerLen)
  pure
    { tunnelId, partyABalance, partyBBalance, finalNonce, timestamp, transcriptRoot, sigA, sigB
      entries := entries.val
      length_entries := entries.property.trans_lt count.toNat_lt }

/-! ### Ids -/

theorem toUint8_parseIntHex (byte : UInt8) : toUint8 (parseIntHex (hexPair byte)) = byte := by
  have hall : ∀ n < 256, toUint8 (parseIntHex (hexPair n.toUInt8)) = n.toUInt8 := by
    decide +kernel
  have hbyte := hall byte.toNat byte.toNat_lt
  simpa using hbyte

/-- The pairs of digits are the bytes' own. -/
theorem map_slices (bytes : Bytes) :
    ((List.range bytes.length).map fun i => ((bytes.flatMap hexPair).drop (2 * i)).take 2) =
      bytes.map hexPair := by
  induction bytes with
  | nil => rfl
  | cons _ _ ih =>
    rw [List.length_cons, List.range_succ_eq_map, List.map_cons, List.map_map, List.map_cons,
      ← ih]
    congr 1

theorem length_id32 (tunnelId : String) : (id32 tunnelId).length = 32 := by simp [id32]

theorem id32_toHex (id : Bytes32) : id32 ("0x" ++ toHex id.bytes) = id.bytes := by
  have hlist : ("0x" ++ toHex id.bytes).toList = '0' :: 'x' :: id.bytes.flatMap hexPair := by
    simp [toHex]
  have hlength : (id.bytes.flatMap hexPair).length = 64 := by
    simp [hexPair]
  have hslices := congrArg (List.map fun pair => toUint8 (parseIntHex pair)) (map_slices id.bytes)
  rw [id.length_bytes, List.map_map, List.map_map] at hslices
  have hself : id.bytes.map ((fun pair => toUint8 (parseIntHex pair)) ∘ hexPair) = id.bytes :=
    (List.map_congr_left fun byte _ => toUint8_parseIntHex byte).trans (List.map_id _)
  simp only [id32, hlist, hlength, Nat.sub_self, List.replicate_zero, List.nil_append]
  exact hslices.trans hself

/-! ### Entries -/

namespace SettleEntry

/-- The entry on the wire. -/
def bytes (e : SettleEntry) : Bytes := u16 e.message.length ++ e.message ++ e.sigA ++ e.sigB

/-- Both signatures have their 64 bytes. -/
structure Signed (e : SettleEntry) : Prop where
  sigA : e.sigA.length = 64
  sigB : e.sigB.length = 64

/-- The message fits its length field. -/
def Short (e : SettleEntry) : Prop := e.message.length < 65536

end SettleEntry

variable {e : SettleEntry}

theorem encodeEntry_ok_iff {bytes : Bytes} :
    encodeEntry e = .ok bytes ↔ e.Signed ∧ bytes = e.bytes := by
  simp only [encodeEntry, returned]
  exact ⟨fun h => ⟨⟨h.1.1, h.1.2⟩, h.2⟩, fun h => ⟨⟨h.1.sigA, h.1.sigB⟩, h.2⟩⟩

variable {entries : List SettleEntry}

theorem encodeEntries_ok_iff {parts : List Bytes} :
    entries.mapM encodeEntry = .ok parts ↔
      (∀ e ∈ entries, e.Signed) ∧ parts = entries.map SettleEntry.bytes := by
  induction entries generalizing parts with
  | nil => simp
  | cons _ _ ih =>
    simp only [List.mapM_cons, returned, encodeEntry_ok_iff, ih, List.forall_mem_cons,
      List.map_cons]
    constructor
    · rintro ⟨_, ⟨hsigned, rfl⟩, _, ⟨hrest, rfl⟩, rfl⟩
      exact ⟨⟨hsigned, hrest⟩, rfl⟩
    · rintro ⟨⟨hsigned, hrest⟩, rfl⟩
      exact ⟨_, ⟨hsigned, rfl⟩, _, ⟨hrest, rfl⟩, rfl⟩

theorem SettleEntry.Signed.length_bytes (h : e.Signed) :
    e.bytes.length = 2 + e.message.length + 128 := by
  simp only [bytes, u16, List.length_append, length_beBytes, h.sigA, h.sigB]

theorem getUint16_ok_iff {value : Nat} :
    getUint16 rest 0 = .ok value ↔ 2 ≤ rest.length ∧ value = ofBeBytes (rest.take 2) := by
  simp only [getUint16, returned, Nat.zero_add, List.drop_zero]

theorem getUint16_bytes (hshort : e.Short) (rest : Bytes) :
    getUint16 (e.bytes ++ rest) 0 = .ok e.message.length := by
  refine getUint16_ok_iff.mpr ⟨by simp [SettleEntry.bytes, u16], ?_⟩
  have htake : (e.bytes ++ rest).take 2 = u16 e.message.length := by
    exact List.take_left' (length_beBytes 2 _)
  rw [htake, u16, ofBeBytes_beBytes hshort]

theorem sliceEntry_bytes (hsigned : e.Signed) (rest : Bytes) :
    sliceEntry e.message.length ((e.bytes ++ rest).drop 2) = (e, rest) := by
  have hdrop : (e.bytes ++ rest).drop 2 = e.message ++ (e.sigA ++ (e.sigB ++ rest)) := by
    simp only [SettleEntry.bytes, List.append_assoc]
    exact List.drop_left' (length_beBytes 2 _)
  have hA : (e.message ++ (e.sigA ++ (e.sigB ++ rest))).drop e.message.length =
      e.sigA ++ (e.sigB ++ rest) := List.drop_left
  have hB := drop_field hA hsigned.sigA
  have hrest := drop_field hB hsigned.sigB
  simp only [hdrop, sliceEntry, slice, hA, hB, hrest, List.drop_zero, Nat.sub_zero, List.take_left,
    Nat.add_sub_cancel_left, List.take_left' hsigned.sigA, List.take_left' hsigned.sigB]

theorem sliceEntry_append (msgLen : Nat) (rest : Bytes) :
    (sliceEntry msgLen rest).1.message ++ ((sliceEntry msgLen rest).1.sigA ++
      ((sliceEntry msgLen rest).1.sigB ++ (sliceEntry msgLen rest).2)) = rest := by
  simp [sliceEntry, slice]

variable {count : Nat}

theorem decodeCounted_bytes (hcount : entries.length = count) (hsigned : ∀ e ∈ entries, e.Signed)
    (hshort : ∀ e ∈ entries, e.Short) :
    decodeCounted count (entries.flatMap SettleEntry.bytes) = .ok ⟨entries, hcount⟩ := by
  subst hcount
  induction entries with
  | nil => rfl
  | cons _ later ih =>
    rw [List.forall_mem_cons] at hsigned hshort
    rw [List.flatMap_cons]
    simp only [List.length_cons, decodeCounted, returned]
    refine ⟨_, getUint16_bytes hshort.1 _, ⟨later, rfl⟩, ?_, ?_⟩
    · rw [sliceEntry_bytes hsigned.1]
      exact ih hsigned.2 hshort.2
    · simp [sliceEntry_bytes hsigned.1]

theorem decodeRun_bytes (hsigned : ∀ e ∈ entries, e.Signed) (hshort : ∀ e ∈ entries, e.Short)
    {fuel : Nat} (hfuel : entries.length ≤ fuel) :
    decodeRun fuel (entries.flatMap SettleEntry.bytes) = .ok entries := by
  induction entries generalizing fuel with
  | nil => cases fuel <;> rfl
  | cons e later ih =>
    rw [List.forall_mem_cons] at hsigned hshort
    obtain ⟨fuel, rfl⟩ : ∃ n, fuel = n + 1 := Nat.exists_eq_add_of_le' (by
      rw [List.length_cons] at hfuel
      omega)
    have hlength : (e.bytes ++ later.flatMap SettleEntry.bytes).length =
        2 + e.message.length + 128 + (later.flatMap SettleEntry.bytes).length := by
      rw [List.length_append, hsigned.1.length_bytes]
    have hlater := ih hsigned.2 hshort.2 (Nat.le_of_succ_le_succ hfuel)
    rw [List.flatMap_cons, decodeRun, if_neg (by omega)]
    simp only [returned]
    refine ⟨by omega, _, getUint16_bytes hshort.1 _, by rw [List.length_drop]; omega, later, ?_,
      ?_⟩
    · rw [sliceEntry_bytes hsigned.1]
      exact hlater
    · rw [sliceEntry_bytes hsigned.1]

theorem decodeSettleEntries_bytes (hsigned : ∀ e ∈ entries, e.Signed)
    (hshort : ∀ e ∈ entries, e.Short) :
    decodeSettleEntries (entries.flatMap SettleEntry.bytes) = .ok entries := by
  apply decodeRun_bytes hsigned hshort
  rw [List.length_flatMap]
  calc entries.length = (entries.map fun _ => 1).sum := by simp
    _ ≤ (entries.map fun e => e.bytes.length).sum := by
        apply List.sum_le_sum
        simp only [SettleEntry.bytes, u16, List.length_append, length_beBytes]
        omega

/-- The length of `count` entries, going by their length fields. -/
def announcedLength : (count : Nat) → Bytes → Nat
  | 0, _ => 0
  | count + 1, rest =>
    let length := 2 + ofBeBytes (rest.take 2) + 128
    length + announcedLength count (rest.drop length)

theorem announcedLength_bytes (hsigned : ∀ e ∈ entries, e.Signed)
    (hshort : ∀ e ∈ entries, e.Short) :
    announcedLength entries.length (entries.flatMap SettleEntry.bytes) =
      (entries.flatMap SettleEntry.bytes).length := by
  induction entries with
  | nil => rfl
  | cons e later ih =>
    rw [List.forall_mem_cons] at hsigned hshort
    have hvalue := (getUint16_ok_iff.mp (getUint16_bytes hshort.1
      (later.flatMap SettleEntry.bytes))).2
    have hlength := hsigned.1.length_bytes
    rw [List.flatMap_cons, List.length_cons, announcedLength, ← hvalue, List.drop_left' hlength,
      ih hsigned.2 hshort.2, List.length_append, hlength]

theorem decodeCounted_short {entries : { entries : List SettleEntry // entries.length = count }}
    (h : decodeCounted count rest = .ok entries) : ∀ e ∈ entries.val, e.Short := by
  induction count generalizing rest with
  | zero =>
    rw [List.eq_nil_of_length_eq_zero entries.property]
    simp
  | succ _ ih =>
    simp only [decodeCounted, returned, getUint16_ok_iff] at h
    obtain ⟨_, ⟨hread, rfl⟩, _, hlater, rfl⟩ := h
    have hlt := ofBeBytes_lt (rest.take 2)
    rw [List.length_take_of_le hread] at hlt
    refine List.forall_mem_cons.mpr ⟨?_, ih hlater⟩
    exact Nat.lt_of_le_of_lt (List.length_take_le _ _) hlt

theorem decodeCounted_exact {entries : { entries : List SettleEntry // entries.length = count }}
    (h : decodeCounted count rest = .ok entries)
    (hlength : rest.length = announcedLength count rest) :
    (∀ e ∈ entries.val, e.Signed) ∧ rest = entries.val.flatMap SettleEntry.bytes := by
  induction count generalizing rest with
  | zero =>
    rw [List.eq_nil_of_length_eq_zero entries.property, List.eq_nil_of_length_eq_zero hlength]
    simp
  | succ _ ih =>
    simp only [decodeCounted, returned, getUint16_ok_iff] at h
    obtain ⟨msgLen, ⟨hread, hmsgLen⟩, _, hlater, rfl⟩ := h
    rw [announcedLength, ← hmsgLen] at hlength
    -- The rest after this entry again fills its announced length.
    have htail : (sliceEntry msgLen (rest.drop 2)).2 = rest.drop (2 + msgLen + 128) := by
      simp only [sliceEntry, List.drop_drop]
      congr 1
    rw [htail] at hlater
    obtain ⟨hsigned, hrest⟩ := ih hlater (by rw [List.length_drop]; omega)
    have hmessage : (sliceEntry msgLen (rest.drop 2)).1.message.length = msgLen := by
      simp only [sliceEntry, slice, List.length_take, List.length_drop]
      omega
    refine ⟨List.forall_mem_cons.mpr ⟨⟨?_, ?_⟩, hsigned⟩, ?_⟩
    · simp only [sliceEntry, slice, List.length_take, List.length_drop]
      omega
    · simp only [sliceEntry, slice, List.length_take, List.length_drop]
      omega
    · have hlengthField : u16 msgLen = rest.take 2 := by
        have hback := beBytes_ofBeBytes (rest.take 2)
        rwa [List.length_take_of_le hread, ← hmsgLen] at hback
      have hcut := sliceEntry_append msgLen (rest.drop 2)
      rw [htail, hrest] at hcut
      simp only [List.flatMap_cons, SettleEntry.bytes, hmessage, hlengthField, List.append_assoc]
      rw [hcut, List.take_append_drop]

/-! ### The header -/

/-- The fields of the header as they lie in the body. -/
structure HeaderFields where
  id : Bytes32
  partyABalance : UInt64
  partyBBalance : UInt64
  finalNonce : UInt64
  timestamp : UInt64
  transcriptRoot : Bytes32
  sigA : Bytes64
  sigB : Bytes64
  count : UInt32

namespace HeaderFields

def bytes (f : HeaderFields) : Bytes :=
  [settleBodyVersion] ++ f.id.bytes ++ Move.u64ToBeBytes f.partyABalance ++
    Move.u64ToBeBytes f.partyBBalance ++ Move.u64ToBeBytes f.finalNonce ++
    Move.u64ToBeBytes f.timestamp ++ f.transcriptRoot.bytes ++ f.sigA.bytes ++ f.sigB.bytes ++
    u32 f.count.toNat

theorem length_bytes (f : HeaderFields) : f.bytes.length = headerLen := by
  simp only [bytes, List.length_append, List.length_singleton, Bytes32.length_bytes,
    Bytes64.length_bytes, Move.length_u64ToBeBytes, u32, length_beBytes]
  rfl

/-- The body that the decoder returns for these fields. -/
def body (f : HeaderFields)
    (entries : { entries : List SettleEntry // entries.length = f.count.toNat }) : SettleBody where
  tunnelId := "0x" ++ toHex f.id.bytes
  partyABalance := f.partyABalance.toNat
  partyBBalance := f.partyBBalance.toNat
  finalNonce := f.finalNonce.toNat
  timestamp := f.timestamp.toNat
  transcriptRoot := f.transcriptRoot.bytes
  sigA := f.sigA.bytes
  sigB := f.sigB.bytes
  entries := entries.val
  length_entries := entries.property.trans_lt f.count.toNat_lt

/-- The fields that the encoder writes for a body. -/
structure Of (f : HeaderFields) (b : SettleBody) : Prop where
  id : f.id.bytes = id32 b.tunnelId
  partyABalance : b.partyABalance = f.partyABalance.toNat
  partyBBalance : b.partyBBalance = f.partyBBalance.toNat
  finalNonce : b.finalNonce = f.finalNonce.toNat
  timestamp : b.timestamp = f.timestamp.toNat
  transcriptRoot : b.transcriptRoot = f.transcriptRoot.bytes
  sigA : b.sigA = f.sigA.bytes
  sigB : b.sigB = f.sigB.bytes
  count : b.entries.length = f.count.toNat

theorem of_body (f : HeaderFields)
    (entries : { entries : List SettleEntry // entries.length = f.count.toNat }) :
    f.Of (f.body entries) :=
  ⟨(id32_toHex f.id).symm, rfl, rfl, rfl, rfl, rfl, rfl, rfl, entries.property⟩

/-- With its id as canonical text, a body is determined by its fields and entries. -/
theorem body_eq {f : HeaderFields} {b : SettleBody} (hf : f.Of b)
    (hid : b.tunnelId = "0x" ++ toHex f.id.bytes) : f.body ⟨b.entries, hf.count⟩ = b := by
  obtain ⟨_, _, _, _, _, _, _, _, _, _⟩ := b
  obtain ⟨-, hpartyA, hpartyB, hfinalNonce, htimestamp, hroot, hsigA, hsigB, _⟩ := hf
  simp only at hid hpartyA hpartyB hfinalNonce htimestamp hroot hsigA hsigB
  subst hid hpartyA hpartyB hfinalNonce htimestamp hroot hsigA hsigB
  rfl

end HeaderFields

theorem u64ToBeBytes_ok_iff {value : Int} {bytes : Bytes} :
    u64ToBeBytes value = .ok bytes ↔
      ∃ w : UInt64, value = w.toNat ∧ bytes = Move.u64ToBeBytes w := by
  simp only [u64ToBeBytes, Engine.asU64, returned]
  constructor
  · rintro ⟨_, ⟨hrange, rfl⟩, rfl⟩
    have hword := Engine.toNat_word hrange
    exact ⟨word value, by rw [hword]; exact (Int.toNat_of_nonneg hrange.1).symm,
      by rw [Move.u64ToBeBytes_eq, hword]⟩
  · rintro ⟨w, rfl, rfl⟩
    have hw := w.toNat_lt
    exact ⟨w.toNat, ⟨⟨by omega, by simp only [Engine.u64Max]; omega⟩, by simp⟩,
      Move.u64ToBeBytes_eq w⟩

variable {b : SettleBody}

/-- The encoder writes the header and the entries of a body whose fields have their types'
ranges and lengths, and throws on every other. -/
theorem encodeSettleBody_ok_iff {bytes : Bytes} :
    encodeSettleBody b = .ok bytes ↔
      ∃ f : HeaderFields, f.Of b ∧ (∀ e ∈ b.entries, e.Signed) ∧
        bytes = f.bytes ++ b.entries.flatMap SettleEntry.bytes := by
  simp only [encodeSettleBody, returned, u64ToBeBytes_ok_iff, encodeEntries_ok_iff]
  constructor
  · rintro ⟨hroot, ⟨hsigA, hsigB⟩, _, ⟨partyA, hpartyA, rfl⟩, _, ⟨partyB, hpartyB, rfl⟩, _,
      ⟨finalNonce, hfinalNonce, rfl⟩, _, ⟨timestamp, htimestamp, rfl⟩, _, ⟨hsigned, rfl⟩, rfl⟩
    have hcount : (UInt32.ofNat b.entries.length).toNat = b.entries.length :=
      UInt32.toNat_ofNat_of_lt' b.length_entries
    refine ⟨⟨⟨id32 b.tunnelId, length_id32 _⟩, partyA, partyB, finalNonce, timestamp,
      ⟨b.transcriptRoot, hroot⟩, ⟨b.sigA, hsigA⟩, ⟨b.sigB, hsigB⟩,
      UInt32.ofNat b.entries.length⟩, ⟨rfl, hpartyA, hpartyB, hfinalNonce, htimestamp, rfl, rfl,
      rfl, hcount.symm⟩, hsigned, ?_⟩
    simp only [HeaderFields.bytes, hcount, List.flatMap, List.append_assoc]
  · rintro ⟨f, hf, hsigned, rfl⟩
    refine ⟨by rw [hf.transcriptRoot]; exact f.transcriptRoot.length_bytes,
      ⟨by rw [hf.sigA]; exact f.sigA.length_bytes, by rw [hf.sigB]; exact f.sigB.length_bytes⟩,
      _, ⟨_, hf.partyABalance, rfl⟩, _, ⟨_, hf.partyBBalance, rfl⟩, _, ⟨_, hf.finalNonce, rfl⟩, _,
      ⟨_, hf.timestamp, rfl⟩, _, ⟨hsigned, rfl⟩, ?_⟩
    simp only [HeaderFields.bytes, hf.id, hf.transcriptRoot, hf.sigA, hf.sigB, hf.count,
      List.flatMap, List.append_assoc]

theorem getUint32_field {bytes : Bytes} {value : UInt32} {offset : Nat}
    (h : bytes.drop offset = u32 value.toNat ++ rest) : getUint32 bytes offset = .ok value := by
  have hlength := congrArg List.length h
  rw [List.length_drop, List.length_append, u32, length_beBytes] at hlength
  simp only [getUint32, returned]
  refine ⟨by omega, ?_⟩
  rw [h, u32, List.take_left' (length_beBytes 4 _), ofBeBytes_beBytes value.toNat_lt]
  simp

theorem decodeSettleBody_header (f : HeaderFields) (rest : Bytes) :
    decodeSettleBody (f.bytes ++ rest) = (decodeCounted f.count.toNat rest).map f.body := by
  have hlength := f.length_bytes
  have hbytes : (f.bytes ++ rest).drop 0 = [settleBodyVersion] ++ (f.id.bytes ++
      (Move.u64ToBeBytes f.partyABalance ++ (Move.u64ToBeBytes f.partyBBalance ++
        (Move.u64ToBeBytes f.finalNonce ++ (Move.u64ToBeBytes f.timestamp ++
          (f.transcriptRoot.bytes ++ (f.sigA.bytes ++ (f.sigB.bytes ++
            (u32 f.count.toNat ++ rest))))))))) := by
    simp [HeaderFields.bytes]
  have hversion : (f.bytes ++ rest).headD 0 = settleBodyVersion := by
    rw [List.drop_zero] at hbytes
    rfl
  have hlong : headerLen ≤ (f.bytes ++ rest).length := by
    rw [List.length_append]
    omega
  generalize f.bytes ++ rest = bytes at hbytes hversion hlong ⊢
  have hid := drop_field hbytes rfl
  have hpartyA := drop_field hid f.id.length_bytes
  have hpartyB := drop_field hpartyA (Move.length_u64ToBeBytes _)
  have hfinalNonce := drop_field hpartyB (Move.length_u64ToBeBytes _)
  have htimestamp := drop_field hfinalNonce (Move.length_u64ToBeBytes _)
  have hroot := drop_field htimestamp (Move.length_u64ToBeBytes _)
  have hsigA := drop_field hroot f.transcriptRoot.length_bytes
  have hsigB := drop_field hsigA f.sigA.length_bytes
  have hcount := drop_field hsigB f.sigB.length_bytes
  have hrest : bytes.drop headerLen = rest := drop_field hcount (length_beBytes 4 _)
  have hidSlice : slice bytes 1 33 = f.id.bytes := slice_field hid f.id.length_bytes
  have hrootSlice : slice bytes 65 97 = f.transcriptRoot.bytes :=
    slice_field hroot f.transcriptRoot.length_bytes
  have hsigASlice : slice bytes 97 161 = f.sigA.bytes := slice_field hsigA f.sigA.length_bytes
  have hsigBSlice : slice bytes 161 225 = f.sigB.bytes := slice_field hsigB f.sigB.length_bytes
  have hpartyARead : u64FromBeBytes bytes 33 = .ok f.partyABalance.toNat :=
    Engine.u64FromBeBytes_field hpartyA
  have hpartyBRead : u64FromBeBytes bytes 41 = .ok f.partyBBalance.toNat :=
    Engine.u64FromBeBytes_field hpartyB
  have hfinalNonceRead : u64FromBeBytes bytes 49 = .ok f.finalNonce.toNat :=
    Engine.u64FromBeBytes_field hfinalNonce
  have htimestampRead : u64FromBeBytes bytes 57 = .ok f.timestamp.toNat :=
    Engine.u64FromBeBytes_field htimestamp
  have hcountRead : getUint32 bytes 225 = .ok f.count := getUint32_field hcount
  simp only [decodeSettleBody, require_of hlong, require_of hversion, hpartyARead, hpartyBRead,
    hfinalNonceRead, htimestampRead, hcountRead, ok_bind, hrest, hidSlice, hrootSlice, hsigASlice,
    hsigBSlice]
  cases decodeCounted f.count.toNat rest <;> rfl

theorem exists_header {bytes : Bytes} (hlength : headerLen ≤ bytes.length)
    (hversion : bytes.headD 0 = settleBodyVersion) :
    ∃ (f : HeaderFields) (rest : Bytes), bytes = f.bytes ++ rest := by
  have hsplit : bytes.length = 1 + (32 + (8 + (8 + (8 + (8 + (32 + (64 + (64 + (4 +
      (bytes.length - headerLen)))))))))) := by
    rw [headerLen] at hlength ⊢
    omega
  obtain ⟨version, rest, rfl, hone, hrest⟩ := exists_field hsplit
  obtain ⟨id, rest, rfl, hid, hrest⟩ := exists_field hrest
  obtain ⟨partyA, rest, rfl, hpartyA, hrest⟩ := exists_field hrest
  obtain ⟨partyB, rest, rfl, hpartyB, hrest⟩ := exists_field hrest
  obtain ⟨finalNonce, rest, rfl, hfinalNonce, hrest⟩ := exists_field hrest
  obtain ⟨timestamp, rest, rfl, htimestamp, hrest⟩ := exists_field hrest
  obtain ⟨root, rest, rfl, hroot, hrest⟩ := exists_field hrest
  obtain ⟨sigA, rest, rfl, hsigA, hrest⟩ := exists_field hrest
  obtain ⟨sigB, rest, rfl, hsigB, hrest⟩ := exists_field hrest
  obtain ⟨count, rest, rfl, hcount, -⟩ := exists_field hrest
  obtain ⟨partyA, rfl⟩ := Engine.exists_word hpartyA
  obtain ⟨partyB, rfl⟩ := Engine.exists_word hpartyB
  obtain ⟨finalNonce, rfl⟩ := Engine.exists_word hfinalNonce
  obtain ⟨timestamp, rfl⟩ := Engine.exists_word htimestamp
  obtain ⟨version, rfl⟩ := List.length_eq_one_iff.mp hone
  have hcountBytes : u32 (UInt32.ofNat (ofBeBytes count)).toNat = count := by
    have hlt := ofBeBytes_lt count
    have hback := beBytes_ofBeBytes count
    rw [hcount] at hlt hback
    rw [UInt32.toNat_ofNat_of_lt' hlt, u32, hback]
  refine ⟨⟨⟨id, hid⟩, partyA, partyB, finalNonce, timestamp, ⟨root, hroot⟩, ⟨sigA, hsigA⟩,
    ⟨sigB, hsigB⟩, UInt32.ofNat (ofBeBytes count)⟩, rest, ?_⟩
  have hone : version = settleBodyVersion := hversion
  simp only [HeaderFields.bytes, hcountBytes, hone, List.append_assoc]

theorem decodeSettleBody_ok_iff {bytes : Bytes} :
    decodeSettleBody bytes = .ok b ↔
      ∃ (f : HeaderFields) (rest : Bytes) (entries : _), bytes = f.bytes ++ rest ∧
        decodeCounted f.count.toNat rest = .ok entries ∧ b = f.body entries := by
  constructor
  · intro h
    have hchecks : headerLen ≤ bytes.length ∧ bytes.headD 0 = settleBodyVersion := by
      simp only [decodeSettleBody, returned] at h
      exact ⟨h.1, h.2.1⟩
    obtain ⟨f, rest, rfl⟩ := exists_header hchecks.1 hchecks.2
    rw [decodeSettleBody_header, map_ok_iff] at h
    obtain ⟨entries, hentries, rfl⟩ := h
    exact ⟨f, rest, entries, rfl, hentries, rfl⟩
  · rintro ⟨_, _, _, rfl, hentries, rfl⟩
    rw [decodeSettleBody_header, hentries]
    rfl

/-! ### Both directions -/

/-- The length that the count and the entries' length fields announce. -/
def announcedEnd (bytes : Bytes) : Nat :=
  headerLen + announcedLength (ofBeBytes (slice bytes 225 229)) (bytes.drop headerLen)

theorem announcedEnd_header (f : HeaderFields) (rest : Bytes) :
    announcedEnd (f.bytes ++ rest) = headerLen + announcedLength f.count.toNat rest := by
  have hrest : (f.bytes ++ rest).drop headerLen = rest := List.drop_left' f.length_bytes
  have hcount : slice (f.bytes ++ rest) 225 229 = u32 f.count.toNat := by
    apply slice_field _ (length_beBytes 4 _)
    · exact rest
    · rw [HeaderFields.bytes, List.append_assoc]
      apply List.drop_left'
      simp
  rw [announcedEnd, hrest, hcount, u32, ofBeBytes_beBytes f.count.toNat_lt]

/-- What is read back is the body, exactly when the id is canonical text and the messages
fit their length fields. -/
theorem decode_encode_iff {bytes : Bytes} (h : encodeSettleBody b = .ok bytes) :
    decodeSettleBody bytes = .ok b ↔
      (∃ id : Bytes32, b.tunnelId = "0x" ++ toHex id.bytes) ∧ ∀ e ∈ b.entries, e.Short := by
  obtain ⟨f, hf, hsigned, rfl⟩ := encodeSettleBody_ok_iff.mp h
  constructor
  · intro hdecode
    rw [decodeSettleBody_header, map_ok_iff] at hdecode
    obtain ⟨_, hentries, rfl⟩ := hdecode
    exact ⟨⟨f.id, rfl⟩, decodeCounted_short hentries⟩
  · rintro ⟨⟨id, hid⟩, hshort⟩
    have hfid : f.id.bytes = id.bytes := by rw [hf.id, hid, id32_toHex]
    rw [decodeSettleBody_header, decodeCounted_bytes hf.count hsigned hshort]
    exact congrArg Except.ok (HeaderFields.body_eq hf (by rw [hid, hfid]))

/-- What the decoder accepts and what the encoder writes meet in the byte strings that are as
long as announced. -/
theorem encode_decode_iff {bytes : Bytes} (h : decodeSettleBody bytes = .ok b) :
    (encodeSettleBody b = .ok bytes ↔ bytes.length = announcedEnd bytes) ∧
      ((∃ b', (∀ e ∈ b'.entries, e.Short) ∧ encodeSettleBody b' = .ok bytes) ↔
        bytes.length = announcedEnd bytes) := by
  obtain ⟨f, rest, entries, rfl, hentries, rfl⟩ := decodeSettleBody_ok_iff.mp h
  have hshort : ∀ e ∈ (f.body entries).entries, e.Short := decodeCounted_short hentries
  have hwritten : (f.bytes ++ rest).length = announcedEnd (f.bytes ++ rest) →
      encodeSettleBody (f.body entries) = .ok (f.bytes ++ rest) := by
    intro hlength
    rw [announcedEnd_header, List.length_append, f.length_bytes, Nat.add_left_cancel_iff] at hlength
    obtain ⟨hsigned, hrest⟩ := decodeCounted_exact hentries hlength
    exact encodeSettleBody_ok_iff.mpr ⟨f, f.of_body entries, hsigned, by rw [hrest]; rfl⟩
  have hexact : ∀ b', (∀ e ∈ b'.entries, e.Short) → encodeSettleBody b' = .ok (f.bytes ++ rest) →
      (f.bytes ++ rest).length = announcedEnd (f.bytes ++ rest) := by
    intro b' hshort' hencode
    obtain ⟨f', hf', hsigned', hbytes⟩ := encodeSettleBody_ok_iff.mp hencode
    rw [hbytes, announcedEnd_header, List.length_append, f'.length_bytes, ← hf'.count,
      announcedLength_bytes hsigned' hshort']
  exact ⟨⟨hexact _ hshort, hwritten⟩,
    ⟨fun ⟨b', hshort', hencode⟩ => hexact b' hshort' hencode,
      fun hlength => ⟨_, hshort, hwritten hlength⟩⟩⟩

end DopamintArena.Proof
