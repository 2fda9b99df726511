import DopamintArena.Foundation.Bytes
import DopamintArena.Foundation.Outcome

/-!
The on-chain platform as the tunnel contract sees it, and `signature.move`.

Sui's native verifiers and hash are parameters (`Natives`): nothing is assumed
about them here. A call either returns or aborts; an abort carries one of the
error constants of the package, or is the virtual machine's arithmetic error
or the framework's error for splitting more than a balance holds.
-/

namespace DopamintArena.Move

open Foundation

/-- An account address; object ids have the same 32-byte form. -/
abbrev Address := Bytes32

/-- Sui's native functions. -/
structure Natives where
  ed25519Verify : (signature publicKey message : Bytes) → Bool
  bls12381MinSigVerify : (signature publicKey message : Bytes) → Bool
  bls12381MinPkVerify : (signature publicKey message : Bytes) → Bool
  secp256k1Verify : (signature publicKey message : Bytes) → (hashType : UInt8) → Bool
  blake2b256 : Bytes → Bytes32

/-- Why a call aborted. -/
inductive Abort
  | notAuthorized
  | invalidState
  | invalidParameter
  | alreadyExists
  | notFound
  | notSupported
  | invalidHash
  | invalidSignature
  | invalidPublicKey
  | unsupportedSignatureType
  | tunnelClosed
  | invalidParties
  | invalidNonce
  | invalidVersion
  | staleState
  | invalidTranscriptRoot
  | noActiveDispute
  | timeoutNotReached
  | refereeNotAuthorized
  | invalidTimeout
  | invalidPreimage
  | htlcExpired
  | htlcNotExpired
  | outstandingHtlc
  | insufficientBalance
  | balanceSumMismatch
  | minimumDepositNotMet
  | cannotExtendDuringDispute
  | invalidPartyASignature
  | invalidPartyBSignature
  | timeoutExtensionTooLarge
  | timeoutTooLong
  | notAnUpgrade
  /-- `u64` overflow or underflow. -/
  | arithmeticError
  /-- `sui::balance::split` of more than the balance. -/
  | notEnough
deriving DecidableEq

def sigTypeEd25519 : UInt8 := 0
def sigTypeBls12381MinSig : UInt8 := 1
def sigTypeBls12381MinPk : UInt8 := 2
def sigTypeSecp256k1 : UInt8 := 3
def hashSha256 : UInt8 := 1

def isValidSignatureType (sigType : UInt8) : Bool :=
  sigType == sigTypeEd25519 ||
  sigType == sigTypeBls12381MinSig ||
  sigType == sigTypeBls12381MinPk ||
  sigType == sigTypeSecp256k1

def isValidPublicKeyLength (sigType : UInt8) (publicKey : Bytes) : Bool :=
  if sigType = sigTypeEd25519 then publicKey.length == 32
  else if sigType = sigTypeBls12381MinSig then publicKey.length == 96
  else if sigType = sigTypeBls12381MinPk then publicKey.length == 48
  else if sigType = sigTypeSecp256k1 then
    publicKey.length == 33 || publicKey.length == 65
  else false

def isValidSignatureLength (sigType : UInt8) (signature : Bytes) : Bool :=
  if sigType = sigTypeEd25519 then signature.length == 64
  else if sigType = sigTypeBls12381MinSig then signature.length == 48
  else if sigType = sigTypeBls12381MinPk then signature.length == 96
  else if sigType = sigTypeSecp256k1 then signature.length == 64
  else false

/-- The unified verifier. It aborts on a malformed key or signature and
otherwise dispatches on the signature type. -/
def verify (env : Natives) (sigType : UInt8) (publicKey message signature : Bytes) :
    Except Abort Bool := do
  require (isValidSignatureType sigType = true) .unsupportedSignatureType
  require (isValidPublicKeyLength sigType publicKey = true) .invalidPublicKey
  require (isValidSignatureLength sigType signature = true) .invalidSignature
  if sigType = sigTypeEd25519 then
    pure (env.ed25519Verify signature publicKey message)
  else if sigType = sigTypeBls12381MinSig then
    pure (env.bls12381MinSigVerify signature publicKey message)
  else if sigType = sigTypeBls12381MinPk then
    pure (env.bls12381MinPkVerify signature publicKey message)
  else if sigType = sigTypeSecp256k1 then
    pure (env.secp256k1Verify signature publicKey message hashSha256)
  else
    pure false

/-- The eight bytes of `value`, most significant first. -/
def u64ToBeBytes (value : UInt64) : Bytes :=
  [((value >>> 56) &&& 0xFF).toUInt8,
   ((value >>> 48) &&& 0xFF).toUInt8,
   ((value >>> 40) &&& 0xFF).toUInt8,
   ((value >>> 32) &&& 0xFF).toUInt8,
   ((value >>> 24) &&& 0xFF).toUInt8,
   ((value >>> 16) &&& 0xFF).toUInt8,
   ((value >>> 8) &&& 0xFF).toUInt8,
   (value &&& 0xFF).toUInt8]

@[simp] theorem length_u64ToBeBytes (value : UInt64) :
    (u64ToBeBytes value).length = 8 := rfl

private theorem masked_byte (value shift : UInt64) (hshift : shift.toNat < 64) :
    ((value >>> shift) &&& 0xFF).toUInt8 =
      (value.toNat / 2 ^ shift.toNat % 256).toUInt8 := by
  apply UInt8.toNat_inj.mp
  have hmask : (255 : Nat) = 2 ^ 8 - 1 := rfl
  simp only [UInt64.toNat_toUInt8, UInt64.toNat_and, UInt64.toNat_shiftRight,
    Nat.shiftRight_eq_div_pow, UInt64.reduceToNat, Nat.mod_eq_of_lt hshift]
  rw [hmask, Nat.and_two_pow_sub_one_eq_mod]
  simp

theorem u64ToBeBytes_eq (value : UInt64) :
    u64ToBeBytes value = beBytes 8 value.toNat := by
  have hlow := masked_byte value 0 (by decide)
  rw [u64ToBeBytes, masked_byte, masked_byte, masked_byte, masked_byte,
    masked_byte, masked_byte, masked_byte] <;> try decide
  simpa [beBytes, Nat.div_div_eq_div_mul] using hlow

theorem u64ToBeBytes_inj {x y : UInt64} (h : u64ToBeBytes x = u64ToBeBytes y) :
    x = y := by
  rw [u64ToBeBytes_eq, u64ToBeBytes_eq] at h
  exact beBytes_toNat_inj h

end DopamintArena.Move
