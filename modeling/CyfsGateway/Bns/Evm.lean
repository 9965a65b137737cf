import Mathlib

/-!
# EVM values used by the BNS contract

Byte strings are lists of bytes; `bytes32` and `address` carry their length.

`keccak256` appears in two roles.  As the key of a storage mapping it is kept
symbolic: a `Digest` remembers the preimage it was taken from, so two keys are
equal exactly when their preimages are, which is collision freedom.  The two
kinds of key cannot coincide either, because an encoded lineage tuple contains
the zero bytes that pad its epoch and no name or document type does.  As a
value that is stored or emitted it is an arbitrary function of the encoded
fields, supplied by the `Deployment`.
-/

namespace CyfsGateway.Evm

abbrev Bytes := List UInt8

def text (literal : String) : Bytes := literal.toList.map fun char => UInt8.ofNat char.toNat

def Bytes32 : Type := {data : Bytes // data.length = 32}
  deriving DecidableEq

def Address : Type := {data : Bytes // data.length = 20}
  deriving DecidableEq

def Bytes32.zero : Bytes32 := ⟨List.replicate 32 0, by decide⟩

def Address.zero : Address := ⟨List.replicate 20 0, by decide⟩

instance : Inhabited Bytes32 := ⟨Bytes32.zero⟩

instance : Inhabited Address := ⟨Address.zero⟩

/-- The word whose last byte is `low` and whose other bytes are zero. -/
def Bytes32.ofByte (low : UInt8) : Bytes32 := ⟨List.replicate 31 0 ++ [low], by simp⟩

/-- The address whose last byte is `low` and whose other bytes are zero. -/
def Address.ofByte (low : UInt8) : Address := ⟨List.replicate 19 0 ++ [low], by simp⟩

inductive Digest
  /-- `keccak256(data)` of a name, a document type or a constant text. -/
  | keccak256 (data : Bytes)
  /-- `keccak256(abi.encode(domain, nameHash, lineageEpoch))`. -/
  | keccak256Lineage (domain nameHash : Digest) (lineageEpoch : UInt64)
  deriving DecidableEq

instance : Inhabited Digest := ⟨.keccak256 []⟩

inductive AbiValue
  | digest (value : Digest)
  | bytes32 (value : Bytes32)
  | address (value : Address)
  | uint64 (value : UInt64)
  | uint32 (value : UInt32)
  | uint256 (value : Nat)
  | enumeration (index : Nat)
  | bool (value : Bool)
  | bytes (value : Bytes)
  deriving DecidableEq

/-- What a stored or emitted `keccak256` is taken of.  The kind of encoding is part of it;
the bytes it gives are left to the hash function of the deployment. -/
inductive Preimage
  | encode (fields : List AbiValue)
  | encodePacked (fields : List AbiValue)
  | bytes (data : Bytes)
  deriving DecidableEq

/-- The chain a contract is deployed on: its hash functions, `block.chainid`
and `address(this)`. -/
structure Deployment where
  keccak256 : Preimage → Bytes32
  sha256 : Bytes → Bytes32
  chainId : Nat
  self : Address

/-- The environment of one call: `msg.sender` and `uint64(block.timestamp)`. -/
structure Message where
  sender : Address
  now : UInt64
  deriving DecidableEq

/-- Checked `uint64` addition: the compiler reverts on overflow. -/
def checkedAdd (left right : UInt64) : Option UInt64 :=
  if left.toNat + right.toNat < 2 ^ 64 then some (left + right) else none

theorem checkedAdd_eq_some_iff : checkedAdd left right = some total ↔
      total.toNat = left.toNat + right.toNat := by
  unfold checkedAdd
  constructor
  · intro hsum
    split at hsum
    · rename_i hbound
      obtain rfl := Option.some.inj hsum
      rw [UInt64.toNat_add, Nat.mod_eq_of_lt hbound]
    · simp at hsum
  · intro htotal
    have hbound : left.toNat + right.toNat < 2 ^ 64 := by
      rw [← htotal]
      exact total.toNat_lt
    rw [if_pos hbound]
    congr 1
    apply UInt64.toNat_inj.mp
    rw [UInt64.toNat_add, Nat.mod_eq_of_lt hbound, htotal]

/-- `_tryAddressFromBytes`: a 20-byte value is the address itself, of a
32-byte word the low 20 bytes count. -/
def tryAddressFromBytes (value : Bytes) : Option Address :=
  if h : value.length = 20 then some ⟨value, h⟩
  else if h : value.length = 32 then some ⟨value.drop 12, by simp [h]⟩
  else none

@[simp]
theorem tryAddressFromBytes_address (account : Address) :
    tryAddressFromBytes account.val = some account := by
  rw [tryAddressFromBytes, dif_pos account.property]
  rfl

end CyfsGateway.Evm
