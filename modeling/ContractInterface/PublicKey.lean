import ContractInterface.Json.Display

/-!
# Public keys of contracts

The public key of a contract is its index: 32 bytes in hexadecimal, of which the first eight hold
the index with the least significant byte in front, and the others are zero.
-/

namespace ContractInterface.PublicKey

/-- The least index that no contract can have. -/
def indexBound : Nat := Nat.pow 2 32

/-- The number of bytes of a key. -/
def keySize : Nat := 32

/-- The lowest bytes of a number, least significant first. -/
def littleEndian : Nat → Nat → List Nat
  | 0, _ => []
  | count + 1, n => n % 256 :: littleEndian count (n / 256)

/-- The bytes of the key of a contract. -/
def bytes (index : Nat) : List Nat :=
  littleEndian 8 index ++ List.replicate (keySize - 8) 0

/-- A byte as two hexadecimal digits. -/
def hexByte (b : Nat) : Text :=
  Text.hexDigits 2 b

/-- The key of a contract in hexadecimal. -/
def hex (index : Nat) : String :=
  String.ofList ((bytes index).flatMap hexByte)

/-- A value that is no index. -/
structure IndexError where
  value : Json
  deriving DecidableEq, Repr

/-- The wording of the error about a value that is no index. -/
def IndexError.message (e : IndexError) : String :=
  "contractIndex must fit in uint32, got " ++ e.value.display

/-- Why a value has no key. -/
inductive Refusal where
  | index (cause : IndexError)
  /-- The wording would show an integer that is too long to be written. -/
  | numeral (cause : Numeral.Error)
  deriving DecidableEq, Repr

/-- The refusal of a value that is no index. -/
def refusal (value : Json) : Refusal :=
  if value.isWritable then .index ⟨value⟩ else .numeral .unwritable

/-- The key of the contract whose index is a given value. -/
def ofJson (value : Json) : Except Refusal String :=
  match value.nat? with
  | some n => if n < indexBound then .ok (hex n) else .error (refusal value)
  | none => .error (refusal value)

end ContractInterface.PublicKey
