import ContractInterface.Text.Quoted

/-!
# UTF-8

Text in files is UTF-8.  Reading is strict: the first sequence of bytes that is no character is
refused with its place and the reason.
-/

namespace ContractInterface.Utf8

/-- Why bytes are not UTF-8. -/
inductive Cause where
  | invalidStart
  | invalidContinuation
  | unexpectedEnd
  deriving DecidableEq, Repr

/-- The wording of a cause. -/
def Cause.message : Cause → String
  | .invalidStart => "invalid start byte"
  | .invalidContinuation => "invalid continuation byte"
  | .unexpectedEnd => "unexpected end of data"

/-- A refused sequence of bytes: where it starts, its bytes and the reason. -/
structure Error where
  start : Nat
  first : UInt8
  count : Nat
  cause : Cause
  deriving DecidableEq, Repr

/-- The wording of a refusal. -/
def Error.message (e : Error) : String :=
  let place :=
    if e.count = 1 then
      "byte 0x" ++ String.ofList (Text.hexDigits 2 e.first.toNat) ++
        " in position " ++ toString e.start
    else
      "bytes in position " ++ toString e.start ++ "-" ++ toString (e.start + e.count - 1)
  "'utf-8' codec can't decode " ++ place ++ ": " ++ e.cause.message

/-- The bytes of a text. -/
def encode (t : Text) : List UInt8 :=
  t.flatMap String.utf8EncodeChar

/-- Whether a byte continues a character. -/
def isContinuation (b : UInt8) : Bool :=
  0x80 ≤ b && b < 0xc0

/-- Whether the second byte of a character of three or four bytes is in the range that the first
one allows: no overlong forms, no halves of UTF-16 pairs, nothing above the last code point. -/
def allowsSecond (first second : UInt8) : Bool :=
  isContinuation second &&
    (first != 0xe0 || 0xa0 ≤ second) && (first != 0xed || second < 0xa0) &&
    (first != 0xf0 || 0x90 ≤ second) && (first != 0xf4 || second < 0x90)

/-- The number of bytes of the character that a byte starts. -/
def sequenceLength? (b : UInt8) : Option Nat :=
  if b < 0x80 then some 1
  else if b < 0xc2 then none
  else if b < 0xe0 then some 2
  else if b < 0xf0 then some 3
  else if b < 0xf5 then some 4
  else none

/-- How many of the bytes after the first one go on a character, of those that are there. -/
def validTail (first : UInt8) (tail : List UInt8) : Nat :=
  match tail with
  | [] => 0
  | second :: rest =>
    if allowsSecond first second then 1 + (rest.takeWhile isContinuation).length else 0

/-- The code point of a character from the payload of its first byte and the bytes after it. -/
def codePoint (payload : Nat) (tail : List UInt8) : Nat :=
  tail.foldl (fun n b => n * 64 + (b.toNat - 0x80)) payload

/-- The payload of the first byte of a character of a given length. -/
def payload (first : UInt8) (length : Nat) : Nat :=
  match length with
  | 1 => first.toNat
  | 2 => first.toNat - 0xc0
  | 3 => first.toNat - 0xe0
  | _ => first.toNat - 0xf0

/-- The text of bytes from a position on, after passing over `skip` bytes. -/
def decodeFrom : Nat → Nat → List UInt8 → Except Error Text
  | _, _, [] => .ok []
  | start, skip + 1, _ :: bytes => decodeFrom (start + 1) skip bytes
  | start, 0, first :: bytes =>
    match sequenceLength? first with
    | none => .error ⟨start, first, 1, .invalidStart⟩
    | some length =>
      let tail := bytes.take (length - 1)
      let valid := validTail first tail
      if valid < tail.length then .error ⟨start, first, 1 + valid, .invalidContinuation⟩
      else if tail.length < length - 1 then
        .error ⟨start, first, 1 + tail.length, .unexpectedEnd⟩
      else do
        let rest ← decodeFrom (start + 1) (length - 1) bytes
        return Char.ofNat (codePoint (payload first length) tail) :: rest

/-- The text of bytes. -/
def decode (bytes : List UInt8) : Except Error Text :=
  decodeFrom 0 0 bytes

end ContractInterface.Utf8
