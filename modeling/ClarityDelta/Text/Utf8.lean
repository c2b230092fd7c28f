import ClarityDelta.Text.Numeral

/-!
# UTF-8

Text as bytes. Bytes that are no text are either refused, telling where and why, or replaced: the
longest run of bytes that could have begun a character becomes one replacement character.
-/

namespace ClarityDelta.Text.Utf8

/-- Why bytes are no text. -/
inductive Malformed where
  | invalidStart
  | invalidContinuation
  | unexpectedEnd
  deriving DecidableEq, Repr

/-- The reason in words. -/
def Malformed.text : Malformed → String
  | invalidStart => "invalid start byte"
  | invalidContinuation => "invalid continuation byte"
  | unexpectedEnd => "unexpected end of data"

/-- What bytes begin with: a character, or a malformed piece, and the number of bytes it takes. -/
structure Piece where
  reading : Except Malformed Char
  size : Nat

/-- The piece that goes on with the given number of continuation bytes. The next one lies between
the bounds; those after it are arbitrary continuation bytes. -/
def continued (value size low high : Nat) : Nat → List UInt8 → Piece
  | 0, _ => ⟨.ok (Char.ofNat value), size⟩
  | _ + 1, [] => ⟨.error .unexpectedEnd, size⟩
  | needed + 1, b :: rest =>
    if low ≤ b.toNat ∧ b.toNat ≤ high then
      continued (value * 64 + (b.toNat - 0x80)) (size + 1) 0x80 0xBF needed rest
    else ⟨.error .invalidContinuation, size⟩

/-- The piece that begins with the given byte. The bounds on the second byte leave out what has a
shorter form, halves of pairs and what is no code point. -/
def piece (byte : UInt8) (rest : List UInt8) : Piece :=
  let b := byte.toNat
  if b < 0x80 then ⟨.ok (Char.ofNat b), 1⟩
  else if b < 0xC2 then ⟨.error .invalidStart, 1⟩
  else if b < 0xE0 then continued (b - 0xC0) 1 0x80 0xBF 1 rest
  else if b < 0xF0 then
    continued (b - 0xE0) 1 (if b = 0xE0 then 0xA0 else 0x80) (if b = 0xED then 0x9F else 0xBF)
      2 rest
  else if b < 0xF5 then
    continued (b - 0xF0) 1 (if b = 0xF0 then 0x90 else 0x80) (if b = 0xF4 then 0x8F else 0xBF)
      3 rest
  else ⟨.error .invalidStart, 1⟩

/-- The text of bytes, malformed pieces replaced. -/
def decodeLossy : List UInt8 → List Char
  | [] => []
  | b :: rest =>
    let p := piece b rest
    (match p.reading with
      | .ok c => c
      | .error _ => '\uFFFD') :: decodeLossy (rest.drop (p.size - 1))
termination_by bytes => bytes.length
decreasing_by simp only [List.length_drop, List.length_cons]; omega

/-- The malformed piece that keeps bytes from being a text. -/
structure DecodeFault where
  firstByte : UInt8
  position : Nat
  size : Nat
  reason : Malformed
  deriving DecidableEq, Repr

/-- The fault in words. -/
def DecodeFault.message (fault : DecodeFault) : String :=
  let place :=
    if fault.size = 1 then
      s!"byte 0x{String.ofList (hex 2 fault.firstByte.toNat)} in position {fault.position}"
    else s!"bytes in position {fault.position}-{fault.position + fault.size - 1}"
  s!"'utf-8' codec can't decode {place}: {fault.reason.text}"

/-- The text of bytes that begin at the given position, refused at the first malformed piece. -/
def decodeFrom (position : Nat) : List UInt8 → Except DecodeFault (List Char)
  | [] => .ok []
  | b :: rest =>
    let p := piece b rest
    match p.reading with
    | .error reason => .error ⟨b, position, p.size, reason⟩
    | .ok c => (decodeFrom (position + p.size) (rest.drop (p.size - 1))).map (c :: ·)
termination_by bytes => bytes.length
decreasing_by simp only [List.length_drop, List.length_cons]; omega

/-- The text of bytes, refused when a piece is malformed. -/
def decode (bytes : ByteArray) : Except DecodeFault String :=
  (decodeFrom 0 bytes.toList).map String.ofList

/-- The text of bytes, malformed pieces replaced. -/
def lossy (bytes : ByteArray) : String :=
  String.ofList (decodeLossy bytes.toList)

end ClarityDelta.Text.Utf8
