import ClarityDelta.Text.Numeral

/-!
# Encoding

A text may hold surrogates, which are code points but no characters. They have no bytes, so a text that
holds one cannot be encoded.
-/

namespace ClarityDelta.Text

/-- A code point: a character, or the surrogate with the given index, the first being U+D800. -/
inductive CodePoint where
  | char (c : Char)
  | surrogate (index : Fin 2048)
  deriving DecidableEq, Repr

/-- Whether a code point is no character. -/
def CodePoint.isSurrogate : CodePoint → Bool
  | char _ => false
  | surrogate _ => true

/-- A text of any code points: the characters before its first surrogate, and from there on, if there is
one, its index and the code points behind it. -/
structure CodeText where
  characters : String
  broken : Option (Fin 2048 × List CodePoint)
  deriving DecidableEq, Repr

/-- The surrogates that keep a text from being encoded: the code of the first one, its position, and how
many of them stand together there. -/
structure EncodeFault where
  code : Nat
  position : Nat
  size : Nat
  deriving DecidableEq, Repr

/-- The fault in words. -/
def EncodeFault.message (fault : EncodeFault) : String :=
  let place :=
    if fault.size = 1 then
      s!"character '\\u" ++ String.ofList (hex 4 fault.code) ++ s!"' in position {fault.position}"
    else s!"characters in position {fault.position}-{fault.position + fault.size - 1}"
  s!"'utf-8' codec can't encode {place}: surrogates not allowed"

namespace CodeText

/-- A text of characters. -/
def ofString (s : String) : CodeText :=
  ⟨s, none⟩

instance : Coe String CodeText := ⟨ofString⟩

/-- The bytes of a text. -/
def encode (text : CodeText) : Except EncodeFault ByteArray :=
  match text.broken with
  | none => .ok text.characters.toUTF8
  | some (index, rest) =>
    .error ⟨0xD800 + index.val, text.characters.length,
      1 + (rest.takeWhile (·.isSurrogate)).length⟩

end CodeText

end ClarityDelta.Text
