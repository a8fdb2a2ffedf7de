import PlacedText.CodePoint

/-!
# Encoding schemes

A `Scheme` fixes how one character is written as bytes: it has no byte order mark and no state.
What the bytes at the front of some data hold is a `Head`, which every scheme finds out with a
function of its own.  Sizes in a `Head` count the bytes after the first one, so that whatever is
found takes at least one byte.
-/

namespace PlacedText

/-- Which byte of a unit comes first: the lowest or the highest. -/
inductive ByteOrder where
  | little
  | big
deriving DecidableEq

/-- How single characters are written as bytes. -/
inductive Scheme where
  | utf8
  | utf16 (order : ByteOrder)
  | utf32 (order : ByteOrder)
  | ascii
  | latin1
  | cp1252
deriving DecidableEq

/-- The name of a scheme in messages; the one that maps bytes by a table of its own is
`charmap`. -/
def Scheme.name : Scheme → Text
  | .utf8 => text "utf-8"
  | .utf16 .little => text "utf-16-le"
  | .utf16 .big => text "utf-16-be"
  | .utf32 .little => text "utf-32-le"
  | .utf32 .big => text "utf-32-be"
  | .ascii => text "ascii"
  | .latin1 => text "latin-1"
  | .cp1252 => text "charmap"

/-- Why bytes are no character of their scheme. -/
inductive Reason where
  | startByte
  | continuationByte
  | endOfData
  | truncated
  | loneLowSurrogate
  | unpairedHighSurrogate
  | surrogate
  | aboveRange
  | notAscii
  | undefinedByte
deriving DecidableEq

/-- The wording of a reason in messages. -/
def Reason.message : Reason → Text
  | .startByte => text "invalid start byte"
  | .continuationByte => text "invalid continuation byte"
  | .endOfData => text "unexpected end of data"
  | .truncated => text "truncated data"
  | .loneLowSurrogate => text "illegal encoding"
  | .unpairedHighSurrogate => text "illegal UTF-16 surrogate"
  | .surrogate => text "code point in surrogate code point range(0xd800, 0xe000)"
  | .aboveRange => text "code point not in range(0x110000)"
  | .notAscii => text "ordinal not in range(128)"
  | .undefinedByte => text "character maps to <undefined>"

/-- What stands at the front of some bytes. -/
inductive Head where
  /-- A character, written with the first byte and `more` bytes after it. -/
  | char (c : CodePoint) (more : Nat)
  /-- The first byte and `more` bytes after it are no character. -/
  | invalid (more : Nat) (reason : Reason)
  /-- The data stops inside a character.  If no data follows, the first byte and `more` bytes
  after it are no character, for the given reason. -/
  | incomplete (more : Nat) (reason : Reason)
deriving DecidableEq

/-- What stands at the front if no data follows. -/
def Head.settled : Head → Head
  | .incomplete more reason => .invalid more reason
  | head => head

end PlacedText
