import PlacedText.Encoding.Scheme
import PlacedText.Text.Decimal

/-!
# Names of encodings

Encodings are chosen by name.  Names are compared after simplifying them: letters and digits of
ASCII and full stops count, without regard to case, and whatever else stands between them counts
as one underscore.  Some names are those of conversions between bytes, which are known but are no
encodings of text.
-/

namespace PlacedText

/-- Encodings whose data may begin with a byte order mark. -/
inductive MarkedEncoding where
  /-- UTF-8; a mark at the start is dropped. -/
  | utf8
  /-- UTF-16; a mark at the start tells the byte order. -/
  | utf16
  /-- UTF-32; a mark at the start tells the byte order. -/
  | utf32
deriving DecidableEq

/-- Encodings of text. -/
inductive Encoding where
  /-- A scheme without a byte order mark. -/
  | plain (scheme : Scheme)
  /-- An encoding with a byte order mark. -/
  | marked (encoding : MarkedEncoding)
deriving DecidableEq

/-- What a name can stand for. -/
inductive Codec where
  /-- An encoding of text. -/
  | encoding (e : Encoding)
  /-- A conversion that does not make text of bytes. -/
  | conversion
deriving DecidableEq

namespace Label

/-- The sign that a code point of a name counts as, if it counts. -/
def sign? (c : CodePoint) : Option Char :=
  let ch := Char.ofNat c.toNat
  if ch.isAlphanum then some ch.toLower
  else if ch = '.' then some ch
  else none

/-- Simplifies the rest of a name.  `begun` tells whether a sign came before, and `gap` whether
something that does not count came since. -/
def simplifyFrom (begun gap : Bool) : Text → List Char
  | [] => []
  | c :: rest => match sign? c with
    | none => simplifyFrom begun true rest
    | some ch =>
      if begun && gap then '_' :: ch :: simplifyFrom true false rest
      else ch :: simplifyFrom true false rest

/-- The simplified form of a name. -/
def simplify (label : Text) : String := String.ofList (simplifyFrom false false label)

/-! ### Known names -/

/-- The names of single encodings and conversions. -/
def names : List (String × Codec) := [
  ("utf_8", .encoding (.plain .utf8)),
  ("utf_8_sig", .encoding (.marked .utf8)),
  ("latin_1", .encoding (.plain .latin1)),
  ("ascii", .encoding (.plain .ascii)),
  ("cp1252", .encoding (.plain .cp1252)),
  ("utf_16", .encoding (.marked .utf16)),
  ("utf_16_le", .encoding (.plain (.utf16 .little))),
  ("utf_16_be", .encoding (.plain (.utf16 .big))),
  ("utf_32", .encoding (.marked .utf32)),
  ("utf_32_le", .encoding (.plain (.utf32 .little))),
  ("utf_32_be", .encoding (.plain (.utf32 .big))),
  ("hex_codec", .conversion),
  ("base64_codec", .conversion),
  ("rot_13", .conversion)]

/-- Further names, each with the name it stands for.  In these a full stop may stand for an
underscore. -/
def aliases : List (String × String) := [
  ("u8", "utf_8"), ("utf", "utf_8"), ("utf8", "utf_8"), ("utf8_ucs2", "utf_8"),
  ("utf8_ucs4", "utf_8"), ("cp65001", "utf_8"),
  ("8859", "latin_1"), ("cp819", "latin_1"), ("csisolatin1", "latin_1"), ("ibm819", "latin_1"),
  ("iso8859", "latin_1"), ("iso8859_1", "latin_1"), ("iso_8859_1", "latin_1"),
  ("iso_8859_1_1987", "latin_1"), ("iso_ir_100", "latin_1"), ("l1", "latin_1"),
  ("latin", "latin_1"), ("latin1", "latin_1"),
  ("646", "ascii"), ("ansi_x3.4_1968", "ascii"), ("ansi_x3_4_1968", "ascii"),
  ("ansi_x3.4_1986", "ascii"), ("cp367", "ascii"), ("csascii", "ascii"), ("ibm367", "ascii"),
  ("iso646_us", "ascii"), ("iso_646.irv_1991", "ascii"), ("iso_ir_6", "ascii"), ("us", "ascii"),
  ("us_ascii", "ascii"),
  ("1252", "cp1252"), ("windows_1252", "cp1252"),
  ("u16", "utf_16"), ("utf16", "utf_16"),
  ("utf_16le", "utf_16_le"), ("unicodelittleunmarked", "utf_16_le"),
  ("utf_16be", "utf_16_be"), ("unicodebigunmarked", "utf_16_be"),
  ("u32", "utf_32"), ("utf32", "utf_32"),
  ("utf_32le", "utf_32_le"), ("utf_32be", "utf_32_be"),
  ("hex", "hex_codec"), ("base64", "base64_codec"), ("base_64", "base64_codec"),
  ("rot13", "rot_13")]

/-- What a simplified name stands for, if it is known. -/
def resolve? (name : String) : Option Codec :=
  let dotless := name.map fun ch => if ch = '.' then '_' else ch
  let full := (aliases.lookup name <|> aliases.lookup dotless).getD name
  names.lookup full

/-! ### Checking a name -/

/-- Why a name cannot even be looked up. -/
inductive Problem where
  /-- The code points from `start` on, `more` and one of them, are surrogates, of which `c` is the
  first. -/
  | surrogates (c : CodePoint) (start more : Nat)
  /-- The name holds the code point zero. -/
  | zero
deriving DecidableEq

/-- The message of a problem. -/
def Problem.message : Problem → Text
  | .surrogates c start 0 =>
    text "'utf-8' codec can't encode character '\\u" ++ hexDigits 4 c.toNat ++
      text "' in position " ++ Decimal.ofNat start ++ text ": surrogates not allowed"
  | .surrogates _ start more =>
    text "'utf-8' codec can't encode characters in position " ++ Decimal.ofNat start ++
      text "-" ++ Decimal.ofNat (start + more) ++ text ": surrogates not allowed"
  | .zero => text "embedded null character"

/-- The first run of surrogates in a name, if it holds any. -/
def surrogates? (label : Text) : Option Problem :=
  match label.dropWhile (fun c => !c.isSurrogate) with
  | c :: rest =>
    some (.surrogates c (label.takeWhile fun c => !c.isSurrogate).length
      (rest.takeWhile CodePoint.isSurrogate).length)
  | [] => none

/-- The first problem of a name; surrogates anywhere come before a zero anywhere. -/
def problem? (label : Text) : Option Problem :=
  surrogates? label <|> if label.any (·.toNat = 0) then some .zero else none

end Label

/-- What a name stands for, if it is known. -/
def Codec.ofLabel? (label : Text) : Option Codec := Label.resolve? (Label.simplify label)

end PlacedText
