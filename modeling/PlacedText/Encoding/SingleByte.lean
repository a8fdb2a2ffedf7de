import PlacedText.Encoding.Scheme

/-!
# Encodings of one byte a character

In Latin-1 each byte is the number of its character; ASCII is the lower half of that.  Code page
1252 differs from Latin-1 in the bytes `80` to `9F`, five of which it leaves undefined.
-/

namespace PlacedText

/-- ASCII: bytes below `80`. -/
def Ascii.scan (b : UInt8) : Head :=
  if b.toNat < 0x80 then .char (.ofByte b) 0 else .invalid 0 .notAscii

/-- Latin-1: all bytes. -/
def Latin1.scan (b : UInt8) : Head := .char (.ofByte b) 0

namespace Cp1252

/-- The characters of the bytes `80` to `9F`; zero for the bytes that have none. -/
def upperControls : Array Nat := #[
  0x20AC, 0, 0x201A, 0x0192, 0x201E, 0x2026, 0x2020, 0x2021,
  0x02C6, 0x2030, 0x0160, 0x2039, 0x0152, 0, 0x017D, 0,
  0, 0x2018, 0x2019, 0x201C, 0x201D, 0x2022, 0x2013, 0x2014,
  0x02DC, 0x2122, 0x0161, 0x203A, 0x0153, 0, 0x017E, 0x0178]

/-- The character of a byte, if the byte has one. -/
def character? (b : UInt8) : Option CodePoint :=
  if 0x80 ≤ b.toNat && b.toNat ≤ 0x9F then
    match upperControls[b.toNat - 0x80]? with
    | some (n + 1) => CodePoint.ofNat? (n + 1)
    | _ => none
  else some (.ofByte b)

/-- Code page 1252: all bytes that have a character. -/
def scan (b : UInt8) : Head :=
  match character? b with
  | some c => .char c 0
  | none => .invalid 0 .undefinedByte

end Cp1252

end PlacedText
