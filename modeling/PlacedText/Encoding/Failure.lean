import PlacedText.Encoding.Scheme
import PlacedText.Text.Decimal

/-!
# Failures to decode

A `DecodeFailure` says which bytes could not be decoded, and why.  Positions count bytes from the
start of the data that was decoded at once.
-/

namespace PlacedText

/-- Bytes that are no character: the first one, its place in the data, and the number of further
bytes that belong to it. -/
structure DecodeFailure where
  scheme : Scheme
  first : UInt8
  start : Nat
  more : Nat
  reason : Reason
deriving DecidableEq

/-- The message shows a single byte, or the places of the first and last byte if there are
several. -/
def DecodeFailure.message (f : DecodeFailure) : Text :=
  text "'" ++ f.scheme.name ++ text "' codec can't decode " ++
  (if f.more = 0 then
    text "byte 0x" ++ hexDigits 2 f.first.toNat ++ text " in position " ++ Decimal.ofNat f.start
  else
    text "bytes in position " ++ Decimal.ofNat f.start ++ text "-" ++
      Decimal.ofNat (f.start + f.more)) ++
  text ": " ++ f.reason.message

end PlacedText
