import PlacedText.Encoding.Failure
import PlacedText.Text.Excerpt

/-!
# Faults

What can go wrong when a stream is read: the stream itself refuses, or its bytes make no text.
-/

namespace PlacedText

/-- Why a stream does not answer a read. -/
inductive Fault where
  /-- The stream of characters is closed. -/
  | textClosed
  /-- The stream of bytes is closed. -/
  | bytesClosed
  /-- The stream cannot count as far as the size asked for. -/
  | oversized
  /-- The system cannot set as many bytes aside as are asked for. -/
  | outOfMemory
  /-- The system reported an error. -/
  | system (message : Text)
  /-- The bytes read are not in the stream's encoding. -/
  | undecodable (failure : DecodeFailure)
  /-- The data needs a byte order mark, in units of so many bits, and has none. -/
  | noByteOrderMark (bits : Nat)
  /-- The policy chosen for bytes that cannot be decoded is one for encoding only. -/
  | encodingPolicy
  /-- No policy for bytes that cannot be decoded has this name. -/
  | unknownPolicy (label : Text)
deriving DecidableEq

/-- The message of a fault. -/
def Fault.message : Fault → Text
  | .textClosed => text "I/O operation on closed file"
  | .bytesClosed => text "I/O operation on closed file."
  | .oversized => text "cannot fit 'int' into an index-sized integer"
  | .outOfMemory => []
  | .system message => message
  | .undecodable failure => failure.message
  | .noByteOrderMark bits =>
    text "UTF-" ++ Decimal.ofNat bits ++ text " stream does not start with BOM"
  | .encodingPolicy => text "don't know how to handle UnicodeDecodeError in error callback"
  | .unknownPolicy label => text "unknown error handler name '" ++ label.cited ++ text "'"

end PlacedText
