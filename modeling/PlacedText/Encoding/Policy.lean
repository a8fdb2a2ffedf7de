import PlacedText.CodePoint

/-!
# Policies

A policy says what becomes of bytes that are no character.  Policies are chosen by name; a name
that belongs to none of them is kept, and matters only when such bytes turn up.
-/

namespace PlacedText

/-- What is done with bytes that cannot be decoded. -/
inductive Policy where
  /-- Decoding stops. -/
  | strict
  /-- The bytes are left out. -/
  | ignore
  /-- One replacement character stands for them. -/
  | replace
  /-- Each of them is written out as an escape. -/
  | backslash
  /-- Each of them becomes a lone low surrogate that remembers it. -/
  | surrogateEscape
  /-- Bytes that spell a surrogate give that surrogate. -/
  | surrogatePass
  /-- A policy that only encoding can follow. -/
  | encodingOnly
  /-- No policy has this name. -/
  | unknown (label : Text)
deriving DecidableEq

namespace Policy

/-- The names of policies. -/
def labels : List (String × Policy) := [
  ("strict", .strict),
  ("ignore", .ignore),
  ("replace", .replace),
  ("backslashreplace", .backslash),
  ("surrogateescape", .surrogateEscape),
  ("surrogatepass", .surrogatePass),
  ("xmlcharrefreplace", .encodingOnly),
  ("namereplace", .encodingOnly)]

/-- The policy of a name, if there is one.  Capital letters matter. -/
def ofLabel? (label : Text) : Option Policy :=
  (labels.find? fun entry => text entry.1 = label).map (·.2)

/-- The policy of a name, known or not.  The name ends where a code point zero comes. -/
def ofLabel (label : Text) : Policy :=
  let name := label.takeWhile fun c => c.toNat != 0
  (ofLabel? name).getD (.unknown name)

end Policy

end PlacedText
