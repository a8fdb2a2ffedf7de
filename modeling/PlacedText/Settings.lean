import PlacedText.Encoding.Label
import PlacedText.Encoding.Policy
import PlacedText.Text.Quoted

/-!
# Settings of a reader

How many characters are taken in at once, and how bytes are decoded.  Names of encodings and
policies are checked when the settings are made and kept as they were spelt.
-/

namespace PlacedText

/-- The settings of a reader. -/
structure Settings where
  blockSize : Nat
  encoding : Text
  policy : Text
  blockSize_pos : 0 < blockSize
deriving DecidableEq

/-- Why settings are refused. -/
inductive SettingsError where
  | blockSize (size : Int)
  | malformedLabel (problem : Label.Problem)
  | unknownEncoding (label : Text)
  | unknownPolicy (label : Text)
deriving DecidableEq

/-- The message of a refusal. -/
def SettingsError.message : SettingsError → Text
  | .blockSize size => text "block_size must be positive, got " ++ Decimal.ofInt size
  | .malformedLabel problem => problem.message
  | .unknownEncoding label => text "unknown encoding: " ++ Quoted.quoted label
  | .unknownPolicy label => text "unknown codec error handler: " ++ Quoted.quoted label

namespace Settings

/-- The settings used if none are given. -/
def default : Settings := ⟨4096, text "utf-8", text "strict", by decide⟩

/-- Refuses a name that cannot be looked up. -/
def checkLabel (label : Text) : Except SettingsError Unit :=
  match Label.problem? label with
  | some problem => .error (.malformedLabel problem)
  | none => .ok ()

/-- Makes settings.  The size is checked first, then the encoding, then the policy. -/
def make (blockSize : Int) (encoding policy : Text) : Except SettingsError Settings := do
  if h : 0 < blockSize then
    checkLabel encoding
    if (Codec.ofLabel? encoding).isNone then throw (.unknownEncoding encoding)
    checkLabel policy
    if (Policy.ofLabel? policy).isNone then throw (.unknownPolicy policy)
    return ⟨blockSize.toNat, encoding, policy, by omega⟩
  else throw (.blockSize blockSize)

/-- The written form of settings, with the fields named. -/
def written (s : Settings) : Text :=
  text "ReaderConfig(block_size=" ++ Decimal.ofNat s.blockSize ++
    text ", encoding=" ++ Quoted.quoted s.encoding ++
    text ", errors=" ++ Quoted.quoted s.policy ++ text ")"

end Settings

end PlacedText
