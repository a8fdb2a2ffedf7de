import PlacedText.Reader
import PlacedText.Stream.Device
import PlacedText.Text.Excerpt

/-!
# Opening

What can be read from, and how a source or a reader of it comes about.  Bytes are decoded by the
encoding and the policy of given names, which settings supply.  Files and scripted streams of bytes
are read through a buffer, for which the system has room for so many bytes and no more.
-/

namespace PlacedText

/-- What is found at a path. -/
inductive FileEntry where
  | regular (content : Bytes)
  | directory
  | missing

/-- What can be asked to be read. -/
inductive Origin where
  | text (t : Text)
  | textScript (s : Script CodePoint)
  | bytes (b : Bytes)
  | byteScript (s : Script UInt8)
  | file (entry : FileEntry)
  /-- A value of some other type, from which no characters can be read. -/
  | other (typeName : Text)

/-- The names of an encoding and a policy. -/
structure Labels where
  encoding : Text := text "utf-8"
  policy : Text := text "strict"

/-- Why nothing is opened. -/
inductive OpenError where
  | malformedLabel (problem : Label.Problem)
  | unknownEncoding (label : Text)
  | notTextEncoding (label : Text)
  | missingFile
  | directory
  | unsupported (typeName : Text)
deriving DecidableEq

/-- The message of an error. -/
def OpenError.message : OpenError → Text
  | .malformedLabel problem => problem.message
  | .unknownEncoding label => text "unknown encoding: " ++ label
  | .notTextEncoding label =>
    text "'" ++ label.cited ++
      text "' is not a text encoding; use codecs.open() to handle arbitrary codecs"
  | .missingFile => text "No such file or directory"
  | .directory => text "Is a directory"
  | .unsupported typeName => text "cannot read characters from " ++ Quoted.quoted typeName

namespace Labels

/-- The decoder that labels ask for.  Only the encoding must be known, and a code point zero is
refused only in its name. -/
def decoder (l : Labels) : Except OpenError Decoder :=
  match Label.problem? l.encoding <|> Label.surrogates? l.policy with
  | some problem => .error (.malformedLabel problem)
  | none =>
    match Codec.ofLabel? l.encoding with
    | none => .error (.unknownEncoding l.encoding)
    | some .conversion => .error (.notTextEncoding l.encoding)
    | some (.encoding e) => .ok (Decoder.start e (Policy.ofLabel l.policy))

/-- The decoding of a stream of bytes by labels. -/
def decoded {β : Type} (l : Labels) (device : β) : Except OpenError (Decoded β) :=
  match l.decoder with
  | .error e => .error e
  | .ok decoder => .ok { device, decoder }

end Labels

/-- Opens the stream of characters of an origin, with room for so many bytes in a buffer. -/
def Device.open? (room : Nat) (l : Labels) : Origin → Except OpenError Device
  | .text t => .ok (.memory (.ofText t))
  | .textScript s => .ok (.script s)
  | .bytes b => (l.decoded (.ofBytes b)).map .bytes
  | .byteScript s => (l.decoded ⟨s, room⟩).map .raw
  | .file (.regular b) => (l.decoded ⟨.ofBytes b, room⟩).map .file
  | .file .directory => .error .directory
  | .file .missing => .error .missingFile
  | .other typeName => .error (.unsupported typeName)

/-- Opens a source of text. -/
def Source.open? (room : Nat) (l : Labels) (o : Origin) : Except OpenError (Source Device) :=
  (Device.open? room l o).map fun stream => { stream }

/-- The labels that settings supply. -/
def Settings.labels (s : Settings) : Labels := ⟨s.encoding, s.policy⟩

/-- Opens a reader, which decodes bytes by its settings. -/
def Reader.open? (room : Nat) (s : Settings) (o : Origin) : Except OpenError (Reader Device) :=
  (Source.open? room s.labels o).map fun source => .ofSource source s

end PlacedText
