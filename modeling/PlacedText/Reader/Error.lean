import PlacedText.Fault
import PlacedText.Position
import PlacedText.Text.Quoted

/-!
# Errors of reading

Reading past the end of the data is an error that says where a further character would stand.
Making a string of no characters is an error as well.  Both belong to the family of reading errors
and to a wider one.
-/

namespace PlacedText

/-- The families of errors that a caller may want to tell apart. -/
inductive ErrorFamily where
  | endOfFile
  | system
  | reading
  | value
deriving DecidableEq

/-- Reading past the end of the data. -/
structure EndOfData where
  /-- Where a further character would stand. -/
  place : Position
  message : Text := text "no more characters to read"
deriving DecidableEq

namespace EndOfData

/-- The label of the place, then the message. -/
def shown (e : EndOfData) : Text := e.place.label ++ text ": " ++ e.message

/-- The label and the message, unless a number in the label is too long. -/
def shown? (e : EndOfData) : Except Decimal.TooLong Text :=
  Decimal.showing e.place.labelNumbers e.shown

/-- The written form of the error, with its fields named. -/
def written (e : EndOfData) : Text :=
  text "EndOfDataError(line=" ++ Decimal.ofInt e.place.line ++
    text ", column=" ++ Decimal.ofInt e.place.column ++
    text ", message=" ++ Quoted.quoted e.message ++ text ")"

/-- The written form, unless a number in it is too long. -/
def written? (e : EndOfData) : Except Decimal.TooLong Text :=
  Decimal.showing e.place.numbers e.written

/-- The families of the error. -/
def families : List ErrorFamily := [.endOfFile, .reading]

end EndOfData

/-- Making a string of no characters. -/
structure EmptyString where
  message : Text := text "a positioned string needs at least one character"
deriving DecidableEq

namespace EmptyString

/-- The written form of the error. -/
def written (e : EmptyString) : Text :=
  text "EmptyStringError(" ++ Quoted.quoted e.message ++ text ")"

/-- The families of the error. -/
def families : List ErrorFamily := [.reading, .value]

end EmptyString

/-- Why a reader does not hand out what it was asked for. -/
inductive ReadError where
  /-- There are no more characters; a further one would stand at `place`. -/
  | endOfData (place : Position)
  /-- The stream did not answer. -/
  | fault (fault : Fault)
  /-- A string was to be made of no characters. -/
  | emptyString
  /-- No character is queued although some were taken in, which does not happen. -/
  | emptyQueue
deriving DecidableEq

/-- The message of an error. -/
def ReadError.message : ReadError → Text
  | .endOfData place => EndOfData.shown { place }
  | .fault f => f.message
  | .emptyString => EmptyString.message {}
  | .emptyQueue => text "no character is queued"

end PlacedText
