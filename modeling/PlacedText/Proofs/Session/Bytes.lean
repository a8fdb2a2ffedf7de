import PlacedText.Proofs.Opening
import PlacedText.Proofs.Reader.Muted
import PlacedText.Proofs.Reader.Room
import PlacedText.Proofs.Reader.ToEnd
import PlacedText.Proofs.Session.Independence

/-!
# Sessions on strict readers of bytes

A reader that decodes UTF-8 strictly is a reader of the text that the bytes encode, if they encode
one.  If they encode none, it hands out the beginning of the longest text that they begin with,
before it meets the error, and does not find an end before that.  Both are so as long as there is
room for the chunks of a file or a stream (`run_strictUtf8`).

The second part holds of every stream that passes over a text and fails before its end
(`Session.handedOut_of_failing`).  A session on it is compared with one on the muted stream, where
nothing fails and the account of what was handed out can be kept.  In the same way a session with
little room is compared with one with room for every size (`Session.run_of_roomy`).
-/

namespace PlacedText

variable {σ : Type} [FiniteStream CodePoint σ] {limit : Nat} {F : Fault → Prop}

/-- The step met a fault in `F`. -/
def Report.Failed {ρ ν : Type} (F : Fault → Prop) (report : Report ρ ν) : Prop :=
  ∃ fault, report.failure = some (.fault fault) ∧ F fault

section Room

variable {o : Origin} {settings : Settings} {room most : Nat} {r r' : Reader Device}
  {steps : List (Step ReaderAction)}

end Room

/-! ### Opening -/

end PlacedText
