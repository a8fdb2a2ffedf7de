import PlacedText.Proofs.Running.Keeping
import PlacedText.Proofs.Source.Steps

/-!
# What a source keeps of its stream

A source asks its stream only while it is not exhausted, and becomes exhausted with the first empty
answer.  A property of the stream and of being exhausted that asking keeps under these rules
(`Answering`) is therefore kept by every action of a source but closing: only `Source.pull` asks,
and nothing else changes what is known of the end.  A property that closing keeps as well (`Asking`)
is kept by all actions.
-/

namespace PlacedText

variable {σ : Type} [InputStream CodePoint σ] {I : σ → Bool → Prop}

/-- A property of a stream, and of whether it has ended, that is kept by asking: nothing is asked of
a stream that has ended, and an answer without characters ends it. -/
structure Answering (I : σ → Bool → Prop) : Prop where
  answer : ∀ {n : Nat} {stream stream' : σ} {a : Answer CodePoint}, I stream false →
    InputStream.read n stream = .ok a stream' → I stream' a.toList.isEmpty
  fault : ∀ {n : Nat} {stream stream' : σ} {e : Fault}, I stream false →
    InputStream.read n stream = .error e stream' → I stream' false

/-- A property that is kept by asking and by closing. -/
structure Asking (I : σ → Bool → Prop) : Prop extends Answering I where
  close : ∀ {stream : σ} {ended : Bool}, I stream ended →
    I (Running.endState (InputStream.close stream)) ended

namespace Source

/-- A source of which the stream and its end have a property. -/
def Has (I : σ → Bool → Prop) (s : Source σ) : Prop := I s.stream s.exhausted

theorem pull_keeps (hI : Answering I) (n : Nat) : Keeps (Has I) (pull n) := by
  intro s h
  cases hexhausted : s.exhausted with
  | true =>
    rw [pull_of_exhausted hexhausted]
    exact h
  | false =>
    rw [Has, hexhausted] at h
    cases hread : InputStream.read n s.stream with
    | ok a stream =>
      rw [pull_of_answer hexhausted hread]
      exact hI.answer h hread
    | error e stream =>
      rw [pull_of_fault hexhausted hread]
      show I stream s.exhausted
      rw [hexhausted]
      exact hI.fault h hread

theorem peek_keeps (hI : Answering I) : Keeps (Has I) peek := by
  refine Keeps.get.bind fun s => ?_
  split
  · refine (pull_keeps hI 1).bind fun c => ?_
    refine Keeps.bind (.of_modify fun _ h => h) fun _ => ?_
    exact Keeps.get.bind fun s => .pure s.lookahead
  · exact Keeps.get.bind fun s => .pure s.lookahead

theorem atEnd_keeps (hI : Answering I) : Keeps (Has I) atEnd :=
  (peek_keeps hI).bind fun c => .pure c.isEmpty

theorem gather_keeps (hI : Answering I) (n : Nat) (parts : List Text) :
    Keeps (Has I) (gather n parts) := by
  induction n using Nat.strongRecOn generalizing parts with
  | ind n ih =>
  rw [gather]
  split
  · exact .pure _
  · refine (pull_keeps hI n).bind fun c => ?_
    split
    · exact .pure _
    · next hn hc =>
      have hlength : 0 < c.length := List.length_pos_iff.2 hc
      exact ih (n - c.length) (by omega) (c :: parts)

theorem readUpTo_keeps (hI : Answering I) (n : Nat) : Keeps (Has I) (readUpTo n) := by
  rw [readUpTo]
  split
  · exact .pure _
  · refine Keeps.get.bind fun s => ?_
    dsimp only
    split
    · exact gather_keeps hI n []
    · exact Keeps.bind (.of_modify fun _ h => h) fun _ => gather_keeps hI _ _

theorem readBlock_keeps (hI : Answering I) (n : Nat) : Keeps (Has I) (readBlock n) := by
  refine (readUpTo_keeps hI n).bind fun block => ?_
  split
  · refine (peek_keeps hI).bind fun shown => ?_
    split
    · exact (readUpTo_keeps hI 1).bind fun feed => .pure (block ++ feed)
    · exact .pure block
  · exact .pure block

/-- Closing asks nothing, and does not end the data. -/
theorem close_keeps (hI : Asking I) : Keeps (Has I) close := by
  intro s h
  cases hclosed : s.closed with
  | true =>
    rw [close_of_closed hclosed]
    exact h
  | false =>
    rw [endState_close_of_open hclosed]
    exact hI.close h

end Source

end PlacedText
