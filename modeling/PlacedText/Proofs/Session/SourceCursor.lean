import PlacedText.Proofs.Session.Alike
import PlacedText.Proofs.Source.Holding
import PlacedText.Session.Source

/-!
# The source as a cursor into a text

A source of a stream that serves a text is a cursor into the text.  The state of the cursor is the
text that is left, and `SourceAction.onText` says what an action comes to on it, knowing nothing of
streams, lookaheads and ends.  The main statement is `Source.outcomes_eq_onText`: whatever is read,
looked at and asked, in whatever order, a session on the source has the results of the cursor.

One step is `SourceSession.perform_of_holds`; the invariant is that the source holds the text that
is left.
-/

namespace PlacedText

/-! ### The cursor -/

namespace SourceAction

/-- What an action comes to on a cursor in front of the text `rest`, and the text that is left
behind it.  Only reading takes anything. -/
def onText : SourceAction → Text → SourceResult × Text
  | .read n, rest => (.text (rest.take n.toNat), rest.drop n.toNat)
  | .peek, rest => (.text (rest.take 1), rest)
  | .atEnd, rest => (.flag rest.isEmpty, rest)
  | .close, rest => (.nothing, rest)

/-- What actions come to that are done one after the other. -/
def resultsOn (rest : Text) : List SourceAction → List SourceResult
  | [] => []
  | a :: actions => (a.onText rest).1 :: resultsOn (a.onText rest).2 actions

/-- An action that leaves the stream open and reads at most `limit` characters at once. -/
def Within (limit : Nat) : SourceAction → Prop
  | .read n => n ≤ limit
  | .peek => True
  | .atEnd => True
  | .close => False

instance (limit : Nat) : DecidablePred (Within limit)
  | .read n => inferInstanceAs (Decidable (n ≤ limit))
  | .peek => inferInstanceAs (Decidable True)
  | .atEnd => inferInstanceAs (Decidable True)
  | .close => inferInstanceAs (Decidable False)

end SourceAction

/-! ### One action -/

variable {σ : Type} [InputStream CodePoint σ] {limit : Nat} {t : Text} {s : Source σ}

/-- Reading as many characters as an integer says takes them off the text; a number that is not
positive takes none. -/
theorem Source.read_of_holds (h : s.Holds limit t) {n : Int} (hlimit : n ≤ limit) :
    ∃ s', Source.read n s = .ok (t.take n.toNat) s' ∧ s'.Holds limit (t.drop n.toNat) := by
  rcases Nat.eq_zero_or_pos n.toNat with hzero | hpos
  · -- The source is not even looked at.
    have hread : Source.read n s = .ok [] s := by
      rw [Source.read, hzero, Source.readUpTo, if_pos rfl]
      rfl
    refine ⟨s, ?_, ?_⟩
    · rw [hread, hzero, List.take_zero]
    · rw [hzero, List.drop_zero]
      exact h
  · have hle : n.toNat ≤ limit := by omega
    exact Source.readUpTo_of_holds h hpos hle

/-- **One action.**  An action on a source has the result that it has on a cursor, without an error,
and the source then holds the text that is left. -/
theorem SourceSession.perform_of_holds (h : s.Holds limit t) (hlimit : 0 < limit)
    {a : SourceAction} (ha : a.Within limit) :
    ∃ s', SourceSession.perform a s = .done (a.onText t).1 s' ∧ s'.Holds limit (a.onText t).2 := by
  cases a with
  | read n =>
    obtain ⟨s', hread, hs'⟩ := Source.read_of_holds h ha
    refine ⟨s', ?_, hs'⟩
    rw [perform, doing, hread]
    rfl
  | peek =>
    obtain ⟨s', hpeek, hs', -⟩ := Source.peek_of_holds h hlimit
    refine ⟨s', ?_, hs'⟩
    rw [perform, doing, hpeek]
    rfl
  | atEnd =>
    obtain ⟨s', hend, hs'⟩ := Source.atEnd_of_holds h hlimit
    refine ⟨s', ?_, hs'⟩
    rw [perform, doing, hend]
    rfl
  | close => exact ha.elim

/-! ### Any number of actions -/

/-- A source that holds a text gives the results of the cursor from there on. -/
theorem Session.run_of_holds (hlimit : 0 < limit) {actions : List SourceAction}
    (hactions : ∀ a ∈ actions, a.Within limit) (h : s.Holds limit t) :
    ∃ done, Session.run (actions.map .act) s = some done ∧
      done.1.map Report.outcome = (SourceAction.resultsOn t actions).map (some ·, none) := by
  induction actions generalizing s t with
  | nil => exact ⟨_, rfl, rfl⟩
  | cons a actions ih =>
    obtain ⟨s₁, hperform, hs₁⟩ :=
      SourceSession.perform_of_holds h hlimit (hactions a List.mem_cons_self)
    have hstep : Subject.perform a s = some (.done (a.onText t).1 s₁) := congrArg some hperform
    -- The report clears the journal, which has no part in what the source holds.
    have hcleared : Source.Holds limit (a.onText t).2 { s₁ with journal := s₁.journal.cleared } :=
      hs₁.of_stream_eq rfl rfl rfl
    obtain ⟨rest, hrest, houtcomes⟩ :=
      ih (fun a' ha' => hactions a' (List.mem_cons_of_mem a ha')) hcleared
    refine ⟨_, run_cons_eq_some_iff.2
      ⟨_, rest, runStep_act_eq_some_iff.2 ⟨_, hstep, rfl⟩, hrest, rfl⟩, ?_⟩
    rw [List.map_cons, houtcomes, SourceAction.resultsOn, List.map_cons]
    rfl

/-- **The source is a cursor.**  Let a stream serve the text `t`, in whatever pieces, for reads of
up to `limit` characters; what it would give after its first empty answer is left open.  Whatever is
read, looked at and asked of a source at the start of the stream, in whatever order, there is no
error, and the results are those of a cursor at the start of `t`.  With `rest` left, reading `n`
characters gives `rest.take n`, which is shorter than `n` only if nothing is left behind it, and
nothing if `n` is not positive; looking shows `rest.take 1` and takes nothing; and the data has
ended exactly if `rest` is empty. -/
theorem Source.outcomes_eq_onText {stream : σ} (hserves : Serves limit t stream)
    (hlimit : 0 < limit) (journal : Journal) {actions : List SourceAction}
    (hactions : ∀ a ∈ actions, a.Within limit) :
    ∃ done, Session.run (actions.map .act) ({ stream, journal } : Source σ) = some done ∧
      done.1.map Report.outcome = (SourceAction.resultsOn t actions).map (some ·, none) :=
  Session.run_of_holds hlimit hactions (Source.holds_of_serves hserves journal)

/-- A stream that gives its text in pieces of one and three characters, then word that nothing is
ready, and would then give more.  The text is read across the pieces, with numbers that are not
positive in between, and past its end. -/
theorem Source.outcomes_eq_onText_pieces :
    let pieces : List Text := [text "a", text "b\r\n"]
    let ending : List (ScriptItem CodePoint) := [.notReady, .units (text "x")]
    let stream : Script CodePoint := { items := pieces.map .units ++ ending }
    let actions : List SourceAction :=
      [.peek, .read (-1), .read 3, .peek, .read 0, .atEnd, .read 5, .peek, .atEnd, .read 1]
    Serves 5 (text "ab\r\n") stream ∧ (∀ a ∈ actions, a.Within 5) ∧
      ∃ done, Session.run (actions.map .act) ({ stream } : Source (Script CodePoint)) = some done ∧
        done.1.map Report.outcome =
          [.text (text "a"), .text [], .text (text "ab\r"), .text (text "\n"), .text [],
            .flag false, .text (text "\n"), .text [], .flag true, .text []].map (some ·, none) := by
  intro pieces ending stream actions
  have hserves : Serves 5 (text "ab\r\n") stream :=
    @Script.serves_pieces 5 pieces ending (by decide) (.notReady _)
  have hactions : ∀ a ∈ actions, a.Within 5 := by decide
  obtain ⟨done, hrun, houtcomes⟩ :=
    Source.outcomes_eq_onText hserves (by decide) {} hactions
  refine ⟨hserves, hactions, done, hrun, ?_⟩
  rw [houtcomes]
  have hresults : SourceAction.resultsOn (text "ab\r\n") actions =
      [.text (text "a"), .text [], .text (text "ab\r"), .text (text "\n"), .text [],
        .flag false, .text (text "\n"), .text [], .flag true, .text []] := by decide
  rw [hresults]

end PlacedText
