import PlacedText.Proofs.Reader.RestOfLine
import PlacedText.Proofs.Session.Independence
import PlacedText.Proofs.Session.Looking

/-!
# The rest of a line in a session

Whatever a session has read, peeked at or taken in, and however far its iterators have got, its
reader stands somewhere in the text; a new run in a line then hands out the rest of the line from
there (`restOfLine_of_serves`).
-/

namespace PlacedText

variable {σ : Type} [InputStream CodePoint σ] {limit : Nat} {t : Text}

/-- A session that only reads does not close its reader. -/
theorem Session.run_open {s : ReaderSession σ} {steps : List (Step ReaderAction)}
    (hsteps : ∀ step ∈ steps, step.OnlyReads) (h : s.reader.source.closed = false)
    {done : List (Report ReaderResult Position) × ReaderSession σ}
    (hrun : run steps s = some done) : done.2.reader.source.closed = false :=
  run_keeps (Reader.bears_closed false) (fun _ h _ => h) hsteps h hrun

/-- **The rest of a line.**  Let a stream serve the text `t`, in whatever pieces, and let a reader
of it have got anywhere without being closed.  What was taken out of it are the first characters of
`t`.  From there, draining a new cursor in a line hands out the rest of the line: the characters
that stand in the row of the next one, up to the first that does not, and none at the end of `t`.
Afterwards the reader replies to all calls as one in front of the first character of the next line,
or at the end.

Every session that only reads ends, whatever iterators it keeps, and leaves its reader so.  The
characters taken out are those shown by its reports, if its steps show all they read, and otherwise
those and some more between them. -/
theorem restOfLine_of_serves {stream : σ} (hserves : Serves limit t stream) {settings : Settings}
    (hlimit : settings.blockSize ≤ limit) (journal : Journal) :
    (∀ ⦃cs r⦄, Reader.Trail (Reader.ofSource { stream, journal } settings) cs r →
      r.source.closed = false →
        cs = (place .start t).1.take cs.length ∧ r.DrainsLine t cs.length) ∧
    ∀ (steps : List (Step ReaderAction)), (∀ step ∈ steps, step.OnlyReads) →
      ∃ done, Session.run steps (ReaderSession.start stream settings journal) = some done ∧
        ∃ cs, (handedOut done.1).Sublist cs ∧
          ((∀ step ∈ steps, step.TellsAll) → handedOut done.1 = cs) ∧
          cs = (place .start t).1.take cs.length ∧ done.2.reader.DrainsLine t cs.length := by
  have hreader : ∀ ⦃cs r⦄, Reader.Trail (Reader.ofSource { stream, journal } settings) cs r →
      r.source.closed = false →
        cs = (place .start t).1.take cs.length ∧ r.DrainsLine t cs.length := by
    intro cs r htrail hopen
    have hstart := Reader.stands_ofSource (Source.holds_of_serves hserves journal) hlimit
    obtain ⟨hcs, hstands⟩ := htrail.stands hopen hstart
    exact ⟨hcs, hstands.drainsLine⟩
  refine ⟨hreader, fun steps hsteps => ?_⟩
  obtain ⟨done, hrun⟩ := Session.run_ends_of_serves hserves hlimit journal hsteps
  refine ⟨done, hrun, ?_⟩
  have hopen : done.2.reader.source.closed = false := Session.run_open hsteps rfl hrun
  by_cases htells : ∀ step ∈ steps, step.TellsAll
  · -- A stream that serves a text does not fail, so that nothing is lost in an error.
    have hsound := Reader.sound_ofSource hserves.faultless hlimit journal
    have htrail := Session.run_tells hsteps htells hsound hrun
    obtain ⟨hcs, hdrains⟩ := hreader htrail hopen
    exact ⟨_, List.Sublist.refl _, fun _ => rfl, hcs, hdrains⟩
  · obtain ⟨cs, htrail, hshown, -⟩ := Session.run_trail hrun
    obtain ⟨hcs, hdrains⟩ := hreader htrail hopen
    exact ⟨cs, hshown, fun h => absurd h htells, hcs, hdrains⟩

/-- From between a carriage return and the line feed after it, which the stream cuts apart, the rest
of the line is the line feed. -/
theorem restOfLine_of_serves_torn_pair :
    let pieces : List Text := [text "a\r", text "\nb"]
    let stream : Script CodePoint := { items := pieces.map .units ++ [] }
    let settings : Settings := { Settings.default with blockSize := 2, blockSize_pos := by decide }
    let t : Text := text "a\r\nb"
    Serves 2 t stream ∧ settings.blockSize ≤ 2 ∧
      t.restOfLine 2 = [.single ⟨0, 2⟩ .lineFeed] ∧
      (Reader.ofSource { stream, journal := {} } settings).DrainsLine t 0 ∧
      ∃ done, Session.run [.act (.read 2)] (ReaderSession.start stream settings {}) = some done ∧
        done.2.reader.DrainsLine t 2 := by
  intro pieces stream settings t
  have hserves : Serves 2 t stream := @Script.serves_pieces 2 pieces [] (by decide) .ended
  have hlimit : settings.blockSize ≤ 2 := Nat.le_refl 2
  obtain ⟨hreader, hsession⟩ := restOfLine_of_serves hserves hlimit {}
  refine ⟨hserves, hlimit, by decide, (hreader (.stay _) rfl).2, _, rfl, ?_⟩
  -- Reading two characters hands out the first two of the text.
  have hstart := Reader.stands_ofSource (Source.holds_of_serves hserves {}) hlimit
  obtain ⟨r₁, hread₁, hr₁⟩ := Reader.read_of_remains (c := .single ⟨0, 0⟩ (.ofChar 'a'))
    hstart.remains
  obtain ⟨r₂, hread₂, -⟩ := Reader.read_of_remains hr₁
  have hitems : (ReaderSession.readOnto [] (Reader.ofSource { stream, journal := {} } settings)
      2).items.length = 2 := by
    rw [ReaderSession.readOnto, hread₁]
    simp only [ReaderSession.readOnto, hread₂]
    rfl
  obtain ⟨done, hrun, cs, -, hshown, -, hdrains⟩ := hsession [.act (.read 2)] (by decide)
  obtain rfl := Option.some.inj hrun
  have hcs : cs = (ReaderSession.readOnto [] (Reader.ofSource { stream, journal := {} } settings)
      2).items := by
    rw [← hshown (by decide)]
    exact (List.append_nil _).trans (List.append_nil _)
  rw [hcs, hitems] at hdrains
  exact hdrains

end PlacedText
