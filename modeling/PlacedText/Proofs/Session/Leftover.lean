import PlacedText.Proofs.Opening
import PlacedText.Proofs.Reader.Leftover
import PlacedText.Proofs.Reader.Unclosed
import PlacedText.Proofs.Session.Ending
import PlacedText.Proofs.Session.Trail

/-!
# After closing

Whatever was done to a reader of text or bytes in memory, once it is closed it serves what it has
pulled, and nothing else.  The main statement, `closed_serves_leftover`, tells the replies to all
later calls by what the reader has left when it is closed.

Two invariants go along the trail that leads there.  No stream in memory gives more than it is asked
for, so that at most one character was looked at; and a stream that was closed refuses
(`Reader.Move.refusing`).
-/

namespace PlacedText

open Reader

section Refusing

variable {σ : Type} [InputStream CodePoint σ] {b : Nat} {e : Fault}

/-- A stream that shuts goes on to do so. -/
theorem asking_shuts : Asking fun (stream : σ) _ => Shuts e stream where
  answer h hread := shutting_shuts.answer h hread
  fault h hread := shutting_shuts.fault h hread
  close h := shutting_shuts.close h

/-- A stream that shuts and refuses goes on to do so. -/
theorem asking_refuses : Asking fun (stream : σ) _ => Shuts e stream ∧ Refuses e stream where
  answer {n stream stream' a} h hread := by
    rw [h.2 n] at hread
    cases hread
  fault {n stream stream' e'} h hread := by
    rw [h.2 n] at hread
    cases hread
    exact h
  close h := ⟨shutting_shuts.close h.1, shutting_shuts.refuses h.1⟩

/-- Never being overlong is a property by which a source can count. -/
theorem giving_neverOverlong (m : Nat) : Giving m fun (stream : σ) _ => NeverOverlong stream where
  answer _ _ h hread := keptExactly_neverOverlong.answer h hread
  fault _ _ h hread _ := keptExactly_neverOverlong.fault h hread
  close h := keptExactly_neverOverlong.close h

namespace Reader

variable {r r' : Reader σ} {cs : List PlacedChar}

/-- The stream of a reader shuts, and refuses if the reader is closed. -/
def Refusing (e : Fault) (r : Reader σ) : Prop :=
  Shuts e r.source.stream ∧ (r.source.closed = true → Refuses e r.source.stream)

/-- **One move.**  A reader that is closed stays so, and it was told all that it will be told. -/
theorem Move.refusing {c : Option PlacedChar} (hmove : Move r c r') (h : r.Refusing e) :
    r'.Refusing e := by
  by_cases hclosed : r.source.closed = true
  · have hr : r.source.Has fun stream _ => Shuts e stream ∧ Refuses e stream := ⟨h.1, h.2 hclosed⟩
    have hr' := hmove.keeps_has asking_refuses hr
    exact ⟨hr'.1, fun _ => hr'.2⟩
  · have hopen : r.source.closed = false := Bool.eq_false_iff.2 hclosed
    have hr : r.source.Has fun stream _ => Shuts e stream := h.1
    refine ⟨hmove.keeps_has asking_shuts hr, fun hclosed' => ?_⟩
    -- Only closing closes a reader.
    cases hmove with
    | ask =>
      rw [(bears_closed false).ask hopen] at hclosed'
      cases hclosed'
    | fill =>
      rw [(bears_closed false).fill hopen] at hclosed'
      cases hclosed'
    | take => exact absurd hclosed' hclosed
    | close =>
      rw [Source.endState_close_of_open hopen]
      exact shutting_shuts.refuses h.1
    | note => exact absurd hclosed' hclosed

/-- Wherever a reader has got to: if it is closed, it asks nothing of its stream but refusals. -/
theorem Trail.shut {stream : σ} {settings : Settings} {journal : Journal}
    (htrail : Trail (ofSource { stream, journal } settings) cs r) (hexact : NeverOverlong stream)
    (hshuts : Shuts e stream) (hsize : settings.blockSize ≤ largestSize)
    (hclosed : r.source.closed = true) : r.Shut settings.blockSize e := by
  have hrefusing : r.Refusing e :=
    htrail.keeps (fun _ _ _ => Move.refusing) ⟨hshuts, fun h => by cases h⟩
  have hahead := htrail.ahead (giving_neverOverlong _)
    (⟨rfl, ⟨hexact, Nat.zero_le 1, fun _ => rfl⟩, Nat.zero_le _⟩ :
      Ahead settings.blockSize _ 0 (ofSource { stream, journal } settings))
  exact ⟨hrefusing.2 hclosed, hahead.source.lookahead_le, hahead.source.ended, hahead.blockSize,
    hsize⟩

end Reader

/-! ### What is served -/

/-- How a reader with blocks of `b` characters serves what it has left, while its stream refuses
with `e`. -/
structure Reader.ServesLeftover (b : Nat) (e : Fault) (r : Reader σ) : Prop where
  /-- Every call comes to what it comes to on the leftover. -/
  same : ∀ calls, replies Call.onReader calls r = replies (Call.onLeftover b e) calls r.leftover ∧
    (afterwards Call.onReader calls r).leftover =
      afterwards (Call.onLeftover b e) calls r.leftover
  /-- The first reads hand out the queue, whatever calls come between them. -/
  queue : ∀ calls, (readReplies Call.onReader calls r).take r.queue.length =
    (r.queue.take (calls.count .read)).map .char
  /-- If the data had ended, then with nothing queued this is told for ever. -/
  ended : r.source.exhausted = true → ∀ before after,
    (afterwards Call.onReader before r).queue = [] →
    replies Call.onReader after (afterwards Call.onReader before r) =
      after.map fun call => if call = .atEnd then .flag true else .failed (.endOfData r.next)
  /-- If it had not, and nothing was looked at, every call fails for ever. -/
  refused : r.source.exhausted = false → r.source.lookahead = [] → ∀ before after,
    (afterwards Call.onReader before r).queue = [] →
    replies Call.onReader after (afterwards Call.onReader before r) =
      after.map fun _ => .failed (.fault e)
  /-- If a character was looked at, then with nothing queued it is still so, and the data is said to
  go on until a call wants it; that call finds it at the next place, in blocks of one character and
  if it is no carriage return, or else fails. -/
  ahead : ∀ c, r.source.lookahead = [c] → ∀ before,
    (afterwards Call.onReader before r).queue = [] →
    (afterwards Call.onReader before r).source.lookahead = [c] → ∀ n call, call ≠ .atEnd →
    replies Call.onReader (List.replicate n .atEnd ++ [call]) (afterwards Call.onReader before r) =
      List.replicate n (.flag false) ++
        [if b = 1 ∧ c ≠ .carriageReturn then
          (call.onQueued (.single r.next c) ⟨[], r.next.after c none, .refused⟩).1
        else .failed (.fault e)]
  /-- Or it has been handed out or lost, and every call fails for ever. -/
  gone : ∀ c, r.source.lookahead = [c] → ∀ before after,
    (afterwards Call.onReader before r).queue = [] →
    (afterwards Call.onReader before r).source.lookahead ≠ [c] →
    replies Call.onReader after (afterwards Call.onReader before r) =
      after.map fun _ => .failed (.fault e)
  /-- The next place moves only behind the character that was looked at, if it was queued. -/
  place : ∀ calls, (afterwards Call.onReader calls r).next = r.next ∨
    ∃ c, r.source.lookahead = [c] ∧ b = 1 ∧ c ≠ .carriageReturn ∧
      (afterwards Call.onReader calls r).next = r.next.after c none

namespace Reader.Shut

variable {r : Reader σ} {c : CodePoint} {before : List Call}

/-- A character stands behind the queue if it is the lookahead. -/
theorem remainder_eq_ahead_iff (h : r.Shut b e) :
    r.source.remainder = .ahead c ↔ r.source.lookahead = [c] := by
  have hlength := h.lookahead_le
  rw [Source.remainder]
  cases hahead : r.source.lookahead with
  | nil => cases r.source.exhausted <;> simp
  | cons d rest =>
    rw [hahead, List.length_cons] at hlength
    obtain rfl : rest = [] := List.length_eq_zero_iff.1 (by omega)
    simp

/-- What the reader has left later on, with nothing queued, by what was left at first. -/
theorem leftover_afterwards (h : r.Shut b e)
    (hqueue : (afterwards Call.onReader before r).queue = []) :
    (afterwards Call.onReader before r).leftover = ⟨[], r.next, r.source.remainder⟩ ∨
      ∃ c place, r.source.lookahead = [c] ∧
        (afterwards Call.onReader before r).leftover = ⟨[], place, .refused⟩ := by
  obtain ⟨-, hleftover, -⟩ := h.repliesAsLeft_calls before
  have hnil : (afterwards Call.onReader before r).leftover.queue = [] := hqueue
  have hbecomes := r.leftover.becomes_afterwards b e before
  rw [← hleftover] at hbecomes
  generalize (afterwards Call.onReader before r).leftover = l at hbecomes hnil ⊢
  cases hbecomes with
  | kept left =>
    obtain rfl := hnil
    exact .inl rfl
  | lost hahead => exact .inr ⟨_, _, h.remainder_eq_ahead_iff.1 hahead, rfl⟩
  | queued hahead =>
    obtain rfl := hnil
    exact .inr ⟨_, _, h.remainder_eq_ahead_iff.1 hahead, rfl⟩

/-- Later replies are told by what is left then. -/
theorem replies_afterwards (h : r.Shut b e) (before after : List Call) :
    replies Call.onReader after (afterwards Call.onReader before r) =
      replies (Call.onLeftover b e) after (afterwards Call.onReader before r).leftover :=
  ((h.repliesAsLeft_calls before).2.2.repliesAsLeft_calls after).1

/-- **Any number of calls.**  A reader whose stream refuses serves what it has left. -/
theorem servesLeftover (h : r.Shut b e) : r.ServesLeftover b e where
  same calls := ⟨(h.repliesAsLeft_calls calls).1, (h.repliesAsLeft_calls calls).2.1⟩
  queue calls := by
    have hreads := Leftover.take_readReplies b e calls r.leftover
    rw [readReplies, ← (h.repliesAsLeft_calls calls).1] at hreads
    exact hreads
  ended hended before after hqueue := by
    have hahead : r.source.lookahead = [] := h.ended hended
    have hremainder : r.source.remainder = .ended := by
      rw [Source.remainder, hahead]
      simp only [hended, ↓reduceIte]
    rw [h.replies_afterwards]
    rcases h.leftover_afterwards hqueue with hleft | ⟨c, -, hc, -⟩
    · rw [hleft, hremainder]
      exact Leftover.replies_of_ended b e r.next after
    · rw [hahead] at hc
      cases hc
  refused hgoing hahead before after hqueue := by
    have hremainder : r.source.remainder = .refused := by
      rw [Source.remainder, hahead]
      simp only [hgoing, Bool.false_eq_true, ↓reduceIte]
    rw [h.replies_afterwards]
    rcases h.leftover_afterwards hqueue with hleft | ⟨c, -, hc, -⟩
    · rw [hleft, hremainder]
      exact Leftover.replies_of_refused b e r.next after
    · rw [hahead] at hc
      cases hc
  ahead c hahead before hqueue hstill n call hcall := by
    have hlater := (h.repliesAsLeft_calls before).2.2
    have hleft : (afterwards Call.onReader before r).leftover = ⟨[], r.next, .ahead c⟩ := by
      have hremainder := hlater.remainder_eq_ahead_iff.2 hstill
      rcases h.leftover_afterwards hqueue with hleft | ⟨_, _, -, hleft⟩
      · rw [hleft, h.remainder_eq_ahead_iff.2 hahead]
      · -- What was handed out or lost is not looked at.
        have hrefused : (afterwards Call.onReader before r).source.remainder = .refused :=
          congrArg Leftover.rest hleft
        rw [hremainder] at hrefused
        cases hrefused
    obtain ⟨hasked, hstays⟩ := Leftover.ahead_of_atEnd b e r.next c n
    rw [h.replies_afterwards, hleft, replies_append, hasked, hstays]
    congr 1
    show [(call.onLeftover b e ⟨[], r.next, .ahead c⟩).1] = _
    rw [Call.onLeftover]
    simp only [hcall, ↓reduceIte]
    split <;> rfl
  gone c hahead before after hqueue hgone := by
    have hlater := (h.repliesAsLeft_calls before).2.2
    rw [h.replies_afterwards]
    rcases h.leftover_afterwards hqueue with hleft | ⟨_, place, -, hleft⟩
    · have hremainder : (afterwards Call.onReader before r).source.remainder = .ahead c := by
        rw [← h.remainder_eq_ahead_iff.2 hahead]
        exact congrArg Leftover.rest hleft
      exact absurd (hlater.remainder_eq_ahead_iff.1 hremainder) hgone
    · rw [hleft]
      exact Leftover.replies_of_refused b e place after
  place calls := by
    obtain ⟨-, hleftover, -⟩ := h.repliesAsLeft_calls calls
    have hbecomes := r.leftover.becomes_afterwards b e calls
    rw [← hleftover] at hbecomes
    have hnext : (afterwards Call.onReader calls r).next =
        (afterwards Call.onReader calls r).leftover.next := rfl
    rw [hnext]
    generalize (afterwards Call.onReader calls r).leftover = l at hbecomes ⊢
    cases hbecomes with
    | kept => exact .inl rfl
    | lost => exact .inl rfl
    | queued hahead single noReturn =>
      exact .inr ⟨_, h.remainder_eq_ahead_iff.1 hahead, single, noReturn, rfl⟩

end Reader.Shut

end Refusing

/-- **After closing, only what was pulled is served.**  Open text or bytes in memory with blocks of
at most `largestSize` characters, and let any moves lead from the start to a reader that is closed,
be it closed by itself or at the end of a block of a session, after faults of decoding or without.

Whatever calls are made then, the first reads hand out the queue in order.  With nothing queued it
depends on what was known when the reader was closed.  If the data had ended, asking for the end
says so for ever, and every other call fails with the next place.  If it had not and nothing was
looked at, every call fails for ever with the fault of a closed stream.  If a character was looked
at, the data is said to go on, until a call wants the character: with blocks of one character, and
if it is no carriage return, the call finds it at the next place, and otherwise the call fails with
that fault, and the character is lost.  Once it is handed out or lost, every call fails with that
fault for ever.  The next place moves only if this character is queued. -/
theorem closed_serves_leftover {o : Origin} {fault : Fault} (ho : o.InMemory fault)
    {room : Nat} {settings : Settings} (hsize : settings.blockSize ≤ largestSize)
    {start : Reader Device} (hopen : Reader.open? room settings o = .ok start)
    {cs : List PlacedChar} {r : Reader Device}
    (htrail : Trail start cs r) (hclosed : r.source.closed = true) :
    r.ServesLeftover settings.blockSize fault := by
  rw [Reader.open?, Source.open?] at hopen
  cases hdevice : Device.open? room settings.labels o with
  | error e =>
    rw [hdevice] at hopen
    cases hopen
  | ok device =>
    rw [hdevice] at hopen
    cases hopen
    obtain ⟨hexact, hshuts⟩ := ho.shuts hdevice
    exact (htrail.shut hexact hshuts hsize hclosed).servesLeftover

/-- The end of a block leaves the reader closed. -/
theorem Session.closed_of_within {σ : Type} [InputStream CodePoint σ]
    {body : List (Step ReaderAction)} {t : ReaderSession σ}
    {done : Report ReaderResult Position × _} (hrun : runStep (.within body) t = some done) :
    done.2.reader.source.closed = true := by
  obtain ⟨last, -, rfl⟩ := runStep_within_eq_some_iff.1 hrun
  rw [leave_eq, ReaderSession.endState_close]
  exact Source.closed_close last.2.reader.source

/-- Blocks of one character, closed after asking for the end: the first character is served, and no
more.  And bytes that cannot all be decoded, read in a block of a session, which closes. -/
theorem closed_serves_leftover_single_and_block :
    let settings : Settings := { Settings.default with blockSize := 1, blockSize_pos := by decide }
    let start : Reader Device := .ofSource { stream := .memory (.ofText (text "ab")) } settings
    let r : Reader Device := Running.endState (Reader.close (Running.endState (atEnd start)))
    (Reader.open? largestSize settings (.text (text "ab")) = .ok start ∧ r.source.closed = true ∧
        r.ServesLeftover 1 .textClosed ∧
        replies Call.onReader [.atEnd, .peek, .atEnd, .read, .atEnd, .read] r =
          [.flag false, .char (.single ⟨0, 0⟩ (.ofChar 'a')), .flag false,
            .char (.single ⟨0, 0⟩ (.ofChar 'a')), .failed (.fault .textClosed),
            .failed (.fault .textClosed)]) ∧
      ∃ start done, Reader.open? largestSize .default (.bytes [0x61, 0x0D, 0xFF]) = .ok start ∧
        Session.run [.within [.act (.read 1), .act .lines]]
          { reader := start : ReaderSession Device } = some done ∧
        done.2.reader.ServesLeftover Settings.default.blockSize .bytesClosed := by
  intro settings start r
  constructor
  · have hr : r = { Running.endState (atEnd start) with
        source := Running.endState (Source.close (Running.endState (atEnd start)).source) } :=
      endState_onSource _ _
    have hclosed : r.source.closed = true := by
      rw [hr]
      exact Source.closed_close _
    have htrail : Trail start [] r := by
      rw [hr]
      exact (Trail.of_move (.ask start)).after (.of_move (.close _))
    have hopen : Reader.open? largestSize settings (.text (text "ab")) = .ok start := rfl
    have hserves : r.ServesLeftover settings.blockSize .textClosed :=
      closed_serves_leftover (.text (text "ab")) (by decide) hopen htrail hclosed
    refine ⟨hopen, hclosed, hserves, ?_⟩
    rw [(hserves.same _).1]
    decide
  · have hname : Settings.default.labels.Name .utf8 .strict := Labels.name_utf8 (by decide)
    obtain ⟨device, hopen, -⟩ :=
      Reader.exists_device_of_delivers hname (.bytes [0x61, 0x0D, 0xFF])
    obtain ⟨done, hrun⟩ := ReaderSession.run_ends [.within [.act (.read 1), .act .lines]]
      { reader := .ofSource { stream := device } .default }
    obtain ⟨cs, htrail⟩ := Session.covers_trail.run hrun
    obtain ⟨first, rest, hfirst, hrest, rfl⟩ := Session.run_cons_eq_some_iff.1 hrun
    cases hrest
    exact ⟨_, _, hopen, hrun, closed_serves_leftover (.bytes _) (by decide) hopen htrail
      (Session.closed_of_within hfirst)⟩

end PlacedText
