import PlacedText.Proofs.Reader.Remaining

/-!
# The reader as a cursor into a text

A reader of a stream that serves a text is a cursor into the text.  `Call.onReader` makes one of the
four elementary calls on a reader; `Call.onText` says what it comes to on a cursor, which is an
index, knowing nothing of blocks, queues or streams.  The main statement is `replies_onReader_eq`:
whatever calls are made, and in whatever order, the reader replies as the cursor does.

One step is `Reader.Stands.step`: reader and cursor reply alike, and afterwards the reader stands
where the cursor does.
-/

namespace PlacedText

/-- The elementary calls. -/
inductive Call where
  | read
  | peek
  | precache
  | atEnd
deriving DecidableEq

/-- What a call comes to. -/
inductive Reply where
  /-- A character, handed out or only shown. -/
  | char (c : PlacedChar)
  /-- A character is queued. -/
  | ready
  /-- The answer to a question. -/
  | flag (b : Bool)
  | failed (e : ReadError)
deriving DecidableEq

namespace Call

/-- The reply that an action comes to, and the state in which it ends. -/
def reply {τ α : Type} (value : α → Reply) : EStateM.Result ReadError τ α → Reply × τ
  | .ok a s => (value a, s)
  | .error e s => (.failed e, s)

/-- Makes a call on a reader. -/
def onReader {σ : Type} [InputStream CodePoint σ] : Call → Reader σ → Reply × Reader σ
  | .read, r => reply .char (Reader.read r)
  | .peek, r => reply .char (Reader.peek r)
  | .precache, r => reply (fun _ => .ready) (Reader.precache r)
  | .atEnd, r => reply .flag (Reader.atEnd r)

/-- The error of a cursor at the end of a text: it says where a further character would stand. -/
def pastEnd (t : Text) : Reply := .failed (.endOfData (t.placeAt t.length))

/-- Makes a call on a cursor in front of the character of index `i`.  Only reading moves it. -/
def onText (t : Text) : Call → Nat → Reply × Nat
  | .read, i =>
    match t.charAt? i with
    | some c => (.char c, i + 1)
    | none => (pastEnd t, i)
  | .peek, i =>
    match t.charAt? i with
    | some c => (.char c, i)
    | none => (pastEnd t, i)
  | .precache, i => (if i < t.length then .ready else pastEnd t, i)
  | .atEnd, i => (.flag (i = t.length), i)

end Call

/-- The replies to calls that are made one after the other. -/
def replies {τ : Type} (make : Call → τ → Reply × τ) : List Call → τ → List Reply
  | [], _ => []
  | call :: calls, s => (make call s).1 :: replies make calls (make call s).2

/-! ### One call -/

variable {σ : Type} [InputStream CodePoint σ] {limit i : Nat} {t : Text} {r : Reader σ}

namespace Reader

/-- A reader stands in front of the character of index `i` of a text if that character and those
after it are what remains. -/
structure Stands (limit : Nat) (t : Text) (i : Nat) (r : Reader σ) : Prop where
  le_length : i ≤ t.length
  remains : r.Remains limit ((place .start t).1.drop i) (t.placeAt t.length)

theorem stands_ofSource {source : Source σ} {settings : Settings}
    (hsource : source.Holds limit t) (hlimit : settings.blockSize ≤ limit) :
    (ofSource source settings).Stands limit t 0 := by
  refine ⟨Nat.zero_le _, ?_⟩
  rw [List.drop_zero, Text.placeAt, ← place_snd]
  exact remains_ofSource hsource hlimit

/-- What remains from an index on that is in the text. -/
theorem drop_place_of_lt (hi : i < t.length) :
    ∃ c, t.charAt? i = some c ∧
      (place .start t).1.drop i = c :: (place .start t).1.drop (i + 1) := by
  have hplace : i < (place .start t).1.length := by rw [length_place]; exact hi
  refine ⟨_, ?_, List.drop_eq_getElem_cons hplace⟩
  rw [← getElem?_place, List.getElem?_eq_getElem hplace]

/-- What remains at the end of the text. -/
theorem drop_place_length (t : Text) :
    t.charAt? t.length = none ∧ (place .start t).1.drop t.length = [] := by
  constructor
  · rw [Text.charAt?, List.getElem?_eq_none (Nat.le_refl _)]
    rfl
  · exact List.drop_eq_nil_iff.2 (Nat.le_of_eq (length_place .start t))

/-- **One call.**  A reader replies as the cursor does, and goes where the cursor goes. -/
theorem Stands.step (h : r.Stands limit t i) (call : Call) :
    (call.onReader r).1 = (call.onText t i).1 ∧
      (call.onReader r).2.Stands limit t (call.onText t i).2 := by
  rcases Nat.lt_or_eq_of_le h.le_length with hi | rfl
  · -- A character is left.
    obtain ⟨c, hc, hdrop⟩ := drop_place_of_lt hi
    have hr := h.remains
    rw [hdrop] at hr
    cases call with
    | read =>
      obtain ⟨r', hread, hr'⟩ := read_of_remains hr
      simp only [Call.onReader, Call.onText, hread, Call.reply, hc, true_and]
      exact ⟨hi, hr'⟩
    | peek =>
      obtain ⟨r', hpeek, hr'⟩ := peek_of_remains hr
      simp only [Call.onReader, Call.onText, hpeek, Call.reply, hc, true_and]
      exact ⟨h.le_length, by rw [hdrop]; exact hr'⟩
    | precache =>
      obtain ⟨r', hprecache, hr', -⟩ := precache_of_remains hr (List.cons_ne_nil c _)
      simp only [Call.onReader, Call.onText, hprecache, Call.reply, if_pos hi, true_and]
      exact ⟨h.le_length, by rw [hdrop]; exact hr'⟩
    | atEnd =>
      obtain ⟨r', hend, hr', -⟩ := atEnd_of_remains hr
      have hne : i ≠ t.length := Nat.ne_of_lt hi
      simp only [Call.onReader, Call.onText, hend, Call.reply, List.isEmpty_cons, hne,
        decide_false, true_and]
      exact ⟨h.le_length, by rw [hdrop]; exact hr'⟩
  · -- The text is used up.
    obtain ⟨hc, hdrop⟩ := drop_place_length t
    have hr := h.remains
    rw [hdrop] at hr
    cases call with
    | read =>
      obtain ⟨r', hread, hr'⟩ := read_of_remains_nil hr
      simp only [Call.onReader, Call.onText, hread, Call.reply, hc, Call.pastEnd, true_and]
      exact ⟨h.le_length, by rw [hdrop]; exact hr'⟩
    | peek =>
      obtain ⟨r', hpeek, hr'⟩ := peek_of_remains_nil hr
      simp only [Call.onReader, Call.onText, hpeek, Call.reply, hc, Call.pastEnd, true_and]
      exact ⟨h.le_length, by rw [hdrop]; exact hr'⟩
    | precache =>
      obtain ⟨r', hprecache, hr'⟩ := precache_of_remains_nil hr
      simp only [Call.onReader, Call.onText, hprecache, Call.reply, if_neg (Nat.lt_irrefl _),
        Call.pastEnd, true_and]
      exact ⟨h.le_length, by rw [hdrop]; exact hr'⟩
    | atEnd =>
      obtain ⟨r', hend, hr', -⟩ := atEnd_of_remains hr
      simp only [Call.onReader, Call.onText, hend, Call.reply, List.isEmpty_nil, decide_true,
        true_and]
      exact ⟨h.le_length, by rw [hdrop]; exact hr'⟩

/-! ### Any number of calls -/

/-- Wherever a reader stands, it replies to all further calls as the cursor does. -/
theorem Stands.replies_eq (h : r.Stands limit t i) (calls : List Call) :
    replies Call.onReader calls r = replies (Call.onText t) calls i := by
  induction calls generalizing r i with
  | nil => rfl
  | cons call calls ih =>
    obtain ⟨hreply, hstands⟩ := h.step call
    rw [replies, replies, hreply, ih hstands]

end Reader

/-- **The reader is a cursor.**  Let a stream serve the text `t`, in whatever pieces, for reads of
up to `limit` characters, and let the block size be at most that.  Whatever sequence of calls is
made on a reader at the start of the stream, the replies are those of a cursor at the start of `t`:
reading hands out the characters of `t` in order, each at the place that counting gives it, looking
shows the next of them, and at the end of `t` every call but the question is an error that names the
place of a further character. -/
theorem replies_onReader_eq {stream : σ} (hserves : Serves limit t stream) {settings : Settings}
    (hlimit : settings.blockSize ≤ limit) (journal : Journal) (calls : List Call) :
    replies Call.onReader calls (Reader.ofSource { stream, journal } settings) =
      replies (Call.onText t) calls 0 :=
  (Reader.stands_ofSource (Source.holds_of_serves hserves journal) hlimit).replies_eq calls

/-- The stream cuts a pair of carriage return and line feed apart, so does the block size, and the
text ends in a lone carriage return; after that the stream would give more. -/
theorem replies_onReader_torn_pair :
    let pieces : List Text := [text "a\r", text "\n\r"]
    let ending : List (ScriptItem CodePoint) := [.notReady, .units (text "x")]
    let stream : Script CodePoint := { items := pieces.map .units ++ ending }
    let settings : Settings := { Settings.default with blockSize := 2, blockSize_pos := by decide }
    Serves 2 (text "a\r\n\r") stream ∧ settings.blockSize ≤ 2 ∧
      replies Call.onReader [.peek, .read, .read, .atEnd, .read, .precache, .read, .atEnd, .read]
          (Reader.ofSource { stream, journal := {} } settings) =
        [.char (.single ⟨0, 0⟩ (.ofChar 'a')), .char (.single ⟨0, 0⟩ (.ofChar 'a')),
          .char (.single ⟨0, 1⟩ .carriageReturn), .flag false,
          .char (.single ⟨0, 2⟩ .lineFeed), .ready, .char (.single ⟨1, 0⟩ .carriageReturn),
          .flag true, .failed (.endOfData ⟨2, 0⟩)] := by
  intro pieces ending stream settings
  have hserves : Serves 2 (text "a\r\n\r") stream :=
    @Script.serves_pieces 2 pieces ending (by decide) (.notReady _)
  refine ⟨hserves, Nat.le_refl 2, ?_⟩
  rw [replies_onReader_eq hserves (Nat.le_refl 2)]
  decide

end PlacedText
