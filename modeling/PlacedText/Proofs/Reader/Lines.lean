import PlacedText.Proofs.Placed.Lines
import PlacedText.Proofs.Reader.Remaining
import PlacedText.Reader.Draining

/-!
# The lines of a reader

A cursor in a line decides by the values of the characters where the line ends; placing a text
decides it by what comes next.  Both agree: a drained cursor gives the first line of what remains
(`Reader.drain_inLine_of_isLine`), and the drained lines of a reader are the lines of the text, each
in its row (`lines_of_serves`).
-/

namespace PlacedText

open Running Text

variable {σ : Type} [InputStream CodePoint σ] {limit : Nat} {ps : List PlacedChar}
  {e p q : Position} {r : Reader σ} {c : CodePoint} {body ending line rest t : Text}

namespace Cursor

variable {pc : PlacedChar}

/-- When nothing remains, every run is over. -/
theorem next_of_remains_nil (h : r.Remains limit [] e) {k : Cursor} (hk : k ≠ .finished) :
    ∃ r', k.next r = .ok none r' ∧ r'.Remains limit [] e := by
  obtain ⟨r', hend, hr', -⟩ := Reader.atEnd_of_remains h
  exact ⟨r', next_of_atEnd hend hk, hr'⟩

/-- A cursor in a line hands out the first character that remains. -/
theorem next_inLine_of_remains (h : r.Remains limit (pc :: ps) e) :
    ∃ r', next .inLine r = .ok (some (pc, afterInLine pc)) r' ∧ r'.Remains limit ps e := by
  obtain ⟨r₁, hend, hr₁, -⟩ := Reader.atEnd_of_remains h
  obtain ⟨r', hread, hr'⟩ := Reader.read_of_remains hr₁
  exact ⟨r', next_inLine hend hread, hr'⟩

/-- After a carriage return, a line feed is handed out. -/
theorem next_afterReturn_of_remains (h : r.Remains limit (pc :: ps) e)
    (hfeed : pc.holds .lineFeed = true) :
    ∃ r', next .afterReturn r = .ok (some (pc, .finished)) r' ∧ r'.Remains limit ps e := by
  obtain ⟨r₁, hend, hr₁, -⟩ := Reader.atEnd_of_remains h
  obtain ⟨r₂, hpeek, hr₂⟩ := Reader.peek_of_remains hr₁
  obtain ⟨r', hread, hr'⟩ := Reader.read_of_remains hr₂
  exact ⟨r', next_afterReturn_of_feed hend hpeek hfeed hread, hr'⟩

/-- After a carriage return, any other character is left. -/
theorem next_afterReturn_of_remains_ne (h : r.Remains limit (pc :: ps) e)
    (hfeed : pc.holds .lineFeed = false) :
    ∃ r', next .afterReturn r = .ok none r' ∧ r'.Remains limit (pc :: ps) e := by
  obtain ⟨r₁, hend, hr₁, -⟩ := Reader.atEnd_of_remains h
  obtain ⟨r', hpeek, hr'⟩ := Reader.peek_of_remains hr₁
  exact ⟨r', next_afterReturn_of_ne_feed hend hpeek hfeed, hr'⟩

theorem afterInLine_of_plain (h : Plain (c :: t)) (p : Position) :
    afterInLine (.single p c) = .inLine := by
  obtain ⟨hreturn, hfeed⟩ := h c List.mem_cons_self
  simp [afterInLine, PlacedChar.holds, PlacedChar.single, hreturn, hfeed]

theorem afterInLine_carriageReturn (p : Position) :
    afterInLine (.single p .carriageReturn) = .afterReturn := rfl

theorem afterInLine_lineFeed (p : Position) : afterInLine (.single p .lineFeed) = .finished := rfl

end Cursor

/-! ### One line -/

namespace Reader

/-- A drained cursor goes through characters that end no line. -/
theorem drainOnto_of_plain (taken : List PlacedChar) (h : Plain body)
    (hr : r.Remains limit ((place p body).1 ++ ps) e) :
    ∃ r', Producer.characters.drainOnto taken .inLine r =
        Producer.characters.drainOnto ((place p body).1.reverse ++ taken) .inLine r' ∧
      r'.Remains limit ps e := by
  induction body generalizing p r taken with
  | nil => exact ⟨r, rfl, hr⟩
  | cons c body ih =>
    rw [place_cons, List.cons_append] at hr
    obtain ⟨r₁, hnext, hr₁⟩ := Cursor.next_inLine_of_remains hr
    rw [Cursor.afterInLine_of_plain h] at hnext
    obtain ⟨r', hdrain, hr'⟩ := ih (.single p c :: taken) h.of_cons hr₁
    refine ⟨r', ?_, hr'⟩
    rw [Producer.drainOnto_of_item (congrArg some hnext), hdrain, place_cons, List.reverse_cons,
      List.append_assoc]
    rfl

/-- At a terminator the cursor hands it out and is done. -/
theorem drainOnto_of_terminator (taken : List PlacedChar) (h : Terminator ending rest)
    (hr : r.Remains limit ((place p ending).1 ++ (place q rest).1) e) :
    ∃ r', Producer.characters.drainOnto taken .inLine r =
        some ⟨taken.reverse ++ (place p ending).1, none, r'⟩ ∧
      r'.Remains limit (place q rest).1 e := by
  have hfinished : ∀ r' : Reader σ,
      Producer.characters Cursor.finished r' = some (.ok none r') := fun _ => rfl
  cases h with
  | lineFeed =>
    rw [place_cons, List.cons_append] at hr
    obtain ⟨r', hnext, hr'⟩ := Cursor.next_inLine_of_remains hr
    rw [Cursor.afterInLine_lineFeed] at hnext
    refine ⟨r', ?_, hr'⟩
    rw [Producer.drainOnto_of_item (congrArg some hnext), Producer.drainOnto_of_end (hfinished r'),
      List.reverse_cons]
    rfl
  | pair =>
    rw [place_cons, place_cons, List.cons_append, List.cons_append] at hr
    obtain ⟨r₁, hnext, hr₁⟩ := Cursor.next_inLine_of_remains hr
    rw [Cursor.afterInLine_carriageReturn] at hnext
    obtain ⟨r', hnext', hr'⟩ := Cursor.next_afterReturn_of_remains hr₁ rfl
    refine ⟨r', ?_, hr'⟩
    rw [Producer.drainOnto_of_item (congrArg some hnext),
      Producer.drainOnto_of_item (congrArg some hnext'), Producer.drainOnto_of_end (hfinished r'),
      List.reverse_cons, List.reverse_cons, List.append_assoc]
    rfl
  | carriageReturn alone =>
    -- The cursor cannot know yet that the line is over: it has to look at what comes next.
    rw [place_cons, List.cons_append] at hr
    obtain ⟨r₁, hnext, hr₁⟩ := Cursor.next_inLine_of_remains hr
    rw [Cursor.afterInLine_carriageReturn] at hnext
    have hover : ∃ r', Cursor.next .afterReturn r₁ = .ok none r' ∧
        r'.Remains limit (place q rest).1 e := by
      cases rest with
      | nil => exact Cursor.next_of_remains_nil hr₁ (by decide)
      | cons d rest =>
        have hfeed : (PlacedChar.single q d).holds .lineFeed = false := by
          have hd : d ≠ .lineFeed := fun hd => alone (congrArg some hd)
          simp [PlacedChar.holds, PlacedChar.single, hd]
        rw [place_nil, List.nil_append, place_cons] at hr₁
        rw [place_cons]
        exact Cursor.next_afterReturn_of_remains_ne hr₁ hfeed
    obtain ⟨r', hnext', hr'⟩ := hover
    refine ⟨r', ?_, hr'⟩
    rw [Producer.drainOnto_of_item (congrArg some hnext),
      Producer.drainOnto_of_end (congrArg some hnext'), List.reverse_cons]
    rfl

/-- **One line.**  A drained cursor hands out the first line of what remains. -/
theorem drain_inLine_of_isLine (h : IsLine line rest)
    (hr : r.Remains limit (place p (line ++ rest)).1 e) :
    ∃ r', Producer.characters.drain .inLine r = some ⟨(place p line).1, none, r'⟩ ∧
      r'.Remains limit (place (place p line).2 rest).1 e := by
  rw [place_append p h.cleanCut] at hr
  cases h with
  | @terminated body ending _ plain terminator =>
    -- The run takes two parts: the body in the line, and then the terminator.
    have hcut : CleanCut body ending := fun hreturn =>
      absurd rfl (plain _ (List.mem_of_getLast? hreturn)).1
    rw [place_append p hcut, List.append_assoc] at hr
    obtain ⟨r₁, hbody, hr₁⟩ := drainOnto_of_plain [] plain hr
    obtain ⟨r', hending, hr'⟩ :=
      drainOnto_of_terminator ((place p body).1.reverse ++ []) terminator hr₁
    refine ⟨r', ?_, ?_⟩
    · rw [Producer.drain, hbody, hending, List.append_nil, List.reverse_reverse,
        place_append p hcut]
    · rw [place_append p hcut]
      exact hr'
  | last plain =>
    obtain ⟨r₁, hbody, hr₁⟩ := drainOnto_of_plain [] plain hr
    obtain ⟨r', hnext, hr'⟩ := Cursor.next_of_remains_nil (k := .inLine) hr₁ (by decide)
    refine ⟨r', ?_, hr'⟩
    rw [Producer.drain, hbody, Producer.drainOnto_of_end (congrArg some hnext), List.append_nil,
      List.reverse_reverse]

/-- The next line is the first line of what remains, as a string. -/
theorem nextLine_of_isLine (h : IsLine line rest)
    (hr : r.Remains limit (place p (line ++ rest)).1 e) :
    ∃ s r', nextLine r = some (.ok (some s) r') ∧ s.chars = (place p line).1 ∧
      r'.Remains limit (place (place p line).2 rest).1 e := by
  have hne : (place p line).1 ≠ [] := fun hnil => h.ne_nil (place_fst_eq_nil_iff.1 hnil)
  have hmore : (place p (line ++ rest)).1.isEmpty = false := by
    rw [List.isEmpty_eq_false_iff, Ne, place_fst_eq_nil_iff]
    exact fun hnil => h.ne_nil (List.append_eq_nil_iff.1 hnil).1
  obtain ⟨r₁, hend, hr₁, -⟩ := atEnd_of_remains hr
  obtain ⟨r', hdrain, hr'⟩ := drain_inLine_of_isLine h hr₁
  -- A line has at least one character, so making a string of it does not fail.
  have hstring : lineString r₁ = some (.ok ⟨(place p line).1, hne⟩ r') := by
    rw [lineString, partial_bind_apply, Producer.all, hdrain]
    show some (makeString (place p line).1 r') = _
    rw [makeString, PlacedString.ofList?, dif_neg hne]
    rfl
  refine ⟨⟨(place p line).1, hne⟩, r', ?_, rfl, hr'⟩
  rw [nextLine, partial_bind_apply, total_apply, hend, hmore]
  show ((lineString >>= fun s => pure (some s)) r₁ : Option _) = _
  rw [partial_bind_apply, hstring]
  rfl

end Reader

/-! ### All lines -/

/-- Lines placed in rows, the first one in row `n`. -/
def rows (n : Int) : List Text → List (List PlacedChar)
  | [] => []
  | line :: lines => (place ⟨n, 0⟩ line).1 :: rows (n + 1) lines

theorem getElem?_rows (n : Int) (lines : List Text) (k : Nat) :
    (rows n lines)[k]? = lines[k]?.map fun line => (place ⟨n + k, 0⟩ line).1 := by
  induction lines generalizing n k with
  | nil => rfl
  | cons line lines ih =>
    cases k with
    | zero =>
      show some (place ⟨n, 0⟩ line).1 = some (place ⟨n + (0 : Nat), 0⟩ line).1
      rw [Int.natCast_zero, Int.add_zero]
    | succ k =>
      show (rows (n + 1) lines)[k]? =
        lines[k]?.map fun line => (place ⟨n + (k + 1 : Nat), 0⟩ line).1
      rw [ih, Int.natCast_succ, Int.add_assoc, Int.add_comm 1]

/-- Behind the first line, what remains begins in the next row. -/
theorem place_rest_of_isLine (h : IsLine line rest) (n : Int) :
    (place (place ⟨n, 0⟩ line).2 rest).1 = (place ⟨n + 1, 0⟩ rest).1 := by
  cases h with
  | terminated plain terminator => rw [place_snd_of_terminated plain terminator]; rfl
  | last => rfl

/-- The drained lines are the lines of what remains, in rows. -/
theorem Reader.drainOnto_lines {lines : List Text} (h : Splits t lines) :
    ∀ (taken : List PlacedString) {n : Int} {r : Reader σ}, r.Remains limit (place ⟨n, 0⟩ t).1 e →
      ∃ strings r',
        Producer.lines.drainOnto taken () r = some ⟨taken.reverse ++ strings, none, r'⟩ ∧
        strings.map PlacedString.chars = rows n lines := by
  induction h with
  | nil =>
    intro taken n r hr
    obtain ⟨r', hend, -, -⟩ := atEnd_of_remains hr
    have hlines : Producer.lines () r = some (.ok none r') := by
      rw [Producer.lines, partial_bind_apply, nextLine, partial_bind_apply, total_apply, hend]
      rfl
    refine ⟨[], r', ?_, rfl⟩
    rw [Producer.drainOnto_of_end hlines, List.append_nil]
  | @cons line rest lines first others ih =>
    intro taken n r hr
    -- One line is taken, and what remains begins in the next row.
    obtain ⟨s, r₁, hnext, hs, hr₁⟩ := nextLine_of_isLine first hr
    rw [place_rest_of_isLine first] at hr₁
    obtain ⟨strings, r', hdrain, hstrings⟩ := ih (s :: taken) hr₁
    have hlines : Producer.lines () r = some (.ok (some (s, ())) r₁) := by
      rw [Producer.lines, partial_bind_apply, hnext]
      rfl
    refine ⟨s :: strings, r', ?_, ?_⟩
    · rw [Producer.drainOnto_of_item hlines, hdrain, List.reverse_cons, List.append_assoc]
      rfl
    · rw [List.map_cons, hs, hstrings]
      rfl

/-- The texts of lines in rows are the lines. -/
theorem map_textOf_rows (n : Int) (lines : List Text) : (rows n lines).map textOf = lines := by
  induction lines generalizing n with
  | nil => rfl
  | cons line lines ih => rw [rows, List.map_cons, textOf_place, ih]

/-- A string of an unbroken text in a row spans the row from its first column on. -/
theorem span_of_unbroken {s : PlacedString} {n : Int} (hline : Unbroken line)
    (hs : s.chars = (place ⟨n, 0⟩ line).1) : s.span = ⟨⟨n, 0⟩, ⟨n, s.length - 1⟩⟩ := by
  have hpos : 0 < s.chars.length := List.length_pos_iff.2 s.nonempty
  have hplace : ∀ k (hk : k < s.chars.length), (s.chars[k]).place = ⟨n, k⟩ := by
    intro k hk
    have hget : (place ⟨n, 0⟩ line).1[k]? = some s.chars[k] := by
      rw [← hs, List.getElem?_eq_getElem hk]
    rw [place_of_unbroken hline ⟨n, 0⟩ hget, Int.zero_add]
  have hfirst : s.firstPlace = ⟨n, 0⟩ := by
    rw [PlacedString.firstPlace, List.head_eq_getElem]
    exact hplace 0 hpos
  have hlast : s.lastPlace = ⟨n, s.length - 1⟩ := by
    rw [PlacedString.lastPlace, List.getLast_eq_getElem, hplace, PlacedString.length,
      Int.natCast_sub hpos]
    rfl
  rw [PlacedString.span, hfirst, hlast]

/-- **The lines of a reader are the lines of its text.**  Let a stream serve the text `t`, in
whatever pieces.  Draining the lines of a reader at its start gives strings of which the texts are
the lines of `t`.  Put together they are `t`; the string of index `n` spans row `n` from its first
column on, and its length is that of its text; and there are as many strings as terminators in `t`,
and one more if `t` is not empty and its last line has no terminator. -/
theorem lines_of_serves {stream : σ} (hserves : Serves limit t stream) {settings : Settings}
    (hlimit : settings.blockSize ≤ limit) (journal : Journal) :
    ∃ strings r, Producer.lines.drain () (Reader.ofSource { stream, journal } settings) =
        some ⟨strings, none, r⟩ ∧
      Splits t (strings.map PlacedString.toText) ∧
      (strings.map PlacedString.toText).flatten = t ∧
      (∀ (n : Nat) (s : PlacedString), strings[n]? = some s →
        s.span = ⟨⟨n, 0⟩, ⟨n, s.length - 1⟩⟩ ∧ s.length = s.toText.length) ∧
      strings.length = terminatorCount t + if t = [] ∨ EndsTerminated t then 0 else 1 := by
  have hsplits := splits_splitLines t
  obtain ⟨strings, r, hdrain, hstrings⟩ := Reader.drainOnto_lines hsplits []
    (Reader.remains_ofSource (Source.holds_of_serves hserves journal) hlimit)
  have htexts : strings.map PlacedString.toText = splitLines t := by
    rw [← map_textOf_rows 0 (splitLines t), ← hstrings, List.map_map]
    rfl
  rw [← htexts] at hsplits
  refine ⟨strings, r, hdrain, hsplits, hsplits.flatten_eq, ?_, ?_⟩
  · intro n s hs
    have hrow : (rows 0 (splitLines t))[n]? = some s.chars := by
      rw [← hstrings, List.getElem?_map, hs]
      rfl
    rw [getElem?_rows] at hrow
    obtain ⟨line, hline, hchars⟩ := Option.map_eq_some_iff.1 hrow
    rw [Int.zero_add] at hchars
    constructor
    · exact span_of_unbroken ((splits_splitLines t).unbroken line (List.mem_of_getElem? hline))
        hchars.symm
    · have htext : s.toText = line := by
        show textOf s.chars = line
        rw [← hchars, textOf_place]
      rw [htext, PlacedString.length, ← hchars, length_place]
  · rw [← hsplits.length_eq, List.length_map]

/-- A pair of carriage return and line feed is cut apart by the stream, and a lone carriage return
stands behind it. -/
theorem lines_of_torn_pair :
    let pieces : List Text := [text "a\r", text "\n\r", text "b"]
    let stream : Script CodePoint := { items := pieces.map .units ++ [] }
    let settings : Settings := { Settings.default with blockSize := 2, blockSize_pos := by decide }
    Serves 2 (text "a\r\n\rb") stream ∧ settings.blockSize ≤ 2 ∧
      ∃ strings r, Producer.lines.drain () (Reader.ofSource { stream } settings) =
          some ⟨strings, none, r⟩ ∧
        strings.map PlacedString.toText = [text "a\r\n", text "\r", text "b"] ∧
        strings.length = 3 := by
  intro pieces stream settings
  have hserves : Serves 2 (text "a\r\n\rb") stream :=
    @Script.serves_pieces 2 pieces [] (by decide) .ended
  refine ⟨hserves, Nat.le_refl 2, ?_⟩
  obtain ⟨strings, r, hdrain, hsplits, -, -, hlength⟩ :=
    lines_of_serves hserves (show settings.blockSize ≤ 2 from Nat.le_refl 2) {}
  exact ⟨strings, r, hdrain, hsplits.eq_splitLines.trans (by decide), hlength.trans (by decide)⟩

end PlacedText
