import PlacedText.Proofs.Reader.Lines
import PlacedText.Proofs.Reader.Refinement
import PlacedText.Proofs.Reader.Unclosed

/-!
# The rest of a line

A text is placed before anyone reads it, and a cursor in a line sees nothing but values.  Still,
what a drained cursor hands out is told by the places alone: it is the run of characters in the row
of the first one (`Text.restOfLine`).  This is so from any index on, also from one between a
carriage return and the line feed after it, since the line feed stands in the same row
(`Reader.Stands.drainsLine`).

A reader stands somewhere in its text in all that it does but closing (`Reader.follows_stands`), so
that this holds wherever it has got to.
-/

namespace PlacedText

open Running Text

variable {σ : Type} [InputStream CodePoint σ] {limit i : Nat} {t line rest : Text} {r : Reader σ}

/-! ### In a text -/

/-- The characters of a text from an index on that stand in the row of the first of them. -/
def Text.restOfLine (t : Text) (i : Nat) : List PlacedChar :=
  ((place .start t).1.drop i).takeWhile fun c => c.place.line = (t.placeAt i).line

/-- A text begins with a line, unless it has no characters. -/
theorem Text.Splits.exists_isLine {lines : List Text} (h : Splits t lines) (ht : t ≠ []) :
    ∃ line rest, IsLine line rest ∧ t = line ++ rest := by
  cases h with
  | nil => exact absurd rfl ht
  | cons first _ => exact ⟨_, _, first, rfl⟩

/-- From an index on there is a line, unless the text ends there. -/
theorem eq_length_or_exists_isLine (hi : i ≤ t.length) :
    i = t.length ∨ ∃ line rest, IsLine line rest ∧ t.drop i = line ++ rest := by
  by_cases hdrop : t.drop i = []
  · exact .inl (Nat.le_antisymm hi (List.drop_eq_nil_iff.1 hdrop))
  · exact .inr ((splits_splitLines (t.drop i)).exists_isLine hdrop)

/-- Characters that do not end their line stand in the row of the first. -/
theorem takeWhile_place_of_unbroken (h : Unbroken line) (p : Position) (ps : List PlacedChar) :
    ((place p line).1 ++ ps).takeWhile (fun c => c.place.line = p.line) =
      (place p line).1 ++ ps.takeWhile fun c => c.place.line = p.line := by
  refine List.takeWhile_append_of_pos fun c hc => ?_
  obtain ⟨k, hk⟩ := List.getElem?_of_mem hc
  rw [place_of_unbroken h p hk]
  exact decide_eq_true rfl

/-- What is left of a text behind the first line of the rest begins in the next row, if anything is
left. -/
theorem place_snd_of_isLine (h : IsLine line rest) (hrest : rest ≠ []) (p : Position) :
    (place p line).2 = p.nextLine := by
  cases h with
  | terminated plain terminator => exact place_snd_of_terminated plain terminator p
  | last => exact absurd rfl hrest

/-- From an index on, the characters are those of a line and of what is left behind it. -/
theorem drop_place_of_isLine (h : IsLine line rest) (hdrop : t.drop i = line ++ rest) :
    (place .start t).1.drop i = (place (t.placeAt i) line).1 ++
      (place (place (t.placeAt i) line).2 rest).1 := by
  rw [drop_place_fst, hdrop, place_append _ h.cleanCut]
  rfl

/-- **The rest of a line** is the first line of what is left of the text. -/
theorem restOfLine_of_isLine (h : IsLine line rest) (hdrop : t.drop i = line ++ rest) :
    t.restOfLine i = (place (t.placeAt i) line).1 := by
  rw [restOfLine, drop_place_of_isLine h hdrop, takeWhile_place_of_unbroken h.unbroken]
  cases rest with
  | nil => exact List.append_nil _
  | cons c rest =>
    -- The next character stands one row further.
    rw [place_snd_of_isLine h (List.cons_ne_nil c rest), place_cons, List.takeWhile_cons_of_neg,
      List.append_nil]
    have hrow : (t.placeAt i).line + 1 ≠ (t.placeAt i).line := by omega
    exact fun h => hrow (of_decide_eq_true h)

theorem restOfLine_length (t : Text) : t.restOfLine t.length = [] := by
  rw [restOfLine, (Reader.drop_place_length t).2, List.takeWhile_nil]

/-- Behind the rest of a line, the next line begins or the text ends. -/
theorem charAt?_behind_restOfLine (hi : i ≤ t.length) :
    let j := i + (t.restOfLine i).length
    j = t.length ∨ ∃ c, t.charAt? j = some (.single (t.placeAt i).nextLine c) := by
  rcases eq_length_or_exists_isLine hi with rfl | ⟨line, rest, first, hdrop⟩
  · rw [restOfLine_length]
    exact .inl rfl
  · rw [restOfLine_of_isLine first hdrop, length_place]
    cases rest with
    | nil =>
      have hlength := congrArg List.length hdrop
      rw [List.append_nil, List.length_drop] at hlength
      exact .inl (by omega)
    | cons c rest =>
      refine .inr ⟨c, ?_⟩
      have hnext := place_snd_of_isLine first (List.cons_ne_nil c rest) (t.placeAt i)
      rw [← getElem?_place, ← List.getElem?_drop, drop_place_of_isLine first hdrop, hnext,
        List.getElem?_append_right (Nat.le_of_eq (length_place _ _)), length_place, Nat.sub_self,
        place_cons]
      rfl

/-! ### On a reader -/

/-- A call ends in the state in which its action does. -/
theorem Call.reply_snd {τ α : Type} (value : α → Reply) (result : EStateM.Result ReadError τ α) :
    (Call.reply value result).2 = endState result := by
  cases result <;> rfl

namespace Reader

/-- Draining a cursor in a line, in front of the character of index `i`, hands out the rest of the
line, and then the reader replies to all calls as the cursor in the text does in front of the first
character of the next line, or at the end. -/
def DrainsLine (t : Text) (i : Nat) (r : Reader σ) : Prop :=
  let j := i + (t.restOfLine i).length
  ∃ r', Producer.characters.drain .inLine r = some ⟨t.restOfLine i, none, r'⟩ ∧
    (j = t.length ∨ ∃ c, t.charAt? j = some (.single (t.placeAt i).nextLine c)) ∧
    ∀ calls, replies Call.onReader calls r' = replies (Call.onText t) calls j

/-- Draining a cursor in a line hands out the rest of the line, and the reader stands behind it. -/
theorem Stands.drain_inLine (h : r.Stands limit t i) :
    ∃ r', Producer.characters.drain .inLine r = some ⟨t.restOfLine i, none, r'⟩ ∧
      r'.Stands limit t (i + (t.restOfLine i).length) := by
  have hr := h.remains
  rcases eq_length_or_exists_isLine h.le_length with rfl | ⟨line, rest, first, hdrop⟩
  · rw [(drop_place_length t).2] at hr
    obtain ⟨r', hnext, hr'⟩ := Cursor.next_of_remains_nil (k := .inLine) hr (by decide)
    rw [restOfLine_length]
    refine ⟨r', Producer.drainOnto_of_end (congrArg some hnext) [], h.le_length, ?_⟩
    rw [List.length_nil, Nat.add_zero, (drop_place_length t).2]
    exact hr'
  · have hplaced : (place .start t).1.drop i = (place (t.placeAt i) (line ++ rest)).1 := by
      rw [drop_place_fst, hdrop]
      rfl
    rw [hplaced] at hr
    obtain ⟨r', hdrain, hr'⟩ := drain_inLine_of_isLine first hr
    rw [restOfLine_of_isLine first hdrop]
    refine ⟨r', hdrain, ?_, ?_⟩
    · have hle : i ≤ t.length := h.le_length
      have hlength := congrArg List.length hdrop
      rw [List.length_append, List.length_drop] at hlength
      rw [length_place]
      omega
    · rw [← List.drop_drop, drop_place_of_isLine first hdrop, List.drop_left' rfl]
      exact hr'

/-- **One line from anywhere.**  Wherever a reader stands, the rest of the line can be drained. -/
theorem Stands.drainsLine (h : r.Stands limit t i) : r.DrainsLine t i := by
  obtain ⟨r', hdrain, hr'⟩ := h.drain_inLine
  exact ⟨r', hdrain, charAt?_behind_restOfLine h.le_length, hr'.replies_eq⟩

/-- A reader with something queued stands in front of the first character that is queued. -/
theorem Stands.take {c : PlacedChar} {queue : List PlacedChar} (h : r.Stands limit t i)
    (hqueue : r.queue = c :: queue) :
    t.charAt? i = some c ∧ Stands limit t (i + 1) { r with queue } := by
  have hread : read r = .ok c { r with queue } :=
    read_of_precache (precache_of_queue_cons hqueue) hqueue
  obtain ⟨hreply, hstands⟩ := h.step .read
  rw [Call.onReader, hread, Call.onText] at hreply hstands
  cases hc : t.charAt? i with
  | none =>
    rw [hc] at hreply
    cases hreply
  | some d =>
    rw [hc] at hreply hstands
    cases hreply
    exact ⟨rfl, hstands⟩

/-- What was taken out of a reader are the first characters of its text, and it stands in front of
the next one. -/
theorem follows_stands (limit : Nat) (t : Text) :
    Follows fun handed (r : Reader σ) =>
      handed = (place .start t).1.take handed.length ∧ r.Stands limit t handed.length where
  ask := by
    rintro handed r ⟨hhanded, h⟩
    have hstep := (h.step .atEnd).2
    rw [Call.onReader, Call.reply_snd] at hstep
    exact ⟨hhanded, hstep⟩
  fill := by
    rintro handed r ⟨hhanded, h⟩
    have hstep := (h.step .precache).2
    rw [Call.onReader, Call.reply_snd] at hstep
    exact ⟨hhanded, hstep⟩
  take := by
    rintro handed r c queue ⟨hhanded, h⟩ hqueue
    obtain ⟨hc, hstands⟩ := h.take hqueue
    rw [List.length_append, List.length_singleton]
    refine ⟨?_, hstands⟩
    rw [List.take_add_one, ← hhanded, getElem?_place, hc]
    rfl
  note := by
    rintro handed r j ⟨hhanded, h⟩
    exact ⟨hhanded, h.le_length, h.remains.of_journal j⟩

/-- Along a trail the first characters of the text are taken out, and the reader stands behind them
if it is not closed. -/
theorem Trail.stands {cs : List PlacedChar} {r' : Reader σ} (htrail : Trail r cs r')
    (hopen : r'.source.closed = false) (h : r.Stands limit t 0) :
    cs = (place .start t).1.take cs.length ∧ r'.Stands limit t cs.length := by
  have hstart : ([] : List PlacedChar) = (place .start t).1.take ([] : List PlacedChar).length ∧
      r.Stands limit t ([] : List PlacedChar).length := ⟨rfl, h⟩
  exact (follows_stands limit t).trail htrail hopen hstart

end Reader

end PlacedText
