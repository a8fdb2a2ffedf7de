import Mathlib.Data.List.Basic
import PlacedText.Placed.Written
import PlacedText.Proofs.Text.Quoted

/-!
# Faithful written forms

The label of a span, and the written forms of placed characters and placed strings, say all that
they are made of.  Each has a reader that takes it from the front of a text and gives back the span
(`Span.readLabel?_label_append`), the character (`PlacedChar.readWritten?_written_append`), or the
text and the span of the string (`PlacedString.readWritten?_written_append`).  The main statement is
`written_forms_faithful`: what is written alike is alike.

Nothing is set apart by a mark of its own.  The `-` between the two ends of a span is also the sign
of a number, but it stands where a number has ended and the sign where one begins.  The text of a
character or a string may look like the place behind it, but it is quoted, so it is over before the
place begins.
-/

namespace PlacedText

open Decimal (readInt? readInt?_ofInt_append EndsNumber endsNumber_nil endsNumber_cons)

/-! ### Labels -/

theorem dropPrefix?_append (t rest : Text) : (t ++ rest).dropPrefix? t = some rest :=
  List.dropPrefix?_append_of_beq rest (beq_self_eq_true t)

namespace Position

/-- The position of which a text begins with the stored numbers, and the text behind them. -/
def readRawLabel? (t : Text) : Option (Position × Text) := do
  let (line, t) ← readInt? t
  let t ← t.dropPrefix? (text ":")
  let (column, t) ← readInt? t
  return (⟨line, column⟩, t)

theorem readRawLabel?_rawLabel_append (p : Position) {rest : Text} (h : EndsNumber rest) :
    readRawLabel? (p.rawLabel ++ rest) = some (p, rest) := by
  have hcolon : EndsNumber (text ":" ++ (Decimal.ofInt p.column ++ rest)) :=
    endsNumber_cons (by decide) _
  unfold readRawLabel? rawLabel
  rw [List.append_assoc, List.append_assoc, readInt?_ofInt_append _ hcolon]
  simp only [Option.bind_eq_bind, Option.bind_some, dropPrefix?_append, readInt?_ofInt_append _ h]
  rfl

/-- The position of which a text begins with the label, and the text behind it. -/
def readLabel? (t : Text) : Option (Position × Text) :=
  (readRawLabel? t).map fun (p, rest) => (⟨p.line - 1, p.column - 1⟩, rest)

theorem readLabel?_label_append (p : Position) {rest : Text} (h : EndsNumber rest) :
    readLabel? (p.label ++ rest) = some (p, rest) := by
  -- A label is the raw label of the place one line and one column on.
  have hread := readRawLabel?_rawLabel_append ⟨p.line + 1, p.column + 1⟩ h
  show (readRawLabel? (rawLabel ⟨p.line + 1, p.column + 1⟩ ++ rest)).map _ = _
  rw [hread]
  simp only [Option.map_some, Int.add_sub_cancel]

end Position

namespace Span

/-- The span of which a text begins with the label, and the text behind it. -/
def readLabel? (t : Text) : Option (Span × Text) := do
  let (first, t) ← Position.readLabel? t
  let t ← t.dropPrefix? (text "-")
  let (last, t) ← Position.readLabel? t
  return (⟨first, last⟩, t)

/-- **Labels of spans are read back.** -/
theorem readLabel?_label_append (s : Span) {rest : Text} (h : EndsNumber rest) :
    readLabel? (s.label ++ rest) = some (s, rest) := by
  have hdash : EndsNumber (text "-" ++ (s.last.label ++ rest)) := endsNumber_cons (by decide) _
  unfold readLabel? label
  rw [List.append_assoc, List.append_assoc, Position.readLabel?_label_append _ hdash]
  simp only [Option.bind_eq_bind, Option.bind_some, dropPrefix?_append,
    Position.readLabel?_label_append _ h]
  rfl

/-- A `-` is the sign of the number behind it, unless a number ends in front of it. -/
example : readLabel? (text "-1:0--3:-20") = some (⟨⟨-2, -1⟩, ⟨-4, -21⟩⟩, []) := by decide

end Span

/-! ### Written forms -/

/-- The placed character of which a text begins with the written form, and the text behind it. -/
def PlacedChar.readWritten? (t : Text) : Option (PlacedChar × Text) := do
  let t ← t.dropPrefix? (text "PositionedChar(")
  let (value, t) ← Quoted.readQuoted? t
  let t ← t.dropPrefix? (text ", ")
  let (p, t) ← Position.readRawLabel? t
  let t ← t.dropPrefix? (text ")")
  return (⟨p, value⟩, t)

/-- **Written forms of characters are read back.** -/
theorem PlacedChar.readWritten?_written_append (pc : PlacedChar) (rest : Text) :
    readWritten? (pc.written ++ rest) = some (pc, rest) := by
  have hclose : EndsNumber (text ")" ++ rest) := endsNumber_cons (by decide) _
  unfold readWritten? written
  simp only [List.append_assoc, Option.bind_eq_bind, Option.bind_some, dropPrefix?_append,
    Quoted.readQuoted?_quoted_append, Position.readRawLabel?_rawLabel_append _ hclose]
  rfl

/-- The text and the span of a placed string of which a text begins with the written form, and the
text behind it. -/
def PlacedString.readWritten? (t : Text) : Option ((Text × Span) × Text) := do
  let t ← t.dropPrefix? (text "PositionedString(")
  let (value, t) ← Quoted.readQuoted? t
  let t ← t.dropPrefix? (text ", ")
  let (s, t) ← Span.readLabel? t
  let t ← t.dropPrefix? (text ")")
  return ((value, s), t)

/-- **Written forms of strings are read back**, as far as the text and the span. -/
theorem PlacedString.readWritten?_written_append (s : PlacedString) (rest : Text) :
    readWritten? (s.written ++ rest) = some ((s.toText, s.span), rest) := by
  have hclose : EndsNumber (text ")" ++ rest) := endsNumber_cons (by decide) _
  unfold readWritten? written
  simp only [List.append_assoc, Option.bind_eq_bind, Option.bind_some, dropPrefix?_append,
    Quoted.readQuoted?_quoted_append, Span.readLabel?_label_append _ hclose]
  rfl

/-! ### What is written alike -/

theorem Span.readLabel?_label (s : Span) : readLabel? s.label = some (s, []) := by
  have hread := s.readLabel?_label_append endsNumber_nil
  rwa [List.append_nil] at hread

theorem PlacedChar.readWritten?_written (pc : PlacedChar) :
    readWritten? pc.written = some (pc, []) := by
  have hread := pc.readWritten?_written_append []
  rwa [List.append_nil] at hread

theorem PlacedString.readWritten?_written (s : PlacedString) :
    readWritten? s.written = some ((s.toText, s.span), []) := by
  have hread := s.readWritten?_written_append []
  rwa [List.append_nil] at hread

/-- Things with the same written form are read back to the same. -/
theorem view_eq_of_written_eq {α β : Type} {read : Text → Option (α × Text)} {written : β → Text}
    {view : β → α} (hread : ∀ b, read (written b) = some (view b, [])) {b c : β}
    (h : written b = written c) : view b = view c := by
  have hb := hread b
  rw [h, hread c] at hb
  exact (congrArg Prod.fst (Option.some.inj hb)).symm

theorem Span.label_injective : Function.Injective Span.label :=
  fun _ _ h => view_eq_of_written_eq readLabel?_label h

theorem PlacedChar.written_injective : Function.Injective PlacedChar.written :=
  fun _ _ h => view_eq_of_written_eq readWritten?_written h

/-- The written form of a string says its text and its span, and no more. -/
theorem PlacedString.written_eq_iff {s u : PlacedString} :
    s.written = u.written ↔ s.toText = u.toText ∧ s.span = u.span := by
  constructor
  · intro h
    exact Prod.mk.inj (view_eq_of_written_eq readWritten?_written h)
  · rintro ⟨htext, hspan⟩
    unfold written
    rw [htext, hspan]

/-- **What is written alike is alike.**  Two spans have the same label, two characters the same
written form, and two strings the same written form only if the spans are the same, the characters
have the same place and value, and the strings have the same text and span.  What is shown of any
of them, its numbers not being too long, is read back. -/
theorem written_forms_faithful :
    (∀ s u : Span, s.label = u.label ↔ s = u) ∧
    (∀ c d : PlacedChar, c.written = d.written ↔
      c.place.line = d.place.line ∧ c.place.column = d.place.column ∧ c.value = d.value) ∧
    (∀ s u : PlacedString, s.written = u.written ↔ s.toText = u.toText ∧ s.span = u.span) ∧
    (∀ (s : Span) (t : Text), s.label? = .ok t → Span.readLabel? t = some (s, [])) ∧
    (∀ (c : PlacedChar) (t : Text), c.written? = .ok t →
      PlacedChar.readWritten? t = some (c, [])) ∧
    ∀ (s : PlacedString) (t : Text), s.written? = .ok t →
      PlacedString.readWritten? t = some ((s.toText, s.span), []) := by
  refine ⟨fun s u => Span.label_injective.eq_iff, fun c d => ?_,
    fun s u => PlacedString.written_eq_iff, fun s t h => ?_, fun c t h => ?_, fun s t h => ?_⟩
  · rw [PlacedChar.written_injective.eq_iff, PlacedChar.mk.injEq, Position.ext_iff, and_assoc]
  · obtain ⟨-, rfl⟩ := Decimal.showing_eq_ok_iff.1 h
    exact s.readLabel?_label
  · obtain ⟨-, rfl⟩ := Decimal.showing_eq_ok_iff.1 h
    exact c.readWritten?_written
  · obtain ⟨-, rfl⟩ := Decimal.showing_eq_ok_iff.1 h
    exact s.readWritten?_written

/-- A span with negative numbers, a character whose value begins like the rest of another written
form and ends with a backslash and a surrogate, and two strings of the same text, cut differently,
that end at different places. -/
theorem written_forms_faithful_lookalikes :
    let s : Span := ⟨⟨-2, -1⟩, ⟨-4, -21⟩⟩
    let label := text "-1:0--3:-20"
    let c : PlacedChar := ⟨⟨-1, 0⟩, text "a', 0:0)\\" ++ [⟨0xD800, by decide⟩]⟩
    let d : PlacedChar := ⟨⟨0, 0⟩, text "a"⟩
    let u : PlacedString := ⟨[c, d], List.cons_ne_nil _ _⟩
    let v : PlacedString := ⟨[⟨c.place, c.value ++ d.value⟩], List.cons_ne_nil _ _⟩
    (s.label? = .ok label ∧ Span.readLabel? label = some (s, [])) ∧
      (c.written? = .ok c.written ∧ PlacedChar.readWritten? c.written = some (c, []) ∧
        c.written ≠ d.written) ∧
      (u.written? = .ok u.written ∧
        PlacedString.readWritten? u.written = some ((u.toText, ⟨c.place, d.place⟩), []) ∧
        u.toText = v.toText ∧ u.written ≠ v.written) := by
  intro s label c d u v
  obtain ⟨-, hcharsAlike, hstringsAlike, hspans, hchars, hstrings⟩ := written_forms_faithful
  have hlabel : s.label? = .ok label := by decide +kernel
  have hc : c.written? = .ok c.written := Decimal.showing_eq_ok_iff.2 ⟨by decide +kernel, rfl⟩
  have hu : u.written? = .ok u.written := Decimal.showing_eq_ok_iff.2 ⟨by decide +kernel, rfl⟩
  refine ⟨⟨hlabel, hspans s label hlabel⟩, ⟨hc, hchars c _ hc, fun hcd => ?_⟩,
    hu, hstrings u _ hu, rfl, fun huv => ?_⟩
  · obtain ⟨hline, -⟩ := (hcharsAlike c d).1 hcd
    exact absurd hline (by decide)
  · obtain ⟨-, hspan⟩ := (hstringsAlike u v).1 huv
    exact absurd hspan (by decide)

end PlacedText
