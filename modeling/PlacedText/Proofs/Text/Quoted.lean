import PlacedText.Proofs.Text.Decimal
import PlacedText.Text.Quoted

/-!
# Reading quoted texts back

`readQuoted?` takes a quoted text from the front of a text and leaves what stands behind the closing
quote.  It reads every text back from its quoted form, whatever stands behind
(`readQuoted?_quoted_append`).

The reader need not know which code points are printable.  A code point can be written in three ways
(`Denotes`), and what comes first tells which one it is and where it ends
(`Denotes.readOne?_append`).  The quote comes first in none of them (`Denotes.exists_eq_cons`), so a
quote by itself can only be the closing one.
-/

namespace PlacedText.Quoted

/-! ### One code point -/

/-- How many digits stand behind the letter of an escape that gives a number. -/
def numberWidth? (letter : CodePoint) : Option Nat :=
  if letter = .ofChar 'x' then some 2
  else if letter = .ofChar 'u' then some 4
  else if letter = .ofChar 'U' then some 8
  else none

/-- What a code point stands for behind a backslash, if no number follows it. -/
def named (c : CodePoint) : CodePoint :=
  if c = .ofChar 't' then .ofChar '\t'
  else if c = .ofChar 'n' then .lineFeed
  else if c = .ofChar 'r' then .carriageReturn
  else c

/-- The code point of an escape of which the backslash has been read, and the text behind it. -/
def readEscaped? : Text → Option (CodePoint × Text)
  | [] => none
  | c :: t =>
    match numberWidth? c with
    | some width => (CodePoint.ofNat? (numberOf 16 (t.take width))).map fun d => (d, t.drop width)
    | none => some (named c, t)

/-- The code point that stands at the front of a text, by itself or as an escape, and the text
behind it. -/
def readOne? : Text → Option (CodePoint × Text)
  | [] => none
  | c :: t => if c = backslash then readEscaped? t else some (c, t)

theorem length_lt_of_readEscaped? {t rest : Text} {c : CodePoint}
    (h : readEscaped? t = some (c, rest)) : rest.length < t.length := by
  unfold readEscaped? at h
  split at h
  · cases h
  · next d t =>
    split at h
    · next width _ =>
      obtain ⟨_, _, heq⟩ := Option.map_eq_some_iff.1 h
      obtain rfl : t.drop width = rest := congrArg Prod.snd heq
      rw [List.length_drop, List.length_cons]
      omega
    · obtain rfl : t = rest := congrArg Prod.snd (Option.some.inj h)
      exact Nat.lt_succ_self _

theorem length_lt_of_readOne? {t rest : Text} {c : CodePoint} (h : readOne? t = some (c, rest)) :
    rest.length < t.length := by
  unfold readOne? at h
  split at h
  · cases h
  · next d t =>
    split at h
    · exact Nat.lt_succ_of_lt (length_lt_of_readEscaped? h)
    · obtain rfl : t = rest := congrArg Prod.snd (Option.some.inj h)
      exact Nat.lt_succ_self _

/-! ### Between quotes -/

/-- One of the two quotes. -/
def IsQuote (c : CodePoint) : Prop := c = singleQuote ∨ c = doubleQuote

instance : DecidablePred IsQuote := fun c =>
  inferInstanceAs (Decidable (c = singleQuote ∨ c = doubleQuote))

theorem isQuote_quoteFor (t : Text) : IsQuote (quoteFor t) := by
  unfold quoteFor
  split
  · exact .inr rfl
  · exact .inl rfl

/-- The ways in which a code point can be written between two quotes of a kind. -/
inductive Denotes (quote : CodePoint) : Text → CodePoint → Prop where
  | itself {c : CodePoint} (hquote : c ≠ quote) (hbackslash : c ≠ backslash) :
      Denotes quote [c] c
  | letter {l : CodePoint} (h : numberWidth? l = none) : Denotes quote [backslash, l] (named l)
  | number {l c : CodePoint} {width : Nat} (h : numberWidth? l = some width)
      (hc : c.toNat < 16 ^ width) : Denotes quote (backslash :: l :: hexDigits width c.toNat) c

theorem denotes_numbered (quote c : CodePoint) : Denotes quote (numbered c) c := by
  unfold numbered
  split
  · next h => exact .number rfl (Nat.lt_of_lt_of_eq h (by decide))
  · split
    · next h => exact .number rfl (Nat.lt_of_lt_of_eq h (by decide))
    · exact .number rfl (Nat.lt_of_lt_of_le c.isLt (by decide))

/-- A quote or a backslash stands for itself behind a backslash. -/
theorem denotes_marked (quote : CodePoint) {c : CodePoint} (h : IsQuote c ∨ c = backslash) :
    Denotes quote [backslash, c] c := by
  have hnamed : numberWidth? c = none ∧ named c = c := by
    rcases h with (rfl | rfl) | rfl <;> decide
  have hletter : Denotes quote [backslash, c] (named c) := .letter hnamed.1
  rwa [hnamed.2] at hletter

theorem denotes_escape {quote : CodePoint} (hquote : IsQuote quote) (c : CodePoint) :
    Denotes quote (escape quote c) c := by
  unfold escape
  split
  · next hmarked =>
    rcases Bool.or_eq_true_iff.1 hmarked with h | h
    · obtain rfl := of_decide_eq_true h
      exact denotes_marked c (.inl hquote)
    · exact denotes_marked quote (.inr (of_decide_eq_true h))
  · next hplain =>
    -- First the escapes with a letter.  Then a code point stands for itself only if it is neither
    -- the quote nor a backslash, and that has been seen to already.
    split
    · next h => exact h ▸ .letter rfl
    · split
      · next h => exact h ▸ .letter rfl
      · split
        · next h => exact h ▸ .letter rfl
        · split
          · rw [Bool.or_eq_true, decide_eq_true_iff, decide_eq_true_iff, not_or] at hplain
            exact .itself hplain.1 hplain.2
          · exact denotes_numbered quote c

/-- However a code point is written, it is read back. -/
theorem Denotes.readOne?_append {quote c : CodePoint} {t : Text} (h : Denotes quote t c)
    (rest : Text) : readOne? (t ++ rest) = some (c, rest) := by
  cases h with
  | itself _ hbackslash =>
    show readOne? (c :: rest) = some (c, rest)
    rw [readOne?, if_neg hbackslash]
  | @letter l h =>
    show readOne? (backslash :: l :: rest) = some (named l, rest)
    rw [readOne?, if_pos rfl, readEscaped?, h]
  | @number l _ width h hc =>
    have hlength : (hexDigits width c.toNat).length = width := length_hexDigits _ _
    have hnumber : CodePoint.ofNat? c.toNat = some c := dif_pos c.isLt
    show readOne? (backslash :: l :: (hexDigits width c.toNat ++ rest)) = some (c, rest)
    rw [readOne?, if_pos rfl, readEscaped?, h]
    dsimp only
    rw [List.take_left' hlength, List.drop_left' hlength, numberOf_hexDigits hc, hnumber]
    rfl

/-- However a code point is written, the quote does not come first. -/
theorem Denotes.exists_eq_cons {quote c : CodePoint} {t : Text} (hquote : IsQuote quote)
    (h : Denotes quote t c) : ∃ d ds, t = d :: ds ∧ d ≠ quote := by
  have hbackslash : backslash ≠ quote := by
    rcases hquote with rfl | rfl <;> decide
  cases h with
  | itself hc _ => exact ⟨_, _, rfl, hc⟩
  | letter => exact ⟨_, _, rfl, hbackslash⟩
  | number => exact ⟨_, _, rfl, hbackslash⟩

/-! ### The whole text -/

/-- The text up to the closing quote, and the text behind that. -/
def readBody? (quote : CodePoint) (t : Text) : Option (Text × Text) :=
  match t with
  | [] => none
  | c :: rest =>
    if c = quote then some ([], rest)
    else
      match _ : readOne? (c :: rest) with
      | none => none
      | some (d, behind) => (readBody? quote behind).map fun (u, rest) => (d :: u, rest)
termination_by t.length
decreasing_by
  next hread => exact length_lt_of_readOne? hread

theorem readBody?_quote (quote : CodePoint) (rest : Text) :
    readBody? quote (quote :: rest) = some ([], rest) := by
  rw [readBody?, if_pos rfl]

theorem readBody?_of_readOne? {quote c d : CodePoint} {t behind : Text} (hc : c ≠ quote)
    (h : readOne? (c :: t) = some (d, behind)) :
    readBody? quote (c :: t) = (readBody? quote behind).map fun (u, rest) => (d :: u, rest) := by
  rw [readBody?, if_neg hc]
  split
  · next hnone =>
    rw [h] at hnone
    cases hnone
  · next hsome =>
    rw [h] at hsome
    cases hsome
    rfl

/-- Between quotes, every text is read back, one code point after the other. -/
theorem readBody?_escape_append {quote : CodePoint} (hquote : IsQuote quote) (t rest : Text) :
    readBody? quote (t.flatMap (escape quote) ++ quote :: rest) = some (t, rest) := by
  induction t with
  | nil => exact readBody?_quote quote rest
  | cons c t ih =>
    have hdenotes := denotes_escape hquote c
    obtain ⟨d, ds, hescape, hd⟩ := hdenotes.exists_eq_cons hquote
    -- `d` is not the closing quote, so `c` is read here, and what is left is the rest of the body.
    have hread := hdenotes.readOne?_append (t.flatMap (escape quote) ++ quote :: rest)
    rw [List.flatMap_cons, List.append_assoc]
    rw [hescape, List.cons_append] at hread ⊢
    rw [readBody?_of_readOne? hd hread, ih]
    rfl

/-- The text that stands quoted at the front of a text, and the text behind the closing quote. -/
def readQuoted? : Text → Option (Text × Text)
  | [] => none
  | quote :: t => if IsQuote quote then readBody? quote t else none

/-- **Quoted texts are read back.** -/
theorem readQuoted?_quoted_append (t rest : Text) :
    readQuoted? (quoted t ++ rest) = some (t, rest) := by
  have hquote := isQuote_quoteFor t
  have hbody := readBody?_escape_append hquote t rest
  show readQuoted? (quoteFor t :: (t.flatMap (escape (quoteFor t)) ++ [quoteFor t]) ++ rest) = _
  rw [List.cons_append, List.append_assoc, readQuoted?, if_pos hquote]
  exact hbody

end PlacedText.Quoted
