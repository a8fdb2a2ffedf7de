import PlacedText.Stream.Memory
import PlacedText.Stream.Script

/-!
# Streams that serve a text

A stream *serves* a text if its answers are the text in order, in pieces of any size: each read of
`n ≥ 1` characters gives between one and `n` of them, and when the text is used up the next read
gives none, whether it says that the data has ended or that nothing is ready.  What the stream would
do after that is left open.  `Serves limit t s` asks this for the sizes up to `limit` only, since a
memory refuses sizes beyond `largestSize`.

Text in memory serves itself (`Memory.serves_ofText`), and a script of non-empty pieces serves their
concatenation (`Script.serves_pieces`), so every way to cut a text into pieces is served by some
stream.
-/

namespace PlacedText

variable {σ : Type} [InputStream CodePoint σ]

/-- An answer to a read of `n` characters that takes the front off the text `t` and leaves `rest`.
Only if there is no text left is nothing taken. -/
structure Answer.Takes (n : Nat) (t : Text) (a : Answer CodePoint) (rest : Text) : Prop where
  eq_append : t = a.toList ++ rest
  length_le : a.toList.length ≤ n
  ne_nil : t ≠ [] → a.toList ≠ []

/-- A relation between texts and streams is **kept by reading** if each read of up to `limit`
characters takes the front off the text, and the rest is related to the stream afterwards. -/
def KeptByReading (limit : Nat) (R : Text → σ → Prop) : Prop :=
  ∀ ⦃t : Text⦄ ⦃s : σ⦄, R t s → ∀ n, 0 < n → n ≤ limit →
    ∃ a s' rest, InputStream.read n s = .ok a s' ∧ a.Takes n t rest ∧ (t ≠ [] → R rest s')

/-- A stream serves a text if a relation that is kept by reading says so. -/
def Serves (limit : Nat) (t : Text) (s : σ) : Prop :=
  ∃ R : Text → σ → Prop, KeptByReading limit R ∧ R t s

namespace Serves

variable {limit n : Nat} {t : Text} {s : σ}

/-- Serving is itself kept by reading. -/
theorem read (h : Serves limit t s) (hn : 0 < n) (hlimit : n ≤ limit) :
    ∃ a s' rest, InputStream.read n s = .ok a s' ∧ a.Takes n t rest ∧
      (t ≠ [] → Serves limit rest s') := by
  obtain ⟨R, hkept, hR⟩ := h
  obtain ⟨a, s', rest, hread, htakes, hrest⟩ := hkept hR n hn hlimit
  exact ⟨a, s', rest, hread, htakes, fun ht => ⟨R, hkept, hrest ht⟩⟩

end Serves

/-! ### Memory -/

/-- Text in memory serves itself. -/
theorem Memory.serves_ofText (t : Text) : Serves largestSize t (Memory.ofText t) := by
  refine ⟨fun t m => m.rest = t ∧ m.closed = false, ?_, rfl, rfl⟩
  rintro t m ⟨rfl, hopen⟩ n hn hlimit
  refine ⟨.units (m.rest.take n), { m with rest := m.rest.drop n }, m.rest.drop n, ?_, ?_, ?_⟩
  · show Memory.read n m = _
    rw [Memory.read, if_neg (Nat.not_lt.2 hlimit), if_neg (by rw [hopen]; decide)]
  · constructor
    · exact (List.take_append_drop n m.rest).symm
    · exact List.length_take_le n m.rest
    · intro hne hnil
      rcases List.take_eq_nil_iff.1 hnil with h | h
      · omega
      · exact hne h
  · intro _
    exact ⟨rfl, hopen⟩

/-! ### Scripts -/

/-- A piece of a script that does not give more than it is asked for is given from the front; what
was not asked for stays. -/
theorem Script.read_piece {n : Nat} {piece : Text} {items : List (ScriptItem CodePoint)}
    {s : Script CodePoint} (hexact : s.overlong = false)
    (hitems : s.items = .units piece :: items) :
    ∃ s', Script.read n s = .ok (.units (piece.take n)) s' ∧ s'.overlong = false ∧
      s'.items = if piece.length ≤ n then items else .units (piece.drop n) :: items := by
  have hrest : (piece.drop n).isEmpty = true ↔ piece.length ≤ n := by
    rw [List.isEmpty_iff, List.drop_eq_nil_iff]
  unfold Script.read
  simp only [hitems, hexact, Bool.false_or]
  by_cases hle : piece.length ≤ n
  · rw [if_pos (hrest.2 hle), if_pos hle, List.take_of_length_le hle]
    exact ⟨_, rfl, rfl, rfl⟩
  · rw [if_neg (mt hrest.1 hle), if_neg hle]
    exact ⟨_, rfl, rfl, rfl⟩

/-- Where a script is done with its text: it has no more answers, or it answers with nothing first,
whatever comes after that. -/
inductive Script.Ends : List (ScriptItem CodePoint) → Prop where
  | ended : Ends []
  | notReady (later : List (ScriptItem CodePoint)) : Ends (.notReady :: later)
  | empty (later : List (ScriptItem CodePoint)) : Ends (.units [] :: later)

/-- A script at its end gives nothing. -/
theorem Script.Ends.read {items : List (ScriptItem CodePoint)} (h : Script.Ends items) (n : Nat)
    {s : Script CodePoint} (hitems : s.items = items) :
    ∃ a s', Script.read n s = .ok a s' ∧ a.toList = [] := by
  unfold Script.read
  cases h with
  | ended => exact ⟨.units [], _, by simp only [hitems]; rfl, rfl⟩
  | notReady later => exact ⟨.notReady, _, by simp only [hitems]; rfl, rfl⟩
  | empty later =>
    exact ⟨.units [], _, by simp only [hitems, List.drop_nil, List.isEmpty_nil, Bool.or_true]; rfl,
      rfl⟩

/-- A script of non-empty pieces serves their concatenation. -/
theorem Script.serves_pieces {limit : Nat} {pieces : List Text}
    {ending : List (ScriptItem CodePoint)} (hne : ∀ piece ∈ pieces, piece ≠ [])
    (hends : Script.Ends ending) :
    Serves limit pieces.flatten
      ({ items := pieces.map .units ++ ending } : Script CodePoint) := by
  refine ⟨fun t s => s.overlong = false ∧ ∃ pieces : List Text, (∀ piece ∈ pieces, piece ≠ []) ∧
    t = pieces.flatten ∧ s.items = pieces.map .units ++ ending, ?_, rfl, pieces, hne, rfl, rfl⟩
  rintro t s ⟨hexact, pieces, hne, rfl, hitems⟩ n hn -
  cases pieces with
  | nil =>
    -- The text is used up, and the ending gives nothing.
    obtain ⟨a, s', hread, hnil⟩ := hends.read n hitems
    refine ⟨a, s', [], hread, ⟨?_, ?_, ?_⟩, fun h => absurd rfl h⟩
    · rw [hnil]; rfl
    · rw [hnil]; exact Nat.zero_le n
    · exact fun h => absurd rfl h
  | cons piece pieces =>
    have hpiece : piece ≠ [] := hne piece List.mem_cons_self
    have hpieces : ∀ p ∈ pieces, p ≠ [] := fun p hp => hne p (List.mem_cons_of_mem _ hp)
    obtain ⟨s', hread, hexact', hitems'⟩ := Script.read_piece (n := n) hexact hitems
    have hsplit : (piece :: pieces).flatten = piece.take n ++ (piece.drop n ++ pieces.flatten) := by
      rw [List.flatten_cons, ← List.append_assoc, List.take_append_drop]
    refine ⟨_, s', piece.drop n ++ pieces.flatten, hread, ⟨hsplit, ?_, ?_⟩, fun _ => ⟨hexact', ?_⟩⟩
    · exact List.length_take_le n piece
    · intro _ hnil
      rcases List.take_eq_nil_iff.1 hnil with h | h
      · omega
      · exact hpiece h
    · by_cases hle : piece.length ≤ n
      · refine ⟨pieces, hpieces, ?_, ?_⟩
        · rw [List.drop_of_length_le hle, List.nil_append]
        · rw [hitems', if_pos hle]; rfl
      · -- The rest of the piece is a piece itself.
        refine ⟨piece.drop n :: pieces, ?_, rfl, ?_⟩
        · intro p hp
          rcases List.mem_cons.1 hp with rfl | hp
          · rw [Ne, List.drop_eq_nil_iff]; exact hle
          · exact hpieces p hp
        · rw [hitems', if_neg hle]; rfl

end PlacedText
