import PlacedText.Encoding.Decoding

/-!
# Reading bytes as text

`Reads scheme policy b t` says that the bytes `b`, if no more follow them, read as the text `t`:
head after head, as decoding goes, but without regard to where in the data the bytes stand.  It is
what decoding at once comes to (`Reads.decodeOnto_eq`).  Characters read as themselves if they are
written so that each one is found, whatever stands behind it (`Scheme.Finds.reads`).

Decoding in pieces comes to the same.  In a stable scheme, what is found at the front of some bytes
stays there when more of them come, so decoding the front of some bytes gives the front of their
text, and what it leaves over goes on where it stopped (`Reads.front`).
-/

namespace PlacedText

/-- The verdict on a head does not wait for more of the data. -/
def Head.Decided : Head → Prop
  | .incomplete _ _ => False
  | _ => True

/-- The number of bytes behind the first one that a head is about. -/
def Head.more : Head → Nat
  | .char _ more => more
  | .invalid more _ => more
  | .incomplete more _ => more

theorem Head.settled_of_decided {head : Head} (h : head.Decided) : head.settled = head := by
  cases head with
  | char c more => rfl
  | invalid more reason => rfl
  | incomplete more reason => exact h.elim

/-- A scheme that finds what stands at the front without looking further than that. -/
structure Scheme.Stable (s : Scheme) : Prop where
  scan_append : ∀ {first : UInt8} {rest : Bytes}, (s.scan first rest).Decided →
    ∀ later, s.scan first (rest ++ later) = s.scan first rest
  more_le : ∀ (first : UInt8) (rest : Bytes), (s.scan first rest).more ≤ rest.length

/-- What is no character in the end lies within the data. -/
theorem Scheme.Stable.more_le_of_settled {s : Scheme} (hs : s.Stable) {first : UInt8}
    {rest : Bytes} {more : Nat} {reason : Reason}
    (h : (s.scan first rest).settled = .invalid more reason) : more ≤ rest.length := by
  have hmore : (s.scan first rest).more ≤ rest.length := hs.more_le first rest
  cases hscan : s.scan first rest <;> rw [hscan] at h hmore <;> cases h <;> exact hmore

/-! ### Policies -/

namespace Policy

variable {p : Policy} {failure : DecodeFailure} {rest : Bytes} {r : Recovery}

/-- Policies other than the one that reads surrogates look only at the bytes in question, and go on
behind them at the latest. -/
theorem recover_append (hp : p ≠ .surrogatePass) (hmore : failure.more ≤ rest.length)
    (later : Bytes) : p.recover failure (rest ++ later) = p.recover failure rest := by
  cases p with
  | surrogatePass => exact absurd rfl hp
  | _ => simp only [recover, List.take_append_of_le_length hmore]

theorem more_le_of_recover (hp : p ≠ .surrogatePass) (h : p.recover failure rest = .ok r) :
    r.more ≤ failure.more := by
  cases p with
  | strict | encodingOnly | unknown => cases h
  | ignore | replace | backslash =>
    cases h
    exact Nat.le_refl _
  | surrogateEscape =>
    have hle := Recovery.length_escapable_le (failure.first :: rest.take failure.more)
    simp only [recover] at h
    split at h
    · cases h
    · next heq =>
      cases h
      rw [heq] at hle
      simp only [List.length_cons, List.length_take] at hle
      dsimp only
      omega
  | surrogatePass => exact absurd rfl hp

end Policy

/-! ### Reading at once -/

/-- The bytes read as the text, if no more of them follow. -/
inductive Reads (s : Scheme) (p : Policy) : Bytes → Text → Prop where
  | nil : Reads s p [] []
  | char {first : UInt8} {rest : Bytes} {c : CodePoint} {more : Nat} {t : Text}
      (head : s.scan first rest = .char c more) (tail : Reads s p (rest.drop more) t) :
      Reads s p (first :: rest) (c :: t)
  | invalid {first : UInt8} {rest : Bytes} {more : Nat} {reason : Reason} {r : Recovery} {t : Text}
      (head : (s.scan first rest).settled = .invalid more reason)
      (recovered : ∀ start, p.recover ⟨s, first, start, more, reason⟩ rest = .ok r)
      (tail : Reads s p (rest.drop r.more) t) : Reads s p (first :: rest) (r.text ++ t)

variable {s : Scheme} {p : Policy} {b xs ys : Bytes} {t : Text}

/-- Decoding at once gives the text that bytes read as, wherever they stand. -/
theorem Reads.decodeOnto_eq (h : Reads s p b t) (place : Nat) (done : Text) :
    DecodeMode.decodeOnto ⟨s, p, true⟩ place done b = .ok ⟨done.reverse ++ t, []⟩ := by
  induction h generalizing place done with
  | nil => rw [DecodeMode.decodeOnto, List.append_nil]
  | char head tail ih =>
    rw [DecodeMode.decodeOnto, DecodeMode.scan, if_pos rfl, head]
    simp only [Head.settled]
    rw [ih, List.reverse_cons, List.append_assoc, List.singleton_append]
  | invalid head recovered tail ih =>
    rw [DecodeMode.decodeOnto, DecodeMode.scan, if_pos rfl, head]
    simp only [recovered]
    rw [ih, List.reverse_append, List.reverse_reverse, List.append_assoc]

/-- What the function writes of a character is found in the scheme, whatever stands behind it. -/
def Scheme.Finds (s : Scheme) (write : Char → Bytes) : Prop :=
  ∀ c, ∃ first bytes, write c = first :: bytes ∧
    ∀ rest, s.scan first (bytes ++ rest) = .char (.ofChar c) bytes.length

/-- Characters that are written one after the other read as themselves, under every policy. -/
theorem Scheme.Finds.reads {s : Scheme} {write : Char → Bytes} (h : s.Finds write) (p : Policy)
    (cs : List Char) : Reads s p (cs.flatMap write) (cs.map .ofChar) := by
  induction cs with
  | nil => exact .nil
  | cons c cs ih =>
    obtain ⟨first, bytes, hc, hscan⟩ := h c
    rw [List.flatMap_cons, hc, List.cons_append]
    refine .char (hscan _) ?_
    rw [List.drop_left]
    exact ih

/-! ### Reading in pieces -/

/-- Decoding stops in front of a head that waits for more of the data. -/
theorem decodeOnto_of_not_decided {first : UInt8} {rest : Bytes}
    (h : ¬(s.scan first rest).Decided) (place : Nat) (done : Text) :
    DecodeMode.decodeOnto ⟨s, p, false⟩ place done (first :: rest) =
      .ok ⟨done.reverse, first :: rest⟩ := by
  rw [DecodeMode.decodeOnto, DecodeMode.scan, if_neg Bool.false_ne_true]
  cases hscan : s.scan first rest with
  | char c more => rw [hscan] at h; exact absurd trivial h
  | invalid more reason => rw [hscan] at h; exact absurd trivial h
  | incomplete more reason => rfl

/-- **Decoding a front.**  Decoding the front of some bytes gives the front of their text, and what
it leaves over goes on where it stopped. -/
theorem Reads.front (hs : s.Stable) (hp : p ≠ .surrogatePass) (h : Reads s p (xs ++ ys) t) :
    ∃ u rest t', t = u ++ t' ∧ Reads s p (rest ++ ys) t' ∧ ∀ place done,
      DecodeMode.decodeOnto ⟨s, p, false⟩ place done xs = .ok ⟨done.reverse ++ u, rest⟩ := by
  induction hn : xs.length using Nat.strongRecOn generalizing xs t with
  | ind n ih =>
  cases xs with
  | nil =>
    refine ⟨[], [], t, rfl, h, fun place done => ?_⟩
    rw [DecodeMode.decodeOnto, List.append_nil]
  | cons first rest =>
    by_cases hdecided : (s.scan first rest).Decided
    · -- The same head is found with more bytes behind it, and it ends before they begin.
      have hscan : s.scan first (rest ++ ys) = s.scan first rest := hs.scan_append hdecided ys
      have hmore : (s.scan first rest).more ≤ rest.length := hs.more_le first rest
      have hshorter {k : Nat} : (rest.drop k).length < n := by
        rw [← hn, List.length_drop, List.length_cons]
        omega
      rw [List.cons_append] at h
      cases h with
      | @char _ _ c more t head tail =>
        rw [hscan] at head
        have hmore : more ≤ rest.length := by rw [head] at hmore; exact hmore
        rw [List.drop_append_of_le_length hmore] at tail
        obtain ⟨u, left, t', rfl, hreads, hdecode⟩ := ih _ hshorter tail rfl
        refine ⟨c :: u, left, t', rfl, hreads, fun place done => ?_⟩
        rw [DecodeMode.decodeOnto, DecodeMode.scan, if_neg Bool.false_ne_true, head]
        simp only [hdecode, List.reverse_cons, List.append_assoc, List.singleton_append]
      | @invalid _ _ more reason r t head recovered tail =>
        rw [hscan, Head.settled_of_decided hdecided] at head
        have hmore : more ≤ rest.length := by rw [head] at hmore; exact hmore
        have hsame (start : Nat) :
            p.recover ⟨s, first, start, more, reason⟩ rest = .ok r := by
          rw [← recovered start]
          exact (Policy.recover_append hp hmore ys).symm
        have hr : r.more ≤ rest.length :=
          Nat.le_trans (Policy.more_le_of_recover hp (hsame 0)) hmore
        rw [List.drop_append_of_le_length hr] at tail
        obtain ⟨u, left, t', rfl, hreads, hdecode⟩ := ih _ hshorter tail rfl
        refine ⟨r.text ++ u, left, t', (List.append_assoc _ _ _).symm, hreads, fun place done => ?_⟩
        rw [DecodeMode.decodeOnto, DecodeMode.scan, if_neg Bool.false_ne_true, head]
        simp only [hsame, hdecode, List.reverse_append, List.reverse_reverse, List.append_assoc]
    · -- Nothing is decoded, and all of it is left over.
      refine ⟨[], first :: rest, t, rfl, h, fun place done => ?_⟩
      rw [decodeOnto_of_not_decided hdecided, List.append_nil]

end PlacedText
