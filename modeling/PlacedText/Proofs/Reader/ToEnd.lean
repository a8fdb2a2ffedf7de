import PlacedText.Proofs.Reader.Delivery
import PlacedText.Proofs.Reader.Ending
import PlacedText.Proofs.Stream.Passing

/-!
# Draining to the end of the data

Draining a reader of a faultless stream to the end hands out all that is heard of the stream up to
its first empty answer (`Reader.drain_toEnd_of_delivered`), each character in its place if no answer
is longer than what was asked for.

If the stream passes over texts, the end is the end of one of them: what is handed out is the first
text, or the first few (`Reader.drain_toEnd_of_passes`).
-/

namespace PlacedText

variable {σ : Type} {limit : Nat}

section Delivery

variable [InputStream CodePoint σ] {origin : σ} {xs : List Exchange} {handed : List PlacedChar}
  {r : Reader σ}

/-- All that was heard has been handed out, and nothing more comes. -/
structure Reader.Spent (limit : Nat) (origin : σ) (xs : List Exchange) (handed : List PlacedChar)
    (r : Reader σ) : Prop where
  delivered : r.Delivered limit origin xs handed
  queue : r.queue = []
  heard_eq : heard xs = textOf handed
  ended : ∃ x ∈ xs, x.IsEmpty

/-- A cursor to the end hands out the next character, or all that was heard has been handed out. -/
theorem Cursor.next_toEnd_of_delivered (h : r.Delivered limit origin xs handed) :
    ∃ xs' r',
      (Cursor.toEnd.next r = .ok none r' ∧ r'.Spent limit origin xs' handed) ∨
      ∃ c, Cursor.toEnd.next r = .ok (some (c, .toEnd)) r' ∧
        r'.Delivered limit origin xs' (handed ++ [c]) := by
  obtain ⟨ended, xs₁, r₁, hend, -, hr₁, hover, hstocked⟩ := Reader.atEnd_of_delivered h
  cases ended with
  | true =>
    obtain ⟨hheard, hempty⟩ := hover rfl
    refine ⟨xs₁, r₁, .inl ⟨?_, hr₁, (Reader.of_atEnd hend).1, hheard, hempty⟩⟩
    apply next_of_atEnd hend
    intro hfinished
    cases hfinished
  | false =>
    obtain ⟨c, xs', r', hread, -, hr'⟩ := Reader.read_of_stocked hr₁ (hstocked rfl)
    exact ⟨xs', r', .inr ⟨c, next_toEnd hend hread, hr'⟩⟩

/-- Draining to the end does not fail, and all that was heard has been handed out after it. -/
theorem Producer.drainOnto_toEnd_of_delivered :
    ∀ (taken : List PlacedChar) (k : Cursor) (r : Reader σ) (d : Drained σ PlacedChar),
      Producer.characters.drainOnto taken k r = some d → k = .toEnd →
      ∀ xs, r.Delivered limit origin xs taken.reverse →
        d.failure = none ∧ ∃ xs', d.reader.Spent limit origin xs' d.items := by
  -- The induction is on the run that ends; each step adds its character to those taken.
  refine Producer.drainOnto.partial_correctness Producer.characters _ ?_
  intro rest ih taken k r d hrun hk xs h
  subst hk
  obtain ⟨result, hstep, hrun⟩ := Option.bind_eq_some_iff.1 hrun
  have hresult : result = Cursor.toEnd.next r := (Option.some.inj hstep).symm
  obtain ⟨xs', r', ⟨hnext, hr'⟩ | ⟨c, hnext, hr'⟩⟩ := Cursor.next_toEnd_of_delivered h
  · rw [hresult, hnext] at hrun
    cases hrun
    exact ⟨rfl, xs', hr'⟩
  · rw [hresult, hnext] at hrun
    rw [← List.reverse_cons] at hr'
    exact ih _ _ _ _ hrun rfl xs' hr'

/-- What was handed out stands where counting puts it. -/
theorem Reader.Spent.eq_place (h : r.Spent limit origin xs handed) (hexact : AllExact xs) :
    handed = (place .start (heard xs)).1 := by
  have hplaced := h.delivered.placed hexact
  rw [h.queue, List.append_nil] at hplaced
  rw [h.heard_eq, hplaced]

end Delivery

section Texts

variable [FiniteStream CodePoint σ] {short : Prop} {ts : List Text} {stream : σ}
  {settings : Settings}

/-- **Draining a stream that passes over texts** does not fail, and hands out one text after the
other up to the end of one of them. -/
theorem Reader.drain_toEnd_of_passes (h : Passes limit (fun _ => False) short ts stream)
    (hlimit : settings.blockSize ≤ limit) :
    ∃ d k, Producer.characters.drain .toEnd (ofSource { stream } settings) = some d ∧
      d.failure = none ∧ d.items = (place .start (ts.take (k + 1)).flatten).1 := by
  obtain ⟨d, hd⟩ := Producer.drain_ends Producer.characters_ends .toEnd
    (ofSource { stream } settings)
  obtain ⟨hfailure, xs, hspent⟩ := Producer.drainOnto_toEnd_of_delivered [] .toEnd _ d hd rfl []
    (delivered_ofSource h.faultless hlimit {})
  obtain ⟨hexact, ts', hpassed, hend⟩ := h.heard_of_exchanged hspent.delivered.accounts.exchanged
  obtain ⟨k, hk⟩ := hpassed.eq_flatten (hend hspent.delivered.accounts.asked hspent.ended)
  refine ⟨d, k, hd, hfailure, ?_⟩
  rw [hspent.eq_place hexact, hk]

end Texts

end PlacedText
