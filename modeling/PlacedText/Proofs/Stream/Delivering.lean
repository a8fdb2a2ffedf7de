import PlacedText.Stream.Buffered
import PlacedText.Stream.Memory
import PlacedText.Stream.Script

/-!
# Streams that deliver bytes

The answers of a stream of bytes fall into *runs*: the bytes up to an empty answer are a run, and
then the next run begins.  `Delivers runs d` says that the stream `d` gives these runs, each in
pieces of any size, and nothing after them.  A run that is left out at the end of the list is as
good as an empty one (`Delivers.once`).

Bytes in memory are one run (`Memory.delivers_ofBytes`), and a script without errors delivers the
runs that its items make (`Script.delivers_runs`).  A buffer with room for every size delivers what
the stream behind it does (`Delivers.buffered`).
-/

namespace PlacedText

variable {β : Type} [InputStream UInt8 β]

/-- A relation between runs and streams is **kept by delivering** if each read takes bytes off the
front of the first run; only when that is used up is nothing given, and the next run comes. -/
def KeptByDelivering (R : List Bytes → β → Prop) : Prop :=
  ∀ ⦃runs : List Bytes⦄ ⦃d : β⦄, R runs d → ∀ n, 0 < n → n ≤ largestSize →
    ∃ a d', InputStream.read n d = .ok a d' ∧
      ((a.toList ≠ [] ∧ ∃ rest, runs.headD [] = a.toList ++ rest ∧ R (rest :: runs.tail) d') ∨
        a.toList = [] ∧ runs.headD [] = [] ∧ R runs.tail d')

/-- A stream delivers runs if a relation that is kept by delivering says so. -/
def Delivers (runs : List Bytes) (d : β) : Prop :=
  ∃ R : List Bytes → β → Prop, KeptByDelivering R ∧ R runs d

/-- Delivering is itself kept by delivering. -/
theorem Delivers.read {runs : List Bytes} {d : β} {n : Nat} (h : Delivers runs d) (hn : 0 < n)
    (hlimit : n ≤ largestSize) :
    ∃ a d', InputStream.read n d = .ok a d' ∧
      ((a.toList ≠ [] ∧ ∃ rest, runs.headD [] = a.toList ++ rest ∧
          Delivers (rest :: runs.tail) d') ∨
        a.toList = [] ∧ runs.headD [] = [] ∧ Delivers runs.tail d') := by
  obtain ⟨R, hkept, hR⟩ := h
  obtain ⟨a, d', hread, ⟨hne, rest, hsplit, hrest⟩ | ⟨hnil, hempty, hrest⟩⟩ := hkept hR n hn hlimit
  · exact ⟨a, d', hread, .inl ⟨hne, rest, hsplit, R, hkept, hrest⟩⟩
  · exact ⟨a, d', hread, .inr ⟨hnil, hempty, R, hkept, hrest⟩⟩

/-- If only the first run has bytes, the others can be left out. -/
theorem Delivers.once {runs : List Bytes} {d : β} (h : Delivers runs d)
    (htail : ∀ run ∈ runs.tail, run = []) : Delivers [runs.headD []] d := by
  refine ⟨fun single d => ∃ runs, Delivers runs d ∧ single.headD [] = runs.headD [] ∧
    single.tail = [] ∧ ∀ run ∈ runs.tail, run = [], ?_, runs, h, rfl, rfl, htail⟩
  rintro single d ⟨runs, h, hhead, hsingle, htail⟩ n hn hlimit
  rw [hhead, hsingle]
  obtain ⟨a, d', hread, ⟨hne, rest, hsplit, hrest⟩ | ⟨hnil, hempty, hrest⟩⟩ := h.read hn hlimit
  · exact ⟨a, d', hread, .inl ⟨hne, rest, hsplit, _, hrest, rfl, rfl, htail⟩⟩
  · -- The next run has no bytes either.
    have hnext : runs.tail.headD [] = [] := by
      cases hruns : runs.tail with
      | nil => rfl
      | cons run later => exact htail run (hruns ▸ List.mem_cons_self)
    exact ⟨a, d', hread, .inr ⟨hnil, hempty, _, hrest, hnext.symm, rfl,
      fun run hrun => htail run (List.mem_of_mem_tail hrun)⟩⟩

/-! ### Buffers -/

/-- With room for every size, a buffer hides nothing. -/
theorem Delivers.buffered {γ : Type} [FiniteStream UInt8 γ] {runs : List Bytes} {d : γ}
    (h : Delivers runs d) : Delivers runs (⟨d, largestSize⟩ : Buffered γ) := by
  refine ⟨fun runs b => b.room = largestSize ∧ Delivers runs b.device, ?_, rfl, h⟩
  rintro runs ⟨d, room⟩ ⟨rfl, h⟩ n hn hlimit
  obtain ⟨a, d', hread, hgiven⟩ := h.read hn hlimit
  refine ⟨a, ⟨d', largestSize⟩, Buffered.read_of_ok hlimit hread, ?_⟩
  rcases hgiven with ⟨hne, rest, hhead, hrest⟩ | ⟨hnil, hhead, hrest⟩
  · exact .inl ⟨hne, rest, hhead, rfl, hrest⟩
  · exact .inr ⟨hnil, hhead, rfl, hrest⟩

/-! ### Memory -/

/-- Bytes in memory are a single run. -/
theorem Memory.delivers_ofBytes (b : Bytes) : Delivers [b] (Memory.ofBytes b) := by
  refine ⟨fun runs m => m.closed = false ∧ runs.headD [] = m.rest ∧ runs.tail = [], ?_,
    rfl, rfl, rfl⟩
  rintro runs m ⟨hopen, hhead, htail⟩ n hn hlimit
  have hread : InputStream.read n m =
      .ok (.units (m.rest.take n)) { m with rest := m.rest.drop n } := by
    show Memory.read n m = _
    rw [Memory.read, if_neg (Nat.not_lt.2 hlimit), if_neg (by rw [hopen]; decide)]
  refine ⟨_, _, hread, ?_⟩
  rw [hhead, htail]
  by_cases hrest : m.rest = []
  · right
    have hdrop : m.rest.drop n = [] := by rw [hrest, List.drop_nil]
    refine ⟨?_, hrest, hopen, hdrop.symm, rfl⟩
    show m.rest.take n = []
    rw [hrest, List.take_nil]
  · left
    refine ⟨?_, m.rest.drop n, (List.take_append_drop n m.rest).symm, hopen, rfl, rfl⟩
    intro hnil
    rcases List.take_eq_nil_iff.1 hnil with h | h
    · omega
    · exact hrest h

/-! ### Scripts -/

namespace Script

/-- The runs that items make, up to the first error. -/
def runs : List (ScriptItem UInt8) → List Bytes
  | [] => []
  | .units [] :: items => [] :: runs items
  | .units (b :: bytes) :: items => (b :: bytes ++ (runs items).headD []) :: (runs items).tail
  | .notReady :: items => [] :: runs items
  | .fail _ :: _ => []

/-- No item is an error. -/
def Sound (items : List (ScriptItem UInt8)) : Prop := ∀ message, .fail message ∉ items

theorem runs_units {bytes : Bytes} (h : bytes ≠ []) (items : List (ScriptItem UInt8)) :
    runs (.units bytes :: items) = (bytes ++ (runs items).headD []) :: (runs items).tail := by
  cases bytes with
  | nil => exact absurd rfl h
  | cons b bytes => rfl

/-- A script without errors delivers the runs that its items make, in pieces that are at most as
long as those of the script. -/
theorem delivers_runs {s : Script UInt8} (hsound : Sound s.items) : Delivers (runs s.items) s := by
  refine ⟨fun rs s => Sound s.items ∧ rs.headD [] = (runs s.items).headD [] ∧
    rs.tail = (runs s.items).tail, ?_, hsound, rfl, rfl⟩
  rintro rs s ⟨hsound, hhead, htail⟩ n hn -
  show ∃ a s', Script.read n s = .ok a s' ∧ _
  rw [hhead, htail]
  unfold Script.read
  cases hitems : s.items with
  | nil =>
    -- Nothing comes any more, and there is nothing to be unsound.
    have hnone : Sound [] := fun _ hmem => absurd hmem List.not_mem_nil
    exact ⟨_, _, rfl, .inr ⟨rfl, rfl, hnone, rfl, rfl⟩⟩
  | cons item items =>
    have hlater : Sound items := fun message hmem =>
      hsound message (hitems ▸ List.mem_cons_of_mem item hmem)
    cases item with
    | fail message => exact absurd (hitems ▸ List.mem_cons_self) (hsound message)
    | notReady => exact ⟨_, _, rfl, .inr ⟨rfl, rfl, hlater, rfl, rfl⟩⟩
    | units bytes =>
      by_cases hbytes : bytes = []
      · -- An item without bytes ends the run.
        subst hbytes
        simp only [List.drop_nil, List.isEmpty_nil, Bool.or_true, ↓reduceIte]
        exact ⟨_, _, rfl, .inr ⟨rfl, rfl, hlater, rfl, rfl⟩⟩
      · rw [runs_units hbytes]
        by_cases hwhole : (s.overlong || (bytes.drop n).isEmpty) = true
        · simp only [hwhole, ↓reduceIte]
          exact ⟨_, _, rfl, .inl ⟨hbytes, _, rfl, hlater, rfl, rfl⟩⟩
        · -- The rest of the item stays in front.
          have hdrop : bytes.drop n ≠ [] := by
            intro hnil
            rw [hnil, List.isEmpty_nil, Bool.or_true] at hwhole
            exact hwhole rfl
          have htake : bytes.take n ≠ [] := by
            intro hnil
            rcases List.take_eq_nil_iff.1 hnil with h | h
            · omega
            · exact hbytes h
          simp only [hwhole, Bool.false_eq_true, ↓reduceIte]
          refine ⟨_, _, rfl, .inl ⟨htake, bytes.drop n ++ (runs items).headD [], ?_, ?_, ?_, ?_⟩⟩
          · show bytes ++ _ = bytes.take n ++ _
            rw [← List.append_assoc, List.take_append_drop]
          · intro message hmem
            rcases List.mem_cons.1 hmem with heq | hmem
            · cases heq
            · exact hlater message hmem
          · rw [runs_units hdrop]
            rfl
          · rw [runs_units hdrop]
            rfl

end Script

end PlacedText
