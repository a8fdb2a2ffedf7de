import PlacedText.Reader.Cursor
import PlacedText.Running

/-!
# The steps of a reader

What an action of a reader comes to, told by what is queued and by what the actions on the source
come to, and what a step of a cursor comes to, told by the actions of the reader.  Facts about a
reader are put together from these equations, whatever is known of the source.
-/

namespace PlacedText

open Running

variable {σ : Type} {r r' r₁ r₂ : Reader σ} {s : Source σ} {c : PlacedChar}

namespace Reader

/-- An action on the source, told by what it does to the source. -/
theorem onSource_of_eq_ok {α : Type} {x : SourceM σ α} {a : α} (h : x r.source = .ok a s) :
    onSource x r = .ok a { r with source := s } := by
  rw [onSource, h]

variable [InputStream CodePoint σ]

/-! ### The end -/

/-- The data has not ended while something is queued. -/
theorem atEnd_of_queue (h : r.queue ≠ []) : atEnd r = .ok false r := by
  rw [atEnd, bind_apply, get_apply]
  simp only [List.isEmpty_eq_false_iff.2 h, Bool.false_eq_true, ↓reduceIte]
  rfl

/-- With nothing queued, the data has ended if it has for the source. -/
theorem atEnd_of_source {ended : Bool} (h : r.queue = [])
    (hend : Source.atEnd r.source = .ok ended s) : atEnd r = .ok ended { r with source := s } := by
  rw [atEnd, bind_apply, get_apply]
  simp only [h, List.isEmpty_nil, ↓reduceIte, onSource_of_eq_ok hend]

/-- With nothing queued, asking for the end fails as it does for the source. -/
theorem atEnd_of_source_fault {fault : Fault} (h : r.queue = [])
    (hend : Source.atEnd r.source = .error fault s) :
    atEnd r = .error (.fault fault) { r with source := s } := by
  rw [atEnd, bind_apply, get_apply]
  simp only [h, List.isEmpty_nil, ↓reduceIte, onSource, hend]

/-- A reader is at the end of the data only with nothing queued and its source at the end. -/
theorem of_atEnd (h : atEnd r = .ok true r') :
    r'.queue = [] ∧ Source.atEnd r.source = .ok true r'.source := by
  by_cases hqueue : r.queue = []
  · rw [atEnd, bind_apply, get_apply] at h
    simp only [hqueue, List.isEmpty_nil, ↓reduceIte, onSource] at h
    cases hend : Source.atEnd r.source with
    | ok ended s =>
      rw [hend] at h
      cases h
      exact ⟨rfl, rfl⟩
    | error e s =>
      rw [hend] at h
      cases h
  · rw [atEnd_of_queue hqueue] at h
    cases h

/-! ### Taking in -/

/-- A refill queues the block that was read, placed from the next place on, and notes it. -/
theorem refill_of_readBlock {block : Text}
    (h : Source.readBlock r.settings.blockSize r.source = .ok block s) :
    refill r = .ok () { r with
      source := { s with journal := s.journal.note (.refill block.length r.next) }
      queue := r.queue ++ (place r.next block).1
      next := (place r.next block).2 } := by
  rw [refill, bind_apply, get_apply]
  simp only [bind_apply, onSource_of_eq_ok h]
  rfl

/-- A refill fails as the reading of the block does, and then it queues and notes nothing. -/
theorem refill_of_readBlock_fault {fault : Fault}
    (h : Source.readBlock r.settings.blockSize r.source = .error fault s) :
    refill r = .error (.fault fault) { r with source := s } := by
  rw [refill, bind_apply, get_apply]
  simp only [bind_apply, onSource, h]

/-- Nothing is taken in while something is queued. -/
theorem precache_of_queue (h : r.queue ≠ []) : precache r = .ok () r := by
  rw [precache, bind_apply, get_apply]
  simp only [List.isEmpty_eq_false_iff.2 h, Bool.false_eq_true, ↓reduceIte]
  rfl

theorem precache_of_queue_cons {queue : List PlacedChar} (h : r.queue = c :: queue) :
    precache r = .ok () r := precache_of_queue (by rw [h]; exact List.cons_ne_nil c queue)

/-- At the end of the data, taking in is an error. -/
theorem precache_of_atEnd (h : r.queue = []) (hend : Source.atEnd r.source = .ok true s) :
    precache r = .error (.endOfData r.next) { r with source := s } := by
  rw [precache, bind_apply, get_apply]
  simp only [h, List.isEmpty_nil, ↓reduceIte, bind_apply, onSource_of_eq_ok hend, get_apply]
  rfl

/-- Before the end of the data, taking in is a refill. -/
theorem precache_of_not_atEnd (h : r.queue = []) (hend : Source.atEnd r.source = .ok false s) :
    precache r = refill { r with source := s } := by
  rw [precache, bind_apply, get_apply]
  simp only [h, List.isEmpty_nil, ↓reduceIte, bind_apply, onSource_of_eq_ok hend,
    Bool.false_eq_true]

/-- A fault that is met by asking for the end is met by taking in. -/
theorem precache_of_source_fault {fault : Fault} (h : r.queue = [])
    (hend : Source.atEnd r.source = .error fault s) :
    precache r = .error (.fault fault) { r with source := s } := by
  rw [precache, bind_apply, get_apply]
  simp only [h, List.isEmpty_nil, ↓reduceIte, bind_apply, onSource, hend]

/-! ### Looking and reading -/

variable {queue : List PlacedChar} {e : ReadError}

/-- Looking shows the first character that is queued. -/
theorem peek_of_precache (h : precache r = .ok () r') (hqueue : r'.queue = c :: queue) :
    peek r = .ok c r' := by
  rw [peek, bind_apply, h]
  simp only [bind_apply, get_apply, hqueue]
  rfl

/-- Reading takes the first character out of the queue. -/
theorem read_of_precache (h : precache r = .ok () r') (hqueue : r'.queue = c :: queue) :
    read r = .ok c { r' with queue } := by
  rw [read, bind_apply, h]
  simp only [bind_apply, get_apply, hqueue]
  rfl

/-- Looking fails as taking in does. -/
theorem peek_of_precache_error (h : precache r = .error e r') : peek r = .error e r' := by
  rw [peek, bind_apply, h]

/-- Reading fails as taking in does. -/
theorem read_of_precache_error (h : precache r = .error e r') : read r = .error e r' := by
  rw [read, bind_apply, h]

end Reader

/-! ### Cursors -/

namespace Cursor

variable [InputStream CodePoint σ]

/-- At the end of the data every run is over. -/
theorem next_of_atEnd (hend : Reader.atEnd r = .ok true r') {k : Cursor} (hk : k ≠ .finished) :
    k.next r = .ok none r' := by
  cases k with
  | finished => exact absurd rfl hk
  | toEnd => rw [next, bind_apply, hend]; rfl
  | inLine => rw [next, bind_apply, hend]; rfl
  | afterReturn => rw [next, bind_apply, hend]; rfl

theorem next_toEnd (hend : Reader.atEnd r = .ok false r₁) (hread : Reader.read r₁ = .ok c r') :
    next .toEnd r = .ok (some (c, .toEnd)) r' := by
  rw [next, bind_apply, hend]
  simp only [Bool.false_eq_true, ↓reduceIte, bind_apply, hread]
  rfl

theorem next_inLine (hend : Reader.atEnd r = .ok false r₁) (hread : Reader.read r₁ = .ok c r') :
    next .inLine r = .ok (some (c, afterInLine c)) r' := by
  rw [next, bind_apply, hend]
  simp only [Bool.false_eq_true, ↓reduceIte, bind_apply, hread]
  rfl

/-- After a carriage return, a line feed still belongs to the line. -/
theorem next_afterReturn_of_feed {c' : PlacedChar} (hend : Reader.atEnd r = .ok false r₁)
    (hpeek : Reader.peek r₁ = .ok c r₂) (hfeed : c.holds .lineFeed = true)
    (hread : Reader.read r₂ = .ok c' r') : next .afterReturn r = .ok (some (c', .finished)) r' := by
  rw [next, bind_apply, hend]
  simp only [Bool.false_eq_true, ↓reduceIte, bind_apply, hpeek, hfeed, hread]
  rfl

/-- After a carriage return, any other character begins the next line. -/
theorem next_afterReturn_of_ne_feed (hend : Reader.atEnd r = .ok false r₁)
    (hpeek : Reader.peek r₁ = .ok c r') (hfeed : c.holds .lineFeed = false) :
    next .afterReturn r = .ok none r' := by
  rw [next, bind_apply, hend]
  simp only [Bool.false_eq_true, ↓reduceIte, bind_apply, hpeek, hfeed]
  rfl

end Cursor

end PlacedText
