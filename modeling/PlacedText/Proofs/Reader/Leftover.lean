import PlacedText.Proofs.Reader.Ahead
import PlacedText.Proofs.Reader.Latching
import PlacedText.Proofs.Reader.Refinement
import PlacedText.Proofs.Stream.Shutting

/-!
# What is left after closing

A reader whose stream refuses can still serve what it has pulled.  What that is, the reader's
*leftover*, is the queue, the place of the next character, and what stands behind the queue: the end
of the data, the refusal of the stream, or one character that was looked at.

`Call.onLeftover` says what a call comes to on a leftover, knowing nothing of streams and blocks.
The character that was looked at is served only if a block can be made of it alone, with blocks of
one character and no carriage return, behind which a line feed would have to be looked for.
Otherwise a call that wants it loses it.

One call is `Reader.Shut.repliesAsLeft`: reader and leftover reply alike, and the reader's leftover
afterwards is what the leftover has become.
-/

namespace PlacedText

open Running

/-- What stands behind the queue. -/
inductive Remainder where
  /-- The data has ended. -/
  | ended
  /-- The stream would be asked, and it refuses. -/
  | refused
  /-- A character was looked at. -/
  | ahead (c : CodePoint)

/-- What a reader has that it can serve without its stream. -/
structure Leftover where
  queue : List PlacedChar
  next : Position
  rest : Remainder

namespace Call

/-- A call while `c` is the first in the queue, with `l` behind it. -/
def onQueued (c : PlacedChar) (l : Leftover) : Call → Reply × Leftover
  | .read => (.char c, l)
  | .peek => (.char c, { l with queue := c :: l.queue })
  | .precache => (.ready, { l with queue := c :: l.queue })
  | .atEnd => (.flag false, { l with queue := c :: l.queue })

/-- A call on a leftover, with blocks of `b` characters and a stream that refuses with `e`. -/
def onLeftover (b : Nat) (e : Fault) (call : Call) (l : Leftover) : Reply × Leftover :=
  match l.queue, l.rest with
  | c :: queue, _ => call.onQueued c { l with queue }
  | [], .ended => (if call = .atEnd then .flag true else .failed (.endOfData l.next), l)
  | [], .refused => (.failed (.fault e), l)
  | [], .ahead c =>
    if call = .atEnd then (.flag false, l)
    else if b = 1 ∧ c ≠ .carriageReturn then
      call.onQueued (.single l.next c) ⟨[], l.next.after c none, .refused⟩
    else (.failed (.fault e), { l with rest := .refused })

end Call

/-- What calls that are made one after the other lead to. -/
def afterwards {τ : Type} (make : Call → τ → Reply × τ) (calls : List Call) (s : τ) : τ :=
  calls.foldl (fun s call => (make call s).2) s

/-- The replies to those of the calls that read. -/
def readReplies {τ : Type} (make : Call → τ → Reply × τ) (calls : List Call) (s : τ) : List Reply :=
  ((calls.zip (replies make calls s)).filter fun made => made.1 = .read).map Prod.snd

variable {b : Nat} {e : Fault} {call : Call}

/-! ### What leftovers come to -/

section Making

variable {τ : Type} {make : Call → τ → Reply × τ} {s : τ}

/-- If a call changes nothing, so do any number of calls. -/
theorem replies_of_stay {reply : Call → Reply} (hstay : ∀ call, make call s = (reply call, s))
    (calls : List Call) : replies make calls s = calls.map reply := by
  induction calls with
  | nil => rfl
  | cons call calls ih => rw [replies, hstay call, ih, List.map_cons]

theorem replies_append (make : Call → τ → Reply × τ) (calls later : List Call) (s : τ) :
    replies make (calls ++ later) s =
      replies make calls s ++ replies make later (afterwards make calls s) := by
  induction calls generalizing s with
  | nil => rfl
  | cons call calls ih =>
    rw [List.cons_append, replies, replies, ih, List.cons_append]
    rfl

end Making

namespace Leftover

variable {l l' : Leftover}

/-- What is queued is handed out by the first reads, whatever other calls come between them. -/
theorem take_readReplies (b : Nat) (e : Fault) (calls : List Call) (l : Leftover) :
    (readReplies (Call.onLeftover b e) calls l).take l.queue.length =
      (l.queue.take (calls.count .read)).map .char := by
  induction calls generalizing l with
  | nil => exact List.take_nil
  | cons call calls ih =>
    obtain ⟨queue, next, rest⟩ := l
    cases queue with
    | nil =>
      show List.take 0 _ = List.map Reply.char (List.take _ [])
      rw [List.take_zero, List.take_nil, List.map_nil]
    | cons c queue =>
      cases call with
      | read =>
        rw [List.count_cons_self]
        exact congrArg (Reply.char c :: ·) (ih ⟨queue, next, rest⟩)
      | peek =>
        rw [List.count_cons_of_ne (by decide)]
        exact ih ⟨c :: queue, next, rest⟩
      | precache =>
        rw [List.count_cons_of_ne (by decide)]
        exact ih ⟨c :: queue, next, rest⟩
      | atEnd =>
        rw [List.count_cons_of_ne (by decide)]
        exact ih ⟨c :: queue, next, rest⟩

/-- What a leftover can become: some of the queue is handed out; the character that was looked at is
lost, or it is queued, and then it has its place and the next one stands behind it. -/
inductive Becomes (b : Nat) (l : Leftover) : Leftover → Prop where
  | kept {queue : List PlacedChar} (left : queue <:+ l.queue) : Becomes b l ⟨queue, l.next, l.rest⟩
  | lost {c : CodePoint} (ahead : l.rest = .ahead c) : Becomes b l ⟨[], l.next, .refused⟩
  | queued {c : CodePoint} {queue : List PlacedChar} (ahead : l.rest = .ahead c) (single : b = 1)
      (noReturn : c ≠ .carriageReturn) (left : queue <:+ [.single l.next c]) :
      Becomes b l ⟨queue, l.next.after c none, .refused⟩

/-- A call with something queued hands out the first character at most. -/
theorem exists_queue_of_onQueued (call : Call) (c : PlacedChar) (l : Leftover) :
    ∃ queue, (call.onQueued c l).2 = { l with queue } ∧ queue <:+ c :: l.queue := by
  cases call
  · exact ⟨l.queue, rfl, List.suffix_cons c l.queue⟩
  · exact ⟨c :: l.queue, rfl, List.suffix_rfl⟩
  · exact ⟨c :: l.queue, rfl, List.suffix_rfl⟩
  · exact ⟨c :: l.queue, rfl, List.suffix_rfl⟩

/-- **One call.** -/
theorem becomes_onLeftover (b : Nat) (e : Fault) (call : Call) (l : Leftover) :
    l.Becomes b (call.onLeftover b e l).2 := by
  obtain ⟨queue, next, rest⟩ := l
  cases queue with
  | cons c queue =>
    obtain ⟨queue', hqueue, hleft⟩ := exists_queue_of_onQueued call c ⟨queue, next, rest⟩
    rw [Call.onLeftover, hqueue]
    exact .kept hleft
  | nil =>
    cases rest with
    | ended => exact .kept List.suffix_rfl
    | refused => exact .kept List.suffix_rfl
    | ahead c =>
      rw [Call.onLeftover]
      by_cases hatEnd : call = .atEnd
      · simp only [hatEnd, ↓reduceIte]
        exact .kept List.suffix_rfl
      · by_cases hserved : b = 1 ∧ c ≠ .carriageReturn
        · simp only [hatEnd, ↓reduceIte, if_pos hserved]
          obtain ⟨queue', hqueue, hleft⟩ :=
            exists_queue_of_onQueued call (.single next c) ⟨[], next.after c none, .refused⟩
          rw [hqueue]
          exact .queued rfl hserved.1 hserved.2 hleft
        · simp only [hatEnd, ↓reduceIte, if_neg hserved]
          exact .lost rfl

/-- What was lost or queued is not looked at again. -/
theorem Becomes.trans {l'' : Leftover} (h : l.Becomes b l') (h' : l'.Becomes b l'') :
    l.Becomes b l'' := by
  cases h with
  | kept left =>
    cases h' with
    | kept left' => exact .kept (left'.trans left)
    | lost ahead => exact .lost (l := l) ahead
    | queued ahead single noReturn left' => exact .queued (l := l) ahead single noReturn left'
  | lost ahead =>
    cases h' with
    | kept left' =>
      rw [List.suffix_nil.1 left']
      exact .lost ahead
    | lost ahead' => cases ahead'
    | queued ahead' => cases ahead'
  | queued ahead single noReturn left =>
    cases h' with
    | kept left' => exact .queued ahead single noReturn (left'.trans left)
    | lost ahead' => cases ahead'
    | queued ahead' => cases ahead'

/-- **Any number of calls.** -/
theorem becomes_afterwards (b : Nat) (e : Fault) (calls : List Call) (l : Leftover) :
    l.Becomes b (afterwards (Call.onLeftover b e) calls l) := by
  induction calls generalizing l with
  | nil => exact .kept List.suffix_rfl
  | cons call calls ih => exact (becomes_onLeftover b e call l).trans (ih _)

/-- With nothing queued, the end of the data and the refusal of the stream are all that is told. -/
theorem replies_of_ended (b : Nat) (e : Fault) (place : Position) (calls : List Call) :
    replies (Call.onLeftover b e) calls ⟨[], place, .ended⟩ =
      calls.map fun call => if call = .atEnd then .flag true else .failed (.endOfData place) := by
  refine replies_of_stay (fun call => ?_) calls
  rfl

theorem replies_of_refused (b : Nat) (e : Fault) (place : Position) (calls : List Call) :
    replies (Call.onLeftover b e) calls ⟨[], place, .refused⟩ =
      calls.map fun _ => .failed (.fault e) := by
  refine replies_of_stay (fun call => ?_) calls
  rfl

/-- Asking for the end, any number of times, leaves the character that was looked at. -/
theorem ahead_of_atEnd (b : Nat) (e : Fault) (place : Position) (c : CodePoint) (n : Nat) :
    replies (Call.onLeftover b e) (List.replicate n .atEnd) ⟨[], place, .ahead c⟩ =
        List.replicate n (.flag false) ∧
      afterwards (Call.onLeftover b e) (List.replicate n .atEnd) ⟨[], place, .ahead c⟩ =
        ⟨[], place, .ahead c⟩ := by
  induction n with
  | zero => exact ⟨rfl, rfl⟩
  | succ n ih =>
    refine ⟨?_, ih.2⟩
    rw [List.replicate_succ, List.replicate_succ, ← ih.1]
    rfl

end Leftover

variable {σ : Type} [InputStream CodePoint σ] {p : PlacedChar} {queue : List PlacedChar}

/-! ### Sources that are refused -/

namespace Source

variable {s : Source σ} {c : CodePoint}

/-- What stands behind what was taken from a source. -/
def remainder (s : Source σ) : Remainder :=
  match s.lookahead with
  | c :: _ => .ahead c
  | [] => if s.exhausted then .ended else .refused

theorem pull_of_refuses (h : Refuses e s.stream) (hgoing : s.exhausted = false)
    (hn : n ≤ largestSize) : pull n s = .error e s := pull_of_fault hgoing (h.read hn)

/-- A source that is refused has nothing to show but its lookahead. -/
theorem peek_of_refuses (h : Refuses e s.stream) (hgoing : s.exhausted = false)
    (hahead : s.lookahead = []) : peek s = .error e s :=
  peek_of_pull_fault hahead (pull_of_refuses h hgoing (by decide))

/-- A block of one character can be made of the lookahead, but no longer one, and not if a line
feed has to be looked for. -/
theorem readBlock_of_refuses (h : Refuses e s.stream) (hgoing : s.exhausted = false)
    (hahead : s.lookahead = [c]) (hpos : 0 < b) (hb : b ≤ largestSize) :
    readBlock b s =
      if b = 1 ∧ c ≠ .carriageReturn then .ok [c] { s with lookahead := [] }
      else .error e { s with lookahead := [] } := by
  have hne : s.lookahead ≠ [] := by rw [hahead]; exact List.cons_ne_nil c []
  by_cases hone : b = 1
  · subst hone
    have hread : readUpTo 1 s = .ok [c] { s with lookahead := [] } := by
      rw [readUpTo_one_of_lookahead hne, hahead]
    by_cases hreturn : c = .carriageReturn
    · rw [if_neg fun hserved => hserved.2 hreturn]
      refine readBlock_of_peek_fault hread ?_ (peek_of_refuses h hgoing rfl)
      rw [hreturn]
      rfl
    · rw [if_pos ⟨rfl, hreturn⟩]
      exact readBlock_of_ne_return hread fun hlast => hreturn (Option.some.inj hlast)
  · -- More than the lookahead is wanted, so the stream is asked.
    rw [if_neg fun hserved => hone hserved.1]
    refine readBlock_of_fault ?_
    rw [readUpTo_of_lookahead hpos hne]
    have hpull : pull (b - 1) { s with lookahead := [] } = .error e { s with lookahead := [] } :=
      pull_of_refuses h hgoing (by omega)
    exact gather_of_pull_fault (by omega) hpull _

end Source

/-! ### One call -/

namespace Reader

variable {r r' : Reader σ}

/-- What a reader has left. -/
def leftover (r : Reader σ) : Leftover := ⟨r.queue, r.next, r.source.remainder⟩

/-- A reader with blocks of `b` characters that asks nothing of its stream but refusals.  It looks
at one character at most, and at none if the data has ended. -/
structure Shut (b : Nat) (e : Fault) (r : Reader σ) : Prop where
  refuses : Refuses e r.source.stream
  lookahead_le : r.source.lookahead.length ≤ 1
  ended : r.source.exhausted = true → r.source.lookahead = []
  blockSize : r.settings.blockSize = b
  blockSize_le : b ≤ largestSize

/-- With a character queued after taking in, every call that wants one finds it. -/
theorem onReader_of_precache (hcall : call ≠ .atEnd) (hprecache : precache r = .ok () r')
    (hqueue : r'.queue = p :: queue) :
    (call.onReader r).1 = (call.onQueued p { r'.leftover with queue }).1 ∧
      (call.onReader r).2.leftover = (call.onQueued p { r'.leftover with queue }).2 ∧
      (call.onReader r).2.source = r'.source ∧ (call.onReader r).2.settings = r'.settings := by
  have hleftover : r'.leftover = { r'.leftover with queue := p :: queue } := by
    rw [← hqueue]
    rfl
  cases call with
  | read =>
    rw [Call.onReader, read_of_precache hprecache hqueue]
    exact ⟨rfl, rfl, rfl, rfl⟩
  | peek =>
    rw [Call.onReader, peek_of_precache hprecache hqueue]
    exact ⟨rfl, hleftover, rfl, rfl⟩
  | precache =>
    rw [Call.onReader, hprecache]
    exact ⟨rfl, hleftover, rfl, rfl⟩
  | atEnd => exact absurd rfl hcall

/-- If taking in fails, so does every call that wants a character. -/
theorem onReader_of_precache_error {failure : ReadError} (hcall : call ≠ .atEnd)
    (hprecache : precache r = .error failure r') : call.onReader r = (.failed failure, r') := by
  cases call with
  | read => rw [Call.onReader, read_of_precache_error hprecache]; rfl
  | peek => rw [Call.onReader, peek_of_precache_error hprecache]; rfl
  | precache => rw [Call.onReader, hprecache]; rfl
  | atEnd => exact absurd rfl hcall

/-- A call has come to the same on a reader and on its leftover, and the reader's stream still
refuses. -/
structure RepliesAsLeft (b : Nat) (e : Fault) (r : Reader σ) (call : Call) : Prop where
  reply : (call.onReader r).1 = (call.onLeftover b e r.leftover).1
  leftover : (call.onReader r).2.leftover = (call.onLeftover b e r.leftover).2
  shut : (call.onReader r).2.Shut b e

omit [InputStream CodePoint σ] in
/-- What is left of a reader with nothing queued. -/
theorem leftover_of_queue_nil (hqueue : r.queue = []) :
    r.leftover = ⟨[], r.next, r.source.remainder⟩ := by
  rw [leftover, hqueue]

namespace Shut

/-- Only the stream, the lookahead, the end of the data and the settings matter here. -/
theorem of_same (h : r.Shut b e) (hstream : r'.source.stream = r.source.stream)
    (hahead : r'.source.lookahead = r.source.lookahead ∨ r'.source.lookahead = [])
    (hended : r'.source.exhausted = r.source.exhausted) (hsettings : r'.settings = r.settings) :
    r'.Shut b e := by
  refine ⟨?_, ?_, fun hover => ?_, ?_, h.blockSize_le⟩
  · rw [hstream]
    exact h.refuses
  · rcases hahead with hsame | hnil
    · rw [hsame]
      exact h.lookahead_le
    · rw [hnil]
      exact Nat.zero_le 1
  · rcases hahead with hsame | hnil
    · rw [hsame]
      exact h.ended (hended.symm.trans hover)
    · exact hnil
  · rw [hsettings]
    exact h.blockSize

/-- A call that changes neither the reader nor the leftover. -/
theorem repliesAsLeft_of_stay (h : r.Shut b e) (reply : Reply)
    (hreader : call.onReader r = (reply, r))
    (hleftover : call.onLeftover b e r.leftover = (reply, r.leftover)) :
    r.RepliesAsLeft b e call := by
  refine ⟨?_, ?_, ?_⟩
  · rw [hreader, hleftover]
  · rw [hreader, hleftover]
  · rw [hreader]
    exact h

/-- What is queued is served. -/
theorem repliesAsLeft_of_queue (h : r.Shut b e) (hqueue : r.queue = p :: queue) (call : Call) :
    r.RepliesAsLeft b e call := by
  have hleftover : r.leftover = { r.leftover with queue := p :: queue } := by
    rw [← hqueue]
    rfl
  have hcall : call.onLeftover b e r.leftover = call.onQueued p { r.leftover with queue } := by
    rw [hleftover, Call.onLeftover]
  by_cases hatEnd : call = .atEnd
  · subst hatEnd
    refine h.repliesAsLeft_of_stay (.flag false) ?_ ?_
    · rw [Call.onReader, atEnd_of_queue (by rw [hqueue]; exact List.cons_ne_nil p queue)]
      rfl
    · rw [hcall, Call.onQueued]
      exact congrArg _ hleftover.symm
  · obtain ⟨hreply, hleft, hsource, hsettings⟩ :=
      onReader_of_precache hatEnd (precache_of_queue_cons hqueue) hqueue
    refine ⟨?_, ?_, h.of_same ?_ (.inl ?_) ?_ hsettings⟩
    · rw [hreply, hcall]
    · rw [hleft, hcall]
    · rw [hsource]
    · rw [hsource]
    · rw [hsource]

/-- At the end of the data nothing changes any more. -/
theorem repliesAsLeft_of_ended (h : r.Shut b e) (hqueue : r.queue = [])
    (hended : r.source.exhausted = true) (call : Call) : r.RepliesAsLeft b e call := by
  have hahead : r.source.lookahead = [] := h.ended hended
  have hends : r.EndsAt r.next := Over.endsAt ⟨⟨hahead, hended⟩, hqueue, rfl⟩
  have hleftover : r.leftover = ⟨[], r.next, .ended⟩ := by
    rw [leftover_of_queue_nil hqueue, Source.remainder, hahead]
    simp only [hended, ↓reduceIte]
  refine h.repliesAsLeft_of_stay
    (if call = .atEnd then .flag true else .failed (.endOfData r.next)) ?_ ?_
  · by_cases hatEnd : call = .atEnd
    · rw [if_pos hatEnd, hatEnd, Call.onReader, hends.atEnd]
      rfl
    · rw [if_neg hatEnd, onReader_of_precache_error hatEnd hends.precache]
  · rw [hleftover]
    rfl

/-- With nothing left, the refusal of the stream is all there is to tell. -/
theorem repliesAsLeft_of_refused (h : r.Shut b e) (hqueue : r.queue = [])
    (hgoing : r.source.exhausted = false) (hahead : r.source.lookahead = []) (call : Call) :
    r.RepliesAsLeft b e call := by
  have hend : Source.atEnd r.source = .error e r.source :=
    Source.atEnd_of_peek_fault (Source.peek_of_refuses h.refuses hgoing hahead)
  have hleftover : r.leftover = ⟨[], r.next, .refused⟩ := by
    rw [leftover_of_queue_nil hqueue, Source.remainder, hahead]
    simp only [hgoing, Bool.false_eq_true, ↓reduceIte]
  refine h.repliesAsLeft_of_stay (.failed (.fault e)) ?_ ?_
  · by_cases hatEnd : call = .atEnd
    · rw [hatEnd, Call.onReader, atEnd_of_source_fault hqueue hend]
      rfl
    · exact onReader_of_precache_error hatEnd (precache_of_source_fault hqueue hend)
  · rw [hleftover]
    rfl

/-- The character that was looked at is served or lost, by the first call that wants one. -/
theorem repliesAsLeft_of_ahead (h : r.Shut b e) (hqueue : r.queue = []) {c : CodePoint}
    (hahead : r.source.lookahead = [c]) (call : Call) : r.RepliesAsLeft b e call := by
  have hne : r.source.lookahead ≠ [] := by rw [hahead]; exact List.cons_ne_nil c []
  have hgoing : r.source.exhausted = false := Bool.eq_false_iff.2 fun hended => hne (h.ended hended)
  have hend : Source.atEnd r.source = .ok false r.source := by
    rw [Source.atEnd_of_peek (Source.peek_of_lookahead hne), hahead]
    rfl
  have hleftover : r.leftover = ⟨[], r.next, .ahead c⟩ := by
    rw [leftover_of_queue_nil hqueue, Source.remainder, hahead]
  by_cases hatEnd : call = .atEnd
  · subst hatEnd
    refine h.repliesAsLeft_of_stay (.flag false) ?_ ?_
    · rw [Call.onReader, atEnd_of_source hqueue hend]
      rfl
    · rw [hleftover]
      rfl
  · have hsize : r.settings.blockSize = b := h.blockSize
    have hblock := Source.readBlock_of_refuses h.refuses hgoing hahead r.settings.blockSize_pos
      (hsize ▸ h.blockSize_le)
    have hprecache : precache r = refill r := precache_of_not_atEnd hqueue hend
    have hcall : call.onLeftover b e r.leftover =
        if r.settings.blockSize = 1 ∧ c ≠ .carriageReturn then
          call.onQueued (.single r.next c) ⟨[], r.next.after c none, .refused⟩
        else (.failed (.fault e), ⟨[], r.next, .refused⟩) := by
      rw [hleftover, Call.onLeftover, hsize]
      simp only [hatEnd, ↓reduceIte]
    -- What stands behind the queue once the character is taken from the source.
    have hrest : (if r.source.exhausted then Remainder.ended else .refused) = .refused := by
      rw [hgoing]
      rfl
    split at hblock
    · next hserved =>
      -- The block of this one character is queued.
      rw [refill_of_readBlock hblock] at hprecache
      obtain ⟨hreply, hleft, hsource, hsettings⟩ :=
        onReader_of_precache hatEnd hprecache (by rw [hqueue]; rfl)
      rw [if_pos hserved, ← hrest] at hcall
      refine ⟨?_, ?_, h.of_same ?_ (.inr ?_) ?_ hsettings⟩
      · rw [hreply, hcall]
        rfl
      · rw [hleft, hcall]
        rfl
      · rw [hsource]
      · rw [hsource]
      · rw [hsource]
    · next hlost =>
      rw [refill_of_readBlock_fault hblock] at hprecache
      have hreader := onReader_of_precache_error hatEnd hprecache
      rw [if_neg hlost, ← hrest, ← hqueue] at hcall
      refine ⟨?_, ?_, h.of_same ?_ (.inr ?_) ?_ ?_⟩
      · rw [hreader, hcall]
      · rw [hreader, hcall]
        rfl
      · rw [hreader]
      · rw [hreader]
      · rw [hreader]
      · rw [hreader]

/-- **One call.**  A reader whose stream refuses replies as its leftover does. -/
theorem repliesAsLeft (h : r.Shut b e) (call : Call) : r.RepliesAsLeft b e call := by
  cases hqueue : r.queue with
  | cons p queue => exact h.repliesAsLeft_of_queue hqueue call
  | nil =>
    cases hended : r.source.exhausted with
    | true => exact h.repliesAsLeft_of_ended hqueue hended call
    | false =>
      cases hahead : r.source.lookahead with
      | nil => exact h.repliesAsLeft_of_refused hqueue hended hahead call
      | cons c rest =>
        have hlength := h.lookahead_le
        rw [hahead, List.length_cons] at hlength
        obtain rfl : rest = [] := List.length_eq_zero_iff.1 (by omega)
        exact h.repliesAsLeft_of_ahead hqueue hahead call

end Shut

/-! ### Any number of calls -/

/-- Calls on a reader whose stream refuses come to the same as on its leftover. -/
theorem Shut.repliesAsLeft_calls (h : r.Shut b e) (calls : List Call) :
    replies Call.onReader calls r = replies (Call.onLeftover b e) calls r.leftover ∧
      (afterwards Call.onReader calls r).leftover =
        afterwards (Call.onLeftover b e) calls r.leftover ∧
      (afterwards Call.onReader calls r).Shut b e := by
  induction calls generalizing r with
  | nil => exact ⟨rfl, rfl, h⟩
  | cons call calls ih =>
    obtain ⟨hreply, hleftover, hshut⟩ := h.repliesAsLeft call
    obtain ⟨hreplies, hleftovers, hshuts⟩ := ih hshut
    rw [replies, replies, hreply, hreplies, hleftover]
    refine ⟨rfl, ?_, hshuts⟩
    rw [afterwards, afterwards, List.foldl_cons, List.foldl_cons, ← hleftover]
    exact hleftovers

end Reader

end PlacedText
