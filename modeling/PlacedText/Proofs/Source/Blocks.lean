import PlacedText.Journal
import PlacedText.Proofs.Source.Holding

/-!
# The blocks of a text

A text is taken in block by block: `n` characters, or all that are left, and one more where that
keeps a carriage return and the line feed after it together.  `blocks n t` are these blocks, and the
block of index `k` begins at the character of index `blockStart n t k`.

The blocks are cut out at `blockStart` (`getElem?_blocks`), and every cut between them is clean
(`cleanCut_blockStart`), so that the blocks can be placed one after the other.
-/

namespace PlacedText

variable {n k : Nat} {t block : Text}

/-- The blocks of a text. -/
def blocks (n : Nat) (t : Text) : List Text :=
  if _ : n = 0 ∨ t = [] then []
  else t.take (blockLength n t) :: blocks n (t.drop (blockLength n t))
termination_by t.length
decreasing_by
  have hstep : n ≤ blockLength n t := le_blockLength n t
  have hlength : t.length ≠ 0 := fun h => ‹¬(n = 0 ∨ t = [])› (.inr (List.length_eq_zero_iff.1 h))
  rw [List.length_drop]
  omega

/-- The index of the character with which the block of index `k` begins; behind the last block, the
length of the text. -/
def blockStart (n : Nat) (t : Text) (k : Nat) : Nat := ((blocks n t).take k).flatten.length

/-- What is noted when the blocks of a text are taken in. -/
def refillEvents (n : Nat) (t : Text) : List Event :=
  (blocks n t).mapIdx fun k block => .refill block.length (t.placeAt (blockStart n t k))

@[simp] theorem blocks_nil (n : Nat) : blocks n [] = [] := by
  rw [blocks, dif_pos (.inr rfl)]

theorem blocks_of_ne_nil (hn : 0 < n) (ht : t ≠ []) :
    blocks n t = t.take (blockLength n t) :: blocks n (t.drop (blockLength n t)) := by
  rw [blocks, dif_neg]
  rintro (hzero | hnil)
  · omega
  · exact ht hnil

/-- The blocks, one after the other, are the text. -/
theorem flatten_blocks (hn : 0 < n) (t : Text) : (blocks n t).flatten = t := by
  fun_induction blocks n t with
  | case1 t hstop =>
    obtain rfl : t = [] := hstop.resolve_left (Nat.pos_iff_ne_zero.1 hn)
    rfl
  | case2 t _ ih => rw [List.flatten_cons, ih, List.take_append_drop]

/-! ### Where the blocks begin -/

theorem blockStart_zero (n : Nat) (t : Text) : blockStart n t 0 = 0 := rfl

/-- The first blocks are the text up to where the next one begins. -/
theorem take_blockStart (hn : 0 < n) (t : Text) (k : Nat) :
    t.take (blockStart n t k) = ((blocks n t).take k).flatten := by
  have hsplit : ((blocks n t).take k).flatten ++ ((blocks n t).drop k).flatten = t := by
    rw [← List.flatten_append, List.take_append_drop, flatten_blocks hn]
  calc t.take (blockStart n t k)
      = (((blocks n t).take k).flatten ++ ((blocks n t).drop k).flatten).take
          (blockStart n t k) := by rw [hsplit]
    _ = ((blocks n t).take k).flatten := List.take_left' rfl

theorem drop_blockStart (hn : 0 < n) (t : Text) (k : Nat) :
    t.drop (blockStart n t k) = ((blocks n t).drop k).flatten := by
  have hsplit : t.take (blockStart n t k) ++ ((blocks n t).drop k).flatten = t := by
    rw [take_blockStart hn, ← List.flatten_append, List.take_append_drop, flatten_blocks hn]
  have hrest := hsplit.trans (List.take_append_drop (blockStart n t k) t).symm
  exact (List.append_cancel_left hrest).symm

theorem blockStart_le_length (hn : 0 < n) (t : Text) (k : Nat) : blockStart n t k ≤ t.length := by
  have hlength : (t.take (blockStart n t k)).length = blockStart n t k := by
    rw [take_blockStart hn, blockStart]
  rw [List.length_take] at hlength
  omega

/-- The first blocks and one more. -/
theorem take_blockStart_succ (hn : 0 < n) (h : (blocks n t)[k]? = some block) :
    t.take (blockStart n t (k + 1)) = t.take (blockStart n t k) ++ block := by
  rw [take_blockStart hn, take_blockStart hn, List.take_add_one, h, Option.toList_some,
    List.flatten_append, List.flatten_singleton]

/-- What is left begins with the next block. -/
theorem drop_blockStart_eq_append (hn : 0 < n) (h : (blocks n t)[k]? = some block) :
    t.drop (blockStart n t k) = block ++ t.drop (blockStart n t (k + 1)) := by
  obtain ⟨hk, hblock⟩ := List.getElem?_eq_some_iff.1 h
  rw [drop_blockStart hn, drop_blockStart hn, List.drop_eq_getElem_cons hk, hblock,
    List.flatten_cons]

/-- The blocks from one on are the blocks of what they make together. -/
theorem blocks_flatten_drop (hn : 0 < n) (t : Text) (k : Nat) :
    blocks n ((blocks n t).drop k).flatten = (blocks n t).drop k := by
  induction k generalizing t with
  | zero => rw [List.drop_zero, flatten_blocks hn]
  | succ k ih =>
    by_cases ht : t = []
    · rw [ht, blocks_nil, List.drop_nil, List.flatten_nil, blocks_nil]
    · rw [blocks_of_ne_nil hn ht, List.drop_succ_cons, ih]

/-- So they are those of the text from there on. -/
theorem drop_blocks (hn : 0 < n) (t : Text) (k : Nat) :
    (blocks n t).drop k = blocks n (t.drop (blockStart n t k)) := by
  rw [drop_blockStart hn, blocks_flatten_drop hn]

/-- **The next block** is what reading a block takes off the rest of the text, as long as there is
any. -/
theorem getElem?_blocks (hn : 0 < n) (t : Text) (k : Nat) :
    (blocks n t)[k]? =
      if t.drop (blockStart n t k) = [] then none
      else some ((t.drop (blockStart n t k)).take
        (blockLength n (t.drop (blockStart n t k)))) := by
  rw [← List.head?_drop, drop_blocks hn]
  split
  · next hnil => rw [hnil, blocks_nil, List.head?_nil]
  · next hne => rw [blocks_of_ne_nil hn hne, List.head?_cons]

/-- Behind a block, the text goes on where reading the block stops. -/
theorem drop_blockStart_succ (hn : 0 < n) (h : t.drop (blockStart n t k) ≠ []) :
    t.drop (blockStart n t (k + 1)) =
      (t.drop (blockStart n t k)).drop (blockLength n (t.drop (blockStart n t k))) := by
  have hrest := flatten_blocks hn
    ((t.drop (blockStart n t k)).drop (blockLength n (t.drop (blockStart n t k))))
  rw [drop_blockStart hn, ← List.drop_drop, drop_blocks hn, blocks_of_ne_nil hn h,
    List.drop_succ_cons, List.drop_zero, hrest]

/-- Every cut between blocks is clean. -/
theorem cleanCut_blockStart (hn : 0 < n) (t : Text) (k : Nat) :
    CleanCut (t.take (blockStart n t k)) (t.drop (blockStart n t k)) := by
  cases k with
  | zero =>
    rw [blockStart_zero, List.take_zero]
    intro hreturn
    cases hreturn
  | succ k =>
    by_cases hnil : t.drop (blockStart n t k) = []
    · -- There is no further block, so that nothing is left behind the cut either.
      have hlast : t.drop (blockStart n t (k + 1)) = [] := by
        rw [drop_blockStart hn, ← List.drop_drop, drop_blocks hn, hnil, blocks_nil, List.drop_nil,
          List.flatten_nil]
      rw [hlast]
      intro _ hfeed
      cases hfeed
    · have hblock := getElem?_blocks hn t k
      rw [if_neg hnil] at hblock
      have hcut := cleanCut_blockLength n (t.drop (blockStart n t k))
      rw [take_blockStart_succ hn hblock, drop_blockStart_succ hn hnil]
      exact hcut.append_left (take_blockLength_ne_nil hn hnil) _

/-! ### What is noted -/

@[simp] theorem length_refillEvents (n : Nat) (t : Text) :
    (refillEvents n t).length = (blocks n t).length := List.length_mapIdx

/-- One more block, one more event. -/
theorem take_refillEvents_succ (h : (blocks n t)[k]? = some block) :
    (refillEvents n t).take (k + 1) =
      (refillEvents n t).take k ++ [.refill block.length (t.placeAt (blockStart n t k))] := by
  rw [List.take_add_one, refillEvents, List.getElem?_mapIdx, h]
  rfl

end PlacedText
