import PlacedText.Proofs.Placed.Reference

/-!
# The lines of a text

A line is a run of characters other than carriage returns and line feeds together with the
terminator after it: a pair of carriage return and line feed, or one of them alone.  Only the last
line may be without a terminator.  `Splits t lines` says that `lines` are the lines of the text `t`;
every text has lines (`splits_splitLines`), and only one way to be split (`Splits.eq_splitLines`).

Inside a line nothing ends it (`Unbroken`), so its characters stand in one row, from the first
column on (`place_of_unbroken`).  The number of lines is told by the number of terminators
(`Splits.length_eq`).
-/

namespace PlacedText

namespace Text

/-- A text without carriage returns and line feeds. -/
def Plain (t : Text) : Prop := ∀ c ∈ t, c ≠ .carriageReturn ∧ c ≠ .lineFeed

/-- The terminator of a line in front of a text. -/
inductive Terminator : Text → Text → Prop where
  | pair (rest : Text) : Terminator [.carriageReturn, .lineFeed] rest
  | carriageReturn {rest : Text} (alone : rest.head? ≠ some .lineFeed) :
      Terminator [.carriageReturn] rest
  | lineFeed (rest : Text) : Terminator [.lineFeed] rest

/-- A line in front of a text. -/
inductive IsLine : Text → Text → Prop where
  | terminated {body ending rest : Text} (plain : Plain body)
      (terminator : Terminator ending rest) : IsLine (body ++ ending) rest
  | last {body : Text} (plain : Plain body) (ne_nil : body ≠ []) : IsLine body []

/-- The lines of a text. -/
inductive Splits : Text → List Text → Prop where
  | nil : Splits [] []
  | cons {line rest : Text} {lines : List Text} (first : IsLine line rest)
      (others : Splits rest lines) : Splits (line ++ rest) (line :: lines)

theorem Plain.of_cons {c : CodePoint} {t : Text} (h : Plain (c :: t)) : Plain t :=
  fun d hd => h d (List.mem_cons_of_mem c hd)

theorem Plain.cons {c : CodePoint} {t : Text} (h : Plain t) (hreturn : c ≠ .carriageReturn)
    (hfeed : c ≠ .lineFeed) : Plain (c :: t) := by
  intro d hd
  rcases List.mem_cons.1 hd with rfl | hd
  · exact ⟨hreturn, hfeed⟩
  · exact h d hd

theorem plain_nil : Plain [] := fun _ hd => absurd hd List.not_mem_nil

/-- A terminator by itself is a line. -/
theorem Terminator.isLine {ending rest : Text} (h : Terminator ending rest) : IsLine ending rest :=
  @IsLine.terminated [] ending rest plain_nil h

/-- No character of a plain text ends its line. -/
theorem Plain.endsLine {c : CodePoint} {t : Text} (h : Plain (c :: t)) (next : Option CodePoint) :
    Position.endsLine c next = false := by
  obtain ⟨hreturn, hfeed⟩ := h c List.mem_cons_self
  simp [Position.endsLine, hreturn, hfeed]

theorem endsLine_lineFeed (next : Option CodePoint) :
    Position.endsLine .lineFeed next = true := rfl

theorem endsLine_carriageReturn {next : Option CodePoint} :
    Position.endsLine .carriageReturn next = true ↔ next ≠ some .lineFeed := by
  simp [Position.endsLine, show CodePoint.carriageReturn ≠ .lineFeed by decide]

/-! ### Splitting -/

/-- The lines of a text, found from its end: a character that ends its line is a line by itself, and
any other one belongs to the line of the next character. -/
def splitLines : Text → List Text
  | [] => []
  | c :: t =>
    if Position.endsLine c t.head? then [c] :: splitLines t
    else
      match splitLines t with
      | [] => [[c]]
      | line :: lines => (c :: line) :: lines

theorem splitLines_of_endsLine {c : CodePoint} {t : Text} (h : Position.endsLine c t.head? = true) :
    splitLines (c :: t) = [c] :: splitLines t := if_pos h

theorem splitLines_of_not_endsLine {c : CodePoint} {t line : Text} {lines : List Text}
    (h : Position.endsLine c t.head? = false) (ht : splitLines t = line :: lines) :
    splitLines (c :: t) = (c :: line) :: lines := by
  rw [splitLines, if_neg (Bool.eq_false_iff.1 h), ht]

theorem splitLines_singleton (c : CodePoint) : splitLines [c] = [[c]] := by
  unfold splitLines
  split <;> rfl

/-- A line in front of a text is the first of its lines. -/
theorem IsLine.splitLines_append {line rest : Text} (h : IsLine line rest) :
    splitLines (line ++ rest) = line :: splitLines rest := by
  cases h with
  | @terminated body ending rest plain terminator =>
    induction body with
    | nil =>
      cases terminator with
      | pair =>
        -- The carriage return does not end its line, and joins the line of the line feed.
        exact splitLines_of_not_endsLine rfl (splitLines_of_endsLine (endsLine_lineFeed _))
      | carriageReturn alone => exact splitLines_of_endsLine (endsLine_carriageReturn.2 alone)
      | lineFeed => exact splitLines_of_endsLine (endsLine_lineFeed _)
    | cons c body ih => exact splitLines_of_not_endsLine (plain.endsLine _) (ih plain.of_cons)
  | last plain ne_nil =>
    rw [List.append_nil]
    induction line with
    | nil => exact absurd rfl ne_nil
    | cons c line ih =>
      cases line with
      | nil => exact splitLines_singleton c
      | cons d line =>
        exact splitLines_of_not_endsLine (plain.endsLine _)
          (ih plain.of_cons (List.cons_ne_nil d line))

/-- A text can be split in one way only. -/
theorem Splits.eq_splitLines {t : Text} {lines : List Text} (h : Splits t lines) :
    lines = splitLines t := by
  induction h with
  | nil => rfl
  | cons first _ ih => rw [first.splitLines_append, ← ih]

/-- A character in front of a line belongs to it, unless it ends a line itself. -/
theorem IsLine.cons {c : CodePoint} {line rest : Text} (h : IsLine line rest)
    (hc : Position.endsLine c (line ++ rest).head? = false) : IsLine (c :: line) rest := by
  have hfeed : c ≠ .lineFeed := by
    rintro rfl
    cases hc
  by_cases hreturn : c = .carriageReturn
  · -- The carriage return makes a pair with the line feed that the line begins with.
    subst hreturn
    have hhead : (line ++ rest).head? = some .lineFeed := by
      apply Decidable.byContradiction
      intro hne
      rw [endsLine_carriageReturn.2 hne] at hc
      cases hc
    cases h with
    | @terminated body ending rest plain terminator =>
      cases body with
      | cons d body => exact absurd (Option.some.inj hhead) (plain d List.mem_cons_self).2
      | nil =>
        cases terminator with
        | pair => cases hhead
        | carriageReturn => cases hhead
        | lineFeed => exact (Terminator.pair rest).isLine
    | last plain ne_nil =>
      cases line with
      | nil => exact absurd rfl ne_nil
      | cons d line => exact absurd (Option.some.inj hhead) (plain d List.mem_cons_self).2
  · cases h with
    | terminated plain terminator => exact .terminated (plain.cons hreturn hfeed) terminator
    | last plain => exact .last (plain.cons hreturn hfeed) (List.cons_ne_nil _ _)

/-- Every text is split into lines. -/
theorem splits_splitLines (t : Text) : Splits t (splitLines t) := by
  induction t with
  | nil => exact .nil
  | cons c t ih =>
    cases hc : Position.endsLine c t.head? with
    | true =>
      rw [splitLines_of_endsLine hc]
      refine @Splits.cons [c] t _ ?_ ih
      -- The character is a terminator by itself; which one is told by its value.
      by_cases hfeed : c = .lineFeed
      · subst hfeed
        exact (Terminator.lineFeed t).isLine
      · have hreturn : c = .carriageReturn := by
          apply Decidable.byContradiction
          intro hne
          simp [Position.endsLine, hfeed, hne] at hc
        subst hreturn
        exact (Terminator.carriageReturn (endsLine_carriageReturn.1 hc)).isLine
    | false =>
      generalize hlines : splitLines t = lines at ih
      cases ih with
      | nil =>
        -- A last line of one character, which ends no line.
        have hplain : Plain [c] := by
          intro d hd
          rw [List.mem_singleton] at hd
          subst hd
          constructor
          · rintro rfl
            cases hc
          · rintro rfl
            cases hc
        rw [splitLines_singleton]
        exact .cons (.last hplain (List.cons_ne_nil c [])) .nil
      | @cons line rest lines first others =>
        rw [splitLines_of_not_endsLine hc hlines]
        exact .cons (first.cons hc) others

/-- The lines of a text, one after the other, are the text. -/
theorem Splits.flatten_eq {t : Text} {lines : List Text} (h : Splits t lines) :
    lines.flatten = t := by
  induction h with
  | nil => rfl
  | cons _ _ ih => rw [List.flatten_cons, ih]

theorem IsLine.ne_nil {line rest : Text} (h : IsLine line rest) : line ≠ [] := by
  cases h with
  | terminated _ terminator =>
    intro hnil
    rw [(List.append_eq_nil_iff.1 hnil).2] at terminator
    cases terminator
  | last _ ne_nil => exact ne_nil

/-! ### Counting lines -/

/-- The number of terminators in a text.  The two characters of a pair count once, at the line
feed. -/
def terminatorCount : Text → Nat
  | [] => 0
  | c :: t => (if Position.endsLine c t.head? then 1 else 0) + terminatorCount t

/-- A text whose last line has a terminator. -/
def EndsTerminated (t : Text) : Prop :=
  t.getLast? = some .carriageReturn ∨ t.getLast? = some .lineFeed

instance (t : Text) : Decidable (EndsTerminated t) :=
  inferInstanceAs (Decidable (t.getLast? = _ ∨ t.getLast? = _))

theorem Plain.terminatorCount_append {body : Text} (h : Plain body) (t : Text) :
    terminatorCount (body ++ t) = terminatorCount t := by
  induction body with
  | nil => rfl
  | cons c body ih =>
    rw [List.cons_append, terminatorCount, if_neg (Bool.eq_false_iff.1 (h.endsLine _)),
      ih h.of_cons, Nat.zero_add]

theorem Terminator.terminatorCount_append {ending rest : Text} (h : Terminator ending rest) :
    terminatorCount (ending ++ rest) = 1 + terminatorCount rest := by
  cases h with
  | pair =>
    show 0 + (1 + terminatorCount rest) = _
    rw [Nat.zero_add]
  | carriageReturn alone =>
    rw [List.singleton_append, terminatorCount, if_pos (endsLine_carriageReturn.2 alone)]
  | lineFeed => rfl

theorem Plain.not_endsTerminated {t : Text} (h : Plain t) : ¬EndsTerminated t := by
  rintro (hlast | hlast)
  · exact (h _ (List.mem_of_getLast? hlast)).1 rfl
  · exact (h _ (List.mem_of_getLast? hlast)).2 rfl

theorem Terminator.endsTerminated {ending rest : Text} (h : Terminator ending rest) (body : Text) :
    EndsTerminated (body ++ ending) := by
  unfold EndsTerminated
  rw [List.getLast?_append]
  cases h with
  | pair => exact .inr rfl
  | carriageReturn => exact .inl rfl
  | lineFeed => exact .inr rfl

/-- There are as many lines as terminators, and one more if the last line has none. -/
theorem Splits.length_eq {t : Text} {lines : List Text} (h : Splits t lines) :
    lines.length = terminatorCount t + if t = [] ∨ EndsTerminated t then 0 else 1 := by
  induction h with
  | nil => rfl
  | @cons line rest lines first others ih =>
    have hne : line ++ rest ≠ [] := fun hnil => first.ne_nil (List.append_eq_nil_iff.1 hnil).1
    rw [List.length_cons, ih]
    cases first with
    | last plain ne_nil =>
      rw [List.append_nil] at hne ⊢
      have hcount : terminatorCount line = 0 := by
        have h := plain.terminatorCount_append []
        rwa [List.append_nil] at h
      have hlast : ¬(line = [] ∨ EndsTerminated line) :=
        fun h => h.elim ne_nil plain.not_endsTerminated
      rw [hcount, if_pos (.inl rfl), if_neg hlast]
      rfl
    | @terminated body ending _ plain terminator =>
      have hcount : terminatorCount (body ++ ending ++ rest) = 1 + terminatorCount rest := by
        rw [List.append_assoc, plain.terminatorCount_append, terminator.terminatorCount_append]
      -- Whether there is one line more is told by the last line, which the rest keeps.
      have hlast : (body ++ ending ++ rest = [] ∨ EndsTerminated (body ++ ending ++ rest)) ↔
          (rest = [] ∨ EndsTerminated rest) := by
        cases rest with
        | nil =>
          rw [List.append_nil]
          exact iff_of_true (.inr (terminator.endsTerminated body)) (.inl rfl)
        | cons d rest =>
          have hsome := List.getLast?_eq_some_getLast (List.cons_ne_nil d rest)
          simp only [hne, false_or, List.cons_ne_nil, EndsTerminated]
          rw [List.getLast?_append, hsome, Option.some_or]
      simp only [hlast, hcount]
      omega

/-! ### Where a line stands -/

/-- A text in which no character but the last may end its line. -/
def Unbroken : Text → Prop
  | [] => True
  | [_] => True
  | c :: d :: t => Position.endsLine c (some d) = false ∧ Unbroken (d :: t)

theorem Plain.unbroken_append {body t : Text} (h : Plain body) (ht : Unbroken t) :
    Unbroken (body ++ t) := by
  induction body with
  | nil => exact ht
  | cons c body ih =>
    have hrest := ih h.of_cons
    rw [List.cons_append]
    -- `Unbroken` looks at two characters at a time, so it has to be known what comes next.
    cases hbody : body ++ t with
    | nil => trivial
    | cons d rest =>
      rw [hbody] at hrest
      exact ⟨h.endsLine _, hrest⟩

theorem IsLine.unbroken {line rest : Text} (h : IsLine line rest) : Unbroken line := by
  cases h with
  | terminated plain terminator =>
    refine plain.unbroken_append ?_
    cases terminator with
    | pair => exact ⟨rfl, trivial⟩
    | carriageReturn => trivial
    | lineFeed => trivial
  | last plain =>
    rw [← List.append_nil line]
    exact plain.unbroken_append trivial

theorem Splits.unbroken {t : Text} {lines : List Text} (h : Splits t lines) :
    ∀ line ∈ lines, Unbroken line := by
  induction h with
  | nil => exact fun line hline => absurd hline List.not_mem_nil
  | cons first _ ih =>
    intro line hline
    rcases List.mem_cons.1 hline with rfl | hline
    · exact first.unbroken
    · exact ih line hline

/-- The end of a line is a clean cut. -/
theorem IsLine.cleanCut {line rest : Text} (h : IsLine line rest) : CleanCut line rest := by
  cases h with
  | @terminated body ending _ plain terminator =>
    unfold CleanCut
    rw [List.getLast?_append]
    cases terminator with
    | pair => intro hreturn; cases hreturn
    | carriageReturn alone => exact fun _ => alone
    | lineFeed => intro hreturn; cases hreturn
  | last => intro _ hfeed; cases hfeed

end Text

open Text

/-- The characters of an unbroken text stand in one row. -/
theorem place_of_unbroken {t : Text} (h : Unbroken t) (p : Position) {k : Nat} {c : PlacedChar}
    (hk : (place p t).1[k]? = some c) : c.place = ⟨p.line, p.column + k⟩ := by
  induction t generalizing p k with
  | nil => cases hk
  | cons d t ih =>
    rw [place_cons] at hk
    cases k with
    | zero =>
      cases hk
      show p = _
      rw [Int.natCast_zero, Int.add_zero]
    | succ k =>
      cases t with
      | nil => cases hk
      | cons d' t =>
        have hright : p.after d (some d') = p.right := by
          rw [Position.after, if_neg (Bool.eq_false_iff.1 h.1)]
        rw [List.head?_cons, hright] at hk
        rw [ih h.2 p.right hk, Int.natCast_succ, Int.add_comm (k : Int), ← Int.add_assoc]
        rfl

/-- Behind a line with a terminator, the next line begins. -/
theorem place_snd_of_terminated {body ending rest : Text} (h : Plain body)
    (hend : Terminator ending rest) (p : Position) : (place p (body ++ ending)).2 = p.nextLine := by
  induction body generalizing p with
  | nil =>
    cases hend with
    | pair => rfl
    | carriageReturn => rfl
    | lineFeed => rfl
  | cons c body ih =>
    have hright : p.after c (body ++ ending).head? = p.right := by
      rw [Position.after, if_neg (Bool.eq_false_iff.1 (h.endsLine _))]
    rw [List.cons_append, place_cons, hright, ih h.of_cons]
    rfl

end PlacedText
