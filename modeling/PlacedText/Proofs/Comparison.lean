import Mathlib.Data.List.Forall2
import PlacedText.Comparison

/-!
# Equality of values

Two values are compared by asking the first one, then the second one, and then whether they are the
very same object; a value gives no answer about kinds that it does not know (`Value.ownEqual`).
Equality as defined is what this comes to (`Value.same_eq_asked`), and equal values have the same
key (`Value.key?_eq_of_same`).

A placed character and a placed string know plain text, but not each other.  So equality is not
transitive (`not_same_trans`): a plain text can stand between a character and a string that equal
it.  The main statement, `same_equivalence_but_divided`, says that this is the only way in which
equality falls short of an equivalence, on values of all kinds and on lists of them.
-/

namespace PlacedText

namespace Value

/-! ### Asking both sides -/

/-- What a value answers about another one, unless it does not know that one's kind. -/
def ownEqual : Value → Value → Option Bool
  | .char c, .char d => some (c.value = d.value)
  | .char c, .text t => some (c.value = t)
  | .string s, .string u => some (s.toText = u.toText)
  | .string s, .text t => some (s.toText = t)
  | .text t, .text u => some (t = u)
  | .position p, .position q => some (p = q)
  | .span s, .span u => some (s = u)
  | .number m, .number n => some (m = n)
  | .null, .null => some true
  | .items vs, .items ws => some (sameItems vs ws)
  | _, _ => none

/-- Equality asks the first value, then the second one, and falls back on identity. -/
theorem same_eq_asked (a b : Value) {identical : Bool} (h : identical = true → a = b) :
    a.same b = ((a.ownEqual b).or (b.ownEqual a)).getD identical := by
  have hdistinct : a ≠ b → identical = false := fun hne => Bool.eq_false_iff.2 fun hi => hne (h hi)
  cases a <;> cases b <;> first
    | rfl
    | exact (hdistinct nofun).symm
    | exact decide_eq_decide.2 eq_comm

/-! ### How values can be equal -/

/-- The ways in which two values can be equal. -/
inductive Alike : Value → Value → Prop where
  | chars {c d : PlacedChar} (same : c.value = d.value) : Alike (.char c) (.char d)
  | charText {c : PlacedChar} {t : Text} (same : c.value = t) : Alike (.char c) (.text t)
  | textChar {t : Text} {c : PlacedChar} (same : t = c.value) : Alike (.text t) (.char c)
  | strings {s u : PlacedString} (same : s.toText = u.toText) : Alike (.string s) (.string u)
  | stringText {s : PlacedString} {t : Text} (same : s.toText = t) : Alike (.string s) (.text t)
  | textString {t : Text} {s : PlacedString} (same : t = s.toText) : Alike (.text t) (.string s)
  | text (t : Text) : Alike (.text t) (.text t)
  | position (p : Position) : Alike (.position p) (.position p)
  | span (s : Span) : Alike (.span s) (.span s)
  | number (n : Int) : Alike (.number n) (.number n)
  | null : Alike .null .null
  | items {vs ws : List Value} (length : vs.length = ws.length)
      (each : ∀ i (hv : i < vs.length) (hw : i < ws.length), vs[i].same ws[i] = true) :
      Alike (.items vs) (.items ws)

/-- Lists are equal if they are equally long and their items are equal, one by one. -/
theorem sameItems_iff {vs ws : List Value} :
    sameItems vs ws = true ↔ vs.length = ws.length ∧
      ∀ i (hv : i < vs.length) (hw : i < ws.length), vs[i].same ws[i] = true := by
  have hforall : sameItems vs ws = true ↔ List.Forall₂ (fun v w => v.same w = true) vs ws := by
    induction vs generalizing ws with
    | nil => cases ws <;> simp [sameItems]
    | cons v vs ih => cases ws <;> simp [sameItems, ih]
  rw [hforall, List.forall₂_iff_get]
  rfl

theorem alike_of_same {a b : Value} (h : a.same b = true) : Alike a b := by
  unfold same at h
  split at h
  · exact .chars (of_decide_eq_true h)
  · exact .charText (of_decide_eq_true h)
  · exact .textChar (of_decide_eq_true h)
  · exact .strings (of_decide_eq_true h)
  · exact .stringText (of_decide_eq_true h)
  · exact .textString (of_decide_eq_true h)
  · obtain rfl := of_decide_eq_true h
    exact .text _
  · obtain rfl := of_decide_eq_true h
    exact .position _
  · obtain rfl := of_decide_eq_true h
    exact .span _
  · obtain rfl := of_decide_eq_true h
    exact .number _
  · exact .null
  · obtain ⟨hlength, heach⟩ := sameItems_iff.1 h
    exact .items hlength heach
  · cases h

theorem Alike.same {a b : Value} (h : Alike a b) : a.same b = true := by
  cases h with
  | chars h => exact decide_eq_true h
  | charText h => exact decide_eq_true h
  | textChar h => exact decide_eq_true h
  | strings h => exact decide_eq_true h
  | stringText h => exact decide_eq_true h
  | textString h => exact decide_eq_true h
  | text t => exact decide_eq_true rfl
  | position p => exact decide_eq_true rfl
  | span s => exact decide_eq_true rfl
  | number n => exact decide_eq_true rfl
  | null => rfl
  | items hlength heach => exact sameItems_iff.2 ⟨hlength, heach⟩

/-- Equal values have the same key, or are both none. -/
theorem key?_eq_of_same {a b : Value} (h : a.same b = true) : a.key? = b.key? := by
  cases alike_of_same h with
  | chars heq => exact congrArg (some ∘ Key.text) heq
  | charText heq => exact congrArg (some ∘ Key.text) heq
  | textChar heq => exact congrArg (some ∘ Key.text) heq
  | strings heq => exact congrArg (some ∘ Key.text) heq
  | stringText heq => exact congrArg (some ∘ Key.text) heq
  | textString heq => exact congrArg (some ∘ Key.text) heq
  | text | position | span | number | null | items => rfl

/-! ### Induction through lists -/

/-- What holds of values that are no lists, and of a list if it holds of its items, holds of all
values. -/
theorem induction_items {P : Value → Prop} (plain : ∀ v, (∀ vs, v ≠ .items vs) → P v)
    (items : ∀ vs, (∀ v ∈ vs, P v) → P (.items vs)) : ∀ v, P v
  | .items vs => items vs fun v _ => induction_items plain items v
  | .char _ => plain _ nofun
  | .string _ => plain _ nofun
  | .text _ => plain _ nofun
  | .position _ => plain _ nofun
  | .span _ => plain _ nofun
  | .number _ => plain _ nofun
  | .null => plain _ nofun
termination_by v => sizeOf v
decreasing_by
  have := List.sizeOf_lt_of_mem ‹v ∈ vs›
  simp only [Value.items.sizeOf_spec]
  omega

/-- **Reflexivity.** -/
theorem same_refl (v : Value) : v.same v = true := by
  induction v using induction_items with
  | plain v hv =>
    cases v with
    | items vs => exact absurd rfl (hv vs)
    | char c => exact (Alike.chars rfl).same
    | string s => exact (Alike.strings rfl).same
    | text t => exact (Alike.text t).same
    | position p => exact (Alike.position p).same
    | span s => exact (Alike.span s).same
    | number n => exact (Alike.number n).same
    | null => rfl
  | items vs ih => exact (Alike.items rfl fun i hv _ => ih vs[i] (List.getElem_mem hv)).same

/-- Equality goes both ways. -/
theorem same_symm {a b : Value} (h : a.same b = true) : b.same a = true := by
  induction a using induction_items generalizing b with
  | plain a ha =>
    cases alike_of_same h with
    | items => exact absurd rfl (ha _)
    | chars heq => exact (Alike.chars heq.symm).same
    | charText heq => exact (Alike.textChar heq.symm).same
    | textChar heq => exact (Alike.charText heq.symm).same
    | strings heq => exact (Alike.strings heq.symm).same
    | stringText heq => exact (Alike.textString heq.symm).same
    | textString heq => exact (Alike.stringText heq.symm).same
    | text | position | span | number | null => exact h
  | items vs ih =>
    cases alike_of_same h with
    | items hlength heach =>
      exact (Alike.items hlength.symm fun i hw hv =>
        ih _ (List.getElem_mem hv) (heach i hv hw)).same

/-- **Symmetry.** -/
theorem same_comm (a b : Value) : a.same b = b.same a :=
  Bool.eq_iff_iff.2 ⟨same_symm, same_symm⟩

/-! ### Transitivity -/

/-- A plain text stands between a placed character and a placed string, or does so at some place of
three lists. -/
inductive Divided : Value → Value → Value → Prop where
  | charString (c : PlacedChar) (t : Text) (s : PlacedString) :
      Divided (.char c) (.text t) (.string s)
  | stringChar (s : PlacedString) (t : Text) (c : PlacedChar) :
      Divided (.string s) (.text t) (.char c)
  | items {us vs ws : List Value} (i : Nat) (hu : i < us.length) (hv : i < vs.length)
      (hw : i < ws.length) (divided : Divided us[i] vs[i] ws[i]) :
      Divided (.items us) (.items vs) (.items ws)

theorem not_divided_strings (s u : PlacedString) (t : Text) :
    ¬Divided (.string s) (.text t) (.string u) := nofun

/-- Of values that are equal one after the other, the outer two are equal unless they are
divided. -/
theorem same_iff_not_divided {a b c : Value} (hab : a.same b = true) (hbc : b.same c = true) :
    a.same c = true ↔ ¬Divided a b c := by
  induction a using induction_items generalizing b c with
  | plain a ha =>
    cases alike_of_same hab with
    | items => exact absurd rfl (ha _)
    | chars heq =>
      cases alike_of_same hbc with
      | chars heq' => exact iff_of_true (Alike.chars (heq.trans heq')).same nofun
      | charText heq' => exact iff_of_true (Alike.charText (heq.trans heq')).same nofun
    | charText heq =>
      cases alike_of_same hbc with
      | textChar heq' => exact iff_of_true (Alike.chars (heq.trans heq')).same nofun
      | textString heq' =>
        -- The character does not know the string.
        exact iff_of_false nofun fun hnot => hnot (.charString _ _ _)
      | text => exact iff_of_true hab nofun
    | textChar heq =>
      cases alike_of_same hbc with
      | chars heq' => exact iff_of_true (Alike.textChar (heq.trans heq')).same nofun
      | charText heq' =>
        obtain rfl := heq.trans heq'
        exact iff_of_true (Alike.text _).same nofun
    | strings heq =>
      cases alike_of_same hbc with
      | strings heq' => exact iff_of_true (Alike.strings (heq.trans heq')).same nofun
      | stringText heq' => exact iff_of_true (Alike.stringText (heq.trans heq')).same nofun
    | stringText heq =>
      cases alike_of_same hbc with
      | textString heq' =>
        exact iff_of_true (Alike.strings (heq.trans heq')).same (not_divided_strings _ _ _)
      | textChar heq' =>
        -- The string does not know the character.
        exact iff_of_false nofun fun hnot => hnot (.stringChar _ _ _)
      | text => exact iff_of_true hab nofun
    | textString heq =>
      cases alike_of_same hbc with
      | strings heq' => exact iff_of_true (Alike.textString (heq.trans heq')).same nofun
      | stringText heq' =>
        obtain rfl := heq.trans heq'
        exact iff_of_true (Alike.text _).same nofun
    | text t =>
      cases alike_of_same hbc with
      | textChar | textString | text => exact iff_of_true hbc nofun
    | position p =>
      cases alike_of_same hbc with
      | position => exact iff_of_true hbc nofun
    | span s =>
      cases alike_of_same hbc with
      | span => exact iff_of_true hbc nofun
    | number n =>
      cases alike_of_same hbc with
      | number => exact iff_of_true hbc nofun
    | null =>
      cases alike_of_same hbc with
      | null => exact iff_of_true hbc nofun
  | items us ih =>
    cases alike_of_same hab with
    | @items _ vs hlength heach =>
      cases alike_of_same hbc with
      | @items _ ws hlength' heach' =>
        have hitem : ∀ i (hu : i < us.length) (hv : i < vs.length) (hw : i < ws.length),
            us[i].same ws[i] = true ↔ ¬Divided us[i] vs[i] ws[i] := fun i hu hv hw =>
          ih us[i] (List.getElem_mem hu) (heach i hu hv) (heach' i hv hw)
        constructor
        · intro hsame hdivided
          obtain ⟨-, heach''⟩ := sameItems_iff.1 hsame
          cases hdivided with
          | items i hu hv hw hdivided => exact (hitem i hu hv hw).1 (heach'' i hu hw) hdivided
        · intro hnot
          refine (Alike.items (hlength.trans hlength') fun i hu hw => ?_).same
          have hv : i < vs.length := hlength ▸ hu
          exact (hitem i hu hv hw).2 fun hdivided => hnot (.items i hu hv hw hdivided)

end Value

/-- **Not transitive.**  The plain text `a` equals the character `a` and the string `a`, and these
do not equal each other. -/
theorem not_same_trans :
    let c : Value := .char (.single .start (.ofChar 'a'))
    let t : Value := .text (text "a")
    let s : Value := .string ⟨[.single .start (.ofChar 'a')], by decide⟩
    (c.same t = true ∧ t.same s = true ∧ c.same s = false) ∧
      ¬∀ a b c : Value, a.same b = true → b.same c = true → a.same c = true := by
  intro c t s
  have hsame : c.same t = true ∧ t.same s = true ∧ c.same s = false := by decide
  refine ⟨hsame, fun htrans => ?_⟩
  obtain ⟨hct, hts, hcs⟩ := hsame
  rw [htrans c t s hct hts] at hcs
  cases hcs

/-- **An equivalence but for divided values.**  Equality is what asking both sides comes to.  It is
reflexive and symmetric.  Of three values of which the first equals the second and the second the
third, the outer two are equal, unless a plain text stands between a placed character and a placed
string, or does so at some place of three lists; and then they are not. -/
theorem same_equivalence_but_divided :
    (∀ (a b : Value) (identical : Bool), (identical = true → a = b) →
      a.same b = ((a.ownEqual b).or (b.ownEqual a)).getD identical) ∧
    (∀ a : Value, a.same a = true) ∧
    (∀ a b : Value, a.same b = b.same a) ∧
    ∀ a b c : Value, a.same b = true → b.same c = true → (a.same c = true ↔ ¬a.Divided b c) :=
  ⟨fun a b _ => Value.same_eq_asked a b, Value.same_refl, Value.same_comm,
    fun _ _ _ => Value.same_iff_not_divided⟩

/-- Two lists of which one has a character where the other has a string, both equal to a third one
that has the plain text there; and texts of several characters, cut differently. -/
theorem same_equivalence_but_divided_lists :
    let c : PlacedChar := .single .start (.ofChar 'a')
    let us : Value := .items [.number 1, .items [.char c]]
    let vs : Value := .items [.number 1, .items [.text (text "a")]]
    let ws : Value := .items [.number 1, .items [.string ⟨[c], by decide⟩]]
    let whole : Value := .string ⟨[⟨.start, text "a\r\n"⟩], by decide⟩
    let cut : Value := .string ⟨[c, ⟨.start, text "\r\n"⟩], by decide⟩
    (us.same vs = true ∧ vs.same ws = true ∧ us.Divided vs ws ∧ us.same ws = false) ∧
      (whole.same (.text (text "a\r\n")) = true ∧ (Value.text (text "a\r\n")).same cut = true ∧
        whole.same cut = true) ∧
      us.same ws = ((us.ownEqual ws).or (ws.ownEqual us)).getD false := by
  intro c us vs ws whole cut
  obtain ⟨hasked, -, -, hdivided⟩ := same_equivalence_but_divided
  have huv : us.same vs = true := by decide
  have hvw : vs.same ws = true := by decide
  have hapart : us.Divided vs ws :=
    .items 1 (by decide) (by decide) (by decide)
      (.items 0 (by decide) (by decide) (by decide) (.charString _ _ _))
  have hwhole : whole.same (.text (text "a\r\n")) = true := by decide
  have hcut : (Value.text (text "a\r\n")).same cut = true := by decide
  refine ⟨⟨huv, hvw, hapart, ?_⟩, ⟨hwhole, hcut, ?_⟩, hasked us ws false nofun⟩
  · exact Bool.eq_false_iff.2 fun hsame => (hdivided us vs ws huv hvw).1 hsame hapart
  · exact (hdivided whole _ cut hwhole hcut).2 (Value.not_divided_strings _ _ _)

end PlacedText
