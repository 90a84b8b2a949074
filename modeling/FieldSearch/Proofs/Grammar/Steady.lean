/-
Readers that read the same from two places, of which the second has blanks behind what is left.

- `Alike P r s`: nothing was read twice, or twice the same, up to places that `P` relates. `Steady P n read`: from places
  that `P` relates, with less than `n` characters left at the first one, `read` reads alike.
- `chain_steady`, `leftChain_steady`: a repetition is steady if its step is. `readOperand_steady`: an operand is steady as far
  as its groups are steady for one character less. `steady_of_eq`: so a reader that calls itself for its groups is.
- `readJoiner_alike`, `blanksJoin_padded`: what stands between two operands is taken alike.
- `readAll_surrounded`: blanks around a text change nothing about the items that are read from it.
-/
import FieldSearch.Proofs.Grammar.Items
import FieldSearch.Proofs.Grammar.Operand
import FieldSearch.Proofs.Grammar.Padding

namespace FieldSearch

/-! ## Readers that read the same from both places -/

section Alike

variable {α β : Type} {P : Cursor → Cursor → Prop} {c d : Cursor}

/-- nothing was read twice, or twice the same, up to places that `P` relates -/
def Alike (P : Cursor → Cursor → Prop) (r s : Option (α × Cursor)) : Prop :=
  Option.Rel (fun p q => p.1 = q.1 ∧ P p.2 q.2) r s

/-- from places that `P` relates, with less than `n` characters left at the first one, `read` reads alike -/
def Steady (P : Cursor → Cursor → Prop) (n : ℕ) (read : Cursor → Reply α) : Prop :=
  ∀ c d, P c d → c.rest.length < n → Alike P (read c).value (read d).value

namespace Alike

theorem none : Alike P (none : Option (α × Cursor)) none := Option.Rel.none

theorem some (a : α) (h : P c d) : Alike P (some (a, c)) (some (a, d)) := Option.Rel.some ⟨rfl, h⟩

theorem cases {r s : Option (α × Cursor)} (h : Alike P r s) :
    (r = .none ∧ s = .none) ∨ ∃ a c d, r = .some (a, c) ∧ s = .some (a, d) ∧ P c d := by
  cases h with
  | none => exact Or.inl ⟨rfl, rfl⟩
  | @some p q hpq =>
    obtain ⟨a, c⟩ := p
    obtain ⟨b, d⟩ := q
    obtain ⟨rfl, hP⟩ := hpq
    exact Or.inr ⟨a, c, d, rfl, rfl, hP⟩

variable {r s : Reply α}

theorem map (f : α → β) (h : Alike P r.value s.value) : Alike P (r.map f).value (s.map f).value := by
  rw [Reply.value_map, Reply.value_map]
  rcases h.cases with ⟨hr, hs⟩ | ⟨a, c, d, hr, hs, hP⟩
  · rw [hr, hs]; exact .none
  · rw [hr, hs]; exact .some (f a) hP

theorem bind {Q : Cursor → Cursor → Prop} {next next' : α → Cursor → Reply β} (h : Alike P r.value s.value)
    (hnext : ∀ a c d, r.value = .some (a, c) → P c d → Alike Q (next a c).value (next' a d).value) :
    Alike Q (r.bind next).value (s.bind next').value := by
  rw [Reply.value_bind, Reply.value_bind]
  rcases h.cases with ⟨hr, hs⟩ | ⟨a, c, d, hr, hs, hP⟩
  · rw [hr, hs]; exact .none
  · rw [hs]
    have hboth := hnext a c d hr hP
    rw [hr]
    exact hboth

theorem orElse {other other' : Unit → Reply α} (h : Alike P r.value s.value)
    (hother : Alike P (other ()).value (other' ()).value) : Alike P (r.orElse other).value (s.orElse other').value := by
  rw [Reply.value_orElse, Reply.value_orElse]
  rcases h.cases with ⟨hr, hs⟩ | ⟨a, c, d, hr, hs, hP⟩
  · rw [hr, hs]; exact hother
  · rw [hr, hs]; exact .some a hP

theorem orNone (h : Alike P r.value s.value) (hcd : P c d) : Alike P (r.orNone c).value (s.orNone d).value := by
  rcases h.cases with ⟨hr, hs⟩ | ⟨a, c, d, hr, hs, hP⟩
  · rw [Reply.orNone_of_none hr, Reply.orNone_of_none hs]; exact .some _ hcd
  · rw [Reply.orNone_of_some hr, Reply.orNone_of_some hs]; exact .some _ hP

end Alike

variable {n : ℕ} {step : Cursor → Reply (Option β)}

/-- **A repetition is steady if its step is.** The induction is on what is left, of which each element takes some. -/
theorem chain_steady (hstep : Consumes step) (h : Steady P n step) : Steady P n (chain step) := by
  intro c
  induction hn : c.rest.length using Nat.strong_induction_on generalizing c with
  | _ m ih =>
    intro d hcd hlt
    rcases (h c d hcd (hn ▸ hlt)).cases with ⟨hc, hd⟩ | ⟨found, c', d', hc, hd, hP⟩
    · rw [chain_none hc, chain_none hd]
      exact .none
    · cases found with
      | none =>
        rw [chain_nil hc, chain_nil hd]
        exact .some [] hP
      | some b =>
        have hshort : c'.rest.length < m := hn ▸ (hstep c b c' hc).2
        rw [chain_cons hc (hn ▸ hshort), chain_cons hd (hstep d b d' hd).2]
        exact (ih _ hshort c' rfl d' hP (hshort.trans hlt)).map (b :: ·)

theorem leftChain_steady {operand : Cursor → Reply α} {join : α → β → α} (hop : Advances operand) (hstep : Consumes step)
    (hsteady : Steady P n operand) (h : Steady P n step) : Steady P n (leftChain operand step join) := by
  intro c d hcd hlt
  refine (hsteady c d hcd hlt).bind fun first c' d' hc hP => ?_
  exact (chain_steady hstep h c' d' hP ((hop c first c' hc).2.trans hlt)).map _

end Alike

/-! ## The readers that both grammars share -/

section Shared

open Cursor (Padded)

variable {α : Type} {c d : Cursor}

theorem Cursor.Padded.eatChar (h : Padded c d) {a : Char} (ha : isBlank a = false) :
    (c.eatChar a = none ∧ d.eatChar a = none) ∨ ∃ c' d', c.eatChar a = some c' ∧ d.eatChar a = some d' ∧ Padded c' d' := by
  have hpeek := h.peek ha
  unfold Cursor.eatChar
  by_cases hc : c.peek = some a
  · rw [if_pos hc, if_pos (hpeek.2 hc)]
    obtain ⟨r, hr⟩ := Cursor.peek_eq_some_iff.1 hc
    exact Or.inr ⟨c.bump, d.bump, rfl, rfl, h.bump (by rw [hr]; exact List.cons_ne_nil a r)⟩
  · rw [if_neg hc, if_neg fun hd => hc (hpeek.1 hd)]
    exact Or.inl ⟨rfl, rfl⟩

theorem quoted_alike (h : Padded c d) : Alike Padded c.quoted.value d.quoted.value := by
  unfold Cursor.quoted
  rcases h.eatChar (a := '"') (by decide) with ⟨hc, hd⟩ | ⟨c', d', hc, hd, h'⟩
  · rw [hc, hd]; exact .none
  · rw [hc, hd]
    obtain ⟨pad, hpad, hrest⟩ := h'.behind
    simp only [hrest, scanQuoted_pad hpad]
    cases hscan : Cursor.scanQuoted c'.rest with
    | none => exact .none
    | some p => exact .some _ (h'.advance (scanQuoted_length hscan))

theorem bareWord_alike (h : Padded c d) : Alike Padded c.bareWord d.bareWord := by
  have hspan : d.span isWordChar = c.span isWordChar := h.span fun a ha => by simp [isWordChar, ha]
  have hbehind := h.advance_span isWordChar
  have hcolon := hbehind.peek (a := ':') (by decide)
  obtain ⟨pad, hpad, hd⟩ := h.behind
  unfold Cursor.bareWord
  rw [hd]
  cases hc : c.rest with
  | nil =>
    cases pad with
    | nil => exact .none
    | cons a pad =>
      have ha : isWordStart a = false := by simp [isWordStart, isWordChar, hpad a List.mem_cons_self]
      simp only [List.nil_append, ha, Bool.false_and, Bool.false_eq_true, if_false]
      exact .none
  | cons a r =>
    have hsame : ((d.advance (c.span isWordChar).length).peek != some ':') =
        ((c.advance (c.span isWordChar).length).peek != some ':') := by
      rw [Bool.eq_iff_iff, bne_iff_ne, bne_iff_ne]
      exact not_congr hcolon
    simp only [List.cons_append, hspan, hsame]
    split_ifs
    · exact .some _ hbehind
    · exact .none

theorem nonBlank_alike (h : Padded c d) : Alike Padded c.nonBlank d.nonBlank := by
  have hspan : (d.span fun a => !isBlank a) = c.span fun a => !isBlank a := h.span fun a ha => by simp [ha]
  have hbehind := h.advance_span fun a => !isBlank a
  unfold Cursor.nonBlank
  rw [hspan]
  cases hrun : c.span fun a => !isBlank a with
  | nil => exact .none
  | cons a run =>
    rw [hrun] at hbehind
    exact .some _ hbehind

theorem readValue_alike (h : Padded c d) : Alike Padded (readValue c).value (readValue d).value :=
  (quoted_alike h).orElse (bareWord_alike h)

theorem readNegation_alike (h : Padded c d) : Alike Padded (readNegation c) (readNegation d) := by
  have hbang := h.startsWith (s := "!") (by decide)
  have hminus := h.startsWith (s := "-") (by decide)
  unfold readNegation
  rw [h.atKeyword (k := "NOT") (by decide), hbang, hminus]
  split_ifs with hk hb hm
  · rw [Cursor.atKeyword, Bool.and_eq_true] at hk
    exact .some "NOT" (h.advance_startsWith hk.1)
  · exact .some "!" (h.advance_startsWith hb)
  · exact .some "-" (h.advance_startsWith hm)
  · exact .none

theorem readNegated_alike (h : Padded c d) : Alike Padded (readNegated c).value (readNegated d).value := by
  have hgroup := h.skipBlanks.peek (a := '(') (by decide)
  unfold readNegated
  simp only [hgroup]
  split_ifs
  · exact .none
  · exact (readValue_alike h.skipBlanks).orElse .none

theorem closeGroup_alike (a : α) (h : Padded c d) : Alike Padded (closeGroup a c).value (closeGroup a d).value := by
  unfold closeGroup
  rcases h.skipBlanks.eatChar (a := ')') (by decide) with ⟨hc, hd⟩ | ⟨c', d', hc, hd, h'⟩
  · rw [hc, hd]; exact .none
  · rw [hc, hd]; exact .some a h'

/-- an operand is steady as far as its groups are steady for one character less -/
theorem readOperand_steady (forms : OperandForms α) {inner : Cursor → Reply α} {n : ℕ} (h : Steady Padded n inner) :
    Steady Padded (n + 1) (readOperand forms inner) := by
  intro c d hcd hlt
  unfold readOperand
  rcases (readNegation_alike hcd).cases with ⟨hc, hd⟩ | ⟨token, c', d', hc, hd, h'⟩
  · rw [hc, hd]
    refine ((readValue_alike hcd).map forms.single).orElse ?_
    rcases hcd.eatChar (a := '(') (by decide) with ⟨hc, hd⟩ | ⟨c', d', hc, hd, h'⟩
    · simp only [hc, hd]; exact .none
    · simp only [hc, hd]
      have hshort : c'.skipBlanks.rest.length < n :=
        (((eatChar_eq_some hc).trans_reaches (Cursor.reaches_skipBlanks c')).2).trans_le (Nat.le_of_lt_succ hlt)
      exact (h _ _ h'.skipBlanks hshort).bind fun a _ _ _ hP => closeGroup_alike (forms.group a) hP
  · rw [hc, hd]
    exact (readNegated_alike h').map (forms.negated token)

/-! ### Between operands -/

theorem rest_ne_nil_of_startsWith {s : String} (hs : s.toList ≠ []) (h : c.startsWith s = true) : c.rest ≠ [] := by
  intro h0
  rw [Cursor.startsWith_iff, h0, List.prefix_nil] at h
  exact hs h

theorem rest_ne_nil_of_atKeyword {k : String} (hk : k ∈ keywords) (h : c.atKeyword k = true) : c.rest ≠ [] := by
  have hne : ∀ k ∈ keywords, k.toList ≠ [] := by decide
  rw [Cursor.atKeyword, Bool.and_eq_true] at h
  exact rest_ne_nil_of_startsWith (hne k hk) h.1

theorem rest_ne_nil_of_atNegation (h : c.atNegation = true) : c.rest ≠ [] := by
  rw [Cursor.atNegation, Bool.or_eq_true, Bool.or_eq_true] at h
  rcases h with (h | h) | h
  · exact rest_ne_nil_of_atKeyword (by decide) h
  · exact rest_ne_nil_of_startsWith (by decide) h
  · exact rest_ne_nil_of_startsWith (by decide) h

theorem Cursor.Padded.spaced_keyword (h : Padded c d) {k : String} (hk : k ∈ keywords) :
    (spaced d && d.skipBlanks.atKeyword k) = (spaced c && c.skipBlanks.atKeyword k) := by
  rw [h.skipBlanks.atKeyword hk]
  exact h.spaced_and (rest_ne_nil_of_atKeyword hk)

theorem readJoiner_alike (keyword symbol : String) (hk : keyword ∈ keywords)
    (hs : (symbol.toList.all fun a => !isBlank a) = true) (h : Padded c d) :
    Alike Padded (readJoiner keyword symbol c) (readJoiner keyword symbol d) := by
  unfold readJoiner
  simp only [h.spaced_keyword hk, h.skipBlanks.startsWith hs]
  split_ifs with hword hsym
  · rw [Cursor.atKeyword, Bool.and_eq_true, Bool.and_eq_true] at hword
    exact .some keyword (h.skipBlanks.advance_startsWith hword.2.1).skipBlanks
  · exact .some symbol (h.skipBlanks.advance_startsWith hsym).skipBlanks
  · exact .none

theorem blanksJoin_padded (h : Padded c d) : blanksJoin d = blanksJoin c := by
  have hend : d.skipBlanks.atEnd = c.skipBlanks.atEnd := by
    rw [Bool.eq_iff_iff, Cursor.atEnd, Cursor.atEnd, List.isEmpty_iff, List.isEmpty_iff, h.skipBlanks_end]
  have hclose : (d.skipBlanks.peek != some ')') = (c.skipBlanks.peek != some ')') := by
    rw [Bool.eq_iff_iff, bne_iff_ne, bne_iff_ne]
    exact not_congr (h.skipBlanks.peek (by decide))
  unfold blanksJoin
  simp only [hend, hclose, h.skipBlanks.atOperator, h.skipBlanks.peekTermName, Bool.and_assoc]
  refine h.blanks_and fun hb hnil => ?_
  rw [Bool.and_eq_true, Cursor.atEnd, hnil] at hb
  exact absurd hb.1 (by decide)

/-- a reader that calls itself where less text is left is steady if that follows from its calls being steady -/
theorem steady_of_eq {r : Cursor → Reply α} {f : (Cursor → Reply α) → Cursor → Reply α} (hr : ∀ c, r c = f r c)
    (hf : ∀ n, Steady Padded n r → Steady Padded (n + 1) (f r)) (n : ℕ) : Steady Padded n r := by
  induction n with
  | zero => exact fun c d _ hlt => absurd hlt (Nat.not_lt_zero _)
  | succ n ih =>
    intro c d hcd hlt
    rw [hr c, hr d]
    exact hf n ih c d hcd hlt

end Shared

/-! ## Whole texts -/

section Texts

open Cursor (Padded)

variable {α : Type} {item : Cursor → Reply α} {gap : Expectation} {c d : Cursor}

/-- padded places at which the text ends at both or at neither -/
def Level (c d : Cursor) : Prop := Padded c d ∧ (d.rest = [] ↔ c.rest = [])

theorem level_skipBlanks (h : Padded c d) : Level c.skipBlanks d.skipBlanks := ⟨h.skipBlanks, h.skipBlanks_end⟩

variable (gap) in
/-- blanks behind the last item are the gap behind it -/
theorem itemStep_steady {n : ℕ} (h : Steady Padded n item) : Steady Level n (itemStep item gap) := by
  intro c d hcd hlt
  have hend : d.atEnd = c.atEnd := by
    rw [Bool.eq_iff_iff, Cursor.atEnd, Cursor.atEnd, List.isEmpty_iff, List.isEmpty_iff, hcd.2]
  unfold itemStep
  rw [hend]
  split_ifs with hc
  · exact .some none hcd
  · refine (h c d hcd.1 hlt).bind fun a b b' _ hb => ?_
    have hgap : (decide (b'.blanks = 0) && !b'.atEnd) = (decide (b.blanks = 0) && !b.atEnd) := by
      rw [Bool.eq_iff_iff]
      simpa [Cursor.atEnd] using hb.gap
    simp only [hgap]
    split_ifs
    · exact .none
    · exact .some (some a) (level_skipBlanks hb)

theorem start_level {before after : String} (hb : isAllBlank before = true) (ha : isAllBlank after = true) (text : String) :
    Level (Cursor.start text).skipBlanks (Cursor.start (before ++ text ++ after)).skipBlanks := by
  have hrest : (Cursor.start (before ++ text ++ after)).rest = before.toList ++ (text.toList ++ after.toList) := by
    rw [Cursor.start, String.toList_append, String.toList_append, List.append_assoc]
  rw [← Cursor.skipBlanks_advance hrest (List.all_eq_true.1 hb)]
  exact level_skipBlanks (Cursor.start_padded hb ha text)

/-- **Blanks around a text change nothing about the items that are read from it.** -/
theorem readAll_surrounded (hadv : Advances item) (h : ∀ n, Steady Padded n item) {before after : String}
    (hb : isAllBlank before = true) (ha : isAllBlank after = true) (text : String) (items : List α) :
    readAll item gap (before ++ text ++ after) = .ok items ↔ readAll item gap text = .ok items := by
  obtain ⟨c, hc⟩ : ∃ c, c = (Cursor.start text).skipBlanks := ⟨_, rfl⟩
  have hlevel := start_level hb ha text
  have halike := chain_steady (itemStep_consumes hadv) (itemStep_steady gap (h (c.rest.length + 1))) _ _ hlevel
    (by rw [← hc]; exact Nat.lt_succ_self _)
  simp only [readAll]
  rcases halike.cases with ⟨hc, hd⟩ | ⟨found, _, _, hc, hd, -⟩
  · rw [hc, hd]; simp
  · rw [hc, hd]

end Texts

end FieldSearch
