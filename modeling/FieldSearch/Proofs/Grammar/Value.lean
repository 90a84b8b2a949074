/-
Values and names as they stand in a text.

- `peekTermName_iff`: a name comes next if what is left is an identifier and a `:`.
- `readValue_written`: a written value reads back as itself, whatever may end a value stands behind it.
- `opensOperand_written`: where a written value stands, neither an operator nor a name with its `:` comes next, so blanks
  in front of it may join it to what stands left of them.
- `written_value_lexes`: both together for every value, with the value that a term for one value reads, and with the bare
  words as those values that read back without quotes.
-/
import FieldSearch.Grammar.Operand
import FieldSearch.Proofs.Grammar.Steps

namespace FieldSearch

/-! ## Characters -/

theorem isWordChar_of_identifierChar {a : Char} (h : isIdentifierChar a = true) : isWordChar a = true := by
  have hs : structuralChars.contains a = false := by
    rw [← Bool.not_eq_true, List.contains_iff_mem]
    intro hm
    simp only [structuralChars, List.mem_cons, List.not_mem_nil, or_false] at hm
    rcases hm with rfl | rfl | rfl | rfl | rfl | rfl | rfl <;> exact absurd h (by decide)
  have hb : isBlank a = false := by
    have hranges : isIdentifierChar a = (((decide ('A'.val ≤ a.val ∧ a.val ≤ 'Z'.val) ||
        (decide ('a'.val ≤ a.val) && decide (a.val ≤ 'z'.val))) ||
        (decide ('0'.val ≤ a.val) && decide (a.val ≤ '9'.val))) || a == '_') := rfl
    simp only [hranges, Bool.or_eq_true, Bool.and_eq_true, decide_eq_true_eq, beq_iff_eq, UInt32.le_iff_toNat_le] at h
    have hn : a.toNat = a.val.toNat := rfl
    simp only [isBlank, blankRuns, List.any_cons, List.any_nil, Bool.or_false, Bool.or_eq_false_iff,
      Bool.and_eq_false_iff, decide_eq_false_iff_not, hn]
    rcases h with ((h | h) | h) | rfl
    · simp at h; omega
    · simp at h; omega
    · simp at h; omega
    · decide
  rw [isWordChar, hs, hb]
  rfl

theorem isIdentifierChar_of_start {a : Char} (h : isIdentifierStart a = true) : isIdentifierChar a = true := by
  have halnum : isIdentifierChar a = ((a.isAlpha || a.isDigit) || a == '_') := rfl
  rw [isIdentifierStart, Bool.or_eq_true] at h
  rw [halnum, Bool.or_eq_true, Bool.or_eq_true]
  exact h.imp_left Or.inl

theorem solid_of_word {a : Char} (h : isWordChar a = true) : isBlank a = false := by
  simp only [isWordChar, Bool.and_eq_true, Bool.not_eq_true'] at h
  exact h.1

theorem ne_of_word {a b : Char} (ha : isWordChar a = true) (hb : isWordChar b = false) : a ≠ b := by
  rintro rfl; rw [ha] at hb; exact absurd hb (by decide)

theorem isIdentifier_iff {s : String} :
    isIdentifier s = true ↔
      ∃ a cs, s.toList = a :: cs ∧ isIdentifierStart a = true ∧ ∀ b ∈ cs, isIdentifierChar b = true := by
  unfold isIdentifier
  cases h : s.toList with
  | nil => simp
  | cons a cs => simp

theorem identifier_chars {s : String} (h : isIdentifier s = true) : ∀ a ∈ s.toList, isIdentifierChar a = true := by
  obtain ⟨a, cs, hs, ha, hcs⟩ := isIdentifier_iff.1 h
  rw [hs]
  intro b hb
  rcases List.mem_cons.1 hb with rfl | hb
  · exact isIdentifierChar_of_start ha
  · exact hcs b hb

theorem identifier_word {s : String} (h : isIdentifier s = true) : ∀ a ∈ s.toList, isWordChar a = true :=
  fun a ha => isWordChar_of_identifierChar (identifier_chars h a ha)

theorem identifier_solid {s : String} (h : isIdentifier s = true) (cs : List Char) : Solid (s.toList ++ cs) := by
  obtain ⟨a, l, hs, ha, -⟩ := isIdentifier_iff.1 h
  rw [hs]
  exact solid_cons.2 (solid_of_word (isWordChar_of_identifierChar (isIdentifierChar_of_start ha)))

theorem isBareWord_iff {s : String} :
    isBareWord s = true ↔
      (∃ a cs, s.toList = a :: cs ∧ isWordStart a = true) ∧ (∀ b ∈ s.toList, isWordChar b = true) ∧ s ∉ keywords := by
  unfold isBareWord
  cases h : s.toList with
  | nil => simp
  | cons a cs =>
    have hw : isWordStart a = true → isWordChar a = true := by simp only [isWordStart, Bool.and_eq_true]; exact And.left
    simp only [Bool.and_eq_true, List.all_eq_true, Bool.not_eq_true', List.contains_eq_mem, decide_eq_false_iff_not,
      List.cons.injEq, List.forall_mem_cons]
    constructor
    · rintro ⟨⟨ha, hcs⟩, hk⟩
      exact ⟨⟨a, cs, ⟨rfl, rfl⟩, ha⟩, ⟨hw ha, hcs⟩, hk⟩
    · rintro ⟨⟨a', cs', ⟨rfl, rfl⟩, ha⟩, ⟨-, hcs⟩, hk⟩
      exact ⟨⟨ha, hcs⟩, hk⟩

namespace Cursor

/-! ## Names -/

/-- a name comes next if what is left is an identifier and a `:` -/
theorem peekTermName_iff {c : Cursor} {n : String} :
    c.peekTermName = some n ↔ isIdentifier n = true ∧ ∃ t, c.rest = n.toList ++ ':' :: t := by
  unfold peekTermName peekIdentifier
  cases hr : c.rest with
  | nil => simp
  | cons a r =>
    have hcut : ∀ cs t : List Char, (∀ b ∈ cs, isIdentifierChar b = true) →
        (cs ++ ':' :: t).takeWhile isIdentifierChar = cs := by
      intro cs t hcs
      rw [List.takeWhile_append_of_pos hcs]
      simp [show isIdentifierChar ':' = false by decide]
    constructor
    · intro h
      by_cases ha : isIdentifierStart a = true
      · simp only [ha, if_true, Option.bind_some] at h
        split at h
        · rename_i hp
          simp only [Option.some.injEq] at h
          subst h
          obtain ⟨t, ht⟩ := peek_eq_some_iff.1 hp
          rw [rest_advance, hr, List.length_cons, List.drop_succ_cons] at ht
          refine ⟨isIdentifier_iff.2 ⟨a, _, String.toList_ofList, ha, ?_⟩, t, ?_⟩
          · exact fun b hb => List.all_eq_true.1 List.all_takeWhile b hb
          · have hs := List.take_append_drop (r.takeWhile isIdentifierChar).length r
            rw [ht, ← List.prefix_iff_eq_take.1 (List.takeWhile_prefix _)] at hs
            rw [String.toList_ofList, List.cons_append, hs]
        · simp at h
      · simp [ha] at h
    · rintro ⟨hn, t, ht⟩
      obtain ⟨b, cs, hl, hb, hcs⟩ := isIdentifier_iff.1 hn
      rw [hl, List.cons_append, List.cons.injEq] at ht
      obtain ⟨rfl, rfl⟩ := ht
      have hp : (c.advance (a :: cs).length).peek = some ':' := by
        rw [peek_eq_some_iff]
        exact ⟨t, rest_advance_of_append (by rw [hr, List.cons_append])⟩
      simp only [hb, if_true, Option.bind_some, hcut cs t hcs]
      rw [if_pos hp, ← hl, String.ofList_toList]

theorem termName_iff {c d : Cursor} {n : String} :
    c.termName = some (n, d) ↔ c.peekTermName = some n ∧ d = c.advance (n.length + 1) := by
  unfold termName
  cases c.peekTermName with
  | none => simp
  | some m =>
    simp only [Option.map_some, Option.some.injEq, Prod.mk.injEq]
    constructor
    · rintro ⟨rfl, rfl⟩; exact ⟨rfl, rfl⟩
    · rintro ⟨rfl, rfl⟩; exact ⟨rfl, rfl⟩

theorem termName_none {c : Cursor} : c.termName = none ↔ c.peekTermName = none := by
  simp [termName]

/-- reading a name leaves what stands behind its `:` -/
theorem termName_written {c : Cursor} {n : String} {t : List Char} (hn : isIdentifier n = true)
    (h : c.rest = n.toList ++ ':' :: t) : c.termName = some (n, c.advance (n.length + 1)) :=
  termName_iff.2 ⟨peekTermName_iff.2 ⟨hn, t, h⟩, rfl⟩

theorem rest_advance_name {c : Cursor} {n : String} {t : List Char} (h : c.rest = n.toList ++ ':' :: t) :
    (c.advance (n.length + 1)).rest = t := by
  have := rest_advance_of_append (c := c) (l := n.toList ++ [':']) (r := t) (by rw [h]; simp)
  rwa [List.length_append, String.length_toList] at this

/-! ## Quoted values and bare words -/

theorem scanQuoted_escape (v tail : List Char) :
    scanQuoted (escapeChars v ++ '"' :: tail) = some (v, (escapeChars v).length + 1) := by
  induction v with
  | nil => simp [escapeChars, scanQuoted]
  | cons a v ih =>
    by_cases ha : a = '"' ∨ a = '\\'
    · have he : escapeChars (a :: v) = '\\' :: a :: escapeChars v := by
        rw [escapeChars, if_pos (by simpa using ha)]
      rw [he, List.cons_append, List.cons_append, scanQuoted, ih]
      simp
    · have he : escapeChars (a :: v) = a :: escapeChars v := by
        rw [escapeChars, if_neg (by simpa using ha)]
      rw [not_or] at ha
      rw [he, List.cons_append, scanQuoted, if_neg ha.1, ih]
      · simp
      · rintro rfl; exact absurd rfl ha.2
      · rintro b r rfl; exact absurd rfl ha.2

theorem quote_toList (v : String) : (quote v).toList = '"' :: (escapeChars v.toList ++ ['"']) := by
  simp [quote]

theorem quoted_written {c : Cursor} {v : String} {tail : List Char} (h : c.rest = (quote v).toList ++ tail) :
    c.quoted.value = some (v, c.advance (quote v).length) := by
  rw [quote_toList] at h
  have hp : c.eatChar '"' = some (c.advance 1) := by
    rw [eatChar, if_pos (peek_eq_some_iff.2 ⟨_, h⟩), bump_eq_advance]
  have hr : (c.advance 1).rest = escapeChars v.toList ++ '"' :: tail := by
    rw [rest_advance, h]; simp
  have hl : (quote v).length = 1 + ((escapeChars v.toList).length + 1) := by
    rw [← String.length_toList, quote_toList]; simp; omega
  rw [quoted, hp]
  simp only [hr, scanQuoted_escape, Reply.value_done, String.ofList_toList, advance_advance, hl]

theorem quoted_none {c : Cursor} (h : c.peek ≠ some '"') : c.quoted = ⟨none, none⟩ := by
  rw [quoted, eatChar, if_neg h]

theorem bareWord_written {c : Cursor} {v : String} {tail : List Char} (hv : isBareWord v = true)
    (h : c.rest = v.toList ++ tail) (ht : Ends tail) : c.bareWord = some (v, c.advance v.length) := by
  obtain ⟨⟨a, cs, hl, ha⟩, hw, hk⟩ := isBareWord_iff.1 hv
  have hs : c.span isWordChar = v.toList := by rw [span, h, takeWhile_word hw ht]
  have hp : ((c.advance v.toList.length).peek != some ':') = true := by
    rw [bne_iff_ne, ne_eq, peek_eq_some_iff, rest_advance_of_append h]
    rintro ⟨t, rfl⟩
    rcases ht ':' (by simp) with h | h <;> exact absurd h (by decide)
  have hr : c.rest = a :: (cs ++ tail) := by rw [h, hl, List.cons_append]
  unfold bareWord
  rw [hs]
  simp only [hr, ha, String.ofList_toList, List.contains_eq_mem, hk, decide_false, Bool.not_false, Bool.and_self,
    Bool.true_and]
  rw [if_pos hp, String.length_toList]

/-- what is read as a bare word is one -/
theorem isBareWord_of_read {c d : Cursor} {v : String} (h : c.bareWord = some (v, d)) : isBareWord v = true := by
  unfold bareWord at h
  cases hr : c.rest with
  | nil => simp [hr] at h
  | cons a r =>
    simp only [hr] at h
    split_ifs at h with hread
    obtain ⟨rfl, -⟩ := Prod.mk.inj (Option.some.inj h)
    simp only [Bool.and_eq_true, Bool.not_eq_true', List.contains_eq_mem, decide_eq_false_iff_not] at hread
    obtain ⟨⟨hstart, hkeyword⟩, -⟩ := hread
    have hword : isWordChar a = true := by
      simp only [isWordStart, Bool.and_eq_true] at hstart
      exact hstart.1
    refine isBareWord_iff.2 ⟨⟨a, r.takeWhile isWordChar, ?_, hstart⟩, ?_, hkeyword⟩
    · rw [String.toList_ofList, span, hr, List.takeWhile_cons_of_pos hword]
    · rw [String.toList_ofList]
      exact fun b hb => List.all_eq_true.1 List.all_takeWhile b hb

/-- a bare word starts with a character that may start one, and is no keyword -/
theorem bareWord_none {c : Cursor} (h : ∀ a ∈ c.peek, isWordStart a = false) : c.bareWord = none := by
  unfold bareWord
  unfold peek at h
  cases hr : c.rest with
  | nil => rfl
  | cons a r => simp [h a (by simp [hr])]

end Cursor

theorem writeValue_ne_nil (v : String) : (writeValue v).toList ≠ [] := by
  unfold writeValue
  split
  · rename_i h
    obtain ⟨⟨a, cs, hl, -⟩, -⟩ := isBareWord_iff.1 h
    simp [hl]
  · simp [Cursor.quote_toList]

theorem solid_written (v : String) : Solid (writeValue v).toList := by
  unfold writeValue
  split
  · rename_i h
    obtain ⟨⟨a, cs, hl, -⟩, hw, -⟩ := isBareWord_iff.1 h
    rw [hl]; exact solid_cons.2 (solid_of_word (hw a (by simp [hl])))
  · rw [Cursor.quote_toList]; exact solid_cons.2 (by decide)

/-- a bare word starts with a character that may start one -/
theorem peek_bare {c : Cursor} {v : String} {tail : List Char} {a : Char} (hv : isBareWord v = true)
    (h : c.rest = v.toList ++ tail) (ha : isWordStart a = false) : c.peek ≠ some a := by
  obtain ⟨⟨b, cs, hl, hb⟩, -⟩ := isBareWord_iff.1 hv
  rw [Cursor.peek, h, hl, List.cons_append, List.head?_cons]
  intro he
  rw [Option.some.inj he, ha] at hb
  exact absurd hb (by decide)

/-- a written value reads back as itself -/
theorem readValue_written {c : Cursor} {v : String} {tail : List Char} (h : c.rest = (writeValue v).toList ++ tail)
    (ht : Ends tail) : (readValue c).value = some (v, c.advance (writeValue v).length) := by
  unfold writeValue at h ⊢
  rw [readValue, Reply.value_orElse]
  by_cases hv : isBareWord v = true
  · rw [if_pos hv] at h ⊢
    rw [Cursor.quoted_none (peek_bare hv h (by decide)), Option.none_or, Reply.value_ofOption,
      Cursor.bareWord_written hv h ht]
  · rw [if_neg hv] at h ⊢
    rw [Cursor.quoted_written h, Option.some_or]

/-- a written value that stands in front of a blank reads back as a run of characters too -/
theorem quotedOrNonBlank_written {c : Cursor} {v : String} {tail : List Char}
    (h : c.rest = (writeValue v).toList ++ tail) (ht : ∀ a ∈ tail.head?, isBlank a = true) :
    (c.quoted.orElse fun _ => .ofOption c.nonBlank).value = some (v, c.advance (writeValue v).length) := by
  rw [Reply.value_orElse, Reply.value_ofOption]
  unfold writeValue at h ⊢
  by_cases hv : isBareWord v = true
  · rw [if_pos hv] at h ⊢
    obtain ⟨⟨a, cs, hl, -⟩, hw, -⟩ := isBareWord_iff.1 hv
    have hrun : (c.span fun a => !isBlank a) = v.toList := by
      rw [Cursor.span, h]
      exact takeWhile_run (fun a ha => by simp [solid_of_word (hw a ha)]) fun a ha => by simp [ht a ha]
    rw [Cursor.quoted_none (peek_bare hv h (by decide)), Option.none_or, Cursor.nonBlank, hrun, hl]
    simp only [← hl, String.ofList_toList, String.length_toList]
  · rw [if_neg hv] at h ⊢
    rw [Cursor.quoted_written h, Option.some_or]

/-- no value stands where neither a quote nor a character that starts a bare word comes next -/
theorem readValue_none {c : Cursor} (hq : c.peek ≠ some '"') (hw : c.bareWord = none) : (readValue c).value = none := by
  rw [readValue, Reply.value_orElse, Cursor.quoted_none hq, Reply.value_ofOption, hw]
  rfl

/-! ## Where an operand may start behind blanks -/

/-- something comes next that blanks may join: no blank, no end, no `)`, no operator and no name with its `:` -/
structure OpensOperand (c : Cursor) : Prop where
  solid : Solid c.rest
  notEnd : c.atEnd = false
  noParen : c.peek ≠ some ')'
  noOperator : c.atOperator = false
  noName : c.peekTermName = none

theorem atOperator_eq_false {c : Cursor} :
    c.atOperator = false ↔ (∀ k ∈ keywords, c.atKeyword k = false) ∧ c.startsWith "&&" = false ∧
      c.startsWith "||" = false ∧ c.startsWith "!" = false ∧ c.startsWith "-" = false := by
  simp only [Cursor.atOperator, Bool.or_eq_false_iff, List.any_eq_false, Bool.not_eq_true, List.forall_mem_cons,
    List.not_mem_nil, false_implies, implies_true, and_true]

theorem startsWith_eq_false {c : Cursor} {s : String} {a b : Char} {l r : List Char} (hs : s.toList = a :: l)
    (h : c.rest = b :: r) (hab : a ≠ b) : c.startsWith s = false := by
  rw [← Bool.not_eq_true, Cursor.startsWith_iff, hs, h, List.cons_prefix_cons]
  exact fun hp => hab hp.1

theorem startsWith_nil {c : Cursor} {s : String} {a : Char} {l : List Char} (hs : s.toList = a :: l) (h : c.rest = []) :
    c.startsWith s = false := by
  rw [← Bool.not_eq_true, Cursor.startsWith_iff, hs, h]
  simp

/-- a quote or an opening parenthesis opens an operand -/
theorem opensOperand_cons {c : Cursor} {a : Char} {t : List Char} (h : c.rest = a :: t) (ha : a = '"' ∨ a = '(') :
    OpensOperand c := by
  have hw : isWordChar a = false := by rcases ha with rfl | rfl <;> decide
  have hi : isIdentifierStart a = false := by rcases ha with rfl | rfl <;> decide
  refine ⟨?_, by simp [Cursor.atEnd, h], ?_, atOperator_eq_false.2 ⟨?_, ?_, ?_, ?_, ?_⟩, ?_⟩
  · rw [h, solid_cons]; rcases ha with rfl | rfl <;> decide
  · rw [Cursor.peek, h]; rcases ha with rfl | rfl <;> simp
  · intro k hk
    rw [← Bool.not_eq_true, Cursor.atKeyword_iff (Cursor.keywords_word hk), h, List.takeWhile_cons_of_neg (by simp [hw])]
    intro he
    simp only [keywords, List.mem_cons, List.not_mem_nil, or_false] at hk
    rcases hk with rfl | rfl | rfl <;> exact absurd he (by decide)
  · exact startsWith_eq_false rfl h (by rcases ha with rfl | rfl <;> decide)
  · exact startsWith_eq_false rfl h (by rcases ha with rfl | rfl <;> decide)
  · exact startsWith_eq_false rfl h (by rcases ha with rfl | rfl <;> decide)
  · exact startsWith_eq_false rfl h (by rcases ha with rfl | rfl <;> decide)
  · simp [Cursor.peekTermName, Cursor.peekIdentifier, h, hi]

/-- a bare word opens an operand -/
theorem opensOperand_bare {c : Cursor} {v : String} {tail : List Char} (hv : isBareWord v = true)
    (h : c.rest = v.toList ++ tail) (ht : Ends tail) : OpensOperand c := by
  obtain ⟨⟨a, cs, hl, ha⟩, hw, hk⟩ := isBareWord_iff.1 hv
  have hr : c.rest = a :: (cs ++ tail) := by rw [h, hl, List.cons_append]
  have haw : isWordChar a = true := hw a (by simp [hl])
  have hrun : c.rest.takeWhile isWordChar = v.toList := by rw [h, takeWhile_word hw ht]
  refine ⟨?_, by simp [Cursor.atEnd, hr], ?_, atOperator_eq_false.2 ⟨?_, ?_, ?_, ?_, ?_⟩, ?_⟩
  · rw [hr, solid_cons]; exact solid_of_word haw
  · rw [Cursor.peek, hr, List.head?_cons]
    intro he
    exact ne_of_word haw (by decide) (Option.some.inj he)
  · intro k hkk
    rw [← Bool.not_eq_true, Cursor.atKeyword_iff (Cursor.keywords_word hkk), hrun, String.toList_inj]
    rintro rfl; exact hk hkk
  · exact startsWith_eq_false rfl hr (ne_of_word haw (by decide)).symm
  · exact startsWith_eq_false rfl hr (ne_of_word haw (by decide)).symm
  · exact startsWith_eq_false rfl hr (ne_of_word haw (by decide)).symm
  · refine startsWith_eq_false rfl hr ?_
    rintro rfl; exact absurd ha (by decide)
  · -- a name in front of a `:` would be the whole run of word characters, behind which a value ends
    rw [← Option.not_isSome_iff_eq_none, Option.isSome_iff_exists]
    rintro ⟨n, hn⟩
    obtain ⟨hid, t, hnt⟩ := Cursor.peekTermName_iff.1 hn
    rw [hnt, List.takeWhile_append_of_pos (identifier_word hid)] at hrun
    simp only [show isWordChar ':' = false by decide, Bool.false_eq_true, not_false_eq_true,
      List.takeWhile_cons_of_neg, List.append_nil] at hrun
    rw [h, hrun, List.append_cancel_left_eq] at hnt
    subst hnt
    rcases ht ':' (by simp) with h | h <;> exact absurd h (by decide)

/-- a written value opens an operand -/
theorem opensOperand_written {c : Cursor} {v : String} {tail : List Char} (h : c.rest = (writeValue v).toList ++ tail)
    (ht : Ends tail) : OpensOperand c := by
  unfold writeValue at h
  by_cases hv : isBareWord v = true
  · rw [if_pos hv] at h
    exact opensOperand_bare hv h ht
  · rw [if_neg hv, Cursor.quote_toList, List.cons_append] at h
    exact opensOperand_cons h (Or.inl rfl)

/-- a written value starts with no opening parenthesis -/
theorem writeValue_no_paren {c : Cursor} {v : String} {tail : List Char} (h : c.rest = (writeValue v).toList ++ tail) :
    c.peek ≠ some '(' := by
  unfold writeValue at h
  by_cases hv : isBareWord v = true
  · rw [if_pos hv] at h
    exact peek_bare hv h (by decide)
  · rw [if_neg hv, Cursor.quote_toList] at h
    rw [Cursor.peek, h, List.cons_append, List.head?_cons]
    simp

/-- **Every written value lexes back.** Where a value is written, and in front of nothing, a blank or a `)`, no name with its
`:`, no keyword and no operator comes next, and the value that is read, quoted or else a bare word, is the written one, up to
its end. In front of nothing or a blank it is also read as quoted, or else as a run of characters. A value is a bare word
exactly if it reads back as one without being quoted. -/
theorem written_value_lexes (v : String) {tail : List Char} (ht : Ends tail) {c b : Cursor}
    (hc : c.rest = (writeValue v).toList ++ tail) (hb : b.rest = v.toList ++ tail) :
    (c.peekTermName = none ∧ (∀ k ∈ keywords, c.atKeyword k = false) ∧ c.atOperator = false) ∧
      (∃ d, (readValue c).value = some (v, d) ∧ d.rest = tail) ∧
      ((∀ a ∈ tail.head?, isBlank a = true) →
        ∃ d, (c.quoted.orElse fun _ => .ofOption c.nonBlank).value = some (v, d) ∧ d.rest = tail) ∧
      (isBareWord v = true ↔ ∃ d, b.bareWord = some (v, d) ∧ d.rest = tail) := by
  have hopens : OpensOperand c := opensOperand_written hc ht
  have hbehind : (c.advance (writeValue v).length).rest = tail := Cursor.rest_behind hc
  refine ⟨⟨hopens.noName, (atOperator_eq_false.1 hopens.noOperator).1, hopens.noOperator⟩,
    ⟨_, readValue_written hc ht, hbehind⟩, fun hblank => ⟨_, quotedOrNonBlank_written hc hblank, hbehind⟩, ?_, ?_⟩
  · intro hv
    exact ⟨_, Cursor.bareWord_written hv hb ht, Cursor.rest_behind hb⟩
  · rintro ⟨d, hread, -⟩
    exact Cursor.isBareWord_of_read hread

/-- A value that starts like a negated name, with blanks, a quote and a backslash in it, in front of a wide blank. -/
theorem written_value_lexes_dunes :
    Ends "\u3000)".toList ∧
      (Cursor.start "\"-NOT: \\\"\\\\\u00A0\"\u3000)").rest = (writeValue "-NOT: \"\\\u00A0").toList ++ "\u3000)".toList ∧
      (Cursor.start "\"-NOT: \\\"\\\\\u00A0\"\u3000)").atOperator = false ∧
      (∃ d, (readValue (.start "\"-NOT: \\\"\\\\\u00A0\"\u3000)")).value = some ("-NOT: \"\\\u00A0", d) ∧
        d.rest = "\u3000)".toList) ∧
      ¬∃ d, (Cursor.start "-NOT: \"\\\u00A0\u3000)").bareWord = some ("-NOT: \"\\\u00A0", d) ∧
        d.rest = "\u3000)".toList := by
  have hends : Ends "\u3000)".toList := by
    intro a ha
    obtain rfl : '\u3000' = a := by simpa using ha
    exact Or.inl (by decide)
  have hwritten : (Cursor.start "\"-NOT: \\\"\\\\\u00A0\"\u3000)").rest =
      (writeValue "-NOT: \"\\\u00A0").toList ++ "\u3000)".toList := by decide
  have hbare : (Cursor.start "-NOT: \"\\\u00A0\u3000)").rest =
      "-NOT: \"\\\u00A0".toList ++ "\u3000)".toList := by decide
  obtain ⟨⟨-, -, hoperator⟩, hread, -, hbareWord⟩ := written_value_lexes "-NOT: \"\\\u00A0" hends hwritten hbare
  have hnot : ¬isBareWord "-NOT: \"\\\u00A0" = true := by decide
  exact ⟨hends, hwritten, hoperator, hread, fun h => hnot (hbareWord.2 h)⟩

end FieldSearch
