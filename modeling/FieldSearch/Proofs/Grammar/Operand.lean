/-
Operands and the words between them, as they stand in a text.

- `readOperand_single`, `readOperand_negated`, `readOperand_group`: written operands read back.
- `readOperand_eq_some`: what an operand can be. `readOperand_eq_none`: no operand stands where a closing parenthesis, a
  colon, an operator of two operands or nothing comes next.
- `readJoiner_written`, `blanksJoin_written`: operators and blanks between written operands join them.
- `readOperand_none_behind`: blanks that join nothing leave no operand behind them.
- `readJoiner_name`, `blanksJoin_name`: in front of a name with its `:` at most a keyword that is the name itself would join.
- `readOperand_advances`, `readOperand_congr`: an operand takes at least one character, and asks for what stands inside of
  its parentheses where less text is left.
-/
import FieldSearch.Proofs.Grammar.Value
import FieldSearch.Statement.Writing

namespace FieldSearch

variable {α : Type} {forms : OperandForms α} {inner : Cursor → Reply α}

/-- the tokens that negate a value -/
def negationTokens : List String := ["NOT", "!", "-"]

/-! ## Negations -/

theorem atKeyword_run {c : Cursor} {k : String} {t : List Char} (hk : k ∈ keywords) (h : c.rest = k.toList ++ t)
    (ht : Ends t) : c.atKeyword k = true := by
  rw [Cursor.atKeyword_iff (Cursor.keywords_word hk), h, takeWhile_word (Cursor.keywords_word hk) ht]

/-- no keyword stands where another run of word characters comes next -/
theorem atKeyword_eq_false {c : Cursor} {k : String} (hk : k ∈ keywords)
    (h : c.rest.takeWhile isWordChar ≠ k.toList) : c.atKeyword k = false := by
  rwa [← Bool.not_eq_true, Cursor.atKeyword_iff (Cursor.keywords_word hk)]

theorem atKeyword_of_startsWith {c : Cursor} {k : String} (h : c.startsWith k = false) : c.atKeyword k = false := by
  rw [Cursor.atKeyword, h, Bool.false_and]

theorem writeNegated_cases {token v : String} (h : token ∈ negationTokens) :
    (token = "NOT" ∧ (writeNegated token v).toList = 'N' :: 'O' :: 'T' :: ' ' :: (writeValue v).toList) ∨
      (token = "!" ∧ (writeNegated token v).toList = '!' :: (writeValue v).toList) ∨
      token = "-" ∧ (writeNegated token v).toList = '-' :: (writeValue v).toList := by
  simp only [negationTokens, List.mem_cons, List.not_mem_nil, or_false] at h
  rcases h with rfl | rfl | rfl <;> simp [writeNegated]

theorem readNegation_eq_none {c : Cursor} : readNegation c = none ↔ c.atNegation = false := by
  simp only [Cursor.atNegation, Bool.or_eq_false_iff, readNegation]
  split_ifs <;> simp_all

/-- a negation is read where one comes next -/
theorem readNegation_some {c : Cursor} {token : String} {d : Cursor} (h : readNegation c = some (token, d)) :
    token ∈ negationTokens ∧ c.atNegation = true ∧ c.Passes d := by
  have hne : ∀ {s : String}, s.toList ≠ [] → c.startsWith s = true → c.rest ≠ [] := by
    intro s hs hc h0
    rw [Cursor.startsWith_iff, h0, List.prefix_nil] at hc
    exact hs hc
  unfold readNegation at h
  split_ifs at h with h1 h2 h3 <;> simp only [Option.some.injEq, Prod.mk.injEq] at h <;> obtain ⟨rfl, rfl⟩ := h
  · have hs : c.startsWith "NOT" = true := by
      rw [Cursor.atKeyword, Bool.and_eq_true] at h1; exact h1.1
    exact ⟨by decide, by simp [Cursor.atNegation, h1], Cursor.passes_advance (by decide) (hne (by decide) hs)⟩
  · exact ⟨by decide, by simp [Cursor.atNegation, h2],
      Cursor.bump_eq_advance c ▸ Cursor.passes_advance (by decide) (hne (by decide) h2)⟩
  · exact ⟨by decide, by simp [Cursor.atNegation, h3],
      Cursor.bump_eq_advance c ▸ Cursor.passes_advance (by decide) (hne (by decide) h3)⟩

/-- a written value is read behind its negation, over the blanks between them -/
theorem readNegated_written {c : Cursor} {v : String} {tail : List Char} {m n : ℕ}
    (hskip : (c.advance m).skipBlanks = c.advance n) (h : (c.advance n).rest = (writeValue v).toList ++ tail)
    (ht : Ends tail) : (readNegated (c.advance m)).value = some (v, c.advance (n + (writeValue v).length)) := by
  rw [readNegated, hskip, if_neg (writeValue_no_paren h), Reply.value_orElse, readValue_written h ht, Option.some_or,
    Cursor.advance_advance]

/-- the token of a written negation is read, and its value behind the token -/
theorem readNegation_written {c : Cursor} {token v : String} {tail : List Char} (htok : token ∈ negationTokens)
    (h : c.rest = (writeNegated token v).toList ++ tail) (ht : Ends tail) :
    ∃ b, readNegation c = some (token, b) ∧ (readNegated b).value = some (v, c.advance (writeNegated token v).length) := by
  have hsymbol : ∀ a : Char, c.rest = a :: ((writeValue v).toList ++ tail) →
      (readNegated (c.advance 1)).value = some (v, c.advance (1 + (writeValue v).length)) := by
    intro a ha
    have hv : (c.advance 1).rest = (writeValue v).toList ++ tail := by rw [Cursor.rest_advance, ha]; rfl
    exact readNegated_written (Cursor.skipBlanks_of_solid (opensOperand_written hv ht).solid) hv ht
  have hlen : (writeNegated token v).length = (writeNegated token v).toList.length := String.length_toList.symm
  rcases writeNegated_cases (v := v) htok with ⟨rfl, hw⟩ | ⟨rfl, hw⟩ | ⟨rfl, hw⟩ <;> rw [hlen, hw] <;>
    rw [hw, List.cons_append] at h
  · -- a blank stands between the keyword and the value
    have hk : c.atKeyword "NOT" = true := atKeyword_run (k := "NOT") (by decide) h (ends_blank _)
    have hr : (c.advance 3).rest = ' ' :: ((writeValue v).toList ++ tail) := by rw [Cursor.rest_advance, h]; rfl
    have hskip : (c.advance 3).skipBlanks = c.advance 4 := by
      rw [Cursor.skipBlanks_of_space hr (solid_append (writeValue_ne_nil v) (solid_written v)), Cursor.advance_advance]
    have hv : (c.advance 4).rest = (writeValue v).toList ++ tail := by rw [Cursor.rest_advance, h]; rfl
    refine ⟨c.advance 3, by simp only [readNegation, hk, if_true], ?_⟩
    rw [readNegated_written hskip hv ht, Nat.add_comm, ← String.length_toList]
    rfl
  · have hk : c.atKeyword "NOT" = false := atKeyword_of_startsWith (startsWith_eq_false rfl h (by decide))
    have hs : c.startsWith "!" = true := by rw [Cursor.startsWith_iff, h]; simp
    refine ⟨c.advance 1, by simp [readNegation, hk, hs, Cursor.bump_eq_advance], ?_⟩
    rw [hsymbol '!' h, Nat.add_comm, ← String.length_toList]
    rfl
  · have hk : c.atKeyword "NOT" = false := atKeyword_of_startsWith (startsWith_eq_false rfl h (by decide))
    have hn : c.startsWith "!" = false := startsWith_eq_false rfl h (by decide)
    have hs : c.startsWith "-" = true := by rw [Cursor.startsWith_iff, h]; simp
    refine ⟨c.advance 1, by simp [readNegation, hk, hn, hs, Cursor.bump_eq_advance], ?_⟩
    rw [hsymbol '-' h, Nat.add_comm, ← String.length_toList]
    rfl

/-- what comes next where a negated value is written -/
structure OpensNegation (c : Cursor) : Prop where
  solid : Solid c.rest
  negation : c.atNegation = true
  noAnd : c.atKeyword "AND" = false
  noOr : c.atKeyword "OR" = false
  noAmps : c.startsWith "&&" = false
  noBars : c.startsWith "||" = false

theorem opensNegation_written {c : Cursor} {token v : String} {tail : List Char} (htok : token ∈ negationTokens)
    (h : c.rest = (writeNegated token v).toList ++ tail) : OpensNegation c := by
  obtain ⟨a, t, hr, ha, hneg⟩ : ∃ a t, c.rest = a :: t ∧ (a = 'N' ∨ a = '!' ∨ a = '-') ∧ c.atNegation = true := by
    rcases writeNegated_cases (v := v) htok with ⟨-, hw⟩ | ⟨-, hw⟩ | ⟨-, hw⟩ <;> rw [hw, List.cons_append] at h
    · refine ⟨_, _, h, by simp, ?_⟩
      simp [Cursor.atNegation, atKeyword_run (k := "NOT") (by decide) h (ends_blank _)]
    · refine ⟨_, _, h, by simp, ?_⟩
      have hs : c.startsWith "!" = true := by rw [Cursor.startsWith_iff, h]; simp
      simp [Cursor.atNegation, hs]
    · refine ⟨_, _, h, by simp, ?_⟩
      have hs : c.startsWith "-" = true := by rw [Cursor.startsWith_iff, h]; simp
      simp [Cursor.atNegation, hs]
  have hne : ∀ {s : String} {b : Char} {l : List Char}, s.toList = b :: l → b ≠ 'N' ∧ b ≠ '!' ∧ b ≠ '-' →
      c.startsWith s = false := by
    intro s b l hs hb
    refine startsWith_eq_false hs hr ?_
    rcases ha with rfl | rfl | rfl
    · exact hb.1
    · exact hb.2.1
    · exact hb.2.2
  refine ⟨?_, hneg, atKeyword_of_startsWith (hne rfl (by decide)), atKeyword_of_startsWith (hne rfl (by decide)),
    hne rfl (by decide), hne rfl (by decide)⟩
  rw [hr, solid_cons]; rcases ha with rfl | rfl | rfl <;> decide

/-- a negated value is no name with its `:` -/
theorem noName_negated {c : Cursor} {token v : String} {tail : List Char} (htok : token ∈ negationTokens)
    (h : c.rest = (writeNegated token v).toList ++ tail) : c.peekTermName = none := by
  rw [← Option.not_isSome_iff_eq_none, Option.isSome_iff_exists]
  rintro ⟨n, hn⟩
  obtain ⟨hid, t, hr⟩ := Cursor.peekTermName_iff.1 hn
  have hrun : c.rest.takeWhile isWordChar = n.toList := by
    rw [hr, List.takeWhile_append_of_pos (identifier_word hid), List.takeWhile_cons_of_neg (by decide), List.append_nil]
  obtain ⟨a, l, hl, ha, -⟩ := isIdentifier_iff.1 hid
  rcases writeNegated_cases (v := v) htok with ⟨-, hw⟩ | ⟨-, hw⟩ | ⟨-, hw⟩ <;> rw [hw, List.cons_append] at h
  · -- behind the keyword stands a blank where the name would have its `:`
    have hnot : n.toList = "NOT".toList := by
      rw [← hrun, h]; exact takeWhile_word (Cursor.keywords_word (k := "NOT") (by decide)) (ends_blank _)
    rw [h, hnot] at hr
    simp at hr
  · rw [h, hl, List.cons_append, List.cons.injEq] at hr
    rw [← hr.1] at ha; exact absurd ha (by decide)
  · rw [h, hl, List.cons_append, List.cons.injEq] at hr
    rw [← hr.1] at ha; exact absurd ha (by decide)

/-! ## Operands -/

theorem noNegation_of_noOperator {c : Cursor} (h : c.atOperator = false) : c.atNegation = false := by
  obtain ⟨hk, -, -, h1, h2⟩ := atOperator_eq_false.1 h
  simp [Cursor.atNegation, hk "NOT" (by decide), h1, h2]

theorem OpensOperand.noNegation {c : Cursor} (h : OpensOperand c) : c.atNegation = false :=
  noNegation_of_noOperator h.noOperator

theorem readOperand_single {c : Cursor} {v : String} {tail : List Char} (h : c.rest = (writeValue v).toList ++ tail)
    (ht : Ends tail) :
    (readOperand forms inner c).value = some (forms.single v, c.advance (writeValue v).length) := by
  rw [readOperand, readNegation_eq_none.2 (opensOperand_written h ht).noNegation]
  simp [readPrimary, readValue_written h ht]

theorem readOperand_negated {c : Cursor} {token v : String} {tail : List Char} (htok : token ∈ negationTokens)
    (h : c.rest = (writeNegated token v).toList ++ tail) (ht : Ends tail) :
    (readOperand forms inner c).value = some (forms.negated token v, c.advance (writeNegated token v).length) := by
  obtain ⟨b, hn, hv⟩ := readNegation_written htok h ht
  rw [readOperand, hn, Reply.value_map, hv]
  rfl

/-- a parenthesised expression reads back if what stands inside does -/
theorem readOperand_group {c : Cursor} {a : α} {t tail : List Char} (h : c.rest = '(' :: (t ++ ')' :: tail))
    (ht : Solid (t ++ ')' :: tail))
    (hin : (inner (c.advance 1)).value = some (a, (c.advance 1).advance t.length)) :
    (readOperand forms inner c).value = some (forms.group a, c.advance (t.length + 2)) := by
  have hop := opensOperand_cons h (Or.inr rfl)
  have hr : (c.advance 1).rest = t ++ ')' :: tail := by rw [Cursor.rest_advance, h]; rfl
  have hv : (readValue c).value = none := by
    refine readValue_none ?_ (Cursor.bareWord_none ?_)
    · rw [Cursor.peek, h, List.head?_cons]; simp
    · rw [Cursor.peek, h, List.head?_cons]; simp; decide
  have he : c.eatChar '(' = some (c.advance 1) := by
    rw [Cursor.eatChar, if_pos (Cursor.peek_eq_some_iff.2 ⟨_, h⟩), Cursor.bump_eq_advance]
  set d := (c.advance 1).advance t.length with hd
  have hdr : d.rest = ')' :: tail := Cursor.rest_advance_of_append hr
  have hclose : (closeGroup (forms.group a) d).value = some (forms.group a, d.advance 1) := by
    rw [closeGroup, Cursor.skipBlanks_of_solid (by rw [hdr, solid_cons]; decide), Cursor.eatChar,
      if_pos (Cursor.peek_eq_some_iff.2 ⟨_, hdr⟩)]
    rfl
  rw [readOperand, readNegation_eq_none.2 hop.noNegation]
  simp only [readPrimary, Reply.value_orElse, Reply.value_map, hv, Option.map_none, Option.none_or, he,
    Cursor.skipBlanks_of_solid (c := c.advance 1) (by rw [hr]; exact ht), Reply.value_bind, hin, Option.bind_some, hclose]
  rw [hd, Cursor.advance_advance, Cursor.advance_advance, show 1 + (t.length + 1) = t.length + 2 by omega]

theorem eatChar_eq_some {c d : Cursor} {a : Char} (h : c.eatChar a = some d) : c.Passes d := by
  unfold Cursor.eatChar at h
  split_ifs at h with hp
  obtain ⟨t, ht⟩ := Cursor.peek_eq_some_iff.1 hp
  rw [← Option.some.inj h, Cursor.bump_eq_advance]
  exact Cursor.passes_advance (by decide) (by simp [ht])

theorem closeGroup_eq_some {a b : α} {c d : Cursor} (h : (closeGroup a c).value = some (b, d)) : b = a ∧ c.Passes d := by
  unfold closeGroup at h
  split at h
  · rename_i hd
    simp only [Reply.value_done, Option.some.injEq, Prod.mk.injEq] at h
    obtain ⟨rfl, rfl⟩ := h
    exact ⟨rfl, (Cursor.reaches_skipBlanks c).trans_passes (eatChar_eq_some hd)⟩
  · simp at h

/-- what an operand is: a value, a negated value where a negation comes next, or a group of what was read inside -/
theorem readOperand_eq_some {c d : Cursor} {x : α} (h : (readOperand forms inner c).value = some (x, d)) :
    (c.atNegation = false ∧ ∃ v, x = forms.single v) ∨
      (c.atNegation = true ∧ ∃ token ∈ negationTokens, ∃ v, x = forms.negated token v) ∨
      c.atNegation = false ∧ ∃ a e f, (inner e).value = some (a, f) ∧ x = forms.group a := by
  unfold readOperand at h
  cases hn : readNegation c with
  | some p =>
    obtain ⟨token, b⟩ := p
    obtain ⟨htok, hneg, -⟩ := readNegation_some hn
    simp only [hn] at h
    obtain ⟨v, -, rfl⟩ := Reply.map_eq_some.1 h
    exact Or.inr (Or.inl ⟨hneg, token, htok, v, rfl⟩)
  | none =>
    have hneg := readNegation_eq_none.1 hn
    simp only [hn, readPrimary, Reply.value_orElse] at h
    cases hv : (readValue c).value with
    | some p =>
      simp only [Reply.value_map, hv, Option.map_some, Option.some_or, Option.some.injEq, Prod.mk.injEq] at h
      exact Or.inl ⟨hneg, p.1, h.1.symm⟩
    | none =>
      simp only [Reply.value_map, hv, Option.map_none, Option.none_or] at h
      cases he : c.eatChar '(' with
      | none => simp [he] at h
      | some inside =>
        simp only [he] at h
        obtain ⟨a, e, hi, hcl⟩ := Reply.bind_eq_some.1 h
        exact Or.inr (Or.inr ⟨hneg, a, _, e, hi, (closeGroup_eq_some hcl).1⟩)

theorem readOperand_eq_none {c : Cursor} (hneg : c.atNegation = false) (hq : c.peek ≠ some '"') (hw : c.bareWord = none)
    (hp : c.peek ≠ some '(') : (readOperand forms inner c).value = none := by
  rw [readOperand, readNegation_eq_none.2 hneg]
  simp [readPrimary, readValue_none hq hw, Cursor.eatChar, hp]

theorem readOperand_none_of_end {c : Cursor} (h : c.rest = []) : (readOperand forms inner c).value = none := by
  have hs : ∀ {s : String} {a : Char} {l : List Char}, s.toList = a :: l → c.startsWith s = false :=
    fun hs => startsWith_nil hs h
  refine readOperand_eq_none ?_ (by simp [Cursor.peek, h]) (Cursor.bareWord_none (by simp [Cursor.peek, h]))
    (by simp [Cursor.peek, h])
  simp [Cursor.atNegation, atKeyword_of_startsWith (hs (s := "NOT") rfl), hs (s := "!") rfl, hs (s := "-") rfl]

/-- no operand starts with a closing parenthesis, a colon or the symbol of an operator -/
theorem readOperand_none_of_head {c : Cursor} {a : Char} {t : List Char} (h : c.rest = a :: t)
    (ha : a ∈ [')', ':', '&', '|']) : (readOperand forms inner c).value = none := by
  have hne : a ≠ 'N' ∧ a ≠ '!' ∧ a ≠ '-' ∧ a ≠ '"' ∧ a ≠ '(' ∧ isWordStart a = false := by
    simp only [List.mem_cons, List.not_mem_nil, or_false] at ha
    rcases ha with rfl | rfl | rfl | rfl <;> decide
  obtain ⟨h1, h2, h3, h4, h5, h6⟩ := hne
  have hs : ∀ {s : String} {b : Char} {l : List Char}, s.toList = b :: l → b ≠ a → c.startsWith s = false :=
    fun hs hb => startsWith_eq_false hs h hb
  refine readOperand_eq_none ?_ (by simp [Cursor.peek, h, h4]) (Cursor.bareWord_none (by simp [Cursor.peek, h, h6]))
    (by simp [Cursor.peek, h, h5])
  simp [Cursor.atNegation, atKeyword_of_startsWith (hs (s := "NOT") rfl h1.symm), hs (s := "!") rfl h2.symm,
    hs (s := "-") rfl h3.symm]

/-- no operand starts with a keyword that joins two -/
theorem readOperand_none_of_keyword {c : Cursor} {k : String} (hk : k ∈ ["AND", "OR"]) (h : c.atKeyword k = true) :
    (readOperand forms inner c).value = none := by
  have hkk : k ∈ keywords := by
    simp only [List.mem_cons, List.not_mem_nil, or_false] at hk
    rcases hk with rfl | rfl <;> decide
  have hrun := (Cursor.atKeyword_iff (Cursor.keywords_word hkk)).1 h
  obtain ⟨t, ht⟩ : ∃ t, c.rest = k.toList ++ t := ⟨_, by rw [← hrun, List.takeWhile_append_dropWhile]⟩
  obtain ⟨a, l, hl, ha⟩ : ∃ a l, k.toList = a :: l ∧ (a = 'A' ∨ a = 'O') := by
    simp only [List.mem_cons, List.not_mem_nil, or_false] at hk
    rcases hk with rfl | rfl
    · exact ⟨'A', _, rfl, by decide⟩
    · exact ⟨'O', _, rfl, by decide⟩
  rw [hl, List.cons_append] at ht
  have hw : c.bareWord = none := by
    have hsp : c.span isWordChar = k.toList := hrun
    unfold Cursor.bareWord
    rw [hsp]
    split
    · rfl
    · simp [hkk]
  have hs : ∀ {s : String} {b : Char} {m : List Char}, s.toList = b :: m → b ≠ 'A' ∧ b ≠ 'O' → c.startsWith s = false := by
    intro s b m hs hb
    refine startsWith_eq_false hs ht ?_
    rcases ha with rfl | rfl
    · exact hb.1
    · exact hb.2
  refine readOperand_eq_none ?_ ?_ hw ?_
  · simp [Cursor.atNegation, atKeyword_of_startsWith (hs (s := "NOT") rfl (by decide)), hs (s := "!") rfl (by decide),
      hs (s := "-") rfl (by decide)]
  · rw [Cursor.peek, ht, List.head?_cons]; rcases ha with rfl | rfl <;> simp
  · rw [Cursor.peek, ht, List.head?_cons]; rcases ha with rfl | rfl <;> simp

/-! ## Between operands -/

variable {keyword symbol : String}

/-- what joins two operands is a keyword or a symbol, and reading it goes on -/
theorem readJoiner_eq_some {c d : Cursor} {op : String} (h : readJoiner keyword symbol c = some (op, d)) :
    c.Reaches d ∧ (op = keyword ∧ c.skipBlanks.atKeyword keyword = true ∨
      op = symbol ∧ c.skipBlanks.startsWith symbol = true) := by
  have hr : ∀ n, c.Reaches (c.skipBlanks.advance n).skipBlanks := fun n =>
    ((Cursor.reaches_skipBlanks c).trans (Cursor.reaches_advance _ n)).trans (Cursor.reaches_skipBlanks _)
  simp only [readJoiner] at h
  split_ifs at h with h1 h2 <;> simp only [Option.some.injEq, Prod.mk.injEq] at h <;> obtain ⟨rfl, rfl⟩ := h
  · rw [Bool.and_eq_true] at h1
    exact ⟨hr _, Or.inl ⟨rfl, h1.2⟩⟩
  · exact ⟨hr _, Or.inr ⟨rfl, h2⟩⟩

theorem readJoiner_eq_none {c : Cursor} (hk : c.skipBlanks.atKeyword keyword = false)
    (hs : c.skipBlanks.startsWith symbol = false) : readJoiner keyword symbol c = none := by
  simp [readJoiner, hk, hs]

/-- behind a blank a keyword or a symbol that comes next joins -/
theorem readJoiner_none_iff {c : Cursor} (hb : 0 < c.blanks) :
    readJoiner keyword symbol c = none ↔
      c.skipBlanks.atKeyword keyword = false ∧ c.skipBlanks.startsWith symbol = false := by
  refine ⟨fun h => ?_, fun h => readJoiner_eq_none h.1 h.2⟩
  simp only [readJoiner] at h
  split_ifs at h with h1 h2
  simp only [spaced, hb, decide_true, Bool.true_or, Bool.true_and, Bool.not_eq_true] at h1 h2
  exact ⟨h1, h2⟩

/-- no operand stands where an operator of two operands comes next -/
theorem readOperand_none_at_joiner {c : Cursor} (h : readJoiner keyword symbol c ≠ none) (hk : keyword ∈ ["AND", "OR"])
    (hs : symbol ∈ ["&&", "||"]) : (readOperand forms inner c.skipBlanks).value = none := by
  obtain ⟨⟨op, d⟩, hp⟩ := Option.ne_none_iff_exists'.1 h
  rcases (readJoiner_eq_some hp).2 with ⟨-, hc⟩ | ⟨-, hc⟩
  · exact readOperand_none_of_keyword hk hc
  · obtain ⟨t, ht⟩ := (Cursor.startsWith_iff _ _).1 hc
    simp only [List.mem_cons, List.not_mem_nil, or_false] at hs
    rcases hs with rfl | rfl
    · exact readOperand_none_of_head ht.symm (by decide)
    · exact readOperand_none_of_head ht.symm (by decide)

/-- blanks join nothing that starts with a negation -/
theorem noNegation_of_join {c : Cursor} (h : blanksJoin c = true) : c.skipBlanks.atNegation = false := by
  simp only [blanksJoin, Bool.and_eq_true, Bool.not_eq_true'] at h
  exact noNegation_of_noOperator h.1.2

/-- no operand stands behind blanks that join nothing, where no operator and no name with its `:` comes next either -/
theorem readOperand_none_behind {c : Cursor} (hb : 0 < c.blanks) (hand : readJoiner "AND" "&&" c = none)
    (hor : readJoiner "OR" "||" c = none) (hneg : c.skipBlanks.atNegation = false) (hname : c.skipBlanks.peekTermName = none)
    (hjoin : ¬blanksJoin c = true) : (readOperand forms inner c.skipBlanks).value = none := by
  obtain ⟨hka, hsa⟩ := (readJoiner_none_iff hb).1 hand
  obtain ⟨hko, hso⟩ := (readJoiner_none_iff hb).1 hor
  simp only [Cursor.atNegation, Bool.or_eq_false_iff] at hneg
  have hop : c.skipBlanks.atOperator = false := by
    refine atOperator_eq_false.2 ⟨?_, hsa, hso, hneg.1.2, hneg.2⟩
    simp only [keywords, List.forall_mem_cons, List.not_mem_nil, false_implies, implies_true, and_true]
    exact ⟨hka, hko, hneg.1.1⟩
  -- only the end or a parenthesis can keep the blanks from joining
  by_cases hend : c.skipBlanks.atEnd = true
  · exact readOperand_none_of_end (by simpa [Cursor.atEnd] using hend)
  · have hparen : c.skipBlanks.peek = some ')' := by
      by_contra hp
      exact hjoin (by simp [blanksJoin, hb, hend, hp, hop, hname])
    obtain ⟨t, ht⟩ := Cursor.peek_eq_some_iff.1 hparen
    exact readOperand_none_of_head ht (by decide)

/-- an operator with single blanks around it joins -/
theorem readJoiner_written {c : Cursor} {op : String} {t : List Char} (hk : keyword ∈ keywords)
    (hs : symbol = "&&" ∨ symbol = "||") (hop : op = keyword ∨ op = symbol)
    (h : c.rest = ' ' :: (op.toList ++ ' ' :: t)) (ht : Solid t) :
    readJoiner keyword symbol c = some (op, c.advance (op.length + 2)) := by
  have hne : op.toList ≠ [] ∧ Solid op.toList := by
    simp only [keywords, List.mem_cons, List.not_mem_nil, or_false] at hk
    rcases hop with rfl | rfl
    · rcases hk with rfl | rfl | rfl <;> exact ⟨by decide, solid_cons.2 (by decide)⟩
    · rcases hs with rfl | rfl <;> exact ⟨by decide, solid_cons.2 (by decide)⟩
  have hsol : Solid (op.toList ++ ' ' :: t) := solid_append hne.1 hne.2
  have hskip : c.skipBlanks = c.advance 1 := Cursor.skipBlanks_of_space h hsol
  have hb : 0 < c.blanks := by rw [Cursor.blanks_of_space h hsol]; decide
  have hr : (c.advance 1).rest = op.toList ++ ' ' :: t := by rw [Cursor.rest_advance, h]; rfl
  have hend : ((c.advance 1).advance op.length).skipBlanks = c.advance (op.length + 2) := by
    have hr' : ((c.advance 1).advance op.length).rest = ' ' :: t := Cursor.rest_behind hr
    rw [Cursor.skipBlanks_of_space hr' ht, Cursor.advance_advance, Cursor.advance_advance]
    congr 1; omega
  have hsp : spaced c = true := by simp [spaced, hb]
  rw [readJoiner, hskip]
  by_cases hkw : op = keyword
  · subst hkw
    simp only [hsp, atKeyword_run hk hr (ends_blank t), Bool.and_self, if_true, hend]
  · have hsy : op = symbol := hop.resolve_left hkw
    subst hsy
    have hrun : (c.advance 1).rest.takeWhile isWordChar = [] := by
      rw [hr]; rcases hs with rfl | rfl <;> exact List.takeWhile_cons_of_neg (by decide)
    have hnk : (c.advance 1).atKeyword keyword = false := by
      refine atKeyword_eq_false hk ?_
      rw [hrun]
      simp only [keywords, List.mem_cons, List.not_mem_nil, or_false] at hk
      rcases hk with rfl | rfl | rfl <;> decide
    have hst : (c.advance 1).startsWith op = true := by
      rw [Cursor.startsWith_iff, hr]; exact List.prefix_append _ _
    simp only [hnk, hst, Bool.and_false, Bool.false_eq_true, if_false, if_true, hend]

/-- the text between two operands: an operator with single blanks around it, or a blank alone -/
def writtenJoiner (operator : String) : List Char :=
  if isAllBlank operator then [' '] else ' ' :: (operator.toList ++ [' '])

theorem joinOperands_toList (left operator right : String) :
    (joinOperands left operator right).toList = left.toList ++ (writtenJoiner operator ++ right.toList) := by
  unfold joinOperands writtenJoiner
  split_ifs <;> simp

theorem joinOperands_length (left operator right : String) :
    (joinOperands left operator right).length = left.length + (writtenJoiner operator).length + right.length := by
  simp only [← String.length_toList, joinOperands_toList, List.length_append, Nat.add_assoc]

theorem ends_joiner (operator : String) (cs : List Char) : Ends (writtenJoiner operator ++ cs) := by
  unfold writtenJoiner
  split_ifs <;> exact ends_blank _

theorem writtenJoiner_blank : writtenJoiner blankToken = [' '] := by
  rw [writtenJoiner, if_pos (by decide)]

theorem writtenJoiner_typed (op : String) (h : op ∈ ["AND", "&&", "OR", "||"]) (cs : List Char) :
    writtenJoiner op ++ cs = ' ' :: (op.toList ++ ' ' :: cs) ∧ (writtenJoiner op).length = op.length + 2 := by
  have hop : isAllBlank op = false := by
    simp only [List.mem_cons, List.not_mem_nil, or_false] at h
    rcases h with rfl | rfl | rfl | rfl <;> decide
  rw [writtenJoiner, if_neg (by simp [hop])]
  refine ⟨by simp, ?_⟩
  rw [List.length_cons, List.length_append, String.length_toList, List.length_singleton]

/-- where `OR` was typed neither `AND` nor a negation comes next -/
theorem orTyped_ne {c : Cursor} {op : String} {t : List Char} (hop : op = "OR" ∨ op = "||")
    (h : c.rest = ' ' :: (op.toList ++ t)) :
    c.skipBlanks.atKeyword "AND" = false ∧ c.skipBlanks.startsWith "&&" = false ∧ c.skipBlanks.atNegation = false := by
  obtain ⟨a, l, hl, ha⟩ : ∃ a l, op.toList = a :: l ∧ (a = 'O' ∨ a = '|') := by
    rcases hop with rfl | rfl
    · exact ⟨'O', _, rfl, by decide⟩
    · exact ⟨'|', _, rfl, by decide⟩
  rw [hl, List.cons_append] at h
  have hs : isBlank a = false := by rcases ha with rfl | rfl <;> decide
  have hskip := Cursor.skipBlanks_of_space h (solid_cons.2 hs)
  have hr : (c.advance 1).rest = a :: (l ++ t) := by rw [Cursor.rest_advance, h]; rfl
  have hne : ∀ {s : String} {b : Char} {m : List Char}, s.toList = b :: m → b ≠ 'O' ∧ b ≠ '|' →
      (c.advance 1).startsWith s = false := by
    intro s b m hs hb
    refine startsWith_eq_false hs hr ?_
    rcases ha with rfl | rfl
    · exact hb.1
    · exact hb.2
  rw [hskip]
  refine ⟨atKeyword_of_startsWith (hne rfl (by decide)), hne rfl (by decide), ?_⟩
  simp [Cursor.atNegation, atKeyword_of_startsWith (hne (s := "NOT") rfl (by decide)),
    hne (s := "!") rfl (by decide), hne (s := "-") rfl (by decide)]

/-- where the text of the right operand stands -/
theorem rest_joined {c : Cursor} {left op right : String} {tail : List Char}
    (h : c.rest = (joinOperands left op right).toList ++ tail) :
    (c.advance left.length).rest = writtenJoiner op ++ (right.toList ++ tail) ∧
      ((c.advance left.length).advance (writtenJoiner op).length).rest = right.toList ++ tail := by
  rw [joinOperands_toList, List.append_assoc, List.append_assoc] at h
  exact ⟨Cursor.rest_behind h, Cursor.rest_advance_of_append (Cursor.rest_behind h)⟩

theorem advance_joined (c : Cursor) (left op right : String) :
    ((c.advance left.length).advance (writtenJoiner op).length).advance right.length =
      c.advance (joinOperands left op right).length := by
  rw [joinOperands_length, Cursor.advance_advance, Cursor.advance_advance, Nat.add_assoc]

/-- reading on past a text that is not empty leaves less than before -/
theorem shorter_behind {c : Cursor} {n : ℕ} {s : String} {tail : List Char} (hs : s.toList ≠ [])
    (h : (c.advance n).rest = s.toList ++ tail) :
    ((c.advance n).advance s.length).rest.length < c.rest.length := by
  have hpos : 0 < s.length := by
    rw [← String.length_toList]; exact List.length_pos_iff.2 hs
  exact ((Cursor.reaches_advance c n).trans_passes (Cursor.passes_advance hpos (by rw [h]; simp [hs]))).2

/-- a blank joins an operand behind it -/
theorem blanksJoin_written {c : Cursor} {t : List Char} (h : c.rest = ' ' :: t) (ho : OpensOperand (c.advance 1)) :
    blanksJoin c = true ∧ c.skipBlanks = c.advance 1 := by
  have hr : (c.advance 1).rest = t := by rw [Cursor.rest_advance, h]; rfl
  have ht : Solid t := hr ▸ ho.solid
  have hskip := Cursor.skipBlanks_of_space h ht
  refine ⟨?_, hskip⟩
  simp only [blanksJoin, hskip, Cursor.blanks_of_space h ht, ho.notEnd, ho.noOperator, ho.noName, Option.isNone_none]
  simpa using ho.noParen

/-- in front of a written `OR`, or of an operand that a blank joins, neither `AND` nor a negation comes next -/
theorem noAnd_written {c : Cursor} {op : String} {t : List Char}
    (hop : (op = "OR" ∨ op = "||") ∨ op = blankToken ∧ OpensOperand (c.advance 1)) (h : c.rest = writtenJoiner op ++ t) :
    readJoiner "AND" "&&" c = none ∧ c.skipBlanks.atNegation = false := by
  obtain hop | ⟨rfl, ho⟩ := hop
  · obtain ⟨hw, -⟩ := writtenJoiner_typed op (by rcases hop with rfl | rfl <;> decide) t
    obtain ⟨hand, hamps, hneg⟩ := orTyped_ne hop (h.trans hw)
    exact ⟨readJoiner_eq_none hand hamps, hneg⟩
  · rw [writtenJoiner_blank] at h
    obtain ⟨hk, hamps, -, -, -⟩ := atOperator_eq_false.1 ho.noOperator
    have hskip := (blanksJoin_written h ho).2
    exact ⟨readJoiner_eq_none (by rw [hskip]; exact hk "AND" (by decide)) (by rw [hskip]; exact hamps),
      by rw [hskip]; exact ho.noNegation⟩

/-! ## Names -/

theorem atKeyword_name {c : Cursor} {n k : String} {t : List Char} (hn : isIdentifier n = true)
    (h : c.rest = n.toList ++ ':' :: t) (hk : k ∈ keywords) : c.atKeyword k = true ↔ n = k := by
  rw [Cursor.atKeyword_iff (Cursor.keywords_word hk), h, List.takeWhile_append_of_pos (identifier_word hn),
    List.takeWhile_cons_of_neg (by decide), List.append_nil, String.toList_inj]

theorem startsWith_name {c : Cursor} {n s : String} {t l : List Char} {a : Char} (hn : isIdentifier n = true)
    (h : c.rest = n.toList ++ ':' :: t) (hs : s.toList = a :: l) (ha : isIdentifierStart a = false) :
    c.startsWith s = false := by
  obtain ⟨b, m, hl, hb, -⟩ := isIdentifier_iff.1 hn
  rw [hl, List.cons_append] at h
  refine startsWith_eq_false hs h ?_
  rintro rfl; rw [hb] at ha; exact absurd ha (by decide)

/-- in front of a name only a keyword that is the name itself would join, and then the `:` comes next -/
theorem readJoiner_name {c : Cursor} {n : String} {t : List Char} (hn : isIdentifier n = true)
    (h : c.rest = ' ' :: (n.toList ++ ':' :: t)) (hk : keyword ∈ keywords) (hs : symbol = "&&" ∨ symbol = "||") :
    readJoiner keyword symbol c = if n = keyword then some (keyword, c.advance (1 + keyword.length)) else none := by
  have hsol := identifier_solid hn (':' :: t)
  have hskip : c.skipBlanks = c.advance 1 := Cursor.skipBlanks_of_space h hsol
  have hr : (c.advance 1).rest = n.toList ++ ':' :: t := by rw [Cursor.rest_advance, h]; rfl
  have hst : (c.advance 1).startsWith symbol = false := by
    rcases hs with rfl | rfl <;> exact startsWith_name hn hr rfl (by decide)
  by_cases hkw : n = keyword
  · subst hkw
    have hb : 0 < c.blanks := by rw [Cursor.blanks_of_space h hsol]; decide
    have hcol : ((c.advance 1).advance n.length).rest = ':' :: t := Cursor.rest_behind hr
    have hstop : ((c.advance 1).advance n.length).skipBlanks = c.advance (1 + n.length) := by
      rw [Cursor.skipBlanks_of_solid (by rw [hcol, solid_cons]; decide), Cursor.advance_advance]
    simp [readJoiner, hskip, spaced, hb, (atKeyword_name hn hr hk).2 rfl, hstop]
  · have hnk : (c.advance 1).atKeyword keyword = false := by
      rwa [← Bool.not_eq_true, atKeyword_name hn hr hk]
    rw [if_neg hkw, readJoiner_eq_none (by rw [hskip, hnk]) (by rw [hskip, hst])]

/-- blanks join no name -/
theorem blanksJoin_name {c : Cursor} {n : String} {t : List Char} (hn : isIdentifier n = true)
    (h : c.rest = ' ' :: (n.toList ++ ':' :: t)) : blanksJoin c = false := by
  have hskip : c.skipBlanks = c.advance 1 := Cursor.skipBlanks_of_space h (identifier_solid hn _)
  have hp : (c.advance 1).peekTermName = some n := by
    rw [Cursor.peekTermName_iff]
    exact ⟨hn, t, by rw [Cursor.rest_advance, h]; rfl⟩
  simp [blanksJoin, hskip, hp]

/-- no negated value starts with a colon -/
theorem readNegated_none_of_colon {c : Cursor} {t : List Char} (h : c.rest = ':' :: t) : (readNegated c).value = none := by
  have hv : (readValue c).value = none := by
    refine readValue_none ?_ (Cursor.bareWord_none ?_)
    · rw [Cursor.peek, h, List.head?_cons]; simp
    · rw [Cursor.peek, h, List.head?_cons]; simp; decide
  simp only [readNegated, Cursor.skipBlanks_of_solid (c := c) (by rw [h, solid_cons]; decide)]
  split_ifs
  · rfl
  · simp [hv]

/-- no operand is a name with its `:`, if only a negation could start it -/
theorem readOperand_none_of_name {c : Cursor} {n : String} {t : List Char} (hn : isIdentifier n = true)
    (h : c.rest = n.toList ++ ':' :: t) (hneg : c.atNegation = true) : (readOperand forms inner c).value = none := by
  have hk : c.atKeyword "NOT" = true := by
    simpa [Cursor.atNegation, startsWith_name hn h (s := "!") rfl (by decide),
      startsWith_name hn h (s := "-") rfl (by decide)] using hneg
  obtain rfl := (atKeyword_name hn h (by decide)).1 hk
  have hr : (c.advance 3).rest = ':' :: t := Cursor.rest_advance_of_append (l := "NOT".toList) h
  simp only [readOperand, readNegation, hk, if_true, Reply.value_map, readNegated_none_of_colon hr, Option.map_none]

/-! ## Where an expression ends -/

/-- a text behind which an expression ends: none at all, or one that starts with a `)` -/
def Closes (cs : List Char) : Prop := ∀ a ∈ cs.head?, a = ')'

theorem Closes.ends {cs : List Char} (h : Closes cs) : Ends cs := fun a ha => Or.inr (h a ha)

theorem Closes.solid {cs : List Char} (h : Closes cs) : Solid cs := by
  intro a ha
  rw [h a ha]; decide

theorem Closes.startsWith {c : Cursor} {s : String} {a : Char} {l : List Char} (h : Closes c.rest) (hs : s.toList = a :: l)
    (ha : a ≠ ')') : c.startsWith s = false := by
  cases hr : c.rest with
  | nil => exact startsWith_nil hs hr
  | cons b t =>
    have hb : b = ')' := h b (by simp [hr])
    exact startsWith_eq_false hs hr (hb ▸ ha)

theorem readJoiner_closes {c : Cursor} (h : Closes c.rest) (hk : keyword ∈ keywords)
    (hs : symbol = "&&" ∨ symbol = "||") : readJoiner keyword symbol c = none := by
  apply readJoiner_eq_none <;> rw [Cursor.skipBlanks_of_solid h.solid]
  · simp only [keywords, List.mem_cons, List.not_mem_nil, or_false] at hk
    rcases hk with rfl | rfl | rfl <;> exact atKeyword_of_startsWith (h.startsWith rfl (by decide))
  · rcases hs with rfl | rfl <;> exact h.startsWith rfl (by decide)

theorem blanksJoin_closes {c : Cursor} (h : Closes c.rest) : blanksJoin c = false := by
  simp [blanksJoin, Cursor.blanks_of_solid h.solid]

/-! ## Reading on -/

theorem quoted_advances : Advances Cursor.quoted := by
  intro c v d h
  unfold Cursor.quoted at h
  split at h
  · simp at h
  · rename_i inside hin
    split at h
    · simp only [Reply.value_done, Option.some.injEq, Prod.mk.injEq] at h
      exact h.2 ▸ (eatChar_eq_some hin).trans_reaches (Cursor.reaches_advance _ _)
    · simp at h

theorem bareWord_advances {c d : Cursor} {v : String} (h : c.bareWord = some (v, d)) : c.Passes d := by
  unfold Cursor.bareWord at h
  cases hr : c.rest with
  | nil => simp [hr] at h
  | cons a r =>
    simp only [hr] at h
    split_ifs at h with hw
    simp only [Option.some.injEq, Prod.mk.injEq] at h
    simp only [Bool.and_eq_true, isWordStart] at hw
    have hpos : 0 < (c.span isWordChar).length := by simp [Cursor.span, hr, hw.1.1.1]
    exact h.2 ▸ Cursor.passes_advance hpos (by simp [hr])

theorem readValue_advances : Advances readValue := by
  intro c v d h
  rw [readValue, Reply.value_orElse, Option.or_eq_some_iff] at h
  rcases h with h | ⟨-, h⟩
  · exact quoted_advances c v d h
  · exact bareWord_advances h

theorem readNegated_advances : Advances readNegated := by
  intro c v d h
  simp only [readNegated] at h
  split_ifs at h
  · simp at h
  · rw [Reply.value_orElse, Reply.value_fail, Option.or_none] at h
    exact (Cursor.reaches_skipBlanks c).trans_passes (readValue_advances _ v d h)

theorem readPrimary_advances (h : Advances inner) : Advances (readPrimary forms inner) := by
  intro c x d hx
  simp only [readPrimary, Reply.value_orElse, Option.or_eq_some_iff] at hx
  rcases hx with hx | ⟨-, hx⟩
  · obtain ⟨v, hv, -⟩ := Reply.map_eq_some.1 hx
    exact readValue_advances c v d hv
  · cases he : c.eatChar '(' with
    | none => simp [he] at hx
    | some inside =>
      simp only [he] at hx
      obtain ⟨a, e, hi, hcl⟩ := Reply.bind_eq_some.1 hx
      have hin : c.Passes inside.skipBlanks := (eatChar_eq_some he).trans_reaches (Cursor.reaches_skipBlanks _)
      exact (hin.trans_reaches (h _ a e hi).reaches).trans_reaches (closeGroup_eq_some hcl).2.reaches

theorem readOperand_advances (h : Advances inner) : Advances (readOperand forms inner) := by
  intro c x d hx
  unfold readOperand at hx
  cases hn : readNegation c with
  | some p =>
    obtain ⟨token, b⟩ := p
    simp only [hn] at hx
    obtain ⟨v, hv, -⟩ := Reply.map_eq_some.1 hx
    exact (readNegation_some hn).2.2.trans_reaches (readNegated_advances b v d hv).reaches
  | none =>
    simp only [hn] at hx
    exact readPrimary_advances h c x d hx

/-- an operand asks for what stands inside of its parentheses, where less text is left -/
theorem readOperand_congr {inner' : Cursor → Reply α} {c : Cursor}
    (h : ∀ d, d.rest.length < c.rest.length → inner d = inner' d) :
    readOperand forms inner c = readOperand forms inner' c := by
  unfold readOperand
  cases readNegation c with
  | some p => rfl
  | none =>
    simp only [readPrimary]
    cases he : c.eatChar '(' with
    | none => rfl
    | some inside =>
      have hlt := ((eatChar_eq_some he).trans_reaches (Cursor.reaches_skipBlanks _)).2
      simp only [h _ hlt]

end FieldSearch
