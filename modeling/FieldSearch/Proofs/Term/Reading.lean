/-
How the value of a term is read.

- `readAndLink_eq_some`, `readLink_eq_some`, `readLink_eq_none`, `readLink_fails_or` and the like: what a link reads, where
  it stops and where it fails. Behind an operator that was typed a missing operand is a failure, behind blanks it is an end.
- `readMany_advances`, `readMany_eq`: reading a value goes on, and the guard of its recursive calls never refuses.
- `readOne_written`: a value of a term that takes one reads back.
-/
import FieldSearch.Proofs.Term.Shape
import FieldSearch.Term.Reading

namespace FieldSearch.Operation

variable {inner and operand : Cursor → Reply Operation}

/-! ## Links -/

theorem readAndLink_eq_some {c d : Cursor} {op : String} {right : Operation} :
    (readAndLink operand c).value = some (some (op, right), d) ↔
      ∃ b, readJoiner "AND" "&&" c = some (op, b) ∧ (operand b).value = some (right, d) := by
  unfold readAndLink
  cases hj : readJoiner "AND" "&&" c with
  | none => simp
  | some p =>
    simp only [Reply.map_eq_some, Option.some.injEq]
    constructor
    · rintro ⟨x, hx, he⟩
      simp only [Prod.mk.injEq] at he
      obtain ⟨rfl, rfl⟩ := he
      exact ⟨p.2, rfl, hx⟩
    · rintro ⟨b, rfl, hx⟩
      exact ⟨right, hx, rfl⟩

theorem readAndLink_eq_none {c d : Cursor} :
    (readAndLink operand c).value = some (none, d) ↔ readJoiner "AND" "&&" c = none ∧ d = c := by
  unfold readAndLink
  cases hj : readJoiner "AND" "&&" c with
  | none => simp [eq_comm]
  | some p => simp

/-- a missing operand behind `AND` is a failure -/
theorem readAndLink_fails {c b : Cursor} {op : String} (hj : readJoiner "AND" "&&" c = some (op, b))
    (h : (operand b).value = none) : (readAndLink operand c).value = none := by
  simp [readAndLink, hj, h]

/-- the negation behind an operand and a blank is read as in front of an operand -/
theorem readNotToken_spaced {c : Cursor} (h : spaced c = true) : readNotToken c = readNegation c.skipBlanks := by
  simp [readNotToken, readNegation, h]

theorem readNotToken_none {c : Cursor} (h : c.skipBlanks.atNegation = false) : readNotToken c = none := by
  simp only [Cursor.atNegation, Bool.or_eq_false_iff] at h
  simp [readNotToken, h.1.1, h.1.2, h.2]

theorem readNotToken_eq_some {c d : Cursor} {op : String} (h : readNotToken c = some (op, d)) :
    op ∈ negationTokens ∧ c.Reaches d := by
  have hr : ∀ n, c.Reaches (c.skipBlanks.advance n) := fun n =>
    (Cursor.reaches_skipBlanks c).trans (Cursor.reaches_advance _ n)
  simp only [readNotToken] at h
  split_ifs at h <;> simp only [Option.some.injEq, Prod.mk.injEq] at h <;> obtain ⟨rfl, rfl⟩ := h
  · exact ⟨by decide, hr 3⟩
  · exact ⟨by decide, hr 1⟩
  · exact ⟨by decide, hr 1⟩

theorem readLink_of_not {c b d : Cursor} {op v : String} (hj : readJoiner "OR" "||" c = none)
    (hn : readNotToken c = some (op, b)) (h : (readNegated b).value = some (v, d)) :
    (readLink and c).value = some (some (.not op v), d) := by
  simp [readLink, hj, hn, h]

/-- a link is an `OR` and its right operand, a negated value, or a right operand behind blanks -/
theorem readLink_eq_some {c d : Cursor} {found : Link} (h : (readLink and c).value = some (some found, d)) :
    (∃ op b right, readJoiner "OR" "||" c = some (op, b) ∧ (and b).value = some (right, d) ∧ found = .or op right) ∨
      (∃ op b v, readNotToken c = some (op, b) ∧ (readNegated b).value = some (v, d) ∧ found = .not op v) ∨
        blanksJoin c = true ∧ ∃ right, (and c.skipBlanks).value = some (right, d) ∧ found = .or blankToken right := by
  unfold readLink at h
  cases hj : readJoiner "OR" "||" c with
  | some p =>
    simp only [hj, Reply.map_eq_some, Option.some.injEq] at h
    obtain ⟨right, hr, rfl⟩ := h
    exact Or.inl ⟨p.1, p.2, right, rfl, hr, rfl⟩
  | none =>
    cases hn : readNotToken c with
    | some p =>
      simp only [hj, hn, Reply.map_eq_some, Option.some.injEq] at h
      obtain ⟨v, hv, rfl⟩ := h
      exact Or.inr (Or.inl ⟨p.1, p.2, v, rfl, hv, rfl⟩)
    | none =>
      simp only [hj, hn] at h
      split_ifs at h with hb
      · obtain ⟨right, hr, rfl⟩ := Reply.map_eq_some.1 (Reply.orNone_eq_some.1 h)
        exact Or.inr (Or.inr ⟨hb, right, hr, rfl⟩)
      · simp at h

/-- a link is missing where no operator comes next, and blanks join nothing or nothing that can be read -/
theorem readLink_eq_none {c d : Cursor} :
    (readLink and c).value = some (none, d) ↔
      d = c ∧ readJoiner "OR" "||" c = none ∧ readNotToken c = none ∧
        (blanksJoin c = true → (and c.skipBlanks).value = none) := by
  unfold readLink
  cases hj : readJoiner "OR" "||" c with
  | some p => simp
  | none =>
    cases hn : readNotToken c with
    | some p => simp
    | none =>
      by_cases hb : blanksJoin c = true
      · simp only [hb, if_true, Reply.orNone_eq_none, Reply.map_eq_none, true_and, forall_const]
        exact and_comm
      · simp [hb, eq_comm]

theorem readLink_stops {c : Cursor} (hj : readJoiner "OR" "||" c = none) (hn : readNotToken c = none)
    (hb : blanksJoin c = false) : (readLink and c).value = some (none, c) :=
  readLink_eq_none.2 ⟨rfl, hj, hn, fun h => by rw [hb] at h; exact absurd h (by decide)⟩

/-- a missing operand behind `OR` is a failure -/
theorem readLink_fails_or {c b : Cursor} {op : String} (hj : readJoiner "OR" "||" c = some (op, b))
    (h : (and b).value = none) : (readLink and c).value = none := by
  simp [readLink, hj, h]

/-- a missing value behind `NOT` is a failure -/
theorem readLink_fails_not {c b : Cursor} {op : String} (hj : readJoiner "OR" "||" c = none)
    (hn : readNotToken c = some (op, b)) (h : (readNegated b).value = none) : (readLink and c).value = none := by
  simp [readLink, hj, hn, h]

/-! ## Reading on -/

theorem readAndLink_consumes (h : Advances operand) : Consumes (readAndLink operand) := by
  rintro c ⟨op, right⟩ d hs
  obtain ⟨b, hj, hb⟩ := readAndLink_eq_some.1 hs
  exact (readJoiner_eq_some hj).1.trans_passes (h b right d hb)

theorem readAndLink_reaches (c d : Cursor) (h : (readAndLink operand c).value = some (none, d)) : c.Reaches d :=
  (readAndLink_eq_none.1 h).2 ▸ .refl c

theorem readLink_consumes (h : Advances and) : Consumes (readLink and) := by
  intro c found d hs
  rcases readLink_eq_some hs with ⟨op, b, right, hj, hr, -⟩ | ⟨op, b, v, hn, hv, -⟩ | ⟨-, right, hr, -⟩
  · exact (readJoiner_eq_some hj).1.trans_passes (h b right d hr)
  · exact (readNotToken_eq_some hn).2.trans_passes (readNegated_advances b v d hv)
  · exact (Cursor.reaches_skipBlanks c).trans_passes (h _ right d hr)

theorem readLink_reaches (c d : Cursor) (h : (readLink and c).value = some (none, d)) : c.Reaches d :=
  (readLink_eq_none.1 h).1 ▸ .refl c

theorem readAnd_advances (h : Advances inner) : Advances (readAnd inner) :=
  leftChain_advances (readOperand_advances h) (readAndLink_consumes (readOperand_advances h)) readAndLink_reaches

theorem readManyWith_advances (h : Advances inner) : Advances (readManyWith inner) :=
  leftChain_advances (readAnd_advances h) (readLink_consumes (readAnd_advances h)) readLink_reaches

theorem readAndLink_congr {operand' : Cursor → Reply Operation} {c : Cursor}
    (h : ∀ d, d.rest.length ≤ c.rest.length → operand d = operand' d) : readAndLink operand c = readAndLink operand' c := by
  unfold readAndLink
  cases hj : readJoiner "AND" "&&" c with
  | none => rfl
  | some p => simp only [h p.2 (readJoiner_eq_some hj).1.length_le]

theorem readLink_congr {and' : Cursor → Reply Operation} {c : Cursor}
    (h : ∀ d, d.rest.length ≤ c.rest.length → and d = and' d) : readLink and c = readLink and' c := by
  unfold readLink
  cases hj : readJoiner "OR" "||" c with
  | some p => simp only [h p.2 (readJoiner_eq_some hj).1.length_le]
  | none => simp only [h c.skipBlanks (Cursor.reaches_skipBlanks c).length_le]

theorem readAnd_congr {inner' : Cursor → Reply Operation} {c : Cursor} (hin : Advances inner)
    (h : ∀ d, d.rest.length < c.rest.length → inner d = inner' d) : readAnd inner c = readAnd inner' c := by
  have hop : ∀ d : Cursor, d.rest.length ≤ c.rest.length → readOperand forms inner d = readOperand forms inner' d :=
    fun d hd => readOperand_congr fun e he => h e (he.trans_le hd)
  exact leftChain_congr (readOperand_advances hin) (hop c le_rfl) fun d hd =>
    readAndLink_congr fun e he => hop e (he.trans hd)

theorem readManyWith_congr {inner' : Cursor → Reply Operation} {c : Cursor} (hin : Advances inner)
    (h : ∀ d, d.rest.length < c.rest.length → inner d = inner' d) : readManyWith inner c = readManyWith inner' c := by
  have hand : ∀ d : Cursor, d.rest.length ≤ c.rest.length → readAnd inner d = readAnd inner' d :=
    fun d hd => readAnd_congr hin fun e he => h e (he.trans_le hd)
  exact leftChain_congr (readAnd_advances hin) (hand c le_rfl) fun d hd => readLink_congr fun e he => hand e (he.trans hd)

theorem readMany_guarded (c : Cursor) : readMany c = readManyWith (guarded readMany c) c := by
  rw [readMany]; rfl

theorem readMany_advances : Advances readMany :=
  advances_of_guarded (fun _ => readManyWith_advances) readMany_guarded

/-- a value is read as its groups are -/
theorem readMany_eq (c : Cursor) : readMany c = readManyWith readMany c :=
  eq_of_guarded (fun _ => readManyWith_advances) (fun _ _ _ hin _ h => readManyWith_congr hin h) readMany_guarded c

/-- reads `AND` and its right operand -/
abbrev andLink : Cursor → Reply (Option (String × Operation)) := readAndLink (readOperand forms readMany)

/-- reads `OR` or `NOT` and what stands right of it -/
abbrev link : Cursor → Reply (Option Link) := readLink (readAnd readMany)

/-! ## One value -/

/-- one value is read as a value that must match -/
theorem readOne_eq_some {c d : Cursor} {n : Operation} (h : (readOne c).value = some (n, d)) :
    c.Passes d ∧ ∃ v, n = .unary v := by
  unfold readOne at h
  obtain ⟨v, hv, rfl⟩ := Reply.map_eq_some.1 h
  refine ⟨?_, v, rfl⟩
  rw [Reply.value_orElse, Reply.value_fail, Option.or_none, Reply.value_orElse, Option.or_eq_some_iff] at hv
  rcases hv with hv | ⟨-, hv⟩
  · exact quoted_advances c v d hv
  · rw [Reply.value_ofOption, Cursor.nonBlank] at hv
    split at hv
    · simp at hv
    · rename_i run hne
      simp only [Option.some.injEq, Prod.mk.injEq] at hv
      obtain ⟨-, rfl⟩ := hv
      have hlen : 0 < (c.span fun a => !isBlank a).length := List.length_pos_iff.2 hne
      refine Cursor.passes_advance hlen fun h0 => ?_
      rw [Cursor.span, h0] at hne
      exact hne rfl

/-- one value reads back up to a blank -/
theorem readOne_written {c : Cursor} {v : String} {tail : List Char} (h : c.rest = (writeValue v).toList ++ tail)
    (ht : ∀ a ∈ tail.head?, isBlank a = true) :
    (readOne c).value = some (.unary v, c.advance (writeValue v).length) := by
  rw [readOne, Reply.value_map, Reply.value_orElse, quotedOrNonBlank_written h ht]
  rfl

end FieldSearch.Operation
