/-
What reading a search text can give.

- `read_advances`, `read_eq`: reading an expression goes on, and the guard of its recursive calls never refuses.
- `read_shape`: an expression that was read is well shaped.
- `read_behind`: behind the blanks at which an expression ended no unqualified text can be read, because every text that
  could be would have been taken up.
- `parse_shape`: the statements of a text are well shaped.
-/
import FieldSearch.Proofs.Grammar.Items
import FieldSearch.Proofs.Statement.Shape
import FieldSearch.Statement.Reading

namespace FieldSearch

namespace FilterExpr

variable {inner : Cursor → Reply FilterExpr} {operand : Cursor → Reply FilterExpr}
  {token : Cursor → Option (String × Cursor)}

/-! ## Links -/

theorem readLink_eq_some {c d : Cursor} {op : String} {r : FilterExpr} :
    (readLink token operand c).value = some (some (op, r), d) ↔
      ∃ b, token c = some (op, b) ∧ (operand b).value = some (r, d) := by
  unfold readLink
  cases ht : token c with
  | none => simp
  | some p =>
    simp only [Reply.orNone_eq_some, Reply.map_eq_some, Option.some.injEq]
    constructor
    · rintro ⟨x, hx, he⟩
      simp only [Prod.mk.injEq] at he
      obtain ⟨rfl, rfl⟩ := he
      exact ⟨p.2, rfl, hx⟩
    · rintro ⟨b, rfl, hx⟩
      exact ⟨r, hx, rfl⟩

/-- a link is missing where no operator comes next or its right operand cannot be read -/
theorem readLink_eq_none {c d : Cursor} :
    (readLink token operand c).value = some (none, d) ↔
      d = c ∧ ∀ op b, token c = some (op, b) → (operand b).value = none := by
  unfold readLink
  cases ht : token c with
  | none => simp [eq_comm]
  | some p =>
    simp only [Reply.orNone_eq_none, Reply.map_eq_none, Option.some.injEq]
    constructor
    · rintro ⟨hn, rfl⟩
      refine ⟨rfl, ?_⟩
      rintro op b rfl; exact hn
    · rintro ⟨rfl, h⟩
      exact ⟨h p.1 p.2 rfl, rfl⟩

theorem readLink_consumes (htok : ∀ c op d, token c = some (op, d) → c.Reaches d) (hop : Advances operand) :
    Consumes (readLink token operand) := by
  rintro c ⟨op, r⟩ d h
  obtain ⟨b, hb, hr⟩ := readLink_eq_some.1 h
  exact (htok c op b hb).trans_passes (hop b r d hr)

theorem readLink_reaches (c d : Cursor) (h : (readLink token operand c).value = some (none, d)) : c.Reaches d :=
  (readLink_eq_none.1 h).1 ▸ .refl c

theorem readLink_congr {operand' : Cursor → Reply FilterExpr} {c : Cursor}
    (htok : ∀ c op d, token c = some (op, d) → c.Reaches d)
    (h : ∀ d, d.rest.length ≤ c.rest.length → operand d = operand' d) :
    readLink token operand c = readLink token operand' c := by
  unfold readLink
  cases ht : token c with
  | none => rfl
  | some p => simp only [h p.2 (htok c p.1 p.2 ht).length_le]

/-- `AND` was typed, or a blank stands in front of a negation -/
theorem readAndToken_eq_some {c d : Cursor} {op : String} (h : readAndToken c = some (op, d)) :
    c.Reaches d ∧ (op = "AND" ∨ op = "&&" ∨ op = blankToken ∧ d.atNegation = true) := by
  unfold readAndToken at h
  split at h
  · rename_i p hp
    rw [Option.some.injEq] at h
    subst h
    obtain ⟨hr, hop⟩ := readJoiner_eq_some hp
    exact ⟨hr, by tauto⟩
  · split_ifs at h with hb
    simp only [Option.some.injEq, Prod.mk.injEq] at h
    obtain ⟨rfl, rfl⟩ := h
    simp only [Bool.and_eq_true, decide_eq_true_eq] at hb
    exact ⟨Cursor.reaches_skipBlanks c, Or.inr (Or.inr ⟨rfl, hb.2⟩)⟩

/-- `OR` was typed, or a blank stands where no negation comes next -/
theorem readOrToken_eq_some {c d : Cursor} {op : String} (h : readOrToken c = some (op, d)) :
    c.Reaches d ∧ (op = "OR" ∨ op = "||" ∨ op = blankToken ∧ d.atNegation = false) := by
  unfold readOrToken at h
  split at h
  · rename_i p hp
    rw [Option.some.injEq] at h
    subst h
    obtain ⟨hr, hop⟩ := readJoiner_eq_some hp
    exact ⟨hr, by tauto⟩
  · split_ifs at h with hb
    simp only [Option.some.injEq, Prod.mk.injEq] at h
    obtain ⟨rfl, rfl⟩ := h
    exact ⟨Cursor.reaches_skipBlanks c, Or.inr (Or.inr ⟨rfl, noNegation_of_join hb⟩)⟩

/-! ## Reading on -/

theorem readAnd_advances (h : Advances inner) : Advances (readAnd inner) :=
  leftChain_advances (readOperand_advances h)
    (readLink_consumes (fun _ _ _ ht => (readAndToken_eq_some ht).1) (readOperand_advances h)) readLink_reaches

theorem readOr_advances (h : Advances inner) : Advances (readOr inner) :=
  leftChain_advances (readAnd_advances h)
    (readLink_consumes (fun _ _ _ ht => (readOrToken_eq_some ht).1) (readAnd_advances h)) readLink_reaches

theorem readAnd_congr {inner' : Cursor → Reply FilterExpr} {c : Cursor} (hin : Advances inner)
    (h : ∀ d, d.rest.length < c.rest.length → inner d = inner' d) : readAnd inner c = readAnd inner' c := by
  have hop : ∀ d : Cursor, d.rest.length ≤ c.rest.length → readOperand forms inner d = readOperand forms inner' d :=
    fun d hd => readOperand_congr fun e he => h e (he.trans_le hd)
  exact leftChain_congr (readOperand_advances hin) (hop c le_rfl) fun d hd =>
    readLink_congr (fun _ _ _ ht => (readAndToken_eq_some ht).1) fun e he => hop e (he.trans hd)

theorem readOr_congr {inner' : Cursor → Reply FilterExpr} {c : Cursor} (hin : Advances inner)
    (h : ∀ d, d.rest.length < c.rest.length → inner d = inner' d) : readOr inner c = readOr inner' c := by
  have hand : ∀ d : Cursor, d.rest.length ≤ c.rest.length → readAnd inner d = readAnd inner' d :=
    fun d hd => readAnd_congr hin fun e he => h e (he.trans_le hd)
  exact leftChain_congr (readAnd_advances hin) (hand c le_rfl) fun d hd =>
    readLink_congr (fun _ _ _ ht => (readOrToken_eq_some ht).1) fun e he => hand e (he.trans hd)

theorem read_guarded (c : Cursor) : read c = readOr (guarded read c) c := by
  rw [read]; rfl

theorem read_advances : Advances read :=
  advances_of_guarded (fun _ => readOr_advances) read_guarded

/-- an expression is read as its groups are -/
theorem read_eq (c : Cursor) : read c = readOr read c :=
  eq_of_guarded (fun _ => readOr_advances) (fun _ _ _ hin _ h => readOr_congr hin h) read_guarded c

/-- reads `AND` and its right operand -/
abbrev andLink : Cursor → Reply (Option (String × FilterExpr)) := readLink readAndToken (readOperand forms read)

/-- reads `OR` and its right operand -/
abbrev orLink : Cursor → Reply (Option (String × FilterExpr)) := readLink readOrToken (readAnd read)

theorem andLink_consumes : Consumes andLink :=
  readLink_consumes (fun _ _ _ ht => (readAndToken_eq_some ht).1) (readOperand_advances read_advances)

theorem orLink_consumes : Consumes orLink :=
  readLink_consumes (fun _ _ _ ht => (readOrToken_eq_some ht).1) (readAnd_advances read_advances)

/-! ## The shape of what is read -/

/-- an operand is well shaped, and negated where a negation comes next -/
theorem readOperand_shape (hin : ∀ c e d, (inner c).value = some (e, d) → e.WellShaped) {c d : Cursor} {e : FilterExpr}
    (h : (readOperand forms inner c).value = some (e, d)) :
    e.WellShaped ∧ e.isOperand = true ∧ e.isNegated = c.atNegation := by
  rcases readOperand_eq_some h with ⟨hn, v, rfl⟩ | ⟨hn, token, htok, v, rfl⟩ | ⟨hn, a, i, f, hi, rfl⟩
  · exact ⟨trivial, rfl, hn.symm⟩
  · exact ⟨htok, rfl, hn.symm⟩
  · exact ⟨hin i a f hi, rfl, hn.symm⟩

theorem readAnd_shape (hadv : Advances inner) (hin : ∀ c e d, (inner c).value = some (e, d) → e.WellShaped)
    {c d : Cursor} {e : FilterExpr} (h : (readAnd inner c).value = some (e, d)) :
    e.WellShaped ∧ e.isOr = false ∧ e.leading.isNegated = c.atNegation := by
  have hop : Advances (readOperand forms inner) := readOperand_advances hadv
  have hcons := readLink_consumes (fun _ _ _ ht => (readAndToken_eq_some ht).1) hop
  obtain ⟨f, ⟨a, b, links, ha, hs, rfl⟩, -⟩ := (leftChain_eq_some hcons).1 h
  refine hs.foldl_keeps
    (P := fun x : FilterExpr => x.WellShaped ∧ x.isOr = false ∧ x.leading.isNegated = c.atNegation) ?_ ?_
  · rintro left c' ⟨op, right⟩ d' ⟨hw, hor, hlead⟩ hb
    obtain ⟨b, ht, hr⟩ := readLink_eq_some.1 hb
    obtain ⟨hrw, hro, hrn⟩ := readOperand_shape hin hr
    have hop := (readAndToken_eq_some ht).2
    rw [← hrn] at hop
    exact ⟨⟨hw, hrw, hor, hro, hop⟩, rfl, hlead⟩
  · obtain ⟨hw, ho, hn⟩ := readOperand_shape hin ha
    obtain ⟨hl, hor⟩ := leading_of_operand ho
    exact ⟨hw, hor, by rw [hl]; exact hn⟩

theorem readOr_shape (hadv : Advances inner) (hin : ∀ c e d, (inner c).value = some (e, d) → e.WellShaped)
    {c d : Cursor} {e : FilterExpr} (h : (readOr inner c).value = some (e, d)) : e.WellShaped := by
  have hcons := readLink_consumes (fun _ _ _ ht => (readOrToken_eq_some ht).1) (readAnd_advances hadv)
  obtain ⟨f, ⟨a, b, links, ha, hs, rfl⟩, -⟩ := (leftChain_eq_some hcons).1 h
  refine hs.foldl_keeps (P := WellShaped) ?_ (readAnd_shape hadv hin ha).1
  rintro left c' ⟨op, right⟩ d' hw hb
  obtain ⟨b, ht, hr⟩ := readLink_eq_some.1 hb
  obtain ⟨hrw, hor, hn⟩ := readAnd_shape hadv hin hr
  have hop := (readOrToken_eq_some ht).2
  rw [← hn] at hop
  exact ⟨hw, hrw, hor, hop⟩

/-- an expression that was read is well shaped -/
theorem read_shape {c d : Cursor} {e : FilterExpr} (h : (read c).value = some (e, d)) : e.WellShaped := by
  refine (keeps_of_guarded (f := readOr) (P := fun c e d => c.Passes d ∧ e.WellShaped) ?_ read_guarded c e d h).2
  intro inner hin c e d he
  have hadv : Advances inner := fun c a d hd => (hin c a d hd).1
  exact ⟨readOr_advances hadv c e d he, readOr_shape hadv (fun c a d hd => (hin c a d hd).2) he⟩

/-! ## Where an expression ends -/

theorem readAnd_none {c : Cursor} (h : (readOperand forms read c).value = none) : (readAnd read c).value = none :=
  leftChain_none h

theorem read_none {c : Cursor} (h : (readAnd read c).value = none) : (read c).value = none := by
  rw [read_eq]; exact leftChain_none h

/-- a chain of `AND` ends where no `AND` goes on -/
theorem readAnd_ends {c d : Cursor} {e : FilterExpr} (h : (readAnd read c).value = some (e, d)) :
    (andLink d).value = some (none, d) := by
  obtain ⟨f, -, hf⟩ := (leftChain_eq_some andLink_consumes).1 h
  obtain rfl := (readLink_eq_none.1 hf).1
  exact hf

/-- an expression ends where neither `AND` nor `OR` goes on -/
theorem read_ends {c d : Cursor} {e : FilterExpr} (h : (read c).value = some (e, d)) :
    (andLink d).value = some (none, d) ∧ (orLink d).value = some (none, d) := by
  rw [read_eq] at h
  obtain ⟨f, ⟨a, b, links, ha, hs, -⟩, hf⟩ := (leftChain_eq_some orLink_consumes).1 h
  obtain rfl := (readLink_eq_none.1 hf).1
  refine ⟨?_, hf⟩
  -- the last operand of the chain is itself a chain of `AND` that ended here
  obtain ⟨c', x, hx⟩ := hs.ends_keeps (P := fun d => ∃ c' x, (readAnd read c').value = some (x, d))
    (fun c' ⟨op, r⟩ d' hb => by
      obtain ⟨b, -, hr⟩ := readLink_eq_some.1 hb
      exact ⟨b, r, hr⟩) ⟨c, a, ha⟩
  exact readAnd_ends hx

/-- **Nothing is left over.** Behind the blanks at which an expression ended no expression stands unless it has a name. -/
theorem read_behind {c d : Cursor} {e : FilterExpr} (h : (read c).value = some (e, d)) (hb : 0 < d.blanks)
    (hn : d.skipBlanks.peekTermName = none) : (read d.skipBlanks).value = none := by
  obtain ⟨hand, hor⟩ := read_ends h
  have hand := (readLink_eq_none.1 hand).2
  have hor := (readLink_eq_none.1 hor).2
  set b := d.skipBlanks
  by_cases hja : readJoiner "AND" "&&" d = none
  · by_cases hjo : readJoiner "OR" "||" d = none
    · by_cases hneg : b.atNegation = true
      · -- a negation behind blanks would have been joined by `AND`
        refine read_none (readAnd_none (hand blankToken b ?_))
        simp [readAndToken, hja, hb, hneg, b]
      · by_cases hjoin : blanksJoin d = true
        · refine read_none (hor blankToken b ?_)
          simp [readOrToken, hjo, hjoin, b]
        · refine read_none (readAnd_none ?_)
          exact readOperand_none_behind hb hja hjo (by simpa using hneg) hn hjoin
    · exact read_none (readAnd_none (readOperand_none_at_joiner hjo (by decide) (by decide)))
  · exact read_none (readAnd_none (readOperand_none_at_joiner hja (by decide) (by decide)))

end FilterExpr

namespace Statement

/-- what a sort is read as: a field with neither a blank nor a `-` in it -/
theorem readSort_eq_some {c d : Cursor} {s : Statement} (h : (readSort c).value = some (s, d)) :
    s.WellShaped ∧ s.isFilter = false ∧ c.Reaches d := by
  set field := c.span fun a => !isBlank a && a != '-' with hfield
  have hchars : ∀ a ∈ field, isBlank a = false ∧ a ≠ '-' := by
    intro a ha
    have := List.all_eq_true.1 List.all_takeWhile a (hfield ▸ ha)
    simpa using this
  have hshape : field ≠ [] → ∀ direction, (Statement.sort (String.ofList field) direction).WellShaped := by
    intro hne direction
    refine ⟨fun h0 => hne ?_, by rw [String.toList_ofList]; exact hchars⟩
    rw [← String.toList_ofList (l := field), h0]; rfl
  simp only [readSort, ← hfield] at h
  split_ifs at h with h1 h2
  · simp at h
  · split at h
    · simp only [Reply.value_done, Option.some.injEq, Prod.mk.injEq] at h
      obtain ⟨rfl, rfl⟩ := h
      exact ⟨hshape (by simpa using h1) _, rfl, (Cursor.reaches_advance c _).trans (Cursor.reaches_advance _ _)⟩
    · simp at h
  · simp only [Reply.value_done, Option.some.injEq, Prod.mk.injEq] at h
    obtain ⟨rfl, rfl⟩ := h
    exact ⟨hshape (by simpa using h1) _, rfl, Cursor.reaches_advance c _⟩

/-- what a statement is read as: unqualified text where no name comes next, else a sort or a filter under the name -/
theorem read_eq_some {c d : Cursor} {s : Statement} (h : (read c).value = some (s, d)) :
    (c.peekTermName = none ∧ ∃ e, s = .defaultFilter e ∧ (FilterExpr.read c).value = some (e, d)) ∨
      ∃ name b, c.termName = some (name, b) ∧
        (nameKey name = "sort" ∧ (readSort b).value = some (s, d) ∨
          nameKey name ≠ "sort" ∧ ∃ e, s = .fieldFilter name e ∧ (FilterExpr.read b.skipBlanks).value = some (e, d)) := by
  unfold read at h
  split at h
  · rename_i hn
    obtain ⟨e, he, rfl⟩ := Reply.map_eq_some.1 h
    exact Or.inl ⟨Cursor.termName_none.1 hn, e, rfl, he⟩
  · rename_i name b hn
    refine Or.inr ⟨name, b, hn, ?_⟩
    split_ifs at h with hs
    · exact Or.inl ⟨hs, h⟩
    · obtain ⟨e, he, rfl⟩ := Reply.map_eq_some.1 h
      exact Or.inr ⟨hs, e, rfl, he⟩

theorem termName_passes {c d : Cursor} {name : String} (h : c.termName = some (name, d)) : c.Passes d := by
  obtain ⟨hp, rfl⟩ := Cursor.termName_iff.1 h
  obtain ⟨-, t, ht⟩ := Cursor.peekTermName_iff.1 hp
  exact Cursor.passes_advance (Nat.succ_pos _) (by rw [ht]; simp)

theorem read_advances : Advances read := by
  intro c s d h
  rcases read_eq_some h with ⟨-, e, -, he⟩ | ⟨name, b, hn, ⟨-, hs⟩ | ⟨-, e, -, he⟩⟩
  · exact FilterExpr.read_advances c e d he
  · exact (termName_passes hn).trans_reaches (readSort_eq_some hs).2.2
  · exact (termName_passes hn).trans_reaches
      ((Cursor.reaches_skipBlanks b).trans (FilterExpr.read_advances _ e d he).reaches)

/-- a statement that was read is well shaped -/
theorem read_shape {c d : Cursor} {s : Statement} (h : (read c).value = some (s, d)) : s.WellShaped := by
  rcases read_eq_some h with ⟨-, e, rfl, he⟩ | ⟨name, b, hn, ⟨-, hs⟩ | ⟨hk, e, rfl, he⟩⟩
  · exact FilterExpr.read_shape he
  · exact (readSort_eq_some hs).1
  · exact ⟨(Cursor.peekTermName_iff.1 (Cursor.termName_iff.1 hn).1).1, hk, FilterExpr.read_shape he⟩

/-- no unqualified text is read behind a filter -/
theorem read_mayFollow {c b d : Cursor} {s t : Statement} (hs : (read c).value = some (s, b)) (hb : 0 < b.blanks)
    (ht : (read b.skipBlanks).value = some (t, d)) : s.MayFollow t := by
  intro hf
  obtain ⟨c', e, he⟩ : ∃ c' e, (FilterExpr.read c').value = some (e, b) := by
    rcases read_eq_some hs with ⟨-, e, -, he⟩ | ⟨name, b', -, ⟨-, hr⟩ | ⟨-, e, -, he⟩⟩
    · exact ⟨_, e, he⟩
    · rw [(readSort_eq_some hr).2.1] at hf
      exact absurd hf (by decide)
    · exact ⟨_, e, he⟩
  rcases read_eq_some ht with ⟨hn, x, -, hx⟩ | ⟨name, b', -, ⟨-, hr⟩ | ⟨-, x, rfl, -⟩⟩
  · rw [FilterExpr.read_behind he hb hn] at hx
    simp at hx
  · have := (readSort_eq_some hr).2.1
    cases t <;> simp_all [isFilter, isDefaultFilter]
  · rfl

variable {gap : Expectation}

/-- statements that are read one behind the other are well shaped and stand apart -/
theorem steps_shape {c d : Cursor} {statements : List Statement} (h : Steps (itemStep read gap) c statements d) :
    (∀ s ∈ statements, s.WellShaped) ∧ statements.IsChain MayFollow := by
  induction h with
  | nil c => exact ⟨by simp, .nil⟩
  | cons head _ tail ih =>
    obtain ⟨-, b, hb, hgap, rfl⟩ := itemStep_eq_some.1 head
    refine ⟨List.forall_mem_cons.2 ⟨read_shape hb, ih.1⟩, ?_⟩
    cases tail with
    | nil => exact .singleton _
    | cons head' _ _ =>
      obtain ⟨hne, b', hb', -, -⟩ := itemStep_eq_some.1 head'
      refine List.isChain_cons_cons.2 ⟨read_mayFollow hb (hgap.resolve_right fun h0 => hne ?_) hb', ih.2⟩
      rw [Cursor.rest_skipBlanks, h0]; rfl

end Statement

/-- **Everything that is read is well shaped**, and no sort has been executed yet. -/
theorem StatementList.parse_shape {text : String} {list : StatementList} (h : parse text = .ok list) :
    list.WellShaped ∧ list.hasOrder = false := by
  unfold parse at h
  cases hr : readAll Statement.read .statementBreak text with
  | error e => rw [hr] at h; simp [Except.map] at h
  | ok statements =>
    rw [hr] at h
    obtain rfl : { statements } = list := by simpa [Except.map] using h
    obtain ⟨d, hd, -⟩ := (readAll_eq_ok Statement.read_advances).1 hr
    obtain ⟨heach, hapart⟩ := Statement.steps_shape hd
    exact ⟨⟨heach, hapart⟩, rfl⟩

end FieldSearch
