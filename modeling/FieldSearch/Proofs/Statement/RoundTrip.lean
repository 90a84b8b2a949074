/-
Statements read back from their own text.

- `StopsAnd`, `StopsOr`: the texts in front of which an expression ends. The end and a `)` are such texts, and so is a
  blank in front of a name, even where the name is a keyword.
- `readsBack`: a well-shaped expression reads back in front of every text at which it ends. Its operands, its chains of
  `AND` and its chains of `OR` are followed side by side, as the text of each is a prefix of the text of the next.
- `read_literal`, `parse_literal`: well-shaped statements and lists read back.
-/
import FieldSearch.Proofs.Statement.Image

namespace FieldSearch

namespace FilterExpr

/-! ## What opens an expression -/

theorem literal_solid {e : FilterExpr} (he : e.WellShaped) : e.literal.toList ≠ [] ∧ Solid e.literal.toList := by
  induction e with
  | unary demand v =>
    cases demand with
    | present => exact ⟨writeValue_ne_nil v, solid_written v⟩
    | absent token =>
      rcases writeNegated_cases (v := v) he with ⟨-, hw⟩ | ⟨-, hw⟩ | ⟨-, hw⟩ <;> rw [literal, hw] <;>
        exact ⟨List.cons_ne_nil _ _, solid_cons.2 (by decide)⟩
  | and left right op ihl _ | or left right op ihl _ =>
    obtain ⟨hne, hs⟩ := ihl he.1
    rw [literal, joinOperands_toList]
    exact ⟨by simp [hne], solid_append hne hs⟩
  | group inner _ =>
    rw [literal, String.toList_append, String.toList_append]
    exact ⟨by simp, solid_cons.2 (by decide)⟩

/-- an expression is no name with its `:` -/
theorem noName_literal {e : FilterExpr} (he : e.WellShaped) {c : Cursor} {tail : List Char}
    (h : c.rest = e.literal.toList ++ tail) (ht : Ends tail) : c.peekTermName = none := by
  induction e generalizing tail with
  | unary demand v =>
    cases demand with
    | present => exact (opensOperand_written h ht).noName
    | absent token => exact noName_negated he h
  | and left right op ihl _ | or left right op ihl _ =>
    rw [literal, joinOperands_toList, List.append_assoc, List.append_assoc] at h
    exact ihl he.1 h (ends_joiner op _)
  | group inner _ =>
    rw [literal, String.toList_append, String.toList_append, List.append_assoc] at h
    exact (opensOperand_cons h (Or.inr rfl)).noName

/-- blanks in front of an expression join it if it starts with no negation -/
theorem opensOperand_literal {e : FilterExpr} (he : e.WellShaped) (hor : e.isOr = false)
    (hn : e.leading.isNegated = false) {c : Cursor} {tail : List Char} (h : c.rest = e.literal.toList ++ tail)
    (ht : Ends tail) : OpensOperand c := by
  induction e generalizing tail with
  | unary demand v =>
    cases demand with
    | present => exact opensOperand_written h ht
    | absent token => simp [leading, isNegated] at hn
  | and left right op ihl _ =>
    rw [literal, joinOperands_toList, List.append_assoc, List.append_assoc] at h
    exact ihl he.1 he.2.2.1 hn h (ends_joiner op _)
  | or left right op _ _ => simp [isOr] at hor
  | group inner _ =>
    rw [literal, String.toList_append, String.toList_append, List.append_assoc] at h
    exact opensOperand_cons h (Or.inr rfl)

/-! ## Operators as they are written -/

theorem readAndToken_written {c : Cursor} {op : String} {right : FilterExpr} {tail : List Char} (hr : right.WellShaped)
    (hop : op = "AND" ∨ op = "&&" ∨ op = blankToken ∧ right.isNegated = true)
    (h : c.rest = writtenJoiner op ++ (right.literal.toList ++ tail)) :
    readAndToken c = some (op, c.advance (writtenJoiner op).length) := by
  obtain hop | ⟨rfl, hneg⟩ := or_assoc.2 hop
  · obtain ⟨hw, hl⟩ := writtenJoiner_typed op (by rcases hop with rfl | rfl <;> decide) (right.literal.toList ++ tail)
    obtain ⟨hne, hs⟩ := literal_solid hr
    rw [readAndToken, readJoiner_written (by decide) (Or.inl rfl) hop (h.trans hw) (solid_append hne hs), hl]
  · obtain ⟨token, v, rfl⟩ : ∃ token v, right = .unary (.absent token) v := by
      cases right with
      | unary demand v =>
        cases demand with
        | present => simp [isNegated] at hneg
        | absent token => exact ⟨token, v, rfl⟩
      | _ => simp [isNegated] at hneg
    rw [writtenJoiner_blank] at h ⊢
    have ho : OpensNegation (c.advance 1) := opensNegation_written hr (by rw [Cursor.rest_advance, h]; rfl)
    obtain ⟨hne, hs⟩ := literal_solid hr
    have hs := solid_append (r := tail) hne hs
    have hskip := Cursor.skipBlanks_of_space h hs
    have hj : readJoiner "AND" "&&" c = none :=
      readJoiner_eq_none (by rw [hskip]; exact ho.noAnd) (by rw [hskip]; exact ho.noAmps)
    rw [readAndToken, hj]
    simp [hskip, Cursor.blanks_of_space h hs, ho.negation]

theorem readOrToken_written {c : Cursor} {op : String} {right : FilterExpr} {tail : List Char} (hr : right.WellShaped)
    (hor : right.isOr = false) (hop : op = "OR" ∨ op = "||" ∨ op = blankToken ∧ right.leading.isNegated = false)
    (h : c.rest = writtenJoiner op ++ (right.literal.toList ++ tail)) (ht : Ends tail) :
    readOrToken c = some (op, c.advance (writtenJoiner op).length) := by
  obtain hop | ⟨rfl, hneg⟩ := or_assoc.2 hop
  · obtain ⟨hw, hl⟩ := writtenJoiner_typed op (by rcases hop with rfl | rfl <;> decide) (right.literal.toList ++ tail)
    obtain ⟨hne, hs⟩ := literal_solid hr
    rw [readOrToken, readJoiner_written (by decide) (Or.inr rfl) hop (h.trans hw) (solid_append hne hs), hl]
  · rw [writtenJoiner_blank] at h ⊢
    have ho : OpensOperand (c.advance 1) := opensOperand_literal hr hor hneg (by rw [Cursor.rest_advance, h]; rfl) ht
    obtain ⟨hjoin, hskip⟩ := blanksJoin_written h ho
    obtain ⟨hk, -, hbars, -, -⟩ := atOperator_eq_false.1 ho.noOperator
    have hj : readJoiner "OR" "||" c = none :=
      readJoiner_eq_none (by rw [hskip]; exact hk "OR" (by decide)) (by rw [hskip]; exact hbars)
    rw [readOrToken, hj]
    simp [hjoin, hskip]

/-! ## Where expressions end -/

/-- a text in front of which no `AND` goes on -/
def StopsAnd (tail : List Char) : Prop := ∀ c : Cursor, c.rest = tail → (andLink c).value = some (none, c)

/-- a text in front of which no `OR` goes on -/
def StopsOr (tail : List Char) : Prop := ∀ c : Cursor, c.rest = tail → (orLink c).value = some (none, c)

theorem stopsAnd_closes {tail : List Char} (h : Closes tail) : StopsAnd tail := by
  rintro c rfl
  refine readLink_eq_none.2 ⟨rfl, fun op b ht => ?_⟩
  rw [readAndToken, readJoiner_closes h (by decide) (Or.inl rfl)] at ht
  simp [Cursor.blanks_of_solid h.solid] at ht

theorem stopsOr_closes {tail : List Char} (h : Closes tail) : StopsOr tail := by
  rintro c rfl
  refine readLink_eq_none.2 ⟨rfl, fun op b ht => ?_⟩
  rw [readOrToken, readJoiner_closes h (by decide) (Or.inr rfl), blanksJoin_closes h] at ht
  simp at ht

/-- an expression ends in front of a name: even where the name is a keyword no operand stands at its `:` -/
theorem stopsAnd_name {n : String} {t : List Char} (hn : isIdentifier n = true) :
    StopsAnd (' ' :: (n.toList ++ ':' :: t)) := by
  intro c hc
  have hskip := Cursor.skipBlanks_of_space hc (identifier_solid hn _)
  have hr : (c.advance 1).rest = n.toList ++ ':' :: t := by rw [Cursor.rest_advance, hc]; rfl
  refine readLink_eq_none.2 ⟨rfl, fun op b ht => ?_⟩
  rw [readAndToken, readJoiner_name hn hc (by decide) (Or.inl rfl)] at ht
  by_cases hk : n = "AND"
  · simp only [hk, if_true, Option.some.injEq, Prod.mk.injEq] at ht
    obtain ⟨-, rfl⟩ := ht
    refine readOperand_none_of_head (a := ':') (t := t) ?_ (by decide)
    rw [← Cursor.advance_advance, ← hk]
    exact Cursor.rest_behind hr
  · simp only [hk, if_false, hskip] at ht
    split_ifs at ht with hneg
    simp only [Option.some.injEq, Prod.mk.injEq] at ht
    obtain ⟨-, rfl⟩ := ht
    simp only [Bool.and_eq_true] at hneg
    exact readOperand_none_of_name hn hr hneg.2

theorem stopsOr_name {n : String} {t : List Char} (hn : isIdentifier n = true) :
    StopsOr (' ' :: (n.toList ++ ':' :: t)) := by
  intro c hc
  have hr : (c.advance 1).rest = n.toList ++ ':' :: t := by rw [Cursor.rest_advance, hc]; rfl
  refine readLink_eq_none.2 ⟨rfl, fun op b ht => ?_⟩
  rw [readOrToken, readJoiner_name hn hc (by decide) (Or.inr rfl), blanksJoin_name hn hc] at ht
  by_cases hk : n = "OR"
  · simp only [hk, if_true, Option.some.injEq, Prod.mk.injEq] at ht
    obtain ⟨-, rfl⟩ := ht
    refine readAnd_none (readOperand_none_of_head (a := ':') (t := t) ?_ (by decide))
    rw [← Cursor.advance_advance, ← hk]
    exact Cursor.rest_behind hr
  · simp [hk] at ht

/-- no `AND` goes on in front of an `OR` -/
theorem stopsAnd_or {op : String} {right : FilterExpr} {tail : List Char} (hr : right.WellShaped)
    (hor : right.isOr = false) (hop : op = "OR" ∨ op = "||" ∨ op = blankToken ∧ right.leading.isNegated = false)
    (ht : Ends tail) : StopsAnd (writtenJoiner op ++ (right.literal.toList ++ tail)) := by
  intro c hc
  obtain ⟨hj, hneg⟩ : readJoiner "AND" "&&" c = none ∧ c.skipBlanks.atNegation = false := by
    refine noAnd_written ((or_assoc.2 hop).imp_right ?_) hc
    rintro ⟨rfl, hneg⟩
    rw [writtenJoiner_blank] at hc
    exact ⟨rfl, opensOperand_literal hr hor hneg (by rw [Cursor.rest_advance, hc]; rfl) ht⟩
  refine readLink_eq_none.2 ⟨rfl, fun op' b ht => ?_⟩
  rw [readAndToken, hj, hneg] at ht
  simp at ht

/-! ## Expressions read back -/

/-- the operands of `AND` up to a place, where the chain may go on, give an expression -/
abbrev Conjuncts : FilterExpr → Cursor → Cursor → Prop :=
  ChainTo (readOperand forms read) andLink fun left link => .and left link.2 link.1

/-- the operands of `OR` up to a place, where the chain may go on, give an expression -/
abbrev Disjuncts : FilterExpr → Cursor → Cursor → Prop :=
  ChainTo (readAnd read) orLink fun left link => .or left link.2 link.1

/-- what reading makes of the text of an expression, behind which a value may end -/
structure ReadsBack (e : FilterExpr) : Prop where
  operand : e.isOperand = true → ∀ (c : Cursor) tail, c.rest = e.literal.toList ++ tail → Ends tail →
    (readOperand forms read c).value = some (e, c.advance e.literal.length)
  conjuncts : e.isOr = false → ∀ (c : Cursor) tail, c.rest = e.literal.toList ++ tail → Ends tail →
    Conjuncts e c (c.advance e.literal.length)
  disjuncts : ∀ (c : Cursor) tail, c.rest = e.literal.toList ++ tail → Ends tail → StopsAnd tail →
    Disjuncts e c (c.advance e.literal.length)

namespace ReadsBack

variable {e : FilterExpr} {c : Cursor} {tail : List Char}

theorem readAnd (he : ReadsBack e) (hor : e.isOr = false) (h : c.rest = e.literal.toList ++ tail) (ht : Ends tail)
    (hand : StopsAnd tail) : (readAnd read c).value = some (e, c.advance e.literal.length) :=
  (he.conjuncts hor c tail h ht).ends (hand _ (Cursor.rest_behind h))

theorem read (he : ReadsBack e) (h : c.rest = e.literal.toList ++ tail) (ht : Ends tail) (hand : StopsAnd tail)
    (hor : StopsOr tail) : (read c).value = some (e, c.advance e.literal.length) := by
  rw [read_eq]
  exact (he.disjuncts c tail h ht hand).ends (hor _ (Cursor.rest_behind h))

/-- a chain of `AND` is a chain of `OR` without a link -/
theorem of_conjuncts (hop : e.isOperand = true → ∀ (c : Cursor) tail, c.rest = e.literal.toList ++ tail → Ends tail →
      (readOperand forms FilterExpr.read c).value = some (e, c.advance e.literal.length))
    (h : ∀ (c : Cursor) tail, c.rest = e.literal.toList ++ tail → Ends tail →
      Conjuncts e c (c.advance e.literal.length)) : ReadsBack e where
  operand := hop
  conjuncts _ := h
  disjuncts c tail hc ht hand := .first ((h c tail hc ht).ends (hand _ (Cursor.rest_behind hc)))

/-- an operand is a chain without a link -/
theorem of_operand
    (h : ∀ (c : Cursor) tail, c.rest = e.literal.toList ++ tail → Ends tail →
      (readOperand forms FilterExpr.read c).value = some (e, c.advance e.literal.length)) : ReadsBack e :=
  of_conjuncts (fun _ => h) fun c tail hc ht => .first (h c tail hc ht)

theorem unary {demand : Demand} {v : String} (he : (FilterExpr.unary demand v).WellShaped) :
    ReadsBack (.unary demand v) := by
  refine of_operand fun c tail h ht => ?_
  cases demand with
  | present => exact readOperand_single h ht
  | absent token => exact readOperand_negated he h ht

theorem group {inner : FilterExpr} (hw : inner.WellShaped) (hin : ReadsBack inner) : ReadsBack (.group inner) := by
  refine of_operand fun c tail h ht => ?_
  have hr : c.rest = '(' :: (inner.literal.toList ++ ')' :: tail) := by
    rw [h, literal, String.toList_append, String.toList_append]
    simp
  obtain ⟨hne, hs⟩ := literal_solid hw
  have hclose : Closes (')' :: tail) := by simp [Closes]
  have hread : (FilterExpr.read (c.advance 1)).value =
      some (inner, (c.advance 1).advance inner.literal.toList.length) := by
    rw [String.length_toList]
    exact hin.read (by rw [Cursor.rest_advance, hr]; rfl) hclose.ends (stopsAnd_closes hclose) (stopsOr_closes hclose)
  have hl : (FilterExpr.group inner).literal.length = inner.literal.toList.length + 2 := by
    rw [literal, ← String.length_toList, String.toList_append, String.toList_append]
    simp
  rw [readOperand_group hr (solid_append hne hs) hread, hl]
  rfl

theorem and {left right : FilterExpr} {op : String} (hw : (FilterExpr.and left right op).WellShaped)
    (hl : ReadsBack left) (hr : ReadsBack right) : ReadsBack (.and left right op) := by
  obtain ⟨-, hrw, hlor, hro, hop⟩ := hw
  refine of_conjuncts (fun ho => by simp [isOperand] at ho) fun c tail h ht => ?_
  rw [literal] at h
  obtain ⟨h1, h2⟩ := rest_joined h
  rw [joinOperands_toList, List.append_assoc, List.append_assoc] at h
  have hleft := hl.conjuncts hlor c _ h (ends_joiner op _)
  have hstep : (andLink (c.advance left.literal.length)).value =
      some (some (op, right), c.advance (FilterExpr.and left right op).literal.length) := by
    refine readLink_eq_some.2 ⟨_, readAndToken_written hrw hop h1, ?_⟩
    rw [hr.operand hro _ tail h2 ht, literal, advance_joined]
  refine hleft.snoc hstep ?_
  rw [literal, ← advance_joined]
  exact shorter_behind (literal_solid hrw).1 h2

theorem or {left right : FilterExpr} {op : String} (hw : (FilterExpr.or left right op).WellShaped)
    (hl : ReadsBack left) (hr : ReadsBack right) : ReadsBack (.or left right op) where
  operand ho := by simp [isOperand] at ho
  conjuncts hor := by simp [isOr] at hor
  disjuncts c tail h ht hand := by
    obtain ⟨-, hrw, hror, hop⟩ := hw
    rw [literal] at h
    obtain ⟨h1, h2⟩ := rest_joined h
    rw [joinOperands_toList, List.append_assoc, List.append_assoc] at h
    have hleft := hl.disjuncts c _ h (ends_joiner op _) (stopsAnd_or hrw hror hop ht)
    have hstep : (orLink (c.advance left.literal.length)).value =
        some (some (op, right), c.advance (FilterExpr.or left right op).literal.length) := by
      refine readLink_eq_some.2 ⟨_, readOrToken_written hrw hror hop h1 ht, ?_⟩
      rw [hr.readAnd hror h2 ht hand, literal, advance_joined]
    refine hleft.snoc hstep ?_
    rw [literal, ← advance_joined]
    exact shorter_behind (literal_solid hrw).1 h2

end ReadsBack

/-- every well-shaped expression reads back -/
theorem readsBack {e : FilterExpr} (he : e.WellShaped) : ReadsBack e := by
  induction e with
  | unary demand v => exact .unary he
  | and left right op ihl ihr => exact .and he (ihl he.1) (ihr he.2.1)
  | or left right op ihl ihr => exact .or he (ihl he.1) (ihr he.2.1)
  | group inner ih => exact .group he (ih he)

end FilterExpr

/-! ## Statements read back -/

namespace Statement

/-- a text that may stand behind a statement: none at all, or a blank with a name and its `:` behind it where the
statement filters -/
def Precedes (s : Statement) (tail : List Char) : Prop :=
  tail = [] ∨ ∃ t, tail = ' ' :: t ∧
    (s.isFilter = true → ∃ n r, isIdentifier n = true ∧ t = n.toList ++ ':' :: r)

theorem Precedes.ends {s : Statement} {tail : List Char} (h : s.Precedes tail) : Ends tail := by
  rcases h with rfl | ⟨t, rfl, -⟩
  · exact ends_nil
  · exact ends_blank t

/-- an expression ends where the statement does -/
theorem read_expression {e : FilterExpr} (he : e.WellShaped) {s : Statement} (hs : s.isFilter = true) {c : Cursor}
    {tail : List Char} (h : c.rest = e.literal.toList ++ tail) (ht : s.Precedes tail) :
    (FilterExpr.read c).value = some (e, c.advance e.literal.length) := by
  refine (FilterExpr.readsBack he).read h ht.ends ?_ ?_
  · rcases ht with rfl | ⟨t, rfl, hn⟩
    · exact FilterExpr.stopsAnd_closes (by simp [Closes])
    · obtain ⟨n, r, hid, rfl⟩ := hn hs
      exact FilterExpr.stopsAnd_name hid
  · rcases ht with rfl | ⟨t, rfl, hn⟩
    · exact FilterExpr.stopsOr_closes (by simp [Closes])
    · obtain ⟨n, r, hid, rfl⟩ := hn hs
      exact FilterExpr.stopsOr_name hid

theorem readSort_written {field : String} {direction : SortExpr} (hs : (Statement.sort field direction).WellShaped)
    {c : Cursor} {tail : List Char} (h : c.rest = field.toList ++ (direction.literal.toList ++ tail))
    (ht : ∀ a ∈ tail.head?, isBlank a = true) :
    (readSort c).value = some (.sort field direction, c.advance (field.length + direction.literal.length)) := by
  obtain ⟨hne, hchars⟩ := hs
  have hfield : (c.span fun a => !isBlank a && a != '-') = field.toList := by
    rw [Cursor.span, h]
    refine takeWhile_run (fun a ha => by simp [hchars a ha]) fun a ha => ?_
    cases direction with
    | ascending explicit =>
      cases explicit with
      | false => simp [ht a (by simpa [SortExpr.literal] using ha)]
      | true => simp [SortExpr.literal] at ha; simp [← ha]
    | descending => simp [SortExpr.literal] at ha; simp [← ha]
  have hempty : field.toList.isEmpty = false := by
    rw [List.isEmpty_eq_false_iff]
    exact fun h0 => hne (String.toList_inj.1 h0)
  obtain ⟨b, hb⟩ : ∃ b, b = c.advance field.length := ⟨_, rfl⟩
  have hbr : b.rest = direction.literal.toList ++ tail := by
    rw [hb]; exact Cursor.rest_behind h
  have hsuffix : (b.span fun a => !isBlank a) = direction.literal.toList := by
    rw [Cursor.span, hbr]
    refine takeWhile_run (fun a ha => ?_) fun a ha => by simp [ht a ha]
    cases direction with
    | ascending explicit =>
      cases explicit with
      | false => simp [SortExpr.literal] at ha
      | true =>
        have hall : ("-asc".toList.all fun a => !isBlank a) = true := by decide
        exact List.all_eq_true.1 hall a ha
    | descending =>
      have hall : ("-desc".toList.all fun a => !isBlank a) = true := by decide
      exact List.all_eq_true.1 hall a ha
  simp only [readSort, hfield, hempty, String.ofList_toList, String.length_toList, ← hb, hsuffix, Bool.false_eq_true,
    if_false, ← Cursor.advance_advance]
  cases direction with
  | ascending explicit =>
    cases explicit with
    | false =>
      have hpeek : b.peek ≠ some '-' := by
        rw [Cursor.peek, hbr]
        intro he
        have := ht '-' (by simpa [SortExpr.literal] using he)
        exact absurd this (by decide)
      simp [hpeek, SortExpr.literal]
    | true =>
      have hpeek : b.peek = some '-' := by rw [Cursor.peek, hbr]; rfl
      have hsort : suffixSort? (nameKey "-asc") = some (.ascending true) := by decide
      simp [hpeek, SortExpr.literal, hsort]
  | descending =>
    have hpeek : b.peek = some '-' := by rw [Cursor.peek, hbr]; rfl
    have hsort : suffixSort? (nameKey "-desc") = some .descending := by decide
    simp [hpeek, SortExpr.literal, hsort]

theorem literal_solid {s : Statement} (hs : s.WellShaped) : s.literal.toList ≠ [] ∧ Solid s.literal.toList := by
  cases s with
  | defaultFilter e => exact FilterExpr.literal_solid hs
  | fieldFilter name e =>
    have h := identifier_solid hs.1 (':' :: e.literal.toList)
    have hl : (fieldFilter name e).literal.toList = name.toList ++ ':' :: e.literal.toList := by simp [literal]
    rw [hl]
    exact ⟨by simp, h⟩
  | sort field direction =>
    have hl : (sort field direction).literal.toList =
        "sort".toList ++ ':' :: (field.toList ++ direction.literal.toList) := by simp [literal]
    rw [hl]
    exact ⟨by simp, identifier_solid (by decide) _⟩
  | defaultSort field direction => exact absurd hs id

/-- a well-shaped statement reads back in front of what may stand behind it -/
theorem read_literal {s : Statement} (hs : s.WellShaped) {c : Cursor} {tail : List Char}
    (h : c.rest = s.literal.toList ++ tail) (ht : s.Precedes tail) :
    (read c).value = some (s, c.advance s.literal.length) := by
  cases s with
  | defaultFilter e =>
    have hn : c.termName = none := Cursor.termName_none.2 (FilterExpr.noName_literal hs h ht.ends)
    rw [read, hn]
    simp [read_expression (s := .defaultFilter e) hs rfl h ht, literal]
  | fieldFilter name e =>
    obtain ⟨hid, hkey, he⟩ := hs
    have hr : c.rest = name.toList ++ ':' :: (e.literal.toList ++ tail) := by rw [h]; simp [literal]
    obtain ⟨hne, hsol⟩ := FilterExpr.literal_solid he
    have hb := Cursor.rest_advance_name hr
    have hskip := Cursor.skipBlanks_of_solid (c := c.advance (name.length + 1))
      (by rw [hb]; exact solid_append hne hsol)
    have hl : (fieldFilter name e).literal.length = name.length + 1 + e.literal.length := by
      simp [literal, ← String.length_toList]; omega
    rw [read, Cursor.termName_written hid hr]
    simp only [hkey, if_false, hskip, Reply.value_map]
    rw [read_expression (s := .fieldFilter name e) he rfl hb ht, hl, Cursor.advance_advance]
    rfl
  | sort field direction =>
    have hr : c.rest = "sort".toList ++ ':' :: (field.toList ++ (direction.literal.toList ++ tail)) := by
      rw [h]; simp [literal]
    have hb := Cursor.rest_advance_name hr
    have htail : ∀ a ∈ tail.head?, isBlank a = true := by
      rcases ht with rfl | ⟨t, rfl, -⟩
      · simp
      · rintro a ha
        simp only [List.head?_cons, Option.mem_some_iff] at ha
        subst ha; decide
    have hl : (sort field direction).literal.length =
        "sort".length + 1 + (field.length + direction.literal.length) := by
      simp [literal, ← String.length_toList]; omega
    rw [read, Cursor.termName_written (by decide) hr]
    simp only [show nameKey "sort" = "sort" by decide, if_true]
    rw [readSort_written hs hb htail, hl, Cursor.advance_advance]
  | defaultSort field direction => exact absurd hs id

/-- the text of a statement that is no unqualified text starts with a name and its `:` -/
theorem literal_named {s : Statement} (hs : s.WellShaped) (hd : s.isDefaultFilter = false) :
    ∃ n r, isIdentifier n = true ∧ s.literal.toList = n.toList ++ ':' :: r := by
  cases s with
  | defaultFilter e => simp [isDefaultFilter] at hd
  | fieldFilter name e => exact ⟨name, e.literal.toList, hs.1, by simp [literal]⟩
  | sort field direction =>
    exact ⟨"sort", field.toList ++ direction.literal.toList, by decide, by simp [literal]⟩
  | defaultSort field direction => exact absurd hs id

/-- the statements behind a statement may stand there -/
theorem precedes_written {s : Statement} {post : List Statement} (hpost : ∀ t ∈ post, t.WellShaped)
    (hapart : (s :: post).IsChain MayFollow) : s.Precedes (writtenBehind (post.map literal)) := by
  cases post with
  | nil => exact Or.inl rfl
  | cons t post =>
    refine Or.inr ⟨_, rfl, fun hf => ?_⟩
    obtain ⟨n, r, hn, hl⟩ := literal_named (hpost t (by simp)) ((List.isChain_cons_cons.1 hapart).1 hf)
    exact ⟨n, r ++ writtenBehind (post.map literal), hn, by rw [List.map_cons, joinSpaced_cons, hl]; simp⟩

end Statement

namespace StatementList

/-- every well-shaped statement leaves a text -/
theorem literal_eq {list : StatementList} (h : ∀ s ∈ list.statements, s.WellShaped) :
    list.literal = joinSpaced (list.statements.map Statement.literal) := by
  rw [literal, List.filter_eq_self.2]
  intro x hx
  obtain ⟨s, hs, rfl⟩ := List.mem_map.1 hx
  have hne := (Statement.literal_solid (h s hs)).1
  rw [decide_eq_true_eq]
  intro h0
  rw [h0] at hne
  exact hne rfl

/-- **A well-shaped list reads back from its own text**, as it was before any execution. -/
theorem parse_literal {list : StatementList} (h : list.WellShaped) :
    parse list.literal = .ok { list with hasOrder := false } := by
  have hread : readAll Statement.read .statementBreak (joinSpaced (list.statements.map Statement.literal)) =
      .ok list.statements := by
    refine readAll_written Statement.read_advances (fun s hs => Statement.literal_solid (h.each s hs))
      fun pre s post hp c hc => ?_
    have hsuffix : s :: post <:+ list.statements := ⟨pre, hp.symm⟩
    refine Statement.read_literal (h.each s (hsuffix.subset (by simp))) hc ?_
    exact Statement.precedes_written (fun t ht => h.each t (hsuffix.subset (by simp [ht]))) (h.apart.suffix hsuffix)
  calc parse list.literal
      = (readAll Statement.read .statementBreak (joinSpaced (list.statements.map Statement.literal))).map
          fun statements => { statements } := by rw [parse, literal_eq h.each]
    _ = .ok { list with hasOrder := false } := by rw [hread]; rfl

/-- a text says a list that is written as this text -/
theorem parse_of_literal {list : StatementList} {text : String} (h : list.WellShaped) (ho : list.hasOrder = false)
    (ht : list.literal = text) : parse text = .ok list := by
  rw [← ht, parse_literal h, ← ho]

/-- **The lists that texts say are the well-shaped ones.** Each reads back from its own text, and nothing else is read
from any text. -/
theorem parse_exact :
    (∀ list : StatementList, list.WellShaped → parse list.literal = .ok { list with hasOrder := false }) ∧
      ∀ list : StatementList, (∃ text, parse text = .ok list) ↔ list.WellShaped ∧ list.hasOrder = false := by
  refine ⟨fun list h => parse_literal h, fun list => ⟨fun ⟨text, h⟩ => parse_shape h, ?_⟩⟩
  exact fun ⟨h, ho⟩ => ⟨list.literal, parse_of_literal h ho rfl⟩

/-- fields named like keywords, values that look like operators, and blanks that join -/
def keywordFields : StatementList where
  statements := [
    .fieldFilter "AND" (.or (.and (.notMatching "-" "x") (.group (.or (.matching "OR") (.matching "") " ")) "&&")
      (.and (.matching "a\"\\b") (.notMatching "NOT" "c d") " ") "||"),
    .fieldFilter "Or" (.matching "("), .sort "date" .descending, .defaultFilter (.notMatching "!" "sort:x"),
    .fieldFilter "NOT" (.and (.matching "AND") (.matching "-y") "AND")]

theorem parse_exact_keywordFields :
    keywordFields.WellShaped ∧ parse keywordFields.literal = .ok keywordFields ∧
      ∃ text, parse text = .ok keywordFields := by
  have h : keywordFields.WellShaped := by decide
  exact ⟨h, parse_exact.1 keywordFields h, (parse_exact.2 keywordFields).2 ⟨h, rfl⟩⟩

end StatementList

end FieldSearch
