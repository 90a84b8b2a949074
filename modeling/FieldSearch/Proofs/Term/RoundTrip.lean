/-
Operations read back from their own text.

- `StopsAnd`, `StopsLink`: the texts in front of which an operation ends. A blank in front of a name is such a text unless
  the name is a keyword.
- `readsBack`: a well-shaped operation reads back in front of every text at which it ends.
- `link_typed`, `link_blank`: where the text of a link stands it is read as far as its right operand can be.
- `readMany_fails`: a chain of `AND` in front of a name that is a keyword cannot be read at all, nor can any operation in
  front of the names `OR` and `NOT`. The name is taken for an operator, and behind an operator that was typed a missing
  operand is a failure.
-/
import FieldSearch.Proofs.Term.Reading

namespace FieldSearch.Operation

/-! ## What opens an operation -/

theorem literal_solid {n : Operation} (hn : n.WellShaped) : n.literal.toList ≠ [] ∧ Solid n.literal.toList := by
  induction n with
  | unary v => exact ⟨writeValue_ne_nil v, solid_written v⟩
  | notUnary op v =>
    rcases writeNegated_cases (v := v) hn with ⟨-, hw⟩ | ⟨-, hw⟩ | ⟨-, hw⟩ <;> rw [literal, hw] <;>
      exact ⟨List.cons_ne_nil _ _, solid_cons.2 (by decide)⟩
  | and left right op ihl _ | or left right op ihl _ =>
    obtain ⟨hne, hs⟩ := ihl hn.1
    rw [literal, joinOperands_toList]
    exact ⟨by simp [hne], solid_append hne hs⟩
  | not left v op ih =>
    obtain ⟨hne, hs⟩ := ih hn.1
    rw [literal, String.toList_append, String.toList_append, List.append_assoc]
    exact ⟨by simp [hne], solid_append hne hs⟩
  | group inner _ =>
    rw [literal, String.toList_append, String.toList_append]
    exact ⟨by simp, solid_cons.2 (by decide)⟩

/-- no blanks come in front of an operation -/
theorem skipBlanks_literal {n : Operation} (hn : n.WellShaped) {c : Cursor} {tail : List Char}
    (h : c.rest = n.literal.toList ++ tail) : c.skipBlanks = c := by
  obtain ⟨hne, hs⟩ := literal_solid hn
  exact Cursor.skipBlanks_of_solid (by rw [h]; exact solid_append hne hs)

/-- blanks in front of a chain of `AND` join it if it starts with no negation -/
theorem opensOperand_literal {n : Operation} (hw : n.WellShaped) (hc : n.isConjunction = true)
    (hn : n.leading.isNegated = false) {c : Cursor} {tail : List Char} (h : c.rest = n.literal.toList ++ tail)
    (ht : Ends tail) : OpensOperand c := by
  induction n generalizing tail with
  | unary v => exact opensOperand_written h ht
  | notUnary op v => simp [leading, isNegated] at hn
  | and left right op ihl _ =>
    rw [literal, joinOperands_toList, List.append_assoc, List.append_assoc] at h
    exact ihl hw.1 hw.2.2.1 hn h (ends_joiner op _)
  | or left right op _ _ => simp [isConjunction] at hc
  | not left v op _ => simp [isConjunction] at hc
  | group inner _ =>
    rw [literal, String.toList_append, String.toList_append, List.append_assoc] at h
    exact opensOperand_cons h (Or.inr rfl)

/-- the text of an operation starts with no name with its `:` -/
theorem noName_literal {n : Operation} (hw : n.WellShaped) {c : Cursor} {tail : List Char}
    (h : c.rest = n.literal.toList ++ tail) (ht : Ends tail) : c.peekTermName = none := by
  induction n generalizing tail with
  | unary v => exact (opensOperand_written h ht).noName
  | notUnary op v => exact noName_negated hw h
  | and left right op ih _ | or left right op ih _ =>
    rw [literal, joinOperands_toList, List.append_assoc, List.append_assoc] at h
    exact ih hw.1 h (ends_joiner op _)
  | not left v op ih =>
    rw [literal, String.toList_append, String.toList_append, List.append_assoc, List.append_assoc] at h
    exact ih hw.1 h (ends_blank _)
  | group inner _ =>
    rw [literal, String.toList_append, String.toList_append, List.append_assoc] at h
    exact (opensOperand_cons h (Or.inr rfl)).noName

/-! ## Where operations end -/

/-- a text in front of which no `AND` comes next -/
def StopsAnd (tail : List Char) : Prop := ∀ c : Cursor, c.rest = tail → readJoiner "AND" "&&" c = none

/-- a text in front of which neither `OR` nor `NOT` goes on -/
def StopsLink (tail : List Char) : Prop := ∀ c : Cursor, c.rest = tail → (link c).value = some (none, c)

theorem stopsAnd_closes {tail : List Char} (h : Closes tail) : StopsAnd tail := by
  rintro c rfl
  exact readJoiner_closes h (by decide) (Or.inl rfl)

theorem stopsLink_closes {tail : List Char} (h : Closes tail) : StopsLink tail := by
  rintro c rfl
  refine readLink_stops (readJoiner_closes h (by decide) (Or.inr rfl)) ?_ (blanksJoin_closes h)
  simp [readNotToken, Cursor.skipBlanks_of_solid h.solid,
    atKeyword_of_startsWith (h.startsWith (s := "NOT") rfl (by decide)), h.startsWith (s := "!") rfl (by decide),
    h.startsWith (s := "-") rfl (by decide)]

/-- in front of a name the negation is at most the name itself, and then its `:` comes next -/
theorem readNotToken_name {c : Cursor} {name : String} {t : List Char} (hn : isIdentifier name = true)
    (h : c.rest = ' ' :: (name.toList ++ ':' :: t)) :
    readNotToken c = if name = "NOT" then some ("NOT", c.advance 4) else none := by
  have hsol := identifier_solid hn (':' :: t)
  have hskip := Cursor.skipBlanks_of_space h hsol
  have hr : (c.advance 1).rest = name.toList ++ ':' :: t := by rw [Cursor.rest_advance, h]; rfl
  have hsp : spaced c = true := by simp [spaced, Cursor.blanks_of_space h hsol]
  rw [readNotToken_spaced hsp, hskip, readNegation, startsWith_name hn hr (s := "!") rfl (by decide),
    startsWith_name hn hr (s := "-") rfl (by decide)]
  simp only [atKeyword_name hn hr (show "NOT" ∈ keywords by decide), Cursor.advance_advance, Bool.false_eq_true, if_false]

/-- an operation ends in front of a name that is no keyword -/
theorem stopsAnd_name {name : String} {t : List Char} (hn : isIdentifier name = true) (hk : name ≠ "AND") :
    StopsAnd (' ' :: (name.toList ++ ':' :: t)) := by
  intro c hc
  rw [readJoiner_name hn hc (by decide) (Or.inl rfl), if_neg hk]

theorem stopsLink_name {name : String} {t : List Char} (hn : isIdentifier name = true) (ho : name ≠ "OR")
    (hk : name ≠ "NOT") : StopsLink (' ' :: (name.toList ++ ':' :: t)) := by
  intro c hc
  refine readLink_stops ?_ ?_ (blanksJoin_name hn hc)
  · rw [readJoiner_name hn hc (by decide) (Or.inr rfl), if_neg ho]
  · rw [readNotToken_name hn hc, if_neg hk]

/-! ## Links as they are written -/

variable {c : Cursor} {op : String} {tail : List Char}

theorem readAndLink_written {right : Operation} (hr : right.WellShaped) (hop : op = "AND" ∨ op = "&&")
    (h : c.rest = writtenJoiner op ++ (right.literal.toList ++ tail)) :
    readJoiner "AND" "&&" c = some (op, c.advance (writtenJoiner op).length) := by
  obtain ⟨hw, hl⟩ := writtenJoiner_typed op (by rcases hop with rfl | rfl <;> decide)
    (right.literal.toList ++ tail)
  obtain ⟨hne, hs⟩ := literal_solid hr
  rw [readJoiner_written (by decide) (Or.inl rfl) hop (h.trans hw) (solid_append hne hs), hl]

/-- no `AND` goes on in front of an `OR` -/
theorem stopsAnd_or {right : Operation} (hr : right.WellShaped) (hc : right.isConjunction = true)
    (hop : op = "OR" ∨ op = "||" ∨ op = blankToken ∧ right.leading.isNegated = false) (ht : Ends tail) :
    StopsAnd (writtenJoiner op ++ (right.literal.toList ++ tail)) := by
  intro c h
  refine (noAnd_written ((or_assoc.2 hop).imp_right ?_) h).1
  rintro ⟨rfl, hneg⟩
  rw [writtenJoiner_blank] at h
  exact ⟨rfl, opensOperand_literal hr hc hneg (by rw [Cursor.rest_advance, h]; rfl) ht⟩

/-- where `OR` is written the link is what can be read behind it -/
theorem link_typed {right : Operation} (hr : right.WellShaped) (hop : op = "OR" ∨ op = "||")
    (h : c.rest = writtenJoiner op ++ (right.literal.toList ++ tail)) :
    link c = (readAnd readMany (c.advance (writtenJoiner op).length)).map fun right => some (.or op right) := by
  obtain ⟨hw, hl⟩ := writtenJoiner_typed op (by rcases hop with rfl | rfl <;> decide) (right.literal.toList ++ tail)
  obtain ⟨hne, hs⟩ := literal_solid hr
  have hj := readJoiner_written (by decide) (Or.inr rfl) hop (h.trans hw) (solid_append hne hs)
  simp only [link, readLink, hj, hl]

/-- where blanks join an operand the link is the operand, unless it cannot be read -/
theorem link_blank {t : List Char} (h : c.rest = ' ' :: t) (ho : OpensOperand (c.advance 1)) :
    link c = ((readAnd readMany (c.advance 1)).map (Link.or blankToken)).orNone c := by
  obtain ⟨hjoin, hskip⟩ := blanksJoin_written h ho
  obtain ⟨hk, -, hbars, -, -⟩ := atOperator_eq_false.1 ho.noOperator
  have hj : readJoiner "OR" "||" c = none :=
    readJoiner_eq_none (by rw [hskip]; exact hk "OR" (by decide)) (by rw [hskip]; exact hbars)
  have hn : readNotToken c = none := readNotToken_none (by rw [hskip]; exact ho.noNegation)
  simp only [link, readLink, hj, hn, hjoin, if_true, hskip]

theorem link_or_written {right : Operation} {d : Cursor} (hr : right.WellShaped) (hc : right.isConjunction = true)
    (hop : op = "OR" ∨ op = "||" ∨ op = blankToken ∧ right.leading.isNegated = false)
    (h : c.rest = writtenJoiner op ++ (right.literal.toList ++ tail)) (ht : Ends tail)
    (hright : (readAnd readMany (c.advance (writtenJoiner op).length)).value = some (right, d)) :
    (link c).value = some (some (.or op right), d) := by
  obtain hop | ⟨rfl, hneg⟩ := or_assoc.2 hop
  · rw [link_typed hr hop h, Reply.value_map, hright]
    rfl
  · rw [writtenJoiner_blank] at h hright
    rw [link_blank h (opensOperand_literal hr hc hneg (by rw [Cursor.rest_advance, h]; rfl) ht)]
    exact Reply.orNone_of_some (Reply.map_eq_some.2 ⟨right, hright, rfl⟩) c

/-- where a negation is written behind a blank -/
theorem opensNegation_behind {v : String} (hop : op ∈ negationTokens)
    (h : c.rest = ' ' :: ((writeNegated op v).toList ++ tail)) :
    c.skipBlanks = c.advance 1 ∧ OpensNegation (c.advance 1) ∧ spaced c = true := by
  have hr : (c.advance 1).rest = (writeNegated op v).toList ++ tail := by rw [Cursor.rest_advance, h]; rfl
  have ho := opensNegation_written hop hr
  have hsol := ho.solid
  rw [hr] at hsol
  exact ⟨Cursor.skipBlanks_of_space h hsol, ho, by simp [spaced, Cursor.blanks_of_space h hsol]⟩

theorem stopsAnd_not {v : String} (hop : op ∈ negationTokens) :
    StopsAnd (' ' :: ((writeNegated op v).toList ++ tail)) := by
  intro c h
  obtain ⟨hskip, ho, -⟩ := opensNegation_behind hop h
  exact readJoiner_eq_none (by rw [hskip]; exact ho.noAnd) (by rw [hskip]; exact ho.noAmps)

theorem link_not_written {v : String} (hop : op ∈ negationTokens)
    (h : c.rest = ' ' :: ((writeNegated op v).toList ++ tail)) (ht : Ends tail) :
    (link c).value = some (some (.not op v), c.advance (1 + (writeNegated op v).length)) := by
  obtain ⟨hskip, ho, hsp⟩ := opensNegation_behind hop h
  obtain ⟨b, hn, hv⟩ := readNegation_written (c := c.advance 1) hop (by rw [Cursor.rest_advance, h]; rfl) ht
  rw [Cursor.advance_advance] at hv
  refine readLink_of_not ?_ (by rw [readNotToken_spaced hsp, hskip, hn]) hv
  exact readJoiner_eq_none (by rw [hskip]; exact ho.noOr) (by rw [hskip]; exact ho.noBars)

/-! ## Operations read back -/

/-- the operands of `AND` up to a place, where the chain may go on, give an operation -/
abbrev Conjuncts : Operation → Cursor → Cursor → Prop :=
  ChainTo (readOperand forms readMany) andLink fun left link => .and left link.2 link.1

/-- the operands of `OR` and `NOT` up to a place, where the chain may go on, give an operation -/
abbrev Links : Operation → Cursor → Cursor → Prop := ChainTo (readAnd readMany) link join

/-- what reading makes of the text of an operation, behind which a value may end -/
structure ReadsBack (n : Operation) : Prop where
  operand : n.isOperand = true → ∀ (c : Cursor) tail, c.rest = n.literal.toList ++ tail → Ends tail →
    (readOperand forms readMany c).value = some (n, c.advance n.literal.length)
  conjuncts : n.isConjunction = true → ∀ (c : Cursor) tail, c.rest = n.literal.toList ++ tail → Ends tail →
    Conjuncts n c (c.advance n.literal.length)
  links : ∀ (c : Cursor) tail, c.rest = n.literal.toList ++ tail → Ends tail → StopsAnd tail →
    Links n c (c.advance n.literal.length)

namespace ReadsBack

variable {n : Operation}

/-- a chain of `AND` ends where no `AND` comes next -/
theorem ends_conjuncts {d : Cursor} (h : Conjuncts n c d) (hd : readJoiner "AND" "&&" d = none) :
    (Operation.readAnd readMany c).value = some (n, d) :=
  h.ends (readAndLink_eq_none.2 ⟨hd, rfl⟩)

theorem readAnd (hn : ReadsBack n) (hc : n.isConjunction = true) (h : c.rest = n.literal.toList ++ tail)
    (ht : Ends tail) (hand : StopsAnd tail) : (readAnd readMany c).value = some (n, c.advance n.literal.length) :=
  ends_conjuncts (hn.conjuncts hc c tail h ht) (hand _ (Cursor.rest_behind h))

theorem readMany (hn : ReadsBack n) (h : c.rest = n.literal.toList ++ tail) (ht : Ends tail) (hand : StopsAnd tail)
    (hlink : StopsLink tail) : (readMany c).value = some (n, c.advance n.literal.length) := by
  rw [readMany_eq]
  exact (hn.links c tail h ht hand).ends (hlink _ (Cursor.rest_behind h))

/-- a chain of `AND` is a chain of `OR` and `NOT` without a link -/
theorem of_conjuncts (hop : n.isOperand = true → ∀ (c : Cursor) tail, c.rest = n.literal.toList ++ tail → Ends tail →
      (readOperand forms Operation.readMany c).value = some (n, c.advance n.literal.length))
    (h : ∀ (c : Cursor) tail, c.rest = n.literal.toList ++ tail → Ends tail →
      Conjuncts n c (c.advance n.literal.length)) : ReadsBack n where
  operand := hop
  conjuncts _ := h
  links c tail hc ht hand := .first (ends_conjuncts (h c tail hc ht) (hand _ (Cursor.rest_behind hc)))

/-- an operand is a chain without a link -/
theorem of_operand
    (h : ∀ (c : Cursor) tail, c.rest = n.literal.toList ++ tail → Ends tail →
      (readOperand forms Operation.readMany c).value = some (n, c.advance n.literal.length)) : ReadsBack n :=
  of_conjuncts (fun _ => h) fun c tail hc ht => .first (h c tail hc ht)

theorem group {inner : Operation} (hw : inner.WellShaped) (hin : ReadsBack inner) : ReadsBack (.group inner) := by
  refine of_operand fun c tail h ht => ?_
  have hr : c.rest = '(' :: (inner.literal.toList ++ ')' :: tail) := by
    rw [h, literal, String.toList_append, String.toList_append]
    simp
  obtain ⟨hne, hs⟩ := literal_solid hw
  have hclose : Closes (')' :: tail) := by simp [Closes]
  have hread : (Operation.readMany (c.advance 1)).value =
      some (inner, (c.advance 1).advance inner.literal.toList.length) := by
    rw [String.length_toList]
    exact hin.readMany (by rw [Cursor.rest_advance, hr]; rfl) hclose.ends (stopsAnd_closes hclose)
      (stopsLink_closes hclose)
  have hl : (Operation.group inner).literal.length = inner.literal.toList.length + 2 := by
    rw [literal, ← String.length_toList, String.toList_append, String.toList_append]
    simp
  rw [readOperand_group hr (solid_append hne hs) hread, hl]
  rfl

theorem and {left right : Operation} {op : String} (hw : (Operation.and left right op).WellShaped)
    (hl : ReadsBack left) (hr : ReadsBack right) : ReadsBack (.and left right op) := by
  obtain ⟨-, hrw, hlc, hro, hop⟩ := hw
  refine of_conjuncts (fun ho => by simp [isOperand] at ho) fun c tail h ht => ?_
  rw [literal] at h
  obtain ⟨h1, h2⟩ := rest_joined h
  rw [joinOperands_toList, List.append_assoc, List.append_assoc] at h
  have hleft := hl.conjuncts hlc c _ h (ends_joiner op _)
  have hstep : (andLink (c.advance left.literal.length)).value =
      some (some (op, right), c.advance (Operation.and left right op).literal.length) := by
    refine readAndLink_eq_some.2 ⟨_, readAndLink_written hrw hop h1, ?_⟩
    rw [hr.operand hro _ tail h2 ht, literal, advance_joined]
  refine hleft.snoc hstep ?_
  rw [literal, ← advance_joined]
  exact shorter_behind (literal_solid hrw).1 h2

theorem or {left right : Operation} {op : String} (hw : (Operation.or left right op).WellShaped)
    (hl : ReadsBack left) (hr : ReadsBack right) : ReadsBack (.or left right op) where
  operand ho := by simp [isOperand] at ho
  conjuncts hc := by simp [isConjunction] at hc
  links c tail h ht hand := by
    obtain ⟨-, hrw, hrc, hop⟩ := hw
    rw [literal] at h
    obtain ⟨h1, h2⟩ := rest_joined h
    rw [joinOperands_toList, List.append_assoc, List.append_assoc] at h
    have hleft := hl.links c _ h (ends_joiner op _) (stopsAnd_or hrw hrc hop ht)
    have hstep : (link (c.advance left.literal.length)).value =
        some (some (.or op right), c.advance (Operation.or left right op).literal.length) := by
      refine link_or_written hrw hrc hop h1 ht ?_
      rw [hr.readAnd hrc h2 ht hand, literal, advance_joined]
    refine hleft.snoc hstep ?_
    rw [literal, ← advance_joined]
    exact shorter_behind (literal_solid hrw).1 h2

/-- behind an excluded value a chain may go on whatever stands there -/
theorem links_not {left : Operation} {op v : String} (hop : op ∈ negationTokens) (hl : ReadsBack left)
    (h : c.rest = (Operation.not left v op).literal.toList ++ tail) (ht : Ends tail) :
    Links (.not left v op) c (c.advance (Operation.not left v op).literal.length) := by
  have h' : c.rest = left.literal.toList ++ ' ' :: ((writeNegated op v).toList ++ tail) := by
    rw [h, literal, String.toList_append, String.toList_append]
    simp
  have hlen : (Operation.not left v op).literal.length = left.literal.length + (1 + (writeNegated op v).length) := by
    simp [literal, ← String.length_toList]
    omega
  have hleft := hl.links c _ h' (ends_blank _) (stopsAnd_not hop)
  have hr := Cursor.rest_behind h'
  have hstep := link_not_written hop hr ht
  rw [Cursor.advance_advance, ← hlen] at hstep
  refine hleft.snoc hstep ?_
  rw [hlen, ← Cursor.advance_advance]
  exact (Cursor.passes_advance (by omega) (by rw [hr]; simp)).2

theorem not {left : Operation} {op v : String} (hw : (Operation.not left v op).WellShaped) (hl : ReadsBack left) :
    ReadsBack (.not left v op) where
  operand ho := by simp [isOperand] at ho
  conjuncts hc := by simp [isConjunction] at hc
  links _ _ h ht _ := links_not hw.2 hl h ht

end ReadsBack

/-- every well-shaped operation reads back -/
theorem readsBack {n : Operation} (hn : n.WellShaped) : ReadsBack n := by
  induction n with
  | unary v => exact .of_operand fun c tail h ht => readOperand_single h ht
  | notUnary op v => exact .of_operand fun c tail h ht => readOperand_negated hn h ht
  | and left right op ihl ihr => exact .and hn (ihl hn.1) (ihr hn.2.1)
  | or left right op ihl ihr => exact .or hn (ihl hn.1) (ihr hn.2.1)
  | not left v op ih => exact .not hn (ih hn.1)
  | group inner ih => exact .group hn (ih hn)

/-- a well-shaped operation is read up to the end of the text -/
theorem readMany_written {n : Operation} (hn : n.WellShaped) {c : Cursor} (h : c.rest = n.literal.toList) :
    (readMany c).value = some (n, c.advance n.literal.length) := by
  have hend : Closes [] := by simp [Closes]
  refine (readsBack hn).readMany ?_ hend.ends (stopsAnd_closes hend) (stopsLink_closes hend)
  rw [h, List.append_nil]

/-! ## Names that are keywords -/

/-- a place behind a text and a blank, where a name with its `:` comes next -/
theorem rest_behind_name {s name : String} {t : List Char} (h : c.rest = s.toList ++ ' ' :: (name.toList ++ ':' :: t)) :
    (c.advance s.length).rest = ' ' :: (name.toList ++ ':' :: t) ∧
      ((c.advance s.length).advance (1 + name.length)).rest = ':' :: t := by
  have hd := Cursor.rest_behind h
  refine ⟨hd, ?_⟩
  rw [← Cursor.advance_advance]
  exact Cursor.rest_behind (by rw [Cursor.rest_advance, hd]; rfl)

/-- a chain of `AND` in front of the name `AND` cannot be read -/
theorem readAnd_fails {n : Operation} {t : List Char} (hw : n.WellShaped) (hc : n.isConjunction = true)
    (h : c.rest = n.literal.toList ++ ' ' :: ("AND".toList ++ ':' :: t)) : (readAnd readMany c).value = none := by
  obtain ⟨hd, hcolon⟩ := rest_behind_name h
  have hand := readJoiner_name (by decide) hd (show "AND" ∈ keywords by decide) (Or.inl rfl)
  rw [if_pos rfl] at hand
  exact ((readsBack hw).conjuncts hc c _ h (ends_blank _)).fails
    (readAndLink_fails hand (readOperand_none_of_head hcolon (by decide)))

/-- in front of the names `OR` and `NOT` a link fails -/
theorem link_fails {name : String} {t : List Char} (hk : name = "OR" ∨ name = "NOT")
    (hd : c.rest = ' ' :: (name.toList ++ ':' :: t)) (hcolon : (c.advance (1 + name.length)).rest = ':' :: t) :
    (link c).value = none := by
  rcases hk with rfl | rfl
  · have hor := readJoiner_name (by decide) hd (show "OR" ∈ keywords by decide) (Or.inr rfl)
    rw [if_pos rfl] at hor
    exact readLink_fails_or hor (leftChain_none (readOperand_none_of_head hcolon (by decide)))
  · have hor := readJoiner_name (by decide) hd (show "OR" ∈ keywords by decide) (Or.inr rfl)
    rw [if_neg (by decide)] at hor
    have hnot := readNotToken_name (by decide) hd
    rw [if_pos rfl] at hnot
    exact readLink_fails_not hor hnot (readNegated_none_of_colon hcolon)

/-- **An operation in front of a name that is a keyword cannot be read**, since the name is taken for an operator; in
front of the name `AND`, if the operation is a chain of `AND`. -/
theorem readMany_fails {n : Operation} {name : String} {t : List Char} (hw : n.WellShaped) (hk : name ∈ keywords)
    (hc : name = "AND" → n.isConjunction = true) (h : c.rest = n.literal.toList ++ ' ' :: (name.toList ++ ':' :: t)) :
    (readMany c).value = none := by
  rw [readMany_eq]
  by_cases hna : name = "AND"
  · subst hna
    exact leftChain_none (readAnd_fails hw (hc rfl) h)
  · obtain ⟨hd, hcolon⟩ := rest_behind_name h
    simp only [keywords, List.mem_cons, List.not_mem_nil, or_false, hna, false_or] at hk
    have hid : isIdentifier name = true := by rcases hk with rfl | rfl <;> decide
    exact ((readsBack hw).links c _ h (ends_blank _) (stopsAnd_name hid hna)).fails (link_fails hk hd hcolon)

end FieldSearch.Operation
