/-
What reading terms can give.

- `readMany_shape`: the value of a term that takes many is well shaped.
- `readMany_behind`: behind the blanks at which such a value ended no further one stands, unless it has a name.
- `parse_legible`: terms that were read are legible. Unqualified ones are for the default term, and behind a term for many
  values an unqualified one takes a single value: more values would have been taken up.
-/
import FieldSearch.Proofs.Term.Registry

namespace FieldSearch

namespace Operation

variable {inner : Cursor → Reply Operation}

/-! ## The shape of what is read -/

/-- an operand is well shaped, and negated where a negation comes next -/
theorem readOperand_shape (hin : ∀ c n d, (inner c).value = some (n, d) → n.WellShaped) {c d : Cursor} {n : Operation}
    (h : (readOperand forms inner c).value = some (n, d)) :
    n.WellShaped ∧ n.isOperand = true ∧ n.isNegated = c.atNegation := by
  rcases readOperand_eq_some h with ⟨hn, v, rfl⟩ | ⟨hn, token, htok, v, rfl⟩ | ⟨hn, a, i, f, hi, rfl⟩
  · exact ⟨trivial, rfl, hn.symm⟩
  · exact ⟨htok, rfl, hn.symm⟩
  · exact ⟨hin i a f hi, rfl, hn.symm⟩

theorem readAnd_shape (hadv : Advances inner) (hin : ∀ c n d, (inner c).value = some (n, d) → n.WellShaped)
    {c d : Cursor} {n : Operation} (h : (readAnd inner c).value = some (n, d)) :
    n.WellShaped ∧ n.isConjunction = true ∧ n.leading.isNegated = c.atNegation := by
  obtain ⟨f, ⟨a, b, links, ha, hs, rfl⟩, -⟩ :=
    (leftChain_eq_some (readAndLink_consumes (readOperand_advances hadv))).1 h
  refine hs.foldl_keeps
    (P := fun x : Operation => x.WellShaped ∧ x.isConjunction = true ∧ x.leading.isNegated = c.atNegation) ?_ ?_
  · rintro left c' ⟨op, right⟩ d' ⟨hw, hc, hlead⟩ hb
    obtain ⟨b, hj, hr⟩ := readAndLink_eq_some.1 hb
    obtain ⟨hrw, hro, -⟩ := readOperand_shape hin hr
    exact ⟨⟨hw, hrw, hc, hro, (readJoiner_eq_some hj).2.imp And.left And.left⟩, rfl, hlead⟩
  · obtain ⟨hw, ho, hn⟩ := readOperand_shape hin ha
    exact ⟨hw, conjunction_of_operand ho, by rw [leading_of_operand ho]; exact hn⟩

/-- joining a link keeps the shape -/
theorem join_shape (hadv : Advances inner) (hin : ∀ c n d, (inner c).value = some (n, d) → n.WellShaped)
    {left : Operation} {found : Link} {c d : Cursor} (hl : left.WellShaped)
    (h : (readLink (readAnd inner) c).value = some (some found, d)) : (left.join found).WellShaped := by
  rcases readLink_eq_some h with ⟨op, b, right, hj, hr, rfl⟩ | ⟨op, b, v, hn, -, rfl⟩ | ⟨hb, right, hr, rfl⟩
  · obtain ⟨hrw, hrc, -⟩ := readAnd_shape hadv hin hr
    refine ⟨hl, hrw, hrc, ?_⟩
    exact (readJoiner_eq_some hj).2.imp And.left fun hs => Or.inl hs.1
  · exact ⟨hl, (readNotToken_eq_some hn).1⟩
  · obtain ⟨hrw, hrc, hneg⟩ := readAnd_shape hadv hin hr
    exact ⟨hl, hrw, hrc, Or.inr (Or.inr ⟨rfl, by rw [hneg]; exact noNegation_of_join hb⟩)⟩

/-- a value of a term that takes many is well shaped -/
theorem readMany_shape {c d : Cursor} {n : Operation} (h : (readMany c).value = some (n, d)) : n.WellShaped := by
  refine (keeps_of_guarded (f := readManyWith) (P := fun c n d => c.Passes d ∧ n.WellShaped) ?_ readMany_guarded c n d h).2
  intro inner hin c n d hn
  have hadv : Advances inner := fun c a d hd => (hin c a d hd).1
  have hshape : ∀ c a d, (inner c).value = some (a, d) → a.WellShaped := fun c a d hd => (hin c a d hd).2
  refine ⟨readManyWith_advances hadv c n d hn, ?_⟩
  obtain ⟨f, ⟨a, b, links, ha, hs, rfl⟩, -⟩ := (leftChain_eq_some (readLink_consumes (readAnd_advances hadv))).1 hn
  exact hs.foldl_keeps (P := WellShaped) (fun _ _ _ _ hl hb => join_shape hadv hshape hl hb) (readAnd_shape hadv hshape ha).1

/-! ## Where a value ends -/

/-- a value ends where no link goes on -/
theorem readMany_ends {c d : Cursor} {n : Operation} (h : (readMany c).value = some (n, d)) :
    (link d).value = some (none, d) := by
  rw [readMany_eq] at h
  obtain ⟨f, -, hf⟩ := (leftChain_eq_some (readLink_consumes (readAnd_advances readMany_advances))).1 h
  obtain rfl := (readLink_eq_none.1 hf).1
  exact hf

/-- **Nothing is left over.** Behind the blanks at which a value ended no value stands unless it has a name. -/
theorem readMany_behind {c d : Cursor} {n : Operation} (h : (readMany c).value = some (n, d)) (hb : 0 < d.blanks)
    (hname : d.skipBlanks.peekTermName = none) : (readMany d.skipBlanks).value = none := by
  obtain ⟨-, hor, hnot, hblank⟩ := readLink_eq_none.1 (readMany_ends h)
  rw [readMany_eq]
  by_cases hjoin : blanksJoin d = true
  · exact leftChain_none (hblank hjoin)
  · refine leftChain_none (leftChain_none ?_)
    by_cases hand : readJoiner "AND" "&&" d = none
    · rw [readNotToken_spaced (by simp [spaced, hb]), readNegation_eq_none] at hnot
      exact readOperand_none_behind hb hand hor hnot hname hjoin
    · exact readOperand_none_at_joiner hand (by decide) (by decide)

end Operation

/-- whether a term is unqualified text -/
def Term.isDefault : Term → Bool
  | .named .. => false
  | .default .. => true

namespace TermRegistry

variable {Q : Type} {r : TermRegistry Q}

/-- what reading makes sure of about a term and its text -/
structure Legible (r : TermRegistry Q) (t : Term) : Prop where
  bound : r.Bound t
  shape : t.operation.WellShaped
  bare : t.isDefault = true → ∃ o, r.default? = some o ∧ o.name = t.name

/-- behind a term for many values unqualified text is for a term that takes one -/
def MayFollow (r : TermRegistry Q) (s t : Term) : Prop :=
  r.conditionOf s.name = .many → t.isDefault = true → r.conditionOf t.name = .one

theorem read_shape {condition : Condition} {c d : Cursor} {n : Operation}
    (h : (Operation.read condition c).value = some (n, d)) : n.WellShaped := by
  cases condition with
  | one =>
    obtain ⟨v, rfl⟩ := (Operation.readOne_eq_some h).2
    trivial
  | many => exact Operation.readMany_shape h

/-- a term that was read is legible -/
theorem readTerm_legible (hr : r.Keyed) {c d : Cursor} {t : Term} (h : (r.readTerm c).value = some (t, d)) :
    r.Legible t := by
  have hb := (readTerm_bound hr h).1
  rcases readTerm_eq_some hr h with ⟨-, o, n, ho, rfl, hn⟩ | ⟨b, name, n, -, -, -, rfl, hn⟩
  · exact ⟨hb, read_shape hn, fun _ => ⟨o, ho, rfl⟩⟩
  · exact ⟨hb, read_shape hn, fun hd => absurd hd Bool.false_ne_true⟩

/-- no unqualified text for many values is read behind a term for many -/
theorem readTerm_mayFollow (hr : r.Keyed) {c b d : Cursor} {s t : Term} (hs : (r.readTerm c).value = some (s, b))
    (hb : 0 < b.blanks) (ht : (r.readTerm b.skipBlanks).value = some (t, d)) : r.MayFollow s t := by
  intro hmany hdefault
  obtain ⟨c', n, hn⟩ : ∃ c' n, (Operation.readMany c').value = some (n, b) := by
    rcases readTerm_eq_some hr hs with ⟨-, o, n, -, rfl, hn⟩ | ⟨b', name, n, -, -, -, rfl, hn⟩ <;>
      · rw [Term.name] at hmany
        rw [hmany] at hn
        exact ⟨_, n, hn⟩
  rcases readTerm_eq_some hr ht with ⟨hname, o, x, -, rfl, hx⟩ | ⟨b', name, x, -, -, -, rfl, -⟩
  · cases hc : r.conditionOf o.name with
    | one => exact hc
    | many =>
      rw [hc, Operation.read, Operation.readMany_behind hn hb (Cursor.termName_none.1 hname)] at hx
      cases hx
  · exact absurd hdefault Bool.false_ne_true

/-- terms that are read one behind the other are legible, and each may follow the one in front of it -/
theorem steps_legible (hr : r.Keyed) {gap : Expectation} {c d : Cursor} {terms : List Term}
    (h : Steps (itemStep r.readTerm gap) c terms d) : (∀ t ∈ terms, r.Legible t) ∧ terms.IsChain r.MayFollow := by
  induction h with
  | nil c => exact ⟨by simp, .nil⟩
  | cons head _ tail ih =>
    obtain ⟨-, b, hb, hgap, rfl⟩ := itemStep_eq_some.1 head
    refine ⟨List.forall_mem_cons.2 ⟨readTerm_legible hr hb, ih.1⟩, ?_⟩
    cases tail with
    | nil => exact .singleton _
    | cons head' _ _ =>
      obtain ⟨hne, b', hb', -, -⟩ := itemStep_eq_some.1 head'
      refine List.isChain_cons_cons.2 ⟨readTerm_mayFollow hr hb (hgap.resolve_right fun h0 => hne ?_) hb', ih.2⟩
      rw [Cursor.rest_skipBlanks, h0]; rfl

/-- **Terms that were read are legible**, and each may follow the one in front of it. -/
theorem parse_legible (hr : r.Keyed) {text : String} {terms : List Term} (h : r.parse text = .ok terms) :
    (∀ t ∈ terms, r.Legible t) ∧ terms.IsChain r.MayFollow := by
  obtain ⟨d, hd, -⟩ := (readAll_eq_ok (readTerm_advances hr)).1 h
  exact steps_legible hr hd

end TermRegistry

end FieldSearch
