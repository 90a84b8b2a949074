/-
The two grammars agree on texts without names and negations.

- `SameTree`: an operation and a filter expression with the same values, operators and parentheses in the same places.
- The readers differ in what they do behind an operator without an operand: a search text ends in front of it, a term query
  fails. So they need not agree on what they read up to a place in the middle of a text. They do agree up to each place
  where an expression has to end, the end of a text or of a group: `agreeBelow`, `read_iff_readMany`.
- `NegationFree.readAndToken`, `NegationFree.link_iff`: without negations both grammars take the same steps.
- `noAnd_of_orToken`: no `AND` dangles where an `OR` goes on, so what a search text reads as a chain of `AND` in the middle of
  an expression is one for a term query too.
-/
import FieldSearch.Proofs.Grammar.NegationFree
import FieldSearch.Proofs.Statement.Image
import FieldSearch.Proofs.Term.Image

namespace FieldSearch

open Operation (readMany)

/-- an operation and a filter expression that are the same tree -/
inductive SameTree : Operation → FilterExpr → Prop
  | unary (value : String) : SameTree (.unary value) (.matching value)
  | and {m n : Operation} {e f : FilterExpr} (left : SameTree m e) (right : SameTree n f) (operator : String) :
      SameTree (.and m n operator) (.and e f operator)
  | or {m n : Operation} {e f : FilterExpr} (left : SameTree m e) (right : SameTree n f) (operator : String) :
      SameTree (.or m n operator) (.or e f operator)
  | group {n : Operation} {e : FilterExpr} (inner : SameTree n e) : SameTree (.group n) (.group e)

/-! ## Where an `AND` cannot stand -/

/-- where a typed `OR` comes next no `AND` does -/
theorem noAnd_of_or {c b : Cursor} {op : String} (h : readJoiner "OR" "||" c = some (op, b)) :
    readJoiner "AND" "&&" c = none := by
  obtain ⟨a, t, hr, ha⟩ : ∃ a t, c.skipBlanks.rest = a :: t ∧ (a = 'O' ∨ a = '|') := by
    rcases (readJoiner_eq_some h).2 with ⟨-, hk⟩ | ⟨-, hs⟩
    · rw [Cursor.atKeyword, Bool.and_eq_true] at hk
      obtain ⟨t, ht⟩ := (Cursor.startsWith_iff _ _).1 hk.1
      exact ⟨'O', _, ht.symm, Or.inl rfl⟩
    · obtain ⟨t, ht⟩ := (Cursor.startsWith_iff _ _).1 hs
      exact ⟨'|', _, ht.symm, Or.inr rfl⟩
  have hne : 'A' ≠ a ∧ '&' ≠ a := by
    rcases ha with rfl | rfl
    · decide
    · decide
  exact readJoiner_eq_none (atKeyword_of_startsWith (startsWith_eq_false rfl hr hne.1))
    (startsWith_eq_false rfl hr hne.2)

/-- blanks that join stand in front of no `AND` -/
theorem noAnd_of_blanks {c : Cursor} (h : blanksJoin c = true) : readJoiner "AND" "&&" c = none := by
  simp only [blanksJoin, Bool.and_eq_true, Bool.not_eq_true'] at h
  obtain ⟨hk, hs, -, -, -⟩ := atOperator_eq_false.1 h.1.2
  exact readJoiner_eq_none (hk "AND" (by decide)) hs

theorem noAnd_of_orToken {c b : Cursor} {op : String} (h : FilterExpr.readOrToken c = some (op, b)) :
    readJoiner "AND" "&&" c = none := by
  unfold FilterExpr.readOrToken at h
  cases hj : readJoiner "OR" "||" c with
  | some p => exact noAnd_of_or hj
  | none =>
    rw [hj] at h
    simp only at h
    split_ifs at h with hb
    exact noAnd_of_blanks hb

/-- where an expression ends nothing is joined -/
theorem joins_nothing {c : Cursor} (h : Closes c.skipBlanks.rest) :
    readJoiner "AND" "&&" c = none ∧ FilterExpr.readOrToken c = none := by
  have hk : ∀ k ∈ ["AND", "OR"], c.skipBlanks.atKeyword k = false := by
    intro k hk
    apply atKeyword_of_startsWith
    rcases List.mem_pair.1 hk with rfl | rfl
    · exact h.startsWith rfl (by decide)
    · exact h.startsWith rfl (by decide)
  have hor : readJoiner "OR" "||" c = none := readJoiner_eq_none (hk "OR" (by decide)) (h.startsWith rfl (by decide))
  have hblanks : blanksJoin c = false := by
    cases hr : c.skipBlanks.rest with
    | nil =>
      have hend : c.skipBlanks.atEnd = true := by rw [Cursor.atEnd, hr]; rfl
      simp [blanksJoin, hend]
    | cons a t =>
      have hparen : c.skipBlanks.peek = some ')' := by
        rw [Cursor.peek, hr, List.head?_cons, h a (by rw [hr]; rfl)]
      simp [blanksJoin, hparen]
  exact ⟨readJoiner_eq_none (hk "AND" (by decide)) (h.startsWith rfl (by decide)),
    by simp [FilterExpr.readOrToken, hor, hblanks]⟩

namespace NegationFree

variable {c : Cursor}

/-- only a typed `AND` stands for one -/
theorem readAndToken (h : NegationFree c.rest) : FilterExpr.readAndToken c = readJoiner "AND" "&&" c := by
  have hneg := (h.reaches (Cursor.reaches_skipBlanks c)).noNegation
  unfold FilterExpr.readAndToken
  cases readJoiner "AND" "&&" c with
  | some p => rfl
  | none => simp [hneg]

theorem readNotToken (h : NegationFree c.rest) : Operation.readNotToken c = none :=
  Operation.readNotToken_none (h.reaches (Cursor.reaches_skipBlanks c)).noNegation

/-- what stands for `OR` in a search text is what links two operations -/
theorem link_iff (h : NegationFree c.rest) {and : Cursor → Reply Operation} {found : Operation.Link} {d : Cursor} :
    (Operation.readLink and c).value = some (some found, d) ↔
      ∃ op b r, FilterExpr.readOrToken c = some (op, b) ∧ (and b).value = some (r, d) ∧ found = .or op r := by
  unfold Operation.readLink FilterExpr.readOrToken
  rw [h.readNotToken]
  cases readJoiner "OR" "||" c with
  | some p =>
    simp only [Reply.map_eq_some, Option.some.injEq]
    constructor
    · rintro ⟨r, hr, rfl⟩
      exact ⟨p.1, p.2, r, rfl, hr, rfl⟩
    · rintro ⟨op, b, r, rfl, hr, rfl⟩
      exact ⟨r, hr, rfl⟩
  | none =>
    cases blanksJoin c with
    | false => simp
    | true =>
      simp only [if_true, Reply.orNone_eq_some, Reply.map_eq_some, Option.some.injEq, Prod.mk.injEq]
      constructor
      · rintro ⟨r, hr, rfl⟩
        exact ⟨_, _, r, ⟨rfl, rfl⟩, hr, rfl⟩
      · rintro ⟨op, b, r, ⟨rfl, rfl⟩, hr, rfl⟩
        exact ⟨r, hr, rfl⟩

theorem link_none (h : NegationFree c.rest) {and : Cursor → Reply Operation} (htok : FilterExpr.readOrToken c = none) :
    (Operation.readLink and c).value = some (none, c) := by
  unfold FilterExpr.readOrToken at htok
  cases hj : readJoiner "OR" "||" c with
  | some p =>
    rw [hj] at htok
    cases htok
  | none =>
    rw [hj] at htok
    refine Operation.readLink_stops hj h.readNotToken ?_
    by_contra hb
    rw [Bool.not_eq_false] at hb
    simp [hb] at htok

end NegationFree

/-! ## Chains of both grammars -/

/-- both readers agree where less than `n` characters are left -/
structure AgreeBelow (n : ℕ) : Prop where
  terms : ∀ c : Cursor, NegationFree c.rest → c.rest.length < n → Follows SameTree readMany FilterExpr.read c
  statements : ∀ c : Cursor, NegationFree c.rest → c.rest.length < n → Follows (flip SameTree) FilterExpr.read readMany c

/-- a place without names and negations behind it, and no more than `n` characters -/
def Within (n : ℕ) (c : Cursor) : Prop := NegationFree c.rest ∧ c.rest.length ≤ n

theorem Within.reaches {n : ℕ} {c d : Cursor} (h : Within n c) (hd : c.Reaches d) : Within n d :=
  ⟨h.1.reaches hd, hd.length_le.trans h.2⟩

namespace AgreeBelow

variable {n : ℕ} {c d : Cursor} {m : Operation} {e : FilterExpr}

/-! ### From terms to statements -/

theorem operand_terms (h : AgreeBelow n) (hc : Within n c)
    (hm : (readOperand Operation.forms readMany c).value = some (m, d)) :
    Within n d ∧ ∃ e, (readOperand FilterExpr.forms FilterExpr.read c).value = some (e, d) ∧ SameTree m e := by
  refine ⟨hc.reaches (readOperand_advances Operation.readMany_advances _ _ _ hm).reaches, ?_⟩
  have hinside : ∀ b, c.Passes b → Follows SameTree readMany FilterExpr.read b := fun b hb =>
    h.terms b (hc.1.reaches hb.reaches) (hb.2.trans_le hc.2)
  exact readOperand_follows SameTree.unary (fun _ _ => SameTree.group) hc.1.noNegation hinside hm

/-- a chain of `AND` in a term query is one in a search text, and no `AND` comes behind it -/
theorem and_terms (h : AgreeBelow n) (hc : Within n c)
    (hm : (Operation.readAnd readMany c).value = some (m, d)) :
    Within n d ∧ ∃ e, (FilterExpr.readAnd FilterExpr.read c).value = some (e, d) ∧ SameTree m e := by
  obtain ⟨f, hchain, hf⟩ :=
    (leftChain_eq_some (Operation.readAndLink_consumes (readOperand_advances Operation.readMany_advances))).1 hm
  obtain ⟨hnone, rfl⟩ := Operation.readAndLink_eq_none.1 hf
  obtain ⟨hd, e, he, hsame⟩ : Within n d ∧ ∃ e, ChainTo (readOperand FilterExpr.forms FilterExpr.read) FilterExpr.andLink
      (fun left link => .and left link.2 link.1) e c d ∧ SameTree m e := by
    refine ChainTo.transfer (L := fun p q => p.1 = q.1 ∧ SameTree p.2 q.2) (Q := fun _ => True) ?_ ?_ ?_ ?_ hchain trivial
    · intro a b ha _
      exact h.operand_terms hc ha
    · rintro b ⟨op, r⟩ f hb hr _
      obtain ⟨b', hj, hr⟩ := Operation.readAndLink_eq_some.1 hr
      obtain ⟨hf, r', hr', hsame⟩ := h.operand_terms (hb.reaches (readJoiner_eq_some hj).1) hr
      exact ⟨hf, (op, r'), FilterExpr.readLink_eq_some.2 ⟨b', by rw [hb.1.readAndToken, hj], hr'⟩, rfl, hsame⟩
    · intro _ _ _ _
      trivial
    · rintro a a' ⟨op, r⟩ ⟨op', r'⟩ ha ⟨rfl, hr⟩
      exact SameTree.and ha hr op
  refine ⟨hd, e, he.ends (FilterExpr.readLink_eq_none.2 ⟨rfl, fun op b ht => ?_⟩), hsame⟩
  rw [hd.1.readAndToken, hnone] at ht
  cases ht

/-- an operation that ends where an expression has to is an expression -/
theorem many_terms (h : AgreeBelow n) (hc : Within n c)
    (hm : (Operation.readManyWith readMany c).value = some (m, d)) (hd : Closes d.skipBlanks.rest) :
    ∃ e, (FilterExpr.readOr FilterExpr.read c).value = some (e, d) ∧ SameTree m e := by
  obtain ⟨f, hchain, hf⟩ :=
    (leftChain_eq_some (Operation.readLink_consumes (Operation.readAnd_advances Operation.readMany_advances))).1 hm
  obtain rfl := (Operation.readLink_eq_none.1 hf).1
  obtain ⟨-, e, he, hsame⟩ : Within n d ∧ ∃ e, ChainTo (FilterExpr.readAnd FilterExpr.read) FilterExpr.orLink
      (fun left link => .or left link.2 link.1) e c d ∧ SameTree m e := by
    refine ChainTo.transfer (L := fun p q => ∃ r, p = .or q.1 r ∧ SameTree r q.2) (Q := fun _ => True) ?_ ?_ ?_ ?_
      hchain trivial
    · intro a b ha _
      exact h.and_terms hc ha
    · intro b found f hb hfound _
      obtain ⟨op, b', r, htok, hr, rfl⟩ := hb.1.link_iff.1 hfound
      obtain ⟨hf, r', hr', hsame⟩ := h.and_terms (hb.reaches (FilterExpr.readOrToken_eq_some htok).1) hr
      exact ⟨hf, (op, r'), FilterExpr.readLink_eq_some.2 ⟨b', htok, hr'⟩, r, rfl, hsame⟩
    · intro _ _ _ _
      trivial
    · rintro a a' found ⟨op, r'⟩ ha ⟨r, rfl, hr⟩
      exact SameTree.or ha hr op
  refine ⟨e, he.ends (FilterExpr.readLink_eq_none.2 ⟨rfl, fun op b ht => ?_⟩), hsame⟩
  rw [(joins_nothing hd).2] at ht
  cases ht

/-! ### From statements to terms -/

theorem operand_statements (h : AgreeBelow n) (hc : Within n c)
    (he : (readOperand FilterExpr.forms FilterExpr.read c).value = some (e, d)) :
    Within n d ∧ ∃ m, (readOperand Operation.forms readMany c).value = some (m, d) ∧ SameTree m e := by
  refine ⟨hc.reaches (readOperand_advances FilterExpr.read_advances _ _ _ he).reaches, ?_⟩
  have hinside : ∀ b, c.Passes b → Follows (flip SameTree) FilterExpr.read readMany b := fun b hb =>
    h.statements b (hc.1.reaches hb.reaches) (hb.2.trans_le hc.2)
  refine readOperand_follows (fun v => ?_) (fun f m hsame => ?_) hc.1.noNegation hinside he
  · exact SameTree.unary v
  · exact SameTree.group hsame

/-- a chain of `AND` in a search text is one in a term query if no dangling `AND` comes behind it -/
theorem and_statements (h : AgreeBelow n) (hc : Within n c)
    (he : (FilterExpr.readAnd FilterExpr.read c).value = some (e, d)) (hnone : readJoiner "AND" "&&" d = none) :
    Within n d ∧ ∃ m, (Operation.readAnd readMany c).value = some (m, d) ∧ SameTree m e := by
  obtain ⟨f, hchain, hf⟩ := (leftChain_eq_some FilterExpr.andLink_consumes).1 he
  obtain rfl := (FilterExpr.readLink_eq_none.1 hf).1
  obtain ⟨hd, m, hm, hsame⟩ : Within n d ∧ ∃ m, ChainTo (readOperand Operation.forms readMany) Operation.andLink
      (fun left link => .and left link.2 link.1) m c d ∧ flip SameTree e m := by
    refine ChainTo.transfer (L := fun p q => p.1 = q.1 ∧ SameTree q.2 p.2) (Q := fun _ => True) ?_ ?_ ?_ ?_ hchain trivial
    · intro a b ha _
      exact h.operand_statements hc ha
    · rintro b ⟨op, r⟩ f hb hr _
      obtain ⟨b', htok, hr⟩ := FilterExpr.readLink_eq_some.1 hr
      rw [hb.1.readAndToken] at htok
      obtain ⟨hf, r', hr', hsame⟩ := h.operand_statements (hb.reaches (readJoiner_eq_some htok).1) hr
      exact ⟨hf, (op, r'), Operation.readAndLink_eq_some.2 ⟨b', htok, hr'⟩, rfl, hsame⟩
    · intro _ _ _ _
      trivial
    · rintro a a' ⟨op, r⟩ ⟨op', r'⟩ ha ⟨rfl, hr⟩
      exact SameTree.and ha hr op
  exact ⟨hd, m, hm.ends (Operation.readAndLink_eq_none.2 ⟨hnone, rfl⟩), hsame⟩

/-- an expression that ends where it has to is an operation -/
theorem many_statements (h : AgreeBelow n) (hc : Within n c)
    (he : (FilterExpr.readOr FilterExpr.read c).value = some (e, d)) (hd : Closes d.skipBlanks.rest) :
    ∃ m, (Operation.readManyWith readMany c).value = some (m, d) ∧ SameTree m e := by
  obtain ⟨f, hchain, hf⟩ := (leftChain_eq_some FilterExpr.orLink_consumes).1 he
  obtain rfl := (FilterExpr.readLink_eq_none.1 hf).1
  obtain ⟨hdw, m, hm, hsame⟩ : Within n d ∧ ∃ m, ChainTo (Operation.readAnd readMany) Operation.link Operation.join m c d ∧
      flip SameTree e m := by
    -- no operand of the chain leaves a dangling `AND`: an `OR` comes behind it, or the end of the expression
    refine ChainTo.transfer (L := fun p q => ∃ r, q = .or p.1 r ∧ SameTree r p.2)
      (Q := fun b => readJoiner "AND" "&&" b = none) ?_ ?_ ?_ ?_ hchain (joins_nothing hd).1
    · intro a b ha hb
      exact h.and_statements hc ha hb
    · rintro b ⟨op, r⟩ f hb hr hf
      obtain ⟨b', htok, hr⟩ := FilterExpr.readLink_eq_some.1 hr
      obtain ⟨hwf, r', hr', hsame⟩ := h.and_statements (hb.reaches (FilterExpr.readOrToken_eq_some htok).1) hr hf
      exact ⟨hwf, .or op r', hb.1.link_iff.2 ⟨op, b', r', htok, hr', rfl⟩, r', rfl, hsame⟩
    · rintro b ⟨op, r⟩ f hr
      obtain ⟨b', htok, -⟩ := FilterExpr.readLink_eq_some.1 hr
      exact noAnd_of_orToken htok
    · rintro a a' ⟨op, r⟩ found ha ⟨r', rfl, hr⟩
      exact SameTree.or ha hr op
  exact ⟨m, hm.ends (hdw.1.link_none (joins_nothing hd).2), hsame⟩

end AgreeBelow

/-! ## Expressions and operations -/

/-- **The grammars agree** up to each place where an expression has to end. Induction on how much of the text is left: what
stands inside of parentheses is shorter. -/
theorem agreeBelow (n : ℕ) : AgreeBelow n := by
  induction n with
  | zero => exact ⟨fun c _ h => absurd h (Nat.not_lt_zero _), fun c _ h => absurd h (Nat.not_lt_zero _)⟩
  | succ n ih =>
    refine ⟨fun c hc hn m d hm hd => ?_, fun c hc hn e d he hd => ?_⟩
    · rw [Operation.readMany_eq] at hm
      rw [FilterExpr.read_eq]
      exact ih.many_terms ⟨hc, Nat.le_of_lt_succ hn⟩ hm hd
    · rw [FilterExpr.read_eq] at he
      rw [Operation.readMany_eq]
      exact ih.many_statements ⟨hc, Nat.le_of_lt_succ hn⟩ he hd

/-- one of the readers reads up to the end of an expression exactly if the other does -/
theorem read_iff_readMany {c d : Cursor} (hc : NegationFree c.rest) (hd : Closes d.skipBlanks.rest) :
    (∀ e, (FilterExpr.read c).value = some (e, d) → ∃ m, (readMany c).value = some (m, d) ∧ SameTree m e) ∧
      ∀ m, (readMany c).value = some (m, d) → ∃ e, (FilterExpr.read c).value = some (e, d) ∧ SameTree m e :=
  ⟨fun e he => (agreeBelow _).statements c hc (Nat.lt_succ_self _) e d he hd,
    fun m hm => (agreeBelow _).terms c hc (Nat.lt_succ_self _) m d hm hd⟩

end FieldSearch
