/-
Blanks around a text, in both grammars.

- `readAndToken_alike`, `readOrToken_alike`, `readNotToken_alike`: the operators of both grammars are taken alike from two
  places, of which the second has blanks behind what is left. `read_steady`, `readMany_steady`: so are whole expressions.
- `readSort_alike`: a sort takes none of the blanks, neither into its field nor into its suffix.
- `parse_surrounded`: blanks around a text change nothing about its statements and its terms, whatever is registered. A
  malformed text stays malformed.
-/
import FieldSearch.Proofs.Grammar.Steady
import FieldSearch.Proofs.Statement.Image
import FieldSearch.Proofs.Term.Registry

namespace FieldSearch

open Cursor (Padded)

variable {c d : Cursor}

theorem termName_alike (h : Padded c d) : Alike Padded c.termName d.termName := by
  unfold Cursor.termName
  rw [h.peekTermName]
  cases hn : c.peekTermName with
  | none => exact .none
  | some name =>
    refine .some name (h.advance ?_)
    obtain ⟨-, t, ht⟩ := Cursor.peekTermName_iff.1 hn
    rw [ht, List.length_append, List.length_cons, String.length_toList]
    omega

/-- behind a name and the blanks after it less text is left -/
theorem behind_termName {name : String} (h : c.termName = some (name, d)) : c.Passes d.skipBlanks :=
  (Statement.termName_passes h).trans_reaches (Cursor.reaches_skipBlanks d)

/-! ## Statements -/

namespace FilterExpr

theorem readAndToken_alike (h : Padded c d) : Alike Padded (readAndToken c) (readAndToken d) := by
  unfold readAndToken
  rcases (readJoiner_alike "AND" "&&" (by decide) (by decide) h).cases with
    ⟨hc, hd⟩ | ⟨operator, c', d', hc, hd, h'⟩
  · have hblank : (decide (0 < d.blanks) && d.skipBlanks.atNegation) =
        (decide (0 < c.blanks) && c.skipBlanks.atNegation) := by
      rw [h.skipBlanks.atNegation]
      exact h.blanks_and rest_ne_nil_of_atNegation
    simp only [hc, hd, hblank]
    split_ifs
    · exact .some blankToken h.skipBlanks
    · exact .none
  · rw [hc, hd]
    exact .some operator h'

theorem readOrToken_alike (h : Padded c d) : Alike Padded (readOrToken c) (readOrToken d) := by
  unfold readOrToken
  rcases (readJoiner_alike "OR" "||" (by decide) (by decide) h).cases with
    ⟨hc, hd⟩ | ⟨operator, c', d', hc, hd, h'⟩
  · simp only [hc, hd, blanksJoin_padded h]
    split_ifs
    · exact .some blankToken h.skipBlanks
    · exact .none
  · rw [hc, hd]
    exact .some operator h'

theorem readLink_steady {token : Cursor → Option (String × Cursor)} {operand : Cursor → Reply FilterExpr} {n : ℕ}
    (htoken : ∀ c d, Padded c d → Alike Padded (token c) (token d)) (hreach : ∀ c op d, token c = some (op, d) → c.Reaches d)
    (h : Steady Padded n operand) : Steady Padded n (readLink token operand) := by
  intro c d hcd hlt
  unfold readLink
  rcases (htoken c d hcd).cases with ⟨hc, hd⟩ | ⟨operator, c', d', hc, hd, h'⟩
  · rw [hc, hd]
    exact .some none hcd
  · rw [hc, hd]
    have hshort := (hreach c operator c' hc).length_le.trans_lt hlt
    exact ((h c' d' h' hshort).map _).orNone hcd

theorem readAnd_steady {inner : Cursor → Reply FilterExpr} {n : ℕ} (hadv : Advances inner) (h : Steady Padded n inner) :
    Steady Padded (n + 1) (readAnd inner) := by
  have hreach := fun c op d (ht : readAndToken c = some (op, d)) => (readAndToken_eq_some ht).1
  have hop : Advances (readOperand forms inner) := readOperand_advances hadv
  have hsteady := readOperand_steady forms h
  exact leftChain_steady hop (readLink_consumes hreach hop) hsteady
    (readLink_steady (fun _ _ => readAndToken_alike) hreach hsteady)

theorem readOr_steady {inner : Cursor → Reply FilterExpr} {n : ℕ} (hadv : Advances inner) (h : Steady Padded n inner) :
    Steady Padded (n + 1) (readOr inner) := by
  have hreach := fun c op d (ht : readOrToken c = some (op, d)) => (readOrToken_eq_some ht).1
  have hand := readAnd_advances hadv
  have hsteady := readAnd_steady hadv h
  exact leftChain_steady hand (readLink_consumes hreach hand) hsteady
    (readLink_steady (fun _ _ => readOrToken_alike) hreach hsteady)

theorem read_steady : ∀ n, Steady Padded n read :=
  steady_of_eq read_eq fun _ => readOr_steady read_advances

end FilterExpr

namespace Statement

/-- a sort takes no blank, neither into its field nor into its suffix -/
theorem readSort_alike (h : Padded c d) : Alike Padded (readSort c).value (readSort d).value := by
  have hfield : (d.span fun a => !isBlank a && a != '-') = c.span fun a => !isBlank a && a != '-' :=
    h.span fun a ha => by simp [ha]
  have hbehind := h.advance_span fun a => !isBlank a && a != '-'
  have hminus := hbehind.peek (a := '-') (by decide)
  have hsuffix := hbehind.span (p := fun a => !isBlank a) fun a ha => by simp [ha]
  have hend := hbehind.advance_span fun a => !isBlank a
  unfold readSort
  simp only [hfield, hminus, hsuffix]
  split_ifs
  · exact .none
  · split
    · exact .some _ hend
    · exact .none
  · exact .some _ hbehind

theorem read_steady (n : ℕ) : Steady Padded n read := by
  intro c d hcd hlt
  unfold read
  rcases (termName_alike hcd).cases with ⟨hc, hd⟩ | ⟨name, c', d', hc, hd, h'⟩
  · rw [hc, hd]
    exact (FilterExpr.read_steady n c d hcd hlt).map Statement.defaultFilter
  · simp only [hc, hd]
    split_ifs
    · exact readSort_alike h'
    · have hshort := (behind_termName hc).2.trans hlt
      exact (FilterExpr.read_steady n _ _ h'.skipBlanks hshort).map (Statement.fieldFilter name)

end Statement

/-! ## Terms -/

namespace Operation

theorem readOne_alike (h : Padded c d) : Alike Padded (readOne c).value (readOne d).value := by
  refine ((Alike.orElse (quoted_alike h) ?_).orElse .none).map Operation.unary
  exact nonBlank_alike h

theorem readNotToken_alike (h : Padded c d) : Alike Padded (readNotToken c) (readNotToken d) := by
  have hminus : (spaced d && d.skipBlanks.startsWith "-") = (spaced c && c.skipBlanks.startsWith "-") := by
    rw [h.skipBlanks.startsWith (by decide)]
    exact h.spaced_and (rest_ne_nil_of_startsWith (by decide))
  have hbang := h.skipBlanks.startsWith (s := "!") (by decide)
  unfold readNotToken
  simp only [h.spaced_keyword (k := "NOT") (by decide), hbang, hminus]
  split_ifs with hk hb hm
  · rw [Cursor.atKeyword, Bool.and_eq_true, Bool.and_eq_true] at hk
    exact .some "NOT" (h.skipBlanks.advance_startsWith hk.2.1)
  · exact .some "!" (h.skipBlanks.advance_startsWith hb)
  · rw [Bool.and_eq_true] at hm
    exact .some "-" (h.skipBlanks.advance_startsWith hm.2)
  · exact .none

theorem readAndLink_steady {operand : Cursor → Reply Operation} {n : ℕ} (h : Steady Padded n operand) :
    Steady Padded n (readAndLink operand) := by
  intro c d hcd hlt
  unfold readAndLink
  rcases (readJoiner_alike "AND" "&&" (by decide) (by decide) hcd).cases with
    ⟨hc, hd⟩ | ⟨operator, c', d', hc, hd, h'⟩
  · rw [hc, hd]
    exact .some none hcd
  · rw [hc, hd]
    have hshort := (readJoiner_eq_some hc).1.length_le.trans_lt hlt
    exact (h c' d' h' hshort).map _

theorem readLink_steady {and : Cursor → Reply Operation} {n : ℕ} (h : Steady Padded n and) :
    Steady Padded n (readLink and) := by
  intro c d hcd hlt
  unfold readLink
  rcases (readJoiner_alike "OR" "||" (by decide) (by decide) hcd).cases with
    ⟨hc, hd⟩ | ⟨operator, c', d', hc, hd, h'⟩
  · rw [hc, hd]
    rcases (readNotToken_alike hcd).cases with ⟨hc, hd⟩ | ⟨operator, c', d', hc, hd, h'⟩
    · simp only [hc, hd, blanksJoin_padded hcd]
      split_ifs
      · have hshort := (Cursor.reaches_skipBlanks c).length_le.trans_lt hlt
        exact ((h _ _ hcd.skipBlanks hshort).map _).orNone hcd
      · exact .some none hcd
    · simp only [hc, hd]
      exact (readNegated_alike h').map _
  · rw [hc, hd]
    have hshort := (readJoiner_eq_some hc).1.length_le.trans_lt hlt
    exact (h c' d' h' hshort).map _

theorem readAnd_steady {inner : Cursor → Reply Operation} {n : ℕ} (hadv : Advances inner) (h : Steady Padded n inner) :
    Steady Padded (n + 1) (readAnd inner) := by
  have hop : Advances (readOperand forms inner) := readOperand_advances hadv
  have hsteady := readOperand_steady forms h
  exact leftChain_steady hop (readAndLink_consumes hop) hsteady (readAndLink_steady hsteady)

theorem readManyWith_steady {inner : Cursor → Reply Operation} {n : ℕ} (hadv : Advances inner)
    (h : Steady Padded n inner) : Steady Padded (n + 1) (readManyWith inner) := by
  have hand := readAnd_advances hadv
  have hsteady := readAnd_steady hadv h
  exact leftChain_steady hand (readLink_consumes hand) hsteady (readLink_steady hsteady)

theorem readMany_steady : ∀ n, Steady Padded n readMany :=
  steady_of_eq readMany_eq fun _ => readManyWith_steady readMany_advances

theorem read_steady (condition : Condition) (n : ℕ) : Steady Padded n (read condition) := by
  cases condition with
  | one => exact fun c d h _ => readOne_alike h
  | many => exact readMany_steady n

end Operation

namespace TermRegistry

variable {Q : Type}

/-- a term takes some text, whatever is registered -/
theorem readTerm_passes (r : TermRegistry Q) : Advances r.readTerm := by
  intro c t d h
  unfold readTerm at h
  split at h
  · rename_i name b hn
    split at h <;> obtain ⟨n, hread, -⟩ := Reply.map_eq_some.1 h
    · exact (behind_termName hn).trans_reaches (read_advances _ _ n d hread).reaches
    · exact (behind_termName hn).trans_reaches (read_advances _ _ n d hread).reaches
  · split at h
    · obtain ⟨n, hread, -⟩ := Reply.map_eq_some.1 h
      exact read_advances _ c n d hread
    · cases h

theorem readTerm_steady (r : TermRegistry Q) (n : ℕ) : Steady Padded n r.readTerm := by
  intro c d hcd hlt
  unfold readTerm
  rcases (termName_alike hcd).cases with ⟨hc, hd⟩ | ⟨name, c', d', hc, hd, h'⟩
  · rw [hc, hd]
    cases r.default? with
    | none => exact .none
    | some t => exact (Operation.read_steady _ n c d hcd hlt).map _
  · have hshort := (behind_termName hc).2.trans hlt
    simp only [hc, hd]
    cases r.get? name with
    | none => exact (Operation.read_steady _ n _ _ h'.skipBlanks hshort).map _
    | some t => exact (Operation.read_steady _ n _ _ h'.skipBlanks hshort).map _

end TermRegistry

/-! ## Whole texts -/

/-- a search text is read as the items that are read from it -/
theorem parse_eq_ok {text : String} {list : StatementList} :
    StatementList.parse text = .ok list ↔
      ∃ items, readAll Statement.read .statementBreak text = .ok items ∧ list = { statements := items } := by
  unfold StatementList.parse
  constructor
  · intro h
    obtain ⟨items, hitems, rfl⟩ := map_eq_ok h
    exact ⟨items, hitems, rfl⟩
  · rintro ⟨items, hitems, rfl⟩
    rw [hitems]
    rfl

/-- **Blanks around a text never matter**, neither to the statements that are read from it nor, whatever is registered, to
its terms: a text reads with blanks around it as it does without them, and it is malformed with them exactly if it is
without. -/
theorem parse_surrounded {before after : String} (hb : isAllBlank before = true) (ha : isAllBlank after = true)
    (text : String) :
    (∀ list, StatementList.parse (before ++ text ++ after) = .ok list ↔ StatementList.parse text = .ok list) ∧
      ∀ (Q : Type) (r : TermRegistry Q) (terms : List Term),
        r.parse (before ++ text ++ after) = .ok terms ↔ r.parse text = .ok terms := by
  constructor
  · intro list
    rw [parse_eq_ok, parse_eq_ok]
    exact exists_congr fun items =>
      and_congr_left' (readAll_surrounded Statement.read_advances Statement.read_steady hb ha text items)
  · intro Q r terms
    exact readAll_surrounded r.readTerm_passes r.readTerm_steady hb ha text terms

/-- The suffix of a sort and a value that ends at a blank take none of the blanks behind them; a quote that is open stays
open. -/
theorem parse_surrounded_ends :
    isAllBlank "\u3000\n" = true ∧ isAllBlank "\t " = true ∧
      StatementList.parse "\u3000\n(a !b) sort:date-DSC\t " =
        .ok { statements := [.defaultFilter (.group (.and (.matching "a") (.notMatching "!" "b") " ")),
          .sort "date" .descending] } ∧
      (∀ list, StatementList.parse "\u3000\n\"a b\t " ≠ .ok list) ∧
      ({} : TermRegistry Unit).parse "\u3000\ndate:>2024-01\t " = .ok [.named "date" (.unary ">2024-01")] := by
  have hb : isAllBlank "\u3000\n" = true := by decide
  have ha : isAllBlank "\t " = true := by decide
  have hsort : StatementList.parse "(a !b) sort:date-DSC" =
      .ok { statements := [.defaultFilter (.group (.and (.matching "a") (.notMatching "!" "b") " ")),
        .sort "date" .descending] } := by decide +kernel
  have hopen : StatementList.parse "\"a b" = .error (.parse 4 (.expected .closingQuote)) := by decide +kernel
  have hone : ({} : TermRegistry Unit).parse "date:>2024-01" = .ok [.named "date" (.unary ">2024-01")] := by
    decide +kernel
  refine ⟨hb, ha, ((parse_surrounded hb ha "(a !b) sort:date-DSC").1 _).2 hsort, fun list h => ?_,
    ((parse_surrounded hb ha "date:>2024-01").2 Unit {} _).2 hone⟩
  have hread := ((parse_surrounded hb ha "\"a b").1 list).1 h
  rw [hopen] at hread
  cases hread

end FieldSearch
