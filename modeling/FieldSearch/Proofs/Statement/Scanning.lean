/-
What the programs of the search grammar read.

- `scanAnd_simulates`, `scanOr_simulates`, `scan_simulates`: an expression is read as the reader says. Where none can be read the
  scanner is where it was.
- `scanSort_simulates`: so is a sort; `Statement.scan_simulates`: and a statement, but the name of a filter that cannot be read
  stays read.
-/
import FieldSearch.Proofs.Grammar.Scanning
import FieldSearch.Proofs.Statement.Image
import FieldSearch.Statement.Scanning

namespace FieldSearch

open Scan Scanner
open Landing (restores stops never carries_never)

variable {text : String} {c : Cursor} {f : Option Failure} {s : Scanner} {n : ℕ}

namespace FilterExpr

/-! ## Links -/

theorem scanAndToken_runs (hs : Stands text c.skipBlanks f s) :
    (scanAndToken c.blanks (spaced c)).Runs s (Found text c.skipBlanks f (readAndToken c)) := by
  unfold scanAndToken readAndToken
  refine (scanJoiner_runs "AND" "&&" hs).bind ?_
  rintro _ s₁ ⟨rfl, h₁⟩
  cases hjoin : readJoiner "AND" "&&" c with
  | some p =>
    rw [hjoin] at h₁
    exact .pure ⟨rfl, h₁⟩
  | none =>
  rw [hjoin] at h₁
  by_cases hb : c.blanks = 0
  · simp only [hb, Nat.lt_irrefl, decide_false, Bool.false_and, Bool.false_eq_true, if_false, Option.map_none, if_true]
    exact .pure ⟨rfl, h₁⟩
  simp only [hb, Nat.pos_of_ne_zero hb, decide_true, Bool.true_and, if_false, Option.map_none]
  refine (atNegation_runs h₁).bind ?_
  rintro _ s₂ ⟨rfl, h₂⟩
  rw [Option.map_none, Option.getD_none] at h₂ ⊢
  cases c.skipBlanks.atNegation <;> exact .pure ⟨rfl, h₂⟩

theorem scanOrToken_runs (hs : Stands text c.skipBlanks f s) :
    (scanOrToken c.blanks (spaced c)).Runs s (Found text c.skipBlanks f (readOrToken c)) := by
  unfold scanOrToken readOrToken
  refine (scanJoiner_runs "OR" "||" hs).bind ?_
  rintro _ s₁ ⟨rfl, h₁⟩
  cases hjoin : readJoiner "OR" "||" c with
  | some p =>
    rw [hjoin] at h₁
    exact .pure ⟨rfl, h₁⟩
  | none =>
  rw [hjoin] at h₁
  refine (scanBlanksJoin_runs h₁).bind ?_
  rintro _ s₂ ⟨rfl, h₂⟩
  cases blanksJoin c <;> exact .pure ⟨rfl, h₂⟩

/-- a link is read as by the reader, and where there is none the scanner is where it was; it never fails -/
theorem scanLink_simulates {token : ℕ → Bool → Scan (Option String)} {readToken : Cursor → Option (String × Cursor)}
    {operand : Scan (Option FilterExpr)} {readOperand : Cursor → Reply FilterExpr}
    (htoken : ∀ {c f s}, Stands text c.skipBlanks f s →
      (token c.blanks (spaced c)).Runs s (Found text c.skipBlanks f (readToken c)))
    (hreach : ∀ c op d, readToken c = some (op, d) → c.Reaches d) (hop : Simulates text restores n operand readOperand) :
    Simulates text never n (scanLink token operand) (readLink readToken readOperand) := by
  intro c f s hc hs
  unfold scanLink readLink
  refine (offset_runs hs).bind ?_
  rintro _ s₁ ⟨rfl, h₁⟩
  refine (scanGap_runs h₁).bind ?_
  rintro _ s₂ ⟨rfl, h₂⟩
  refine (htoken h₂).bind ?_
  rintro _ s₃ ⟨rfl, h₃⟩
  cases htok : readToken c with
  | none =>
    rw [htok] at h₃
    refine (moveTo_runs h₃ hs.place).bind ?_
    rintro _ s₄ ⟨-, h₄⟩
    exact .pure (.done h₄)
  | some p =>
    obtain ⟨operator, behind⟩ := p
    rw [htok] at h₃
    have hshorter : behind.rest.length < n := lt_of_le_of_lt (hreach c operator behind htok).length_le hc
    refine (hop behind f s₃ hshorter h₃).bind ?_
    rintro _ s₄ (⟨hv, h₄⟩ | ⟨hv, -, h₄⟩)
    · exact .pure (.read (Reply.orNone_of_some (Reply.map_of_some hv _) c) (by rwa [Reply.failure_orNone]))
    · refine (moveTo_runs h₄ hs.place).bind ?_
      rintro _ s₅ ⟨-, h₅⟩
      exact .pure (.read (Reply.orNone_of_none (Reply.map_of_none hv _) c) (by rwa [Reply.failure_orNone]))

/-! ## Expressions -/

section Inner

variable {inner : Scan (Option FilterExpr)} {read : Cursor → Reply FilterExpr}

theorem scanUnary_simulates (hadv : Advances read) (hin : Simulates text restores n inner read) :
    Simulates text restores (n + 1) (scanUnary inner) (readOperand forms read) :=
  scanOperand_simulates givesUp_moveTo hadv hin

theorem scanAnd_simulates (hadv : Advances read) (hin : Simulates text restores n inner read) :
    Simulates text restores (n + 1) (scanAnd inner) (readAnd read) := by
  have hreach : ∀ c op d, readAndToken c = some (op, d) → c.Reaches d := fun _ _ _ ht => (readAndToken_eq_some ht).1
  have hop := scanUnary_simulates hadv hin
  exact scanChain_simulates (readOperand_advances hadv) (readLink_consumes hreach (readOperand_advances hadv)) hop
    (scanLink_simulates scanAndToken_runs hreach hop) (carries_never _) (carries_never _)

theorem scanOr_simulates (hadv : Advances read) (hin : Simulates text restores n inner read) :
    Simulates text restores (n + 1) (scanOr inner) (readOr read) := by
  have hreach : ∀ c op d, readOrToken c = some (op, d) → c.Reaches d := fun _ _ _ ht => (readOrToken_eq_some ht).1
  have hop := scanAnd_simulates hadv hin
  exact scanChain_simulates (readAnd_advances hadv) (readLink_consumes hreach (readAnd_advances hadv)) hop
    (scanLink_simulates scanOrToken_runs hreach hop) (carries_never _) (carries_never _)

end Inner

/-- an expression is read as by the reader, and where there is none the scanner is where it was -/
theorem scan_simulates (text : String) (n : ℕ) : Simulates text restores n scan read :=
  recurse_simulates read_eq (fun _ _ => scanOr_simulates read_advances) n

end FilterExpr

namespace Statement

/-! ## Statements -/

/-- the place behind the name that comes next, if one does -/
def behindName (c : Cursor) : Cursor := (c.termName.map Prod.snd).getD c

theorem scanSuffix_runs (hs : Stands text c f s) :
    scanSuffix.Runs s fun answer s' => answer = suffixSort? (nameKey (String.ofList (c.span fun a => !isBlank a))) ∧
      Stands text (if answer.isSome then c.advance (c.span fun a => !isBlank a).length else c) f s' := by
  unfold scanSuffix
  have hsplit := c.rest_span fun a => !isBlank a
  refine (rest_runs hs).bind ?_
  rintro _ s₁ ⟨rfl, h₁⟩
  have hsize : sizeWhile (fun a => !isBlank a) c.rest = Cursor.byteLength (c.span fun a => !isBlank a) := rfl
  rw [hsize]
  generalize (c.span fun a => !isBlank a) = suffix at hsplit ⊢
  refine (ahead_runs h₁ hsplit).bind ?_
  rintro _ s₂ ⟨rfl, h₂⟩
  cases hsort : suffixSort? (nameKey (String.ofList suffix)) with
  | none =>
    simp only [hsort]
    exact .pure ⟨rfl, h₂⟩
  | some direction =>
    simp only [hsort]
    refine (skip_runs h₂ hsplit).bind ?_
    rintro _ s₃ ⟨-, h₃⟩
    exact .pure ⟨rfl, h₃⟩

theorem behindName_reaches (c : Cursor) : c.Reaches (behindName c) := by
  unfold behindName
  cases hname : c.termName with
  | none => exact .refl c
  | some p => exact (termName_passes hname).reaches

/-- a sort takes at least one character -/
theorem readSort_passes {c d : Cursor} {statement : Statement} (h : (readSort c).value = some (statement, d)) :
    c.Passes d := by
  unfold readSort at h
  by_cases hfield : (c.span fun a => !isBlank a && a != '-') = []
  · simp [hfield] at h
  have hrest : c.rest ≠ [] := fun hc => hfield (by rw [Cursor.span, hc, List.takeWhile_nil])
  have hpasses := Cursor.passes_advance (List.length_pos_iff.2 hfield) hrest
  simp only [List.isEmpty_iff, hfield, if_false] at h
  split_ifs at h
  · split at h
    · obtain ⟨-, rfl⟩ := Prod.mk.inj (Option.some.inj h)
      exact hpasses.trans_reaches (Cursor.reaches_advance _ _)
    · simp at h
  · obtain ⟨-, rfl⟩ := Prod.mk.inj (Option.some.inj h)
    exact hpasses

/-- a sort is read as by the reader, and where there is none the scanner is in front of its `sort:` -/
theorem scanSort_runs (hs : Stands text c f s) :
    scanSort.Runs s (Does text restores c f (readSort (behindName c))) := by
  unfold scanSort readSort
  have hname := behindName_reaches c
  refine (offset_runs hs).bind ?_
  rintro _ s₁ ⟨rfl, h₁⟩
  refine (termName_runs h₁).bind ?_
  rintro _ s₂ ⟨-, h₂⟩
  change Stands text (behindName c) f s₂ at h₂
  generalize behindName c = b at h₂ hname ⊢
  have hsplit := b.rest_span fun a => !isBlank a && a != '-'
  refine (rest_runs h₂).bind ?_
  rintro _ s₃ ⟨rfl, h₃⟩
  have hsize : sizeWhile (fun a => !isBlank a && a != '-') b.rest =
      Cursor.byteLength (b.span fun a => !isBlank a && a != '-') := rfl
  rw [hsize]
  generalize (b.span fun a => !isBlank a && a != '-') = field at hsplit ⊢
  simp only [Cursor.byteLength_eq_zero, List.isEmpty_iff]
  by_cases hfield : field = []
  · simp only [hfield, if_true]
    refine (expected_runs h₃ .sortField).bind ?_
    rintro _ s₄ ⟨-, h₄⟩
    refine (moveTo_runs h₄ hs.place).bind ?_
    rintro _ s₅ ⟨-, h₅⟩
    exact .pure (.refused rfl ⟨rfl, (marked_here b _).of_reaches hname⟩ h₅)
  simp only [hfield, if_false]
  have hbehind : c.Reaches (b.advance field.length) := hname.trans (b.reaches_advance _)
  refine (ahead_runs h₃ hsplit).bind ?_
  rintro _ s₄ ⟨rfl, h₄⟩
  refine (skip_runs h₄ hsplit).bind ?_
  rintro _ s₅ ⟨-, h₅⟩
  refine (peek_runs h₅).bind ?_
  rintro _ s₆ ⟨rfl, h₆⟩
  by_cases hminus : (b.advance field.length).peek = some '-'
  · simp only [hminus, if_true]
    refine (scanSuffix_runs h₆).bind ?_
    rintro _ s₇ ⟨rfl, h₇⟩
    cases hsort : suffixSort? (nameKey (String.ofList ((b.advance field.length).span fun a => !isBlank a))) with
    | some direction =>
      rw [hsort] at h₇
      exact .pure (.done h₇)
    | none =>
      rw [hsort] at h₇
      refine (expected_runs h₇ .sortSuffix).bind ?_
      rintro _ s₈ ⟨-, h₈⟩
      refine (moveTo_runs h₈ hs.place).bind ?_
      rintro _ s₉ ⟨-, h₉⟩
      exact .pure (.refused rfl ⟨rfl, (marked_here _ _).of_reaches hbehind⟩ h₉)
  · simp only [hminus, if_false]
    exact .pure (.done h₆)

/-- a statement is read as by the reader; a name without an expression behind it stays read -/
theorem scan_simulates (text : String) (n : ℕ) : Simulates text stops n scan read := by
  have hexpr := (FilterExpr.scan_simulates text n).weaken fun _ _ _ hl => hl.stops
  intro c f s hc hs
  unfold scan read
  refine (peekTermName_runs hs).bind ?_
  rintro _ s₁ ⟨rfl, h₁⟩
  cases hname : c.termName with
  | none =>
    rw [Cursor.termName_none.1 hname]
    exact (hexpr c f s₁ hc h₁).map Statement.defaultFilter
  | some p =>
    obtain ⟨name, b⟩ := p
    have hreach := (termName_passes hname).reaches
    rw [(Cursor.termName_iff.1 hname).1]
    by_cases hsort : nameKey name = "sort"
    · have hb : behindName c = b := by rw [behindName, hname]; rfl
      simp only [hsort, if_true]
      rw [← hb]
      exact (scanSort_runs h₁).mono fun _ _ hd => hd.weaken fun _ hl => hl.stops
    · simp only [hsort, if_false]
      refine (termName_runs h₁).bind ?_
      rintro _ s₂ ⟨-, h₂⟩
      rw [hname] at h₂
      refine (skipBlanks_runs h₂).bind ?_
      rintro _ s₃ ⟨-, h₃⟩
      have hbehind : c.Reaches b.skipBlanks := hreach.trans (Cursor.reaches_skipBlanks b)
      have hfilter := (hexpr b.skipBlanks f s₃ (lt_of_le_of_lt hbehind.length_le hc) h₃).map (Statement.fieldFilter name)
      exact hfilter.mono fun _ _ hd => hd.weaken fun _ hl => ⟨hbehind.trans hl.1, hl.2⟩

end Statement

end FieldSearch
