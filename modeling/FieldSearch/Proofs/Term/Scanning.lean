/-
What the programs of the term grammar read.

- `scanAnd_simulates`, `scanManyWith_simulates`, `scanMany_simulates`: a combination of values is read as the reader says. What is
  missing behind an operator that was typed leaves the scanner where it got to.
- `scanTerm_simulates`: so is a term, whatever is registered.
-/
import FieldSearch.Proofs.Grammar.Scanning
import FieldSearch.Proofs.Grammar.Surroundings
import FieldSearch.Term.Scanning

namespace FieldSearch

open Scan Scanner
open Landing (restores stops carries_stops)

variable {text : String} {c : Cursor} {f : Option Failure} {s : Scanner} {n : ℕ}

namespace Operation

/-- one value is read as by the reader, and where there is none the scanner is where it was -/
theorem scanOne_runs (hs : Stands text c f s) : scanOne.Runs s (Does text restores c f (readOne c)) := by
  unfold scanOne readOne
  refine (quoted_runs hs).bind ?_
  rintro _ s₁ (⟨hv, h₁⟩ | @⟨d, _, hv, hd, h₁⟩)
  · rw [Reply.orElse_of_some hv, Reply.orElse_of_some hv]
    exact .pure (.read (Reply.map_of_some hv _) h₁)
  obtain rfl : d = c := hd
  have hfirst := Reply.orElse_of_none hv fun _ => Reply.ofOption d.nonBlank
  generalize (d.quoted.orElse fun _ => Reply.ofOption d.nonBlank) = first at hfirst ⊢
  have hfailure : first.failure = furthest d.quoted.failure (Reply.ofOption d.nonBlank).failure := by rw [hfirst]
  refine (nonBlank_runs h₁).bind ?_
  rintro _ s₂ (@⟨v, e, _, hrun, h₂⟩ | @⟨e, _, hrun, he, h₂⟩) <;> rw [furthest_assoc, ← hfailure] at h₂
  · have hread : first.value = some (v, e) := by rw [hfirst, hrun]
    rw [Reply.orElse_of_some hread]
    exact .pure (.read (Reply.map_of_some hread _) h₂)
  · obtain rfl : e = d := he
    have hread : first.value = none := by rw [hfirst, hrun]
    rw [Reply.orElse_of_none hread]
    refine (expected_runs h₂ .value).bind ?_
    rintro _ s₃ ⟨-, h₃⟩
    rw [furthest_assoc] at h₃
    exact .pure (.refused rfl ⟨rfl, (marked_here e _).behind⟩ h₃)

/-! ## Links -/

/-- a link by `AND` is read as by the reader; it fails where its operand is missing -/
theorem scanAndLink_simulates {operand : Scan (Option Operation)} {readOperand : Cursor → Reply Operation}
    (hop : Simulates text stops n operand readOperand) :
    Simulates text stops n (scanAndLink operand) (readAndLink readOperand) := by
  intro c f s hc hs
  unfold scanAndLink readAndLink
  refine (offset_runs hs).bind ?_
  rintro _ s₁ ⟨rfl, h₁⟩
  refine (scanGap_runs h₁).bind ?_
  rintro _ s₂ ⟨rfl, h₂⟩
  refine (scanJoiner_runs "AND" "&&" h₂).bind ?_
  rintro _ s₃ ⟨rfl, h₃⟩
  cases hjoin : readJoiner "AND" "&&" c with
  | none =>
    rw [hjoin] at h₃
    refine (moveTo_runs h₃ hs.place).bind ?_
    rintro _ s₄ ⟨-, h₄⟩
    exact .pure (.done h₄)
  | some p =>
    obtain ⟨operator, b⟩ := p
    rw [hjoin] at h₃
    have hreach := (readJoiner_eq_some hjoin).1
    refine (hop b f s₃ (lt_of_le_of_lt hreach.length_le hc) h₃).bind ?_
    rintro _ s₄ (⟨hv, h₄⟩ | ⟨hv, hl, h₄⟩)
    · exact .pure (.read (Reply.map_of_some hv _) h₄)
    · exact .pure (.refused (Reply.map_of_none hv _) ⟨hreach.trans hl.1, hl.2⟩ h₄)

/-- where a negation is spaced any is read, else only the one that needs no space -/
theorem readNotToken_eq (c : Cursor) :
    readNotToken c = if spaced c then readNegation c.skipBlanks
      else ((c.skipBlanks.eatChar '!').map fun d => ("!", d)).or none := by
  rw [readNotToken, readNegation, eatChar_eq "!" '!' rfl]
  cases spaced c with
  | true => simp only [Bool.true_and, if_true]
  | false =>
    simp only [Bool.false_and, Bool.false_eq_true, if_false]
    split_ifs <;> rfl

theorem scanNotToken_runs (hs : Stands text c.skipBlanks f s) :
    (scanNotToken (spaced c)).Runs s (Found text c.skipBlanks f (readNotToken c)) := by
  rw [readNotToken_eq, scanNotToken]
  cases spaced c with
  | true => exact scanNegation_runs hs
  | false => exact token_runs (eatChar_runs hs '!') fun _ => nothing_runs

/-- a link of values is read as by the reader; it fails where something is missing behind an operator that was typed -/
theorem scanLink_simulates {and : Scan (Option Operation)} {readAnd : Cursor → Reply Operation}
    (hand : Simulates text stops n and readAnd) : Simulates text stops n (scanLink and) (readLink readAnd) := by
  intro c f s hc hs
  unfold scanLink readLink
  refine (offset_runs hs).bind ?_
  rintro _ s₁ ⟨rfl, h₁⟩
  refine (scanGap_runs h₁).bind ?_
  rintro _ s₂ ⟨rfl, h₂⟩
  refine (scanJoiner_runs "OR" "||" h₂).bind ?_
  rintro _ s₃ ⟨rfl, h₃⟩
  cases hjoin : readJoiner "OR" "||" c with
  | some p =>
    obtain ⟨operator, b⟩ := p
    rw [hjoin] at h₃
    have hreach := (readJoiner_eq_some hjoin).1
    refine (hand b f s₃ (lt_of_le_of_lt hreach.length_le hc) h₃).bind ?_
    rintro _ s₄ (⟨hv, h₄⟩ | ⟨hv, hl, h₄⟩)
    · exact .pure (.read (Reply.map_of_some hv _) h₄)
    · exact .pure (.refused (Reply.map_of_none hv _) ⟨hreach.trans hl.1, hl.2⟩ h₄)
  | none =>
  rw [hjoin] at h₃
  refine (scanNotToken_runs h₃).bind ?_
  rintro _ s₄ ⟨rfl, h₄⟩
  cases hnot : readNotToken c with
  | some p =>
    obtain ⟨operator, b⟩ := p
    rw [hnot] at h₄
    have hreach := (readNotToken_eq_some hnot).2
    refine (scanNegated_runs h₄).bind ?_
    rintro _ s₅ (⟨hv, h₅⟩ | ⟨hv, hl, h₅⟩)
    · exact .pure (.read (Reply.map_of_some hv _) h₅)
    · exact .pure (.refused (Reply.map_of_none hv _) ⟨hreach.trans hl.1, hl.2⟩ h₅)
  | none =>
  rw [hnot] at h₄
  refine (scanBlanksJoin_runs h₄).bind ?_
  rintro _ s₅ ⟨rfl, h₅⟩
  cases blanksJoin c with
  | false =>
    simp only [Bool.false_eq_true, if_false]
    refine (moveTo_runs h₅ hs.place).bind ?_
    rintro _ s₆ ⟨-, h₆⟩
    exact .pure (.done h₆)
  | true =>
    simp only [if_true]
    have hreach := Cursor.reaches_skipBlanks c
    refine (hand _ f s₅ (lt_of_le_of_lt hreach.length_le hc) h₅).bind ?_
    rintro _ s₆ (⟨hv, h₆⟩ | ⟨hv, hl, h₆⟩)
    · exact .pure (.read (Reply.orNone_of_some (Reply.map_of_some hv _) c) (by rwa [Reply.failure_orNone]))
    · refine (moveTo_runs h₆ hs.place).bind ?_
      rintro _ s₇ ⟨-, h₇⟩
      exact .pure (.read (Reply.orNone_of_none (Reply.map_of_none hv _) c) (by rwa [Reply.failure_orNone]))

/-! ## Combinations -/

section Inner

variable {inner : Scan (Option Operation)} {read : Cursor → Reply Operation}

theorem scanUnary_simulates (hadv : Advances read) (hin : Simulates text stops n inner read) :
    Simulates text stops (n + 1) (scanUnary inner) (readOperand forms read) :=
  scanOperand_simulates givesUp_stays hadv hin

theorem scanAnd_simulates (hadv : Advances read) (hin : Simulates text stops n inner read) :
    Simulates text stops (n + 1) (scanAnd inner) (readAnd read) := by
  have hop := scanUnary_simulates hadv hin
  exact scanChain_simulates (readOperand_advances hadv) (readAndLink_consumes (readOperand_advances hadv)) hop
    (scanAndLink_simulates hop) carries_stops carries_stops

theorem scanManyWith_simulates (hadv : Advances read) (hin : Simulates text stops n inner read) :
    Simulates text stops (n + 1) (scanManyWith inner) (readManyWith read) := by
  have hop := scanAnd_simulates hadv hin
  exact scanChain_simulates (readAnd_advances hadv) (readLink_consumes (readAnd_advances hadv)) hop
    (scanLink_simulates hop) carries_stops carries_stops

end Inner

theorem scanMany_simulates (text : String) (n : ℕ) : Simulates text stops n scanMany readMany :=
  recurse_simulates readMany_eq (fun _ _ => scanManyWith_simulates readMany_advances) n

theorem scan_simulates (text : String) (n : ℕ) (condition : Condition) : Simulates text stops n (scan condition) (read condition) := by
  cases condition with
  | one => exact fun c f s _ hs => (scanOne_runs hs).mono fun _ _ hd => hd.weaken fun _ hl => hl.stops
  | many => exact scanMany_simulates text n

end Operation

namespace TermRegistry

variable {Q : Type}

/-- a term is read as by the reader; a name without a value behind it stays read -/
theorem scanTerm_simulates (r : TermRegistry Q) (text : String) (n : ℕ) : Simulates text stops n r.scanTerm r.readTerm := by
  intro c f s hc hs
  unfold scanTerm readTerm
  refine (peekTermName_runs hs).bind ?_
  rintro _ s₁ ⟨rfl, h₁⟩
  cases hname : c.termName with
  | some p =>
    obtain ⟨name, b⟩ := p
    rw [(Cursor.termName_iff.1 hname).1]
    refine (termName_runs h₁).bind ?_
    rintro _ s₂ ⟨-, h₂⟩
    rw [hname] at h₂
    refine (skipBlanks_runs h₂).bind ?_
    rintro _ s₃ ⟨-, h₃⟩
    have hbehind : c.Reaches b.skipBlanks := (behind_termName hname).reaches
    have hshorter := lt_of_le_of_lt hbehind.length_le hc
    cases hget : r.get? name with
    | some t =>
      have hvalue := (Operation.scan_simulates text n t.builders.condition _ _ _ hshorter h₃).map (Term.named t.name)
      simp only [hget]
      exact hvalue.mono fun _ _ hd => hd.weaken fun _ hl => ⟨hbehind.trans hl.1, hl.2⟩
    | none =>
      have hvalue := (Operation.scan_simulates text n .one _ _ _ hshorter h₃).map (Term.named name)
      simp only [hget]
      exact hvalue.mono fun _ _ hd => hd.weaken fun _ hl => ⟨hbehind.trans hl.1, hl.2⟩
  | none =>
    rw [Cursor.termName_none.1 hname]
    cases hdefault : r.default? with
    | some t => exact (Operation.scan_simulates text n t.builders.condition c f s₁ hc h₁).map (Term.default t.name)
    | none =>
      refine (expected_runs h₁ .termName).bind ?_
      rintro _ s₂ ⟨-, h₂⟩
      exact .pure (.fail ⟨.refl c, marked_here c _⟩ h₂)

end TermRegistry

end FieldSearch
