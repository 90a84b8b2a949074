/-
Offsets of scanners: they are always valid, and every program gets further or back to where it was.

- `Scanner.Sound`: the scanner stands at a place of its text and was only at such places. `Stands.sound`, `Sound.stands`:
  exactly then it stands where some cursor does.
- `scan_offsets`: reading a whole text sets the scanner to places of the text only and cuts the text at none other, and what
  cannot be read is reported at a place of the text that is not before the start of the failing statement or term.
- `scan_progresses`: the programs of the search grammar read on or restore, those of the term grammar read on where they read
  anything, and no loop and no recursion ever goes on without reading.
-/
import FieldSearch.Proofs.Grammar.Surroundings
import FieldSearch.Proofs.Statement.Scanning
import FieldSearch.Proofs.Term.Scanning

namespace FieldSearch

open Scan
open Scanner (IsPlace Stands)
open Landing (restores stops)

/-! ## Whole texts -/

theorem StatementList.scan_runs (text : String) :
    StatementList.scan.Runs (.start text) fun answer s => answer = StatementList.parse text ∧
      (∀ n ∈ s.touched, IsPlace text n) ∧
      ∀ error, StatementList.parse text = .error error → Located Statement.read .statementBreak text error := by
  refine (scanAll_runs Statement.read_advances (Statement.scan_simulates text)).bind ?_
  rintro _ s ⟨rfl, htouched, hlocated⟩
  refine .pure ⟨rfl, htouched, fun error herror => hlocated error ?_⟩
  unfold StatementList.parse at herror
  cases hall : readAll Statement.read .statementBreak text with
  | ok items => rw [hall] at herror; cases herror
  | error error' => rw [hall] at herror; cases herror; rfl

theorem TermRegistry.scan_runs {Q : Type} (r : TermRegistry Q) (text : String) :
    r.scan.Runs (.start text) fun answer s => answer = r.parse text ∧ (∀ n ∈ s.touched, IsPlace text n) ∧
      ∀ error, r.parse text = .error error → Located r.readTerm .termBreak text error :=
  scanAll_runs r.readTerm_passes (r.scanTerm_simulates text)

/-- **Offsets are always valid.** A scanner reads a text as `parse` does. On the way it is only set to places of the text, and
the text is only cut at places of it. What cannot be read is reported at a place of the text, not before the start of the
statement or the term that failed. -/
theorem scan_offsets (text : String) :
    (∃ s, StatementList.scan.run (.start text) = .ok (StatementList.parse text, s) ∧ ∀ n ∈ s.touched, IsPlace text n) ∧
      (∀ error, StatementList.parse text = .error error → Located Statement.read .statementBreak text error) ∧
      ∀ (Q : Type) (r : TermRegistry Q),
        (∃ s, r.scan.run (.start text) = .ok (r.parse text, s) ∧ ∀ n ∈ s.touched, IsPlace text n) ∧
          ∀ error, r.parse text = .error error → Located r.readTerm .termBreak text error := by
  obtain ⟨_, s, hrun, rfl, htouched, hlocated⟩ := StatementList.scan_runs text
  refine ⟨⟨s, hrun, htouched⟩, hlocated, fun Q r => ?_⟩
  obtain ⟨_, s, hrun, rfl, htouched, hlocated⟩ := r.scan_runs text
  exact ⟨⟨s, hrun, htouched⟩, hlocated⟩

/-- an expression behind a character of two bytes, whose parenthesis is never closed, is reported at the end of the text -/
theorem scan_offsets_unclosed :
    StatementList.parse "é (ü" = .error (.parse 6 (.expected .closingParen)) ∧
      Located Statement.read .statementBreak "é (ü" (.parse 6 (.expected .closingParen)) ∧
      ({} : TermRegistry Unit).parse "n:é m:\"ü\"x" = .error (.parse 11 (.expected .termBreak)) ∧
      Located ({} : TermRegistry Unit).readTerm .termBreak "n:é m:\"ü\"x" (.parse 11 (.expected .termBreak)) := by
  have hstatement : StatementList.parse "é (ü" = .error (.parse 6 (.expected .closingParen)) := by decide +kernel
  have hterm : ({} : TermRegistry Unit).parse "n:é m:\"ü\"x" = .error (.parse 11 (.expected .termBreak)) := by decide +kernel
  exact ⟨hstatement, (scan_offsets "é (ü").2.1 _ hstatement, hterm,
    ((scan_offsets "n:é m:\"ü\"x").2.2 Unit {}).2 _ hterm⟩

/-! ## Progress -/

namespace Scanner

/-- the scanner stands at a place of its text, and so were all its offsets and its failure -/
structure Sound (s : Scanner) : Prop where
  offset : IsPlace s.text s.offset
  touched : ∀ n ∈ s.touched, IsPlace s.text n
  failure : ∀ x ∈ s.failure, IsPlace s.text x.offset

variable {text : String} {c : Cursor} {f : Option Failure} {s : Scanner}

theorem Stands.sound (h : Stands text c f s) : s.Sound where
  offset := by
    rw [h.reads, h.offset]
    exact isPlace_of_at h.place
  touched := h.reads ▸ h.touched
  failure := by
    rw [h.reads, h.failure]
    exact h.failed

theorem Sound.stands (h : s.Sound) : ∃ c, Stands s.text c s.failure s := by
  obtain ⟨c, hplace, hoffset⟩ := at_of_isPlace h.offset
  exact ⟨c, rfl, hplace, hoffset.symm, rfl, h.touched, h.failure⟩

end Scanner

namespace Scan

variable {α : Type} {text : String} {c : Cursor} {f : Option Failure} {s : Scanner} {p : Scan (Option α)} {r : Reply α}

/-- the program ends, and if it reads anything the scanner is further on in its text -/
def Progresses (p : Scan (Option α)) (s : Scanner) : Prop :=
  p.Runs s fun answer s' => s'.Sound ∧ s'.text = s.text ∧
    (answer.isSome → s.offset < s'.offset ∧ s'.offset ≤ s.text.utf8ByteSize)

/-- the program ends, and the scanner is further on in its text if anything was read, else it is where it was -/
def ProgressesOrRestores (p : Scan (Option α)) (s : Scanner) : Prop :=
  p.Runs s fun answer s' => s'.Sound ∧ s'.text = s.text ∧
    (answer.isSome → s.offset < s'.offset ∧ s'.offset ≤ s.text.utf8ByteSize) ∧ (answer = none → s'.offset = s.offset)

/-- of two places of a text the one behind which less is left has the larger offset -/
theorem offset_lt_of_passes {d : Cursor} {g : Option Failure} {s' : Scanner} (hs : Stands text c f s) (hs' : Stands text d g s')
    (hpasses : c.Passes d) : s.offset < s'.offset ∧ s'.offset ≤ s.text.utf8ByteSize := by
  have hlt := hs.place.byteLength_lt hs'.place hpasses.2
  have hc := hs.place.size
  have hd := hs'.place.size
  rw [Cursor.byteLength_toList] at hc hd
  rw [hs.reads, hs.offset, hs'.offset]
  omega

theorem progresses_of_does {L : Landing} (hs : Stands text c f s) (hadv : ∀ a d, r.value = some (a, d) → c.Passes d)
    (hp : p.Runs s (Does text L c f r)) : Progresses p s := by
  refine hp.mono ?_
  rintro _ s' (⟨hv, h'⟩ | ⟨-, -, h'⟩)
  · exact ⟨h'.sound, h'.reads.trans hs.reads.symm, fun _ => offset_lt_of_passes hs h' (hadv _ _ hv)⟩
  · exact ⟨h'.sound, h'.reads.trans hs.reads.symm, fun hanswer => absurd hanswer (by simp)⟩

theorem progressesOrRestores_of_does (hs : Stands text c f s) (hadv : ∀ a d, r.value = some (a, d) → c.Passes d)
    (hp : p.Runs s (Does text restores c f r)) : ProgressesOrRestores p s := by
  refine hp.mono ?_
  rintro _ s' (⟨hv, h'⟩ | ⟨-, ⟨rfl, -⟩, h'⟩)
  · exact ⟨h'.sound, h'.reads.trans hs.reads.symm, fun _ => offset_lt_of_passes hs h' (hadv _ _ hv), nofun⟩
  · exact ⟨h'.sound, h'.reads.trans hs.reads.symm, nofun, fun _ => h'.offset.trans hs.offset.symm⟩

end Scan

/-- **Reading always progresses or restores.** From every place of every text, the programs of the search grammar read
something and are further on in the text, or read nothing and are where they were. The programs of the term grammar are
further on whenever they read something. None of them stops with a fault, nor does reading a whole text: no loop, and no
recursion through parentheses, ever goes on without less bytes unread than before. -/
theorem scan_progresses (s : Scanner) (hs : s.Sound) :
    (ProgressesOrRestores FilterExpr.scan s ∧ ProgressesOrRestores (FilterExpr.scanAnd FilterExpr.scan) s ∧
        ProgressesOrRestores (FilterExpr.scanUnary FilterExpr.scan) s ∧
        ProgressesOrRestores (scanPrimary FilterExpr.forms moveTo FilterExpr.scan) s ∧
        ProgressesOrRestores Statement.scanSort s) ∧
      (Progresses Operation.scanOne s ∧ Progresses Operation.scanMany s ∧
        Progresses (Operation.scanAnd Operation.scanMany) s ∧ Progresses (Operation.scanUnary Operation.scanMany) s ∧
        Progresses (scanPrimary Operation.forms (fun _ => pure ()) Operation.scanMany) s ∧ Progresses scanNegated s) ∧
      (∃ answer s', StatementList.scan.run (.start s.text) = .ok (answer, s')) ∧
      ∀ (Q : Type) (r : TermRegistry Q), ∃ answer s', r.scan.run (.start s.text) = .ok (answer, s') := by
  obtain ⟨c, h⟩ := hs.stands
  have hlt := Nat.lt_succ_self c.rest.length
  have hfilter := FilterExpr.scan_simulates s.text c.rest.length
  have hmany := Operation.scanMany_simulates s.text c.rest.length
  have hfilterAdv := FilterExpr.read_advances
  have hmanyAdv := Operation.readMany_advances
  refine ⟨⟨?_, ?_, ?_, ?_, ?_⟩, ⟨?_, ?_, ?_, ?_, ?_, ?_⟩, ?_, fun Q r => ?_⟩
  · exact progressesOrRestores_of_does h (hfilterAdv c) (FilterExpr.scan_simulates s.text _ c _ s hlt h)
  · exact progressesOrRestores_of_does h (FilterExpr.readAnd_advances hfilterAdv c)
      (FilterExpr.scanAnd_simulates hfilterAdv hfilter c _ s hlt h)
  · exact progressesOrRestores_of_does h (readOperand_advances hfilterAdv c)
      (FilterExpr.scanUnary_simulates hfilterAdv hfilter c _ s hlt h)
  · exact progressesOrRestores_of_does h (readPrimary_advances hfilterAdv c)
      (scanPrimary_simulates givesUp_moveTo hfilterAdv hfilter c _ s hlt h)
  · exact progressesOrRestores_of_does h
      (fun _ _ hv => (Statement.behindName_reaches c).trans_passes (Statement.readSort_passes hv)) (Statement.scanSort_runs h)
  · exact progresses_of_does h (fun _ _ hv => (Operation.readOne_eq_some hv).1) (Operation.scanOne_runs h)
  · exact progresses_of_does h (hmanyAdv c) (Operation.scanMany_simulates s.text _ c _ s hlt h)
  · exact progresses_of_does h (Operation.readAnd_advances hmanyAdv c) (Operation.scanAnd_simulates hmanyAdv hmany c _ s hlt h)
  · exact progresses_of_does h (readOperand_advances hmanyAdv c) (Operation.scanUnary_simulates hmanyAdv hmany c _ s hlt h)
  · exact progresses_of_does h (readPrimary_advances hmanyAdv c)
      (scanPrimary_simulates givesUp_stays hmanyAdv hmany c _ s hlt h)
  · exact progresses_of_does h (readNegated_advances c) (scanNegated_runs h)
  · obtain ⟨answer, s', hrun, -⟩ := StatementList.scan_runs s.text
    exact ⟨answer, s', hrun⟩
  · obtain ⟨answer, s', hrun, -⟩ := r.scan_runs s.text
    exact ⟨answer, s', hrun⟩

/-- where the group behind `OR` stays open, the search grammar goes back behind the operand in front of it, and the term
grammar reads nothing -/
theorem scan_progresses_open_group :
    (⟨"né (b) OR (c", 4, none, []⟩ : Scanner).Sound ∧ ProgressesOrRestores FilterExpr.scan ⟨"né (b) OR (c", 4, none, []⟩ ∧
      Progresses Operation.scanMany ⟨"né (b) OR (c", 4, none, []⟩ ∧
      (FilterExpr.scan.run ⟨"né (b) OR (c", 4, none, []⟩).map (fun p => (p.1, p.2.offset)) =
        .ok (some (.group (.matching "b")), 7) ∧
      (Operation.scanMany.run ⟨"né (b) OR (c", 4, none, []⟩).map (fun p => (p.1, p.2.offset)) = .ok (none, 13) := by
  have hsound : (⟨"né (b) OR (c", 4, none, []⟩ : Scanner).Sound :=
    ⟨⟨"né ", "(b) OR (c", by decide, by decide⟩, nofun, nofun⟩
  obtain ⟨⟨hfilter, -⟩, ⟨-, hmany, -⟩, -⟩ := scan_progresses _ hsound
  exact ⟨hsound, hfilter, hmany, by decide +kernel, by decide +kernel⟩

end FieldSearch
