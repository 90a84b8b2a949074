/-
What the shared programs read, told by the readers of the grammars.

- `quoted_runs`, `bareWord_runs`, `nonBlank_runs`: a value is read as by the reader. A quoted value whose last quote is missing
  leaves the scanner in front of its first one.
- `GivesUp`: how a grammar leaves an operand that cannot be read. `scanOperand_simulates`: operands, for each such way.
- `scanJoiner_runs`, `scanBlanksJoin_runs`: operators between operands, looked for behind the blanks.
- `scanAll_runs`: a whole text is read as the reader says. What cannot be read is reported at a place of the text that is not
  before the start of the failing item (`FailsFrom`, `Located`).
-/
import FieldSearch.Proofs.Grammar.Simulation
import FieldSearch.Proofs.Grammar.Items

namespace FieldSearch

variable {α β : Type} {c d e : Cursor} {f g : Option Failure}

namespace Scan

open Scanner (Stands IsPlace)
open Landing (stays restores stops carries_stops)

variable {text : String} {s : Scanner} {L : Landing}

/-! ## Values -/

theorem quotedChar_runs (hs : Stands text c f s) {a : Char} {l : List Char} (hr : c.rest = a :: l) (value : List Char)
    (escaped : Bool) : (quotedChar (value, escaped)).Runs s (Moved text c.bump f (quotedNext value escaped a)) := by
  refine (peek_runs hs).bind ?_
  rintro _ s₁ ⟨rfl, h₁⟩
  rw [Cursor.peek, hr, List.head?_cons]
  refine (skip_char h₁ hr).bind ?_
  rintro _ s₂ ⟨-, h₂⟩
  exact .pure ⟨rfl, h₂⟩

/-- a quoted value goes on behind a character that does not end it -/
theorem quotedChar_goes (hs : Stands text c f s) {a : Char} {l : List Char} (hr : c.rest = a :: l) {value : List Char}
    {escaped : Bool} {next : List Char × Bool} {P : Option (List Char) → Scanner → Prop}
    (hnext : quotedNext value escaped a = .inl next)
    (hloop : ∀ s', Stands text c.bump f s' → (loop quotedChar next).Runs s' P) :
    (loop quotedChar (value, escaped)).Runs s P := by
  refine loop_runs ((quotedChar_runs hs hr value escaped).mono ?_)
  rintro _ s' ⟨rfl, h'⟩
  rw [hnext]
  exact ⟨hs.unread_lt h' (by rw [Cursor.rest_bump, hr]; simp), hloop s' h'⟩

/-- the loop stops where nothing is left -/
theorem quotedChar_ends (hs : Stands text c f s) (hr : c.rest = []) (value : List Char) (escaped : Bool) :
    (loop quotedChar (value, escaped)).Runs s (Moved text c f none) := by
  refine loop_runs ((peek_runs hs).bind ?_)
  rintro _ s₁ ⟨rfl, h₁⟩
  rw [Cursor.peek, hr]
  exact .pure ⟨rfl, h₁⟩

/-- what is read of a quoted value behind `k` characters that stand for `a` -/
theorem quoted_behind {q : Option (List Char × ℕ)} {value : List Char} {a : Char} {k n : ℕ} {x : Option (List Char)}
    (hx : Moved text ((c.advance k).advance ((q.map Prod.snd).getD n)) f (q.map fun p => (value ++ [a]) ++ p.1) x s) :
    Moved text (c.advance (((q.map fun p => (a :: p.1, p.2 + k)).map Prod.snd).getD (n + k))) f
      ((q.map fun p => (a :: p.1, p.2 + k)).map fun p => value ++ p.1) x s := by
  cases q with
  | none => rwa [Cursor.advance_advance, Nat.add_comm] at hx
  | some p =>
    have hvalue : value ++ [a] ++ p.1 = value ++ a :: p.1 := List.append_assoc _ _ _
    rwa [Cursor.advance_advance, Nat.add_comm, Option.map_some, Option.map_some, hvalue] at hx

/-- the characters of a quoted value are read up to its last quote, or up to the end if it has none -/
theorem quotedChar_loop (hs : Stands text c f s) (value : List Char) :
    (loop quotedChar (value, false)).Runs s
      (Moved text (c.advance (((Cursor.scanQuoted c.rest).map Prod.snd).getD c.rest.length)) f
        ((Cursor.scanQuoted c.rest).map fun p => value ++ p.1)) := by
  -- as the reader does: it looks at two characters where the first is a backslash, the loop at one after the other
  induction hr : c.rest using Cursor.scanQuoted.induct generalizing c s value with
  | case1 => exact quotedChar_ends hs hr value false
  | case2 =>
    refine quotedChar_goes hs hr rfl fun s' h' => ?_
    exact quotedChar_ends h' (by rw [Cursor.rest_bump, hr]; rfl) value true
  | case3 a l ih =>
    have hb : c.bump.rest = a :: l := by rw [Cursor.rest_bump, hr]; rfl
    refine quotedChar_goes hs hr rfl fun s₁ h₁ => quotedChar_goes h₁ hb rfl fun s₂ h₂ => ?_
    rw [Cursor.scanQuoted]
    exact (ih h₂ (value ++ [a]) (by rw [Cursor.rest_bump, hb]; rfl)).mono fun _ _ => quoted_behind (k := 2)
  | case4 l hlast hnext =>
    refine loop_runs ((quotedChar_runs hs hr value false).mono ?_)
    rintro _ s' ⟨rfl, h'⟩
    rw [Cursor.scanQuoted.eq_4 _ _ hlast hnext, if_pos rfl]
    exact ⟨by simp, h'⟩
  | case5 a l hlast hnext ha ih =>
    have hslash : a ≠ '\\' := by
      rintro rfl
      cases l with
      | nil => exact hlast rfl rfl
      | cons b l => exact hnext b l rfl rfl
    have hplain : quotedNext value false a = .inl (value ++ [a], false) := by
      rw [quotedNext, if_neg Bool.false_ne_true, if_neg hslash, if_neg ha]
    refine quotedChar_goes hs hr hplain fun s₁ h₁ => ?_
    rw [Cursor.scanQuoted.eq_4 _ _ hlast hnext, if_neg ha]
    exact (ih h₁ (value ++ [a]) (by rw [Cursor.rest_bump, hr]; rfl)).mono fun _ _ => quoted_behind (k := 1)

theorem quoted_runs (hs : Stands text c f s) : quoted.Runs s (Does text stays c f c.quoted) := by
  unfold quoted Cursor.quoted
  refine (offset_runs hs).bind ?_
  rintro _ s₁ ⟨rfl, h₁⟩
  refine eat_runs (eatChar_runs h₁ '"') (fun inside s₂ hopen h₂ => ?_) fun s₂ hopen h₂ => ?_
  · rw [hopen]
    refine (quotedChar_loop h₂ []).bind ?_
    rintro _ s₃ ⟨rfl, h₃⟩
    cases hq : Cursor.scanQuoted inside.rest with
    | some p =>
      rw [hq] at h₃
      simp only [hq]
      exact .pure (.done h₃)
    | none =>
      rw [hq] at h₃
      simp only [hq]
      refine (expected_runs h₃ .closingQuote).bind ?_
      rintro _ s₄ ⟨-, h₄⟩
      refine (moveTo_runs h₄ hs.place).bind ?_
      rintro _ s₅ ⟨-, h₅⟩
      exact .pure (.refused rfl rfl h₅)
  · rw [hopen]
    exact .pure (.refused rfl rfl (by rwa [furthest_none]))

theorem bareWord_runs (hs : Stands text c f s) : bareWord.Runs s (Does text stays c f (.ofOption c.bareWord)) := by
  refine Runs.ofOption ?_
  unfold bareWord Cursor.bareWord
  refine (rest_runs hs).bind ?_
  rintro _ s₁ ⟨rfl, h₁⟩
  have hsplit := c.rest_span isWordChar
  cases hr : c.rest with
  | nil => exact .pure ⟨rfl, h₁⟩
  | cons a r =>
  by_cases ha : isWordStart a = true
  · have hword : isWordChar a = true := (Bool.and_eq_true_iff.1 ha).1
    have hsize : a.utf8Size + sizeWhile isWordChar r = Cursor.byteLength (c.span isWordChar) := by
      rw [Cursor.span, hr, List.takeWhile_cons_of_pos hword]
      rfl
    simp only [ha, if_true, Bool.true_and, hsize]
    generalize c.span isWordChar = word at hsplit ⊢
    generalize c.rest.dropWhile isWordChar = behind at hsplit
    refine (ahead_runs h₁ hsplit).bind ?_
    rintro _ s₂ ⟨rfl, h₂⟩
    have hread : (!keywords.contains (String.ofList word) && (c.advance word.length).peek != some ':') =
        !(keywords.contains (String.ofList word) || decide (behind.head? = some ':')) := by
      rw [Cursor.peek, Cursor.rest_advance_of_append hsplit, Bool.not_or, bne, beq_eq_decide]
    rw [hread]
    cases keywords.contains (String.ofList word) || decide (behind.head? = some ':') with
    | true => exact .pure ⟨rfl, h₂⟩
    | false =>
      refine (skip_runs h₂ hsplit).bind ?_
      rintro _ s₃ ⟨-, h₃⟩
      exact .pure ⟨rfl, h₃⟩
  · simp only [ha, Bool.false_eq_true, if_false, Bool.false_and]
    exact .pure ⟨rfl, h₁⟩

theorem nonBlank_runs (hs : Stands text c f s) : nonBlank.Runs s (Does text stays c f (.ofOption c.nonBlank)) := by
  refine Runs.ofOption ?_
  unfold nonBlank Cursor.nonBlank
  refine (rest_runs hs).bind ?_
  rintro _ s₁ ⟨rfl, h₁⟩
  have hsize : sizeWhile (fun a => !isBlank a) c.rest = Cursor.byteLength (c.span fun a => !isBlank a) := rfl
  have hsplit := c.rest_span fun a => !isBlank a
  simp only [hsize, Cursor.byteLength_eq_zero]
  generalize (c.span fun a => !isBlank a) = run at hsplit ⊢
  cases run with
  | nil => exact .pure ⟨rfl, h₁⟩
  | cons a run =>
    simp only [List.cons_ne_nil, if_false]
    refine (ahead_runs h₁ hsplit).bind ?_
    rintro _ s₂ ⟨rfl, h₂⟩
    refine (skip_runs h₂ hsplit).bind ?_
    rintro _ s₃ ⟨-, h₃⟩
    exact .pure ⟨rfl, h₃⟩

/-! ## Operands -/

theorem scanValue_runs (hs : Stands text c f s) : scanValue.Runs s (Does text stays c f (readValue c)) := by
  refine (quoted_runs hs).bind ?_
  rintro _ s₁ (⟨hv, h₁⟩ | ⟨hv, rfl, h₁⟩)
  · rw [readValue, Reply.orElse_of_some hv]
    exact .pure (.read hv h₁)
  · rw [readValue, Reply.orElse_of_none hv]
    exact (bareWord_runs h₁).mono fun _ _ => .shift fun _ hl => hl

/-- a symbol of one character is that character -/
theorem eatChar_eq (symbol : String) (a : Char) (hsymbol : symbol.toList = [a]) :
    c.eatChar a = if c.startsWith symbol then some c.bump else none := by
  have hstarts : c.startsWith symbol = true ↔ c.peek = some a := by
    rw [Cursor.startsWith_iff, hsymbol, Cursor.peek]
    cases c.rest <;> simp [eq_comm]
  simp only [Cursor.eatChar, hstarts]

/-- a token is tried before others -/
theorem token_runs {eat : Scan Bool} {taken : Option Cursor} {others : Scan (Option String)} {token : String}
    {found : Option (String × Cursor)} (heat : eat.Runs s (Moved text (taken.getD c) f taken.isSome))
    (hothers : ∀ s, Stands text c f s → others.Runs s (Found text c f found)) :
    (do if ← eat then return some token else others).Runs s (Found text c f ((taken.map fun d => (token, d)).or found)) := by
  refine eat_runs heat (fun d s' hd h' => ?_) fun s' hd h' => ?_
  · rw [hd]
    exact .pure ⟨rfl, h'⟩
  · rw [hd]
    exact hothers s' h'

theorem readNegation_eq (c : Cursor) :
    readNegation c = ((c.eatKeyword "NOT").map fun d => ("NOT", d)).or
      (((c.eatChar '!').map fun d => ("!", d)).or (((c.eatChar '-').map fun d => ("-", d)).or none)) := by
  rw [readNegation, Cursor.eatKeyword, eatChar_eq "!" '!' rfl, eatChar_eq "-" '-' rfl]
  split_ifs <;> rfl

theorem scanNegation_runs (hs : Stands text c f s) : scanNegation.Runs s (Found text c f (readNegation c)) := by
  rw [readNegation_eq]
  exact token_runs (eatKeyword_runs hs "NOT") fun _ h₁ => token_runs (eatChar_runs h₁ '!') fun _ h₂ =>
    token_runs (eatChar_runs h₂ '-') fun _ => nothing_runs

theorem scanNegated_runs (hs : Stands text c f s) : scanNegated.Runs s (Does text stops c f (readNegated c)) := by
  unfold scanNegated readNegated
  have hreach := Cursor.reaches_skipBlanks c
  refine (skipBlanks_runs hs).bind ?_
  rintro _ s₁ ⟨-, h₁⟩
  refine (peek_runs h₁).bind ?_
  rintro _ s₂ ⟨rfl, h₂⟩
  by_cases hp : c.skipBlanks.peek = some '('
  · simp only [hp, if_true]
    refine (expected_runs h₂ .negatedGroup).bind ?_
    rintro _ s₃ ⟨-, h₃⟩
    exact .pure (.fail ⟨hreach, marked_here _ _⟩ h₃)
  · simp only [hp, if_false]
    refine (scanValue_runs h₂).bind ?_
    rintro _ s₃ (⟨hv, h₃⟩ | ⟨hv, rfl, h₃⟩)
    · rw [Reply.orElse_of_some hv]
      exact .pure (.read hv h₃)
    · rw [Reply.orElse_of_none hv]
      refine (expected_runs h₃ .negatedValue).bind ?_
      rintro _ s₄ ⟨-, h₄⟩
      exact .pure (.carry carries_stops hreach (.fail ⟨.refl _, marked_here _ _⟩ h₄))

/-- how a grammar gives an operand up: from anywhere behind its start the scanner goes where the landing says -/
structure GivesUp (text : String) (L : Landing) (giveUp : ℕ → Scan Unit) : Prop where
  /-- where nothing of the operand was read yet -/
  here : ∀ {c g}, Marked c g → L c g c
  /-- where something was read -/
  gives : ∀ {c d f g s}, c.At text.toList → c.Reaches d → Marked d g → Stands text d (furthest f g) s →
    (giveUp c.offset).Runs s fun _ s' => ∃ e, L c g e ∧ Stands text e (furthest f g) s'
  /-- an operand inside of a group is given up in front of a failure -/
  lands : ∀ {c g d}, L c g d → stops c g d

theorem givesUp_moveTo : GivesUp text restores moveTo where
  here hm := ⟨rfl, hm⟩
  gives {c _ _ _ _} hplace hreach hm hs := by
    refine (moveTo_runs hs hplace).mono ?_
    rintro _ s' ⟨-, h'⟩
    exact ⟨c, ⟨rfl, hm.of_reaches hreach⟩, h'⟩
  lands hl := hl.stops

theorem givesUp_stays : GivesUp text stops fun _ => pure () where
  here hm := ⟨.refl _, hm⟩
  gives {_ d _ _ _} _ hreach hm hs := .pure ⟨d, ⟨hreach, hm⟩, hs⟩
  lands hl := hl

section Operand

variable {forms : OperandForms α} {giveUp : ℕ → Scan Unit} {n : ℕ} {inner : Scan (Option α)} {read : Cursor → Reply α}

/-- reads an expression and the `)` behind it -/
def readGroup (read : Cursor → Reply α) (c : Cursor) : Reply α := (read c.skipBlanks).bind closeGroup

theorem closeGroup_map (k : α → β) (a : α) (c : Cursor) : (closeGroup a c).map k = closeGroup (k a) c := by
  unfold closeGroup
  cases c.skipBlanks.eatChar ')' <;> rfl

/-- a primary operand: a value, or else a group -/
theorem readPrimary_eq (c : Cursor) :
    readPrimary forms read c = ((readValue c).map forms.single).orElse fun _ =>
      match c.eatChar '(' with
      | none => .fail .value c
      | some inside => (readGroup read inside).map forms.group := by
  cases hopen : c.eatChar '(' with
  | none => simp only [readPrimary, hopen]
  | some inside => simp only [readPrimary, hopen, readGroup, Reply.map_bind, closeGroup_map]

theorem scanGroup_simulates (hL : ∀ {c g d}, L c g d → stops c g d) (hadv : Advances read)
    (hin : Simulates text L n inner read) : Simulates text stops n (scanGroup inner) (readGroup read) := by
  intro c f s hc hs
  unfold readGroup
  have hreach := Cursor.reaches_skipBlanks c
  refine (skipBlanks_runs hs).bind ?_
  rintro _ s₁ ⟨-, h₁⟩
  refine (hin _ _ _ (lt_of_le_of_lt hreach.length_le hc) h₁).bind ?_
  rintro _ s₂ (⟨hv, h₂⟩ | ⟨hv, hl, h₂⟩)
  · rename_i a d
    have hbehind : c.Reaches d.skipBlanks := hreach.trans ((hadv _ _ _ hv).reaches.trans (Cursor.reaches_skipBlanks d))
    rw [Reply.bind_of_some hv, closeGroup]
    refine (skipBlanks_runs h₂).bind ?_
    rintro _ s₃ ⟨-, h₃⟩
    refine eat_runs (eatChar_runs h₃ ')') (fun e s₄ hclose h₄ => ?_) fun s₄ hclose h₄ => ?_ <;> rw [hclose]
    · exact .pure (.done_behind h₄)
    · refine (expected_runs h₄ .closingParen).bind ?_
      rintro _ s₅ ⟨-, h₅⟩
      exact .pure (.carry carries_stops hbehind (.fail ⟨.refl _, marked_here _ _⟩ h₅))
  · rw [Reply.bind_of_none hv]
    exact .pure (.refused rfl ⟨hreach.trans (hL hl).1, (hL hl).2⟩ h₂)

theorem scanPrimary_simulates (hgive : GivesUp text L giveUp) (hadv : Advances read) (hin : Simulates text L n inner read) :
    Simulates text L (n + 1) (scanPrimary forms giveUp inner) (readPrimary forms read) := by
  intro c f s hc hs
  rw [readPrimary_eq]
  refine (scanValue_runs hs).bind ?_
  rintro _ s₁ (⟨hv, h₁⟩ | @⟨d, _, hv, hd, h₁⟩)
  · rw [Reply.orElse_of_some (Reply.map_of_some hv _)]
    exact .pure (.read (Reply.map_of_some hv _) h₁)
  obtain rfl : d = c := hd
  rw [Reply.orElse_of_none (Reply.map_of_none hv _)]
  refine (offset_runs h₁).bind ?_
  rintro _ s₂ ⟨rfl, h₂⟩
  refine eat_runs (eatChar_runs h₂ '(') (fun inside s₃ hopen h₃ => ?_) fun s₃ hopen h₃ => ?_
  · have hpasses := eatChar_eq_some hopen
    have hshorter : inside.rest.length < n := lt_of_lt_of_le hpasses.2 (Nat.le_of_lt_succ hc)
    rw [hopen]
    refine (scanGroup_simulates hgive.lands hadv hin _ _ _ hshorter h₃).bind ?_
    -- the value that was looked for first has left its failure, and that of the group is added to it
    rintro _ s₄ (⟨hg, h₄⟩ | ⟨hg, ⟨hreach, hm⟩, h₄⟩) <;> rw [furthest_assoc] at h₄
    · exact .pure (.read (Reply.map_of_some hg _) h₄)
    · refine (hgive.gives hs.place (hpasses.reaches.trans hreach) hm.behind h₄).bind ?_
      rintro _ s₅ ⟨e, hl, h₅⟩
      exact .pure (.refused (Reply.map_of_none hg _) hl h₅)
  · rw [hopen]
    refine (expected_runs h₃ .value).bind ?_
    rintro _ s₄ ⟨-, h₄⟩
    rw [furthest_assoc] at h₄
    exact .pure (.refused rfl (hgive.here (marked_here _ _).behind) h₄)

theorem scanOperand_simulates (hgive : GivesUp text L giveUp) (hadv : Advances read) (hin : Simulates text L n inner read) :
    Simulates text L (n + 1) (scanOperand forms giveUp inner) (readOperand forms read) := by
  intro c f s hc hs
  unfold readOperand
  refine (offset_runs hs).bind ?_
  rintro _ s₁ ⟨rfl, h₁⟩
  refine (scanNegation_runs h₁).bind ?_
  rintro _ s₂ ⟨rfl, h₂⟩
  cases hneg : readNegation c with
  | none =>
    rw [hneg] at h₂
    exact scanPrimary_simulates hgive hadv hin c f s₂ hc h₂
  | some p =>
    rw [hneg] at h₂
    have hpasses := (readNegation_some hneg).2.2
    refine (scanNegated_runs h₂).bind ?_
    rintro _ s₃ (⟨hv, h₃⟩ | ⟨hv, ⟨hreach, hm⟩, h₃⟩)
    · exact .pure (.read (Reply.map_of_some hv _) h₃)
    · refine (hgive.gives hs.place (hpasses.reaches.trans hreach) hm h₃).bind ?_
      rintro _ s₄ ⟨e, hl, h₄⟩
      exact .pure (.refused (Reply.map_of_none hv _) hl h₄)

end Operand

/-! ## Between operands -/

theorem scanGap_runs (hs : Stands text c f s) : scanGap.Runs s (Moved text c.skipBlanks f (c.blanks, spaced c)) := by
  refine (prev_runs hs).bind ?_
  rintro _ s₁ ⟨rfl, h₁⟩
  refine (skipBlanks_runs h₁).bind ?_
  rintro _ s₂ ⟨rfl, h₂⟩
  exact .pure ⟨by rw [spaced, beq_eq_decide], h₂⟩

/-- a token with the blanks behind it is tried before others -/
theorem spacedToken_runs {eat : Scan Bool} {taken : Option Cursor} {others : Scan (Option String)} {token : String}
    {found : Option (String × Cursor)} (heat : eat.Runs s (Moved text (taken.getD c) f taken.isSome))
    (hothers : ∀ s, Stands text c f s → others.Runs s (Found text c f found)) :
    (do if ← eat then
          let _ ← skipBlanks
          return some token
        else others).Runs s (Found text c f ((taken.map fun d : Cursor => (token, d.skipBlanks)).or found)) := by
  refine eat_runs heat (fun d s' hd h' => ?_) fun s' hd h' => ?_
  · rw [hd]
    refine (skipBlanks_runs h').bind ?_
    rintro _ s'' ⟨-, h''⟩
    exact .pure ⟨rfl, h''⟩
  · rw [hd]
    exact hothers s' h'

theorem readJoiner_eq (keyword symbol : String) (c : Cursor) :
    readJoiner keyword symbol c =
      ((if spaced c then c.skipBlanks.eatKeyword keyword else none).map fun d : Cursor => (keyword, d.skipBlanks)).or
        (((c.skipBlanks.eatSymbol symbol).map fun d => (symbol, d.skipBlanks)).or none) := by
  rw [readJoiner, Cursor.eatKeyword, Cursor.eatSymbol]
  cases spaced c <;> simp only [Bool.true_and, Bool.false_and, Bool.false_eq_true, if_true, if_false] <;>
    split_ifs <;> rfl

/-- behind the blanks an operator is read: its keyword, if it is spaced, or else its symbol -/
theorem scanJoiner_runs (keyword symbol : String) (hs : Stands text c.skipBlanks f s) :
    (scanJoiner keyword symbol (spaced c)).Runs s (Found text c.skipBlanks f (readJoiner keyword symbol c)) := by
  rw [readJoiner_eq, scanJoiner]
  cases spaced c with
  | false => exact spacedToken_runs (eatSymbol_runs hs symbol) fun _ => nothing_runs
  | true =>
    exact spacedToken_runs (eatKeyword_runs hs keyword) fun _ h₁ =>
      spacedToken_runs (eatSymbol_runs h₁ symbol) fun _ => nothing_runs

theorem scanBlanksJoin_runs (hs : Stands text c.skipBlanks f s) :
    (scanBlanksJoin c.blanks).Runs s (Moved text c.skipBlanks f (blanksJoin c)) := by
  unfold scanBlanksJoin blanksJoin
  by_cases hb : c.blanks = 0
  · simp only [hb, if_true]
    exact .pure ⟨by simp, hs⟩
  simp only [hb, if_false, Nat.pos_of_ne_zero hb, decide_true, Bool.true_and]
  refine (atEnd_runs hs).bind ?_
  rintro _ s₁ ⟨rfl, h₁⟩
  cases c.skipBlanks.atEnd with
  | true => exact .pure ⟨rfl, h₁⟩
  | false =>
  refine (peek_runs h₁).bind ?_
  rintro _ s₂ ⟨rfl, h₂⟩
  by_cases hp : c.skipBlanks.peek = some ')'
  · simp only [hp, if_true]
    exact .pure ⟨rfl, h₂⟩
  simp only [hp, if_false]
  refine (atOperator_runs h₂).bind ?_
  rintro _ s₃ ⟨rfl, h₃⟩
  cases c.skipBlanks.atOperator with
  | true => exact .pure ⟨by simp, h₃⟩
  | false =>
  refine (peekTermName_runs h₃).bind ?_
  rintro _ s₄ ⟨rfl, h₄⟩
  exact .pure ⟨by simp [hp], h₄⟩

/-! ## Whole texts -/

/-- an item fails that starts at the first place and was read up to the second: it cannot be read, or neither a blank nor the
end stands behind it -/
inductive FailsFrom (item : Cursor → Reply α) : Cursor → Cursor → Prop
  | unread {c : Cursor} (value : (item c).value = none) : FailsFrom item c c
  | unspaced {c b : Cursor} {a : α} (value : (item c).value = some (a, b)) (blanks : b.blanks = 0) (more : b.rest ≠ []) :
      FailsFrom item c b

/-- where items stop being read: behind the items before it one of them fails -/
def breaks (item : Cursor → Reply α) (gap : Expectation) : Landing := fun c failure e =>
  ∃ items d b, Steps (itemStep item gap) c items d ∧ d.rest ≠ [] ∧ FailsFrom item d b ∧ b.Reaches e ∧ Marked e failure

/-- the error of a text is reported at a place of it that is not before the start of the failing item -/
def Located (item : Cursor → Reply α) (gap : Expectation) (text : String) (error : Error) : Prop :=
  ∃ n complaint, error = .parse n complaint ∧ IsPlace text n ∧
    ∃ items c b, Steps (itemStep item gap) (Cursor.start text).skipBlanks items c ∧ c.rest ≠ [] ∧
      FailsFrom item c b ∧ c.offset ≤ b.offset ∧ b.offset ≤ n

section Items

variable {item : Scan (Option α)} {readItem : Cursor → Reply α} {gap : Expectation} {n : ℕ}

theorem scanItem_simulates (hitem : Simulates text stops n item readItem) :
    Simulates text (breaks readItem gap) n (scanItem item gap) (itemStep readItem gap) := by
  intro c f s hc hs
  unfold itemStep
  refine (atEnd_runs hs).bind ?_
  rintro _ s₁ ⟨rfl, h₁⟩
  cases hend : c.atEnd with
  | true => exact .pure (.done h₁)
  | false =>
  have hrest : c.rest ≠ [] := by rwa [Cursor.atEnd, List.isEmpty_eq_false_iff] at hend
  simp only [Bool.false_eq_true, if_false]
  refine (hitem c f s₁ hc h₁).bind ?_
  rintro _ s₂ (@⟨a, b, _, hv, h₂⟩ | @⟨d, _, hv, ⟨hreach, hm⟩, h₂⟩)
  · rw [Reply.bind_of_some hv]
    refine (skipBlanks_runs h₂).bind ?_
    rintro _ s₃ ⟨rfl, h₃⟩
    refine (atEnd_runs h₃).bind ?_
    rintro _ s₄ ⟨rfl, h₄⟩
    have hskip : b.blanks = 0 → b.skipBlanks = b := fun hb => by rw [Cursor.skipBlanks, hb, Cursor.advance_zero]
    have hgap : (!b.skipBlanks.atEnd && decide (b.blanks = 0)) = (decide (b.blanks = 0) && !b.atEnd) := by
      by_cases hb : b.blanks = 0
      · rw [hskip hb, Bool.and_comm]
      · rw [decide_eq_false hb, Bool.and_false, Bool.false_and]
    rw [hgap]
    cases hmissing : decide (b.blanks = 0) && !b.atEnd with
    | false => exact .pure (.done_behind h₄)
    | true =>
      obtain ⟨hb, hmore⟩ : b.blanks = 0 ∧ b.rest ≠ [] := by simpa [Cursor.atEnd] using hmissing
      rw [hskip hb] at h₄
      refine (expected_runs h₄ gap).bind ?_
      rintro _ s₅ ⟨-, h₅⟩
      rw [furthest_assoc] at h₅
      exact .pure (.refused rfl
        ⟨[], c, b, .nil c, hrest, .unspaced hv hb hmore, .refl b, (marked_here b gap).behind⟩ h₅)
  · rw [Reply.bind_of_none hv]
    exact .pure (.refused rfl ⟨[], c, c, .nil c, hrest, .unread hv, hreach, hm⟩ h₂)

/-- where reading stops in front of a failure, the failure is reported -/
theorem complaint_runs (hs : Stands text d g s) (hm : Marked d g) {first : Cursor} (hfirst : first.offset ≤ d.offset) :
    complaint.Runs s (Moved text d g (complaintAt first g)) := by
  obtain ⟨x, rfl, hx⟩ := hm
  refine Runs.bind (Q := fun a s' => a = s ∧ s' = s) ⟨s, s, rfl, rfl, rfl⟩ ?_
  rintro _ _ ⟨rfl, rfl⟩
  rw [hs.failure, hs.offset, Option.filter_some, if_pos (decide_eq_true hx)]
  exact .pure ⟨by rw [complaintAt, if_pos (hfirst.trans hx)], hs⟩

theorem FailsFrom.reaches (hadv : Advances readItem) {b : Cursor} (hfails : FailsFrom readItem c b) : c.Reaches b := by
  cases hfails with
  | unread => exact .refl c
  | unspaced value => exact (hadv _ _ _ value).reaches

theorem breaks_reaches (hadv : Advances readItem) {g : Option Failure} (hbreaks : breaks readItem gap c g e) :
    c.Reaches e := by
  obtain ⟨_, _, _, hsteps, -, hfails, hreach, -⟩ := hbreaks
  exact (hsteps.reaches (itemStep_consumes hadv)).trans ((hfails.reaches hadv).trans hreach)

theorem breaks_marked {g : Option Failure} (hbreaks : breaks readItem gap c g e) : Marked e g := by
  obtain ⟨_, _, _, -, -, -, -, hm⟩ := hbreaks
  exact hm

/-- an item in front of where reading breaks off is one more of the items before it -/
theorem breaks_behind (hadv : Advances readItem) {a : α} {g : Option Failure}
    (hread : (itemStep readItem gap c).value = some (some a, d)) (hbreaks : breaks readItem gap d g e) :
    breaks readItem gap c (furthest (itemStep readItem gap c).failure g) e := by
  obtain ⟨items, x, b, hsteps, hmore, hfails, hreach, hm⟩ := hbreaks
  have hshorter := (itemStep_consumes hadv c a d hread).2
  exact ⟨a :: items, x, b, .cons hread hshorter hsteps, hmore, hfails, hreach, hm.behind⟩

/-- the furthest failure is what is reported, as it is not in front of the first item -/
theorem located_of_breaks (hadv : Advances readItem) {g : Option Failure} (hplace : ∀ x ∈ g, IsPlace text x.offset)
    (hbreaks : breaks readItem gap (Cursor.start text).skipBlanks g e) :
    Located readItem gap text (complaintAt (Cursor.start text).skipBlanks g) := by
  have hfirst := (breaks_reaches hadv hbreaks).offset_le
  obtain ⟨items, c, b, hsteps, hmore, hfails, hreach, x, rfl, hx⟩ := hbreaks
  rw [complaintAt, if_pos (hfirst.trans hx)]
  exact ⟨x.offset, _, rfl, hplace x rfl, items, c, b, hsteps, hmore, hfails, (hfails.reaches hadv).offset_le,
    hreach.offset_le.trans hx⟩

/-- items that were read one by one are the items of the text -/
theorem foldl_snoc (items : List α) : items.foldl (fun items a => items ++ [a]) [] = items := by
  simpa [List.flatMap_def] using List.flatMap_singleton' items

/-- a text is read as the reader says; what cannot be read is reported at a place that is not before the failing item -/
theorem scanAll_runs (hadv : Advances readItem) (hitem : ∀ n, Simulates text stops n item readItem) :
    (scanAll item gap).Runs (.start text) fun answer s => answer = readAll readItem gap text ∧
      (∀ n ∈ s.touched, IsPlace text n) ∧
      ∀ error, readAll readItem gap text = .error error → Located readItem gap text error := by
  refine (skipBlanks_runs (Scanner.stands_start text)).bind ?_
  rintro _ s₁ ⟨-, h₁⟩
  have hstep : Simulates text (breaks readItem gap) _ (scanItem item gap) (itemStep readItem gap) :=
    scanItem_simulates (hitem ((Cursor.start text).skipBlanks.rest.length + 1))
  have hall := joinAll_simulates (fun items a => items ++ [a]) (itemStep_consumes hadv) hstep (fun _ _ _ _ hl => hl)
    (fun _ _ _ _ _ => breaks_behind hadv) ([] : List α)
  refine (hall _ _ s₁ (Nat.lt_succ_self _) h₁).bind ?_
  rintro _ s₂ (@⟨items, d, _, hv, h₂⟩ | @⟨e, _, hv, hl, h₂⟩)
  · obtain ⟨links, hlinks, hitems⟩ := Reply.map_eq_some.1 hv
    have hread : readAll readItem gap text = .ok items := by
      rw [foldl_snoc] at hitems
      simp only [readAll, hlinks, hitems]
    refine .pure ⟨hread.symm, h₂.touched, fun error herror => ?_⟩
    rw [hread] at herror
    cases herror
  · have hread : readAll readItem gap text = .error (complaintAt (Cursor.start text).skipBlanks
        (chain (itemStep readItem gap) (Cursor.start text).skipBlanks).failure) := by
      simp only [readAll, Reply.map_eq_none.1 hv]
    refine (complaint_runs h₂ (breaks_marked hl).behind (breaks_reaches hadv hl).offset_le).bind ?_
    rintro _ s₃ ⟨rfl, h₃⟩
    refine .pure ⟨by rw [hread]; rfl, h₃.touched, fun error herror => ?_⟩
    rw [hread, Except.error.injEq] at herror
    rw [← herror]
    exact located_of_breaks hadv h₃.failed hl

end Items

end Scan

end FieldSearch
