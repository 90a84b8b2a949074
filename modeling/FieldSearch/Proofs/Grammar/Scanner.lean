/-
What programs over a scanner do, told by cursors.

- `Stands text c f s`: the scanner stands in the text where the cursor does, with the furthest failure `f`, and all that it was
  set to, and its failure, are places of the text.
- `Runs p s Q`: from `s` the program ends without a fault, and `Q` holds of its answer and of the scanner that it leaves.
  `loop_runs` and `recurse_runs` are the only lemmas that open the guards of loops and calls.
- `Moved`: the answer, and where the scanner stands then. Every program that looks or moves has one lemma with it.
-/
import FieldSearch.Grammar.Scanner
import FieldSearch.Proofs.Grammar.Operand

namespace FieldSearch

/-! ## Sizes and places -/

namespace Cursor

theorem byteLength_append (l r : List Char) : byteLength (l ++ r) = byteLength l + byteLength r := by
  induction l with
  | nil => rw [List.nil_append, byteLength, Nat.zero_add]
  | cons a l ih => rw [List.cons_append, byteLength, byteLength, ih, Nat.add_assoc]

/-- the size of a string is the size of its characters -/
theorem byteLength_ofList (l : List Char) : (String.ofList l).utf8ByteSize = byteLength l := by
  induction l with
  | nil => rfl
  | cons a l ih =>
    have hsplit : String.ofList (a :: l) = String.singleton a ++ String.ofList l := by
      rw [String.singleton_eq_ofList, ← String.ofList_append]
      rfl
    rw [hsplit, String.utf8ByteSize_append, String.utf8ByteSize_singleton, ih, byteLength]

theorem byteLength_toList (s : String) : byteLength s.toList = s.utf8ByteSize := by
  rw [← byteLength_ofList, String.ofList_toList]

theorem byteLength_pos {l : List Char} (h : l ≠ []) : 0 < byteLength l := by
  cases l with
  | nil => exact absurd rfl h
  | cons a l =>
    have := a.utf8Size_pos
    rw [byteLength]
    omega

theorem byteLength_eq_zero {l : List Char} : byteLength l = 0 ↔ l = [] := by
  constructor
  · intro h
    by_contra hne
    have := byteLength_pos hne
    omega
  · rintro rfl
    rfl

variable {text : List Char} {c : Cursor}

/-- what is left is the run that comes next and what stands behind it -/
theorem rest_span (c : Cursor) (p : Char → Bool) : c.rest = c.span p ++ c.rest.dropWhile p :=
  List.takeWhile_append_dropWhile.symm

theorem At.bump (h : c.At text) : c.bump.At text := by
  obtain ⟨before, htext, hoffset, hprev⟩ := h
  unfold Cursor.bump
  split
  · exact ⟨before, htext, hoffset, hprev⟩
  · rename_i a r hrest
    refine ⟨before ++ [a], ?_, ?_, ?_⟩
    · rw [htext, hrest, List.append_assoc]
      rfl
    · rw [byteLength_append, hoffset, byteLength, byteLength, Nat.add_zero]
    · rw [List.getLast?_concat]

theorem At.advance (h : c.At text) (n : ℕ) : (c.advance n).At text := by
  induction n generalizing c with
  | zero => exact h
  | succ n ih => exact ih h.bump

theorem offset_advance (c : Cursor) (n : ℕ) : (c.advance n).offset = c.offset + byteLength (c.rest.take n) := by
  induction n generalizing c with
  | zero => rw [advance_zero, List.take_zero, byteLength, Nat.add_zero]
  | succ n ih =>
    rw [Cursor.advance, ih, rest_bump]
    unfold Cursor.bump
    split
    · rename_i hrest
      rw [hrest]
      simp [byteLength]
    · rename_i a r hrest
      rw [hrest, List.take_succ_cons, List.tail_cons, byteLength, Nat.add_assoc]

theorem Reaches.offset_le {d : Cursor} (h : c.Reaches d) : c.offset ≤ d.offset := by
  obtain ⟨n, rfl⟩ := h
  rw [offset_advance]
  exact Nat.le_add_right _ _

/-- the size of a text is the offset of a place of it and the size of what is left there -/
theorem At.size (h : c.At text) : byteLength text = c.offset + byteLength c.rest := by
  obtain ⟨before, htext, hoffset, -⟩ := h
  rw [htext, byteLength_append, hoffset]

/-- of two places of a text the one with less left has less bytes left -/
theorem At.byteLength_lt {d : Cursor} (hc : c.At text) (hd : d.At text) (h : d.rest.length < c.rest.length) :
    byteLength d.rest < byteLength c.rest := by
  obtain ⟨before, hbefore, -⟩ := hc
  obtain ⟨before', hbefore', -⟩ := hd
  obtain ⟨between, hbetween⟩ : d.rest <:+ c.rest :=
    List.suffix_of_suffix_length_le ⟨before', hbefore'.symm⟩ ⟨before, hbefore.symm⟩ h.le
  rw [← hbetween, List.length_append] at h
  have hpos : 0 < byteLength between := byteLength_pos (List.length_pos_iff.1 (by omega))
  rw [← hbetween, byteLength_append]
  omega

end Cursor

namespace Scanner

variable {text : String} {c d : Cursor} {f g : Option Failure} {s s' : Scanner}

theorem isPlace_of_at (h : c.At text.toList) : IsPlace text c.offset := by
  obtain ⟨before, htext, hoffset, -⟩ := h
  refine ⟨String.ofList before, String.ofList c.rest, ?_, ?_⟩
  · rw [← String.ofList_append, ← htext, String.ofList_toList]
  · rw [Cursor.byteLength_ofList, hoffset]

/-- every place of a text is that of a cursor -/
theorem at_of_isPlace {n : ℕ} (h : IsPlace text n) : ∃ c : Cursor, c.At text.toList ∧ c.offset = n := by
  obtain ⟨before, behind, rfl, rfl⟩ := h
  refine ⟨⟨before.toList.getLast?, behind.toList, before.utf8ByteSize⟩, ⟨before.toList, ?_, ?_, rfl⟩, rfl⟩
  · rw [String.toList_append]
  · rw [Cursor.byteLength_toList]

/-- the scanner stands in the text where the cursor does, and all its offsets are places of the text -/
structure Stands (text : String) (c : Cursor) (f : Option Failure) (s : Scanner) : Prop where
  reads : s.text = text
  place : c.At text.toList
  offset : s.offset = c.offset
  failure : s.failure = f
  touched : ∀ n ∈ s.touched, IsPlace text n
  failed : ∀ x ∈ f, IsPlace text x.offset

theorem stands_start (text : String) : Stands text (.start text) none (.start text) where
  reads := rfl
  place := ⟨[], rfl, rfl, rfl⟩
  offset := rfl
  failure := rfl
  touched n hn := by
    obtain rfl := List.mem_singleton.1 hn
    exact ⟨"", text, (String.empty_append).symm, rfl⟩
  failed x hx := by cases hx

/-- what was not read yet is what is left at the cursor -/
theorem Stands.unread (h : Stands text c f s) : s.unread = Cursor.byteLength c.rest := by
  have hsize := h.place.size
  rw [Cursor.byteLength_toList] at hsize
  rw [Scanner.unread, h.reads, h.offset]
  omega

theorem Stands.unread_lt (h : Stands text c f s) (h' : Stands text d g s') (hlt : d.rest.length < c.rest.length) :
    s'.unread < s.unread := by
  rw [h.unread, h'.unread]
  exact h.place.byteLength_lt h'.place hlt

end Scanner

namespace Scan

open Scanner (Stands IsPlace)

variable {α β : Type} {text : String} {c d : Cursor} {f g : Option Failure} {s s' : Scanner}

/-! ## Running a program -/

/-- from `s` the program ends without a fault, and `Q` holds of its answer and of the scanner that it leaves -/
def Runs (p : Scan α) (s : Scanner) (Q : α → Scanner → Prop) : Prop :=
  ∃ a s', p.run s = .ok (a, s') ∧ Q a s'

variable {p : Scan α} {Q R : α → Scanner → Prop} {P : β → Scanner → Prop}

theorem Runs.pure {a : α} (h : Q a s) : (pure a : Scan α).Runs s Q := ⟨a, s, rfl, h⟩

theorem Runs.bind {next : α → Scan β} (h : p.Runs s Q) (hnext : ∀ a s', Q a s' → (next a).Runs s' P) :
    (p >>= next).Runs s P := by
  obtain ⟨a, s', hp, hQ⟩ := h
  obtain ⟨b, s'', hb, hP⟩ := hnext a s' hQ
  refine ⟨b, s'', ?_, hP⟩
  rw [StateT.run_bind, hp]
  exact hb

theorem Runs.mono (h : p.Runs s Q) (hQ : ∀ a s', Q a s' → R a s') : p.Runs s R := by
  obtain ⟨a, s', hp, ha⟩ := h
  exact ⟨a, s', hp, hQ a s' ha⟩

/-- a loop runs if its first round does, and the loop behind it where the round gives no result; less text is unread there -/
theorem loop_runs {round : α → Scan (α ⊕ β)} {a : α}
    (h : (round a).Runs s fun
      | .inl a', s' => s'.unread < s.unread ∧ (loop round a').Runs s' P
      | .inr b, s' => P b s') :
    (loop round a).Runs s P := by
  obtain ⟨x, s', hround, hx⟩ := h
  have hloop : (loop round a).run s = loopFrom round a s := rfl
  rw [loopFrom, hround] at hloop
  cases x with
  | inl a' =>
    obtain ⟨hlt, b, s'', hrest, hP⟩ := hx
    simp only [hlt, if_true] at hloop
    exact ⟨b, s'', hloop.trans hrest, hP⟩
  | inr b => exact ⟨b, s', hloop, hx⟩

/-- a program that stops with a fault where no less text is unread than at `s` -/
def below (s : Scanner) (p : Scan α) : Scan α := fun s' => if s'.unread < s.unread then p.run s' else .error .endless

theorem below_runs {s₀ : Scanner} (hlt : s.unread < s₀.unread) (h : p.Runs s Q) : (below s₀ p).Runs s Q := by
  obtain ⟨a, s', hp, hQ⟩ := h
  exact ⟨a, s', (if_pos hlt).trans hp, hQ⟩

/-- a program that calls itself runs if its body does, with calls where less text is unread -/
theorem recurse_runs {body : Scan α → Scan α} (h : (body (below s (recurse body))).Runs s Q) : (recurse body).Runs s Q := by
  obtain ⟨a, s', hbody, hQ⟩ := h
  refine ⟨a, s', ?_, hQ⟩
  have hrun : (recurse body).run s = recurseFrom body s := rfl
  rw [hrun, recurseFrom]
  exact hbody

/-! ## Offsets -/

/-- a program answers `b` and leaves the scanner where `d` stands -/
def Moved (text : String) (d : Cursor) (f : Option Failure) (b : β) : β → Scanner → Prop :=
  fun x s => x = b ∧ Stands text d f s

/-- a program answers what was found, and leaves the scanner behind it; it stays at `c` if nothing was -/
abbrev Found (text : String) (c : Cursor) (f : Option Failure) (found : Option (β × Cursor)) : Option β → Scanner → Prop :=
  Moved text ((found.map Prod.snd).getD c) f (found.map Prod.fst)

theorem offset_runs (h : Stands text c f s) : offset.Runs s (Moved text c f c.offset) :=
  ⟨s.offset, s, rfl, h.offset, h⟩

theorem moveTo_runs (h : Stands text c f s) (hd : d.At text.toList) :
    (moveTo d.offset).Runs s (Moved text d f ()) := by
  refine ⟨(), _, rfl, rfl, h.reads, hd, rfl, h.failure, fun n hn => ?_, h.failed⟩
  rcases List.mem_cons.1 hn with rfl | hn
  · exact Scanner.isPlace_of_at hd
  · exact h.touched n hn

theorem offset_behind {l r : List Char} (hc : c.rest = l ++ r) :
    (c.advance l.length).offset = c.offset + Cursor.byteLength l := by
  rw [Cursor.offset_advance, hc, List.take_left]

/-- going on by the size of what comes next leads behind it -/
theorem skip_runs (h : Stands text c f s) {l r : List Char} (hc : c.rest = l ++ r) :
    (skip (Cursor.byteLength l)).Runs s (Moved text (c.advance l.length) f ()) := by
  refine (offset_runs h).bind ?_
  rintro _ s₁ ⟨rfl, h₁⟩
  rw [← offset_behind hc]
  exact moveTo_runs h₁ (h.place.advance _)

theorem skip_char (h : Stands text c f s) {a : Char} {r : List Char} (hc : c.rest = a :: r) :
    (skip a.utf8Size).Runs s (Moved text c.bump f ()) := by
  have hone : a.utf8Size = Cursor.byteLength [a] := by rw [Cursor.byteLength, Cursor.byteLength, Nat.add_zero]
  rw [hone]
  exact skip_runs h (l := [a]) hc

theorem splitBytes_append (l r : List Char) : splitBytes (l ++ r) (Cursor.byteLength l) = some (l, r) := by
  induction l with
  | nil =>
    rw [List.nil_append, Cursor.byteLength]
    cases r <;> rfl
  | cons a l ih =>
    have hpos := a.utf8Size_pos
    obtain ⟨n, hn⟩ : ∃ n, Cursor.byteLength (a :: l) = n + 1 := Nat.exists_eq_add_one.2 (Cursor.byteLength_pos (by simp))
    have hsize : n + 1 = a.utf8Size + Cursor.byteLength l := by rw [← hn, Cursor.byteLength]
    have hleft : n + 1 - a.utf8Size = Cursor.byteLength l := by omega
    rw [hn, List.cons_append, splitBytes, if_pos (by omega), hleft, ih]
    rfl

/-- a cut between characters gives both parts -/
theorem cut_runs (h : Stands text c f s) {base : ℕ} {l r : List Char} (hplace : IsPlace text (base + Cursor.byteLength l)) :
    (cut base (l ++ r) (Cursor.byteLength l)).Runs s (Moved text c f (l, r)) := by
  rw [cut, splitBytes_append]
  refine ⟨(l, r), _, rfl, rfl, h.reads, h.place, h.offset, h.failure, fun n hn => ?_, h.failed⟩
  rcases List.mem_cons.1 hn with rfl | hn
  · exact hplace
  · exact h.touched n hn

theorem parts_runs (h : Stands text c f s) :
    parts.Runs s fun x s' => (x.1.getLast? = c.prev ∧ x.2 = c.rest) ∧ Stands text c f s' := by
  obtain ⟨before, htext, hoffset, hprev⟩ := h.place
  have hplace : IsPlace text (0 + Cursor.byteLength before) := by
    rw [Nat.zero_add, ← hoffset]
    exact Scanner.isPlace_of_at h.place
  have hcut := cut_runs (r := c.rest) h hplace
  refine Runs.bind (Q := fun x s' => x = s ∧ s' = s) ⟨s, s, rfl, rfl, rfl⟩ ?_
  rintro _ _ ⟨rfl, rfl⟩
  rw [h.reads, h.offset, htext, hoffset]
  refine hcut.mono ?_
  rintro _ s' ⟨rfl, h'⟩
  exact ⟨⟨hprev.symm, rfl⟩, h'⟩

theorem rest_runs (h : Stands text c f s) : rest.Runs s (Moved text c f c.rest) := by
  refine (parts_runs h).bind ?_
  rintro x s' ⟨⟨-, hx⟩, h'⟩
  exact .pure ⟨hx, h'⟩

theorem ahead_runs (h : Stands text c f s) {l r : List Char} (hc : c.rest = l ++ r) :
    (ahead (Cursor.byteLength l)).Runs s (Moved text c f (l, r)) := by
  refine (rest_runs h).bind ?_
  rintro _ s₁ ⟨rfl, h₁⟩
  refine (offset_runs h₁).bind ?_
  rintro _ s₂ ⟨rfl, h₂⟩
  rw [hc]
  refine cut_runs h₂ ?_
  rw [← offset_behind hc]
  exact Scanner.isPlace_of_at (h.place.advance _)

/-! ## Looking -/

theorem atEnd_runs (h : Stands text c f s) : atEnd.Runs s (Moved text c f c.atEnd) := by
  refine ⟨_, s, rfl, ?_, h⟩
  have hsize := h.place.size
  rw [Cursor.byteLength_toList] at hsize
  have hend : s.text.utf8ByteSize ≤ s.offset ↔ c.rest = [] := by
    rw [h.reads, h.offset, hsize, ← Cursor.byteLength_eq_zero]
    omega
  rw [Cursor.atEnd, Bool.eq_iff_iff, decide_eq_true_iff, List.isEmpty_iff, hend]

theorem peek_runs (h : Stands text c f s) : peek.Runs s (Moved text c f c.peek) := by
  refine (rest_runs h).bind ?_
  rintro _ s' ⟨rfl, h'⟩
  exact .pure ⟨rfl, h'⟩

theorem prev_runs (h : Stands text c f s) : prev.Runs s (Moved text c f c.prev) := by
  refine (parts_runs h).bind ?_
  rintro x s' ⟨⟨hx, -⟩, h'⟩
  exact .pure ⟨hx, h'⟩

theorem startsWith_runs (h : Stands text c f s) (symbol : String) :
    (startsWith symbol).Runs s (Moved text c f (c.startsWith symbol)) := by
  refine (rest_runs h).bind ?_
  rintro _ s' ⟨rfl, h'⟩
  exact .pure ⟨rfl, h'⟩

theorem atKeyword_runs (h : Stands text c f s) (keyword : String) :
    (atKeyword keyword).Runs s (Moved text c f (c.atKeyword keyword)) := by
  unfold atKeyword Cursor.atKeyword
  refine (startsWith_runs h keyword).bind ?_
  rintro _ s₁ ⟨rfl, h₁⟩
  cases hstarts : c.startsWith keyword with
  | false => exact .pure ⟨rfl, h₁⟩
  | true =>
    obtain ⟨r, hr⟩ := (Cursor.startsWith_iff c keyword).1 hstarts
    rw [← Cursor.byteLength_toList]
    refine (ahead_runs h₁ hr.symm).bind ?_
    rintro _ s₂ ⟨rfl, h₂⟩
    refine .pure ⟨?_, h₂⟩
    rw [Cursor.rest_behind hr.symm]
    rfl

/-- a test of many things by looking -/
theorem anyM_runs {look : β → Scan Bool} {test : β → Bool}
    (hlook : ∀ b s, Stands text c f s → (look b).Runs s (Moved text c f (test b))) (items : List β)
    (h : Stands text c f s) : (items.anyM look).Runs s (Moved text c f (items.any test)) := by
  induction items generalizing s with
  | nil => exact .pure ⟨rfl, h⟩
  | cons b items ih =>
    refine (hlook b s h).bind ?_
    rintro _ s' ⟨rfl, h'⟩
    rw [List.any_cons]
    cases test b with
    | true => exact .pure ⟨rfl, h'⟩
    | false => exact ih h'

theorem atNegation_runs (h : Stands text c f s) : atNegation.Runs s (Moved text c f c.atNegation) := by
  unfold atNegation Cursor.atNegation
  refine (atKeyword_runs h "NOT").bind ?_
  rintro _ s₁ ⟨rfl, h₁⟩
  cases c.atKeyword "NOT" with
  | true => exact .pure ⟨rfl, h₁⟩
  | false =>
    refine (startsWith_runs h₁ "!").bind ?_
    rintro _ s₂ ⟨rfl, h₂⟩
    cases c.startsWith "!" with
    | true => exact .pure ⟨rfl, h₂⟩
    | false => exact startsWith_runs h₂ "-"

theorem atOperator_runs (h : Stands text c f s) : atOperator.Runs s (Moved text c f c.atOperator) := by
  unfold atOperator Cursor.atOperator
  refine (anyM_runs (fun k _ hs => atKeyword_runs hs k) keywords h).bind ?_
  rintro _ s' ⟨rfl, h'⟩
  cases keywords.any c.atKeyword with
  | true => exact .pure ⟨rfl, h'⟩
  | false => exact anyM_runs (fun symbol _ hs => startsWith_runs hs symbol) _ h'

theorem peekIdentifier_runs (h : Stands text c f s) : peekIdentifier.Runs s (Moved text c f c.peekIdentifier) := by
  unfold peekIdentifier Cursor.peekIdentifier
  refine (rest_runs h).bind ?_
  rintro _ s₁ ⟨rfl, h₁⟩
  cases hr : c.rest with
  | nil => exact .pure ⟨rfl, h₁⟩
  | cons a r =>
    by_cases ha : isIdentifierStart a = true
    · simp only [ha, if_true]
      have hsplit : c.rest = a :: r.takeWhile isIdentifierChar ++ r.dropWhile isIdentifierChar := by
        rw [hr, List.cons_append, List.takeWhile_append_dropWhile]
      refine (ahead_runs h₁ hsplit).bind ?_
      rintro _ s₂ ⟨rfl, h₂⟩
      exact .pure ⟨rfl, h₂⟩
    · simp only [ha, Bool.false_eq_true, if_false]
      exact .pure ⟨rfl, h₁⟩

/-- the identifier that comes next stands at the start of what is left -/
theorem peekIdentifier_append {name : List Char} (h : c.peekIdentifier = some name) : ∃ r, c.rest = name ++ r := by
  unfold Cursor.peekIdentifier at h
  cases hr : c.rest with
  | nil => simp [hr] at h
  | cons a r =>
    simp only [hr] at h
    split_ifs at h
    obtain rfl := Option.some.inj h
    exact ⟨r.dropWhile isIdentifierChar, by rw [List.cons_append, List.takeWhile_append_dropWhile]⟩

theorem peekTermName_runs (h : Stands text c f s) : peekTermName.Runs s (Moved text c f c.peekTermName) := by
  unfold peekTermName Cursor.peekTermName
  refine (peekIdentifier_runs h).bind ?_
  rintro _ s₁ ⟨rfl, h₁⟩
  cases hname : c.peekIdentifier with
  | none => exact .pure ⟨rfl, h₁⟩
  | some name =>
    obtain ⟨r, hr⟩ := peekIdentifier_append hname
    refine (ahead_runs h₁ hr).bind ?_
    rintro _ s₂ ⟨rfl, h₂⟩
    refine .pure ⟨?_, h₂⟩
    rw [Option.bind_some, Cursor.peek, Cursor.rest_advance_of_append hr]

/-! ## Reading -/

theorem eatChar_runs (h : Stands text c f s) (a : Char) :
    (eatChar a).Runs s (Moved text ((c.eatChar a).getD c) f (c.eatChar a).isSome) := by
  unfold eatChar Cursor.eatChar
  refine (peek_runs h).bind ?_
  rintro _ s₁ ⟨rfl, h₁⟩
  by_cases ha : c.peek = some a
  · simp only [ha, if_true]
    obtain ⟨r, hr⟩ := Cursor.peek_eq_some_iff.1 ha
    refine (skip_char h₁ hr).bind ?_
    rintro _ s₂ ⟨-, h₂⟩
    exact .pure ⟨rfl, h₂⟩
  · simp only [ha, if_false]
    exact .pure ⟨rfl, h₁⟩

/-- going behind a text that comes next -/
theorem skip_text (h : Stands text c f s) {symbol : String} (hs : c.startsWith symbol = true) :
    (skip symbol.utf8ByteSize).Runs s (Moved text (c.advance symbol.length) f ()) := by
  obtain ⟨r, hr⟩ := (Cursor.startsWith_iff c symbol).1 hs
  rw [← Cursor.byteLength_toList, ← String.length_toList]
  exact skip_runs h hr.symm

theorem eatSymbol_runs (h : Stands text c f s) (symbol : String) :
    (eatSymbol symbol).Runs s (Moved text ((c.eatSymbol symbol).getD c) f (c.eatSymbol symbol).isSome) := by
  unfold eatSymbol Cursor.eatSymbol
  refine (startsWith_runs h symbol).bind ?_
  rintro _ s₁ ⟨rfl, h₁⟩
  cases hs : c.startsWith symbol with
  | false => exact .pure ⟨rfl, h₁⟩
  | true =>
    refine (skip_text h₁ hs).bind ?_
    rintro _ s₂ ⟨-, h₂⟩
    exact .pure ⟨rfl, h₂⟩

theorem eatKeyword_runs (h : Stands text c f s) (keyword : String) :
    (eatKeyword keyword).Runs s (Moved text ((c.eatKeyword keyword).getD c) f (c.eatKeyword keyword).isSome) := by
  unfold eatKeyword Cursor.eatKeyword
  refine (atKeyword_runs h keyword).bind ?_
  rintro _ s₁ ⟨rfl, h₁⟩
  cases hk : c.atKeyword keyword with
  | false => exact .pure ⟨rfl, h₁⟩
  | true =>
    have hs : c.startsWith keyword = true := (Bool.and_eq_true_iff.1 hk).1
    refine (skip_text h₁ hs).bind ?_
    rintro _ s₂ ⟨-, h₂⟩
    exact .pure ⟨rfl, h₂⟩

theorem nothing_runs (h : Stands text c f s) : (pure none : Scan (Option β)).Runs s (Found text c f none) := .pure ⟨rfl, h⟩

/-- a program goes on in one way where something is taken and in another way where it is not -/
theorem eat_runs {eat : Scan Bool} {taken : Option Cursor} {after before : Scan β}
    (heat : eat.Runs s (Moved text (taken.getD c) f taken.isSome))
    (hafter : ∀ d s, taken = some d → Stands text d f s → after.Runs s P)
    (hbefore : ∀ s, taken = none → Stands text c f s → before.Runs s P) :
    (do if ← eat then after else before).Runs s P := by
  refine heat.bind ?_
  rintro _ s' ⟨rfl, h'⟩
  cases taken with
  | none => exact hbefore s' rfl h'
  | some d => exact hafter d s' rfl h'

/-- the blanks that come next are counted one by one -/
theorem skipBlank_loop (h : Stands text c f s) (count : ℕ) :
    (loop skipBlank count).Runs s (Moved text c.skipBlanks f (count + c.blanks)) := by
  induction hn : c.rest.length generalizing c s count with
  | zero =>
    have hc : c.rest = [] := List.length_eq_zero_iff.1 hn
    have hsol : Solid c.rest := hc ▸ solid_nil
    refine loop_runs ((peek_runs h).bind ?_)
    rintro _ s₁ ⟨rfl, h₁⟩
    rw [Cursor.peek, hc]
    refine .pure ⟨?_, ?_⟩
    · rw [Cursor.blanks_of_solid hsol, Nat.add_zero]
    · rwa [Cursor.skipBlanks_of_solid hsol]
  | succ n ih =>
    obtain ⟨a, r, hr⟩ := List.exists_cons_of_length_eq_add_one hn
    refine loop_runs ((peek_runs h).bind ?_)
    rintro _ s₁ ⟨rfl, h₁⟩
    rw [Cursor.peek, hr, List.head?_cons]
    by_cases ha : isBlank a = true
    · simp only [ha, if_true]
      refine (skip_char h₁ hr).bind ?_
      rintro _ s₂ ⟨-, h₂⟩
      have hbehind : c.bump.rest = r := by rw [Cursor.rest_bump, hr, List.tail_cons]
      have hblanks : c.blanks = c.bump.blanks + 1 := by
        rw [Cursor.blanks, Cursor.blanks, Cursor.span, Cursor.span, hbehind, hr, List.takeWhile_cons_of_pos ha, List.length_cons]
      have hskip : c.skipBlanks = c.bump.skipBlanks := by
        rw [Cursor.skipBlanks, hblanks, Nat.add_comm, ← Cursor.advance_advance, ← Cursor.bump_eq_advance, Cursor.skipBlanks]
      rw [hr, List.length_cons, Nat.add_right_cancel_iff] at hn
      refine .pure ⟨h.unread_lt h₂ (by rw [hbehind, hr, List.length_cons]; omega), ?_⟩
      rw [hskip, hblanks, Nat.add_comm c.bump.blanks, ← Nat.add_assoc]
      exact ih h₂ (count + 1) (by rw [hbehind, hn])
    · simp only [ha, Bool.false_eq_true, if_false]
      have hsol : Solid c.rest := by rw [hr, solid_cons]; simpa using ha
      refine .pure ⟨?_, ?_⟩
      · rw [Cursor.blanks_of_solid hsol, Nat.add_zero]
      · rwa [Cursor.skipBlanks_of_solid hsol]

theorem skipBlanks_runs (h : Stands text c f s) : skipBlanks.Runs s (Moved text c.skipBlanks f c.blanks) := by
  have := skipBlank_loop h 0
  rwa [Nat.zero_add] at this

theorem termName_runs (h : Stands text c f s) :
    termName.Runs s (Found text c f c.termName) := by
  unfold termName Cursor.termName
  refine (peekTermName_runs h).bind ?_
  rintro _ s₁ ⟨rfl, h₁⟩
  cases hname : c.peekTermName with
  | none => exact .pure ⟨rfl, h₁⟩
  | some name =>
    obtain ⟨-, r, hr⟩ := Cursor.peekTermName_iff.1 hname
    have hsplit : c.rest = (name.toList ++ [':']) ++ r := by rw [hr, List.append_assoc]; rfl
    have hsize : name.utf8ByteSize + 1 = Cursor.byteLength (name.toList ++ [':']) := by
      rw [Cursor.byteLength_append, Cursor.byteLength_toList]
      rfl
    have hlength : name.length + 1 = (name.toList ++ [':']).length := by
      rw [List.length_append, String.length_toList, List.length_singleton]
    simp only [hsize]
    refine (skip_runs h₁ hsplit).bind ?_
    rintro _ s₂ ⟨-, h₂⟩
    refine .pure ⟨rfl, ?_⟩
    rw [Option.map_some, Option.map_some, Option.getD_some, hlength]
    exact h₂

/-- the furthest of two failures is one of them -/
theorem mem_furthest {x : Failure} (h : x ∈ furthest f g) : x ∈ f ∨ x ∈ g := by
  unfold furthest at h
  split at h
  · exact Or.inr h
  · exact Or.inl h
  · split_ifs at h
    · exact Or.inl h
    · exact Or.inr h

theorem expected_runs (h : Stands text c f s) (x : Expectation) :
    (expected x).Runs s (Moved text c (furthest f (some ⟨c.offset, x⟩)) ()) := by
  refine ⟨(), _, rfl, rfl, h.reads, h.place, h.offset, ?_, h.touched, fun y hy => ?_⟩
  · show furthest s.failure (some ⟨s.offset, x⟩) = _
    rw [h.failure, h.offset]
  · rcases mem_furthest hy with hy | hy
    · exact h.failed y hy
    · obtain rfl := Option.some.inj hy
      exact Scanner.isPlace_of_at h.place

end Scan

end FieldSearch
