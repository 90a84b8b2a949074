/-
Two readings of one text, the second with blanks behind it.

- `Padded c d`: what is left at `c` is left at `d` too, with nothing but blanks behind it. A `)` stands in front of both or of
  neither, as long as something is left.
- `Padded.advance`, `Padded.skipBlanks`: reading on together keeps places padded. What comes next is the same at both
  (`Padded.startsWith`, `Padded.atKeyword`, `Padded.peekTermName`), for no reader asks for a blank.
- `Padded.skipBlanks_cases`: over blanks the text ends at both places, or both have the same blanks. At the end of the text
  no reader asks whether there were any (`Padded.blanks_and`, `Padded.spaced_and`).
-/
import Mathlib.Data.List.TakeWhile
import FieldSearch.Proofs.Grammar.Operand

namespace FieldSearch

/-! ## Texts with blanks behind them -/

theorem identifierChar_of_blank {a : Char} (ha : isBlank a = true) : isIdentifierChar a = false := by
  by_contra h
  have hword := solid_of_word (isWordChar_of_identifierChar (Bool.eq_true_of_not_eq_false h))
  rw [ha] at hword
  cases hword

theorem identifierStart_of_blank {a : Char} (ha : isBlank a = true) : isIdentifierStart a = false := by
  by_contra h
  have hchar := isIdentifierChar_of_start (Bool.eq_true_of_not_eq_false h)
  rw [identifierChar_of_blank ha] at hchar
  cases hchar

section Lists

variable {pad : List Char}

theorem prefix_pad (hpad : ∀ a ∈ pad, isBlank a = true) {s : List Char} (hs : ∀ a ∈ s, isBlank a = false) (l : List Char) :
    s <+: l ++ pad ↔ s <+: l := by
  refine ⟨fun h => ?_, fun h => h.trans (List.prefix_append l pad)⟩
  induction s generalizing l with
  | nil => exact List.nil_prefix
  | cons a s ih =>
    cases l with
    | nil =>
      have hblank := hpad a (h.subset List.mem_cons_self)
      rw [hs a List.mem_cons_self] at hblank
      cases hblank
    | cons b l =>
      rw [List.cons_append, List.cons_prefix_cons] at h
      rw [List.cons_prefix_cons]
      exact ⟨h.1, ih (fun x hx => hs x (List.mem_cons_of_mem a hx)) l h.2⟩

theorem takeWhile_pad (hpad : ∀ a ∈ pad, isBlank a = true) {p : Char → Bool} (hp : ∀ a, isBlank a = true → p a = false)
    (l : List Char) : (l ++ pad).takeWhile p = l.takeWhile p := by
  induction l with
  | nil =>
    cases pad with
    | nil => rfl
    | cons a pad => rw [List.nil_append, List.takeWhile_cons_of_neg (by simp [hp a (hpad a List.mem_cons_self)])]; rfl
  | cons b l ih =>
    rw [List.cons_append, List.takeWhile_cons, List.takeWhile_cons, ih]

theorem dropWhile_blanks (hpad : ∀ a ∈ pad, isBlank a = true) : pad.dropWhile isBlank = [] :=
  List.dropWhile_eq_nil_iff.2 hpad

theorem scanQuoted_blanks (hpad : ∀ a ∈ pad, isBlank a = true) : Cursor.scanQuoted pad = none := by
  induction pad with
  | nil => rfl
  | cons a r ih =>
    have ha := hpad a List.mem_cons_self
    have hq : a ≠ '"' := by rintro rfl; exact absurd ha (by decide)
    have hb : a ≠ '\\' := by rintro rfl; exact absurd ha (by decide)
    rw [Cursor.scanQuoted, if_neg hq, ih fun x hx => hpad x (List.mem_cons_of_mem a hx)]
    · rfl
    · rintro rfl; exact absurd rfl hb
    · rintro b t rfl; exact absurd rfl hb

/-- a quoted value that is not closed is not closed by blanks either -/
theorem scanQuoted_pad (hpad : ∀ a ∈ pad, isBlank a = true) (l : List Char) :
    Cursor.scanQuoted (l ++ pad) = Cursor.scanQuoted l := by
  fun_induction Cursor.scanQuoted l with
  | case1 => exact scanQuoted_blanks hpad
  | case2 =>
    -- the `\` takes up one blank, and no quote comes behind it
    cases pad with
    | nil => rfl
    | cons a pad =>
      have hrest := scanQuoted_blanks fun x hx => hpad x (List.mem_cons_of_mem a hx)
      rw [List.singleton_append, Cursor.scanQuoted, hrest]
      rfl
  | case3 a r ih => rw [List.cons_append, List.cons_append, Cursor.scanQuoted, ih]
  | case4 r => simp [Cursor.scanQuoted]
  | case5 a r hslash hescape hq ih =>
    rw [List.cons_append, Cursor.scanQuoted, if_neg hq, ih]
    · rintro rfl h
      cases r with
      | nil => exact hslash rfl rfl
      | cons b r => exact hescape b r rfl rfl
    · rintro b t rfl h
      cases r with
      | nil => exact hslash rfl rfl
      | cons b r => exact hescape b r rfl rfl

theorem scanQuoted_length {l v : List Char} {n : ℕ} (h : Cursor.scanQuoted l = some (v, n)) : n ≤ l.length := by
  fun_induction Cursor.scanQuoted l generalizing v n with
  | case1 => cases h
  | case2 => cases h
  | case3 a r ih =>
    obtain ⟨⟨w, m⟩, hw, he⟩ := Option.map_eq_some_iff.1 h
    obtain ⟨-, rfl⟩ := Prod.mk.inj he
    have := ih hw
    simp only [List.length_cons]
    omega
  | case4 r =>
    obtain ⟨-, rfl⟩ := Prod.mk.inj (Option.some.inj h)
    simp
  | case5 a r _ _ _ ih =>
    obtain ⟨⟨w, m⟩, hw, he⟩ := Option.map_eq_some_iff.1 h
    obtain ⟨-, rfl⟩ := Prod.mk.inj he
    have := ih hw
    simp only [List.length_cons]
    omega

end Lists

namespace Cursor

variable {c d : Cursor}

/-! ## Places with blanks behind what is left -/

/-- what is left at `c` is left at `d` with blanks behind it, and a `)` stands in front of both or of neither -/
structure Padded (c d : Cursor) : Prop where
  behind : ∃ pad, (∀ a ∈ pad, isBlank a = true) ∧ d.rest = c.rest ++ pad
  before : c.rest ≠ [] → (d.prev == some ')') = (c.prev == some ')')

/-- in front of a place stands the last character that was read, if there was any -/
theorem prev_advance {l r : List Char} (h : c.rest = l ++ r) :
    (c.advance l.length).prev = c.prev ∨ ∃ a ∈ l, (c.advance l.length).prev = some a := by
  induction l generalizing c with
  | nil => exact Or.inl rfl
  | cons a l ih =>
    rw [List.cons_append] at h
    have hbump : c.bump.rest = l ++ r := by rw [rest_bump, h]; rfl
    have hprev : c.bump.prev = some a := by simp [bump, h]
    rcases ih hbump with hl | ⟨b, hb, hl⟩
    · exact Or.inr ⟨a, List.mem_cons_self, hl.trans hprev⟩
    · exact Or.inr ⟨b, List.mem_cons_of_mem a hb, hl⟩

/-- the first blanks may be skipped apart -/
theorem skipBlanks_advance {l r : List Char} (h : c.rest = l ++ r) (hl : ∀ a ∈ l, isBlank a = true) :
    (c.advance l.length).skipBlanks = c.skipBlanks := by
  have hblanks : c.blanks = l.length + (c.advance l.length).blanks := by
    rw [blanks, blanks, span, span, rest_advance_of_append h, h, List.takeWhile_append_of_pos hl, List.length_append]
  rw [skipBlanks, advance_advance, ← hblanks, skipBlanks]

/-- a place before a text, and the place before the same text with blanks around it once the first of them are skipped -/
theorem start_padded {before after : String} (hb : isAllBlank before = true) (ha : isAllBlank after = true) (text : String) :
    Padded (start text) ((start (before ++ text ++ after)).advance before.toList.length) := by
  have hrest : (start (before ++ text ++ after)).rest = before.toList ++ (text.toList ++ after.toList) := by
    rw [start, String.toList_append, String.toList_append, List.append_assoc]
  refine ⟨⟨after.toList, List.all_eq_true.1 ha, rest_advance_of_append hrest⟩, fun _ => ?_⟩
  rcases prev_advance hrest with hprev | ⟨a, hmem, hprev⟩
  · rw [hprev]; rfl
  · have hne : a ≠ ')' := by
      rintro rfl
      exact absurd (List.all_eq_true.1 hb _ hmem) (by decide)
    rw [hprev]
    simpa [start] using hne

namespace Padded

theorem bump (h : Padded c d) (hc : c.rest ≠ []) : Padded c.bump d.bump := by
  obtain ⟨pad, hpad, hd⟩ := h.behind
  obtain ⟨a, r, hr⟩ := List.exists_cons_of_ne_nil hc
  rw [hr, List.cons_append] at hd
  refine ⟨⟨pad, hpad, by simp [hr, hd]⟩, fun _ => ?_⟩
  simp [Cursor.bump, hr, hd]

theorem advance (h : Padded c d) {n : ℕ} (hn : n ≤ c.rest.length) : Padded (c.advance n) (d.advance n) := by
  induction n generalizing c d with
  | zero => exact h
  | succ n ih =>
    have hc : c.rest ≠ [] := by
      intro h0
      rw [h0] at hn
      exact absurd hn (Nat.not_succ_le_zero n)
    refine ih (h.bump hc) ?_
    rw [rest_bump, List.length_tail]
    omega

/-- behind the blanks either the text is over at both places, or both skipped the same blanks -/
theorem skipBlanks_cases (h : Padded c d) :
    (c.skipBlanks.rest = [] ∧ d.skipBlanks.rest = []) ∨ (c.skipBlanks.rest ≠ [] ∧ d.blanks = c.blanks) := by
  obtain ⟨pad, hpad, hd⟩ := h.behind
  by_cases hc : ∀ a ∈ c.rest, isBlank a = true
  · left
    rw [rest_skipBlanks, rest_skipBlanks, hd, List.dropWhile_append_of_pos hc]
    exact ⟨dropWhile_blanks hc, dropWhile_blanks hpad⟩
  · right
    constructor
    · rw [rest_skipBlanks]
      exact fun h0 => hc (List.dropWhile_eq_nil_iff.1 h0)
    · rw [blanks, blanks, span, span, hd, List.takeWhile_append, if_neg]
      intro hlen
      refine hc fun a ha => ?_
      rw [← (List.takeWhile_prefix isBlank).eq_of_length hlen] at ha
      exact List.mem_takeWhile_imp ha

theorem skipBlanks (h : Padded c d) : Padded c.skipBlanks d.skipBlanks := by
  rcases h.skipBlanks_cases with ⟨hc, hd⟩ | ⟨-, hb⟩
  · exact ⟨⟨[], by simp, by rw [hc, hd]; rfl⟩, fun h0 => absurd hc h0⟩
  · rw [Cursor.skipBlanks, Cursor.skipBlanks, hb]
    exact h.advance ((List.takeWhile_prefix isBlank).length_le)

/-- over the blanks the text ends at both places or at neither -/
theorem skipBlanks_end (h : Padded c d) : d.skipBlanks.rest = [] ↔ c.skipBlanks.rest = [] := by
  rcases h.skipBlanks_cases with ⟨hc, hd⟩ | ⟨hc, -⟩
  · exact iff_of_true hd hc
  · obtain ⟨pad, -, hd⟩ := h.skipBlanks.behind
    rw [hd]
    exact iff_of_false (List.append_ne_nil_of_left_ne_nil hc pad) hc

/-- in front of both places a gap is missing, or in front of neither -/
theorem gap (h : Padded c d) : (d.blanks = 0 ∧ d.rest ≠ []) ↔ (c.blanks = 0 ∧ c.rest ≠ []) := by
  have hover : ∀ e : Cursor, e.skipBlanks.rest = [] → ¬ (e.blanks = 0 ∧ e.rest ≠ []) := by
    rintro e he ⟨h0, hne⟩
    rw [Cursor.skipBlanks, h0, advance_zero] at he
    exact hne he
  rcases h.skipBlanks_cases with ⟨hc, hd⟩ | ⟨hc, hb⟩
  · exact iff_of_false (hover d hd) (hover c hc)
  · have hne : c.rest ≠ [] := by
      intro h0
      rw [rest_skipBlanks, h0] at hc
      exact hc rfl
    obtain ⟨pad, -, hd⟩ := h.behind
    rw [hb, hd]
    exact and_congr_right fun _ => iff_of_true (List.append_ne_nil_of_left_ne_nil hne pad) hne

/-! ## What comes next at both places -/

theorem peek (h : Padded c d) {a : Char} (ha : isBlank a = false) : d.peek = some a ↔ c.peek = some a := by
  obtain ⟨pad, hpad, hd⟩ := h.behind
  rw [Cursor.peek, Cursor.peek, hd]
  cases c.rest with
  | cons b r => rfl
  | nil =>
    cases pad with
    | nil => rfl
    | cons b pad =>
      have hb := hpad b List.mem_cons_self
      have hne : b ≠ a := by rintro rfl; rw [hb] at ha; cases ha
      simp [hne]

theorem startsWith (h : Padded c d) {s : String} (hs : (s.toList.all fun a => !isBlank a) = true) :
    d.startsWith s = c.startsWith s := by
  have hsolid : ∀ a ∈ s.toList, isBlank a = false := by simpa using hs
  obtain ⟨pad, hpad, hd⟩ := h.behind
  rw [Bool.eq_iff_iff, startsWith_iff, startsWith_iff, hd, prefix_pad hpad hsolid]

theorem advance_startsWith (h : Padded c d) {s : String} (hs : c.startsWith s = true) :
    Padded (c.advance s.length) (d.advance s.length) := by
  refine h.advance ?_
  rw [← String.length_toList]
  exact ((startsWith_iff c s).1 hs).length_le

theorem span (h : Padded c d) {p : Char → Bool} (hp : ∀ a, isBlank a = true → p a = false) : d.span p = c.span p := by
  obtain ⟨pad, hpad, hd⟩ := h.behind
  rw [Cursor.span, Cursor.span, hd, takeWhile_pad hpad hp]

theorem advance_span (h : Padded c d) (p : Char → Bool) :
    Padded (c.advance (c.span p).length) (d.advance (c.span p).length) :=
  h.advance ((List.takeWhile_prefix p).length_le)

theorem atKeyword (h : Padded c d) {k : String} (hk : k ∈ keywords) : d.atKeyword k = c.atKeyword k := by
  have hword : ∀ a, isBlank a = true → isWordChar a = false := fun a ha => by simp [isWordChar, ha]
  rw [Bool.eq_iff_iff, atKeyword_iff (keywords_word hk), atKeyword_iff (keywords_word hk)]
  exact iff_of_eq (congrArg (· = k.toList) (h.span hword))

theorem atNegation (h : Padded c d) : d.atNegation = c.atNegation := by
  rw [Cursor.atNegation, Cursor.atNegation, h.atKeyword (by decide), h.startsWith (by decide), h.startsWith (by decide)]

theorem atOperator (h : Padded c d) : d.atOperator = c.atOperator := by
  have hsymbol : ∀ s ∈ ["&&", "||", "!", "-"], (s.toList.all fun a => !isBlank a) = true := by decide
  rw [Bool.eq_iff_iff]
  simp only [Cursor.atOperator, Bool.or_eq_true, List.any_eq_true]
  constructor
  · rintro (⟨k, hk, ht⟩ | ⟨s, hs, ht⟩)
    · exact Or.inl ⟨k, hk, by rwa [← h.atKeyword hk]⟩
    · exact Or.inr ⟨s, hs, by rwa [← h.startsWith (hsymbol s hs)]⟩
  · rintro (⟨k, hk, ht⟩ | ⟨s, hs, ht⟩)
    · exact Or.inl ⟨k, hk, by rwa [h.atKeyword hk]⟩
    · exact Or.inr ⟨s, hs, by rwa [h.startsWith (hsymbol s hs)]⟩

theorem peekIdentifier (h : Padded c d) : d.peekIdentifier = c.peekIdentifier := by
  obtain ⟨pad, hpad, hd⟩ := h.behind
  rw [Cursor.peekIdentifier, Cursor.peekIdentifier, hd]
  cases c.rest with
  | nil =>
    cases pad with
    | nil => rfl
    | cons a pad => simp [identifierStart_of_blank (hpad a List.mem_cons_self)]
  | cons a r =>
    simp only [List.cons_append, takeWhile_pad hpad fun b hb => identifierChar_of_blank hb]

theorem advance_identifier (h : Padded c d) {name : List Char} (hn : c.peekIdentifier = some name) :
    Padded (c.advance name.length) (d.advance name.length) := by
  refine h.advance ?_
  rw [Cursor.peekIdentifier] at hn
  split at hn
  · cases hn
  · rename_i a r hr
    split_ifs at hn
    cases hn
    rw [hr]
    exact Nat.succ_le_succ (List.takeWhile_prefix isIdentifierChar).length_le

theorem peekTermName (h : Padded c d) : d.peekTermName = c.peekTermName := by
  rw [Cursor.peekTermName, Cursor.peekTermName, h.peekIdentifier]
  cases hn : c.peekIdentifier with
  | none => rfl
  | some name =>
    have hcolon := (h.advance_identifier hn).peek (a := ':') (by decide)
    simp only [Option.bind_some, hcolon]

/-- over the end of the text no blanks are asked for -/
theorem blanks_and (h : Padded c d) {b : Bool} (hb : b = true → c.skipBlanks.rest ≠ []) :
    (decide (0 < d.blanks) && b) = (decide (0 < c.blanks) && b) := by
  cases b with
  | false => rw [Bool.and_false, Bool.and_false]
  | true =>
    rcases h.skipBlanks_cases with ⟨hc, -⟩ | ⟨-, hblanks⟩
    · exact absurd hc (hb rfl)
    · rw [hblanks]

/-- nor whether a keyword may come next -/
theorem spaced_and (h : Padded c d) {b : Bool} (hb : b = true → c.skipBlanks.rest ≠ []) :
    (spaced d && b) = (spaced c && b) := by
  cases b with
  | false => rw [Bool.and_false, Bool.and_false]
  | true =>
    rcases h.skipBlanks_cases with ⟨hc, -⟩ | ⟨hc, hblanks⟩
    · exact absurd hc (hb rfl)
    · have hne : c.rest ≠ [] := by
        intro h0
        rw [rest_skipBlanks, h0] at hc
        exact hc rfl
      rw [spaced, spaced, hblanks, h.before hne]

end Padded

end Cursor

end FieldSearch
