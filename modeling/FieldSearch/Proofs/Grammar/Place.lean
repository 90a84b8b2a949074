/-
Places of a text: where a cursor gets to by reading on.

- `rest_advance`: behind `n` characters stands what is left without its first `n` characters.
- `Reaches c d`: reading on from `c` gets to `d`. `Passes c d`: and at least one character was read.
- `startsWith_iff`, `atKeyword_iff`: a text comes next if it is a prefix of what is left, a keyword if it is the whole
  run of word characters that comes next.
- `Solid`, `Ends`: what is left starts with no blank; what is left may stand behind a value.
-/
import Mathlib.Tactic
import FieldSearch.Grammar.Cursor

namespace FieldSearch

/-- a text that starts with no blank -/
def Solid (cs : List Char) : Prop := ∀ a ∈ cs.head?, isBlank a = false

/-- a text that may stand behind a value: none at all, or one that starts with a blank or a `)` -/
def Ends (cs : List Char) : Prop := ∀ a ∈ cs.head?, isBlank a = true ∨ a = ')'

theorem solid_nil : Solid [] := by simp [Solid]

theorem solid_cons {a : Char} {cs : List Char} : Solid (a :: cs) ↔ isBlank a = false := by simp [Solid]

theorem solid_append {l r : List Char} (hl : l ≠ []) (h : Solid l) : Solid (l ++ r) := by
  obtain ⟨a, l', rfl⟩ := List.exists_cons_of_ne_nil hl
  exact solid_cons.2 (solid_cons.1 h)

theorem ends_nil : Ends [] := by simp [Ends]

theorem ends_blank (cs : List Char) : Ends (' ' :: cs) := by
  intro a ha
  simp only [List.head?_cons, Option.mem_some_iff] at ha
  subst ha; exact Or.inl (by decide)

/-- the run of characters that satisfy `p` is all of `l` if what stands behind `l` starts with no such character -/
theorem takeWhile_run {p : Char → Bool} {l r : List Char} (hl : ∀ a ∈ l, p a = true) (hr : ∀ a ∈ r.head?, p a = false) :
    (l ++ r).takeWhile p = l := by
  rw [List.takeWhile_append_of_pos hl]
  cases r with
  | nil => simp
  | cons a r => simp [hr a (by simp)]

/-- the run of word characters that comes next is all of `w` if a value may end behind `w` -/
theorem takeWhile_word {w tail : List Char} (hw : ∀ a ∈ w, isWordChar a = true) (ht : Ends tail) :
    (w ++ tail).takeWhile isWordChar = w := by
  refine takeWhile_run hw fun a ha => ?_
  rcases ht a ha with h | rfl
  · simp [isWordChar, h]
  · decide

namespace Cursor

/-! ## Advancing -/

@[simp] theorem rest_bump (c : Cursor) : c.bump.rest = c.rest.tail := by
  unfold bump; split <;> simp_all

theorem bump_eq_advance (c : Cursor) : c.bump = c.advance 1 := rfl

@[simp] theorem advance_zero (c : Cursor) : c.advance 0 = c := rfl

@[simp] theorem rest_advance (c : Cursor) (n : ℕ) : (c.advance n).rest = c.rest.drop n := by
  induction n generalizing c with
  | zero => rfl
  | succ n ih => rw [advance, ih, rest_bump, List.drop_tail]

theorem advance_advance (c : Cursor) (m n : ℕ) : (c.advance m).advance n = c.advance (m + n) := by
  induction m generalizing c with
  | zero => simp
  | succ m ih => rw [advance, ih, Nat.succ_add, advance]

/-- reading past a known text leaves what stands behind it -/
theorem rest_advance_of_append {c : Cursor} {l r : List Char} (h : c.rest = l ++ r) :
    (c.advance l.length).rest = r := by
  rw [rest_advance, h, List.drop_left]

/-- reading past a known string leaves what stands behind it -/
theorem rest_behind {c : Cursor} {s : String} {r : List Char} (h : c.rest = s.toList ++ r) :
    (c.advance s.length).rest = r := by
  rw [← String.length_toList]; exact rest_advance_of_append h

/-! ## Reaching and passing -/

/-- reading on from `c` gets to `d` -/
def Reaches (c d : Cursor) : Prop := ∃ n, d = c.advance n

/-- `d` is reached from `c` by reading at least one character -/
def Passes (c d : Cursor) : Prop := c.Reaches d ∧ d.rest.length < c.rest.length

theorem Reaches.refl (c : Cursor) : c.Reaches c := ⟨0, rfl⟩

theorem Reaches.trans {c d e : Cursor} (h1 : c.Reaches d) (h2 : d.Reaches e) : c.Reaches e := by
  obtain ⟨m, rfl⟩ := h1
  obtain ⟨n, rfl⟩ := h2
  exact ⟨m + n, advance_advance c m n⟩

theorem Reaches.length_le {c d : Cursor} (h : c.Reaches d) : d.rest.length ≤ c.rest.length := by
  obtain ⟨n, rfl⟩ := h
  simp

theorem reaches_advance (c : Cursor) (n : ℕ) : c.Reaches (c.advance n) := ⟨n, rfl⟩

theorem reaches_skipBlanks (c : Cursor) : c.Reaches c.skipBlanks := ⟨c.blanks, rfl⟩

theorem Passes.reaches {c d : Cursor} (h : c.Passes d) : c.Reaches d := h.1

theorem Passes.trans_reaches {c d e : Cursor} (h1 : c.Passes d) (h2 : d.Reaches e) : c.Passes e :=
  ⟨h1.1.trans h2, lt_of_le_of_lt h2.length_le h1.2⟩

theorem Reaches.trans_passes {c d e : Cursor} (h1 : c.Reaches d) (h2 : d.Passes e) : c.Passes e :=
  ⟨h1.trans h2.1, lt_of_lt_of_le h2.2 h1.length_le⟩

theorem passes_advance {c : Cursor} {n : ℕ} (hn : 0 < n) (hc : c.rest ≠ []) : c.Passes (c.advance n) := by
  have : 0 < c.rest.length := List.length_pos_iff.2 hc
  exact ⟨reaches_advance c n, by rw [rest_advance, List.length_drop]; omega⟩

/-! ## Blanks -/

@[simp] theorem rest_skipBlanks (c : Cursor) : c.skipBlanks.rest = c.rest.dropWhile isBlank := by
  have h : (c.rest.takeWhile isBlank ++ c.rest.dropWhile isBlank).drop (c.rest.takeWhile isBlank).length =
      c.rest.dropWhile isBlank := List.drop_left
  rw [List.takeWhile_append_dropWhile] at h
  simpa [skipBlanks, blanks, span] using h

theorem blanks_of_solid {c : Cursor} (h : Solid c.rest) : c.blanks = 0 := by
  unfold blanks span
  cases hr : c.rest with
  | nil => rfl
  | cons a r => rw [hr, solid_cons] at h; simp [h]

theorem skipBlanks_of_solid {c : Cursor} (h : Solid c.rest) : c.skipBlanks = c := by
  rw [skipBlanks, blanks_of_solid h, advance_zero]

theorem blanks_of_space {c : Cursor} {t : List Char} (h : c.rest = ' ' :: t) (ht : Solid t) : c.blanks = 1 := by
  have hb : isBlank ' ' = true := by decide
  unfold blanks span
  cases t with
  | nil => simp [h, hb]
  | cons a r => simp [h, hb, solid_cons.1 ht]

theorem skipBlanks_of_space {c : Cursor} {t : List Char} (h : c.rest = ' ' :: t) (ht : Solid t) :
    c.skipBlanks = c.advance 1 := by
  rw [skipBlanks, blanks_of_space h ht]

/-! ## What comes next -/

theorem startsWith_iff (c : Cursor) (s : String) : c.startsWith s = true ↔ s.toList <+: c.rest := by
  rw [startsWith, List.isPrefixOf_iff_prefix]

theorem peek_eq_some_iff {c : Cursor} {a : Char} : c.peek = some a ↔ ∃ t, c.rest = a :: t := by
  unfold peek
  cases c.rest <;> simp

/-- a keyword comes next if it is the whole run of word characters that comes next -/
theorem atKeyword_iff {c : Cursor} {k : String} (hk : ∀ a ∈ k.toList, isWordChar a = true) :
    c.atKeyword k = true ↔ c.rest.takeWhile isWordChar = k.toList := by
  unfold atKeyword
  rw [Bool.and_eq_true, startsWith_iff, rest_advance, ← String.length_toList]
  constructor
  · rintro ⟨⟨t, ht⟩, hn⟩
    rw [← ht, List.drop_left] at hn
    rw [← ht, List.takeWhile_append_of_pos hk]
    cases t with
    | nil => simp
    | cons a t => simp at hn; simp [hn]
  · intro h
    have hsplit := List.takeWhile_append_dropWhile (p := isWordChar) (l := c.rest)
    rw [h] at hsplit
    refine ⟨⟨_, hsplit⟩, ?_⟩
    rw [← hsplit, List.drop_left]
    cases hd : c.rest.dropWhile isWordChar with
    | nil => simp
    | cons a t =>
      have hne : c.rest.dropWhile isWordChar ≠ [] := by simp [hd]
      have := List.head_dropWhile_not isWordChar hne
      simp only [hd, List.head_cons] at this
      simp [this]

theorem keywords_word {k : String} (hk : k ∈ keywords) : ∀ a ∈ k.toList, isWordChar a = true := by
  simp only [keywords, List.mem_cons, List.not_mem_nil, or_false] at hk
  rcases hk with rfl | rfl | rfl <;> exact List.all_eq_true.1 (by decide)

end Cursor

end FieldSearch
