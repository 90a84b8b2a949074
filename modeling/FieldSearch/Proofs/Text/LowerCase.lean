/-
Lower case of a text within a longer one.

- `endsWord before after`: whether a `Σ` between two texts ends a word. `lowerWithin before after cs`: the lower case of
  characters between two texts. `lowerChars_append`: the lower case of a whole text is that of its parts, each within the
  rest.
- `firstCounted cs`: the first character that counts when case is looked for. `meetsCased_append`: behind it nothing does.
- `sigmaSettled before after`: whatever stands farther off, a `Σ` between the two ends a word or does not. `settled v`: this
  is so of every `Σ` in `v`. `lowerWithin_settled`: then the lower case of `v` is the same in every text.
- `endings`: how many `Σ` end a word. `count_lowered`: within other characters a text has as many `ς` more as it has endings
  more, and as many `σ` fewer.
- `lowered_infix_iff`: the lower case of every text around `v` has the lower case of `v` in it exactly if `v` is settled.
-/
import Mathlib.Tactic
import FieldSearch.Text.LowerCase

namespace FieldSearch

/-! ## The lower case of parts -/

/-- whether a `Σ` ends a word; `before` has the nearest character first -/
def endsWord (before after : List Char) : Bool := meetsCased before && !meetsCased after

/-- the lower case of one character between two texts -/
def lowerAt (before after : List Char) (c : Char) : List Char :=
  if c = 'Σ' then if endsWord before after then ['ς'] else ['σ']
  else if c = 'İ' then ['i', '\u0307']
  else [lowerChar c]

/-- the lower case of characters between two texts -/
def lowerWithin (before after : List Char) : List Char → List Char
  | [] => []
  | c :: cs => lowerAt before (cs ++ after) c ++ lowerWithin (c :: before) after cs

theorem lowerChars_cons (before : List Char) (c : Char) (cs : List Char) :
    lowerChars before (c :: cs) = lowerAt before cs c ++ lowerChars (c :: before) cs := rfl

/-- the lower case of a text is that of its parts, each within the rest -/
theorem lowerChars_append (before l r : List Char) :
    lowerChars before (l ++ r) = lowerWithin before r l ++ lowerChars (l.reverse ++ before) r := by
  induction l generalizing before with
  | nil => rfl
  | cons c l ih =>
    rw [List.cons_append, lowerChars_cons, ih, lowerWithin, List.append_assoc, List.reverse_cons, List.append_assoc]
    rfl

theorem lowerChars_eq_within (before cs : List Char) : lowerChars before cs = lowerWithin before [] cs := by
  have h := lowerChars_append before cs []
  rwa [List.append_nil, lowerChars, List.append_nil] at h

/-! ## What decides a `Σ` -/

/-- the first character that counts when case is looked for -/
def firstCounted (cs : List Char) : Option Char := (cs.dropWhile (inRuns skippedRuns)).head?

theorem meetsCased_eq (cs : List Char) : meetsCased cs = (firstCounted cs).any (inRuns casedRuns) := rfl

/-- behind the first character that counts nothing does -/
theorem firstCounted_append (l r : List Char) : firstCounted (l ++ r) = (firstCounted l).or (firstCounted r) := by
  induction l with
  | nil => rfl
  | cons c l ih =>
    by_cases hc : inRuns skippedRuns c = true
    · rw [firstCounted, List.cons_append, List.dropWhile_cons_of_pos hc, firstCounted, List.dropWhile_cons_of_pos hc]
      exact ih
    · rw [firstCounted, List.cons_append, List.dropWhile_cons_of_neg hc, firstCounted, List.dropWhile_cons_of_neg hc]
      rfl

theorem meetsCased_append (l r : List Char) :
    meetsCased (l ++ r) = if firstCounted l = none then meetsCased r else meetsCased l := by
  rw [meetsCased_eq, meetsCased_eq, meetsCased_eq, firstCounted_append]
  cases firstCounted l <;> rfl

/-- whether a `Σ` ends a word or not, whatever stands farther off than `before` and `after` -/
def sigmaSettled (before after : List Char) : Bool :=
  match firstCounted before, firstCounted after with
  | some _, some _ => true
  | some a, none => !inRuns casedRuns a
  | none, some b => inRuns casedRuns b
  | none, none => false

theorem endsWord_settled {before after : List Char} (h : sigmaSettled before after = true) (x y : List Char) :
    endsWord (before ++ x) (after ++ y) = endsWord before after := by
  rw [endsWord, endsWord, meetsCased_append, meetsCased_append]
  unfold sigmaSettled at h
  cases hb : firstCounted before <;> cases ha : firstCounted after <;> rw [hb, ha] at h <;>
    simp_all [meetsCased_eq]

/-- whether every `Σ` in characters behind `before` is settled by them -/
def settledFrom (before : List Char) : List Char → Bool
  | [] => true
  | c :: cs => (c != 'Σ' || sigmaSettled before cs) && settledFrom (c :: before) cs

/-- whether the lower case of every `Σ` in a text is settled by the text alone -/
def settled (v : String) : Bool := settledFrom [] v.toList

/-- the lower case of settled characters is the same in every text -/
theorem lowerWithin_settled {before cs : List Char} (h : settledFrom before cs = true) (x y : List Char) :
    lowerWithin (before ++ x) y cs = lowerWithin before [] cs := by
  induction cs generalizing before with
  | nil => rfl
  | cons c cs ih =>
    rw [settledFrom, Bool.and_eq_true] at h
    have hat : lowerAt (before ++ x) (cs ++ y) c = lowerAt before (cs ++ []) c := by
      unfold lowerAt
      by_cases hc : c = 'Σ'
      · have hsigma : sigmaSettled before cs = true := by simpa [hc] using h.1
        rw [endsWord_settled hsigma, List.append_nil]
      · rw [if_neg hc, if_neg hc]
    rw [lowerWithin, lowerWithin, hat, ← List.cons_append, ih h.2]

/-- a text without `Σ` is settled -/
theorem settled_of_noSigma {v : String} (h : 'Σ' ∉ v.toList) : settled v = true := by
  have hfrom : ∀ cs before : List Char, 'Σ' ∉ cs → settledFrom before cs = true := by
    intro cs
    induction cs with
    | nil => exact fun _ _ => rfl
    | cons c cs ih =>
      intro before hcs
      rw [List.mem_cons, not_or] at hcs
      rw [settledFrom, ih (c :: before) hcs.2, Bool.and_true, Bool.or_eq_true, bne_iff_ne]
      exact Or.inl (Ne.symm hcs.1)
  exact hfrom v.toList [] h

/-- a text that is not settled has a `Σ` that is not -/
theorem exists_unsettled {before cs : List Char} (h : settledFrom before cs = false) :
    ∃ l r, cs = l ++ 'Σ' :: r ∧ sigmaSettled (l.reverse ++ before) r = false := by
  induction cs generalizing before with
  | nil => cases h
  | cons c cs ih =>
    rw [settledFrom, Bool.and_eq_false_iff] at h
    rcases h with h | h
    · rw [Bool.or_eq_false_iff, bne_eq_false_iff_eq] at h
      obtain ⟨rfl, hsigma⟩ := h
      exact ⟨[], cs, rfl, hsigma⟩
    · obtain ⟨l, r, rfl, hsigma⟩ := ih h
      exact ⟨c :: l, r, rfl, by rwa [List.reverse_cons, List.append_assoc]⟩

/-! ## Counting the endings of words -/

/-- how many `Σ` of characters between two texts end a word -/
def endings (before after : List Char) : List Char → ℕ
  | [] => 0
  | c :: cs => (if c = 'Σ' ∧ endsWord before (cs ++ after) = true then 1 else 0) + endings (c :: before) after cs

theorem count_lowered (b a b' a' cs : List Char) :
    (lowerWithin b a cs).count 'ς' + endings b' a' cs = (lowerWithin b' a' cs).count 'ς' + endings b a cs ∧
      (lowerWithin b a cs).count 'σ' + endings b a cs = (lowerWithin b' a' cs).count 'σ' + endings b' a' cs := by
  induction cs generalizing b b' with
  | nil => exact ⟨rfl, rfl⟩
  | cons c cs ih =>
    obtain ⟨hfinal, hinner⟩ := ih (c :: b) (c :: b')
    simp only [lowerWithin, endings, List.count_append]
    by_cases hc : c = 'Σ'
    · subst hc
      cases h : endsWord b (cs ++ a) <;> cases h' : endsWord b' (cs ++ a') <;>
        simp [lowerAt, h, h'] <;> omega
    · have hsame : lowerAt b (cs ++ a) c = lowerAt b' (cs ++ a') c := by rw [lowerAt, lowerAt, if_neg hc, if_neg hc]
      simp only [hsame, hc, false_and, if_false]
      omega

/-- a `Σ` that ends a word between the first two texts ends one between the other two as well, whatever stands nearer -/
def EndsToo (b a b' a' : List Char) : Prop :=
  ∀ l r, endsWord (l ++ b) (r ++ a) = true → endsWord (l ++ b') (r ++ a') = true

namespace EndsToo

variable {b a b' a' : List Char}

theorem cons (h : EndsToo b a b' a') (c : Char) : EndsToo (c :: b) a (c :: b') a' := by
  intro l r hends
  have hl := h (l ++ [c]) r
  rw [List.append_assoc, List.append_assoc] at hl
  exact hl hends

theorem head (h : EndsToo b a b' a') (c : Char) (cs : List Char) :
    (if c = 'Σ' ∧ endsWord b (cs ++ a) = true then 1 else 0) ≤
      if c = 'Σ' ∧ endsWord b' (cs ++ a') = true then 1 else 0 := by
  by_cases hc : c = 'Σ' ∧ endsWord b (cs ++ a) = true
  · rw [if_pos hc, if_pos ⟨hc.1, h [] cs hc.2⟩]
  · rw [if_neg hc]
    exact Nat.zero_le _

theorem endings_le (h : EndsToo b a b' a') (cs : List Char) : endings b a cs ≤ endings b' a' cs := by
  induction cs generalizing b b' with
  | nil => exact le_rfl
  | cons c cs ih => exact Nat.add_le_add (h.head c cs) (ih (h.cons c))

/-- a `Σ` that ends a word only between the other two texts makes them have more endings -/
theorem endings_lt (h : EndsToo b a b' a') {l r : List Char} (hno : endsWord (l.reverse ++ b) (r ++ a) = false)
    (hyes : endsWord (l.reverse ++ b') (r ++ a') = true) :
    endings b a (l ++ 'Σ' :: r) < endings b' a' (l ++ 'Σ' :: r) := by
  induction l generalizing b b' with
  | nil =>
    have hno' : ¬ ('Σ' = 'Σ' ∧ endsWord b (r ++ a) = true) := by
      rintro ⟨-, hends⟩
      exact absurd (hno.symm.trans hends) (by decide)
    rw [List.nil_append, endings, endings, if_neg hno', if_pos ⟨rfl, hyes⟩]
    exact Nat.add_lt_add_of_lt_of_le Nat.zero_lt_one ((h.cons 'Σ').endings_le r)
  | cons c l ih =>
    rw [List.reverse_cons, List.append_assoc] at hno hyes
    exact Nat.add_lt_add_of_le_of_lt (h.head c _) (ih (h.cons c) hno hyes)

end EndsToo

/-! ## Texts in all texts around them -/

theorem meetsCased_mono {l : List Char} (h : meetsCased l = true) (x : List Char) : meetsCased (l ++ x) = true := by
  rw [meetsCased_append]
  split_ifs with hnone
  · rw [meetsCased_eq, hnone] at h
    cases h
  · exact h

theorem meetsCased_of_none {l : List Char} (h : firstCounted l = none) : meetsCased l = false := by
  rw [meetsCased_eq, h]
  rfl

theorem meetsCased_letter : meetsCased ['Α'] = true := by decide +kernel

theorem lowerAt_letter (before after : List Char) : lowerAt before after 'Α' = ['α'] := by
  rw [lowerAt, if_neg (by decide), if_neg (by decide)]
  decide +kernel

/-- a `Σ` that ends a word does so behind a letter too -/
theorem endsToo_letter_before : EndsToo [] [] ['Α'] [] := by
  intro l r h
  rw [endsWord, Bool.and_eq_true] at h ⊢
  rw [List.append_nil] at h
  exact ⟨meetsCased_mono h.1 ['Α'], h.2⟩

/-- a `Σ` that ends a word in front of a letter does so without it too -/
theorem endsToo_letter_behind : EndsToo [] ['Α'] [] [] := by
  intro l r h
  rw [endsWord, Bool.and_eq_true, Bool.not_eq_true'] at h ⊢
  refine ⟨h.1, ?_⟩
  by_contra hcased
  rw [List.append_nil, Bool.not_eq_false] at hcased
  rw [meetsCased_mono hcased ['Α']] at h
  cases h.2

/-- behind a letter an unsettled `Σ` with nothing that counts in front of it comes to end a word, which leaves the text one
`σ` short -/
theorem not_infix_behind_letter {l r : List Char} (hl : firstCounted l.reverse = none) (hr : meetsCased r = false) :
    ¬ lowerChars [] (l ++ 'Σ' :: r) <:+: lowerChars [] ('Α' :: (l ++ 'Σ' :: r)) := by
  intro hcontained
  have hno : endsWord (l.reverse ++ []) (r ++ []) = false := by
    rw [endsWord, List.append_nil, meetsCased_of_none hl, Bool.false_and]
  have hyes : endsWord (l.reverse ++ ['Α']) (r ++ []) = true := by
    rw [endsWord, meetsCased_append, if_pos hl, meetsCased_letter, List.append_nil, hr]
    rfl
  have hmore := endsToo_letter_before.endings_lt hno hyes
  have hcount := hcontained.sublist.count_le 'σ'
  rw [lowerChars_cons, lowerAt_letter, lowerChars_eq_within, lowerChars_eq_within, List.count_append] at hcount
  have hnone : ['α'].count 'σ' = 0 := by decide
  have hbalance := (count_lowered [] [] ['Α'] [] (l ++ 'Σ' :: r)).2
  omega

/-- in front of a letter a `Σ` that ended a word comes not to, which leaves the text one `ς` short -/
theorem not_infix_before_letter {l r : List Char} (hl : meetsCased l.reverse = true) (hr : firstCounted r = none) :
    ¬ lowerChars [] (l ++ 'Σ' :: r) <:+: lowerChars [] (l ++ 'Σ' :: r ++ ['Α']) := by
  intro hcontained
  have hno : endsWord (l.reverse ++ []) (r ++ ['Α']) = false := by
    rw [endsWord, meetsCased_append r, if_pos hr, meetsCased_letter, Bool.not_true, Bool.and_false]
  have hyes : endsWord (l.reverse ++ []) (r ++ []) = true := by
    rw [endsWord, List.append_nil, List.append_nil, hl, meetsCased_of_none hr]
    rfl
  have hmore := endsToo_letter_behind.endings_lt hno hyes
  have hcount := hcontained.sublist.count_le 'ς'
  rw [lowerChars_append [] _ ['Α'], lowerChars_cons _ 'Α', lowerAt_letter, lowerChars, List.append_nil,
    lowerChars_eq_within, List.count_append] at hcount
  have hnone : ['α'].count 'ς' = 0 := by decide
  have hbalance := (count_lowered [] ['Α'] [] [] (l ++ 'Σ' :: r)).1
  omega

/-- next to a `Σ` that is not settled a letter in front or behind makes a difference -/
theorem not_infix_unsettled {l r : List Char} (h : sigmaSettled l.reverse r = false) :
    ¬ lowerChars [] (l ++ 'Σ' :: r) <:+: lowerChars [] ('Α' :: (l ++ 'Σ' :: r)) ∨
      ¬ lowerChars [] (l ++ 'Σ' :: r) <:+: lowerChars [] (l ++ 'Σ' :: r ++ ['Α']) := by
  rw [sigmaSettled] at h
  cases hl : firstCounted l.reverse with
  | none =>
    refine Or.inl (not_infix_behind_letter hl ?_)
    cases hr : firstCounted r with
    | none => exact meetsCased_of_none hr
    | some y =>
      rw [hl, hr] at h
      rw [meetsCased_eq, hr]
      exact h
  | some x =>
    cases hr : firstCounted r with
    | none =>
      refine Or.inr (not_infix_before_letter ?_ hr)
      rw [hl, hr] at h
      rw [meetsCased_eq, hl]
      simpa using h
    | some y =>
      rw [hl, hr] at h
      cases h

/-- where every `Σ` is settled the lower case is found in the lower case of every text around -/
theorem infix_settled {v : List Char} (h : settledFrom [] v = true) (a b : List Char) :
    lowerChars [] v <:+: lowerChars [] (a ++ v ++ b) := by
  have hparts : lowerChars [] (a ++ v ++ b) =
      lowerWithin [] (v ++ b) a ++ lowerWithin (a.reverse ++ []) b v ++ lowerChars (v.reverse ++ (a.reverse ++ [])) b := by
    rw [List.append_assoc, lowerChars_append, lowerChars_append, List.append_assoc]
  have hsame : lowerWithin (a.reverse ++ []) b v = lowerChars [] v := by
    rw [lowerChars_eq_within, List.append_nil]
    exact lowerWithin_settled h a.reverse b
  rw [hparts, hsame]
  exact List.infix_append _ _ _

/-- **The lower case of every text around `v` has the lower case of `v` in it exactly if every `Σ` in `v` is settled.** -/
theorem lowered_infix_iff (v : List Char) :
    (∀ a b, lowerChars [] v <:+: lowerChars [] (a ++ v ++ b)) ↔ settledFrom [] v = true := by
  refine ⟨fun h => ?_, infix_settled⟩
  by_contra hsettled
  obtain ⟨l, r, rfl, hsigma⟩ := exists_unsettled (Bool.eq_false_iff.2 hsettled)
  rw [List.append_nil] at hsigma
  rcases not_infix_unsettled hsigma with hbefore | hbehind
  · have hin := h ['Α'] []
    rw [List.append_nil] at hin
    exact hbefore hin
  · exact hbehind (h [] ['Α'])

end FieldSearch
