/-
Texts without names and negations, and readers that agree on them.

- `NegationFree`: neither a `:` nor a symbol of negation nor the letters of its keyword stand anywhere. This holds of what
  is left at every place that is reached.
- `Follows R read read' c`: what `read` reads from `c` up to a place where an expression ends, `read'` reads up to there
  too, as a tree that `R` relates. What is read up to other places does not have to agree.
- `readOperand_follows`: operands agree wherever they end if what stands inside of parentheses follows.
-/
import FieldSearch.Proofs.Grammar.Operand

namespace FieldSearch

/-- a text without the `:` of a name, without the symbols of negation, and without the letters of its keyword -/
def NegationFree (cs : List Char) : Prop := (∀ a ∈ cs, a ∉ [':', '!', '-']) ∧ ¬"NOT".toList <:+: cs

-- decided along the text: another instance would try every character that there is
instance (cs : List Char) : Decidable (NegationFree cs) :=
  @instDecidableAnd _ _ (List.decidableBAll (fun a => a ∉ [':', '!', '-']) cs) inferInstance

theorem NegationFree.suffix {cs ds : List Char} (h : NegationFree cs) (hs : ds <:+ cs) : NegationFree ds :=
  ⟨fun a ha => h.1 a (hs.subset ha), fun hn => h.2 (hn.trans hs.isInfix)⟩

theorem Cursor.Reaches.suffix {c d : Cursor} (h : c.Reaches d) : d.rest <:+ c.rest := by
  obtain ⟨n, rfl⟩ := h
  rw [Cursor.rest_advance]
  exact List.drop_suffix n c.rest

namespace NegationFree

variable {c d : Cursor}

theorem reaches (h : NegationFree c.rest) (hd : c.Reaches d) : NegationFree d.rest := h.suffix hd.suffix

theorem startsWith_symbol (h : NegationFree c.rest) {s : String} {a : Char} {l : List Char} (hs : s.toList = a :: l)
    (ha : a ∈ [':', '!', '-']) : c.startsWith s = false := by
  rw [← Bool.not_eq_true, Cursor.startsWith_iff, hs]
  intro hp
  exact h.1 a (hp.subset List.mem_cons_self) ha

/-- no negation comes next -/
theorem noNegation (h : NegationFree c.rest) : c.atNegation = false := by
  have hk : c.atKeyword "NOT" = false := by
    apply atKeyword_of_startsWith
    rw [← Bool.not_eq_true, Cursor.startsWith_iff]
    intro hp
    exact h.2 hp.isInfix
  simp [Cursor.atNegation, hk, h.startsWith_symbol (s := "!") rfl (by decide),
    h.startsWith_symbol (s := "-") rfl (by decide)]

/-- no name comes next -/
theorem noName (h : NegationFree c.rest) : c.peekTermName = none := by
  rw [← Option.not_isSome_iff_eq_none, Option.isSome_iff_exists]
  rintro ⟨n, hn⟩
  obtain ⟨-, t, hr⟩ := Cursor.peekTermName_iff.1 hn
  have hcolon : ':' ∈ c.rest := by
    rw [hr]
    exact List.mem_append_right _ List.mem_cons_self
  exact h.1 ':' hcolon (by decide)

theorem noTermName (h : NegationFree c.rest) : c.termName = none := Cursor.termName_none.2 h.noName

end NegationFree

/-! ## Readers that agree -/

variable {α α' : Type} {R : α → α' → Prop}

/-- what one reader reads up to a place where an expression ends, the other reads up to there as a related tree -/
def Follows (R : α → α' → Prop) (read : Cursor → Reply α) (read' : Cursor → Reply α') (c : Cursor) : Prop :=
  ∀ a d, (read c).value = some (a, d) → Closes d.skipBlanks.rest → ∃ a', (read' c).value = some (a', d) ∧ R a a'

theorem closeGroup_iff {a b : α} {c d : Cursor} :
    (closeGroup a c).value = some (b, d) ↔ b = a ∧ c.skipBlanks.eatChar ')' = some d := by
  unfold closeGroup
  cases c.skipBlanks.eatChar ')' with
  | none => simp
  | some e => simp [eq_comm]

theorem closes_of_eatChar {c d : Cursor} (h : c.eatChar ')' = some d) : Closes c.rest := by
  unfold Cursor.eatChar at h
  split_ifs at h with hp
  obtain ⟨t, ht⟩ := Cursor.peek_eq_some_iff.1 hp
  intro a ha
  rw [ht, List.head?_cons, Option.mem_some_iff] at ha
  exact ha.symm

/-- operands that are no negations agree if what stands inside of parentheses does -/
theorem readOperand_follows {forms : OperandForms α} {forms' : OperandForms α'} {inner : Cursor → Reply α}
    {inner' : Cursor → Reply α'} (hsingle : ∀ v, R (forms.single v) (forms'.single v))
    (hgroup : ∀ a a', R a a' → R (forms.group a) (forms'.group a')) {c d : Cursor} (hneg : c.atNegation = false)
    (hin : ∀ e, c.Passes e → Follows R inner inner' e) {a : α} (h : (readOperand forms inner c).value = some (a, d)) :
    ∃ a', (readOperand forms' inner' c).value = some (a', d) ∧ R a a' := by
  have hnone := readNegation_eq_none.2 hneg
  simp only [readOperand, hnone, readPrimary, Reply.value_orElse, Reply.value_map] at h ⊢
  cases hv : (readValue c).value with
  | some p =>
    rw [hv] at h
    obtain ⟨rfl, rfl⟩ : forms.single p.1 = a ∧ p.2 = d := by simpa using h
    exact ⟨_, rfl, hsingle p.1⟩
  | none =>
    rw [hv] at h
    simp only [Option.map_none, Option.none_or] at h ⊢
    cases he : c.eatChar '(' with
    | none =>
      rw [he] at h
      cases h
    | some inside =>
      rw [he] at h
      obtain ⟨b, e, hb, hclose⟩ := Reply.bind_eq_some.1 h
      obtain ⟨rfl, hd⟩ := closeGroup_iff.1 hclose
      have hpasses := (eatChar_eq_some he).trans_reaches (Cursor.reaches_skipBlanks inside)
      obtain ⟨b', hb', hR⟩ := hin _ hpasses b e hb (closes_of_eatChar hd)
      exact ⟨_, Reply.bind_eq_some.2 ⟨b', e, hb', closeGroup_iff.2 ⟨rfl, hd⟩⟩, hgroup b b' hR⟩

end FieldSearch
