/-
What registrations and reading make sure of about the names of terms.

- `register_keyed`, `ofTerms_keyed`: in a registry that registrations built every term stands under the key of its name,
  and its name is an identifier. A term that is found is therefore found again by its own name.
- `Bound`: the name of a term that was read is an identifier and spelled as it was registered, and a term for one value
  holds one. `parse_bound`: every term of a text is bound.
- `readTerm_named`: under a name a term is read by the condition of the name. `readTerm_eq_some`: what a term can be read as.
-/
import FieldSearch.Proofs.Grammar.Items
import FieldSearch.Proofs.Registry
import FieldSearch.Proofs.Term.Reading

namespace FieldSearch

namespace TermRegistry

variable {Q : Type} {r : TermRegistry Q}

/-! ## Registered names -/

/-- every term stands under the key of its name, which is an identifier -/
def Keyed (r : TermRegistry Q) : Prop :=
  ∀ p ∈ r.terms.entries, p.1 = nameKey p.2.name ∧ isIdentifier p.2.name = true

theorem keyed_empty : ({} : TermRegistry Q).Keyed := fun _ hp => absurd hp List.not_mem_nil

/-- a registration keeps the terms under their keys -/
theorem register_keyed {r' : TermRegistry Q} {t : TermOption Q} (hr : r.Keyed) (h : r.register t = .ok r') :
    r'.Keyed := by
  obtain ⟨terms, hadd, h⟩ := bind_eq_ok h
  obtain ⟨defaultKey, -, h⟩ := bind_eq_ok h
  cases h
  obtain ⟨hid, -, hentries⟩ := Registry.add_eq_ok.1 hadd
  intro p hp
  rw [hentries] at hp
  rcases List.mem_append.1 hp with hp | hp
  · exact hr p hp
  · obtain rfl := List.mem_singleton.1 hp
    exact ⟨rfl, hid⟩

theorem ofTerms_keyed {options : List (TermOption Q)} (h : ofTerms options = .ok r) : r.Keyed :=
  foldlM_keeps (fun _ _ _ hr hregister => register_keyed hr hregister) keyed_empty h

/-- a term that was found is found by its own name -/
theorem get?_name (hr : r.Keyed) {name : String} {t : TermOption Q} (h : r.get? name = some t) :
    r.get? t.name = some t ∧ isIdentifier t.name = true := by
  obtain ⟨hkey, hid⟩ := hr _ (Registry.mem_of_lookup h)
  refine ⟨?_, hid⟩
  rw [get?, Registry.get?, ← hkey]
  exact h

theorem default?_name (hr : r.Keyed) {t : TermOption Q} (h : r.default? = some t) :
    r.get? t.name = some t ∧ isIdentifier t.name = true := by
  obtain ⟨key, -, hl⟩ := Option.bind_eq_some_iff.1 h
  obtain ⟨hkey, hid⟩ := hr _ (Registry.mem_of_lookup hl)
  refine ⟨?_, hid⟩
  rw [get?, Registry.get?, ← hkey]
  exact hl

/-! ## Terms that were read -/

/-- how many values a term of a name takes; one if it is not registered -/
def conditionOf (r : TermRegistry Q) (name : String) : Condition :=
  (r.get? name).elim .one fun t => t.builders.condition

/-- what reading makes sure of about a term -/
structure Bound (r : TermRegistry Q) (t : Term) : Prop where
  identifier : isIdentifier t.name = true
  spelled : ∀ o, r.get? t.name = some o → o.name = t.name
  single : r.conditionOf t.name = .one → ∃ v, t.operation = .unary v

theorem read_single {condition : Condition} {c d : Cursor} {n : Operation}
    (h : (Operation.read condition c).value = some (n, d)) (hc : condition = .one) : ∃ v, n = .unary v := by
  subst hc
  exact (Operation.readOne_eq_some h).2

theorem read_advances (condition : Condition) : Advances (Operation.read condition) := by
  cases condition with
  | one => exact fun c n d h => (Operation.readOne_eq_some h).1
  | many => exact Operation.readMany_advances

/-- under a name a term is read by the condition of the name -/
theorem readTerm_named {c b : Cursor} {name : String} (hn : c.termName = some (name, b))
    (hs : ∀ o, r.get? name = some o → o.name = name) :
    r.readTerm c = (Operation.read (r.conditionOf name) b.skipBlanks).map (.named name) := by
  unfold readTerm conditionOf
  rw [hn]
  cases hg : r.get? name with
  | none => simp [hg]
  | some o => simp [hg, hs o hg]

theorem conditionOf_default (hr : r.Keyed) {o : TermOption Q} (h : r.default? = some o) :
    r.conditionOf o.name = o.builders.condition := by
  rw [conditionOf, (default?_name hr h).1]
  rfl

/-- what a term is read as: unqualified text where no name comes next, else a value under the name, which is spelled as it
was registered -/
theorem readTerm_eq_some (hr : r.Keyed) {c d : Cursor} {t : Term} (h : (r.readTerm c).value = some (t, d)) :
    (c.termName = none ∧ ∃ o n, r.default? = some o ∧ t = .default o.name n ∧
        (Operation.read (r.conditionOf o.name) c).value = some (n, d)) ∨
      ∃ b name n, c.Reaches b ∧ isIdentifier name = true ∧ (∀ o, r.get? name = some o → o.name = name) ∧
        t = .named name n ∧ (Operation.read (r.conditionOf name) b).value = some (n, d) := by
  unfold readTerm at h
  cases hn : c.termName with
  | none =>
    cases hd : r.default? with
    | none => simp [hn, hd] at h
    | some o =>
      simp only [hn, hd] at h
      obtain ⟨n, hread, rfl⟩ := Reply.map_eq_some.1 h
      exact Or.inl ⟨rfl, o, n, rfl, rfl, by rw [conditionOf_default hr hd]; exact hread⟩
  | some p =>
    obtain ⟨name, b⟩ := p
    obtain ⟨hp, rfl⟩ := Cursor.termName_iff.1 hn
    have hreach := (Cursor.reaches_advance c (name.length + 1)).trans (Cursor.reaches_skipBlanks _)
    cases hg : r.get? name with
    | none =>
      simp only [hn, hg] at h
      obtain ⟨n, hread, rfl⟩ := Reply.map_eq_some.1 h
      refine Or.inr ⟨_, name, n, hreach, (Cursor.peekTermName_iff.1 hp).1, fun o ho => ?_, rfl, ?_⟩
      · rw [hg] at ho
        cases ho
      · rw [conditionOf, hg]; exact hread
    | some o =>
      simp only [hn, hg] at h
      obtain ⟨n, hread, rfl⟩ := Reply.map_eq_some.1 h
      obtain ⟨hg', hid⟩ := get?_name hr hg
      refine Or.inr ⟨_, o.name, n, hreach, hid, fun o' ho' => ?_, rfl, ?_⟩
      · rw [hg', Option.some.injEq] at ho'
        rw [← ho']
      · rw [conditionOf, hg']; exact hread

theorem readTerm_bound (hr : r.Keyed) {c d : Cursor} {t : Term} (h : (r.readTerm c).value = some (t, d)) :
    r.Bound t ∧ c.Passes d := by
  rcases readTerm_eq_some hr h with ⟨-, o, n, ho, rfl, hn⟩ | ⟨b, name, n, hreach, hid, hspelled, rfl, hn⟩
  · obtain ⟨hg, hid⟩ := default?_name hr ho
    refine ⟨⟨hid, fun o' ho' => ?_, read_single hn⟩, read_advances _ c n d hn⟩
    rw [Term.name, hg, Option.some.injEq] at ho'
    rw [← ho']; rfl
  · exact ⟨⟨hid, hspelled, read_single hn⟩, hreach.trans_passes (read_advances _ b n d hn)⟩

theorem readTerm_advances (hr : r.Keyed) : Advances r.readTerm := fun _ _ _ h => (readTerm_bound hr h).2

theorem steps_bound (hr : r.Keyed) {gap : Expectation} {c d : Cursor} {terms : List Term}
    (h : Steps (itemStep r.readTerm gap) c terms d) : ∀ t ∈ terms, r.Bound t := by
  induction h with
  | nil c => simp
  | cons head _ _ ih =>
    obtain ⟨-, b, hb, -, -⟩ := itemStep_eq_some.1 head
    exact List.forall_mem_cons.2 ⟨(readTerm_bound hr hb).1, ih⟩

/-- **Every term of a text is bound.** -/
theorem parse_bound (hr : r.Keyed) {text : String} {terms : List Term} (h : r.parse text = .ok terms) :
    ∀ t ∈ terms, r.Bound t := by
  obtain ⟨d, hd, -⟩ := (readAll_eq_ok (readTerm_advances hr)).1 h
  exact steps_bound hr hd

end TermRegistry

end FieldSearch
