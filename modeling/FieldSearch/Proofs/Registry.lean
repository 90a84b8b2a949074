/-
What registries keep.

- `bind_eq_ok`, `foldlM_keeps`: what a computation that was not refused tells of its parts and its steps.
- `nameKey_nameKey`: a key is its own key, so an entry is found under its key as under its name. `isIdentifier_nameKey`: the
  case of letters does not matter to identifiers.
- `add_eq_ok`, `lookup_append`: a registration puts one entry behind the others, under a key that none of them has; what
  was found before is found after it.
-/
import FieldSearch.Registry
import Mathlib.Tactic

namespace FieldSearch

/-- a computation with a part that may be refused succeeds if the part and the rest do -/
theorem bind_eq_ok {ε α β : Type} {x : Except ε α} {f : α → Except ε β} {b : β} (h : (x >>= f) = .ok b) :
    ∃ a, x = .ok a ∧ f a = .ok b := by
  cases x with
  | error e => cases h
  | ok a => exact ⟨a, rfl, h⟩

theorem bind_ok {ε α β : Type} {x : Except ε α} {a : α} (h : x = .ok a) (f : α → Except ε β) : (x >>= f) = f a := by
  rw [h]
  rfl

theorem map_eq_ok {ε α β : Type} {x : Except ε α} {f : α → β} {b : β} (h : x.map f = .ok b) :
    ∃ a, x = .ok a ∧ f a = b := by
  cases x with
  | error e => cases h
  | ok a => exact ⟨a, rfl, Except.ok.inj h⟩

/-- what every step of a run keeps, the run keeps, if no step is refused -/
theorem foldlM_keeps {ε σ β : Type} {step : σ → β → Except ε σ} {P : σ → Prop}
    (hstep : ∀ s b s', P s → step s b = .ok s' → P s') {items : List β} {s s' : σ} (hs : P s)
    (h : items.foldlM step s = .ok s') : P s' := by
  induction items generalizing s with
  | nil => exact Except.ok.inj h ▸ hs
  | cons b items ih =>
    rw [List.foldlM_cons] at h
    obtain ⟨next, hnext, h⟩ := bind_eq_ok h
    exact ih (hstep s b next hs hnext) h

/-- a letter that was lowered is no capital -/
theorem toLower_toLower (c : Char) : c.toLower.toLower = c.toLower := by
  unfold Char.toLower
  split
  · split
    · grind
    · rfl
  · rfl

@[simp] theorem nameKey_nameKey (name : String) : nameKey (nameKey name) = nameKey name := by
  simp only [nameKey, String.toList_ofList, List.map_map, Function.comp_def, toLower_toLower]

theorem isIdentifierStart_toLower (c : Char) : isIdentifierStart c.toLower = isIdentifierStart c := by
  unfold isIdentifierStart Char.isAlpha Char.isUpper Char.isLower Char.toLower
  split
  · grind
  · rfl

theorem isIdentifierChar_toLower (c : Char) : isIdentifierChar c.toLower = isIdentifierChar c := by
  unfold isIdentifierChar Char.isAlphanum Char.isAlpha Char.isUpper Char.isLower Char.isDigit Char.toLower
  split
  · grind
  · rfl

/-- a key is an identifier if its name is -/
theorem isIdentifier_nameKey (name : String) : isIdentifier (nameKey name) = isIdentifier name := by
  unfold isIdentifier
  rw [nameKey, String.toList_ofList]
  cases name.toList with
  | nil => rfl
  | cons c cs =>
    simp only [List.map_cons, List.all_map, Function.comp_def, isIdentifierStart_toLower, isIdentifierChar_toLower]

namespace Registry

variable {α : Type}

theorem mem_of_lookup {key : String} {a : α} {entries : List (String × α)} (h : lookup key entries = some a) :
    (key, a) ∈ entries := by
  induction entries with
  | nil => simp [lookup] at h
  | cons p rest ih =>
    obtain ⟨k, b⟩ := p
    rw [lookup] at h
    split_ifs at h with hk
    · rw [Option.some.injEq] at h
      subst hk h
      exact List.mem_cons_self
    · exact List.mem_cons_of_mem _ (ih h)

theorem lookup_append (key : String) (l r : List (String × α)) :
    lookup key (l ++ r) = (lookup key l).or (lookup key r) := by
  induction l with
  | nil => rfl
  | cons p l ih =>
    obtain ⟨k, b⟩ := p
    rw [List.cons_append, lookup, lookup]
    split_ifs
    · rfl
    · exact ih

/-- a registration puts one entry behind the others, under a key that none of them has -/
theorem add_eq_ok {r r' : Registry α} {name : String} {a : α} :
    r.add name a = .ok r' ↔
      isIdentifier name = true ∧ r.get? name = none ∧ r'.entries = r.entries ++ [(nameKey name, a)] := by
  rw [add]
  split_ifs with hid hhas
  · simp only [Bool.not_eq_true'] at hid
    simp [hid]
  · simp only [has, Option.isSome_iff_ne_none] at hhas
    simp [hhas]
  · simp only [Bool.not_eq_true', Bool.not_eq_false] at hid
    simp only [has, Bool.not_eq_true, Option.isSome_eq_false_iff, Option.isNone_iff_eq_none] at hhas
    simp only [Except.ok.injEq, hid, hhas, true_and]
    exact ⟨fun h => h ▸ rfl, fun h => by cases r'; rw [← h]⟩

/-- what was found is found after a registration too -/
theorem get?_of_add {r r' : Registry α} {name other : String} {a b : α} (h : r.add name a = .ok r')
    (hb : r.get? other = some b) : r'.get? other = some b := by
  obtain ⟨-, -, hentries⟩ := add_eq_ok.1 h
  rw [get?, hentries, lookup_append, ← get?, hb]
  rfl

end Registry

end FieldSearch
