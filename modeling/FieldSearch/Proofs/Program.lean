/-
What programs over a store do.

- `on_bind` and the equations beside it run a program step by step.
- `change` makes a change of the store at once or not at all, so a program that amounts to it leaves its store as it was if it
  is refused. `on_change_cases`: all that a change can do. `within_change`: a change of a part is a change of the whole.
- `atKey?_insert`: a table that is written has the new entry under its key and the old ones elsewhere. `insert_fresh`: under
  a key that is not taken the entry goes behind the others. `addM_eq`: the steps of a registration amount to one change.
-/
import FieldSearch.Program
import FieldSearch.Proofs.Registry

namespace FieldSearch

namespace Program

variable {σ τ α β : Type}

/-! ## Running a program -/

@[simp] theorem on_get (s : σ) : (get : Program σ σ).on s = (.ok s, s) := rfl

@[simp] theorem on_lift (x : Except Error α) (s : σ) : (liftM x : Program σ α).on s = (x, s) := rfl

theorem on_bind (p : Program σ α) (f : α → Program σ β) (s : σ) :
    (p >>= f).on s =
      match p.on s with
      | (.ok a, s') => (f a).on s'
      | (.error e, s') => (.error e, s') := by
  change ExceptT.bindCont f (p.on s).1 (p.on s).2 = _
  rcases p.on s with ⟨⟨⟩, _⟩ <;> rfl

@[simp] theorem on_within (part : τ → σ) (replace : σ → τ → τ) (p : Program σ α) (t : τ) :
    (p.within part replace).on t = ((p.on (part t)).1, replace (p.after (part t)) t) := rfl

/-! ## Changes -/

/-- a change of the store, made at once or not at all -/
def change (f : σ → Except Error σ) : Program σ Unit :=
  ExceptT.mk fun s =>
    match f s with
    | .ok s' => (.ok (), s')
    | .error e => (.error e, s)

theorem on_change (f : σ → Except Error σ) (s : σ) :
    (change f).on s =
      match f s with
      | .ok s' => (.ok (), s')
      | .error e => (.error e, s) := rfl

/-- what a change asks for and leaves, if it is a part of another -/
theorem map_eq_ok_iff {ε : Type} {x : Except ε α} {g : α → β} {P : Prop} {a : α} (h : ∀ r, x = .ok r ↔ P ∧ r = a) (b : β) :
    x.map g = .ok b ↔ P ∧ b = g a := by
  constructor
  · intro hmap
    obtain ⟨r, hr, rfl⟩ := map_eq_ok hmap
    obtain ⟨hP, rfl⟩ := (h r).1 hr
    exact ⟨hP, rfl⟩
  · rintro ⟨hP, rfl⟩
    rw [(h a).2 ⟨hP, rfl⟩]
    rfl

/-- a change is made exactly if what it asks for holds, and then it leaves what it says -/
theorem on_change_cases {f : σ → Except Error σ} {s s' : σ} {P : Prop} (h : ∀ r, f s = .ok r ↔ P ∧ r = s') :
    P ∧ (change f).on s = (.ok (), s') ∨ ¬ P ∧ ∃ e, (change f).on s = (.error e, s) := by
  rw [on_change]
  cases hf : f s with
  | ok r =>
    obtain ⟨hP, rfl⟩ := (h r).1 hf
    exact Or.inl ⟨hP, rfl⟩
  | error e =>
    refine Or.inr ⟨fun hP => ?_, e, rfl⟩
    have hmade := (h s').2 ⟨hP, rfl⟩
    rw [hf] at hmade
    cases hmade

/-- programs that answer alike and leave the same are the same -/
theorem ext {p q : Program σ α} (h : ∀ s, p.on s = q.on s) : p = q := funext h

/-- a change of a part is a change of the whole -/
theorem within_change (f : σ → Except Error σ) {part : τ → σ} {replace : σ → τ → τ} (hsame : ∀ t, replace (part t) t = t) :
    (change f).within part replace = change fun t => (f (part t)).map fun s => replace s t := by
  refine ext fun t => ?_
  rw [on_within, after, on_change, on_change]
  cases f (part t) with
  | ok s => rfl
  | error e => rw [hsame]; rfl

end Program

/-! ## Tables -/

namespace Registry

variable {α : Type} {r : Registry α}

theorem lookup_put (key k : String) (a : α) (entries : List (String × α)) :
    lookup k (put key a entries) = if key = k then some a else lookup k entries := by
  induction entries with
  | nil => rfl
  | cons p rest ih =>
    obtain ⟨k', b⟩ := p
    rw [put]
    split_ifs with htaken hkey hkey
    · rw [lookup, if_pos hkey]
    · rw [lookup, lookup, if_neg hkey, if_neg (htaken ▸ hkey)]
    · rw [lookup, ih, if_pos hkey, if_neg (hkey ▸ htaken)]
    · rw [lookup, lookup, ih, if_neg hkey]

/-- a table that is written has the new entry under its key and the old ones elsewhere -/
theorem atKey?_insert (key k : String) (a : α) : (r.insert key a).atKey? k = if key = k then some a else r.atKey? k :=
  lookup_put key k a r.entries

theorem put_fresh {key : String} {entries : List (String × α)} (h : lookup key entries = none) (a : α) :
    put key a entries = entries ++ [(key, a)] := by
  induction entries with
  | nil => rfl
  | cons p rest ih =>
    obtain ⟨k, b⟩ := p
    rw [lookup] at h
    split_ifs at h with hk
    rw [put, if_neg hk, ih h, List.cons_append]

/-- under a key that is not taken an entry goes behind the others -/
theorem insert_fresh {key : String} (h : r.atKey? key = none) (a : α) : r.insert key a = ⟨r.entries ++ [(key, a)]⟩ := by
  rw [insert, put_fresh h]

theorem holds_eq_false {key : String} : r.holds key = false ↔ r.atKey? key = none := by
  rw [holds, Option.isSome_eq_false_iff, Option.isNone_iff_eq_none]

/-- a registration writes the table under the key of its name, if the key is not taken -/
theorem add_eq_insert (r : Registry α) (name : String) (a : α) :
    r.add name a =
      (keyOf name).bind fun key => if r.holds key then .error (.duplicateTerm name) else .ok (r.insert key a) := by
  have hhas : r.has name = r.holds (nameKey name) := rfl
  rw [add, keyOf, hhas]
  cases isIdentifier name with
  | false => rfl
  | true =>
    simp only [Bool.not_true, Bool.false_eq_true, if_false, Except.bind]
    cases hheld : r.holds (nameKey name) with
    | true => rfl
    | false => rw [insert_fresh (holds_eq_false.1 hheld)]

/-- the steps of a registration amount to one change -/
theorem addM_eq (name : String) (a : α) : addM name a = Program.change fun r => r.add name a := by
  refine Program.ext fun r => ?_
  rw [Program.on_change, addM, Program.on_bind, Program.on_lift, add_eq_insert]
  cases keyOf name with
  | error e => rfl
  | ok key =>
    simp only [Program.on_bind, Program.on_get, Except.bind]
    cases r.holds key <;> rfl

/-- the table after a registration -/
theorem add_eq_insert_ok {r' : Registry α} {name : String} {a : α} :
    r.add name a = .ok r' ↔
      isIdentifier name = true ∧ r.atKey? (nameKey name) = none ∧ r' = r.insert (nameKey name) a := by
  rw [add_eq_ok]
  refine and_congr_right fun _ => and_congr_right fun hfresh => ?_
  rw [insert_fresh hfresh]
  cases r'
  rw [mk.injEq]

end Registry

end FieldSearch
