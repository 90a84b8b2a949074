/-
What registrations keep of the store of terms.

- `registry`: the store without its order. The steps of a registration amount to one change (`registerM_eq`), which is made
  if the registry takes the term; a refused one leaves the store as it was. `on_registerM` says all that it can do.
- `Sound`: the order lists the registered keys once each, every term stands under the key of its name, and the default key is
  set exactly to the key of a default term. `registerM_keeps` is the step and `registerAll_keeps` the run.
- `accepted`: the terms of a run that were not refused. The store lists them in their order (`registerAll_keeps`), and they
  build its registry (`foldlM_accepted`).
-/
import FieldSearch.Proofs.Program
import FieldSearch.Term.Store

namespace FieldSearch

namespace TermStore

variable {Q : Type} {store : TermStore Q}

/-! ## One registration -/

/-- the store without its order -/
def registry (store : TermStore Q) : TermRegistry Q := ⟨store.options, store.defaultKey⟩

/-- the store with a term more -/
def adding (store : TermStore Q) (t : TermOption Q) : TermStore Q where
  options := store.options.insert (nameKey t.name) t
  order := store.order ++ [nameKey t.name]
  defaultKey := if t.isDefault then some (nameKey t.name) else store.defaultKey

/-- the steps of a registration amount to one change, which is made if the registry takes the term -/
theorem registerM_eq (t : TermOption Q) :
    registerM t = Program.change fun store => (store.registry.register t).map fun _ => store.adding t := by
  refine Program.ext fun store => ?_
  rw [Program.on_change, registerM, Program.on_bind, Program.on_lift, Registry.keyOf, TermRegistry.register, Registry.add]
  cases isIdentifier t.name with
  | false => rfl
  | true =>
    have hhas : store.registry.terms.has t.name = store.options.holds (nameKey t.name) := rfl
    simp only [Bool.not_true, Bool.false_eq_true, if_false, Program.on_bind, Program.on_get, hhas]
    cases store.options.holds (nameKey t.name) with
    | true => rfl
    | false =>
      simp only [TermRegistry.nextDefault, adding]
      cases t.isDefault with
      | false => rfl
      | true =>
        simp only [Bool.false_eq_true, if_false, if_true, Program.on_bind, Program.on_get, registry]
        cases store.defaultKey <;> rfl

/-- what the registry asks of a term -/
structure Fits (store : TermStore Q) (t : TermOption Q) : Prop where
  identifier : isIdentifier t.name = true
  fresh : store.options.atKey? (nameKey t.name) = none
  single : t.isDefault = true → store.defaultKey = none

/-- a default term is refused beside another one -/
theorem nextDefault_eq_ok {r : TermRegistry Q} {t : TermOption Q} {defaultKey : Option String} :
    r.nextDefault t = .ok defaultKey ↔
      (t.isDefault = true → r.defaultKey = none) ∧
        defaultKey = if t.isDefault then some (nameKey t.name) else r.defaultKey := by
  rw [TermRegistry.nextDefault]
  cases t.isDefault with
  | false => simp [eq_comm]
  | true => cases r.defaultKey <;> simp [eq_comm]

/-- the registry takes a term exactly if it fits, and then it is the registry of the store with this term -/
theorem register_eq_ok {t : TermOption Q} {r : TermRegistry Q} :
    store.registry.register t = .ok r ↔ store.Fits t ∧ r = (store.adding t).registry := by
  constructor
  · intro h
    obtain ⟨terms, hadd, h⟩ := bind_eq_ok h
    obtain ⟨defaultKey, hdefault, h⟩ := bind_eq_ok h
    obtain ⟨hsingle, rfl⟩ := nextDefault_eq_ok.1 hdefault
    obtain ⟨hid, hfresh, rfl⟩ := Registry.add_eq_insert_ok.1 hadd
    cases h
    exact ⟨⟨hid, hfresh, hsingle⟩, rfl⟩
  · rintro ⟨⟨hid, hfresh, hsingle⟩, rfl⟩
    have hadd : store.registry.terms.add t.name t = .ok (store.adding t).options :=
      Registry.add_eq_insert_ok.2 ⟨hid, hfresh, rfl⟩
    rw [TermRegistry.register, bind_ok hadd, bind_ok (nextDefault_eq_ok.2 ⟨hsingle, rfl⟩)]
    rfl

/-- **All that a registration can do**: a term that fits is added, any other is refused, and the store stays. -/
theorem on_registerM (t : TermOption Q) (store : TermStore Q) :
    store.Fits t ∧ (registerM t).on store = (.ok (), store.adding t) ∨
      ¬ store.Fits t ∧ ∃ e, (registerM t).on store = (.error e, store) := by
  rw [registerM_eq]
  exact Program.on_change_cases (Program.map_eq_ok_iff fun _ => register_eq_ok)

/-! ## What registrations keep -/

/-- the term under a key is a default term -/
def DefaultAt (store : TermStore Q) (key : String) : Prop :=
  ∃ t, store.options.atKey? key = some t ∧ t.isDefault = true

/-- what holds of a store of terms at any time -/
structure Sound (store : TermStore Q) : Prop where
  /-- no key is listed twice -/
  distinct : store.order.Nodup
  /-- the order lists the registered keys -/
  listed : ∀ key, key ∈ store.order ↔ store.options.holds key = true
  /-- every term stands under the key of its name -/
  keyed : ∀ key t, store.options.atKey? key = some t → key = nameKey t.name ∧ isIdentifier t.name = true
  /-- the default key is the key of the default term -/
  default : ∀ key, store.defaultKey = some key ↔ store.DefaultAt key
  /-- the table holds no terms but those that are listed -/
  table : store.registry.toList = store.toList

theorem sound_empty : ({} : TermStore Q).Sound where
  distinct := List.nodup_nil
  listed _ := by simp [Registry.holds, Registry.atKey?, Registry.lookup]
  keyed _ _ h := by cases h
  default _ := by simp [DefaultAt, Registry.atKey?, Registry.lookup]
  table := rfl

/-- the table of a store with a term more -/
theorem atKey?_adding (t : TermOption Q) (key : String) :
    (store.adding t).options.atKey? key = if nameKey t.name = key then some t else store.options.atKey? key :=
  Registry.atKey?_insert ..

theorem not_mem_order (h : store.Sound) {t : TermOption Q} (ht : store.Fits t) : nameKey t.name ∉ store.order := by
  rw [h.listed, Registry.holds, ht.fresh]
  exact Bool.false_ne_true

/-- the terms of a store with a term more -/
theorem toList_adding (h : store.Sound) {t : TermOption Q} (ht : store.Fits t) :
    (store.adding t).toList = store.toList ++ [t] := by
  have hsame : ∀ key ∈ store.order, (store.adding t).options.atKey? key = store.options.atKey? key := by
    intro key hkey
    rw [atKey?_adding, if_neg]
    rintro rfl
    exact not_mem_order h ht hkey
  calc (store.adding t).toList
      = store.order.filterMap (store.adding t).options.atKey? ++
          [nameKey t.name].filterMap (store.adding t).options.atKey? := List.filterMap_append
    _ = store.toList ++ [t] := by
        rw [List.filterMap_congr hsame, List.filterMap_cons, atKey?_adding, if_pos rfl]
        rfl

theorem defaultAt_adding {t : TermOption Q} (ht : store.Fits t) (key : String) :
    (store.adding t).DefaultAt key ↔ nameKey t.name = key ∧ t.isDefault = true ∨ store.DefaultAt key := by
  rw [DefaultAt, atKey?_adding, DefaultAt]
  by_cases hkey : nameKey t.name = key
  · simp [← hkey, ht.fresh]
  · simp [hkey]

/-- one registration keeps a store sound -/
theorem sound_adding (h : store.Sound) {t : TermOption Q} (ht : store.Fits t) : (store.adding t).Sound where
  distinct := by
    rw [adding, ← List.concat_eq_append]
    exact (List.nodup_concat _ _).2 ⟨not_mem_order h ht, h.distinct⟩
  listed key := by
    rw [Registry.holds, atKey?_adding, adding, List.mem_append, List.mem_singleton, h.listed]
    split_ifs with hkey
    · simp [hkey]
    · simp [Registry.holds, Ne.symm hkey]
  keyed key u hu := by
    rw [atKey?_adding] at hu
    split_ifs at hu with hkey
    · cases hu
      exact ⟨hkey.symm, ht.identifier⟩
    · exact h.keyed key u hu
  default key := by
    rw [defaultAt_adding ht, ← h.default, adding]
    cases hdefault : t.isDefault with
    | false => simp
    | true => simp [ht.single hdefault]
  table := by
    rw [toList_adding h ht, ← h.table, TermRegistry.toList, registry, adding, Registry.insert_fresh ht.fresh,
      List.map_append]
    rfl

/-- the terms are listed once each, by the order of their keys -/
theorem Sound.keys_toList (h : store.Sound) : store.toList.map (fun t => nameKey t.name) = store.order := by
  have hkeys : ∀ key ∈ store.order, (store.options.atKey? key).map (fun t => nameKey t.name) = some key := by
    intro key hkey
    obtain ⟨t, ht⟩ := Option.isSome_iff_exists.1 ((h.listed key).1 hkey)
    rw [ht, Option.map_some, ← (h.keyed key t ht).1]
  rw [toList, List.map_filterMap, List.filterMap_congr hkeys, List.filterMap_some]

theorem Sound.mem_toList (h : store.Sound) {t : TermOption Q} :
    t ∈ store.toList ↔ store.options.atKey? (nameKey t.name) = some t := by
  rw [toList, List.mem_filterMap]
  constructor
  · rintro ⟨key, -, ht⟩
    rwa [← (h.keyed key t ht).1]
  · intro ht
    exact ⟨_, (h.listed _).2 (Option.isSome_iff_exists.2 ⟨t, ht⟩), ht⟩

/-- the default key is set exactly if one term and no other is a default term -/
theorem Sound.default_unique (h : store.Sound) : store.defaultKey.isSome = true ↔ ∃! key, store.DefaultAt key := by
  simp only [← h.default]
  rw [Option.isSome_iff_exists]
  exact ⟨fun ⟨key, hkey⟩ => ⟨key, hkey, fun other hother => Option.some.inj (hother.symm.trans hkey)⟩,
    fun ⟨key, hkey, _⟩ => ⟨key, hkey⟩⟩

/-- what is registered stays as it is -/
structure KeptIn (store later : TermStore Q) : Prop where
  options : ∀ key t, store.options.atKey? key = some t → later.options.atKey? key = some t
  default : ∀ key, store.defaultKey = some key → later.defaultKey = some key

theorem KeptIn.refl (store : TermStore Q) : store.KeptIn store := ⟨fun _ _ h => h, fun _ h => h⟩

theorem KeptIn.trans {s₁ s₂ s₃ : TermStore Q} (h₁ : s₁.KeptIn s₂) (h₂ : s₂.KeptIn s₃) : s₁.KeptIn s₃ where
  options key t h := h₂.options key t (h₁.options key t h)
  default key h := h₂.default key (h₁.default key h)

theorem keptIn_adding {t : TermOption Q} (ht : store.Fits t) : store.KeptIn (store.adding t) where
  options key u hu := by
    rw [atKey?_adding]
    split_ifs with hkey
    · rw [← hkey, ht.fresh] at hu
      cases hu
    · exact hu
  default key hkey := by
    rw [adding]
    split_ifs with hdefault
    · rw [ht.single hdefault] at hkey
      cases hkey
    · exact hkey

/-! ## Runs -/

/-- the terms of a run that are not refused -/
def accepted : List (TermOption Q) → TermStore Q → List (TermOption Q)
  | [], _ => []
  | t :: rest, store =>
    match (registerM t).on store with
    | (.ok _, next) => t :: accepted rest next
    | (.error _, next) => accepted rest next

/-- what a registration does to a store that is sound, and to what it lists -/
theorem registerM_keeps (h : store.Sound) (t : TermOption Q) :
    ((registerM t).after store).Sound ∧ store.KeptIn ((registerM t).after store) ∧
      ∀ rest, ((registerM t).after store).toList ++ accepted rest ((registerM t).after store) =
        store.toList ++ accepted (t :: rest) store := by
  rcases on_registerM t store with ⟨ht, hon⟩ | ⟨-, e, hon⟩
  · rw [Program.after, hon]
    refine ⟨sound_adding h ht, keptIn_adding ht, fun rest => ?_⟩
    rw [accepted, hon, toList_adding h ht, List.append_assoc]
    rfl
  · rw [Program.after, hon]
    refine ⟨h, KeptIn.refl store, fun rest => ?_⟩
    rw [accepted, hon]

/-- what a run of registrations does -/
theorem registerAll_keeps (h : store.Sound) (terms : List (TermOption Q)) :
    (registerAll terms store).Sound ∧ store.KeptIn (registerAll terms store) ∧
      (registerAll terms store).toList = store.toList ++ accepted terms store := by
  induction terms generalizing store with
  | nil => exact ⟨h, KeptIn.refl store, (List.append_nil _).symm⟩
  | cons t rest ih =>
    obtain ⟨hsound, hkept, hlist⟩ := registerM_keeps h t
    obtain ⟨hsound', hkept', hlist'⟩ := ih hsound
    exact ⟨hsound', hkept.trans hkept', hlist'.trans (hlist rest)⟩

/-- a run leaves the registry that its accepted terms build -/
theorem foldlM_accepted (terms : List (TermOption Q)) (store : TermStore Q) :
    (accepted terms store).foldlM TermRegistry.register store.registry = .ok (registerAll terms store).registry := by
  induction terms generalizing store with
  | nil => rfl
  | cons t rest ih =>
    change _ = Except.ok (registerAll rest ((registerM t).after store)).registry
    rcases on_registerM t store with ⟨ht, hon⟩ | ⟨-, e, hon⟩
    · rw [accepted, Program.after, hon, List.foldlM_cons, bind_ok (register_eq_ok.2 ⟨ht, rfl⟩)]
      exact ih (store.adding t)
    · rw [accepted, Program.after, hon]
      exact ih store

end TermStore

end FieldSearch
