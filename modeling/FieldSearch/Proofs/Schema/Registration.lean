/-
What a valid schema registers.

- `Fresh`: names that can still be registered where some keys are taken. `checkNames_ok`: these are the names that pass the
  check of a schema.
- `indexContext_eq`, `termRegistry_eq`: a valid schema builds its index context and its terms. Both hold one entry for each
  field, under the key of its name and in the order of the fields.
-/
import FieldSearch.Proofs.Registry
import FieldSearch.Schema.Basic

namespace FieldSearch

/-! ## Names that can be registered -/

/-- names that can be registered where keys are taken -/
structure Fresh (keys names : List String) : Prop where
  identifier : ∀ n ∈ names, isIdentifier n = true
  apart : ∀ n ∈ names, nameKey n ∉ keys
  distinct : (names.map nameKey).Nodup

theorem fresh_cons {keys names : List String} {name : String} :
    Fresh keys (name :: names) ↔ isIdentifier name = true ∧ nameKey name ∉ keys ∧ Fresh (keys ++ [nameKey name]) names := by
  constructor
  · intro h
    obtain ⟨hid, hids⟩ := List.forall_mem_cons.1 h.identifier
    obtain ⟨hkey, hkeys⟩ := List.forall_mem_cons.1 h.apart
    obtain ⟨hno, hdistinct⟩ := List.nodup_cons.1 h.distinct
    refine ⟨hid, hkey, hids, fun n hn hmem => ?_, hdistinct⟩
    rcases List.mem_append.1 hmem with hmem | hmem
    · exact hkeys n hn hmem
    · exact hno (List.mem_map.2 ⟨n, hn, List.mem_singleton.1 hmem⟩)
  · rintro ⟨hid, hkey, h⟩
    refine ⟨List.forall_mem_cons.2 ⟨hid, h.identifier⟩, List.forall_mem_cons.2 ⟨hkey, fun n hn hmem => ?_⟩, ?_⟩
    · exact h.apart n hn (List.mem_append_left _ hmem)
    · refine List.nodup_cons.2 ⟨fun hmem => ?_, h.distinct⟩
      obtain ⟨n, hn, heq⟩ := List.mem_map.1 hmem
      exact h.apart n hn (List.mem_append_right _ (List.mem_singleton.2 heq))

/-- only which keys are taken matters -/
theorem Fresh.congr {keys keys' names : List String} (h : Fresh keys names) (hkeys : ∀ k, k ∈ keys' ↔ k ∈ keys) :
    Fresh keys' names :=
  ⟨h.identifier, fun n hn hmem => h.apart n hn ((hkeys _).1 hmem), h.distinct⟩

/-- a registry takes a fresh name -/
theorem Registry.add_fresh {α : Type} {r : Registry α} {name : String} {a : α} (hid : isIdentifier name = true)
    (hkey : nameKey name ∉ r.entries.map Prod.fst) : r.add name a = .ok ⟨r.entries ++ [(nameKey name, a)]⟩ := by
  refine add_eq_ok.2 ⟨hid, ?_, rfl⟩
  cases hget : r.get? name with
  | none => rfl
  | some b => exact absurd (List.mem_map.2 ⟨_, mem_of_lookup hget, rfl⟩) hkey

/-- fresh names are registered one after the other in a part of something -/
theorem Registry.foldlM_add {σ α β : Type} (name : β → String) (value : β → α) (get : σ → Registry α)
    (set : σ → Registry α → σ) (hget : ∀ s r, get (set s r) = r) (hset : ∀ s r r', set (set s r) r' = set s r')
    (hself : ∀ s, set s (get s) = s) {items : List β} {s : σ} (h : Fresh ((get s).entries.map Prod.fst) (items.map name)) :
    items.foldlM (fun s b => ((get s).add (name b) (value b)).map (set s)) s =
      .ok (set s ⟨(get s).entries ++ items.map fun b => (nameKey (name b), value b)⟩) := by
  induction items generalizing s with
  | nil =>
    rw [List.map_nil, List.append_nil]
    exact congrArg Except.ok (hself s).symm
  | cons b items ih =>
    obtain ⟨hid, hkey, hrest⟩ := fresh_cons.1 h
    have hadd : ((get s).add (name b) (value b)).map (set s) =
        .ok (set s ⟨(get s).entries ++ [(nameKey (name b), value b)]⟩) := by rw [add_fresh hid hkey]; rfl
    rw [List.foldlM_cons, bind_ok hadd, ih, hget, hset, List.append_assoc]
    · rfl
    · rw [hget, List.map_append]
      exact hrest

/-- what stands under a key, where everything stands under the key of its name -/
theorem Registry.lookup_map {α β : Type} (name : β → String) (value : β → α) (items : List β) (key : String) :
    lookup key (items.map fun b => (nameKey (name b), value b)) =
      (items.find? fun b => nameKey (name b) == key).map value := by
  induction items with
  | nil => rfl
  | cons b items ih =>
    rw [List.map_cons, lookup, List.find?_cons]
    by_cases hb : nameKey (name b) = key
    · rw [if_pos hb, beq_iff_eq.2 hb]
      rfl
    · rw [if_neg hb, beq_eq_false_iff_ne.2 hb]
      exact ih

/-- a list without repeated keys has one entry for each of its keys -/
theorem find?_of_nodup {α β : Type} [DecidableEq β] (key : α → β) {l : List α} (h : (l.map key).Nodup) {a : α}
    (ha : a ∈ l) : l.find? (fun b => key b == key a) = some a := by
  induction l with
  | nil => exact absurd ha List.not_mem_nil
  | cons b l ih =>
    obtain ⟨hb, hl⟩ := List.nodup_cons.1 h
    rcases List.mem_cons.1 ha with rfl | ha
    · exact List.find?_cons_of_pos (beq_self_eq_true _)
    · have hne : key b ≠ key a := by
        intro heq
        exact hb (heq ▸ List.mem_map_of_mem ha)
      rw [List.find?_cons_of_neg (by simp [hne])]
      exact ih hl ha

namespace Schema

theorem checkNames_ok {seen names : List String} (h : checkNames seen names = .ok ()) : Fresh seen names := by
  induction names generalizing seen with
  | nil => exact ⟨by simp, by simp, by simp⟩
  | cons name names ih =>
    rw [checkNames] at h
    split_ifs at h with hid hseen
    rw [Bool.not_eq_true', Bool.not_eq_false] at hid
    rw [List.contains_iff_mem] at hseen
    refine fresh_cons.2 ⟨hid, hseen, (ih h).congr fun k => ?_⟩
    simp [or_comm]

/-- what validation makes sure of -/
structure Valid (s : Schema) : Prop where
  fields : Fresh [] (s.fields.map (·.name))
  oneDefault : s.defaultNames.length ≤ 1
  sorts : Fresh [] (s.sorts.map (·.name))
  defaultSort : s.checkDefaultSort = .ok ()

theorem valid_of_validate {s : Schema} (h : s.validate = .ok ()) : s.Valid := by
  unfold validate at h
  obtain ⟨_, hfields, h⟩ := bind_eq_ok h
  split_ifs at h with hdefaults
  · cases h
  · obtain ⟨_, hsorts, h⟩ := bind_eq_ok h
    exact ⟨checkNames_ok hfields, not_lt.1 hdefaults, checkNames_ok hsorts, h⟩

/-! ## The index context -/

variable {Q : Type}

/-- the filter of a field -/
def fieldFilter (f : FieldDef) : FilterMap Q := ⟨f.path, f.kind, none⟩

theorem addFilters_eq {fields : List FieldDef} {ctx : IndexContext Q}
    (h : Fresh (ctx.filters.entries.map Prod.fst) (fields.map FieldDef.name)) :
    addFilters ctx fields = .ok { ctx with
      filters := ⟨ctx.filters.entries ++ fields.map fun f => (nameKey f.name, fieldFilter f)⟩ } :=
  Registry.foldlM_add FieldDef.name fieldFilter (fun ctx : IndexContext Q => ctx.filters)
    (fun ctx filters => { ctx with filters }) (fun _ _ => rfl) (fun _ _ _ => rfl) (fun _ => rfl) h

theorem addSorts_eq {sorts : List SortDef} {ctx : IndexContext Q}
    (h : Fresh (ctx.sorts.entries.map Prod.fst) (sorts.map SortDef.name)) :
    addSorts ctx sorts = .ok { ctx with
      sorts := ⟨ctx.sorts.entries ++ sorts.map fun d => (nameKey d.name, d.path)⟩ } :=
  Registry.foldlM_add SortDef.name SortDef.path (fun ctx : IndexContext Q => ctx.sorts)
    (fun ctx sorts => { ctx with sorts }) (fun _ _ => rfl) (fun _ _ _ => rfl) (fun _ => rfl) h

/-- the field of a name -/
def field? (s : Schema) (name : String) : Option FieldDef := s.fields.find? fun f => sameName f.name name

/-- a declared field is found by its name -/
theorem Valid.field?_name {s : Schema} (h : s.Valid) {f : FieldDef} (hf : f ∈ s.fields) : s.field? f.name = some f := by
  have hdistinct := h.fields.distinct
  rw [List.map_map] at hdistinct
  exact find?_of_nodup (nameKey ∘ FieldDef.name) hdistinct hf

theorem Valid.identifier {s : Schema} (h : s.Valid) {f : FieldDef} (hf : f ∈ s.fields) : isIdentifier f.name = true :=
  h.fields.identifier f.name (List.mem_map_of_mem hf)

/-- the context that a valid schema builds -/
def builtContext (s : Schema) : IndexContext Q where
  filters := ⟨s.fields.map fun f => (nameKey f.name, fieldFilter f)⟩
  defaultFilter := s.defaultField.map fun f => nameKey f.name
  sorts := ⟨s.sorts.map fun d => (nameKey d.name, d.path)⟩

/-- a name leads to the filter of its field -/
theorem builtContext_filter? (s : Schema) (name : String) :
    (s.builtContext (Q := Q)).filter? name = (s.field? name).map fieldFilter := by
  rw [IndexContext.filter?, Registry.get?, builtContext, Registry.lookup_map FieldDef.name fieldFilter]
  rfl

/-- and to the property of its sort -/
theorem builtContext_sort? (s : Schema) (name : String) :
    (s.builtContext (Q := Q)).sort? name = (s.sorts.find? fun d => sameName d.name name).map SortDef.path := by
  rw [IndexContext.sort?, Registry.get?, builtContext, Registry.lookup_map SortDef.name SortDef.path]
  rfl

/-- a valid schema builds its index context -/
theorem indexContext_eq {s : Schema} (h : s.Valid) : s.indexContext (Q := Q) = .ok s.builtContext := by
  have hfilters : addFilters (Q := Q) {} s.fields = .ok { filters := s.builtContext.filters } := addFilters_eq h.fields
  have hsorts : ∀ key, addSorts (Q := Q) { filters := s.builtContext.filters, defaultFilter := key } s.sorts =
      .ok { filters := s.builtContext.filters, defaultFilter := key, sorts := (s.builtContext (Q := Q)).sorts } :=
    fun key => addSorts_eq h.sorts
  rw [indexContext, hfilters]
  cases hd : s.defaultField with
  | none =>
    refine (hsorts none).trans ?_
    rw [builtContext, hd]
    rfl
  | some f =>
    have hhas : (s.builtContext (Q := Q)).filters.has f.name = true := by
      rw [Registry.has, ← IndexContext.filter?, builtContext_filter?, Option.isSome_map, field?, List.find?_isSome]
      exact ⟨f, List.mem_of_find?_eq_some hd, beq_self_eq_true _⟩
    have hset : IndexContext.setDefaultFilter (Q := Q) { filters := s.builtContext.filters } f.name =
        .ok { filters := s.builtContext.filters, defaultFilter := some (nameKey f.name) } := if_pos hhas
    refine (bind_ok hset _).trans ((hsorts _).trans ?_)
    rw [builtContext, hd]
    rfl

end Schema

/-! ## The registered terms -/

namespace TermRegistry

variable {Q : Type}

/-- terms that can be registered one after the other: one of them at most is the default term, and none where there is one -/
structure Registrable (r : TermRegistry Q) (terms : List (TermOption Q)) : Prop where
  fresh : Fresh (r.terms.entries.map Prod.fst) (terms.map (·.name))
  oneDefault : r.defaultKey.toList.length + (terms.filter (·.isDefault)).length ≤ 1

/-- terms that can be registered are, each under the key of its name -/
theorem foldlM_register {r : TermRegistry Q} {terms : List (TermOption Q)} (h : r.Registrable terms) :
    terms.foldlM register r = .ok {
      terms := ⟨r.terms.entries ++ terms.map fun t => (nameKey t.name, t)⟩
      defaultKey := r.defaultKey.or ((terms.find? (·.isDefault)).map fun t => nameKey t.name) } := by
  induction terms generalizing r with
  | nil =>
    rw [List.map_nil, List.append_nil, List.find?_nil, Option.map_none, Option.or_none]
    rfl
  | cons t terms ih =>
    obtain ⟨hid, hkey, hrest⟩ := fresh_cons.1 h.fresh
    have hadd := Registry.add_fresh (a := t) hid hkey
    have hkeys : Fresh ((r.terms.entries ++ [(nameKey t.name, t)]).map Prod.fst) (terms.map (·.name)) := by
      simpa only [List.map_append, List.map_cons, List.map_nil] using hrest
    have hone := h.oneDefault
    rw [List.foldlM_cons]
    cases hd : t.isDefault with
    | false =>
      rw [List.filter_cons_of_neg (by simp [hd])] at hone
      have hregister : r.register t =
          .ok { terms := ⟨r.terms.entries ++ [(nameKey t.name, t)]⟩, defaultKey := r.defaultKey } := by
        rw [register, hadd, nextDefault, hd]
        rfl
      have hnext : Registrable ⟨⟨r.terms.entries ++ [(nameKey t.name, t)]⟩, r.defaultKey⟩ terms := ⟨hkeys, hone⟩
      rw [bind_ok hregister, ih hnext, List.find?_cons, hd, List.map_cons, List.append_assoc]
      rfl
    | true =>
      rw [List.filter_cons, if_pos hd, List.length_cons] at hone
      have hnone : r.defaultKey = none := by
        cases hk : r.defaultKey with
        | none => rfl
        | some key =>
          rw [hk, Option.toList_some, List.length_singleton] at hone
          omega
      have hregister : r.register t =
          .ok { terms := ⟨r.terms.entries ++ [(nameKey t.name, t)]⟩, defaultKey := some (nameKey t.name) } := by
        rw [register, hadd, nextDefault, hd, hnone]
        rfl
      have hnext : Registrable ⟨⟨r.terms.entries ++ [(nameKey t.name, t)]⟩, some (nameKey t.name)⟩ terms := by
        refine ⟨hkeys, ?_⟩
        rw [Option.toList_some, List.length_singleton]
        omega
      rw [bind_ok hregister, ih hnext, List.find?_cons, hd, List.map_cons, List.append_assoc, hnone]
      rfl

end TermRegistry

namespace Schema

variable {Q : Type} [Query Q]

/-- the terms that a valid schema registers -/
def builtTerms (s : Schema) : TermRegistry Q where
  terms := ⟨s.fields.map fun f => (nameKey f.name, fieldTerm f)⟩
  defaultKey := s.defaultField.map fun f => nameKey f.name

/-- a name leads to the term of its field -/
theorem builtTerms_get? (s : Schema) (name : String) :
    (s.builtTerms (Q := Q)).get? name = (s.field? name).map fieldTerm := by
  rw [TermRegistry.get?, Registry.get?, builtTerms, Registry.lookup_map FieldDef.name fieldTerm]
  rfl

/-- the default term is that of the default field -/
theorem builtTerms_default? {s : Schema} (h : s.Valid) :
    (s.builtTerms (Q := Q)).default? = s.defaultField.map fieldTerm := by
  rw [TermRegistry.default?, builtTerms]
  cases hd : s.defaultField with
  | none => rfl
  | some f =>
    have hf : s.field? f.name = some f := h.field?_name (List.mem_of_find?_eq_some hd)
    have hterm := s.builtTerms_get? (Q := Q) f.name
    rw [hf] at hterm
    exact hterm

/-- a valid schema registers its terms -/
theorem termRegistry_eq {s : Schema} (h : s.Valid) : s.termRegistry (Q := Q) = .ok s.builtTerms := by
  have hname : (fun f : FieldDef => (fieldTerm (Q := Q) f).name) = fun f => f.name := rfl
  have hdefault : (fun f : FieldDef => (fieldTerm (Q := Q) f).isDefault) = fun f => f.isDefault := rfl
  have hregistrable : TermRegistry.Registrable (Q := Q) {} (s.fields.map fieldTerm) := by
    refine ⟨?_, ?_⟩
    · rw [List.map_map, Function.comp_def, hname]
      exact h.fields
    · have hone := h.oneDefault
      rw [defaultNames, List.length_map] at hone
      rw [List.filter_map, List.length_map, Function.comp_def, hdefault]
      simpa using hone
  refine (TermRegistry.foldlM_register hregistrable).trans ?_
  rw [List.map_map, List.find?_map, Function.comp_def, Function.comp_def, hdefault, Option.map_map, builtTerms]
  rfl

end Schema

end FieldSearch
