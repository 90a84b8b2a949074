/-
Validation finds exactly what the two compilers of a schema need.

- `validate_iff_valid`: a schema passes validation exactly if its names are fresh, one field at most is the default one, and
  its default sort is declared.
- `Registry.fresh_of_foldlM`, `registrable_of_foldlM`, `sorts_of_indexContext`: what was registered without a refusal could
  be registered. The terms tell it of the fields, the index context of the sorts.
- `applyDefaultSort_iff`: the default sort is put into a list exactly if it is declared, whatever the list.
- `Registers`: the terms and filters of a schema are its fields, each under its name in any case, and both compilers have
  the same default field.
- `validate_iff_built`: a schema is valid exactly if its compilers can be built and its default sort can be applied.
-/
import FieldSearch.Proofs.Schema.Registration
import FieldSearch.Query.Trace

namespace FieldSearch

/-! ## What registrations tell of names -/

namespace Registry

variable {α σ β : Type}

theorem lookup_eq_none_iff {key : String} {entries : List (String × α)} :
    lookup key entries = none ↔ key ∉ entries.map Prod.fst := by
  induction entries with
  | nil => simp [lookup]
  | cons p rest ih =>
    obtain ⟨k, a⟩ := p
    rw [lookup, List.map_cons, List.mem_cons, not_or]
    split_ifs with hk
    · simp [hk]
    · rw [ih, eq_comm (a := key)]
      exact (and_iff_right hk).symm

/-- names that were registered one after the other, in a part of something, were fresh -/
theorem fresh_of_foldlM (name : β → String) (get : σ → Registry α) {step : σ → β → Except Error σ}
    (hstep : ∀ s b s', step s b = .ok s' → ∃ a, (get s).add (name b) a = .ok (get s')) {items : List β} {s s' : σ}
    (h : items.foldlM step s = .ok s') : Fresh ((get s).entries.map Prod.fst) (items.map name) := by
  induction items generalizing s with
  | nil => exact ⟨by simp, by simp, by simp⟩
  | cons b items ih =>
    rw [List.foldlM_cons] at h
    obtain ⟨next, hnext, h⟩ := bind_eq_ok h
    obtain ⟨a, hadd⟩ := hstep s b next hnext
    obtain ⟨hid, hfree, hentries⟩ := add_eq_ok.1 hadd
    have hrest := ih h
    rw [hentries, List.map_append] at hrest
    exact fresh_cons.2 ⟨hid, lookup_eq_none_iff.1 hfree, hrest⟩

end Registry

namespace TermRegistry

variable {Q : Type} {r r' : TermRegistry Q} {terms : List (TermOption Q)}

/-- a registration adds the term, and counts it if it is a default term -/
theorem register_adds {t : TermOption Q} (h : r.register t = .ok r') :
    r.terms.add t.name t = .ok r'.terms ∧
      r'.defaultKey.toList.length = r.defaultKey.toList.length + ([t].filter (·.isDefault)).length := by
  obtain ⟨added, hadd, h⟩ := bind_eq_ok h
  obtain ⟨key, hkey, h⟩ := bind_eq_ok h
  cases h
  refine ⟨hadd, ?_⟩
  unfold nextDefault at hkey
  cases hd : t.isDefault with
  | false =>
    simp only [hd, Bool.not_false, if_true, Except.ok.injEq] at hkey
    simp [hd, hkey]
  | true =>
    cases hr : r.defaultKey with
    | some existing => simp [hd, hr] at hkey
    | none =>
      simp only [hd, hr, Bool.not_true, Bool.false_eq_true, if_false, Except.ok.injEq] at hkey
      simp [hd, ← hkey]

theorem defaultKey_of_foldlM (h : terms.foldlM register r = .ok r') :
    r'.defaultKey.toList.length = r.defaultKey.toList.length + (terms.filter (·.isDefault)).length := by
  induction terms generalizing r with
  | nil =>
    cases h
    rfl
  | cons t terms ih =>
    rw [List.foldlM_cons] at h
    obtain ⟨next, hnext, h⟩ := bind_eq_ok h
    rw [ih h, (register_adds hnext).2, Nat.add_assoc, ← List.length_append, ← List.filter_append]
    rfl

/-- terms that were registered one after the other could be registered -/
theorem registrable_of_foldlM (h : terms.foldlM register r = .ok r') : r.Registrable terms := by
  refine ⟨Registry.fresh_of_foldlM TermOption.name TermRegistry.terms ?_ h, ?_⟩
  · exact fun s t s' hregister => ⟨t, (register_adds hregister).1⟩
  · rw [← defaultKey_of_foldlM h]
    cases r'.defaultKey <;> simp

end TermRegistry

namespace Schema

variable {s : Schema}

/-! ## What validation finds -/

theorem checkNames_of_fresh {seen names : List String} (h : Fresh seen names) : checkNames seen names = .ok () := by
  induction names generalizing seen with
  | nil => rfl
  | cons name names ih =>
    obtain ⟨hid, hkey, hrest⟩ := fresh_cons.1 h
    have hseen : seen.contains (nameKey name) = false := by
      rw [Bool.eq_false_iff]
      exact fun hmem => hkey (List.contains_iff_mem.1 hmem)
    rw [checkNames, hid, hseen]
    exact ih (hrest.congr fun k => by simp [or_comm])

theorem validate_iff_valid : s.validate = .ok () ↔ s.Valid := by
  refine ⟨valid_of_validate, fun h => ?_⟩
  rw [validate, bind_ok (checkNames_of_fresh h.fields), if_neg (not_lt.2 h.oneDefault)]
  refine (bind_ok rfl _).trans ((bind_ok (checkNames_of_fresh h.sorts) _).trans h.defaultSort)

/-! ## What the compilers need -/

variable {Q : Type}

/-- the terms of a schema can be registered only if its fields are fresh and one at most is the default one -/
theorem fields_of_termRegistry [Query Q] {r : TermRegistry Q} (h : s.termRegistry = .ok r) :
    Fresh [] (s.fields.map (·.name)) ∧ s.defaultNames.length ≤ 1 := by
  have hregistrable := TermRegistry.registrable_of_foldlM h
  have hfresh := hregistrable.fresh
  have hone := hregistrable.oneDefault
  rw [List.map_map] at hfresh
  rw [List.filter_map, List.length_map] at hone
  refine ⟨hfresh, ?_⟩
  rw [defaultNames, List.length_map]
  exact (Nat.le_add_left _ _).trans hone

/-- filters and the default filter come before the sorts and leave them alone -/
theorem addSorts_of_indexContext {ctx : IndexContext Q} (h : s.indexContext = .ok ctx) :
    ∃ started : IndexContext Q, started.sorts = {} ∧ addSorts started s.sorts = .ok ctx := by
  unfold indexContext at h
  obtain ⟨filtered, hfiltered, h⟩ := bind_eq_ok h
  have hnone : filtered.sorts = {} := by
    refine foldlM_keeps (P := fun c : IndexContext Q => c.sorts = {}) (fun c f c' hc hadd => ?_) rfl hfiltered
    obtain ⟨filters, -, rfl⟩ := map_eq_ok hadd
    exact hc
  cases hd : s.defaultField with
  | none =>
    rw [hd] at h
    exact ⟨filtered, hnone, h⟩
  | some f =>
    rw [hd] at h
    obtain ⟨started, hstarted, h⟩ := bind_eq_ok h
    refine ⟨started, ?_, h⟩
    unfold IndexContext.setDefaultFilter at hstarted
    split at hstarted
    · cases hstarted
    · split_ifs at hstarted
      cases hstarted
      exact hnone

/-- an index context can be built only if the sorts are fresh, and then it has them under their names -/
theorem sorts_of_indexContext {ctx : IndexContext Q} (h : s.indexContext = .ok ctx) :
    Fresh [] (s.sorts.map (·.name)) ∧ ctx.sorts = (s.builtContext (Q := Q)).sorts := by
  obtain ⟨started, hempty, hsorts⟩ := addSorts_of_indexContext h
  have hfresh : Fresh (started.sorts.entries.map Prod.fst) (s.sorts.map SortDef.name) := by
    refine Registry.fresh_of_foldlM SortDef.name (fun c : IndexContext Q => c.sorts) (fun c d c' hadd => ?_) hsorts
    obtain ⟨sorts, hadded, rfl⟩ := map_eq_ok hadd
    exact ⟨d.path, hadded⟩
  have hbuilt := hsorts.symm.trans (addSorts_eq hfresh)
  cases hbuilt
  rw [hempty] at hfresh ⊢
  exact ⟨hfresh, rfl⟩

/-- the default sort is put into a list exactly if it is declared -/
theorem applyDefaultSort_iff {ctx : IndexContext Q} (hctx : ctx.sorts = (s.builtContext (Q := Q)).sorts) (list : StatementList) :
    (∃ sorted, s.applyDefaultSort ctx list = .ok sorted) ↔ s.checkDefaultSort = .ok () := by
  rw [applyDefaultSort, checkDefaultSort]
  cases s.defaultSort with
  | none => simp
  | some sort =>
    have hdeclared : (ctx.sort? sort.field).isNone = !s.sorts.any fun declared => sameName declared.name sort.field := by
      rw [IndexContext.sort?, hctx, ← IndexContext.sort?, builtContext_sort?, Option.isNone_map, ← Option.not_isSome,
        List.isSome_find?]
    simp only [IndexContext.setDefaultSort, hdeclared]
    cases s.sorts.any fun declared => sameName declared.name sort.field <;> simp

variable [Query Q]

/-- a schema whose compilers can be built, and whose default sort can be put into some list, is valid -/
theorem valid_of_built {r : TermRegistry Q} {ctx : IndexContext Q} {list sorted : StatementList}
    (hr : s.termRegistry = .ok r) (hctx : s.indexContext = .ok ctx) (hsort : s.applyDefaultSort ctx list = .ok sorted) :
    s.Valid := by
  obtain ⟨hfields, hone⟩ := fields_of_termRegistry hr
  obtain ⟨hsorts, heq⟩ := sorts_of_indexContext hctx
  exact ⟨hfields, hone, hsorts, (applyDefaultSort_iff heq list).1 ⟨sorted, hsort⟩⟩

/-! ## What both compilers know -/

/-- the term of a field: it takes as many values as the field, and each narrows a query by the property and the kind of the
field -/
structure TermOf (f : FieldDef) (t : TermOption Q) : Prop where
  name : t.name = f.name
  isDefault : t.isDefault = f.isDefault
  condition : t.builders.condition = f.condition
  matching : ∀ context value, t.builders.matching context value = Query.filter (.matching f.path f.kind value)
  notMatching : t.builders.notMatching? =
    if f.condition = .many then some fun _ value => Query.filter (.notMatching f.path f.kind value) else none

/-- terms and filters that are exactly the fields of a schema, each under its name in any case -/
structure Registers (s : Schema) (r : TermRegistry Q) (ctx : IndexContext Q) : Prop where
  terms : r.terms.entries.map Prod.fst = s.fields.map fun f => nameKey f.name
  filters : ctx.filters.entries.map Prod.fst = s.fields.map fun f => nameKey f.name
  declared : ∀ f ∈ s.fields, ∀ name, sameName f.name name = true →
    (∃ t, r.get? name = some t ∧ TermOf f t) ∧ ctx.filter? name = some ⟨f.path, f.kind, none⟩
  undeclared : ∀ name, (∀ f ∈ s.fields, sameName f.name name = false) → r.get? name = none ∧ ctx.filter? name = none
  /-- the default term and the default filter are the same field, or there is neither -/
  defaults : (∃ f ∈ s.fields, f.isDefault = true ∧ (∃ t, r.default? = some t ∧ TermOf f t) ∧
      ctx.defaultFilter = some (nameKey f.name)) ∨
    (∀ f ∈ s.fields, f.isDefault = false) ∧ r.default? = none ∧ ctx.defaultFilter = none

theorem termOf_fieldTerm (f : FieldDef) : TermOf (Q := Q) f (fieldTerm f) := by
  obtain ⟨name, property, kind, condition, isDefault⟩ := f
  cases condition <;> exact ⟨rfl, rfl, rfl, fun _ _ => rfl, rfl⟩

/-- a name in any case leads to its field -/
theorem Valid.field?_sameName (h : s.Valid) {f : FieldDef} (hf : f ∈ s.fields) {name : String}
    (hname : sameName f.name name = true) : s.field? name = some f := by
  have hkey : nameKey f.name = nameKey name := beq_iff_eq.1 hname
  rw [← h.field?_name hf, field?, field?]
  simp only [sameName, hkey]

/-- the compilers of a valid schema know its fields -/
theorem registers_built (h : s.Valid) : s.Registers (Q := Q) s.builtTerms s.builtContext where
  terms := by rw [builtTerms, List.map_map]; rfl
  filters := by rw [builtContext, List.map_map]; rfl
  declared f hf name hname := by
    have hfield := h.field?_sameName hf hname
    rw [builtTerms_get?, builtContext_filter?, hfield]
    exact ⟨⟨fieldTerm f, rfl, termOf_fieldTerm f⟩, rfl⟩
  undeclared name hname := by
    have hfield : s.field? name = none := List.find?_eq_none.2 fun f hf => by simp [hname f hf]
    rw [builtTerms_get?, builtContext_filter?, hfield]
    exact ⟨rfl, rfl⟩
  defaults := by
    rw [builtTerms_default? h, builtContext]
    cases hd : s.defaultField with
    | none => exact Or.inr ⟨fun f hf => by simpa using List.find?_eq_none.1 hd f hf, rfl, rfl⟩
    | some f =>
      have hdefault : f.isDefault = true := List.find?_some hd
      exact Or.inl ⟨f, List.mem_of_find?_eq_some hd, hdefault, ⟨fieldTerm f, rfl, termOf_fieldTerm f⟩, rfl⟩

/-- **Validation finds exactly what the compilers need.** A schema is valid exactly if its terms can be registered, its
index context can be built, and its default sort can be put into every list. The terms and the filters of a valid schema are
then its fields and no others, each under its name in any case with its property, kind and condition, and the default term
is that of the default filter, or there is neither. -/
theorem validate_iff_built (s : Schema) :
    (s.validate = .ok () ↔
        ∃ (r : TermRegistry Q) (ctx : IndexContext Q), s.termRegistry = .ok r ∧ s.indexContext = .ok ctx ∧
          ∀ list, ∃ sorted, s.applyDefaultSort ctx list = .ok sorted) ∧
      (s.validate = .ok () → ∀ (r : TermRegistry Q) (ctx : IndexContext Q), s.termRegistry = .ok r →
        s.indexContext = .ok ctx → s.Registers r ctx) := by
  rw [validate_iff_valid]
  refine ⟨⟨fun h => ?_, fun ⟨r, ctx, hr, hctx, hsort⟩ => ?_⟩, fun h r ctx hr hctx => ?_⟩
  · refine ⟨s.builtTerms, s.builtContext, termRegistry_eq h, indexContext_eq h, fun list => ?_⟩
    exact (applyDefaultSort_iff rfl list).2 h.defaultSort
  · obtain ⟨sorted, hsorted⟩ := hsort {}
    exact valid_of_built hr hctx hsorted
  · obtain rfl : s.builtTerms = r := Except.ok.inj ((termRegistry_eq h).symm.trans hr)
    obtain rfl : s.builtContext = ctx := Except.ok.inj ((indexContext_eq h).symm.trans hctx)
    exact registers_built h

/-- a schema with a default field for many values, a field for one, and a default sort in other letters than its sort -/
def librarySchema : Schema where
  fields := [{ name := "Title", property := some "meta.title", condition := .many, isDefault := true },
    { name := "year", kind := .integer }]
  sorts := [{ name := "Added", property := some "meta.added" }, { name := "year" }]
  defaultSort := some ⟨"added", .descending⟩

/-- its names lead to its fields in any case, and a name that only a sort has leads to none -/
theorem validate_iff_built_library :
    librarySchema.validate = .ok () ∧
      ∃ (r : TermRegistry (Trace String)) (ctx : IndexContext (Trace String)), librarySchema.termRegistry = .ok r ∧
        librarySchema.indexContext = .ok ctx ∧ ctx.filter? "TITLE" = some ⟨"meta.title", .text, none⟩ ∧
        (∃ t, r.get? "YEAR" = some t ∧ t.name = "year" ∧ t.builders.condition = .one) ∧
        r.get? "added" = none ∧ ctx.filter? "added" = none ∧
        ctx.defaultFilter = some "title" ∧ ∃ t, r.default? = some t ∧ t.name = "Title" := by
  have h : librarySchema.validate = .ok () := by decide
  obtain ⟨r, ctx, hr, hctx, -⟩ := (validate_iff_built (Q := Trace String) librarySchema).1.1 h
  have hknown := (validate_iff_built librarySchema).2 h r ctx hr hctx
  obtain ⟨-, htitle⟩ := hknown.declared _ List.mem_cons_self "TITLE" (by decide)
  obtain ⟨⟨year, hyear, hterm⟩, -⟩ := hknown.declared _ (List.mem_cons_of_mem _ List.mem_cons_self) "YEAR" (by decide)
  obtain ⟨hnoTerm, hnoFilter⟩ := hknown.undeclared "added" (by decide)
  refine ⟨h, r, ctx, hr, hctx, htitle, ⟨year, hyear, hterm.name, hterm.condition⟩, hnoTerm, hnoFilter, ?_⟩
  rcases hknown.defaults with ⟨f, hf, hdefault, ⟨t, ht, htf⟩, hfilter⟩ | ⟨hnone, -, -⟩
  · rcases List.mem_cons.1 hf with rfl | hf
    · exact ⟨hfilter, t, ht, htf.name⟩
    · obtain rfl := List.mem_singleton.1 hf
      cases hdefault
  · cases hnone _ List.mem_cons_self

end Schema

end FieldSearch
