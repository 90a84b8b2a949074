/-
Term queries and statements select the same records.

- `toFilter`, `translated`: the statements that say what terms say. Each term becomes a filter of its name; `left NOT value`
  becomes the conjunction of `left` and the negated value.
- `build_eq_filter`: what an operation does to a selection, by nested branches, is one narrowing by the predicate of its
  translation. Induction over the operation; the places of the selection ascend throughout.
- `applyTerm_eq`: one term does what its statement does. `execute_eq`: so do terms one after the other.
- `execute_agree`: with the compilers of a valid schema, a term query and its translation select the same records.
-/
import FieldSearch.Proofs.Records.Selection
import FieldSearch.Proofs.Schema.Registration
import FieldSearch.Proofs.Term.Registry
import FieldSearch.Schema.Search

namespace FieldSearch

/-! ## Terms as statements -/

/-- the filter expression that says what an operation says -/
def Operation.toFilter : Operation → FilterExpr
  | .unary value => .matching value
  | .notUnary operator value => .notMatching operator value
  | .and left right operator => .and left.toFilter right.toFilter operator
  | .or left right operator => .or left.toFilter right.toFilter operator
  | .not left value operator => .and left.toFilter (.notMatching operator value) "AND"
  | .group inner => .group inner.toFilter

/-- the statement that says what a term says -/
def Term.toStatement (t : Term) : Statement := .fieldFilter t.name t.operation.toFilter

/-- the statements that say what terms say -/
def translated (terms : List Term) : StatementList := { statements := terms.map Term.toStatement }

namespace IndexContext

variable {Q : Type} [Query Q]

/-- translated terms are run filter by filter -/
theorem execute_translated (ctx : IndexContext Q) (terms : List Term) (q : Q) :
    (ctx.execute (translated terms) q).2 = terms.foldl (fun q t => ctx.applyFilter t.name t.operation.toFilter q) q := by
  have hrun : ∀ (explicit : Bool) (p : Progress Q), (terms.map Term.toStatement).foldl (ctx.step explicit) p =
      { p with query := terms.foldl (fun q t => ctx.applyFilter t.name t.operation.toFilter q) p.query } := by
    intro explicit p
    induction terms generalizing p with
    | nil => rfl
    | cons t terms ih => exact ih _
  rw [execute, run, translated, hrun]

end IndexContext

namespace Schema

variable (f : FieldDef) (services : Services)

/-! ## What an operation does to a selection -/

theorem applyMatch_field {Q : Type} [Query Q] (value : String) (q : Q) :
    TermContext.applyMatch ⟨services, some (fieldTerm f)⟩ value q = Query.filter (.matching f.path f.kind value) q := by
  rw [TermContext.applyMatch, fieldTerm]
  cases f.condition <;> rfl

theorem applyNotMatch_field {Q : Type} [Query Q] (hmany : f.condition = .many) (value : String) (q : Q) :
    TermContext.applyNotMatch ⟨services, some (fieldTerm f)⟩ value q =
      Query.filter (.notMatching f.path f.kind value) q := by
  rw [TermContext.applyNotMatch, fieldTerm, hmany]
  rfl

/-- the predicate of an operation under a field -/
def predicateOf (n : Operation) : Predicate := (fieldFilter (Q := Selection) f).compile n.toFilter

/-- an operation under a field for many values narrows by its predicate -/
theorem build_many (hmany : f.condition = .many) (n : Operation) {s : Selection} (h : s.Ascending) :
    n.build ⟨services, some (fieldTerm f)⟩ s = s.filter (predicateOf f n) := by
  induction n with
  | unary value => exact applyMatch_field f services value s
  | notUnary operator value => exact applyNotMatch_field f services hmany value s
  | and left right operator ihl ihr => exact Selection.all_filter h ihl ihr
  | or left right operator ihl ihr => exact Selection.any_filter h ihl ihr
  | not left value operator ih => exact Selection.all_filter h ih (applyNotMatch_field f services hmany value s)
  | group inner ih => exact ih

/-- **An operation narrows a selection by one predicate**, that of its translation. -/
theorem build_eq_filter {n : Operation} (hsingle : f.condition = .one → ∃ v, n = .unary v) {s : Selection}
    (h : s.Ascending) : n.build ⟨services, some (fieldTerm f)⟩ s = s.filter (predicateOf f n) := by
  cases hc : f.condition with
  | one =>
    obtain ⟨v, rfl⟩ := hsingle hc
    exact applyMatch_field f services v s
  | many => exact build_many f services hc n h

/-! ## What terms do to a selection -/

variable {f services} {s : Schema}

theorem fieldTerm_condition {Q : Type} [Query Q] (f : FieldDef) : (fieldTerm (Q := Q) f).builders.condition = f.condition := by
  rw [fieldTerm]
  cases f.condition <;> rfl

theorem conditionOf_field {Q : Type} [Query Q] {name : String} (hf : s.field? name = some f) :
    (s.builtTerms (Q := Q)).conditionOf name = f.condition := by
  rw [TermRegistry.conditionOf, builtTerms_get?, hf, Option.map_some, Option.elim_some, fieldTerm_condition]

/-- one term does what its statement does -/
theorem applyTerm_eq {t : Term} (hb : (s.builtTerms (Q := Selection)).Bound t) {q : Selection} (h : q.Ascending) :
    s.builtTerms.applyTerm services q t = s.builtContext.applyFilter t.name t.operation.toFilter q := by
  rw [TermRegistry.applyTerm, IndexContext.applyFilter, builtTerms_get?, builtContext_filter?]
  cases hf : s.field? t.name with
  | none => rfl
  | some f =>
    have hsingle := hb.single
    rw [conditionOf_field hf] at hsingle
    exact build_eq_filter f services hsingle h

/-- a filter of a field keeps the places ascending -/
theorem applyFilter_ascending (name : String) (e : FilterExpr) {q : Selection} (h : q.Ascending) :
    (s.builtContext.applyFilter name e q).Ascending := by
  rw [IndexContext.applyFilter, builtContext_filter?]
  cases s.field? name with
  | none => exact h
  | some f => exact h.filter _

/-- terms one after the other do what their statements do -/
theorem execute_eq {terms : List Term} (hb : ∀ t ∈ terms, (s.builtTerms (Q := Selection)).Bound t) {q : Selection}
    (h : q.Ascending) :
    s.builtTerms.execute services terms q = (s.builtContext.execute (translated terms) q).2 := by
  rw [TermRegistry.execute, IndexContext.execute_translated]
  induction terms generalizing q with
  | nil => rfl
  | cons t terms ih =>
    obtain ⟨ht, hrest⟩ := List.forall_mem_cons.1 hb
    rw [List.foldl_cons, List.foldl_cons, applyTerm_eq ht h]
    exact ih hrest (applyFilter_ascending t.name _ h)

/-- **The two compilers of a schema agree.** A valid schema builds both. Whatever text its terms accept, over any records,
executing the terms and executing their translation give the same selection, so the same records in the same order; a term
whose name is not registered narrows nothing on either side. -/
theorem execute_agree (h : s.validate = .ok ()) :
    ∃ (r : TermRegistry Selection) (ctx : IndexContext Selection), s.termRegistry = .ok r ∧ s.indexContext = .ok ctx ∧
      ∀ (text : String) (terms : List Term), r.parse text = .ok terms → ∀ (services : Services) (records : List Json),
        r.execute services terms (.ofRecords records) = (ctx.execute (translated terms) (.ofRecords records)).2 ∧
          (r.execute services terms (.ofRecords records)).results =
            (ctx.execute (translated terms) (.ofRecords records)).2.results ∧
          ∀ t ∈ terms, r.get? t.name = none → ∀ q : Selection,
            r.applyTerm services q t = q ∧ ctx.applyFilter t.name t.operation.toFilter q = q := by
  have hvalid := valid_of_validate h
  refine ⟨s.builtTerms, s.builtContext, termRegistry_eq hvalid, indexContext_eq hvalid, ?_⟩
  intro text terms hparse services records
  have hkeyed : (s.builtTerms (Q := Selection)).Keyed := TermRegistry.ofTerms_keyed (termRegistry_eq hvalid)
  have hexecute : s.builtTerms.execute services terms (Selection.ofRecords records) =
      (s.builtContext.execute (translated terms) (Selection.ofRecords records)).2 :=
    execute_eq (TermRegistry.parse_bound hkeyed hparse) (Selection.ascending_ofRecords records)
  refine ⟨hexecute, by rw [hexecute], fun t ht hnone q => ⟨?_, ?_⟩⟩
  · rw [TermRegistry.applyTerm, hnone]
  · rw [builtTerms_get?, Option.map_eq_none_iff] at hnone
    rw [IndexContext.applyFilter, builtContext_filter?, hnone]
    rfl

/-- a schema with a title that takes everything and a rank -/
def rankedSchema : Schema where
  fields := [{ name := "title", property := some "meta.title", condition := .many, isDefault := true },
    { name := "rank", kind := .integer }]

/-- records of which one has no title -/
def rankedRecords : List Json :=
  [.object [("meta", .object [("title", .string "Beach by the sea")]), ("rank", .number (.int 3))],
    .object [("meta", .object [("title", .string "Sand dunes")]), ("rank", .number (.int 3))],
    .object [("rank", .number (.int 3))],
    .object [("meta", .object [("title", .string "A BEACH")]), ("rank", .number (.int 4))],
    .object [("meta", .object [("title", .string "the beach")]), ("rank", .array [.number (.int 1), .number (.int 3)])]]

/-- what a query with a group, a negation and a name that is not registered says -/
def rankedTerms : List Term :=
  [.named "title" (.not (.group (.or (.unary "beach") (.unary "sand") "OR")) "sea" "NOT"), .named "rank" (.unary "3"),
    .named "color" (.unary "red")]

theorem execute_agree_ranked :
    rankedSchema.validate = .ok () ∧
      ∃ (r : TermRegistry Selection) (ctx : IndexContext Selection), rankedSchema.termRegistry = .ok r ∧
        rankedSchema.indexContext = .ok ctx ∧
        r.parse "TITLE:(beach OR sand) NOT sea rank:3 color:red" = .ok rankedTerms ∧
        (r.execute {} rankedTerms (.ofRecords rankedRecords)).selected = [1, 4] ∧
        (ctx.execute (translated rankedTerms) (.ofRecords rankedRecords)).2.selected = [1, 4] := by
  have h : rankedSchema.validate = .ok () := by decide
  obtain ⟨r, ctx, hr, hctx, hagree⟩ := execute_agree h
  obtain rfl : rankedSchema.builtTerms = r := Except.ok.inj ((termRegistry_eq (valid_of_validate h)).symm.trans hr)
  have hparse : (rankedSchema.builtTerms (Q := Selection)).parse "TITLE:(beach OR sand) NOT sea rank:3 color:red" =
      .ok rankedTerms := by decide +kernel
  have hselected : ((rankedSchema.builtTerms (Q := Selection)).execute {} rankedTerms
      (.ofRecords rankedRecords)).selected = [1, 4] := by decide +kernel
  obtain ⟨hexecute, -⟩ := hagree _ _ hparse {} rankedRecords
  exact ⟨h, _, ctx, hr, hctx, hparse, hselected, by rw [← hexecute]; exact hselected⟩

end Schema

end FieldSearch
