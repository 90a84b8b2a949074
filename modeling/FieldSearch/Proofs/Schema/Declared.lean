/-
Every declared field can be queried by its name, with any value.

- `pairText`: a field and a value as both grammars write them. Values are quoted where they have to be, so no value says
  anything but itself.
- `parse_pairs`, `execute_pairs`: as statements each pair is one filter, unless the field is named `sort`, which is the
  name of a statement of its own.
- `parseTerms_pairs`: as terms each pair is one term, where no value of a field for many values stands directly in front
  of a name that is a keyword.
-/
import FieldSearch.Proofs.Schema.Agreement
import FieldSearch.Proofs.Statement.Merging
import FieldSearch.Proofs.Term.Normalization
import FieldSearch.Query.Trace

namespace FieldSearch

namespace Schema

/-- the text that asks for a value of a field -/
def pairText (p : FieldDef × String) : String := p.1.name ++ ":" ++ writeValue p.2

/-- the text that asks for several -/
def pairsText (pairs : List (FieldDef × String)) : String := joinSpaced (pairs.map pairText)

/-- the statement that asks for a value of a field -/
def pairStatement (p : FieldDef × String) : Statement := .fieldFilter p.1.name (.matching p.2)

/-- the term that asks for a value of a field -/
def pairTerm (p : FieldDef × String) : Term := .named p.1.name (.unary p.2)

variable {s : Schema} {pairs : List (FieldDef × String)}

/-! ## As statements -/

/-- each pair is read as one filter where no field is named `sort` -/
theorem parse_pairs (h : s.Valid) (hpairs : ∀ p ∈ pairs, p.1 ∈ s.fields)
    (hsort : ∀ p ∈ pairs, sameName p.1.name "sort" = false) :
    StatementList.parse (pairsText pairs) = .ok { statements := pairs.map pairStatement } := by
  have hshape : ({ statements := pairs.map pairStatement } : StatementList).WellShaped := by
    refine ⟨?_, isChain_plain ?_⟩
    · rw [List.forall_mem_map]
      intro p hp
      have hname : nameKey p.1.name ≠ "sort" := by
        intro hkey
        have hsame := hsort p hp
        rw [sameName, hkey] at hsame
        cases hsame
      exact ⟨h.identifier (hpairs p hp), hname, trivial⟩
    · rw [List.forall_mem_map]
      exact fun _ _ => rfl
  refine StatementList.parse_of_literal hshape rfl ?_
  rw [StatementList.literal_eq hshape.each, List.map_map]
  rfl

variable {Q : Type} [Query Q]

/-- what a pair asks of a query -/
def narrow (q : Q) (p : FieldDef × String) : Q := Query.filter (.matching p.1.path p.1.kind p.2) q

/-- the filter of a declared field narrows a query by the predicate of the value -/
theorem step_pair (h : s.Valid) {pair : FieldDef × String} (hpair : pair.1 ∈ s.fields) (explicit : Bool)
    (p : IndexContext.Progress Q) :
    s.builtContext.step explicit p (pairStatement pair) = { p with query := narrow p.query pair } := by
  rw [pairStatement, IndexContext.step, IndexContext.applyFilter, builtContext_filter?, h.field?_name hpair]
  rfl

/-- the statements of several do so in their order -/
theorem foldl_pairs (h : s.Valid) (hpairs : ∀ p ∈ pairs, p.1 ∈ s.fields) (explicit : Bool)
    (p : IndexContext.Progress Q) :
    (pairs.map pairStatement).foldl (s.builtContext.step explicit) p =
      { p with query := pairs.foldl narrow p.query } := by
  induction pairs generalizing p with
  | nil => rfl
  | cons pair pairs ih =>
    obtain ⟨hpair, hrest⟩ := List.forall_mem_cons.1 hpairs
    rw [List.map_cons, List.foldl_cons, step_pair h hpair, ih hrest]
    rfl

/-- each pair narrows the query once, in the order of the pairs -/
theorem execute_pairs (h : s.Valid) (hpairs : ∀ p ∈ pairs, p.1 ∈ s.fields) (q : Q) :
    (s.builtContext.execute { statements := pairs.map pairStatement } q).2 = pairs.foldl narrow q := by
  rw [IndexContext.execute, IndexContext.run, foldl_pairs h hpairs]

/-! ## As terms -/

/-- each pair is read as one term where no value of a field for many values is directly followed by a keyword -/
theorem parseTerms_pairs (h : s.Valid) (hpairs : ∀ p ∈ pairs, p.1 ∈ s.fields)
    (hapart : pairs.IsChain fun p p' => p.1.condition = .many → p'.1.name ∉ keywords) :
    (s.builtTerms (Q := Q)).parse (pairsText pairs) = .ok (pairs.map pairTerm) := by
  have hkeyed : (s.builtTerms (Q := Q)).Keyed := TermRegistry.ofTerms_keyed (termRegistry_eq h)
  have hterms : ∀ t ∈ pairs.map pairTerm, (s.builtTerms (Q := Q)).Bound t ∧ t.Explicit := by
    rw [List.forall_mem_map]
    intro p hp
    have hfield := h.field?_name (hpairs p hp)
    refine ⟨⟨h.identifier (hpairs p hp), ?_, fun _ => ⟨p.2, rfl⟩⟩, p.1.name, .unary p.2, rfl, trivial, rfl⟩
    intro o ho
    rw [builtTerms_get?, pairTerm, Term.name, hfield, Option.map_some, Option.some.injEq] at ho
    rw [← ho]
    rfl
  have hchain : (pairs.map pairTerm).IsChain (s.builtTerms (Q := Q)).Apart := by
    rw [List.isChain_map]
    refine List.IsChain.imp_of_mem_imp (fun p p' hp _ hnext hmany => hnext ?_) hapart
    exact (conditionOf_field (h.field?_name (hpairs p hp))).symm.trans hmany
  have htext : pairsText pairs = literalTerms (pairs.map pairTerm) := by
    rw [literalTerms, List.map_map]
    rfl
  rw [htext]
  exact TermRegistry.parse_explicit hkeyed hterms hchain

/-- **Every declared field can be queried.** Take fields of a valid schema with any values, written one after the other.
Where none is named `sort`, the text is read as statements that narrow the query once for each pair, in order, by the
predicate of the field and the value, and do nothing else. Where no value of a field for many values is directly followed by
a name that is a keyword, it is read as one term for each pair, in order. -/
theorem declared_queryable (h : s.validate = .ok ()) (hpairs : ∀ p ∈ pairs, p.1 ∈ s.fields) :
    ∃ (ctx : IndexContext Q) (r : TermRegistry Q), s.indexContext = .ok ctx ∧ s.termRegistry = .ok r ∧
      ((∀ p ∈ pairs, sameName p.1.name "sort" = false) →
        ∃ list, StatementList.parse (pairsText pairs) = .ok list ∧
          ∀ q, (ctx.execute list q).2 =
            pairs.foldl (fun q p => Query.filter (.matching p.1.path p.1.kind p.2) q) q) ∧
      ((pairs.IsChain fun p p' => p.1.condition = .many → p'.1.name ∉ keywords) →
        r.parse (pairsText pairs) = .ok (pairs.map fun p => .named p.1.name (.unary p.2))) := by
  have hvalid := valid_of_validate h
  refine ⟨s.builtContext, s.builtTerms, indexContext_eq hvalid, termRegistry_eq hvalid, fun hsort => ?_, fun hapart => ?_⟩
  · exact ⟨_, parse_pairs hvalid hpairs hsort, fun q => execute_pairs hvalid hpairs q⟩
  · exact parseTerms_pairs hvalid hpairs hapart

/-- a schema whose names are words of the grammars -/
def wordSchema : Schema where
  fields := [{ name := "t", property := some "meta.title", condition := .many, isDefault := true }, { name := "OR" },
    { name := "not", kind := .integer, condition := .many }, { name := "Sort" }]

/-- values that have to be quoted, and a keyword behind a field for one value -/
def wordPairs : List (FieldDef × String) :=
  [({ name := "OR" }, "a \"b\""), ({ name := "OR" }, "AND"),
    ({ name := "t", property := some "meta.title", condition := .many, isDefault := true }, "-x:y"),
    ({ name := "not", kind := .integer, condition := .many }, "12")]

/-- names and values that are words of the grammars do no harm -/
theorem declared_queryable_words :
    wordSchema.validate = .ok () ∧ (∀ p ∈ wordPairs, p.1 ∈ wordSchema.fields) ∧
      ∃ (ctx : IndexContext (Trace String)) (r : TermRegistry (Trace String)), wordSchema.indexContext = .ok ctx ∧
        wordSchema.termRegistry = .ok r ∧
        (∃ list, StatementList.parse "OR:\"a \\\"b\\\"\" OR:\"AND\" t:\"-x:y\" not:12" = .ok list ∧
          (ctx.execute list {}).2 = ⟨[.filter (.contains "OR" "a \"b\""), .filter (.contains "OR" "AND"),
            .filter (.contains "meta.title" "-x:y"), .filter (.equals "not" (.integer 12))]⟩) ∧
        r.parse "OR:\"a \\\"b\\\"\" OR:\"AND\" t:\"-x:y\" not:12" =
          .ok [.named "OR" (.unary "a \"b\""), .named "OR" (.unary "AND"), .named "t" (.unary "-x:y"),
            .named "not" (.unary "12")] := by
  have h : wordSchema.validate = .ok () := by decide
  have hpairs : ∀ p ∈ wordPairs, p.1 ∈ wordSchema.fields := by decide
  obtain ⟨ctx, r, hctx, hr, hstatements, hterms⟩ := declared_queryable (Q := Trace String) h hpairs
  obtain ⟨list, hlist, hexecute⟩ := hstatements (by decide)
  have htext : pairsText wordPairs = "OR:\"a \\\"b\\\"\" OR:\"AND\" t:\"-x:y\" not:12" := by decide
  rw [htext] at hlist hterms
  exact ⟨h, hpairs, ctx, r, hctx, hr, ⟨list, hlist, (hexecute {}).trans rfl⟩, hterms (by decide)⟩

/-- a field named `sort` is not filtered by its name, and a name that is a keyword is taken for an operator behind a value
of a field for many values -/
theorem declared_unqueryable_words :
    wordSchema.validate = .ok () ∧ ({ name := "Sort" } : FieldDef) ∈ wordSchema.fields ∧
      ({ name := "OR" } : FieldDef) ∈ wordSchema.fields ∧
      ({ name := "t", property := some "meta.title", condition := .many, isDefault := true } : FieldDef) ∈
        wordSchema.fields ∧
      ∃ (ctx : IndexContext (Trace String)) (r : TermRegistry (Trace String)) (list : StatementList),
        wordSchema.indexContext = .ok ctx ∧ wordSchema.termRegistry = .ok r ∧
        StatementList.parse (pairsText [({ name := "Sort" }, "beach")]) = .ok list ∧ (ctx.execute list {}).2.calls = [] ∧
        r.parse (pairsText [({ name := "t", property := some "meta.title", condition := .many, isDefault := true }, "x"),
          ({ name := "OR" }, "y")]) = .error (.parse 6 (.expected .value)) := by
  have h : wordSchema.validate = .ok () := by decide
  have hvalid := valid_of_validate h
  have hsort : StatementList.parse "Sort:beach" = .ok { statements := [.sort "beach" (.ascending false)] } := by
    decide +kernel
  exact ⟨h, by decide, by decide, by decide, _, _, _, indexContext_eq hvalid, termRegistry_eq hvalid, hsort, rfl,
    by decide +kernel⟩

end Schema

end FieldSearch
