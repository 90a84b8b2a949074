/-
The normalized text of statements reads back.

- `canonical` is what a normalized text says: keywords for operators, and a pair of parentheses around each pair of
  operands. `canonical_literal`: its own text is the normalized text.
- `parse_normalized`: the canonical list is what is read from the normalized text of a well-shaped list.
- `compile_canonical`, `run_canonical`: an index context cannot tell a list from its canonical list.
-/
import FieldSearch.Index.Execution
import FieldSearch.Proofs.Statement.RoundTrip

namespace FieldSearch

/-- the text of operands that a keyword joins -/
theorem joinOperands_keyword {operator : String} (h : operator ∈ keywords) (left right : String) :
    joinOperands left operator right = left ++ " " ++ operator ++ " " ++ right := by
  have hop : isAllBlank operator = false := by
    simp only [keywords, List.mem_cons, List.not_mem_nil, or_false] at h
    rcases h with rfl | rfl | rfl <;> decide
  rw [joinOperands, hop]
  rfl

namespace FilterExpr

/-- the expression that the normalized text of an expression says -/
def canonical : FilterExpr → FilterExpr
  | .unary .present value => .matching value
  | .unary (.absent _) value => .notMatching "NOT" value
  | .and left right _ => .group (.and left.canonical right.canonical "AND")
  | .or left right _ => .group (.or left.canonical right.canonical "OR")
  | .group (.unary .present value) => .group (.matching value)
  | .group (.unary (.absent _) value) => .group (.notMatching "NOT" value)
  | .group inner => inner.canonical

theorem canonical_literal (e : FilterExpr) : e.canonical.literal = e.normalized := by
  fun_induction canonical e with
  | case1 value => rfl
  | case2 token value => rfl
  | case3 left right op ihl ihr =>
    rw [literal, literal, joinOperands_keyword (by decide), ihl, ihr, normalized, ← String.toList_inj]
    simp
  | case4 left right op ihl ihr =>
    rw [literal, literal, joinOperands_keyword (by decide), ihl, ihr, normalized, ← String.toList_inj]
    simp
  | case5 value => rfl
  | case6 token value => rfl
  | case7 inner hpos hneg ih =>
    rw [ih, normalized]
    rintro (_ | token) value rfl
    · exact hpos value rfl
    · exact hneg token value rfl

theorem canonical_operand (e : FilterExpr) : e.canonical.isOperand = true := by
  fun_induction canonical e <;> first | rfl | assumption

/-- every expression has a canonical one that its own text spells out -/
theorem canonical_wellShaped (e : FilterExpr) : e.canonical.WellShaped := by
  fun_induction canonical e with
  | case1 value => trivial
  | case2 token value => exact List.mem_cons_self
  | case3 left right op ihl ihr =>
    exact ⟨ihl, ihr, (leading_of_operand (canonical_operand left)).2, canonical_operand right, Or.inl rfl⟩
  | case4 left right op ihl ihr =>
    exact ⟨ihl, ihr, (leading_of_operand (canonical_operand right)).2, Or.inl rfl⟩
  | case5 value => trivial
  | case6 token value => exact List.mem_cons_self
  | case7 inner _ _ ih => exact ih

/-- the canonical expression is its own canonical form, as far as texts tell -/
theorem canonical_normalized (e : FilterExpr) : e.canonical.normalized = e.normalized := by
  fun_induction canonical e with
  | case1 value => rfl
  | case2 token value => rfl
  | case3 left right op ihl ihr => simp only [normalized, ihl, ihr]
  | case4 left right op ihl ihr => simp only [normalized, ihl, ihr]
  | case5 value => rfl
  | case6 token value => rfl
  | case7 inner hpos hneg ih =>
    rw [ih, normalized]
    rintro (_ | token) value rfl
    · exact hpos value rfl
    · exact hneg token value rfl

end FilterExpr

/-- parentheses and the spelling of operators do not matter to a predicate -/
theorem FilterMap.compile_canonical {Q : Type} (map : FilterMap Q) (e : FilterExpr) :
    map.compile e.canonical = map.compile e := by
  fun_induction FilterExpr.canonical e with
  | case1 value => rfl
  | case2 token value => rfl
  | case3 left right op ihl ihr => simp only [compile, ihl, ihr]
  | case4 left right op ihl ihr => simp only [compile, ihl, ihr]
  | case5 value => rfl
  | case6 token value => rfl
  | case7 inner _ _ ih => simpa only [compile] using ih

@[simp] theorem SortExpr.direction_ofDirection (direction : Direction) :
    (SortExpr.ofDirection direction).direction = direction := by
  cases direction <;> rfl

namespace Statement

/-- the statement that the normalized text of a statement says -/
def canonical : Statement → Statement
  | .defaultFilter e => .defaultFilter e.canonical
  | .fieldFilter name e => .fieldFilter name e.canonical
  | .sort field direction => .sort field (.ofDirection direction.direction)
  | .defaultSort field direction => .defaultSort field (.ofDirection direction.direction)

theorem canonical_literal (s : Statement) : s.canonical.literal = s.normalized := by
  cases s with
  | defaultFilter e => exact e.canonical_literal
  | fieldFilter name e => rw [canonical, literal, normalized, e.canonical_literal]
  | sort field direction => cases direction <;> rfl
  | defaultSort => rfl

theorem canonical_normalized (s : Statement) : s.canonical.normalized = s.normalized := by
  cases s with
  | defaultFilter e => exact e.canonical_normalized
  | fieldFilter name e => rw [canonical, normalized, normalized, e.canonical_normalized]
  | sort field direction => cases direction <;> rfl
  | defaultSort => rfl

theorem canonical_wellShaped {s : Statement} (h : s.WellShaped) : s.canonical.WellShaped := by
  cases s with
  | defaultFilter e => exact e.canonical_wellShaped
  | fieldFilter name e => exact ⟨h.1, h.2.1, e.canonical_wellShaped⟩
  | sort => exact h
  | defaultSort => exact h

@[simp] theorem canonical_isFilter (s : Statement) : s.canonical.isFilter = s.isFilter := by cases s <;> rfl

@[simp] theorem canonical_isDefaultFilter (s : Statement) : s.canonical.isDefaultFilter = s.isDefaultFilter := by
  cases s <;> rfl

@[simp] theorem canonical_isDefaultSort (s : Statement) : s.canonical.isDefaultSort = s.isDefaultSort := by
  cases s <;> rfl

end Statement

namespace StatementList

/-- the list that the normalized text of a list says -/
def canonical (list : StatementList) : StatementList :=
  { list with statements := list.statements.map Statement.canonical }

theorem canonical_literal (list : StatementList) : list.canonical.literal = list.normalized := by
  simp only [canonical, literal, normalized, List.map_map, Function.comp_def, Statement.canonical_literal]

theorem canonical_normalized (list : StatementList) : list.canonical.normalized = list.normalized := by
  simp only [canonical, normalized, List.map_map, Function.comp_def, Statement.canonical_normalized]

theorem canonical_wellShaped {list : StatementList} (h : list.WellShaped) : list.canonical.WellShaped where
  each := by
    simp only [canonical, List.forall_mem_map]
    exact fun s hs => Statement.canonical_wellShaped (h.each s hs)
  apart := by
    simp only [canonical, List.isChain_map]
    exact h.apart.imp fun s t hst => by
      intro hf
      rw [Statement.canonical_isDefaultFilter]
      exact hst (by rwa [Statement.canonical_isFilter] at hf)

/-- the canonical list is what the normalized text says -/
theorem parse_normalized {list : StatementList} (h : list.WellShaped) :
    parse list.normalized = .ok { list.canonical with hasOrder := false } :=
  calc parse list.normalized
      = parse list.canonical.literal := by rw [canonical_literal]
    _ = .ok { list.canonical with hasOrder := false } := parse_literal (canonical_wellShaped h)

end StatementList

/-! ## Running a canonical list -/

namespace IndexContext

variable {Q : Type} [Query Q] (ctx : IndexContext Q)

theorem applyFilter_canonical (name : String) (e : FilterExpr) (q : Q) :
    ctx.applyFilter name e.canonical q = ctx.applyFilter name e q := by
  simp only [applyFilter, FilterMap.compile_canonical]

theorem step_canonical (explicit : Bool) (p : Progress Q) (s : Statement) :
    ctx.step explicit p s.canonical = ctx.step explicit p s := by
  cases s <;> simp only [Statement.canonical, step, applyFilter_canonical, SortExpr.direction_ofDirection]

omit [Query Q] in
theorem ordersExplicitly_canonical (statements : List Statement) :
    ctx.ordersExplicitly (statements.map Statement.canonical) = ctx.ordersExplicitly statements := by
  simp only [ordersExplicitly, List.any_map]
  congr 1
  funext s
  cases s <;> rfl

theorem run_canonical (statements : List Statement) (q : Q) :
    ctx.run (statements.map Statement.canonical) q = ctx.run statements q := by
  simp only [run, List.foldl_map, ordersExplicitly_canonical, step_canonical]

/-- what an execution shows: whether the query has been sorted, and the query -/
def outcome (list : StatementList) (q : Q) : Bool × Q :=
  ((ctx.execute list q).1.hasOrder, (ctx.execute list q).2)

theorem outcome_canonical (list : StatementList) (q : Q) : ctx.outcome list.canonical q = ctx.outcome list q := by
  simp only [outcome, execute, StatementList.canonical, run_canonical]

omit [Query Q] in
/-- a default sort is put into the canonical list as it is into the list -/
theorem setDefaultSort_canonical (list : StatementList) (field : String) (direction : Direction) :
    ctx.setDefaultSort list.canonical field direction =
      (ctx.setDefaultSort list field direction).map StatementList.canonical := by
  have hkept : (list.statements.map Statement.canonical).filter (fun s => !s.isDefaultSort) =
      (list.statements.filter fun s => !s.isDefaultSort).map Statement.canonical := by
    simp only [List.filter_map, Function.comp_def, Statement.canonical_isDefaultSort]
  simp only [setDefaultSort]
  split_ifs
  · rfl
  · simp [Except.map, StatementList.canonical, hkept, Statement.canonical]

/-- the outcome of an execution with a default sort put in, or the refusal of the sort -/
def outcomeWith (list : StatementList) (field : String) (direction : Direction) (q : Q) : Except Error (Bool × Q) :=
  (ctx.setDefaultSort list field direction).map fun sorted => ctx.outcome sorted q

theorem outcomeWith_canonical (list : StatementList) (field : String) (direction : Direction) (q : Q) :
    ctx.outcomeWith list.canonical field direction q = ctx.outcomeWith list field direction q := by
  rw [outcomeWith, setDefaultSort_canonical, outcomeWith]
  cases ctx.setDefaultSort list field direction with
  | error e => rfl
  | ok sorted => simp [Except.map, outcome_canonical]

end IndexContext

/-- **Normalizing keeps the meaning and settles at once.** The normalized text of what a text says reads back as a list
with the same normalized text, and no index context can tell the two lists apart by any calls that its query receives,
with or without a default sort. -/
theorem StatementList.normalized_faithful {text : String} {list : StatementList} (h : parse text = .ok list) :
    ∃ list', parse list.normalized = .ok list' ∧ list'.normalized = list.normalized ∧
      ∀ (Q : Type) [Query Q] (ctx : IndexContext Q) (q : Q),
        ctx.outcome list' q = ctx.outcome list q ∧
          ∀ field direction, ctx.outcomeWith list' field direction q = ctx.outcomeWith list field direction q := by
  obtain ⟨hshape, horder⟩ := parse_shape h
  refine ⟨list.canonical, ?_, canonical_normalized list, fun Q _ ctx q => ⟨ctx.outcome_canonical list q, ?_⟩⟩
  · rw [parse_normalized hshape, ← horder]
    rfl
  · exact fun field direction => ctx.outcomeWith_canonical list field direction q

/-- the keywords in names and values stay what they are -/
theorem StatementList.normalized_faithful_keywordFields :
    keywordFields.normalized =
        "AND:((NOT x AND (\"OR\" OR \"\")) OR (\"a\\\"\\\\b\" AND NOT \"c d\")) Or:\"(\" sort:date-desc NOT \"sort:x\" " ++
          "NOT:(\"AND\" AND \"-y\")" ∧
      ∃ list', parse keywordFields.normalized = .ok list' ∧ list'.normalized = keywordFields.normalized := by
  have h : parse keywordFields.literal = .ok keywordFields := parse_literal (by decide)
  obtain ⟨list', hp, hn, -⟩ := normalized_faithful h
  exact ⟨by decide, list', hp, hn⟩

end FieldSearch
