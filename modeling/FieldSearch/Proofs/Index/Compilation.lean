/-
What a compiled filter expression means, and what it looks like.

- `FilterExpr.reads`: the truth of an expression, read from which values a record matches. A value that is not wanted is
  read as the negation of one that is.
- `FilterExpr.parts`: the values of an expression from left to right, each with its demand.
- `Predicate.leaves`: the conditions of a predicate from left to right. `leaves_conj`, `leaves_disj`: joining predicates
  puts their leaves one behind the other, although the children of operands of the same kind are taken up.
- `Predicate.Flat`: no conjunction stands right under a conjunction, no disjunction right under a disjunction, and each
  has at least two children. `Flat.conj`, `Flat.disj`: joining flat predicates gives a flat one.
- `holds_compile`, `leaves_compile`, `flat_compile`: the three facts about a compiled expression, each by induction over the
  expression. `compile_faithful` puts them together.
-/
import FieldSearch.Index.Basic
import FieldSearch.Proofs.Records.Selection

namespace FieldSearch

/-! ## Reading an expression -/

namespace FilterExpr

/-- the truth of an expression, read from which values match -/
def reads (isMatch : String → Bool) : FilterExpr → Bool
  | .unary .present value => isMatch value
  | .unary (.absent _) value => !isMatch value
  | .and left right _ => left.reads isMatch && right.reads isMatch
  | .or left right _ => left.reads isMatch || right.reads isMatch
  | .group inner => inner.reads isMatch

/-- the values of an expression from left to right, each with its demand -/
def parts : FilterExpr → List (Demand × String)
  | .unary demand value => [(demand, value)]
  | .and left right _ => left.parts ++ right.parts
  | .or left right _ => left.parts ++ right.parts
  | .group inner => inner.parts

end FilterExpr

namespace Predicate

/-! ## Leaves -/

mutual

/-- the conditions of a predicate from left to right -/
def leaves : Predicate → List Predicate
  | .and children => leavesOf children
  | .or children => leavesOf children
  | .contains property value => [.contains property value]
  | .notContains property value => [.notContains property value]
  | .equals property value => [.equals property value]
  | .notEquals property value => [.notEquals property value]

/-- the conditions of several predicates from left to right -/
def leavesOf : List Predicate → List Predicate
  | [] => []
  | p :: ps => p.leaves ++ leavesOf ps

end

theorem leavesOf_append (ps qs : List Predicate) : leavesOf (ps ++ qs) = leavesOf ps ++ leavesOf qs := by
  induction ps with
  | nil => rfl
  | cons p ps ih => rw [List.cons_append, leavesOf, leavesOf, ih, List.append_assoc]

theorem leavesOf_conjuncts (p : Predicate) : leavesOf p.conjuncts = p.leaves := by
  cases p with
  | and children => rw [conjuncts, leaves]
  | _ => simp [conjuncts, leavesOf]

theorem leavesOf_disjuncts (p : Predicate) : leavesOf p.disjuncts = p.leaves := by
  cases p with
  | or children => rw [disjuncts, leaves]
  | _ => simp [disjuncts, leavesOf]

theorem leaves_conj (p q : Predicate) : (p.conj q).leaves = p.leaves ++ q.leaves := by
  rw [conj, leaves, leavesOf_append, leavesOf_conjuncts, leavesOf_conjuncts]

theorem leaves_disj (p q : Predicate) : (p.disj q).leaves = p.leaves ++ q.leaves := by
  rw [disj, leaves, leavesOf_append, leavesOf_disjuncts, leavesOf_disjuncts]

/-! ## Flat predicates -/

def isAnd : Predicate → Bool
  | .and _ => true
  | _ => false

def isOr : Predicate → Bool
  | .or _ => true
  | _ => false

/-- no joint stands right under one of its kind, and each has at least two children -/
inductive Flat : Predicate → Prop
  | leaf {p : Predicate} (notAnd : p.isAnd = false) (notOr : p.isOr = false) : Flat p
  | and {children : List Predicate} (two : 2 ≤ children.length) (apart : ∀ p ∈ children, p.isAnd = false)
      (flat : ∀ p ∈ children, Flat p) : Flat (.and children)
  | or {children : List Predicate} (two : 2 ≤ children.length) (apart : ∀ p ∈ children, p.isOr = false)
      (flat : ∀ p ∈ children, Flat p) : Flat (.or children)

variable {p q : Predicate}

theorem conjuncts_of_notAnd (h : p.isAnd = false) : p.conjuncts = [p] := by
  cases p with
  | and children => cases h
  | _ => rfl

theorem disjuncts_of_notOr (h : p.isOr = false) : p.disjuncts = [p] := by
  cases p with
  | or children => cases h
  | _ => rfl

/-- the conjuncts of a flat predicate can stand under a conjunction -/
theorem Flat.conjuncts (h : p.Flat) : 1 ≤ p.conjuncts.length ∧ ∀ c ∈ p.conjuncts, c.isAnd = false ∧ c.Flat := by
  cases h with
  | leaf notAnd notOr =>
    rw [conjuncts_of_notAnd notAnd]
    exact ⟨le_rfl, List.forall_mem_singleton.2 ⟨notAnd, .leaf notAnd notOr⟩⟩
  | and two apart flat => exact ⟨le_trans one_le_two two, fun c hc => ⟨apart c hc, flat c hc⟩⟩
  | or two apart flat => exact ⟨le_rfl, List.forall_mem_singleton.2 ⟨rfl, .or two apart flat⟩⟩

/-- the disjuncts of a flat predicate can stand under a disjunction -/
theorem Flat.disjuncts (h : p.Flat) : 1 ≤ p.disjuncts.length ∧ ∀ c ∈ p.disjuncts, c.isOr = false ∧ c.Flat := by
  cases h with
  | leaf notAnd notOr =>
    rw [disjuncts_of_notOr notOr]
    exact ⟨le_rfl, List.forall_mem_singleton.2 ⟨notOr, .leaf notAnd notOr⟩⟩
  | and two apart flat => exact ⟨le_rfl, List.forall_mem_singleton.2 ⟨rfl, .and two apart flat⟩⟩
  | or two apart flat => exact ⟨le_trans one_le_two two, fun c hc => ⟨apart c hc, flat c hc⟩⟩

theorem Flat.conj (hp : p.Flat) (hq : q.Flat) : (p.conj q).Flat := by
  obtain ⟨hlp, hcp⟩ := hp.conjuncts
  obtain ⟨hlq, hcq⟩ := hq.conjuncts
  have hchildren := List.forall_mem_append.2 ⟨hcp, hcq⟩
  apply Flat.and
  · rw [List.length_append]
    omega
  · intro c hc
    exact (hchildren c hc).1
  · intro c hc
    exact (hchildren c hc).2

theorem Flat.disj (hp : p.Flat) (hq : q.Flat) : (p.disj q).Flat := by
  obtain ⟨hlp, hcp⟩ := hp.disjuncts
  obtain ⟨hlq, hcq⟩ := hq.disjuncts
  have hchildren := List.forall_mem_append.2 ⟨hcp, hcq⟩
  apply Flat.or
  · rw [List.length_append]
    omega
  · intro c hc
    exact (hchildren c hc).1
  · intro c hc
    exact (hchildren c hc).2

/-! ## Single values -/

section

variable (property : String) (kind : FieldKind) (value : String)

theorem holds_notMatching (record : Json) :
    (notMatching property kind value).holds record = !(matching property kind value).holds record := by
  cases kind <;> rfl

theorem leaves_matching : (matching property kind value).leaves = [matching property kind value] := by
  cases kind <;> rfl

theorem leaves_notMatching : (notMatching property kind value).leaves = [notMatching property kind value] := by
  cases kind <;> rfl

theorem flat_matching : (matching property kind value).Flat := by
  apply Flat.leaf <;> cases kind <;> rfl

theorem flat_notMatching : (notMatching property kind value).Flat := by
  apply Flat.leaf <;> cases kind <;> rfl

end

end Predicate

/-! ## Compiled expressions -/

namespace FilterMap

variable {Q : Type} (map : FilterMap Q) (e : FilterExpr)

/-- a record satisfies a compiled expression exactly if the expression reads as true -/
theorem holds_compile (record : Json) : (map.compile e).holds record =
    e.reads fun value => (Predicate.matching map.property map.kind value).holds record := by
  induction e with
  | unary demand value =>
    cases demand with
    | present => rfl
    | absent token => exact Predicate.holds_notMatching map.property map.kind value record
  | and left right operator ihl ihr => rw [compile, Predicate.holds_conj, ihl, ihr, FilterExpr.reads]
  | or left right operator ihl ihr => rw [compile, Predicate.holds_disj, ihl, ihr, FilterExpr.reads]
  | group inner ih => exact ih

/-- the leaves of a compiled expression are its values, compiled one by one -/
theorem leaves_compile : (map.compile e).leaves = e.parts.map fun part => map.compile (.unary part.1 part.2) := by
  induction e with
  | unary demand value =>
    cases demand with
    | present => exact Predicate.leaves_matching map.property map.kind value
    | absent token => exact Predicate.leaves_notMatching map.property map.kind value
  | and left right operator ihl ihr =>
    rw [compile, Predicate.leaves_conj, ihl, ihr, FilterExpr.parts, List.map_append]
  | or left right operator ihl ihr =>
    rw [compile, Predicate.leaves_disj, ihl, ihr, FilterExpr.parts, List.map_append]
  | group inner ih => exact ih

theorem flat_compile : (map.compile e).Flat := by
  induction e with
  | unary demand value =>
    cases demand with
    | present => exact Predicate.flat_matching map.property map.kind value
    | absent token => exact Predicate.flat_notMatching map.property map.kind value
  | and left right operator ihl ihr => exact ihl.conj ihr
  | or left right operator ihl ihr => exact ihl.disj ihr
  | group inner ih => exact ih

/-- **A compiled expression means what the expression says.** It holds for a record exactly if the expression reads as
true there, whatever the record has at the property. It is flat, and its leaves are the values of the expression in their
order. The joints that it is made of are the conjunction and the disjunction of any two predicates, flat or not. -/
theorem compile_faithful :
    (∀ record, (map.compile e).holds record =
        e.reads fun value => (Predicate.matching map.property map.kind value).holds record) ∧
      (map.compile e).Flat ∧
      (map.compile e).leaves = e.parts.map (fun part => map.compile (.unary part.1 part.2)) ∧
      ∀ (p q : Predicate) (record : Json),
        (p.conj q).holds record = (p.holds record && q.holds record) ∧
          (p.disj q).holds record = (p.holds record || q.holds record) := by
  refine ⟨map.holds_compile e, map.flat_compile e, map.leaves_compile e, ?_⟩
  intro p q record
  exact ⟨Predicate.holds_conj record p q, Predicate.holds_disj record p q⟩

/-- groups vanish, and a conjunction inside a disjunction stays one child of it -/
example (map : FilterMap Q) :
    map.compile (.or (.group (.or (.matching "a") (.matching "b") "OR"))
        (.and (.matching "c") (.notMatching "-" "d") " ") " ") =
      .or [.matching map.property map.kind "a", .matching map.property map.kind "b",
        .and [.matching map.property map.kind "c", .notMatching map.property map.kind "d"]] := by
  obtain ⟨property, kind, custom⟩ := map
  cases kind <;> rfl

end FilterMap

end FieldSearch
