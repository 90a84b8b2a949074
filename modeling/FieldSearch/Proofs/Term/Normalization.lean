/-
Whether the normalized text of terms reads back.

- `canonical` is what a normalized text says: keywords for operators, a pair of parentheses around each pair of operands,
  and a name in front of every value. `canonical_literal`: its own text is the normalized text.
- `Requests`: what an operation asks of a query, as a tree: values for the builders, joined by `all` and `any`.
  `build_eq_perform`: building an operation makes its requests and no others, on every query.
- `requests_canonical`, `execute_canonical`: canonical operations ask the same, so builders receive the same calls for terms
  and for their canonical terms.
- `Apart`: a term for many values is not directly followed by a name that is a keyword. `parse_explicit_iff`: terms that
  are written with their names read back if they stand apart, and only then can their text be read at all.
-/
import FieldSearch.Proofs.Statement.Normalization
import FieldSearch.Proofs.Term.Literal
import FieldSearch.Query.Trace
import FieldSearch.Term.Compilation

namespace FieldSearch

/-! ## What an operation asks of a query -/

/-- values for the builders of a term, joined by branches -/
inductive Requests where
  | matching (value : String)
  | notMatching (value : String)
  | all (left right : Requests)
  | any (left right : Requests)
deriving DecidableEq, Repr

/-- makes requests, the branches as nested calls -/
def Requests.perform {Q : Type} [Query Q] (ctx : TermContext Q) : Requests → Q → Q
  | .matching value => ctx.applyMatch value
  | .notMatching value => ctx.applyNotMatch value
  | .all left right => Query.all [left.perform ctx, right.perform ctx]
  | .any left right => Query.any [left.perform ctx, right.perform ctx]

namespace Operation

/-- the requests of an operation; `left NOT value` asks for both, the value excluded -/
def requests : Operation → Requests
  | .unary value => .matching value
  | .notUnary _ value => .notMatching value
  | .and left right _ => .all left.requests right.requests
  | .or left right _ => .any left.requests right.requests
  | .not left value _ => .all left.requests (.notMatching value)
  | .group inner => inner.requests

/-- building an operation makes its requests -/
theorem build_eq_perform {Q : Type} [Query Q] (ctx : TermContext Q) (n : Operation) :
    n.build ctx = n.requests.perform ctx := by
  induction n with
  | unary value => rfl
  | notUnary operator value => rfl
  | and left right operator ihl ihr => simp only [build, requests, Requests.perform, ihl, ihr]
  | or left right operator ihl ihr => simp only [build, requests, Requests.perform, ihl, ihr]
  | not left value operator ih => simp only [build, requests, Requests.perform, ih]
  | group inner ih => exact ih

/-! ## Canonical operations -/

/-- the operation that the normalized text of an operation says -/
def canonical : Operation → Operation
  | .unary value => .unary value
  | .notUnary _ value => .notUnary "NOT" value
  | .and left right _ => .group (.and left.canonical right.canonical "AND")
  | .or left right _ => .group (.or left.canonical right.canonical "OR")
  | .not left value _ => .group (.not left.canonical value "NOT")
  | .group (.unary value) => .group (.unary value)
  | .group (.notUnary _ value) => .group (.notUnary "NOT" value)
  | .group inner => inner.canonical

theorem canonical_literal (n : Operation) : n.canonical.literal = n.normalized := by
  fun_induction canonical n with
  | case1 value => rfl
  | case2 token value => rfl
  | case3 left right op ihl ihr =>
    rw [literal, literal, joinOperands_keyword (by decide), ihl, ihr, normalized, ← String.toList_inj]
    simp
  | case4 left right op ihl ihr =>
    rw [literal, literal, joinOperands_keyword (by decide), ihl, ihr, normalized, ← String.toList_inj]
    simp
  | case5 left value op ih =>
    rw [literal, literal, writeNegated, if_pos rfl, ih, normalized, ← String.toList_inj]
    simp
  | case6 value => rfl
  | case7 token value =>
    rw [literal, literal, writeNegated, if_pos rfl, normalized, ← String.toList_inj]
    simp
  | case8 inner hpos hneg ih => rw [ih, normalized] <;> assumption

theorem canonical_operand (n : Operation) : n.canonical.isOperand = true := by
  fun_induction canonical n <;> first | rfl | assumption

/-- every operation has a canonical one that its own text spells out -/
theorem canonical_wellShaped (n : Operation) : n.canonical.WellShaped := by
  fun_induction canonical n with
  | case1 value => trivial
  | case2 token value => exact List.mem_cons_self
  | case3 left right op ihl ihr =>
    exact ⟨ihl, ihr, conjunction_of_operand (canonical_operand left), canonical_operand right, Or.inl rfl⟩
  | case4 left right op ihl ihr =>
    exact ⟨ihl, ihr, conjunction_of_operand (canonical_operand right), Or.inl rfl⟩
  | case5 left value op ih => exact ⟨ih, List.mem_cons_self⟩
  | case6 value => trivial
  | case7 token value => exact List.mem_cons_self
  | case8 inner _ _ ih => exact ih

/-- the canonical operation is its own canonical form, as far as texts tell -/
theorem canonical_normalized (n : Operation) : n.canonical.normalized = n.normalized := by
  fun_induction canonical n with
  | case1 value => rfl
  | case2 token value => rfl
  | case3 left right op ihl ihr => simp only [normalized, ihl, ihr]
  | case4 left right op ihl ihr => simp only [normalized, ihl, ihr]
  | case5 left value op ih => simp only [normalized, ih]
  | case6 value => rfl
  | case7 token value => rfl
  | case8 inner hpos hneg ih => rw [ih, normalized] <;> assumption

/-- parentheses and the spelling of operators do not matter to requests -/
theorem requests_canonical (n : Operation) : n.canonical.requests = n.requests := by
  fun_induction canonical n with
  | case1 value => rfl
  | case2 token value => rfl
  | case3 left right op ihl ihr => simp only [requests, ihl, ihr]
  | case4 left right op ihl ihr => simp only [requests, ihl, ihr]
  | case5 left value op ih => simp only [requests, ih]
  | case6 value => rfl
  | case7 token value => rfl
  | case8 inner _ _ ih => simpa only [requests] using ih

/-- nor to builders -/
theorem build_canonical {Q : Type} [Query Q] (ctx : TermContext Q) (n : Operation) :
    n.canonical.build ctx = n.build ctx := by
  rw [build_eq_perform, requests_canonical, ← build_eq_perform]

end Operation

namespace Term

/-- the term that the normalized text of a term says -/
def canonical (t : Term) : Term := .named t.name t.operation.canonical

@[simp] theorem canonical_name (t : Term) : t.canonical.name = t.name := rfl

theorem canonical_literal (t : Term) : t.canonical.literal = t.normalized := by
  rw [canonical, literal, t.operation.canonical_literal, normalized]

theorem canonical_normalized (t : Term) : t.canonical.normalized = t.normalized := by
  rw [normalized, normalized, canonical_name, ← t.operation.canonical_normalized]
  rfl

/-- a term that is written with its name and a single operand -/
def Explicit (t : Term) : Prop :=
  ∃ name n, t = .named name n ∧ n.WellShaped ∧ n.isOperand = true

theorem canonical_explicit (t : Term) : t.canonical.Explicit :=
  ⟨t.name, t.operation.canonical, rfl, t.operation.canonical_wellShaped, t.operation.canonical_operand⟩

end Term

theorem canonical_literalTerms (terms : List Term) : literalTerms (terms.map Term.canonical) = normalizedTerms terms := by
  simp only [literalTerms, normalizedTerms, List.map_map, Function.comp_def, Term.canonical_literal]

theorem canonical_normalizedTerms (terms : List Term) :
    normalizedTerms (terms.map Term.canonical) = normalizedTerms terms := by
  simp only [normalizedTerms, List.map_map, Function.comp_def, Term.canonical_normalized]

namespace TermRegistry

variable {Q : Type} {r : TermRegistry Q}

/-- builders receive the same calls for canonical terms -/
theorem execute_canonical [Query Q] (services : Services) (terms : List Term) (q : Q) :
    r.execute services (terms.map Term.canonical) q = r.execute services terms q := by
  have hterm : ∀ q t, r.applyTerm services q t.canonical = r.applyTerm services q t := by
    intro q t
    simp only [applyTerm, Term.canonical, Term.operation, Operation.build_canonical]
    rfl
  calc r.execute services (terms.map Term.canonical) q
      = terms.foldl (fun q t => r.applyTerm services q t.canonical) q := List.foldl_map
    _ = r.execute services terms q := by simp only [hterm]; rfl

/-! ## Terms with their names read back -/

/-- a term for many values is not followed by a name that is a keyword -/
def Apart (r : TermRegistry Q) (s t : Term) : Prop := r.conditionOf s.name = .many → t.name ∉ keywords

instance (s t : Term) : Decidable (r.Apart s t) := inferInstanceAs (Decidable (_ → _))

theorem canonical_bound {t : Term} (h : r.Bound t) : r.Bound t.canonical where
  identifier := h.identifier
  spelled := h.spelled
  single hc := by
    obtain ⟨v, hv⟩ := h.single hc
    exact ⟨v, by rw [Term.canonical, Term.operation, hv]; rfl⟩

theorem legible_explicit {t : Term} (hb : r.Bound t) (ht : t.Explicit) : r.Legible t := by
  obtain ⟨name, n, rfl, hw, -⟩ := ht
  exact ⟨hb, hw, fun hd => absurd hd Bool.false_ne_true⟩

/-- the value of a term with a name ends in front of a name from which the term stands apart -/
theorem endsBefore_explicit {s : Term} {post : List Term} (hpost : ∀ t ∈ post, t.Explicit)
    (hapart : ∀ t ∈ post.head?, r.Apart s t) (hmany : r.conditionOf s.name = .many) : s.operation.EndsBefore post := by
  cases post with
  | nil => trivial
  | cons t post =>
    obtain ⟨name, n, rfl, -, -⟩ := hpost t List.mem_cons_self
    exact Or.inl (hapart _ rfl hmany)

/-- a term for many values cannot be read in front of a name that is a keyword -/
theorem readTerm_fails (hr : r.Keyed) {s t : Term} (hs : s.Explicit) (hb : r.Bound s) (hapart : ¬r.Apart s t) {c : Cursor}
    {cs : List Char} (h : c.rest = s.literal.toList ++ ' ' :: (t.name.toList ++ ':' :: cs)) :
    (r.readTerm c).value = none := by
  obtain ⟨k, -, hv, hread⟩ := readTerm_place hr (legible_explicit hb hs) h (ends_blank _)
  obtain ⟨name, n, rfl, hw, ho⟩ := hs
  simp only [Apart, Classical.not_imp, not_not] at hapart
  obtain ⟨hc, hk⟩ := hapart
  have hnone := Operation.readMany_fails hw hk (fun _ => Operation.conjunction_of_operand ho) hv
  rw [hread, hc, Reply.map_eq_none]
  exact hnone

/-- where a list does not stand apart, it does up to a first place -/
theorem exists_seam {α : Type} {R : α → α → Prop} {l : List α} (h : ¬l.IsChain R) :
    ∃ pre x y post, l = pre ++ x :: y :: post ∧ (pre ++ [x]).IsChain R ∧ ¬R x y := by
  classical
  induction l with
  | nil => exact absurd .nil h
  | cons x rest ih =>
    cases rest with
    | nil => exact absurd (.singleton x) h
    | cons y rest =>
      by_cases hxy : R x y
      · obtain ⟨pre, u, v, post, hl, hchain, huv⟩ := ih fun hc => h (List.isChain_cons_cons.2 ⟨hxy, hc⟩)
        refine ⟨x :: pre, u, v, post, by rw [hl]; rfl, ?_, huv⟩
        cases pre with
        | nil =>
          obtain ⟨rfl, -⟩ := List.cons.inj hl
          exact List.isChain_cons_cons.2 ⟨hxy, hchain⟩
        | cons p pre =>
          obtain ⟨rfl, -⟩ := List.cons.inj hl
          exact List.isChain_cons_cons.2 ⟨hxy, hchain⟩
      · exact ⟨[], x, y, rest, rfl, .singleton x, hxy⟩

variable {terms : List Term}

/-- a term reads back where the terms up to the next one stand apart -/
theorem readTerm_between (hr : r.Keyed) (hterms : ∀ t ∈ terms, r.Bound t ∧ t.Explicit) {pre post : List Term} {a : Term}
    (hp : terms = pre ++ a :: post) (hapart : ∀ t ∈ post.head?, r.Apart a t) {c : Cursor}
    (hc : c.rest = a.literal.toList ++ writtenBehind (post.map Term.literal)) :
    (r.readTerm c).value = some (a, c.advance a.literal.length) := by
  have hmem : ∀ t ∈ a :: post, r.Bound t ∧ t.Explicit := fun t ht =>
    hterms t (by rw [hp]; exact List.mem_append_right pre ht)
  have hlegible : ∀ t ∈ a :: post, r.Legible t := fun t ht => legible_explicit (hmem t ht).1 (hmem t ht).2
  obtain ⟨ha, hpost⟩ := List.forall_mem_cons.1 hlegible
  have hnext : ∀ t ∈ post.head?, r.MayFollow a t := by
    intro t ht _ hd
    obtain ⟨name, n, rfl, -, -⟩ := (hmem t (List.mem_cons_of_mem a (List.mem_of_head? ht))).2
    exact absurd hd Bool.false_ne_true
  refine (readTerm_written_iff hr ha hpost hnext hc).2 ⟨fun hmany => ?_, rfl⟩
  exact endsBefore_explicit (fun t ht => (hmem t (List.mem_cons_of_mem a ht)).2) hapart hmany

theorem parse_explicit (hr : r.Keyed) (hterms : ∀ t ∈ terms, r.Bound t ∧ t.Explicit) (hapart : terms.IsChain r.Apart) :
    r.parse (literalTerms terms) = .ok terms := by
  refine readAll_written (readTerm_advances hr) (fun t ht => ?_) fun pre a post hp c hc => ?_
  · exact literal_solid (legible_explicit (hterms t ht).1 (hterms t ht).2)
  · have hsuffix : a :: post <:+ terms := ⟨pre, hp.symm⟩
    exact readTerm_between hr hterms hp (List.isChain_cons.1 (hapart.suffix hsuffix)).1 hc

theorem parse_explicit_fails (hr : r.Keyed) (hterms : ∀ t ∈ terms, r.Bound t ∧ t.Explicit)
    (hapart : ¬terms.IsChain r.Apart) (read : List Term) : r.parse (literalTerms terms) ≠ .ok read := by
  obtain ⟨pre, s, t, post, rfl, hpre, hst⟩ := exists_seam hapart
  refine readAll_fails (fun t ht => ?_) (fun pre' a post' hp c hc => ?_) (fun c hc => ?_) read
  · exact literal_solid (legible_explicit (hterms t ht).1 (hterms t ht).2)
  · have hnext : ∀ u ∈ (post' ++ s :: t :: post).head?, r.Apart a u := by
      have hsuffix : a :: (post' ++ [s]) <:+ pre ++ [s] := ⟨pre', by rw [hp]; simp⟩
      have hhead := (List.isChain_cons.1 (hpre.suffix hsuffix)).1
      cases post' with
      | nil => exact hhead
      | cons b post' => exact hhead
    have hp' : pre ++ s :: t :: post = pre' ++ a :: (post' ++ s :: t :: post) := by rw [hp]; simp
    exact readTerm_between hr hterms hp' hnext hc
  · obtain ⟨hbs, hes⟩ := hterms s (by simp)
    obtain ⟨-, name, n, rfl, -, -⟩ := hterms t (by simp)
    obtain ⟨cs, hcs⟩ := writtenBehind_named name n post
    exact readTerm_fails hr hes hbs hst (by rw [hc, hcs]; rfl)

/-- terms with their names read back if they stand apart, and else nothing is read -/
theorem parse_explicit_iff (hr : r.Keyed) (hterms : ∀ t ∈ terms, r.Bound t ∧ t.Explicit) :
    (∃ read, r.parse (literalTerms terms) = .ok read) ↔ terms.IsChain r.Apart := by
  refine ⟨fun ⟨read, h⟩ => ?_, fun h => ⟨terms, parse_explicit hr hterms h⟩⟩
  by_contra hn
  exact parse_explicit_fails hr hterms hn read h

/-- **Normalizing terms settles at once and keeps the meaning exactly where they stand apart.** The normalized text of what
a text says reads back, with the same normalized text and the same calls of builders, unless a term for many values is
directly followed by a term whose name is a keyword. -/
theorem normalized_faithful_iff [Query Q] {options : List (TermOption Q)} {text : String} (hr : ofTerms options = .ok r)
    (h : r.parse text = .ok terms) :
    (∃ read, r.parse (normalizedTerms terms) = .ok read ∧ normalizedTerms read = normalizedTerms terms ∧
        r.normalize (normalizedTerms terms) = .ok (normalizedTerms terms) ∧
        ∀ services q, r.execute services read q = r.execute services terms q) ↔
      terms.IsChain r.Apart := by
  have hkeyed := ofTerms_keyed hr
  have hterms : ∀ t ∈ terms.map Term.canonical, r.Bound t ∧ t.Explicit := by
    rw [List.forall_mem_map]
    exact fun t ht => ⟨canonical_bound (parse_bound hkeyed h t ht), t.canonical_explicit⟩
  have hapart : (terms.map Term.canonical).IsChain r.Apart ↔ terms.IsChain r.Apart := by
    rw [List.isChain_map]; rfl
  have hiff := parse_explicit_iff hkeyed hterms
  rw [canonical_literalTerms, hapart] at hiff
  refine ⟨fun ⟨read, hread, _⟩ => hiff.1 ⟨read, hread⟩, fun hc => ?_⟩
  have hread := parse_explicit hkeyed hterms (hapart.2 hc)
  rw [canonical_literalTerms] at hread
  refine ⟨_, hread, canonical_normalizedTerms terms, ?_, fun services q => execute_canonical services terms q⟩
  rw [normalize, hread, Except.map, canonical_normalizedTerms]

/-- leaves a note of each value -/
def noted (mark : String) : Builder (Trace String) := fun _ value => Trace.record (.note (mark ++ value))

/-- a term for many values and one whose name is a keyword -/
def notedTerms : List (TermOption (Trace String)) :=
  [⟨"t", true, .many (noted "+") (noted "-")⟩, ⟨"OR", false, .one (noted "=")⟩]

/-- their registry -/
def notedRegistry : TermRegistry (Trace String) := ⟨⟨[
  ("t", ⟨"t", true, .many (noted "+") (noted "-")⟩), ("or", ⟨"OR", false, .one (noted "=")⟩)]⟩, some "t"⟩

/-- names that are keywords do no harm behind a term for one value -/
theorem normalized_faithful_noted :
    ofTerms notedTerms = .ok notedRegistry ∧
      notedRegistry.parse "or:\"x y\" AND:z a NOT b || -c T:(d)" = .ok [.named "OR" (.unary "x y"),
        .named "AND" (.unary "z"), .default "t" (.or (.not (.unary "a") "b" "NOT") (.notUnary "-" "c") "||"),
        .named "t" (.group (.unary "d"))] ∧
      notedRegistry.normalize "OR:\"x y\" AND:z t:((a NOT b) OR NOT c) t:(d)" =
        .ok "OR:\"x y\" AND:z t:((a NOT b) OR NOT c) t:(d)" := by
  have hr : ofTerms notedTerms = .ok notedRegistry := rfl
  have hp : notedRegistry.parse "or:\"x y\" AND:z a NOT b || -c T:(d)" = .ok [.named "OR" (.unary "x y"),
      .named "AND" (.unary "z"), .default "t" (.or (.not (.unary "a") "b" "NOT") (.notUnary "-" "c") "||"),
      .named "t" (.group (.unary "d"))] := by decide +kernel
  obtain ⟨-, -, -, hnormal, -⟩ := (normalized_faithful_iff hr hp).2 (by decide)
  exact ⟨hr, hp, hnormal⟩

/-- behind a term for many values the name is taken for an operator -/
theorem normalized_unreadable_noted :
    ofTerms notedTerms = .ok notedRegistry ∧
      notedRegistry.parse "t:x or:y" = .ok [.named "t" (.unary "x"), .named "OR" (.unary "y")] ∧
      normalizedTerms [.named "t" (.unary "x"), .named "OR" (.unary "y")] = "t:x OR:y" ∧
      notedRegistry.parse "t:x OR:y" = .error (.parse 6 (.expected .value)) :=
  ⟨rfl, by decide +kernel, by decide, by decide +kernel⟩

end TermRegistry

end FieldSearch
