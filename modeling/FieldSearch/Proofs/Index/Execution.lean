/-
What an execution asks of a query.

- `Reachable`: the contexts that registrations build. In such a context a default filter, once set, is registered
  (`Reachable.defaultFilter`).
- `effective`: the places of the sorts that count. These are all sorts of the text that are registered; if there is none,
  it is the first default sort that is registered.
- `calls`: the calls, statement by statement. Each filter that is registered narrows the query; the first sort that counts
  sets the primary key and every later one adds a key.
- `step_calls`: one statement makes its call. `run_take`: the statements up to a place make the calls up to this place.
- `execute_calls`: an execution makes exactly these calls.
-/
import FieldSearch.Index.Execution
import FieldSearch.Proofs.Registry
import FieldSearch.Query.Trace
import Mathlib.Data.List.Sort

namespace FieldSearch

/-! ## Contexts that registrations build -/

namespace IndexContext

variable {Q : Type}

/-- a context that registrations build; a refused one changes nothing -/
inductive Reachable : IndexContext Q → Prop
  | empty : Reachable {}
  | filter {ctx ctx' : IndexContext Q} (name : String) (map : FilterMap Q) :
      Reachable ctx → ctx.addFilter name map = .ok ctx' → Reachable ctx'
  | sort {ctx ctx' : IndexContext Q} (name property : String) :
      Reachable ctx → ctx.addSort name property = .ok ctx' → Reachable ctx'
  | default {ctx ctx' : IndexContext Q} (name : String) :
      Reachable ctx → ctx.setDefaultFilter name = .ok ctx' → Reachable ctx'

/-- the default filter is registered -/
theorem Reachable.defaultFilter {ctx : IndexContext Q} (h : ctx.Reachable) {key : String}
    (hkey : ctx.defaultFilter = some key) : (ctx.filter? key).isSome = true := by
  induction h with
  | empty => cases hkey
  | filter name map _ hadd ih =>
    obtain ⟨filters, hfilters, rfl⟩ := map_eq_ok hadd
    obtain ⟨map, hmap⟩ := Option.isSome_iff_exists.1 (ih hkey)
    exact Option.isSome_iff_exists.2 ⟨map, Registry.get?_of_add hfilters hmap⟩
  | sort name property _ hadd ih =>
    obtain ⟨sorts, -, rfl⟩ := map_eq_ok hadd
    exact ih hkey
  | default name _ hset =>
    unfold setDefaultFilter at hset
    split at hset
    · cases hset
    · split_ifs at hset with hhas
      cases hset
      cases hkey
      rwa [filter?, Registry.get?, nameKey_nameKey]

/-! ## The sorts that count -/

/-- the key that a sort asks for, if it is registered -/
def sortKey? (ctx : IndexContext Q) : Statement → Option (Direction × String)
  | .sort field direction | .defaultSort field direction =>
    (ctx.sort? field).map fun property => (direction.direction, property)
  | _ => none

/-- whether a statement is a sort of the text and registered -/
def isRegisteredSort (ctx : IndexContext Q) (s : Statement) : Bool := s.isSort && (ctx.sortKey? s).isSome

/-- whether a statement is a default sort and registered -/
def isRegisteredDefault (ctx : IndexContext Q) (s : Statement) : Bool := s.isDefaultSort && (ctx.sortKey? s).isSome

/-- the places of the sorts that count -/
def effective (ctx : IndexContext Q) (statements : List Statement) : List Nat :=
  if statements.any ctx.isRegisteredSort then
    (List.range statements.length).filter fun i => statements[i]?.any ctx.isRegisteredSort
  else ((List.range statements.length).find? fun i => statements[i]?.any ctx.isRegisteredDefault).toList

/-- the keys of the sorts that count -/
def effectiveKeys (ctx : IndexContext Q) (statements : List Statement) : List (Direction × String) :=
  (ctx.effective statements).filterMap fun i => statements[i]?.bind ctx.sortKey?

/-! ## Calls -/

/-- a call that a query receives -/
inductive Request (Q : Type) where
  | filter (map : FilterMap Q) (predicate : Predicate)
  | orderBy (direction : Direction) (property : String)
  | thenBy (direction : Direction) (property : String)

/-- the query after a call -/
def Request.perform [Query Q] : Request Q → Q → Q
  | .filter map predicate => map.apply predicate
  | .orderBy direction property => Query.orderBy direction property
  | .thenBy direction property => Query.thenBy direction property

/-- the query after some calls -/
def performAll [Query Q] (requests : List (Request Q)) (q : Q) : Q := requests.foldl (fun q r => r.perform q) q

/-- whether a call narrows the query -/
def Request.isFilter : Request Q → Bool
  | .filter .. => true
  | _ => false

/-- the calls for keys: the first one is the primary key -/
def orderings : List (Direction × String) → List (Request Q)
  | [] => []
  | (direction, property) :: keys => .orderBy direction property :: keys.map fun key => .thenBy key.1 key.2

/-- the call of a filter, if it is registered -/
def filterRequest? (ctx : IndexContext Q) : Statement → Option (Request Q)
  | .fieldFilter name e => (ctx.filter? name).map fun map => .filter map (map.compile e)
  | .defaultFilter e =>
    ctx.defaultFilter.bind fun key => (ctx.filter? key).map fun map => .filter map (map.compile e)
  | _ => none

/-- the call of a sort at a place, if it counts -/
def sortRequest? (ctx : IndexContext Q) (statements : List Statement) (i : Nat) (s : Statement) : Option (Request Q) :=
  if i ∈ ctx.effective statements then
    (ctx.sortKey? s).map fun key =>
      if (ctx.effective statements).head? = some i then .orderBy key.1 key.2 else .thenBy key.1 key.2
  else none

/-- the call that the statement at a place makes -/
def requestAt? (ctx : IndexContext Q) (statements : List Statement) (i : Nat) : Option (Request Q) :=
  statements[i]?.bind fun s => (ctx.filterRequest? s).or (ctx.sortRequest? statements i s)

/-- the calls that statements make, in the order of the statements -/
def calls (ctx : IndexContext Q) (statements : List Statement) : List (Request Q) :=
  (List.range statements.length).filterMap (ctx.requestAt? statements)

/-! ## Which sorts count -/

variable (ctx : IndexContext Q) {statements : List Statement} {n : Nat} {s : Statement}

theorem ordersExplicitly_eq (statements : List Statement) :
    ctx.ordersExplicitly statements = statements.any ctx.isRegisteredSort := by
  rw [ordersExplicitly]
  congr 1
  funext s
  cases s <;> simp [isRegisteredSort, Statement.isSort, sortKey?]

/-- whether a sort that counts stands before a place -/
def sortedBefore (statements : List Statement) (n : Nat) : Bool := (ctx.effective statements).any (· < n)

/-- a statement counts if it is a registered sort of the text, or, in a text without one, the first registered default
sort -/
theorem mem_effective (hs : statements[n]? = some s) :
    n ∈ ctx.effective statements ↔
      if statements.any ctx.isRegisteredSort then ctx.isRegisteredSort s = true
      else ctx.isRegisteredDefault s = true ∧ ctx.sortedBefore statements n = false := by
  obtain ⟨hn, -⟩ := List.getElem?_eq_some_iff.1 hs
  unfold sortedBefore effective
  split_ifs with hexplicit
  · rw [List.mem_filter, hs, List.mem_range, Option.any_some]
    exact and_iff_right hn
  · cases hfind : (List.range statements.length).find? fun i => statements[i]?.any ctx.isRegisteredDefault with
    | none =>
      have hno := List.find?_eq_none.1 hfind n (List.mem_range.2 hn)
      simp only [hs, Option.any_some] at hno
      simp [hno]
    | some m =>
      obtain ⟨hm, -, hfirst⟩ := List.find?_range_eq_some.1 hfind
      simp only [Option.toList_some, List.mem_singleton, List.any_cons, List.any_nil, Bool.or_false,
        decide_eq_false_iff_not, not_lt]
      constructor
      · rintro rfl
        rw [hs, Option.any_some] at hm
        exact ⟨hm, le_rfl⟩
      · rintro ⟨hdefault, hle⟩
        refine le_antisymm hle (not_lt.1 fun hlt => ?_)
        have hno := hfirst n hlt
        simp [hs, hdefault] at hno

/-- a statement that counts asks for a key -/
theorem sortKey?_of_effective (hs : statements[n]? = some s) (h : n ∈ ctx.effective statements) :
    ∃ key, ctx.sortKey? s = some key := by
  rw [mem_effective ctx hs] at h
  refine Option.isSome_iff_exists.1 ?_
  split_ifs at h
  · exact (Bool.and_eq_true_iff.1 h).2
  · exact (Bool.and_eq_true_iff.1 h.1).2

/-- the places of the sorts that count ascend -/
theorem effective_ascending (statements : List Statement) : (ctx.effective statements).Pairwise (· < ·) := by
  rw [effective]
  split_ifs
  · exact List.pairwise_lt_range.filter _
  · cases (List.range statements.length).find? fun i => statements[i]?.any ctx.isRegisteredDefault with
    | none => exact .nil
    | some m => exact List.pairwise_singleton _ m

theorem lt_of_mem_effective (h : n ∈ ctx.effective statements) : n < statements.length := by
  rw [effective] at h
  split_ifs at h
  · exact List.mem_range.1 (List.mem_filter.1 h).1
  · exact List.mem_range.1 (List.mem_of_find?_eq_some (Option.mem_toList.1 h))

/-- at the end of a list all sorts that count stand before -/
theorem sortedBefore_length (statements : List Statement) :
    ctx.sortedBefore statements statements.length = !(ctx.effective statements).isEmpty := by
  rw [sortedBefore]
  cases heff : ctx.effective statements with
  | nil => rfl
  | cons m rest =>
    have hm : m ∈ ctx.effective statements := by
      rw [heff]
      exact List.mem_cons_self
    rw [List.any_cons, decide_eq_true (ctx.lt_of_mem_effective hm), Bool.true_or]
    rfl

theorem sortedBefore_succ (statements : List Statement) (n : Nat) :
    ctx.sortedBefore statements (n + 1) = (ctx.sortedBefore statements n || decide (n ∈ ctx.effective statements)) := by
  rw [Bool.eq_iff_iff]
  simp only [sortedBefore, List.any_eq_true, decide_eq_true_eq, Bool.or_eq_true, Nat.lt_succ_iff_lt_or_eq]
  constructor
  · rintro ⟨i, hi, hlt | rfl⟩
    · exact Or.inl ⟨i, hi, hlt⟩
    · exact Or.inr hi
  · rintro (⟨i, hi, hlt⟩ | hn)
    · exact ⟨i, hi, Or.inl hlt⟩
    · exact ⟨n, hn, Or.inr rfl⟩

/-- the first sort that counts is the one that none stands before -/
theorem head?_effective (h : n ∈ ctx.effective statements) :
    (ctx.effective statements).head? = some n ↔ ctx.sortedBefore statements n = false := by
  have hascending := ctx.effective_ascending statements
  rw [sortedBefore]
  cases heff : ctx.effective statements with
  | nil =>
    rw [heff] at h
    cases h
  | cons m rest =>
    rw [heff] at h hascending
    obtain ⟨hleast, -⟩ := List.pairwise_cons.1 hascending
    simp only [List.head?_cons, Option.some.injEq, List.any_eq_false, decide_eq_true_eq, not_lt, List.forall_mem_cons]
    constructor
    · rintro rfl
      exact ⟨le_rfl, fun i hi => (hleast i hi).le⟩
    · rintro ⟨hle, -⟩
      rcases List.mem_cons.1 h with rfl | hmem
      · rfl
      · exact absurd (hleast n hmem) (not_lt.2 hle)

/-- a statement filters or sorts, not both -/
theorem filterRequest?_or_sortKey? (s : Statement) : ctx.filterRequest? s = none ∨ ctx.sortKey? s = none := by
  cases s with
  | defaultFilter | fieldFilter => exact Or.inr rfl
  | sort | defaultSort => exact Or.inl rfl

/-! ## What a statement does -/

variable [Query Q]

/-- a query on its way, with a sort key more -/
def Progress.addKey (p : Progress Q) (key : Direction × String) : Progress Q :=
  ⟨true, Query.sortBy p.hasOrder key.1 key.2 p.query⟩

theorem step_sort (explicit : Bool) (p : Progress Q) (field : String) (direction : SortExpr) :
    ctx.step explicit p (.sort field direction) = (ctx.sortKey? (.sort field direction)).elim p p.addKey := by
  simp only [step, applySort, sortKey?]
  cases ctx.sort? field <;> rfl

theorem step_defaultSort (explicit : Bool) (p : Progress Q) (field : String) (direction : SortExpr) :
    ctx.step explicit p (.defaultSort field direction) =
      if explicit || p.hasOrder then p else (ctx.sortKey? (.defaultSort field direction)).elim p p.addKey := by
  simp only [step, applySort, sortKey?]
  cases ctx.sort? field <;> rfl

/-- a sort that counts adds its key -/
theorem step_effective (hs : statements[n]? = some s) (h : n ∈ ctx.effective statements) {key : Direction × String}
    (hkey : ctx.sortKey? s = some key) (q : Q) :
    ctx.step (ctx.ordersExplicitly statements) ⟨ctx.sortedBefore statements n, q⟩ s =
      Progress.addKey ⟨ctx.sortedBefore statements n, q⟩ key := by
  cases s with
  | defaultFilter | fieldFilter => cases hkey
  | sort field direction =>
    rw [step_sort, hkey]
    rfl
  | defaultSort field direction =>
    rw [mem_effective ctx hs] at h
    split_ifs at h with hexplicit
    · exact absurd h Bool.false_ne_true
    · rw [Bool.not_eq_true] at hexplicit
      rw [step_defaultSort, ordersExplicitly_eq, hexplicit, h.2, hkey]
      rfl

/-- any other statement makes the call of its filter at most -/
theorem step_ineffective (hs : statements[n]? = some s) (h : n ∉ ctx.effective statements) (q : Q) :
    ctx.step (ctx.ordersExplicitly statements) ⟨ctx.sortedBefore statements n, q⟩ s =
      ⟨ctx.sortedBefore statements n, performAll (ctx.filterRequest? s).toList q⟩ := by
  rw [mem_effective ctx hs] at h
  cases s with
  | defaultFilter e =>
    rw [step, filterRequest?]
    cases ctx.defaultFilter with
    | none => rfl
    | some key =>
      simp only [applyFilter, Option.bind_some]
      cases ctx.filter? key <;> rfl
  | fieldFilter name e =>
    simp only [step, filterRequest?, applyFilter]
    cases ctx.filter? name <;> rfl
  | sort field direction =>
    have hno : ctx.sortKey? (.sort field direction) = none := by
      rw [← Option.not_isSome_iff_eq_none]
      intro hkey
      have hexplicit : statements.any ctx.isRegisteredSort = true :=
        List.any_eq_true.2 ⟨_, List.mem_of_getElem? hs, hkey⟩
      rw [if_pos hexplicit] at h
      exact h hkey
    rw [step_sort, hno]
    rfl
  | defaultSort field direction =>
    rw [step_defaultSort, ordersExplicitly_eq]
    split_ifs at h with hexplicit
    · rw [hexplicit]
      rfl
    · rw [Bool.not_eq_true] at hexplicit
      rw [hexplicit]
      cases hbefore : ctx.sortedBefore statements n with
      | true => rfl
      | false =>
        have hno : ctx.sortKey? (.defaultSort field direction) = none := by
          rw [← Option.not_isSome_iff_eq_none]
          exact fun hkey => h ⟨hkey, hbefore⟩
        rw [hno]
        rfl

/-- **One statement makes its call**, and a sort that counts stands before the next place if one stood before this one or
this one counts. -/
theorem step_calls (hs : statements[n]? = some s) (q : Q) :
    ctx.step (ctx.ordersExplicitly statements) ⟨ctx.sortedBefore statements n, q⟩ s =
      ⟨ctx.sortedBefore statements (n + 1), performAll (ctx.requestAt? statements n).toList q⟩ := by
  rw [sortedBefore_succ, requestAt?, hs, Option.bind_some]
  by_cases h : n ∈ ctx.effective statements
  · obtain ⟨key, hkey⟩ := ctx.sortKey?_of_effective hs h
    have hfilter : ctx.filterRequest? s = none := by
      rcases ctx.filterRequest?_or_sortKey? s with hno | hno
      · exact hno
      · rw [hkey] at hno
        cases hno
    have hrequest : ctx.sortRequest? statements n s =
        some (if ctx.sortedBefore statements n = false then .orderBy key.1 key.2 else .thenBy key.1 key.2) := by
      rw [sortRequest?, if_pos h, hkey]
      simp only [head?_effective ctx h, Option.map_some]
    rw [step_effective ctx hs h hkey, hfilter, hrequest, Option.none_or, decide_eq_true h, Bool.or_true, Progress.addKey]
    cases ctx.sortedBefore statements n <;> rfl
  · rw [step_ineffective ctx hs h, sortRequest?, if_neg h, Option.or_none, decide_eq_false h, Bool.or_false]

theorem performAll_append (l r : List (Request Q)) (q : Q) : performAll (l ++ r) q = performAll r (performAll l q) :=
  List.foldl_append

/-- the statements up to a place make the calls up to this place -/
theorem run_take (hn : n ≤ statements.length) (q : Q) :
    (statements.take n).foldl (ctx.step (ctx.ordersExplicitly statements)) ⟨false, q⟩ =
      ⟨ctx.sortedBefore statements n, performAll ((List.range n).filterMap (ctx.requestAt? statements)) q⟩ := by
  induction n with
  | zero =>
    have hnone : ctx.sortedBefore statements 0 = false := by simp [sortedBefore]
    rw [hnone]
    rfl
  | succ n ih =>
    have hs : statements[n]? = some statements[n] := List.getElem?_eq_getElem hn
    rw [List.take_succ_eq_append_getElem hn, List.foldl_append, ih (by omega), List.range_succ, List.filterMap_append,
      performAll_append, List.foldl_cons, List.foldl_nil, step_calls ctx hs]
    rfl

/-! ## The calls of each kind -/

omit [Query Q]

/-- the places of a list lead to its members -/
theorem filterMap_range {α β : Type} (l : List α) (f : α → Option β) :
    (List.range l.length).filterMap (fun i => l[i]?.bind f) = l.filterMap f := by
  induction l with
  | nil => rfl
  | cons a l ih =>
    rw [List.length_cons, List.range_succ_eq_map, List.filterMap_cons, List.filterMap_map, List.filterMap_cons, ← ih]
    rfl

theorem filterRequest?_isFilter {r : Request Q} (h : ctx.filterRequest? s = some r) : r.isFilter = true := by
  cases s with
  | defaultFilter e =>
    obtain ⟨key, -, h⟩ := Option.bind_eq_some_iff.1 h
    obtain ⟨map, -, rfl⟩ := Option.map_eq_some_iff.1 h
    rfl
  | fieldFilter name e =>
    obtain ⟨map, -, rfl⟩ := Option.map_eq_some_iff.1 h
    rfl
  | sort | defaultSort => cases h

theorem sortRequest?_isFilter {r : Request Q} (h : ctx.sortRequest? statements n s = some r) : r.isFilter = false := by
  rw [sortRequest?] at h
  split_ifs at h
  all_goals
    obtain ⟨key, -, rfl⟩ := Option.map_eq_some_iff.1 h
    rfl

/-- the call at a place, taken apart by its kind -/
theorem requestAt?_kinds (hs : statements[n]? = some s) :
    (ctx.requestAt? statements n).filter Request.isFilter = ctx.filterRequest? s ∧
      (ctx.requestAt? statements n).filter (fun r => !r.isFilter) = ctx.sortRequest? statements n s := by
  rw [requestAt?, hs, Option.bind_some]
  cases hf : ctx.filterRequest? s with
  | some r =>
    have hkind := ctx.filterRequest?_isFilter hf
    have hsort : ctx.sortRequest? statements n s = none := by
      rcases ctx.filterRequest?_or_sortKey? s with hno | hno
      · rw [hf] at hno
        cases hno
      · rw [sortRequest?, hno, Option.map_none, ite_self]
    rw [Option.some_or, hsort]
    exact ⟨Option.filter_some_pos hkind, Option.filter_some_neg (by simp [hkind])⟩
  | none =>
    rw [Option.none_or]
    cases hr : ctx.sortRequest? statements n s with
    | none => exact ⟨rfl, rfl⟩
    | some r =>
      have hkind := ctx.sortRequest?_isFilter hr
      exact ⟨Option.filter_some_neg (by simp [hkind]), Option.filter_some_pos (by simp [hkind])⟩

/-- the filters that are called are those of the statements, in their order -/
theorem filter_calls (statements : List Statement) :
    (ctx.calls statements).filter Request.isFilter = statements.filterMap ctx.filterRequest? := by
  rw [calls, List.filter_filterMap, ← filterMap_range statements]
  refine List.filterMap_congr fun i hi => ?_
  have hs := List.getElem?_eq_getElem (List.mem_range.1 hi)
  rw [(ctx.requestAt?_kinds hs).1, hs, Option.bind_some]

theorem effective_eq_filter (statements : List Statement) :
    ctx.effective statements = (List.range statements.length).filter (· ∈ ctx.effective statements) := by
  refine (ctx.effective_ascending statements).eq_of_mem_iff (List.pairwise_lt_range.filter _) fun i => ?_
  rw [List.mem_filter, decide_eq_true_eq, List.mem_range]
  exact ⟨fun h => ⟨ctx.lt_of_mem_effective h, h⟩, fun h => h.2⟩

/-- the sorts that are called are those that count, in their order -/
theorem sort_calls (statements : List Statement) :
    (ctx.calls statements).filter (fun r => !r.isFilter) =
      (ctx.effective statements).filterMap fun i => statements[i]?.bind (ctx.sortRequest? statements i) := by
  rw [calls, List.filter_filterMap, effective_eq_filter, List.filterMap_filter]
  refine List.filterMap_congr fun i hi => ?_
  have hs := List.getElem?_eq_getElem (List.mem_range.1 hi)
  rw [(ctx.requestAt?_kinds hs).2, hs, Option.bind_some, sortRequest?]
  simp only [decide_eq_true_eq]
  split_ifs <;> rfl

/-- the first sort that counts sets the primary key, every later one adds a key -/
theorem sort_calls_orderings (statements : List Statement) :
    (ctx.calls statements).filter (fun r => !r.isFilter) = orderings (ctx.effectiveKeys statements) := by
  have hascending := ctx.effective_ascending statements
  have hmem : ∀ i ∈ ctx.effective statements, statements[i]?.bind (ctx.sortRequest? statements i) =
      (statements[i]?.bind ctx.sortKey?).map fun key =>
        if (ctx.effective statements).head? = some i then .orderBy key.1 key.2 else .thenBy key.1 key.2 := by
    intro i hi
    rw [List.getElem?_eq_getElem (ctx.lt_of_mem_effective hi), Option.bind_some, Option.bind_some, sortRequest?, if_pos hi]
  rw [sort_calls, effectiveKeys, List.filterMap_congr hmem]
  cases heff : ctx.effective statements with
  | nil => rfl
  | cons m rest =>
    rw [heff] at hascending
    obtain ⟨hleast, -⟩ := List.pairwise_cons.1 hascending
    have hm : m ∈ ctx.effective statements := by
      rw [heff]
      exact List.mem_cons_self
    have hs := List.getElem?_eq_getElem (ctx.lt_of_mem_effective hm)
    obtain ⟨key, hkey⟩ := ctx.sortKey?_of_effective hs hm
    have hrest : rest.filterMap (fun i => (statements[i]?.bind ctx.sortKey?).map fun key =>
          if some m = some i then Request.orderBy (Q := Q) key.1 key.2 else .thenBy key.1 key.2) =
        (rest.filterMap fun i => statements[i]?.bind ctx.sortKey?).map fun key => .thenBy key.1 key.2 := by
      rw [List.map_filterMap]
      refine List.filterMap_congr fun i hi => ?_
      have hne : ¬some m = some i := fun h => absurd (hleast i hi) (by rw [Option.some.inj h]; exact lt_irrefl i)
      simp only [if_neg hne]
    rw [List.filterMap_cons, List.filterMap_cons, hs, Option.bind_some, hkey, Option.map_some, List.head?_cons, if_pos rfl,
      hrest]
    rfl

/-- every sort that counts asks for one key -/
theorem length_effectiveKeys (statements : List Statement) :
    (ctx.effectiveKeys statements).length = (ctx.effective statements).length := by
  refine List.filterMap_length_eq_length.2 fun i hi => ?_
  have hs := List.getElem?_eq_getElem (ctx.lt_of_mem_effective hi)
  obtain ⟨key, hkey⟩ := ctx.sortKey?_of_effective hs hi
  rw [hs, Option.bind_some, hkey, Option.isSome_some]

/-! ## The contract of an execution -/

/-- **An execution makes the calls that the statements say, and no others.** They come in the order of the statements: one
for every filter that is registered and for every default filter once a default filter is set, and one for every sort that
counts, of which the first sets the primary key and every later one adds a key. Afterwards the list says whether a sort
counted, and nothing else of it has changed, so that another execution makes the same calls. -/
theorem execute_calls [Query Q] (h : ctx.Reachable) (list : StatementList) (q : Q) :
    ctx.execute list q =
        ({ list with hasOrder := !(ctx.effective list.statements).isEmpty }, performAll (ctx.calls list.statements) q) ∧
      (ctx.calls list.statements).filter Request.isFilter = list.statements.filterMap ctx.filterRequest? ∧
      (∀ name e, (ctx.filterRequest? (.fieldFilter name e)).isSome = (ctx.filter? name).isSome) ∧
      (∀ e, (ctx.filterRequest? (.defaultFilter e)).isSome = ctx.defaultFilter.isSome) ∧
      (ctx.calls list.statements).filter (fun r => !r.isFilter) = orderings (ctx.effectiveKeys list.statements) ∧
      (ctx.effectiveKeys list.statements).length = (ctx.effective list.statements).length ∧
      ∀ q', ctx.execute (ctx.execute list q).1 q' =
        ((ctx.execute list q).1, performAll (ctx.calls list.statements) q') := by
  have hexecute : ∀ list : StatementList, ∀ q : Q, ctx.execute list q =
      ({ list with hasOrder := !(ctx.effective list.statements).isEmpty }, performAll (ctx.calls list.statements) q) := by
    intro list q
    have hrun := ctx.run_take (le_refl list.statements.length) q
    rw [List.take_length] at hrun
    rw [execute, run, hrun, sortedBefore_length]
    rfl
  refine ⟨hexecute list q, ctx.filter_calls _, fun name e => Option.isSome_map, fun e => ?_, ctx.sort_calls_orderings _,
    ctx.length_effectiveKeys _, fun q' => ?_⟩
  · rw [filterRequest?]
    cases hd : ctx.defaultFilter with
    | none => rfl
    | some key =>
      rw [Option.bind_some, Option.isSome_map]
      exact h.defaultFilter hd
  · rw [hexecute, hexecute]

/-- titles are searched by their name -/
def titleFilter : FilterMap (Trace String) := { property := "name", kind := .text }

/-- a filter of prices leaves a note -/
def priceFilter : FilterMap (Trace String) where
  property := "price"
  kind := .integer
  custom := some fun _ t => t.record (.note "price")

/-- an index with two filters, the titles being the default one, and two sorts -/
def noteIndex : IndexContext (Trace String) where
  filters := { entries := [("title", titleFilter), ("price", priceFilter)] }
  defaultFilter := some "title"
  sorts := { entries := [("date", "published"), ("size", "bytes")] }

/-- a list whose default sort comes first and whose first sort is not registered -/
def noteList : StatementList where
  statements := [.defaultSort "date" .descending, .sort "rank" .descending, .sort "SIZE" (.ascending true),
    .defaultFilter (.matching "sea"), .fieldFilter "color" (.matching "red"), .sort "date" .descending,
    .fieldFilter "Price" (.matching "12"), .defaultSort "size" .descending]
  hasOrder := true

theorem execute_calls_note :
    noteIndex.Reachable ∧ noteIndex.execute noteList {} =
      (noteList, ⟨[.orderBy .ascending "bytes", .filter (.contains "name" "sea"), .thenBy .descending "published",
        .note "price"]⟩) := by
  have hfilters : Reachable { filters := { entries := [("title", titleFilter), ("price", priceFilter)] } } :=
    .filter "price" priceFilter (.filter "Title" titleFilter .empty rfl) rfl
  have hreach : noteIndex.Reachable :=
    .default "title" (.sort "size" "bytes" (.sort "date" "published" hfilters rfl) rfl) rfl
  exact ⟨hreach, (execute_calls noteIndex hreach noteList {}).1.trans rfl⟩

end IndexContext

end FieldSearch
