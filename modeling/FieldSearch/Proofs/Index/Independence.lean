/-
Filters and sorts do not interfere when statements run over records.

- `Plain`: a context whose filters all narrow the query, none in a way of its own.
- `admits`: whether a record passes the filter of a statement. Sorts let every record pass, and so do filters that name
  nothing registered.
- `step_keeps`, `foldl_keeps`: one statement keeps the places that it admits, so statements one after the other keep those
  that each of them admits. Where they stand does not matter, nor how often.
- `Progress.ordering`: the sort keys set so far. `ordering_step_filter`: a filter leaves them. `ordering_step_congr`: what a
  statement makes of them depends on nothing else. `ordering_run`: so a run sets the keys that its sorts set alone.
- `execute_independent`: two lists with the same filters, in any order and number, and the same sequence of sorts give the
  same selection, so the same records in the same order.
-/
import FieldSearch.Index.Execution
import FieldSearch.Proofs.Records.Calls
import FieldSearch.Proofs.Registry
import FieldSearch.Proofs.Statement.Shape

namespace FieldSearch.IndexContext

/-- no filter applies its predicate in a way of its own -/
def Plain {Q : Type} (ctx : IndexContext Q) : Prop := ∀ name map, ctx.filter? name = some map → map.custom = none

variable (ctx : IndexContext Selection)

/-! ## What a run selects -/

/-- whether a record passes the filter of a name; all do if it is not registered -/
def admitsBy (record : Json) (name : String) (e : FilterExpr) : Bool :=
  (ctx.filter? name).all fun map => (map.compile e).holds record

/-- whether a record passes the filter of a statement -/
def admits (record : Json) : Statement → Bool
  | .defaultFilter e => ctx.defaultFilter.all fun name => ctx.admitsBy record name e
  | .fieldFilter name e => ctx.admitsBy record name e
  | .sort .. => true
  | .defaultSort .. => true

variable {ctx} (explicit : Bool) (p : Progress Selection)

theorem applyFilter_keeps (h : ctx.Plain) (name : String) (e : FilterExpr) (q : Selection) :
    Selection.Keeps (fun record => ctx.admitsBy record name e) q (ctx.applyFilter name e q) := by
  simp only [admitsBy, applyFilter]
  cases hmap : ctx.filter? name with
  | none => exact Selection.Keeps.refl q
  | some map =>
    simp only [FilterMap.apply, h name map hmap]
    exact Selection.keeps_filter q (map.compile e)

theorem applySort_keeps (name : String) (direction : Direction) :
    Selection.Keeps (fun _ => true) p.query (ctx.applySort name direction p).query := by
  rw [applySort]
  cases ctx.sort? name with
  | none => exact Selection.Keeps.refl p.query
  | some property =>
    simp only [Query.sortBy]
    by_cases hasOrder : p.hasOrder = true
    · rw [if_pos hasOrder]
      exact Selection.keeps_order p.query _
    · rw [if_neg hasOrder]
      exact Selection.keeps_order p.query _

/-- **One statement keeps the places that it admits.** -/
theorem step_keeps (h : ctx.Plain) (s : Statement) :
    Selection.Keeps (fun record => ctx.admits record s) p.query (ctx.step explicit p s).query := by
  cases s with
  | defaultFilter e =>
    simp only [admits, step]
    cases ctx.defaultFilter with
    | none => exact Selection.Keeps.refl p.query
    | some name => exact applyFilter_keeps h name e p.query
  | fieldFilter name e => exact applyFilter_keeps h name e p.query
  | sort field direction => exact applySort_keeps p field direction.direction
  | defaultSort field direction =>
    rw [step]
    by_cases hskip : (explicit || p.hasOrder) = true
    · rw [if_pos hskip]
      exact Selection.Keeps.refl p.query
    · rw [if_neg hskip]
      exact applySort_keeps p field direction.direction

/-- statements one after the other keep the places that each of them admits -/
theorem foldl_keeps (h : ctx.Plain) (statements : List Statement) :
    Selection.Keeps (fun record => statements.all (ctx.admits record)) p.query
      (statements.foldl (ctx.step explicit) p).query := by
  induction statements generalizing p with
  | nil => exact Selection.Keeps.refl p.query
  | cons s statements ih => exact (step_keeps explicit p h s).trans (ih (ctx.step explicit p s))

/-! ## Which keys a run sets -/

/-- the sort keys set so far, and whether a primary one is among them -/
def Progress.ordering (p : Progress Selection) : Bool × List (String × Direction) := (p.hasOrder, p.query.order)

theorem order_applyFilter (h : ctx.Plain) (name : String) (e : FilterExpr) (q : Selection) :
    (ctx.applyFilter name e q).order = q.order := by
  rw [applyFilter]
  cases hmap : ctx.filter? name with
  | none => rfl
  | some map =>
    simp only [FilterMap.apply, h name map hmap]
    rfl

/-- a filter leaves the sort keys -/
theorem ordering_step_filter (h : ctx.Plain) {s : Statement} (hs : s.isFilter = true) :
    (ctx.step explicit p s).ordering = p.ordering := by
  cases s with
  | defaultFilter e =>
    rw [step]
    cases ctx.defaultFilter with
    | none => rfl
    | some name => exact congrArg (Prod.mk p.hasOrder) (order_applyFilter h name e p.query)
  | fieldFilter name e => exact congrArg (Prod.mk p.hasOrder) (order_applyFilter h name e p.query)
  | sort | defaultSort => cases hs

variable {p} {p' : Progress Selection}

theorem ordering_applySort (hp : p.ordering = p'.ordering) (name : String) (direction : Direction) :
    (ctx.applySort name direction p).ordering = (ctx.applySort name direction p').ordering := by
  obtain ⟨hhas, horder⟩ := Prod.mk.inj hp
  rw [applySort, applySort]
  cases ctx.sort? name with
  | none => exact hp
  | some property =>
    simp only [Query.sortBy, hhas]
    by_cases hasOrder : p'.hasOrder = true
    · rw [if_pos hasOrder, if_pos hasOrder]
      exact congrArg (fun order => (true, order ++ [(property, direction)])) horder
    · rw [if_neg hasOrder, if_neg hasOrder]
      rfl

/-- what a sort makes of the sort keys depends on nothing else -/
theorem ordering_step_congr (hp : p.ordering = p'.ordering) {s : Statement} (hs : s.isFilter = false) :
    (ctx.step explicit p s).ordering = (ctx.step explicit p' s).ordering := by
  cases s with
  | defaultFilter | fieldFilter => cases hs
  | sort field direction => exact ordering_applySort hp field direction.direction
  | defaultSort field direction =>
    obtain ⟨hhas, -⟩ := Prod.mk.inj hp
    rw [step, step, hhas]
    by_cases hskip : (explicit || p'.hasOrder) = true
    · rw [if_pos hskip, if_pos hskip]
      exact hp
    · rw [if_neg hskip, if_neg hskip]
      exact ordering_applySort hp field direction.direction

/-- the sorts among statements -/
def sortsOf (statements : List Statement) : List Statement := statements.filter fun s => !s.isFilter

/-- statements one after the other set the keys that their sorts set alone -/
theorem ordering_foldl (h : ctx.Plain) (hp : p.ordering = p'.ordering) (statements : List Statement) :
    (statements.foldl (ctx.step explicit) p).ordering =
      ((sortsOf statements).foldl (ctx.step explicit) p').ordering := by
  induction statements generalizing p p' with
  | nil => exact hp
  | cons s statements ih =>
    by_cases hs : s.isFilter = true
    · have hdrop : sortsOf (s :: statements) = sortsOf statements := List.filter_cons_of_neg (by simp [hs])
      rw [List.foldl_cons, hdrop]
      exact ih ((ordering_step_filter explicit p h hs).trans hp)
    · rw [Bool.not_eq_true] at hs
      have hkeep : sortsOf (s :: statements) = s :: sortsOf statements := List.filter_cons_of_pos (by simp [hs])
      rw [List.foldl_cons, hkeep, List.foldl_cons]
      exact ih (ordering_step_congr explicit hp hs)

/-- whether a sort of the text is registered depends on the sorts alone -/
theorem ordersExplicitly_sortsOf (ctx : IndexContext Selection) (statements : List Statement) :
    ctx.ordersExplicitly (sortsOf statements) = ctx.ordersExplicitly statements := by
  rw [sortsOf, ordersExplicitly, List.any_filter, ordersExplicitly]
  congr 1
  funext s
  cases s <;> simp [Statement.isFilter]

/-- **A run sets the keys that its sorts set alone.** -/
theorem ordering_run (h : ctx.Plain) (statements : List Statement) (q : Selection) :
    (ctx.run statements q).ordering = (ctx.run (sortsOf statements) q).ordering := by
  rw [run, run, ordersExplicitly_sortsOf]
  exact ordering_foldl _ h rfl statements

/-! ## Two lists -/

theorem admits_of_sort {s : Statement} (hs : s.isFilter = false) (record : Json) : ctx.admits record s = true := by
  cases s with
  | defaultFilter | fieldFilter => cases hs
  | sort | defaultSort => rfl

/-- lists with the same filters admit the same records -/
theorem all_admits_congr {l l' : List Statement}
    (hfilters : ∀ s : Statement, s.isFilter = true → (s ∈ l ↔ s ∈ l')) (record : Json) :
    l.all (ctx.admits record) = l'.all (ctx.admits record) := by
  have himp : ∀ {l l' : List Statement}, (∀ s : Statement, s.isFilter = true → (s ∈ l' → s ∈ l)) →
      l.all (ctx.admits record) = true → l'.all (ctx.admits record) = true := by
    intro l l' hsub hall
    rw [List.all_eq_true] at hall ⊢
    intro s hs
    by_cases hfilter : s.isFilter = true
    · exact hall s (hsub s hfilter hs)
    · exact admits_of_sort (Bool.not_eq_true _ ▸ hfilter) record
  rw [Bool.eq_iff_iff]
  constructor
  · exact himp fun s hs => (hfilters s hs).2
  · exact himp fun s hs => (hfilters s hs).1

/-- **Filters and sorts are independent.** In a context whose filters all narrow the query, over any records, take two lists
with the same filters, in whatever order and however often each one stands there, and with the same sequence of sorts. They
give the same selection, so the same records in the same order, and note alike whether it is sorted. The sorts may stand
anywhere between the filters. Default sorts count among them; where there are none, the sequence is that of the sorts of the
text. -/
theorem execute_independent (h : ctx.Plain) {l l' : StatementList}
    (hfilters : ∀ s : Statement, s.isFilter = true → (s ∈ l.statements ↔ s ∈ l'.statements))
    (hsorts : sortsOf l.statements = sortsOf l'.statements) (q : Selection) :
    (ctx.execute l q).2.results = (ctx.execute l' q).2.results ∧ (ctx.execute l q).2 = (ctx.execute l' q).2 ∧
      (ctx.execute l q).1.hasOrder = (ctx.execute l' q).1.hasOrder := by
  have hkeeps : ∀ l : StatementList,
      Selection.Keeps (fun record => l.statements.all (ctx.admits record)) q (ctx.execute l q).2 :=
    fun l => foldl_keeps _ ⟨false, q⟩ h l.statements
  have hordering : (ctx.run l.statements q).ordering = (ctx.run l'.statements q).ordering := by
    rw [ordering_run h, hsorts, ← ordering_run h]
  obtain ⟨hhas, horder⟩ := Prod.mk.inj hordering
  have hselected : (ctx.execute l q).2.selected = (ctx.execute l' q).2.selected := by
    rw [(hkeeps l).selected, (hkeeps l').selected]
    simp only [all_admits_congr hfilters]
  have hselection : (ctx.execute l q).2 = (ctx.execute l' q).2 := by
    have hrecords := (hkeeps l).records.trans (hkeeps l').records.symm
    calc (ctx.execute l q).2
        = ⟨(ctx.execute l q).2.records, (ctx.execute l q).2.selected, (ctx.execute l q).2.order⟩ := rfl
      _ = ⟨(ctx.execute l' q).2.records, (ctx.execute l' q).2.selected, (ctx.execute l' q).2.order⟩ := by
        rw [hrecords, hselected]
        exact congrArg (Selection.mk _ _) horder
      _ = (ctx.execute l' q).2 := rfl
  exact ⟨congrArg Selection.results hselection, hselection, hhas⟩

/-- an index of titles and years, the titles being its default filter -/
def shelfIndex : IndexContext Selection where
  filters := { entries := [("title", { property := "title", kind := .text }),
    ("year", { property := "print.year", kind := .integer })] }
  defaultFilter := some "title"
  sorts := { entries := [("year", "print.year"), ("title", "title")] }

/-- what a query asks for, its filters in front and one of them between its sorts -/
def shelfQuery : StatementList where
  statements := [.fieldFilter "Year" (.or (.matching "1951") (.matching "1955") "OR"), .defaultFilter (.matching "sea"),
    .sort "year" .descending, .fieldFilter "color" (.matching "blue"), .sort "title" (.ascending false)]

/-- the same after a form has been merged into it: its filters stand behind the sorts, one of them twice -/
def shelfMerged : StatementList where
  statements := [.sort "year" .descending, .sort "title" (.ascending false), .defaultFilter (.matching "sea"),
    .fieldFilter "color" (.matching "blue"), .fieldFilter "Year" (.or (.matching "1951") (.matching "1955") "OR"),
    .defaultFilter (.matching "sea")]

/-- books, one of them without a year -/
def shelfRecords : List Json :=
  [.object [("title", .string "The Sea Around Us"), ("print", .object [("year", .int 1951)])],
    .object [("title", .string "Under the Sea-Wind")],
    .object [("title", .string "The Edge of the Sea"), ("print", .object [("year", .int 1955)])],
    .object [("title", .string "A Sea Chart"), ("print", .object [("year", .int 1951)])]]

theorem execute_independent_shelf :
    shelfIndex.Plain ∧
      (∀ s : Statement, s.isFilter = true → (s ∈ shelfQuery.statements ↔ s ∈ shelfMerged.statements)) ∧
      sortsOf shelfQuery.statements = sortsOf shelfMerged.statements ∧
      (shelfIndex.execute shelfQuery (.ofRecords shelfRecords)).2.sorted = [2, 3, 0] ∧
      (shelfIndex.execute shelfMerged (.ofRecords shelfRecords)).2.sorted = [2, 3, 0] := by
  have hplain : shelfIndex.Plain := by
    intro name map hmap
    have hentry : (nameKey name, map) ∈ shelfIndex.filters.entries := Registry.mem_of_lookup hmap
    simp only [shelfIndex, List.mem_cons, Prod.mk.injEq, List.not_mem_nil, or_false] at hentry
    rcases hentry with ⟨-, rfl⟩ | ⟨-, rfl⟩ <;> rfl
  have hfilters : ∀ s : Statement, s.isFilter = true → (s ∈ shelfQuery.statements ↔ s ∈ shelfMerged.statements) := by
    intro s _
    simp only [shelfQuery, shelfMerged, List.mem_cons]
    tauto
  have hsorted : (shelfIndex.execute shelfQuery (.ofRecords shelfRecords)).2.sorted = [2, 3, 0] := by decide +kernel
  obtain ⟨-, hselection, -⟩ := execute_independent hplain hfilters rfl (.ofRecords shelfRecords)
  exact ⟨hplain, hfilters, rfl, hsorted, by rw [← hselection]; exact hsorted⟩

end FieldSearch.IndexContext
