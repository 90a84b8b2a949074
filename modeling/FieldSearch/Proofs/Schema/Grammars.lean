/-
Both grammars of a schema on texts without names and negations.

- `readAll_unnamed`: such a text is a single item, because behind an expression that ended nothing is left over.
- `SameQuery`: a list and terms that say the same: nothing, or one piece of unqualified text that is the same tree in both.
- `terms_of_list`, `list_of_terms`: where the default field takes many values, each grammar accepts what the other does, and
  they say the same.
- `search_same`: so both searches select the same records. The default sort, which only statements apply, orders them and
  selects none: `step_defaultSort`, `foldl_defaultSort`.
-/
import FieldSearch.Proofs.Schema.Agreement
import FieldSearch.Proofs.Term.SameTree
import Mathlib.Data.List.TakeWhile

namespace FieldSearch

open Operation (readMany)

/-! ## Items of a text without names -/

/-- the place of the first item of a text -/
def firstItem (text : String) : Cursor := (Cursor.start text).skipBlanks

theorem firstItem_free {text : String} (h : NegationFree text.toList) : NegationFree (firstItem text).rest :=
  NegationFree.reaches (c := Cursor.start text) h (Cursor.reaches_skipBlanks _)

theorem firstItem_blank (text : String) : (firstItem text).rest = [] ↔ isAllBlank text = true := by
  rw [firstItem, Cursor.rest_skipBlanks, List.dropWhile_eq_nil_iff, isAllBlank, List.all_eq_true]
  rfl

/-- where items are what `read` reads, and nothing is left over behind it, a text without names is a single item -/
theorem readAll_unnamed {α β : Type} {item : Cursor → Reply α} {read : Cursor → Reply β} {f : β → α} {gap : Expectation}
    (hitem : Advances item) (hread : Advances read) (heq : ∀ c : Cursor, NegationFree c.rest → item c = (read c).map f)
    (hbehind : ∀ c d x, (read c).value = some (x, d) → 0 < d.blanks → d.skipBlanks.peekTermName = none →
      (read d.skipBlanks).value = none)
    {text : String} (h : NegationFree text.toList) (hblank : isAllBlank text = false) {items : List α} :
    readAll item gap text = .ok items ↔
      ∃ x d, (read (firstItem text)).value = some (x, d) ∧ d.skipBlanks.rest = [] ∧ items = [f x] := by
  have hfree := firstItem_free h
  have hne : (firstItem text).rest ≠ [] := by
    rw [ne_eq, firstItem_blank, hblank]
    decide
  have hone : ∀ a b, (item (firstItem text)).value = some (a, b) → 0 < b.blanks → (item b.skipBlanks).value = none := by
    intro a b ha hb
    rw [heq _ hfree] at ha
    obtain ⟨x, hx, -⟩ := Reply.map_eq_some.1 ha
    have hnext := (hfree.reaches (hread _ _ _ hx).reaches).reaches (Cursor.reaches_skipBlanks b)
    rw [heq _ hnext, Reply.map_eq_none]
    exact hbehind _ b x hx hb hnext.noName
  rw [readAll_single hitem rfl hne hone, ← firstItem, heq _ hfree]
  constructor
  · rintro ⟨a, d, ha, hd, rfl⟩
    obtain ⟨x, hx, rfl⟩ := Reply.map_eq_some.1 ha
    exact ⟨x, d, hx, hd, rfl⟩
  · rintro ⟨x, d, hx, hd, rfl⟩
    exact ⟨f x, d, Reply.map_eq_some.2 ⟨x, hx, rfl⟩, hd, rfl⟩

/-- a search text without names is one expression up to its end -/
theorem parse_list_iff {text : String} (h : NegationFree text.toList) (hblank : isAllBlank text = false)
    {list : StatementList} :
    StatementList.parse text = .ok list ↔
      ∃ e d, (FilterExpr.read (firstItem text)).value = some (e, d) ∧ d.skipBlanks.rest = [] ∧
        list = { statements := [.defaultFilter e] } := by
  have heq : ∀ c : Cursor, NegationFree c.rest → Statement.read c = (FilterExpr.read c).map .defaultFilter := by
    intro c hc
    rw [Statement.read, hc.noTermName]
  have hiff : ∀ items, readAll Statement.read .statementBreak text = .ok items ↔ _ := fun items =>
    readAll_unnamed Statement.read_advances FilterExpr.read_advances heq
      (fun _ _ _ he hb hn => FilterExpr.read_behind he hb hn) h hblank
  rw [StatementList.parse]
  constructor
  · intro hl
    obtain ⟨items, hitems, rfl⟩ := map_eq_ok hl
    obtain ⟨e, d, he, hd, rfl⟩ := (hiff items).1 hitems
    exact ⟨e, d, he, hd, rfl⟩
  · rintro ⟨e, d, he, hd, rfl⟩
    rw [(hiff _).2 ⟨e, d, he, hd, rfl⟩]
    rfl

/-- a term query without names is one operation up to its end, for a default term that takes many values -/
theorem parse_terms_iff {Q : Type} {r : TermRegistry Q} (hr : r.Keyed) {o : TermOption Q} (hdefault : r.default? = some o)
    (hmany : o.builders.condition = .many) {text : String} (h : NegationFree text.toList)
    (hblank : isAllBlank text = false) {terms : List Term} :
    r.parse text = .ok terms ↔
      ∃ n d, (readMany (firstItem text)).value = some (n, d) ∧ d.skipBlanks.rest = [] ∧
        terms = [.default o.name n] := by
  have heq : ∀ c : Cursor, NegationFree c.rest → r.readTerm c = (readMany c).map (.default o.name) := by
    intro c hc
    rw [TermRegistry.readTerm, hc.noTermName]
    simp only [hdefault, hmany, Operation.read]
  exact readAll_unnamed (TermRegistry.readTerm_advances hr) Operation.readMany_advances heq
    (fun _ _ _ hn hb hname => Operation.readMany_behind hn hb hname) h hblank

/-! ## Queries that say the same -/

/-- a list and terms that say the same, for the default term of a name; `blank` says whether they say nothing -/
inductive SameQuery (name : String) : Bool → StatementList → List Term → Prop
  | blank : SameQuery name true {} []
  | one {n : Operation} {e : FilterExpr} (same : SameTree n e) :
      SameQuery name false { statements := [.defaultFilter e] } [.default name n]

/-- the same tree means the same filter -/
theorem SameTree.toFilter {n : Operation} {e : FilterExpr} (h : SameTree n e) : n.toFilter = e := by
  induction h with
  | unary value => rfl
  | and _ _ operator ihl ihr => rw [Operation.toFilter, ihl, ihr]
  | or _ _ operator ihl ihr => rw [Operation.toFilter, ihl, ihr]
  | group _ ih => rw [Operation.toFilter, ih]

/-- no default sort is read from a text that says what terms say -/
theorem SameQuery.noDefaultSort {name : String} {blank : Bool} {list : StatementList} {terms : List Term}
    (h : SameQuery name blank list terms) : ∀ t ∈ list.statements, t.isDefaultSort = false := by
  cases h with
  | blank => exact fun t ht => absurd ht List.not_mem_nil
  | one => exact fun t ht => by rw [List.mem_singleton.1 ht]; rfl

section Parsing

variable {Q : Type} {r : TermRegistry Q} {o : TermOption Q} {text : String} {list : StatementList} {terms : List Term}

theorem closes_nil {c : Cursor} (h : c.skipBlanks.rest = []) : Closes c.skipBlanks.rest := by
  rw [h]
  exact fun a ha => absurd ha (by simp)

/-- a blank text has no statements -/
theorem parse_list_blank (hblank : isAllBlank text = true) : StatementList.parse text = .ok {} := by
  rw [StatementList.parse, readAll_blank Statement.read_advances ((firstItem_blank text).2 hblank)]
  rfl

/-- and no terms -/
theorem parse_terms_blank (hr : r.Keyed) (hblank : isAllBlank text = true) : r.parse text = .ok [] :=
  readAll_blank (TermRegistry.readTerm_advances hr) ((firstItem_blank text).2 hblank)

/-- what a search text says, a term query says too -/
theorem terms_of_list (hr : r.Keyed) (hdefault : r.default? = some o) (hmany : o.builders.condition = .many)
    (h : NegationFree text.toList) (hl : StatementList.parse text = .ok list) :
    ∃ terms, r.parse text = .ok terms ∧ SameQuery o.name (isAllBlank text) list terms := by
  cases hblank : isAllBlank text with
  | true =>
    obtain rfl := Except.ok.inj (hl.symm.trans (parse_list_blank hblank))
    exact ⟨[], parse_terms_blank hr hblank, .blank⟩
  | false =>
    obtain ⟨e, d, he, hd, rfl⟩ := (parse_list_iff h hblank).1 hl
    obtain ⟨n, hn, hsame⟩ := (read_iff_readMany (firstItem_free h) (closes_nil hd)).1 e he
    exact ⟨_, (parse_terms_iff hr hdefault hmany h hblank).2 ⟨n, d, hn, hd, rfl⟩, .one hsame⟩

/-- what a term query says, a search text says too -/
theorem list_of_terms (hr : r.Keyed) (hdefault : r.default? = some o) (hmany : o.builders.condition = .many)
    (h : NegationFree text.toList) (ht : r.parse text = .ok terms) :
    ∃ list, StatementList.parse text = .ok list ∧ SameQuery o.name (isAllBlank text) list terms := by
  cases hblank : isAllBlank text with
  | true =>
    obtain rfl := Except.ok.inj (ht.symm.trans (parse_terms_blank hr hblank))
    exact ⟨{}, parse_list_blank hblank, .blank⟩
  | false =>
    obtain ⟨n, d, hn, hd, rfl⟩ := (parse_terms_iff hr hdefault hmany h hblank).1 ht
    obtain ⟨e, he, hsame⟩ := (read_iff_readMany (firstItem_free h) (closes_nil hd)).2 n hn
    exact ⟨_, (parse_list_iff h hblank).2 ⟨e, d, he, hd, rfl⟩, .one hsame⟩

end Parsing

/-! ## What both searches select -/

/-- two selections of the same records, in whatever order these are given -/
def Selection.SameRecords (a b : Selection) : Prop := a.records = b.records ∧ a.selected = b.selected

namespace Selection.SameRecords

variable {a b c : Selection}

theorem refl (a : Selection) : a.SameRecords a := ⟨rfl, rfl⟩

theorem symm (h : a.SameRecords b) : b.SameRecords a := ⟨h.1.symm, h.2.symm⟩

theorem trans (h : a.SameRecords b) (h' : b.SameRecords c) : a.SameRecords c := ⟨h.1.trans h'.1, h.2.trans h'.2⟩

end Selection.SameRecords

namespace Schema

variable {s : Schema} {d : FieldDef}

/-- the default sort is put behind what a text says, and a valid schema has it -/
theorem applyDefaultSort_eq {Q : Type} (h : s.Valid) {list : StatementList}
    (hlist : ∀ t ∈ list.statements, t.isDefaultSort = false) :
    ∃ sorts, s.applyDefaultSort (Q := Q) s.builtContext list =
        .ok { list with statements := list.statements ++ sorts } ∧ ∀ t ∈ sorts, t.isDefaultSort = true := by
  have hkept : list.statements.filter (fun t => !t.isDefaultSort) = list.statements :=
    List.filter_eq_self.2 fun t ht => by rw [hlist t ht]; rfl
  rw [applyDefaultSort]
  cases hsort : s.defaultSort with
  | none => exact ⟨[], by rw [List.append_nil], fun t ht => absurd ht List.not_mem_nil⟩
  | some sort =>
    have hcheck := h.defaultSort
    rw [checkDefaultSort, hsort] at hcheck
    simp only at hcheck
    split_ifs at hcheck with hany
    have hdeclared : ((s.builtContext (Q := Q)).sort? sort.field).isNone = false := by
      rw [builtContext_sort?, Option.isNone_map, ← Option.not_isSome, List.find?_isSome.2 (List.any_eq_true.1 hany)]
      rfl
    refine ⟨[.defaultSort sort.field (.ofDirection sort.direction)], ?_, fun t ht => ?_⟩
    · simp only [IndexContext.setDefaultSort, hdeclared, Bool.false_eq_true, if_false, hkept]
    · rw [List.mem_singleton.1 ht]
      rfl

/-- a default sort orders records and selects none -/
theorem step_defaultSort (ctx : IndexContext Selection) (explicit : Bool) (p : IndexContext.Progress Selection)
    {t : Statement} (ht : t.isDefaultSort = true) : (ctx.step explicit p t).query.SameRecords p.query := by
  cases t with
  | defaultSort field direction =>
    rw [IndexContext.step]
    split_ifs with hskip
    · exact .refl p.query
    · rw [IndexContext.applySort]
      cases ctx.sort? field with
      | none => exact .refl p.query
      | some property =>
        cases hp : p.hasOrder with
        | false => exact ⟨rfl, rfl⟩
        | true => exact ⟨rfl, rfl⟩
  | _ => simp [Statement.isDefaultSort] at ht

/-- nor do several -/
theorem foldl_defaultSort (ctx : IndexContext Selection) (explicit : Bool) {sorts : List Statement}
    (h : ∀ t ∈ sorts, t.isDefaultSort = true) (p : IndexContext.Progress Selection) :
    (sorts.foldl (ctx.step explicit) p).query.SameRecords p.query := by
  induction sorts generalizing p with
  | nil => exact .refl p.query
  | cons t sorts ih =>
    obtain ⟨ht, hrest⟩ := List.forall_mem_cons.1 h
    exact (ih hrest (ctx.step explicit p t)).trans (step_defaultSort ctx explicit p ht)

/-- unqualified text is filtered by the default field -/
theorem step_defaultFilter (hd : s.defaultField = some d) (explicit : Bool) (p : IndexContext.Progress Selection)
    (e : FilterExpr) :
    (s.builtContext.step explicit p (.defaultFilter e)).query = s.builtContext.applyFilter d.name e p.query := by
  have hkey : (s.builtContext (Q := Selection)).defaultFilter = some (nameKey d.name) := by rw [builtContext, hd]; rfl
  rw [IndexContext.step, hkey]
  simp only [IndexContext.applyFilter, IndexContext.filter?, Registry.get?, nameKey_nameKey]

/-- queries that say the same select the same records -/
theorem execute_same (hd : s.defaultField = some d) {blank : Bool} {list : StatementList} {terms : List Term}
    (hsame : SameQuery d.name blank list terms) {sorts : List Statement} (hsorts : ∀ t ∈ sorts, t.isDefaultSort = true)
    (services : Services) {records : Selection} (hb : ∀ t ∈ terms, (s.builtTerms (Q := Selection)).Bound t)
    (ha : records.Ascending) :
    (s.builtTerms.execute services terms records).SameRecords
      (s.builtContext.execute { list with statements := list.statements ++ sorts } records).2 := by
  rw [IndexContext.execute, IndexContext.run, List.foldl_append]
  simp only
  generalize s.builtContext.ordersExplicitly (list.statements ++ sorts) = explicit
  have hfound := foldl_defaultSort s.builtContext explicit hsorts
    (list.statements.foldl (s.builtContext.step explicit) ⟨false, records⟩)
  cases hsame with
  | blank => exact hfound.symm
  | @one n e same =>
    have hterm : s.builtTerms.execute services [.default d.name n] records =
        s.builtContext.applyFilter d.name e records := by
      have hbound := hb _ List.mem_cons_self
      rw [← same.toFilter]
      exact applyTerm_eq hbound ha
    have hstatement : ([Statement.defaultFilter e].foldl (s.builtContext.step explicit) ⟨false, records⟩).query =
        s.builtContext.applyFilter d.name e records := step_defaultFilter hd explicit _ e
    rw [hstatement] at hfound
    rw [hterm]
    exact hfound.symm

/-- what a search by terms gives -/
theorem search_terms_iff (h : s.Valid) {text : String} {records : Selection} {found : String × Selection} :
    s.search true text records = .ok found ↔
      ∃ terms, (s.builtTerms (Q := Selection)).parse text = .ok terms ∧
        found = (normalizedTerms terms, s.builtTerms.execute {} terms records) := by
  rw [search, if_pos rfl, searchTerms, bind_ok (termRegistry_eq h)]
  constructor
  · intro hfound
    obtain ⟨terms, hterms, hfound⟩ := bind_eq_ok hfound
    exact ⟨terms, hterms, (Except.ok.inj hfound).symm⟩
  · rintro ⟨terms, hterms, rfl⟩
    rw [bind_ok hterms]
    rfl

/-- what a search by statements gives -/
theorem search_statements_iff (h : s.Valid) {text : String} {records : Selection} {found : String × Selection} :
    s.search false text records = .ok found ↔
      ∃ list sorted, StatementList.parse text = .ok list ∧
        s.applyDefaultSort (Q := Selection) s.builtContext list = .ok sorted ∧
        found = ((s.builtContext.execute sorted records).1.normalized, (s.builtContext.execute sorted records).2) := by
  rw [search, if_neg (by decide), searchStatements, bind_ok (indexContext_eq h)]
  constructor
  · intro hfound
    obtain ⟨list, hlist, hfound⟩ := bind_eq_ok hfound
    obtain ⟨sorted, hsorted, hfound⟩ := bind_eq_ok hfound
    exact ⟨list, sorted, hlist, hsorted, (Except.ok.inj hfound).symm⟩
  · rintro ⟨list, sorted, hlist, hsorted, rfl⟩
    rw [bind_ok hlist, bind_ok hsorted]
    rfl

/-- each grammar of a schema says what the other does -/
theorem parse_same {Q : Type} [Query Q] (h : s.Valid) (hd : s.defaultField = some d) (hmany : d.condition = .many)
    {text : String} (htext : NegationFree text.toList) :
    (∀ list, StatementList.parse text = .ok list → ∃ terms, (s.builtTerms (Q := Q)).parse text = .ok terms ∧
        SameQuery d.name (isAllBlank text) list terms) ∧
      ∀ terms, (s.builtTerms (Q := Q)).parse text = .ok terms → ∃ list, StatementList.parse text = .ok list ∧
        SameQuery d.name (isAllBlank text) list terms := by
  have hkeyed : (s.builtTerms (Q := Q)).Keyed := TermRegistry.ofTerms_keyed (termRegistry_eq h)
  have hdefault : (s.builtTerms (Q := Q)).default? = some (fieldTerm d) := by rw [builtTerms_default? h, hd]; rfl
  have hcondition : (fieldTerm (Q := Q) d).builders.condition = .many := (fieldTerm_condition d).trans hmany
  exact ⟨fun list => terms_of_list hkeyed hdefault hcondition htext,
    fun terms => list_of_terms hkeyed hdefault hcondition htext⟩

/-- texts that say the same are searched by both grammars or by none -/
theorem search_succeeds_iff (h : s.Valid) (hd : s.defaultField = some d) (hmany : d.condition = .many) {text : String}
    (htext : NegationFree text.toList) (records : Selection) :
    (∃ found, s.search true text records = .ok found) ↔ ∃ found, s.search false text records = .ok found := by
  obtain ⟨hterms, hlists⟩ := parse_same (Q := Selection) h hd hmany htext
  constructor
  · rintro ⟨found, hfound⟩
    obtain ⟨terms, ht, -⟩ := (search_terms_iff h).1 hfound
    obtain ⟨list, hl, hsame⟩ := hlists terms ht
    obtain ⟨sorts, hsorted, -⟩ := applyDefaultSort_eq (Q := Selection) h hsame.noDefaultSort
    exact ⟨_, (search_statements_iff h).2 ⟨list, _, hl, hsorted, rfl⟩⟩
  · rintro ⟨found, hfound⟩
    obtain ⟨list, -, hl, -⟩ := (search_statements_iff h).1 hfound
    obtain ⟨terms, ht, -⟩ := hterms list hl
    exact ⟨_, (search_terms_iff h).2 ⟨terms, ht, rfl⟩⟩

/-- and they find the same records -/
theorem search_same (h : s.Valid) (hd : s.defaultField = some d) (hmany : d.condition = .many) {text : String}
    (htext : NegationFree text.toList) {records : Selection} (ha : records.Ascending)
    {byTerms byStatements : String × Selection} (hbyTerms : s.search true text records = .ok byTerms)
    (hbyStatements : s.search false text records = .ok byStatements) : byTerms.2.SameRecords byStatements.2 := by
  have hkeyed : (s.builtTerms (Q := Selection)).Keyed := TermRegistry.ofTerms_keyed (termRegistry_eq h)
  obtain ⟨terms, ht, rfl⟩ := (search_terms_iff h).1 hbyTerms
  obtain ⟨list, sorted, hl, hsorted, rfl⟩ := (search_statements_iff h).1 hbyStatements
  obtain ⟨terms', ht', hsame⟩ := (parse_same (Q := Selection) h hd hmany htext).1 list hl
  obtain rfl := Except.ok.inj (ht'.symm.trans ht)
  obtain ⟨sorts, hsorted', hsorts⟩ := applyDefaultSort_eq (Q := Selection) h hsame.noDefaultSort
  obtain rfl := Except.ok.inj (hsorted'.symm.trans hsorted)
  exact execute_same hd hsame hsorts {} (TermRegistry.parse_bound hkeyed ht) ha

/-- **The two grammars agree on texts without names and negations**, where the default field takes many values. One accepts a
text exactly if the other does. Unless the text is blank, the search text is then one piece of unqualified text and the term
query one default term, and both are the same tree. Searches by either grammar succeed on the same texts and select the
same records. -/
theorem grammars_agree {Q : Type} [Query Q] (h : s.validate = .ok ()) (hd : s.defaultField = some d)
    (hmany : d.condition = .many) {text : String} (htext : NegationFree text.toList) :
    ∃ r : TermRegistry Q, s.termRegistry = .ok r ∧
      ((∃ list, StatementList.parse text = .ok list) ↔ ∃ terms, r.parse text = .ok terms) ∧
      (∀ list terms, StatementList.parse text = .ok list → r.parse text = .ok terms → isAllBlank text = false →
        ∃ n e, list = { statements := [.defaultFilter e] } ∧ terms = [.default d.name n] ∧ SameTree n e) ∧
      ∀ records : Selection, records.Ascending →
        ((∃ found, s.search true text records = .ok found) ↔ ∃ found, s.search false text records = .ok found) ∧
        ∀ byTerms byStatements, s.search true text records = .ok byTerms → s.search false text records = .ok byStatements →
          byTerms.2.SameRecords byStatements.2 := by
  have hvalid := valid_of_validate h
  obtain ⟨hterms, hlists⟩ := parse_same (Q := Q) hvalid hd hmany htext
  refine ⟨s.builtTerms, termRegistry_eq hvalid, ⟨?_, ?_⟩, ?_, fun records ha => ⟨?_, ?_⟩⟩
  · rintro ⟨list, hl⟩
    obtain ⟨terms, ht, -⟩ := hterms list hl
    exact ⟨terms, ht⟩
  · rintro ⟨terms, ht⟩
    obtain ⟨list, hl, -⟩ := hlists terms ht
    exact ⟨list, hl⟩
  · intro list terms hl ht hblank
    obtain ⟨terms', ht', hsame⟩ := hterms list hl
    obtain rfl := Except.ok.inj (ht'.symm.trans ht)
    rw [hblank] at hsame
    cases hsame with
    | one same => exact ⟨_, _, rfl, rfl, same⟩
  · exact search_succeeds_iff hvalid hd hmany htext records
  · intro byTerms byStatements hbyTerms hbyStatements
    exact search_same hvalid hd hmany htext ha hbyTerms hbyStatements

/-- a schema whose search texts are sorted by rank unless they say otherwise -/
def sortedSchema : Schema :=
  { rankedSchema with sorts := [{ name := "rank" }], defaultSort := some { field := "Rank", direction := .descending } }

/-- the field that takes its unqualified text -/
def sortedTitle : FieldDef := { name := "title", property := some "meta.title", condition := .many, isDefault := true }

/-- what a text with a group says under it -/
def sortedTerms : List Term :=
  [.default "title" (.or (.unary "sand dunes") (.group (.and (.unary "beach") (.unary "the") "&&")) " ")]

/-- a dangling operator is refused by both; groups, blanks and a quoted value read alike, and the default sort changes
nothing about what is found -/
theorem grammars_agree_ranked :
    sortedSchema.validate = .ok () ∧ sortedSchema.defaultField = some sortedTitle ∧ sortedTitle.condition = .many ∧
      NegationFree "sand (beach && the) || OR x".toList ∧ NegationFree "\"sand dunes\" (beach && the)".toList ∧
      (Selection.ofRecords rankedRecords).Ascending ∧
      (∀ list, StatementList.parse "sand (beach && the) || OR x" ≠ .ok list) ∧
      ∃ byTerms byStatements,
        sortedSchema.search true "\"sand dunes\" (beach && the)" (.ofRecords rankedRecords) = .ok byTerms ∧
        sortedSchema.search false "\"sand dunes\" (beach && the)" (.ofRecords rankedRecords) = .ok byStatements ∧
        byTerms.2.selected = [0, 1, 4] ∧ byStatements.2.selected = [0, 1, 4] := by
  have h : sortedSchema.validate = .ok () := by decide
  have hd : sortedSchema.defaultField = some sortedTitle := by decide
  have hdangling : NegationFree "sand (beach && the) || OR x".toList := by decide +kernel
  have hplain : NegationFree "\"sand dunes\" (beach && the)".toList := by decide +kernel
  have ha := Selection.ascending_ofRecords rankedRecords
  refine ⟨h, hd, rfl, hdangling, hplain, ha, fun list hlist => ?_, ?_⟩
  · obtain ⟨r, hr, haccepts, -⟩ := grammars_agree (Q := Selection) h hd rfl hdangling
    obtain rfl := Except.ok.inj ((termRegistry_eq (valid_of_validate h)).symm.trans hr)
    obtain ⟨terms, hterms⟩ := haccepts.1 ⟨list, hlist⟩
    have hrefused : (sortedSchema.builtTerms (Q := Selection)).parse "sand (beach && the) || OR x" =
        .error (.parse 23 (.expected .value)) := by decide +kernel
    rw [hrefused] at hterms
    cases hterms
  · obtain ⟨r, hr, -, -, hsearch⟩ := grammars_agree (Q := Selection) h hd rfl hplain
    obtain ⟨hfound, hsame⟩ := hsearch (.ofRecords rankedRecords) ha
    have hparse : (sortedSchema.builtTerms (Q := Selection)).parse "\"sand dunes\" (beach && the)" = .ok sortedTerms := by
      decide +kernel
    have hterms : sortedSchema.search true "\"sand dunes\" (beach && the)" (.ofRecords rankedRecords) =
        .ok (normalizedTerms sortedTerms, sortedSchema.builtTerms.execute {} sortedTerms (.ofRecords rankedRecords)) :=
      (search_terms_iff (valid_of_validate h)).2 ⟨_, hparse, rfl⟩
    obtain ⟨found, hstatements⟩ := hfound.1 ⟨_, hterms⟩
    have hselected : (sortedSchema.builtTerms.execute {} sortedTerms (Selection.ofRecords rankedRecords)).selected =
        [0, 1, 4] := by
      decide +kernel
    exact ⟨_, found, hterms, hstatements, hselected, (hsame _ _ hterms hstatements).2.symm.trans hselected⟩

end Schema

end FieldSearch
