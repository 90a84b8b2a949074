/-
Whether the text of merged statements can be written back.

- `firstDefaultOnly`: what the text of merged statements is meant to say, every statement but the default filters behind
  the first one.
- `merge_split`: a merge is the query with filters exchanged for filters, and behind it the form without some of its field
  filters.
- `Absorbs`: a form that opens with unqualified text stands behind a query that ends in a filter and has no unqualified
  text of its own. `wellShaped_merge_iff`: this is the one way in which a merge loses its shape.
-/
import FieldSearch.Proofs.Statement.RoundTrip
import FieldSearch.Statement.Persistence

namespace FieldSearch

open Statement

/-! ## Keeping one default filter -/

/-- the statements without the default filters behind the first one -/
def firstDefaultOnly : List Statement → List Statement
  | [] => []
  | .defaultFilter e :: rest => .defaultFilter e :: rest.filter fun s => !s.isDefaultFilter
  | s :: rest => s :: firstDefaultOnly rest

theorem firstDefaultOnly_cons {s : Statement} (hs : s.isDefaultFilter = false) (rest : List Statement) :
    firstDefaultOnly (s :: rest) = s :: firstDefaultOnly rest := by
  cases s with
  | defaultFilter e => simp [isDefaultFilter] at hs
  | _ => rfl

theorem keptBehindDefault_eq {l : List Statement} (h : ∀ s ∈ l, s.isDefaultSort = false) :
    keptBehindDefault l = l.filter fun s => !s.isDefaultFilter := by
  induction l with
  | nil => rfl
  | cons s rest ih =>
    obtain ⟨hs, hrest⟩ := List.forall_mem_cons.1 h
    have ih := ih hrest
    cases s with
    | defaultFilter e => simpa [keptBehindDefault, isDefaultFilter] using ih
    | defaultSort => simp [isDefaultSort] at hs
    | fieldFilter | sort => simpa [keptBehindDefault, isDefaultFilter] using ih

/-- without default sorts only default filters are left out -/
theorem keptStatements_eq {l : List Statement} (h : ∀ s ∈ l, s.isDefaultSort = false) :
    keptStatements l = firstDefaultOnly l := by
  induction l with
  | nil => rfl
  | cons s rest ih =>
    obtain ⟨hs, hrest⟩ := List.forall_mem_cons.1 h
    cases s with
    | defaultFilter e => rw [keptStatements, firstDefaultOnly, keptBehindDefault_eq hrest]
    | defaultSort => simp [isDefaultSort] at hs
    | fieldFilter | sort => rw [keptStatements, ih hrest, firstDefaultOnly_cons rfl] <;> simp

theorem mem_firstDefaultOnly {l : List Statement} {s : Statement} (h : s ∈ firstDefaultOnly l) : s ∈ l := by
  fun_induction firstDefaultOnly l with
  | case1 => exact h
  | case2 e rest =>
    rcases List.mem_cons.1 h with rfl | h
    · exact List.mem_cons_self
    · exact List.mem_cons_of_mem _ (List.mem_of_mem_filter h)
  | case3 t rest _ ih =>
    rcases List.mem_cons.1 h with rfl | h
    · exact List.mem_cons_self
    · exact List.mem_cons_of_mem _ (ih h)

theorem head?_firstDefaultOnly (l : List Statement) : (firstDefaultOnly l).head? = l.head? := by
  fun_cases firstDefaultOnly l <;> rfl

theorem firstDefaultOnly_append (l r : List Statement) :
    firstDefaultOnly (l ++ r) =
      if l.any isDefaultFilter then firstDefaultOnly l ++ r.filter fun s => !s.isDefaultFilter
      else l ++ firstDefaultOnly r := by
  induction l with
  | nil => rfl
  | cons s rest ih =>
    by_cases hs : s.isDefaultFilter = true
    · obtain ⟨e, rfl⟩ : ∃ e, s = .defaultFilter e := by cases s <;> simp_all [isDefaultFilter]
      simp [firstDefaultOnly, isDefaultFilter]
    · rw [Bool.not_eq_true] at hs
      rw [List.cons_append, firstDefaultOnly_cons hs, firstDefaultOnly_cons hs, ih, List.any_cons, hs, Bool.false_or]
      split_ifs <;> rfl

/-! ## Statements that stand apart -/

/-- statements without unqualified text stand apart -/
theorem isChain_plain {l : List Statement} (h : ∀ s ∈ l, s.isDefaultFilter = false) : l.IsChain MayFollow := by
  induction l with
  | nil => exact .nil
  | cons s rest ih =>
    obtain ⟨-, hrest⟩ := List.forall_mem_cons.1 h
    exact List.isChain_cons.2 ⟨fun t ht _ => hrest t (List.mem_of_mem_head? ht), ih hrest⟩

theorem isChain_firstDefaultOnly {l : List Statement} (h : l.IsChain MayFollow) :
    (firstDefaultOnly l).IsChain MayFollow := by
  fun_induction firstDefaultOnly l with
  | case1 => exact .nil
  | case2 e rest =>
    have hplain : ∀ s ∈ rest.filter fun s => !s.isDefaultFilter, s.isDefaultFilter = false := by
      intro s hs
      simpa using (List.mem_filter.1 hs).2
    exact List.isChain_cons.2 ⟨fun t ht _ => hplain t (List.mem_of_mem_head? ht), isChain_plain hplain⟩
  | case3 s rest _ ih =>
    obtain ⟨hhead, hrest⟩ := List.isChain_cons.1 h
    refine List.isChain_cons.2 ⟨fun t ht => hhead t ?_, ih hrest⟩
    rwa [head?_firstDefaultOnly] at ht

/-- whether a list opens with unqualified text -/
def opensDefault (l : List Statement) : Bool := l.head?.any isDefaultFilter

/-- whether a list ends in a filter -/
def endsFilter (l : List Statement) : Bool := l.getLast?.any isFilter

/-- behind statements that stand apart, one default filter in all, the seam is the only place to look at -/
theorem isChain_firstDefaultOnly_append {l r : List Statement} (hl : l.IsChain MayFollow) (hr : r.IsChain MayFollow) :
    (firstDefaultOnly (l ++ r)).IsChain MayFollow ↔
      ¬(l.any isDefaultFilter = false ∧ endsFilter l = true ∧ opensDefault r = true) := by
  rw [firstDefaultOnly_append]
  by_cases hd : l.any isDefaultFilter = true
  · have hplain : ∀ s ∈ r.filter fun s => !s.isDefaultFilter, s.isDefaultFilter = false := by
      intro s hs
      simpa using (List.mem_filter.1 hs).2
    simp only [hd, if_true, Bool.true_eq_false, false_and, not_false_eq_true, iff_true]
    exact List.isChain_append.2 ⟨isChain_firstDefaultOnly hl, isChain_plain hplain,
      fun _ _ t ht _ => hplain t (List.mem_of_mem_head? ht)⟩
  · rw [Bool.not_eq_true] at hd
    simp only [hd, Bool.false_eq_true, if_false, true_and, List.isChain_append, hl, isChain_firstDefaultOnly hr,
      head?_firstDefaultOnly, endsFilter, opensDefault, not_and, Bool.not_eq_true]
    cases l.getLast? <;> cases r.head? <;> simp [MayFollow]

/-! ## The parts of a merge -/

/-- what counts of a statement where it stands beside others -/
def kind (s : Statement) : Bool × Bool := (s.isFilter, s.isDefaultFilter)

/-- the first filter of a field is taken out, the others stay in their order -/
theorem takeFilter_spec {name : String} {form others : List Statement} {found : Statement}
    (h : takeFilter name form = some (found, others)) :
    ∃ pre post, form = pre ++ found :: post ∧ others = pre ++ post ∧ found.filtersField name = true ∧
      ∀ s ∈ pre, s.filtersField name = false := by
  induction form generalizing others with
  | nil => simp [takeFilter] at h
  | cons s rest ih =>
    rw [takeFilter] at h
    split_ifs at h with hs
    · simp only [Option.some.injEq, Prod.mk.injEq] at h
      obtain ⟨rfl, rfl⟩ := h
      exact ⟨[], rest, rfl, rfl, hs, by simp⟩
    · obtain ⟨⟨x, os⟩, hr, he⟩ := Option.map_eq_some_iff.1 h
      simp only [Prod.mk.injEq] at he
      obtain ⟨rfl, rfl⟩ := he
      obtain ⟨pre, post, rfl, rfl, hx, hpre⟩ := ih hr
      refine ⟨s :: pre, post, rfl, rfl, hx, ?_⟩
      exact List.forall_mem_cons.2 ⟨Bool.eq_false_of_not_eq_true hs, hpre⟩

/-- nothing is taken out of a list that does not filter the field -/
theorem takeFilter_eq_none {name : String} {form : List Statement} :
    takeFilter name form = none ↔ ∀ s ∈ form, s.filtersField name = false := by
  induction form with
  | nil => simp [takeFilter]
  | cons s rest ih =>
    rw [takeFilter, List.forall_mem_cons, ← ih]
    split_ifs with hs
    · simp [hs]
    · simp [hs]

/-- a field filter that is taken out leaves the others in their order -/
theorem takeFilter_eq_some {name : String} {form others : List Statement} {found : Statement}
    (h : takeFilter name form = some (found, others)) :
    ∃ pre post e other, found = .fieldFilter other e ∧ form = pre ++ found :: post ∧ others = pre ++ post := by
  obtain ⟨pre, post, hform, hothers, hfound, -⟩ := takeFilter_spec h
  cases found with
  | fieldFilter other e => exact ⟨pre, post, e, other, rfl, hform, hothers⟩
  | _ => simp [filtersField] at hfound

/-- a form stands apart also without one of its field filters, and opens as it did -/
theorem takeFilter_apart {name : String} {form others : List Statement} {found : Statement}
    (h : takeFilter name form = some (found, others)) (hform : form.IsChain MayFollow) :
    others.IsChain MayFollow ∧ opensDefault others = opensDefault form := by
  obtain ⟨pre, post, e, other, rfl, rfl, rfl⟩ := takeFilter_eq_some h
  obtain ⟨hpre, hpost, -⟩ := List.isChain_append.1 hform
  obtain ⟨hnext, hpost⟩ := List.isChain_cons.1 hpost
  -- what stood behind the field filter is no unqualified text, so it may stand behind anything
  have hplain : ∀ t ∈ post.head?, t.isDefaultFilter = false := fun t ht => hnext t ht rfl
  refine ⟨List.isChain_append.2 ⟨hpre, hpost, fun _ _ t ht _ => hplain t ht⟩, ?_⟩
  cases pre with
  | nil =>
    cases hp : post.head? with
    | none => simp [opensDefault, hp, isDefaultFilter]
    | some t =>
      simp only [opensDefault, List.nil_append, hp, List.head?_cons, Option.any_some, hplain t hp]
      rfl
  | cons s pre => rfl

/-- a merge is a list of the kinds of the query, and behind it what is left of the form -/
theorem merge_split (query : List Statement) {form : List Statement} (hform : form.IsChain MayFollow) :
    ∃ front back, mergeStatements query form = front ++ back ∧ front.map kind = query.map kind ∧
      back.IsChain MayFollow ∧ opensDefault back = opensDefault form := by
  fun_induction mergeStatements query form with
  | case1 form => exact ⟨[], form, rfl, rfl, hform, rfl⟩
  | case2 name e query form replacement others htake ih =>
    obtain ⟨hothers, hopens⟩ := takeFilter_apart htake hform
    obtain ⟨front, back, heq, hkind, hback, hopen⟩ := ih hothers
    obtain ⟨-, -, e', other, rfl, -, -⟩ := takeFilter_eq_some htake
    exact ⟨.fieldFilter other e' :: front, back, by rw [heq]; rfl, by simp [hkind, kind, isFilter, isDefaultFilter],
      hback, hopen.trans hopens⟩
  | case3 name e query form htake ih =>
    obtain ⟨front, back, heq, hkind, hback, hopen⟩ := ih hform
    exact ⟨.fieldFilter name e :: front, back, by rw [heq]; rfl, by simp [hkind], hback, hopen⟩
  | case4 s query form _ ih =>
    obtain ⟨front, back, heq, hkind, hback, hopen⟩ := ih hform
    exact ⟨s :: front, back, by rw [heq]; rfl, by simp [hkind], hback, hopen⟩

theorem mem_merge {query form : List Statement} {s : Statement} (h : s ∈ mergeStatements query form) :
    s ∈ query ∨ s ∈ form := by
  fun_induction mergeStatements query form with
  | case1 form => exact Or.inr h
  | case2 name e query form replacement others htake ih =>
    obtain ⟨pre, post, e', other, -, hform, rfl⟩ := takeFilter_eq_some htake
    rcases List.mem_cons.1 h with rfl | h
    · exact Or.inr (by rw [hform]; simp)
    · rcases ih h with h | h
      · exact Or.inl (List.mem_cons_of_mem _ h)
      · refine Or.inr ?_
        rw [hform]
        rcases List.mem_append.1 h with h | h <;> simp [h]
  | case3 name e query form htake ih =>
    rcases List.mem_cons.1 h with rfl | h
    · exact Or.inl List.mem_cons_self
    · exact (ih h).imp_left (List.mem_cons_of_mem _)
  | case4 t query form _ ih =>
    rcases List.mem_cons.1 h with rfl | h
    · exact Or.inl List.mem_cons_self
    · exact (ih h).imp_left (List.mem_cons_of_mem _)

/-- standing apart is a matter of kinds -/
theorem isChain_kind {l r : List Statement} (h : l.map kind = r.map kind) (hl : l.IsChain MayFollow) :
    r.IsChain MayFollow := by
  have hmap : ∀ l : List Statement, l.IsChain MayFollow ↔
      (l.map kind).IsChain fun s t => s.1 = true → t.2 = false := by
    intro l; rw [List.isChain_map]; rfl
  rw [hmap, ← h, ← hmap]
  exact hl

theorem any_kind {l r : List Statement} (h : l.map kind = r.map kind) : l.any isDefaultFilter = r.any isDefaultFilter := by
  have hmap : ∀ l : List Statement, l.any isDefaultFilter = (l.map kind).any Prod.snd := by
    intro l; rw [List.any_map]; rfl
  rw [hmap, hmap, h]

theorem endsFilter_kind {l r : List Statement} (h : l.map kind = r.map kind) : endsFilter l = endsFilter r := by
  have hmap : ∀ l : List Statement, endsFilter l = (l.map kind).getLast?.any Prod.fst := by
    intro l; rw [List.getLast?_map, Option.any_map]; rfl
  rw [hmap, hmap, h]

namespace StatementList

/-- unqualified text that opens the form would stand directly behind a filter that ends the query, and the query has no
unqualified text whose presence would leave it out -/
def Absorbs (query form : StatementList) : Prop :=
  query.statements.any isDefaultFilter = false ∧ endsFilter query.statements = true ∧ opensDefault form.statements = true

instance (query form : StatementList) : Decidable (query.Absorbs form) := inferInstanceAs (Decidable (_ ∧ _ ∧ _))

/-- the list that a merge is meant to say -/
def mergedOnce (query form : StatementList) : StatementList :=
  { statements := firstDefaultOnly (query.merge form).statements }

/-- a merge of well-shaped lists is well shaped unless the query absorbs the form -/
theorem wellShaped_merge_iff {query form : StatementList} (hq : query.WellShaped) (hf : form.WellShaped) :
    (query.mergedOnce form).WellShaped ↔ ¬query.Absorbs form := by
  obtain ⟨front, back, heq, hkind, hback, hopen⟩ := merge_split query.statements hf.apart
  have hfront : front.IsChain MayFollow := isChain_kind hkind.symm hq.apart
  have hchain : (query.mergedOnce form).statements.IsChain MayFollow ↔ ¬query.Absorbs form := by
    rw [mergedOnce, merge, heq, isChain_firstDefaultOnly_append hfront hback, any_kind hkind, endsFilter_kind hkind, hopen,
      Absorbs]
  refine ⟨fun h => hchain.1 h.apart, fun h => ⟨fun s hs => ?_, hchain.2 h⟩⟩
  rcases mem_merge (mem_firstDefaultOnly hs) with hs | hs
  · exact hq.each s hs
  · exact hf.each s hs

/-- the text of a merge is the text of the list that it is meant to say -/
theorem mergeAndSerialize_eq {query form : StatementList} (hq : query.WellShaped) (hf : form.WellShaped) :
    query.mergeAndSerialize form = (query.mergedOnce form).literal := by
  have hshape : ∀ s ∈ (query.merge form).statements, s.WellShaped := fun s hs =>
    (mem_merge hs).elim (hq.each s) (hf.each s)
  have hsort : ∀ s ∈ (query.merge form).statements, s.isDefaultSort = false := by
    intro s hs
    cases s with
    | defaultSort => exact absurd (hshape _ hs) id
    | _ => rfl
  calc query.mergeAndSerialize form
      = joinSpaced ((keptStatements (query.merge form).statements).map Statement.literal) := rfl
    _ = joinSpaced ((query.mergedOnce form).statements.map Statement.literal) := by rw [keptStatements_eq hsort]; rfl
    _ = (query.mergedOnce form).literal := (literal_eq fun s hs => hshape s (mem_firstDefaultOnly hs)).symm

/-- **Merged text can be written back unless the query absorbs the form**, and then it cannot. -/
theorem merge_written_back_iff {queryText formText : String} {query form : StatementList}
    (hq : parse queryText = .ok query) (hf : parse formText = .ok form) :
    parse (query.mergeAndSerialize form) = .ok { statements := firstDefaultOnly (query.merge form).statements } ↔
      ¬query.Absorbs form := by
  obtain ⟨hqs, -⟩ := parse_shape hq
  obtain ⟨hfs, -⟩ := parse_shape hf
  rw [← wellShaped_merge_iff hqs hfs, mergeAndSerialize_eq hqs hfs]
  exact ⟨fun h => (parse_shape h).1, fun h => parse_literal h⟩

/-- a query with a sort and unqualified text -/
def beachQuery : StatementList where
  statements := [.fieldFilter "title" (.matching "beach"), .sort "date" .descending, .defaultFilter (.matching "sun")]

/-- a form that filters the title anew and has unqualified text of its own -/
def sandForm : StatementList where
  statements := [.fieldFilter "TITLE" (.notMatching "-" "sand"), .sort "size" (.ascending true),
    .defaultFilter (.matching "sea"), .fieldFilter "tag" (.or (.matching "a") (.matching "b") " ")]

/-- the text of the form stays behind the sort, and its unqualified text is left out -/
theorem merge_written_back_beach :
    parse "title:beach sort:date-desc sun" = .ok beachQuery ∧
      parse "TITLE:-sand sort:size-asc sea tag:a b" = .ok sandForm ∧ ¬beachQuery.Absorbs sandForm ∧
      parse (beachQuery.mergeAndSerialize sandForm) = .ok { statements := [
        .fieldFilter "TITLE" (.notMatching "-" "sand"), .sort "date" .descending, .defaultFilter (.matching "sun"),
        .sort "size" (.ascending true), .fieldFilter "tag" (.or (.matching "a") (.matching "b") " ")] } := by
  have hq : parse "title:beach sort:date-desc sun" = .ok beachQuery := parse_of_literal (by decide) rfl (by decide)
  have hf : parse "TITLE:-sand sort:size-asc sea tag:a b" = .ok sandForm := parse_of_literal (by decide) rfl (by decide)
  have ha : ¬beachQuery.Absorbs sandForm := by decide
  exact ⟨hq, hf, ha, (merge_written_back_iff hq hf).2 ha⟩

/-- unqualified text of a form is taken up by the title that it is written behind -/
theorem merge_absorbed_title :
    ∃ query form, parse "title:beach" = .ok query ∧ parse "sand" = .ok form ∧
      query.mergeAndSerialize form = "title:beach sand" ∧
      parse (query.mergeAndSerialize form) =
        .ok { statements := [.fieldFilter "title" (.or (.matching "beach") (.matching "sand") " ")] } ∧
      parse (query.mergeAndSerialize form) ≠
        .ok { statements := firstDefaultOnly (query.merge form).statements } := by
  have hq : parse "title:beach" = .ok { statements := [.fieldFilter "title" (.matching "beach")] } :=
    parse_of_literal (by decide) rfl (by decide)
  have hf : parse "sand" = .ok { statements := [.defaultFilter (.matching "sand")] } :=
    parse_of_literal (by decide) rfl (by decide)
  have hm : parse "title:beach sand" =
      .ok { statements := [.fieldFilter "title" (.or (.matching "beach") (.matching "sand") " ")] } :=
    parse_of_literal (by decide) rfl (by decide)
  refine ⟨_, _, hq, hf, by decide, hm, ?_⟩
  intro h
  have := Except.ok.inj (hm.symm.trans h)
  exact absurd this (by decide)

end StatementList

end FieldSearch
