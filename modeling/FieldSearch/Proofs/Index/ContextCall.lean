/-
What calls keep of an index context, and what they do to a statement list.

- The steps of each call amount to one change (`perform_eq`). `on_perform` says all that a call can do: one that is admitted
  has its outcome, any other is refused and leaves context and list as they were.
- `Sound`: the keys of filters and sorts are lower-case identifiers, and the default filter is registered. It holds of every
  context that registrations build (`Reachable.sound`).
- `KeptIn`: entries and the default filter stay as they are. `perform_context` is the step: the context stays reachable and
  keeps what it has. `performAll_context` is the run.
- `receives_withDefaultSort`: a list that receives a default sort has it once, behind its other statements.
- `registrations_keep`: both stores together.
-/
import FieldSearch.Index.ContextCall
import FieldSearch.Proofs.Index.Execution
import FieldSearch.Proofs.Term.Store

namespace FieldSearch

/-- a name as registries keep it: an identifier without capitals -/
def LowerIdentifier (key : String) : Prop := isIdentifier key = true ∧ ∀ c ∈ key.toList, c.isUpper = false

theorem isUpper_toLower (c : Char) : c.toLower.isUpper = false := by
  unfold Char.toLower Char.isUpper
  split <;> grind

/-- the key of an identifier has no capitals -/
theorem lowerIdentifier_nameKey {name : String} (h : isIdentifier name = true) : LowerIdentifier (nameKey name) := by
  refine ⟨by rw [isIdentifier_nameKey, h], fun c hc => ?_⟩
  rw [nameKey, String.toList_ofList] at hc
  obtain ⟨d, -, rfl⟩ := List.mem_map.1 hc
  exact isUpper_toLower d

namespace IndexContext

variable {Q : Type} {ctx ctx' : IndexContext Q}

/-! ## Calls as changes -/

theorem insertFilterM_eq (name : String) (map : FilterMap Q) :
    insertFilterM name map = Program.change fun ctx => ctx.addFilter name map := by
  rw [insertFilterM, Registry.addM_eq, Program.within_change _ fun _ => rfl]
  rfl

theorem addSortM_eq (name property : String) :
    addSortM (Q := Q) name property = Program.change fun ctx => ctx.addSort name property := by
  rw [addSortM, Registry.addM_eq, Program.within_change _ fun _ => rfl]
  rfl

theorem setDefaultFilterM_eq (name : String) :
    setDefaultFilterM (Q := Q) name = Program.change fun ctx => ctx.setDefaultFilter name := by
  refine Program.ext fun ctx => ?_
  have hhas : ctx.filters.has name = ctx.filters.holds (nameKey name) := rfl
  simp only [Program.on_change, setDefaultFilterM, Program.on_bind, Program.on_get, setDefaultFilter, hhas]
  cases ctx.defaultFilter with
  | some existing => rfl
  | none =>
    simp only [Program.on_bind, Program.on_get]
    cases ctx.filters.holds (nameKey name) <;> rfl

theorem setDefaultSortM_eq (ctx : IndexContext Q) (field : String) (direction : Direction) :
    ctx.setDefaultSortM field direction = Program.change fun list => ctx.setDefaultSort list field direction := by
  refine Program.ext fun list => ?_
  rw [Program.on_change, setDefaultSortM, setDefaultSort]
  cases (ctx.sort? field).isNone <;> rfl

/-! ## What registrations keep -/

/-- what holds of a context at any time -/
structure Sound (ctx : IndexContext Q) : Prop where
  filters : ∀ key, ctx.filters.holds key = true → LowerIdentifier key
  sorts : ∀ key, ctx.sorts.holds key = true → LowerIdentifier key
  /-- the default filter is registered -/
  default : ∀ key, ctx.defaultFilter = some key → ctx.filters.holds key = true

/-- the keys of a table stay lower-case identifiers -/
theorem lowerIdentifier_of_add {α : Type} {r r' : Registry α} {name : String} {a : α} (h : r.add name a = .ok r')
    (hkeys : ∀ key, r.holds key = true → LowerIdentifier key) : ∀ key, r'.holds key = true → LowerIdentifier key := by
  obtain ⟨hid, -, rfl⟩ := Registry.add_eq_insert_ok.1 h
  intro key hkey
  rw [Registry.holds, Registry.atKey?_insert] at hkey
  split_ifs at hkey with heq
  · exact heq ▸ lowerIdentifier_nameKey hid
  · exact hkeys key hkey

/-- the entries of a table stay as they are -/
theorem atKey?_of_add {α : Type} {r r' : Registry α} {name key : String} {a b : α} (h : r.add name a = .ok r')
    (hb : r.atKey? key = some b) : r'.atKey? key = some b := by
  obtain ⟨-, hfresh, rfl⟩ := Registry.add_eq_insert_ok.1 h
  rw [Registry.atKey?_insert, if_neg, hb]
  rintro rfl
  rw [hfresh] at hb
  cases hb

theorem addFilter_eq_ok {name : String} {map : FilterMap Q} :
    ctx.addFilter name map = .ok ctx' ↔
      (isIdentifier name = true ∧ ctx.filters.atKey? (nameKey name) = none) ∧
        ctx' = { ctx with filters := ctx.filters.insert (nameKey name) map } :=
  Program.map_eq_ok_iff (fun _ => Registry.add_eq_insert_ok.trans and_assoc.symm) ctx'

theorem addSort_eq_ok {name property : String} :
    ctx.addSort name property = .ok ctx' ↔
      (isIdentifier name = true ∧ ctx.sorts.atKey? (nameKey name) = none) ∧
        ctx' = { ctx with sorts := ctx.sorts.insert (nameKey name) property } :=
  Program.map_eq_ok_iff (fun _ => Registry.add_eq_insert_ok.trans and_assoc.symm) ctx'

/-- a default filter is set once, to a filter that is registered -/
theorem setDefaultFilter_eq_ok {name : String} :
    ctx.setDefaultFilter name = .ok ctx' ↔
      (ctx.defaultFilter = none ∧ ctx.filters.holds (nameKey name) = true) ∧
        ctx' = { ctx with defaultFilter := some (nameKey name) } := by
  have hhas : ctx.filters.has name = ctx.filters.holds (nameKey name) := rfl
  rw [setDefaultFilter, hhas]
  cases ctx.defaultFilter with
  | some existing => simp
  | none => cases ctx.filters.holds (nameKey name) <;> simp [eq_comm]

/-- the list with a default sort put into it -/
def withDefaultSort (list : StatementList) (field : String) (direction : Direction) : StatementList :=
  { list with
    statements := (list.statements.filter fun s => !s.isDefaultSort) ++ [.defaultSort field (.ofDirection direction)] }

theorem setDefaultSort_eq_ok {list list' : StatementList} {field : String} {direction : Direction} :
    ctx.setDefaultSort list field direction = .ok list' ↔
      ctx.sorts.holds (nameKey field) = true ∧ list' = withDefaultSort list field direction := by
  have hnone : (ctx.sort? field).isNone = !ctx.sorts.holds (nameKey field) := (Option.not_isSome _).symm
  rw [setDefaultSort, hnone, withDefaultSort]
  cases ctx.sorts.holds (nameKey field) <;> simp [eq_comm]

/-- contexts that registrations build are sound -/
theorem Reachable.sound (h : ctx.Reachable) : ctx.Sound := by
  induction h with
  | empty =>
    constructor
    all_goals
      intro key hkey
      cases hkey
  | filter name map _ hadd ih =>
    obtain ⟨filters, hfilters, rfl⟩ := map_eq_ok hadd
    refine ⟨lowerIdentifier_of_add hfilters ih.filters, ih.sorts, fun key hkey => ?_⟩
    obtain ⟨map, hmap⟩ := Option.isSome_iff_exists.1 (ih.default key hkey)
    exact Option.isSome_iff_exists.2 ⟨map, atKey?_of_add hfilters hmap⟩
  | sort name property _ hadd ih =>
    obtain ⟨sorts, hsorts, rfl⟩ := map_eq_ok hadd
    exact ⟨ih.filters, lowerIdentifier_of_add hsorts ih.sorts, ih.default⟩
  | default name _ hset ih =>
    obtain ⟨⟨-, hheld⟩, rfl⟩ := setDefaultFilter_eq_ok.1 hset
    refine ⟨ih.filters, ih.sorts, fun key hkey => ?_⟩
    cases hkey
    exact hheld

/-- what is registered stays as it is -/
structure KeptIn (ctx later : IndexContext Q) : Prop where
  filters : ∀ key map, ctx.filters.atKey? key = some map → later.filters.atKey? key = some map
  sorts : ∀ key property, ctx.sorts.atKey? key = some property → later.sorts.atKey? key = some property
  default : ∀ key, ctx.defaultFilter = some key → later.defaultFilter = some key

theorem KeptIn.refl (ctx : IndexContext Q) : ctx.KeptIn ctx := ⟨fun _ _ h => h, fun _ _ h => h, fun _ h => h⟩

theorem KeptIn.trans {c₁ c₂ c₃ : IndexContext Q} (h₁ : c₁.KeptIn c₂) (h₂ : c₂.KeptIn c₃) : c₁.KeptIn c₃ where
  filters key map h := h₂.filters key map (h₁.filters key map h)
  sorts key property h := h₂.sorts key property (h₁.sorts key property h)
  default key h := h₂.default key (h₁.default key h)

theorem addFilter_keeps {name : String} {map : FilterMap Q} (h : ctx.addFilter name map = .ok ctx') : ctx.KeptIn ctx' := by
  obtain ⟨filters, hadd, rfl⟩ := map_eq_ok h
  exact ⟨fun _ _ => atKey?_of_add hadd, fun _ _ h => h, fun _ h => h⟩

theorem addSort_keeps {name property : String} (h : ctx.addSort name property = .ok ctx') : ctx.KeptIn ctx' := by
  obtain ⟨sorts, hadd, rfl⟩ := map_eq_ok h
  exact ⟨fun _ _ h => h, fun _ _ => atKey?_of_add hadd, fun _ h => h⟩

theorem setDefaultFilter_keeps {name : String} (h : ctx.setDefaultFilter name = .ok ctx') : ctx.KeptIn ctx' := by
  obtain ⟨⟨hnone, -⟩, rfl⟩ := setDefaultFilter_eq_ok.1 h
  refine ⟨fun _ _ h => h, fun _ _ h => h, fun key hkey => ?_⟩
  rw [hnone] at hkey
  cases hkey

end IndexContext

namespace ContextCall

variable {Q : Type}

/-! ## One call -/

/-- the change that a call amounts to -/
def effect : ContextCall Q → Desk Q → Except Error (Desk Q)
  | .addFilter name property kind, desk =>
    (desk.context.addFilter name ⟨property, kind, none⟩).map fun context => { desk with context }
  | .addFilterWith name property kind custom, desk =>
    (desk.context.addFilter name ⟨property, kind, some custom⟩).map fun context => { desk with context }
  | .setDefaultFilter name, desk => (desk.context.setDefaultFilter name).map fun context => { desk with context }
  | .addSort name property, desk => (desk.context.addSort name property).map fun context => { desk with context }
  | .setDefaultSort field direction, desk =>
    (desk.context.setDefaultSort desk.list field direction).map fun list => { desk with list }
  | .take list, desk => .ok { desk with list }

/-- the steps of a call amount to one change -/
theorem perform_eq (call : ContextCall Q) : call.perform = Program.change call.effect := by
  cases call with
  | addFilter name property kind =>
    rw [perform, IndexContext.insertFilterM_eq, onContext, Program.within_change _ fun _ => rfl]
    rfl
  | addFilterWith name property kind custom =>
    rw [perform, IndexContext.insertFilterM_eq, onContext, Program.within_change _ fun _ => rfl]
    rfl
  | setDefaultFilter name =>
    rw [perform, IndexContext.setDefaultFilterM_eq, onContext, Program.within_change _ fun _ => rfl]
    rfl
  | addSort name property =>
    rw [perform, IndexContext.addSortM_eq, onContext, Program.within_change _ fun _ => rfl]
    rfl
  | setDefaultSort field direction =>
    refine Program.ext fun desk => ?_
    simp only [perform, Program.on_bind, Program.on_get, IndexContext.setDefaultSortM_eq]
    rw [onList, Program.within_change _ fun _ => rfl]
    rfl
  | take list => rfl

/-- what a call asks of the desk -/
def Admitted : ContextCall Q → Desk Q → Prop
  | .addFilter name _ _, desk | .addFilterWith name _ _ _, desk =>
    isIdentifier name = true ∧ desk.context.filters.atKey? (nameKey name) = none
  | .setDefaultFilter name, desk =>
    desk.context.defaultFilter = none ∧ desk.context.filters.holds (nameKey name) = true
  | .addSort name _, desk => isIdentifier name = true ∧ desk.context.sorts.atKey? (nameKey name) = none
  | .setDefaultSort field _, desk => desk.context.sorts.holds (nameKey field) = true
  | .take _, _ => True

/-- the desk behind a call that is admitted -/
def outcome : ContextCall Q → Desk Q → Desk Q
  | .addFilter name property kind, ⟨ctx, list⟩ =>
    ⟨{ ctx with filters := ctx.filters.insert (nameKey name) ⟨property, kind, none⟩ }, list⟩
  | .addFilterWith name property kind custom, ⟨ctx, list⟩ =>
    ⟨{ ctx with filters := ctx.filters.insert (nameKey name) ⟨property, kind, some custom⟩ }, list⟩
  | .setDefaultFilter name, ⟨ctx, list⟩ => ⟨{ ctx with defaultFilter := some (nameKey name) }, list⟩
  | .addSort name property, ⟨ctx, list⟩ => ⟨{ ctx with sorts := ctx.sorts.insert (nameKey name) property }, list⟩
  | .setDefaultSort field direction, ⟨ctx, list⟩ => ⟨ctx, IndexContext.withDefaultSort list field direction⟩
  | .take list, ⟨ctx, _⟩ => ⟨ctx, list⟩

theorem effect_eq_ok {call : ContextCall Q} {desk desk' : Desk Q} :
    call.effect desk = .ok desk' ↔ call.Admitted desk ∧ desk' = call.outcome desk := by
  cases call with
  | addFilter | addFilterWith => exact Program.map_eq_ok_iff (fun _ => IndexContext.addFilter_eq_ok) desk'
  | setDefaultFilter name => exact Program.map_eq_ok_iff (fun _ => IndexContext.setDefaultFilter_eq_ok) desk'
  | addSort name property => exact Program.map_eq_ok_iff (fun _ => IndexContext.addSort_eq_ok) desk'
  | setDefaultSort field direction => exact Program.map_eq_ok_iff (fun _ => IndexContext.setDefaultSort_eq_ok) desk'
  | take list =>
    simp only [effect, Admitted, outcome, true_and, Except.ok.injEq]
    exact eq_comm

/-- **All that a call can do**: one that is admitted has its outcome, any other is refused, and context and list stay. -/
theorem on_perform (call : ContextCall Q) (desk : Desk Q) :
    call.Admitted desk ∧ call.perform.on desk = (.ok (), call.outcome desk) ∨
      ¬ call.Admitted desk ∧ ∃ e, call.perform.on desk = (.error e, desk) := by
  rw [perform_eq]
  exact Program.on_change_cases fun _ => effect_eq_ok

/-- **One call keeps a context reachable**, and all that is registered in it. -/
theorem perform_context (call : ContextCall Q) {desk : Desk Q} (h : desk.context.Reachable) :
    (call.perform.after desk).context.Reachable ∧ desk.context.KeptIn (call.perform.after desk).context := by
  rcases on_perform call desk with ⟨hadmitted, hon⟩ | ⟨-, e, hon⟩
  · rw [Program.after, hon]
    cases call with
    | addFilter name property kind =>
      have hadd : desk.context.addFilter name ⟨property, kind, none⟩ = .ok _ :=
        IndexContext.addFilter_eq_ok.2 ⟨hadmitted, rfl⟩
      exact ⟨.filter name _ h hadd, IndexContext.addFilter_keeps hadd⟩
    | addFilterWith name property kind custom =>
      have hadd : desk.context.addFilter name ⟨property, kind, some custom⟩ = .ok _ :=
        IndexContext.addFilter_eq_ok.2 ⟨hadmitted, rfl⟩
      exact ⟨.filter name _ h hadd, IndexContext.addFilter_keeps hadd⟩
    | setDefaultFilter name =>
      have hset := IndexContext.setDefaultFilter_eq_ok.2 ⟨hadmitted, rfl⟩
      exact ⟨.default name h hset, IndexContext.setDefaultFilter_keeps hset⟩
    | addSort name property =>
      have hadd : desk.context.addSort name property = .ok _ := IndexContext.addSort_eq_ok.2 ⟨hadmitted, rfl⟩
      exact ⟨.sort name property h hadd, IndexContext.addSort_keeps hadd⟩
    | setDefaultSort | take => exact ⟨h, .refl _⟩
  · rw [Program.after, hon]
    exact ⟨h, .refl _⟩

/-- a list with a default sort put into it: it stands last and alone, behind the other statements in their order -/
structure Receives (list list' : StatementList) (field : String) (direction : Direction) : Prop where
  last : list'.statements.getLast? = some (.defaultSort field (.ofDirection direction))
  once : list'.statements.countP Statement.isDefaultSort = 1
  others : (list'.statements.filter fun s => !s.isDefaultSort) = list.statements.filter fun s => !s.isDefaultSort
  hasOrder : list'.hasOrder = list.hasOrder

theorem receives_withDefaultSort (list : StatementList) (field : String) (direction : Direction) :
    Receives list (IndexContext.withDefaultSort list field direction) field direction := by
  have hnone : (list.statements.filter fun s => !s.isDefaultSort).countP Statement.isDefaultSort = 0 := by
    rw [List.countP_eq_zero]
    intro s hs
    simpa using (List.mem_filter.1 hs).2
  unfold IndexContext.withDefaultSort
  refine ⟨List.getLast?_concat .., ?_, ?_, rfl⟩
  · rw [List.countP_append, hnone]
    rfl
  · rw [List.filter_append, List.filter_filter]
    simp [Statement.isDefaultSort]

/-! ## Runs -/

/-- what a run of calls does to the context -/
theorem performAll_context (calls : List (ContextCall Q)) {desk : Desk Q} (h : desk.context.Reachable) :
    (performAll calls desk).context.Reachable ∧ desk.context.KeptIn (performAll calls desk).context := by
  induction calls generalizing desk with
  | nil => exact ⟨h, .refl _⟩
  | cons call calls ih =>
    obtain ⟨hreach, hkept⟩ := perform_context call h
    obtain ⟨hreach', hkept'⟩ := ih hreach
    exact ⟨hreach', hkept.trans hkept'⟩

end ContextCall

/-! ## Both stores -/

/-- **Registrations keep their invariants, and a refused one changes nothing.** After any calls of a context, some of them
refused, the context is sound, and whatever comes then keeps its entries and its default filter. A call that is admitted has
its outcome; any other is refused, and leaves context and list as they were. A default sort that is put into a list stands
there once, behind the other statements. After any registrations of terms the store is sound, lists once each the terms that
were not refused, in their order, and has a default key exactly if there is one default term. A term that fits is added; any
other is refused, and leaves the store as it was. -/
theorem registrations_keep {Q : Type} (list : StatementList) (calls more : List (ContextCall Q)) (call : ContextCall Q)
    (field : String) (direction : Direction) (terms later : List (TermOption Q)) (t : TermOption Q) :
    let desk : Desk Q := ContextCall.performAll calls ⟨{}, list⟩
    let sorted : Desk Q := (ContextCall.setDefaultSort field direction).outcome desk
    let store : TermStore Q := TermStore.registerAll terms {}
    (desk.context.Sound ∧ desk.context.KeptIn (ContextCall.performAll more desk).context ∧
      (call.Admitted desk ∧ call.perform.on desk = (.ok (), call.outcome desk) ∨
        ¬ call.Admitted desk ∧ ∃ e, call.perform.on desk = (.error e, desk)) ∧
      sorted.context = desk.context ∧ ContextCall.Receives desk.list sorted.list field direction) ∧
    store.Sound ∧ store.KeptIn (TermStore.registerAll later store) ∧
      store.toList = TermStore.accepted terms {} ∧ (store.toList.map fun t => nameKey t.name) = store.order ∧
      (∀ t, t ∈ store.toList ↔ store.options.atKey? (nameKey t.name) = some t) ∧
      (store.defaultKey.isSome = true ↔ ∃! key, store.DefaultAt key) ∧
      (store.Fits t ∧ (TermStore.registerM t).on store = (.ok (), store.adding t) ∨
        ¬ store.Fits t ∧ ∃ e, (TermStore.registerM t).on store = (.error e, store)) := by
  intro desk sorted store
  have hempty : (⟨{}, list⟩ : Desk Q).context.Reachable := .empty
  obtain ⟨hreach, -⟩ := ContextCall.performAll_context calls hempty
  obtain ⟨-, hkept⟩ := ContextCall.performAll_context more hreach
  obtain ⟨hsound, -, hlist⟩ := TermStore.registerAll_keeps TermStore.sound_empty terms
  obtain ⟨-, hlater, -⟩ := TermStore.registerAll_keeps hsound later
  have hreceives := ContextCall.receives_withDefaultSort desk.list field direction
  exact ⟨⟨hreach.sound, hkept, call.on_perform desk, rfl, hreceives⟩, hsound, hlater, hlist, hsound.keys_toList,
    fun _ => hsound.mem_toList, hsound.default_unique, TermStore.on_registerM t store⟩

/-- some calls of an empty context by the owner of a list with a default sort; the second one is refused -/
def libraryDesk : Desk Unit :=
  ContextCall.performAll
    [.addFilter "Title" "title" .text, .addFilter "title" "heading" .text, .setDefaultFilter "TITLE", .addSort "Year" "date"]
    ⟨{}, ⟨[.defaultSort "title" .descending, .defaultFilter (.matching "dunes")], false⟩⟩

/-- some terms, of which the second and the third are refused -/
def libraryTerms : List (TermOption Unit) :=
  [⟨"Title", true, .one fun _ _ q => q⟩, ⟨"title", false, .one fun _ _ q => q⟩, ⟨"Author", true, .one fun _ _ q => q⟩,
    ⟨"Year", false, .one fun _ _ q => q⟩]

/-- A second default filter and a term whose name is taken are refused, and a list receives a default sort. -/
theorem registrations_keep_library :
    (ContextCall.setDefaultFilter "Title").perform.on libraryDesk = (.error (.defaultFilterSet "title"), libraryDesk) ∧
      ((ContextCall.setDefaultSort "year" .ascending).outcome libraryDesk).list.statements.countP
        Statement.isDefaultSort = 1 ∧
      (TermStore.registerAll libraryTerms {}).order = ["title", "year"] ∧
      (∃! key, (TermStore.registerAll libraryTerms {}).DefaultAt key) ∧
      (TermStore.registerM ⟨"YEAR", false, .one fun _ _ q => q⟩).on (TermStore.registerAll libraryTerms {}) =
        (.error (.duplicateTerm "YEAR"), TermStore.registerAll libraryTerms {}) := by
  obtain ⟨⟨-, -, -, -, hreceives⟩, -, -, -, -, -, hdefault, -⟩ :=
    registrations_keep (Q := Unit) ⟨[.defaultSort "title" .descending, .defaultFilter (.matching "dunes")], false⟩
      [.addFilter "Title" "title" .text, .addFilter "title" "heading" .text, .setDefaultFilter "TITLE",
        .addSort "Year" "date"] [] (.setDefaultFilter "Title") "year" .ascending libraryTerms []
      ⟨"YEAR", false, .one fun _ _ q => q⟩
  exact ⟨rfl, hreceives.once, rfl, hdefault.1 rfl, rfl⟩

end FieldSearch
