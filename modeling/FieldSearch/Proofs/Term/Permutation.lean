/-
Terms that are registered in another order.

- `find?_perm`: where one element at most passes a test, the order of a list does not matter to what is found.
- `ofTerms_eq_ok`: terms build a registry exactly if they are registrable, which no order changes (`Registrable.perm`), and
  then the registry finds under a name the term of that name, and as its default term the one that is marked
  (`built_get?`, `built_default?`).
- `parse_congr`, `execute_congr`: reading and execution see of a registry only what it finds.
- `ofTerms_perm`: so the order of registration does not matter to them.
-/
import FieldSearch.Proofs.Schema.Validation
import FieldSearch.Query.Trace
import FieldSearch.Term.Compilation
import FieldSearch.Term.Reading

namespace FieldSearch

/-! ## What is found in a list in another order -/

theorem find?_perm {α : Type} {p : α → Bool} {l l' : List α} (h : l.Perm l') (hone : (l.filter p).length ≤ 1) :
    l.find? p = l'.find? p := by
  have hfilter : (l.filter p).Perm (l'.filter p) := h.filter p
  rw [← List.head?_filter, ← List.head?_filter]
  match hl : l.filter p with
  | [] =>
    rw [hl] at hfilter
    rw [hfilter.symm.eq_nil]
  | [a] =>
    rw [hl] at hfilter
    rw [hfilter.symm.eq_singleton]
  | a :: b :: rest =>
    rw [hl, List.length_cons, List.length_cons] at hone
    omega

/-- of a list without repeated keys one element at most has a key -/
theorem length_filter_key {α β : Type} [DecidableEq β] {key : α → β} {l : List α} (h : (l.map key).Nodup) (k : β) :
    (l.filter fun a => key a == k).length ≤ 1 := by
  have hkeys : (l.filter fun a => key a == k).map key = List.replicate (l.filter fun a => key a == k).length k := by
    rw [List.eq_replicate_iff]
    refine ⟨List.length_map key, fun b hb => ?_⟩
    obtain ⟨a, ha, rfl⟩ := List.mem_map.1 hb
    exact beq_iff_eq.1 (List.mem_filter.1 ha).2
  have hnodup : ((l.filter fun a => key a == k).map key).Nodup := h.sublist (List.filter_sublist.map key)
  rw [hkeys] at hnodup
  exact List.nodup_replicate.1 hnodup

theorem Fresh.perm {keys names names' : List String} (h : Fresh keys names) (hperm : names.Perm names') :
    Fresh keys names' where
  identifier n hn := h.identifier n (hperm.mem_iff.2 hn)
  apart n hn := h.apart n (hperm.mem_iff.2 hn)
  distinct := (hperm.map nameKey).nodup_iff.1 h.distinct

namespace TermRegistry

variable {Q : Type} {r r' : TermRegistry Q} {terms terms' : List (TermOption Q)}

/-! ## The registry that terms build -/

/-- the registry that holds each term under the key of its name -/
def built (terms : List (TermOption Q)) : TermRegistry Q where
  terms := ⟨terms.map fun t => (nameKey t.name, t)⟩
  defaultKey := (terms.find? (·.isDefault)).map fun t => nameKey t.name

/-- terms build a registry exactly if they are registrable -/
theorem ofTerms_eq_ok : ofTerms terms = .ok r ↔ Registrable {} terms ∧ r = built terms := by
  have hbuilt : Registrable {} terms → ofTerms terms = .ok (built terms) := foldlM_register
  constructor
  · intro h
    have hregistrable : Registrable {} terms := registrable_of_foldlM h
    rw [hbuilt hregistrable] at h
    exact ⟨hregistrable, (Except.ok.inj h).symm⟩
  · rintro ⟨hregistrable, rfl⟩
    exact hbuilt hregistrable

theorem Registrable.perm (h : r.Registrable terms) (hperm : terms.Perm terms') : r.Registrable terms' where
  fresh := h.fresh.perm (hperm.map _)
  oneDefault := by
    rw [← (hperm.filter (·.isDefault)).length_eq]
    exact h.oneDefault

theorem Registrable.distinctKeys (h : r.Registrable terms) : (terms.map fun t => nameKey t.name).Nodup := by
  have hnames := h.fresh.distinct
  rwa [List.map_map] at hnames

/-- under a name the term of that name is found -/
theorem built_get? (terms : List (TermOption Q)) (name : String) :
    (built terms).get? name = terms.find? fun t => nameKey t.name == nameKey name :=
  (Registry.lookup_map TermOption.name id terms (nameKey name)).trans (Option.map_id_apply)

/-- the default term is the one that is marked -/
theorem built_default? (h : Registrable {} terms) : (built terms).default? = terms.find? (·.isDefault) := by
  rw [default?, built]
  cases hmarked : terms.find? (·.isDefault) with
  | none => rfl
  | some t =>
    have hmem : t ∈ terms := List.mem_of_find?_eq_some hmarked
    have hdistinct : (terms.map fun u => nameKey u.name).Nodup := h.distinctKeys
    have hfound : terms.find? (fun u => nameKey u.name == nameKey t.name) = some t := find?_of_nodup _ hdistinct hmem
    exact (built_get? terms t.name).trans hfound

/-! ## What reading and execution see of a registry -/

theorem parse_congr (hget : ∀ name, r.get? name = r'.get? name) (hdefault : r.default? = r'.default?) (text : String) :
    r.parse text = r'.parse text := by
  have hread : r.readTerm = r'.readTerm := by
    funext c
    simp only [readTerm, hget, hdefault]
  rw [parse, hread, parse]

theorem execute_congr [Query Q] (hget : ∀ name, r.get? name = r'.get? name) (services : Services) (list : List Term)
    (q : Q) : r.execute services list q = r'.execute services list q := by
  have happly : r.applyTerm services = r'.applyTerm services := by
    funext q t
    simp only [applyTerm, hget]
  rw [execute, happly, execute]

/-- a registry finds the same in whatever order its terms were registered -/
theorem built_perm (h : Registrable {} terms) (hperm : terms.Perm terms') :
    (∀ name, (built terms).get? name = (built terms').get? name) ∧ (built terms).default? = (built terms').default? := by
  constructor
  · intro name
    rw [built_get?, built_get?]
    exact find?_perm hperm (length_filter_key h.distinctKeys (nameKey name))
  · rw [built_default? h, built_default? (h.perm hperm)]
    have hone := h.oneDefault
    exact find?_perm hperm (by omega)

/-- **The order of registration does not matter.** Terms build a registry exactly if they do in any other order, and both
registries then parse every text alike, with the same error where it is malformed, and execute every list of terms alike
on every query. -/
theorem ofTerms_perm [Query Q] (hperm : terms.Perm terms') :
    ((∃ r, ofTerms terms = .ok r) ↔ ∃ r', ofTerms terms' = .ok r') ∧
      ∀ r r', ofTerms terms = .ok r → ofTerms terms' = .ok r' →
        (∀ text, r.parse text = r'.parse text) ∧
          ∀ services list q, r.execute services list q = r'.execute services list q := by
  refine ⟨⟨?_, ?_⟩, ?_⟩
  · rintro ⟨r, hr⟩
    obtain ⟨hregistrable, -⟩ := ofTerms_eq_ok.1 hr
    exact ⟨_, ofTerms_eq_ok.2 ⟨hregistrable.perm hperm, rfl⟩⟩
  · rintro ⟨r', hr'⟩
    obtain ⟨hregistrable, -⟩ := ofTerms_eq_ok.1 hr'
    exact ⟨_, ofTerms_eq_ok.2 ⟨hregistrable.perm hperm.symm, rfl⟩⟩
  · intro r r' hr hr'
    obtain ⟨hregistrable, rfl⟩ := ofTerms_eq_ok.1 hr
    obtain ⟨-, rfl⟩ := ofTerms_eq_ok.1 hr'
    obtain ⟨hget, hdefault⟩ := built_perm hregistrable hperm
    exact ⟨parse_congr hget hdefault, execute_congr hget⟩

/-- notes a value with the name under which its term was registered -/
def labelled (sign : String) : Builder (Trace String) := fun ctx value =>
  Trace.record (.note (sign ++ ctx.current.name ++ "=" ++ value))

/-- a default term between two others, of which the second takes many values -/
def libraryRegistrations : List (TermOption (Trace String)) :=
  [⟨"Year", false, .one (labelled "+")⟩, ⟨"author", true, .one (labelled "+")⟩,
    ⟨"title", false, .many (labelled "+") (labelled "-")⟩]

theorem ofTerms_perm_library :
    libraryRegistrations.Perm libraryRegistrations.reverse ∧
      ∃ r r', ofTerms libraryRegistrations = .ok r ∧ ofTerms libraryRegistrations.reverse = .ok r' ∧
        r'.parse "carson YEAR:1951 title:sea !wind" =
          .ok [.default "author" (.unary "carson"), .named "Year" (.unary "1951"),
            .named "title" (.not (.unary "sea") "wind" "!")] ∧
        r'.parse "title:!(sea)" = .error (.parse 7 (.expected .negatedGroup)) ∧
        (r'.execute {} [.named "year" (.unary "1951"), .default "author" (.unary "carson")] {}).calls =
          [.note "+Year=1951", .note "+author=carson"] := by
  have hperm : libraryRegistrations.Perm libraryRegistrations.reverse := (List.reverse_perm _).symm
  have hr : ofTerms libraryRegistrations = .ok (built libraryRegistrations) := rfl
  have hr' : ofTerms libraryRegistrations.reverse = .ok (built libraryRegistrations.reverse) := rfl
  obtain ⟨-, hsame⟩ := ofTerms_perm hperm
  obtain ⟨hparse, hexecute⟩ := hsame _ _ hr hr'
  refine ⟨hperm, _, _, hr, hr', ?_, ?_, ?_⟩
  · rw [← hparse]
    decide +kernel
  · rw [← hparse]
    decide +kernel
  · rw [← hexecute]
    rfl

end TermRegistry

end FieldSearch
