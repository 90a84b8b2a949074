/-
What readers read, apart from the failures that they meet on the way.

- `value_bind`, `value_map`, `value_orElse`: what a composed reader reads depends only on what its parts read.
- `Steps step c bs d`: repeating `step` from `c` gives the elements `bs` and gets to `d`.
- `chain_behind`: a chain goes on behind its first steps. It gives the elements of its steps once a step gives none, and
  nothing at all once a step fails. `steps_of_chain` is the converse for steps that read at least one character.
- `ChainTo`: as far as some place, a left chain has given some operand. `leftChain_eq_some`: it is read if it gets as far
  as a place where its step gives nothing. `ChainTo.joined_behind`: whatever is read in the end is joined to that operand.
  `ChainTo.transfer`: chains of related parts get to the same places with related operands.
- `keeps_of_guarded`, `eq_of_guarded`: a reader that calls itself only where less text is left keeps what its parts keep,
  and its guard never refuses.
-/
import FieldSearch.Grammar.Operand
import FieldSearch.Proofs.Grammar.Place

namespace FieldSearch

namespace Reply

variable {α β : Type}

@[simp] theorem value_done (a : α) (c : Cursor) : (done a c).value = some (a, c) := rfl

@[simp] theorem value_fail (x : Expectation) (c : Cursor) : (fail x c : Reply α).value = none := rfl

@[simp] theorem value_ofOption (r : Option (α × Cursor)) : (ofOption r).value = r := rfl

@[simp] theorem value_map (f : α → β) (r : Reply α) : (r.map f).value = r.value.map fun p => (f p.1, p.2) := rfl

@[simp] theorem value_bind (r : Reply α) (next : α → Cursor → Reply β) :
    (r.bind next).value = r.value.bind fun p => (next p.1 p.2).value := by
  unfold bind
  cases r.value <;> rfl

@[simp] theorem value_orElse (r : Reply α) (other : Unit → Reply α) :
    (r.orElse other).value = r.value.or (other ()).value := by
  unfold orElse
  cases h : r.value <;> simp [h]

theorem bind_eq_some {r : Reply α} {next : α → Cursor → Reply β} {b : β} {d : Cursor} :
    (r.bind next).value = some (b, d) ↔ ∃ a c, r.value = some (a, c) ∧ (next a c).value = some (b, d) := by
  simp [Option.bind_eq_some_iff]

theorem map_eq_some {f : α → β} {r : Reply α} {b : β} {d : Cursor} :
    (r.map f).value = some (b, d) ↔ ∃ a, r.value = some (a, d) ∧ f a = b := by
  simp [Option.map_eq_some_iff]

theorem map_eq_none {f : α → β} {r : Reply α} : (r.map f).value = none ↔ r.value = none := by simp

/-- what was read was read up to one place -/
theorem eq_some_iff {r : Reply α} {a : α} {c d : Cursor} (h : r.value = some (a, c)) :
    r.value = some (a, d) ↔ d = c := by
  rw [h]
  simp [eq_comm]

/-- a reader that may read nothing gives an element where the reader behind it reads -/
theorem orNone_of_some {r : Reply α} {a : α} {d : Cursor} (h : r.value = some (a, d)) (c : Cursor) :
    (r.orNone c).value = some (some a, d) := by
  simp [orNone, h]

theorem orNone_of_none {r : Reply α} (h : r.value = none) (c : Cursor) : (r.orNone c).value = some (none, c) := by
  simp [orNone, h]

/-- what stands behind a reply matters only where it read something -/
theorem bind_congr {r : Reply α} {next next' : α → Cursor → Reply β}
    (h : ∀ a c, r.value = some (a, c) → next a c = next' a c) : r.bind next = r.bind next' := by
  unfold bind
  cases hr : r.value with
  | none => rfl
  | some p => simp only; rw [h p.1 p.2 hr]

theorem orNone_eq_some {r : Reply α} {c d : Cursor} {a : α} :
    (r.orNone c).value = some (some a, d) ↔ r.value = some (a, d) := by
  cases h : r.value with
  | none => simp [orNone_of_none h]
  | some p => simp [orNone_of_some (d := p.2) (a := p.1) h, Prod.ext_iff]

theorem orNone_eq_none {r : Reply α} {c d : Cursor} :
    (r.orNone c).value = some (none, d) ↔ r.value = none ∧ d = c := by
  cases h : r.value with
  | none => simp [orNone_of_none h, eq_comm]
  | some p => simp [orNone_of_some (d := p.2) (a := p.1) h]

end Reply

variable {α β : Type}

/-- what a reader reads takes at least one character -/
def Advances (read : Cursor → Reply α) : Prop :=
  ∀ c a d, (read c).value = some (a, d) → c.Passes d

/-! ## Repeating a step -/

/-- repeating a step from one place gives elements and gets to another place -/
inductive Steps (step : Cursor → Reply (Option β)) : Cursor → List β → Cursor → Prop
  | nil (c : Cursor) : Steps step c [] c
  | cons {c d e : Cursor} {b : β} {bs : List β} (head : (step c).value = some (some b, d))
      (shorter : d.rest.length < c.rest.length) (tail : Steps step d bs e) : Steps step c (b :: bs) e

/-- every element that a step gives takes at least one character -/
def Consumes (step : Cursor → Reply (Option β)) : Prop :=
  ∀ c b d, (step c).value = some (some b, d) → c.Passes d

namespace Steps

variable {step : Cursor → Reply (Option β)}

theorem snoc {c d e : Cursor} {bs : List β} {b : β} (h : Steps step c bs d) (hb : (step d).value = some (some b, e))
    (hlt : e.rest.length < d.rest.length) : Steps step c (bs ++ [b]) e := by
  induction h with
  | nil c => exact .cons hb hlt (.nil e)
  | cons head shorter _ ih => exact .cons head shorter (ih hb hlt)

theorem reaches (hstep : Consumes step) {c d : Cursor} {bs : List β} (h : Steps step c bs d) : c.Reaches d := by
  induction h with
  | nil c => exact .refl c
  | cons head _ _ ih => exact (hstep _ _ _ head).reaches.trans ih

/-- what the joining of each element keeps holds of everything joined -/
theorem foldl_keeps {join : α → β → α} {P : α → Prop}
    (hkeep : ∀ a c b d, P a → (step c).value = some (some b, d) → P (join a b)) {c d : Cursor} {bs : List β}
    (h : Steps step c bs d) {a : α} (ha : P a) : P (bs.foldl join a) := by
  induction h generalizing a with
  | nil c => exact ha
  | cons head _ _ ih => exact ih (hkeep _ _ _ _ ha head)

/-- what each step gets to is where the last one stopped, if there is one -/
theorem ends_keeps {P : Cursor → Prop} (hkeep : ∀ c b d, (step c).value = some (some b, d) → P d) {c d : Cursor}
    {bs : List β} (h : Steps step c bs d) (hc : P c) : P d := by
  induction h with
  | nil c => exact hc
  | cons head _ _ ih => exact ih (hkeep _ _ _ head)

end Steps

variable {step : Cursor → Reply (Option β)}

/-- one round of a chain whose step gave an element -/
theorem chain_cons {c d : Cursor} {b : β} (h : (step c).value = some (some b, d))
    (hlt : d.rest.length < c.rest.length) :
    (chain step c).value = (chain step d).value.map fun p => (b :: p.1, p.2) := by
  rw [chain, Reply.value_bind, h]
  simp [hlt]

theorem chain_nil {c d : Cursor} (h : (step c).value = some (none, d)) : (chain step c).value = some ([], d) := by
  rw [chain, Reply.value_bind, h]
  simp

theorem chain_none {c : Cursor} (h : (step c).value = none) : (chain step c).value = none := by
  rw [chain, Reply.value_bind, h]
  simp

/-- a chain goes on behind the elements of its first steps -/
theorem chain_behind {c d : Cursor} {bs : List β} (h : Steps step c bs d) :
    (chain step c).value = (chain step d).value.map fun p => (bs ++ p.1, p.2) := by
  induction h with
  | nil c => simp
  | cons head shorter _ ih =>
    rw [chain_cons head shorter, ih, Option.map_map]
    rfl

/-- a chain gives the elements of its steps once a step gives none -/
theorem chain_of_steps {c d e : Cursor} {bs : List β} (h : Steps step c bs d) (hd : (step d).value = some (none, e)) :
    (chain step c).value = some (bs, e) := by
  rw [chain_behind h, chain_nil hd, Option.map_some, List.append_nil]

/-- a chain fails once a step fails -/
theorem chain_fails {c d : Cursor} {bs : List β} (h : Steps step c bs d) (hd : (step d).value = none) :
    (chain step c).value = none := by
  rw [chain_behind h, chain_none hd, Option.map_none]

/-- what a chain gives are the elements of its steps, up to a step that gives none -/
theorem steps_of_chain (hstep : Consumes step) {c e : Cursor} {bs : List β} (h : (chain step c).value = some (bs, e)) :
    ∃ d, Steps step c bs d ∧ (step d).value = some (none, e) := by
  induction hn : c.rest.length using Nat.strong_induction_on generalizing c bs with
  | _ n ih =>
    rcases hs : (step c).value with _ | ⟨_ | b, d⟩
    · rw [chain_none hs] at h; simp at h
    · rw [chain_nil hs] at h
      simp only [Option.some.injEq, Prod.mk.injEq] at h
      obtain ⟨rfl, rfl⟩ := h
      exact ⟨c, .nil c, hs⟩
    · have hlt := (hstep _ _ _ hs).2
      rw [chain_cons hs hlt, Option.map_eq_some_iff] at h
      obtain ⟨⟨bs', e'⟩, hc, he⟩ := h
      simp only [Prod.mk.injEq] at he
      obtain ⟨rfl, rfl⟩ := he
      obtain ⟨d', hd, hn'⟩ := ih _ (hn ▸ hlt) hc rfl
      exact ⟨d', .cons hs hlt hd, hn'⟩

theorem chain_reaches (hstep : Consumes step) (hend : ∀ c d, (step c).value = some (none, d) → c.Reaches d) {c e : Cursor}
    {bs : List β} (h : (chain step c).value = some (bs, e)) : c.Reaches e := by
  obtain ⟨d, hd, he⟩ := steps_of_chain hstep h
  exact (hd.reaches hstep).trans (hend d e he)

/-- a chain asks its step only where no more text is left than at its start -/
theorem chain_congr {step' : Cursor → Reply (Option β)} {c : Cursor}
    (h : ∀ d, d.rest.length ≤ c.rest.length → step d = step' d) : chain step c = chain step' c := by
  induction hn : c.rest.length using Nat.strong_induction_on generalizing c with
  | _ n ih =>
    rw [chain, chain, h c le_rfl]
    refine Reply.bind_congr fun found behind _ => ?_
    cases found with
    | none => rfl
    | some a =>
      by_cases hlt : behind.rest.length < c.rest.length
      · simp only [hlt, if_true]
        rw [ih _ (hn ▸ hlt) (fun d hd => h d (hd.trans hlt.le)) rfl]
      · simp only [hlt, if_false]

/-! ## Left chains -/

variable {operand : Cursor → Reply α} {join : α → β → α}

/-- the first operand of a left chain and the links behind it, as far as `d`, where it may still go on, give `x` -/
def ChainTo (operand : Cursor → Reply α) (step : Cursor → Reply (Option β)) (join : α → β → α) (x : α) (c d : Cursor) :
    Prop :=
  ∃ a b links, (operand c).value = some (a, b) ∧ Steps step b links d ∧ links.foldl join a = x

namespace ChainTo

variable {x : α} {c d e : Cursor}

theorem first (h : (operand c).value = some (x, d)) : ChainTo operand step join x c d :=
  ⟨x, d, [], h, .nil d, rfl⟩

theorem snoc {y : β} (h : ChainTo operand step join x c d) (hy : (step d).value = some (some y, e))
    (hlt : e.rest.length < d.rest.length) : ChainTo operand step join (join x y) c e := by
  obtain ⟨a, b, links, ha, hl, rfl⟩ := h
  exact ⟨a, b, links ++ [y], ha, hl.snoc hy hlt, by rw [List.foldl_append]; rfl⟩

/-- a left chain ends where a step gives nothing -/
theorem ends (h : ChainTo operand step join x c d) (hd : (step d).value = some (none, e)) :
    (leftChain operand step join c).value = some (x, e) := by
  obtain ⟨a, b, links, ha, hl, rfl⟩ := h
  rw [leftChain, Reply.bind_eq_some]
  exact ⟨a, b, ha, by rw [Reply.value_map, chain_of_steps hl hd]; rfl⟩

/-- a left chain fails where a step fails -/
theorem fails (h : ChainTo operand step join x c d) (hd : (step d).value = none) :
    (leftChain operand step join c).value = none := by
  obtain ⟨a, b, links, ha, hl, rfl⟩ := h
  rw [leftChain, Reply.value_bind, ha]
  simp [chain_fails hl hd]

/-- what is read as a left chain has what was read up to a place at its start -/
theorem joined_behind (h : ChainTo operand step join x c d) {z : α} {f : Cursor}
    (hz : (leftChain operand step join c).value = some (z, f)) : ∃ links : List β, z = links.foldl join x := by
  obtain ⟨a, b, links, ha, hl, rfl⟩ := h
  rw [leftChain, Reply.bind_eq_some] at hz
  obtain ⟨a', b', ha', hz⟩ := hz
  obtain ⟨rfl, rfl⟩ : a = a' ∧ b = b' := by simpa using ha.symm.trans ha'
  obtain ⟨bs, hbs, rfl⟩ := Reply.map_eq_some.1 hz
  rw [chain_behind hl, Option.map_eq_some_iff] at hbs
  obtain ⟨⟨more, e⟩, -, he⟩ := hbs
  obtain ⟨rfl, -⟩ := Prod.mk.inj he
  exact ⟨more, List.foldl_append⟩

/-- Where two chains read related operands and links at the same places, they give related results. `P` holds of the places
that are reached, `Q` of those at which the first chain may stop and of those at which it goes on. -/
theorem transfer {α' β' : Type} {operand' : Cursor → Reply α'} {step' : Cursor → Reply (Option β')} {join' : α' → β' → α'}
    {R : α → α' → Prop} {L : β → β' → Prop} {P Q : Cursor → Prop}
    (hop : ∀ a d, (operand c).value = some (a, d) → Q d → P d ∧ ∃ a', (operand' c).value = some (a', d) ∧ R a a')
    (hstep : ∀ d y f, P d → (step d).value = some (some y, f) → Q f →
      P f ∧ ∃ y', (step' d).value = some (some y', f) ∧ L y y')
    (hgo : ∀ d y f, (step d).value = some (some y, f) → Q d)
    (hjoin : ∀ a a' y y', R a a' → L y y' → R (join a y) (join' a' y'))
    (h : ChainTo operand step join x c e) (he : Q e) : P e ∧ ∃ x', ChainTo operand' step' join' x' c e ∧ R x x' := by
  obtain ⟨a, d, links, ha, hl, rfl⟩ := h
  have hfrom : ∀ {d links f}, Steps step d links f → Q f → Q d := by
    intro d links f hl hf
    cases hl with
    | nil => exact hf
    | cons head _ _ => exact hgo _ _ _ head
  obtain ⟨hd, a', ha', hR⟩ := hop a d ha (hfrom hl he)
  -- along the links, the second chain keeps up with the first one
  have hfirst : ChainTo operand' step' join' a' c d := first ha'
  clear ha ha'
  induction hl generalizing a a' with
  | nil d => exact ⟨hd, a', hfirst, hR⟩
  | cons head shorter tail ih =>
    obtain ⟨hf, y', hy', hL⟩ := hstep _ _ _ hd head (hfrom tail he)
    exact ih he _ hf _ (hjoin _ _ _ _ hR hL) (hfirst.snoc hy' shorter)

end ChainTo

theorem leftChain_none {c : Cursor} (h : (operand c).value = none) : (leftChain operand step join c).value = none := by
  rw [leftChain, Reply.value_bind, h]
  rfl

/-- a left chain is its first operand with the elements of its steps joined to it -/
theorem leftChain_eq_some (hstep : Consumes step) {c f : Cursor} {x : α} :
    (leftChain operand step join c).value = some (x, f) ↔
      ∃ e, ChainTo operand step join x c e ∧ (step e).value = some (none, f) := by
  constructor
  · intro h
    rw [leftChain, Reply.bind_eq_some] at h
    obtain ⟨a, d, ha, h⟩ := h
    rw [Reply.map_eq_some] at h
    obtain ⟨bs, hc, rfl⟩ := h
    obtain ⟨e, hs, he⟩ := steps_of_chain hstep hc
    exact ⟨e, ⟨a, d, bs, ha, hs, rfl⟩, he⟩
  · rintro ⟨e, h, he⟩
    exact h.ends he

theorem leftChain_advances (hop : Advances operand) (hstep : Consumes step)
    (hend : ∀ c d, (step c).value = some (none, d) → c.Reaches d) : Advances (leftChain operand step join) := by
  intro c x f h
  rw [leftChain, Reply.bind_eq_some] at h
  obtain ⟨a, d, ha, h⟩ := h
  rw [Reply.map_eq_some] at h
  obtain ⟨bs, hc, -⟩ := h
  exact (hop c a d ha).trans_reaches (chain_reaches hstep hend hc)

theorem leftChain_congr {operand' : Cursor → Reply α} {step' : Cursor → Reply (Option β)} {c : Cursor}
    (hop : Advances operand) (ha : operand c = operand' c)
    (hs : ∀ d, d.rest.length ≤ c.rest.length → step d = step' d) :
    leftChain operand step join c = leftChain operand' step' join c := by
  rw [leftChain, leftChain, ← ha]
  refine Reply.bind_congr fun a d hd => ?_
  rw [chain_congr fun e he => hs e (he.trans (hop c a d hd).2.le)]

/-! ## Readers that call themselves where less text is left -/

section Guarded

variable {r : Cursor → Reply α} {f : (Cursor → Reply α) → Cursor → Reply α}

/-- a reader for the places where less text is left than at `c` -/
def guarded (r : Cursor → Reply α) (c inside : Cursor) : Reply α :=
  if inside.rest.length < c.rest.length then r inside else ⟨none, none⟩

/-- what a reader keeps if the reader of its recursive calls does, it keeps -/
theorem keeps_of_guarded {P : Cursor → α → Cursor → Prop}
    (hf : ∀ inner, (∀ c a d, (inner c).value = some (a, d) → P c a d) →
      ∀ c a d, (f inner c).value = some (a, d) → P c a d)
    (hr : ∀ c, r c = f (guarded r c) c) (c : Cursor) : ∀ a d, (r c).value = some (a, d) → P c a d := by
  induction hn : c.rest.length using Nat.strong_induction_on generalizing c with
  | _ n ih =>
    rw [hr c]
    refine hf _ (fun d a e hd => ?_) c
    by_cases hlt : d.rest.length < c.rest.length
    · rw [guarded, if_pos hlt] at hd
      exact ih _ (hn ▸ hlt) d rfl a e hd
    · rw [guarded, if_neg hlt] at hd
      simp at hd

theorem advances_of_guarded (hf : ∀ inner, Advances inner → Advances (f inner))
    (hr : ∀ c, r c = f (guarded r c) c) : Advances r :=
  keeps_of_guarded (P := fun c _ d => c.Passes d) hf hr

/-- the guard never refuses a reader whose recursive calls are at places where less text is left -/
theorem eq_of_guarded (hf : ∀ inner, Advances inner → Advances (f inner))
    (hcongr : ∀ inner inner' c, Advances inner → Advances inner' →
      (∀ d, d.rest.length < c.rest.length → inner d = inner' d) → f inner c = f inner' c)
    (hr : ∀ c, r c = f (guarded r c) c) (c : Cursor) : r c = f r c := by
  have hadv := advances_of_guarded hf hr
  rw [hr c]
  refine hcongr _ _ c (fun d a e hd => ?_) hadv fun d hd => by rw [guarded, if_pos hd]
  by_cases hlt : d.rest.length < c.rest.length
  · rw [guarded, if_pos hlt] at hd
    exact hadv d a e hd
  · rw [guarded, if_neg hlt] at hd
    simp at hd

end Guarded

end FieldSearch
