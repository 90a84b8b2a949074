/-
Whole texts, read as items with blanks between them.

- `readAll_eq_ok`: a text is read if the items that stand one behind the other, each with blanks behind it, use it up.
  `readAll_single`: and by its first item alone where none is read behind it.
- `readAll_written`: items that are written with single blanks between them read back as themselves if each does in front
  of what is written behind it. `readAll_written_iff`: and only then.
- `readAll_fails`: nothing is read of a text in which one item cannot be read.
-/
import FieldSearch.Proofs.Grammar.Steps
import FieldSearch.Proofs.Grammar.Value
import FieldSearch.Statement.Writing

namespace FieldSearch

variable {α : Type} {item : Cursor → Reply α} {gap : Expectation}

theorem itemStep_of_end {c : Cursor} (h : c.rest = []) : (itemStep item gap c).value = some (none, c) := by
  simp [itemStep, Cursor.atEnd, h]

/-- an item is read with the blanks behind it -/
theorem itemStep_eq_some {c d : Cursor} {a : α} :
    (itemStep item gap c).value = some (some a, d) ↔
      c.rest ≠ [] ∧ ∃ b, (item c).value = some (a, b) ∧ (0 < b.blanks ∨ b.rest = []) ∧ d = b.skipBlanks := by
  unfold itemStep
  by_cases hc : c.rest = []
  · simp [Cursor.atEnd, hc]
  · have hend : c.atEnd = false := by simpa [Cursor.atEnd] using hc
    simp only [hend, Bool.false_eq_true, if_false, Reply.bind_eq_some, ne_eq, hc, not_false_eq_true, true_and]
    constructor
    · rintro ⟨x, b, hx, hb⟩
      split_ifs at hb with h0
      · simp at hb
      · simp only [Reply.value_done, Option.some.injEq, Prod.mk.injEq] at hb
        obtain ⟨rfl, rfl⟩ := hb
        refine ⟨b, hx, ?_, rfl⟩
        simp only [Bool.and_eq_true, decide_eq_true_eq, Bool.not_eq_true', Cursor.atEnd, List.isEmpty_eq_false_iff, not_and,
          not_not] at h0
        by_cases hb0 : b.blanks = 0
        · exact Or.inr (h0 hb0)
        · exact Or.inl (Nat.pos_of_ne_zero hb0)
    · rintro ⟨b, hx, hb, rfl⟩
      refine ⟨a, b, hx, ?_⟩
      rw [if_neg]
      · rfl
      · simp only [Bool.and_eq_true, decide_eq_true_eq, Bool.not_eq_true', Cursor.atEnd, List.isEmpty_eq_false_iff, not_and,
          not_not]
        rcases hb with hb | hb
        · intro h0; omega
        · exact fun _ => hb

theorem itemStep_none {c d : Cursor} (h : (itemStep item gap c).value = some (none, d)) : c.rest = [] ∧ d = c := by
  by_cases hc : c.rest = []
  · rw [itemStep_of_end hc] at h
    simp only [Option.some.injEq, Prod.mk.injEq, true_and] at h
    exact ⟨hc, h.symm⟩
  · have hend : c.atEnd = false := by simpa [Cursor.atEnd] using hc
    simp only [itemStep, hend, Bool.false_eq_true, if_false, Reply.bind_eq_some] at h
    obtain ⟨x, b, -, hb⟩ := h
    split_ifs at hb <;> simp at hb

theorem itemStep_fails {c : Cursor} (hc : c.rest ≠ []) (h : (item c).value = none) :
    (itemStep item gap c).value = none := by
  have hend : c.atEnd = false := by simpa [Cursor.atEnd] using hc
  simp [itemStep, hend, h]

theorem itemStep_consumes (h : Advances item) : Consumes (itemStep item gap) := by
  intro c a d hs
  obtain ⟨-, b, hb, -, rfl⟩ := itemStep_eq_some.1 hs
  exact (h c a b hb).trans_reaches (Cursor.reaches_skipBlanks b)

/-- a text is read if items that stand one behind the other use it up -/
theorem readAll_eq_ok (h : Advances item) {text : String} {items : List α} :
    readAll item gap text = .ok items ↔
      ∃ d, Steps (itemStep item gap) (Cursor.start text).skipBlanks items d ∧ d.rest = [] := by
  simp only [readAll]
  constructor
  · intro hr
    split at hr
    · rename_i bs e hc
      simp only [Except.ok.injEq] at hr
      subst hr
      obtain ⟨d, hd, hn⟩ := steps_of_chain (itemStep_consumes h) hc
      exact ⟨d, hd, (itemStep_none hn).1⟩
    · simp at hr
  · rintro ⟨d, hd, hr⟩
    rw [chain_of_steps hd (itemStep_of_end hr)]

/-- a text without items is read as none -/
theorem readAll_blank (h : Advances item) {text : String} (hc : (Cursor.start text).skipBlanks.rest = []) :
    readAll item gap text = .ok [] :=
  (readAll_eq_ok h).2 ⟨_, .nil _, hc⟩

/-- where no item is read behind the first one, a text is read if its first item uses it up -/
theorem readAll_single (h : Advances item) {text : String} {c : Cursor} (hstart : (Cursor.start text).skipBlanks = c)
    (hc : c.rest ≠ []) (hone : ∀ a b, (item c).value = some (a, b) → 0 < b.blanks → (item b.skipBlanks).value = none)
    {items : List α} :
    readAll item gap text = .ok items ↔
      ∃ a b, (item c).value = some (a, b) ∧ b.skipBlanks.rest = [] ∧ items = [a] := by
  rw [readAll_eq_ok h, hstart]
  constructor
  · rintro ⟨d, hsteps, hd⟩
    cases hsteps with
    | nil => exact absurd hd hc
    | cons head _ tail =>
      obtain ⟨-, b, hb, hgap, rfl⟩ := itemStep_eq_some.1 head
      cases tail with
      | nil => exact ⟨_, b, hb, hd, rfl⟩
      | cons head' _ _ =>
        obtain ⟨hne, b', hb', -, -⟩ := itemStep_eq_some.1 head'
        have hblank : 0 < b.blanks := by
          refine hgap.resolve_right fun h0 => hne ?_
          rw [Cursor.rest_skipBlanks, h0]
          rfl
        rw [hone _ b hb hblank] at hb'
        cases hb'
  · rintro ⟨a, b, hb, hend, rfl⟩
    have hgap : 0 < b.blanks ∨ b.rest = [] := by
      by_cases h0 : b.blanks = 0
      · right
        rwa [Cursor.skipBlanks, h0, Cursor.advance_zero] at hend
      · exact Or.inl (Nat.pos_of_ne_zero h0)
    have hstep : (itemStep item gap c).value = some (some a, b.skipBlanks) := itemStep_eq_some.2 ⟨hc, b, hb, hgap, rfl⟩
    have hlt : b.skipBlanks.rest.length < c.rest.length := by
      rw [hend]
      exact List.length_pos_iff.2 hc
    exact ⟨_, .cons hstep hlt (.nil _), hend⟩

/-! ## Items as they are written -/

/-- what is written behind an item: nothing, or a blank and the items that follow -/
def writtenBehind : List String → List Char
  | [] => []
  | rest => ' ' :: (joinSpaced rest).toList

theorem joinSpaced_cons (s : String) (rest : List String) :
    (joinSpaced (s :: rest)).toList = s.toList ++ writtenBehind rest := by
  cases rest with
  | nil => simp [joinSpaced, writtenBehind]
  | cons t rest => simp [joinSpaced, writtenBehind]

variable {write : α → String}

theorem solid_joinSpaced {items : List α} (hw : ∀ a ∈ items, (write a).toList ≠ [] ∧ Solid (write a).toList) :
    Solid (joinSpaced (items.map write)).toList := by
  cases items with
  | nil => exact solid_nil
  | cons a rest =>
    obtain ⟨hne, hs⟩ := hw a (by simp)
    rw [List.map_cons, joinSpaced_cons]
    exact solid_append hne hs

/-- behind a written item the next one starts, over the blank between them -/
theorem behind_written {items : List α} (hw : ∀ a ∈ items, (write a).toList ≠ [] ∧ Solid (write a).toList) {b : Cursor}
    (hb : b.rest = writtenBehind (items.map write)) :
    (0 < b.blanks ∨ b.rest = []) ∧ b.skipBlanks.rest = (joinSpaced (items.map write)).toList := by
  cases items with
  | nil => exact ⟨Or.inr hb, by rw [Cursor.rest_skipBlanks, hb]; rfl⟩
  | cons x xs =>
    have hb' : b.rest = ' ' :: (joinSpaced ((x :: xs).map write)).toList := hb
    have hsol := solid_joinSpaced hw
    refine ⟨Or.inl (by rw [Cursor.blanks_of_space hb' hsol]; decide), ?_⟩
    rw [Cursor.skipBlanks_of_space hb' hsol, Cursor.rest_advance, hb']
    rfl

/-- items that read back in front of what is written behind them are read one after the other -/
theorem steps_written {before after : List α}
    (hw : ∀ a ∈ before ++ after, (write a).toList ≠ [] ∧ Solid (write a).toList)
    (hitem : ∀ pre a post, before = pre ++ a :: post → ∀ c : Cursor,
      c.rest = (write a).toList ++ writtenBehind ((post ++ after).map write) →
        (item c).value = some (a, c.advance (write a).length))
    {c : Cursor} (hc : c.rest = (joinSpaced ((before ++ after).map write)).toList) :
    ∃ d, Steps (itemStep item gap) c before d ∧ d.rest = (joinSpaced (after.map write)).toList := by
  induction before generalizing c with
  | nil => exact ⟨c, .nil c, hc⟩
  | cons a before ih =>
    obtain ⟨hne, -⟩ := hw a (by simp)
    have hw' : ∀ a ∈ before ++ after, (write a).toList ≠ [] ∧ Solid (write a).toList :=
      fun b hb => hw b (List.mem_cons_of_mem a hb)
    rw [List.cons_append, List.map_cons, joinSpaced_cons] at hc
    have hread := hitem [] a before rfl c hc
    obtain ⟨b, hb⟩ : ∃ b, b = c.advance (write a).length := ⟨_, rfl⟩
    have hbr : b.rest = writtenBehind ((before ++ after).map write) := by
      rw [hb]; exact Cursor.rest_behind hc
    have hgap := behind_written hw' hbr
    obtain ⟨d, hd, hdr⟩ := ih hw' (fun pre x post hp => hitem (a :: pre) x post (by rw [hp]; rfl)) hgap.2
    have hstep : (itemStep item gap c).value = some (some a, b.skipBlanks) :=
      itemStep_eq_some.2 ⟨by rw [hc]; simp [hne], b, hb ▸ hread, hgap.1, rfl⟩
    refine ⟨d, .cons hstep ?_ hd, hdr⟩
    have hpos : 0 < (write a).toList.length := List.length_pos_iff.2 hne
    have hle := (Cursor.reaches_skipBlanks b).length_le
    rw [hbr] at hle
    rw [hc, List.length_append]; omega

theorem start_written {items : List α} (hw : ∀ a ∈ items, (write a).toList ≠ [] ∧ Solid (write a).toList) :
    (Cursor.start (joinSpaced (items.map write))).skipBlanks.rest = (joinSpaced (items.map write)).toList := by
  rw [Cursor.skipBlanks_of_solid (solid_joinSpaced hw)]
  rfl

/-- **Written items read back** if each does in front of what is written behind it. -/
theorem readAll_written (hadv : Advances item) {items : List α}
    (hw : ∀ a ∈ items, (write a).toList ≠ [] ∧ Solid (write a).toList)
    (hitem : ∀ pre a post, items = pre ++ a :: post → ∀ c : Cursor,
      c.rest = (write a).toList ++ writtenBehind (post.map write) → (item c).value = some (a, c.advance (write a).length)) :
    readAll item gap (joinSpaced (items.map write)) = .ok items := by
  have hstart := start_written hw
  rw [← List.append_nil items] at hw hstart
  obtain ⟨d, hd, hr⟩ := steps_written hw
    (fun pre a post hp c hc => hitem pre a post hp c (by simpa using hc)) hstart
  rw [List.append_nil] at hd
  exact (readAll_eq_ok hadv).2 ⟨d, hd, hr⟩

/-- where items are read one after the other from their own text, each is read in front of what is written behind it -/
theorem written_of_steps {P : α → List α → Prop} {items : List α}
    (hw : ∀ a ∈ items, (write a).toList ≠ [] ∧ Solid (write a).toList)
    (hitem : ∀ pre a post, items = pre ++ a :: post → ∀ c b : Cursor,
      c.rest = (write a).toList ++ writtenBehind (post.map write) → (item c).value = some (a, b) →
        P a post ∧ b = c.advance (write a).length)
    {c d : Cursor} (hc : c.rest = (joinSpaced (items.map write)).toList) (h : Steps (itemStep item gap) c items d) :
    ∀ pre a post, items = pre ++ a :: post → P a post := by
  induction items generalizing c with
  | nil => intro pre a post hs; simp at hs
  | cons x items ih =>
    cases h with
    | cons head _ tail =>
      obtain ⟨-, b, hb, -, rfl⟩ := itemStep_eq_some.1 head
      rw [List.map_cons, joinSpaced_cons] at hc
      obtain ⟨hx, rfl⟩ := hitem [] x items rfl c b hc hb
      have hnext := behind_written (fun a ha => hw a (List.mem_cons_of_mem x ha)) (Cursor.rest_behind hc)
      intro pre a post hs
      cases pre with
      | nil =>
        obtain ⟨rfl, rfl⟩ := List.cons.inj hs
        exact hx
      | cons p pre =>
        obtain ⟨rfl, hrest⟩ := List.cons.inj hs
        refine ih (fun a ha => hw a (List.mem_cons_of_mem x ha)) ?_ hnext.2 tail pre a post hrest
        exact fun pre' a' post' hp => hitem (x :: pre') a' post' (by rw [hp]; rfl)

/-- **Written items read back exactly if each does** in front of what is written behind it. -/
theorem readAll_written_iff (hadv : Advances item) {P : α → List α → Prop} {items : List α}
    (hw : ∀ a ∈ items, (write a).toList ≠ [] ∧ Solid (write a).toList)
    (hitem : ∀ pre a post, items = pre ++ a :: post → ∀ c b : Cursor,
      c.rest = (write a).toList ++ writtenBehind (post.map write) →
        ((item c).value = some (a, b) ↔ P a post ∧ b = c.advance (write a).length)) :
    readAll item gap (joinSpaced (items.map write)) = .ok items ↔ ∀ pre a post, items = pre ++ a :: post → P a post := by
  constructor
  · intro h
    obtain ⟨d, hd, -⟩ := (readAll_eq_ok hadv).1 h
    exact written_of_steps hw (fun pre a post hp c b hc => (hitem pre a post hp c b hc).1) (start_written hw) hd
  · intro h
    exact readAll_written hadv hw fun pre a post hp c hc => (hitem pre a post hp c _ hc).2 ⟨h pre a post hp, rfl⟩

/-- nothing is read if an item cannot be read where it is written -/
theorem readAll_fails {before after : List α} {a : α}
    (hw : ∀ b ∈ before ++ a :: after, (write b).toList ≠ [] ∧ Solid (write b).toList)
    (hitem : ∀ pre b post, before = pre ++ b :: post → ∀ c : Cursor,
      c.rest = (write b).toList ++ writtenBehind ((post ++ a :: after).map write) →
        (item c).value = some (b, c.advance (write b).length))
    (hfail : ∀ c : Cursor, c.rest = (write a).toList ++ writtenBehind (after.map write) → (item c).value = none)
    (items : List α) : readAll item gap (joinSpaced ((before ++ a :: after).map write)) ≠ .ok items := by
  obtain ⟨d, hd, hr⟩ : ∃ d, Steps (itemStep item gap) _ before d ∧ d.rest = _ :=
    steps_written hw hitem (start_written hw)
  rw [List.map_cons, joinSpaced_cons] at hr
  have hstep : (itemStep item gap d).value = none :=
    itemStep_fails (by rw [hr]; simp [(hw a (by simp)).1]) (hfail d hr)
  simp only [readAll, chain_fails hd hstep]
  simp

end FieldSearch
