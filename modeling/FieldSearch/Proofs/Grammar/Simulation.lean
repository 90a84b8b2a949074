/-
Programs that read what a reader says.

- A `Landing` says where a program that reads nothing leaves the scanner: where it stood (`stays`), there, with a failure at
  that place or behind it (`restores`), or at a place further on with a failure there or behind it (`stops`).
- `Does`: the program reads what a reply says, and leaves the scanner behind it with the failures of the reply. `Simulates`: it
  does what a reader says wherever less than `n` characters are left.
- `recurse_simulates`: a program that calls itself simulates the reader that does, if its body does.
- `joinAll_simulates`, `scanChain_simulates`: so do chains, if their parts do.
-/
import FieldSearch.Grammar.Scanning
import FieldSearch.Proofs.Grammar.Scanner
import FieldSearch.Proofs.Grammar.Steps

namespace FieldSearch

variable {α β : Type} {c d : Cursor} {f g : Option Failure}

/-! ## Failures -/

@[simp] theorem furthest_none (f : Option Failure) : furthest f none = f := by cases f <;> rfl

theorem furthest_assoc (f g h : Option Failure) : furthest (furthest f g) h = furthest f (furthest g h) := by
  cases f <;> cases g <;> cases h <;> grind [furthest]

/-- a failure was met at a place or behind it -/
def Marked (d : Cursor) (failure : Option Failure) : Prop := ∃ x, failure = some x ∧ d.offset ≤ x.offset

theorem marked_here (d : Cursor) (x : Expectation) : Marked d (some ⟨d.offset, x⟩) := ⟨_, rfl, le_rfl⟩

/-- a failure met later stays or gives way to one further on -/
theorem Marked.behind (hm : Marked d g) : Marked d (furthest f g) := by
  obtain ⟨y, rfl, hy⟩ := hm
  cases f with
  | none => exact ⟨y, rfl, hy⟩
  | some x =>
    simp only [furthest]
    split_ifs
    · exact ⟨x, rfl, by omega⟩
    · exact ⟨y, rfl, hy⟩

theorem Marked.of_reaches (hm : Marked d f) (hd : c.Reaches d) : Marked c f := by
  obtain ⟨x, rfl, hx⟩ := hm
  exact ⟨x, rfl, hd.offset_le.trans hx⟩

/-! ## Replies with their failures -/

namespace Reply

variable {r : Reply α}

theorem bind_of_some {a : α} (hr : r.value = some (a, d)) (next : α → Cursor → Reply β) :
    r.bind next = ⟨(next a d).value, furthest r.failure (next a d).failure⟩ := by
  simp only [bind, hr]

theorem bind_of_none (hr : r.value = none) (next : α → Cursor → Reply β) : r.bind next = ⟨none, r.failure⟩ := by
  simp only [bind, hr]

theorem orElse_of_some {a : α} (hr : r.value = some (a, d)) (other : Unit → Reply α) : r.orElse other = r := by
  simp only [orElse, hr]

theorem orElse_of_none (hr : r.value = none) (other : Unit → Reply α) :
    r.orElse other = ⟨(other ()).value, furthest r.failure (other ()).failure⟩ := by
  simp only [orElse, hr]

theorem map_of_some {a : α} (hr : r.value = some (a, d)) (k : α → β) : (r.map k).value = some (k a, d) := by
  rw [value_map, hr, Option.map_some]

theorem map_of_none (hr : r.value = none) (k : α → β) : (r.map k).value = none := by
  rw [value_map, hr, Option.map_none]

theorem failure_orNone (r : Reply α) (c : Cursor) : (r.orNone c).failure = r.failure := by
  unfold orNone
  cases r.value <;> rfl

/-- what was read can be changed before or after reading on -/
theorem map_bind {γ : Type} (r : Reply α) (next : α → Cursor → Reply β) (k : β → γ) :
    (r.bind next).map k = r.bind fun a c => (next a c).map k := by
  unfold bind
  cases r.value <;> rfl

end Reply

/-! ## Landings -/

/-- where a program that reads nothing from a place, and meets a failure on the way, leaves the scanner -/
abbrev Landing := Cursor → Option Failure → Cursor → Prop

namespace Landing

/-- where it stood -/
def stays : Landing := fun c _ d => d = c

/-- where it stood, with a failure there or behind it -/
def restores : Landing := fun c failure d => d = c ∧ Marked c failure

/-- at a place further on, with a failure there or behind it -/
def stops : Landing := fun c failure d => c.Reaches d ∧ Marked d failure

/-- nowhere: the program always reads something -/
def never : Landing := fun _ _ _ => False

theorem restores.stops (hl : restores c f d) : stops c f d := by
  obtain ⟨rfl, hm⟩ := hl
  exact ⟨.refl d, hm⟩

/-- failing further on with one landing is failing with another one -/
def Carries (L L' : Landing) : Prop := ∀ c d f g e, c.Reaches d → L d g e → L' c (furthest f g) e

theorem carries_stops : Carries stops stops :=
  fun _ _ _ _ _ hreach hl => ⟨hreach.trans hl.1, hl.2.behind⟩

theorem carries_never (L : Landing) : Carries never L := fun _ _ _ _ _ _ hl => hl.elim

end Landing

namespace Scan

open Scanner (Stands IsPlace)
open Landing (stays restores stops never Carries carries_stops)

variable {text : String} {s s' : Scanner} {L L' : Landing} {r : Reply α}

/-- what a program does that reads what a reply says of the place `c` -/
inductive Does (text : String) (L : Landing) (c : Cursor) (f : Option Failure) (r : Reply α) : Option α → Scanner → Prop
  | read {a : α} {d : Cursor} {s : Scanner} (value : r.value = some (a, d))
      (stands : Stands text d (furthest f r.failure) s) : Does text L c f r (some a) s
  | refused {d : Cursor} {s : Scanner} (value : r.value = none) (landing : L c r.failure d)
      (stands : Stands text d (furthest f r.failure) s) : Does text L c f r none s

namespace Does

theorem weaken {x : Option α} (hL : ∀ e, L d r.failure e → L' c r.failure e) (hd : Does text L d f r x s) :
    Does text L' c f r x s := by
  cases hd with
  | read value stands => exact .read value stands
  | refused value landing stands => exact .refused value (hL _ landing) stands

theorem map {x : Option α} (k : α → β) (hd : Does text L c f r x s) : Does text L c f (r.map k) (x.map k) s := by
  cases hd with
  | read value stands => exact .read (Reply.map_of_some value k) stands
  | refused value landing stands => exact .refused (Reply.map_of_none value k) landing stands

/-- what is read behind another failure is read with both -/
theorem shift {q : Reply α} {x : Option α} (hL : ∀ e, L d q.failure e → L' c (furthest g q.failure) e)
    (hd : Does text L d (furthest f g) q x s) : Does text L' c f ⟨q.value, furthest g q.failure⟩ x s := by
  cases hd with
  | read value stands => exact .read value (by rwa [← furthest_assoc])
  | refused value landing stands => exact .refused value (hL _ landing) (by rwa [← furthest_assoc])

theorem carry {q : Reply α} {x : Option α} (hL : Carries L L') (hreach : c.Reaches d)
    (hd : Does text L d (furthest f g) q x s) : Does text L' c f ⟨q.value, furthest g q.failure⟩ x s :=
  hd.shift fun _ hl => hL _ _ _ _ _ hreach hl

theorem done {a : α} (hs : Stands text d f s) : Does text L c f (.done a d) (some a) s :=
  .read rfl (by rwa [Reply.done, furthest_none])

theorem done_behind {a : α} (hs : Stands text d (furthest f g) s) :
    Does text L c f ⟨(Reply.done a d).value, furthest g (Reply.done a d).failure⟩ (some a) s :=
  .read rfl (by rwa [Reply.done, furthest_none])

/-- an unmet expectation is met where it is looked for -/
theorem fail {x : Expectation} (hL : L c (some ⟨d.offset, x⟩) d)
    (hs : Stands text d (furthest f (some ⟨d.offset, x⟩)) s) : Does text L c f (.fail x d : Reply α) none s :=
  .refused rfl hL hs

end Does

/-- what is found without a failure -/
theorem Runs.ofOption {p : Scan (Option α)} {found : Option (α × Cursor)} (hp : p.Runs s (Found text c f found)) :
    p.Runs s (Does text stays c f (.ofOption found)) := by
  refine hp.mono ?_
  rintro _ s' ⟨rfl, h'⟩
  cases found with
  | none => exact .refused rfl rfl (by rwa [Reply.ofOption, furthest_none])
  | some p => exact .read rfl (by rwa [Reply.ofOption, furthest_none])

theorem Runs.map {p : Scan (Option α)} (k : α → β) (hp : p.Runs s (Does text L c f r)) :
    (do return (← p).map k : Scan (Option β)).Runs s (Does text L c f (r.map k)) :=
  hp.bind fun _ _ hd => .pure (hd.map k)

/-- the program does what a reader says wherever less than `n` characters are left -/
def Simulates (text : String) (L : Landing) (n : ℕ) (p : Scan (Option α)) (read : Cursor → Reply α) : Prop :=
  ∀ c f s, c.rest.length < n → Stands text c f s → p.Runs s (Does text L c f (read c))

theorem Simulates.weaken {n : ℕ} {p : Scan (Option α)} {read : Cursor → Reply α}
    (hL : ∀ c failure d, L c failure d → L' c failure d) (hp : Simulates text L n p read) : Simulates text L' n p read :=
  fun c f s hc hs => (hp c f s hc hs).mono fun _ _ hd => hd.weaken fun d => hL c _ d

/-- a program that calls itself simulates the reader that does, if its body simulates what the reader makes of its calls -/
theorem recurse_simulates {body : Scan (Option α) → Scan (Option α)} {read : Cursor → Reply α}
    {step : (Cursor → Reply α) → Cursor → Reply α} (hread : ∀ c, read c = step read c)
    (hbody : ∀ n inner, Simulates text L n inner read → Simulates text L (n + 1) (body inner) (step read)) (n : ℕ) :
    Simulates text L n (recurse body) read := by
  -- a call stands where less than `c.rest.length` characters are left, so its guard lets it run
  induction n with
  | zero => exact fun c f s hc => absurd hc (Nat.not_lt_zero _)
  | succ n ih =>
    intro c f s hc hs
    rw [hread c]
    refine recurse_runs (hbody c.rest.length _ (fun c' f' s' hc' hs' => ?_) c f s (Nat.lt_succ_self _) hs)
    exact below_runs (hs.unread_lt hs' hc') (ih c' f' s' (by omega) hs')

/-! ## Chains -/

section Chain

variable {n : ℕ} {step : Scan (Option (Option β))} {readStep : Cursor → Reply (Option β)} {join : α → β → α}

/-- a chain goes on behind its first element, which is joined to what stands left of it -/
theorem chain_map_of_some {b : β} (hv : (readStep c).value = some (some b, d)) (hlt : d.rest.length < c.rest.length)
    (left : α) :
    (chain readStep c).map (fun links => links.foldl join left) =
      ⟨((chain readStep d).map fun links => links.foldl join (join left b)).value,
        furthest (readStep c).failure ((chain readStep d).map fun links => links.foldl join (join left b)).failure⟩ := by
  rw [chain, Reply.bind_of_some hv]
  simp only [hlt, if_true, Reply.map, Option.map_map]
  rfl

/-- a chain of steps, joined to what was read before them -/
theorem joinAll_simulates (join : α → β → α) (hcons : Consumes readStep) (hstep : Simulates text L n step readStep)
    (hfail : ∀ c g d, (readStep c).value = none → L c g d → L' c g d)
    (hgo : ∀ c b d g e, (readStep c).value = some (some b, d) → L' d g e → L' c (furthest (readStep c).failure g) e)
    (left : α) :
    Simulates text L' n (joinAll step join left) fun c => (chain readStep c).map fun links => links.foldl join left := by
  intro c f s hc hs
  -- every element takes some text, so the loop goes on with less unread
  induction hm : c.rest.length using Nat.strong_induction_on generalizing c f s left with
  | _ m ih =>
    subst hm
    show (joinAll step join left).Runs s (Does text L' c f ((chain readStep c).map fun links => links.foldl join left))
    refine loop_runs ((hstep c f s hc hs).bind ?_)
    rintro _ s₁ (@⟨found, d, _, hv, h₁⟩ | ⟨hv, hl, h₁⟩)
    · cases found with
      | none =>
        rw [chain, Reply.bind_of_some hv]
        exact .pure (.read rfl (by simpa [Reply.map, Reply.done] using h₁))
      | some b =>
        have hlt := (hcons _ _ _ hv).2
        rw [chain_map_of_some hv hlt]
        refine .pure ⟨hs.unread_lt h₁ hlt, ?_⟩
        exact (ih _ hlt (join left b) d _ _ (hlt.trans hc) h₁ rfl).mono fun _ _ => .shift fun e => hgo c b d _ e hv
    · rw [chain, Reply.bind_of_none hv]
      exact .pure (.refused rfl (hfail _ _ _ hv hl) h₁)

variable {operand : Scan (Option α)} {readFirst : Cursor → Reply α}

theorem scanChain_simulates (hadv : Advances readFirst) (hcons : Consumes readStep) (hop : Simulates text L n operand readFirst)
    (hstep : Simulates text L' n step readStep) (hsteps : Carries L' L') (hfirst : Carries L' L) :
    Simulates text L n (scanChain operand step join) (leftChain readFirst readStep join) := by
  intro c f s hc hs
  unfold leftChain
  refine (hop c f s hc hs).bind ?_
  rintro _ s₁ (@⟨first, d, _, hv, h₁⟩ | ⟨hv, hl, h₁⟩)
  · have hpasses := hadv c first d hv
    have hall := joinAll_simulates join hcons hstep (fun _ _ _ _ hl => hl)
      (fun c b d g e hv hl => hsteps c d _ g e (hcons c b d hv).reaches hl) first
    rw [Reply.bind_of_some hv]
    exact (hall d _ s₁ (hpasses.2.trans hc) h₁).mono fun _ _ => .carry hfirst hpasses.reaches
  · rw [Reply.bind_of_none hv]
    exact .pure (.refused rfl hl h₁)

end Chain

end Scan

end FieldSearch
