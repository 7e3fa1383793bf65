import Mathlib.Logic.Basic

/-!
# Labelled machines, their runs and their invariants

A `Machine` is a set of initial states and a partial step function: `step s a`
is `none` when action `a` is not enabled in `s`. Concurrency is interleaving,
so one action is one atomic step of one party.

- `Machine.Reach m ok s`: some run of `m` whose every step meets the condition
  `ok` ends in `s`; `Machine.Reachable` is the case without a condition.
- `Machine.Reach.inv`: **the invariant rule**. What holds initially and is
  preserved by every step that meets `ok` holds in every state of such a run.
- `Machine.Reach.lift`: the simulation rule. If every conditioned step of `m` is,
  seen through `f`, a conditioned run of `n`, then reachability maps along `f`.
- `Machine.exec` runs a list of actions, so that a concrete run can be evaluated;
  `Machine.execOk` also tests the condition of each step.
- `Machine.guarded` builds a machine from a decidable guard and a total effect.
-/

namespace RpiDrivers.Lib

universe u v w

/-- A machine over states `σ` with actions `α`. -/
structure Machine (σ : Type u) (α : Type v) where
  /-- The states a run may start in. -/
  init : σ → Prop
  /-- One atomic step, `none` when the action is not enabled. -/
  step : σ → α → Option σ

namespace Machine

variable {σ : Type u} {α : Type v} {τ : Type u} {β : Type v}

/-- `Reach m ok s`: a run of `m` ends in `s`, and each of its steps `(s, a)` meets `ok s a`. -/
inductive Reach (m : Machine σ α) (ok : σ → α → Prop) : σ → Prop
  | init {s : σ} (h : m.init s) : Reach m ok s
  | step {s : σ} {a : α} {s' : σ} (hr : Reach m ok s) (hok : ok s a)
      (hs : m.step s a = some s') : Reach m ok s'

/-- Every run, with no condition on its steps. -/
abbrev Reachable (m : Machine σ α) (s : σ) : Prop := m.Reach (fun _ _ => True) s

/-- `Steps m ok s s'`: a run fragment from `s` to `s'` whose steps meet `ok`. -/
inductive Steps (m : Machine σ α) (ok : σ → α → Prop) (s : σ) : σ → Prop
  | refl : Steps m ok s s
  | tail {t : σ} {a : α} {t' : σ} (hr : Steps m ok s t) (hok : ok t a)
      (hs : m.step t a = some t') : Steps m ok s t'

variable {m : Machine σ α} {n : Machine τ β} {ok : σ → α → Prop}

/-- **The invariant rule**: initial states satisfy `P` and conditioned steps
preserve it, so every state of a conditioned run satisfies it. -/
theorem Reach.inv {P : σ → Prop} (hinit : ∀ s, m.init s → P s)
    (hstep : ∀ s a s', P s → ok s a → m.step s a = some s' → P s') {s : σ}
    (h : m.Reach ok s) : P s := by
  induction h with
  | init h => exact hinit _ h
  | step _ hok hs ih => exact hstep _ _ _ ih hok hs

/-- A run followed by a run fragment is a run. -/
theorem Reach.steps {s s' : σ} (h : m.Reach ok s) (hs : m.Steps ok s s') : m.Reach ok s' := by
  induction hs with
  | refl => exact h
  | tail _ hok hstep ih => exact .step ih hok hstep

/-- One conditioned step is a run fragment. -/
theorem Steps.single {s : σ} {a : α} {s' : σ} (hok : ok s a) (hs : m.step s a = some s') :
    m.Steps ok s s' :=
  .tail .refl hok hs

/-- A run fragment after a step. -/
theorem Steps.head {s t : σ} {a : α} {s' : σ} (hok : ok s a) (hs : m.step s a = some t)
    (h : m.Steps ok t s') : m.Steps ok s s' := by
  induction h with
  | refl => exact .single hok hs
  | tail _ hok' hs' ih => exact .tail ih hok' hs'

/-- **The simulation rule**: `f` maps initial states to initial states and every
conditioned step to a conditioned run fragment (`Steps.refl` when the step is
invisible through `f`). `P` is an invariant of `m` that the step argument may use. -/
theorem Reach.lift {okn : τ → β → Prop} {P : σ → Prop} (f : σ → τ)
    (hinit : ∀ s, m.init s → n.init (f s)) (hP : ∀ s, m.Reach ok s → P s)
    (hstep : ∀ s a s', P s → ok s a → m.step s a = some s' → n.Steps okn (f s) (f s'))
    {s : σ} (h : m.Reach ok s) : n.Reach okn (f s) := by
  induction h with
  | init h => exact .init (hinit _ h)
  | step hr hok hs ih => exact ih.steps (hstep _ _ _ (hP _ hr) hok hs)

/-! ## Machines given by a guard and an effect -/

/-- The machine whose action `a` is enabled in `s` when `enabled s a` holds, and then
leads to `effect s a`. -/
def guarded (init : σ → Prop) (enabled : σ → α → Prop) [∀ s a, Decidable (enabled s a)]
    (effect : σ → α → σ) : Machine σ α where
  init := init
  step s a := if enabled s a then some (effect s a) else none

theorem guarded_step {init : σ → Prop} {enabled : σ → α → Prop}
    [∀ s a, Decidable (enabled s a)] {effect : σ → α → σ} {s : σ} {a : α} {s' : σ} :
    (guarded init enabled effect).step s a = some s' ↔ enabled s a ∧ effect s a = s' := by
  show (if enabled s a then some (effect s a) else none) = some s' ↔ _
  split
  · next h => simp [h]
  · next h => simp [h]

/-- The invariant rule for a guarded machine: the step is the effect under its guard. -/
theorem Reach.inv_guarded {init : σ → Prop} {enabled : σ → α → Prop}
    [∀ s a, Decidable (enabled s a)] {effect : σ → α → σ} {P : σ → Prop}
    (hinit : ∀ s, init s → P s)
    (heffect : ∀ s a, P s → ok s a → enabled s a → P (effect s a)) {s : σ}
    (h : (guarded init enabled effect).Reach ok s) : P s := by
  refine h.inv hinit fun s a s' hP hok hs => ?_
  obtain ⟨hen, rfl⟩ := guarded_step.1 hs
  exact heffect s a hP hok hen

/-! ## Running a list of actions -/

/-- Run the actions in order; `none` as soon as one is not enabled. -/
def exec (m : Machine σ α) : σ → List α → Option σ
  | s, [] => some s
  | s, a :: as => (m.step s a).bind fun s' => m.exec s' as

/-- Every action of the list meets the condition in the state it is taken in. -/
def AllOk (m : Machine σ α) (ok : σ → α → Prop) : σ → List α → Prop
  | _, [] => True
  | s, a :: as => ok s a ∧ ∀ s', m.step s a = some s' → m.AllOk ok s' as

/-- A run of actions that meet the condition extends a conditioned run. -/
theorem Reach.exec :
    ∀ {as : List α} {s s' : σ}, m.Reach ok s → m.AllOk ok s as → m.exec s as = some s' →
      m.Reach ok s'
  | [], s, s', h, _, he => by
    obtain rfl : s = s' := by simpa [Machine.exec] using he
    exact h
  | a :: as, s, s', h, hok, he => by
    obtain ⟨t, ht, he⟩ := Option.bind_eq_some_iff.1 he
    exact Reach.exec (.step h hok.1 ht) (hok.2 t ht) he

theorem allOk_true (m : Machine σ α) : ∀ (s : σ) (as : List α), m.AllOk (fun _ _ => True) s as
  | _, [] => trivial
  | _, _ :: as => ⟨trivial, fun s' _ => m.allOk_true s' as⟩

/-- **The exact condition of a run**: if one step keeps `f` exactly when it meets the condition, a
run keeps it exactly when all its steps do. `P` is an invariant that the step argument may use. -/
theorem exec_iff {P f : σ → Prop} (hP : ∀ s a s', P s → m.step s a = some s' → P s')
    (hf : ∀ s a s', P s → m.step s a = some s' → (f s' ↔ f s ∧ ok s a)) :
    ∀ {as : List α} {s s' : σ}, P s → m.exec s as = some s' →
      P s' ∧ (f s' ↔ f s ∧ m.AllOk ok s as)
  | [], s, s', h, he => by
    obtain rfl : s = s' := Option.some.inj he
    exact ⟨h, (and_iff_left trivial).symm⟩
  | a :: as, s, s', h, he => by
    obtain ⟨t, ht, he⟩ := Option.bind_eq_some_iff.1 he
    obtain ⟨hP', hiff⟩ := exec_iff hP hf (hP s a t h ht) he
    refine ⟨hP', hiff.trans ?_⟩
    rw [hf s a t h ht, and_assoc]
    refine and_congr_right fun _ => and_congr_right fun _ => ⟨fun hall u hu => ?_, fun hall => hall t ht⟩
    obtain rfl : t = u := Option.some.inj (ht.symm.trans hu)
    exact hall

/-- **Two conditions that agree wherever `P` holds agree on runs**, if a step that meets the first
keeps `P`. -/
theorem allOk_congr {P : σ → Prop} {good : σ → α → Prop}
    (hgood : ∀ s a, P s → (good s a ↔ ok s a))
    (hP : ∀ s a s', P s → good s a → m.step s a = some s' → P s') :
    ∀ {as : List α} {s : σ}, P s → (m.AllOk good s as ↔ m.AllOk ok s as)
  | [], _, _ => Iff.rfl
  | a :: as, s, h => by
    constructor
    · rintro ⟨ha, hrest⟩
      exact ⟨(hgood s a h).1 ha, fun t ht =>
        (allOk_congr hgood hP (hP s a t h ha ht)).1 (hrest t ht)⟩
    · rintro ⟨ha, hrest⟩
      have hgood' := (hgood s a h).2 ha
      exact ⟨hgood', fun t ht => (allOk_congr hgood hP (hP s a t h hgood' ht)).2 (hrest t ht)⟩

/-- The state a run of actions ends in is reachable. -/
theorem reach_exec_get (m : Machine σ α) {s : σ} (as : List α) (hi : m.init s)
    (h : (m.exec s as).isSome = true) : m.Reachable ((m.exec s as).get h) :=
  Reach.exec (.init hi) (m.allOk_true s as) (Option.some_get h).symm

/-- Run the actions in order; `none` as soon as one does not meet the condition or is not
enabled. -/
def execOk (m : Machine σ α) (ok : σ → α → Prop) [∀ s a, Decidable (ok s a)] :
    σ → List α → Option σ
  | s, [] => some s
  | s, a :: as => if ok s a then (m.step s a).bind fun s' => m.execOk ok s' as else none

theorem Reach.execOk [∀ s a, Decidable (ok s a)] :
    ∀ {as : List α} {s s' : σ}, m.Reach ok s → m.execOk ok s as = some s' → m.Reach ok s'
  | [], s, s', h, he => by
    obtain rfl : s = s' := Option.some.inj he
    exact h
  | a :: as, s, s', h, he => by
    rw [Machine.execOk] at he
    split at he
    · next hok =>
      obtain ⟨t, ht, he⟩ := Option.bind_eq_some_iff.1 he
      exact Reach.execOk (.step h hok ht) he
    · exact nomatch he

theorem allOk_of_execOk [∀ s a, Decidable (ok s a)] :
    ∀ {as : List α} {s s' : σ}, m.execOk ok s as = some s' →
      m.exec s as = some s' ∧ m.AllOk ok s as
  | [], _, _, he => ⟨he, trivial⟩
  | a :: as, s, s', he => by
    rw [Machine.execOk] at he
    split at he
    · next hok =>
      obtain ⟨t, ht, he⟩ := Option.bind_eq_some_iff.1 he
      obtain ⟨hexec, hall⟩ := allOk_of_execOk he
      refine ⟨Option.bind_eq_some_iff.2 ⟨t, ht, hexec⟩, hok, fun u hu => ?_⟩
      obtain rfl : t = u := Option.some.inj (ht.symm.trans hu)
      exact hall
    · exact nomatch he

/-- The state a run of actions ends in is reachable under the condition. -/
theorem reach_execOk_get (m : Machine σ α) (ok : σ → α → Prop) [∀ s a, Decidable (ok s a)] {s : σ}
    (as : List α) (hi : m.init s) (h : (m.execOk ok s as).isSome = true) :
    m.Reach ok ((m.execOk ok s as).get h) :=
  Reach.execOk (.init hi) (Option.some_get h).symm

/-- What a run of actions ends in, by one evaluation. -/
theorem reach_exec_any (m : Machine σ α) {s : σ} (as : List α) {p : σ → Bool} (hi : m.init s)
    (h : (m.exec s as).any p = true) : ∃ s', m.Reachable s' ∧ p s' = true := by
  obtain ⟨s', hs', hp⟩ := (Option.any_eq_true _ _).1 h
  exact ⟨s', .exec (.init hi) (m.allOk_true s as) hs', hp⟩

theorem reach_execOk_any (m : Machine σ α) (ok : σ → α → Prop) [∀ s a, Decidable (ok s a)] {s : σ}
    (as : List α) {p : σ → Bool} (hi : m.init s) (h : (m.execOk ok s as).any p = true) :
    ∃ s', m.Reach ok s' ∧ p s' = true := by
  obtain ⟨s', hs', hp⟩ := (Option.any_eq_true _ _).1 h
  exact ⟨s', .execOk (.init hi) hs', hp⟩

end Machine

end RpiDrivers.Lib
