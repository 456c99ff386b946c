import Mathlib.Logic.Basic

/-!
# Labelled transition systems

States, labels, initial states and a step relation. `Run` is a finite run
with its labels, `Reachable` the end of a run from an initial state.

* `Inductive`: a predicate that holds initially and is kept by every step,
  so it holds in every reachable state (`Inductive.reachable`).
* `restrict G`: the runs whose steps all meet the condition `G` on the state
  before the step and the label; a stronger condition allows fewer
  (`Reachable.restrict_mono`).
* `observe f`: the system with a history variable; `f` says what each step
  adds to it. A run of it is a run of the system (`Reachable.of_observe`).
* `ofFn`: a system given by a partial step function; `exec` evaluates a list
  of labels, and `reachable_of_exec` turns an evaluation into a run.
-/
namespace MysqlConnection

structure LTS (S L : Type) where
  init : S → Prop
  step : S → L → S → Prop

namespace LTS

variable {S L : Type}

inductive Run (M : LTS S L) : S → List L → S → Prop
  | nil (s : S) : Run M s [] s
  | cons {s s₁ s' : S} {l : L} {ls : List L} (h : M.step s l s₁) (hr : Run M s₁ ls s') :
      Run M s (l :: ls) s'

def Reachable (M : LTS S L) (s : S) : Prop := ∃ s₀ ls, M.init s₀ ∧ M.Run s₀ ls s

/-- `I` holds initially and is kept by every step. -/
structure Inductive (M : LTS S L) (I : S → Prop) : Prop where
  init : ∀ s, M.init s → I s
  step : ∀ s l s', I s → M.step s l s' → I s'

theorem Inductive.run {M : LTS S L} {I : S → Prop} (h : M.Inductive I) {s s' : S} {ls : List L}
    (hr : M.Run s ls s') (hs : I s) : I s' := by
  induction hr with
  | nil => exact hs
  | cons h₁ _ ih => exact ih (h.step _ _ _ hs h₁)

theorem Inductive.reachable {M : LTS S L} {I : S → Prop} (h : M.Inductive I) {s : S}
    (hr : M.Reachable s) : I s := by
  obtain ⟨s₀, ls, hi, hrun⟩ := hr
  exact h.run hrun (h.init s₀ hi)

/-! ## Runs whose steps all meet a condition -/

/-- The steps of `M` that meet `G`. -/
def restrict (M : LTS S L) (G : S → L → Prop) : LTS S L where
  init := M.init
  step s l s' := G s l ∧ M.step s l s'

/-- A stronger condition allows fewer runs. -/
theorem Reachable.restrict_mono {M : LTS S L} {G H : S → L → Prop} (hGH : ∀ s l, G s l → H s l)
    {s : S} (h : (M.restrict G).Reachable s) : (M.restrict H).Reachable s := by
  obtain ⟨s₀, ls, hi, hr⟩ := h
  refine ⟨s₀, ls, hi, ?_⟩
  clear hi
  induction hr with
  | nil => exact .nil _
  | cons h₁ _ ih => exact .cons ⟨hGH _ _ h₁.1, h₁.2⟩ ih

/-- A system with more initial states and more steps reaches more. -/
theorem Reachable.mono {M M' : LTS S L} (hi : ∀ s, M.init s → M'.init s)
    (hs : ∀ s l s', M.step s l s' → M'.step s l s') {s : S} (h : M.Reachable s) : M'.Reachable s := by
  obtain ⟨s₀, ls, h₀, hr⟩ := h
  refine ⟨s₀, ls, hi s₀ h₀, ?_⟩
  clear h₀
  induction hr with
  | nil => exact .nil _
  | cons h₁ _ ih => exact .cons (hs _ _ _ h₁) ih

/-! ## History variables -/

/-- `M` with a list that records `f s l` at each step. -/
def observe {H : Type} (M : LTS S L) (f : S → L → List H) : LTS (S × List H) L where
  init x := M.init x.1 ∧ x.2 = []
  step x l x' := M.step x.1 l x'.1 ∧ x'.2 = x.2 ++ f x.1 l

theorem Reachable.of_observe {H : Type} {M : LTS S L} {f : S → L → List H} {x : S × List H}
    (h : (M.observe f).Reachable x) : M.Reachable x.1 := by
  obtain ⟨x₀, ls, hi, hr⟩ := h
  refine ⟨x₀.1, ls, hi.1, ?_⟩
  clear hi
  induction hr with
  | nil => exact .nil _
  | cons h₁ _ ih => exact .cons h₁.1 ih

/-! ## Systems given by a step function -/

def ofFn (init : S → Prop) (f : S → L → Option S) : LTS S L where
  init := init
  step s l s' := f s l = some s'

def exec (f : S → L → Option S) : S → List L → Option S
  | s, [] => some s
  | s, l :: ls => (f s l).bind fun s' => exec f s' ls

theorem run_of_exec (init : S → Prop) (f : S → L → Option S) :
    ∀ (s : S) (ls : List L) (s' : S), exec f s ls = some s' → (ofFn init f).Run s ls s'
  | s, [], s', h => by
    simp only [exec, Option.some.injEq] at h; subst h; exact .nil _
  | s, l :: ls, s', h => by
    simp only [exec, Option.bind_eq_some_iff] at h
    obtain ⟨s₁, h₁, h₂⟩ := h
    exact .cons h₁ (run_of_exec init f s₁ ls s' h₂)

theorem reachable_of_exec {init : S → Prop} {f : S → L → Option S} {s₀ s : S} {ls : List L}
    (hi : init s₀) (h : exec f s₀ ls = some s) : (ofFn init f).Reachable s :=
  ⟨s₀, ls, hi, run_of_exec init f s₀ ls s h⟩

/-- `f` with a history variable. -/
def observeFn {H : Type} (f : S → L → Option S) (o : S → L → List H) (x : S × List H) (l : L) :
    Option (S × List H) :=
  (f x.1 l).map fun s' => (s', x.2 ++ o x.1 l)

/-- A run with what it records. -/
theorem reachable_observe_of_exec {H : Type} {M : LTS S L} {f : S → L → Option S}
    (o : S → L → List H) {s₀ : S} {ls : List L} {x : S × List H} (hi : M.init s₀)
    (hM : ∀ l ∈ ls, ∀ s s', f s l = some s' → M.step s l s')
    (h : exec (observeFn f o) (s₀, []) ls = some x) : (M.observe o).Reachable x := by
  refine ⟨(s₀, []), ls, ⟨hi, rfl⟩, ?_⟩
  clear hi
  generalize (s₀, ([] : List H)) = y at h
  induction ls generalizing y with
  | nil => cases h; exact .nil _
  | cons l ls ih =>
    rw [exec, Option.bind_eq_some_iff] at h
    obtain ⟨y₁, h₁, h₂⟩ := h
    rw [observeFn, Option.map_eq_some_iff] at h₁
    obtain ⟨s₁, h₁, rfl⟩ := h₁
    have hstep : (M.observe o).step y l (s₁, y.2 ++ o y.1 l) :=
      ⟨hM l List.mem_cons_self _ _ h₁, rfl⟩
    exact .cons hstep (ih (fun l' hl' => hM l' (List.mem_cons_of_mem _ hl')) _ h₂)

/-- A run to a state with a decidable property. -/
theorem exists_of_exec {init : S → Prop} {f : S → L → Option S} (s₀ : S) (ls : List L)
    (p : S → Prop) [DecidablePred p] (hi : init s₀)
    (h : (exec f s₀ ls).any (fun s => decide (p s)) = true) :
    ∃ s, (ofFn init f).Reachable s ∧ p s := by
  simp only [Option.any_eq_true, decide_eq_true_eq] at h
  obtain ⟨s, hs, hp⟩ := h
  exact ⟨s, reachable_of_exec hi hs, hp⟩

/-- `exec`, taking only steps that meet `G`. -/
def execG (G : S → L → Prop) [∀ s l, Decidable (G s l)] (f : S → L → Option S) (s : S) (l : L) :
    Option S :=
  if G s l then f s l else none

theorem reachable_of_execG {init : S → Prop} {G : S → L → Prop} [∀ s l, Decidable (G s l)]
    {f : S → L → Option S} {s₀ s : S} {ls : List L} (hi : init s₀)
    (h : exec (execG G f) s₀ ls = some s) : ((ofFn init f).restrict G).Reachable s := by
  refine ⟨s₀, ls, hi, ?_⟩
  clear hi
  induction ls generalizing s₀ with
  | nil => simp only [exec, Option.some.injEq] at h; subst h; exact .nil _
  | cons l ls ih =>
    simp only [exec, Option.bind_eq_some_iff, execG] at h
    obtain ⟨s₁, h₁, h₂⟩ := h
    split at h₁
    · rename_i hg; exact .cons ⟨hg, h₁⟩ (ih h₂)
    · cases h₁

theorem exists_of_execG {init : S → Prop} {G : S → L → Prop} [∀ s l, Decidable (G s l)]
    {f : S → L → Option S} (s₀ : S) (ls : List L) (p : S → Prop) [DecidablePred p] (hi : init s₀)
    (h : (exec (execG G f) s₀ ls).any (fun s => decide (p s)) = true) :
    ∃ s, ((ofFn init f).restrict G).Reachable s ∧ p s := by
  simp only [Option.any_eq_true, decide_eq_true_eq] at h
  obtain ⟨s, hs, hp⟩ := h
  exact ⟨s, reachable_of_execG hi hs, hp⟩

/-- `execG` with the history variable. -/
def execObs {H : Type} (G : S → L → Prop) [∀ s l, Decidable (G s l)] (f : S → L → Option S)
    (o : S → L → List H) (x : S × List H) (l : L) : Option (S × List H) :=
  (execG G f x.1 l).map fun s' => (s', x.2 ++ o x.1 l)

theorem exists_of_execObs {H : Type} {init : S → Prop} {G : S → L → Prop}
    [∀ s l, Decidable (G s l)] {f : S → L → Option S} {o : S → L → List H} (s₀ : S) (ls : List L)
    (p : S × List H → Prop) [DecidablePred p] (hi : init s₀)
    (h : (exec (execObs G f o) (s₀, []) ls).any (fun x => decide (p x)) = true) :
    ∃ x, (((ofFn init f).restrict G).observe o).Reachable x ∧ p x := by
  simp only [Option.any_eq_true, decide_eq_true_eq] at h
  obtain ⟨x, hx, hp⟩ := h
  refine ⟨x, ⟨(s₀, []), ls, ⟨hi, rfl⟩, ?_⟩, hp⟩
  clear hi hp
  generalize (s₀, ([] : List H)) = y at hx
  induction ls generalizing y with
  | nil => simp only [exec, Option.some.injEq] at hx; subst hx; exact .nil _
  | cons l ls ih =>
    simp only [exec, Option.bind_eq_some_iff, execObs, execG, Option.map_eq_some_iff] at hx
    obtain ⟨y₁, ⟨s₁, h₁, rfl⟩, h₂⟩ := hx
    split at h₁
    · rename_i hg
      have hst : (((ofFn init f).restrict G).observe o).step y l (s₁, y.2 ++ o y.1 l) :=
        ⟨⟨hg, h₁⟩, rfl⟩
      exact .cons hst (ih _ h₂)
    · cases h₁

end LTS
end MysqlConnection
