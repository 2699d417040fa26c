/-
  File:      IotWrap/Lib/Machine.lean
  Subject:   Labelled machines, and what holds on every run whose steps meet a
             condition.

  A machine is an initial predicate, a guard and a total next-state function,
  so that a run is a list of labels and can be evaluated. `Reach C` are the
  states of the runs all of whose steps meet `C` (a condition on the state
  BEFORE the step and on the label); `C = fun _ _ => True` gives every run.

  * `Reach.inv`: an invariant of the steps that meet `C` holds on every state
    of `Reach C`;
  * `Reach.inv_of`: the same, where the step lemma may use invariants that are
    already known;
  * `Reach.after`: a run goes on from the state of a run;
  * `exists_after`: a measure that some step always decreases is run down;
  * `Reach.simulate`: where each step is matched or changes nothing that is seen,
    the other machine reaches what is seen;
  * `Reach.replay`: where each step can be imitated by a run, a whole run can;
  * `reach_of_run`, `exists_of_run`: an evaluated run reaches the state it ends in.
-/
import Mathlib.Data.List.Basic

namespace IotWrap.Lib

/-- A labelled machine: where a run starts, which labels may fire, what they do. -/
structure Machine (σ ℓ : Type) where
  init : σ → Prop
  enabled : σ → ℓ → Prop
  next : σ → ℓ → σ

namespace Machine

variable {σ ℓ : Type} {M : Machine σ ℓ} {C : σ → ℓ → Prop}

/-- The states of the runs whose steps all meet `C`. -/
inductive Reach (M : Machine σ ℓ) (C : σ → ℓ → Prop) : σ → Prop where
  | init (s : σ) (h : M.init s) : Reach M C s
  | step (s : σ) (l : ℓ) (h : Reach M C s) (hc : C s l) (he : M.enabled s l) :
      Reach M C (M.next s l)

/-- The states of all runs. -/
abbrev Reachable (M : Machine σ ℓ) : σ → Prop := M.Reach fun _ _ => True

/-- A condition that is weaker on the states of the run reaches more. -/
theorem Reach.mono_of {C' : σ → ℓ → Prop} {J : σ → Prop} (hJ : ∀ s, M.Reach C s → J s)
    (hC : ∀ s l, J s → C s l → C' s l) {s : σ} (h : M.Reach C s) : M.Reach C' s := by
  induction h with
  | init s h => exact .init s h
  | step s l hr hc he ih => exact .step s l ih (hC s l (hJ s hr) hc) he

/-- A weaker condition on the steps reaches more. -/
theorem Reach.mono {C' : σ → ℓ → Prop} (hC : ∀ s l, C s l → C' s l) {s : σ}
    (h : M.Reach C s) : M.Reach C' s :=
  h.mono_of (J := fun _ => True) (fun _ _ => trivial) fun s l _ hc => hC s l hc

/-- **The invariant rule**: what holds initially and is kept by every step that
    meets `C` holds on every state of `Reach C`. -/
theorem Reach.inv {I : σ → Prop} (h0 : ∀ s, M.init s → I s)
    (hs : ∀ s l, I s → C s l → M.enabled s l → I (M.next s l)) {s : σ}
    (h : M.Reach C s) : I s := by
  induction h with
  | init s h => exact h0 s h
  | step s l _ hc he ih => exact hs s l ih hc he

/-- The invariant rule over an invariant `J` that is already known. -/
theorem Reach.inv_of {I J : σ → Prop} (hJ : ∀ s, M.Reach C s → J s) (h0 : ∀ s, M.init s → I s)
    (hs : ∀ s l, J s → I s → C s l → M.enabled s l → I (M.next s l)) {s : σ}
    (h : M.Reach C s) : I s := by
  induction h with
  | init s h => exact h0 s h
  | step s l hr hc he ih => exact hs s l (hJ s hr) ih hc he

/-- The same machine, started in a given state. -/
abbrev after (M : Machine σ ℓ) (s : σ) : Machine σ ℓ := { M with init := fun t => t = s }

/-- A run that goes on where another one ended. -/
theorem Reach.after {s s' : σ} (h : M.Reach C s) (h' : (M.after s).Reach C s') : M.Reach C s' := by
  induction h' with
  | init t h0 =>
    obtain rfl : t = s := h0
    exact h
  | step t l _ hc he ih => exact .step t l ih hc he

/-- A run after one step is a run from before it. -/
theorem after_step {s s' : σ} {l : ℓ} (hc : C s l) (he : M.enabled s l)
    (h : (M.after (M.next s l)).Reach C s') : (M.after s).Reach C s' :=
  Reach.after (M := M.after s) (.step s l (.init s rfl) hc he) h

/-- **Running down a measure**: where some step decreases `μ` as long as `P` does
    not hold, a run leads to a state with `P`. -/
theorem exists_after {I P : σ → Prop} (μ : σ → Nat)
    (hstep : ∀ s, I s → ¬ P s → ∃ l, M.enabled s l ∧ I (M.next s l) ∧ μ (M.next s l) < μ s)
    (s : σ) (hs : I s) : ∃ s', (M.after s).Reachable s' ∧ P s' := by
  induction hn : μ s using Nat.strongRecOn generalizing s with
  | ind n ih =>
    by_cases hP : P s
    · exact ⟨s, .init s rfl, hP⟩
    · obtain ⟨l, he, hI, hlt⟩ := hstep s hs hP
      obtain ⟨s', hr, hP'⟩ := ih _ (hn ▸ hlt) (M.next s l) hI rfl
      exact ⟨s', after_step trivial he hr, hP'⟩

section Simulation

variable {τ κ : Type} {N : Machine τ κ} {D : τ → κ → Prop}

/-- **A simulation with stuttering**: every step of `M` is a step of `N` on what
    `f` sees of the state, or `f` sees no change. -/
theorem Reach.simulate (f : σ → τ) (h0 : ∀ s, M.init s → N.init (f s))
    (hs : ∀ s l, C s l → M.enabled s l → f (M.next s l) = f s ∨
      ∃ k, D (f s) k ∧ N.enabled (f s) k ∧ N.next (f s) k = f (M.next s l))
    {s : σ} (h : M.Reach C s) : N.Reach D (f s) := by
  induction h with
  | init s h => exact .init _ (h0 s h)
  | step s l hr hc he ih =>
    rcases hs s l hc he with hstutter | ⟨k, hd, hk, hnext⟩
    · exact hstutter ▸ ih
    · exact hnext ▸ .step _ k ih hd hk

/-- **Replaying**: where from every state with `J` a run of `M` imitates any step of
    `N`, a run of `M` imitates any run of `N`. -/
theorem Reach.replay (f : σ → τ) {J : σ → Prop}
    (h0 : ∀ t, N.init t → ∃ s, M.init s ∧ J s ∧ f s = t)
    (hs : ∀ s k, J s → D (f s) k → N.enabled (f s) k →
      ∃ s', (M.after s).Reach C s' ∧ J s' ∧ f s' = N.next (f s) k)
    {t : τ} (h : N.Reach D t) : ∃ s, M.Reach C s ∧ J s ∧ f s = t := by
  induction h with
  | init t h =>
    obtain ⟨s, hi, hJ, rfl⟩ := h0 t h
    exact ⟨s, .init s hi, hJ, rfl⟩
  | step t k _ hd hk ih =>
    obtain ⟨s, hr, hJ, rfl⟩ := ih
    obtain ⟨s', hr', hJ', he⟩ := hs s k hJ hd hk
    exact ⟨s', hr.after hr', hJ', he⟩

end Simulation

/-- The run of a list of labels; `none` where a label may not fire or does not
    meet the condition. -/
def run (M : Machine σ ℓ) (C : σ → ℓ → Prop) [∀ s l, Decidable (M.enabled s l)]
    [∀ s l, Decidable (C s l)] : σ → List ℓ → Option σ
  | s, [] => some s
  | s, l :: ls => if C s l ∧ M.enabled s l then M.run C (M.next s l) ls else none

variable [∀ s l, Decidable (M.enabled s l)] [∀ s l, Decidable (C s l)]

/-- An evaluated run, whose labels' conditions give others. -/
theorem reach_run_of {D : σ → ℓ → Prop} {s s' : σ} {ls : List ℓ} (hr : M.Reach D s)
    (hC : ∀ s, ∀ l ∈ ls, C s l → D s l) (h : M.run C s ls = some s') : M.Reach D s' := by
  induction ls generalizing s with
  | nil =>
    simp only [run, Option.some.injEq] at h
    exact h ▸ hr
  | cons l ls ih =>
    simp only [run, Option.ite_none_right_eq_some] at h
    have hl : D s l := hC s l List.mem_cons_self h.1.1
    exact ih (.step s l hr hl h.1.2) (fun s l' hl' => hC s l' (List.mem_cons_of_mem l hl')) h.2

theorem reach_run {s s' : σ} {ls : List ℓ} (hr : M.Reach C s) (h : M.run C s ls = some s') :
    M.Reach C s' :=
  reach_run_of hr (fun _ _ _ hc => hc) h

/-- **An evaluated run from an initial state is a run of the machine.** -/
theorem reach_of_run {s s' : σ} {ls : List ℓ} (h0 : M.init s) (h : M.run C s ls = some s') :
    M.Reach C s' :=
  reach_run (.init s h0) h

/-- What an evaluated run ends in: a state of `Reach C` with the observed value. -/
theorem exists_of_run {β : Type} {s : σ} {ls : List ℓ} {f : σ → β} {b : β} (h0 : M.init s)
    (h : (M.run C s ls).map f = some b) : ∃ s', M.Reach C s' ∧ f s' = b := by
  obtain ⟨s', hs, hb⟩ := Option.map_eq_some_iff.mp h
  exact ⟨s', reach_of_run h0 hs, hb⟩

end Machine

end IotWrap.Lib
