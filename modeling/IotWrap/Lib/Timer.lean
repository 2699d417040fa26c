/-
  File:      IotWrap/Lib/Timer.lean
  Subject:   A timer that is looked at now and then: it fires where more than a
             period has passed since it was set, and is set again afterwards.

  The period is read at each look and may be another one each time. `firings`
  and `looked` are history.

  * `Ok`: how the firings lie between the moments at which the timer was set;
  * `Ok.count`, `Ok.window`: not too often, from the start and in any window;
  * `Prompt`: not too late, where nobody looks away for longer than `D`.
-/
import Mathlib.Data.List.Basic
import Mathlib.Data.List.Pairwise

namespace IotWrap.Lib

/-- The timer fired: the period that was read, when it was compared with the
    clock, and when the timer was set again. -/
structure Firing where
  period : Nat
  tested : Nat
  set : Nat
  deriving DecidableEq, Repr

structure Timer where
  now : Nat
  /-- When it was set for the first time. -/
  begun : Nat
  /-- When it was set last. -/
  since : Nat
  /-- When it was set or looked at last. -/
  looked : Nat
  /-- The newest one first. -/
  firings : List Firing
  deriving DecidableEq, Repr

namespace Timer

def init : Timer := ⟨0, 0, 0, 0, []⟩

/-- Time passes. -/
def advance (t : Timer) (ms : Nat) : Timer := { t with now := t.now + ms }

/-- Set for the first time. -/
def start (t : Timer) : Timer := { t with begun := t.now, since := t.now, looked := t.now }

/-- More than the period has passed. -/
def Due (t : Timer) (period : Nat) : Prop := period < t.now - t.since

instance (t : Timer) (period : Nat) : Decidable (t.Due period) :=
  inferInstanceAs (Decidable (_ < _))

/-- A look at the clock. -/
def look (t : Timer) : Timer := { t with looked := t.now }

/-- Set again, after a look at `tested` found the period over. -/
def fire (t : Timer) (period tested : Nat) : Timer :=
  { t with
    since := t.now
    looked := t.now
    firings := ⟨period, tested, t.now⟩ :: t.firings }

/-- When the timer was set before the firings that come after `l`. -/
def setBefore (begun : Nat) : List Firing → Nat
  | [] => begun
  | p :: _ => p.set

/-- **Each firing was due**: it was tested more than its period after the timer
    was set before, and the timer was set again afterwards. -/
def Spaced (begun : Nat) : List Firing → Prop
  | [] => True
  | p :: l => setBefore begun l + p.period < p.tested ∧ p.tested ≤ p.set ∧ Spaced begun l

/-- **Each firing was tested in time**: at most `B` after the timer was set before. -/
def Punctual (B begun : Nat) : List Firing → Prop
  | [] => True
  | p :: l => p.tested ≤ setBefore begun l + B ∧ Punctual B begun l

/-! ## 1. Not too often -/

structure Ok (t : Timer) : Prop where
  now : t.looked ≤ t.now
  since : t.since ≤ t.looked
  begun : setBefore t.begun t.firings = t.since
  spaced : Spaced t.begun t.firings

theorem ok_init : Ok init where
  now := Nat.le_refl _
  since := Nat.le_refl _
  begun := rfl
  spaced := trivial

theorem Ok.advance {t : Timer} (h : t.Ok) (ms : Nat) : (t.advance ms).Ok :=
  ⟨Nat.le_add_right_of_le h.now, h.since, h.begun, h.spaced⟩

/-- Nothing has fired before the timer is set for the first time. -/
theorem ok_start {t : Timer} (h : t.firings = []) : t.start.Ok := by
  refine ⟨Nat.le_refl _, Nat.le_refl _, ?_, ?_⟩
  · rw [start, h]
    rfl
  · rw [start, h]
    trivial

theorem Ok.look {t : Timer} (h : t.Ok) : t.look.Ok :=
  ⟨Nat.le_refl _, Nat.le_trans h.since h.now, h.begun, h.spaced⟩

theorem Ok.fire {t : Timer} (h : t.Ok) {period tested : Nat} (hdue : t.since + period < tested)
    (hle : tested ≤ t.now) : (t.fire period tested).Ok := by
  refine ⟨Nat.le_refl _, Nat.le_refl _, rfl, ?_, hle, h.spaced⟩
  show setBefore t.begun t.firings + period < tested
  rw [h.begun]
  exact hdue

/-- A due timer was set more than a period ago. -/
theorem due_iff {t : Timer} {period : Nat} : t.Due period ↔ t.since + period < t.now := by
  unfold Due
  omega

/-- `n` firings with periods of at least `P` take more than `n` times `P`. -/
theorem Spaced.count {begun P : Nat} {l : List Firing} (h : Spaced begun l)
    (hP : ∀ p ∈ l, P ≤ p.period) : begun + l.length * (P + 1) ≤ setBefore begun l := by
  induction l with
  | nil => simp [setBefore]
  | cons p l ih =>
    obtain ⟨hdue, hle, hl⟩ := h
    have hp : P ≤ p.period := hP p List.mem_cons_self
    have hrest := ih hl fun q hq => hP q (List.mem_cons_of_mem _ hq)
    rw [List.length_cons, Nat.succ_mul]
    show _ ≤ p.set
    omega

/-- A firing in the past was set again at the latest when the newest one was. -/
theorem Spaced.set_le {begun : Nat} {l : List Firing} (h : Spaced begun l) {p : Firing}
    (hp : p ∈ l) : p.tested ≤ setBefore begun l := by
  induction l with
  | nil => cases hp
  | cons q l ih =>
    obtain ⟨hdue, hle, hl⟩ := h
    show _ ≤ q.set
    rcases List.mem_cons.mp hp with rfl | hp
    · exact hle
    · have hpl := ih hl hp
      omega

/-- Any two firings lie more than `P` apart. -/
theorem Spaced.pairwise {begun P : Nat} {l : List Firing} (h : Spaced begun l)
    (hP : ∀ p ∈ l, P ≤ p.period) : l.Pairwise fun p q => q.tested + P < p.tested := by
  induction l with
  | nil => exact List.Pairwise.nil
  | cons p l ih =>
    obtain ⟨hdue, -, hl⟩ := h
    refine List.pairwise_cons.mpr
      ⟨fun q hq => ?_, ih hl fun q hq => hP q (List.mem_cons_of_mem _ hq)⟩
    have hq := hl.set_le hq
    have hp : P ≤ p.period := hP p List.mem_cons_self
    omega

/-- So many fit between the first and the last of them. -/
theorem length_of_pairwise {P lo : Nat} (hi : Nat) {l : List Firing}
    (h : l.Pairwise fun p q => q.tested + P < p.tested)
    (hl : ∀ p ∈ l, lo ≤ p.tested ∧ p.tested ≤ hi) (hne : l ≠ []) :
    lo + (l.length - 1) * (P + 1) ≤ hi := by
  induction l generalizing hi with
  | nil => exact absurd rfl hne
  | cons p l ih =>
    obtain ⟨hp, hrest⟩ := List.pairwise_cons.mp h
    have hb := hl p List.mem_cons_self
    by_cases hnil : l = []
    · subst hnil
      simpa using Nat.le_trans hb.1 hb.2
    · have hlen : 0 < l.length := List.length_pos_iff.mpr hnil
      have hr := ih (p.tested - (P + 1)) hrest (fun q hq => by
        have hq' := hp q hq
        exact ⟨(hl q (List.mem_cons_of_mem _ hq)).1, by omega⟩) hnil
      obtain ⟨q, hq⟩ := List.exists_mem_of_ne_nil l hnil
      have hq' := hp q hq
      have hmul : l.length * (P + 1) = (l.length - 1) * (P + 1) + (P + 1) := by
        rw [← Nat.succ_mul, Nat.succ_eq_add_one, Nat.sub_add_cancel hlen]
      rw [List.length_cons, Nat.add_sub_cancel, hmul]
      omega

/-- The firings tested in a window of `w`. -/
def firedIn (t : Timer) (lo w : Nat) : List Firing :=
  t.firings.filter fun p => decide (lo ≤ p.tested ∧ p.tested ≤ lo + w)

/-- **In a window of `w` a timer fires once, and once more per period.** -/
theorem Ok.window {t : Timer} (h : t.Ok) {P : Nat} (hP : ∀ p ∈ t.firings, P ≤ p.period)
    (lo w : Nat) : (t.firedIn lo w).length ≤ w / (P + 1) + 1 := by
  by_cases hne : t.firedIn lo w = []
  · rw [hne]
    exact Nat.zero_le _
  · have hpair : (t.firedIn lo w).Pairwise fun p q => q.tested + P < p.tested :=
      (h.spaced.pairwise hP).filter _
    have hlen := length_of_pairwise (lo + w) hpair
      (fun p hp => of_decide_eq_true (List.mem_filter.mp hp).2) hne
    have hdiv : (t.firedIn lo w).length - 1 ≤ w / (P + 1) :=
      (Nat.le_div_iff_mul_le (Nat.succ_pos P)).mpr (by show _ * (P + 1) ≤ w; omega)
    omega

/-- **From the start on a timer fires at most once per period.** -/
theorem Ok.count {t : Timer} (h : t.Ok) {P : Nat} (hP : ∀ p ∈ t.firings, P ≤ p.period) :
    t.begun + t.firings.length * (P + 1) ≤ t.now := by
  have hc := h.spaced.count hP
  rw [h.begun] at hc
  have hn := h.now
  have hs := h.since
  omega

/-! ## 2. Not too late -/

/-- **Nobody has looked away for long**: the last look, unless it found the timer
    due, was at most `P` after it was set; all firings were tested within `P + D`. -/
structure Prompt (P D : Nat) (t : Timer) : Prop where
  looked : t.looked ≤ t.since + P
  punctual : Punctual (P + D) t.begun t.firings

theorem prompt_start {P D : Nat} {t : Timer} (h : t.firings = []) : Prompt P D t.start := by
  refine ⟨Nat.le_add_right _ _, ?_⟩
  rw [start, h]
  trivial

/-- A look that finds a period of at most `P` not over. -/
theorem Prompt.look {P D : Nat} {t : Timer} (h : Prompt P D t) {period : Nat} (hP : period ≤ P)
    (hdue : ¬ t.Due period) : Prompt P D t.look := by
  refine ⟨?_, h.punctual⟩
  rw [due_iff] at hdue
  show t.now ≤ t.since + P
  omega

theorem Prompt.fire {P D : Nat} {t : Timer} (h : Punctual (P + D) t.begun t.firings)
    (hset : setBefore t.begun t.firings = t.since) {tested : Nat}
    (htested : tested ≤ t.since + P + D) (period : Nat) : Prompt P D (t.fire period tested) := by
  refine ⟨Nat.le_add_right _ _, ?_, h⟩
  show tested ≤ setBefore t.begun t.firings + (P + D)
  rw [hset]
  omega

end Timer

end IotWrap.Lib
