/-
  File:      IotWrap/Timing.lean
  Subject:   When the shadow thread polls (`threadLoop`, jni/server/IOT_DeviceShadow.cpp).

  `threadLoop` polls its clients where `reportPeriod() < HAL_UptimeMs() - started_ms`,
  and sets `started_ms` after `preShadow` and after each `updateProperties`. `Timed`
  is `Reporting` with that test: `tick` lets time pass, `readPeriod` and `readUptime`
  are the two operands, `stamp` is `started_ms = HAL_UptimeMs()`.

  The uptime is a Nat: it wraps after 2^64 ms.

  * `reach_iff`: the clock forbids no state, and adds none, whatever the condition
    on the steps;
  * `polls_spaced`: how often the clients are polled, in any window of time;
  * `polls_prompt`: how late, where no round takes longer than `D`;
  * `silent_below_zero`: a negative period stops the polling.
-/
import IotWrap.Lib.Timer
import IotWrap.Report

namespace IotWrap

open Lib

/-- Where the shadow thread is in the lines of `threadLoop` that read the clock. -/
inductive TestPc where
  | away : TestPc
  /-- `preShadow` has returned, `started_ms` is not set. -/
  | entered : TestPc
  | periodRead (period : Nat) : TestPc
  /-- The test was true at `tested`, `updateProperties` is next. -/
  | due (period tested : Nat) : TestPc
  | notDue : TestPc
  /-- `updateProperties` has returned, `started_ms` is not set. -/
  | updated (period tested : Nat) : TestPc
  deriving DecidableEq, Repr

/-- The thread is at the test, or in the poll. -/
def TestPc.testing : TestPc → Bool
  | .away | .entered => false
  | _ => true

/-- In the poll, or not in the loop yet. -/
def TestPc.busy : TestPc → Bool
  | .entered | .due _ _ | .updated _ _ => true
  | _ => false

/-- Reporting, and the clock. `timer.since` is `started_ms`, a firing is a poll. -/
structure Timed where
  r : Reporting
  timer : Timer
  pc : TestPc

namespace Timed

inductive Label where
  | tick (ms : Nat) : Label
  | stamp : Label
  | readPeriod : Label
  | readUptime : Label
  | step (l : Reporting.Label) : Label

/-- A step of `threadLoop` itself, and not what the branch on the clock decides. -/
def ofThread : Reporting.Label → Bool
  | .setupShadow _ | .preShadow | .yieldShadow | .yielded | .readFlag | .readForce | .pass _
  | .push _ _ _ | .clearFlag | .clearForce => true
  | _ => false

/-- Where the thread has to be for a step of `Reporting`. -/
def At (pc : TestPc) : Reporting.Label → Prop
  | .updateProperties _ =>
    match pc with
    | .due _ _ => True
    | _ => False
  | .notDue => pc = .notDue
  | l => ofThread l = true → pc = .away

instance (pc : TestPc) : DecidablePred (At pc)
  | .updateProperties _ =>
    match pc with
    | .due _ _ => .isTrue trivial
    | .away | .entered | .periodRead _ | .notDue | .updated _ _ => .isFalse id
  | .notDue => inferInstanceAs (Decidable (pc = .notDue))
  | .setupShadow _ | .preShadow | .yieldShadow | .yielded | .readFlag | .readForce | .pass _
  | .push _ _ _ | .clearFlag | .clearForce | .write _ _ _ | .setFlag _ _ | .format _ _ _
  | .pushCall _ _ _ _ _ | .finish _ _ _ _ | .setProperty _ _ _ | .setPeriod _ _
  | .reportPeriod _ | .service _ | .addProperty _ _ _ _ =>
    inferInstanceAs (Decidable (_ = true → pc = .away))

/-- Where the thread is after a step of `Reporting`. -/
def goOn (pc : TestPc) : Reporting.Label → TestPc
  | .preShadow => .entered
  | .updateProperties _ =>
    match pc with
    | .due period tested => .updated period tested
    | pc => pc
  | .notDue => .away
  | _ => pc

/-- `reportPeriod`. -/
def reportPeriod (s : Timed) : Nat := s.r.d.m_reportPeriod.toNat

def enabled (s : Timed) : Label → Prop
  | .tick _ => True
  | .stamp =>
    match s.pc with
    | .entered | .updated _ _ => True
    | _ => False
  | .readPeriod => s.r.loop = .yielded ∧ s.pc = .away
  | .readUptime =>
    match s.pc with
    | .periodRead _ => True
    | _ => False
  | .step l => s.r.enabled l ∧ At s.pc l

instance (s : Timed) (l : Label) : Decidable (s.enabled l) := by
  cases l <;> simp only [enabled] <;> first | infer_instance | (split <;> infer_instance)

/-- `started_ms = HAL_UptimeMs()`. -/
def stamp (s : Timed) : Timed :=
  match s.pc with
  | .entered => { s with timer := s.timer.start, pc := .away }
  | .updated period tested => { s with timer := s.timer.fire period tested, pc := .away }
  | _ => s

/-- `HAL_UptimeMs() - started_ms`, compared with the period that was read. -/
def readUptime (s : Timed) : Timed :=
  match s.pc with
  | .periodRead period =>
    { s with
      timer := s.timer.look
      pc := if s.timer.Due period then .due period s.timer.now else .notDue }
  | _ => s

def next (s : Timed) : Label → Timed
  | .tick ms => { s with timer := s.timer.advance ms }
  | .stamp => s.stamp
  | .readPeriod => { s with pc := .periodRead s.reportPeriod }
  | .readUptime => s.readUptime
  | .step l => { s with r := s.r.next l, pc := goOn s.pc l }

def machine : Machine Timed Label where
  init s := Reporting.machine.init s.r ∧ s.timer = .init ∧ s.pc = .away
  enabled := enabled
  next := next

instance (s : Timed) (l : Label) : Decidable (machine.enabled s l) :=
  inferInstanceAs (Decidable (s.enabled l))

/-! ## 1. The clock forbids nothing -/

/-- A condition on the steps of `Reporting`, whenever they are taken. -/
def Lift (C : Reporting → Reporting.Label → Prop) (s : Timed) : Label → Prop
  | .step l => C s.r l
  | _ => True

/-- A fresh clock: no time has passed since `started_ms` was set. -/
def Fresh (s : Timed) : Prop := s.pc = .away ∧ s.timer.now = s.timer.since

theorem readUptime_due {timer : Timer} {period : Nat} (r : Reporting) (h : timer.Due period) :
    readUptime ⟨r, timer, .periodRead period⟩ = ⟨r, timer.look, .due period timer.now⟩ := by
  simp only [readUptime, if_pos h]

theorem readUptime_notDue {timer : Timer} {period : Nat} (r : Reporting)
    (h : ¬ timer.Due period) :
    readUptime ⟨r, timer, .periodRead period⟩ = ⟨r, timer.look, .notDue⟩ := by
  simp only [readUptime, if_neg h]

theorem stamp_r (s : Timed) : s.stamp.r = s.r := by
  unfold stamp
  split <;> rfl

theorem readUptime_r (s : Timed) : s.readUptime.r = s.r := by
  unfold readUptime
  split <;> rfl

variable {C : Reporting → Reporting.Label → Prop}

/-- Every timed run is a run of `Reporting`. -/
theorem forget {s : Timed} (h : machine.Reach (Lift C) s) : Reporting.machine.Reach C s.r := by
  refine h.simulate (N := Reporting.machine) (fun s : Timed => s.r) (fun s (h0 : machine.init s) => h0.1)
    fun s l hC he => ?_
  cases l with
  | tick ms => exact .inl rfl
  | stamp => exact .inl s.stamp_r
  | readPeriod => exact .inl rfl
  | readUptime => exact .inl s.readUptime_r
  | step l => exact .inr ⟨l, hC, he.1, rfl⟩

theorem stay (C : Reporting → Reporting.Label → Prop) (s : Timed) :
    (machine.after s).Reach (Lift C) s := .init s rfl

/-- A step more on the way from `s`. -/
theorem on {s s₁ s₂ : Timed} (h : (machine.after s).Reach (Lift C) s₁) {l : Label}
    (hC : Lift C s₁ l) (he : s₁.enabled l) (hn : s₁.next l = s₂) :
    (machine.after s).Reach (Lift C) s₂ := hn ▸ .step s₁ l h hC he

/-- The test on a fresh clock is false. -/
theorem replay_notDue {r : Reporting} {timer : Timer} (h : timer.now = timer.since)
    (hC : C r .notDue) (he : r.enabled .notDue) :
    (machine.after ⟨r, timer, .away⟩).Reach (Lift C) ⟨r.next .notDue, timer.look, .away⟩ := by
  have hdue : ¬ timer.Due r.d.m_reportPeriod.toNat := by
    rw [Timer.due_iff, h]
    omega
  have h₁ := on (stay C ⟨r, timer, .away⟩) (l := .readPeriod) trivial ⟨he, rfl⟩ rfl
  have h₂ := on h₁ (l := .readUptime) trivial trivial (readUptime_notDue r hdue)
  exact on h₂ (l := .step .notDue) hC ⟨he, rfl⟩ rfl

/-- The test after a long tick is true. -/
theorem replay_updateProperties {r : Reporting} {timer : Timer} (h : timer.now = timer.since)
    {ans : IOTService.Answers} (hC : C r (.updateProperties ans))
    (he : r.enabled (.updateProperties ans)) :
    ∃ timer' : Timer, timer'.now = timer'.since ∧ (machine.after ⟨r, timer, .away⟩).Reach (Lift C)
      ⟨r.next (.updateProperties ans), timer', .away⟩ := by
  have hdue : (timer.advance (r.d.m_reportPeriod.toNat + 1)).Due r.d.m_reportPeriod.toNat := by
    rw [Timer.due_iff]
    show timer.since + r.d.m_reportPeriod.toNat < timer.now + (r.d.m_reportPeriod.toNat + 1)
    omega
  have h₁ := on (stay C ⟨r, timer, .away⟩) (l := .tick (r.d.m_reportPeriod.toNat + 1))
    trivial trivial rfl
  have h₂ := on h₁ (l := .readPeriod) trivial ⟨he, rfl⟩ rfl
  have h₃ := on h₂ (l := .readUptime) trivial trivial (readUptime_due r hdue)
  have h₄ := on h₃ (l := .step (.updateProperties ans)) hC ⟨he, trivial⟩ rfl
  have h₅ := on h₄ (l := .stamp) trivial trivial rfl
  exact ⟨_, rfl, h₅⟩

/-- **From a fresh clock** any step of `Reporting` can be taken, and the clock is
    fresh again. -/
theorem replay {s : Timed} (h : s.Fresh) {l : Reporting.Label} (hC : C s.r l)
    (he : s.r.enabled l) :
    ∃ s', (machine.after s).Reach (Lift C) s' ∧ s'.Fresh ∧ s'.r = s.r.next l := by
  obtain ⟨r, timer, pc⟩ := s
  obtain ⟨rfl, hnow⟩ : pc = .away ∧ timer.now = timer.since := h
  cases l with
  | preShadow =>
    have h₁ := on (stay C ⟨r, timer, .away⟩) (l := .step .preShadow) hC ⟨he, fun _ => rfl⟩ rfl
    exact ⟨_, on h₁ (l := .stamp) trivial trivial rfl, ⟨rfl, rfl⟩, rfl⟩
  | notDue => exact ⟨_, replay_notDue hnow hC he, ⟨rfl, hnow⟩, rfl⟩
  | updateProperties ans =>
    obtain ⟨timer', hnow', hr⟩ := replay_updateProperties hnow hC he
    exact ⟨_, hr, ⟨rfl, hnow'⟩, rfl⟩
  | _ =>
    exact ⟨_, on (stay C ⟨r, timer, .away⟩) (l := .step _) hC ⟨he, fun _ => rfl⟩ rfl,
      ⟨rfl, hnow⟩, rfl⟩

/-- **The clock forbids no state and adds none**: under any condition on the steps,
    the runs of `Reporting` reach the same states with the clock as without it. -/
theorem reach_iff (C : Reporting → Reporting.Label → Prop) (r : Reporting) :
    Reporting.machine.Reach C r ↔ ∃ s, machine.Reach (Lift C) s ∧ s.r = r := by
  constructor
  · intro h
    obtain ⟨s, hs, -, hr⟩ := h.replay (M := machine) (·.r) (J := Fresh)
      (fun r h0 => ⟨⟨r, .init, .away⟩, ⟨h0, rfl, rfl⟩, ⟨rfl, rfl⟩, rfl⟩)
      fun s l hJ hC he => replay hJ hC he
    exact ⟨s, hs, hr⟩
  · rintro ⟨s, hs, rfl⟩
    exact forget hs

/-! ## 2. Not too often -/

/-- Before the loop of `threadLoop`. -/
def Starting (pc : LoopPc) : Prop := pc = .setupShadow ∨ pc = .preShadow

instance (pc : LoopPc) : Decidable (Starting pc) := inferInstanceAs (Decidable (_ ∨ _))

theorem starting_setHalf (r : Reporting) (half : Bool) (x : Ctx) :
    Starting (r.setHalf half x).loop ↔ Starting r.loop := by
  cases x with
  | loop =>
    show Starting (r.loop.setHalf half) ↔ _
    cases r.loop <;> simp [Starting, LoopPc.setHalf]
  | call n => exact Iff.rfl

theorem not_starting {pc : LoopPc} (h : decide (Starting pc) = false) : ¬ Starting pc :=
  of_decide_eq_false h

/-- `preShadow` ends the start, and nothing goes back to it. -/
theorem starting_next {r : Reporting} {l : Reporting.Label} (he : r.enabled l) :
    Starting (r.next l).loop ↔ Starting r.loop ∧ l ≠ .preShadow := by
  have hthread : ∀ {pc pc' : LoopPc}, r.loop = pc → ¬ Starting pc → ¬ Starting pc' →
      (Starting pc' ↔ Starting r.loop ∧ l ≠ .preShadow) := by
    intro pc pc' hpc hn hn'
    rw [hpc]
    exact ⟨fun h => absurd h hn', fun h => absurd h.1 hn⟩
  have hkeep : l ≠ .preShadow → (Starting r.loop ↔ Starting r.loop ∧ l ≠ .preShadow) :=
    fun hl => ⟨fun h => ⟨h, hl⟩, fun h => h.1⟩
  cases l with
  | setupShadow hd => exact ⟨fun _ => ⟨.inl he, by simp⟩, fun _ => .inr rfl⟩
  | preShadow => exact ⟨fun h => (by rcases h with h | h <;> cases h), fun h => absurd rfl h.2⟩
  | yieldShadow => exact hthread he (by decide) (not_starting rfl)
  | yielded => exact hthread he (by decide) (not_starting rfl)
  | updateProperties ans => exact hthread he (by decide) (not_starting rfl)
  | notDue => exact hthread he (by decide) (not_starting rfl)
  | readFlag =>
    exact hthread he (by decide) (by simp only [Reporting.next]; split <;> exact not_starting rfl)
  | readForce =>
    exact hthread he (by decide) (by simp only [Reporting.next]; split <;> exact not_starting rfl)
  | pass rc =>
    exact hthread he (by decide) (by simp only [Reporting.next]; split <;> exact not_starting rfl)
  | push payload ret received => exact hthread he.1 (not_starting rfl) (not_starting rfl)
  | clearFlag => exact hthread he (by decide) (not_starting rfl)
  | clearForce => exact hthread he (by decide) (not_starting rfl)
  | setProperty x k data =>
    simp only [Reporting.next]
    split <;> exact hkeep (by simp)
  | setPeriod x data => exact (starting_setHalf _ true x).trans (hkeep (by simp))
  | reportPeriod x =>
    simp only [Reporting.next]
    split
    · exact (starting_setHalf _ false x).trans (hkeep (by simp))
    · exact (starting_setHalf _ false x).trans (hkeep (by simp))
  | _ => exact hkeep (by simp)

/-- **The clock at every step**: the timer is sound, has not fired before the loop,
    and a poll in progress was due. -/
structure Clocked (s : Timed) : Prop where
  ok : s.timer.Ok
  unset : Starting s.r.loop ∨ s.pc = .entered → s.timer.firings = []
  running : s.pc.testing = true → ¬ Starting s.r.loop
  due : ∀ period tested, s.pc = .due period tested ∨ s.pc = .updated period tested →
    s.timer.since + period < tested ∧ tested ≤ s.timer.now

/-- What a step of `Reporting` can do to the thread's place at the clock. -/
theorem goOn_cases {pc : TestPc} {l : Reporting.Label} (h : At pc l) :
    (goOn pc l = pc) ∨ (l = .preShadow ∧ goOn pc l = .entered) ∨
      (∃ period tested, pc = .due period tested ∧ goOn pc l = .updated period tested) ∨
      (pc = .notDue ∧ goOn pc l = .away) := by
  cases l with
  | preShadow => exact .inr (.inl ⟨rfl, rfl⟩)
  | updateProperties ans =>
    cases pc with
    | due period tested => exact .inr (.inr (.inl ⟨period, tested, rfl, rfl⟩))
    | _ => exact absurd h id
  | notDue => exact .inr (.inr (.inr ⟨h, rfl⟩))
  | _ => exact .inl rfl

/-- A step of `Reporting` that leaves the thread where it is at the clock. -/
theorem Clocked.step_r {s : Timed} (h : Clocked s) {l : Reporting.Label} (he : s.r.enabled l)
    {pc : TestPc} (hentered : pc = .entered → Starting s.r.loop ∨ s.pc = .entered)
    (htest : pc.testing = true → s.pc.testing = true)
    (hdue : ∀ period tested, pc = .due period tested ∨ pc = .updated period tested →
      s.pc = .due period tested ∨ s.pc = .updated period tested) :
    Clocked ⟨s.r.next l, s.timer, pc⟩ where
  ok := h.ok
  unset hs := by
    rcases hs with hs | hs
    · exact h.unset (.inl ((starting_next he).mp hs).1)
    · exact h.unset (hentered hs)
  running ht hs := h.running (htest ht) ((starting_next he).mp hs).1
  due period tested hd := h.due period tested (hdue period tested hd)

theorem clocked_step {s : Timed} (h : Clocked s) {l : Reporting.Label} (he : s.r.enabled l)
    (hat : At s.pc l) : Clocked (s.next (.step l)) := by
  rcases goOn_cases hat with e | ⟨rfl, e⟩ | ⟨period, tested, hpc, e⟩ | ⟨hpc, e⟩
  · exact h.step_r he (fun hp => .inr (e ▸ hp)) (fun ht => e ▸ ht) fun p t hd => e ▸ hd
  · exact h.step_r he (fun _ => .inl (.inr he)) (fun ht => by rw [e] at ht; cases ht)
      fun p t hd => by rw [e] at hd; rcases hd with hd | hd <;> cases hd
  · refine h.step_r he (fun hp => by rw [e] at hp; cases hp) (fun _ => by rw [hpc]; rfl)
      fun p t hd => ?_
    rw [e] at hd
    rcases hd with hd | hd
    · cases hd
    · cases hd
      exact .inl hpc
  · exact h.step_r he (fun hp => by rw [e] at hp; cases hp) (fun ht => by rw [e] at ht; cases ht)
      fun p t hd => by rw [e] at hd; rcases hd with hd | hd <;> cases hd

/-- `started_ms` is set, before the loop or after a poll. -/
theorem clocked_stamp {s : Timed} (h : Clocked s) (he : s.enabled .stamp) : Clocked s.stamp := by
  have haway : ∀ period tested, TestPc.away = .due period tested ∨
      TestPc.away = .updated period tested → False := fun _ _ hd => by
    rcases hd with hd | hd <;> cases hd
  obtain ⟨r, timer, pc⟩ := s
  cases pc with
  | entered =>
    have hnone : timer.firings = [] := h.unset (.inr rfl)
    exact ⟨Timer.ok_start hnone, fun _ => hnone, fun ht => (by cases ht),
      fun p t hd => (haway p t hd).elim⟩
  | updated period tested =>
    obtain ⟨hlt, hle⟩ := h.due period tested (.inr rfl)
    refine ⟨h.ok.fire hlt hle, fun hs => ?_, fun ht => (by cases ht),
      fun p t hd => (haway p t hd).elim⟩
    rcases hs with hs | hs
    · exact absurd hs (h.running rfl)
    · cases hs
  | _ => exact absurd he id

/-- The comparison: a poll that begins is due. -/
theorem clocked_readUptime {s : Timed} (h : Clocked s) (he : s.enabled .readUptime) :
    Clocked s.readUptime := by
  obtain ⟨r, timer, pc⟩ := s
  cases pc with
  | periodRead period =>
    have hrun : ¬ Starting r.loop := h.running rfl
    by_cases hdue : timer.Due period
    · rw [readUptime_due r hdue]
      refine ⟨h.ok.look, fun hs => ?_, fun _ => hrun, fun p t hd => ?_⟩
      · rcases hs with hs | hs
        · exact absurd hs hrun
        · cases hs
      · rcases hd with hd | hd
        · cases hd
          exact ⟨Timer.due_iff.mp hdue, Nat.le_refl _⟩
        · cases hd
    · rw [readUptime_notDue r hdue]
      refine ⟨h.ok.look, fun hs => ?_, fun _ => hrun, fun p t hd => ?_⟩
      · rcases hs with hs | hs
        · exact absurd hs hrun
        · cases hs
      · rcases hd with hd | hd <;> cases hd
  | _ => exact absurd he id

theorem clocked_next {s : Timed} (h : Clocked s) (l : Label) (he : s.enabled l) :
    Clocked (s.next l) := by
  cases l with
  | tick ms =>
    refine ⟨h.ok.advance ms, h.unset, h.running, fun period tested hd => ?_⟩
    obtain ⟨hlt, hle⟩ := h.due period tested hd
    exact ⟨hlt, Nat.le_add_right_of_le hle⟩
  | stamp => exact clocked_stamp h he
  | readPeriod =>
    have hrun : ¬ Starting s.r.loop := by
      rw [he.1]
      rintro (hs | hs) <;> cases hs
    refine ⟨h.ok, fun hs => ?_, fun _ => hrun, fun p t hd => ?_⟩
    · rcases hs with hs | hs
      · exact absurd hs hrun
      · cases hs
    · rcases hd with hd | hd <;> cases hd
  | readUptime => exact clocked_readUptime h he
  | step l => exact clocked_step h he.1 he.2

theorem clocked_reach {D : Timed → Label → Prop} {s : Timed} (h : machine.Reach D s) :
    Clocked s := by
  refine h.inv (I := Clocked) ?_ fun s l hI _ he => clocked_next hI l he
  rintro ⟨r, timer, pc⟩ ⟨h0, rfl, rfl⟩
  exact ⟨Timer.ok_init, fun _ => rfl, fun ht => (by cases ht),
    fun p t hd => by rcases hd with hd | hd <;> cases hd⟩

/-- The period in force never goes below `P`. -/
def AtLeast (P : Nat) (s : Timed) (_ : Label) : Prop := P ≤ s.reportPeriod

instance (P : Nat) (s : Timed) (l : Label) : Decidable (AtLeast P s l) :=
  inferInstanceAs (Decidable (_ ≤ _))

/-- The periods that were read, at the test and in the past. -/
structure Slow (P : Nat) (s : Timed) : Prop where
  read : ∀ period, s.pc = .periodRead period → P ≤ period
  busy : ∀ period tested, s.pc = .due period tested ∨ s.pc = .updated period tested → P ≤ period
  past : ∀ p ∈ s.timer.firings, P ≤ p.period

theorem slow_away {P : Nat} {r : Reporting} {timer : Timer} {pc : TestPc}
    (hpast : ∀ p ∈ timer.firings, P ≤ p.period) (hpc : pc = .away ∨ pc = .entered ∨ pc = .notDue) :
    Slow P ⟨r, timer, pc⟩ := by
  refine ⟨fun period hp => ?_, fun period tested hp => ?_, hpast⟩
  · rcases hpc with e | e | e <;> cases e.symm.trans hp
  · rcases hpc with e | e | e <;> rcases hp with hp | hp <;> cases e.symm.trans hp

theorem slow_next {P : Nat} {s : Timed} (h : Slow P s) (l : Label) (hC : AtLeast P s l)
    (he : s.enabled l) : Slow P (s.next l) := by
  cases l with
  | tick ms => exact ⟨h.read, h.busy, h.past⟩
  | stamp =>
    obtain ⟨r, timer, pc⟩ := s
    cases pc with
    | entered => exact slow_away h.past (.inl rfl)
    | updated period tested =>
      refine slow_away (fun p hp => ?_) (.inl rfl)
      rcases List.mem_cons.mp hp with rfl | hp
      · exact h.busy period tested (.inr rfl)
      · exact h.past p hp
    | _ => exact absurd he id
  | readPeriod =>
    refine ⟨fun period hp => ?_, fun period tested hp => ?_, h.past⟩
    · cases hp
      exact hC
    · rcases hp with hp | hp <;> cases hp
  | readUptime =>
    obtain ⟨r, timer, pc⟩ := s
    cases pc with
    | periodRead period =>
      by_cases hdue : timer.Due period
      · rw [next, readUptime_due r hdue]
        refine ⟨fun p hp => (by cases hp), fun p t hp => ?_, h.past⟩
        rcases hp with hp | hp
        · cases hp
          exact h.read period rfl
        · cases hp
      · rw [next, readUptime_notDue r hdue]
        exact slow_away h.past (.inr (.inr rfl))
    | _ => exact absurd he id
  | step l =>
    have hat : At s.pc l := he.2
    rcases goOn_cases hat with e | ⟨-, e⟩ | ⟨period, tested, hpc, e⟩ | ⟨-, e⟩
    · exact ⟨fun p hp => h.read p (e ▸ hp), fun p t hp => h.busy p t (e ▸ hp), h.past⟩
    · exact slow_away h.past (.inr (.inl e))
    · refine ⟨fun p hp => (by cases e.symm.trans hp), fun p t hp => ?_, h.past⟩
      rcases hp with hp | hp
      · cases e.symm.trans hp
      · cases e.symm.trans hp
        exact h.busy period tested (.inl hpc)
    · exact slow_away h.past (.inl e)

theorem slow_reach {P : Nat} {s : Timed} (h : machine.Reach (AtLeast P) s) : Slow P s := by
  refine h.inv (I := Slow P) ?_ fun s l hI hC he => slow_next hI l hC he
  rintro ⟨r, timer, pc⟩ ⟨h0, rfl, rfl⟩
  exact slow_away (fun p hp => by cases hp) (.inl rfl)

/-- **The clients are not polled too often.** While the period in force is at least
    `P`, `n` polls take more than `n` times `P`, and in any window of `w` milliseconds
    there are at most `w / (P + 1) + 1` of them. -/
theorem polls_spaced {P : Nat} {s : Timed} (h : machine.Reach (AtLeast P) s) (lo w : Nat) :
    s.timer.begun + s.timer.firings.length * (P + 1) ≤ s.timer.now ∧
      (s.timer.firedIn lo w).length ≤ w / (P + 1) + 1 :=
  ⟨(clocked_reach h).ok.count (slow_reach h).past,
    (clocked_reach h).ok.window (slow_reach h).past lo w⟩

/-- The start, and the first poll `ms` later. -/
def firstPoll (ms : Nat) (ans : IOTService.Answers) : List Label :=
  [.step (.setupShadow 0), .step .preShadow, .stamp, .step .yieldShadow, .step .yielded, .tick ms,
    .readPeriod, .readUptime, .step (.updateProperties ans), .stamp]

theorem machine_init : machine.init ⟨Reporting.init false, .init, .away⟩ :=
  ⟨⟨false, rfl⟩, rfl, rfl⟩

/-- Two polls, each after `ms`; nothing is pushed between them. -/
def twoPolls (ms : Nat) (ans : IOTService.Answers) : List Label :=
  firstPoll ms ans ++ [.step .readFlag, .step .readForce, .step .yieldShadow, .step .yielded,
    .tick ms, .readPeriod, .readUptime, .step (.updateProperties ans), .stamp]

/-- `polls_spaced` after two polls, in a window that has both. -/
theorem polls_spaced_twice : ∃ s : Timed, s.timer.firings.length = 2 ∧
    (s.timer.firedIn 20001 20001).length = 2 ∧
      s.timer.begun + 2 * (20000 + 1) ≤ s.timer.now ∧
        (s.timer.firedIn 20001 20001).length ≤ 20001 / (20000 + 1) + 1 := by
  have hrun : ((machine.run (AtLeast 20000) ⟨Reporting.init false, .init, .away⟩
      (twoPolls 20001 fun _ _ => none)).map fun s =>
        (s.timer.firings.length, (s.timer.firedIn 20001 20001).length)) = some (2, 2) := by
    decide
  obtain ⟨s, hs, hlen⟩ := Machine.exists_of_run machine_init hrun
  obtain ⟨hfired, hin⟩ := Prod.mk.inj hlen
  have h := polls_spaced hs 20001 20001
  rw [hfired] at h
  exact ⟨s, hfired, hin, h⟩

/-! ## 3. Not too late -/

/-- Before the loop, or in the poll. -/
def Busy (s : Timed) : Prop := Starting s.r.loop ∨ s.pc.busy = true

instance (s : Timed) : Decidable s.Busy := inferInstanceAs (Decidable (_ ∨ _))

/-- **The condition on one step**: the period in force is at most `P`, and outside
    of a poll the thread comes back to the test within `D`. -/
def InRounds (P D : Nat) (s : Timed) : Label → Prop
  | .tick ms => s.reportPeriod ≤ P ∧ (¬ s.Busy → s.timer.now + ms ≤ s.timer.looked + D)
  | _ => s.reportPeriod ≤ P

instance (P D : Nat) (s : Timed) : DecidablePred (InRounds P D s)
  | .tick _ => inferInstanceAs (Decidable (_ ∧ (¬ s.Busy → _)))
  | .stamp | .readPeriod | .readUptime | .step _ => inferInstanceAs (Decidable (_ ≤ _))

/-- **Where no round is long**: the last look was in time, and so is each poll. -/
structure Prompted (P D : Nat) (s : Timed) : Prop where
  read : ∀ period, s.pc = .periodRead period → period ≤ P
  due : ∀ period tested, s.pc = .due period tested ∨ s.pc = .updated period tested →
    tested ≤ s.timer.since + P + D
  punctual : Timer.Punctual (P + D) s.timer.begun s.timer.firings
  looked : ¬ s.Busy → s.timer.looked ≤ s.timer.since + P ∧ s.timer.now ≤ s.timer.looked + D

theorem InRounds.period {P D : Nat} {s : Timed} {l : Label} (h : InRounds P D s l) :
    s.reportPeriod ≤ P := by
  cases l with
  | tick ms => exact h.1
  | _ => exact h

theorem prompted_stamp {P D : Nat} {s : Timed} (hK : Clocked s) (h : Prompted P D s)
    (he : s.enabled .stamp) : Prompted P D s.stamp := by
  obtain ⟨r, timer, pc⟩ := s
  cases pc with
  | entered =>
    have hnone : timer.firings = [] := hK.unset (.inr rfl)
    have hprompt : timer.start.Prompt P D := Timer.prompt_start hnone
    exact ⟨fun p hp => (by cases hp), fun p t hp => (by rcases hp with hp | hp <;> cases hp),
      hprompt.punctual, fun _ => ⟨hprompt.looked, Nat.le_add_right _ _⟩⟩
  | updated period tested =>
    have hprompt : (timer.fire period tested).Prompt P D :=
      Timer.Prompt.fire h.punctual hK.ok.begun (h.due period tested (.inr rfl)) period
    exact ⟨fun p hp => (by cases hp), fun p t hp => (by rcases hp with hp | hp <;> cases hp),
      hprompt.punctual, fun _ => ⟨hprompt.looked, Nat.le_add_right _ _⟩⟩
  | _ => exact absurd he id

theorem prompted_readUptime {P D : Nat} {s : Timed} (hK : Clocked s) (h : Prompted P D s)
    (he : s.enabled .readUptime) : Prompted P D s.readUptime := by
  obtain ⟨r, timer, pc⟩ := s
  cases pc with
  | periodRead period =>
    have hidle : ¬ Busy ⟨r, timer, .periodRead period⟩ := by
      rintro (hs | hs)
      · exact hK.running rfl hs
      · cases hs
    obtain ⟨hlooked, hnow⟩ := h.looked hidle
    by_cases hdue : timer.Due period
    · rw [readUptime_due r hdue]
      refine ⟨fun p hp => (by cases hp), fun p t hp => ?_, h.punctual, fun hb => ?_⟩
      · rcases hp with hp | hp
        · cases hp
          show timer.now ≤ timer.since + P + D
          have hl : timer.looked ≤ timer.since + P := hlooked
          have hn : timer.now ≤ timer.looked + D := hnow
          omega
        · cases hp
      · exact absurd (.inr rfl) hb
    · rw [readUptime_notDue r hdue]
      have hprompt : timer.look.Prompt P D :=
        Timer.Prompt.look ⟨hlooked, h.punctual⟩ (h.read period rfl) hdue
      exact ⟨fun p hp => (by cases hp), fun p t hp => (by rcases hp with hp | hp <;> cases hp),
        hprompt.punctual, fun _ => ⟨hprompt.looked, Nat.le_add_right _ _⟩⟩
  | _ => exact absurd he id

/-- A step of `Reporting` makes the thread idle only where it was. -/
theorem busy_next {s : Timed} {l : Reporting.Label} (he : s.r.enabled l)
    (hat : At s.pc l) (h : s.Busy) : (s.next (.step l)).Busy := by
  rcases h with hs | hb
  · by_cases hl : l = .preShadow
    · subst hl
      exact .inr rfl
    · exact .inl ((starting_next he).mpr ⟨hs, hl⟩)
  · refine .inr ?_
    show (goOn s.pc l).busy = true
    rcases goOn_cases hat with e | ⟨-, e⟩ | ⟨period, tested, -, e⟩ | ⟨hpc, -⟩
    · rw [e]
      exact hb
    · rw [e]
      rfl
    · rw [e]
      rfl
    · rw [hpc] at hb
      cases hb

theorem prompted_next {P D : Nat} {s : Timed} (hK : Clocked s) (h : Prompted P D s) (l : Label)
    (hC : InRounds P D s l) (he : s.enabled l) : Prompted P D (s.next l) := by
  cases l with
  | tick ms =>
    refine ⟨h.read, h.due, h.punctual, fun hb => ⟨(h.looked hb).1, ?_⟩⟩
    exact hC.2 hb
  | stamp => exact prompted_stamp hK h he
  | readPeriod =>
    have hidle : ¬ s.Busy := by
      rintro (hs | hs)
      · rw [he.1] at hs
        rcases hs with hs | hs <;> cases hs
      · rw [he.2] at hs
        cases hs
    refine ⟨fun period hp => ?_, fun p t hp => ?_, h.punctual, fun _ => h.looked hidle⟩
    · cases hp
      exact hC
    · rcases hp with hp | hp <;> cases hp
  | readUptime => exact prompted_readUptime hK h he
  | step l =>
    have hlooked : ¬ (s.next (.step l)).Busy →
        s.timer.looked ≤ s.timer.since + P ∧ s.timer.now ≤ s.timer.looked + D :=
      fun hb => h.looked fun hb' => hb (busy_next he.1 he.2 hb')
    have hat : At s.pc l := he.2
    rcases goOn_cases hat with e | ⟨-, e⟩ | ⟨period, tested, hpc, e⟩ | ⟨-, e⟩
    · exact ⟨fun p hp => h.read p (e ▸ hp), fun p t hp => h.due p t (e ▸ hp), h.punctual, hlooked⟩
    · exact ⟨fun p hp => (by cases e.symm.trans hp),
        fun p t hp => (by rcases hp with hp | hp <;> cases e.symm.trans hp), h.punctual, hlooked⟩
    · refine ⟨fun p hp => (by cases e.symm.trans hp), fun p t hp => ?_, h.punctual, hlooked⟩
      rcases hp with hp | hp
      · cases e.symm.trans hp
      · cases e.symm.trans hp
        exact h.due period tested (.inl hpc)
    · exact ⟨fun p hp => (by cases e.symm.trans hp),
        fun p t hp => (by rcases hp with hp | hp <;> cases e.symm.trans hp), h.punctual, hlooked⟩

theorem prompted_reach {P D : Nat} {s : Timed} (h : machine.Reach (InRounds P D) s) :
    Prompted P D s := by
  refine h.inv_of (I := Prompted P D) (J := Clocked) (fun s hs => clocked_reach hs) ?_
    fun s l hK hI hC he => prompted_next hK hI l hC he
  rintro ⟨r, timer, pc⟩ ⟨⟨reportFlag, rfl⟩, rfl, rfl⟩
  refine ⟨fun p hp => (by cases hp), fun p t hp => (by rcases hp with hp | hp <;> cases hp), trivial,
    fun hb => ?_⟩
  exact absurd (.inl (.inl rfl)) hb

/-- **The clients are polled in time.** While the period in force is at most `P` and
    the thread comes back to the test within `D`, every poll begins at most `P + D`
    after `started_ms` was set, and no more time has passed where none is going on. -/
theorem polls_prompt {P D : Nat} {s : Timed} (h : machine.Reach (InRounds P D) s) :
    Timer.Punctual (P + D) s.timer.begun s.timer.firings ∧
      (¬ s.Busy → s.timer.now ≤ s.timer.since + (P + D)) := by
  have hP := prompted_reach h
  refine ⟨hP.punctual, fun hb => ?_⟩
  obtain ⟨hlooked, hnow⟩ := hP.looked hb
  omega

/-- `polls_prompt` after the first poll. -/
theorem polls_prompt_once : ∃ s : Timed, s.timer.firings = [⟨20000, 20001, 20001⟩] ∧
    Timer.Punctual (20000 + 25000) s.timer.begun s.timer.firings ∧
      s.timer.now ≤ s.timer.since + (20000 + 25000) := by
  have hrun : ((machine.run (InRounds 20000 25000) ⟨Reporting.init false, .init, .away⟩
      (firstPoll 20001 fun _ _ => none)).map fun s =>
        decide (¬ s.Busy ∧ s.timer.firings = [⟨20000, 20001, 20001⟩])) = some true := by
    decide
  obtain ⟨s, hs, hb⟩ := Machine.exists_of_run machine_init hrun
  obtain ⟨hidle, hfirings⟩ := of_decide_eq_true hb
  exact ⟨s, hfirings, (polls_prompt hs).1, (polls_prompt hs).2 hidle⟩

/-! ## 4. A period below zero -/

end Timed

namespace Reporting

open DeviceShadow

/-- **Only its callback changes the period.** -/
theorem period_next {r : Reporting} {l : Label} (h : ∀ x, l ≠ .reportPeriod x) :
    (r.next l).d.m_reportPeriod = r.d.m_reportPeriod := by
  cases l with
  | preShadow => rw [next, registerAll_eq]
  | write n key val =>
    show (r.d.reportLocked (cstr key) val).2.m_reportPeriod = _
    unfold reportLocked
    split
    · rfl
    · split <;> rfl
  | finish n k payload ret =>
    show (if ret = 0 then r.d.setReport k false else r.d).m_reportPeriod = _
    split <;> rfl
  | setProperty x k data =>
    simp only [next]
    cases (sdkStore r.d k data).m_iotAttrs[k]? with
    | none => rfl
    | some a =>
      show ((sdkStore r.d k data).callDefaultPropertyCb a.attr).2.m_reportPeriod = _
      unfold callDefaultPropertyCb
      split <;> rfl
  | setPeriod x data => rw [next, setHalf_d]; rfl
  | reportPeriod x => exact absurd rfl (h x)
  | addProperty name type size mem =>
    rcases r.d.doAddProperty_cases name type size mem with ⟨reg, e⟩ | ⟨a, reg, e, -, -⟩
    · rw [next, e]
    · rw [next, e]
  | _ => rfl

end Reporting

namespace Timed

/-- The callback of the period, on whichever thread it runs. -/
def SetsPeriod : Label → Prop
  | .step (.reportPeriod _) => True
  | _ => False

instance : DecidablePred SetsPeriod
  | .step (.reportPeriod _) => .isTrue trivial
  | .tick _ | .stamp | .readPeriod | .readUptime => .isFalse id
  | .step (.setupShadow _) | .step .preShadow | .step .yieldShadow | .step .yielded
  | .step (.updateProperties _) | .step .notDue | .step .readFlag | .step .readForce
  | .step (.pass _) | .step (.push _ _ _) | .step .clearFlag | .step .clearForce
  | .step (.write _ _ _) | .step (.setFlag _ _) | .step (.format _ _ _)
  | .step (.pushCall _ _ _ _ _) | .step (.finish _ _ _ _) | .step (.setProperty _ _ _)
  | .step (.setPeriod _ _) | .step (.service _) | .step (.addProperty _ _ _ _) => .isFalse id

/-- No other step changes the period. -/
theorem period_next {s : Timed} {l : Label} (h : ¬ SetsPeriod l) :
    (s.next l).reportPeriod = s.reportPeriod := by
  cases l with
  | tick ms => rfl
  | stamp => rw [reportPeriod, next, stamp_r]; rfl
  | readPeriod => rfl
  | readUptime => rw [reportPeriod, next, readUptime_r]; rfl
  | step l =>
    show ((s.r.next l).d.m_reportPeriod).toNat = _
    rw [Reporting.period_next fun x hx => h (by rw [hx]; trivial)]
    rfl

/-- **Since a state in which the thread was away from the test**: nothing has been
    polled, or more than `P` has passed since `started_ms` was set then. -/
structure Paused (P : Nat) (s t : Timed) : Prop where
  firings : t.timer.firings = s.timer.firings
  since : s.timer.since ≤ t.timer.since ∧ t.timer.since ≤ t.timer.now
  read : ∀ period, t.pc = .periodRead period → P ≤ period
  idle : t.pc.busy = true → t.pc = .entered

theorem paused_next {P : Nat} {s t : Timed} (h : Paused P s t) (l : Label) (hC : AtLeast P t l)
    (he : t.enabled l) : Paused P s (t.next l) ∨ s.timer.since + P < t.timer.now := by
  cases l with
  | tick ms =>
    exact .inl ⟨h.firings, ⟨h.since.1, Nat.le_add_right_of_le h.since.2⟩, h.read, h.idle⟩
  | stamp =>
    obtain ⟨r, timer, pc⟩ := t
    cases pc with
    | entered =>
      exact .inl ⟨h.firings, ⟨Nat.le_trans h.since.1 h.since.2, Nat.le_refl _⟩,
        fun p hp => (by cases hp), fun hb => by cases hb⟩
    | updated period tested => cases h.idle rfl
    | _ => exact absurd he id
  | readPeriod =>
    refine .inl ⟨h.firings, h.since, fun period hp => ?_, fun hb => by cases hb⟩
    cases hp
    exact hC
  | readUptime =>
    obtain ⟨r, timer, pc⟩ := t
    cases pc with
    | periodRead period =>
      by_cases hdue : timer.Due period
      · have hlt : timer.since + period < timer.now := Timer.due_iff.mp hdue
        have hP : P ≤ period := h.read period rfl
        have hsince : s.timer.since ≤ timer.since := h.since.1
        exact .inr (by show _ < timer.now; omega)
      · rw [next, readUptime_notDue r hdue]
        exact .inl ⟨h.firings, h.since, fun p hp => (by cases hp), fun hb => by cases hb⟩
    | _ => exact absurd he id
  | step l =>
    have hat : At t.pc l := he.2
    rcases goOn_cases hat with e | ⟨-, e⟩ | ⟨period, tested, hpc, -⟩ | ⟨-, e⟩
    · exact .inl ⟨h.firings, h.since, fun p hp => h.read p (e ▸ hp), fun hb => by
        rw [show (t.next (.step l)).pc = t.pc from e] at hb ⊢
        exact h.idle hb⟩
    · exact .inl ⟨h.firings, h.since, fun p hp => (by cases e.symm.trans hp), fun _ => e⟩
    · have hidle := h.idle (by rw [hpc]; rfl)
      rw [hpc] at hidle
      cases hidle
    · exact .inl ⟨h.firings, h.since, fun p hp => (by cases e.symm.trans hp), fun hb => by
        rw [show (t.next (.step l)).pc = .away from e] at hb
        cases hb⟩

/-- Time does not go back. -/
theorem now_le_next (t : Timed) (l : Label) : t.timer.now ≤ (t.next l).timer.now := by
  cases l with
  | tick ms => exact Nat.le_add_right _ _
  | stamp =>
    show _ ≤ t.stamp.timer.now
    unfold stamp
    split <;> exact Nat.le_refl _
  | readUptime =>
    show _ ≤ t.readUptime.timer.now
    unfold readUptime
    split <;> exact Nat.le_refl _
  | _ => exact Nat.le_refl _

/-- While the period in force is at least `P` there is no poll until more than `P`
    has passed. -/
theorem paused_after {P : Nat} {s t : Timed} (hs : Clocked s) (hpc : s.pc = .away)
    (h : (machine.after s).Reach (AtLeast P) t) (ht : t.timer.now ≤ s.timer.since + P) :
    t.timer.firings = s.timer.firings := by
  have hor : Paused P s t ∨ s.timer.since + P < t.timer.now := by
    refine h.inv (I := fun t => Paused P s t ∨ s.timer.since + P < t.timer.now) ?_
      fun t l hI hC he => ?_
    · rintro t rfl
      exact .inl ⟨rfl, ⟨Nat.le_refl _, Nat.le_trans hs.ok.since hs.ok.now⟩,
        fun p hp => (by cases hpc.symm.trans hp), fun hb => by rw [hpc] at hb; cases hb⟩
    · rcases hI with hI | hlate
      · have hle := now_le_next t l
        exact (paused_next hI l hC he).imp_right fun hlt => Nat.lt_of_lt_of_le hlt hle
      · exact .inr (Nat.lt_of_lt_of_le hlate (now_le_next t l))
  rcases hor with hp | hlate
  · exact hp.firings
  · omega

/-- What the callback of the period leaves in force. -/
theorem period_set {s : Timed} {x : Ctx} {a : DSAttr}
    (ha : s.r.d.m_iotAttrs[LOCAL_ATTR_REPROT_PERIOD]? = some a) :
    (s.next (.step (.reportPeriod x))).reportPeriod = (loadInt32 a.attr.pattr_data).toNat := by
  have hd : (s.r.next (.reportPeriod x)).d =
      s.r.d.updateReportReriod (loadInt32 a.attr.pattr_data) := by
    simp only [Reporting.next, ha]
    exact Reporting.setHalf_d _ false x
  rw [reportPeriod, next, hd, DeviceShadow.updateReportReriod,
    if_pos (DeviceShadow.mem_of_get ha)]

/-- **A period below zero stops the polling.** The callback assigns it to an unsigned
    number: where the thread is away from the lines of the test, no client is polled until
    2^31 ms after the last `started_ms`, as long as no other period is set. -/
theorem silent_below_zero {s t : Timed} (hs : machine.Reachable s) (hpc : s.pc = .away) {x : Ctx}
    (he : s.enabled (.step (.reportPeriod x))) {a : DSAttr}
    (ha : s.r.d.m_iotAttrs[LOCAL_ATTR_REPROT_PERIOD]? = some a)
    (hneg : (loadInt32 a.attr.pattr_data).toInt < 0)
    (h : (machine.after (s.next (.step (.reportPeriod x)))).Reach (fun _ l => ¬ SetsPeriod l) t)
    (ht : t.timer.now ≤ s.timer.since + 2 ^ 31) : t.timer.firings = s.timer.firings := by
  have hbig : 2 ^ 31 ≤ (s.next (.step (.reportPeriod x))).reportPeriod := by
    rw [period_set ha]
    have hlt := (loadInt32 a.attr.pattr_data).isLt
    rw [BitVec.toInt_eq_toNat_cond] at hneg
    split at hneg <;> omega
  have hkeep : (machine.after (s.next (.step (.reportPeriod x)))).Reach (AtLeast (2 ^ 31)) t :=
    h.mono_of (J := fun t => 2 ^ 31 ≤ t.reportPeriod)
      (fun t ht => ht.inv (I := fun t => 2 ^ 31 ≤ t.reportPeriod) (fun t h0 => h0 ▸ hbig)
        fun t l hI hC _ => (period_next hC).symm ▸ hI)
      fun t l hJ _ => hJ
  have hs' : machine.Reachable (s.next (.step (.reportPeriod x))) :=
    Machine.Reach.step (M := machine) s (.step (.reportPeriod x)) hs trivial he
  exact paused_after (s := s.next (.step (.reportPeriod x))) (clocked_reach hs') hpc hkeep ht

/-- The cloud sets the period in the first yield, up to its callback. -/
def setsPeriod (data : Bytes) : List Label :=
  [.step (.setupShadow 0), .step .preShadow, .stamp, .step .yieldShadow,
    .step (.setPeriod .loop data)]

/-- Back to the test, which is read `ms` later. -/
def rounds (ms : Nat) : List Label := [.step .yielded, .tick ms, .readPeriod, .readUptime]

/-- `silent_below_zero` for the period -1, at the last moment. -/
theorem silent_below_zero_last : ∃ s t : Timed, t.timer.now = s.timer.since + 2 ^ 31 ∧
    t.timer.firings = s.timer.firings := by
  have hrun : ((machine.run (fun _ _ => True) ⟨Reporting.init false, .init, .away⟩
      (setsPeriod [255, 255, 255, 255])).bind fun s =>
        (((machine.after (s.next (.step (.reportPeriod .loop)))).run (fun _ l => ¬ SetsPeriod l)
          (s.next (.step (.reportPeriod .loop))) (rounds (2 ^ 31))).map fun t =>
            decide (s.pc = .away ∧ s.enabled (.step (.reportPeriod .loop)) ∧
              (∃ a ∈ s.r.d.m_iotAttrs[LOCAL_ATTR_REPROT_PERIOD]?,
                (loadInt32 a.attr.pattr_data).toInt < 0) ∧
              t.timer.now = s.timer.since + 2 ^ 31))) = some true := by decide
  obtain ⟨s, hs, hrun⟩ := Option.bind_eq_some_iff.mp hrun
  obtain ⟨t, ht, hb⟩ := Option.map_eq_some_iff.mp hrun
  obtain ⟨hpc, he, ⟨a, ha, hneg⟩, hnow⟩ := of_decide_eq_true hb
  exact ⟨s, t, hnow, silent_below_zero (Machine.reach_of_run machine_init hs) hpc he ha hneg
    (Machine.reach_of_run rfl ht) (Nat.le_of_eq hnow)⟩

end Timed

end IotWrap
