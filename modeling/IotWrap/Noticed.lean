/-
  File:      IotWrap/Noticed.lean
  Subject:   Whether the shadow thread notices what is pending.

  `pushProperties` clears `m_reportFlag` and `g_forceReport` after its push,
  whatever was raised since its pass over the table. `RaisedOutside` is the
  condition on a step that keeps what is raised out of that window.

  The invariant `Noted` says who answers for a raised report flag: a call that
  has yet to set `m_reportFlag`, or the global flags, as far as the thread will
  not clear them before it looks at them.

  * `noted_next`: a step that raises outside keeps `Noted`;
  * `noticed_outside`: at the loop head everything pending will be noticed;
  * `report_unnoticed`: a call during the push, whose own push fails.
-/
import IotWrap.Report

namespace IotWrap

open Lib

namespace Reporting

open DeviceShadow

/-! ## 1. The window -/

/-- Between the pass over the table and `m_reportFlag = false`. -/
def BeforeFlagClear : LoopPc → Prop
  | .pushing _ _ | .pushed => True
  | _ => False

/-- Between the pass over the table and `g_forceReport = false`. -/
def InWindow : LoopPc → Prop
  | .pushing _ _ | .pushed | .flagCleared => True
  | _ => False

instance : DecidablePred BeforeFlagClear
  | .pushing _ _ | .pushed => .isTrue trivial
  | .setupShadow | .preShadow | .head | .yielding _ | .yielded | .toPush | .flagRead | .go
  | .flagCleared => .isFalse id

instance : DecidablePred InWindow
  | .pushing _ _ | .pushed | .flagCleared => .isTrue trivial
  | .setupShadow | .preShadow | .head | .yielding _ | .yielded | .toPush | .flagRead | .go =>
    .isFalse id

/-- **The condition on one step**: nothing is raised between the pass over the
    table and the clearing of the flag that is raised. The pass is one step: a callback
    that comes while the source is in the loop belongs to the window, which begins for
    an attribute when the loop visits it. A period callback may also not raise its
    attribute's flag after `g_forceReport` was cleared again. -/
def RaisedOutside (s : Reporting) : Label → Prop
  | .setFlag _ k => s.d.report k = true → ¬ BeforeFlagClear s.loop
  | .setProperty _ _ _ | .setPeriod _ _ => ¬ InWindow s.loop
  | .reportPeriod _ =>
    ¬ InWindow s.loop ∧ (s.d.m_reportFlag = true ∨ s.d.g_forceReport = true)
  | _ => True

instance (s : Reporting) : DecidablePred (RaisedOutside s)
  | .setFlag _ k => inferInstanceAs (Decidable (s.d.report k = true → ¬ BeforeFlagClear s.loop))
  | .setProperty _ _ _ | .setPeriod _ _ => inferInstanceAs (Decidable (¬ InWindow s.loop))
  | .reportPeriod _ => inferInstanceAs (Decidable (¬ InWindow s.loop ∧ (_ ∨ _)))
  | .setupShadow _ | .preShadow | .yieldShadow | .yielded | .updateProperties _ | .notDue
  | .readFlag | .readForce | .pass _ | .push _ _ _ | .clearFlag | .clearForce | .write _ _ _
  | .format _ _ _ | .pushCall _ _ _ _ _ | .finish _ _ _ _ | .service _
  | .addProperty _ _ _ _ => .isTrue trivial

/-! ## 2. The invariant -/

/-- A call on the name has yet to set `m_reportFlag`. -/
def Owed (s : Reporting) (k : String8) : Prop := ∃ n, s.call n = .written k

/-- The flags that the shadow thread will find set at its next `pushProperties`. -/
def WillNotice (s : Reporting) : Prop :=
  match s.loop with
  | .pushing _ _ | .pushed => False
  | .flagCleared => s.d.m_reportFlag = true
  | _ => s.d.m_reportFlag = true ∨ s.d.g_forceReport = true

/-- **Who answers for what is pending.** -/
structure Noted (s : Reporting) : Prop where
  pending : ∀ k, s.d.report k = true → s.Owed k ∨ s.WillNotice
  raised : s.raised = true → ¬ InWindow s.loop ∧ s.d.g_forceReport = true

theorem willNotice_outside {s : Reporting} (h : ¬ InWindow s.loop) :
    s.WillNotice ↔ s.d.m_reportFlag = true ∨ s.d.g_forceReport = true := by
  unfold WillNotice
  cases hl : s.loop with
  | pushing payload half => exact absurd (by rw [hl]; trivial) h
  | pushed => exact absurd (by rw [hl]; trivial) h
  | flagCleared => exact absurd (by rw [hl]; trivial) h
  | _ => exact Iff.rfl

theorem noted_init (reportFlag : Bool) : Noted (init reportFlag) where
  pending k h := by
    rw [show (init reportFlag).d.report k = false from report_init reportFlag k] at h
    cases h
  raised h := by cases h

/-- **Nothing new is pending**, and whoever answered still does. -/
theorem Noted.step {s s' : Reporting} (h : Noted s)
    (hrep : ∀ k, s'.d.report k = true → s.d.report k = true)
    (howed : ∀ k, s'.d.report k = true → s.Owed k → s'.Owed k ∨ s'.WillNotice)
    (hwill : s.WillNotice → s'.WillNotice) (hraised : s'.raised = true → s.raised = true)
    (hforce : ¬ InWindow s.loop → s.d.g_forceReport = true →
      ¬ InWindow s'.loop ∧ s'.d.g_forceReport = true) : Noted s' where
  pending k hk := by
    rcases h.pending k (hrep k hk) with ho | hw
    · exact howed k hk ho
    · exact .inr (hwill hw)
  raised hr := by
    obtain ⟨hout, hf⟩ := h.raised (hraised hr)
    exact hforce hout hf

/-- A step of the shadow thread outside of the window. -/
theorem Noted.loop_step {s s' : Reporting} (h : Noted s)
    (hrep : ∀ k, s'.d.report k = s.d.report k) (hcall : s'.call = s.call)
    (hr : s'.raised = s.raised) (hf : s'.d.m_reportFlag = s.d.m_reportFlag)
    (hg : s'.d.g_forceReport = s.d.g_forceReport) (hout : ¬ InWindow s.loop)
    (hout' : ¬ InWindow s'.loop) : Noted s' := by
  refine h.step (fun k hk => (hrep k).symm.trans hk) (fun k _ ho => .inl ?_) (fun hw => ?_)
    (fun hr' => hr.symm.trans hr') fun _ hg' => ⟨hout', hg.trans hg'⟩
  · obtain ⟨n, hn⟩ := ho
    exact ⟨n, hcall ▸ hn⟩
  · rw [willNotice_outside hout', hf, hg]
    exact (willNotice_outside hout).mp hw

/-- A callback outside of the window: `g_forceReport` is set, and answers for all. -/
theorem Noted.forced {s' : Reporting} (hout : ¬ InWindow s'.loop)
    (hg : s'.d.g_forceReport = true) : Noted s' where
  pending _ _ := .inr ((willNotice_outside hout).mpr (.inr hg))
  raised _ := ⟨hout, hg⟩

/-- What `updateProperties` raises it also flags. -/
theorem report_updateProperties {d : DeviceShadow} {ans : IOTService.Answers} {k : String8}
    (h : (d.updateProperties ans).report k = true) :
    d.report k = true ∨ (d.updateProperties ans).m_reportFlag = true := by
  obtain ⟨a', ha', hr⟩ := report_true.mp h
  rw [updateProperties_get] at ha'
  obtain ⟨a, ha, rfl⟩ := Option.map_eq_some_iff.mp ha'
  rcases updateAttr_cases d.toIOTService ans a with ⟨-, e⟩ | ⟨data, hdata, -⟩
  · rw [e] at hr
    exact .inl (report_true.mpr ⟨a, ha, hr⟩)
  · refine .inr (Bool.or_eq_true_iff.mpr (.inr (List.any_eq_true.mpr ⟨(k, a), ?_, ?_⟩)))
    · exact Std.TreeMap.mem_toList_iff_getElem?_eq_some.mpr ha
    · rw [hdata]
      rfl

theorem inWindow_setHalf (s : Reporting) (half : Bool) (x : Ctx) :
    InWindow (s.setHalf half x).loop ↔ InWindow s.loop := by
  cases x with
  | loop =>
    show InWindow (s.loop.setHalf half) ↔ _
    cases s.loop <;> exact Iff.rfl
  | call n => exact Iff.rfl

theorem Noted.note {s : Reporting} (h : Noted s) : Noted s.note := ⟨h.pending, h.raised⟩

/-- Where a call moves that owes nothing, what is owed stays owed. -/
theorem Owed.goto {s s' : Reporting} {n : Nat} {pc : CallPc} (hcall : s'.call = (s.goto n pc).call)
    (hn : ∀ k, s.call n ≠ .written k) {k : String8} (h : s.Owed k) : s'.Owed k := by
  obtain ⟨m, hm⟩ := h
  have hmn : m ≠ n := fun e => hn k (e ▸ hm)
  refine ⟨m, ?_⟩
  rw [hcall, goto_ne s hmn, hm]

/-- A step of one call that writes no flag of the server. -/
theorem Noted.call_step {s : Reporting} (h : Noted s) {n : Nat}
    (hn : ∀ k, s.call n ≠ .written k) {d : DeviceShadow} (cloud : String8 → Option PropValue)
    (hrep : ∀ k, d.report k = true → s.d.report k = true)
    (hf : d.m_reportFlag = s.d.m_reportFlag) (hg : d.g_forceReport = s.d.g_forceReport)
    (pc : CallPc) : Noted ({ s with d := d, cloud := cloud }.goto n pc) := by
  refine h.step hrep (fun k _ ho => .inl (ho.goto rfl hn)) (fun hw => ?_) id fun hout hg' =>
    ⟨hout, hg.trans hg'⟩
  unfold WillNotice at hw ⊢
  show match s.loop with
    | .pushing _ _ | .pushed => False
    | .flagCleared => d.m_reportFlag = true
    | _ => d.m_reportFlag = true ∨ d.g_forceReport = true
  rw [hf, hg]
  exact hw

/-- **`m_reportFlag = true`**: what the call owed is noticed from now on. -/
theorem Noted.step_setFlag {s : Reporting} (h : Noted s) {n : Nat} {k : String8}
    (hpc : s.call n = .written k) (hC : RaisedOutside s (.setFlag n k)) :
    Noted (s.next (.setFlag n k)) := by
  have hflag : ∀ s' : Reporting, s'.loop = s.loop → s'.d.m_reportFlag = true →
      ¬ BeforeFlagClear s.loop → s'.WillNotice := by
    intro s' hl hf hb
    unfold WillNotice
    rw [hl]
    cases hs : s.loop with
    | pushing payload half => exact absurd (by rw [hs]; trivial) hb
    | pushed => exact absurd (by rw [hs]; trivial) hb
    | flagCleared => exact hf
    | _ => exact .inl hf
  refine h.step (fun _ hk => hk) (fun k' hk ho => ?_) (fun hw => ?_) id fun hout hg => ⟨hout, hg⟩
  · obtain ⟨m, hm⟩ := ho
    by_cases hmn : m = n
    · -- the call that moves: its name may still be pending
      subst hmn
      rw [hpc] at hm
      cases hm
      exact .inr (hflag _ rfl rfl (hC hk))
    · exact .inl ⟨m, (goto_ne _ hmn _).trans hm⟩
  · refine hflag _ rfl rfl fun hb => ?_
    unfold WillNotice at hw
    cases hs : s.loop with
    | pushing payload half => rw [hs] at hw; exact hw
    | pushed => rw [hs] at hw; exact hw
    | _ => rw [hs] at hb; exact hb

/-- Outside of the window a flag that is set answers for all. -/
theorem Noted.flagged {s s' : Reporting} (h : Noted s) (hout : ¬ InWindow s'.loop)
    (hflags : s.d.m_reportFlag = true ∨ s.d.g_forceReport = true)
    (hf : s'.d.m_reportFlag = s.d.m_reportFlag) (hg : s'.d.g_forceReport = s.d.g_forceReport)
    (hr : s'.raised = s.raised) : Noted s' := by
  refine ⟨fun _ _ => .inr ((willNotice_outside hout).mpr ?_), fun hr' => ⟨hout, ?_⟩⟩
  · rw [hf, hg]
    exact hflags
  · exact hg.trans (h.raised (hr.symm.trans hr')).2

theorem raised_setHalf (s : Reporting) (half : Bool) (x : Ctx) :
    (s.setHalf half x).raised = s.raised := by
  cases x <;> rfl

theorem updateReportReriod_flags (d : DeviceShadow) (t : BitVec 32) :
    (d.updateReportReriod t).m_reportFlag = d.m_reportFlag ∧
      (d.updateReportReriod t).g_forceReport = d.g_forceReport := by
  unfold updateReportReriod
  split <;> exact ⟨rfl, rfl⟩

/-- The callback of the period raises a flag of its own attribute. -/
theorem Noted.step_reportPeriod {s : Reporting} (h : Noted s) (x : Ctx)
    (hout : ¬ InWindow s.loop) (hflags : s.d.m_reportFlag = true ∨ s.d.g_forceReport = true) :
    Noted (s.next (.reportPeriod x)) := by
  simp only [next]
  split
  · exact h.flagged (by rw [inWindow_setHalf]; exact hout) hflags (by rw [setHalf_d])
      (by rw [setHalf_d]) (raised_setHalf s false x)
  · refine h.flagged ?_ hflags ?_ ?_ (raised_setHalf _ false x)
    · show ¬ InWindow (setHalf _ false x).loop
      rw [inWindow_setHalf]
      exact hout
    · show (setHalf _ false x).d.m_reportFlag = _
      rw [setHalf_d]
      exact (updateReportReriod_flags s.d _).1
    · show (setHalf _ false x).d.g_forceReport = _
      rw [setHalf_d]
      exact (updateReportReriod_flags s.d _).2

/-- What the update raises it also flags. -/
theorem Noted.step_updateProperties {s : Reporting} (h : Noted s) {ans : IOTService.Answers}
    (hpc : s.loop = .yielded) : Noted (s.next (.updateProperties ans)) := by
  have hout : ¬ InWindow s.loop := by rw [hpc]; exact id
  refine ⟨fun k hk => ?_, fun hr => ⟨id, (h.raised hr).2⟩⟩
  have hwill : (s.d.updateProperties ans).m_reportFlag = true ∨ s.d.g_forceReport = true →
      (s.next (.updateProperties ans)).WillNotice := id
  rcases report_updateProperties hk with hold | hnew
  · rcases h.pending k hold with ho | hw
    · exact .inl ho
    · refine .inr (hwill ?_)
      rcases (willNotice_outside hout).mp hw with hf | hg
      · exact .inl (Bool.or_eq_true_iff.mpr (.inl hf))
      · exact .inr hg
  · exact .inr (hwill (.inl hnew))

/-- **A write of `doReportProperty`**: the flag that goes up is owed by its call. -/
theorem Noted.step_write {s : Reporting} (hE : Entered s.d.m_iotAttrs) (h : Noted s) {n : Nat}
    {key val : String8} (hpc : s.call n = .idle) : Noted (s.next (.write n key val)) := by
  have hn : ∀ k, s.call n ≠ .written k := fun k e => by rw [hpc] at e; cases e
  rcases reportLocked_cases hE (cstr key) val with e | ⟨a, data, ha, e⟩
  · simp only [next, e]
    exact (h.call_step hn s.cloud (fun _ hk => hk) rfl rfl _).note
  · -- the flag that goes up is owed by this call
    have hwill : s.WillNotice → (s.next (.write n key val)).WillNotice := by
      simp only [next, e]
      exact id
    refine ⟨fun k hk => ?_, fun hr => ?_⟩
    · have hd : (s.next (.write n key val)).d.m_iotAttrs =
          s.d.m_iotAttrs.insert (cstr key) ({ a with report := true }.setData data) := by
        simp only [next, e]
        rfl
      have hcall : (s.next (.write n key val)).call = (s.goto n (.written (cstr key))).call := by
        simp only [next, e]
        rfl
      rw [report_insert hd] at hk
      by_cases hkk : cstr key = k
      · exact .inl ⟨n, by rw [hcall, ← hkk, goto_self]⟩
      · rw [if_neg hkk] at hk
        rcases h.pending k hk with ho | hw
        · exact .inl (ho.goto hcall hn)
        · exact .inr (hwill hw)
    · simp only [next, e] at hr ⊢
      exact h.raised hr

/-- **Every step that raises outside keeps the invariant.** -/
theorem noted_next {s : Reporting} (hE : Entered s.d.m_iotAttrs) (h : Noted s) (l : Label)
    (hC : RaisedOutside s l) (he : s.enabled l) : Noted (s.next l) := by
  cases l with
  | setupShadow hd =>
    have hpc : s.loop = .setupShadow := he
    exact h.loop_step (fun _ => rfl) rfl rfl rfl rfl (by rw [hpc]; exact id) id
  | preShadow =>
    have hpc : s.loop = .preShadow := he
    have hreg : (s.next .preShadow).d = s.d.registerAll := rfl
    rw [registerAll_eq] at hreg
    exact h.loop_step (fun k => report_congr (by rw [hreg]) k) rfl rfl (by rw [hreg])
      (by rw [hreg]) (by rw [hpc]; exact id) id
  | yieldShadow =>
    have hpc : s.loop = .head := he
    exact h.loop_step (fun _ => rfl) rfl rfl rfl rfl (by rw [hpc]; exact id) id
  | yielded =>
    have hpc : s.loop = .yielding false := he
    exact h.loop_step (fun _ => rfl) rfl rfl rfl rfl (by rw [hpc]; exact id) id
  | updateProperties ans => exact h.step_updateProperties he
  | notDue =>
    have hpc : s.loop = .yielded := he
    exact h.loop_step (fun _ => rfl) rfl rfl rfl rfl (by rw [hpc]; exact id) id
  | readFlag =>
    have hpc : s.loop = .toPush := he
    exact h.loop_step (fun _ => rfl) rfl rfl rfl rfl (by rw [hpc]; exact id)
      (by rw [next]; split <;> exact id)
  | readForce =>
    have hpc : s.loop = .flagRead := he
    exact h.loop_step (fun _ => rfl) rfl rfl rfl rfl (by rw [hpc]; exact id)
      (by rw [next]; split <;> exact id)
  | pass rc =>
    -- nothing is pending after the pass
    refine ⟨fun k hk => ?_, fun hr => by cases hr⟩
    rw [show (s.next (.pass rc)).d.report k = false from report_passClear s.d k] at hk
    cases hk
  | push payload ret received =>
    have hpc : s.loop = .pushing payload false := he.1
    refine h.step (fun _ hk => hk) (fun _ _ ho => .inl ho) (fun hw => ?_) id fun hout _ => ?_
    · rw [WillNotice, hpc] at hw
      exact hw
    · exact absurd (by rw [hpc]; trivial) hout
  | clearFlag =>
    have hpc : s.loop = .pushed := he
    refine h.step (fun _ hk => hk) (fun _ _ ho => .inl ho) (fun hw => ?_) id fun hout _ => ?_
    · rw [WillNotice, hpc] at hw
      exact absurd hw id
    · exact absurd (by rw [hpc]; trivial) hout
  | clearForce =>
    have hpc : s.loop = .flagCleared := he
    refine h.step (fun _ hk => hk) (fun _ _ ho => .inl ho) (fun hw => ?_) id fun hout _ => ?_
    · rw [WillNotice, hpc] at hw
      exact .inl hw
    · exact absurd (by rw [hpc]; trivial) hout
  | write n key val => exact h.step_write hE he
  | setFlag n k => exact h.step_setFlag he hC
  | format n k rc =>
    have hpc : s.call n = .flagged k := he
    exact h.call_step (fun k e => by rw [hpc] at e; cases e) s.cloud (fun _ hk => hk) rfl rfl _
  | pushCall n k payload ret received =>
    have hpc : s.call n = .pushing k payload false := he.1
    exact h.call_step (fun k e => by rw [hpc] at e; cases e) _ (fun _ hk => hk) rfl rfl _
  | finish n k payload ret =>
    have hpc : s.call n = .pushed k payload ret := he
    have hn : ∀ k, s.call n ≠ .written k := fun k e => by rw [hpc] at e; cases e
    simp only [next]
    split
    · exact h.call_step hn s.cloud (fun k' hk => report_setReport s.d k k' hk) rfl rfl _
    · exact h.call_step hn s.cloud (fun _ hk => hk) rfl rfl _
  | setProperty x k data =>
    simp only [next]
    cases ha : (sdkStore s.d k data).m_iotAttrs[k]? with
    | none => exact h
    | some a =>
      refine Noted.forced hC ?_
      show ((sdkStore s.d k data).callDefaultPropertyCb a.attr).2.g_forceReport = true
      rw [callDefault_eq (entered_sdkStore hE k data) ha]
  | setPeriod x data =>
    refine Noted.forced ?_ ?_
    · show ¬ InWindow (setHalf _ true x).loop
      rw [inWindow_setHalf]
      exact hC
    · rw [next, setHalf_d]
  | reportPeriod x => exact h.step_reportPeriod x hC.1 hC.2
  | service op =>
    exact h.step (fun _ hk => hk) (fun _ _ ho => .inl ho) id id fun hout hg => ⟨hout, hg⟩
  | addProperty name type size mem =>
    simp only [next]
    rcases s.d.doAddProperty_cases name type size mem with ⟨reg, e⟩ | ⟨a, reg, e, -, -⟩
    · rw [e]
      exact h.step (fun _ hk => hk) (fun _ _ ho => .inl ho) id id fun hout hg => ⟨hout, hg⟩
    · rw [e]
      refine h.step (fun k hk => ?_) (fun _ _ ho => .inl ho) id id fun hout hg => ⟨hout, hg⟩
      rw [report_insert (d := s.d) rfl] at hk
      split at hk
      · cases hk
      · exact hk

theorem noted_reach {s : Reporting} (h : machine.Reach RaisedOutside s) : Noted s := by
  refine h.inv_of (I := Noted) (J := fun s => Entered s.d.m_iotAttrs)
    (fun s hs => entered_reach hs) ?_ fun s l hE hI hC he => noted_next hE hI l hC he
  intro s h0
  obtain ⟨reportFlag, rfl⟩ := h0
  exact noted_init reportFlag

/-! ## 3. Everything pending is noticed -/

/-- At the loop head with no call in progress: a raised report flag is noticed,
    and a callback since the last pass has `g_forceReport` set. -/
def Noticed (s : Reporting) : Prop :=
  s.loop = .head → (∀ n, s.call n = .idle) →
    ((∃ k, s.d.report k = true) → s.d.m_reportFlag = true ∨ s.d.g_forceReport = true) ∧
      (s.raised = true → s.d.g_forceReport = true)

/-- **Everything pending is noticed on the runs that raise outside.** -/
theorem noticed_outside {s : Reporting} (h : machine.Reach RaisedOutside s) : Noticed s := by
  intro hhead hidle
  have hN := noted_reach h
  refine ⟨fun ⟨k, hk⟩ => ?_, fun hr => (hN.raised hr).2⟩
  rcases hN.pending k hk with ⟨n, hn⟩ | hw
  · rw [hidle n] at hn
    cases hn
  · exact (willNotice_outside (by rw [hhead]; exact id)).mp hw

/-- One round of the loop in which `v` is pushed; `during` happens in the push. -/
def round (name : String8) (v : Int) (during : List Label) : List Label :=
  [.yieldShadow, .yielded, .notDue, .readFlag, .pass fun _ => 0] ++ during ++
    [.push [(name, .int32 v)] 0 true, .clearFlag, .clearForce]

/-- `noticed_outside` for a call whose push fails after a round: it is retried. -/
theorem noticed_outside_retried : ∃ s, machine.Reach RaisedOutside s ∧
    s.d.report (lit "power") = true ∧ (s.d.m_reportFlag = true ∨ s.d.g_forceReport = true) := by
  have hrun : ((machine.run (fun s l => RaisedOutside s l ∧ Below 1 l) (init false)
      (opens (lit "power") ++ asks 0 (lit "power") (lit "1") ++ lands 0 (lit "power") 1 (-1) ++
        round (lit "power") 1 [] ++
        asks 0 (lit "power") (lit "2") ++ lands 0 (lit "power") 2 (-1))).map
      fun s => decide (IdleBelow 1 s ∧ s.loop = .head ∧ s.d.report (lit "power") = true)) =
      some true := by decide
  have h0 : machine.init (init false) := ⟨false, rfl⟩
  obtain ⟨s, hs, hb⟩ := Machine.exists_of_run h0 hrun
  obtain ⟨hcall, hhead, hrep⟩ := of_decide_eq_true hb
  have hout : machine.Reach RaisedOutside s := hs.mono fun _ _ hC => hC.1
  exact ⟨s, hout, hrep, (noticed_outside hout hhead (idle_of_below hs hcall)).1 ⟨_, hrep⟩⟩

/-- **A report that nobody notices**: the call writes and flags while `pushProperties`
    pushes, and its own push fails. -/
theorem report_unnoticed : ¬ ∀ s, machine.Reachable s → Noticed s := by
  intro hall
  have hrun : ((machine.run (fun _ l => True ∧ Below 1 l) (init false)
      (opens (lit "power") ++ asks 0 (lit "power") (lit "1") ++ lands 0 (lit "power") 1 (-1) ++
        round (lit "power") 1
          (asks 0 (lit "power") (lit "2") ++ lands 0 (lit "power") 2 (-1)))).map
      fun s => decide (IdleBelow 1 s ∧ s.loop = .head ∧ s.d.report (lit "power") = true ∧
        ¬ (s.d.m_reportFlag = true ∨ s.d.g_forceReport = true))) = some true := by decide
  have h0 : machine.init (init false) := ⟨false, rfl⟩
  obtain ⟨s, hs, hb⟩ := Machine.exists_of_run h0 hrun
  obtain ⟨hcall, hhead, hrep, hflags⟩ := of_decide_eq_true hb
  have hidle := idle_of_below (C := fun _ _ => True) hs hcall
  exact hflags ((hall s (hs.mono fun _ _ _ => trivial) hhead hidle).1 ⟨_, hrep⟩)

end Reporting

end IotWrap
