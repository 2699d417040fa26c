/-
  File:      IotWrap/Settled.lean
  Subject:   The cloud against the server's table: what holds when nothing is going
             on, and that one `pushProperties` brings it about.

  `InOrder` keeps payloads from overtaking each other, `RaisedOutside` keeps a report
  out of the window in which the flags are cleared. On the runs that meet both, a
  value that the cloud does not have is one that the shadow thread will push.

  * `settled`: no call, no push and no flag: the cloud has every reported value;
  * `converges`: an undisturbed `pushProperties`, whose Adds and push succeed, leads there.
-/
import IotWrap.Atomic
import IotWrap.Noticed

namespace IotWrap

open Lib

namespace Reporting

open DeviceShadow

/-- **The condition on one step**: in order, and nothing raised in the window. As in
    `InOrder`, the Adds and the push of `pushProperties` return 0, and the cloud calls
    nothing back. -/
def Careful (s : Reporting) (l : Label) : Prop := InOrder s l ∧ RaisedOutside s l

theorem Careful.tracked {s : Reporting} (h : machine.Reach Careful s) : Tracked s :=
  tracked_reach (h.mono fun _ _ hC => hC.1)

theorem Careful.noted {s : Reporting} (h : machine.Reach Careful s) : Noted s :=
  noted_reach (h.mono fun _ _ hC => hC.2)

/-- The cloud has every value that was ever reported. -/
def InSync (s : Reporting) : Prop := ∀ k, s.reported k = true → s.cloud k = s.d.value k

theorem outside_window {pc : LoopPc} (h : OutsidePush pc) : ¬ InWindow pc := by
  cases pc with
  | pushing payload half => exact absurd h id
  | pushed => exact absurd h id
  | flagCleared => exact absurd h id
  | _ => exact id

theorem payload_outside {pc : LoopPc} (h : OutsidePush pc) : pc.payload = [] := by
  cases pc with
  | pushing payload half => exact absurd h id
  | _ => rfl

/-- Where no call is in progress and neither flag is up no report flag is. -/
theorem Noted.report_false {s : Reporting} (h : Noted s) (hq : s.Quiet) (hr : ¬ Raised s.d)
    (k : String8) : s.d.report k = false := by
  refine Bool.eq_false_iff.mpr fun hk => ?_
  rcases h.pending k hk with ⟨n, hn⟩ | hw
  · rw [hq.1 n] at hn
    cases hn
  · exact hr ((willNotice_outside (outside_window hq.2)).mp hw)

/-- Outside of a push the cloud has the values whose flags are down. -/
theorem Tracked.cloud_eq {s : Reporting} (h : Tracked s) (hq : OutsidePush s.loop) {k : String8}
    (hk : s.reported k = true) (hr : s.d.report k = false) : s.cloud k = s.d.value k := by
  obtain ⟨a, ha⟩ : ∃ a, s.d.m_iotAttrs[k]? = some a :=
    Option.isSome_iff_exists.mp (Std.TreeMap.mem_iff_isSome_getElem?.mp (h.known k hk))
  rw [report_of_get ha] at hr
  have hdel := h.delivered k a ha hk hr
  rw [payload_outside hq] at hdel
  rw [hdel.resolve_right List.not_mem_nil, value, ha]
  rfl

/-- What the two invariants give where nothing is going on. -/
theorem inSync_idle {s : Reporting} (hT : Tracked s) (hN : Noted s) (hq : s.Quiet)
    (hr : ¬ Raised s.d) : s.InSync := fun k hk =>
  hT.cloud_eq hq.2 hk (hN.report_false hq hr k)

/-- **Where nothing is going on and no flag is up, the cloud has every reported value**,
    on the runs that are in order and raise outside of the window. -/
theorem settled {s : Reporting} (h : machine.Reach Careful s) (hq : s.Quiet)
    (hr : ¬ Raised s.d) : s.InSync := inSync_idle (Careful.tracked h) (Careful.noted h) hq hr

/-- `InOrder` for one call, and for rounds of the loop without a push. -/
def RoundsInOrder (s : Reporting) : Label → Prop
  | .pass rc => ∀ p ∈ s.d.m_iotAttrs.toList, rc p.1 = 0
  | .yieldShadow | .yielded | .notDue | .readFlag | .readForce | .clearFlag | .clearForce => True
  | l => CallsInOrder 1 s l

instance (s : Reporting) : DecidablePred (RoundsInOrder s)
  | .pass _ => inferInstanceAs (Decidable (∀ p ∈ s.d.m_iotAttrs.toList, _ = _))
  | .yieldShadow | .yielded | .notDue | .readFlag | .readForce | .clearFlag | .clearForce =>
    .isTrue trivial
  | .pushCall n k payload ret half =>
    inferInstanceAs (Decidable (CallsInOrder 1 s (.pushCall n k payload ret half)))
  | .finish n k payload ret =>
    inferInstanceAs (Decidable (CallsInOrder 1 s (.finish n k payload ret)))
  | .setupShadow _ | .preShadow | .addProperty _ _ _ _ | .write _ _ _ | .setFlag _ _
  | .format _ _ _ => .isTrue trivial
  | .updateProperties _ | .push _ _ _ | .setProperty _ _ _ | .setPeriod _ _ | .reportPeriod _
  | .service _ => .isFalse id

theorem inOrder_of_rounds {s : Reporting} {l : Label} (hidle : ∀ n, 1 ≤ n → s.call n = .idle)
    (h : RoundsInOrder s l) : InOrder s l := by
  cases l with
  | pass rc =>
    exact fun k a ha _ => h (k, a) (Std.TreeMap.mem_toList_iff_getElem?_eq_some.mpr ha)
  | yieldShadow => trivial
  | yielded => trivial
  | notDue => trivial
  | readFlag => trivial
  | readForce => trivial
  | clearFlag => trivial
  | clearForce => trivial
  | _ => exact inOrder_of_calls hidle h

/-- A run of one call and of such rounds is careful. -/
theorem careful_of_run {s : Reporting}
    (h : machine.Reach (fun s l => (RoundsInOrder s l ∧ RaisedOutside s l) ∧ Below 1 l) s) :
    machine.Reach Careful s :=
  h.mono_of (J := fun s => ∀ n, 1 ≤ n → s.call n = .idle) (fun _ ht => idle_above ht)
    fun _ _ hJ hC => ⟨inOrder_of_rounds hJ hC.1.1, hC.1.2⟩

/-- `settled` after a call that reports `7` and a round of the loop. -/
theorem settled_seven : ∃ s, machine.Reach Careful s ∧ s.loop = .head ∧
    s.cloud (lit "power") = some (.int32 7) := by
  have hrun : ((machine.run (fun s l => (RoundsInOrder s l ∧ RaisedOutside s l) ∧ Below 1 l)
      (init false) (opens (lit "power") ++ asks 0 (lit "power") (lit "7") ++
        lands 0 (lit "power") 7 0 ++
        [.yieldShadow, .yielded, .notDue, .readFlag, .pass fun _ => 0, .clearFlag, .clearForce])).map
      fun s => decide (IdleBelow 1 s ∧ s.loop = .head ∧ ¬ Raised s.d ∧
        s.reported (lit "power") = true ∧ s.d.value (lit "power") = some (.int32 7))) =
      some true := by decide
  have h0 : machine.init (init false) := ⟨false, rfl⟩
  obtain ⟨s, hs, hb⟩ := Machine.exists_of_run h0 hrun
  obtain ⟨hcall, hhead, hr, hrep, hv⟩ := of_decide_eq_true hb
  have hq : s.Quiet := ⟨idle_of_below hs hcall, by rw [hhead]; trivial⟩
  exact ⟨s, careful_of_run hs, hhead, (settled (careful_of_run hs) hq hr _ hrep).trans hv⟩

/-- An undisturbed push moves no call and notes no report. -/
theorem pushing_reported {s t : Reporting} {rc : String8 → Int} {ret : Int}
    (h : Pushing s rc ret t) : t.reported = s.reported := by
  refine h.inv (I := fun t => t.reported = s.reported) (fun t h0 => by rw [h0]) fun t l hI hC _ => ?_
  cases l with
  | readFlag => exact hI
  | readForce => exact hI
  | pass rc' => exact hI
  | push payload ret' received => exact hI
  | clearFlag => exact hI
  | clearForce => exact hI
  | _ => exact absurd hC id

theorem exists_sent (s : Reporting) (rc : String8 → Int) (ret : Int) :
    ∃ cloud, Sent s rc ret cloud := by
  unfold Sent
  cases s.d.passPayload rc with
  | none => exact ⟨s.cloud, rfl⟩
  | some payload => exact ⟨receive s.cloud payload, .inl rfl⟩

/-- A push that succeeds leaves what `settle` leaves. -/
theorem settle_of_sent {s : Reporting} (hr : Raised s.d) {cloud : String8 → Option PropValue}
    (h : Sent s (fun _ => 0) 0 cloud) : cloud = (Both.settle ⟨s.d, s.cloud⟩).cloud := by
  show cloud = if Raised s.d then _ else _
  rw [if_pos hr]
  unfold Sent at h
  cases hp : s.d.passPayload fun _ => 0 with
  | none =>
    rw [hp] at h
    exact h
  | some payload =>
    rw [hp] at h
    exact h.resolve_right fun hf => hf.1 rfl

/-- After `settle` the cloud has the value of a reported attribute, and the value is
    the one of before. -/
theorem settle_value {s : Reporting} (hE : Entered s.d.m_iotAttrs) (h : Tracked s)
    (hpc : OutsidePush s.loop) (hr : Raised s.d) (k : String8) :
    (s.reported k = true → (Both.settle ⟨s.d, s.cloud⟩).cloud k = s.d.value k) ∧
      (Both.settle ⟨s.d, s.cloud⟩).d.value k = s.d.value k := by
  constructor
  · intro hk
    rw [Both.settle_cloud (b := ⟨s.d, s.cloud⟩) hE hr]
    cases ha : s.d.m_iotAttrs[k]? with
    | none => exact absurd (h.known k hk) (by rw [Std.TreeMap.mem_iff_isSome_getElem?, ha]; decide)
    | some a =>
      show (if s.d.selected a = true then some a.attr.value else s.cloud k) = _
      rw [value, ha]
      by_cases hs : s.d.selected a = true
      · rw [if_pos hs]
        rfl
      · have hrep : s.d.report k = false := by
          rw [report_of_get ha]
          exact Bool.eq_false_iff.mpr fun hup => hs (selected_of_report hup)
        rw [if_neg hs, h.cloud_eq hpc hk hrep, value, ha]
  · rw [value, Both.settle_get (b := ⟨s.d, s.cloud⟩) hr, value]
    cases s.d.m_iotAttrs[k]? with
    | none => rfl
    | some a => rfl

/-- **One `pushProperties` brings the cloud up to date.** From every state of such a run
    in which no call is in progress, an undisturbed `pushProperties` whose Adds and push
    succeed ends, and then the cloud has every reported value of the table. -/
theorem converges {s : Reporting} (h : machine.Reach Careful s) (hpc : s.loop = .toPush)
    (hidle : ∀ n, s.call n = .idle) :
    (∃ t, Pushing s (fun _ => 0) 0 t ∧ t.loop = .head) ∧
      ∀ t, Pushing s (fun _ => 0) 0 t → t.loop = .head → t.InSync ∧
        ∀ k, t.d.value k = s.d.value k := by
  have hout : OutsidePush s.loop := by
    rw [hpc]
    trivial
  have hT := Careful.tracked h
  have hE := entered_reach h
  refine ⟨?_, fun t ht hhead => ?_⟩
  · by_cases hr : Raised s.d
    · obtain ⟨cloud, hc⟩ := exists_sent s (fun _ => 0) 0
      obtain ⟨t, ht, hpushed, -⟩ := pushing_sent hpc hr hc
      exact ⟨_, (ht.next (l := .clearFlag) trivial hpushed).next (l := .clearForce) trivial rfl, rfl⟩
    · exact ⟨_, pushing_skip hpc hr, rfl⟩
  · obtain ⟨hd, hc⟩ : t.d = _ ∧ _ := by
      have hat := pushAt_reach hpc ht
      rw [hhead] at hat
      exact hat
    have hrep := pushing_reported ht
    rcases hc with ⟨hr, hc⟩ | ⟨hr, hc⟩
    · -- nothing was raised, so nothing was missing
      have hf : s.d.m_reportFlag = false := Bool.eq_false_iff.mpr fun h => hr (.inl h)
      have hg : s.d.g_forceReport = false := Bool.eq_false_iff.mpr fun h => hr (.inr h)
      rw [pushProperties_idle hf hg] at hd
      refine ⟨fun k hk => ?_, fun k => by rw [hd]⟩
      rw [hc, hd]
      exact inSync_idle hT (Careful.noted h) ⟨hidle, hout⟩ hr k (hrep ▸ hk)
    · have hcloud := settle_of_sent hr hc
      have hset : t.d = (Both.settle ⟨s.d, s.cloud⟩).d := hd
      have hval : ∀ k, t.d.value k = s.d.value k := fun k => by
        rw [hset]
        exact (settle_value hE hT hout hr k).2
      refine ⟨fun k hk => ?_, hval⟩
      rw [hval, hcloud]
      exact (settle_value hE hT hout hr k).1 (hrep ▸ hk)

/-- `converges` for a call whose own push fails. -/
theorem converges_seven : ∃ t : Reporting, t.loop = .head ∧
    t.cloud (lit "power") = some (.int32 7) := by
  have hrun : ((machine.run (fun s l => (RoundsInOrder s l ∧ RaisedOutside s l) ∧ Below 1 l)
      (init false) (opens (lit "power") ++ asks 0 (lit "power") (lit "7") ++
        lands 0 (lit "power") 7 (-1) ++ [.yieldShadow, .yielded, .notDue])).map
      fun s => decide (IdleBelow 1 s ∧ s.loop = .toPush ∧
        s.reported (lit "power") = true ∧ s.d.value (lit "power") = some (.int32 7))) =
      some true := by decide
  have h0 : machine.init (init false) := ⟨false, rfl⟩
  obtain ⟨s, hs, hb⟩ := Machine.exists_of_run h0 hrun
  obtain ⟨hcall, hpc, hrep, hv⟩ := of_decide_eq_true hb
  obtain ⟨⟨t, ht, hhead⟩, hall⟩ := converges (careful_of_run hs) hpc (idle_of_below hs hcall)
  obtain ⟨hsync, hval⟩ := hall t ht hhead
  refine ⟨t, hhead, ?_⟩
  rw [hsync _ (by rw [pushing_reported ht]; exact hrep), hval, hv]

end Reporting

end IotWrap
