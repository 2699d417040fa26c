/-
  File:      IotWrap/Delivered.lean
  Subject:   What the cloud has, where an attribute's report flag is down.

  Formatting, pushing and `report = 0` are outside of `m_lockAttrs`, so a
  payload may land after a later value has, and a flag may be cleared for a
  value that was never sent. `InOrder` is the condition on a step that excludes
  the two, and with them the Adds of `pushProperties` that fail.

  The invariant `Tracked` speaks of every payload in flight:

  * `confirmed`: a call that is about to clear the flag knows what the cloud has;
  * `delivered`: where the flag is down the cloud has the attribute's value, or
    the payload of `pushProperties` that is in flight carries it.

  * `tracked_next`: a step in order keeps `Tracked`;
  * `delivered_in_order`: no stale and no lost value on the runs in order;
  * `delivered_stale`: two calls for one name, and the older value lands last.
-/
import IotWrap.Report

namespace IotWrap

open Lib
open DeviceShadow (FormatData pushFormatAdd)

/-! ## 1. Payloads -/

/-- The current value of the attribute of a name. -/
def DeviceShadow.value (d : DeviceShadow) (k : String8) : Option PropValue :=
  (d.m_iotAttrs[k]?).map fun a => a.attr.value

/-- A payload has one value for a name. -/
def Single (payload : FormatData) : Prop :=
  ∀ k v w, (k, v) ∈ payload → (k, w) ∈ payload → v = w

theorem single_nil : Single [] := fun _ _ _ h => absurd h List.not_mem_nil

theorem single_add (rc : Int) (a : ShadowAttr) : Single (pushFormatAdd rc [] a) := by
  intro k v w hv hw
  unfold pushFormatAdd at hv hw
  split at hv
  · rw [List.nil_append, List.mem_singleton] at hv
    rename_i hrc
    rw [if_pos hrc, List.nil_append, List.mem_singleton] at hw
    exact (Prod.mk.inj (hv.trans hw.symm)).2
  · cases hv

/-- **The payload of the pass** has one value for a name: its attribute's. -/
theorem value_of_passPayload {d : DeviceShadow} (hd : DeviceShadow.Entered d.m_iotAttrs)
    {rc : String8 → Int} {payload : FormatData} (h : d.passPayload rc = some payload)
    {k : String8} {v : PropValue} (hm : (k, v) ∈ payload) : d.value k = some v := by
  obtain ⟨k', a, ha, -, -, he⟩ := (DeviceShadow.mem_passPayload h (k, v)).mp hm
  obtain ⟨rfl, rfl⟩ := Prod.mk.inj he
  rw [(hd k' a ha).name, DeviceShadow.value, ha]
  rfl

theorem single_passPayload {d : DeviceShadow} (hd : DeviceShadow.Entered d.m_iotAttrs)
    {rc : String8 → Int} {payload : FormatData} (h : d.passPayload rc = some payload) :
    Single payload := by
  intro k v w hv hw
  exact Option.some.inj
    ((value_of_passPayload hd h hv).symm.trans (value_of_passPayload hd h hw))

/-- What a received payload does to one name. -/
theorem receive_cases (cloud : String8 → Option PropValue) (payload : FormatData) (k : String8) :
    (∃ v, (k, v) ∈ payload ∧ receive cloud payload k = some v) ∨
      ((∀ v, (k, v) ∉ payload) ∧ receive cloud payload k = cloud k) := by
  unfold receive
  cases hl : payload.lookup k with
  | some v =>
    obtain ⟨l₁, l₂, he, -⟩ := List.lookup_eq_some_iff.mp hl
    refine .inl ⟨v, ?_, rfl⟩
    rw [he]
    exact List.mem_append_right _ List.mem_cons_self
  | none =>
    refine .inr ⟨fun v hv => ?_, rfl⟩
    have hne := List.lookup_eq_none_iff.mp hl (k, v) hv
    simp at hne

/-- After a payload was received the cloud has what it carries. -/
theorem receive_mem {cloud : String8 → Option PropValue} {payload : FormatData}
    (hp : Single payload) {k : String8} {v : PropValue} (hv : (k, v) ∈ payload) :
    receive cloud payload k = some v := by
  rcases receive_cases cloud payload k with ⟨w, hw, e⟩ | ⟨hn, -⟩
  · rw [e, hp k w v hw hv]
  · exact absurd hv (hn v)

namespace Reporting

open DeviceShadow

/-! ## 2. The runs in order -/

/-- A payload may land: for every attribute it carries, the value is current or
    the flag is up, and no call is about to clear the flag for another value. -/
def Lands (s : Reporting) (payload : FormatData) : Prop :=
  ∀ k v, (k, v) ∈ payload → (s.d.value k = some v ∨ s.d.report k = true) ∧
    ∀ n q, s.call n = .pushed k q 0 → ∀ w, (k, w) ∈ q → w = v

/-- **The condition on one step**: the Adds and the push of `pushProperties`
    return 0; a payload the cloud receives lands; `report = 0` only where the
    payload carried the value the attribute still has. No callback of the cloud. -/
def InOrder (s : Reporting) : Label → Prop
  | .pass rc => ∀ (k : String8) (a : DSAttr), s.d.m_iotAttrs[k]? = some a →
      s.d.selected a = true → rc k = 0
  | .push payload ret _ => ret = 0 ∧ Lands s payload
  | .pushCall _ _ payload _ received => received = true → Lands s payload
  | .finish _ k payload ret => ret = 0 → ∃ v, s.d.value k = some v ∧ (k, v) ∈ payload
  | .setProperty _ _ _ | .setPeriod _ _ | .reportPeriod _ => False
  | _ => True

/-! ## 3. The invariant -/

/-- **What is known of every payload and every flag.** -/
structure Tracked (s : Reporting) : Prop where
  known : ∀ k, s.reported k = true → k ∈ s.d.m_iotAttrs
  loopSingle : Single s.loop.payload
  callSingle : ∀ n k payload half, s.call n = .pushing k payload half → Single payload
  confirmed : ∀ n k payload, s.call n = .pushed k payload 0 →
    ∀ v, (k, v) ∈ payload → s.cloud k = some v
  delivered : ∀ (k : String8) (a : DSAttr), s.d.m_iotAttrs[k]? = some a →
    s.reported k = true → a.report = false →
      s.cloud k = some a.attr.value ∨ (k, a.attr.value) ∈ s.loop.payload

theorem tracked_init (reportFlag : Bool) : Tracked (init reportFlag) where
  known _ h := by cases h
  loopSingle := single_nil
  callSingle _ _ _ _ h := by cases h
  confirmed _ _ _ h := by cases h
  delivered _ _ _ h := by cases h

/-- A step of the shadow thread that leaves the table and the payloads alone. -/
theorem Tracked.loop_step {s s' : Reporting} (h : Tracked s)
    (ht : s'.d.m_iotAttrs = s.d.m_iotAttrs) (hc : s'.cloud = s.cloud)
    (hr : s'.reported = s.reported) (hcall : s'.call = s.call)
    (hp : s'.loop.payload = s.loop.payload) : Tracked s' where
  known := by rw [hr, ht]; exact h.known
  loopSingle := by rw [hp]; exact h.loopSingle
  callSingle := by rw [hcall]; exact h.callSingle
  confirmed := by rw [hcall, hc]; exact h.confirmed
  delivered := by rw [ht, hr, hc, hp]; exact h.delivered

/-- What `Tracked` asks of one call. -/
def Sound (s : Reporting) : CallPc → Prop
  | .pushing _ payload _ => Single payload
  | .pushed k payload ret => ret = 0 → ∀ v, (k, v) ∈ payload → s.cloud k = some v
  | _ => True

/-- One call moves, and nothing else changes. -/
theorem Tracked.goto {s : Reporting} (h : Tracked s) (n : Nat) {pc : CallPc} (hpc : s.Sound pc) :
    Tracked (s.goto n pc) where
  known := h.known
  loopSingle := h.loopSingle
  callSingle m k payload half hm := by
    by_cases hmn : m = n
    · subst hmn
      rw [goto_self] at hm
      rw [hm] at hpc
      exact hpc
    · rw [goto_ne s hmn] at hm
      exact h.callSingle m k payload half hm
  confirmed m k payload hm := by
    by_cases hmn : m = n
    · subst hmn
      rw [goto_self] at hm
      rw [hm] at hpc
      exact hpc rfl
    · rw [goto_ne s hmn] at hm
      exact h.confirmed m k payload hm
  delivered := h.delivered

/-- To note the raised flags changes nothing: the rest is about flags that are down. -/
theorem Tracked.note {s : Reporting} (h : Tracked s) : Tracked s.note where
  known k hk := by
    rcases Bool.or_eq_true_iff.mp hk with hk | hk
    · exact h.known k hk
    · obtain ⟨a, ha, -⟩ := report_true.mp hk
      exact mem_of_get ha
  loopSingle := h.loopSingle
  callSingle := h.callSingle
  confirmed := h.confirmed
  delivered k a ha hk hr := by
    refine h.delivered k a ha ?_ hr
    rcases Bool.or_eq_true_iff.mp hk with hk | hk
    · exact hk
    · obtain ⟨a', ha', hr'⟩ := report_true.mp hk
      obtain rfl := Option.some.inj (ha.symm.trans ha')
      rw [hr] at hr'
      cases hr'

/-- **The table changes and no flag goes down**: an entry keeps its value, or has
    its flag up, or is new and was never reported. -/
theorem Tracked.table_step {s s' : Reporting} (h : Tracked s) (hc : s'.cloud = s.cloud)
    (hr : s'.reported = s.reported) (hcall : s'.call = s.call)
    (hp : s'.loop.payload = s.loop.payload)
    (hsub : ∀ k ∈ s.d.m_iotAttrs, k ∈ s'.d.m_iotAttrs)
    (ht : ∀ (k : String8) (a' : DSAttr), s'.d.m_iotAttrs[k]? = some a' →
      s.d.m_iotAttrs[k]? = some a' ∨ a'.report = true ∨ k ∉ s.d.m_iotAttrs) : Tracked s' where
  known := by
    rw [hr]
    exact fun k hk => hsub k (h.known k hk)
  loopSingle := by rw [hp]; exact h.loopSingle
  callSingle := by rw [hcall]; exact h.callSingle
  confirmed := by rw [hcall, hc]; exact h.confirmed
  delivered k a' ha' hk hrep := by
    rw [hr] at hk
    rw [hc, hp]
    rcases ht k a' ha' with ha | hup | hnew
    · exact h.delivered k a' ha hk hrep
    · rw [hrep] at hup
      cases hup
    · exact absurd (h.known k hk) hnew

/-- **A payload lands.** `loop'` is where the shadow thread goes with it. -/
theorem Tracked.land {s : Reporting} (h : Tracked s) {payload : FormatData}
    (hl : Lands s payload) {loop' : LoopPc} (hs : Single loop'.payload)
    (hloop : ∀ e ∈ s.loop.payload, e ∈ payload ∨ e ∈ loop'.payload) :
    Tracked { s with cloud := receive s.cloud payload, loop := loop' } where
  known := h.known
  loopSingle := hs
  callSingle := h.callSingle
  confirmed n k q hn w hw := by
    show receive s.cloud payload k = some w
    rcases receive_cases s.cloud payload k with ⟨v, hv, e⟩ | ⟨-, e⟩
    · rw [e, (hl k v hv).2 n q hn w hw]
    · rw [e]
      exact h.confirmed n k q hn w hw
  delivered k a ha hk hr := by
    show receive s.cloud payload k = _ ∨ (k, a.attr.value) ∈ loop'.payload
    rcases receive_cases s.cloud payload k with ⟨v, hv, e⟩ | ⟨hn, e⟩
    · -- the flag is down, so what landed is the current value
      have hcur : s.d.value k = some v := by
        refine (hl k v hv).1.resolve_right fun hup => ?_
        rw [report_of_get ha, hr] at hup
        cases hup
      rw [value, ha] at hcur
      exact .inl (e.trans hcur.symm)
    · rcases h.delivered k a ha hk hr with hc | hm
      · exact .inl (e.trans hc)
      · exact .inr ((hloop _ hm).resolve_left (hn _))

/-- **A call clears the flag** of an attribute whose value the cloud has. -/
theorem Tracked.clear {s : Reporting} (h : Tracked s) {k : String8} {v : PropValue}
    (hv : s.d.value k = some v) (hc : s.cloud k = some v) :
    Tracked { s with d := s.d.setReport k false } where
  known k' hk' := mem_setReport.mpr (h.known k' hk')
  loopSingle := h.loopSingle
  callSingle := h.callSingle
  confirmed := h.confirmed
  delivered k' a' ha' hk' hr := by
    rw [setReport_get] at ha'
    split at ha'
    · rename_i hkk
      subst hkk
      obtain ⟨a, ha, rfl⟩ := Option.map_eq_some_iff.mp ha'
      rw [value, ha] at hv
      exact .inl (hc.trans hv.symm)
    · exact h.delivered k' a' ha' hk' hr

/-- **The pass** puts every attribute whose flag it clears into the payload. -/
theorem Tracked.pass {s : Reporting} (hE : Entered s.d.m_iotAttrs) (h : Tracked s)
    (hpc : s.loop = .go) {rc : String8 → Int} (hC : InOrder s (.pass rc)) :
    Tracked (s.next (.pass rc)) := by
  have hold : s.loop.payload = [] := by rw [hpc]; rfl
  have hnew : (s.next (.pass rc)).loop.payload = (s.d.passPayload rc).getD [] := by
    simp only [next]
    cases s.d.passPayload rc <;> rfl
  have hpass : ∀ (k : String8) (a : DSAttr), s.d.m_iotAttrs[k]? = some a →
      s.d.selected a = true → (k, a.attr.value) ∈ (s.d.passPayload rc).getD [] := by
    intro k a ha hsel
    obtain ⟨payload, hp⟩ := Option.isSome_iff_exists.mp (passPayload_isSome rc ha hsel)
    rw [hp]
    exact (mem_passPayload hp _).mpr ⟨k, a, ha, hsel, hC k a ha hsel, by rw [(hE k a ha).name]⟩
  refine ⟨fun k hk => ?_, ?_, h.callSingle, h.confirmed, fun k a' ha' hk hr => ?_⟩
  · exact Std.TreeMap.mem_map.mpr (h.known k hk)
  · rw [hnew]
    cases hp : s.d.passPayload rc with
    | none => exact single_nil
    | some payload => exact single_passPayload hE hp
  · rw [hnew]
    rw [show (s.next (.pass rc)).d = s.d.passClear from rfl, passClear_get] at ha'
    obtain ⟨a, ha, rfl⟩ := Option.map_eq_some_iff.mp ha'
    by_cases hsel : s.d.selected a = true
    · rw [if_pos hsel]
      exact .inr (hpass k a ha hsel)
    · rw [if_neg hsel]
      have hra : a.report = false := by
        cases hra : a.report with
        | false => rfl
        | true => exact absurd (selected_of_report hra) hsel
      have hdel := h.delivered k a ha hk hra
      rw [hold] at hdel
      exact .inl (hdel.resolve_right List.not_mem_nil)

/-- **Every step in order keeps the invariant.** -/
theorem tracked_next {s : Reporting} (hE : Entered s.d.m_iotAttrs) (h : Tracked s) (l : Label)
    (hC : InOrder s l) (he : s.enabled l) : Tracked (s.next l) := by
  cases l with
  | setupShadow hd =>
    have hpc : s.loop = .setupShadow := he
    exact h.loop_step rfl rfl rfl rfl (by rw [hpc]; rfl)
  | preShadow =>
    have hpc : s.loop = .preShadow := he
    exact h.loop_step (by rw [next, registerAll_eq]) rfl rfl rfl (by rw [hpc]; rfl)
  | yieldShadow =>
    have hpc : s.loop = .head := he
    exact h.loop_step rfl rfl rfl rfl (by rw [hpc]; rfl)
  | yielded =>
    have hpc : s.loop = .yielding false := he
    exact h.loop_step rfl rfl rfl rfl (by rw [hpc]; rfl)
  | updateProperties ans =>
    have hpc : s.loop = .yielded := he
    refine Tracked.note (h.table_step rfl rfl rfl (by rw [hpc]; rfl) ?_ fun k a' ha' => ?_)
    · exact fun k hk => Std.TreeMap.mem_map.mpr hk
    · have ha : (s.d.updateProperties ans).m_iotAttrs[k]? = some a' := ha'
      rw [updateProperties_get] at ha
      obtain ⟨a, hold, rfl⟩ := Option.map_eq_some_iff.mp ha
      rcases updateAttr_cases s.d.toIOTService ans a with ⟨-, e⟩ | ⟨data, -, e⟩
      · exact .inl (e.symm ▸ hold)
      · exact .inr (.inl (by rw [e]; rfl))
  | notDue =>
    have hpc : s.loop = .yielded := he
    exact h.loop_step rfl rfl rfl rfl (by rw [hpc]; rfl)
  | readFlag =>
    have hpc : s.loop = .toPush := he
    exact h.loop_step rfl rfl rfl rfl (by rw [hpc, next]; split <;> rfl)
  | readForce =>
    have hpc : s.loop = .flagRead := he
    exact h.loop_step rfl rfl rfl rfl (by rw [hpc, next]; split <;> rfl)
  | pass rc => exact h.pass hE he hC
  | push payload ret received =>
    obtain ⟨hpc, hrec⟩ := he
    obtain rfl : received = true := hrec hC.1
    refine h.land hC.2 single_nil fun e hm => .inl ?_
    rw [hpc] at hm
    exact hm
  | clearFlag =>
    have hpc : s.loop = .pushed := he
    exact h.loop_step rfl rfl rfl rfl (by rw [hpc]; rfl)
  | clearForce =>
    have hpc : s.loop = .flagCleared := he
    exact h.loop_step rfl rfl rfl rfl (by rw [hpc]; rfl)
  | write n key val =>
    rcases reportLocked_cases hE (cstr key) val with e | ⟨a, data, ha, e⟩
    · simp only [next, e]
      show Tracked (s.goto n .idle).note
      exact Tracked.note (h.goto n trivial)
    · simp only [next, e]
      refine Tracked.note (Tracked.goto ?_ n trivial)
      refine h.table_step rfl rfl rfl rfl (fun k hk => Std.TreeMap.mem_insert.mpr (.inr hk))
        fun k a' ha' => ?_
      have hget := ha'
      rw [show ({ s with d := _ } : Reporting).d.m_iotAttrs = _ from rfl, get_insert] at hget
      split at hget
      · obtain rfl := Option.some.inj hget
        exact .inr (.inl rfl)
      · exact .inl hget
  | setFlag n k =>
    show Tracked (goto { s with d := { s.d with m_reportFlag := true } } n (.flagged k))
    refine Tracked.goto ?_ n trivial
    exact h.loop_step rfl rfl rfl rfl rfl
  | format n k rc =>
    refine h.goto n ?_
    split
    · exact single_add rc _
    · trivial
  | pushCall n k payload ret received =>
    obtain ⟨hpc, hrec⟩ := he
    have hsingle := h.callSingle n k payload false hpc
    cases received with
    | false => exact h.goto n fun hret => absurd (hrec hret) (by decide)
    | true =>
      refine Tracked.goto (h.land (hC rfl) h.loopSingle fun e hm => .inr hm) n fun _ v hv => ?_
      exact receive_mem hsingle hv
  | finish n k payload ret =>
    have hpc : s.call n = .pushed k payload ret := he
    simp only [next]
    split
    · rename_i hret
      obtain ⟨v, hv, hm⟩ := hC hret
      rw [hret] at hpc
      exact Tracked.goto (h.clear hv (h.confirmed n k payload hpc v hm)) n trivial
    · exact h.goto n trivial
  | setProperty x k data => exact absurd hC id
  | setPeriod x data => exact absurd hC id
  | reportPeriod x => exact absurd hC id
  | service op => exact h.loop_step rfl rfl rfl rfl rfl
  | addProperty name type size mem =>
    simp only [next]
    rcases s.d.doAddProperty_cases name type size mem with ⟨reg, e⟩ | ⟨a, reg, e, -, hn⟩
    · rw [e]
      exact h.loop_step rfl rfl rfl rfl rfl
    · rw [e]
      refine h.table_step rfl rfl rfl rfl (fun k hk => Std.TreeMap.mem_insert.mpr (.inr hk))
        fun k a' ha' => ?_
      have hget : (s.d.m_iotAttrs.insert name ⟨false, false, a⟩)[k]? = some a' := ha'
      rw [get_insert] at hget
      split at hget
      · rename_i hk
        exact .inr (.inr (hk ▸ hn))
      · exact .inl hget

theorem tracked_reach {s : Reporting} (h : machine.Reach InOrder s) : Tracked s := by
  refine h.inv_of (I := Tracked) (J := fun s => Entered s.d.m_iotAttrs)
    (fun s hs => entered_reach hs) ?_ fun s l hE hI hC he => tracked_next hE hI l hC he
  intro s h0
  obtain ⟨reportFlag, rfl⟩ := h0
  exact tracked_init reportFlag

/-! ## 4. No stale and no lost value -/

/-- The shadow thread is not in `pushProperties`. -/
def OutsidePush : LoopPc → Prop
  | .flagRead | .go | .pushing _ _ | .pushed | .flagCleared => False
  | _ => True

instance : DecidablePred OutsidePush
  | .flagRead | .go | .pushing _ _ | .pushed | .flagCleared => .isFalse id
  | .setupShadow | .preShadow | .head | .yielding _ | .yielded | .toPush => .isTrue trivial

/-- No call is in progress. -/
def Quiet (s : Reporting) : Prop := (∀ n, s.call n = .idle) ∧ OutsidePush s.loop

/-- Where no call is in progress and `m_shadow` is set, the cloud has the value of
    every attribute that was ever reported and whose flag is down. -/
def UpToDate (s : Reporting) : Prop :=
  s.Quiet → s.d.m_shadow.isSome = true → ∀ (k : String8) (a : DSAttr),
    s.d.m_iotAttrs[k]? = some a → s.reported k = true → a.report = false →
      s.cloud k = some a.attr.value

/-- **The cloud is up to date on the runs in order.** -/
theorem delivered_in_order {s : Reporting} (h : machine.Reach InOrder s) : UpToDate s := by
  intro hq _ k a ha hk hr
  have hnone : s.loop.payload = [] := by
    have hout := hq.2
    cases hl : s.loop with
    | pushing payload half =>
      rw [hl] at hout
      exact absurd hout id
    | _ => rfl
  have hdel := (tracked_reach h).delivered k a ha hk hr
  rw [hnone] at hdel
  exact hdel.resolve_right List.not_mem_nil

/-- The call is not about to clear a flag for another value than this. -/
def Agrees (e : String8 × PropValue) : CallPc → Prop
  | .pushed _ q _ => ∀ x ∈ q, x.1 = e.1 → x.2 = e.2
  | _ => True

instance (e : String8 × PropValue) : DecidablePred (Agrees e)
  | .pushed _ q _ => inferInstanceAs (Decidable (∀ x ∈ q, x.1 = e.1 → x.2 = e.2))
  | .idle | .written _ | .flagged _ | .pushing _ _ _ => .isTrue trivial

/-- `InOrder` for the calls below `m`, where it can be evaluated. -/
def CallsInOrder (m : Nat) (s : Reporting) : Label → Prop
  | .pushCall _ _ payload _ _ => ∀ e ∈ payload, s.d.value e.1 = some e.2 ∧
      ∀ n < m, Agrees e (s.call n)
  | .finish _ k payload _ => ∃ e ∈ payload, e.1 = k ∧ s.d.value k = some e.2
  | .setupShadow _ | .preShadow | .addProperty _ _ _ _ | .write _ _ _ | .setFlag _ _
  | .format _ _ _ => True
  | _ => False

instance (m : Nat) (s : Reporting) : DecidablePred (CallsInOrder m s)
  | .pushCall _ _ payload _ _ => inferInstanceAs (Decidable (∀ e ∈ payload, _ ∧ ∀ n < m, _))
  | .finish _ _ payload _ => inferInstanceAs (Decidable (∃ e ∈ payload, _ ∧ _))
  | .setupShadow _ | .preShadow | .addProperty _ _ _ _ | .write _ _ _ | .setFlag _ _
  | .format _ _ _ => .isTrue trivial
  | .yieldShadow | .yielded | .updateProperties _ | .notDue | .readFlag | .readForce | .pass _
  | .push _ _ _ | .clearFlag | .clearForce | .setProperty _ _ _ | .setPeriod _ _
  | .reportPeriod _ | .service _ => .isFalse id

theorem inOrder_of_calls {m : Nat} {s : Reporting} {l : Label}
    (hidle : ∀ n, m ≤ n → s.call n = .idle) (h : CallsInOrder m s l) : InOrder s l := by
  cases l with
  | pushCall n k payload ret received =>
    intro _ k' v hv
    obtain ⟨hval, hagree⟩ := h (k', v) hv
    refine ⟨.inl hval, fun n' q hn' w hw => ?_⟩
    rcases Nat.lt_or_ge n' m with hlt | hge
    · have hpc := hagree n' hlt
      rw [hn'] at hpc
      exact hpc (k', w) hw rfl
    · rw [hidle n' hge] at hn'
      cases hn'
  | finish n k payload ret =>
    obtain ⟨⟨k', v⟩, hm, rfl, hv⟩ := h
    exact fun _ => ⟨v, hv, hm⟩
  | setupShadow hd => trivial
  | preShadow => trivial
  | addProperty name type size mem => trivial
  | write n key val => trivial
  | setFlag n k => trivial
  | format n k rc => trivial
  | _ => exact absurd h id

/-- Two calls at a time: `1` is written and then `7`, which both calls push. -/
def sevenRun : List Label :=
  opens (lit "power") ++
    [.write 0 (lit "power") (lit "1"), .write 1 (lit "power") (lit "7"),
      .setFlag 1 (lit "power"), .setFlag 0 (lit "power"),
      .format 0 (lit "power") 0, .format 1 (lit "power") 0,
      .pushCall 1 (lit "power") [(lit "power", .int32 7)] 0 true,
      .pushCall 0 (lit "power") [(lit "power", .int32 7)] 0 true,
      .finish 0 (lit "power") [(lit "power", .int32 7)] 0,
      .finish 1 (lit "power") [(lit "power", .int32 7)] 0]

/-- `delivered_in_order` for these calls: the flag is down and the cloud has `7`. -/
theorem delivered_in_order_seven : ∃ s, machine.Reach InOrder s ∧
    s.cloud (lit "power") = some (.int32 7) := by
  have hrun : ((machine.run (fun s l => CallsInOrder 2 s l ∧ Below 2 l) (init false) sevenRun).map
      fun s => decide (IdleBelow 2 s ∧ OutsidePush s.loop ∧
        s.d.m_shadow.isSome = true ∧ s.reported (lit "power") = true ∧
        s.d.report (lit "power") = false ∧ s.d.value (lit "power") = some (.int32 7))) =
      some true := by decide
  have h0 : machine.init (init false) := ⟨false, rfl⟩
  obtain ⟨s, hs, hb⟩ := Machine.exists_of_run h0 hrun
  obtain ⟨hcall, hloop, hsh, hrep, hdown, hv⟩ := of_decide_eq_true hb
  have hidle := idle_of_below hs hcall
  have horder : machine.Reach InOrder s := hs.mono_of (J := fun s => ∀ n, 2 ≤ n → s.call n = .idle)
    (fun t ht => idle_above ht) fun t l hJ hC => inOrder_of_calls hJ hC.1
  obtain ⟨a, ha, hval⟩ := Option.map_eq_some_iff.mp hv
  rw [report_of_get ha] at hdown
  exact ⟨s, horder, hval ▸ delivered_in_order horder ⟨hidle, hloop⟩ hsh _ a ha hrep hdown⟩

/-- **A stale value**: `2` is written after `1`, and `1` lands after `2`. -/
theorem delivered_stale : ¬ ∀ s, machine.Reachable s → UpToDate s := by
  intro hall
  have hrun : ((machine.run (fun _ l => True ∧ Below 2 l) (init false)
      (opens (lit "power") ++ asks 0 (lit "power") (lit "1") ++ asks 1 (lit "power") (lit "2") ++
        lands 1 (lit "power") 2 0 ++ lands 0 (lit "power") 1 0)).map
      fun s => decide (IdleBelow 2 s ∧ OutsidePush s.loop ∧
        s.d.m_shadow.isSome = true ∧ s.reported (lit "power") = true ∧
        s.d.report (lit "power") = false ∧ s.d.value (lit "power") = some (.int32 2) ∧
        s.cloud (lit "power") = some (.int32 1))) = some true := by decide
  have h0 : machine.init (init false) := ⟨false, rfl⟩
  obtain ⟨s, hs, hb⟩ := Machine.exists_of_run h0 hrun
  obtain ⟨hcall, hloop, hsh, hrep, hdown, hv, hcloud⟩ := of_decide_eq_true hb
  have hidle := idle_of_below (C := fun _ _ => True) hs hcall
  obtain ⟨a, ha, hval⟩ := Option.map_eq_some_iff.mp hv
  rw [report_of_get ha] at hdown
  have hup := hall s (hs.mono fun _ _ _ => trivial) ⟨hidle, hloop⟩ hsh _ a ha hrep hdown
  rw [hcloud, hval] at hup
  cases hup

end Reporting

end IotWrap
