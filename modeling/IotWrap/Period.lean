/-
  File:      IotWrap/Period.lean
  Subject:   The attribute `report_period` and `m_reportPeriod`
             (jni/server/IOT_DeviceShadow.cpp).

  The setting lives in two places: an int32 in the attribute, which is what is
  pushed, and the unsigned `m_reportPeriod`, which the loop compares with. A
  delivery writes both; a client's report to the name writes the first only,
  and the constructor leaves 0 in the one and 20000 in the other.

  * `setting_exec`, `setting_run`: what an operation and a run leave in the two;
  * `inForce_iff`: the runs after which the two are the same integer;
  * `constructed_differs`: they are not after the constructor.
-/
import IotWrap.Follow
import IotWrap.Report

namespace IotWrap

open Lib
open Reporting (Keeps)

namespace DeviceShadow

/-! ## 1. Operations on the shadow -/

inductive PeriodOp where
  /-- The cloud delivers an attribute: an int32, or the bytes of a string. -/
  | deliver (key : String8) (v : BitVec 32) (str : Bytes) : PeriodOp
  | followProperty (c : ClientId) (key : String8) (type size : Int) (mem : Callocs) : PeriodOp
  | reportProperty (key val : String8) (pushRc : Int) : PeriodOp
  | updateProperties (ans : IOTService.Answers) : PeriodOp
  | pushProperties (rc : String8 → Int) (pushRc : Int) : PeriodOp
  | service (op : IOTService.Op) : PeriodOp

/-- What the SDK stores in an attribute that was delivered. -/
def deliveredData (a : ShadowAttr) (v : BitVec 32) (str : Bytes) : Bytes :=
  match a.attr_type with
  | .IOTX_SHADOW_INT32 => storeInt32 a.pattr_data v
  | .IOTX_SHADOW_STRING => str
  | .other => a.pattr_data

/-- The callback of an attribute, run on what it holds now. -/
def runCallback (d : DeviceShadow) (a : ShadowAttr) : DeviceShadow :=
  match a.callback with
  | none => d
  | some .DS_call_default_property_cb => (d.callDefaultPropertyCb a).2
  | some .DS_report_period_property_cb =>
    updateReportReriod { d with g_forceReport := true } (loadInt32 a.pattr_data)

/-- A delivery: the SDK stores the value, then calls the attribute's callback. -/
def deliver (d : DeviceShadow) (key : String8) (v : BitVec 32) (str : Bytes) : DeviceShadow :=
  match d.m_iotAttrs[key]? with
  | none => d
  | some a =>
    let data := deliveredData a.attr v str
    (Reporting.sdkStore d key data).runCallback (a.attr.setData data)

def execPeriod (d : DeviceShadow) : PeriodOp → DeviceShadow
  | .deliver key v str => d.deliver key v str
  | .followProperty c key type size mem => (d.followProperty c key type size mem).2
  | .reportProperty key val pushRc => (d.doReportProperty (cstr key) (cstr val) pushRc).2
  | .updateProperties ans => d.updateProperties ans
  | .pushProperties rc pushRc => (d.pushProperties rc pushRc).2
  | .service op => { d with toIOTService := d.toIOTService.exec op }

def runPeriod (d : DeviceShadow) (ops : List PeriodOp) : DeviceShadow := ops.foldl execPeriod d

/-! ## 2. The setting and its two places -/

/-- What the operation leaves in the attribute `report_period`, where `w` was. -/
def PeriodOp.written (w : BitVec 32) : PeriodOp → BitVec 32
  | .deliver key v _ => if key = LOCAL_ATTR_REPROT_PERIOD then v else w
  | .reportProperty key val _ => if cstr key = LOCAL_ATTR_REPROT_PERIOD then atoi (cstr val) else w
  | _ => w

/-- What the operation leaves in force, where `p` was. -/
def PeriodOp.delivered (p : BitVec 32) : PeriodOp → BitVec 32
  | .deliver key v _ => if key = LOCAL_ATTR_REPROT_PERIOD then v else p
  | _ => p

/-- The last value written to `report_period`, by the cloud or by a client. -/
def lastWritten (ops : List PeriodOp) : BitVec 32 := ops.foldl PeriodOp.written 0#32

/-- The last value the cloud delivered for `report_period`. -/
def lastDelivered (ops : List PeriodOp) : BitVec 32 := ops.foldl PeriodOp.delivered 20000#32

/-- The entry of `report_period`, with the value `w`. -/
structure PeriodAttr (a : DSAttr) (w : BitVec 32) : Prop where
  isLocal : a.isLocal = true
  type : a.attr.attr_type = .IOTX_SHADOW_INT32
  callback : a.attr.callback = some .DS_report_period_property_cb
  room : 4 ≤ a.attr.pattr_data.length
  value : loadInt32 a.attr.pattr_data = w

/-- **The setting**: `w` in the attribute, `p` in force. -/
structure Setting (d : DeviceShadow) (w p : BitVec 32) : Prop where
  attr : ∃ a, d.m_iotAttrs[LOCAL_ATTR_REPROT_PERIOD]? = some a ∧ PeriodAttr a w
  period : d.m_reportPeriod = p

theorem PeriodAttr.report {a : DSAttr} {w : BitVec 32} (h : PeriodAttr a w) (r : Bool) :
    PeriodAttr { a with report := r } w :=
  ⟨h.isLocal, h.type, h.callback, h.room, h.value⟩

theorem PeriodAttr.store {a : DSAttr} {w : BitVec 32} (h : PeriodAttr a w) (x : BitVec 32) :
    PeriodAttr (a.setData (storeInt32 a.attr.pattr_data x)) x := by
  refine ⟨h.isLocal, h.type, h.callback, ?_, load_storeInt32 h.room x⟩
  show 4 ≤ (storeInt32 a.attr.pattr_data x).length
  rw [length_storeInt32]
  exact h.room

/-- The entry the constructor makes. -/
def nativePeriod : DSAttr :=
  ⟨false, true, ⟨LOCAL_ATTR_REPROT_PERIOD, calloc 4, .IOTX_SHADOW_INT32, .IOTX_SHADOW_RW,
    some .DS_report_period_property_cb⟩⟩

/-- **The constructor** writes 0 into the attribute and 20000 into the period. -/
theorem setting_init (reportFlag : Bool) : Setting (init reportFlag) 0#32 20000#32 := by
  refine ⟨⟨nativePeriod, ?_, ⟨rfl, rfl, rfl, by decide, by decide⟩⟩, ?_⟩
  · simp [init, construct, _addProperty, _newProperty, nativePeriod]
  · simp [init, construct, _addProperty, _newProperty]

/-- Only the report flag of the entry changes. -/
theorem Setting.setReport {d : DeviceShadow} {w p : BitVec 32} (h : Setting d w p) (key : String8)
    (r : Bool) : Setting (d.setReport key r) w p := by
  obtain ⟨⟨a, ha, hattr⟩, hp⟩ := h
  have hget := get_modify d.m_iotAttrs key (fun a => { a with report := r }) LOCAL_ATTR_REPROT_PERIOD
  rw [ha] at hget
  by_cases hk : key = LOCAL_ATTR_REPROT_PERIOD
  · rw [if_pos hk] at hget
    exact ⟨⟨_, hget, hattr.report r⟩, hp⟩
  · rw [if_neg hk] at hget
    exact ⟨⟨a, hget, hattr⟩, hp⟩

theorem setting_followProperty {d : DeviceShadow} {w p : BitVec 32} (h : Setting d w p)
    (c : ClientId) (key : String8) (type size : Int) (mem : Callocs) :
    Setting (d.followProperty c key type size mem).2 w p := by
  obtain ⟨⟨a, ha, hattr⟩, hp⟩ := h
  rcases d.followProperty_cases c key type size mem with ⟨reg, e⟩ | ⟨b, reg, e, -, hnew⟩
  · rw [e]
    exact ⟨⟨a, ha, hattr⟩, hp⟩
  · -- the name is new, so it is not `report_period`
    have hne : cstr key ≠ LOCAL_ATTR_REPROT_PERIOD := by
      intro hk
      rw [hk] at hnew
      exact hnew (Std.TreeMap.mem_iff_isSome_getElem?.mpr (by rw [ha]; rfl))
    rw [e]
    refine ⟨⟨a, ?_, hattr⟩, hp⟩
    rw [get_insert, if_neg hne]
    exact ha

/-- A report to `report_period` writes the attribute alone. -/
theorem setting_reportProperty {d : DeviceShadow} {w p : BitVec 32} (h : Setting d w p)
    (key val : String8) (pushRc : Int) :
    Setting (d.doReportProperty key val pushRc).2
      (if key = LOCAL_ATTR_REPROT_PERIOD then atoi val else w) p := by
  obtain ⟨⟨a, ha, hattr⟩, hp⟩ := h
  have hlocked : Setting (d.reportLocked key val).2
      (if key = LOCAL_ATTR_REPROT_PERIOD then atoi val else w) p := by
    by_cases hk : key = LOCAL_ATTR_REPROT_PERIOD
    · subst hk
      have hdata : reportData a.attr val = some (storeInt32 a.attr.pattr_data (atoi val)) := by
        simp only [reportData, hattr.type]
      rw [if_pos rfl]
      simp only [reportLocked, ha, hdata]
      refine ⟨⟨_, ?_, (hattr.report true).store (atoi val)⟩, hp⟩
      rw [get_insert, if_pos rfl]
    · rw [if_neg hk]
      unfold reportLocked
      split
      · exact ⟨⟨a, ha, hattr⟩, hp⟩
      · split
        · refine ⟨⟨a, ?_, hattr⟩, hp⟩
          rw [get_insert, if_neg hk]
          exact ha
        · refine ⟨⟨a, ?_, hattr⟩, hp⟩
          rw [get_insert, if_neg hk]
          exact ha
  unfold doReportProperty
  revert hlocked
  obtain ⟨ok, d'⟩ := d.reportLocked key val
  intro hlocked
  cases ok with
  | false => exact hlocked
  | true =>
    have hflag : Setting { d' with m_reportFlag := true }
        (if key = LOCAL_ATTR_REPROT_PERIOD then atoi val else w) p := ⟨hlocked.attr, hlocked.period⟩
    show Setting (if _ then _ else _) _ p
    split
    · exact hflag.setReport key false
    · exact hflag

/-- The attribute is local, so it is not polled. -/
theorem setting_updateProperties {d : DeviceShadow} {w p : BitVec 32} (h : Setting d w p)
    (ans : IOTService.Answers) : Setting (d.updateProperties ans) w p := by
  obtain ⟨⟨a, ha, hattr⟩, hp⟩ := h
  have hsame : updateAttr d.toIOTService ans a = a := by
    simp only [updateAttr, updateData, hattr.isLocal, if_true]
  refine ⟨⟨a, ?_, hattr⟩, hp⟩
  simp only [updateProperties, Std.TreeMap.getElem?_map, ha, Option.map_some, hsame]

/-- A push clears report flags. -/
theorem setting_pushProperties {d : DeviceShadow} {w p : BitVec 32} (h : Setting d w p)
    (rc : String8 → Int) (pushRc : Int) : Setting (d.pushProperties rc pushRc).2 w p := by
  obtain ⟨⟨a, ha, hattr⟩, hp⟩ := h
  unfold pushProperties
  split
  · exact ⟨⟨a, ha, hattr⟩, hp⟩
  · refine ⟨⟨if d.selected a then { a with report := false } else a, ?_, ?_⟩, hp⟩
    · simp only [passClear, Std.TreeMap.getElem?_map, ha, Option.map_some]
    · split
      · exact hattr.report false
      · exact hattr

/-- `updateReportReriod` on a table that has the attribute. -/
theorem setting_updateReportReriod {d : DeviceShadow} {w p : BitVec 32} (h : Setting d w p)
    (t : BitVec 32) : Setting (d.updateReportReriod t) w t := by
  obtain ⟨a, ha, -⟩ := h.attr
  have hin : LOCAL_ATTR_REPROT_PERIOD ∈ d.m_iotAttrs :=
    Std.TreeMap.mem_iff_isSome_getElem?.mpr (by rw [ha]; rfl)
  unfold updateReportReriod
  rw [if_pos hin]
  exact ⟨(h.setReport LOCAL_ATTR_REPROT_PERIOD true).attr, rfl⟩

/-- Every attribute but `report_period` has the default callback. -/
def DefaultCallbacks (m : AttrTable) : Prop :=
  ∀ (k : String8) (a : DSAttr), m[k]? = some a → k ≠ LOCAL_ATTR_REPROT_PERIOD →
    a.attr.callback = some .DS_call_default_property_cb

theorem callDefault_setting {d : DeviceShadow} {w p : BitVec 32} (h : Setting d w p)
    (a : ShadowAttr) : Setting (d.callDefaultPropertyCb a).2 w p := by
  unfold callDefaultPropertyCb
  split
  · exact h
  · exact ⟨h.attr, h.period⟩

/-- **A delivery** of `report_period` writes both places; of another attribute,
    neither. -/
theorem setting_deliver {d : DeviceShadow} {w p : BitVec 32} (h : Setting d w p)
    (hcb : DefaultCallbacks d.m_iotAttrs) (key : String8) (v : BitVec 32) (str : Bytes) :
    Setting (d.deliver key v str) (if key = LOCAL_ATTR_REPROT_PERIOD then v else w)
      (if key = LOCAL_ATTR_REPROT_PERIOD then v else p) := by
  obtain ⟨⟨a, ha, hattr⟩, hp⟩ := h
  unfold deliver
  by_cases hk : key = LOCAL_ATTR_REPROT_PERIOD
  · subst hk
    have hdata : deliveredData a.attr v str = storeInt32 a.attr.pattr_data v := by
      simp only [deliveredData, hattr.type]
    have hget := get_modify d.m_iotAttrs LOCAL_ATTR_REPROT_PERIOD
      (fun b => b.setData (storeInt32 a.attr.pattr_data v)) LOCAL_ATTR_REPROT_PERIOD
    rw [if_pos rfl, ha] at hget
    have hstored : Setting { Reporting.sdkStore d LOCAL_ATTR_REPROT_PERIOD
        (storeInt32 a.attr.pattr_data v) with g_forceReport := true } v p :=
      ⟨⟨_, hget, hattr.store v⟩, hp⟩
    rw [if_pos rfl, if_pos rfl, ha]
    simp only [hdata, runCallback, ShadowAttr.setData, hattr.callback,
      load_storeInt32 hattr.room v]
    exact setting_updateReportReriod hstored v
  · rw [if_neg hk, if_neg hk]
    cases hb : d.m_iotAttrs[key]? with
    | none => exact ⟨⟨a, ha, hattr⟩, hp⟩
    | some b =>
      have hstored : Setting (Reporting.sdkStore d key (deliveredData b.attr v str)) w p := by
        have hget := get_modify d.m_iotAttrs key
          (fun b' => b'.setData (deliveredData b.attr v str)) LOCAL_ATTR_REPROT_PERIOD
        rw [if_neg hk, ha] at hget
        exact ⟨⟨a, hget, hattr⟩, hp⟩
      simp only [runCallback, ShadowAttr.setData, hcb key b hb hk]
      exact callDefault_setting hstored _

/-! ## 3. The callbacks of the table -/

/-- A step that keeps the attributes keeps their callbacks. -/
theorem DefaultCallbacks.keeps {m m' : AttrTable} (hm : DefaultCallbacks m) (h : Keeps m m') :
    DefaultCallbacks m' := by
  intro k a' ha' hk
  obtain ⟨a, ha, hs⟩ := h.of_get.1 a' ha'
  exact hs.callback.trans (hm k a ha hk)

theorem DefaultCallbacks.insert {m : AttrTable} (hm : DefaultCallbacks m) {key : String8}
    {a : DSAttr} (ha : key ≠ LOCAL_ATTR_REPROT_PERIOD →
      a.attr.callback = some .DS_call_default_property_cb) : DefaultCallbacks (m.insert key a) := by
  intro k a' ha' hk
  rw [get_insert] at ha'
  split at ha'
  · rename_i hkey
    obtain rfl := Option.some.inj ha'
    exact ha (hkey ▸ hk)
  · exact hm k a' ha' hk

/-- What `doAddProperty` enters has the default callback. -/
theorem callbacks_doAddProperty {d : DeviceShadow} (h : DefaultCallbacks d.m_iotAttrs)
    (name : String8) (type size : Int) (mem : Callocs) :
    DefaultCallbacks (d.doAddProperty name type size mem).2.m_iotAttrs := by
  unfold doAddProperty
  split
  · exact h
  · show DefaultCallbacks (registerNew _ _).m_iotAttrs
    rw [registerNew_eq]
    unfold _addProperty _newProperty
    split
    · exact h
    · by_cases hmem : mem = .fail
      · rw [if_pos hmem]
        exact h
      · rw [if_neg hmem]
        exact h.insert fun _ => rfl

/-- **A delivery** writes a value, and its callback at most a report flag. -/
theorem keeps_deliver (d : DeviceShadow) (key : String8) (v : BitVec 32) (str : Bytes) :
    Keeps d.m_iotAttrs (d.deliver key v str).m_iotAttrs := by
  unfold deliver
  cases ha : d.m_iotAttrs[key]? with
  | none => exact Reporting.keeps_rfl _
  | some a =>
    have hstored := Reporting.keeps_sdkStore d key (deliveredData a.attr v str)
    simp only [runCallback]
    split
    · exact hstored
    · rw [(Reporting.callDefault_table _ _).1]
      exact hstored
    · exact hstored.trans (Reporting.keeps_updateReportReriod { Reporting.sdkStore d key
        (deliveredData a.attr v str) with g_forceReport := true } _)

theorem callbacks_exec {d : DeviceShadow} (h : DefaultCallbacks d.m_iotAttrs) (op : PeriodOp) :
    DefaultCallbacks (d.execPeriod op).m_iotAttrs := by
  cases op with
  | deliver key v str => exact h.keeps (keeps_deliver d key v str)
  | followProperty c key type size mem =>
    simp only [execPeriod]
    rw [followProperty_eq]
    split
    · exact h
    · exact callbacks_doAddProperty (d := { d with
        m_keyFollow := (IOTService.addTo d.m_keyFollow (cstr key) c).2 }) h _ _ _ _
  | reportProperty key val pushRc =>
    exact h.keeps (Reporting.keeps_doReportProperty d (cstr key) (cstr val) pushRc)
  | updateProperties ans => exact h.keeps (Reporting.keeps_updateProperties d ans)
  | pushProperties rc pushRc => exact h.keeps (Reporting.keeps_pushProperties d rc pushRc)
  | service op => exact h

/-! ## 4. The period reported and the period in force -/

/-- **One operation** on the setting. -/
theorem setting_exec {d : DeviceShadow} {w p : BitVec 32} (h : Setting d w p)
    (hcb : DefaultCallbacks d.m_iotAttrs) (op : PeriodOp) :
    Setting (d.execPeriod op) (op.written w) (op.delivered p) := by
  cases op with
  | deliver key v str => exact setting_deliver h hcb key v str
  | followProperty c key type size mem => exact setting_followProperty h c key type size mem
  | reportProperty key val pushRc => exact setting_reportProperty h (cstr key) (cstr val) pushRc
  | updateProperties ans => exact setting_updateProperties h ans
  | pushProperties rc pushRc => exact setting_pushProperties h rc pushRc
  | service op => exact ⟨h.attr, h.period⟩

theorem callbacks_init (reportFlag : Bool) : DefaultCallbacks (init reportFlag).m_iotAttrs := by
  have he : (init reportFlag).m_iotAttrs = ({} : AttrTable).insert LOCAL_ATTR_REPROT_PERIOD
      nativePeriod := by
    simp [init, construct, _addProperty, _newProperty, nativePeriod]
  rw [he]
  refine DefaultCallbacks.insert (fun k a ha => ?_) fun hk => absurd rfl hk
  simp at ha

/-- **Every run**: the attribute holds what was last written, and the period in
    force is what was last delivered. -/
theorem setting_run (reportFlag : Bool) (ops : List PeriodOp) :
    Setting ((init reportFlag).runPeriod ops) (lastWritten ops) (lastDelivered ops) := by
  have hrun : Setting ((init reportFlag).runPeriod ops) (lastWritten ops) (lastDelivered ops) ∧
      DefaultCallbacks ((init reportFlag).runPeriod ops).m_iotAttrs := by
    induction ops using List.reverseRecOn with
    | nil => exact ⟨setting_init reportFlag, callbacks_init reportFlag⟩
    | append_singleton ops op ih =>
      unfold lastWritten lastDelivered runPeriod
      rw [List.foldl_append, List.foldl_append, List.foldl_append]
      exact ⟨setting_exec ih.1 ih.2 op, callbacks_exec ih.2 op⟩
  exact hrun.1

/-- **The period reported is the period in force**, as integers. -/
def InForce (d : DeviceShadow) : Prop :=
  ∃ a, d.m_iotAttrs[LOCAL_ATTR_REPROT_PERIOD]? = some a ∧
    (loadInt32 a.attr.pattr_data).toInt = d.m_reportPeriod.toNat

/-- A signed and an unsigned reading agree on the same bits without the sign. -/
theorem toInt_eq_toNat_iff (w p : BitVec 32) : w.toInt = p.toNat ↔ w = p ∧ 0 ≤ w.toInt := by
  have hw := w.isLt
  have hp := p.isLt
  rw [BitVec.toInt_eq_toNat_cond]
  constructor
  · intro h
    have hnat : w.toNat = p.toNat := by
      split at h
      · exact Int.ofNat.inj h
      · omega
    refine ⟨BitVec.eq_of_toNat_eq hnat, ?_⟩
    omega
  · intro h
    obtain ⟨rfl, hpos⟩ := h
    split at hpos
    · rename_i hlt
      rw [if_pos hlt]
    · omega

/-- **When the period reported is in force**: what was last written to the
    attribute is what the cloud last delivered (20000 before that), and is not
    negative. -/
theorem inForce_iff (reportFlag : Bool) (ops : List PeriodOp) :
    InForce ((init reportFlag).runPeriod ops) ↔
      lastWritten ops = lastDelivered ops ∧ 0 ≤ (lastWritten ops).toInt := by
  obtain ⟨⟨a, ha, hattr⟩, hp⟩ := setting_run reportFlag ops
  rw [← toInt_eq_toNat_iff, ← hp, ← hattr.value]
  constructor
  · intro h
    obtain ⟨b, hb, he⟩ := h
    obtain rfl := Option.some.inj (ha.symm.trans hb)
    exact he
  · exact fun he => ⟨a, ha, he⟩

/-- **A shadow that was just constructed** reports 0 and polls every 20000 ms. -/
theorem constructed_differs : ¬ ∀ (reportFlag : Bool) (ops : List PeriodOp),
    InForce ((init reportFlag).runPeriod ops) := by
  intro h
  obtain ⟨a, ha, he⟩ := h false []
  obtain ⟨⟨b, hb, hattr⟩, hp⟩ := setting_init false
  obtain rfl := Option.some.inj (ha.symm.trans hb)
  rw [show (init false).runPeriod [] = init false from rfl, hattr.value, hp] at he
  exact absurd he (by decide)

end DeviceShadow

end IotWrap
