/-
  File:      IotWrap/Push.lean
  Subject:   What `pushProperties` forgets.

  `mem_passPayload` says what a payload carries: the selected attributes whose
  Add returned 0. `KeepsPending` is what a push owes: a report flag goes only
  if the attribute was delivered (added, and the push returned 0), and what was
  pending and not delivered stays pending for the next call.

  The source clears the flags in the pass, before the results are known, and
  never sets them again. `keepsPending_iff` is the exact condition under which
  nothing is lost; `report_forgotten` is a push that fails.
-/
import IotWrap.Shadow

namespace IotWrap

open Lib

namespace DeviceShadow

/-! ## 1. The pass -/

/-- The report flag of an attribute of the table. -/
def report (d : DeviceShadow) (k : String8) : Bool :=
  match d.m_iotAttrs[k]? with
  | some a => a.report
  | none => false

theorem report_of_get {d : DeviceShadow} {k : String8} {a : DSAttr}
    (h : d.m_iotAttrs[k]? = some a) : d.report k = a.report := by
  simp only [report, h]

theorem report_true {d : DeviceShadow} {k : String8} :
    d.report k = true ↔ ∃ a, d.m_iotAttrs[k]? = some a ∧ a.report = true := by
  unfold report
  cases d.m_iotAttrs[k]? with
  | none => simp
  | some a => simp

theorem selected_of_report {d : DeviceShadow} {a : DSAttr} (h : a.report = true) :
    d.selected a = true := by
  simp [selected, h]

theorem mem_foldl_add (rc : String8 → Int) (l : List (String8 × DSAttr)) (format : FormatData)
    (e : String8 × PropValue) :
    e ∈ l.foldl (fun format p => pushFormatAdd (rc p.1) format p.2.attr) format ↔
      e ∈ format ∨ ∃ p ∈ l, rc p.1 = 0 ∧ e = (p.2.attr.pattr_name, p.2.attr.value) := by
  induction l generalizing format with
  | nil => simp
  | cons p l ih =>
    rw [List.foldl_cons, ih]
    unfold pushFormatAdd
    by_cases hrc : rc p.1 = 0
    · simp [hrc, or_assoc]
    · simp [hrc]

/-- **What a payload carries**: the attributes the pass selected and whose Add
    returned 0, each with its current value. -/
theorem mem_passPayload {d : DeviceShadow} {rc : String8 → Int} {payload : FormatData}
    (h : d.passPayload rc = some payload) (e : String8 × PropValue) :
    e ∈ payload ↔ ∃ k a, d.m_iotAttrs[k]? = some a ∧ d.selected a = true ∧ rc k = 0 ∧
      e = (a.attr.pattr_name, a.attr.value) := by
  simp only [passPayload] at h
  split at h
  · cases h
  · obtain rfl := Option.some.inj h
    rw [mem_foldl_add]
    simp only [List.not_mem_nil, false_or, List.mem_filter]
    constructor
    · intro hp
      obtain ⟨⟨k, a⟩, ⟨hm, hsel⟩, hrc, rfl⟩ := hp
      exact ⟨k, a, Std.TreeMap.mem_toList_iff_getElem?_eq_some.mp hm, hsel, hrc, rfl⟩
    · intro hp
      obtain ⟨k, a, hm, hsel, hrc, rfl⟩ := hp
      exact ⟨(k, a), ⟨Std.TreeMap.mem_toList_iff_getElem?_eq_some.mpr hm, hsel⟩, hrc, rfl⟩

/-- A selected attribute makes a payload (`flg == 1`). -/
theorem passPayload_isSome {d : DeviceShadow} (rc : String8 → Int) {k : String8} {a : DSAttr}
    (h : d.m_iotAttrs[k]? = some a) (hs : d.selected a = true) :
    (d.passPayload rc).isSome = true := by
  have hm : (k, a) ∈ d.m_iotAttrs.toList.filter fun p => d.selected p.2 :=
    List.mem_filter.mpr ⟨Std.TreeMap.mem_toList_iff_getElem?_eq_some.mpr h, hs⟩
  have hne : (d.m_iotAttrs.toList.filter fun p => d.selected p.2).isEmpty = false := by
    cases hl : d.m_iotAttrs.toList.filter fun p => d.selected p.2 with
    | nil => rw [hl] at hm; cases hm
    | cons p l => rfl
  simp only [passPayload, hne]
  rfl

theorem passClear_get (d : DeviceShadow) (k : String8) :
    d.passClear.m_iotAttrs[k]? = (d.m_iotAttrs[k]?).map fun a =>
      if d.selected a then { a with report := false } else a := by
  simp only [passClear, Std.TreeMap.getElem?_map]

/-- **After the pass no attribute is reported any more.** -/
theorem report_passClear (d : DeviceShadow) (k : String8) : d.passClear.report k = false := by
  unfold report
  rw [passClear_get]
  cases d.m_iotAttrs[k]? with
  | none => rfl
  | some a =>
    by_cases hs : d.selected a = true
    · simp [hs]
    · have hr : a.report = false := by
        cases hr : a.report with
        | false => rfl
        | true => exact absurd (selected_of_report hr) hs
      simp [hs, hr]

/-! ## 2. What a push owes -/

/-- The next `pushProperties` will look at the attribute. -/
def Pending (d : DeviceShadow) (k : String8) : Prop :=
  d.report k = true ∧ (d.m_reportFlag = true ∨ d.g_forceReport = true)

/-- The attribute was added to the payload of this call and the push returned 0. -/
def Delivered (d : DeviceShadow) (rc : String8 → Int) (pushRc : Int) (k : String8) : Prop :=
  (d.m_reportFlag = true ∨ d.g_forceReport = true) ∧
    (∃ a, d.m_iotAttrs[k]? = some a ∧ d.selected a = true) ∧ rc k = 0 ∧ pushRc = 0

/-- **A report is only forgotten once it was delivered.** -/
def KeepsPending (d : DeviceShadow) (rc : String8 → Int) (pushRc : Int) : Prop :=
  ∀ k,
    (d.report k = true → (d.pushProperties rc pushRc).2.report k = false →
      Delivered d rc pushRc k) ∧
    (Pending d k → ¬ Delivered d rc pushRc k → Pending (d.pushProperties rc pushRc).2 k)

/-- The bytes the Adds of `l` took so far, where `len` is what an attribute takes. -/
def taken (len : ShadowAttr → Nat) (rc : String8 → Int) (l : List (String8 × DSAttr)) : Nat :=
  ((l.filter fun p => rc p.1 = 0).map fun p => len p.2.attr).sum

/-- The SDK's part: an Add that does not fit in what is left of the payload fails. -/
def RespectsRoom (len : ShadowAttr → Nat) (d : DeviceShadow) (rc : String8 → Int) : Prop :=
  ∀ l₁ p l₂, (d.m_iotAttrs.toList.filter fun p => d.selected p.2) = l₁ ++ p :: l₂ →
    PAYLOAD_MAX_LEN < taken len rc l₁ + len p.2.attr → rc p.1 ≠ 0

theorem pushProperties_idle {d : DeviceShadow} (hf : d.m_reportFlag = false)
    (hg : d.g_forceReport = false) (rc : String8 → Int) (pushRc : Int) :
    d.pushProperties rc pushRc = (0, d) := by
  simp [pushProperties, hf, hg]

/-- Once the pass has run, every report flag is cleared and both flags are. -/
theorem pushProperties_pass {d : DeviceShadow}
    (h : d.m_reportFlag = true ∨ d.g_forceReport = true) (rc : String8 → Int) (pushRc : Int) :
    (∀ k, (d.pushProperties rc pushRc).2.report k = false) ∧
      (d.pushProperties rc pushRc).2.m_reportFlag = false ∧
      (d.pushProperties rc pushRc).2.g_forceReport = false := by
  have hn : (!d.m_reportFlag && !d.g_forceReport) = false := by
    rcases h with h | h <;> simp [h]
  simp only [pushProperties, hn]
  exact ⟨fun k => report_passClear d k, rfl, rfl⟩

/-- **When nothing is lost**: neither flag was set, or every Add of an attribute
    with report 1 returned 0 and so did the push. -/
theorem keepsPending_iff (d : DeviceShadow) (rc : String8 → Int) (pushRc : Int) :
    KeepsPending d rc pushRc ↔
      (d.m_reportFlag = false ∧ d.g_forceReport = false) ∨
        ∀ k, d.report k = true → rc k = 0 ∧ pushRc = 0 := by
  by_cases h : d.m_reportFlag = true ∨ d.g_forceReport = true
  · have hn : ¬ (d.m_reportFlag = false ∧ d.g_forceReport = false) := by
      intro hfg
      obtain ⟨hf, hg⟩ := hfg
      rw [hf, hg] at h
      rcases h with h | h <;> cases h
    obtain ⟨hrep, hflag, hforce⟩ := pushProperties_pass h rc pushRc
    rw [or_iff_right hn]
    constructor
    · intro hk k hr
      obtain ⟨-, -, hrc, hpush⟩ := (hk k).1 hr (hrep k)
      exact ⟨hrc, hpush⟩
    · intro hall k
      have hdel : d.report k = true → Delivered d rc pushRc k := by
        intro hr
        obtain ⟨a, ha, har⟩ := report_true.mp hr
        exact ⟨h, ⟨a, ha, selected_of_report har⟩, hall k hr⟩
      exact ⟨fun hr _ => hdel hr, fun hp hnd => absurd (hdel hp.1) hnd⟩
  · have hf : d.m_reportFlag = false := by simpa using fun e => h (.inl e)
    have hg : d.g_forceReport = false := by simpa using fun e => h (.inr e)
    have hidle := pushProperties_idle hf hg rc pushRc
    constructor
    · exact fun _ => .inl ⟨hf, hg⟩
    · intro _ k
      rw [hidle]
      refine ⟨fun hr hr' => ?_, fun hp _ => hp⟩
      rw [hr] at hr'
      cases hr'

/-! ## 3. A report that is forgotten -/

/-- One client property, reported and not yet pushed. -/
def oneReported : DeviceShadow :=
  let d := ((init false).doAddProperty (lit "power") IOT_PROPERTY_INT32 4 .succeed).2
  { (d.reportLocked (lit "power") (lit "1")).2 with m_reportFlag := true, m_shadow := some 0 }

/-- **A failed push forgets the report**: the Add of `power` fits and returns 0,
    the push returns -1, and `power` is not pending any more. -/
theorem report_forgotten :
    ¬ ∀ (d : DeviceShadow) (len : ShadowAttr → Nat) (rc : String8 → Int) (pushRc : Int),
      RespectsRoom len d rc → KeepsPending d rc pushRc := by
  intro h
  have hroom : RespectsRoom (fun _ => 20) oneReported (fun _ => 0) := by
    have hl : (oneReported.m_iotAttrs.toList.filter fun p => oneReported.selected p.2).length = 1 :=
      by decide
    intro l₁ p l₂ he hbig
    rw [he] at hl
    simp only [List.length_append, List.length_cons] at hl
    have h₁ : l₁ = [] := List.eq_nil_of_length_eq_zero (by omega)
    subst h₁
    simp [taken, PAYLOAD_MAX_LEN] at hbig
  have hk := h oneReported (fun _ => 20) (fun _ => 0) (-1) hroom (lit "power")
  have hrep : oneReported.report (lit "power") = true := by decide
  have hcleared : (oneReported.pushProperties (fun _ => 0) (-1)).2.report (lit "power") = false := by
    decide
  obtain ⟨-, -, -, hpush⟩ := hk.1 hrep hcleared
  cases hpush

end DeviceShadow

end IotWrap
