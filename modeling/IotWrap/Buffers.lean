/-
  File:      IotWrap/Buffers.lean
  Subject:   The buffers of the attributes over whole runs: which accesses stay
             inside.

  A run is a list of requests and polls; `accesses` are what one of them does
  to the attribute buffers and to the local buffers of `updateProperties`.
  Nothing in the source relates the size a client asked for to the lengths that
  are stored later. `Fits` is the condition on one step (on its arguments and
  on the sizes in the table) that does. Where the `calloc` of a value fails the
  attribute stays, with no bytes to access; `Fits` leaves that out too.

  The invariant that carries the proof is `Sized`: an INT32 attribute has its
  four bytes, and a STRING attribute ends in a NUL that no store ever reaches.

  * `sized_exec`: a step that fits keeps `Sized`;
  * `accesses_inBounds`: on every run whose steps fit, every access is allowed;
  * `report_overruns`: a run with a store past the end.
-/
import IotWrap.Lib.Machine
import IotWrap.Push
import IotWrap.Registry

namespace IotWrap

open Lib

namespace IOTService

/-! ## 1. The local buffer of a poll -/

/-- What a client answers to `get(key)`; nothing where it has no callback or the
    call fails. -/
def answerOf (s : IOTService) (ans : Answers) (key : String8) (c : ClientId) : Option String8 :=
  (s.client c).m_property.bind fun cb => ans cb key

/-- The answers of the followers of a key, in follow order. -/
def answersOf (s : IOTService) (ans : Answers) (key : String8) : List String8 :=
  (stored s.m_keyFollow key).filterMap (s.answerOf ans key)

/-- The last of them; the empty string where there is none. -/
def lastAnswer (s : IOTService) (ans : Answers) (key : String8) : String8 :=
  (s.answersOf ans key).getLast?.getD []

/-- Every answer to `get(key)` is shorter than the buffer it is copied to. -/
def AnswersShort (s : IOTService) (ans : Answers) (key : String8) (cap : Nat) : Prop :=
  ∀ str ∈ s.answersOf ans key, str.length < cap

theorem lastAnswer_mem {s : IOTService} {ans : Answers} {key : String8}
    (h : s.lastAnswer ans key ≠ []) : s.lastAnswer ans key ∈ s.answersOf ans key := by
  unfold lastAnswer at h ⊢
  cases hl : (s.answersOf ans key).getLast? with
  | none => exact absurd (by rw [hl]; rfl) h
  | some str => exact List.mem_of_getLast? hl

/-- What every round of `callPropertyGet`'s loop keeps: `len` is the length of
    the last answer as far as it fits, and the buffer starts with that much of it. -/
structure GetLoop.Copied (cap : Nat) (g : GetLoop) : Prop where
  len : g.len = min g.str.length cap
  starts : g.str.take cap <+: g.val
  length : g.val.length = cap

theorem getFrom_str (s : IOTService) (ans : Answers) (key : String8) (cap : Nat) (g : GetLoop)
    (c : ClientId) : (s.getFrom ans key cap g c).str = (s.answerOf ans key c).getD g.str := by
  unfold getFrom answerOf
  cases (s.client c).m_property with
  | none => rfl
  | some cb =>
    simp only [Option.bind_some]
    split <;> rfl

theorem getFrom_copied {s : IOTService} {ans : Answers} {key : String8} {cap : Nat} {g : GetLoop}
    (hg : g.Copied cap) (c : ClientId) : (s.getFrom ans key cap g c).Copied cap := by
  unfold getFrom
  cases (s.client c).m_property with
  | none => exact hg
  | some cb =>
    simp only
    split
    · rename_i h0
      refine ⟨by simp [h0], ?_, hg.length⟩
      simp [List.eq_nil_of_length_eq_zero h0]
    · refine ⟨rfl, ?_, by simpa using hg.length⟩
      have hs := take_starts_poke g.val (((ans cb key).getD g.str).take cap)
      rw [hg.length, List.take_take, Nat.min_self] at hs
      have htake : ((ans cb key).getD g.str).take (min ((ans cb key).getD g.str).length cap) =
          ((ans cb key).getD g.str).take cap := by
        rw [Nat.min_comm, ← List.take_take, List.take_length]
      simpa only [memcpy, htake] using hs

/-- A round with a short answer does not write the last byte of the buffer. -/
theorem getFrom_terminated {s : IOTService} {ans : Answers} {key : String8} {cap : Nat}
    {g : GetLoop} {c : ClientId} (hg : g.Copied cap) (ht : Terminated g.val)
    (hs : ((s.answerOf ans key c).getD g.str).length < cap) :
    Terminated (s.getFrom ans key cap g c).val := by
  unfold getFrom
  unfold answerOf at hs
  cases hp : (s.client c).m_property with
  | none => exact ht
  | some cb =>
    rw [hp, Option.bind_some] at hs
    simp only
    split
    · exact ht
    · refine terminated_poke_short ht ?_
      rw [List.length_take, hg.length]
      omega

/-- The whole loop: the last answer is the one that stays. -/
theorem getLoop_copied (s : IOTService) (ans : Answers) (key : String8) {cap : Nat}
    (l : List ClientId) {g : GetLoop} (hg : g.Copied cap) :
    (l.foldl (s.getFrom ans key cap) g).Copied cap ∧
      (l.foldl (s.getFrom ans key cap) g).str =
        (l.filterMap (s.answerOf ans key)).getLast?.getD g.str := by
  induction l generalizing g with
  | nil => exact ⟨hg, rfl⟩
  | cons c l ih =>
    obtain ⟨hcop, hstr⟩ := ih (getFrom_copied hg c)
    rw [List.foldl_cons]
    refine ⟨hcop, hstr.trans ?_⟩
    rw [getFrom_str]
    cases ha : s.answerOf ans key c with
    | none => rw [List.filterMap_cons_none ha]; rfl
    | some str => rw [List.filterMap_cons_some ha, List.getLast?_cons]; rfl

theorem getLoop_terminated {s : IOTService} {ans : Answers} {key : String8} {cap : Nat}
    {l : List ClientId} {g : GetLoop} (hg : g.Copied cap) (ht : Terminated g.val)
    (hs : g.str.length < cap) (hl : ∀ str ∈ l.filterMap (s.answerOf ans key), str.length < cap) :
    Terminated (l.foldl (s.getFrom ans key cap) g).val := by
  induction l generalizing g with
  | nil => exact ht
  | cons c l ih =>
    have hc : ((s.answerOf ans key c).getD g.str).length < cap := by
      cases ha : s.answerOf ans key c with
      | none => exact hs
      | some str => exact hl str (List.mem_filterMap.mpr ⟨c, List.mem_cons_self, ha⟩)
    rw [List.foldl_cons]
    refine ih (getFrom_copied hg c) (getFrom_terminated hg ht hc) ?_ fun str hstr => ?_
    · rw [getFrom_str]
      exact hc
    · obtain ⟨c', hc', ha⟩ := List.mem_filterMap.mp hstr
      exact hl str (List.mem_filterMap.mpr ⟨c', List.mem_cons_of_mem c hc', ha⟩)

/-- **What a poll gets**, where it returns a length: the last answer is not empty
    and the buffer starts with it, as far as it fits; with short answers the
    buffer keeps its NUL. -/
theorem polled_answer {s : IOTService} {ans : Answers} {a : ShadowAttr} {cap : Nat}
    (hcap : 0 < cap) (hret : (DeviceShadow.polled s ans a cap).1 > 0) :
    s.lastAnswer ans a.pattr_name ≠ [] ∧
      (DeviceShadow.polled s ans a cap).1 =
        (min (s.lastAnswer ans a.pattr_name).length cap : Nat) ∧
      (s.lastAnswer ans a.pattr_name).take cap <+: (DeviceShadow.polled s ans a cap).2 ∧
      (s.AnswersShort ans a.pattr_name cap →
        (0 : UInt8) ∈ (DeviceShadow.polled s ans a cap).2) := by
  unfold DeviceShadow.polled callPropertyGet at hret ⊢
  rw [if_neg (Nat.not_le_of_lt hcap)] at hret ⊢
  cases hm : s.m_keyFollow[a.pattr_name]? with
  | none =>
    rw [hm] at hret
    cases hcl : s.m_clients with
    | nil => simp [hcl] at hret
    | cons c l => simp [hcl] at hret
  | some p =>
    cases p with
    | none => simp [hm] at hret
    | some l =>
      have hg : GetLoop.Copied cap ⟨[], 0, calloc cap⟩ :=
        ⟨by simp, by simp, length_calloc cap⟩
      obtain ⟨hcop, hstr⟩ := getLoop_copied s ans a.pattr_name l hg
      have hlast : s.lastAnswer ans a.pattr_name =
          (l.foldl (s.getFrom ans a.pattr_name cap) ⟨[], 0, calloc cap⟩).str := by
        simp only [lastAnswer, answersOf, stored, hm]
        exact hstr.symm
      rw [hm] at hret
      rw [hlast]
      refine ⟨fun he => ?_, congrArg Int.ofNat hcop.len, hcop.starts, fun hs => ?_⟩
      · simp [hcop.len, he] at hret
      · simp only [AnswersShort, answersOf, stored, hm] at hs
        exact (getLoop_terminated hg (terminated_calloc hcap) hcap hs).zero_mem

end IOTService

namespace DeviceShadow

/-! ## 2. Runs and their accesses -/

/-- A request or a poll, as the server executes it. -/
inductive BufOp where
  | service (op : IOTService.Op) : BufOp
  | followProperty (c : ClientId) (key : String8) (type size : Int) (mem : Callocs) : BufOp
  | reportProperty (key val : String8) (pushRc : Int) : BufOp
  | updateProperties (ans : IOTService.Answers) : BufOp

def exec (d : DeviceShadow) : BufOp → DeviceShadow
  | .service op => { d with toIOTService := d.toIOTService.exec op }
  | .followProperty c key type size mem => (d.followProperty c key type size mem).2
  | .reportProperty key val pushRc => (d.doReportProperty (cstr key) (cstr val) pushRc).2
  | .updateProperties ans => d.updateProperties ans

/-- What one step does to the attribute buffers and the local buffers. -/
def accesses (d : DeviceShadow) : BufOp → List Access
  | .service _ => []
  | .followProperty _ _ _ _ _ => []
  | .reportProperty key val _ =>
    match d.m_iotAttrs[cstr key]? with
    | none => []
    | some a => reportAccesses a.attr (cstr val)
  | .updateProperties ans =>
    d.m_iotAttrs.toList.flatMap fun p => updateAccesses d.toIOTService ans p.2

/-- The runs of requests and polls on a freshly constructed server, whose constructor
    made its attribute with its value or not at all. -/
def buffers : Machine DeviceShadow BufOp where
  init d := ∃ reportFlag mem, mem ≠ .noData ∧ d = construct reportFlag mem
  enabled _ _ := True
  next := exec

/-- The answers fit an attribute. Where the last one is not empty (else nothing is
    read or stored), each is shorter than the local buffer, and the last one is
    shorter than a STRING attribute's buffer (or is the stored string, or fills
    the buffer and has a NUL of its own). -/
def AnswerFits (s : IOTService) (ans : IOTService.Answers) (a : ShadowAttr) : Prop :=
  s.lastAnswer ans a.pattr_name ≠ [] →
    match a.attr_type with
    | .IOTX_SHADOW_INT32 => s.AnswersShort ans a.pattr_name 32
    | .IOTX_SHADOW_STRING =>
      s.AnswersShort ans a.pattr_name ATTR_VALUE_MAX_LEN ∧
        let str := s.lastAnswer ans a.pattr_name
        str.length < a.pattr_data.length ∨ cstr str = cstr a.pattr_data ∨
          (str.length = a.pattr_data.length ∧ (0 : UInt8) ∈ str)
    | .other => True

/-- What a new attribute needs: memory for its value where it is made at all, and the
    four bytes of an INT32. -/
def Made (t : AttrType) (size : Int) (mem : Callocs) : Prop :=
  mem ≠ .noData ∧ (t = .IOTX_SHADOW_INT32 → 4 ≤ size)

/-- **The condition on one step**: a new attribute gets the memory for its value, a new
    INT32 attribute is followed with a size of at least 4, a string reported to a
    STRING attribute is shorter than its buffer, and the answers of a poll fit. -/
def Fits (d : DeviceShadow) : BufOp → Prop
  | .service _ => True
  | .followProperty _ key type size mem =>
    cstr key ∉ d.m_iotAttrs → ∀ t, acceptType type size = some t → Made t size mem
  | .reportProperty key val _ => ∀ a : DSAttr, d.m_iotAttrs[cstr key]? = some a →
      a.attr.attr_type = .IOTX_SHADOW_STRING → (cstr val).length < a.attr.pattr_data.length
  | .updateProperties ans => ∀ (k : String8) (a : DSAttr), d.m_iotAttrs[k]? = some a →
      a.isLocal = false → AnswerFits d.toIOTService ans a.attr

/-! ## 3. The invariant -/

/-- An attribute's buffer is large enough for its type, and ends in NUL. -/
structure AttrSized (a : ShadowAttr) : Prop where
  int32 : a.attr_type = .IOTX_SHADOW_INT32 → 4 ≤ a.pattr_data.length
  string : a.attr_type = .IOTX_SHADOW_STRING → Terminated a.pattr_data

/-- **The invariant**: every attribute of the table has such a buffer. -/
def Sized (m : AttrTable) : Prop := ∀ (k : String8) (a : DSAttr), m[k]? = some a → AttrSized a.attr

theorem sized_insert {m : AttrTable} (hm : Sized m) {k : String8} {a : DSAttr}
    (ha : AttrSized a.attr) : Sized (m.insert k a) := by
  intro k' a' h
  rw [Std.TreeMap.getElem?_insert] at h
  split at h
  · obtain rfl := Option.some.inj h
    exact ha
  · exact hm k' a' h

/-- A fresh buffer, zeroed by `calloc`. -/
theorem attrSized_new {name : String8} {t : AttrType} {size : Int} {cb : Option AttrCb}
    {mem : Callocs} {attr : ShadowAttr} (h : _newProperty name t size cb mem = some attr) (hs : 0 < size)
    (hm : Made t size mem) : AttrSized attr := by
  unfold _newProperty at h
  split at h
  · cases h
  · obtain rfl := Option.some.inj h
    rw [if_neg hm.1]
    refine ⟨fun ht => ?_, fun _ => terminated_calloc (by omega)⟩
    have := hm.2 ht
    rw [length_calloc]
    omega

theorem sized_addProperty {d : DeviceShadow} (hd : Sized d.m_iotAttrs) {name : String8}
    {t : AttrType} {size : Int} {cb : Option AttrCb} {isLocal : Bool} {mem : Callocs} (hs : 0 < size)
    (hm : name ∉ d.m_iotAttrs → Made t size mem) :
    Sized (d._addProperty name t size cb isLocal mem).2.m_iotAttrs := by
  unfold _addProperty
  by_cases hn : name ∈ d.m_iotAttrs
  · rw [if_pos hn]
    exact hd
  · rw [if_neg hn]
    cases hp : _newProperty name t size cb mem with
    | none => exact hd
    | some attr => exact sized_insert hd (attrSized_new hp hs (hm hn))

theorem sized_empty : Sized {} := by
  intro k a h
  simp at h

theorem sized_construct (reportFlag : Bool) {mem : Callocs} (hm : mem ≠ .noData) :
    Sized (construct reportFlag mem).m_iotAttrs :=
  sized_addProperty sized_empty (by decide) fun _ => ⟨hm, fun _ => by decide⟩

theorem acceptType_pos {type size : Int} {t : AttrType} (h : acceptType type size = some t) :
    0 < size := by
  unfold acceptType at h
  split at h
  · cases h
  · omega

theorem sized_doAddProperty {d : DeviceShadow} (hd : Sized d.m_iotAttrs) {name : String8}
    {type size : Int} {mem : Callocs} (hm : name ∉ d.m_iotAttrs →
      ∀ t, acceptType type size = some t → Made t size mem) :
    Sized (d.doAddProperty name type size mem).2.m_iotAttrs := by
  unfold doAddProperty
  cases ht : acceptType type size with
  | none => exact hd
  | some t =>
    show Sized (DeviceShadow.registerNew _ _).m_iotAttrs
    rw [registerNew_eq]
    exact sized_addProperty hd (acceptType_pos ht) fun hn => hm hn t ht

theorem sized_followProperty {d : DeviceShadow} (hd : Sized d.m_iotAttrs) {c : ClientId}
    {key : String8} {type size : Int} {mem : Callocs}
    (hf : d.Fits (.followProperty c key type size mem)) :
    Sized (d.followProperty c key type size mem).2.m_iotAttrs := by
  unfold followProperty
  cases hf' : d.toIOTService.addFollowing FOLLOW_TYPE_PROPERTY (cstr key) c with
  | mk ret s =>
    show Sized (if ret ≠ 0 then _ else _ : Int × DeviceShadow).2.m_iotAttrs
    split
    · exact hd
    · exact sized_doAddProperty (d := { d with toIOTService := s }) hd hf

theorem sized_setReport {d : DeviceShadow} (hd : Sized d.m_iotAttrs) (key : String8) (b : Bool) :
    Sized (d.setReport key b).m_iotAttrs := by
  intro k a h
  simp only [setReport, Std.TreeMap.getElem?_modify] at h
  split at h
  · obtain ⟨a', ha', rfl⟩ := Option.map_eq_some_iff.mp h
    exact ⟨(hd key a' ha').int32, (hd key a' ha').string⟩
  · exact hd k a h

/-- What `doReportProperty` stores keeps the buffer sized, where the string fits. -/
theorem attrSized_report {a : ShadowAttr} (ha : AttrSized a) {val : String8} {data : Bytes}
    (h : reportData a val = some data)
    (hv : a.attr_type = .IOTX_SHADOW_STRING → (cstr val).length < a.pattr_data.length) :
    AttrSized (a.setData data) := by
  unfold reportData at h
  split at h
  · rename_i ht
    obtain rfl := Option.some.inj h
    refine ⟨fun _ => ?_, fun hs => ?_⟩
    · show 4 ≤ (storeInt32 a.pattr_data (atoi val)).length
      rw [length_storeInt32]
      exact ha.int32 ht
    · have hs' : a.attr_type = .IOTX_SHADOW_STRING := hs
      rw [ht] at hs'
      cases hs'
  · rename_i ht
    obtain rfl := Option.some.inj h
    refine ⟨fun hi => ?_, fun _ => ?_⟩
    · have hi' : a.attr_type = .IOTX_SHADOW_INT32 := hi
      rw [ht] at hi'
      cases hi'
    · exact terminated_strncpy (ha.string ht) (.inl (hv ht))
  · cases h

theorem sized_reportLocked {d : DeviceShadow} (hd : Sized d.m_iotAttrs) {key val : String8}
    (hv : ∀ a : DSAttr, d.m_iotAttrs[key]? = some a → a.attr.attr_type = .IOTX_SHADOW_STRING →
      (cstr val).length < a.attr.pattr_data.length) :
    Sized (d.reportLocked key val).2.m_iotAttrs := by
  unfold reportLocked
  cases hk : d.m_iotAttrs[key]? with
  | none => exact hd
  | some a =>
    cases hr : reportData a.attr val with
    | none =>
      simp only [hr]
      exact sized_insert hd ⟨(hd key a hk).int32, (hd key a hk).string⟩
    | some data =>
      simp only [hr]
      exact sized_insert hd (attrSized_report (hd key a hk) hr (hv a hk))

theorem sized_doReportProperty {d : DeviceShadow} (hd : Sized d.m_iotAttrs) {key val : String8}
    (pushRc : Int) (hv : ∀ a : DSAttr, d.m_iotAttrs[key]? = some a →
      a.attr.attr_type = .IOTX_SHADOW_STRING → (cstr val).length < a.attr.pattr_data.length) :
    Sized (d.doReportProperty key val pushRc).2.m_iotAttrs := by
  have hl := sized_reportLocked hd hv
  unfold doReportProperty
  cases hr : d.reportLocked key val with
  | mk go d' =>
    rw [hr] at hl
    cases go with
    | false => exact hl
    | true =>
      show Sized (if _ then _ else _ : DeviceShadow).m_iotAttrs
      split
      · exact sized_setReport (d := { d' with m_reportFlag := true }) hl key false
      · exact hl

/-- An answer that fits a STRING attribute and differs from its value: the store
    ends before the last byte of the buffer, or it fills the buffer and the
    string ends before the store does. -/
theorem polled_fits {s : IOTService} {ans : IOTService.Answers} {a : ShadowAttr}
    (ht : a.attr_type = .IOTX_SHADOW_STRING) (hterm : Terminated a.pattr_data)
    (hf : AnswerFits s ans a) (hret : (polled s ans a ATTR_VALUE_MAX_LEN).1 > 0)
    (hdiff : cstr a.pattr_data ≠ cstr (polled s ans a ATTR_VALUE_MAX_LEN).2) :
    (polled s ans a ATTR_VALUE_MAX_LEN).1.toNat < a.pattr_data.length ∨
      ((polled s ans a ATTR_VALUE_MAX_LEN).1.toNat = a.pattr_data.length ∧
        (cstr (polled s ans a ATTR_VALUE_MAX_LEN).2).length <
          (polled s ans a ATTR_VALUE_MAX_LEN).1.toNat) := by
  obtain ⟨hne, hlen, hstarts, -⟩ := IOTService.polled_answer (by decide) hret
  have hfit := hf hne
  simp only [ht] at hfit
  obtain ⟨hshort, hlast⟩ := hfit
  have hcap := hshort _ (IOTService.lastAnswer_mem hne)
  rw [List.take_of_length_le (Nat.le_of_lt hcap)] at hstarts
  rw [hlen, Int.toNat_natCast, Nat.min_eq_left (Nat.le_of_lt hcap)]
  rcases hlast with hlt | he | ⟨hfull, hnul⟩
  · exact .inl hlt
  · refine .inl (Nat.lt_of_not_le fun hle => hdiff ?_)
    -- the answer is the stored string and goes on behind it: it has a NUL
    have hnul : (0 : UInt8) ∈ s.lastAnswer ans a.pattr_name := by
      refine zero_mem_of_length_cstr (Nat.lt_of_lt_of_le ?_ hle)
      rw [he]
      exact length_cstr_lt hterm.zero_mem
    rw [cstr_of_starts hstarts hnul, he]
  · refine .inr ⟨hfull, ?_⟩
    rw [cstr_of_starts hstarts hnul]
    exact length_cstr_lt hnul

/-- What `updateProperties` stores keeps the buffer sized, where the answer fits. -/
theorem attrSized_update {s : IOTService} {ans : IOTService.Answers} {a : DSAttr}
    (ha : AttrSized a.attr) (hf : a.isLocal = false → AnswerFits s ans a.attr) :
    AttrSized (updateAttr s ans a).attr := by
  unfold updateAttr
  cases hu : updateData s ans a with
  | none => exact ha
  | some data =>
    unfold updateData at hu
    split at hu
    · cases hu
    · rename_i hloc
      have hfit := hf (by simpa using hloc)
      split at hu
      · -- an int32 is stored over an int32
        rename_i ht
        simp only at hu
        split at hu
        · obtain rfl := Option.some.inj hu
          refine ⟨fun _ => ?_, fun hs => ?_⟩
          · show 4 ≤ (storeInt32 a.attr.pattr_data _).length
            rw [length_storeInt32]
            exact ha.int32 ht
          · have hs' : a.attr.attr_type = .IOTX_SHADOW_STRING := hs
            rw [ht] at hs'
            cases hs'
        · cases hu
      · rename_i ht
        simp only at hu
        split at hu
        · rename_i hc
          obtain rfl := Option.some.inj hu
          refine ⟨fun hi => ?_, fun _ => ?_⟩
          · have hi' : a.attr.attr_type = .IOTX_SHADOW_INT32 := hi
            rw [ht] at hi'
            cases hi'
          · have hterm := ha.string ht
            exact terminated_strncpy hterm (polled_fits ht hterm hfit hc.1 hc.2)
        · cases hu
      · cases hu

theorem sized_updateProperties {d : DeviceShadow} (hd : Sized d.m_iotAttrs)
    {ans : IOTService.Answers} (hf : d.Fits (.updateProperties ans)) :
    Sized (d.updateProperties ans).m_iotAttrs := by
  intro k a h
  simp only [updateProperties, Std.TreeMap.getElem?_map, Option.map_eq_some_iff] at h
  obtain ⟨a', ha', rfl⟩ := h
  exact attrSized_update (hd k a' ha') (hf k a' ha')

/-- **A step that fits keeps the buffers sized.** -/
theorem sized_exec {d : DeviceShadow} (hd : Sized d.m_iotAttrs) {op : BufOp} (hf : d.Fits op) :
    Sized (d.exec op).m_iotAttrs := by
  cases op with
  | service op => exact hd
  | followProperty c key type size mem => exact sized_followProperty hd hf
  | reportProperty key val pushRc =>
    refine sized_doReportProperty hd pushRc fun a ha ht => ?_
    exact Nat.lt_of_le_of_lt (length_cstr_le _) (hf a ha ht)
  | updateProperties ans => exact sized_updateProperties hd hf

/-- Every state of a run whose steps fit has sized buffers. -/
theorem sized_reach {d : DeviceShadow} (h : buffers.Reach Fits d) : Sized d.m_iotAttrs := by
  refine h.inv (I := fun d => Sized d.m_iotAttrs) ?_ ?_
  · intro d h0
    obtain ⟨reportFlag, mem, hm, rfl⟩ := h0
    exact sized_construct reportFlag hm
  · exact fun d op hd hf _ => sized_exec hd hf

/-! ## 4. Every access is allowed -/

theorem reportAccesses_inBounds {a : ShadowAttr} (ha : AttrSized a) {val : String8}
    (hv : a.attr_type = .IOTX_SHADOW_STRING → (cstr val).length < a.pattr_data.length) :
    ∀ x ∈ reportAccesses a val, x.inBounds := by
  intro x hx
  unfold reportAccesses at hx
  split at hx
  · rename_i ht
    obtain rfl := List.mem_singleton.mp hx
    exact ha.int32 ht
  · rename_i ht
    obtain rfl := List.mem_singleton.mp hx
    exact Nat.le_of_lt (hv ht)
  · cases hx

theorem updateAccesses_inBounds {s : IOTService} {ans : IOTService.Answers} {a : DSAttr}
    (ha : AttrSized a.attr) (hf : a.isLocal = false → AnswerFits s ans a.attr) :
    ∀ x ∈ updateAccesses s ans a, x.inBounds := by
  intro x hx
  unfold updateAccesses at hx
  split at hx
  · cases hx
  · rename_i hloc
    have hfit := hf (by simpa using hloc)
    split at hx
    · rename_i ht
      have h4 := ha.int32 ht
      simp only at hx
      split at hx
      · rename_i hret
        obtain ⟨hne, -, -, hnul⟩ := IOTService.polled_answer (by decide) hret
        have hshort := hfit hne
        simp only [ht] at hshort
        have hnul := hnul hshort
        simp only [List.cons_append, List.nil_append, List.mem_cons] at hx
        rcases hx with rfl | rfl | hx
        · exact h4
        · exact hnul
        · split at hx
          · obtain rfl := List.mem_singleton.mp hx
            exact h4
          · cases hx
      · cases hx
    · rename_i ht
      have htold := (ha.string ht).zero_mem
      simp only at hx
      split at hx
      · rename_i hret
        obtain ⟨hne, -, -, hnul⟩ := IOTService.polled_answer (by decide) hret
        have hshort := hfit hne
        simp only [ht] at hshort
        have hnul := hnul hshort.1
        simp only [List.cons_append, List.nil_append, List.mem_cons] at hx
        rcases hx with rfl | rfl | hx
        · exact htold
        · exact hnul
        · split at hx
          · rename_i hdiff
            obtain rfl := List.mem_singleton.mp hx
            rcases polled_fits ht (ha.string ht) hfit hret hdiff with hlt | ⟨heq, -⟩
            · exact Nat.le_of_lt hlt
            · exact Nat.le_of_eq heq
          · cases hx
      · cases hx
    · cases hx

/-- **No buffer is overrun** on a run whose steps all fit: every access of the
    next step that fits is allowed as well. -/
theorem accesses_inBounds {d : DeviceShadow} (h : buffers.Reach Fits d) {op : BufOp}
    (hf : d.Fits op) : ∀ x ∈ d.accesses op, x.inBounds := by
  have hd := sized_reach h
  intro x hx
  cases op with
  | service op => cases hx
  | followProperty c key type size mem => cases hx
  | reportProperty key val pushRc =>
    simp only [accesses] at hx
    cases hk : d.m_iotAttrs[cstr key]? with
    | none => rw [hk] at hx; cases hx
    | some a =>
      rw [hk] at hx
      refine reportAccesses_inBounds (hd _ a hk) (fun ht => ?_) x hx
      exact Nat.lt_of_le_of_lt (length_cstr_le _) (hf a hk ht)
  | updateProperties ans =>
    obtain ⟨⟨k, a⟩, hm, hx⟩ := List.mem_flatMap.mp hx
    have hk := Std.TreeMap.mem_toList_iff_getElem?_eq_some.mp hm
    exact updateAccesses_inBounds (hd k a hk) (hf k a hk) x hx

/-- A server on which one client follows the STRING property `name`. -/
def followedName (size : Int) : DeviceShadow :=
  (init false).exec (.followProperty 0 (lit "name") IOT_PROPERTY_STRING size .succeed)

theorem followedName_reach {C : DeviceShadow → BufOp → Prop} (size : Int)
    (hc : C (init false) (.followProperty 0 (lit "name") IOT_PROPERTY_STRING size .succeed)) :
    buffers.Reach C (followedName size) :=
  have h0 : buffers.init (init false) := ⟨false, .succeed, by decide, rfl⟩
  .step _ _ (.init _ h0) hc trivial

theorem fits_string (d : DeviceShadow) (c : ClientId) (key : String8) (size : Int) :
    d.Fits (.followProperty c key IOT_PROPERTY_STRING size .succeed) := by
  intro _ t h
  refine ⟨by decide, fun ht => ?_⟩
  subst ht
  unfold acceptType at h
  split at h
  · cases h
  · simp [IOT_PROPERTY_STRING, IOT_PROPERTY_INT32] at h

/-- `accesses_inBounds` for a string of ten bytes in a buffer of sixteen. -/
theorem accesses_inBounds_name :
    (followedName 16).accesses (.reportProperty (lit "name") (lit "livingroom") 0) =
        [.write 10 16] ∧ (Access.write 10 16).inBounds := by
  have hacc : (followedName 16).accesses (.reportProperty (lit "name") (lit "livingroom") 0) =
      [.write 10 16] := by decide
  have hfit : (followedName 16).Fits (.reportProperty (lit "name") (lit "livingroom") 0) := by
    intro a ha _
    have hlen : (followedName 16).m_iotAttrs[cstr (lit "name")]?.map
        (fun a => a.attr.pattr_data.length) = some 16 := by decide
    rw [ha] at hlen
    have h16 : a.attr.pattr_data.length = 16 := Option.some.inj hlen
    rw [h16]
    decide
  refine ⟨hacc, accesses_inBounds (followedName_reach 16 (fits_string _ _ _ _)) hfit _ ?_⟩
  rw [hacc]
  exact List.mem_singleton.mpr rfl

/-- **A report overruns its buffer**: `name` was followed with 4 bytes, and five
    are stored. -/
theorem report_overruns :
    ¬ ∀ d : DeviceShadow, buffers.Reachable d → ∀ op, ∀ x ∈ d.accesses op, x.inBounds := by
  intro h
  have hw := h (followedName 4) (followedName_reach 4 trivial)
    (.reportProperty (lit "name") (lit "attic") 0) (.write 5 4) (by decide)
  revert hw
  decide

end DeviceShadow

end IotWrap
