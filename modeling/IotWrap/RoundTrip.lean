/-
  File:      IotWrap/RoundTrip.lean
  Subject:   A value of the cloud on its way to a client and back
             (jni/server/IOT_DeviceShadow.cpp, jni/server/IOT_Service.cpp).

  `_DS_call_default_property_cb` formats the value into a buffer of
  `ATTR_VALUE_MAX_LEN` bytes, so at most 255 of them reach the client. The size
  of an attribute is not limited by that: `doAddProperty` takes any.

  The follower remembers what it was set to (`lastSet`), and that is what its
  `get` returns.

  * `formatValue_text`: what reaches the client is the value, cut at 255 bytes;
  * `roundTrip_iff`: the client gets the value, and the next poll leaves it,
    if and only if it is not a longer string;
  * `value_cut`: a string of 256 bytes.
-/
import IotWrap.Changes

namespace IotWrap

open Lib
open IOTService (Invocation)

namespace DeviceShadow

/-! ## 1. The follower -/

/-- The value as text: what a client is to be given. -/
def valueText (a : ShadowAttr) : Bytes :=
  match a.attr_type with
  | .IOTX_SHADOW_INT32 => decimal (loadInt32 a.pattr_data).toInt
  | .IOTX_SHADOW_STRING => cstr a.pattr_data
  | .other => []

/-- `get` of callbacks that answer what the last `set` of the key gave them. -/
def lastSet (log : List Invocation) : IOTService.Answers := fun cb key =>
  ((log.filter fun i => i.cb = cb ∧ i.key = key).getLast?).map Invocation.val

/-- An attribute as `doAddProperty` accepts it, with a value the SDK stored: an
    INT32 has its four bytes, a string has its terminator in the buffer. -/
structure CloudAttr (k : String8) (a : DSAttr) : Prop where
  notLocal : a.isLocal = false
  name : a.attr.pattr_name = k
  value : (a.attr.attr_type = .IOTX_SHADOW_INT32 ∧ 4 ≤ a.attr.pattr_data.length) ∨
    (a.attr.attr_type = .IOTX_SHADOW_STRING ∧ (0 : UInt8) ∈ a.attr.pattr_data)

/-- The only follower of the key, with its callback. -/
structure OnlyFollower (s : IOTService) (k : String8) (c : ClientId) (cb : CbId) : Prop where
  follower : s.m_keyFollow[k]? = some (some [c])
  callback : (s.client c).m_property = some cb

/-- **The round trip** of the value of `a`: the callback gives it to the follower and
    to nobody else, and the next poll leaves value and report flag as they are.
    `log` is what was called before. -/
def RoundTrip (d : DeviceShadow) (k : String8) (a : DSAttr) (c : ClientId) (cb : CbId)
    (log : List Invocation) : Prop :=
  (d.callDefaultPropertyCb a.attr).1 = [⟨c, cb, k, valueText a.attr⟩] ∧
    ∃ a', (((d.callDefaultPropertyCb a.attr).2.updateProperties
        (lastSet (log ++ (d.callDefaultPropertyCb a.attr).1))).m_iotAttrs[k]?) = some a' ∧
      a'.attr.value = a.attr.value ∧ a'.report = a.report

/-- What `doAddProperty` enters is such an attribute, once the SDK stored a value
    that fits. -/
theorem cloudAttr_doAddProperty {d : DeviceShadow} {k : String8} {type size : Int} {a : DSAttr}
    {data : Bytes} (hk : k ∉ d.m_iotAttrs)
    (ha : (d.doAddProperty k type size .succeed).2.m_iotAttrs[k]? = some a)
    (hlen : data.length = a.attr.pattr_data.length)
    (h4 : a.attr.attr_type = .IOTX_SHADOW_INT32 → 4 ≤ size)
    (h0 : a.attr.attr_type = .IOTX_SHADOW_STRING → (0 : UInt8) ∈ data) :
    CloudAttr k (a.setData data) := by
  unfold doAddProperty at ha
  cases ht : acceptType type size with
  | none =>
    simp only [ht] at ha
    exact absurd (mem_of_get ha) hk
  | some t =>
    simp only [ht, _addProperty, if_neg hk, _newProperty, reduceCtorEq, ↓reduceIte] at ha
    rw [registerNew_eq] at ha
    have hins : (d.m_iotAttrs.insert k (⟨false, false, ⟨k, calloc size.toNat, t, .IOTX_SHADOW_RW,
        some .DS_call_default_property_cb⟩⟩ : DSAttr))[k]? = some a := ha
    rw [get_insert, if_pos rfl] at hins
    obtain rfl := Option.some.inj hins
    refine ⟨rfl, rfl, ?_⟩
    rcases acceptType_cases ht with rfl | rfl
    · refine .inl ⟨rfl, ?_⟩
      have := h4 rfl
      show 4 ≤ data.length
      rw [hlen, length_calloc]
      omega
    · exact .inr ⟨rfl, h0 rfl⟩

/-! ## 2. To the client -/

/-- **What reaches the client** is the value, cut at 255 bytes. -/
theorem formatValue_text {k : String8} {a : DSAttr} (ha : CloudAttr k a) :
    formatValue a.attr = some ((valueText a.attr).take (ATTR_VALUE_MAX_LEN - 1)) := by
  unfold formatValue valueText
  rcases ha.value with ⟨ht, -⟩ | ⟨ht, -⟩
  · rw [ht]
  · rw [ht]

theorem isInt32_toInt (x : BitVec 32) : IsInt32 x.toInt :=
  ⟨BitVec.le_toInt x, BitVec.toInt_lt⟩

/-- A number is never cut. -/
theorem valueText_short {a : ShadowAttr} (h : a.attr_type = .IOTX_SHADOW_STRING →
    (cstr a.pattr_data).length < ATTR_VALUE_MAX_LEN) :
    (valueText a).length < ATTR_VALUE_MAX_LEN := by
  unfold valueText
  cases ht : a.attr_type with
  | IOTX_SHADOW_INT32 =>
    exact Nat.lt_of_le_of_lt (length_decimal_le (isInt32_toInt _)) (by decide)
  | IOTX_SHADOW_STRING => exact h ht
  | other => exact (by decide : 0 < ATTR_VALUE_MAX_LEN)

theorem callDefaultPropertyCb_eq {d : DeviceShadow} {k : String8} {a : DSAttr} {c : ClientId}
    {cb : CbId} (ha : CloudAttr k a) (hf : OnlyFollower d.toIOTService k c cb) :
    d.callDefaultPropertyCb a.attr =
      ([⟨c, cb, k, (valueText a.attr).take (ATTR_VALUE_MAX_LEN - 1)⟩],
        { d with g_forceReport := true }) := by
  unfold callDefaultPropertyCb
  rw [formatValue_text ha]
  simp only [ha.name, IOTService.callPropertySet, IOTService.call, hf.follower,
    IOTService.callAll, List.filterMap_cons, List.filterMap_nil, hf.callback, Option.map_some]

/-! ## 3. And back -/

theorem lastSet_append (log : List Invocation) (i : Invocation) :
    lastSet (log ++ [i]) i.cb i.key = some i.val := by
  unfold lastSet
  rw [List.filter_append, List.filter_cons_of_pos (by simp), List.filter_nil, List.getLast?_concat]
  rfl

/-- The follower's answer is the only one. -/
theorem answersOf_lastSet {s : IOTService} {k : String8} {c : ClientId} {cb : CbId}
    (hf : OnlyFollower s k c cb) (log : List Invocation) (text : Bytes) :
    s.answersOf (lastSet (log ++ [⟨c, cb, k, text⟩])) k = [text] := by
  have hget := lastSet_append log ⟨c, cb, k, text⟩
  unfold IOTService.answersOf IOTService.stored
  rw [hf.follower]
  simp only [List.filterMap_cons, List.filterMap_nil, IOTService.answerOf, hf.callback,
    Option.bind_some]
  rw [hget]

/-- **A value that comes back whole** is not changed. -/
theorem not_changed_of_text {s : IOTService} {ans : IOTService.Answers} {a : DSAttr} {k : String8}
    (ha : CloudAttr k a) (hans : s.answersOf ans k = [valueText a.attr])
    (hshort : (valueText a.attr).length < ATTR_VALUE_MAX_LEN) : updateData s ans a = none := by
  have hlast : s.lastAnswer ans a.attr.pattr_name = valueText a.attr := by
    unfold IOTService.lastAnswer
    rw [ha.name, hans]
    rfl
  cases hstr : answer s ans a.attr with
  | none => exact updateData_none (.inr hstr)
  | some str =>
    obtain ⟨he, -⟩ := answer_some hstr
    rw [hlast] at he
    subst he
    have hone : OneAnswer s ans a.attr := by
      refine ⟨fun w hw => ?_, fun str hs => ?_⟩
      · rw [ha.name, hans] at hw
        rw [hlast]
        exact List.mem_singleton.mp hw
      · obtain rfl := Option.some.inj (hstr.symm.trans hs)
        unfold AnswerRoom
        rcases ha.value with ⟨ht, h4⟩ | ⟨ht, h0⟩
        · simp only [ht]
          refine ⟨?_, h4⟩
          simp only [valueText, ht]
          exact Nat.lt_of_le_of_lt (length_decimal_le (isInt32_toInt _)) (by decide)
        · simp only [ht]
          refine ⟨?_, hshort⟩
          simp only [valueText, ht]
          exact length_cstr_lt h0
    have hsame : a.attr.value = answerValue a.attr (valueText a.attr) := by
      unfold ShadowAttr.value answerValue valueText
      rcases ha.value with ⟨ht, -⟩ | ⟨ht, -⟩
      · simp only [ht]
        have hat := atoi_decimal (isInt32_toInt (loadInt32 a.attr.pattr_data)) (r := []) (by simp)
        rw [List.append_nil] at hat
        rw [hat, BitVec.ofInt_toInt]
      · simp only [ht, cstr_cstr]
    have hno := mt (updateData_some ha.notLocal hone hstr).mp (not_not.mpr hsame)
    simpa using hno

/-- **The round trip**: the follower is given the value, and the next poll leaves it
    and marks nothing, if and only if it is no string of 256 bytes or more. -/
theorem roundTrip_iff {d : DeviceShadow} {k : String8} {a : DSAttr} {c : ClientId} {cb : CbId}
    (hk : d.m_iotAttrs[k]? = some a) (ha : CloudAttr k a)
    (hf : OnlyFollower d.toIOTService k c cb) (log : List Invocation) :
    d.RoundTrip k a c cb log ↔
      (a.attr.attr_type = .IOTX_SHADOW_STRING →
        (cstr a.attr.pattr_data).length < ATTR_VALUE_MAX_LEN) := by
  unfold RoundTrip
  rw [callDefaultPropertyCb_eq ha hf]
  constructor
  · rintro ⟨hcall, -⟩ ht
    have htake : (valueText a.attr).take (ATTR_VALUE_MAX_LEN - 1) = valueText a.attr := by
      simpa using hcall
    have hlen := congrArg List.length htake
    simp only [List.length_take, valueText, ht, ATTR_VALUE_MAX_LEN] at hlen
    simp only [ATTR_VALUE_MAX_LEN]
    omega
  · intro h
    have hshort := valueText_short h
    have htake : (valueText a.attr).take (ATTR_VALUE_MAX_LEN - 1) = valueText a.attr :=
      List.take_of_length_le (Nat.le_pred_of_lt hshort)
    rw [htake]
    refine ⟨rfl, a, ?_, rfl, rfl⟩
    have hdata := not_changed_of_text ha (answersOf_lastSet hf log (valueText a.attr)) hshort
    rw [updateProperties_get]
    show (d.m_iotAttrs[k]?).map (updateAttr d.toIOTService _) = some a
    rw [hk, Option.map_some, updateAttr, hdata]

/-! ## 4. A value that is cut -/

/-- The server of one client that follows `name` with the given size. -/
def followsSized (size : Int) : DeviceShadow :=
  [BufOp.service (.createClient (lit "tv")), .service (.registPropertyCB 0 1),
    .followProperty 0 (lit "name") IOT_PROPERTY_STRING size .succeed].foldl exec (init false)

/-- The cloud delivers bytes for `name`. -/
def delivered (size : Int) (data : Bytes) : DeviceShadow :=
  Reporting.sdkStore (followsSized size) (lit "name") data

theorem delivered_get {size : Int} {data : Bytes}
    (h : ((followsSized size).m_iotAttrs[lit "name"]?).map (fun a => a.setData []) =
      some (Writing.nameAttr false [])) :
    (delivered size data).m_iotAttrs[lit "name"]? = some (Writing.nameAttr false data) := by
  obtain ⟨a, ha, he⟩ := Option.map_eq_some_iff.mp h
  have hget := get_modify (followsSized size).m_iotAttrs (lit "name") (fun a => a.setData data)
    (lit "name")
  rw [if_pos rfl, ha] at hget
  exact hget.trans (congrArg (fun b : DSAttr => some (b.setData data)) he)

/-- `roundTrip_iff` for `on`. -/
theorem roundTrip_iff_on :
    (delivered 16 (lit "on" ++ calloc 14)).RoundTrip (lit "name")
      (Writing.nameAttr false (lit "on" ++ calloc 14)) 0 1 [] := by
  have hnew : ((followsSized 16).m_iotAttrs[lit "name"]?).map (fun a => a.setData []) =
      some (Writing.nameAttr false []) := by decide
  have ha : CloudAttr (lit "name") (Writing.nameAttr false (lit "on" ++ calloc 14)) :=
    ⟨rfl, rfl, .inr ⟨rfl, by decide⟩⟩
  have hf : OnlyFollower (delivered 16 (lit "on" ++ calloc 14)).toIOTService (lit "name") 0 1 :=
    ⟨by decide, by decide⟩
  exact (roundTrip_iff (delivered_get hnew) ha hf []).mpr fun _ => by decide

/-- The bytes of a string of 256 letters in a buffer of 300. -/
def longName : Bytes := List.replicate 256 97 ++ 0 :: List.replicate 43 0

theorem cstr_longName : cstr longName = List.replicate 256 97 := by
  rw [longName, cstr_append_zero]
  refine cstr_eq_self fun h => ?_
  exact absurd (List.eq_of_mem_replicate h) (by decide)

/-- **A string is cut**: 256 letters are stored, and 255 reach the client. -/
theorem value_cut :
    ¬ ∀ (d : DeviceShadow) (k : String8) (a : DSAttr) (c : ClientId) (cb : CbId)
      (log : List Invocation), d.m_iotAttrs[k]? = some a → CloudAttr k a →
        OnlyFollower d.toIOTService k c cb → d.RoundTrip k a c cb log := by
  intro h
  have hnew : ((followsSized 300).m_iotAttrs[lit "name"]?).map (fun a => a.setData []) =
      some (Writing.nameAttr false []) := by decide
  have ha : CloudAttr (lit "name") (Writing.nameAttr false longName) :=
    ⟨rfl, rfl, .inr ⟨rfl, List.mem_append_right _ List.mem_cons_self⟩⟩
  have hf : OnlyFollower (delivered 300 longName).toIOTService (lit "name") 0 1 :=
    ⟨by decide, by decide⟩
  have hcall := (h _ _ _ 0 1 [] (delivered_get hnew) ha hf).1
  rw [callDefaultPropertyCb_eq ha hf] at hcall
  have hval : (valueText (Writing.nameAttr false longName).attr).take (ATTR_VALUE_MAX_LEN - 1) =
      valueText (Writing.nameAttr false longName).attr := by simpa using hcall
  have htext : valueText (Writing.nameAttr false longName).attr = List.replicate 256 97 :=
    cstr_longName
  have hlen := congrArg List.length hval
  rw [htext, List.length_take, List.length_replicate] at hlen
  exact absurd hlen (by decide)

end DeviceShadow

end IotWrap
