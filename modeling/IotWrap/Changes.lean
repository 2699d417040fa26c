/-
  File:      IotWrap/Changes.lean
  Subject:   Which changes `updateProperties` reports, and whether it stops
             (jni/server/IOT_DeviceShadow.cpp).

  A poll compares an answer with what the poll before left in the buffer. Where
  that store did not end (see Stored.lean) the next comparison with the same
  answer fails again, and the attribute is reported after every poll.

  * `reportsChanges`: one poll raises exactly the flags of the attributes whose
    answer differs from the stored value, and keeps everything else;
  * `settles_iff`: a second poll with the same answers changes nothing if and
    only if every answer of the first one ends;
  * `reported_forever`: `on` after `off` is reported by every poll.
-/
import IotWrap.Stored

namespace IotWrap

open Lib

namespace DeviceShadow

/-! ## 1. Answers and changes -/

/-- What the followers of an attribute answer to a poll. -/
def answer (s : IOTService) (ans : IOTService.Answers) (a : ShadowAttr) : Option Bytes :=
  if s.lastAnswer ans a.pattr_name = [] then none else some (s.lastAnswer ans a.pattr_name)

/-- A string as a value of the attribute's type. -/
def answerValue (a : ShadowAttr) (str : Bytes) : PropValue :=
  match a.attr_type with
  | .IOTX_SHADOW_INT32 => .int32 (atoi str).toInt
  | .IOTX_SHADOW_STRING => .string (cstr str)
  | .other => .unknown

/-- The answer differs from the value stored in a non-local attribute. -/
def Changed (s : IOTService) (ans : IOTService.Answers) (a : DSAttr) : Prop :=
  a.isLocal = false ∧ ∃ str ∈ answer s ans a.attr, a.attr.value ≠ answerValue a.attr str

/-- An answer fits: a string is shorter than both buffers, a number is shorter than
    the local one and the attribute has the four bytes of an int32. -/
def AnswerRoom (a : ShadowAttr) (str : Bytes) : Prop :=
  match a.attr_type with
  | .IOTX_SHADOW_INT32 => str.length < 32 ∧ 4 ≤ a.pattr_data.length
  | .IOTX_SHADOW_STRING => str.length < a.pattr_data.length ∧ str.length < ATTR_VALUE_MAX_LEN
  | .other => True

/-- The followers of an attribute give one answer, which fits, or none. -/
def OneAnswer (s : IOTService) (ans : IOTService.Answers) (a : ShadowAttr) : Prop :=
  (∀ w ∈ s.answersOf ans a.pattr_name, w = s.lastAnswer ans a.pattr_name) ∧
    ∀ str ∈ answer s ans a, AnswerRoom a str

/-- Every non-local attribute has one answer, or none. -/
def Assigned (d : DeviceShadow) (ans : IOTService.Answers) : Prop :=
  ∀ (k : String8) (a : DSAttr), d.m_iotAttrs[k]? = some a → a.isLocal = false →
    OneAnswer d.toIOTService ans a.attr

/-- **One poll reports changes and only changes**: flags are raised for the changed
    attributes and none is lowered; local attributes and those without an answer
    are left alone. -/
def ReportsChanges (d : DeviceShadow) (ans : IOTService.Answers) : Prop :=
  (∀ (k : String8) (a : DSAttr), d.m_iotAttrs[k]? = some a →
    ∃ a', (d.updateProperties ans).m_iotAttrs[k]? = some a' ∧
      (a'.report = true ↔ a.report = true ∨ Changed d.toIOTService ans a) ∧
      (a.isLocal = true ∨ answer d.toIOTService ans a.attr = none → a' = a)) ∧
  ((d.updateProperties ans).m_reportFlag = true ↔ d.m_reportFlag = true ∨
    ∃ (k : String8) (a : DSAttr), d.m_iotAttrs[k]? = some a ∧ Changed d.toIOTService ans a)

/-- A poll, then a push that clears what it raised. -/
def pollAndPush (d : DeviceShadow) (ans : IOTService.Answers) (rc : String8 → Int) (pushRc : Int) :
    DeviceShadow :=
  ((d.updateProperties ans).pushProperties rc pushRc).2

/-- **The device settles**: a second poll with the same answers stores nothing and
    raises no flag. -/
def Settles (d : DeviceShadow) (ans : IOTService.Answers) (rc : String8 → Int) (pushRc : Int) :
    Prop :=
  (∀ k : String8, ((d.pollAndPush ans rc pushRc).updateProperties ans).m_iotAttrs[k]? =
    (d.pollAndPush ans rc pushRc).m_iotAttrs[k]?) ∧
  ((d.pollAndPush ans rc pushRc).updateProperties ans).m_reportFlag =
    (d.pollAndPush ans rc pushRc).m_reportFlag

/-- **The condition**: every answer for a STRING attribute ends in its buffer. -/
def AnswersEnd (d : DeviceShadow) (ans : IOTService.Answers) : Prop :=
  ∀ (k : String8) (a : DSAttr), d.m_iotAttrs[k]? = some a → a.isLocal = false →
    a.attr.attr_type = .IOTX_SHADOW_STRING →
    ∀ str ∈ answer d.toIOTService ans a.attr, Ends a.attr.pattr_data str

/-! ## 2. One attribute -/

theorem answer_some {s : IOTService} {ans : IOTService.Answers} {a : ShadowAttr} {str : Bytes}
    (h : answer s ans a = some str) : str = s.lastAnswer ans a.pattr_name ∧ str ≠ [] := by
  unfold answer at h
  split at h
  · cases h
  · rename_i hne
    obtain rfl := Option.some.inj h
    exact ⟨rfl, hne⟩

/-- Without an answer a poll returns no length. -/
theorem polled_none {s : IOTService} {ans : IOTService.Answers} {a : ShadowAttr} {cap : Nat}
    (hcap : 0 < cap) (h : answer s ans a = none) : ¬ 0 < (polled s ans a cap).1 := by
  intro hret
  have hne := (IOTService.polled_answer hcap hret).1
  unfold answer at h
  rw [if_neg hne] at h
  cases h

/-- With an answer it returns its length. -/
theorem polled_pos {s : IOTService} {ans : IOTService.Answers} {a : ShadowAttr} {cap : Nat}
    (hcap : 0 < cap) {str : Bytes} (h : answer s ans a = some str) :
    0 < (polled s ans a cap).1 := by
  obtain ⟨rfl, hne⟩ := answer_some h
  have hmem := IOTService.lastAnswer_mem hne
  have hkey : a.pattr_name ∈ s.m_keyFollow := by
    by_contra hk
    have hnil : s.answersOf ans a.pattr_name = [] := by
      unfold IOTService.answersOf IOTService.stored
      rw [Std.TreeMap.getElem?_eq_none hk]
      rfl
    rw [hnil] at hmem
    cases hmem
  have hlen : (calloc cap).length = cap := length_calloc cap
  have hpos : 0 < (calloc cap).length := by rw [hlen]; exact hcap
  have hret := (s.callPropertyGet_eq ans a.pattr_name hpos).2.1 hkey (by
    rw [IOTService.askedAnswers_eq hkey]
    exact List.ne_nil_of_mem hmem)
  rw [IOTService.askedAnswers_eq hkey, hlen] at hret
  have hl := List.length_pos_of_ne_nil hne
  show 0 < (s.callPropertyGet ans a.pattr_name (calloc cap) cap).1
  rw [hret]
  unfold IOTService.lastAnswer at hl
  omega

/-- What the local buffer reads as: the answer. -/
theorem polled_reads {s : IOTService} {ans : IOTService.Answers} {a : ShadowAttr} {cap : Nat}
    (hone : ∀ w ∈ s.answersOf ans a.pattr_name, w = s.lastAnswer ans a.pattr_name) {str : Bytes}
    (h : answer s ans a = some str) (hshort : str.length < cap) :
    cstr (polled s ans a cap).2 = cstr str := by
  have hret := polled_pos (Nat.zero_lt_of_lt hshort) h
  obtain ⟨rfl, -⟩ := answer_some h
  obtain ⟨r, hr⟩ := polled_behind hret hshort fun w hw => by rw [hone w hw]
  rw [hr]
  exact cstr_append_zero _ r

/-- The two comparisons of `updateProperties` are the comparison of the values. -/
theorem value_ne_iff (a : ShadowAttr) (str : Bytes) :
    a.value ≠ answerValue a str ↔
      match a.attr_type with
      | .IOTX_SHADOW_INT32 => loadInt32 a.pattr_data ≠ atoi str
      | .IOTX_SHADOW_STRING => cstr a.pattr_data ≠ cstr str
      | .other => False := by
  unfold ShadowAttr.value answerValue
  cases a.attr_type with
  | IOTX_SHADOW_INT32 =>
    simp only [ne_eq, PropValue.int32.injEq]
    exact not_congr BitVec.toInt_inj
  | IOTX_SHADOW_STRING => simp only [ne_eq, PropValue.string.injEq]
  | other => simp

/-- **What a poll stores** for a non-local attribute with an answer. -/
theorem updateData_some {s : IOTService} {ans : IOTService.Answers} {a : DSAttr}
    (hloc : a.isLocal = false) (h : OneAnswer s ans a.attr) {str : Bytes}
    (hstr : answer s ans a.attr = some str) :
    (updateData s ans a).isSome = true ↔ a.attr.value ≠ answerValue a.attr str := by
  have hroom := h.2 str hstr
  rw [value_ne_iff]
  unfold updateData
  unfold AnswerRoom at hroom
  simp only [hloc, Bool.false_eq_true, ↓reduceIte]
  cases ht : a.attr.attr_type with
  | IOTX_SHADOW_INT32 =>
    simp only [ht] at hroom ⊢
    have hret : 0 < (polled s ans a.attr 32).1 := polled_pos (by decide) hstr
    have hatoi := atoi_congr (polled_reads h.1 hstr hroom.1)
    by_cases hd : loadInt32 a.attr.pattr_data = atoi str
    · simp [hatoi, hd]
    · simp [hatoi, hd, hret]
  | IOTX_SHADOW_STRING =>
    simp only [ht] at hroom ⊢
    have hret : 0 < (polled s ans a.attr ATTR_VALUE_MAX_LEN).1 := polled_pos (by decide) hstr
    have hread := polled_reads h.1 hstr hroom.2
    by_cases hd : cstr a.attr.pattr_data = cstr str
    · simp [hread, hd]
    · simp [hread, hd, hret]
  | other => simp

/-- Without an answer, or for a local attribute, nothing is stored. -/
theorem updateData_none {s : IOTService} {ans : IOTService.Answers} {a : DSAttr}
    (h : a.isLocal = true ∨ answer s ans a.attr = none) : updateData s ans a = none := by
  unfold updateData
  rcases h with h | h
  · rw [if_pos h]
  · split
    · rfl
    · split
      · have hret : ¬ 0 < (polled s ans a.attr 32).1 := polled_none (by decide) h
        simp [hret]
      · have hret : ¬ 0 < (polled s ans a.attr ATTR_VALUE_MAX_LEN).1 := polled_none (by decide) h
        simp [hret]
      · rfl

/-- **An attribute is stored to exactly where it changed.** -/
theorem updateData_isSome {s : IOTService} {ans : IOTService.Answers} {a : DSAttr}
    (h : a.isLocal = false → OneAnswer s ans a.attr) :
    (updateData s ans a).isSome = true ↔ Changed s ans a := by
  cases hloc : a.isLocal with
  | true => simp [updateData_none (.inl hloc), Changed, hloc]
  | false =>
    cases hstr : answer s ans a.attr with
    | none => simp [updateData_none (.inr hstr), Changed, hstr]
    | some str =>
      rw [updateData_some hloc (h hloc) hstr]
      simp [Changed, hloc, hstr]

/-! ## 3. One poll -/

theorem report_updateAttr {s : IOTService} {ans : IOTService.Answers} {a : DSAttr}
    (h : a.isLocal = false → OneAnswer s ans a.attr) :
    (updateAttr s ans a).report = true ↔ a.report = true ∨ Changed s ans a := by
  rw [← updateData_isSome h]
  rcases updateAttr_cases s ans a with ⟨hd, e⟩ | ⟨data, hd, e⟩
  · simp [e, hd]
  · simp [e, hd, DSAttr.setData]

/-- **One poll reports changes and only changes.** -/
theorem reportsChanges {d : DeviceShadow} {ans : IOTService.Answers} (h : d.Assigned ans) :
    d.ReportsChanges ans := by
  refine ⟨fun k a ha => ⟨updateAttr d.toIOTService ans a, ?_, ?_, fun hno => ?_⟩, ?_⟩
  · rw [updateProperties_get, ha]
    rfl
  · exact report_updateAttr (h k a ha)
  · unfold updateAttr
    rw [updateData_none hno]
  · show (d.m_reportFlag || _) = true ↔ _
    rw [Bool.or_eq_true, List.any_eq_true]
    refine or_congr Iff.rfl ⟨?_, ?_⟩
    · rintro ⟨⟨k, a⟩, hm, hs⟩
      have ha := Std.TreeMap.mem_toList_iff_getElem?_eq_some.mp hm
      exact ⟨k, a, ha, (updateData_isSome (h k a ha)).mp hs⟩
    · rintro ⟨k, a, ha, hc⟩
      exact ⟨(k, a), Std.TreeMap.mem_toList_iff_getElem?_eq_some.mpr ha,
        (updateData_isSome (h k a ha)).mpr hc⟩

/-! ## 4. The next poll -/

/-- After a poll an INT32 attribute has its answer. -/
theorem load_updateAttr {s : IOTService} {ans : IOTService.Answers} {a : DSAttr}
    (hloc : a.isLocal = false) (h : OneAnswer s ans a.attr)
    (ht : a.attr.attr_type = .IOTX_SHADOW_INT32) {str : Bytes}
    (hstr : answer s ans a.attr = some str) :
    loadInt32 (updateAttr s ans a).attr.pattr_data = atoi str := by
  have hroom := h.2 str hstr
  simp only [AnswerRoom, ht] at hroom
  have hret : 0 < (polled s ans a.attr 32).1 := polled_pos (by decide) hstr
  have hatoi := atoi_congr (polled_reads h.1 hstr hroom.1)
  unfold updateAttr updateData
  simp only [hloc, Bool.false_eq_true, ↓reduceIte, ht]
  rw [hatoi]
  by_cases hd : loadInt32 a.attr.pattr_data = atoi str
  · rw [if_neg (fun hc => hc.2 hd)]
    exact hd
  · rw [if_pos ⟨hret, hd⟩]
    exact load_storeInt32 hroom.2 _

theorem isLocal_updateAttr (s : IOTService) (ans : IOTService.Answers) (a : DSAttr) :
    (updateAttr s ans a).isLocal = a.isLocal := by
  rcases updateAttr_cases s ans a with ⟨-, e⟩ | ⟨data, -, e⟩
  · rw [e]
  · rw [e]
    rfl

theorem answer_updateAttr (s : IOTService) (ans : IOTService.Answers) (a : DSAttr) :
    answer s ans (updateAttr s ans a).attr = answer s ans a.attr := by
  unfold answer
  rw [(updateAttr_shape s ans a).1]

theorem oneAnswer_updateAttr {s : IOTService} {ans : IOTService.Answers} {a : DSAttr}
    (h : OneAnswer s ans a.attr) : OneAnswer s ans (updateAttr s ans a).attr := by
  obtain ⟨hname, htype⟩ := updateAttr_shape s ans a
  unfold OneAnswer AnswerRoom
  rw [answer_updateAttr, hname, htype, length_updateAttr]
  exact h

/-- **What a poll leaves changed**: a STRING attribute whose answer did not end. -/
theorem changed_updateAttr {s : IOTService} {ans : IOTService.Answers} {a : DSAttr}
    (h : a.isLocal = false → OneAnswer s ans a.attr) (r : Bool) :
    Changed s ans { updateAttr s ans a with report := r } ↔
      a.isLocal = false ∧ a.attr.attr_type = .IOTX_SHADOW_STRING ∧
        ∃ str ∈ answer s ans a.attr, ¬ Ends a.attr.pattr_data str := by
  have htype := (updateAttr_shape s ans a).2
  unfold Changed
  simp only [isLocal_updateAttr, answer_updateAttr]
  refine and_congr_right fun hloc => ?_
  constructor
  · rintro ⟨str, hstr, hne⟩
    rw [value_ne_iff, htype] at hne
    cases ht : a.attr.attr_type with
    | IOTX_SHADOW_INT32 =>
      rw [ht] at hne
      exact absurd (load_updateAttr hloc (h hloc) ht hstr) hne
    | IOTX_SHADOW_STRING =>
      rw [ht] at hne
      refine ⟨rfl, str, hstr, fun he => hne ?_⟩
      have hroom := (h hloc).2 str hstr
      have hret : 0 < (polled s ans a.attr ATTR_VALUE_MAX_LEN).1 := polled_pos (by decide) hstr
      obtain ⟨rfl, -⟩ := answer_some hstr
      simp only [AnswerRoom, ht] at hroom
      exact (reads_update_string hloc ht hret (by simpa only [Storable, ht] using hroom)).mpr he
    | other =>
      rw [ht] at hne
      exact hne.elim
  · rintro ⟨ht, str, hstr, hno⟩
    refine ⟨str, hstr, ?_⟩
    rw [value_ne_iff, htype, ht]
    have hroom := (h hloc).2 str hstr
    have hret : 0 < (polled s ans a.attr ATTR_VALUE_MAX_LEN).1 := polled_pos (by decide) hstr
    obtain ⟨rfl, -⟩ := answer_some hstr
    simp only [AnswerRoom, ht] at hroom
    exact fun he => hno ((reads_update_string hloc ht hret
      (by simpa only [Storable, ht] using hroom)).mp he)

/-- A changed attribute was changed before the poll as well. -/
theorem changed_of_changed {s : IOTService} {ans : IOTService.Answers} {a : DSAttr}
    (h : a.isLocal = false → OneAnswer s ans a.attr) {r : Bool}
    (hc : Changed s ans { updateAttr s ans a with report := r }) : Changed s ans a := by
  by_contra hno
  have hd := (not_congr (updateData_isSome h)).mpr hno
  have he : updateAttr s ans a = a := by
    rcases updateAttr_cases s ans a with ⟨-, e⟩ | ⟨data, hs, -⟩
    · exact e
    · simp [hs] at hd
  rw [he] at hc
  exact hno hc

section Next

variable (d : DeviceShadow) (ans : IOTService.Answers) (rc : String8 → Int) (pushRc : Int)

theorem pollAndPush_service : (d.pollAndPush ans rc pushRc).toIOTService = d.toIOTService := by
  unfold pollAndPush pushProperties
  split <;> rfl

/-- Between the polls the push touches report flags alone. -/
theorem pollAndPush_get (k : String8) :
    (d.m_iotAttrs[k]? = none ∧ (d.pollAndPush ans rc pushRc).m_iotAttrs[k]? = none) ∨
      ∃ a r, d.m_iotAttrs[k]? = some a ∧ (d.pollAndPush ans rc pushRc).m_iotAttrs[k]? =
        some { updateAttr d.toIOTService ans a with report := r } := by
  have hget := d.updateProperties_get ans k
  cases ha : d.m_iotAttrs[k]? with
  | none =>
    rw [ha, Option.map_none] at hget
    refine .inl ⟨rfl, ?_⟩
    unfold pollAndPush pushProperties
    split
    · exact hget
    · show (d.updateProperties ans).passClear.m_iotAttrs[k]? = none
      rw [passClear_get, hget]
      rfl
  | some a =>
    rw [ha, Option.map_some] at hget
    unfold pollAndPush pushProperties
    split
    · exact .inr ⟨a, (updateAttr d.toIOTService ans a).report, rfl, hget⟩
    · refine .inr ⟨a, if (d.updateProperties ans).selected (updateAttr d.toIOTService ans a) then
        false else (updateAttr d.toIOTService ans a).report, rfl, ?_⟩
      show (d.updateProperties ans).passClear.m_iotAttrs[k]? = _
      rw [passClear_get, hget, Option.map_some]
      split <;> rfl

/-- **Settling is having nothing left changed.** -/
theorem settles_iff_unchanged (h : d.Assigned ans) :
    d.Settles ans rc pushRc ↔
      ∀ (k : String8) (a : DSAttr), (d.pollAndPush ans rc pushRc).m_iotAttrs[k]? = some a →
        ¬ Changed d.toIOTService ans a := by
  have hs := d.pollAndPush_service ans rc pushRc
  have hone : ∀ (k : String8) (a : DSAttr),
      (d.pollAndPush ans rc pushRc).m_iotAttrs[k]? = some a →
      a.isLocal = false → OneAnswer d.toIOTService ans a.attr := by
    intro k a' ha'
    rcases d.pollAndPush_get ans rc pushRc k with ⟨-, hn⟩ | ⟨a, r, ha, he⟩
    · rw [hn] at ha'
      cases ha'
    · obtain rfl := Option.some.inj (he.symm.trans ha')
      intro hloc
      rw [isLocal_updateAttr] at hloc
      exact oneAnswer_updateAttr (h k a ha hloc)
  constructor
  · rintro ⟨-, hflag⟩ k a' ha' hc
    rcases d.pollAndPush_get ans rc pushRc k with ⟨-, hn⟩ | ⟨a, r, ha, he⟩
    · rw [hn] at ha'
      cases ha'
    · -- it was changed before the first poll, so the push ran and lowered the flag
      obtain rfl := Option.some.inj (he.symm.trans ha')
      have hraised : (d.updateProperties ans).m_reportFlag = true :=
        (reportsChanges h).2.mpr (.inr ⟨k, a, ha, changed_of_changed (h k a ha) hc⟩)
      have hdown : (d.pollAndPush ans rc pushRc).m_reportFlag = false :=
        (pushProperties_pass (.inl hraised) rc pushRc).2.1
      have hup : ((d.pollAndPush ans rc pushRc).updateProperties ans).m_reportFlag = true := by
        show ((d.pollAndPush ans rc pushRc).m_reportFlag || _) = true
        rw [Bool.or_eq_true, List.any_eq_true]
        refine .inr ⟨(k, _), Std.TreeMap.mem_toList_iff_getElem?_eq_some.mpr he, ?_⟩
        rw [hs]
        exact (updateData_isSome (hone k _ he)).mpr hc
      rw [hup, hdown] at hflag
      cases hflag
  · intro hno
    have hsame : ∀ (k : String8) (a : DSAttr),
        (d.pollAndPush ans rc pushRc).m_iotAttrs[k]? = some a →
        updateData d.toIOTService ans a = none := by
      intro k a ha
      have := (not_congr (updateData_isSome (hone k a ha))).mpr (hno k a ha)
      simpa using this
    refine ⟨fun k => ?_, ?_⟩
    · rw [updateProperties_get, hs]
      cases ha : (d.pollAndPush ans rc pushRc).m_iotAttrs[k]? with
      | none => rfl
      | some a =>
        rw [Option.map_some, updateAttr, hsame k a ha]
    · show ((d.pollAndPush ans rc pushRc).m_reportFlag || _) = _
      have hany : ((d.pollAndPush ans rc pushRc).m_iotAttrs.toList.any fun p =>
          (updateData (d.pollAndPush ans rc pushRc).toIOTService ans p.2).isSome) = false := by
        rw [List.any_eq_false]
        rintro ⟨k, a⟩ hm
        rw [hs, hsame k a (Std.TreeMap.mem_toList_iff_getElem?_eq_some.mp hm)]
        simp
      rw [hany, Bool.or_false]

end Next

/-- A device that settles had answers that end. -/
theorem answersEnd_of_settles {d : DeviceShadow} {ans : IOTService.Answers} (h : d.Assigned ans)
    {rc : String8 → Int} {pushRc : Int} (hset : d.Settles ans rc pushRc) : d.AnswersEnd ans := by
  intro k a ha hloc ht str hstr
  by_contra hend
  rcases d.pollAndPush_get ans rc pushRc k with ⟨hn, -⟩ | ⟨b, r, hb, he⟩
  · rw [hn] at ha
    cases ha
  · obtain rfl := Option.some.inj (hb.symm.trans ha)
    exact (settles_iff_unchanged d ans rc pushRc h).mp hset k _ he
      ((changed_updateAttr (h k b ha) r).mpr ⟨hloc, ht, str, hstr, hend⟩)

/-- Where the answers end, nothing is changed after the first poll. -/
theorem settles_of_answersEnd {d : DeviceShadow} {ans : IOTService.Answers} (h : d.Assigned ans)
    (rc : String8 → Int) (pushRc : Int) (hend : d.AnswersEnd ans) : d.Settles ans rc pushRc := by
  refine (settles_iff_unchanged d ans rc pushRc h).mpr fun k a' ha' hc => ?_
  rcases d.pollAndPush_get ans rc pushRc k with ⟨-, hn⟩ | ⟨a, r, ha, he⟩
  · rw [hn] at ha'
    cases ha'
  · obtain rfl := Option.some.inj (he.symm.trans ha')
    obtain ⟨hloc, ht, str, hstr, hno⟩ := (changed_updateAttr (h k a ha) r).mp hc
    exact hno (hend k a ha hloc ht str hstr)

/-- **When the device settles**: a poll reports changes and only changes, and a
    second one with the same answers changes nothing, if and only if every answer
    of the first one for a STRING attribute ends. -/
theorem settles_iff {d : DeviceShadow} {ans : IOTService.Answers} (h : d.Assigned ans)
    (rc : String8 → Int) (pushRc : Int) :
    (d.ReportsChanges ans ∧ d.Settles ans rc pushRc) ↔ d.AnswersEnd ans :=
  ⟨fun hp => answersEnd_of_settles h hp.2,
    fun hend => ⟨reportsChanges h, settles_of_answersEnd h rc pushRc hend⟩⟩

/-! ## 5. A shorter answer -/

/-- A server whose only client follows `name` with 16 bytes, after more requests. -/
def followsName (ops : List BufOp) : DeviceShadow :=
  (BufOp.service (.createClient (lit "tv")) :: .service (.registPropertyCB 0 1) ::
    .followProperty 0 (lit "name") IOT_PROPERTY_STRING 16 .succeed :: ops).foldl exec (init false)

/-- The client answers `on`. -/
def answersOn : IOTService.Answers := fun _ _ => some (lit "on")

theorem oneAnswer_name {s : IOTService} {r : Bool} {data : Bytes}
    (hs : s.answersOf answersOn (lit "name") = [lit "on"]) (hlen : data.length = 16) :
    OneAnswer s answersOn (Writing.nameAttr r data).attr := by
  have hlast : s.lastAnswer answersOn (lit "name") = lit "on" := by
    unfold IOTService.lastAnswer
    rw [hs]
    rfl
  refine ⟨fun w hw => ?_, fun str hstr => ?_⟩
  · show w = s.lastAnswer answersOn (lit "name")
    rw [hlast]
    have hw' : w ∈ s.answersOf answersOn (lit "name") := hw
    rw [hs] at hw'
    exact List.mem_singleton.mp hw'
  · obtain ⟨he, -⟩ := answer_some hstr
    have he' : str = lit "on" := he.trans hlast
    show str.length < data.length ∧ str.length < ATTR_VALUE_MAX_LEN
    rw [he', hlen]
    decide

theorem assigned_name {d : DeviceShadow} {r : Bool} {data : Bytes}
    (ht : ∀ p ∈ d.m_iotAttrs.toList, p.2.isLocal = false → p.2 = Writing.nameAttr r data)
    (hs : d.toIOTService.answersOf answersOn (lit "name") = [lit "on"]) (hlen : data.length = 16) :
    d.Assigned answersOn := by
  intro k a ha hloc
  obtain rfl := ht (k, a) (Std.TreeMap.mem_toList_iff_getElem?_eq_some.mpr ha) hloc
  exact oneAnswer_name hs hlen

/-- `settles_iff` for `on` in a fresh buffer. -/
theorem settles_iff_fresh : (followsName []).Settles answersOn (fun _ => 0) 0 := by
  have ht : ∀ p ∈ (followsName []).m_iotAttrs.toList, p.2.isLocal = false →
      p.2 = Writing.nameAttr false (calloc 16) := by decide
  refine ((settles_iff (assigned_name ht (by decide) (by decide)) (fun _ => 0) 0).mpr ?_).2
  intro k a ha hloc _ str hstr
  obtain rfl := ht (k, a) (Std.TreeMap.mem_toList_iff_getElem?_eq_some.mpr ha) hloc
  obtain ⟨rfl, -⟩ := answer_some hstr
  exact .inr (by decide)

/-- **Reported forever**: `off` is stored, the client answers `on`, `onf` is stored
    and differs from `on` in every poll after that. -/
theorem reported_forever :
    ¬ ∀ (d : DeviceShadow) (ans : IOTService.Answers), d.Assigned ans →
      ∀ (rc : String8 → Int) (pushRc : Int), d.ReportsChanges ans ∧ d.Settles ans rc pushRc := by
  intro h
  have ht : ∀ p ∈ (followsName [.reportProperty (lit "name") (lit "off") 0]).m_iotAttrs.toList,
      p.2.isLocal = false → p.2 = Writing.nameAttr true (lit "off" ++ calloc 13) := by decide
  have has := assigned_name ht (by decide) (by decide)
  have hend := answersEnd_of_settles has (h _ answersOn has (fun _ => 0) 0).2
  have hget : (followsName [.reportProperty (lit "name") (lit "off") 0]).m_iotAttrs[lit "name"]? =
      some (Writing.nameAttr true (lit "off" ++ calloc 13)) := by decide
  have hans : answer (followsName [.reportProperty (lit "name") (lit "off") 0]).toIOTService
      answersOn (Writing.nameAttr true (lit "off" ++ calloc 13)).attr = some (lit "on") := by decide
  have hno := hend _ _ hget rfl rfl _ hans
  revert hno
  unfold Ends
  decide

end DeviceShadow

end IotWrap
