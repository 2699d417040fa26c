/-
  File:      IotWrap/Report.lean
  Subject:   Reporting as a machine: any number of doReportProperty calls, the
             loop of the shadow thread, and the cloud's callbacks.

  One label is one step of one thread:

    call     write . setFlag . format . pushCall . finish
    loop     yieldShadow . yielded . (updateProperties | notDue) . readFlag .
             readForce . pass . push . clearFlag . clearForce
    SDK      setProperty | setPeriod . reportPeriod, inside IOT_Shadow_Yield or
             inside an IOT_Shadow_Push, on the thread that is there
    others   service, addProperty

  A push has two results: what `IOT_Shadow_Push` returns, and whether the cloud
  received the payload. It did where 0 is returned; otherwise it may have.

  `cloud`, `reported` and `raised` are history, no step of the source reads them.
-/
import IotWrap.Lib.Machine
import IotWrap.Push
import IotWrap.Registry

namespace IotWrap

open Lib
open DeviceShadow (FormatData pushFormatAdd)

/-! ## 1. The machine -/

/-- Where a call of `doReportProperty` is. -/
inductive CallPc where
  | idle : CallPc
  /-- The value and `report = 1` are written, `m_reportFlag` is not. -/
  | written (k : String8) : CallPc
  | flagged (k : String8) : CallPc
  /-- In `IOT_Shadow_Push`; `half`: a period callback there is half done. -/
  | pushing (k : String8) (payload : FormatData) (half : Bool) : CallPc
  | pushed (k : String8) (payload : FormatData) (ret : Int) : CallPc
  deriving DecidableEq, Repr

/-- Where the shadow thread is. -/
inductive LoopPc where
  | setupShadow : LoopPc
  | preShadow : LoopPc
  | head : LoopPc
  | yielding (half : Bool) : LoopPc
  | yielded : LoopPc
  /-- At `pushProperties`. -/
  | toPush : LoopPc
  /-- `m_reportFlag` was read false. -/
  | flagRead : LoopPc
  /-- Before the pass over the table. -/
  | go : LoopPc
  | pushing (payload : FormatData) (half : Bool) : LoopPc
  /-- The push has returned, or there was nothing to push. -/
  | pushed : LoopPc
  /-- `m_reportFlag = false` is done, `g_forceReport = false` is not. -/
  | flagCleared : LoopPc
  deriving DecidableEq, Repr

/-- Who is inside the SDK: the shadow thread, or a call. -/
inductive Ctx where
  | loop : Ctx
  | call (n : Nat) : Ctx
  deriving DecidableEq, Repr

structure Reporting where
  d : DeviceShadow
  loop : LoopPc
  call : Nat → CallPc
  /-- The last value the cloud received, for every name. -/
  cloud : String8 → Option PropValue
  /-- The names whose `report` was ever 1. -/
  reported : String8 → Bool
  /-- A cloud callback has run since the last pass over the table. -/
  raised : Bool

/-- The payload `pushProperties` has in flight. -/
def LoopPc.payload : LoopPc → FormatData
  | .pushing payload _ => payload
  | _ => []

/-- The period callback the thread is in is half done, or done. -/
def LoopPc.setHalf (half : Bool) : LoopPc → LoopPc
  | .yielding _ => .yielding half
  | .pushing payload _ => .pushing payload half
  | pc => pc

/-- The same for a call. -/
def CallPc.setHalf (half : Bool) : CallPc → CallPc
  | .pushing k payload _ => .pushing k payload half
  | pc => pc

/-- What the cloud holds after it received a payload. -/
def receive (cloud : String8 → Option PropValue) (payload : FormatData) (k : String8) :
    Option PropValue :=
  match payload.lookup k with
  | some v => some v
  | none => cloud k

namespace Reporting

inductive Label where
  | setupShadow (h : Handle) : Label
  | preShadow : Label
  | yieldShadow : Label
  | yielded : Label
  | updateProperties (ans : IOTService.Answers) : Label
  | notDue : Label
  | readFlag : Label
  | readForce : Label
  | pass (rc : String8 → Int) : Label
  | push (payload : FormatData) (ret : Int) (received : Bool) : Label
  | clearFlag : Label
  | clearForce : Label
  | write (n : Nat) (key val : String8) : Label
  | setFlag (n : Nat) (k : String8) : Label
  | format (n : Nat) (k : String8) (rc : Int) : Label
  | pushCall (n : Nat) (k : String8) (payload : FormatData) (ret : Int) (received : Bool) : Label
  | finish (n : Nat) (k : String8) (payload : FormatData) (ret : Int) : Label
  | setProperty (x : Ctx) (k : String8) (data : Bytes) : Label
  | setPeriod (x : Ctx) (data : Bytes) : Label
  | reportPeriod (x : Ctx) : Label
  | service (op : IOTService.Op) : Label
  | addProperty (name : String8) (type size : Int) (mem : Callocs) : Label

/-- Call `n` moves to `pc`. -/
def goto (s : Reporting) (n : Nat) (pc : CallPc) : Reporting :=
  { s with call := Function.update s.call n pc }

/-- `some half` where the thread is inside the SDK. -/
def inSdk (s : Reporting) : Ctx → Option Bool
  | .loop =>
    match s.loop with
    | .yielding half | .pushing _ half => some half
    | _ => none
  | .call n =>
    match s.call n with
    | .pushing _ _ half => some half
    | _ => none

def setHalf (s : Reporting) (half : Bool) : Ctx → Reporting
  | .loop => { s with loop := s.loop.setHalf half }
  | .call n => s.goto n ((s.call n).setHalf half)

/-- The callback of an attribute. -/
def callbackOf (d : DeviceShadow) (k : String8) : Option AttrCb :=
  (d.m_iotAttrs[k]?).bind fun a => a.attr.callback

/-- What the SDK does before it calls back: the cloud's value is stored. -/
def sdkStore (d : DeviceShadow) (k : String8) (data : Bytes) : DeviceShadow :=
  { d with m_iotAttrs := d.m_iotAttrs.modify k fun a => a.setData data }

/-- Names whose report flag is up are reported names. -/
def note (s : Reporting) : Reporting :=
  { s with reported := fun k => s.reported k || s.d.report k }

def enabled (s : Reporting) : Label → Prop
  | .setupShadow _ => s.loop = .setupShadow
  | .preShadow => s.loop = .preShadow
  | .yieldShadow => s.loop = .head
  | .yielded => s.loop = .yielding false
  | .updateProperties _ => s.loop = .yielded
  | .notDue => s.loop = .yielded
  | .readFlag => s.loop = .toPush
  | .readForce => s.loop = .flagRead
  | .pass _ => s.loop = .go
  | .push payload ret received => s.loop = .pushing payload false ∧ (ret = 0 → received = true)
  | .clearFlag => s.loop = .pushed
  | .clearForce => s.loop = .flagCleared
  | .write n _ _ => s.call n = .idle
  | .setFlag n k => s.call n = .written k
  | .format n k _ => s.call n = .flagged k
  | .pushCall n k payload ret received =>
    s.call n = .pushing k payload false ∧ (ret = 0 → received = true)
  | .finish n k payload ret => s.call n = .pushed k payload ret
  | .setProperty x k _ =>
    s.inSdk x = some false ∧ callbackOf s.d k = some .DS_call_default_property_cb
  | .setPeriod x _ => s.inSdk x = some false ∧
      callbackOf s.d LOCAL_ATTR_REPROT_PERIOD = some .DS_report_period_property_cb
  | .reportPeriod x => s.inSdk x = some true
  | .service _ => True
  | .addProperty _ _ _ _ => True

instance (s : Reporting) (l : Label) : Decidable (s.enabled l) := by
  cases l <;> simp only [enabled] <;> infer_instance

def next (s : Reporting) : Label → Reporting
  | .setupShadow h => { s with d := { s.d with m_shadow := some h }, loop := .preShadow }
  | .preShadow => { s with d := s.d.registerAll, loop := .head }
  | .yieldShadow => { s with loop := .yielding false }
  | .yielded => { s with loop := .yielded }
  | .updateProperties ans => { s with d := s.d.updateProperties ans, loop := .toPush }.note
  | .notDue => { s with loop := .toPush }
  | .readFlag => { s with loop := if s.d.m_reportFlag then .go else .flagRead }
  | .readForce => { s with loop := if s.d.g_forceReport then .go else .head }
  | .pass rc =>
    { s with
      d := s.d.passClear
      loop := match s.d.passPayload rc with
        | none => .pushed
        | some payload => .pushing payload false
      raised := false }
  | .push payload _ received =>
    { s with
      cloud := if received then receive s.cloud payload else s.cloud
      loop := .pushed }
  | .clearFlag => { s with d := { s.d with m_reportFlag := false }, loop := .flagCleared }
  | .clearForce => { s with d := { s.d with g_forceReport := false }, loop := .head }
  | .write n key val =>
    let (ok, d) := s.d.reportLocked (cstr key) val
    ({ s with d := d }.goto n (if ok then .written (cstr key) else .idle)).note
  | .setFlag n k => { s with d := { s.d with m_reportFlag := true } }.goto n (.flagged k)
  | .format n k rc =>
    -- the attribute is read here, after the lock was released
    s.goto n (match s.d.m_shadow, s.d.m_iotAttrs[k]? with
      | some _, some a => .pushing k (pushFormatAdd rc [] a.attr) false
      | _, _ => .idle)
  | .pushCall n k payload ret received =>
    { s with cloud := if received then receive s.cloud payload else s.cloud }.goto n
      (.pushed k payload ret)
  | .finish n k _ ret =>
    { s with d := if ret = 0 then s.d.setReport k false else s.d }.goto n .idle
  | .setProperty _ k data =>
    match (sdkStore s.d k data).m_iotAttrs[k]? with
    | none => s
    | some a => { s with
        d := ((sdkStore s.d k data).callDefaultPropertyCb a.attr).2
        raised := true }
  | .setPeriod x data =>
    { s with
      d := { sdkStore s.d LOCAL_ATTR_REPROT_PERIOD data with g_forceReport := true }
      raised := true }.setHalf true x
  | .reportPeriod x =>
    match s.d.m_iotAttrs[LOCAL_ATTR_REPROT_PERIOD]? with
    | none => s.setHalf false x
    | some a =>
      ({ s with d := s.d.updateReportReriod (loadInt32 a.attr.pattr_data) }.setHalf false x).note
  | .service op => { s with d := { s.d with toIOTService := s.d.toIOTService.exec op } }
  | .addProperty name type size mem => { s with d := (s.d.doAddProperty name type size mem).2 }

/-- A server that was just constructed, and no call. -/
def init (reportFlag : Bool) : Reporting :=
  ⟨DeviceShadow.init reportFlag, .setupShadow, fun _ => .idle, fun _ => none, fun _ => false, false⟩

/-- **Reporting.** -/
def machine : Machine Reporting Label where
  init s := ∃ reportFlag, s = init reportFlag
  enabled := enabled
  next := next

instance (s : Reporting) (l : Label) : Decidable (machine.enabled s l) :=
  inferInstanceAs (Decidable (s.enabled l))

end Reporting

/-! ## 2. What the steps do to the table -/

namespace DeviceShadow

theorem setReport_get (d : DeviceShadow) (key : String8) (b : Bool) (k : String8) :
    (d.setReport key b).m_iotAttrs[k]? =
      if key = k then (d.m_iotAttrs[k]?).map fun a => { a with report := b }
      else d.m_iotAttrs[k]? :=
  get_modify _ _ _ _

theorem mem_of_get {m : AttrTable} {k : String8} {a : DSAttr} (h : m[k]? = some a) : k ∈ m :=
  Std.TreeMap.mem_iff_isSome_getElem?.mpr (by rw [h]; rfl)

theorem mem_setReport {d : DeviceShadow} {key : String8} {b : Bool} {k : String8} :
    k ∈ (d.setReport key b).m_iotAttrs ↔ k ∈ d.m_iotAttrs := Std.TreeMap.mem_modify

/-- **The locked section of `doReportProperty`** refuses, or writes one attribute
    and raises its flag. -/
theorem reportLocked_cases {d : DeviceShadow} (hd : Entered d.m_iotAttrs) (key val : String8) :
    d.reportLocked key val = (false, d) ∨
      ∃ (a : DSAttr) (data : Bytes), d.m_iotAttrs[key]? = some a ∧
        d.reportLocked key val = (true, { d with
          m_iotAttrs := d.m_iotAttrs.insert key ({ a with report := true }.setData data) }) := by
  unfold reportLocked
  cases ha : d.m_iotAttrs[key]? with
  | none => exact .inl rfl
  | some a =>
    have hdata : ∃ data, reportData a.attr val = some data := by
      unfold reportData
      rcases (hd key a ha).type with ht | ht
      · rw [ht]
        exact ⟨_, rfl⟩
      · rw [ht]
        exact ⟨_, rfl⟩
    obtain ⟨data, hdata⟩ := hdata
    exact .inr ⟨a, data, rfl, by simp only [hdata]⟩

/-- One attribute in `updateProperties`: as it was, or written with its flag raised. -/
theorem updateAttr_cases (s : IOTService) (ans : IOTService.Answers) (a : DSAttr) :
    (updateData s ans a = none ∧ updateAttr s ans a = a) ∨
      ∃ data, updateData s ans a = some data ∧
        updateAttr s ans a = { a with report := true }.setData data := by
  unfold updateAttr
  cases updateData s ans a with
  | none => exact .inl ⟨rfl, rfl⟩
  | some data => exact .inr ⟨data, rfl, rfl⟩

theorem updateAttr_shape (s : IOTService) (ans : IOTService.Answers) (a : DSAttr) :
    (updateAttr s ans a).attr.pattr_name = a.attr.pattr_name ∧
      (updateAttr s ans a).attr.attr_type = a.attr.attr_type := by
  rcases updateAttr_cases s ans a with ⟨-, e⟩ | ⟨data, -, e⟩
  · rw [e]
    exact ⟨rfl, rfl⟩
  · rw [e]
    exact ⟨rfl, rfl⟩

theorem updateProperties_get (d : DeviceShadow) (ans : IOTService.Answers) (k : String8) :
    (d.updateProperties ans).m_iotAttrs[k]? =
      (d.m_iotAttrs[k]?).map (updateAttr d.toIOTService ans) :=
  Std.TreeMap.getElem?_map

theorem report_congr {d d' : DeviceShadow} (h : d'.m_iotAttrs = d.m_iotAttrs) (k : String8) :
    d'.report k = d.report k := by
  unfold report
  rw [h]

theorem report_insert {d d' : DeviceShadow} {key : String8} {a : DSAttr}
    (h : d'.m_iotAttrs = d.m_iotAttrs.insert key a) (k : String8) :
    d'.report k = if key = k then a.report else d.report k := by
  unfold report
  rw [h, get_insert]
  by_cases hk : key = k
  · rw [if_pos hk, if_pos hk]
  · rw [if_neg hk, if_neg hk]

theorem report_setReport (d : DeviceShadow) (key k : String8) :
    (d.setReport key false).report k = true → d.report k = true := by
  intro h
  obtain ⟨a', ha', hr⟩ := report_true.mp h
  rw [setReport_get] at ha'
  split at ha'
  · obtain ⟨a, -, rfl⟩ := Option.map_eq_some_iff.mp ha'
    cases hr
  · exact report_true.mpr ⟨a', ha', hr⟩

theorem report_init (reportFlag : Bool) (k : String8) : (init reportFlag).report k = false := by
  have hnew : (init reportFlag).m_iotAttrs = ({} : AttrTable).insert LOCAL_ATTR_REPROT_PERIOD
      ⟨false, true, ⟨LOCAL_ATTR_REPROT_PERIOD, calloc 4, .IOTX_SHADOW_INT32, .IOTX_SHADOW_RW,
        some .DS_report_period_property_cb⟩⟩ := rfl
  unfold report
  rw [hnew, get_insert]
  by_cases hk : LOCAL_ATTR_REPROT_PERIOD = k
  · rw [if_pos hk]
  · rw [if_neg hk]
    simp

end DeviceShadow

namespace Reporting

open DeviceShadow

/-- What a step leaves of an attribute that is in the table. -/
structure SameShape (a a' : DSAttr) : Prop where
  isLocal : a'.isLocal = a.isLocal
  name : a'.attr.pattr_name = a.attr.pattr_name
  type : a'.attr.attr_type = a.attr.attr_type
  callback : a'.attr.callback = a.attr.callback

theorem SameShape.rfl {a : DSAttr} : SameShape a a := ⟨Eq.refl _, Eq.refl _, Eq.refl _, Eq.refl _⟩

theorem SameShape.trans {a b c : DSAttr} (h : SameShape a b) (h' : SameShape b c) :
    SameShape a c :=
  ⟨h'.isLocal.trans h.isLocal, h'.name.trans h.name, h'.type.trans h.type,
    h'.callback.trans h.callback⟩

theorem SameShape.report {a a' : DSAttr} (h : SameShape a a') (r : Bool) :
    SameShape a { a' with report := r } := ⟨h.isLocal, h.name, h.type, h.callback⟩

theorem SameShape.setData {a a' : DSAttr} (h : SameShape a a') (data : Bytes) :
    SameShape a (a'.setData data) := ⟨h.isLocal, h.name, h.type, h.callback⟩

/-- **The same attributes**, each with its shape: only values and report flags differ. -/
def Keeps (m m' : AttrTable) : Prop := ∀ k : String8, Option.Rel SameShape m[k]? m'[k]?

theorem keeps_rfl (m : AttrTable) : Keeps m m := by
  intro k
  cases m[k]? with
  | none => exact .none
  | some a => exact .some .rfl

theorem keeps_modify (m : AttrTable) (key : String8) {f : DSAttr → DSAttr}
    (hf : ∀ a, SameShape a (f a)) : Keeps m (m.modify key f) := by
  intro k
  rw [get_modify]
  cases m[k]? with
  | none =>
    rw [Option.map_none, ite_self]
    exact .none
  | some a =>
    split
    · exact .some (hf a)
    · exact .some .rfl

theorem keeps_map (m : AttrTable) {f : DSAttr → DSAttr} (hf : ∀ a, SameShape a (f a)) :
    Keeps m (m.map fun _ => f) := by
  intro k
  rw [Std.TreeMap.getElem?_map]
  cases m[k]? with
  | none => exact .none
  | some a => exact .some (hf a)

theorem keeps_insert {m : AttrTable} {key : String8} {a a' : DSAttr} (ha : m[key]? = some a)
    (h : SameShape a a') : Keeps m (m.insert key a') := by
  intro k
  rw [get_insert]
  by_cases hk : key = k
  · subst hk
    rw [if_pos rfl, ha]
    exact .some h
  · rw [if_neg hk]
    exact keeps_rfl m k

/-- An entry on either side is one on the other, of the same shape. -/
theorem Keeps.of_get {m m' : AttrTable} (h : Keeps m m') {k : String8} :
    (∀ a', m'[k]? = some a' → ∃ a, m[k]? = some a ∧ SameShape a a') ∧
      ∀ a, m[k]? = some a → ∃ a', m'[k]? = some a' ∧ SameShape a a' := by
  have hk := h k
  constructor
  · intro a' ha'
    rw [ha'] at hk
    cases hm : m[k]? with
    | none =>
      rw [hm] at hk
      cases hk
    | some a =>
      rw [hm] at hk
      obtain ⟨hs⟩ := hk
      exact ⟨a, rfl, hs⟩
  · intro a ha
    rw [ha] at hk
    cases hm : m'[k]? with
    | none =>
      rw [hm] at hk
      cases hk
    | some a' =>
      rw [hm] at hk
      obtain ⟨hs⟩ := hk
      exact ⟨a', rfl, hs⟩

theorem Keeps.trans {m₁ m₂ m₃ : AttrTable} (h : Keeps m₁ m₂) (h' : Keeps m₂ m₃) :
    Keeps m₁ m₃ := by
  intro k
  cases ha : m₁[k]? with
  | some a =>
    obtain ⟨b, hb, hab⟩ := h.of_get.2 a ha
    obtain ⟨c, hc, hbc⟩ := h'.of_get.2 b hb
    rw [hc]
    exact .some (hab.trans hbc)
  | none =>
    cases hc : m₃[k]? with
    | none => exact .none
    | some c =>
      obtain ⟨b, hb, -⟩ := h'.of_get.1 c hc
      obtain ⟨a, ha', -⟩ := h.of_get.1 b hb
      rw [ha] at ha'
      cases ha'

theorem Keeps.entered {m m' : AttrTable} (h : Keeps m m') (hm : Entered m) : Entered m' := by
  refine hm.of_get fun k a' ha' => ?_
  obtain ⟨a, ha, hs⟩ := h.of_get.1 a' ha'
  exact ⟨a, ha, hs.name, hs.type⟩

theorem keeps_reportLocked (d : DeviceShadow) (key val : String8) :
    Keeps d.m_iotAttrs (d.reportLocked key val).2.m_iotAttrs := by
  unfold reportLocked
  cases ha : d.m_iotAttrs[key]? with
  | none => exact keeps_rfl _
  | some a =>
    cases hd : reportData a.attr val with
    | none =>
      simp only [hd]
      exact keeps_insert ha (SameShape.rfl.report true)
    | some data =>
      simp only [hd]
      exact keeps_insert ha ((SameShape.rfl.report true).setData data)

theorem keeps_updateProperties (d : DeviceShadow) (ans : IOTService.Answers) :
    Keeps d.m_iotAttrs (d.updateProperties ans).m_iotAttrs := by
  refine keeps_map _ fun a => ?_
  rcases updateAttr_cases d.toIOTService ans a with ⟨-, e⟩ | ⟨data, -, e⟩
  · rw [e]
    exact .rfl
  · rw [e]
    exact (SameShape.rfl.report true).setData data

theorem keeps_passClear (d : DeviceShadow) : Keeps d.m_iotAttrs d.passClear.m_iotAttrs := by
  refine keeps_map _ fun a => ?_
  split
  · exact SameShape.rfl.report false
  · exact .rfl

theorem keeps_setReport (d : DeviceShadow) (key : String8) (r : Bool) :
    Keeps d.m_iotAttrs (d.setReport key r).m_iotAttrs :=
  keeps_modify _ key fun _ => SameShape.rfl.report r

theorem keeps_sdkStore (d : DeviceShadow) (key : String8) (data : Bytes) :
    Keeps d.m_iotAttrs (sdkStore d key data).m_iotAttrs :=
  keeps_modify _ key fun _ => SameShape.rfl.setData data

theorem keeps_doReportProperty (d : DeviceShadow) (key val : String8) (pushRc : Int) :
    Keeps d.m_iotAttrs (d.doReportProperty key val pushRc).2.m_iotAttrs := by
  have hl := keeps_reportLocked d key val
  unfold doReportProperty
  revert hl
  obtain ⟨ok, d'⟩ := d.reportLocked key val
  intro hl
  cases ok with
  | false => exact hl
  | true =>
    show Keeps _ (if _ then _ else _ : DeviceShadow).m_iotAttrs
    split
    · exact hl.trans (keeps_setReport { d' with m_reportFlag := true } key false)
    · exact hl

theorem keeps_updateReportReriod (d : DeviceShadow) (t : BitVec 32) :
    Keeps d.m_iotAttrs (d.updateReportReriod t).m_iotAttrs := by
  unfold updateReportReriod
  split
  · exact keeps_setReport d _ true
  · exact keeps_rfl _

theorem keeps_pushProperties (d : DeviceShadow) (rc : String8 → Int) (pushRc : Int) :
    Keeps d.m_iotAttrs (d.pushProperties rc pushRc).2.m_iotAttrs := by
  unfold pushProperties
  split
  · exact keeps_rfl _
  · exact keeps_passClear d

/-- The default callback does not touch the table. -/
theorem callDefault_table (d : DeviceShadow) (a : ShadowAttr) :
    (d.callDefaultPropertyCb a).2.m_iotAttrs = d.m_iotAttrs ∧
      (d.callDefaultPropertyCb a).2.toIOTService = d.toIOTService := by
  unfold callDefaultPropertyCb
  split <;> exact ⟨rfl, rfl⟩

theorem setHalf_d (s : Reporting) (half : Bool) (x : Ctx) : (s.setHalf half x).d = s.d := by
  cases x <;> rfl

/-- The default callback runs for an attribute of the table, and raises `g_forceReport`. -/
theorem callDefault_eq {d : DeviceShadow} (hd : Entered d.m_iotAttrs) {k : String8} {a : DSAttr}
    (ha : d.m_iotAttrs[k]? = some a) :
    (d.callDefaultPropertyCb a.attr).2 = { d with g_forceReport := true } := by
  unfold callDefaultPropertyCb formatValue
  rcases (hd k a ha).type with ht | ht
  · rw [ht]
  · rw [ht]

theorem entered_sdkStore {d : DeviceShadow} (hd : Entered d.m_iotAttrs) (k : String8) (data : Bytes) :
    Entered (sdkStore d k data).m_iotAttrs := (keeps_sdkStore d k data).entered hd

/-- The one step that can enter an attribute. -/
def Label.adds : Label → Bool
  | .addProperty _ _ _ _ => true
  | _ => false

/-- **Every other step keeps the attributes of the table.** -/
theorem keeps_next (s : Reporting) {l : Label} (hl : l.adds = false) :
    Keeps s.d.m_iotAttrs (s.next l).d.m_iotAttrs := by
  have hr := keeps_rfl s.d.m_iotAttrs
  cases l with
  | setupShadow hd => exact hr
  | preShadow =>
    show Keeps _ s.d.registerAll.m_iotAttrs
    rw [registerAll_eq]
    exact hr
  | yieldShadow => exact hr
  | yielded => exact hr
  | updateProperties ans => exact keeps_updateProperties s.d ans
  | notDue => exact hr
  | readFlag => exact hr
  | readForce => exact hr
  | pass rc => exact keeps_passClear s.d
  | push payload ret received => exact hr
  | clearFlag => exact hr
  | clearForce => exact hr
  | write n key val => exact keeps_reportLocked s.d (cstr key) val
  | setFlag n k => exact hr
  | format n k rc => exact hr
  | pushCall n k payload ret received => exact hr
  | finish n k payload ret =>
    show Keeps _ (if ret = 0 then s.d.setReport k false else s.d).m_iotAttrs
    split
    · exact keeps_setReport s.d k false
    · exact hr
  | setProperty x k data =>
    simp only [next]
    cases ha : (sdkStore s.d k data).m_iotAttrs[k]? with
    | none => exact hr
    | some a =>
      show Keeps _ ((sdkStore s.d k data).callDefaultPropertyCb a.attr).2.m_iotAttrs
      rw [(callDefault_table _ _).1]
      exact keeps_sdkStore s.d k data
  | setPeriod x data =>
    show Keeps _ (setHalf _ _ x).d.m_iotAttrs
    rw [setHalf_d]
    exact keeps_sdkStore s.d _ data
  | reportPeriod x =>
    simp only [next]
    cases ha : s.d.m_iotAttrs[LOCAL_ATTR_REPROT_PERIOD]? with
    | none =>
      show Keeps _ (setHalf _ _ x).d.m_iotAttrs
      rw [setHalf_d]
      exact hr
    | some a =>
      show Keeps _ (setHalf _ _ x).d.m_iotAttrs
      rw [setHalf_d]
      exact keeps_updateReportReriod s.d _
  | service op => exact hr
  | addProperty name type size mem => cases hl

/-- **Every step keeps the table well entered.** -/
theorem entered_next {s : Reporting} (h : Entered s.d.m_iotAttrs) (l : Label) :
    Entered (s.next l).d.m_iotAttrs := by
  cases hl : l.adds with
  | false => exact (keeps_next s hl).entered h
  | true =>
    cases l with
    | addProperty name type size mem =>
      show Entered (s.d.doAddProperty name type size mem).2.m_iotAttrs
      rcases s.d.doAddProperty_cases name type size mem with ⟨reg, e⟩ | ⟨a, reg, e, ha, -⟩
      · rw [e]
        exact h
      · rw [e]
        exact entered_insert h ha
    | _ => cases hl

theorem entered_reach {C : Reporting → Label → Prop} {s : Reporting} (h : machine.Reach C s) :
    Entered s.d.m_iotAttrs := by
  refine h.inv (I := fun s => Entered s.d.m_iotAttrs) ?_ fun s l hI _ _ => entered_next hI l
  intro s h0
  obtain ⟨reportFlag, rfl⟩ := h0
  exact entered_init reportFlag

/-! ## 3. Calls -/

/-- The call that takes the step. -/
def Label.caller : Label → Option Nat
  | .write n _ _ | .setFlag n _ | .format n _ _ | .pushCall n _ _ _ _ | .finish n _ _ _ => some n
  | .setPeriod (.call n) _ | .reportPeriod (.call n) => some n
  | _ => none

/-- The step is not taken by a call from `m` on. -/
def Below (m : Nat) (l : Label) : Prop := ∀ n ∈ l.caller, n < m

instance (m : Nat) (l : Label) : Decidable (Below m l) :=
  inferInstanceAs (Decidable (∀ n ∈ l.caller, n < m))

@[simp] theorem goto_self (s : Reporting) (n : Nat) (pc : CallPc) : (s.goto n pc).call n = pc :=
  Function.update_self _ _ _

theorem goto_ne (s : Reporting) {n m : Nat} (h : m ≠ n) (pc : CallPc) :
    (s.goto n pc).call m = s.call m :=
  Function.update_of_ne h _ _

theorem setHalf_call (s : Reporting) (half : Bool) (x : Ctx) {n : Nat} (h : x ≠ .call n) :
    (s.setHalf half x).call n = s.call n := by
  cases x with
  | loop => rfl
  | call m => exact goto_ne s (fun e => h (by rw [e])) _

/-- A step moves no call but the one that takes it. -/
theorem next_call (s : Reporting) (l : Label) {n : Nat} (h : l.caller ≠ some n) :
    (s.next l).call n = s.call n := by
  have hne : ∀ m, some m ≠ some n → n ≠ m := fun m hm e => hm (by rw [e])
  cases l with
  | write m key val => exact goto_ne _ (hne m h) _
  | setFlag m k => exact goto_ne _ (hne m h) _
  | format m k rc => exact goto_ne _ (hne m h) _
  | pushCall m k payload ret received => exact goto_ne _ (hne m h) _
  | finish m k payload ret => exact goto_ne _ (hne m h) _
  | setPeriod x data => exact setHalf_call _ _ x fun e => h (by rw [e]; rfl)
  | reportPeriod x =>
    have hx : x ≠ .call n := fun e => h (by rw [e]; rfl)
    simp only [next]
    split
    · exact setHalf_call _ _ x hx
    · exact setHalf_call _ _ x hx
  | setProperty x k data =>
    simp only [next]
    split <;> rfl
  | setupShadow hd => rfl
  | preShadow => rfl
  | yieldShadow => rfl
  | yielded => rfl
  | updateProperties ans => rfl
  | notDue => rfl
  | readFlag => rfl
  | readForce => rfl
  | pass rc => rfl
  | push payload ret received => rfl
  | clearFlag => rfl
  | clearForce => rfl
  | service op => rfl
  | addProperty name type size mem => rfl

/-- Where only the calls below `m` act, the others stay idle. -/
theorem idle_above {C : Reporting → Label → Prop} {m : Nat} {s : Reporting}
    (h : machine.Reach (fun s l => C s l ∧ Below m l) s) (n : Nat) (hn : m ≤ n) :
    s.call n = .idle := by
  refine h.inv (I := fun s => ∀ n, m ≤ n → s.call n = .idle) ?_ ?_ n hn
  · intro s h0 n _
    obtain ⟨reportFlag, rfl⟩ := h0
    rfl
  · intro s l hI hC _ n hn
    rw [show (machine.next s l).call n = s.call n from next_call s l fun e =>
      absurd (hC.2 n e) (Nat.not_lt.mpr hn)]
    exact hI n hn

/-- The calls below `m` are idle. -/
def IdleBelow (m : Nat) (s : Reporting) : Prop := ∀ n < m, s.call n = .idle

instance (m : Nat) (s : Reporting) : Decidable (IdleBelow m s) :=
  inferInstanceAs (Decidable (∀ n < m, s.call n = .idle))

/-- Where only the calls below `m` act and those end idle, every call is idle. -/
theorem idle_of_below {C : Reporting → Label → Prop} {m : Nat} {s : Reporting}
    (h : machine.Reach (fun s l => C s l ∧ Below m l) s) (h0 : IdleBelow m s) (n : Nat) :
    s.call n = .idle := by
  rcases Nat.lt_or_ge n m with hn | hn
  · exact h0 n hn
  · exact idle_above h n hn

/-- The start, and one attribute. -/
def opens (name : String8) : List Label :=
  [.setupShadow 0, .preShadow, .addProperty name IOT_PROPERTY_INT32 4 .succeed]

/-- Call `n` up to its push. -/
def asks (n : Nat) (name val : String8) : List Label :=
  [.write n name val, .setFlag n name, .format n name 0]

/-- The push of call `n` and its end: the cloud receives the value where `ret` is 0. -/
def lands (n : Nat) (name : String8) (v ret : Int) : List Label :=
  [.pushCall n name [(name, .int32 v)] ret (ret == 0), .finish n name [(name, .int32 v)] ret]

end Reporting

end IotWrap
