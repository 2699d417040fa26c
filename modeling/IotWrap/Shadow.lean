/-
  File:      IotWrap/Shadow.lean
  Subject:   DeviceShadow: the attribute table, what clients add and report,
             what the shadow thread polls and pushes
             (jni/server/IOT_DeviceShadow.cpp).

  `m_iotAttrs` is an ordered map from names to `_DS_Attr`; it is walked in key
  order. `pattr_data` is the list of the bytes `calloc` returned, and has none
  where it is NULL: a size is positive. The accesses a function makes to it stand
  beside the function as a list (`reportAccesses`, `updateAccesses`).

  The SDK is outside: what `IOT_Shadow_PushFormat_Add` and `IOT_Shadow_Push`
  return are arguments, and what a payload carries is the list of names and
  values that were added to it. How the three `calloc`s of `_newProperty` end is
  the argument `mem`.

  Functions that hold `m_lockAttrs` throughout are one definition. Where the
  source leaves the lock in the middle (`doAddProperty`, `doReportProperty`,
  `pushProperties`) every section is a definition of its own.
-/
import IotWrap.Service

namespace IotWrap

open Lib

def ATTR_VALUE_MAX_LEN : Nat := 256
def PAYLOAD_MAX_LEN : Nat := 2048

def IOT_PROPERTY_INT32 : Int := 1
def IOT_PROPERTY_STRING : Int := 2

def DS_STATUS_INVALID : Int := -1
def DS_STATUS_CONNECTED : Int := 0

/-- `LOCAL_ATTR_REPROT_PERIOD`. -/
def LOCAL_ATTR_REPROT_PERIOD : String8 := lit "report_period"

/-- `iotx_shadow_attr_datatype_t`; `other` is every member no code here stores. -/
inductive AttrType where
  | IOTX_SHADOW_INT32 : AttrType
  | IOTX_SHADOW_STRING : AttrType
  | other : AttrType
  deriving DecidableEq, Repr

inductive AttrMode where
  | IOTX_SHADOW_RW : AttrMode
  | IOTX_SHADOW_READONLY : AttrMode
  deriving DecidableEq, Repr

/-- The two callbacks an attribute can carry. -/
inductive AttrCb where
  | DS_call_default_property_cb : AttrCb
  | DS_report_period_property_cb : AttrCb
  deriving DecidableEq, Repr

/-- `iotx_shadow_attr_t`. -/
structure ShadowAttr where
  pattr_name : String8
  pattr_data : Bytes
  attr_type : AttrType
  mode : AttrMode
  callback : Option AttrCb
  deriving DecidableEq, Repr

/-- `_DS_Attr`. `report` is 0 or 1 in the source. -/
structure DSAttr where
  report : Bool
  isLocal : Bool
  attr : ShadowAttr
  deriving DecidableEq, Repr

abbrev AttrTable := Std.TreeMap String8 DSAttr

/-- A handle `IOT_Shadow_Construct` returned. -/
abbrev Handle := Nat

structure DeviceShadow extends IOTService where
  m_iotAttrs : AttrTable
  m_reportFlag : Bool
  g_forceReport : Bool
  m_shadow : Option Handle
  m_reportPeriod : BitVec 32
  /-- The calls of `IOT_Shadow_RegisterAttribute`, in order. -/
  registered : List (Handle × String8)

/-! ## 1. Attributes and their values -/

/-- What the SDK reads from an attribute and what the cloud receives. -/
inductive PropValue where
  | int32 (n : Int) : PropValue
  | string (s : Bytes) : PropValue
  | unknown : PropValue
  deriving DecidableEq, Repr

/-- The current value of an attribute. -/
def ShadowAttr.value (a : ShadowAttr) : PropValue :=
  match a.attr_type with
  | .IOTX_SHADOW_INT32 => .int32 (loadInt32 a.pattr_data).toInt
  | .IOTX_SHADOW_STRING => .string (cstr a.pattr_data)
  | .other => .unknown

def ShadowAttr.setData (a : ShadowAttr) (data : Bytes) : ShadowAttr := { a with pattr_data := data }

def DSAttr.setData (a : DSAttr) (data : Bytes) : DSAttr := { a with attr := a.attr.setData data }

/-- How the three `calloc`s of `_newProperty` end. -/
inductive Callocs where
  | succeed : Callocs
  /-- There is memory for the attribute and its name, and none for its value. -/
  | noData : Callocs
  | fail : Callocs
  deriving DecidableEq, Repr

/-- `_newProperty`; `size` is positive wherever it is called. -/
def _newProperty (name : String8) (type : AttrType) (size : Int) (cb : Option AttrCb)
    (mem : Callocs) : Option ShadowAttr :=
  if mem = .fail then none
  else some
    { pattr_name := name
      -- this pointer is not tested for null
      pattr_data := if mem = .noData then [] else calloc size.toNat
      attr_type := type
      mode := if cb.isSome then .IOTX_SHADOW_RW else .IOTX_SHADOW_READONLY
      callback := cb }

namespace DeviceShadow

/-- `_addProperty`: one section under `m_lockAttrs`. The result is the new
    attribute, or NULL. -/
def _addProperty (d : DeviceShadow) (name : String8) (type : AttrType) (size : Int)
    (cb : Option AttrCb) (isLocal : Bool) (mem : Callocs) : Option ShadowAttr × DeviceShadow :=
  if name ∈ d.m_iotAttrs then (none, d)
  else match _newProperty name type size cb mem with
    | none => (none, d)
    | some attr =>
      (some attr, { d with m_iotAttrs := d.m_iotAttrs.insert name ⟨false, isLocal, attr⟩ })

/-- The constructor. `m_reportFlag` is not initialised in the source. -/
def construct (reportFlag : Bool) (mem : Callocs) : DeviceShadow :=
  (_addProperty
    { toIOTService := IOTService.init
      m_iotAttrs := {}
      m_reportFlag := reportFlag
      g_forceReport := false
      m_shadow := none
      m_reportPeriod := 20000#32
      registered := [] }
    LOCAL_ATTR_REPROT_PERIOD .IOTX_SHADOW_INT32 4 (some .DS_report_period_property_cb) true mem).2

/-- The constructor, with memory for its attribute. -/
def init (reportFlag : Bool) : DeviceShadow := construct reportFlag .succeed

/-- `getServiceStatus`. -/
def getServiceStatus (d : DeviceShadow) : Int :=
  match d.m_shadow with
  | none => DS_STATUS_INVALID
  | some _ => DS_STATUS_CONNECTED

/-! ## 2. Adding properties -/

/-- `doAddProperty`'s tests: the SDK type for a request it does not reject. -/
def acceptType (type size : Int) : Option AttrType :=
  if size ≤ 0 then none
  else if type = IOT_PROPERTY_INT32 then some .IOTX_SHADOW_INT32
  else if type = IOT_PROPERTY_STRING then some .IOTX_SHADOW_STRING
  else none

/-- `doAddProperty`'s end, after the lock is released. -/
def registerNew (d : DeviceShadow) (attr : Option ShadowAttr) : DeviceShadow :=
  match attr, d.m_shadow with
  | some a, some h => { d with registered := d.registered ++ [(h, a.pattr_name)] }
  | _, _ => d

/-- `doAddProperty`. -/
def doAddProperty (d : DeviceShadow) (name : String8) (type size : Int) (mem : Callocs) :
    Int × DeviceShadow :=
  match acceptType type size with
  | none => (-1, d)
  | some t =>
    let (attr, d') := d._addProperty name t size (some .DS_call_default_property_cb) false mem
    (0, d'.registerNew attr)

/-- `IOTClient::followProperty`. -/
def followProperty (d : DeviceShadow) (c : ClientId) (key : String8) (type size : Int)
    (mem : Callocs) : Int × DeviceShadow :=
  let (ret, s) := d.toIOTService.addFollowing FOLLOW_TYPE_PROPERTY (cstr key) c
  let d' := { d with toIOTService := s }
  if ret ≠ 0 then (-1, d') else d'.doAddProperty (cstr key) type size mem

/-- The registration pass of `preShadow`, under `m_lockAttrs`. Without a session the
    source makes the calls with a null handle; `registered` has none of those. -/
def registerAll (d : DeviceShadow) : DeviceShadow :=
  match d.m_shadow with
  | none => d
  | some h => { d with
      registered := d.registered ++ d.m_iotAttrs.toList.map fun p => (h, p.2.attr.pattr_name) }

/-! ## 3. Reporting -/

/-- The value `doReportProperty` stores: `atoi` or `strncpy(_, val, strlen(val))`. -/
def reportData (a : ShadowAttr) (val : String8) : Option Bytes :=
  match a.attr_type with
  | .IOTX_SHADOW_INT32 => some (storeInt32 a.pattr_data (atoi val))
  | .IOTX_SHADOW_STRING => some (strncpy a.pattr_data val (cstr val).length)
  | .other => none

/-- The accesses of `reportData` to the attribute's buffer. -/
def reportAccesses (a : ShadowAttr) (val : String8) : List Access :=
  match a.attr_type with
  | .IOTX_SHADOW_INT32 => [.int32 a.pattr_data.length]
  | .IOTX_SHADOW_STRING => [.write (cstr val).length a.pattr_data.length]
  | .other => []

theorem length_reportData {a : ShadowAttr} {val : String8} {data : Bytes}
    (h : reportData a val = some data) : data.length = a.pattr_data.length := by
  unfold reportData at h
  split at h
  · obtain rfl := Option.some.inj h
    exact length_storeInt32 _ _
  · obtain rfl := Option.some.inj h
    exact length_strncpy _ _ _
  · cases h

/-- The section of `doReportProperty` under `m_lockAttrs`: `report = 1`, then the
    value. The first result is false where the function returns -1 here. -/
def reportLocked (d : DeviceShadow) (key val : String8) : Bool × DeviceShadow :=
  match d.m_iotAttrs[key]? with
  | none => (false, d)
  | some a =>
    match reportData a.attr val with
    | none => (false, { d with m_iotAttrs := d.m_iotAttrs.insert key { a with report := true } })
    | some data =>
      (true, { d with
        m_iotAttrs := d.m_iotAttrs.insert key ({ a with report := true }.setData data) })

/-- Write the report flag of one attribute. -/
def setReport (d : DeviceShadow) (key : String8) (report : Bool) : DeviceShadow :=
  { d with m_iotAttrs := d.m_iotAttrs.modify key fun a => { a with report := report } }

/-- `doReportProperty` with the result `pushRc` of its own push. -/
def doReportProperty (d : DeviceShadow) (key val : String8) (pushRc : Int) : Int × DeviceShadow :=
  match d.reportLocked key val with
  | (false, d') => (-1, d')
  | (true, d') =>
    let d'' := { d' with m_reportFlag := true }
    (0, if d''.m_shadow.isSome ∧ pushRc = 0 then d''.setReport key false else d'')

/-! ## 4. Polling the clients -/

/-- The answer `updateProperties` gets for an attribute: `callPropertyGet` into a
    zeroed local buffer of `cap` bytes. -/
def polled (s : IOTService) (ans : IOTService.Answers) (a : ShadowAttr) (cap : Nat) : Int × Bytes :=
  s.callPropertyGet ans a.pattr_name (calloc cap) cap

/-- One attribute in `updateProperties`: the value to store, where it changed. -/
def updateData (s : IOTService) (ans : IOTService.Answers) (a : DSAttr) : Option Bytes :=
  if a.isLocal then none
  else match a.attr.attr_type with
    | .IOTX_SHADOW_INT32 =>
      let (ret, value) := polled s ans a.attr 32
      if ret > 0 ∧ loadInt32 a.attr.pattr_data ≠ atoi value then
        some (storeInt32 a.attr.pattr_data (atoi value))
      else none
    | .IOTX_SHADOW_STRING =>
      let (ret, value) := polled s ans a.attr ATTR_VALUE_MAX_LEN
      if ret > 0 ∧ cstr a.attr.pattr_data ≠ cstr value then
        some (strncpy a.attr.pattr_data value ret.toNat)
      else none
    | .other => none

theorem length_updateData {s : IOTService} {ans : IOTService.Answers} {a : DSAttr} {data : Bytes}
    (h : updateData s ans a = some data) : data.length = a.attr.pattr_data.length := by
  unfold updateData at h
  split at h
  · cases h
  · split at h
    · simp only [Option.ite_none_right_eq_some, Option.some.injEq] at h
      rw [← h.2, length_storeInt32]
    · simp only [Option.ite_none_right_eq_some, Option.some.injEq] at h
      rw [← h.2, length_strncpy]
    · cases h

/-- The accesses of `updateProperties` for one attribute: the compare, then the
    store where the value changed. -/
def updateAccesses (s : IOTService) (ans : IOTService.Answers) (a : DSAttr) : List Access :=
  if a.isLocal then []
  else match a.attr.attr_type with
    | .IOTX_SHADOW_INT32 =>
      let (ret, value) := polled s ans a.attr 32
      if ret > 0 then
        [.int32 a.attr.pattr_data.length, .cstring value] ++
          if loadInt32 a.attr.pattr_data ≠ atoi value then [.int32 a.attr.pattr_data.length] else []
      else []
    | .IOTX_SHADOW_STRING =>
      let (ret, value) := polled s ans a.attr ATTR_VALUE_MAX_LEN
      if ret > 0 then
        [.cstring a.attr.pattr_data, .cstring value] ++
          if cstr a.attr.pattr_data ≠ cstr value then [.write ret.toNat a.attr.pattr_data.length]
          else []
      else []
    | .other => []

/-- One attribute after `updateProperties`. -/
def updateAttr (s : IOTService) (ans : IOTService.Answers) (a : DSAttr) : DSAttr :=
  match updateData s ans a with
  | none => a
  | some data => { a with report := true }.setData data

/-- `updateProperties`: one section under `m_lockAttrs`. -/
def updateProperties (d : DeviceShadow) (ans : IOTService.Answers) : DeviceShadow :=
  { d with
    m_iotAttrs := d.m_iotAttrs.map fun _ a => updateAttr d.toIOTService ans a
    m_reportFlag := d.m_reportFlag ||
      d.m_iotAttrs.toList.any fun p => (updateData d.toIOTService ans p.2).isSome }

/-! ## 5. Pushing -/

/-- A payload: the names and values that were added to it. -/
abbrev FormatData := List (String8 × PropValue)

/-- `IOT_Shadow_PushFormat_Add` with result `rc`: it adds, or fails without adding. -/
def pushFormatAdd (rc : Int) (format : FormatData) (attr : ShadowAttr) : FormatData :=
  if rc = 0 then format ++ [(attr.pattr_name, attr.value)] else format

/-- The test in `pushProperties`' loop. -/
def selected (d : DeviceShadow) (a : DSAttr) : Bool := d.g_forceReport || a.report

/-- The payload of `pushProperties`' pass; `rc k` is the result of the Add for `k`.
    `none` is `flg == 0`: nothing was selected. -/
def passPayload (d : DeviceShadow) (rc : String8 → Int) : Option FormatData :=
  let sel := d.m_iotAttrs.toList.filter fun p => d.selected p.2
  if sel.isEmpty then none
  else some (sel.foldl (fun format p => pushFormatAdd (rc p.1) format p.2.attr) [])

/-- `pushProperties`' pass over the table, under `m_lockAttrs`: what was selected
    is cleared, whatever its Add returned. -/
def passClear (d : DeviceShadow) : DeviceShadow :=
  { d with m_iotAttrs := d.m_iotAttrs.map fun _ a =>
      if d.selected a then { a with report := false } else a }

/-- `pushProperties` with the results `rc` of the Adds and `pushRc` of the push. -/
def pushProperties (d : DeviceShadow) (rc : String8 → Int) (pushRc : Int) : Int × DeviceShadow :=
  if !d.m_reportFlag && !d.g_forceReport then (0, d)
  else
    let ret := if (d.passPayload rc).isSome then pushRc else 0
    (ret, { d.passClear with m_reportFlag := false, g_forceReport := false })

/-! ## 6. Cloud callbacks -/

/-- `%d`. -/
def decimal (n : Int) : Bytes :=
  (if n < 0 then [45] else []) ++ (Nat.toDigits 10 n.natAbs).map fun c => c.toNat.toUInt8

/-- The local `value` of `_DS_call_default_property_cb`, as a C string. -/
def formatValue (a : ShadowAttr) : Option Bytes :=
  match a.attr_type with
  | .IOTX_SHADOW_INT32 =>
    some ((decimal (loadInt32 a.pattr_data).toInt).take (ATTR_VALUE_MAX_LEN - 1))
  | .IOTX_SHADOW_STRING => some ((cstr a.pattr_data).take (ATTR_VALUE_MAX_LEN - 1))
  | .other => none

/-- `_DS_call_default_property_cb`. -/
def callDefaultPropertyCb (d : DeviceShadow) (a : ShadowAttr) :
    List IOTService.Invocation × DeviceShadow :=
  match formatValue a with
  | none => ([], d)
  | some value =>
    ((d.callPropertySet a.pattr_name value).2, { d with g_forceReport := true })

/-- `updateReportReriod`. No lock is taken. -/
def updateReportReriod (d : DeviceShadow) (t : BitVec 32) : DeviceShadow :=
  if LOCAL_ATTR_REPROT_PERIOD ∈ d.m_iotAttrs then
    { d.setReport LOCAL_ATTR_REPROT_PERIOD true with m_reportPeriod := t }
  else d

/-! ## 7. What the table holds -/

/-- **`_addProperty`** leaves everything as it is, or enters one new attribute
    under its own name. -/
theorem _addProperty_cases (d : DeviceShadow) (name : String8) (t : AttrType) (size : Int)
    (cb : Option AttrCb) (isLocal : Bool) (mem : Callocs) :
    d._addProperty name t size cb isLocal mem = (none, d) ∨
      ∃ a, d._addProperty name t size cb isLocal mem =
          (some a, { d with m_iotAttrs := d.m_iotAttrs.insert name ⟨false, isLocal, a⟩ }) ∧
        a.pattr_name = name ∧ a.attr_type = t ∧ name ∉ d.m_iotAttrs ∧ mem ≠ .fail := by
  unfold _addProperty
  by_cases hn : name ∈ d.m_iotAttrs
  · rw [if_pos hn]
    exact .inl rfl
  · rw [if_neg hn]
    unfold _newProperty
    by_cases hmem : mem = .fail
    · rw [if_pos hmem]
      exact .inl rfl
    · rw [if_neg hmem]
      exact .inr ⟨_, rfl, rfl, rfl, hn, hmem⟩

/-- Every attribute is stored under its own name and has one of the two types. -/
structure WellEntered (k : String8) (a : ShadowAttr) : Prop where
  name : a.pattr_name = k
  type : a.attr_type = .IOTX_SHADOW_INT32 ∨ a.attr_type = .IOTX_SHADOW_STRING

/-- The invariant of the table's entries. -/
def Entered (m : AttrTable) : Prop :=
  ∀ (k : String8) (a : DSAttr), m[k]? = some a → WellEntered k a.attr

theorem entered_insert {m : AttrTable} (hm : Entered m) {k : String8} {a : DSAttr}
    (ha : WellEntered k a.attr) : Entered (m.insert k a) := by
  intro k' a' h
  rw [get_insert] at h
  split at h
  · rename_i hk
    subst hk
    obtain rfl := Option.some.inj h
    exact ha
  · exact hm k' a' h

/-- A change of the table that keeps names and types keeps the invariant. -/
theorem Entered.of_get {m m' : AttrTable} (hm : Entered m)
    (h : ∀ (k : String8) (a' : DSAttr), m'[k]? = some a' → ∃ a : DSAttr, m[k]? = some a ∧
      a'.attr.pattr_name = a.attr.pattr_name ∧ a'.attr.attr_type = a.attr.attr_type) :
    Entered m' := by
  intro k a' ha'
  obtain ⟨a, ha, hname, htype⟩ := h k a' ha'
  have hw := hm k a ha
  exact ⟨hname.trans hw.name, htype ▸ hw.type⟩

theorem entered_addProperty {d : DeviceShadow} (hd : Entered d.m_iotAttrs) {name : String8}
    {t : AttrType} (ht : t = .IOTX_SHADOW_INT32 ∨ t = .IOTX_SHADOW_STRING) (size : Int)
    (cb : Option AttrCb) (isLocal : Bool) (mem : Callocs) :
    Entered (d._addProperty name t size cb isLocal mem).2.m_iotAttrs := by
  rcases d._addProperty_cases name t size cb isLocal mem with h | ⟨a, h, hname, htype, -, -⟩
  · rw [h]
    exact hd
  · rw [h]
    exact entered_insert hd ⟨hname, htype ▸ ht⟩

theorem entered_init (reportFlag : Bool) : Entered (init reportFlag).m_iotAttrs := by
  refine entered_addProperty ?_ (.inl rfl) _ _ _ _
  intro k a h
  simp at h

/-- What `doAddProperty` accepts has one of the two types. -/
theorem acceptType_cases {type size : Int} {t : AttrType} (h : acceptType type size = some t) :
    t = .IOTX_SHADOW_INT32 ∨ t = .IOTX_SHADOW_STRING := by
  unfold acceptType at h
  split at h
  · cases h
  · split at h
    · exact .inl (Option.some.inj h).symm
    · split at h
      · exact .inr (Option.some.inj h).symm
      · cases h

theorem registerNew_eq (d : DeviceShadow) (attr : Option ShadowAttr) :
    d.registerNew attr = { d with registered := (d.registerNew attr).registered } := by
  unfold registerNew
  split <;> rfl

theorem registerAll_eq (d : DeviceShadow) :
    d.registerAll = { d with registered := d.registerAll.registered } := by
  unfold registerAll
  split <;> rfl

/-- **`doAddProperty`** leaves the table as it is, or enters one new attribute. -/
theorem doAddProperty_cases (d : DeviceShadow) (name : String8) (type size : Int) (mem : Callocs) :
    (∃ reg, (d.doAddProperty name type size mem).2 = { d with registered := reg }) ∨
      ∃ a reg, (d.doAddProperty name type size mem).2 = { d with
          m_iotAttrs := d.m_iotAttrs.insert name ⟨false, false, a⟩
          registered := reg } ∧
        WellEntered name a ∧ name ∉ d.m_iotAttrs := by
  unfold doAddProperty
  cases ht : acceptType type size with
  | none => exact .inl ⟨d.registered, rfl⟩
  | some t =>
    rcases d._addProperty_cases name t size (some .DS_call_default_property_cb) false mem with
      h | ⟨a, h, hname, htype, hn, -⟩
    · refine .inl ⟨(d.registerNew none).registered, ?_⟩
      simp only [h]
      exact registerNew_eq d none
    · refine .inr ⟨a, (registerNew { d with
        m_iotAttrs := d.m_iotAttrs.insert name ⟨false, false, a⟩ } (some a)).registered, ?_,
        ⟨hname, htype ▸ acceptType_cases ht⟩, hn⟩
      simp only [h]
      exact registerNew_eq _ _

end DeviceShadow

end IotWrap
