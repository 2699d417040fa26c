/-
  File:      IotWrap/Memory.lean
  Subject:   The attributes of the shadow as they lie in memory
             (jni/server/IOT_DeviceShadow.cpp).

  `Shadow` is a `DeviceShadow` whose table holds pointers. An attribute is up to three
  blocks: the `iotx_shadow_attr_t`, its name, and its value, which `_newProperty` does
  not test for null. Every block comes from an allocator that may fail, or give an
  address again that was freed.

  A function goes wrong where it follows a null or freed pointer, frees one twice, or
  leaves a buffer (`Access`). The SDK has the pointers it was given by
  `IOT_Shadow_RegisterAttribute`; its own store of a delivered value stays in the block.

  * `_newProperty`, `_delProperty`, `_addProperty`, `doAddProperty`, `doReportProperty`,
    `updateProperties`, `runCallback`, `delAttrs`: the functions that touch the blocks;
  * `exec`: one operation of the server; `machine`: its runs.
-/
import IotWrap.Lib.Heap
import IotWrap.Lib.Machine
import IotWrap.Period

namespace IotWrap

open Lib

namespace Memory

open DeviceShadow (acceptType)

/-! ## 1. Blocks -/

/-- `iotx_shadow_attr_t`, with its pointers. -/
structure AttrObj where
  pattr_name : Ptr
  pattr_data : Ptr
  attr_type : AttrType
  mode : AttrMode
  callback : Option AttrCb
  deriving DecidableEq, Repr

inductive Block where
  | chars (b : Bytes) : Block
  /-- An `iotx_shadow_attr_t` from `calloc`, before its fields are set. -/
  | zeroed : Block
  | attr (o : AttrObj) : Block
  deriving DecidableEq, Repr

/-- `_DS_Attr`. -/
structure Entry where
  report : Bool
  isLocal : Bool
  attr : Ptr
  deriving DecidableEq, Repr

/-- `DeviceShadow`, whose table holds pointers. -/
structure Shadow extends IOTService where
  m_iotAttrs : Std.TreeMap String8 Entry
  m_reportFlag : Bool
  g_forceReport : Bool
  m_shadow : Option Handle
  m_reportPeriod : BitVec 32
  /-- The calls of `IOT_Shadow_RegisterAttribute`, in order. -/
  registered : List (Handle × Ptr)

abbrev Alloc := Allocator Block

/-- Follow a pointer to an attribute. -/
def loadAttr (p : Ptr) : Prog Block AttrObj := do
  match ← Prog.load p with
  | .attr o => pure o
  | _ => Prog.fail

/-- Follow a pointer to bytes. -/
def loadChars (p : Ptr) : Prog Block Bytes := do
  match ← Prog.load p with
  | .chars b => pure b
  | _ => Prog.fail

/-- What `SHADOW_TRACE("... attr[%s]", attr->pattr_name)` reads. -/
def traceName (attr : Ptr) : Prog Block Unit := do
  let o ← loadAttr attr
  let _ ← loadChars o.pattr_name

/-! ## 2. Adding -/

/-- `_newProperty`, with its three `calloc`s. -/
def _newProperty (al : Alloc) (name : String8) (type : AttrType) (size : Int)
    (cb : Option AttrCb) : Prog Block Ptr := do
  match ← Prog.alloc al .zeroed with
  | none => pure none
  | some attr =>
    match ← Prog.alloc al (.chars (calloc (name.length + 1))) with
    | none => do
      Prog.free (some attr)
      pure none
    | some pname => do
      Prog.store (some pname) (.chars (name ++ [0]))
      -- this one is not tested
      let pattr_data ← Prog.alloc al (.chars (calloc size.toNat))
      Prog.store (some attr) (.attr
        { pattr_name := some pname
          pattr_data := pattr_data
          attr_type := type
          mode := if cb.isSome then .IOTX_SHADOW_RW else .IOTX_SHADOW_READONLY
          callback := cb })
      pure (some attr)

/-- `_delProperty`. -/
def _delProperty : Ptr → Prog Block Unit
  | none => pure ()
  | some attr => do
    let o ← loadAttr (some attr)
    Prog.free o.pattr_name
    Prog.free o.pattr_data
    Prog.free (some attr)

/-- `_addProperty`. -/
def _addProperty (al : Alloc) (s : Shadow) (name : String8) (type : AttrType) (size : Int)
    (cb : Option AttrCb) (isLocal : Bool) : Prog Block (Ptr × Shadow) :=
  match s.m_iotAttrs[name]? with
  | some e => do
    -- the type of the attribute that is there is compared and traced
    let _ ← loadAttr e.attr
    pure (none, s)
  | none => do
    match ← _newProperty al name type size cb with
    | none => pure (none, s)
    | some attr =>
      pure (some attr, { s with
        m_iotAttrs := s.m_iotAttrs.insert name ⟨false, isLocal, some attr⟩ })

/-- The constructor. -/
def construct (al : Alloc) (reportFlag : Bool) : Prog Block Shadow := do
  let (_, s) ← _addProperty al
    { toIOTService := IOTService.init
      m_iotAttrs := {}
      m_reportFlag := reportFlag
      g_forceReport := false
      m_shadow := none
      m_reportPeriod := 20000#32
      registered := [] }
    LOCAL_ATTR_REPROT_PERIOD .IOTX_SHADOW_INT32 4 (some .DS_report_period_property_cb) true
  pure s

/-- `doAddProperty`'s end, after the lock is released. -/
def registerNew (s : Shadow) (attr : Ptr) : Prog Block Shadow :=
  match attr, s.m_shadow with
  | some a, some h => do
    traceName (some a)
    pure { s with registered := s.registered ++ [(h, some a)] }
  | _, _ => pure s

/-- `doAddProperty`. -/
def doAddProperty (al : Alloc) (s : Shadow) (name : String8) (type size : Int) :
    Prog Block (Int × Shadow) :=
  match acceptType type size with
  | none => pure (-1, s)
  | some t => do
    let (attr, s') ← _addProperty al s name t size (some .DS_call_default_property_cb) false
    let s'' ← registerNew s' attr
    pure (0, s'')

/-- `IOTClient::followProperty`. -/
def followProperty (al : Alloc) (s : Shadow) (c : ClientId) (key : String8) (type size : Int) :
    Prog Block (Int × Shadow) :=
  let (ret, t) := s.toIOTService.addFollowing FOLLOW_TYPE_PROPERTY (cstr key) c
  let s' := { s with toIOTService := t }
  if ret ≠ 0 then pure (-1, s') else doAddProperty al s' (cstr key) type size

/-- One attribute in `preShadow`: it is registered, and its name is traced. -/
def registerOne (h : Option Handle) : Ptr → Prog Block (Option (Handle × Ptr))
  | none => pure none
  | some a => do
    traceName (some a)
    pure (h.map fun h => (h, some a))

/-- The registration pass of `preShadow`. -/
def registerAll (s : Shadow) : Prog Block Shadow := do
  let calls ← s.m_iotAttrs.toList.mapM fun p => registerOne s.m_shadow p.2.attr
  pure { s with registered := s.registered ++ calls.filterMap id }

/-! ## 3. Reporting and polling -/

/-- The store of `doReportProperty`. The result is false where the type is another. -/
def storeReport (o : AttrObj) (val : String8) : Prog Block Bool :=
  match o.attr_type with
  | .IOTX_SHADOW_INT32 => do
    let data ← loadChars o.pattr_data
    Prog.require (Access.int32 data.length).inBounds
    Prog.store o.pattr_data (.chars (storeInt32 data (atoi val)))
    pure true
  | .IOTX_SHADOW_STRING => do
    let data ← loadChars o.pattr_data
    Prog.require (Access.write (cstr val).length data.length).inBounds
    Prog.store o.pattr_data (.chars (strncpy data val (cstr val).length))
    pure true
  | .other => pure false

/-- Write the report flag of one attribute. -/
def setReport (s : Shadow) (key : String8) (report : Bool) : Shadow :=
  { s with m_iotAttrs := s.m_iotAttrs.modify key fun e => { e with report := report } }

/-- `doReportProperty` with the result `pushRc` of its own push. -/
def doReportProperty (s : Shadow) (key val : String8) (pushRc : Int) :
    Prog Block (Int × Shadow) :=
  match s.m_iotAttrs[key]? with
  | none => pure (-1, s)
  | some e => do
    let s' := { s with m_iotAttrs := s.m_iotAttrs.insert key { e with report := true } }
    let o ← loadAttr e.attr
    match ← storeReport o val with
    | false => pure (-1, s')
    | true =>
      let s'' := { s' with m_reportFlag := true }
      pure (0, if s''.m_shadow.isSome ∧ pushRc = 0 then setReport s'' key false else s'')

/-- One attribute in `updateProperties`: whether its value changed. -/
def updateOne (t : IOTService) (ans : IOTService.Answers) (e : Entry) : Prog Block Bool :=
  if e.isLocal then pure false
  else match e.attr with
    | none => pure false
    | some p => do
      let o ← loadAttr (some p)
      match o.attr_type with
      | .IOTX_SHADOW_INT32 =>
        let name ← loadChars o.pattr_name
        let (ret, value) := t.callPropertyGet ans (cstr name) (calloc 32) 32
        if ret > 0 then do
          let data ← loadChars o.pattr_data
          Prog.require (Access.int32 data.length).inBounds
          Prog.require (Access.cstring value).inBounds
          if loadInt32 data ≠ atoi value then do
            Prog.require (Access.int32 data.length).inBounds
            Prog.store o.pattr_data (.chars (storeInt32 data (atoi value)))
            pure true
          else pure false
        else pure false
      | .IOTX_SHADOW_STRING =>
        let name ← loadChars o.pattr_name
        let (ret, value) :=
          t.callPropertyGet ans (cstr name) (calloc ATTR_VALUE_MAX_LEN) ATTR_VALUE_MAX_LEN
        if ret > 0 then do
          let data ← loadChars o.pattr_data
          Prog.require (Access.cstring data).inBounds
          Prog.require (Access.cstring value).inBounds
          if cstr data ≠ cstr value then do
            Prog.require (Access.write ret.toNat data.length).inBounds
            Prog.store o.pattr_data (.chars (strncpy data value ret.toNat))
            pure true
          else pure false
        else pure false
      | .other => pure false

/-- `updateProperties`. -/
def updateProperties (s : Shadow) (ans : IOTService.Answers) : Prog Block Shadow := do
  let changed ← s.m_iotAttrs.toList.mapM fun p => do
    let b ← updateOne s.toIOTService ans p.2
    pure (p.1, b)
  pure { s with
    m_iotAttrs := s.m_iotAttrs.map fun k e =>
      if (k, true) ∈ changed then { e with report := true } else e
    m_reportFlag := s.m_reportFlag || changed.any fun p => p.2 }

/-- `pushProperties`, which hands the pointers to the SDK and reads no block itself. That
    `IOT_Shadow_PushFormat_Add` goes wrong on no attribute, also on one without a value
    block, is assumed of the SDK. -/
def pushProperties (s : Shadow) : Shadow :=
  if !s.m_reportFlag && !s.g_forceReport then s
  else { s with
    m_iotAttrs := s.m_iotAttrs.map fun _ e =>
      if s.g_forceReport || e.report then { e with report := false } else e
    m_reportFlag := false
    g_forceReport := false }

/-! ## 4. Cloud callbacks -/

/-- `updateReportReriod`. -/
def updateReportReriod (s : Shadow) (t : BitVec 32) : Shadow :=
  if LOCAL_ATTR_REPROT_PERIOD ∈ s.m_iotAttrs then
    { setReport s LOCAL_ATTR_REPROT_PERIOD true with m_reportPeriod := t }
  else s

/-- `_DS_call_default_property_cb`. -/
def callDefaultPropertyCb (s : Shadow) (pattr : Ptr) :
    Prog Block (List IOTService.Invocation × Shadow) := do
  let o ← loadAttr pattr
  match o.attr_type with
  | .IOTX_SHADOW_INT32 =>
    let data ← loadChars o.pattr_data
    Prog.require (Access.int32 data.length).inBounds
    let name ← loadChars o.pattr_name
    let value := (DeviceShadow.decimal (loadInt32 data).toInt).take (ATTR_VALUE_MAX_LEN - 1)
    pure ((s.callPropertySet (cstr name) value).2, { s with g_forceReport := true })
  | .IOTX_SHADOW_STRING =>
    let data ← loadChars o.pattr_data
    Prog.require (Access.cstring data).inBounds
    let name ← loadChars o.pattr_name
    let value := (cstr data).take (ATTR_VALUE_MAX_LEN - 1)
    pure ((s.callPropertySet (cstr name) value).2, { s with g_forceReport := true })
  | .other => pure ([], s)

/-- `_DS_report_period_property_cb`. -/
def reportPeriodPropertyCb (s : Shadow) (pattr : Ptr) : Prog Block Shadow := do
  let o ← loadAttr pattr
  let data ← loadChars o.pattr_data
  Prog.require (Access.int32 data.length).inBounds
  let _ ← loadChars o.pattr_name
  pure (updateReportReriod { s with g_forceReport := true } (loadInt32 data))

/-- The callback of an attribute, with the callbacks of the clients that it calls. -/
def runCallback (s : Shadow) (pattr : Ptr) : Prog Block (List IOTService.Invocation × Shadow) := do
  let o ← loadAttr pattr
  match o.callback with
  | none => pure ([], s)
  | some .DS_call_default_property_cb => callDefaultPropertyCb s pattr
  | some .DS_report_period_property_cb => do
    let s' ← reportPeriodPropertyCb s pattr
    pure ([], s')

/-- A delivery: the SDK stores the value, within the block, and calls back. -/
def deliver (s : Shadow) (pattr : Ptr) (data : Bytes) :
    Prog Block (List IOTService.Invocation × Shadow) := do
  let o ← loadAttr pattr
  let old ← loadChars o.pattr_data
  Prog.store o.pattr_data (.chars (poke old data))
  runCallback s pattr

/-- The loop of `~DeviceShadow` over the attributes. What the destructor does to its
    thread, which holds a reference to the shadow, is not modelled. -/
def delAttrs (s : Shadow) : Prog Block Unit := do
  let _ ← s.m_iotAttrs.toList.mapM fun p => _delProperty p.2.attr

/-! ## 5. Runs -/

/-- An operation; `μ` says what becomes of its allocations, and `π` which attribute the
    SDK means. -/
inductive Op (μ π : Type) where
  | setupShadow (h : Handle) : Op μ π
  | preShadow : Op μ π
  | service (op : IOTService.Op) : Op μ π
  | followProperty (c : ClientId) (key : String8) (type size : Int) (mem : μ) : Op μ π
  | reportProperty (key val : String8) (pushRc : Int) : Op μ π
  | updateProperties (ans : IOTService.Answers) : Op μ π
  | pushProperties : Op μ π
  | deliver (pattr : π) (data : Bytes) : Op μ π

def exec (s : Shadow) : Op Alloc Ptr → Prog Block Shadow
  | .setupShadow h => pure { s with m_shadow := some h }
  | .preShadow => registerAll s
  | .service op => pure { s with toIOTService := s.toIOTService.exec op }
  | .followProperty c key type size al => do
    let (_, s') ← followProperty al s c key type size
    pure s'
  | .reportProperty key val pushRc => do
    let (_, s') ← doReportProperty s (cstr key) (cstr val) pushRc
    pure s'
  | .updateProperties ans => updateProperties s ans
  | .pushProperties => pure (pushProperties s)
  | .deliver pattr data => do
    let (_, s') ← deliver s pattr data
    pure s'

/-- The SDK delivers to pointers that it was given. -/
def Op.Known (s : Shadow) : Op Alloc Ptr → Prop
  | .deliver pattr _ => ∃ x ∈ s.registered, x.2 = pattr
  | _ => True

instance (s : Shadow) (op : Op Alloc Ptr) : Decidable (op.Known s) := by
  cases op <;> simp only [Op.Known] <;> infer_instance

/-- **The server and its memory**, as long as nothing went wrong. -/
def machine : Machine (Option (Shadow × Heap Block)) (Op Alloc Ptr) where
  init m := ∃ al reportFlag, m = construct al reportFlag fun _ => none
  enabled m op := ∃ p ∈ m, op.Known p.1
  next m op := m.bind fun p => exec p.1 op p.2

instance (m : Option (Shadow × Heap Block)) (op : Op Alloc Ptr) : Decidable (machine.enabled m op) :=
  match m with
  | none => .isFalse fun h => by
    obtain ⟨p, hp, -⟩ := h
    cases hp
  | some p => decidable_of_iff (op.Known p.1)
    ⟨fun h => ⟨p, rfl, h⟩, fun ⟨q, hq, h⟩ => Option.some.inj hq ▸ h⟩

end Memory

end IotWrap
