/-
  File:      IotWrap/Represented.lean
  Subject:   The server in memory against the server as `DeviceShadow`.

  `Represents` says that the table of pointers is the table of `DeviceShadow`, when the
  blocks of each attribute lie at its `Place`; `tableBlocks` are all of them. `execTable`
  is a step of `DeviceShadow`, and `Allowed` the accesses that a step may make.

  * `does_addProperty`, `does_followProperty`, `does_doReportProperty`,
    `does_updateProperties`, `does_deliverTo`: each function in memory does what the
    function of `DeviceShadow` computes, to the blocks of the table and no others;
  * `does_construct`, `does_delAttrs`: the first blocks, and the end of all.
-/
import IotWrap.Buffers
import IotWrap.Owned

namespace IotWrap

open Lib

namespace Memory

open DeviceShadow (acceptType reportData reportAccesses updateData updateAccesses updateAttr)

/-! ## 1. Tables as lists -/

/-- Two tables with the same entries have the same list. -/
theorem toList_eq_of_get {β γ : Type} {t : Std.TreeMap String8 β} {t' : Std.TreeMap String8 γ}
    {f : String8 → γ → β} (h : ∀ k : String8, t[k]? = (t'[k]?).map (f k)) :
    t.toList = t'.toList.map fun p => (p.1, f p.1 p.2) := by
  have ho : t.toList.Pairwise fun a b => compare a.1 b.1 = .lt := Std.TreeMap.ordered_keys_toList
  have ho' : (t'.toList.map fun p => (p.1, f p.1 p.2)).Pairwise fun a b => compare a.1 b.1 = .lt :=
    List.pairwise_map.mpr Std.TreeMap.ordered_keys_toList
  have hne : ∀ {l : List (String8 × β)}, l.Pairwise (fun a b => compare a.1 b.1 = .lt) →
      l.Nodup := by
    intro l hl
    refine hl.imp fun {a b} hab e => ?_
    subst e
    simp at hab
  have hasymm : ∀ a b : String8 × β, compare a.1 b.1 = .lt → compare b.1 a.1 = .lt → a = b :=
    fun a b hab hba => absurd hba (Std.OrientedCmp.not_lt_of_lt hab)
  refine List.Perm.eq_of_pairwise (fun a b _ _ => hasymm a b) ho ho' ?_
  refine (List.perm_ext_iff_of_nodup (hne ho) (hne ho')).mpr fun p => ?_
  obtain ⟨k, b⟩ := p
  rw [Std.TreeMap.mem_toList_iff_getElem?_eq_some, h, Option.map_eq_some_iff, List.mem_map]
  constructor
  · intro hk
    obtain ⟨c, hc, rfl⟩ := hk
    exact ⟨(k, c), Std.TreeMap.mem_toList_iff_getElem?_eq_some.mpr hc, rfl⟩
  · intro hk
    obtain ⟨⟨k', c⟩, hc, he⟩ := hk
    obtain ⟨rfl, rfl⟩ := Prod.mk.inj he
    exact ⟨c, Std.TreeMap.mem_toList_iff_getElem?_eq_some.mp hc, rfl⟩

/-- Where the blocks of all attributes are. -/
abbrev Layout := String8 → Place

/-- The blocks of the table. -/
def tableBlocks (lay : Layout) (t : AttrTable) : Blocks Block :=
  t.toList.flatMap fun p => (lay p.1).blocks p.2.attr

/-- The blocks do not know the report flags. -/
theorem tableBlocks_congr (lay : Layout) {t t' : AttrTable}
    (h : ∀ k : String8, (t[k]?).map DSAttr.attr = (t'[k]?).map DSAttr.attr) :
    tableBlocks lay t = tableBlocks lay t' := by
  have hm : ∀ k : String8, (t.map fun _ a => a.attr)[k]? =
      ((t'.map fun _ a => a.attr)[k]?).map fun a => a := by
    intro k
    rw [Std.TreeMap.getElem?_map, Std.TreeMap.getElem?_map, Option.map_id', h k]
  have hl := toList_eq_of_get (f := fun _ a => a) hm
  rw [Std.TreeMap.toList_map, Std.TreeMap.toList_map, List.map_map] at hl
  have hflat := congrArg (fun l => l.flatMap fun p : String8 × ShadowAttr => (lay p.1).blocks p.2) hl
  simpa only [List.flatMap_map, Function.comp_apply, tableBlocks] using hflat

/-- One attribute's blocks, and the others. -/
theorem exists_rest (lay : Layout) {t : AttrTable} {k : String8} {a : DSAttr} (ha : t[k]? = some a) :
    ∃ rest, (tableBlocks lay t).Perm ((lay k).blocks a.attr ++ rest) ∧
      ∀ a' : DSAttr, (tableBlocks lay (t.insert k a')).Perm ((lay k).blocks a'.attr ++ rest) := by
  have hins : ∀ a' : DSAttr, (tableBlocks lay (t.insert k a')).Perm ((lay k).blocks a'.attr ++
      (t.toList.filter fun p => ¬ k == p.1).flatMap fun p => (lay p.1).blocks p.2.attr) := by
    intro a'
    exact (Std.TreeMap.toList_insert_perm (t := t) (k := k) (v := a')).flatMap_right _
  refine ⟨_, ?_, hins⟩
  have hsame : tableBlocks lay t = tableBlocks lay (t.insert k a) := by
    refine tableBlocks_congr lay fun k' => ?_
    rw [get_insert]
    split
    · rename_i e
      rw [← e, ha]
    · rfl
  rw [hsame]
  exact hins a

/-- A new attribute, at a place of its own. -/
theorem tableBlocks_new (lay : Layout) {t : AttrTable} {k : String8} (hk : t[k]? = none) (m : Place)
    (a : DSAttr) : (tableBlocks (Function.update lay k m) (t.insert k a)).Perm
      (m.blocks a.attr ++ tableBlocks lay t) := by
  have hne : ∀ p ∈ t.toList, p.1 ≠ k := by
    intro p hp e
    have hget := Std.TreeMap.mem_toList_iff_getElem?_eq_some.mp hp
    rw [e, hk] at hget
    cases hget
  have hfilter : (t.toList.filter fun p => ¬ k == p.1) = t.toList := by
    refine List.filter_eq_self.mpr fun p hp => ?_
    simpa using (hne p hp).symm
  have hins := Std.TreeMap.toList_insert_perm (t := t) (k := k) (v := a)
  rw [hfilter] at hins
  refine (hins.flatMap_right _).trans (List.Perm.of_eq ?_)
  rw [List.flatMap_cons, Function.update_self]
  refine congrArg (m.blocks a.attr ++ ·) (List.flatMap_congr fun p hp => ?_)
  rw [Function.update_of_ne (hne p hp)]

/-! ## 2. The operations on `DeviceShadow` -/

/-- The same operation, with other arguments for the memory and the SDK. -/
def Op.on {μ μ' π π' : Type} (mem : μ') (x : π') : Op μ π → Op μ' π'
  | .setupShadow h => .setupShadow h
  | .preShadow => .preShadow
  | .service op => .service op
  | .followProperty c key type size _ => .followProperty c key type size mem
  | .reportProperty key val pushRc => .reportProperty key val pushRc
  | .updateProperties ans => .updateProperties ans
  | .pushProperties => .pushProperties
  | .deliver _ data => .deliver x data

/-- A delivery: the SDK stores the value within the block, and calls back. -/
def sdkDeliver (d : DeviceShadow) (k : String8) (data : Bytes) : DeviceShadow :=
  match d.m_iotAttrs[k]? with
  | none => d
  | some a =>
    (Reporting.sdkStore d k (delivered a.attr data).pattr_data).runCallback (delivered a.attr data)

/-- The callbacks of the clients that the callback of an attribute calls. -/
def sdkCalls (d : DeviceShadow) (a : ShadowAttr) : List IOTService.Invocation :=
  match a.callback with
  | some .DS_call_default_property_cb => (d.callDefaultPropertyCb a).1
  | _ => []

/-- They do not depend on what the table has. -/
theorem sdkCalls_store (d : DeviceShadow) (k : String8) (b : Bytes) (a : ShadowAttr) :
    sdkCalls (Reporting.sdkStore d k b) a = sdkCalls d a := by
  unfold sdkCalls DeviceShadow.callDefaultPropertyCb
  cases DeviceShadow.formatValue a <;> rfl

/-- An operation on `DeviceShadow`; what the SDK returns to `pushProperties` does not
    change the server. -/
def execTable (d : DeviceShadow) : Op Callocs String8 → DeviceShadow
  | .setupShadow h => { d with m_shadow := some h }
  | .preShadow => d.registerAll
  | .service op => { d with toIOTService := d.toIOTService.exec op }
  | .followProperty c key type size mem => (d.followProperty c key type size mem).2
  | .reportProperty key val pushRc => (d.doReportProperty (cstr key) (cstr val) pushRc).2
  | .updateProperties ans => d.updateProperties ans
  | .pushProperties => (d.pushProperties (fun _ => 0) 0).2
  | .deliver k data => sdkDeliver d k data

/-- The runs of `DeviceShadow`. -/
def tables : Machine DeviceShadow (Op Callocs String8) where
  init d := ∃ reportFlag mem, d = DeviceShadow.construct reportFlag mem
  enabled d op := ∀ k data, op = .deliver k data → ∃ h, (h, k) ∈ d.registered
  next := execTable

/-! ## 3. Representation -/

/-- What was registered: the pointer of an attribute, for its name. -/
structure SamePtr (lay : Layout) (t : AttrTable) (x : Handle × Ptr) (y : Handle × String8) :
    Prop where
  handle : x.1 = y.1
  known : y.2 ∈ t
  ptr : x.2 = some (lay y.2).obj

/-- **The shadow in memory is `d`**, with its attributes at `lay`. -/
structure Represents (lay : Layout) (s : Shadow) (d : DeviceShadow) : Prop where
  service : s.toIOTService = d.toIOTService
  reportFlag : s.m_reportFlag = d.m_reportFlag
  forceReport : s.g_forceReport = d.g_forceReport
  shadow : s.m_shadow = d.m_shadow
  period : s.m_reportPeriod = d.m_reportPeriod
  attrs : ∀ k : String8, s.m_iotAttrs[k]? = (d.m_iotAttrs[k]?).map (lay k).entry
  name : ∀ (k : String8) (a : DSAttr), d.m_iotAttrs[k]? = some a → a.attr.pattr_name = k
  cName : ∀ k : String8, k ∈ d.m_iotAttrs → (0 : UInt8) ∉ k
  /-- The attributes with no bytes are those without a block for them. -/
  value : ∀ (k : String8) (a : DSAttr), d.m_iotAttrs[k]? = some a →
    ((lay k).data = none ↔ a.attr.pattr_data = [])
  registered : List.Forall₂ (SamePtr lay d.m_iotAttrs) s.registered d.registered

/-- What an operation does to the value of an attribute. -/
def accessesAt (lay : Layout) (d : DeviceShadow) (k : String8) (a : DSAttr) :
    Op Alloc Ptr → List Access
  | .reportProperty key val _ => if cstr key = k then reportAccesses a.attr (cstr val) else []
  | .updateProperties ans => updateAccesses d.toIOTService ans a
  | .deliver pattr data => if pattr = some (lay k).obj then deliverAccesses a.attr data else []
  | .setupShadow _ | .preShadow | .service _ | .followProperty _ _ _ _ _ | .pushProperties => []

/-- **The condition on one step**: every access to a value is within a block that is
    there. -/
def Allowed (lay : Layout) (d : DeviceShadow) (op : Op Alloc Ptr) : Prop :=
  ∀ (k : String8) (a : DSAttr), d.m_iotAttrs[k]? = some a → (lay k).Allows (accessesAt lay d k a op)

/-- The table is in memory as `toList` gives it. -/
theorem Represents.toList {lay : Layout} {s : Shadow} {d : DeviceShadow} (hR : Represents lay s d) :
    s.m_iotAttrs.toList = d.m_iotAttrs.toList.map fun p => (p.1, (lay p.1).entry p.2) :=
  toList_eq_of_get hR.attrs

theorem Represents.name_cstr {lay : Layout} {s : Shadow} {d : DeviceShadow}
    (hR : Represents lay s d) {k : String8} {a : DSAttr} (ha : d.m_iotAttrs[k]? = some a) :
    (0 : UInt8) ∉ a.attr.pattr_name := by
  rw [hR.name k a ha]
  exact hR.cName k (DeviceShadow.mem_of_get ha)

/-- A program on one attribute. -/
theorem does_one {α : Type} {lay : Layout} {t : AttrTable} {k : String8} {a : DSAttr}
    (ha : t[k]? = some a) (b : DSAttr) {c : Prog Block α} {ok : Prop} {x : α}
    (hc : Does ((lay k).blocks a.attr) c ok fun r l' => r = x ∧ l' = (lay k).blocks b.attr) :
    Does (tableBlocks lay t) c ok fun r l' => r = x ∧ l' = tableBlocks lay (t.insert k b) := by
  obtain ⟨rest, hp, hins⟩ := exists_rest lay ha
  refine ((hc.frame rest).perm hp.symm).arrange fun r l' hq => ?_
  obtain ⟨l₁, ⟨rfl, rfl⟩, rfl⟩ := hq
  exact ⟨_, (hins b).symm, rfl, rfl⟩

/-- A program that only reads one attribute. -/
theorem does_read {α : Type} {lay : Layout} {t : AttrTable} {k : String8} {a : DSAttr}
    (ha : t[k]? = some a) {c : Prog Block α} {ok : Prop} {x : α}
    (hc : Does ((lay k).blocks a.attr) c ok fun r l' => r = x ∧ l' = (lay k).blocks a.attr) :
    Does (tableBlocks lay t) c ok fun r l' => r = x ∧ l' = tableBlocks lay t := by
  obtain ⟨rest, hp, -⟩ := exists_rest lay ha
  refine ((hc.frame rest).perm hp.symm).arrange fun r l' hq => ?_
  obtain ⟨l₁, ⟨rfl, rfl⟩, rfl⟩ := hq
  exact ⟨_, hp.symm, rfl, rfl⟩

/-! ## 4. One operation -/

variable {lay : Layout} {s : Shadow} {d : DeviceShadow}

/-- The name and the number of bytes stay. -/
structure Alike (a' a : ShadowAttr) : Prop where
  name : a'.pattr_name = a.pattr_name
  length : a'.pattr_data.length = a.pattr_data.length

/-- A change of entries that are there. -/
theorem Represents.change (hR : Represents lay s d) {t : Std.TreeMap String8 Entry} {t' : AttrTable}
    {f : String8 → DSAttr → DSAttr}
    (ht : ∀ k : String8, t[k]? = (d.m_iotAttrs[k]?).map fun a => (lay k).entry (f k a))
    (ht' : ∀ k : String8, t'[k]? = (d.m_iotAttrs[k]?).map (f k))
    (hf : ∀ (k : String8) (a : DSAttr), d.m_iotAttrs[k]? = some a → Alike (f k a).attr a.attr) :
    Represents lay { s with m_iotAttrs := t } { d with m_iotAttrs := t' } := by
  have hkeys : ∀ k : String8, k ∈ t' ↔ k ∈ d.m_iotAttrs := by
    intro k
    rw [Std.TreeMap.mem_iff_isSome_getElem?, ht', Option.isSome_map,
      ← Std.TreeMap.mem_iff_isSome_getElem?]
  refine { hR with
    attrs := fun k => ?_
    name := fun k a ha => ?_
    cName := fun k hk => ?_
    value := fun k a ha => ?_
    registered := List.Forall₂.imp (fun x y hxy => ?_) hR.registered }
  · show t[k]? = (t'[k]?).map _
    rw [ht, ht', Option.map_map]
    rfl
  · have ha' : t'[k]? = some a := ha
    rw [ht'] at ha'
    obtain ⟨a₀, ha₀, rfl⟩ := Option.map_eq_some_iff.mp ha'
    rw [(hf k a₀ ha₀).name]
    exact hR.name k a₀ ha₀
  · exact hR.cName k ((hkeys k).mp hk)
  · have ha' : t'[k]? = some a := ha
    rw [ht'] at ha'
    obtain ⟨a₀, ha₀, rfl⟩ := Option.map_eq_some_iff.mp ha'
    rw [hR.value k a₀ ha₀, ← List.length_eq_zero_iff, ← List.length_eq_zero_iff,
      (hf k a₀ ha₀).length]
  · exact ⟨hxy.handle, (hkeys y.2).mpr hxy.known, hxy.ptr⟩

/-- The flag of one entry. -/
theorem Represents.setReport (hR : Represents lay s d) (key : String8) (b : Bool) :
    Represents lay (setReport s key b) (d.setReport key b) := by
  refine hR.change (f := fun k a => if key = k then { a with report := b } else a)
    (fun k => ?_) (fun k => ?_) fun k a _ => ?_
  · rw [get_modify, hR.attrs k]
    split
    · rw [Option.map_map]
      rfl
    · rfl
  · rw [get_modify]
    split
    · rfl
    · rw [Option.map_id']
  · split <;> exact ⟨rfl, rfl⟩

/-- One entry, with the value that a report or the SDK stored. -/
theorem Represents.store (hR : Represents lay s d) {key : String8} {a : DSAttr}
    (ha : d.m_iotAttrs[key]? = some a) (b : DSAttr) (hb : Alike b.attr a.attr) :
    Represents lay { s with m_iotAttrs := s.m_iotAttrs.insert key ((lay key).entry b) }
      { d with m_iotAttrs := d.m_iotAttrs.insert key b } := by
  refine hR.change (f := fun k x => if key = k then b else x)
    (fun k => ?_) (fun k => ?_) fun k x hx => ?_
  · rw [get_insert, hR.attrs k]
    split
    · rename_i e
      subst e
      rw [ha]
      rfl
    · rfl
  · rw [get_insert]
    split
    · rename_i e
      subst e
      rw [ha]
      rfl
    · rw [Option.map_id']
  · split
    · rename_i e
      subst e
      rw [ha] at hx
      obtain rfl := Option.some.inj hx
      exact hb
    · exact ⟨rfl, rfl⟩

theorem Represents.get_some (hR : Represents lay s d) {k : String8} {a : DSAttr}
    (ha : d.m_iotAttrs[k]? = some a) : s.m_iotAttrs[k]? = some ((lay k).entry a) := by
  rw [hR.attrs k, ha]
  rfl

theorem Represents.get_none (hR : Represents lay s d) {k : String8}
    (hk : d.m_iotAttrs[k]? = none) : s.m_iotAttrs[k]? = none := by
  rw [hR.attrs k, hk]
  rfl

theorem Represents.mem_iff (hR : Represents lay s d) (k : String8) :
    k ∈ s.m_iotAttrs ↔ k ∈ d.m_iotAttrs := by
  rw [Std.TreeMap.mem_iff_isSome_getElem?, hR.attrs k, Option.isSome_map,
    ← Std.TreeMap.mem_iff_isSome_getElem?]

/-- A change of one report flag moves no block. -/
theorem tableBlocks_setReport (lay : Layout) (d : DeviceShadow) (key : String8) (b : Bool) :
    tableBlocks lay (d.setReport key b).m_iotAttrs = tableBlocks lay d.m_iotAttrs := by
  refine tableBlocks_congr lay fun k => ?_
  show Option.map _ (d.m_iotAttrs.modify key _)[k]? = _
  rw [get_modify]
  split
  · rw [Option.map_map]
    rfl
  · rfl

/-- **`updateReportReriod`.** -/
theorem Represents.period_set (hR : Represents lay s d) (t : BitVec 32) :
    Represents lay (updateReportReriod s t) (d.updateReportReriod t) := by
  unfold updateReportReriod DeviceShadow.updateReportReriod
  by_cases hk : LOCAL_ATTR_REPROT_PERIOD ∈ d.m_iotAttrs
  · rw [if_pos hk, if_pos ((hR.mem_iff _).mpr hk)]
    exact { hR.setReport LOCAL_ATTR_REPROT_PERIOD true with period := rfl }
  · rw [if_neg hk, if_neg fun hs => hk ((hR.mem_iff _).mp hs)]
    exact hR

/-- **A callback** makes the same calls, and changes the same flags. -/
theorem Represents.calledBack (hR : Represents lay s d) (a : ShadowAttr) :
    (calledBack s a).1 = sdkCalls d a ∧ Represents lay (calledBack s a).2 (d.runCallback a) := by
  unfold Memory.calledBack sdkCalls DeviceShadow.runCallback
  cases a.callback with
  | none => exact ⟨rfl, hR⟩
  | some cb =>
    cases cb with
    | DS_call_default_property_cb =>
      simp only [DeviceShadow.callDefaultPropertyCb]
      cases DeviceShadow.formatValue a with
      | none => exact ⟨rfl, hR⟩
      | some value => exact ⟨by rw [hR.service], { hR with forceReport := rfl }⟩
    | DS_report_period_property_cb =>
      exact ⟨rfl, Represents.period_set (s := { s with g_forceReport := true })
        (d := { d with g_forceReport := true }) { hR with forceReport := rfl } _⟩

theorem tableBlocks_runCallback (lay : Layout) (d : DeviceShadow) (a : ShadowAttr) :
    tableBlocks lay (d.runCallback a).m_iotAttrs = tableBlocks lay d.m_iotAttrs := by
  unfold DeviceShadow.runCallback
  cases a.callback with
  | none => rfl
  | some cb =>
    cases cb with
    | DS_call_default_property_cb =>
      simp only [DeviceShadow.callDefaultPropertyCb]
      cases DeviceShadow.formatValue a with
      | none => rfl
      | some value => rfl
    | DS_report_period_property_cb =>
      simp only [DeviceShadow.updateReportReriod]
      split
      · exact tableBlocks_setReport lay { d with g_forceReport := true } _ _
      · rfl

/-- **`pushProperties`.** -/
theorem Represents.push (hR : Represents lay s d) (rc : String8 → Int) (pushRc : Int) :
    Represents lay (pushProperties s) (d.pushProperties rc pushRc).2 := by
  unfold pushProperties DeviceShadow.pushProperties
  rw [hR.reportFlag, hR.forceReport]
  split
  · exact hR
  · have hclear : Represents lay { s with m_iotAttrs := s.m_iotAttrs.map fun _ e =>
        if d.g_forceReport || e.report then { e with report := false } else e } d.passClear := by
      refine hR.change (f := fun _ a => if d.selected a then { a with report := false } else a)
        (fun k => ?_) (fun k => ?_) fun k a _ => ?_
      · rw [Std.TreeMap.getElem?_map, hR.attrs k, Option.map_map]
        refine congrArg (Option.map · _) (funext fun a => ?_)
        show (if d.g_forceReport || a.report then _ else _) = _
        unfold DeviceShadow.selected
        generalize (d.g_forceReport || a.report) = b
        cases b <;> rfl
      · rw [Std.TreeMap.getElem?_map]
      · split <;> exact ⟨rfl, rfl⟩
    exact { hclear with
      reportFlag := rfl
      forceReport := rfl }

theorem tableBlocks_push (lay : Layout) (d : DeviceShadow) (rc : String8 → Int) (pushRc : Int) :
    tableBlocks lay (d.pushProperties rc pushRc).2.m_iotAttrs = tableBlocks lay d.m_iotAttrs := by
  unfold DeviceShadow.pushProperties
  split
  · rfl
  · refine tableBlocks_congr lay fun k => ?_
    show Option.map _ (d.m_iotAttrs.map _)[k]? = _
    rw [Std.TreeMap.getElem?_map, Option.map_map]
    refine congrArg (Option.map · _) (funext fun a => ?_)
    simp only [Function.comp_apply]
    split <;> rfl

/-! ## 5. The operations that touch blocks -/

/-- What `doReportProperty` does to the attribute. -/
theorem does_reportOne (s : Shadow) {key : String8} (val : String8) (pushRc : Int) {a : DSAttr}
    (m : Place) (hs : s.m_iotAttrs[key]? = some (m.entry a)) :
    Does (m.blocks a.attr) (doReportProperty s key val pushRc) (m.Allows (reportAccesses a.attr val))
      fun r l' =>
        r = (if (reportData a.attr val).isSome then
            (0, if s.m_shadow.isSome ∧ pushRc = 0 then
              setReport { s with
                m_iotAttrs := s.m_iotAttrs.insert key (m.entry { a with report := true })
                m_reportFlag := true } key false
              else { s with
                m_iotAttrs := s.m_iotAttrs.insert key (m.entry { a with report := true })
                m_reportFlag := true })
          else (-1, { s with
            m_iotAttrs := s.m_iotAttrs.insert key (m.entry { a with report := true }) })) ∧
        l' = m.blocks ((reportData a.attr val).elim a.attr a.attr.setData) := by
  unfold doReportProperty
  simp only [hs]
  refine (does_loadAttr m a.attr).seq fun o l' ho => ?_
  obtain ⟨rfl, rfl⟩ := ho
  refine (does_storeReport m a.attr val).before fun r l' hr => ?_
  obtain ⟨rfl, rfl⟩ := hr
  cases reportData a.attr val with
  | none => exact Does.pure ⟨rfl, rfl⟩
  | some data => exact Does.pure ⟨rfl, rfl⟩

/-- **`doReportProperty`.** -/
theorem does_doReportProperty (hR : Represents lay s d) (key val : String8) (pushRc : Int) :
    Does (tableBlocks lay d.m_iotAttrs) (doReportProperty s key val pushRc)
      (∀ a : DSAttr, d.m_iotAttrs[key]? = some a → (lay key).Allows (reportAccesses a.attr val))
      fun r l' => r.1 = (d.doReportProperty key val pushRc).1 ∧
        Represents lay r.2 (d.doReportProperty key val pushRc).2 ∧
        l' = tableBlocks lay (d.doReportProperty key val pushRc).2.m_iotAttrs := by
  unfold DeviceShadow.doReportProperty DeviceShadow.reportLocked
  cases hk : d.m_iotAttrs[key]? with
  | none =>
    unfold doReportProperty
    simp only [hR.get_none hk]
    exact (Does.pure ⟨rfl, hR, rfl⟩).sure (by simp)
  | some a =>
    have hone := does_reportOne s val pushRc (lay key) (hR.get_some hk)
    have hok : (lay key).Allows (reportAccesses a.attr val) ↔
        ∀ x : DSAttr, some a = some x → (lay key).Allows (reportAccesses x.attr val) := by simp
    cases hrep : reportData a.attr val with
    | none =>
      rw [hrep] at hone
      refine (does_one hk { a with report := true } hone).conseq hok fun r l' hq => ?_
      obtain ⟨rfl, rfl⟩ := hq
      simp only [hrep]
      exact ⟨rfl, hR.store hk { a with report := true } ⟨rfl, rfl⟩, trivial⟩
    | some data =>
      rw [hrep] at hone
      refine (does_one hk ({ a with report := true }.setData data) hone).conseq hok
        fun r l' hq => ?_
      obtain ⟨rfl, rfl⟩ := hq
      have hstore : Represents lay
          { s with
            m_iotAttrs := s.m_iotAttrs.insert key ((lay key).entry { a with report := true })
            m_reportFlag := true }
          { d with
            m_iotAttrs := d.m_iotAttrs.insert key ({ a with report := true }.setData data)
            m_reportFlag := true } :=
        { hR.store hk ({ a with report := true }.setData data)
            ⟨rfl, DeviceShadow.length_reportData hrep⟩ with reportFlag := rfl }
      simp only [hrep, Option.isSome_some, if_true, true_and]
      by_cases hpush : d.m_shadow.isSome = true ∧ pushRc = 0
      · rw [if_pos hpush, if_pos (hR.shadow ▸ hpush)]
        refine ⟨hstore.setReport key false, ?_⟩
        rw [tableBlocks_setReport]
      · rw [if_neg hpush, if_neg fun h => hpush (hR.shadow ▸ h)]
        exact ⟨hstore, rfl⟩

/-- A new entry, at a place of its own. -/
theorem Represents.new (hR : Represents lay s d) {name : String8} (hn : d.m_iotAttrs[name]? = none)
    (h0 : (0 : UInt8) ∉ name) (m : Place) {a : DSAttr} (ha : a.attr.pattr_name = name)
    (hm : m.data = none ↔ a.attr.pattr_data = []) :
    Represents (Function.update lay name m)
      { s with m_iotAttrs := s.m_iotAttrs.insert name (m.entry a) }
      { d with m_iotAttrs := d.m_iotAttrs.insert name a } := by
  have hlay : ∀ k ∈ d.m_iotAttrs, Function.update lay name m k = lay k := by
    intro k hk
    refine Function.update_of_ne (fun e => ?_) m lay
    rw [Std.TreeMap.mem_iff_isSome_getElem?, e, hn] at hk
    cases hk
  refine { hR with
    attrs := fun k => ?_
    name := fun k x hx => ?_
    cName := fun k hk => ?_
    value := fun k x hx => ?_
    registered := List.Forall₂.imp (fun x y hxy => ?_) hR.registered }
  · show (s.m_iotAttrs.insert name _)[k]? = ((d.m_iotAttrs.insert name a)[k]?).map _
    rw [get_insert, get_insert, hR.attrs k]
    split
    · rename_i e
      rw [← e, Function.update_self]
      rfl
    · rename_i e
      rw [Function.update_of_ne (Ne.symm e)]
  · have hx' : (d.m_iotAttrs.insert name a)[k]? = some x := hx
    rw [get_insert] at hx'
    split at hx'
    · rename_i e
      obtain rfl := Option.some.inj hx'
      exact ha.trans e
    · exact hR.name k x hx'
  · rcases Std.TreeMap.mem_insert.mp hk with he | hk
    · obtain rfl := Std.LawfulEqCmp.compare_eq_iff_eq.mp he
      exact h0
    · exact hR.cName k hk
  · have hx' : (d.m_iotAttrs.insert name a)[k]? = some x := hx
    rw [get_insert] at hx'
    split at hx'
    · rename_i e
      obtain rfl := Option.some.inj hx'
      rw [← e, Function.update_self]
      exact hm
    · rw [hlay k (DeviceShadow.mem_of_get hx')]
      exact hR.value k x hx'
  · exact ⟨hxy.handle, Std.TreeMap.mem_insert.mpr (.inr hxy.known),
      hxy.ptr.trans (by rw [hlay y.2 hxy.known])⟩

/-- Every attribute has a block for its value. -/
def Full (lay : Layout) (t : AttrTable) : Prop := ∀ k ∈ t, (lay k).data ≠ none

/-- What an addition leaves in memory, where it leaves `d'` on the table `t`. -/
structure Left (al : Alloc) (lay : Layout) (t : AttrTable) (s' : Shadow) (l' : Blocks Block)
    (d' : DeviceShadow) (lay' : Layout) : Prop where
  represents : Represents lay' s' d'
  blocks : l' = tableBlocks lay' d'.m_iotAttrs
  full : al.Ample → Full lay t → Full lay' d'.m_iotAttrs

/-- What `_addProperty` gives in memory, where it gives `x` on the table. -/
def Added (al : Alloc) (lay : Layout) (t : AttrTable) (name : String8) (r : Ptr × Shadow)
    (l' : Blocks Block) (x : Option ShadowAttr × DeviceShadow) : Prop :=
  ∃ lay', Left al lay t r.2 l' x.2 lay' ∧
    match x.1 with
    | none => r.1 = none
    | some a => r.1 = some (lay' name).obj ∧ a.pattr_name = name ∧
        ∃ isLocal, x.2.m_iotAttrs[name]? = some ⟨false, isLocal, a⟩

/-- **`_addProperty`.** -/
theorem does_addProperty (hR : Represents lay s d) (al : Alloc) {name : String8}
    (h0 : (0 : UInt8) ∉ name) (type : AttrType) {size : Int} (hs : 0 < size) (cb : Option AttrCb)
    (isLocal : Bool) :
    Does (tableBlocks lay d.m_iotAttrs) (_addProperty al s name type size cb isLocal) True
      fun r l' => ∃ mem, Added al lay d.m_iotAttrs name r l'
        (d._addProperty name type size cb isLocal mem) := by
  unfold _addProperty
  cases hk : d.m_iotAttrs[name]? with
  | some a =>
    have hold : d._addProperty name type size cb isLocal .fail = (none, d) :=
      if_pos (DeviceShadow.mem_of_get hk)
    simp only [hR.get_some hk]
    refine (does_read hk (does_loadAttr (lay name) a.attr)).seq fun r l' hr => ?_
    exact Does.pure ⟨.fail, lay, by rw [hold]; exact ⟨⟨hR, hr.2, fun _ hf => hf⟩, rfl⟩⟩
  | none =>
    have hmem : name ∉ d.m_iotAttrs := by
      rw [Std.TreeMap.mem_iff_isSome_getElem?, hk]
      exact Bool.false_ne_true
    simp only [hR.get_none hk]
    refine ((does_newProperty al name type size cb).frame (tableBlocks lay d.m_iotAttrs)).seq
      fun p l' hp => ?_
    obtain ⟨l₁, hp | ⟨m, rfl, hdata, rfl⟩, rfl⟩ := hp
    · obtain ⟨rfl, -, rfl⟩ := hp
      have hfail : d._addProperty name type size cb isLocal .fail = (none, d) := by
        unfold DeviceShadow._addProperty
        rw [if_neg hmem]
        rfl
      exact Does.pure ⟨.fail, lay, by rw [hfail]; exact ⟨⟨hR, rfl, fun _ hf => hf⟩, rfl⟩⟩
    · have hnew : d._addProperty name type size cb isLocal (outcome m.data) =
          (some (newAttr name type size cb m.data),
            { d with
              m_iotAttrs := d.m_iotAttrs.insert name
                ⟨false, isLocal, newAttr name type size cb m.data⟩ }) := by
        unfold DeviceShadow._addProperty
        rw [if_neg hmem, newProperty_outcome]
      have hself : Function.update lay name m name = m := Function.update_self name m lay
      have hR' := hR.new hk h0 m (a := ⟨false, isLocal, newAttr name type size cb m.data⟩) rfl
        (newAttr_value name type hs cb m.data)
      have hfull : al.Ample → Full lay d.m_iotAttrs → Full (Function.update lay name m)
          (d.m_iotAttrs.insert name ⟨false, isLocal, newAttr name type size cb m.data⟩) := by
        intro hal hf k hk'
        by_cases he : k = name
        · rw [he, hself]
          exact hdata hal
        · rw [Function.update_of_ne he]
          refine hf k ((Std.TreeMap.mem_insert.mp hk').resolve_left fun hc => he ?_)
          exact (Std.LawfulEqCmp.compare_eq_iff_eq.mp hc).symm
      refine Does.pure_perm (tableBlocks_new lay hk m ⟨false, isLocal, _⟩).symm
        ⟨outcome m.data, ?_⟩
      refine ⟨Function.update lay name m, ?_⟩
      rw [hnew]
      refine ⟨⟨hR', rfl, hfull⟩, by rw [hself], rfl, isLocal, ?_⟩
      exact (get_insert _ _ _ _).trans (if_pos rfl)

/-- What the trace of an attribute's name reads is there. -/
theorem does_traceName (m : Place) (a : ShadowAttr) :
    Does (m.blocks a) (traceName (some m.obj)) True fun r l' => r = () ∧ l' = m.blocks a := by
  refine (does_loadAttr m a).seq fun o l' ho => ?_
  obtain ⟨rfl, rfl⟩ := ho
  refine (does_loadName m a).seq fun b l' hb => ?_
  exact Does.pure ⟨rfl, hb.2⟩

theorem does_registerOne (h : Option Handle) (m : Place) (a : ShadowAttr) :
    Does (m.blocks a) (registerOne h (some m.obj)) True fun r l' =>
      r = (h.map fun h => (h, some m.obj)) ∧ l' = m.blocks a :=
  (does_traceName m a).seq fun _ _ hr => Does.pure ⟨rfl, hr.2⟩

/-- A registration more. -/
theorem Represents.register (hR : Represents lay s d) (h : Handle) {k : String8} {p : Ptr}
    (hk : k ∈ d.m_iotAttrs) (hp : p = some (lay k).obj) :
    Represents lay { s with registered := s.registered ++ [(h, p)] }
      { d with registered := d.registered ++ [(h, k)] } :=
  { hR with
    registered := List.rel_append hR.registered (.cons ⟨rfl, hk, hp⟩ .nil) }

/-- The end of `doAddProperty`. -/
theorem does_registerNew {al : Alloc} {t : AttrTable} {name : String8} {r : Ptr × Shadow}
    {x : Option ShadowAttr × DeviceShadow} {l : Blocks Block} (h : Added al lay t name r l x) :
    Does l (registerNew r.2 r.1) True fun s' l' =>
      ∃ lay', Left al lay t s' l' (x.2.registerNew x.1) lay' := by
  obtain ⟨lay', ⟨hR, rfl, hfull⟩, hptr⟩ := h
  obtain ⟨attr, s'⟩ := r
  obtain ⟨new, d'⟩ := x
  unfold registerNew DeviceShadow.registerNew
  cases new with
  | none =>
    obtain rfl : attr = none := hptr
    exact Does.pure ⟨lay', hR, rfl, hfull⟩
  | some a =>
    obtain ⟨rfl, rfl, isLocal, hget⟩ := hptr
    have hsh : s'.m_shadow = d'.m_shadow := hR.shadow
    cases hd : d'.m_shadow with
    | none =>
      simp only [hsh, hd]
      exact Does.pure ⟨lay', hR, rfl, hfull⟩
    | some h =>
      simp only [hsh, hd]
      refine (does_read hget (does_traceName _ a)).seq fun r l' hr => ?_
      obtain ⟨-, rfl⟩ := hr
      have hR' := hR.register h (DeviceShadow.mem_of_get hget) rfl
      exact Does.pure ⟨lay', { hR' with shadow := rfl }, rfl, hfull⟩

/-- **`doAddProperty`.** -/
theorem does_doAddProperty (hR : Represents lay s d) (al : Alloc) {name : String8}
    (h0 : (0 : UInt8) ∉ name) (type size : Int) :
    Does (tableBlocks lay d.m_iotAttrs) (doAddProperty al s name type size) True fun r l' =>
      ∃ mem lay', r.1 = (d.doAddProperty name type size mem).1 ∧
        Left al lay d.m_iotAttrs r.2 l' (d.doAddProperty name type size mem).2 lay' := by
  unfold doAddProperty DeviceShadow.doAddProperty
  cases ht : acceptType type size with
  | none => exact Does.pure ⟨.fail, lay, rfl, hR, rfl, fun _ hf => hf⟩
  | some t =>
    refine (does_addProperty hR al h0 t (DeviceShadow.acceptType_pos ht)
      (some .DS_call_default_property_cb) false).seq fun r l' hr => ?_
    obtain ⟨mem, hr⟩ := hr
    refine (does_registerNew hr).seq fun s' l' hs => ?_
    obtain ⟨lay', hleft⟩ := hs
    exact Does.pure ⟨mem, lay', rfl, hleft⟩

/-- **`followProperty`.** -/
theorem does_followProperty (hR : Represents lay s d) (al : Alloc) (c : ClientId) (key : String8)
    (type size : Int) :
    Does (tableBlocks lay d.m_iotAttrs) (followProperty al s c key type size) True fun r l' =>
      ∃ mem lay', r.1 = (d.followProperty c key type size mem).1 ∧
        Left al lay d.m_iotAttrs r.2 l' (d.followProperty c key type size mem).2 lay' := by
  unfold followProperty DeviceShadow.followProperty
  rw [hR.service]
  cases d.toIOTService.addFollowing FOLLOW_TYPE_PROPERTY (cstr key) c with
  | mk ret t =>
    have hR' : Represents lay { s with toIOTService := t } { d with toIOTService := t } :=
      { hR with service := rfl }
    by_cases hret : ret = 0
    · subst hret
      exact does_doAddProperty hR' al (zero_not_mem_cstr key) type size
    · simp only [ne_eq, hret, not_false_eq_true, if_true]
      exact Does.pure ⟨.fail, lay, rfl, hR', rfl, fun _ hf => hf⟩

/-- **The constructor.** -/
theorem does_construct (al : Alloc) (reportFlag : Bool) :
    Does [] (construct al reportFlag) True fun s l' => ∃ mem lay,
      Represents lay s (DeviceShadow.construct reportFlag mem) ∧
        l' = tableBlocks lay (DeviceShadow.construct reportFlag mem).m_iotAttrs ∧
        (al.Ample → Full lay (DeviceShadow.construct reportFlag mem).m_iotAttrs) := by
  have hblank : ∀ lay : Layout, Represents lay
      { toIOTService := IOTService.init
        m_iotAttrs := {}
        m_reportFlag := reportFlag
        g_forceReport := false
        m_shadow := none
        m_reportPeriod := 20000#32
        registered := [] }
      { toIOTService := IOTService.init
        m_iotAttrs := {}
        m_reportFlag := reportFlag
        g_forceReport := false
        m_shadow := none
        m_reportPeriod := 20000#32
        registered := [] } := by
    intro lay
    refine ⟨rfl, rfl, rfl, rfl, rfl, fun k => by simp, fun k a ha => by simp at ha,
      fun k hk => by simp at hk, fun k a ha => by simp at ha, .nil⟩
  have hname : (0 : UInt8) ∉ LOCAL_ATTR_REPROT_PERIOD := by decide
  refine (does_addProperty (hblank fun _ => ⟨0, 0, none⟩) al hname .IOTX_SHADOW_INT32
    (by decide : (0 : Int) < 4) (some .DS_report_period_property_cb) true).seq fun r l' hr => ?_
  obtain ⟨mem, lay', ⟨hR, rfl, hfull⟩, -⟩ := hr
  exact Does.pure ⟨mem, lay', hR, rfl, fun hal => hfull hal fun k hk => by simp at hk⟩

/-- **The registration pass of `preShadow`.** -/
theorem does_registerAll (hR : Represents lay s d) :
    Does (tableBlocks lay d.m_iotAttrs) (registerAll s) True fun s' l' =>
      Represents lay s' d.registerAll ∧ l' = tableBlocks lay d.registerAll.m_iotAttrs := by
  unfold registerAll
  rw [hR.toList, List.mapM_map, hR.shadow]
  refine ((Does.each d.m_iotAttrs.toList fun p _ =>
    does_registerOne d.m_shadow (lay p.1) p.2.attr).congr (by simp)).seq fun r l' hr => ?_
  obtain ⟨rfl, rfl⟩ := hr
  unfold DeviceShadow.registerAll
  cases hd : d.m_shadow with
  | none =>
    have hnil : (d.m_iotAttrs.toList.map fun p : String8 × DSAttr =>
        (none : Option (Handle × Ptr))).filterMap id = [] := by simp
    simp only [Option.map_none, hnil, List.append_nil]
    exact Does.pure ⟨{ hR with shadow := hd.symm }, rfl⟩
  | some h =>
    have hnew : List.Forall₂ (SamePtr lay d.m_iotAttrs)
        (d.m_iotAttrs.toList.map fun p => (h, some (lay p.1).obj))
        (d.m_iotAttrs.toList.map fun p => (h, p.2.attr.pattr_name)) := by
      rw [List.forall₂_map_left_iff, List.forall₂_map_right_iff, List.forall₂_same]
      intro p hp
      have hget := Std.TreeMap.mem_toList_iff_getElem?_eq_some.mp hp
      have hname := hR.name p.1 p.2 hget
      exact ⟨rfl, hname ▸ DeviceShadow.mem_of_get hget, by rw [hname]⟩
    simp only [Option.map_some]
    rw [List.filterMap_map, Function.id_comp, List.filterMap_eq_map']
    exact Does.pure ⟨{ hR with
      shadow := rfl
      registered := List.rel_append hR.registered hnew }, rfl⟩

/-- Which attributes `updateProperties` finds changed. -/
def changedIn (d : DeviceShadow) (ans : IOTService.Answers) : List (String8 × Bool) :=
  d.m_iotAttrs.toList.map fun p => (p.1, (updateData d.toIOTService ans p.2).isSome)

theorem mem_changedIn {ans : IOTService.Answers} {k : String8} {a : DSAttr}
    (ha : d.m_iotAttrs[k]? = some a) :
    (k, true) ∈ changedIn d ans ↔ (updateData d.toIOTService ans a).isSome = true := by
  unfold changedIn
  rw [List.mem_map]
  constructor
  · intro h
    obtain ⟨⟨k', x⟩, hx, he⟩ := h
    obtain ⟨rfl, hb⟩ := Prod.mk.inj he
    have hget := Std.TreeMap.mem_toList_iff_getElem?_eq_some.mp hx
    rw [ha] at hget
    obtain rfl := Option.some.inj hget
    exact hb
  · intro h
    exact ⟨(k, a), Std.TreeMap.mem_toList_iff_getElem?_eq_some.mpr ha, by rw [h]⟩

/-- The entry after `updateProperties`. -/
theorem entry_updateAttr (m : Place) (t : IOTService) (ans : IOTService.Answers) (a : DSAttr) :
    m.entry (updateAttr t ans a) =
      if (updateData t ans a).isSome then { m.entry a with report := true } else m.entry a := by
  unfold updateAttr
  cases updateData t ans a with
  | none => rfl
  | some data => rfl

theorem alike_updateAttr (t : IOTService) (ans : IOTService.Answers) (a : DSAttr) :
    Alike (updateAttr t ans a).attr a.attr := by
  rw [updateAttr_attr]
  cases hd : updateData t ans a with
  | none => exact ⟨rfl, rfl⟩
  | some data => exact ⟨rfl, DeviceShadow.length_updateData hd⟩

/-- **`updateProperties`.** -/
theorem does_updateProperties (hR : Represents lay s d) (ans : IOTService.Answers) :
    Does (tableBlocks lay d.m_iotAttrs) (updateProperties s ans)
      (∀ (k : String8) (a : DSAttr), d.m_iotAttrs[k]? = some a →
        (lay k).Allows (updateAccesses d.toIOTService ans a)) fun s' l' =>
      Represents lay s' (d.updateProperties ans) ∧
        l' = tableBlocks lay (d.updateProperties ans).m_iotAttrs := by
  unfold updateProperties
  rw [hR.toList, List.mapM_map, hR.service]
  have hone : ∀ p ∈ d.m_iotAttrs.toList, Does ((lay p.1).blocks p.2.attr)
      (updateOne d.toIOTService ans ((lay p.1).entry p.2) >>= fun b => pure (p.1, b))
      ((lay p.1).Allows (updateAccesses d.toIOTService ans p.2)) fun r l' =>
        r = (p.1, (updateData d.toIOTService ans p.2).isSome) ∧
          l' = (lay p.1).blocks (updateAttr d.toIOTService ans p.2).attr := by
    intro p hp
    have h0 := hR.name_cstr (Std.TreeMap.mem_toList_iff_getElem?_eq_some.mp hp)
    refine (does_updateOne (lay p.1) d.toIOTService ans p.2 h0).before fun b l' hb => ?_
    obtain ⟨rfl, rfl⟩ := hb
    exact Does.pure ⟨rfl, rfl⟩
  have hok : (∀ p ∈ d.m_iotAttrs.toList,
      (lay p.1).Allows (updateAccesses d.toIOTService ans p.2)) ↔
      ∀ (k : String8) (a : DSAttr), d.m_iotAttrs[k]? = some a →
        (lay k).Allows (updateAccesses d.toIOTService ans a) :=
    ⟨fun h k a ha => h (k, a) (Std.TreeMap.mem_toList_iff_getElem?_eq_some.mpr ha),
      fun h p hp => h p.1 p.2 (Std.TreeMap.mem_toList_iff_getElem?_eq_some.mp hp)⟩
  refine ((Does.each d.m_iotAttrs.toList hone).before fun r l' hr => ?_).congr hok
  obtain ⟨rfl, rfl⟩ := hr
  have hR' : Represents lay
      { s with
        m_iotAttrs := s.m_iotAttrs.map fun k e =>
          if (k, true) ∈ changedIn d ans then { e with report := true } else e }
      { d with m_iotAttrs := d.m_iotAttrs.map fun _ a => updateAttr d.toIOTService ans a } := by
    refine hR.change (f := fun _ a => updateAttr d.toIOTService ans a) (fun k => ?_) (fun k => ?_)
      fun k a _ => alike_updateAttr d.toIOTService ans a
    · rw [Std.TreeMap.getElem?_map, hR.attrs k, Option.map_map]
      cases ha : d.m_iotAttrs[k]? with
      | none => rfl
      | some a =>
        refine congrArg some ((if_congr (mem_changedIn ha) rfl rfl).trans ?_)
        exact (entry_updateAttr (lay k) d.toIOTService ans a).symm
    · rw [Std.TreeMap.getElem?_map]
  have hflag : (s.m_reportFlag || (changedIn d ans).any fun p => p.2) =
      (d.updateProperties ans).m_reportFlag := by
    rw [hR.reportFlag, changedIn, List.any_map]
    rfl
  refine Does.pure ⟨{ hR' with
    service := rfl
    reportFlag := hflag }, ?_⟩
  show _ = (d.m_iotAttrs.map _).toList.flatMap _
  rw [Std.TreeMap.toList_map, List.flatMap_map]

/-- **The loop of the destructor.** -/
theorem does_delAttrs (hR : Represents lay s d) :
    Does (tableBlocks lay d.m_iotAttrs) (delAttrs s) True fun _ l' => l' = [] := by
  unfold delAttrs
  rw [hR.toList, List.mapM_map]
  have hdel : ∀ p ∈ d.m_iotAttrs.toList, Does ((lay p.1).blocks p.2.attr)
      (_delProperty (some (lay p.1).obj)) True fun r l' => r = () ∧ l' = [] := by
    intro p _
    exact (does_delProperty (lay p.1) p.2.attr).conseq Iff.rfl fun _ _ hl => ⟨rfl, hl⟩
  refine ((Does.each d.m_iotAttrs.toList hdel).congr (by simp)).seq fun r l' hr => ?_
  obtain ⟨-, rfl⟩ := hr
  exact Does.pure (by simp)

/-- Two attributes are two objects. -/
theorem Represents.obj_inj (hR : Represents lay s d)
    (hd : ((tableBlocks lay d.m_iotAttrs).map Prod.fst).Nodup) {k k' : String8} {a a' : DSAttr}
    (ha : d.m_iotAttrs[k]? = some a) (ha' : d.m_iotAttrs[k']? = some a')
    (he : (lay k).obj = (lay k').obj) : k = k' := by
  have hmem : ∀ {k : String8} {a : DSAttr}, d.m_iotAttrs[k]? = some a →
      ∀ x ∈ (lay k).blocks a.attr, x ∈ tableBlocks lay d.m_iotAttrs := by
    intro k a ha x hx
    exact List.mem_flatMap.mpr ⟨(k, a), Std.TreeMap.mem_toList_iff_getElem?_eq_some.mpr ha, hx⟩
  have hblock := List.inj_on_of_nodup_map hd (hmem ha _ List.mem_cons_self)
    (hmem ha' _ List.mem_cons_self) he
  have hname : (lay k).name = (lay k').name := by
    simp only [Place.attrObj, Prod.mk.injEq, Block.attr.injEq, AttrObj.mk.injEq,
      Option.some.injEq] at hblock
    exact hblock.2.1
  have hchars := List.inj_on_of_nodup_map hd
    (hmem ha _ (List.mem_cons_of_mem _ List.mem_cons_self))
    (hmem ha' _ (List.mem_cons_of_mem _ List.mem_cons_self)) hname
  simp only [Prod.mk.injEq, Block.chars.injEq, List.append_cancel_right_eq] at hchars
  rw [← hR.name k a ha, ← hR.name k' a' ha', hchars.2]

/-- **A delivery to an attribute.** -/
theorem does_deliverTo (hR : Represents lay s d) {k : String8} {a : DSAttr}
    (ha : d.m_iotAttrs[k]? = some a) (data : Bytes) :
    Does (tableBlocks lay d.m_iotAttrs) (deliver s (some (lay k).obj) data)
      ((lay k).Allows (deliverAccesses a.attr data)) fun r l' =>
      r.1 = sdkCalls d (delivered a.attr data) ∧ Represents lay r.2 (sdkDeliver d k data) ∧
        l' = tableBlocks lay (sdkDeliver d k data).m_iotAttrs := by
  have hone := does_deliver (lay k) s a.attr (hR.name_cstr ha) data
  refine (does_one ha { a with attr := delivered a.attr data } hone).conseq Iff.rfl
    fun s' l' hs => ?_
  obtain ⟨rfl, rfl⟩ := hs
  have hR' : Represents lay s (Reporting.sdkStore d k (delivered a.attr data).pattr_data) := by
    refine hR.change (t := s.m_iotAttrs)
      (f := fun k' x => if k = k' then x.setData (delivered a.attr data).pattr_data else x)
      (fun k' => ?_) (fun k' => ?_) fun k' x hx => ?_
    · rw [hR.attrs k']
      refine congrArg (Option.map · _) (funext fun x => ?_)
      split <;> rfl
    · rw [get_modify]
      split
      · rfl
      · rw [Option.map_id']
    · split
      · rename_i e
        rw [← e, ha] at hx
        obtain rfl := Option.some.inj hx
        exact ⟨rfl, length_poke _ _⟩
      · exact ⟨rfl, rfl⟩
  obtain ⟨hcalls, hback⟩ := hR'.calledBack (delivered a.attr data)
  unfold sdkDeliver
  simp only [ha]
  refine ⟨hcalls.trans (sdkCalls_store _ _ _ _), hback, ?_⟩
  rw [tableBlocks_runCallback]
  refine tableBlocks_congr lay fun k' => ?_
  show _ = ((d.m_iotAttrs.modify k _)[k']?).map _
  rw [get_insert, get_modify]
  split
  · rename_i e
    rw [← e, ha]
    rfl
  · rfl

end Memory

end IotWrap
