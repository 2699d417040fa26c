/-
  File:      IotWrap/MemorySafe.lean
  Subject:   Whole runs of the server in memory.

  A step in memory is the step of `DeviceShadow`, on the blocks of the table and no
  others, or goes wrong where an access to a value is not allowed.

  * `represented`: every run, as long as nothing went wrong;
  * `wrong_iff`: which step goes wrong;
  * `safe`: with enough memory, and with sizes that fit, no step does;
  * `all_freed`: after the loop of the destructor no block is left.
-/
import IotWrap.Buffers
import IotWrap.Represented

namespace IotWrap

open Lib

namespace Memory

open DeviceShadow (AttrSized Sized AnswerFits acceptType)
open Reporting (Keeps)

variable {lay : Layout} {s : Shadow} {d : DeviceShadow}

/-! ## 1. One step -/

/-- The allocator of an operation, where it has one, never fails. -/
def Op.Ample : Op Alloc Ptr → Prop
  | .followProperty _ _ _ _ al => al.Ample
  | _ => True

/-- The SDK means the attribute `k`. -/
def Means (lay : Layout) (d : DeviceShadow) (op : Op Alloc Ptr) (mem : Callocs) (k : String8) :
    Prop :=
  tables.enabled d (op.on mem k) ∧ ∀ pattr data, op = .deliver pattr data → pattr = some (lay k).obj

/-- What an operation leaves in memory: what it leaves on the table. -/
def Stepped (lay : Layout) (d : DeviceShadow) (op : Op Alloc Ptr) (s' : Shadow)
    (l' : Blocks Block) : Prop :=
  ∃ mem k lay', Means lay d op mem k ∧
    Represents lay' s' (tables.next d (op.on mem k)) ∧
    l' = tableBlocks lay' (tables.next d (op.on mem k)).m_iotAttrs ∧
    (op.Ample → Full lay d.m_iotAttrs → Full lay' (tables.next d (op.on mem k)).m_iotAttrs)

/-- A step that adds no attribute moves none. -/
theorem Full.keeps {t t' : AttrTable} (hf : Full lay t) (hk : Keeps t t') : Full lay t' := by
  intro k hmem
  refine hf k ?_
  obtain ⟨a', ha'⟩ := Option.isSome_iff_exists.mp (Std.TreeMap.mem_iff_isSome_getElem?.mp hmem)
  obtain ⟨a, ha, -⟩ := hk.of_get.1 a' ha'
  exact DeviceShadow.mem_of_get ha

theorem keeps_runCallback (d : DeviceShadow) (a : ShadowAttr) :
    Keeps d.m_iotAttrs (d.runCallback a).m_iotAttrs := by
  unfold DeviceShadow.runCallback
  split
  · exact Reporting.keeps_rfl _
  · rw [(Reporting.callDefault_table _ _).1]
    exact Reporting.keeps_rfl _
  · exact Reporting.keeps_updateReportReriod { d with g_forceReport := true } _

theorem keeps_sdkDeliver (d : DeviceShadow) (k : String8) (data : Bytes) :
    Keeps d.m_iotAttrs (sdkDeliver d k data).m_iotAttrs := by
  unfold sdkDeliver
  cases d.m_iotAttrs[k]? with
  | none => exact Reporting.keeps_rfl _
  | some a => exact (Reporting.keeps_sdkStore d k _).trans (keeps_runCallback _ _)

/-- A step with the layout that was there. -/
theorem Stepped.same {op : Op Alloc Ptr} {s' : Shadow} {l' : Blocks Block} (mem : Callocs)
    (k : String8) (he : Means lay d op mem k)
    (hR : Represents lay s' (execTable d (op.on mem k)))
    (hl : l' = tableBlocks lay (execTable d (op.on mem k)).m_iotAttrs)
    (hk : Keeps d.m_iotAttrs (execTable d (op.on mem k)).m_iotAttrs) : Stepped lay d op s' l' :=
  ⟨mem, k, lay, he, hR, hl, fun _ hf => hf.keeps hk⟩

theorem exists_of_forall₂ {α β : Type} {R : α → β → Prop} {l : List α} {l' : List β}
    (h : List.Forall₂ R l l') {x : α} (hx : x ∈ l) : ∃ y ∈ l', R x y := by
  induction h with
  | nil => cases hx
  | cons hxy _ ih =>
    rcases List.mem_cons.mp hx with rfl | hx
    · exact ⟨_, List.mem_cons_self, hxy⟩
    · obtain ⟨y, hy, hr⟩ := ih hx
      exact ⟨y, List.mem_cons_of_mem _ hy, hr⟩

/-- Nothing to allow. -/
theorem allowed_of_none {op : Op Alloc Ptr}
    (h : ∀ (k : String8) (a : DSAttr), accessesAt lay d k a op = []) : Allowed lay d op := by
  intro k a _
  rw [h]
  exact allows_nil _

/-- An operation that accesses the value of one attribute. -/
theorem allowed_at {op : Op Alloc Ptr} {k : String8} {f : DSAttr → List Access}
    (h : ∀ (k' : String8) (a : DSAttr), d.m_iotAttrs[k']? = some a →
      accessesAt lay d k' a op = if k' = k then f a else []) :
    (∀ a : DSAttr, d.m_iotAttrs[k]? = some a → (lay k).Allows (f a)) ↔ Allowed lay d op := by
  constructor
  · intro hk k' a ha
    rw [h k' a ha]
    split
    · rename_i e
      subst e
      exact hk a ha
    · exact allows_nil _
  · intro hall a ha
    have hk := hall k a ha
    rwa [h k a ha, if_pos rfl] at hk

/-- An operation that touches no block. -/
theorem does_quiet {op : Op Alloc Ptr} {s' : Shadow}
    (h : ∀ (k : String8) (a : DSAttr), accessesAt lay d k a op = [])
    (hs : Stepped lay d op s' (tableBlocks lay d.m_iotAttrs)) :
    Does (tableBlocks lay d.m_iotAttrs) (pure s') (Allowed lay d op) (Stepped lay d op) :=
  (Does.pure hs).sure (allowed_of_none h)

/-- **One operation.** -/
theorem does_exec (hR : Represents lay s d) (hd : ((tableBlocks lay d.m_iotAttrs).map Prod.fst).Nodup)
    (op : Op Alloc Ptr) (hsdk : op.Known s) :
    Does (tableBlocks lay d.m_iotAttrs) (exec s op) (Allowed lay d op) (Stepped lay d op) := by
  cases op with
  | setupShadow h =>
    exact does_quiet (fun _ _ => rfl)
      (.same .succeed [] ⟨nofun, nofun⟩ { hR with shadow := rfl } rfl (Reporting.keeps_rfl _))
  | preShadow =>
    refine (does_registerAll hR).conseq (iff_of_true trivial (allowed_of_none fun _ _ => rfl))
      fun s' l' hq => .same .succeed [] ⟨nofun, nofun⟩ hq.1 hq.2 ?_
    show Keeps _ d.registerAll.m_iotAttrs
    rw [DeviceShadow.registerAll_eq]
    exact Reporting.keeps_rfl _
  | service op =>
    exact does_quiet (fun _ _ => rfl) (.same .succeed [] ⟨nofun, nofun⟩
      { hR with service := congrArg (IOTService.exec · op) hR.service } rfl (Reporting.keeps_rfl _))
  | followProperty c key type size al =>
    refine ((does_followProperty hR al c key type size).seq fun r l' hr => ?_).sure
      (allowed_of_none fun _ _ => rfl)
    obtain ⟨mem, lay', -, hleft⟩ := hr
    exact Does.pure ⟨mem, [], lay', ⟨nofun, nofun⟩, hleft.represents, hleft.blocks, hleft.full⟩
  | reportProperty key val pushRc =>
    have hok : (∀ a : DSAttr, d.m_iotAttrs[cstr key]? = some a →
        (lay (cstr key)).Allows (DeviceShadow.reportAccesses a.attr (cstr val))) ↔
          Allowed lay d (.reportProperty key val pushRc) :=
      allowed_at fun k a _ => by simp only [accessesAt, eq_comm]
    refine ((does_doReportProperty hR (cstr key) (cstr val) pushRc).before fun r l' hr => ?_).congr
      hok
    obtain ⟨-, hR', rfl⟩ := hr
    exact Does.pure (.same .succeed [] ⟨nofun, nofun⟩ hR' rfl
      (Reporting.keeps_doReportProperty d _ _ _))
  | updateProperties ans =>
    exact (does_updateProperties hR ans).conseq Iff.rfl fun s' l' hq =>
      .same .succeed [] ⟨nofun, nofun⟩ hq.1 hq.2 (Reporting.keeps_updateProperties d ans)
  | pushProperties =>
    refine does_quiet (fun _ _ => rfl) (.same .succeed [] ⟨nofun, nofun⟩ (hR.push (fun _ => 0) 0) ?_
      (Reporting.keeps_pushProperties d _ _))
    exact (tableBlocks_push lay d (fun _ => 0) 0).symm
  | deliver pattr data =>
    obtain ⟨x, hreg, hx⟩ := hsdk
    obtain ⟨⟨h', k⟩, hy, hsame⟩ := exists_of_forall₂ hR.registered hreg
    obtain ⟨a, ha⟩ := Option.isSome_iff_exists.mp
      (Std.TreeMap.mem_iff_isSome_getElem?.mp hsame.known)
    obtain rfl : pattr = some (lay k).obj := hx.symm.trans hsame.ptr
    have hone : (lay k).Allows (deliverAccesses a.attr data) ↔ ∀ a' : DSAttr,
        d.m_iotAttrs[k]? = some a' → (lay k).Allows (deliverAccesses a'.attr data) := by
      simp [ha]
    -- the pointer is this attribute's only
    have hok : (∀ a' : DSAttr, d.m_iotAttrs[k]? = some a' →
        (lay k).Allows (deliverAccesses a'.attr data)) ↔
          Allowed lay d (.deliver (some (lay k).obj) data) :=
      allowed_at fun k' a' ha' => if_congr
        ⟨fun e => (hR.obj_inj hd ha ha' (Option.some.inj e)).symm, fun e => by rw [e]⟩ rfl rfl
    refine ((does_deliverTo hR ha data).before fun r l' hr => ?_).congr (hone.trans hok)
    obtain ⟨-, hR', rfl⟩ := hr
    refine Does.pure (.same .succeed k ⟨fun k' data' he => ?_, fun pattr' data' he => ?_⟩ hR' rfl
      (keeps_sdkDeliver d k data))
    · obtain ⟨rfl, -⟩ := Op.deliver.inj he
      exact ⟨h', hy⟩
    · exact (Op.deliver.inj he).1.symm

/-! ## 2. Whole runs -/

/-- **The memory is the table `d`**: what the pointers lead to, and no block besides. -/
structure Kept (lay : Layout) (p : Shadow × Heap Block) (d : DeviceShadow) : Prop where
  represents : Represents lay p.1 d
  owns : Owns p.2 (tableBlocks lay d.m_iotAttrs)

theorem Kept.does {α : Type} {p : Shadow × Heap Block} (h : Kept lay p d) {c : Prog Block α}
    {ok : Prop} {Q : α → Blocks Block → Prop} (hc : Does (tableBlocks lay d.m_iotAttrs) c ok Q) :
    (ok → ∃ r h' l', c p.2 = some (r, h') ∧ Owns h' l' ∧ Q r l') ∧ (¬ ok → c p.2 = none) := by
  have ho : Owns p.2 (tableBlocks lay d.m_iotAttrs ++ []) := by
    rw [List.append_nil]
    exact h.owns
  refine ⟨fun hok => ?_, fun hok => hc.wrong hok p.2 [] ho⟩
  obtain ⟨r, h', l', he, hl', hq⟩ := hc.ends hok p.2 [] ho
  rw [List.append_nil] at hl'
  exact ⟨r, h', l', he, hl', hq⟩

/-- **One step**: the step of the table, or it goes wrong. -/
theorem kept_next {p : Shadow × Heap Block} (h : Kept lay p d) {op : Op Alloc Ptr}
    (he : machine.enabled (some p) op) :
    (Allowed lay d op → ∃ p' mem k lay', machine.next (some p) op = some p' ∧
      Means lay d op mem k ∧ Kept lay' p' (tables.next d (op.on mem k)) ∧
      (op.Ample → Full lay d.m_iotAttrs → Full lay' (tables.next d (op.on mem k)).m_iotAttrs)) ∧
    (¬ Allowed lay d op → machine.next (some p) op = none) := by
  obtain ⟨p', hp, hsdk⟩ := he
  obtain rfl := Option.mem_some_iff.mp hp
  have hdoes := h.does (does_exec h.represents h.owns.distinct op hsdk)
  refine ⟨fun hok => ?_, hdoes.2⟩
  obtain ⟨s', h', l', hrun, ho, mem, k, lay', hen, hR, rfl, hfull⟩ := hdoes.1 hok
  exact ⟨(s', h'), mem, k, lay', hrun, hen, ⟨hR, ho⟩, hfull⟩

/-- What the constructor leaves. -/
theorem kept_construct (al : Alloc) (reportFlag : Bool) : ∃ p mem lay,
    construct al reportFlag (fun _ => none) = some p ∧
      Kept lay p (DeviceShadow.construct reportFlag mem) ∧
        (al.Ample → Full lay (DeviceShadow.construct reportFlag mem).m_iotAttrs) := by
  obtain ⟨s, h, l', hrun, ho, mem, lay, hR, rfl, hfull⟩ :=
    (does_construct al reportFlag).ends trivial (fun _ => none) [] Owns.empty
  rw [List.append_nil] at ho
  exact ⟨(s, h), mem, lay, hrun, ⟨hR, ho⟩, hfull⟩

/-- A run on which nothing went wrong keeps a table. -/
theorem kept_reach {p : Shadow × Heap Block} (h : machine.Reachable (some p)) :
    ∃ lay d, tables.Reachable d ∧ Kept lay p d := by
  have hall : ∀ q ∈ some p, ∃ lay d, tables.Reachable d ∧ Kept lay q d := by
    refine h.inv (I := fun m => ∀ q ∈ m, ∃ lay d, tables.Reachable d ∧ Kept lay q d) ?_ ?_
    · intro m h0 q hq
      obtain ⟨al, reportFlag, rfl⟩ := h0
      obtain ⟨q', mem, lay, hrun, hk, -⟩ := kept_construct al reportFlag
      rw [hrun] at hq
      obtain rfl := Option.some.inj hq
      exact ⟨lay, _, .init _ ⟨reportFlag, mem, rfl⟩, hk⟩
    · intro m op hI _ he q hq
      obtain ⟨p, hp, -⟩ := id he
      obtain ⟨lay, d, hd, hk⟩ := hI p hp
      obtain rfl : m = some p := hp
      obtain ⟨hgo, hwrong⟩ := kept_next hk he
      by_cases hok : Allowed lay d op
      · obtain ⟨q', mem, k, lay', hrun, hen, hk', -⟩ := hgo hok
        rw [hrun] at hq
        obtain rfl := Option.some.inj hq
        exact ⟨lay', _, .step d _ hd trivial hen.1, hk'⟩
      · rw [hwrong hok] at hq
        cases hq
  exact hall p rfl

/-- **The memory is a table that `DeviceShadow` reaches**, on every run on which nothing
    went wrong, whatever the allocator did: each pointer leads to its own block, the SDK's
    pointers lead to attributes, and every block belongs to one. -/
theorem represented {p : Shadow × Heap Block} (h : machine.Reachable (some p)) :
    ∃ lay d, tables.Reachable d ∧ Represents lay p.1 d ∧
      ((tableBlocks lay d.m_iotAttrs).map Prod.fst).Nodup ∧
      ∀ a b, p.2 a = some b ↔ (a, b) ∈ tableBlocks lay d.m_iotAttrs := by
  obtain ⟨lay, d, hd, hk⟩ := kept_reach h
  exact ⟨lay, d, hd, hk.represents, hk.owns.distinct, hk.owns.mem⟩

/-- A shadow is set up, a client follows `volume`, the cloud delivers 30, and the
    application reports 12. -/
def volumeRun : List (Op Alloc Ptr) :=
  [.setupShadow 1, .followProperty 7 (lit "volume") IOT_PROPERTY_INT32 4 (.firstOf 8),
    .deliver (some 3) (int32Bytes 30#32), .reportProperty (lit "volume") (lit "12") 0]

theorem volumeRun_ends : ∃ p, machine.Reachable (some p) ∧ p.1.registered = [(1, some 3)] ∧
    p.2 5 = some (.chars (int32Bytes 12#32)) := by
  have hrun : ((machine.run (fun _ _ => True) (construct (.firstOf 8) true fun _ => none)
      volumeRun).map fun m => m.map fun p => (p.1.registered, p.2 5)) =
        some (some ([(1, some 3)], some (.chars (int32Bytes 12#32)))) := by decide
  have h0 : machine.init (construct (.firstOf 8) true fun _ => none) := ⟨_, _, rfl⟩
  obtain ⟨m, hm, hs⟩ := Machine.exists_of_run h0 hrun
  obtain ⟨p, rfl, hp⟩ := Option.map_eq_some_iff.mp hs
  obtain ⟨hreg, hval⟩ := Prod.mk.inj hp
  exact ⟨p, hm, hreg, hval⟩

/-- `represented` for `volume`, whose value in memory is what was reported. -/
theorem represented_volume : ∃ (p : Shadow × Heap Block) (lay : Layout) (d : DeviceShadow),
    p.1.registered = [(1, some 3)] ∧ p.2 5 = some (.chars (int32Bytes 12#32)) ∧
      tables.Reachable d ∧ Represents lay p.1 d ∧ (5, .chars (int32Bytes 12#32)) ∈
        tableBlocks lay d.m_iotAttrs := by
  obtain ⟨p, hp, hreg, hval⟩ := volumeRun_ends
  obtain ⟨lay, d, hd, hR, -, hmem⟩ := represented hp
  exact ⟨p, lay, d, hreg, hval, hd, hR, (hmem _ _).mp hval⟩

/-- **Which step goes wrong**: the one with an access to a value that has no block, or
    outside of its block. -/
theorem wrong_iff {p : Shadow × Heap Block} (h : Kept lay p d) {op : Op Alloc Ptr}
    (he : machine.enabled (some p) op) :
    machine.next (some p) op = none ↔ ¬ Allowed lay d op := by
  obtain ⟨hgo, hwrong⟩ := kept_next h he
  refine ⟨fun hn hok => ?_, hwrong⟩
  obtain ⟨p', -, -, -, hrun, -⟩ := hgo hok
  rw [hn] at hrun
  cases hrun

/-- No memory for the value of an int32. -/
def noValue : Alloc where
  place h b := if b = .chars (calloc 4) then none else (Allocator.firstOf 8).place h b
  fresh h b a e := by
    split at e
    · cases e
    · exact (Allocator.firstOf 8).fresh h b a e

/-- `wrong_iff` for a report of the period, whose value was not allocated. -/
theorem wrong_iff_noValue : ∃ p lay d, Kept lay p d ∧
    machine.next (some p) (.reportProperty LOCAL_ATTR_REPROT_PERIOD (lit "5000") 0) = none ∧
    ¬ Allowed lay d (.reportProperty LOCAL_ATTR_REPROT_PERIOD (lit "5000") 0) := by
  obtain ⟨p, mem, lay, hrun, hk, -⟩ := kept_construct noValue true
  have hnext : (machine.next (construct noValue true fun _ => none)
      (.reportProperty LOCAL_ATTR_REPROT_PERIOD (lit "5000") 0)).isNone = true := by decide
  rw [hrun, Option.isNone_iff_eq_none] at hnext
  have he : machine.enabled (some p)
      (.reportProperty LOCAL_ATTR_REPROT_PERIOD (lit "5000") 0) := ⟨p, rfl, trivial⟩
  exact ⟨p, lay, _, hk, hnext, (wrong_iff hk he).mp hnext⟩

/-- **Nothing is left behind**: on every run on which nothing went wrong the loop of the
    destructor frees every block, each once. -/
theorem all_freed {p : Shadow × Heap Block} (h : machine.Reachable (some p)) :
    delAttrs p.1 p.2 = some ((), fun _ => none) := by
  obtain ⟨lay, d, -, hk⟩ := kept_reach h
  obtain ⟨r, h', l', hrun, ho, rfl⟩ := (hk.does (does_delAttrs hk.represents)).1 trivial
  rw [hrun, ho.eq_empty]

/-- `all_freed` for the same run: two attributes, six blocks. -/
theorem all_freed_volume : ∃ p : Shadow × Heap Block, p.1.registered = [(1, some 3)] ∧
    p.2 5 = some (.chars (int32Bytes 12#32)) ∧ delAttrs p.1 p.2 = some ((), fun _ => none) := by
  obtain ⟨p, hp, hreg, hval⟩ := volumeRun_ends
  exact ⟨p, hreg, hval, all_freed hp⟩

/-! ## 3. Enough memory, and sizes that fit -/

/-- The callback of the period is on an int32. -/
def Typed (t : AttrTable) : Prop := ∀ (k : String8) (a : DSAttr), t[k]? = some a →
  a.attr.callback = some .DS_report_period_property_cb → a.attr.attr_type = .IOTX_SHADOW_INT32

theorem Typed.keeps {t t' : AttrTable} (h : Typed t) (hk : Keeps t t') : Typed t' := by
  intro k a' ha' hcb
  obtain ⟨a, ha, hs⟩ := hk.of_get.1 a' ha'
  exact hs.type.trans (h k a ha (hs.callback.symm.trans hcb))

theorem Typed.insert {t : AttrTable} (h : Typed t) {key : String8} {a : DSAttr}
    (ha : a.attr.callback = some .DS_report_period_property_cb →
      a.attr.attr_type = .IOTX_SHADOW_INT32) : Typed (t.insert key a) := by
  intro k a' ha' hcb
  rw [get_insert] at ha'
  split at ha'
  · obtain rfl := Option.some.inj ha'
    exact ha hcb
  · exact h k a' ha' hcb

theorem typed_doAddProperty {d : DeviceShadow} (h : Typed d.m_iotAttrs) (name : String8)
    (type size : Int) (mem : Callocs) : Typed (d.doAddProperty name type size mem).2.m_iotAttrs := by
  unfold DeviceShadow.doAddProperty
  split
  · exact h
  · show Typed (DeviceShadow.registerNew _ _).m_iotAttrs
    rw [DeviceShadow.registerNew_eq]
    unfold DeviceShadow._addProperty IotWrap._newProperty
    split
    · exact h
    · split
      · exact h
      · rename_i attr hattr
        refine h.insert fun hcb => ?_
        split at hattr
        · cases hattr
        · obtain rfl := Option.some.inj hattr
          cases hcb

/-- **The condition on one step**: there is enough memory, and sizes that fit, as in
    `DeviceShadow.Fits`; a delivered string ends before its block does. -/
def Fitting (lay : Layout) (d : DeviceShadow) : Op Alloc Ptr → Prop
  | .followProperty c key type size al =>
    al.Ample ∧ d.Fits (.followProperty c key type size .succeed)
  | .reportProperty key val pushRc => d.Fits (.reportProperty key val pushRc)
  | .updateProperties ans => d.Fits (.updateProperties ans)
  | .deliver pattr data => ∀ (k : String8) (a : DSAttr), d.m_iotAttrs[k]? = some a →
      pattr = some (lay k).obj → a.attr.attr_type = .IOTX_SHADOW_STRING →
        data.length < a.attr.pattr_data.length
  | .setupShadow _ | .preShadow | .service _ | .pushProperties => True

/-- **The invariant**: every value has a block, and the block its size. -/
structure Sound (lay : Layout) (d : DeviceShadow) : Prop where
  full : Full lay d.m_iotAttrs
  sized : Sized d.m_iotAttrs
  typed : Typed d.m_iotAttrs

/-- An attribute with a block has its bytes. -/
theorem Represents.bytes (hR : Represents lay s d) (hf : Full lay d.m_iotAttrs) (k : String8)
    (a : DSAttr) (ha : d.m_iotAttrs[k]? = some a) : a.attr.pattr_data ≠ [] :=
  fun he => hf k (DeviceShadow.mem_of_get ha) ((hR.value k a ha).mpr he)

/-- Where a new attribute has bytes, the `calloc` of its value succeeded. -/
theorem made_doAddProperty {d : DeviceShadow} {name : String8} {type size : Int} {mem : Callocs}
    {t : AttrType} (hn : name ∉ d.m_iotAttrs) (ht : acceptType type size = some t)
    (hb : ∀ (k : String8) (a : DSAttr),
      (d.doAddProperty name type size mem).2.m_iotAttrs[k]? = some a → a.attr.pattr_data ≠ []) :
    mem ≠ .noData := by
  rintro rfl
  have hget : (d.doAddProperty name type size .noData).2.m_iotAttrs[name]? =
      some ⟨false, false, newAttr name t size (some .DS_call_default_property_cb) none⟩ := by
    unfold DeviceShadow.doAddProperty
    simp only [ht]
    rw [DeviceShadow.registerNew_eq]
    unfold DeviceShadow._addProperty
    rw [if_neg hn]
    exact (get_insert _ _ _ _).trans (if_pos rfl)
  exact hb name _ hget rfl

theorem allows_of_inBounds {m : Place} {accs : List Access} (hd : m.data ≠ none)
    (h : ∀ x ∈ accs, x.inBounds) : m.Allows accs := fun x hx => ⟨hd, h x hx⟩

/-- What the SDK stores leaves a string its end. -/
theorem attrSized_delivered {a : ShadowAttr} (h : AttrSized a) {data : Bytes}
    (hf : a.attr_type = .IOTX_SHADOW_STRING → data.length < a.pattr_data.length) :
    AttrSized (delivered a data) where
  int32 ht := (length_poke a.pattr_data data).symm ▸ h.int32 ht
  string ht := terminated_poke_short (h.string ht) (hf ht)

theorem callbackAccesses_inBounds {a : ShadowAttr} (h : AttrSized a)
    (ht : a.callback = some .DS_report_period_property_cb → a.attr_type = .IOTX_SHADOW_INT32) :
    ∀ x ∈ callbackAccesses a, x.inBounds := by
  unfold callbackAccesses
  split
  · exact nofun
  · split
    · rename_i hi
      intro x hx
      obtain rfl := List.mem_singleton.mp hx
      exact h.int32 hi
    · rename_i hs
      intro x hx
      obtain rfl := List.mem_singleton.mp hx
      exact (h.string hs).zero_mem
    · exact nofun
  · rename_i hcb
    intro x hx
    obtain rfl := List.mem_singleton.mp hx
    exact h.int32 (ht hcb)

/-- **What fits is allowed.** -/
theorem Sound.allowed (h : Sound lay d) {op : Op Alloc Ptr} (hf : Fitting lay d op) :
    Allowed lay d op := by
  intro k a ha
  have hd := h.full k (DeviceShadow.mem_of_get ha)
  have hs := h.sized k a ha
  refine allows_of_inBounds hd ?_
  cases op with
  | reportProperty key val pushRc =>
    simp only [accessesAt]
    split
    · rename_i e
      subst e
      refine DeviceShadow.reportAccesses_inBounds hs fun ht => ?_
      exact Nat.lt_of_le_of_lt (length_cstr_le _) (hf a ha ht)
    · exact nofun
  | updateProperties ans => exact DeviceShadow.updateAccesses_inBounds hs (hf k a ha)
  | deliver pattr data =>
    simp only [accessesAt]
    split
    · rename_i e
      intro x hx
      rcases List.mem_cons.mp hx with rfl | hx
      · exact Nat.min_le_right _ _
      · exact callbackAccesses_inBounds (attrSized_delivered hs (hf k a ha e)) (h.typed k a ha) x hx
    · exact nofun
  | setupShadow h => exact nofun
  | preShadow => exact nofun
  | service op => exact nofun
  | followProperty c key type size al => exact nofun
  | pushProperties => exact nofun

theorem sized_runCallback {d : DeviceShadow} (h : Sized d.m_iotAttrs) (a : ShadowAttr) :
    Sized (d.runCallback a).m_iotAttrs := by
  unfold DeviceShadow.runCallback
  split
  · exact h
  · rw [(Reporting.callDefault_table _ _).1]
    exact h
  · unfold DeviceShadow.updateReportReriod
    split
    · exact DeviceShadow.sized_setReport (d := { d with g_forceReport := true }) h _ true
    · exact h

theorem sized_sdkDeliver {d : DeviceShadow} (h : Sized d.m_iotAttrs) {k : String8} {data : Bytes}
    (hf : ∀ a : DSAttr, d.m_iotAttrs[k]? = some a → a.attr.attr_type = .IOTX_SHADOW_STRING →
      data.length < a.attr.pattr_data.length) : Sized (sdkDeliver d k data).m_iotAttrs := by
  unfold sdkDeliver
  cases ha : d.m_iotAttrs[k]? with
  | none => exact h
  | some a =>
    refine sized_runCallback (d := Reporting.sdkStore d k _) (fun k' x hx => ?_) _
    have hx' : (d.m_iotAttrs.modify k fun x => x.setData (delivered a.attr data).pattr_data)[k']? =
        some x := hx
    rw [get_modify] at hx'
    split at hx'
    · rename_i e
      rw [← e, ha] at hx'
      obtain rfl := Option.some.inj hx'
      exact attrSized_delivered (h k a ha) (hf a ha)
    · exact h k' x hx'

theorem sized_pushProperties {d : DeviceShadow} (h : Sized d.m_iotAttrs) (rc : String8 → Int)
    (pushRc : Int) : Sized (d.pushProperties rc pushRc).2.m_iotAttrs := by
  unfold DeviceShadow.pushProperties
  split
  · exact h
  · intro k a ha
    have ha' : (d.m_iotAttrs.map fun _ a =>
        if d.selected a then { a with report := false } else a)[k]? = some a := ha
    rw [Std.TreeMap.getElem?_map] at ha'
    obtain ⟨a₀, ha₀, rfl⟩ := Option.map_eq_some_iff.mp ha'
    split
    · exact ⟨(h k a₀ ha₀).int32, (h k a₀ ha₀).string⟩
    · exact h k a₀ ha₀

theorem typed_followProperty {d : DeviceShadow} (h : Typed d.m_iotAttrs) (c : ClientId)
    (key : String8) (type size : Int) (mem : Callocs) :
    Typed (d.followProperty c key type size mem).2.m_iotAttrs := by
  rw [DeviceShadow.followProperty_eq]
  split
  · exact h
  · exact typed_doAddProperty (d := { d with
      m_keyFollow := (IOTService.addTo d.m_keyFollow (cstr key) c).2 }) h _ _ _ _

theorem sized_followBytes {d : DeviceShadow} (h : Sized d.m_iotAttrs) {c : ClientId} {key : String8}
    {type size : Int} {mem : Callocs} (hf : d.Fits (.followProperty c key type size .succeed))
    (hb : ∀ (k : String8) (a : DSAttr),
      (d.followProperty c key type size mem).2.m_iotAttrs[k]? = some a → a.attr.pattr_data ≠ []) :
    Sized (d.followProperty c key type size mem).2.m_iotAttrs := by
  rw [DeviceShadow.followProperty_eq] at hb ⊢
  split
  · exact h
  · rename_i hret
    rw [if_neg hret] at hb
    refine DeviceShadow.sized_doAddProperty (d := { d with
      m_keyFollow := (IOTService.addTo d.m_keyFollow (cstr key) c).2 }) h fun hn t ht => ?_
    exact ⟨made_doAddProperty hn ht hb, (hf hn t ht).2⟩

/-- **A step that fits keeps the invariant.** -/
theorem Sound.next (h : Sound lay d) {op : Op Alloc Ptr} (hf : Fitting lay d op) {mem : Callocs}
    {k : String8} (hm : Means lay d op mem k) {lay' : Layout} {s' : Shadow}
    (hR' : Represents lay' s' (tables.next d (op.on mem k)))
    (hfull : Full lay' (tables.next d (op.on mem k)).m_iotAttrs) :
    Sound lay' (tables.next d (op.on mem k)) := by
  suffices hst : Sized (execTable d (op.on mem k)).m_iotAttrs ∧
      Typed (execTable d (op.on mem k)).m_iotAttrs from ⟨hfull, hst.1, hst.2⟩
  cases op with
  | setupShadow h' => exact ⟨h.sized, h.typed⟩
  | preShadow =>
    show Sized d.registerAll.m_iotAttrs ∧ Typed d.registerAll.m_iotAttrs
    rw [DeviceShadow.registerAll_eq]
    exact ⟨h.sized, h.typed⟩
  | service op => exact ⟨h.sized, h.typed⟩
  | followProperty c key type size al =>
    exact ⟨sized_followBytes h.sized hf.2 (hR'.bytes hfull), typed_followProperty h.typed _ _ _ _ _⟩
  | reportProperty key val pushRc =>
    have hlen : ∀ a : DSAttr, d.m_iotAttrs[cstr key]? = some a →
        a.attr.attr_type = .IOTX_SHADOW_STRING →
          (cstr (cstr val)).length < a.attr.pattr_data.length :=
      fun a ha ht => Nat.lt_of_le_of_lt (length_cstr_le _) (hf a ha ht)
    exact ⟨DeviceShadow.sized_doReportProperty h.sized pushRc hlen,
      h.typed.keeps (Reporting.keeps_doReportProperty d _ _ _)⟩
  | updateProperties ans =>
    exact ⟨DeviceShadow.sized_updateProperties h.sized hf,
      h.typed.keeps (Reporting.keeps_updateProperties d ans)⟩
  | pushProperties =>
    exact ⟨sized_pushProperties h.sized _ _, h.typed.keeps (Reporting.keeps_pushProperties d _ _)⟩
  | deliver pattr data =>
    have hptr := hm.2 pattr data rfl
    exact ⟨sized_sdkDeliver h.sized fun a ha => hf k a ha hptr,
      h.typed.keeps (keeps_sdkDeliver d k data)⟩

/-- The constructor's attribute has the size of its type. -/
theorem sound_constructed {reportFlag : Bool} {mem : Callocs}
    (hR : Represents lay s (DeviceShadow.construct reportFlag mem))
    (hfull : Full lay (DeviceShadow.construct reportFlag mem).m_iotAttrs) :
    Sound lay (DeviceShadow.construct reportFlag mem) where
  full := hfull
  sized := by
    refine DeviceShadow.sized_construct reportFlag ?_
    rintro rfl
    exact hR.bytes hfull LOCAL_ATTR_REPROT_PERIOD _ rfl rfl
  typed := by
    have hempty : Typed {} := fun k a ha => by simp at ha
    cases mem with
    | succeed => exact hempty.insert fun _ => rfl
    | noData => exact hempty.insert fun _ => rfl
    | fail => exact hempty

/-- The server whose constructor had enough memory. -/
def started : Machine (Option (Shadow × Heap Block)) (Op Alloc Ptr) :=
  { machine with
    init := fun m => ∃ (al : Alloc) (reportFlag : Bool),
      al.Ample ∧ m = construct al reportFlag fun _ => none }

instance (m : Option (Shadow × Heap Block)) (op : Op Alloc Ptr) : Decidable (started.enabled m op) :=
  inferInstanceAs (Decidable (machine.enabled m op))

/-- The steps that fit the memory. -/
def StepFits (m : Option (Shadow × Heap Block)) (op : Op Alloc Ptr) : Prop :=
  ∀ p ∈ m, ∀ lay d, Kept lay p d → Fitting lay d op

/-- **No step goes wrong**, on a run on which memory did not run out and what was
    reported, polled or delivered fits. -/
theorem safe {m : Option (Shadow × Heap Block)} (h : started.Reach StepFits m) : m ≠ none := by
  have hinv : ∃ p lay d, m = some p ∧ Kept lay p d ∧ Sound lay d := by
    refine h.inv (I := fun m => ∃ p lay d, m = some p ∧ Kept lay p d ∧ Sound lay d) ?_ ?_
    · intro m h0
      obtain ⟨al, reportFlag, hal, rfl⟩ := h0
      obtain ⟨p, mem, lay, hrun, hk, hfull⟩ := kept_construct al reportFlag
      exact ⟨p, lay, _, hrun, hk, sound_constructed hk.represents (hfull hal)⟩
    · intro m op hI hc he
      obtain ⟨p, lay, d, rfl, hk, hs⟩ := hI
      have hf := hc p rfl lay d hk
      obtain ⟨p', mem, k, lay', hrun, hm, hk', hfull⟩ := (kept_next hk he).1 (hs.allowed hf)
      refine ⟨p', lay', _, hrun, hk', hs.next hf hm hk'.represents (hfull ?_ hs.full)⟩
      cases op with
      | followProperty c key type size al => exact hf.1
      | _ => trivial
  obtain ⟨p, lay, d, rfl, -⟩ := hinv
  exact Option.some_ne_none p

/-- The blocks of an attribute are in memory. -/
theorem Kept.blocks {p : Shadow × Heap Block} (h : Kept lay p d) {k : String8} {a : DSAttr}
    (ha : d.m_iotAttrs[k]? = some a) : ∀ x ∈ (lay k).blocks a.attr, p.2 x.1 = some x.2 :=
  fun _ hx => (h.owns.mem _ _).mpr (List.mem_flatMap.mpr
    ⟨(k, a), Std.TreeMap.mem_toList_iff_getElem?_eq_some.mpr ha, hx⟩)

/-- First eight addresses, and then any. -/
noncomputable def modeAlloc : Alloc := (Allocator.firstOf 8).orElse .first

/-- The polls of `mode`. -/
def modeAnswers : IOTService.Answers := fun _ key =>
  if key = lit "mode" then some (lit "turbo") else none

/-- A client follows `mode`, a string of at most 15 bytes; the application reports it, the
    server polls the client, and the cloud delivers it. -/
noncomputable def modeRun : List (Op Alloc Ptr) :=
  [.setupShadow 1, .service (.createClient (lit "tv")), .service (.registPropertyCB 0 4),
    .followProperty 0 (lit "mode") IOT_PROPERTY_STRING 16 modeAlloc,
    .reportProperty (lit "mode") (lit "eco") 0, .updateProperties modeAnswers,
    .deliver (some 3) (lit "auto" ++ [0])]

/-- An operation that stores values. -/
def Op.stores : Op Alloc Ptr → Bool
  | .reportProperty _ _ _ | .updateProperties _ | .deliver _ _ => true
  | _ => false

/-- The attribute of `mode` is at address 3, with 16 bytes at address 5. -/
def ModeAt (m : Option (Shadow × Heap Block)) : Prop :=
  (m.map fun p => ((p.1.m_iotAttrs[lit "mode"]?).map Entry.attr, p.2 3,
    (loadChars (some 5) p.2).map fun r => r.1.length)) =
      some (some (some 3), some (.attr ⟨some 4, some 5, .IOTX_SHADOW_STRING, .IOTX_SHADOW_RW,
        some .DS_call_default_property_cb⟩), some 16)

instance (m : Option (Shadow × Heap Block)) : Decidable (ModeAt m) :=
  inferInstanceAs (Decidable (_ = _))

/-- There the value of what is at address 3 has 16 bytes. -/
theorem ModeAt.length {p : Shadow × Heap Block} (hm : ModeAt (some p)) (h : Kept lay p d)
    {k : String8} {a : DSAttr} (ha : d.m_iotAttrs[k]? = some a) (hk : (lay k).obj = 3) :
    a.attr.pattr_data.length = 16 := by
  simp only [ModeAt, Option.map_some, Option.some.injEq, Prod.mk.injEq] at hm
  obtain ⟨-, hobj, hsize⟩ := hm
  have hown := h.blocks ha
  have hdata : (lay k).data = some 5 := by
    have hget := hown _ List.mem_cons_self
    rw [hk, hobj] at hget
    exact (AttrObj.mk.inj (Block.attr.inj (Option.some.inj hget))).2.1.symm
  have hget := hown (5, .chars a.attr.pattr_data) (by simp [Place.blocks, hdata])
  have hload : loadChars (some 5) p.2 = some (a.attr.pattr_data, p.2) := by
    unfold loadChars
    rw [Prog.bind_apply]
    simp only [Prog.load, hget, Option.bind_eq_bind, Option.bind_some]
    rfl
  rw [hload] at hsize
  exact Option.some.inj hsize

theorem ModeAt.obj {p : Shadow × Heap Block} (hm : ModeAt (some p)) (h : Kept lay p d)
    {a : DSAttr} (ha : d.m_iotAttrs[lit "mode"]? = some a) : (lay (lit "mode")).obj = 3 := by
  simp only [ModeAt, Option.map_some, Option.some.injEq, Prod.mk.injEq,
    h.represents.get_some ha] at hm
  exact Option.some.inj hm.1

theorem mem_modeAnswers {t : IOTService} {key str : String8}
    (h : str ∈ t.answersOf modeAnswers key) : key = lit "mode" ∧ str = lit "turbo" := by
  obtain ⟨c, -, hc⟩ := List.mem_filterMap.mp h
  obtain ⟨cb, -, hcb⟩ := Option.bind_eq_some_iff.mp hc
  simp only [modeAnswers, Option.ite_none_right_eq_some, Option.some.injEq] at hcb
  exact ⟨hcb.1, hcb.2.symm⟩

/-- The polls fit sixteen bytes. -/
theorem answerFits_mode {t : IOTService} {a : ShadowAttr}
    (h : a.pattr_name = lit "mode" → a.pattr_data.length = 16) : AnswerFits t modeAnswers a := by
  intro hne
  have hlast := mem_modeAnswers (IOTService.lastAnswer_mem hne)
  have hshort : ∀ cap, 5 < cap → t.AnswersShort modeAnswers a.pattr_name cap := by
    intro cap hcap str hstr
    rw [(mem_modeAnswers hstr).2]
    exact hcap
  split
  · exact hshort 32 (by decide)
  · refine ⟨hshort ATTR_VALUE_MAX_LEN (by decide), .inl ?_⟩
    rw [hlast.2, h hlast.1]
    decide
  · trivial

/-- The steps of the run fit the memory. -/
theorem modeRun_fits (m : Option (Shadow × Heap Block)) (op : Op Alloc Ptr) (hop : op ∈ modeRun)
    (hc : op.stores = true → ModeAt m) : StepFits m op := by
  intro p hp lay d h
  obtain rfl := Option.mem_def.mp hp
  simp only [modeRun, List.mem_cons, List.not_mem_nil, or_false] at hop
  rcases hop with rfl | rfl | rfl | rfl | rfl | rfl | rfl
  · trivial
  · trivial
  · trivial
  · refine ⟨Allocator.first_ample.orElse _, fun _ t ht => ⟨nofun, ?_⟩⟩
    rintro rfl
    exact absurd ht (by decide)
  · intro a ha _
    rw [(hc rfl).length h ha ((hc rfl).obj h ha)]
    decide
  · intro k a ha _
    refine answerFits_mode fun hname => ?_
    obtain rfl := (h.represents.name k a ha).symm.trans hname
    exact (hc rfl).length h ha ((hc rfl).obj h ha)
  · intro k a ha hk _
    rw [(hc rfl).length h ha (Option.some.inj hk).symm]
    decide

/-- `safe` for a report, a poll and a delivery of `mode`. -/
theorem safe_mode : ∃ m, started.Reach StepFits m ∧
    (m.map fun p => p.2 5) = some (some (.chars (lit "auto" ++ calloc 12))) ∧ m ≠ none := by
  have h0 : started.init (construct modeAlloc true fun _ => none) :=
    ⟨modeAlloc, true, Allocator.first_ample.orElse _, rfl⟩
  have hrun : ((started.run (fun m op => op.stores = true → ModeAt m)
      (construct modeAlloc true fun _ => none) modeRun).map fun m => m.map fun p => p.2 5) =
        some (some (some (Block.chars (lit "auto" ++ calloc 12)))) := by decide +kernel
  obtain ⟨m, hm, hval⟩ := Option.map_eq_some_iff.mp hrun
  have hreach := Machine.reach_run_of (.init _ h0) modeRun_fits hm
  exact ⟨m, hreach, hval, safe hreach⟩

end Memory

end IotWrap
