/-
  File:      IotWrap/Owned.lean
  Subject:   What each function does to the blocks of an attribute.

  `Place` is where the blocks of one attribute lie; `Place.blocks` are the blocks, when
  the attribute is the `ShadowAttr` that `DeviceShadow` has in its place. Each function
  has one statement: with these blocks it goes wrong exactly where an access is not
  allowed or finds no value block, and else leaves the blocks of what the function of
  `DeviceShadow` computes.
-/
import IotWrap.Memory

namespace IotWrap

open Lib

namespace Memory

open DeviceShadow (reportData reportAccesses updateData updateAccesses updateAttr polled formatValue)

/-- Where the blocks of an attribute are; there may be none for its value. -/
structure Place where
  obj : Addr
  name : Addr
  data : Ptr
  deriving DecidableEq, Repr

namespace Place

variable (m : Place)

def attrObj (a : ShadowAttr) : AttrObj := ⟨some m.name, m.data, a.attr_type, a.mode, a.callback⟩

/-- The blocks of an attribute. -/
def blocks (a : ShadowAttr) : Blocks Block :=
  (m.obj, .attr (m.attrObj a)) :: (m.name, .chars (a.pattr_name ++ [0])) ::
    m.data.toList.map fun q => (q, .chars a.pattr_data)

/-- The accesses are allowed, and there is a block to make them to. -/
def Allows (accs : List Access) : Prop := ∀ x ∈ accs, m.data ≠ none ∧ x.inBounds

instance (accs : List Access) : Decidable (m.Allows accs) :=
  inferInstanceAs (Decidable (∀ x ∈ accs, _ ∧ _))

/-- The table's entry for an attribute. -/
def entry (a : DSAttr) : Entry := ⟨a.report, a.isLocal, some m.obj⟩

end Place

variable {m : Place} {a : ShadowAttr}

/-! ## 1. Following the pointers -/

theorem does_loadAttr (m : Place) (a : ShadowAttr) :
    Does (m.blocks a) (loadAttr (some m.obj)) True fun o l' =>
      o = m.attrObj a ∧ l' = m.blocks a := by
  have hload : Does (m.blocks a) (Prog.load (some m.obj)) True _ := does_load List.mem_cons_self
  refine hload.seq ?_
  intro r l' hq
  obtain ⟨rfl, rfl⟩ := hq
  exact Does.pure ⟨rfl, rfl⟩

theorem does_loadChars {l : Blocks Block} {q : Addr} {b : Bytes} (h : (q, Block.chars b) ∈ l) :
    Does l (loadChars (some q)) True fun r l' => r = b ∧ l' = l := by
  refine (does_load h).seq ?_
  intro r l' hq
  obtain ⟨rfl, rfl⟩ := hq
  exact Does.pure ⟨rfl, rfl⟩

theorem does_loadName (m : Place) (a : ShadowAttr) :
    Does (m.blocks a) (loadChars (some m.name)) True fun b l' =>
      b = a.pattr_name ++ [0] ∧ l' = m.blocks a :=
  does_loadChars (List.mem_cons_of_mem _ List.mem_cons_self)

/-- Reading the value goes wrong where there is no block for it. -/
theorem does_loadData (m : Place) (a : ShadowAttr) :
    Does (m.blocks a) (loadChars m.data) (m.data ≠ none) fun b l' =>
      b = a.pattr_data ∧ m.data ≠ none ∧ l' = m.blocks a := by
  cases hd : m.data with
  | none =>
    refine ((does_load_null _ fun _ _ => False).before ?_).congr (by simp)
    exact fun _ _ hq => hq.elim
  | some q =>
    have hm : (q, Block.chars a.pattr_data) ∈ m.blocks a := by
      simp [Place.blocks, hd]
    exact (does_loadChars hm).conseq (iff_of_true trivial (Option.some_ne_none q))
      fun _ _ hq => ⟨hq.1, Option.some_ne_none q, hq.2⟩

theorem does_storeData {m : Place} (hd : m.data ≠ none) (a : ShadowAttr) (d : Bytes) :
    Does (m.blocks a) (Prog.store m.data (.chars d)) True fun _ l' =>
      l' = m.blocks (a.setData d) := by
  obtain ⟨q, hq⟩ := Option.ne_none_iff_exists'.mp hd
  have hb : ∀ a, m.blocks a = [(m.obj, Block.attr (m.attrObj a)),
      (m.name, .chars (a.pattr_name ++ [0]))] ++ (q, .chars a.pattr_data) :: [] := by
    intro a
    simp [Place.blocks, hq]
  rw [hb, hb, hq]
  exact does_store _ _ _ _ _

/-! ## 2. Adding and deleting -/

/-- How the `calloc`s ended that left this pointer to the value. -/
def outcome (data : Ptr) : Callocs := if data = none then .noData else .succeed

/-- The attribute that `_newProperty` makes, with this pointer to its value. -/
def newAttr (name : String8) (type : AttrType) (size : Int) (cb : Option AttrCb) (data : Ptr) :
    ShadowAttr where
  pattr_name := name
  pattr_data := if data = none then [] else calloc size.toNat
  attr_type := type
  mode := if cb.isSome then .IOTX_SHADOW_RW else .IOTX_SHADOW_READONLY
  callback := cb

theorem newProperty_outcome (name : String8) (type : AttrType) (size : Int) (cb : Option AttrCb)
    (data : Ptr) : IotWrap._newProperty name type size cb (outcome data) =
      some (newAttr name type size cb data) := by
  cases data <;> rfl

/-- Its bytes are those of the block. -/
theorem newAttr_value (name : String8) (type : AttrType) {size : Int} (hs : 0 < size)
    (cb : Option AttrCb) (data : Ptr) :
    data = none ↔ (newAttr name type size cb data).pattr_data = [] := by
  cases data with
  | none => exact iff_of_true rfl rfl
  | some q =>
    refine iff_of_false (Option.some_ne_none q) fun he => ?_
    have hlen : (calloc size.toNat).length = 0 := congrArg List.length he
    rw [length_calloc] at hlen
    omega

/-- **`_newProperty`** keeps nothing where it fails. -/
theorem does_newProperty (al : Alloc) (name : String8) (type : AttrType) (size : Int)
    (cb : Option AttrCb) :
    Does [] (_newProperty al name type size cb) True fun p l' =>
      (p = none ∧ ¬ al.Ample ∧ l' = []) ∨ ∃ m : Place, p = some m.obj ∧
        (al.Ample → m.data ≠ none) ∧ l' = m.blocks (newAttr name type size cb m.data) := by
  refine (does_alloc al [] Block.zeroed).seq fun r l' hr => ?_
  rcases hr with ⟨rfl, hal, rfl⟩ | ⟨obj, rfl, rfl⟩
  · exact Does.pure (.inl ⟨rfl, hal, rfl⟩)
  refine (does_alloc al _ _).seq fun r l' hr => ?_
  rcases hr with ⟨rfl, hal, rfl⟩ | ⟨pname, rfl, rfl⟩
  · refine (does_free [] [] obj Block.zeroed).seq fun _ _ hl => ?_
    exact Does.pure (.inl ⟨rfl, hal, hl⟩)
  refine (does_store [] _ pname _ (Block.chars (name ++ [0]))).seq fun _ l' hl => ?_
  subst hl
  refine (does_alloc al _ _).seq fun data l' hdata => ?_
  -- the value's block, where there is one, is in front of the other two
  have hl : l' = (data.toList.map fun q => (q, Block.chars (calloc size.toNat))) ++
      [(pname, Block.chars (name ++ [0]))] ++ (obj, Block.zeroed) :: [] := by
    rcases hdata with ⟨rfl, -, rfl⟩ | ⟨q, rfl, rfl⟩
    · rfl
    · rfl
  have hthere : al.Ample → data ≠ none := by
    intro hal
    rcases hdata with ⟨-, hn, -⟩ | ⟨q, rfl, -⟩
    · exact absurd hal hn
    · exact Option.some_ne_none q
  rw [hl]
  refine (does_store _ [] obj _ _).seq fun _ l' hl => ?_
  refine Does.pure_perm ?_ (.inr ⟨⟨obj, pname, data⟩, rfl, hthere, rfl⟩)
  have hvalue : (data.toList.map fun q => (q, Block.chars (calloc size.toNat))) =
      data.toList.map fun q => (q, Block.chars (newAttr name type size cb data).pattr_data) := by
    cases data <;> rfl
  rw [hl, List.append_assoc, hvalue]
  refine List.perm_append_comm.trans ?_
  exact (List.Perm.swap _ _ _).append_right _

/-- **`_delProperty`** frees all that `_newProperty` keeps. -/
theorem does_delProperty (m : Place) (a : ShadowAttr) :
    Does (m.blocks a) (_delProperty (some m.obj)) True fun _ l' => l' = [] := by
  refine (does_loadAttr m a).seq fun o l' ho => ?_
  obtain ⟨rfl, rfl⟩ := ho
  refine (does_free [_] _ m.name (Block.chars (a.pattr_name ++ [0]))).seq fun _ l' hl => ?_
  subst hl
  have hdata : Does ((m.obj, Block.attr (m.attrObj a)) ::
      m.data.toList.map fun q => (q, Block.chars a.pattr_data)) (Prog.free m.data) True
        fun _ l' => l' = [(m.obj, Block.attr (m.attrObj a))] := by
    cases hd : m.data with
    | none => exact does_free_null _
    | some q => exact does_free [_] [] q (Block.chars a.pattr_data)
  refine hdata.seq fun _ l' hl => ?_
  subst hl
  exact does_free [] [] m.obj (Block.attr (m.attrObj a))

/-! ## 3. Reporting and polling -/

theorem allows_nil (m : Place) : m.Allows [] := fun _ hx => absurd hx List.not_mem_nil

theorem allows_cons (m : Place) (x : Access) (accs : List Access) :
    m.Allows (x :: accs) ↔ m.data ≠ none ∧ x.inBounds ∧ m.Allows accs :=
  List.forall_mem_cons.trans and_assoc

/-- The value is loaded, for accesses that are to come. -/
theorem does_access {α : Type} {f : Bytes → Prog Block α} {x : Access} {accs : List Access}
    {R : α → Blocks Block → Prop}
    (hf : m.data ≠ none → Does (m.blocks a) (f a.pattr_data) (m.Allows (x :: accs)) R) :
    Does (m.blocks a) (loadChars m.data >>= f) (m.Allows (x :: accs)) R := by
  refine ((does_loadData m a).bind fun r l' hq => ?_).congr
    (and_iff_right_of_imp fun hx => ((allows_cons m x accs).mp hx).1)
  obtain ⟨rfl, hd, rfl⟩ := hq
  exact hf hd

/-- One access, and others follow. -/
theorem does_check {α : Type} {l : Blocks Block} {c : Prog Block α} {x : Access}
    {accs : List Access} {R : α → Blocks Block → Prop} (hd : m.data ≠ none)
    (hc : Does l c (m.Allows accs) R) :
    Does l (Prog.require x.inBounds >>= fun _ => c) (m.Allows (x :: accs)) R :=
  ((does_require l x.inBounds).bind fun _ _ hq => hq.2 ▸ hc).congr
    ((allows_cons m x accs).trans (and_iff_right hd)).symm

/-- The last access: the new value is stored. -/
theorem does_write {α : Type} (hd : m.data ≠ none) (d : Bytes) (r : α) :
    Does (m.blocks a) (Prog.store m.data (.chars d) >>= fun _ => pure r) (m.Allows []) fun r' l' =>
      r' = r ∧ l' = m.blocks (a.setData d) :=
  ((does_storeData hd a d).seq fun _ _ hl => Does.pure ⟨rfl, hl⟩).sure (allows_nil m)

/-- **`doReportProperty`'s store.** -/
theorem does_storeReport (m : Place) (a : ShadowAttr) (val : String8) :
    Does (m.blocks a) (storeReport (m.attrObj a) val) (m.Allows (reportAccesses a val)) fun r l' =>
      r = (reportData a val).isSome ∧
        l' = m.blocks ((reportData a val).elim a a.setData) := by
  unfold storeReport reportAccesses reportData
  cases ht : a.attr_type with
  | IOTX_SHADOW_INT32 =>
    simp only [Place.attrObj, ht]
    exact does_access fun hd => does_check hd (does_write hd _ true)
  | IOTX_SHADOW_STRING =>
    simp only [Place.attrObj, ht]
    exact does_access fun hd => does_check hd (does_write hd _ true)
  | other =>
    simp only [Place.attrObj, ht]
    exact (Does.pure ⟨rfl, rfl⟩).sure (allows_nil m)

/-- The name in memory is the name. -/
theorem cstr_name {name : String8} (h0 : (0 : UInt8) ∉ name) : cstr (name ++ [0]) = name := by
  rw [cstr_append h0]
  exact List.append_nil name

theorem does_nothing {α : Type} (m : Place) (a : ShadowAttr) (r : α) :
    Does (m.blocks a) (pure r : Prog Block α) (m.Allows []) fun r' l' => r' = r ∧ l' = m.blocks a :=
  (Does.pure ⟨rfl, rfl⟩).sure (allows_nil m)

/-- What `updateProperties` leaves of an attribute. -/
theorem updateAttr_attr (t : IOTService) (ans : IOTService.Answers) (a : DSAttr) :
    (updateAttr t ans a).attr = (updateData t ans a).elim a.attr a.attr.setData := by
  unfold updateAttr
  cases updateData t ans a with
  | none => rfl
  | some data => rfl

/-- **One attribute in `updateProperties`.** -/
theorem does_updateOne (m : Place) (t : IOTService) (ans : IOTService.Answers) (a : DSAttr)
    (h0 : (0 : UInt8) ∉ a.attr.pattr_name) :
    Does (m.blocks a.attr) (updateOne t ans (m.entry a)) (m.Allows (updateAccesses t ans a))
      fun r l' => r = (updateData t ans a).isSome ∧ l' = m.blocks (updateAttr t ans a).attr := by
  rw [updateAttr_attr]
  unfold updateOne updateAccesses updateData
  cases hloc : a.isLocal with
  | true =>
    simp only [Place.entry, hloc]
    exact does_nothing m a.attr false
  | false =>
    simp only [Place.entry, hloc, Bool.false_eq_true, if_false]
    refine (does_loadAttr m a.attr).seq fun o l' ho => ?_
    obtain ⟨rfl, rfl⟩ := ho
    cases ht : a.attr.attr_type with
    | other =>
      simp only [Place.attrObj, ht]
      exact does_nothing m a.attr false
    | IOTX_SHADOW_INT32 =>
      simp only [Place.attrObj, ht]
      refine (does_loadName m a.attr).seq fun name l' hn => ?_
      obtain ⟨rfl, rfl⟩ := hn
      have hp : t.callPropertyGet ans a.attr.pattr_name (calloc 32) 32 = polled t ans a.attr 32 := rfl
      rw [cstr_name h0, hp]
      generalize polled t ans a.attr 32 = p
      obtain ⟨ret, value⟩ := p
      by_cases hret : ret > 0
      · simp only [hret, if_true, true_and]
        refine does_access fun hd => does_check hd (does_check hd ?_)
        split
        case isTrue hdiff => exact does_check hd (does_write hd _ true)
        case isFalse hdiff => exact does_nothing m a.attr false
      · simp only [hret, if_false, false_and]
        exact does_nothing m a.attr false
    | IOTX_SHADOW_STRING =>
      simp only [Place.attrObj, ht]
      refine (does_loadName m a.attr).seq fun name l' hn => ?_
      obtain ⟨rfl, rfl⟩ := hn
      have hp : t.callPropertyGet ans a.attr.pattr_name (calloc ATTR_VALUE_MAX_LEN)
        ATTR_VALUE_MAX_LEN = polled t ans a.attr ATTR_VALUE_MAX_LEN := rfl
      rw [cstr_name h0, hp]
      generalize polled t ans a.attr ATTR_VALUE_MAX_LEN = p
      obtain ⟨ret, value⟩ := p
      by_cases hret : ret > 0
      · simp only [hret, if_true, true_and]
        refine does_access fun hd => does_check hd (does_check hd ?_)
        split
        case isTrue hdiff => exact does_check hd (does_write hd _ true)
        case isFalse hdiff => exact does_nothing m a.attr false
      · simp only [hret, if_false, false_and]
        exact does_nothing m a.attr false

/-! ## 4. Cloud callbacks -/

/-- The accesses of an attribute's callback. -/
def callbackAccesses (a : ShadowAttr) : List Access :=
  match a.callback with
  | none => []
  | some .DS_call_default_property_cb =>
    match a.attr_type with
    | .IOTX_SHADOW_INT32 => [.int32 a.pattr_data.length]
    | .IOTX_SHADOW_STRING => [.cstring a.pattr_data]
    | .other => []
  | some .DS_report_period_property_cb => [.int32 a.pattr_data.length]

/-- The attribute after the SDK stored a value within its block. -/
def delivered (a : ShadowAttr) (data : Bytes) : ShadowAttr := a.setData (poke a.pattr_data data)

/-- The accesses of a delivery. -/
def deliverAccesses (a : ShadowAttr) (data : Bytes) : List Access :=
  .write (min data.length a.pattr_data.length) a.pattr_data.length ::
    callbackAccesses (delivered a data)

/-- What the callback of an attribute calls, and what it leaves of the shadow. -/
def calledBack (s : Shadow) (a : ShadowAttr) : List IOTService.Invocation × Shadow :=
  match a.callback with
  | none => ([], s)
  | some .DS_call_default_property_cb =>
    match formatValue a with
    | none => ([], s)
    | some value => ((s.callPropertySet a.pattr_name value).2, { s with g_forceReport := true })
  | some .DS_report_period_property_cb =>
    ([], updateReportReriod { s with g_forceReport := true } (loadInt32 a.pattr_data))

/-- **`_DS_call_default_property_cb`** makes the calls that it makes in `DeviceShadow`. -/
theorem does_callDefaultPropertyCb (m : Place) (s : Shadow) (a : ShadowAttr)
    (h0 : (0 : UInt8) ∉ a.pattr_name) (hcb : a.callback = some .DS_call_default_property_cb) :
    Does (m.blocks a) (callDefaultPropertyCb s (some m.obj)) (m.Allows (callbackAccesses a))
      fun r l' => r = calledBack s a ∧ l' = m.blocks a := by
  unfold callDefaultPropertyCb callbackAccesses calledBack formatValue
  refine (does_loadAttr m a).seq fun o l' ho => ?_
  obtain ⟨rfl, rfl⟩ := ho
  cases ht : a.attr_type with
  | other =>
    simp only [Place.attrObj, ht, hcb]
    exact does_nothing m a _
  | IOTX_SHADOW_INT32 =>
    simp only [Place.attrObj, ht, hcb]
    refine does_access fun hd => does_check hd ((does_loadName m a).seq fun name l' hn => ?_)
    obtain ⟨rfl, rfl⟩ := hn
    rw [cstr_name h0]
    exact does_nothing m a _
  | IOTX_SHADOW_STRING =>
    simp only [Place.attrObj, ht, hcb]
    refine does_access fun hd => does_check hd ((does_loadName m a).seq fun name l' hn => ?_)
    obtain ⟨rfl, rfl⟩ := hn
    rw [cstr_name h0]
    exact does_nothing m a _

/-- **`_DS_report_period_property_cb`** calls no client. -/
theorem does_reportPeriodPropertyCb (m : Place) (s : Shadow) (a : ShadowAttr)
    (hcb : a.callback = some .DS_report_period_property_cb) :
    Does (m.blocks a) (reportPeriodPropertyCb s (some m.obj)) (m.Allows (callbackAccesses a))
      fun s' l' => s' = updateReportReriod { s with g_forceReport := true } (loadInt32 a.pattr_data) ∧
        l' = m.blocks a := by
  unfold reportPeriodPropertyCb callbackAccesses
  refine (does_loadAttr m a).seq fun o l' ho => ?_
  obtain ⟨rfl, rfl⟩ := ho
  simp only [Place.attrObj, hcb]
  refine does_access fun hd => does_check hd ((does_loadName m a).seq fun name l' hn => ?_)
  obtain ⟨rfl, rfl⟩ := hn
  exact does_nothing m a _

theorem does_runCallback (m : Place) (s : Shadow) (a : ShadowAttr)
    (h0 : (0 : UInt8) ∉ a.pattr_name) :
    Does (m.blocks a) (runCallback s (some m.obj)) (m.Allows (callbackAccesses a)) fun r l' =>
      r = calledBack s a ∧ l' = m.blocks a := by
  refine (does_loadAttr m a).seq fun o l' ho => ?_
  obtain ⟨rfl, rfl⟩ := ho
  cases hcb : a.callback with
  | none =>
    simp only [Place.attrObj, callbackAccesses, calledBack, hcb]
    exact does_nothing m a _
  | some cb =>
    cases cb with
    | DS_call_default_property_cb =>
      simp only [Place.attrObj, hcb]
      exact does_callDefaultPropertyCb m s a h0 hcb
    | DS_report_period_property_cb =>
      simp only [Place.attrObj, hcb]
      refine (does_reportPeriodPropertyCb m s a hcb).before fun s' l' hs => ?_
      obtain ⟨rfl, rfl⟩ := hs
      refine Does.pure ⟨?_, rfl⟩
      simp only [calledBack, hcb]

/-- **A delivery**, with the store of the SDK. -/
theorem does_deliver (m : Place) (s : Shadow) (a : ShadowAttr) (h0 : (0 : UInt8) ∉ a.pattr_name)
    (data : Bytes) :
    Does (m.blocks a) (deliver s (some m.obj) data) (m.Allows (deliverAccesses a data)) fun r l' =>
      r = calledBack s (delivered a data) ∧ l' = m.blocks (delivered a data) := by
  refine (does_loadAttr m a).seq fun o l' ho => ?_
  obtain ⟨rfl, rfl⟩ := ho
  refine does_access fun hd => ?_
  have hin : (Access.write (min data.length a.pattr_data.length) a.pattr_data.length).inBounds :=
    Nat.min_le_right _ _
  refine ((does_storeData hd a _).seq fun _ l' hl => ?_).congr
    ((allows_cons m _ _).trans ((and_iff_right hd).trans (and_iff_right hin))).symm
  subst hl
  exact does_runCallback m s (delivered a data) h0

end Memory

end IotWrap
