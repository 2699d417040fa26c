/-
  File:      IotWrap/Accepted.lean
  Subject:   What an accepted `doAddProperty` leaves in the table
             (jni/server/IOT_DeviceShadow.cpp).

  The first call for a name makes the attribute and every later one leaves it,
  with a warning in the log. All of them return 0, and so does a call for which
  `calloc` failed: the NULL of `_addProperty` is not looked at, and neither is
  that of the value's `calloc`, which leaves an attribute without a buffer.

  * `addRun_get`: the table after a sequence of calls, from the calls alone;
  * `asAsked_iff`: an accepted call finds what it asked for if and only if it is
    the first for its name and gets all its memory, or asks for the type of the
    first and no more room;
  * `accepted_other_type`: a string is accepted where an int32 is stored.
-/
import IotWrap.Stored

namespace IotWrap

open Lib

/-- The bytes there are for a value of this size. -/
def Callocs.room (mem : Callocs) (size : Nat) : Nat := if mem = .noData then 0 else size

namespace DeviceShadow

/-! ## 1. Sequences of calls -/

/-- A call of `doAddProperty`; `mem` is how its `calloc`s end. -/
structure AddCall where
  name : String8
  type : Int
  size : Int
  mem : Callocs
  deriving DecidableEq, Repr

def AddCall.accepted (c : AddCall) : Option AttrType := acceptType c.type c.size

def add (d : DeviceShadow) (c : AddCall) : Int × DeviceShadow :=
  d.doAddProperty c.name c.type c.size c.mem

def addRun (d : DeviceShadow) (calls : List AddCall) : DeviceShadow :=
  calls.foldl (fun d c => (d.add c).2) d

theorem addRun_append (d : DeviceShadow) (calls : List AddCall) (c : AddCall) :
    d.addRun (calls ++ [c]) = ((d.addRun calls).add c).2 := by
  simp [addRun]

/-- The type and the room of what a call makes. -/
def AddCall.makes (c : AddCall) (name : String8) : Option (AttrType × Nat) :=
  if c.name = name ∧ c.mem ≠ .fail then
    c.accepted.map fun t => (t, c.mem.room c.size.toNat)
  else none

/-- The constructor, whose `calloc`s end with `mem`, made the attribute of this name. -/
def native (mem : Callocs) (name : String8) : Bool :=
  name = LOCAL_ATTR_REPROT_PERIOD ∧ mem ≠ .fail

/-- What was made for a name: `report_period` by the constructor, any other by the
    first call that was accepted and got its memory. -/
def made (mem : Callocs) (calls : List AddCall) (name : String8) : Option (AttrType × Nat) :=
  if native mem name then some (.IOTX_SHADOW_INT32, mem.room 4)
  else calls.findSome? fun c => c.makes name

/-- The callback of a new attribute. -/
def callbackOf (isLocal : Bool) : AttrCb :=
  if isLocal then .DS_report_period_property_cb else .DS_call_default_property_cb

/-- The attribute that was made. -/
def madeAttr (isLocal : Bool) (name : String8) (p : AttrType × Nat) : DSAttr :=
  ⟨false, isLocal, ⟨name, calloc p.2, p.1, .IOTX_SHADOW_RW, some (callbackOf isLocal)⟩⟩

/-- **The call finds what it asked for**: where it returns 0, the table holds an
    attribute of the type it asked for, with at least that much room. -/
def AsAsked (d : DeviceShadow) (c : AddCall) : Prop :=
  (d.add c).1 = 0 → ∃ a, (d.add c).2.m_iotAttrs[c.name]? = some a ∧
    c.accepted = some a.attr.attr_type ∧ c.size ≤ a.attr.pattr_data.length

/-- **The condition**: nothing was made for the name and there is memory for all of
    it, or what was made has the type and at least the size. -/
def FirstOrAlike (mem : Callocs) (calls : List AddCall) (c : AddCall) : Prop :=
  ∀ t, c.accepted = some t →
    match made mem calls c.name with
    | none => c.mem = .succeed
    | some p => p.1 = t ∧ c.size ≤ p.2

/-! ## 2. One call -/

/-- What `_addProperty` makes has the room that its `calloc`s left. -/
theorem addProperty_room (d : DeviceShadow) {name : String8} (hn : name ∉ d.m_iotAttrs)
    (t : AttrType) (size : Int) (isLocal : Bool) {mem : Callocs} (hm : mem ≠ .fail) :
    (d._addProperty name t size (some (callbackOf isLocal)) isLocal mem).2.m_iotAttrs =
      d.m_iotAttrs.insert name (madeAttr isLocal name (t, mem.room size.toNat)) := by
  unfold _addProperty
  rw [if_neg hn]
  cases mem with
  | succeed => rfl
  | noData => rfl
  | fail => exact absurd rfl hm

/-- Without memory for the attribute it makes none. -/
theorem addProperty_fail (d : DeviceShadow) (name : String8) (t : AttrType) (size : Int)
    (cb : Option AttrCb) (isLocal : Bool) : d._addProperty name t size cb isLocal .fail = (none, d) :=
  ite_self _

/-- **One call**, for an attribute that exists and for one that does not. -/
theorem add_get (d : DeviceShadow) (c : AddCall) (name : String8) :
    (d.add c).2.m_iotAttrs[name]? =
      match d.m_iotAttrs[name]? with
      | some a => some a
      | none => (c.makes name).map (madeAttr false name) := by
  unfold add doAddProperty AddCall.makes AddCall.accepted
  cases ht : acceptType c.type c.size with
  | none =>
    simp only [Option.map_none, ite_self]
    cases d.m_iotAttrs[name]? <;> rfl
  | some t =>
    show (registerNew _ _).m_iotAttrs[name]? = _
    rw [registerNew_eq]
    show ((d._addProperty c.name t c.size (some (callbackOf false)) false c.mem).2.m_iotAttrs)[name]? =
      _
    by_cases hin : c.name ∈ d.m_iotAttrs
    · have hsame : d._addProperty c.name t c.size (some (callbackOf false)) false c.mem =
        (none, d) := if_pos hin
      rw [hsame]
      cases hn : d.m_iotAttrs[name]? with
      | some a => rfl
      | none =>
        have hne : c.name ≠ name := by
          rintro rfl
          rw [Std.TreeMap.mem_iff_isSome_getElem?, hn] at hin
          cases hin
        rw [if_neg (fun h => hne h.1)]
        rfl
    · by_cases hmem : c.mem = .fail
      · rw [hmem, addProperty_fail, if_neg fun h => h.2 rfl]
        cases hn : d.m_iotAttrs[name]? <;> rfl
      · rw [addProperty_room d hin t c.size false hmem, get_insert]
        by_cases hne : c.name = name
        · subst hne
          rw [if_pos rfl, if_pos ⟨rfl, hmem⟩, Std.TreeMap.getElem?_eq_none hin]
          rfl
        · rw [if_neg hne, if_neg fun h => hne h.1]
          cases hn : d.m_iotAttrs[name]? <;> rfl

/-- An attribute that exists stays as it is. -/
theorem addRun_keeps {d : DeviceShadow} {name : String8} {a : DSAttr}
    (h : d.m_iotAttrs[name]? = some a) (calls : List AddCall) :
    (d.addRun calls).m_iotAttrs[name]? = some a := by
  induction calls using List.reverseRecOn with
  | nil => exact h
  | append_singleton calls c ih => rw [addRun_append, add_get, ih]

/-! ## 3. The table after a sequence -/

/-- The server the calls are made to: constructed, with or without a cloud. -/
def constructed (reportFlag : Bool) (mem : Callocs) (h : Option Handle) : DeviceShadow :=
  { construct reportFlag mem with m_shadow := h }

theorem constructed_get (reportFlag : Bool) (mem : Callocs) (h : Option Handle) (name : String8) :
    (constructed reportFlag mem h).m_iotAttrs[name]? =
      if native mem name then
        some (madeAttr true name (.IOTX_SHADOW_INT32, mem.room 4)) else none := by
  have hempty : ({} : AttrTable)[name]? = none := by simp
  have hnot : LOCAL_ATTR_REPROT_PERIOD ∉ ({} : AttrTable) := by simp
  by_cases hm : mem = .fail
  · subst hm
    have hnative : native .fail name = false := by simp [native]
    rw [hnative]
    exact hempty
  · have ht : (constructed reportFlag mem h).m_iotAttrs = ({} : AttrTable).insert _ _ :=
      addProperty_room _ hnot .IOTX_SHADOW_INT32 4 true hm
    rw [ht, get_insert, hempty]
    by_cases hn : LOCAL_ATTR_REPROT_PERIOD = name
    · subst hn
      rw [if_pos rfl, if_pos (by simp [native, hm])]
      rfl
    · rw [if_neg hn, if_neg (by simp [native, Ne.symm hn])]

/-- **The table after a sequence of calls**: what was made for each name. -/
theorem addRun_get (reportFlag : Bool) (mem : Callocs) (h : Option Handle) (calls : List AddCall)
    (name : String8) :
    ((constructed reportFlag mem h).addRun calls).m_iotAttrs[name]? =
      (made mem calls name).map (madeAttr (native mem name) name) := by
  induction calls using List.reverseRecOn with
  | nil =>
    show (constructed reportFlag mem h).m_iotAttrs[name]? = _
    rw [constructed_get]
    unfold made
    split
    · rename_i hn
      rw [hn]
      rfl
    · rfl
  | append_singleton calls c ih =>
    rw [addRun_append, add_get, ih]
    unfold made
    cases hn : native mem name with
    | true => rfl
    | false =>
      simp only [Bool.false_eq_true, if_false, List.findSome?_append, List.findSome?_cons,
        List.findSome?_nil]
      cases calls.findSome? fun c => c.makes name with
      | some p => rfl
      | none =>
        cases c.makes name with
        | none => rfl
        | some p => rfl

theorem add_fst (d : DeviceShadow) (c : AddCall) :
    (d.add c).1 = if c.accepted.isSome then 0 else -1 := by
  unfold add doAddProperty AddCall.accepted
  cases acceptType c.type c.size <;> rfl

theorem accepted_size {c : AddCall} {t : AttrType} (h : c.accepted = some t) : 0 < c.size :=
  acceptType_pos h

/-- **An accepted attribute is the one asked for** if and only if the call is the
    first for its name, with its memory, or asks for no more than the first; and no
    later call changes an attribute that exists. -/
theorem asAsked_iff (reportFlag : Bool) (mem : Callocs) (h : Option Handle) (calls : List AddCall) :
    (∀ c, ((constructed reportFlag mem h).addRun calls).AsAsked c ↔ FirstOrAlike mem calls c) ∧
      ∀ (d : DeviceShadow) (name : String8) (a : DSAttr), d.m_iotAttrs[name]? = some a →
        (d.addRun calls).m_iotAttrs[name]? = some a := by
  refine ⟨fun c => ?_, fun d name a ha => addRun_keeps ha calls⟩
  unfold AsAsked FirstOrAlike
  rw [add_fst, add_get, addRun_get]
  cases hc : c.accepted with
  | none => simp
  | some t =>
    have hsize := accepted_size hc
    cases hm : made mem calls c.name with
    | some p =>
      simp only [Option.isSome_some, ↓reduceIte, Option.map_some, Option.some.injEq, forall_const,
        exists_eq_left', forall_eq']
      rw [eq_comm]
      simp only [madeAttr, length_calloc]
    | none =>
      simp only [Option.isSome_some, ↓reduceIte, Option.map_none, forall_const, Option.some.injEq,
        forall_eq', AddCall.makes, true_and, hc, Option.map_some]
      -- what is made now has the size, where all three `calloc`s succeed
      cases hmem : c.mem with
      | fail => simp
      | noData =>
        simp only [madeAttr, Callocs.room, ne_eq, reduceCtorEq, not_false_eq_true, ↓reduceIte,
          Option.map_some, Option.some.injEq, exists_eq_left', length_calloc, true_and, iff_false]
        omega
      | succeed =>
        simp only [madeAttr, Callocs.room, ne_eq, reduceCtorEq, not_false_eq_true, ↓reduceIte,
          Option.map_some, Option.some.injEq, exists_eq_left', length_calloc, true_and, iff_true]
        omega

/-- An int32 and a string under one name. -/
def powerTwice : List AddCall :=
  [⟨lit "power", IOT_PROPERTY_INT32, 4, .succeed⟩, ⟨lit "power", IOT_PROPERTY_STRING, 64, .succeed⟩]

/-- **Accepted with another type**: `power` was made as an int32 of four bytes, and
    a call for a string of 64 returns 0. -/
theorem accepted_other_type :
    ¬ ∀ (reportFlag : Bool) (mem : Callocs) (h : Option Handle) (calls : List AddCall) (c : AddCall),
      ((constructed reportFlag mem h).addRun calls).AsAsked c := by
  intro h
  obtain ⟨a, ha, ht, -⟩ := h false .succeed none [⟨lit "power", IOT_PROPERTY_INT32, 4, .succeed⟩]
    ⟨lit "power", IOT_PROPERTY_STRING, 64, .succeed⟩ (by decide)
  have hint : (((constructed false .succeed none).addRun powerTwice).m_iotAttrs[lit "power"]?).map
      (fun a => a.attr.attr_type) = some .IOTX_SHADOW_INT32 := by decide
  have ha' : ((constructed false .succeed none).addRun powerTwice).m_iotAttrs[lit "power"]? =
    some a := ha
  rw [ha', Option.map_some, Option.some.injEq] at hint
  rw [hint] at ht
  exact absurd ht (by decide)

end DeviceShadow

end IotWrap
