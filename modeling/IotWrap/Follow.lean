/-
  File:      IotWrap/Follow.lean
  Subject:   `IOTClient::followProperty` over both stores: the follow map, then
             the attribute table.

  The request is two operations in sequence and only the second one tests the
  type and the size; `followProperty_cases` is what the two can do.
  `failedFollow_iff` is the exact condition under which a request that fails
  leaves nothing behind; `failedFollow_sticks` is one that leaves a follower.
-/
import IotWrap.Shadow

namespace IotWrap

open Lib

namespace IOTService

/-- A client that is in the vector already is not added again. -/
theorem addTo_of_mem {m : FollowMap} {val : String8} {c : ClientId} {l : List ClientId}
    (hl : m[val]? = some (some l)) (hc : c ∈ l) : addTo m val c = (0, m) := by
  simp [addTo, vectorFor, hl, hc]

/-- A null pointer stays a null pointer. -/
theorem addTo_of_null {m : FollowMap} {val : String8} (c : ClientId)
    (hl : m[val]? = some none) : addTo m val c = (-1, m) := by
  simp [addTo, vectorFor, hl]

/-- Anything else succeeds and leaves the client in the list of the name. -/
theorem addTo_adds {m : FollowMap} {val : String8} {c : ClientId}
    (hn : m[val]? ≠ some none) :
    (addTo m val c).1 = 0 ∧ ∃ l, (addTo m val c).2[val]? = some (some l) ∧ c ∈ l := by
  cases hm : m[val]? with
  | none => simp [addTo, vectorFor, hm]
  | some p =>
    cases p with
    | none => exact absurd hm hn
    | some l =>
      by_cases hc : c ∈ l
      · rw [addTo_of_mem hm hc]
        exact ⟨rfl, l, hm, hc⟩
      · simp [addTo, vectorFor, hm, hc]

end IOTService

namespace DeviceShadow

open IOTService

/-- Nothing that reads the two stores can tell `d'` from `d`. -/
structure Unnoticed (d d' : DeviceShadow) : Prop where
  keyFollow : d'.m_keyFollow = d.m_keyFollow
  iotAttrs : d'.m_iotAttrs = d.m_iotAttrs
  set : ∀ key val, d'.callPropertySet key val = d.callPropertySet key val
  get : ∀ ans key val size, d'.callPropertyGet ans key val size = d.callPropertyGet ans key val size
  update : ∀ ans, (d'.updateProperties ans).m_iotAttrs = (d.updateProperties ans).m_iotAttrs ∧
    (d'.updateProperties ans).m_reportFlag = (d.updateProperties ans).m_reportFlag

theorem Unnoticed.rfl {d : DeviceShadow} : Unnoticed d d :=
  ⟨Eq.refl _, Eq.refl _, fun _ _ => Eq.refl _, fun _ _ _ _ => Eq.refl _,
    fun _ => ⟨Eq.refl _, Eq.refl _⟩⟩

/-- **A failed follow changes nothing.** -/
def FailsClean (d : DeviceShadow) (c : ClientId) (key : String8) (type size : Int)
    (mem : Callocs) : Prop :=
  (d.followProperty c key type size mem).1 ≠ 0 → Unnoticed d (d.followProperty c key type size mem).2

/-- The client follows the key already. -/
def FollowsKey (d : DeviceShadow) (c : ClientId) (key : String8) : Prop :=
  ∃ l, d.m_keyFollow[cstr key]? = some (some l) ∧ c ∈ l

theorem followProperty_eq (d : DeviceShadow) (c : ClientId) (key : String8) (type size : Int)
    (mem : Callocs) :
    d.followProperty c key type size mem =
      if (addTo d.m_keyFollow (cstr key) c).1 ≠ 0 then
        (-1, { d with m_keyFollow := (addTo d.m_keyFollow (cstr key) c).2 })
      else
        DeviceShadow.doAddProperty { d with m_keyFollow := (addTo d.m_keyFollow (cstr key) c).2 }
          (cstr key) type size mem := rfl

/-- **What `followProperty` can do**: the follower is added as `addTo` adds it, and the
    table stays as it is or gets one new attribute. -/
theorem followProperty_cases (d : DeviceShadow) (c : ClientId) (key : String8) (type size : Int)
    (mem : Callocs) :
    (∃ reg, (d.followProperty c key type size mem).2 = { d with
        m_keyFollow := (addTo d.m_keyFollow (cstr key) c).2
        registered := reg }) ∨
      ∃ a reg, (d.followProperty c key type size mem).2 = { d with
          m_keyFollow := (addTo d.m_keyFollow (cstr key) c).2
          m_iotAttrs := d.m_iotAttrs.insert (cstr key) ⟨false, false, a⟩
          registered := reg } ∧
        WellEntered (cstr key) a ∧ cstr key ∉ d.m_iotAttrs := by
  rw [followProperty_eq]
  split
  · exact .inl ⟨d.registered, rfl⟩
  · exact doAddProperty_cases { d with m_keyFollow := (addTo d.m_keyFollow (cstr key) c).2 }
      (cstr key) type size mem

/-- A request `doAddProperty` accepts returns 0. -/
theorem doAddProperty_fst (d : DeviceShadow) (name : String8) (type size : Int) (mem : Callocs) :
    (d.doAddProperty name type size mem).1 = if acceptType type size = none then -1 else 0 := by
  unfold doAddProperty
  cases acceptType type size <;> rfl

/-- **When a failed follow changes nothing**: the type and the size are accepted
    (then the request does not fail), or the client followed the key already, or
    the map holds a null pointer for the key. -/
theorem failedFollow_iff (d : DeviceShadow) (c : ClientId) (key : String8) (type size : Int)
    (mem : Callocs) :
    FailsClean d c key type size mem ↔
      acceptType type size ≠ none ∨ FollowsKey d c key ∨ d.m_keyFollow[cstr key]? = some none := by
  unfold FailsClean
  rw [followProperty_eq]
  by_cases hnull : d.m_keyFollow[cstr key]? = some none
  · rw [addTo_of_null c hnull]
    exact ⟨fun _ => .inr (.inr hnull), fun _ _ => Unnoticed.rfl⟩
  · obtain ⟨h0, hadd⟩ := addTo_adds (c := c) hnull
    rw [if_neg (by simp [h0])]
    cases ht : acceptType type size with
    | some t =>
      have hret := doAddProperty_fst { d with m_keyFollow := (addTo d.m_keyFollow (cstr key) c).2 }
        (cstr key) type size mem
      rw [ht, if_neg (by simp)] at hret
      exact ⟨fun _ => .inl (by simp), fun _ hne => absurd hret hne⟩
    | none =>
      simp only [doAddProperty, ht, ne_eq, not_true_eq_false, hnull, false_or, or_false]
      constructor
      · -- unchanged, and the client is in the list now: it was before
        intro h
        obtain ⟨l, hl, hc⟩ := hadd
        have hk := (h (by decide)).keyFollow
        exact ⟨l, (congrArg (·[cstr key]?) hk).symm.trans hl, hc⟩
      · intro hf _
        obtain ⟨l, hl, hc⟩ := hf
        rw [addTo_of_mem hl hc]
        exact Unnoticed.rfl

/-- **A failed follow sticks**: size 0 is refused and the client follows all the
    same. -/
theorem failedFollow_sticks :
    ¬ ∀ (d : DeviceShadow) (c : ClientId) (key : String8) (type size : Int) (mem : Callocs),
      FailsClean d c key type size mem := by
  intro h
  have hu := (h (init false) 0 (lit "power") IOT_PROPERTY_INT32 0 .succeed (by decide)).keyFollow
  have : (((init false).followProperty 0 (lit "power") IOT_PROPERTY_INT32 0 .succeed).2.m_keyFollow)[
      lit "power"]? = (init false).m_keyFollow[lit "power"]? := congrArg (·[lit "power"]?) hu
  revert this
  decide

end DeviceShadow

end IotWrap
