/-
  File:      IotWrap/Registered.lean
  Subject:   How often an attribute is registered with the SDK.

  An attribute is registered in two places: the pass of `preShadow` over the
  table, and `doAddProperty` where it finds `m_shadow` set. `m_shadow` is set
  before the pass, so what a client adds in between is registered by both.
  `AddsLate` is the condition on a step that excludes this.

  The invariant `Once` counts, for every name of the table, the registrations
  made and the clients that are on their way to make one: after the pass the
  two together are one.

  * `once_next`: a step that adds late keeps `Once`;
  * `registered_once`: on the runs whose steps all do, every attribute ends up
    registered exactly once;
  * `registered_twice`: a run in which one is registered twice.
-/
import Mathlib.Data.List.Nodup
import IotWrap.Wakeup

namespace IotWrap

open Lib

/-! ## 1. The pass -/

namespace DeviceShadow

/-- How often a name was registered for a handle. -/
def timesRegistered (d : DeviceShadow) (h : Handle) (k : String8) : Nat :=
  d.registered.count (h, k)

theorem sweep_names {d : DeviceShadow} (hd : Entered d.m_iotAttrs) (h : Handle) :
    (d.m_iotAttrs.toList.map fun p => (h, p.2.attr.pattr_name)) =
      d.m_iotAttrs.keys.map fun k => (h, k) := by
  rw [← Std.TreeMap.map_fst_toList_eq_keys, List.map_map]
  refine List.map_congr_left fun p hp => ?_
  rw [(hd p.1 p.2 (Std.TreeMap.mem_toList_iff_getElem?_eq_some.mp hp)).name]
  rfl

/-- **The pass registers every attribute of the table once**, and nothing else. -/
theorem timesRegistered_registerAll {d : DeviceShadow} (hd : Entered d.m_iotAttrs) {h : Handle}
    (hh : d.m_shadow = some h) (hr : d.registered = []) (k : String8) :
    d.registerAll.timesRegistered h k = if k ∈ d.m_iotAttrs then 1 else 0 := by
  have hall : d.registerAll.registered = d.m_iotAttrs.keys.map fun k => (h, k) := by
    simp only [registerAll, hh, hr, List.nil_append]
    exact sweep_names hd h
  have hnd : (d.m_iotAttrs.keys.map fun k => (h, k)).Nodup :=
    List.Nodup.map (fun k k' hk => (Prod.mk.inj hk).2) Std.TreeMap.nodup_keys
  rw [timesRegistered, hall]
  split
  · rename_i hk
    exact List.count_eq_one_of_mem hnd (List.mem_map_of_mem (Std.TreeMap.mem_keys.mpr hk))
  · rename_i hk
    refine List.count_eq_zero.mpr fun hm => hk ?_
    obtain ⟨k', hk', he⟩ := List.mem_map.mp hm
    cases he
    exact Std.TreeMap.mem_keys.mp hk'

/-- The end of `doAddProperty` registers the new attribute. -/
theorem timesRegistered_registerNew {d : DeviceShadow} {h : Handle} (hh : d.m_shadow = some h)
    (a : ShadowAttr) (k : String8) :
    (d.registerNew (some a)).timesRegistered h k =
      d.timesRegistered h k + if a.pattr_name = k then 1 else 0 := by
  simp only [registerNew, hh, timesRegistered, List.count_append, List.count_singleton]
  simp

end DeviceShadow

namespace Startup

open DeviceShadow

/-! ## 2. The runs that add late -/

/-- The registration pass is over. -/
def Swept : ShadowPc → Prop
  | .swept | .done => True
  | _ => False

instance : DecidablePred Swept
  | .swept | .done => .isTrue trivial
  | .setupShadow | .preShadow | .locked | .waiting | .returned | .passed => .isFalse id

/-- **The condition on one step**: `_addProperty` enters a new attribute only
    after the registration pass. -/
def AddsLate (s : Startup) : Label → Prop
  | .addProperty _ _ name type size mem =>
    name ∉ s.d.m_iotAttrs → (acceptType type size).isSome → mem ≠ .fail → Swept s.shadow
  | _ => True

instance (s : Startup) : DecidablePred (AddsLate s)
  | .addProperty _ _ name type size mem => inferInstanceAs (Decidable
      (name ∉ s.d.m_iotAttrs → (acceptType type size).isSome → mem ≠ .fail → Swept s.shadow))
  | .setupShadow _ | .lock | .wait | .spurious | .reacquire | .unlock | .sweep | .finish | .poll _
  | .limit _ | .create _ _ | .followProperty _ _ _ _ _ _ | .register _ _ _ | .followCommand _ _ _
  | .registCommandCB _ _ _ | .registPropertyCB _ _ _ | .lockActive _ _ | .signal _ _ _
  | .unlockActive _ _ => .isTrue trivial

/-- The client has entered the attribute and has not come to its registration. -/
def IsAdding : ClientPc → String8 → Prop
  | .adding _ a, k => a.pattr_name = k
  | _, _ => False

def Adding (s : Startup) (n : Nat) (k : String8) : Prop := IsAdding (s.client n) k

/-- **Where the registration of a name stands**, after the pass. -/
inductive Counted (s : Startup) (h : Handle) (k : String8) : Prop where
  | absent (hk : k ∉ s.d.m_iotAttrs) (ht : s.d.timesRegistered h k = 0)
      (ha : ∀ n, ¬ s.Adding n k) : Counted s h k
  | underway (hk : k ∈ s.d.m_iotAttrs) (ht : s.d.timesRegistered h k = 0) (n : Nat)
      (ha : ∀ m, s.Adding m k ↔ m = n) : Counted s h k
  | registered (hk : k ∈ s.d.m_iotAttrs) (ht : s.d.timesRegistered h k = 1)
      (ha : ∀ n, ¬ s.Adding n k) : Counted s h k

/-- **The invariant**: nothing is registered or underway before the pass, every
    name of the table is one of the two after it. -/
structure Once (s : Startup) : Prop where
  entered : Entered s.d.m_iotAttrs
  published : s.shadow ≠ .setupShadow → ∃ h, s.d.m_shadow = some h
  before : ¬ Swept s.shadow → s.d.registered = [] ∧ ∀ n k, ¬ s.Adding n k
  after : Swept s.shadow → ∀ h, s.d.m_shadow = some h → ∀ k, Counted s h k

theorem once_init (reportFlag : Bool) : Once (init reportFlag) where
  entered := entered_init reportFlag
  published h := absurd rfl h
  before _ := ⟨rfl, fun _ _ => id⟩
  after h := absurd h id

theorem Counted.frame {s s' : Startup} {h : Handle} {k : String8} (hC : Counted s h k)
    (hk : k ∈ s'.d.m_iotAttrs ↔ k ∈ s.d.m_iotAttrs)
    (ht : s'.d.timesRegistered h k = s.d.timesRegistered h k)
    (ha : ∀ m, s'.Adding m k ↔ s.Adding m k) : Counted s' h k := by
  cases hC with
  | absent hk' ht' ha' =>
    exact .absent (fun h => hk' (hk.mp h)) (ht.trans ht') fun m hm => ha' m ((ha m).mp hm)
  | underway hk' ht' n ha' =>
    exact .underway (hk.mpr hk') (ht.trans ht') n fun m => (ha m).trans (ha' m)
  | registered hk' ht' ha' =>
    exact .registered (hk.mpr hk') (ht.trans ht') fun m hm => ha' m ((ha m).mp hm)

/-- A step that leaves the table, the registrations and the clients' adds alone. -/
theorem Once.frame {s s' : Startup} (h : Once s) (ht : s'.d.m_iotAttrs = s.d.m_iotAttrs)
    (hr : s'.d.registered = s.d.registered) (hm : s'.d.m_shadow = s.d.m_shadow)
    (hs : Swept s'.shadow ↔ Swept s.shadow)
    (h0 : s.shadow = .setupShadow → s'.shadow = .setupShadow)
    (ha : ∀ n k, s'.Adding n k ↔ s.Adding n k) : Once s' where
  entered := ht ▸ h.entered
  published hp := hm ▸ h.published fun he => hp (h0 he)
  before hn := by
    obtain ⟨hreg, hadd⟩ := h.before fun hsw => hn (hs.mpr hsw)
    exact ⟨hr.trans hreg, fun n k hk => hadd n k ((ha n k).mp hk)⟩
  after hsw hd hm' k := by
    refine (h.after (hs.mp hsw) hd (hm ▸ hm') k).frame (by rw [ht]) ?_ fun m => ha m k
    rw [timesRegistered, hr]
    rfl

theorem adding_self (s : Startup) (n : Nat) (pc : ClientPc) (k : String8) :
    (s.goto n pc).Adding n k ↔ IsAdding pc k := by
  unfold Adding
  rw [goto_self]

theorem adding_other {s s' : Startup} (hcl : s'.client = s.client) {n m : Nat} (hmn : m ≠ n)
    (pc : ClientPc) (k : String8) : (s'.goto n pc).Adding m k ↔ s.Adding m k := by
  unfold Adding
  rw [goto_ne s' hmn, hcl]

/-- A client that moves from a point outside of the add to another. -/
theorem adding_goto {s : Startup} {n : Nat} {pc : ClientPc} (hold : ∀ k, ¬ IsAdding (s.client n) k)
    (hnew : ∀ k, ¬ IsAdding pc k) (m : Nat) (k : String8) :
    (s.goto n pc).Adding m k ↔ s.Adding m k := by
  by_cases hmn : m = n
  · subst hmn
    rw [adding_self]
    exact ⟨fun h => absurd h (hnew k), fun h => absurd h (hold k)⟩
  · exact adding_other rfl hmn pc k

/-- A step of one client outside of `_addProperty` and of the registration. -/
theorem Once.step_client {s s' : Startup} (h : Once s) {n : Nat} {pc : ClientPc}
    (hold : ∀ k, ¬ IsAdding (s.client n) k) (hnew : ∀ k, ¬ IsAdding pc k)
    (ht : s'.d.m_iotAttrs = s.d.m_iotAttrs) (hr : s'.d.registered = s.d.registered)
    (hm : s'.d.m_shadow = s.d.m_shadow) (hs : s'.shadow = s.shadow)
    (hcl : s'.client = (s.goto n pc).client) : Once s' := by
  refine h.frame ht hr hm (by rw [hs]) (fun h => hs.trans h) fun m k => ?_
  unfold Adding
  rw [hcl]
  exact adding_goto hold hnew m k

/-- What `_addProperty` does to the server and to the client that runs it. -/
theorem next_addProperty (s : Startup) (n : Nat) (c : ClientId) (name : String8) (type size : Int)
    (mem : Callocs) :
    s.next (.addProperty n c name type size mem) = s.goto n (.ready c) ∨
      ∃ a, s.next (.addProperty n c name type size mem) =
          { s with d := { s.d with m_iotAttrs := s.d.m_iotAttrs.insert name ⟨false, false, a⟩ } }.goto
            n (.adding c a) ∧
        WellEntered name a ∧ name ∉ s.d.m_iotAttrs ∧ (acceptType type size).isSome ∧ mem ≠ .fail := by
  cases ht : acceptType type size with
  | none =>
    refine .inl ?_
    simp only [next, ht]
  | some t =>
    rcases s.d._addProperty_cases name t size (some .DS_call_default_property_cb) false mem with
      h | ⟨a, h, hname, htype, hn, hmem⟩
    · refine .inl ?_
      simp only [next, ht, h]
    · refine .inr ⟨a, ?_, ⟨hname, htype ▸ acceptType_cases ht⟩, hn, rfl, hmem⟩
      simp only [next, ht, h]

/-- **A new attribute after the pass**: its registration is underway. -/
theorem Once.step_add {s : Startup} (h : Once s) {n : Nat} {c : ClientId} {name : String8}
    {a : ShadowAttr} (ha : WellEntered name a) (hn : name ∉ s.d.m_iotAttrs) (hsw : Swept s.shadow)
    (hold : ∀ k, ¬ IsAdding (s.client n) k) :
    Once ({ s with d := { s.d with
      m_iotAttrs := s.d.m_iotAttrs.insert name ⟨false, false, a⟩ } }.goto n (.adding c a)) where
  entered := entered_insert h.entered ha
  published := h.published
  before hns := absurd hsw hns
  after _ hd hm k := by
    have hself : ∀ s' : Startup, (s'.goto n (.adding c a)).Adding n k ↔ name = k := by
      intro s'
      rw [adding_self, ← ha.name]
      exact Iff.rfl
    by_cases hk : name = k
    · -- nobody else is adding it: it was not in the table
      subst hk
      cases h.after hsw hd hm name with
      | absent _ ht' ha' =>
        refine .underway Std.TreeMap.mem_insert_self ht' n fun m => ?_
        by_cases hmn : m = n
        · subst hmn
          exact ⟨fun _ => rfl, fun _ => (hself _).mpr rfl⟩
        · exact ⟨fun hm' => absurd ((adding_other (s := s) rfl hmn _ _).mp hm') (ha' m),
            fun e => absurd e hmn⟩
      | underway hk' _ _ _ => exact absurd hk' hn
      | registered hk' _ _ => exact absurd hk' hn
    · refine (h.after hsw hd hm k).frame ?_ rfl fun m => ?_
      · show k ∈ s.d.m_iotAttrs.insert name _ ↔ _
        rw [Std.TreeMap.mem_insert]
        exact ⟨fun h => h.resolve_left fun e => hk (Std.LawfulEqCmp.eq_of_compare e), .inr⟩
      · by_cases hmn : m = n
        · subst hmn
          exact ⟨fun hm' => absurd ((hself _).mp hm') hk, fun hm' => absurd hm' (hold k)⟩
        · exact adding_other rfl hmn _ k

/-- **The client registers the attribute it entered.** -/
theorem Once.step_register {s : Startup} (h : Once s) {n : Nat} {c : ClientId} {a : ShadowAttr}
    (hpc : s.client n = .adding c a) :
    Once ({ s with d := s.d.registerNew (some a) }.goto n (.ready c)) := by
  have hadd : s.Adding n a.pattr_name := by
    unfold Adding
    rw [hpc]
    rfl
  have hsw : Swept s.shadow := by
    by_contra hns
    exact (h.before hns).2 n _ hadd
  have hattrs : (s.d.registerNew (some a)).m_iotAttrs = s.d.m_iotAttrs := by rw [registerNew_eq]
  have hsh : (s.d.registerNew (some a)).m_shadow = s.d.m_shadow := by rw [registerNew_eq]
  refine ⟨?_, ?_, fun hns => absurd hsw hns, fun _ hd hm k => ?_⟩
  · show Entered (s.d.registerNew _).m_iotAttrs
    rw [registerNew_eq]
    exact h.entered
  · intro hp
    obtain ⟨hd, hm⟩ := h.published hp
    exact ⟨hd, hsh.trans hm⟩
  · have hm' : s.d.m_shadow = some hd := hsh.symm.trans hm
    have hcount := timesRegistered_registerNew hm' a k
    have hself : ∀ s' : Startup, ¬ (s'.goto n (.ready c)).Adding n k :=
      fun s' h => absurd ((adding_self s' n _ k).mp h) id
    by_cases hk : a.pattr_name = k
    · -- it was the only client underway with this name
      subst hk
      rw [if_pos rfl] at hcount
      cases h.after hsw hd hm' a.pattr_name with
      | absent _ _ ha' => exact absurd hadd (ha' n)
      | registered _ _ ha' => exact absurd hadd (ha' n)
      | underway hk' ht' n' ha' =>
        obtain rfl : n = n' := (ha' n).mp hadd
        refine .registered (hattrs ▸ hk') (hcount.trans (by rw [ht'])) fun m => ?_
        by_cases hmn : m = n
        · subst hmn
          exact hself _
        · exact fun hm'' => hmn ((ha' m).mp ((adding_other (s := s) rfl hmn _ _).mp hm''))
    · rw [if_neg hk, Nat.add_zero] at hcount
      refine (h.after hsw hd hm' k).frame (by rw [← hattrs]; rfl) hcount fun m => ?_
      by_cases hmn : m = n
      · subst hmn
        refine ⟨fun hm'' => absurd hm'' (hself _), fun hm'' => absurd ?_ hk⟩
        unfold Adding at hm''
        rw [hpc] at hm''
        exact hm''
      · exact adding_other rfl hmn _ k

/-- **The pass registers what is in the table**, once. -/
theorem Once.step_sweep {s : Startup} (h : Once s) (hpc : s.shadow = .passed) :
    Once { s with d := s.d.registerAll, shadow := .swept } := by
  obtain ⟨hd, hm⟩ := h.published (by rw [hpc]; decide)
  obtain ⟨hreg, hadd⟩ := h.before (by rw [hpc]; exact id)
  have hattrs : s.d.registerAll.m_iotAttrs = s.d.m_iotAttrs := by rw [registerAll_eq]
  have hsh : s.d.registerAll.m_shadow = s.d.m_shadow := by rw [registerAll_eq]
  refine ⟨?_, fun _ => ⟨hd, hsh.trans hm⟩, fun hns => absurd trivial hns, fun _ hd' hm' k => ?_⟩
  · show Entered s.d.registerAll.m_iotAttrs
    rw [hattrs]
    exact h.entered
  · have hcount := timesRegistered_registerAll h.entered (hsh.symm.trans hm') hreg k
    by_cases hk : k ∈ s.d.m_iotAttrs
    · rw [if_pos hk] at hcount
      exact .registered (by rw [← hattrs] at hk; exact hk) hcount fun n => hadd n k
    · rw [if_neg hk] at hcount
      exact .absent (by rw [← hattrs] at hk; exact hk) hcount fun n => hadd n k

/-- **Every step that adds late keeps the invariant.** -/
theorem once_next {s : Startup} (h : Once s) (l : Label) (hC : AddsLate s l) (he : s.enabled l) :
    Once (s.next l) := by
  cases l with
  | setupShadow hd =>
    have hpc : s.shadow = .setupShadow := he
    obtain ⟨hreg, hadd⟩ := h.before (by rw [hpc]; exact id)
    exact ⟨h.entered, fun _ => ⟨hd, rfl⟩, fun _ => ⟨hreg, hadd⟩, fun hsw => absurd hsw id⟩
  | lock =>
    have hpc : s.shadow = .preShadow := he.1
    exact h.frame rfl rfl rfl (by rw [hpc]; rfl) (fun e => by rw [hpc] at e; cases e)
      fun _ _ => Iff.rfl
  | wait =>
    have hpc : s.shadow = .locked := he
    exact h.frame rfl rfl rfl (by rw [hpc]; rfl) (fun e => by rw [hpc] at e; cases e)
      fun _ _ => Iff.rfl
  | spurious => exact h.frame rfl rfl rfl Iff.rfl id fun _ _ => Iff.rfl
  | reacquire =>
    have hpc : s.shadow = .waiting := he.1
    exact h.frame rfl rfl rfl (by rw [hpc]; rfl) (fun e => by rw [hpc] at e; cases e)
      fun _ _ => Iff.rfl
  | unlock =>
    have hpc : s.shadow = .returned := he
    exact h.frame rfl rfl rfl (by rw [hpc]; rfl) (fun e => by rw [hpc] at e; cases e)
      fun _ _ => Iff.rfl
  | sweep => exact h.step_sweep he
  | finish =>
    have hpc : s.shadow = .swept := he
    exact h.frame rfl rfl rfl (by rw [hpc]; rfl) (fun e => by rw [hpc] at e; cases e)
      fun _ _ => Iff.rfl
  | poll n =>
    have hpc : s.client n = .polling := he
    exact h.step_client (fun _ => by rw [hpc]; exact id) (fun _ => by split <;> exact id)
      rfl rfl rfl rfl rfl
  | limit n =>
    have hpc : s.client n = .connected := he
    exact h.step_client (fun _ => by rw [hpc]; exact id) (fun _ => by split <;> exact id)
      rfl rfl rfl rfl rfl
  | create n name =>
    exact h.step_client (fun _ => by rw [he.1]; exact id) (fun _ => id) rfl rfl rfl rfl rfl
  | followProperty n c key type size mem =>
    exact h.step_client (fun _ => by rw [he.1]; exact id)
      (fun k => not_ite (P := fun pc => IsAdding pc k) id id) rfl rfl rfl rfl rfl
  | addProperty n c name type size mem =>
    have hpc : s.client n = .following c name type size mem := he
    have hold : ∀ k, ¬ IsAdding (s.client n) k := fun k => by rw [hpc]; exact id
    rcases next_addProperty s n c name type size mem with hn | ⟨a, hn, ha, hnew, hacc, hmem⟩
    · rw [hn]
      exact h.step_client hold (fun _ => id) rfl rfl rfl rfl rfl
    · rw [hn]
      exact h.step_add ha hnew (hC hnew hacc hmem) hold
  | register n c attr => exact h.step_register he
  | followCommand n c cmd => exact h.frame rfl rfl rfl Iff.rfl id fun _ _ => Iff.rfl
  | registCommandCB n c cb => exact h.frame rfl rfl rfl Iff.rfl id fun _ _ => Iff.rfl
  | registPropertyCB n c cb =>
    have hpc : s.client n = .ready c := he
    exact h.step_client (fun _ => by rw [hpc]; exact id)
      (fun k => not_ite (P := fun pc => IsAdding pc k) id id) rfl rfl rfl rfl rfl
  | lockActive n c =>
    exact h.step_client (fun _ => by rw [he.1]; exact id) (fun _ => id) rfl rfl rfl rfl rfl
  | signal n c w =>
    exact h.step_client (fun _ => by rw [he.1]; exact id) (fun _ => id) rfl rfl rfl rfl rfl
  | unlockActive n c =>
    have hpc : s.client n = .signalled c := he
    exact h.step_client (fun _ => by rw [hpc]; exact id) (fun _ => id) rfl rfl rfl rfl rfl

theorem once_reach {s : Startup} (h : machine.Reach AddsLate s) : Once s := by
  refine h.inv (I := Once) ?_ fun s l hI hC he => once_next hI l hC he
  intro s h0
  obtain ⟨reportFlag, rfl⟩ := h0
  exact once_init reportFlag

/-! ## 3. Exactly once -/

/-- Once `preShadow` has completed and no request is in progress, every attribute
    was registered for the current handle exactly once. -/
def RegisteredOnce (s : Startup) : Prop :=
  s.shadow = .done → (∀ n, (s.client n).Idle) →
    ∃ h, s.d.m_shadow = some h ∧ ∀ k ∈ s.d.m_iotAttrs, s.d.timesRegistered h k = 1

theorem idle_not_adding {pc : ClientPc} (h : pc.Idle) (k : String8) : ¬ IsAdding pc k := by
  cases pc <;> first | exact absurd h id | exact id

/-- **Exactly once on the runs that add late.** -/
theorem registered_once {s : Startup} (h : machine.Reach AddsLate s) : RegisteredOnce s := by
  intro hdone hidle
  have hO := once_reach h
  obtain ⟨hd, hm⟩ := hO.published (by rw [hdone]; decide)
  refine ⟨hd, hm, fun k hk => ?_⟩
  cases hO.after (by rw [hdone]; trivial) hd hm k with
  | absent hk' _ _ => exact absurd hk hk'
  | registered _ ht _ => exact ht
  | underway _ _ n ha => exact absurd ((ha n).mpr rfl) (idle_not_adding (hidle n) k)

/-! ## 4. Runs of one client -/

/-- The client that takes the step. -/
def Label.client : Label → Option Nat
  | .setupShadow _ | .lock | .wait | .spurious | .reacquire | .unlock | .sweep | .finish => none
  | .poll n | .limit n | .create n _ | .followProperty n _ _ _ _ _ | .addProperty n _ _ _ _ _
  | .register n _ _ | .followCommand n _ _ | .registCommandCB n _ _ | .registPropertyCB n _ _
  | .lockActive n _ | .signal n _ _ | .unlockActive n _ => some n

/-- The step is taken by the shadow thread or by client 0. -/
def OnlyFirst (_ : Startup) (l : Label) : Prop := l.client = none ∨ l.client = some 0

instance (s : Startup) (l : Label) : Decidable (OnlyFirst s l) :=
  inferInstanceAs (Decidable (_ ∨ _))

/-- A step moves nobody but the client that takes it. -/
theorem next_client (s : Startup) (l : Label) {m : Nat} (h : l.client ≠ some m) :
    (s.next l).client m = s.client m := by
  have hne : ∀ n, some n ≠ some m → m ≠ n := fun n hn e => hn (by rw [e])
  cases l with
  | setupShadow hd => rfl
  | lock => rfl
  | wait => rfl
  | spurious => rfl
  | reacquire => rfl
  | unlock => rfl
  | sweep => rfl
  | finish => rfl
  | followCommand n c cmd => rfl
  | registCommandCB n c cb => rfl
  | addProperty n c name type size mem =>
    rcases next_addProperty s n c name type size mem with hn | ⟨a, hn, -⟩
    · rw [hn]
      exact goto_ne _ (hne n h) _
    · rw [hn]
      exact goto_ne _ (hne n h) _
  | poll n => exact goto_ne _ (hne n h) _
  | limit n => exact goto_ne _ (hne n h) _
  | create n name => exact goto_ne _ (hne n h) _
  | followProperty n c key type size mem => exact goto_ne _ (hne n h) _
  | register n c attr => exact goto_ne _ (hne n h) _
  | registPropertyCB n c cb => exact goto_ne _ (hne n h) _
  | lockActive n c => exact goto_ne _ (hne n h) _
  | signal n c w => exact goto_ne _ (hne n h) _
  | unlockActive n c => exact goto_ne _ (hne n h) _

/-- Where only client 0 acts and ends idle, every client is idle. -/
theorem idle_of_first {C : Startup → Label → Prop} {s : Startup}
    (h : machine.Reach (fun s l => C s l ∧ OnlyFirst s l) s) (h0 : (s.client 0).Idle) (n : Nat) :
    (s.client n).Idle := by
  have hrest : ∀ m, m ≠ 0 → s.client m = .polling := by
    refine h.inv (I := fun s => ∀ m, m ≠ 0 → s.client m = .polling) ?_ ?_
    · intro s h0 m _
      obtain ⟨reportFlag, rfl⟩ := h0
      rfl
    · intro s l hI hC _ m hm
      have hl : l.client ≠ some m := by
        rcases hC.2 with hl | hl
        · rw [hl]
          exact fun e => by cases e
        · rw [hl]
          exact fun e => hm (Option.some.inj e).symm
      exact (next_client s l hl).trans (hI m hm)
  by_cases hn : n = 0
  · exact hn ▸ h0
  · rw [hrest n hn]
    trivial

/-- A client follows one property. -/
def follows (n : Nat) (c : ClientId) (key : String8) : List Label :=
  [.followProperty n c key IOT_PROPERTY_INT32 4 .succeed,
    .addProperty n c (cstr key) IOT_PROPERTY_INT32 4 .succeed,
    .register n c ⟨cstr key, calloc 4, .IOTX_SHADOW_INT32, .IOTX_SHADOW_RW,
      some .DS_call_default_property_cb⟩]

/-- `registered_once` for a client that follows when the start is over. -/
theorem registered_once_power : ∃ (s : Startup) (h : Handle), machine.Reach AddsLate s ∧
    s.d.m_shadow = some h ∧ s.d.timesRegistered h (lit "power") = 1 := by
  have hrun : ((machine.run (fun s l => AddsLate s l ∧ OnlyFirst s l) (init false)
      ([.setupShadow 0, .lock, .wait] ++ registers 0 0 (some .shadow) ++
        [.reacquire, .unlock, .sweep, .finish] ++ follows 0 0 (lit "power"))).map
      fun s => decide (s.shadow = .done ∧ s.client 0 = .ready 0 ∧
        lit "power" ∈ s.d.m_iotAttrs)) = some true := by decide
  have h0 : machine.init (init false) := ⟨false, rfl⟩
  obtain ⟨s, hs, hb⟩ := Machine.exists_of_run h0 hrun
  obtain ⟨hdone, h0, hk⟩ := of_decide_eq_true hb
  have hlate : machine.Reach AddsLate s := hs.mono fun _ _ hC => hC.1
  obtain ⟨h, hm, ht⟩ := registered_once hlate hdone (idle_of_first hs (by rw [h0]; trivial))
  exact ⟨s, h, hlate, hm, ht _ hk⟩

/-- **Registered twice**: the client follows while the shadow thread waits. -/
theorem registered_twice : ¬ ∀ s, machine.Reachable s → RegisteredOnce s := by
  intro hall
  have hrun : ((machine.run (fun s l => True ∧ OnlyFirst s l) (init false)
      ([.setupShadow 0, .lock, .wait, .poll 0, .limit 0, .create 0 (lit "tv")] ++
        follows 0 0 (lit "power") ++
        [.registPropertyCB 0 0 7, .lockActive 0 0, .signal 0 0 (some .shadow), .unlockActive 0 0,
          .reacquire, .unlock, .sweep, .finish])).map
      fun s => decide (s.shadow = .done ∧ s.client 0 = .ready 0 ∧ s.d.m_shadow = some 0 ∧
        lit "power" ∈ s.d.m_iotAttrs ∧ s.d.timesRegistered 0 (lit "power") = 2)) = some true := by
    decide
  have h0 : machine.init (init false) := ⟨false, rfl⟩
  obtain ⟨s, hs, hb⟩ := Machine.exists_of_run h0 hrun
  obtain ⟨hdone, h0, hm, hk, ht⟩ := of_decide_eq_true hb
  obtain ⟨h, hm', ht'⟩ := hall s (hs.mono fun _ _ _ => trivial) hdone
    (idle_of_first (C := fun _ _ => True) hs (by rw [h0]; trivial))
  obtain rfl := Option.some.inj (hm.symm.trans hm')
  have h1 := ht' _ hk
  rw [ht] at h1
  cases h1

end Startup

end IotWrap
