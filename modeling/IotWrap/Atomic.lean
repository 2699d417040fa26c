/-
  File:      IotWrap/Atomic.lean
  Subject:   The steps of `pushProperties` and of `doReportProperty`, taken without a
             step of another thread in between, against the functions as a whole.

  `Reporting` cuts both functions into their steps; `DeviceShadow.pushProperties`
  and `DeviceShadow.doReportProperty` are the functions. `PushAt` and `CallAt` say
  what has been done at each place of the two.

  * `pushProperties_atomic`, `doReportProperty_atomic`: the undisturbed runs end in
    what the function leaves, and in nothing else;
  * `outcomes_forgotten`: whatever the pushes of the calls returned, after
    a successful `pushProperties` the server and the cloud are the same.
-/
import IotWrap.Delivered

namespace IotWrap

open Lib
open DeviceShadow (FormatData pushFormatAdd)

namespace Reporting

open DeviceShadow

/-- What the cloud may have after a push that returned `ret`: it received the payload,
    or the push failed. -/
def Received (cloud : String8 → Option PropValue) (payload : FormatData) (ret : Int)
    (cloud' : String8 → Option PropValue) : Prop :=
  cloud' = receive cloud payload ∨ (ret ≠ 0 ∧ cloud' = cloud)

/-! ## 1. pushProperties -/

/-- The steps of `pushProperties`, with the results of its Adds and of its push. -/
def PushSteps (rc : String8 → Int) (ret : Int) : Label → Prop
  | .readFlag | .readForce | .clearFlag | .clearForce => True
  | .pass rc' => rc' = rc
  | .push _ ret' _ => ret' = ret
  | _ => False

/-- One of the two flags that let `pushProperties` go on. -/
def Raised (d : DeviceShadow) : Prop := d.m_reportFlag = true ∨ d.g_forceReport = true

instance (d : DeviceShadow) : Decidable (Raised d) := inferInstanceAs (Decidable (_ ∨ _))

/-- What the cloud may have after the pass and its push. -/
def Sent (s : Reporting) (rc : String8 → Int) (ret : Int) (cloud : String8 → Option PropValue) :
    Prop :=
  match s.d.passPayload rc with
  | none => cloud = s.cloud
  | some payload => Received s.cloud payload ret cloud

/-- **What has been done since `s`**, at each place of `pushProperties`. -/
def PushAt (s : Reporting) (rc : String8 → Int) (ret : Int) (d : DeviceShadow)
    (cloud : String8 → Option PropValue) : LoopPc → Prop
  | .toPush => d = s.d ∧ cloud = s.cloud
  | .flagRead => d = s.d ∧ cloud = s.cloud ∧ s.d.m_reportFlag = false
  | .go => d = s.d ∧ cloud = s.cloud ∧ Raised s.d
  | .pushing payload half =>
    d = s.d.passClear ∧ cloud = s.cloud ∧ Raised s.d ∧ s.d.passPayload rc = some payload ∧
      half = false
  | .pushed => d = s.d.passClear ∧ Raised s.d ∧ Sent s rc ret cloud
  | .flagCleared =>
    d = { s.d.passClear with m_reportFlag := false } ∧ Raised s.d ∧ Sent s rc ret cloud
  | .head =>
    d = (s.d.pushProperties rc ret).2 ∧
      ((¬ Raised s.d ∧ cloud = s.cloud) ∨ (Raised s.d ∧ Sent s rc ret cloud))
  | _ => False

theorem pushProperties_raised {d : DeviceShadow} (h : Raised d) (rc : String8 → Int) (ret : Int) :
    (d.pushProperties rc ret).2 =
      { d.passClear with m_reportFlag := false, g_forceReport := false } := by
  have hn : (!d.m_reportFlag && !d.g_forceReport) = false := by
    rcases h with h | h <;> simp [h]
  simp only [pushProperties, hn]
  rfl

theorem pushAt_next {s t : Reporting} {rc : String8 → Int} {ret : Int}
    (h : PushAt s rc ret t.d t.cloud t.loop) {l : Label} (hC : PushSteps rc ret l)
    (he : t.enabled l) : PushAt s rc ret (t.next l).d (t.next l).cloud (t.next l).loop := by
  cases l with
  | readFlag =>
    rw [show t.loop = .toPush from he] at h
    obtain ⟨hd, hc⟩ := h
    simp only [next, hd]
    cases hf : s.d.m_reportFlag with
    | true => exact ⟨rfl, hc, .inl hf⟩
    | false => exact ⟨rfl, hc, hf⟩
  | readForce =>
    rw [show t.loop = .flagRead from he] at h
    obtain ⟨hd, hc, hf⟩ := h
    simp only [next, hd]
    cases hg : s.d.g_forceReport with
    | true => exact ⟨rfl, hc, .inr hg⟩
    | false =>
      refine ⟨?_, .inl ⟨?_, hc⟩⟩
      · rw [pushProperties_idle hf hg]
      · rintro (hr | hr)
        · rw [hf] at hr
          cases hr
        · rw [hg] at hr
          cases hr
  | pass rc' =>
    rw [show t.loop = .go from he] at h
    obtain ⟨hd, hc, hr⟩ := h
    obtain rfl : rc' = rc := hC
    simp only [next, hd]
    cases hp : s.d.passPayload rc' with
    | none => exact ⟨rfl, hr, by rw [Sent, hp]; exact hc⟩
    | some payload => exact ⟨rfl, hc, hr, hp, rfl⟩
  | push payload ret' received =>
    rw [show t.loop = .pushing payload false from he.1] at h
    obtain ⟨hd, hc, hr, hp, -⟩ := h
    obtain rfl : ret' = ret := hC
    refine ⟨hd, hr, ?_⟩
    rw [Sent, hp]
    show Received s.cloud payload ret' (if received then receive t.cloud payload else t.cloud)
    cases hrec : received with
    | true => exact .inl (by rw [if_pos rfl, hc])
    | false =>
      refine .inr ⟨fun h0 => ?_, hc⟩
      have htrue := he.2 h0
      rw [hrec] at htrue
      cases htrue
  | clearFlag =>
    rw [show t.loop = .pushed from he] at h
    obtain ⟨hd, hr, hs⟩ := h
    exact ⟨by rw [← hd]; rfl, hr, hs⟩
  | clearForce =>
    rw [show t.loop = .flagCleared from he] at h
    obtain ⟨hd, hr, hs⟩ := h
    refine ⟨?_, .inr ⟨hr, hs⟩⟩
    rw [pushProperties_raised hr]
    show { t.d with g_forceReport := false } = _
    rw [hd]
  | _ => exact absurd hC id

/-- From `s` on, the steps of `pushProperties` only. -/
abbrev Pushing (s : Reporting) (rc : String8 → Int) (ret : Int) : Reporting → Prop :=
  (machine.after s).Reach fun _ l => PushSteps rc ret l

theorem pushAt_reach {s t : Reporting} {rc : String8 → Int} {ret : Int} (hs : s.loop = .toPush)
    (h : Pushing s rc ret t) : PushAt s rc ret t.d t.cloud t.loop := by
  refine h.inv (I := fun t => PushAt s rc ret t.d t.cloud t.loop) ?_
    fun t l hI hC he => pushAt_next hI hC he
  rintro t rfl
  rw [hs]
  exact ⟨rfl, rfl⟩

theorem Pushing.next {s t : Reporting} {rc : String8 → Int} {ret : Int} (h : Pushing s rc ret t)
    {l : Label} (hC : PushSteps rc ret l) (he : t.enabled l) : Pushing s rc ret (t.next l) :=
  .step t l h hC he

/-- Where a flag is up the thread comes to its pass. -/
theorem pushing_go {s : Reporting} {rc : String8 → Int} {ret : Int} (hs : s.loop = .toPush)
    (hr : Raised s.d) : Pushing s rc ret { s with loop := .go } := by
  have h₀ : Pushing s rc ret s := .init s rfl
  have h₁ := h₀.next (l := .readFlag) trivial hs
  cases hf : s.d.m_reportFlag with
  | true =>
    simp only [Reporting.next, hf, if_true] at h₁
    exact h₁
  | false =>
    simp only [Reporting.next, hf, Bool.false_eq_true, if_false] at h₁
    have h₂ := h₁.next (l := .readForce) trivial rfl
    have hg : s.d.g_forceReport = true := hr.resolve_left (by rw [hf]; decide)
    simp only [Reporting.next, hg, if_true] at h₂
    exact h₂

/-- Where none is, it goes back to the loop head. -/
theorem pushing_skip {s : Reporting} {rc : String8 → Int} {ret : Int} (hs : s.loop = .toPush)
    (hr : ¬ Raised s.d) : Pushing s rc ret { s with loop := .head } := by
  have hf : s.d.m_reportFlag = false := Bool.eq_false_iff.mpr fun h => hr (.inl h)
  have hg : s.d.g_forceReport = false := Bool.eq_false_iff.mpr fun h => hr (.inr h)
  have h₀ : Pushing s rc ret s := .init s rfl
  have h₁ := h₀.next (l := .readFlag) trivial hs
  simp only [Reporting.next, hf, Bool.false_eq_true, if_false] at h₁
  have h₂ := h₁.next (l := .readForce) trivial rfl
  simp only [Reporting.next, hg, Bool.false_eq_true, if_false] at h₂
  exact h₂

/-- From the pass on the thread can leave the cloud with whatever the push may do. -/
theorem pushing_sent {s : Reporting} {rc : String8 → Int} {ret : Int} (hs : s.loop = .toPush)
    (hr : Raised s.d) {cloud : String8 → Option PropValue} (hc : Sent s rc ret cloud) :
    ∃ t, Pushing s rc ret t ∧ t.loop = .pushed ∧ t.cloud = cloud := by
  have h₀ : Pushing s rc ret { s with loop := .go } := pushing_go hs hr
  have h₁ := h₀.next (l := .pass rc) rfl rfl
  unfold Sent at hc
  cases hp : s.d.passPayload rc with
  | none =>
    rw [hp] at hc
    simp only [Reporting.next, hp] at h₁
    exact ⟨_, h₁, rfl, hc.symm⟩
  | some payload =>
    rw [hp] at hc
    simp only [Reporting.next, hp] at h₁
    rcases hc with hc | ⟨hret, hc⟩
    · have h₂ := h₁.next (l := .push payload ret true) rfl ⟨rfl, fun _ => rfl⟩
      exact ⟨_, h₂, rfl, hc.symm⟩
    · have h₂ := h₁.next (l := .push payload ret false) rfl ⟨rfl, fun h => absurd h hret⟩
      exact ⟨_, h₂, rfl, hc.symm⟩

/-- **`pushProperties` is its undisturbed runs.** They end in what the function leaves
    of the server, and with the cloud as the push may leave it, and in nothing else. -/
theorem pushProperties_atomic {s : Reporting} (hs : s.loop = .toPush) (rc : String8 → Int)
    (ret : Int) (d : DeviceShadow) (cloud : String8 → Option PropValue) :
    (∃ t, Pushing s rc ret t ∧ t.loop = .head ∧ t.d = d ∧ t.cloud = cloud) ↔
      d = (s.d.pushProperties rc ret).2 ∧
        ((¬ Raised s.d ∧ cloud = s.cloud) ∨ (Raised s.d ∧ Sent s rc ret cloud)) := by
  constructor
  · rintro ⟨t, ht, hhead, rfl, rfl⟩
    have hat := pushAt_reach hs ht
    rw [hhead] at hat
    exact hat
  · rintro ⟨rfl, hcloud⟩
    have hend : ∃ t, Pushing s rc ret t ∧ t.loop = .head ∧ t.cloud = cloud := by
      rcases hcloud with ⟨hr, rfl⟩ | ⟨hr, hc⟩
      · exact ⟨_, pushing_skip hs hr, rfl, rfl⟩
      · obtain ⟨t, ht, hpushed, rfl⟩ := pushing_sent hs hr hc
        have h₁ := ht.next (l := .clearFlag) trivial hpushed
        have h₂ := h₁.next (l := .clearForce) trivial rfl
        exact ⟨_, h₂, rfl, rfl⟩
    obtain ⟨t, ht, hhead, rfl⟩ := hend
    have hat := pushAt_reach hs ht
    rw [hhead] at hat
    exact ⟨t, ht, hhead, hat.1, rfl⟩

/-- `pushProperties_atomic` for one reported property and a push that succeeds. -/
theorem pushProperties_atomic_one : ∃ t,
    Pushing { init false with d := oneReported, loop := .toPush } (fun _ => 0) 0 t ∧
      t.loop = .head ∧ t.d = (oneReported.pushProperties (fun _ => 0) 0).2 ∧
      t.cloud = receive (fun _ => none) [(lit "power", .int32 1)] := by
  have hp : oneReported.passPayload (fun _ => 0) = some [(lit "power", .int32 1)] := by decide
  have hr : Raised oneReported := by decide
  refine (pushProperties_atomic (s := { init false with d := oneReported, loop := .toPush }) rfl
    (fun _ => 0) 0 _ _).mpr ⟨rfl, .inr ⟨hr, ?_⟩⟩
  show Sent _ _ _ _
  unfold Sent
  rw [show ({ init false with d := oneReported, loop := .toPush } : Reporting).d = oneReported from
    rfl, hp]
  exact .inl rfl

/-! ## 2. doReportProperty -/

/-- The steps of call `n` after its write, with the results of its Add and of its push. -/
def CallSteps (n : Nat) (rc ret : Int) : Label → Prop
  | .setFlag m _ => m = n
  | .format m _ rc' => m = n ∧ rc' = rc
  | .pushCall m _ _ ret' _ => m = n ∧ ret' = ret
  | .finish m _ _ _ => m = n
  | _ => False

/-- What the cloud may have after a call that left `d` under the lock, accepted or not. -/
def CallSent (cloud : String8 → Option PropValue) (key : String8) (rc ret : Int)
    (locked : Bool × DeviceShadow) (cloud' : String8 → Option PropValue) : Prop :=
  match locked.1, locked.2.m_shadow, locked.2.m_iotAttrs[key]? with
  | true, some _, some a => Received cloud (pushFormatAdd rc [] a.attr) ret cloud'
  | _, _, _ => cloud' = cloud

/-- **What has been done since `s`**, at each place of `doReportProperty` on `key`. -/
def CallAt (s : Reporting) (key val : String8) (rc ret : Int) (d : DeviceShadow)
    (cloud : String8 → Option PropValue) : CallPc → Prop
  | .idle =>
    d = (s.d.doReportProperty key val ret).2 ∧
      CallSent s.cloud key rc ret (s.d.reportLocked key val) cloud
  | .written k => k = key ∧ s.d.reportLocked key val = (true, d) ∧ cloud = s.cloud
  | .flagged k =>
    k = key ∧ cloud = s.cloud ∧ ∃ d', s.d.reportLocked key val = (true, d') ∧
      d = { d' with m_reportFlag := true }
  | .pushing k payload half =>
    k = key ∧ half = false ∧ cloud = s.cloud ∧ ∃ d' h a, s.d.reportLocked key val = (true, d') ∧
      d = { d' with m_reportFlag := true } ∧ d'.m_shadow = some h ∧
        d'.m_iotAttrs[key]? = some a ∧ payload = pushFormatAdd rc [] a.attr
  | .pushed k payload ret' =>
    k = key ∧ ret' = ret ∧ ∃ d' h a, s.d.reportLocked key val = (true, d') ∧
      d = { d' with m_reportFlag := true } ∧ d'.m_shadow = some h ∧
        d'.m_iotAttrs[key]? = some a ∧ payload = pushFormatAdd rc [] a.attr ∧
          Received s.cloud payload ret cloud

theorem callSent_of_push {cloud cloud' : String8 → Option PropValue} {key : String8} {rc ret : Int}
    {d : DeviceShadow} {h : Handle} {a : DSAttr} (hsh : d.m_shadow = some h)
    (ha : d.m_iotAttrs[key]? = some a) :
    CallSent cloud key rc ret (true, d) cloud' ↔
      Received cloud (pushFormatAdd rc [] a.attr) ret cloud' := by
  simp only [CallSent, hsh, ha]

theorem callSent_of_idle {cloud cloud' : String8 → Option PropValue} {key : String8} {rc ret : Int}
    {locked : Bool × DeviceShadow} (h : locked.1 = false ∨ locked.2.m_shadow = none) :
    CallSent cloud key rc ret locked cloud' ↔ cloud' = cloud := by
  unfold CallSent
  rcases h with h | h
  · rw [h]
  · rw [h]
    cases locked.1 <;> rfl

/-- What `doReportProperty` leaves after its locked section, where there is a shadow. -/
theorem doReportProperty_push {d d' : DeviceShadow} {key val : String8} {h : Handle}
    (hl : d.reportLocked key val = (true, d')) (hsh : d'.m_shadow = some h) (ret : Int) :
    (d.doReportProperty key val ret).2 =
      if ret = 0 then setReport { d' with m_reportFlag := true } key false
      else { d' with m_reportFlag := true } := by
  have hsome : d'.m_shadow.isSome = true := by rw [hsh]; rfl
  unfold doReportProperty
  rw [hl]
  by_cases hret : ret = 0
  · rw [if_pos hret]
    exact if_pos ⟨hsome, hret⟩
  · rw [if_neg hret]
    exact if_neg fun h => hret h.2

/-- And where there is none. -/
theorem doReportProperty_early {d d' : DeviceShadow} {key val : String8}
    (hl : d.reportLocked key val = (true, d')) (hsh : d'.m_shadow = none) (ret : Int) :
    (d.doReportProperty key val ret).2 = { d' with m_reportFlag := true } := by
  unfold doReportProperty
  rw [hl]
  refine if_neg fun h => ?_
  have hsome : d'.m_shadow.isSome = true := h.1
  rw [hsh] at hsome
  cases hsome

/-- What was accepted is in the table. -/
theorem reportLocked_get {d d' : DeviceShadow} {key val : String8}
    (h : d.reportLocked key val = (true, d')) : ∃ a, d'.m_iotAttrs[key]? = some a := by
  unfold reportLocked at h
  split at h
  · cases h
  · split at h
    · cases h
    · obtain ⟨-, rfl⟩ := Prod.mk.inj h
      exact ⟨_, by rw [get_insert, if_pos rfl]⟩

theorem callAt_next {s t : Reporting} {key val : String8} {n : Nat} {rc ret : Int}
    (h : CallAt s key val rc ret t.d t.cloud (t.call n)) {l : Label} (hC : CallSteps n rc ret l)
    (he : t.enabled l) :
    CallAt s key val rc ret (t.next l).d (t.next l).cloud ((t.next l).call n) := by
  cases l with
  | setFlag m k =>
    obtain rfl : m = n := hC
    rw [show t.call m = .written k from he] at h
    obtain ⟨rfl, hl, hc⟩ := h
    simp only [next, goto_self]
    exact ⟨rfl, hc, t.d, hl, rfl⟩
  | format m k rc' =>
    obtain ⟨rfl, rfl⟩ := hC
    rw [show t.call m = .flagged k from he] at h
    obtain ⟨rfl, hc, d', hl, hd⟩ := h
    obtain ⟨a, ha⟩ := reportLocked_get hl
    simp only [next, goto_self]
    have ha' : t.d.m_iotAttrs[k]? = some a := by rw [hd]; exact ha
    rw [ha']
    cases hsh : t.d.m_shadow with
    | some h =>
      have hsh' : d'.m_shadow = some h := by rw [hd] at hsh; exact hsh
      exact ⟨rfl, rfl, hc, d', h, a, hl, hd, hsh', ha, rfl⟩
    | none =>
      have hsh' : d'.m_shadow = none := by rw [hd] at hsh; exact hsh
      refine ⟨?_, ?_⟩
      · rw [doReportProperty_early hl hsh']
        exact hd
      · rw [callSent_of_idle (.inr (by rw [hl]; exact hsh'))]
        exact hc
  | pushCall m k payload ret' received =>
    obtain ⟨rfl, rfl⟩ := hC
    rw [show t.call m = .pushing k payload false from he.1] at h
    obtain ⟨rfl, -, hc, d', hd, a, hl, he', hsh, ha, hp⟩ := h
    simp only [next, goto_self]
    refine ⟨rfl, rfl, d', hd, a, hl, he', hsh, ha, hp, ?_⟩
    show Received s.cloud payload ret' (if received then receive t.cloud payload else t.cloud)
    cases hrec : received with
    | true => exact .inl (by rw [if_pos rfl, hc])
    | false =>
      refine .inr ⟨fun h0 => ?_, hc⟩
      have htrue := he.2 h0
      rw [hrec] at htrue
      cases htrue
  | finish m k payload ret' =>
    obtain rfl : m = n := hC
    rw [show t.call m = .pushed k payload ret' from he] at h
    obtain ⟨rfl, rfl, d', hd, a, hl, he', hsh, ha, rfl, hs⟩ := h
    simp only [next, goto_self]
    refine ⟨?_, ?_⟩
    · rw [doReportProperty_push hl hsh]
      show (if ret' = 0 then t.d.setReport k false else t.d) = _
      rw [he']
    · rw [hl, callSent_of_push hsh ha]
      exact hs
  | _ => exact absurd hC id

/-- The call `n` writes and then takes its own steps only. -/
abbrev Calling (s : Reporting) (n : Nat) (key val : String8) (rc ret : Int) : Reporting → Prop :=
  (machine.after (s.next (.write n key val))).Reach fun _ l => CallSteps n rc ret l

theorem callAt_write {s : Reporting} {n : Nat} (key val : String8) (rc ret : Int) :
    CallAt s (cstr key) val rc ret (s.next (.write n key val)).d (s.next (.write n key val)).cloud
      ((s.next (.write n key val)).call n) := by
  rcases hl : s.d.reportLocked (cstr key) val with ⟨ok, d'⟩
  have hcall : (s.next (.write n key val)).call n = if ok then .written (cstr key) else .idle := by
    simp only [next, hl]
    exact goto_self _ n _
  have hd : (s.next (.write n key val)).d = d' := by
    simp only [next, hl]
    rfl
  rw [hcall, hd]
  cases ok with
  | true => exact ⟨rfl, hl, rfl⟩
  | false =>
    refine ⟨?_, ?_⟩
    · unfold doReportProperty
      rw [hl]
    · rw [hl, callSent_of_idle (.inl rfl)]
      rfl

theorem callAt_reach {s t : Reporting} {n : Nat} {key val : String8} {rc ret : Int}
    (h : Calling s n key val rc ret t) :
    CallAt s (cstr key) val rc ret t.d t.cloud (t.call n) := by
  refine h.inv (I := fun t => CallAt s (cstr key) val rc ret t.d t.cloud (t.call n)) ?_
    fun t l hI hC he => callAt_next hI hC he
  rintro t rfl
  exact callAt_write key val rc ret

theorem Calling.next {s t : Reporting} {n : Nat} {key val : String8} {rc ret : Int}
    (h : Calling s n key val rc ret t) {l : Label} (hC : CallSteps n rc ret l) (he : t.enabled l) :
    Calling s n key val rc ret (t.next l) := .step t l h hC he

/-- An accepted call comes to where it has read the attribute. -/
theorem calling_format {s : Reporting} {n : Nat} {key val : String8} {d' : DeviceShadow}
    (hl : s.d.reportLocked (cstr key) val = (true, d')) (rc ret : Int) :
    ∃ t, Calling s n key val rc ret t ∧ t.d = { d' with m_reportFlag := true } ∧
      t.cloud = s.cloud ∧ t.call n = match d'.m_shadow, d'.m_iotAttrs[cstr key]? with
        | some _, some a => .pushing (cstr key) (pushFormatAdd rc [] a.attr) false
        | _, _ => .idle := by
  have h₀ : Calling s n key val rc ret (s.next (.write n key val)) := .init _ rfl
  have hwritten : (s.next (.write n key val)).call n = .written (cstr key) := by
    simp only [Reporting.next, hl]
    exact goto_self _ n _
  have hd : (s.next (.write n key val)).d = d' := by
    simp only [Reporting.next, hl]
    rfl
  have h₁ := h₀.next (l := .setFlag n (cstr key)) rfl hwritten
  have h₂ := h₁.next (l := .format n (cstr key) rc) ⟨rfl, rfl⟩ (goto_self _ n _)
  refine ⟨_, h₂, ?_, rfl, ?_⟩
  · rw [← hd]
    rfl
  · simp only [Reporting.next, goto_self]
    rw [← hd]
    rfl

/-- **`doReportProperty` is its undisturbed runs.** -/
theorem doReportProperty_atomic (s : Reporting) (n : Nat) (key val : String8) (rc ret : Int)
    (d : DeviceShadow) (cloud : String8 → Option PropValue) :
    (∃ t, Calling s n key val rc ret t ∧ t.call n = .idle ∧ t.d = d ∧ t.cloud = cloud) ↔
      d = (s.d.doReportProperty (cstr key) val ret).2 ∧
        CallSent s.cloud (cstr key) rc ret (s.d.reportLocked (cstr key) val) cloud := by
  constructor
  · rintro ⟨t, ht, hidle, rfl, rfl⟩
    have hat := callAt_reach ht
    rw [hidle] at hat
    exact hat
  · rintro ⟨rfl, hcloud⟩
    have hend : ∃ t, Calling s n key val rc ret t ∧ t.call n = .idle ∧ t.cloud = cloud := by
      rcases hl : s.d.reportLocked (cstr key) val with ⟨ok, d'⟩
      rw [hl] at hcloud
      cases ok with
      | false =>
        refine ⟨_, .init _ rfl, ?_, ?_⟩
        · simp only [Reporting.next, hl]
          exact goto_self _ n _
        · rw [callSent_of_idle (.inl rfl)] at hcloud
          exact hcloud.symm
      | true =>
        obtain ⟨t, ht, hd, hc, hcall⟩ := calling_format (n := n) hl rc ret
        obtain ⟨a, ha⟩ := reportLocked_get hl
        cases hsh : d'.m_shadow with
        | none =>
          rw [hsh] at hcall
          rw [callSent_of_idle (.inr hsh)] at hcloud
          exact ⟨t, ht, hcall, hc.trans hcloud.symm⟩
        | some h =>
          rw [hsh, ha] at hcall
          rw [callSent_of_push hsh ha] at hcloud
          rcases hcloud with rfl | ⟨hret, rfl⟩
          · have h₁ := ht.next (l := .pushCall n (cstr key) _ ret true) ⟨rfl, rfl⟩
              ⟨hcall, fun _ => rfl⟩
            have h₂ := h₁.next (l := .finish n (cstr key) _ ret) rfl (goto_self _ n _)
            exact ⟨_, h₂, goto_self _ n _, by rw [← hc]; rfl⟩
          · have h₁ := ht.next (l := .pushCall n (cstr key) _ ret false) ⟨rfl, rfl⟩
              ⟨hcall, fun h => absurd h hret⟩
            have h₂ := h₁.next (l := .finish n (cstr key) _ ret) rfl (goto_self _ n _)
            exact ⟨_, h₂, goto_self _ n _, hc⟩
    obtain ⟨t, ht, hidle, rfl⟩ := hend
    have hat := callAt_reach ht
    rw [hidle] at hat
    exact ⟨t, ht, hidle, hat.1, rfl⟩

/-! ## 3. Calls one after the other -/

/-- The server and the cloud. -/
structure Both where
  d : DeviceShadow
  cloud : String8 → Option PropValue

namespace Both

/-- A whole call, whose push returns `ret`. Where that is 0, its Add returned 0 before. -/
def Called (b : Both) (key val : String8) (ret : Int) (b' : Both) : Prop :=
  b'.d = (b.d.doReportProperty key val ret).2 ∧ ∃ rc, (ret = 0 → rc = 0) ∧
    CallSent b.cloud key rc ret (b.d.reportLocked key val) b'.cloud

/-- Calls one after the other, whatever their pushes return. -/
inductive Calls : Both → List (String8 × String8) → Both → Prop where
  | nil (b : Both) : Calls b [] b
  | cons {b b₁ b' : Both} {key val : String8} {ret : Int} {rest : List (String8 × String8)}
      (hcall : b.Called (cstr key) val ret b₁) (hrest : Calls b₁ rest b') :
      Calls b ((key, val) :: rest) b'

/-- A call whose push fails, and the cloud received nothing. -/
def defer (b : Both) (key val : String8) : Both :=
  { b with d := (b.d.doReportProperty key val (-1)).2 }

/-- All pushes of the calls fail. -/
def deferred (b : Both) (reports : List (String8 × String8)) : Both :=
  reports.foldl (fun b r => b.defer (cstr r.1) r.2) b

/-- `pushProperties`, whose Adds and push succeed. -/
def settle (b : Both) : Both where
  d := (b.d.pushProperties (fun _ => 0) 0).2
  cloud :=
    if Raised b.d then
      match b.d.passPayload fun _ => 0 with
      | none => b.cloud
      | some payload => receive b.cloud payload
    else b.cloud

/-- The same server, with another value for the report flags of the table. -/
structure SameServer (d d' : DeviceShadow) : Prop where
  service : d'.toIOTService = d.toIOTService
  reportFlag : d'.m_reportFlag = d.m_reportFlag
  forceReport : d'.g_forceReport = d.g_forceReport
  shadow : d'.m_shadow = d.m_shadow
  reportPeriod : d'.m_reportPeriod = d.m_reportPeriod
  registered : d'.registered = d.registered

theorem SameServer.rfl (d : DeviceShadow) : SameServer d d :=
  ⟨Eq.refl _, Eq.refl _, Eq.refl _, Eq.refl _, Eq.refl _, Eq.refl _⟩

/-- One attribute, with pushes that may have succeeded (`a'`) against none (`a`):
    where only the first has its flag down the cloud has the value. -/
structure AttrAhead (a a' : DSAttr) (c c' : Option PropValue) : Prop where
  attr : a'.attr = a.attr
  isLocal : a'.isLocal = a.isLocal
  report : a'.report = true → a.report = true
  landed : a.report = true → a'.report = false → c' = some a.attr.value
  cloud : a.report = false → c' = c

/-- **Pushes that may have succeeded, against none.** -/
structure Ahead (b b' : Both) : Prop where
  server : SameServer b.d b'.d
  attrs : ∀ k : String8, (b.d.m_iotAttrs[k]? = none ∧ b'.d.m_iotAttrs[k]? = none ∧
      b'.cloud k = b.cloud k) ∨
    ∃ a a', b.d.m_iotAttrs[k]? = some a ∧ b'.d.m_iotAttrs[k]? = some a' ∧
      AttrAhead a a' (b.cloud k) (b'.cloud k)
  quiet : ¬ Raised b.d → (∀ k : String8, b'.d.m_iotAttrs[k]? = b.d.m_iotAttrs[k]?) ∧
    b'.cloud = b.cloud

theorem ahead_rfl (b : Both) : Ahead b b where
  server := .rfl b.d
  attrs k := by
    cases ha : b.d.m_iotAttrs[k]? with
    | none => exact .inl ⟨rfl, rfl, rfl⟩
    | some a =>
      refine .inr ⟨a, a, rfl, rfl, rfl, rfl, id, fun h h' => ?_, fun _ => rfl⟩
      rw [h] at h'
      cases h'
  quiet _ := ⟨fun _ => rfl, rfl⟩

/-- The server changes in its table and in `m_reportFlag` only. -/
structure Wrote (d d' : DeviceShadow) : Prop where
  service : d'.toIOTService = d.toIOTService
  reportFlag : d'.m_reportFlag = true
  forceReport : d'.g_forceReport = d.g_forceReport
  shadow : d'.m_shadow = d.m_shadow
  reportPeriod : d'.m_reportPeriod = d.m_reportPeriod
  registered : d'.registered = d.registered

/-- The locked section of an accepted call. -/
theorem reportLocked_accepts {d : DeviceShadow} {key val : String8} {a : DSAttr} {data : Bytes}
    (ha : d.m_iotAttrs[key]? = some a) (hdata : reportData a.attr val = some data) :
    ∃ d', d.reportLocked key val = (true, d') ∧ SameServer d d' ∧ ∀ k : String8,
      d'.m_iotAttrs[k]? =
        if key = k then some ({ a with report := true }.setData data) else d.m_iotAttrs[k]? := by
  refine ⟨{ d with m_iotAttrs := d.m_iotAttrs.insert key ({ a with report := true }.setData data) },
    ?_, ⟨rfl, rfl, rfl, rfl, rfl, rfl⟩, fun k => get_insert _ _ _ _⟩
  unfold reportLocked
  rw [ha]
  simp only [hdata]

theorem reportLocked_unknown {d : DeviceShadow} {key val : String8}
    (ha : d.m_iotAttrs[key]? = none) : d.reportLocked key val = (false, d) := by
  unfold reportLocked
  rw [ha]

theorem SameServer.wrote {d d' d'' : DeviceShadow} (h : SameServer d d')
    (h' : SameServer { d' with m_reportFlag := true } d'') : Wrote d d'' where
  service := h'.service.trans h.service
  reportFlag := h'.reportFlag
  forceReport := h'.forceReport.trans h.forceReport
  shadow := h'.shadow.trans h.shadow
  reportPeriod := h'.reportPeriod.trans h.reportPeriod
  registered := h'.registered.trans h.registered

theorem mem_pushFormatAdd {rc : Int} {a : ShadowAttr} {e : String8 × PropValue}
    (h : e ∈ pushFormatAdd rc [] a) : a.pattr_name = e.1 := by
  unfold pushFormatAdd at h
  split at h
  · exact (congrArg Prod.fst (List.mem_singleton.mp h)).symm
  · cases h

/-- What the cloud received of a call that carries one value. -/
theorem received_single {cloud cloud' : String8 → Option PropValue} {key : String8} {a : ShadowAttr}
    {rc ret : Int} (hrc : ret = 0 → rc = 0) (hname : a.pattr_name = key)
    (h : Received cloud (pushFormatAdd rc [] a) ret cloud') :
    (∀ k, key ≠ k → cloud' k = cloud k) ∧ (ret = 0 → cloud' key = some a.value) := by
  rcases h with rfl | ⟨hret, rfl⟩
  · refine ⟨fun k hk => ?_, fun hret => ?_⟩
    · rcases receive_cases cloud (pushFormatAdd rc [] a) k with ⟨v, hv, -⟩ | ⟨-, e⟩
      · exact absurd (hname.symm.trans (mem_pushFormatAdd hv)) hk
      · exact e
    · have hp : pushFormatAdd rc [] a = [(key, a.value)] := by
        rw [pushFormatAdd, if_pos (hrc hret), hname]
        rfl
      exact receive_mem (single_add rc a) (by rw [hp]; exact List.mem_cons_self)
  · exact ⟨fun _ _ => rfl, fun h0 => absurd h0 hret⟩

/-- **What a whole call does**: nothing to an unknown name; else it writes the value,
    and its report flag stays up unless its push returned 0. -/
theorem Called.cases {b b' : Both} {key val : String8} {ret : Int} (hE : Entered b.d.m_iotAttrs)
    (h : b.Called key val ret b') :
    (b.d.m_iotAttrs[key]? = none ∧ b' = b) ∨
      ∃ (a : DSAttr) (data : Bytes) (report : Bool), b.d.m_iotAttrs[key]? = some a ∧
        reportData a.attr val = some data ∧ Wrote b.d b'.d ∧
        (∀ k : String8, b'.d.m_iotAttrs[k]? =
          if key = k then some ({ a with report := report }.setData data)
          else b.d.m_iotAttrs[k]?) ∧
        (∀ k, key ≠ k → b'.cloud k = b.cloud k) ∧ (ret ≠ 0 → report = true) ∧
        (report = false → b'.cloud key = some (a.setData data).attr.value) := by
  obtain ⟨hd, rc, hrc, hc⟩ := h
  cases ha : b.d.m_iotAttrs[key]? with
  | none =>
    rw [reportLocked_unknown ha, callSent_of_idle (.inl rfl)] at hc
    rw [doReportProperty, reportLocked_unknown ha] at hd
    refine .inl ⟨rfl, ?_⟩
    obtain ⟨d', cloud'⟩ := b'
    obtain rfl : d' = b.d := hd
    obtain rfl : cloud' = b.cloud := hc
    rfl
  | some a =>
    obtain ⟨data, hdata⟩ : ∃ data, reportData a.attr val = some data := by
      unfold reportData
      rcases (hE key a ha).type with ht | ht
      · exact ⟨_, by rw [ht]⟩
      · exact ⟨_, by rw [ht]⟩
    obtain ⟨d₁, hl, hsame, hget⟩ := reportLocked_accepts ha hdata
    have hkey : d₁.m_iotAttrs[key]? = some ({ a with report := true }.setData data) := by
      rw [hget, if_pos rfl]
    rw [hl] at hc
    cases hsh : d₁.m_shadow with
    | none =>
      rw [doReportProperty_early hl hsh] at hd
      rw [callSent_of_idle (.inr hsh)] at hc
      refine .inr ⟨a, data, true, rfl, hdata, ?_, fun k => ?_, fun k _ => by rw [hc], fun _ => rfl,
        fun h => by cases h⟩
      · exact hd ▸ hsame.wrote (.rfl _)
      · rw [hd]
        exact hget k
    | some hnd =>
      rw [doReportProperty_push hl hsh] at hd
      rw [callSent_of_push hsh hkey] at hc
      obtain ⟨hother, hown⟩ := received_single
        (a := ({ a with report := true }.setData data).attr) hrc (hE key a ha).name hc
      by_cases hret : ret = 0
      · rw [if_pos hret] at hd
        refine .inr ⟨a, data, false, rfl, hdata, ?_, fun k => ?_, hother, fun h => absurd hret h,
          fun _ => hown hret⟩
        · exact hd ▸ hsame.wrote ⟨rfl, rfl, rfl, rfl, rfl, rfl⟩
        · rw [hd, setReport_get]
          show (if key = k then (d₁.m_iotAttrs[k]?).map _ else d₁.m_iotAttrs[k]?) = _
          rw [hget]
          by_cases hk : key = k
          · rw [if_pos hk, if_pos hk, if_pos hk]
            rfl
          · rw [if_neg hk, if_neg hk, if_neg hk]
      · rw [if_neg hret] at hd
        refine .inr ⟨a, data, true, rfl, hdata, ?_, fun k => ?_, hother, fun _ => rfl,
          fun h => by cases h⟩
        · exact hd ▸ hsame.wrote (.rfl _)
        · rw [hd]
          exact hget k

theorem called_defer (b : Both) (key val : String8) : b.Called key val (-1) (b.defer key val) := by
  refine ⟨rfl, 0, fun _ => rfl, ?_⟩
  unfold CallSent
  split
  · exact .inr ⟨by decide, rfl⟩
  · rfl

/-- Both write the same attribute. -/
theorem AttrAhead.write {a a' : DSAttr} {c c' c'' : Option PropValue} {data : Bytes} {report : Bool}
    (h : AttrAhead a a' c c')
    (hc : report = false → c'' = some (a'.setData data).attr.value) :
    AttrAhead ({ a with report := true }.setData data) ({ a' with report := report }.setData data)
      c c'' where
  attr := by
    show a'.attr.setData data = a.attr.setData data
    rw [h.attr]
  isLocal := h.isLocal
  report _ := rfl
  landed _ hr := by
    rw [hc hr]
    show some (a'.attr.setData data).value = some (a.attr.setData data).value
    rw [h.attr]
  cloud hr := by cases hr

/-- **One call more**, deferred in the first and with any outcome in the second. -/
theorem Ahead.call {b b' b'' : Both} {key val : String8} {ret : Int} (h : Ahead b b')
    (hE : Entered b.d.m_iotAttrs) (hE' : Entered b'.d.m_iotAttrs)
    (hcall : b'.Called key val ret b'') : Ahead (b.defer key val) b'' := by
  rcases hcall.cases hE' with ⟨hnone', rfl⟩ | ⟨a', data', report', ha', hdata', hw', hget', hother', -, hown'⟩
  · -- an unknown name
    rcases (called_defer b key val).cases hE with ⟨-, e⟩ | ⟨a, -, -, ha, -⟩
    · rw [e]
      exact h
    · rcases h.attrs key with ⟨hnone, -⟩ | ⟨-, a'', -, ha'', -⟩
      · cases hnone.symm.trans ha
      · cases hnone'.symm.trans ha''
  · obtain ⟨a, a'', ha, ha'', hattr⟩ : ∃ a a'', b.d.m_iotAttrs[key]? = some a ∧
        b'.d.m_iotAttrs[key]? = some a'' ∧ AttrAhead a a'' (b.cloud key) (b'.cloud key) := by
      rcases h.attrs key with ⟨-, hnone, -⟩ | h
      · cases hnone.symm.trans ha'
      · exact h
    obtain rfl : a' = a'' := Option.some.inj (ha'.symm.trans ha'')
    rcases (called_defer b key val).cases hE with
      ⟨hnone, -⟩ | ⟨a₁, data, report, ha₁, hdata, hw, hget, hother, hup, -⟩
    · cases hnone.symm.trans ha
    obtain rfl : a = a₁ := Option.some.inj (ha.symm.trans ha₁)
    obtain rfl : report = true := hup (by decide)
    obtain rfl : data' = data := by
      rw [hattr.attr, hdata] at hdata'
      exact (Option.some.inj hdata').symm
    refine ⟨?_, fun k => ?_, fun hq => ?_⟩
    · exact ⟨hw'.service.trans (h.server.service.trans hw.service.symm),
        hw'.reportFlag.trans hw.reportFlag.symm,
        hw'.forceReport.trans (h.server.forceReport.trans hw.forceReport.symm),
        hw'.shadow.trans (h.server.shadow.trans hw.shadow.symm),
        hw'.reportPeriod.trans (h.server.reportPeriod.trans hw.reportPeriod.symm),
        hw'.registered.trans (h.server.registered.trans hw.registered.symm)⟩
    · rw [hget, hget']
      by_cases hk : key = k
      · subst hk
        rw [if_pos rfl, if_pos rfl]
        exact .inr ⟨_, _, rfl, rfl, hattr.write hown'⟩
      · rw [if_neg hk, if_neg hk, hother' k hk, hother k hk]
        exact h.attrs k
    · exact absurd (.inl hw.reportFlag) hq

theorem Called.entered {b b' : Both} {key val : String8} {ret : Int} (hE : Entered b.d.m_iotAttrs)
    (h : b.Called key val ret b') : Entered b'.d.m_iotAttrs := by
  rw [h.1]
  exact (keeps_doReportProperty b.d key val ret).entered hE

/-- The calls with any outcomes are ahead of the deferred ones. -/
theorem Calls.ahead {b₀ b b' : Both} {reports : List (String8 × String8)} (h : Calls b reports b')
    (h₀ : Ahead b₀ b) (hE₀ : Entered b₀.d.m_iotAttrs) (hE : Entered b.d.m_iotAttrs) :
    Ahead (b₀.deferred reports) b' := by
  induction h generalizing b₀ with
  | nil b => exact h₀
  | cons hcall hrest ih =>
    exact ih (h₀.call hE₀ hE hcall) ((called_defer b₀ _ _).entered hE₀) (hcall.entered hE)

/-- What the cloud has after a `pushProperties` that pushes. -/
theorem settle_cloud {b : Both} (hE : Entered b.d.m_iotAttrs) (hr : Raised b.d) (k : String8) :
    b.settle.cloud k = match b.d.m_iotAttrs[k]? with
      | none => b.cloud k
      | some a => if b.d.selected a then some a.attr.value else b.cloud k := by
  have hcloud : b.settle.cloud = match b.d.passPayload fun _ => 0 with
      | none => b.cloud
      | some payload => receive b.cloud payload := if_pos hr
  have hsel : ∀ {a : DSAttr}, b.d.m_iotAttrs[k]? = some a → b.d.selected a = true →
      ∃ payload, b.d.passPayload (fun _ => 0) = some payload ∧ (k, a.attr.value) ∈ payload := by
    intro a ha hs
    obtain ⟨payload, hp⟩ := Option.isSome_iff_exists.mp (passPayload_isSome (fun _ => 0) ha hs)
    exact ⟨payload, hp, (mem_passPayload hp _).mpr
      ⟨k, a, ha, hs, rfl, by rw [(hE k a ha).name]⟩⟩
  have hnot : ∀ {payload : FormatData}, b.d.passPayload (fun _ => 0) = some payload →
      (∀ a, b.d.m_iotAttrs[k]? = some a → b.d.selected a = false) →
        receive b.cloud payload k = b.cloud k := by
    intro payload hp hns
    rcases receive_cases b.cloud payload k with ⟨v, hv, -⟩ | ⟨-, e⟩
    · obtain ⟨k', a, ha, hs, -, he⟩ := (mem_passPayload hp (k, v)).mp hv
      rw [(hE k' a ha).name] at he
      obtain ⟨rfl, -⟩ := Prod.mk.inj he
      rw [hns a ha] at hs
      cases hs
    · exact e
  have hstay : (∀ a, b.d.m_iotAttrs[k]? = some a → b.d.selected a = false) →
      b.settle.cloud k = b.cloud k := by
    intro hns
    rw [hcloud]
    cases hp : b.d.passPayload fun _ => 0 with
    | none => rfl
    | some payload => exact hnot hp hns
  cases ha : b.d.m_iotAttrs[k]? with
  | none => exact hstay fun a ha' => by cases ha.symm.trans ha'
  | some a =>
    cases hs : b.d.selected a with
    | false =>
      show _ = if b.d.selected a = true then some a.attr.value else b.cloud k
      rw [hs, if_neg (by decide)]
      refine hstay fun a' ha' => ?_
      obtain rfl : a = a' := Option.some.inj (ha.symm.trans ha')
      exact hs
    | true =>
      obtain ⟨payload, hp, hm⟩ := hsel ha hs
      show _ = if b.d.selected a = true then some a.attr.value else b.cloud k
      rw [hs, if_pos rfl, hcloud, hp]
      exact receive_mem (single_passPayload hE hp) hm

/-- Its table: every flag is down. -/
theorem settle_get {b : Both} (hr : Raised b.d) (k : String8) :
    b.settle.d.m_iotAttrs[k]? = (b.d.m_iotAttrs[k]?).map fun a => { a with report := false } := by
  have hd : b.settle.d = { b.d.passClear with m_reportFlag := false, g_forceReport := false } :=
    pushProperties_raised hr _ _
  have hclear : ∀ a : DSAttr,
      (if b.d.selected a = true then { a with report := false } else a) =
        { a with report := false } := by
    intro a
    by_cases hs : b.d.selected a = true
    · rw [if_pos hs]
    · rw [if_neg hs]
      obtain ⟨report, isLocal, attr⟩ := a
      cases report with
      | false => rfl
      | true => exact absurd (selected_of_report rfl) hs
  rw [hd]
  show b.d.passClear.m_iotAttrs[k]? = _
  rw [passClear_get]
  simp only [hclear]

/-- The same server and the same cloud. -/
structure Same (b b' : Both) : Prop where
  server : SameServer b.d b'.d
  attrs : ∀ k : String8, b'.d.m_iotAttrs[k]? = b.d.m_iotAttrs[k]?
  cloud : b'.cloud = b.cloud

/-- One attribute after `pushProperties`. -/
theorem AttrAhead.settle {b b' : Both} {a a' : DSAttr} {c c' : Option PropValue}
    (h : AttrAhead a a' c c') (hforce : b'.d.g_forceReport = b.d.g_forceReport) :
    ({ a' with report := false } : DSAttr) = { a with report := false } ∧
      (if b'.d.selected a' = true then some a'.attr.value else c') =
        if b.d.selected a = true then some a.attr.value else c := by
  obtain ⟨hattr, hlocal, hrep, hlanded, hcloud⟩ := h
  obtain ⟨r, i, at₁⟩ := a
  obtain ⟨r', i', at₂⟩ := a'
  obtain rfl : at₂ = at₁ := hattr
  obtain rfl : i' = i := hlocal
  refine ⟨rfl, ?_⟩
  unfold selected
  rw [hforce]
  cases hf : b.d.g_forceReport with
  | true => rfl
  | false =>
    cases hr : r with
    | false =>
      have hr' : r' = false := Bool.eq_false_iff.mpr fun e => by
        have hup : r = true := hrep e
        rw [hr] at hup
        cases hup
      rw [hr']
      exact hcloud hr
    | true =>
      cases hr' : r' with
      | true => rfl
      | false => exact hlanded hr hr'

theorem settle_idle {b : Both} (hr : ¬ Raised b.d) : b.settle = b := by
  have hf : b.d.m_reportFlag = false := Bool.eq_false_iff.mpr fun h => hr (.inl h)
  have hg : b.d.g_forceReport = false := Bool.eq_false_iff.mpr fun h => hr (.inr h)
  unfold settle
  rw [pushProperties_idle hf hg, if_neg hr]

/-- **After `pushProperties` nothing is left of the difference.** -/
theorem Ahead.settle {b b' : Both} (h : Ahead b b') (hE : Entered b.d.m_iotAttrs)
    (hE' : Entered b'.d.m_iotAttrs) : Same b.settle b'.settle := by
  by_cases hr : Raised b.d
  · have hr' : Raised b'.d := by
      unfold Raised
      rw [h.server.reportFlag, h.server.forceReport]
      exact hr
    have hone : ∀ k, b'.settle.d.m_iotAttrs[k]? = b.settle.d.m_iotAttrs[k]? ∧
        b'.settle.cloud k = b.settle.cloud k := by
      intro k
      rw [settle_get hr, settle_get hr', settle_cloud hE hr, settle_cloud hE' hr']
      rcases h.attrs k with ⟨ha, ha', hc⟩ | ⟨a, a', ha, ha', hattr⟩
      · rw [ha, ha']
        exact ⟨rfl, hc⟩
      · rw [ha, ha']
        have hs := AttrAhead.settle hattr h.server.forceReport
        exact ⟨congrArg some hs.1, hs.2⟩
    refine ⟨?_, fun k => (hone k).1, funext fun k => (hone k).2⟩
    show SameServer (b.d.pushProperties _ 0).2 (b'.d.pushProperties _ 0).2
    rw [pushProperties_raised hr, pushProperties_raised hr']
    exact ⟨h.server.service, rfl, rfl, h.server.shadow, h.server.reportPeriod, h.server.registered⟩
  · have hr' : ¬ Raised b'.d := by
      unfold Raised
      rw [h.server.reportFlag, h.server.forceReport]
      exact hr
    rw [settle_idle hr, settle_idle hr']
    exact ⟨h.server, (h.quiet hr).1, (h.quiet hr).2⟩

theorem calls_deferred (b : Both) (reports : List (String8 × String8)) :
    Calls b reports (b.deferred reports) := by
  induction reports generalizing b with
  | nil => exact .nil b
  | cons r rest ih => exact .cons (called_defer b (cstr r.1) r.2) (ih _)

theorem Calls.entered {b b' : Both} {reports : List (String8 × String8)} (h : Calls b reports b')
    (hE : Entered b.d.m_iotAttrs) : Entered b'.d.m_iotAttrs := by
  induction h with
  | nil b => exact hE
  | cons hcall _ ih => exact ih (hcall.entered hE)

/-- **A call's own push is an optimisation.** Whatever the pushes of any sequence of
    calls returned, and whether the cloud received them, after a `pushProperties` whose
    Adds and push succeed the server and the cloud are as if all of them had failed. The
    Adds of the calls whose push returned 0 succeeded. -/
theorem outcomes_forgotten {b b' : Both} {reports : List (String8 × String8)}
    (hE : Entered b.d.m_iotAttrs) (h : Calls b reports b') :
    Same (b.deferred reports).settle b'.settle :=
  (h.ahead (ahead_rfl b) hE hE).settle ((calls_deferred b reports).entered hE) (h.entered hE)

theorem entered_oneReported : Entered oneReported.m_iotAttrs := by
  have hadd : Entered ((DeviceShadow.init false).doAddProperty (lit "power")
      IOT_PROPERTY_INT32 4 .succeed).2.m_iotAttrs := by
    rcases (DeviceShadow.init false).doAddProperty_cases (lit "power") IOT_PROPERTY_INT32 4 .succeed with
      ⟨reg, e⟩ | ⟨a, reg, e, ha, -⟩
    · rw [e]
      exact entered_init false
    · rw [e]
      exact entered_insert (entered_init false) ha
  exact (keeps_reportLocked _ (lit "power") (lit "1")).entered hadd

/-- `outcomes_forgotten` for two calls, of which the first one's push succeeds. -/
theorem outcomes_forgotten_two : ∃ b' : Both,
    Calls ⟨oneReported, fun _ => none⟩ [(lit "power", lit "7"), (lit "power", lit "8")] b' ∧
      b'.cloud (lit "power") = some (.int32 7) ∧ b'.settle.cloud (lit "power") = some (.int32 8) := by
  have hok : (oneReported.reportLocked (cstr (lit "power")) (lit "7")).1 = true := by decide
  rcases hl : oneReported.reportLocked (cstr (lit "power")) (lit "7") with ⟨ok, d'⟩
  rw [hl] at hok
  obtain rfl : ok = true := hok
  have hsh : (oneReported.reportLocked (cstr (lit "power")) (lit "7")).2.m_shadow = some 0 := rfl
  have hval : (oneReported.reportLocked (cstr (lit "power")) (lit "7")).2.value
      (cstr (lit "power")) = some (.int32 7) := by decide
  rw [hl] at hsh hval
  obtain ⟨a, ha, hav⟩ := Option.map_eq_some_iff.mp hval
  have h₁ : Called ⟨oneReported, fun _ => none⟩ (cstr (lit "power")) (lit "7") 0
      ⟨(oneReported.doReportProperty (cstr (lit "power")) (lit "7") 0).2,
        receive (fun _ => none) (pushFormatAdd 0 [] a.attr)⟩ := by
    refine ⟨rfl, 0, fun _ => rfl, ?_⟩
    rw [hl, callSent_of_push hsh ha]
    exact .inl rfl
  have h₂ := Calls.cons h₁ (.cons (called_defer _ (cstr (lit "power")) (lit "8")) (.nil _))
  have hname : a.attr.pattr_name = lit "power" := by
    have hE := (keeps_reportLocked oneReported (cstr (lit "power")) (lit "7")).entered
      entered_oneReported
    rw [hl] at hE
    exact (hE _ a ha).name
  refine ⟨_, h₂, ?_, ?_⟩
  · show receive (fun _ => none) (pushFormatAdd 0 [] a.attr) (lit "power") = _
    rw [(received_single (fun _ => rfl) hname (.inl rfl)).2 rfl, hav]
  · rw [(outcomes_forgotten entered_oneReported h₂).cloud]
    decide

end Both

end Reporting

end IotWrap
