/-
  File:      IotWrap/Handle.lean
  Subject:   Which handle every SDK call is made with: the shadow thread's
             lifecycle and the requests beside it
             (jni/server/IOT_DeviceShadow.cpp).

  The shadow thread constructs the handle, uses it and destroys it; binder
  threads use it in `doAddProperty`, `doReportProperty` and `doReportEvent`. A
  step is one SDK call or one reading of `m_shadow` in a guard; every call reads
  `m_shadow` anew, and no lock covers a guard and the calls behind it.

  `made` keeps every SDK call with the handle it got and whether that handle was
  live, which is constructed and not destroyed.

  * `calls_live`: the condition on a run under which every call is made with a
    live handle, and that it is needed;
  * `event_without_handle`: an event that is reported before `setupShadow`.
-/
import IotWrap.Lib.Machine
import IotWrap.Shadow

namespace IotWrap

open Lib

namespace Lifecycle

/-! ## 1. The threads -/

/-- The SDK's functions that take `m_shadow`. -/
inductive SdkCall where
  | IOT_Shadow_RegisterAttribute : SdkCall
  | IOT_Shadow_DeleteAttribute : SdkCall
  | IOT_Shadow_PushFormat_Init : SdkCall
  | IOT_Shadow_PushFormat_Add : SdkCall
  | IOT_Shadow_PushFormat_Finalize : SdkCall
  | IOT_Shadow_Push : SdkCall
  | IOT_Shadow_Event_Report : SdkCall
  | IOT_Shadow_Control_Register : SdkCall
  | IOT_Shadow_Pull : SdkCall
  | IOT_Shadow_Yield : SdkCall
  | IOT_Shadow_Destroy : SdkCall
  deriving DecidableEq, Repr

/-- Where the shadow thread is in `threadLoop`. -/
inductive Phase where
  | setupShadow : Phase
  /-- `preShadow`: `waitForClient`, then the registration pass, and so on. -/
  | waitForClient : Phase
  | registerAttrs : Phase
  | controlRegister : Phase
  | pull : Phase
  | yieldShadow : Phase
  | updateProperties : Phase
  | pushProperties : Phase
  /-- The pass of `pushProperties`; `flg` says whether the format was begun. -/
  | pass (flg : Bool) : Phase
  | add : Phase
  | finalize : Phase
  | push : Phase
  | isRunning : Phase
  /-- `postShadow`: the attributes, the handle, then `m_shadow = 0`. -/
  | deleteAttrs : Phase
  | destroy : Phase
  | clear : Phase
  | ended : Phase
  deriving DecidableEq, Repr

/-- Where a binder thread is in a request that uses `m_shadow`. -/
inductive Request where
  /-- `doReportEvent`, before its call. -/
  | event : Request
  /-- `doAddProperty` with a new attribute, before `attr && m_shadow`. -/
  | addGuard : Request
  | register : Request
  /-- `doReportProperty` after its locked section, before `if (m_shadow)`. -/
  | reportGuard : Request
  | formatInit : Request
  | formatAdd : Request
  | formatFinalize : Request
  | push : Request
  | returned : Request
  deriving DecidableEq, Repr

/-- One SDK call: the handle it was made with, and whether that was live. -/
structure Made where
  call : SdkCall
  handle : Option Handle
  live : Bool
  deriving DecidableEq, Repr

structure State where
  phase : Phase
  m_shadow : Option Handle
  /-- The handle that is constructed and not destroyed. -/
  live : Option Handle
  /-- The requests of all clients so far. -/
  requests : List Request
  made : List Made
  deriving DecidableEq, Repr

def init : State := ⟨.setupShadow, none, none, [], []⟩

/-- `m_shadow` is a live handle. -/
def State.Live (s : State) : Prop := s.m_shadow ≠ none ∧ s.m_shadow = s.live

instance (s : State) : Decidable s.Live := inferInstanceAs (Decidable (_ ∧ _))

/-! ## 2. What the threads do -/

/-- The SDK call of the shadow thread's step; `more` is what a loop or a test
    decides. -/
def Phase.call (more : Bool) : Phase → Option SdkCall
  | registerAttrs => if more then some .IOT_Shadow_RegisterAttribute else none
  | controlRegister => some .IOT_Shadow_Control_Register
  | pull => some .IOT_Shadow_Pull
  | yieldShadow => some .IOT_Shadow_Yield
  | pass false => if more then some .IOT_Shadow_PushFormat_Init else none
  | add => some .IOT_Shadow_PushFormat_Add
  | finalize => some .IOT_Shadow_PushFormat_Finalize
  | push => some .IOT_Shadow_Push
  | deleteAttrs => if more then some .IOT_Shadow_DeleteAttribute else none
  | destroy => some .IOT_Shadow_Destroy
  | _ => none

/-- Where the shadow thread goes. -/
def Phase.next (more : Bool) : Phase → Phase
  | setupShadow => waitForClient
  | waitForClient => registerAttrs
  | registerAttrs => if more then registerAttrs else controlRegister
  | controlRegister => pull
  | pull => yieldShadow
  | yieldShadow => updateProperties
  | updateProperties => pushProperties
  | pushProperties => if more then pass false else isRunning
  | pass false => if more then add else isRunning
  | pass true => if more then add else finalize
  | add => pass true
  | finalize => push
  | push => isRunning
  | isRunning => if more then yieldShadow else deleteAttrs
  | deleteAttrs => if more then deleteAttrs else destroy
  | destroy => clear
  | clear => ended
  | ended => ended

/-- The SDK call of a request's step. -/
def Request.call : Request → Option SdkCall
  | event => some .IOT_Shadow_Event_Report
  | register => some .IOT_Shadow_RegisterAttribute
  | formatInit => some .IOT_Shadow_PushFormat_Init
  | formatAdd => some .IOT_Shadow_PushFormat_Add
  | formatFinalize => some .IOT_Shadow_PushFormat_Finalize
  | push => some .IOT_Shadow_Push
  | addGuard | reportGuard | returned => none

/-- Where a request goes; `set` says whether a guard finds `m_shadow` set. -/
def Request.next (set : Bool) : Request → Request
  | event => returned
  | addGuard => if set then register else returned
  | register => returned
  | reportGuard => if set then formatInit else returned
  | formatInit => formatAdd
  | formatAdd => formatFinalize
  | formatFinalize => push
  | push => returned
  | returned => returned

/-- An SDK call with what `m_shadow` holds now. -/
def State.sdk (s : State) : Option SdkCall → State
  | none => s
  | some call => { s with made := s.made ++ [⟨call, s.m_shadow, decide s.Live⟩] }

inductive Label where
  /-- `setupShadow`: the handle, or nothing where `IOT_SetupConnInfo` fails. -/
  | setup (h : Option Handle) : Label
  | shadow (more : Bool) : Label
  /-- A request arrives. -/
  | arrive (r : Request) : Label
  | request (i : Nat) : Label
  deriving DecidableEq, Repr

/-- Where a request can arrive. -/
def Request.Begins (r : Request) : Prop := r = event ∨ r = addGuard ∨ r = reportGuard

def enabled (s : State) : Label → Prop
  | .setup _ => s.phase = .setupShadow
  | .shadow _ => s.phase ≠ .setupShadow ∧ s.phase ≠ .ended
  | .arrive r => r.Begins
  | .request i => i < s.requests.length

/-- The request at an index; one that returned stays so. -/
def State.requestAt (s : State) (i : Nat) : Request := s.requests.getD i .returned

def next (s : State) : Label → State
  | .setup h => { s with phase := s.phase.next false, m_shadow := h, live := h }
  | .shadow more =>
    { s.sdk (s.phase.call more) with
      phase := s.phase.next more
      m_shadow := if s.phase = .clear then none else s.m_shadow
      live := if s.phase = .destroy then none else s.live }
  | .arrive r => { s with requests := s.requests ++ [r] }
  | .request i =>
    { s.sdk (s.requestAt i).call with
      requests := s.requests.set i ((s.requestAt i).next s.m_shadow.isSome) }

def machine : Machine State Label where
  init s := s = init
  enabled := enabled
  next := next

instance (s : State) (l : Label) : Decidable (machine.enabled s l) :=
  match l with
  | .setup _ => inferInstanceAs (Decidable (_ = _))
  | .shadow _ => inferInstanceAs (Decidable (_ ∧ _))
  | .arrive _ => inferInstanceAs (Decidable (_ ∨ _ ∨ _))
  | .request _ => inferInstanceAs (Decidable (_ < _))

/-! ## 3. While the handle is live -/

/-- Between `setupShadow` and the return of `IOT_Shadow_Destroy`. -/
def Phase.up : Phase → Bool
  | setupShadow | clear | ended => false
  | _ => true

/-- Past its guard and before its last SDK call. -/
def Request.using : Request → Bool
  | register | formatInit | formatAdd | formatFinalize | push => true
  | _ => false

/-- **The condition**: `setupShadow` does not fail; an event is reported while the
    handle is up; no guard is read between `IOT_Shadow_Destroy` and `m_shadow = 0`;
    and the handle is not destroyed while a request is past its guard. -/
def Calm (s : State) : Label → Prop
  | .setup h => h ≠ none
  | .shadow _ => s.phase = .destroy → ∀ r ∈ s.requests, r.using = false
  | .arrive _ => True
  | .request i =>
    (s.requestAt i = .event → s.phase.up = true) ∧
      (s.requestAt i = .addGuard ∨ s.requestAt i = .reportGuard → s.phase ≠ .clear)

/-- **The handle's invariant.** -/
structure Sound (s : State) : Prop where
  up : s.phase.up = true → s.Live
  down : s.phase = .setupShadow ∨ s.phase = .ended → s.m_shadow = none
  cleared : s.phase = .clear → s.m_shadow ≠ none ∧ s.live = none
  requests : ∀ r ∈ s.requests, r.using = true → s.phase.up = true
  made : ∀ m ∈ s.made, m.live = true

/-- Every SDK call so far was made with a live handle. -/
def AllLive (s : State) : Prop := ∀ m ∈ s.made, m.live = true

@[simp] theorem sdk_m_shadow (s : State) (call : Option SdkCall) :
    (s.sdk call).m_shadow = s.m_shadow := by cases call <;> rfl

@[simp] theorem sdk_live (s : State) (call : Option SdkCall) : (s.sdk call).live = s.live := by
  cases call <;> rfl

@[simp] theorem sdk_phase (s : State) (call : Option SdkCall) : (s.sdk call).phase = s.phase := by
  cases call <;> rfl

@[simp] theorem sdk_requests (s : State) (call : Option SdkCall) :
    (s.sdk call).requests = s.requests := by cases call <;> rfl

/-- A call with a live handle. -/
theorem allLive_sdk {s : State} (h : AllLive s) {call : Option SdkCall}
    (hcall : call ≠ none → s.Live) : AllLive (s.sdk call) := by
  cases call with
  | none => exact h
  | some c =>
    intro m hm
    rcases List.mem_append.mp hm with hm | hm
    · exact h m hm
    · rw [List.mem_singleton.mp hm]
      exact decide_eq_true (hcall (Option.some_ne_none c))

/-- A call with any other handle. -/
theorem not_allLive_sdk {s : State} (hs : ¬ s.Live) {call : Option SdkCall} (hcall : call ≠ none) :
    ¬ AllLive (s.sdk call) := by
  obtain ⟨c, rfl⟩ := Option.ne_none_iff_exists'.mp hcall
  intro h
  have hm := h ⟨c, s.m_shadow, decide s.Live⟩ (List.mem_append_right _ List.mem_cons_self)
  exact hs (of_decide_eq_true hm)

/-- The shadow thread makes its calls while the handle is up. -/
theorem up_of_call {p : Phase} {more : Bool} (h : p.call more ≠ none) : p.up = true := by
  cases p with
  | setupShadow => exact absurd rfl h
  | clear => exact absurd rfl h
  | ended => exact absurd rfl h
  | _ => rfl

/-- It leaves that part of its life with the destruction only. -/
theorem up_next {p : Phase} (h : p.up = true) (hd : p ≠ .destroy) (more : Bool) :
    (p.next more).up = true := by
  cases p with
  | setupShadow => cases h
  | clear => cases h
  | ended => cases h
  | destroy => exact absurd rfl hd
  | pass flg => cases flg <;> cases more <;> rfl
  | _ => cases more <;> rfl

theorem not_up_cases {p : Phase} (h : p.up = false) : p = .setupShadow ∨ p = .clear ∨ p = .ended := by
  cases p with
  | setupShadow => exact .inl rfl
  | clear => exact .inr (.inl rfl)
  | ended => exact .inr (.inr rfl)
  | _ => cases h

/-- Outside that part of its life nothing is live. -/
theorem Sound.not_live {s : State} (h : Sound s) (hup : s.phase.up = false) : ¬ s.Live := by
  intro hl
  rcases not_up_cases hup with hp | hp | hp
  · exact hl.1 (h.down (.inl hp))
  · exact hl.1 (hl.2.trans (h.cleared hp).2)
  · exact hl.1 (h.down (.inr hp))

theorem requestAt_mem {s : State} {i : Nat} (hi : i < s.requests.length) :
    s.requestAt i ∈ s.requests := by
  unfold State.requestAt
  rw [List.getD_eq_getElem?_getD, List.getElem?_eq_getElem hi]
  exact List.getElem_mem hi

theorem sound_init : Sound init where
  up h := by cases h
  down _ := rfl
  cleared h := by cases h
  requests _ h := absurd h List.not_mem_nil
  made _ h := absurd h List.not_mem_nil

theorem sound_shadow {s : State} (h : Sound s) {more : Bool} (hc : Calm s (.shadow more))
    (he : enabled s (.shadow more)) : Sound (next s (.shadow more)) := by
  have hmade : AllLive (s.sdk (s.phase.call more)) :=
    allLive_sdk h.made fun hcall => h.up (up_of_call hcall)
  by_cases hd : s.phase = .destroy
  · -- the handle goes, and nobody is past a guard
    have hlive := h.up (by rw [hd]; rfl)
    refine ⟨fun hup => ?_, fun hp => ?_, fun _ => ⟨?_, ?_⟩, fun r hr hu => ?_, hmade⟩
    · simp only [next, hd] at hup
      cases hup
    · simp only [next, hd] at hp
      rcases hp with hp | hp <;> cases hp
    · simp only [next, hd]
      exact hlive.1
    · simp only [next, hd]
      rfl
    · simp only [next, sdk_requests] at hr
      rw [hc hd r hr] at hu
      cases hu
  · by_cases hcl : s.phase = .clear
    · have hup : s.phase.up = false := by rw [hcl]; rfl
      refine ⟨fun hup => ?_, fun _ => ?_, fun hp => ?_, fun r hr hu => ?_, hmade⟩
      · simp only [next, hcl] at hup
        cases hup
      · simp only [next, hcl]
        rfl
      · simp only [next, hcl] at hp
        cases hp
      · simp only [next, sdk_requests] at hr
        rw [h.requests r hr hu] at hup
        cases hup
    · -- the handle stays as it is
      have hup : s.phase.up = true := by
        cases hu : s.phase.up with
        | true => rfl
        | false =>
          rcases not_up_cases hu with hp | hp | hp
          · exact absurd hp he.1
          · exact absurd hp hcl
          · exact absurd hp he.2
      have hnext := up_next hup hd more
      have hlive := h.up hup
      refine ⟨fun _ => ?_, fun hp => ?_, fun hp => ?_, fun _ _ _ => hnext, hmade⟩
      · simp only [next, State.Live, hd, hcl, if_false]
        exact hlive
      · have hfalse : (next s (.shadow more)).phase.up = false := by
          rcases hp with hp | hp <;> rw [hp] <;> rfl
        exact absurd (hnext.symm.trans hfalse) (by decide)
      · have hfalse : (next s (.shadow more)).phase.up = false := by rw [hp]; rfl
        exact absurd (hnext.symm.trans hfalse) (by decide)

/-- The calls of a request: an event, or one that is past its guard. -/
theorem using_of_call {r : Request} (h : r.call ≠ none) (hr : r ≠ .event) : r.using = true := by
  cases r with
  | event => exact absurd rfl hr
  | addGuard => exact absurd rfl h
  | reportGuard => exact absurd rfl h
  | returned => exact absurd rfl h
  | _ => rfl

/-- A request gets past its guard by reading a handle there. -/
theorem using_next {r : Request} {set : Bool} (h : (r.next set).using = true) :
    r.using = true ∨ (r = .addGuard ∨ r = .reportGuard) ∧ set = true := by
  cases r with
  | addGuard =>
    cases set with
    | true => exact .inr ⟨.inl rfl, rfl⟩
    | false => cases h
  | reportGuard =>
    cases set with
    | true => exact .inr ⟨.inr rfl, rfl⟩
    | false => cases h
  | event => cases h
  | returned => cases h
  | _ => exact .inl rfl

theorem sound_request {s : State} (h : Sound s) {i : Nat} (hc : Calm s (.request i))
    (he : enabled s (.request i)) : Sound (next s (.request i)) := by
  have hm := requestAt_mem he
  have hmade : AllLive (s.sdk (s.requestAt i).call) := by
    refine allLive_sdk h.made fun hcall => h.up ?_
    by_cases hev : s.requestAt i = .event
    · exact hc.1 hev
    · exact h.requests _ hm (using_of_call hcall hev)
  have hkeep : (next s (.request i)).phase = s.phase ∧
      (next s (.request i)).m_shadow = s.m_shadow ∧ (next s (.request i)).live = s.live :=
    ⟨sdk_phase s _, sdk_m_shadow s _, sdk_live s _⟩
  obtain ⟨hphase, hshadow, hlive⟩ := hkeep
  refine ⟨?_, ?_, ?_, fun r hr hu => ?_, hmade⟩
  · rw [hphase, State.Live, hshadow, hlive]
    exact h.up
  · rw [hphase, hshadow]
    exact h.down
  · rw [hphase, hshadow, hlive]
    exact h.cleared
  · rw [hphase]
    rcases List.mem_or_eq_of_mem_set hr with hr | rfl
    · exact h.requests r hr hu
    · rcases using_next hu with hu | ⟨hguard, hset⟩
      · exact h.requests _ hm hu
      · -- the guard read a handle, and not one that is destroyed
        cases hup : s.phase.up with
        | true => rfl
        | false =>
          rcases not_up_cases hup with hp | hp | hp
          · rw [h.down (.inl hp)] at hset
            cases hset
          · exact absurd hp (hc.2 hguard)
          · rw [h.down (.inr hp)] at hset
            cases hset

/-- **Every step that meets the condition** keeps the invariant. -/
theorem sound_step {s : State} {l : Label} (h : Sound s) (hc : Calm s l) (he : enabled s l) :
    Sound (next s l) := by
  cases l with
  | setup hd =>
    have hp : s.phase = .setupShadow := he
    refine ⟨fun _ => ⟨hc, rfl⟩, fun hp' => ?_, fun hp' => ?_, fun _ _ _ => ?_, h.made⟩
    · simp only [next, hp] at hp'
      rcases hp' with hp' | hp' <;> cases hp'
    · simp only [next, hp] at hp'
      cases hp'
    · simp only [next, hp]
      rfl
  | shadow more => exact sound_shadow h hc he
  | arrive r =>
    refine ⟨h.up, h.down, h.cleared, fun r' hr hu => ?_, h.made⟩
    rcases List.mem_append.mp hr with hr | hr
    · exact h.requests r' hr hu
    · rw [List.mem_singleton.mp hr] at hu
      rcases he with rfl | rfl | rfl <;> cases hu
  | request i => exact sound_request h hc he

theorem sound_reach {s : State} (h : machine.Reach Calm s) : Sound s := by
  refine h.inv (I := Sound) ?_ fun s l hI hc he => sound_step hI hc he
  intro s h0
  obtain rfl : s = init := h0
  exact sound_init

/-! ## 4. Where the condition fails -/

/-- Some continuation makes a call with a handle that is not live. -/
def Doomed (s : State) : Prop := ∃ s', (machine.after s).Reachable s' ∧ ¬ AllLive s'

theorem doomed_of_step {s : State} {l : Label} (he : enabled s l) (h : Doomed (next s l)) :
    Doomed s := by
  obtain ⟨s', hr, hbad⟩ := h
  exact ⟨s', Machine.after_step trivial he hr, hbad⟩

theorem doomed_of_made {s : State} (h : ¬ AllLive s) : Doomed s := ⟨s, .init s rfl, h⟩

/-- A request past its guard, and nothing live. -/
theorem doomed_of_using {s : State} (hs : ¬ s.Live) {r : Request} (hr : r ∈ s.requests)
    (hu : r.using = true) : Doomed s := by
  obtain ⟨i, hi, rfl⟩ := List.getElem_of_mem hr
  have hat : s.requestAt i = s.requests[i] := by
    unfold State.requestAt
    rw [List.getD_eq_getElem?_getD, List.getElem?_eq_getElem hi]
    rfl
  have hcall : (s.requestAt i).call ≠ none := by
    rw [hat]
    cases hreq : s.requests[i] with
    | register => exact Option.some_ne_none _
    | formatInit => exact Option.some_ne_none _
    | formatAdd => exact Option.some_ne_none _
    | formatFinalize => exact Option.some_ne_none _
    | push => exact Option.some_ne_none _
    | event => rw [hreq] at hu; cases hu
    | addGuard => rw [hreq] at hu; cases hu
    | reportGuard => rw [hreq] at hu; cases hu
    | returned => rw [hreq] at hu; cases hu
  have hbad : ¬ AllLive (next s (.request i)) := not_allLive_sdk hs hcall
  exact doomed_of_step (l := .request i) hi (doomed_of_made hbad)

/-- **A step that does not meet the condition** leads to a call with a handle that
    is not live. -/
theorem doomed_of_not_calm {s : State} {l : Label} (h : Sound s) (he : enabled s l)
    (hc : ¬ Calm s l) : Doomed (next s l) := by
  cases l with
  | setup hd =>
    -- the registration pass runs on NULL
    obtain rfl : hd = none := not_not.mp hc
    have hp : s.phase = .setupShadow := he
    have hwait : (next s (.setup none)).phase = .waitForClient := by
      simp only [next, hp]
      rfl
    refine doomed_of_step (l := .shadow false) ⟨by rw [hwait]; decide, by rw [hwait]; decide⟩ ?_
    have hreg : (next (next s (.setup none)) (.shadow false)).phase = .registerAttrs := by
      simp only [next, hp]
      rfl
    refine doomed_of_step (l := .shadow true) ⟨by rw [hreg]; decide, by rw [hreg]; decide⟩ ?_
    refine doomed_of_made (not_allLive_sdk (fun hl => hl.1 ?_) ?_)
    · simp only [next, hp]
      rfl
    · rw [hreg]
      exact Option.some_ne_none _
  | shadow more =>
    simp only [Calm, not_forall] at hc
    obtain ⟨hd, r, hr, hu⟩ := hc
    have hlive := h.up (by rw [hd]; rfl)
    refine doomed_of_using (r := r) (fun hl => hlive.1 ?_) ?_ ?_
    · have hnone := hl.2
      simp only [next, hd] at hnone
      exact hnone
    · simp only [next, sdk_requests]
      exact hr
    · simpa using hu
  | arrive r => exact absurd trivial hc
  | request i =>
    by_cases hev : s.requestAt i = .event → s.phase.up = true
    · -- a guard that finds the destroyed handle
      have hg : ¬ (s.requestAt i = .addGuard ∨ s.requestAt i = .reportGuard → s.phase ≠ .clear) :=
        fun hg => hc ⟨hev, hg⟩
      simp only [Classical.not_imp, not_not] at hg
      obtain ⟨hguard, hp⟩ := hg
      obtain ⟨hset, hnone⟩ := h.cleared hp
      have hu : ((s.requestAt i).next s.m_shadow.isSome).using = true := by
        rw [Option.isSome_iff_ne_none.mpr hset]
        rcases hguard with e | e <;> rw [e] <;> rfl
      refine doomed_of_using (r := (s.requestAt i).next s.m_shadow.isSome) ?_ ?_ hu
      · intro hl
        have hl' := hl.2
        simp only [next, sdk_m_shadow, sdk_live] at hl'
        exact hset (hl'.trans hnone)
      · exact List.mem_set he _
    · -- an event without a handle
      simp only [Classical.not_imp] at hev
      obtain ⟨hev, hup⟩ := hev
      refine doomed_of_made (not_allLive_sdk (h.not_live (Bool.eq_false_of_not_eq_true hup)) ?_)
      rw [hev]
      exact Option.some_ne_none _

/-- **When every SDK call gets a live handle**: on every run whose steps meet the
    condition it does; and after a step that does not meet it some run makes a
    call with another one. -/
theorem calls_live {s : State} (h : machine.Reach Calm s) :
    (∀ m ∈ s.made, m.live = true) ∧
      ∀ l, machine.enabled s l → ¬ Calm s l →
        ∃ s', (machine.after (machine.next s l)).Reachable s' ∧ ∃ m ∈ s'.made, m.live = false := by
  have hs := sound_reach h
  refine ⟨hs.made, fun l he hc => ?_⟩
  obtain ⟨s', hr, hbad⟩ := doomed_of_not_calm hs he hc
  simp only [AllLive, not_forall] at hbad
  obtain ⟨m, hm, hl⟩ := hbad
  exact ⟨s', hr, m, hm, Bool.eq_false_of_not_eq_true hl⟩

instance (s : State) (l : Label) : Decidable (Calm s l) :=
  match l with
  | .setup _ => inferInstanceAs (Decidable (_ ≠ _))
  | .shadow _ => inferInstanceAs (Decidable (_ = _ → ∀ r ∈ s.requests, _))
  | .arrive _ => .isTrue trivial
  | .request _ => inferInstanceAs (Decidable ((_ = _ → _) ∧ (_ ∨ _ → _ ≠ _)))

/-- A life of the shadow thread with an urgent report beside it. -/
def lifeWithReport : List Label :=
  [.setup (some 7), .shadow false, .shadow true, .shadow false, .shadow false, .shadow false,
    .arrive .reportGuard, .request 0, .request 0, .shadow false, .request 0, .request 0,
    .request 0, .shadow false, .shadow false, .shadow false, .shadow false, .shadow false,
    .shadow false]

/-- `calls_live` for that life. -/
theorem calls_live_report : ∃ s, machine.Reach Calm s ∧ s.phase = .ended ∧ s.made.length = 9 ∧
    ∀ m ∈ s.made, m.live = true := by
  have h0 : machine.init init := rfl
  have hrun : (machine.run Calm init lifeWithReport).map (fun s => (s.phase, s.made.length)) =
      some (.ended, 9) := by decide
  obtain ⟨s, hr, hs⟩ := Machine.exists_of_run h0 hrun
  simp only [Prod.mk.injEq] at hs
  exact ⟨s, hr, hs.1, hs.2, (calls_live hr).1⟩

/-- **An event without a handle**: it is reported before `setupShadow`, and
    `IOT_Shadow_Event_Report` gets NULL. -/
theorem event_without_handle : ¬ ∀ s, machine.Reachable s → ∀ m ∈ s.made, m.live = true := by
  intro h
  have h0 : machine.init init := rfl
  have hrun : (machine.run (fun _ _ => True) init [.arrive .event, .request 0]).map
      (fun s => s.made) = some [⟨.IOT_Shadow_Event_Report, none, false⟩] := by decide
  obtain ⟨s, hr, hs⟩ := Machine.exists_of_run h0 hrun
  have hlive := h s hr ⟨.IOT_Shadow_Event_Report, none, false⟩
    (by rw [hs]; exact List.mem_cons_self)
  cases hlive

end Lifecycle

end IotWrap
