/-
  File:      IotWrap/Proxy.lean
  Subject:   `m_proxy` between the threads of one application
             (jni/client/IOT_ClientJNI.cpp).

  Any number of threads connect and report, and a binder thread runs `serviceDied`.
  `m_lockProxy` covers the assignment of `m_proxy` in `_connect`, the registrations
  of `_postFollow` and the call of a report; it covers neither the tests of `m_proxy`
  nor the follows of `_postFollow`, and `serviceDied` clears `m_proxy` without it,
  twice. A step is one access to `m_proxy`, or a lock; a call through a null pointer
  crashes the process. How long the object lives that `m_proxy` leads to is not
  modelled: that one thread replaces it under the call of another is not seen here.

  * `Calm`: `m_proxy` becomes null only while no thread is between its test and its
    last call;
  * `never_null`: with the condition no call goes through a null pointer, and after a
    step that does not meet it one does on some run.
-/
import IotWrap.Client

namespace IotWrap

open Lib

namespace ClientProcess

/-! ## 1. The threads -/

/-- Where a thread is. -/
inductive ThreadPc where
  /-- In none of the functions. -/
  | idle : ThreadPc
  /-- `connService` found `m_proxy` null; in `_connect`, before its lock. -/
  | waiting : ThreadPc
  /-- In `_connect` with the lock, before `m_proxy` is assigned. -/
  | creating : ThreadPc
  /-- With the lock, before `m_proxy == NULL` decides what `_connect` returns. -/
  | assigned : ThreadPc
  /-- Before the test of `_postFollow`. -/
  | connected : ThreadPc
  /-- In the loops of `_postFollow`. -/
  | posting : ThreadPc
  /-- At the end of `_postFollow` with the lock, before `registCommandCB`, or after. -/
  | registering (command : Bool) : ThreadPc
  /-- A report found `m_proxy` set. -/
  | tested : ThreadPc
  /-- A report with the lock. -/
  | reporting : ThreadPc
  /-- `serviceDied` has called `m_proxy.clear()`. -/
  | cleared : ThreadPc
  /-- And assigned NULL; before its `connService`. -/
  | reconnecting : ThreadPc
  deriving DecidableEq, Repr

/-- Between a test of `m_proxy` and the last call through it. -/
def ThreadPc.using : ThreadPc → Bool
  | .posting | .registering _ | .tested | .reporting => true
  | _ => false

/-- With `m_lockProxy`. -/
def ThreadPc.holding : ThreadPc → Bool
  | .creating | .assigned | .registering _ | .reporting => true
  | _ => false

structure Process where
  /-- Null, or the client it leads to, whose object is taken to be there. -/
  m_proxy : Option ClientId
  /-- The thread that holds `m_lockProxy`. -/
  m_lockProxy : Option Nat
  threads : List ThreadPc
  /-- A call went through null. -/
  crashed : Bool
  deriving DecidableEq, Repr

/-- What a thread does next. -/
inductive Act where
  /-- `connService`, up to its test. -/
  | connService : Act
  /-- The service was not found in time, or was not connected. -/
  | timeout : Act
  | lockConnect : Act
  /-- `m_proxy = service->createClient(m_clientID)`, with the server's answer. -/
  | createClient (c : Option ClientId) : Act
  /-- `_connect` returns. -/
  | unlockConnect : Act
  /-- The test of `_postFollow`. -/
  | postFollow : Act
  /-- `followProperty` or `followCommand` through the proxy. -/
  | follow : Act
  | lockRegist : Act
  /-- `registCommandCB`, then `registPropertyCB`. -/
  | regist : Act
  /-- `reportProperty` or `reportEvent`, up to its test. -/
  | report : Act
  /-- An argument of the report is empty. -/
  | invalid : Act
  | lockReport : Act
  /-- The call through the proxy. -/
  | send : Act
  /-- `serviceDied`, up to `m_proxy.clear()`. -/
  | serviceDied : Act
  /-- `m_proxy = NULL`. -/
  | clearAgain : Act
  deriving DecidableEq, Repr

inductive Label where
  /-- One more thread. -/
  | arrive : Label
  | step (i : Nat) (a : Act) : Label
  deriving DecidableEq, Repr

namespace Process

/-- Thread `i` moves to `pc`. -/
def goto (s : Process) (i : Nat) (pc : ThreadPc) : Process :=
  { s with threads := s.threads.set i pc }

/-- Thread `i` takes the lock and moves to `pc`. -/
def lock (s : Process) (i : Nat) (pc : ThreadPc) : Process :=
  { s with m_lockProxy := some i, threads := s.threads.set i pc }

/-- Thread `i` gives the lock back and moves to `pc`. -/
def unlock (s : Process) (i : Nat) (pc : ThreadPc) : Process :=
  { s with m_lockProxy := none, threads := s.threads.set i pc }

/-- A call through `m_proxy`, which goes on in `s'`. -/
def call (s s' : Process) : Process := if s.m_proxy = none then { s with crashed := true } else s'

/-- Where thread `i` has to be for what it does. -/
def Enabled (s : Process) (pc : ThreadPc) : Act → Prop
  | .connService => pc = .idle ∨ pc = .reconnecting
  | .timeout => pc = .waiting
  | .lockConnect => pc = .waiting ∧ s.m_lockProxy = none
  | .createClient _ => pc = .creating
  | .unlockConnect => pc = .assigned
  | .postFollow => pc = .connected
  | .follow => pc = .posting
  | .lockRegist => pc = .posting ∧ s.m_lockProxy = none
  | .regist => pc = .registering false ∨ pc = .registering true
  | .report => pc = .idle
  | .invalid => pc = .tested
  | .lockReport => pc = .tested ∧ s.m_lockProxy = none
  | .send => pc = .reporting
  | .serviceDied => pc = .idle
  | .clearAgain => pc = .cleared

instance (s : Process) (pc : ThreadPc) (a : Act) : Decidable (s.Enabled pc a) := by
  cases a <;> simp only [Enabled] <;> infer_instance

def act (s : Process) (i : Nat) (pc : ThreadPc) : Act → Process
  | .connService => s.goto i (if s.m_proxy = none then .waiting else .idle)
  | .timeout => s.goto i .idle
  | .lockConnect => s.lock i .creating
  | .createClient c => { s with m_proxy := c }.goto i .assigned
  | .unlockConnect => s.unlock i (if s.m_proxy = none then .idle else .connected)
  | .postFollow => s.goto i (if s.m_proxy = none then .idle else .posting)
  | .follow => s.call s
  | .lockRegist => s.lock i (.registering false)
  | .regist =>
    s.call (if pc = .registering false then s.goto i (.registering true) else s.unlock i .idle)
  | .report => s.goto i (if s.m_proxy = none then .idle else .tested)
  | .invalid => s.goto i .idle
  | .lockReport => s.lock i .reporting
  | .send => s.call (s.unlock i .idle)
  | .serviceDied => { s with m_proxy := none }.goto i .cleared
  | .clearAgain => { s with m_proxy := none }.goto i .reconnecting

def enabled (s : Process) : Label → Prop
  | .arrive => s.crashed = false
  | .step i a => s.crashed = false ∧ ∃ pc ∈ s.threads[i]?, s.Enabled pc a

instance (s : Process) (l : Label) : Decidable (s.enabled l) := by
  cases l <;> simp only [enabled] <;> infer_instance

def next (s : Process) : Label → Process
  | .arrive => { s with threads := s.threads ++ [.idle] }
  | .step i a => s.act i (s.threads.getD i .idle) a

/-- After `init`: no proxy, and no thread yet. -/
def init : Process := ⟨none, none, [], false⟩

end Process

open ClientProcess.Process

def machine : Machine Process Label where
  init s := s = init
  enabled := enabled
  next := next

instance (s : Process) (l : Label) : Decidable (machine.enabled s l) :=
  inferInstanceAs (Decidable (s.enabled l))

/-! ## 2. The lock -/

/-- **The lock belongs to the thread that is in a section of it.** -/
def Locked (s : Process) : Prop :=
  ∀ i, s.m_lockProxy = some i ↔ ∃ pc ∈ s.threads[i]?, pc.holding = true

theorem get_set {l : List ThreadPc} {i : Nat} {pc : ThreadPc} (h : l[i]? = some pc)
    (pc' : ThreadPc) (j : Nat) : (l.set i pc')[j]? = if i = j then some pc' else l[j]? := by
  have hi : i < l.length := by
    by_contra hn
    rw [List.getElem?_eq_none (by omega)] at h
    cases h
  rw [List.getElem?_set]
  by_cases hij : i = j
  · subst hij
    simp [hi]
  · simp [hij]

theorem locked_set {s s' : Process} {i : Nat} {pc pc' : ThreadPc} (h : Locked s)
    (hpc : s.threads[i]? = some pc) (ht : s'.threads = s.threads.set i pc')
    (hown : s'.m_lockProxy = some i ↔ pc'.holding = true)
    (hother : ∀ j, i ≠ j → (s'.m_lockProxy = some j ↔ s.m_lockProxy = some j)) : Locked s' := by
  intro j
  rw [ht, get_set hpc]
  by_cases hij : i = j
  · subst hij
    rw [if_pos rfl, hown]
    exact ⟨fun hh => ⟨pc', rfl, hh⟩, fun ⟨_, hm, hh⟩ => by obtain rfl := Option.some.inj hm; exact hh⟩
  · rw [if_neg hij, hother j hij]
    exact h j

/-- A thread moves outside of the lock, or inside of it. -/
theorem locked_goto {s : Process} {i : Nat} {pc : ThreadPc} (h : Locked s)
    (hpc : s.threads[i]? = some pc) (pc' : ThreadPc) (hh : pc'.holding = pc.holding)
    (p : Option ClientId) : Locked ({ s with m_proxy := p }.goto i pc') := by
  refine locked_set h hpc rfl ?_ fun j _ => Iff.rfl
  show s.m_lockProxy = some i ↔ _
  rw [h i, hh]
  exact ⟨fun ⟨_, hm, hl⟩ => by obtain rfl := Option.some.inj (hpc.symm.trans hm); exact hl,
    fun hl => ⟨pc, hpc, hl⟩⟩

theorem locked_lock {s : Process} {i : Nat} {pc : ThreadPc} (h : Locked s)
    (hpc : s.threads[i]? = some pc) (pc' : ThreadPc) (hfree : s.m_lockProxy = none)
    (hh : pc'.holding = true) : Locked (s.lock i pc') := by
  refine locked_set h hpc rfl ⟨fun _ => hh, fun _ => rfl⟩ fun j hij => ?_
  rw [hfree]
  show some i = some j ↔ _
  exact ⟨fun e => absurd (Option.some.inj e) hij, fun e => by cases e⟩

theorem locked_unlock {s : Process} {i : Nat} {pc : ThreadPc} (h : Locked s)
    (hpc : s.threads[i]? = some pc) (hh : pc.holding = true) (pc' : ThreadPc)
    (hh' : pc'.holding = false) : Locked (s.unlock i pc') := by
  have hi : s.m_lockProxy = some i := (h i).mpr ⟨pc, hpc, hh⟩
  refine locked_set h hpc rfl ⟨fun e => (by cases e), fun e => by rw [hh'] at e; cases e⟩
    fun j hij => ?_
  rw [hi]
  exact ⟨fun e => (by cases e), fun e => absurd (Option.some.inj e) hij⟩

theorem locked_call {s s' : Process} (h : Locked s) (h' : Locked s') : Locked (s.call s') := by
  unfold call
  split
  · exact h
  · exact h'

theorem getD_of_get {l : List ThreadPc} {i : Nat} {pc : ThreadPc} (h : l[i]? = some pc) :
    l.getD i .idle = pc := by
  rw [List.getD_eq_getElem?_getD, h]
  rfl

/-- **Every step keeps the lock fact.** -/
theorem locked_next {s : Process} (h : Locked s) {l : Label} (he : s.enabled l) :
    Locked (s.next l) := by
  cases l with
  | arrive =>
    intro j
    have hj : (∃ pc ∈ (s.threads ++ [ThreadPc.idle])[j]?, pc.holding = true) ↔
        ∃ pc ∈ s.threads[j]?, pc.holding = true := by
      rcases Nat.lt_trichotomy j s.threads.length with hlt | rfl | hgt
      · rw [List.getElem?_append_left hlt]
      · simp [ThreadPc.holding]
      · rw [List.getElem?_eq_none (by simp; omega), List.getElem?_eq_none (by omega)]
    exact (h j).trans hj.symm
  | step i a =>
    obtain ⟨-, pc, hpc, he⟩ := he
    show Locked (s.act i (s.threads.getD i .idle) a)
    rw [getD_of_get hpc]
    have hgo := fun pc' => locked_goto h hpc pc'
    have hun := fun hh pc' => locked_unlock h hpc hh pc'
    cases a with
    | connService => rcases he with rfl | rfl <;> exact hgo _ (by split <;> rfl) s.m_proxy
    | timeout => cases he; exact hgo .idle rfl s.m_proxy
    | lockConnect => exact locked_lock h hpc .creating he.2 rfl
    | createClient c => cases he; exact hgo .assigned rfl c
    | unlockConnect => cases he; exact hun rfl _ (by split <;> rfl)
    | postFollow => cases he; exact hgo _ (by split <;> rfl) s.m_proxy
    | follow => exact locked_call h h
    | lockRegist => exact locked_lock h hpc (.registering false) he.2 rfl
    | regist =>
      rcases he with rfl | rfl
      · exact locked_call h (hgo (.registering true) rfl s.m_proxy)
      · exact locked_call h (hun rfl .idle rfl)
    | report => cases he; exact hgo _ (by split <;> rfl) s.m_proxy
    | invalid => cases he; exact hgo .idle rfl s.m_proxy
    | lockReport => exact locked_lock h hpc .reporting he.2 rfl
    | send => cases he; exact locked_call h (hun rfl .idle rfl)
    | serviceDied => cases he; exact hgo .cleared rfl none
    | clearAgain => cases he; exact hgo .reconnecting rfl none

theorem locked_reach {C : Process → Label → Prop} {s : Process} (h : machine.Reach C s) :
    Locked s := by
  refine h.inv (I := Locked) ?_ fun s l hI _ he => locked_next hI he
  intro s h0
  obtain rfl : s = init := h0
  exact fun i => ⟨fun e => (by cases e), fun ⟨_, hm, _⟩ => by cases hm⟩

/-! ## 3. No call through a null pointer -/

/-- The step makes `m_proxy` null. -/
def Clears : Label → Prop
  | .step _ (.createClient none) | .step _ .serviceDied | .step _ .clearAgain => True
  | _ => False

instance : DecidablePred Clears
  | .step _ (.createClient none) | .step _ .serviceDied | .step _ .clearAgain => .isTrue trivial
  | .arrive | .step _ .connService | .step _ .timeout | .step _ .lockConnect
  | .step _ (.createClient (some _)) | .step _ .unlockConnect | .step _ .postFollow
  | .step _ .follow | .step _ .lockRegist | .step _ .regist | .step _ .report | .step _ .invalid
  | .step _ .lockReport | .step _ .send => .isFalse id

/-- **The condition on one step**: it does not make `m_proxy` null while a thread is
    between its test of it and its last call through it. -/
def Calm (s : Process) (l : Label) : Prop := Clears l → ∀ pc ∈ s.threads, pc.using = false

instance (s : Process) (l : Label) : Decidable (Calm s l) :=
  inferInstanceAs (Decidable (Clears l → ∀ pc ∈ s.threads, pc.using = false))

/-- **Whoever will call through `m_proxy` finds it set.** -/
structure Safe (s : Process) : Prop where
  alive : s.crashed = false
  proxy : ∀ pc ∈ s.threads, pc.using = true → s.m_proxy ≠ none

/-- A thread moves, and `m_proxy` stays. -/
theorem Safe.goto {s s' : Process} (h : Safe s) {i : Nat} {pc' : ThreadPc}
    (hp : s'.m_proxy = s.m_proxy) (hc : s'.crashed = s.crashed)
    (ht : s'.threads = s.threads.set i pc') (hpc : pc'.using = true → s.m_proxy ≠ none) :
    Safe s' := by
  refine ⟨hc.trans h.alive, fun pc hm hu => ?_⟩
  rw [hp]
  rw [ht] at hm
  rcases List.mem_or_eq_of_mem_set hm with hm | rfl
  · exact h.proxy pc hm hu
  · exact hpc hu

/-- A thread that moves to where it does not call. -/
theorem Safe.away {s s' : Process} (h : Safe s) {i : Nat} {pc' : ThreadPc}
    (hp : s'.m_proxy = s.m_proxy) (hc : s'.crashed = s.crashed)
    (ht : s'.threads = s.threads.set i pc') (hpc : pc'.using = false) : Safe s' :=
  h.goto hp hc ht fun hu => by rw [hpc] at hu; cases hu

/-- A call by a thread that may call. -/
theorem Safe.call {s s' : Process} (h : Safe s) {i : Nat} {pc : ThreadPc}
    (hpc : s.threads[i]? = some pc) (hu : pc.using = true) (h' : Safe s') : Safe (s.call s') := by
  unfold Process.call
  rw [if_neg (h.proxy pc (List.mem_of_getElem? hpc) hu)]
  exact h'

/-- A step that changes `m_proxy` while nobody uses it. -/
theorem safe_quiet {s : Process} (h : Safe s) {i : Nat} {pc' : ThreadPc} (hpc' : pc'.using = false)
    {p : Option ClientId} (hq : p = none → ∀ pc ∈ s.threads, pc.using = false) :
    Safe ({ s with m_proxy := p }.goto i pc') := by
  refine ⟨h.alive, fun pc hm hu hp => ?_⟩
  rcases List.mem_or_eq_of_mem_set hm with hm | rfl
  · rw [hq hp pc hm] at hu
    cases hu
  · rw [hpc'] at hu
    cases hu

/-- A test of `m_proxy` that sends the thread on only where it is set. -/
theorem using_test {p : Option ClientId} {pc pc' : ThreadPc} (hpc : pc.using = false)
    (hu : (if p = none then pc else pc').using = true) : p ≠ none := by
  rintro rfl
  rw [if_pos rfl, hpc] at hu
  cases hu

/-- **Every step that meets the condition** keeps the calls off a null pointer. -/
theorem safe_next {s : Process} (h : Safe s) {l : Label} (hC : Calm s l) (he : s.enabled l) :
    Safe (s.next l) := by
  cases l with
  | arrive =>
    refine ⟨h.alive, fun pc hm hu => ?_⟩
    rcases List.mem_append.mp hm with hm | hm
    · exact h.proxy pc hm hu
    · rw [List.mem_singleton.mp hm] at hu
      cases hu
  | step i a =>
    obtain ⟨-, pc, hpc, he⟩ := he
    show Safe (s.act i (s.threads.getD i .idle) a)
    rw [getD_of_get hpc]
    cases a with
    | connService => exact h.away rfl rfl rfl (by split <;> rfl)
    | timeout => exact h.away rfl rfl rfl rfl
    | lockConnect => exact h.away rfl rfl rfl rfl
    | createClient c =>
      refine safe_quiet h rfl fun hc => ?_
      subst hc
      exact hC trivial
    | unlockConnect => exact h.away rfl rfl rfl (by split <;> rfl)
    | postFollow => exact h.goto rfl rfl rfl (using_test rfl)
    | follow => cases he; exact h.call hpc rfl h
    | lockRegist =>
      cases he.1
      exact h.goto rfl rfl rfl fun _ => h.proxy _ (List.mem_of_getElem? hpc) rfl
    | regist =>
      rcases he with rfl | rfl
      · exact h.call hpc rfl
          (h.goto rfl rfl rfl fun _ => h.proxy _ (List.mem_of_getElem? hpc) rfl)
      · exact h.call hpc rfl (h.away rfl rfl rfl rfl)
    | report => exact h.goto rfl rfl rfl (using_test rfl)
    | invalid => exact h.away rfl rfl rfl rfl
    | lockReport =>
      cases he.1
      exact h.goto rfl rfl rfl fun _ => h.proxy _ (List.mem_of_getElem? hpc) rfl
    | send => cases he; exact h.call hpc rfl (h.away rfl rfl rfl rfl)
    | serviceDied => exact safe_quiet h rfl fun _ => hC trivial
    | clearAgain => exact safe_quiet h rfl fun _ => hC trivial

theorem safe_reach {s : Process} (h : machine.Reach Calm s) : Safe s := by
  refine h.inv (I := Safe) ?_ fun s l hI hC he => safe_next hI hC he
  intro s h0
  obtain rfl : s = init := h0
  exact ⟨rfl, fun pc hm => by cases hm⟩

/-! ## 4. Where the condition fails -/

/-- Some continuation crashes the process. -/
def Doomed (s : Process) : Prop := ∃ s', (machine.after s).Reachable s' ∧ s'.crashed = true

/-- A step of thread `i`, and then. -/
theorem doomed_step {s s' : Process} (hlive : s.crashed = false) {i : Nat} {pc : ThreadPc}
    (hpc : s.threads[i]? = some pc) {a : Act} (he : s.Enabled pc a) (hact : s.act i pc a = s')
    (h : Doomed s') : Doomed s := by
  obtain ⟨t, hr, hbad⟩ := h
  refine ⟨t, Machine.after_step (l := .step i a) trivial ⟨hlive, pc, hpc, he⟩ ?_, hbad⟩
  have hn : machine.next s (.step i a) = s' := by
    show s.act i (s.threads.getD i .idle) a = s'
    rw [getD_of_get hpc, hact]
  rw [hn]
  exact hr

/-- A call through null. -/
theorem doomed_call {s s' : Process} (hlive : s.crashed = false) (hnull : s.m_proxy = none) {i : Nat}
    {pc : ThreadPc} (hpc : s.threads[i]? = some pc) {a : Act} (he : s.Enabled pc a)
    (hact : s.act i pc a = s.call s') : Doomed s :=
  doomed_step hlive hpc he hact ⟨s.call s', .init _ rfl, by rw [Process.call, if_pos hnull]⟩

/-- A thread that will call without waiting for the lock. -/
theorem doomed_of_calling {s : Process} (hlive : s.crashed = false) (hnull : s.m_proxy = none)
    {i : Nat} {pc : ThreadPc} (hpc : s.threads[i]? = some pc) (hu : pc.using = true)
    (hn : pc ≠ .tested) : Doomed s := by
  cases pc with
  | posting => exact doomed_call hlive hnull hpc (a := .follow) rfl rfl
  | registering command =>
    refine doomed_call hlive hnull hpc (a := .regist) ?_ rfl
    cases command with
    | false => exact .inl rfl
    | true => exact .inr rfl
  | reporting => exact doomed_call hlive hnull hpc (a := .send) rfl rfl
  | tested => exact absurd rfl hn
  | _ => cases hu

/-- A report that has passed its test, and the lock is free. -/
theorem doomed_of_tested {s : Process} (hlive : s.crashed = false) (hnull : s.m_proxy = none)
    {i : Nat} (hpc : s.threads[i]? = some .tested) (hfree : s.m_lockProxy = none) : Doomed s := by
  refine doomed_step hlive hpc (a := .lockReport) ⟨rfl, hfree⟩ rfl ?_
  have hnow : (s.lock i .reporting).threads[i]? = some .reporting := by
    show (s.threads.set i .reporting)[i]? = _
    rw [get_set hpc, if_pos rfl]
  exact doomed_of_calling hlive hnull hnow rfl (by decide)

/-- **Null, and a thread that has passed its test.** -/
theorem doomed_of_using {s : Process} (hL : Locked s) (hlive : s.crashed = false)
    (hnull : s.m_proxy = none) {pc : ThreadPc} (hm : pc ∈ s.threads) (hu : pc.using = true) :
    Doomed s := by
  obtain ⟨i, hpc⟩ := List.mem_iff_getElem?.mp hm
  by_cases ht : pc = .tested
  · subst ht
    cases hlock : s.m_lockProxy with
    | none => exact doomed_of_tested hlive hnull hpc hlock
    | some j =>
      obtain ⟨pcj, hj, hh⟩ := (hL j).mp hlock
      have hij : j ≠ i := by
        rintro rfl
        cases Option.some.inj (hpc.symm.trans hj)
        cases hh
      have hstay : ∀ pc', (s.threads.set j pc')[i]? = some .tested := fun pc' => by
        rw [get_set hj, if_neg hij]
        exact hpc
      -- the owner of the lock calls too, or gives the lock back
      cases pcj with
      | registering command => exact doomed_of_calling hlive hnull hj rfl (by simp)
      | reporting => exact doomed_of_calling hlive hnull hj rfl (by decide)
      | assigned =>
        refine doomed_step hlive hj (a := .unlockConnect) rfl rfl ?_
        exact doomed_of_tested hlive hnull (hstay _) rfl
      | creating =>
        refine doomed_step hlive hj (a := .createClient none) rfl rfl ?_
        have hj' : ({ s with m_proxy := none }.goto j .assigned).threads[j]? = some .assigned := by
          show (s.threads.set j .assigned)[j]? = _
          rw [get_set hj, if_pos rfl]
        refine doomed_step hlive hj' (a := .unlockConnect) rfl rfl ?_
        refine doomed_of_tested (i := i) hlive rfl ?_ rfl
        show ((s.threads.set j .assigned).set j _)[i]? = _
        rw [List.set_set]
        exact hstay _
      | _ => cases hh
  · exact doomed_of_calling hlive hnull hpc hu ht

/-- A user that is not the thread that moves is still one. -/
theorem mem_set_of_using {l : List ThreadPc} {i : Nat} {pc pc' p : ThreadPc} (hpc : l[i]? = some pc)
    (hn : pc.using = false) (hm : p ∈ l) (hu : p.using = true) : p ∈ l.set i pc' := by
  obtain ⟨k, hk⟩ := List.mem_iff_getElem?.mp hm
  refine List.mem_iff_getElem?.mpr ⟨k, ?_⟩
  rw [get_set hpc, if_neg ?_, hk]
  rintro rfl
  cases Option.some.inj (hpc.symm.trans hk)
  rw [hn] at hu
  cases hu

/-- **A step that does not meet the condition** leads to a call through null. -/
theorem doomed_of_not_calm {s : Process} (hL : Locked s) {l : Label} (he : s.enabled l)
    (hC : ¬ Calm s l) : Doomed (s.next l) := by
  have hL' : Locked (s.next l) := locked_next hL he
  simp only [Calm, Classical.not_imp, not_forall] at hC
  obtain ⟨hclear, p, hm, hu⟩ := hC
  have hu : p.using = true := by simpa using hu
  cases l with
  | arrive => exact absurd hclear id
  | step i a =>
    obtain ⟨hlive, pc, hpc, he⟩ := he
    have hn : s.next (.step i a) = s.act i pc a := by
      show s.act i (s.threads.getD i .idle) a = _
      rw [getD_of_get hpc]
    rw [hn] at hL' ⊢
    cases a with
    | createClient c =>
      cases he
      cases c with
      | none => exact doomed_of_using hL' hlive rfl (mem_set_of_using hpc rfl hm hu) hu
      | some c => exact absurd hclear id
    | serviceDied =>
      cases he
      exact doomed_of_using hL' hlive rfl (mem_set_of_using hpc rfl hm hu) hu
    | clearAgain =>
      cases he
      exact doomed_of_using hL' hlive rfl (mem_set_of_using hpc rfl hm hu) hu
    | _ => exact absurd hclear id

/-- **When no call goes through a null pointer**: on every run whose steps meet the
    condition, and after a step that does not meet it one does on some run. -/
theorem never_null {s : Process} (h : machine.Reach Calm s) :
    s.crashed = false ∧ ∀ l, machine.enabled s l → ¬ Calm s l →
      ∃ s', (machine.after (machine.next s l)).Reachable s' ∧ s'.crashed = true :=
  ⟨(safe_reach h).alive, fun _ he hC => doomed_of_not_calm (locked_reach h) he hC⟩

/-- A thread connects, up to its first follow. -/
def connects (c : ClientId) : List Label :=
  [.arrive, .step 0 .connService, .step 0 .lockConnect, .step 0 (.createClient (some c)),
    .step 0 .unlockConnect, .step 0 .postFollow, .step 0 .follow]

/-- The rest of its connect, then the server dies, and another thread reconnects. -/
def reconnects (c : ClientId) : List Label :=
  [.step 0 .lockRegist, .step 0 .regist, .step 0 .regist, .arrive, .step 1 .serviceDied,
    .step 1 .clearAgain, .step 1 .connService, .step 1 .lockConnect,
    .step 1 (.createClient (some c)), .step 1 .unlockConnect, .step 1 .postFollow]

/-- `never_null` for a connect and a reconnect one after the other. -/
theorem never_null_reconnect : ∃ s, machine.Reach Calm s ∧ s.m_proxy = some 8 ∧
    s.crashed = false := by
  have hrun : ((machine.run Calm init (connects 7 ++ reconnects 8)).map fun s => s.m_proxy) =
      some (some 8) := by decide
  have h0 : machine.init init := rfl
  obtain ⟨s, hs, hp⟩ := Machine.exists_of_run h0 hrun
  exact ⟨s, hs, hp, (never_null hs).1⟩

/-- The server dies during the follows of a connect. -/
example : ((machine.run (fun _ _ => True) init (connects 7 ++
    [.arrive, .step 1 .serviceDied, .step 0 .follow])).map fun s => s.crashed) = some true := by
  decide

end ClientProcess

end IotWrap
