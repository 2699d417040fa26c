/-
  File:      IotWrap/Wakeup.lean
  Subject:   The wake-up of the shadow thread: when the signal of the first
             registration reaches `waitForClient`.

  `waitForClient` waits without a predicate: whoever registered before the
  thread blocks has signalled nobody, and a spurious wake-up ends the wait.
  `InTime` is the condition on a step that excludes the two: the wait is
  entered before any client has completed `registPropertyCB`, and there is no
  spurious wake-up.

  * `Locks`: who holds `m_lockClis` and who can be blocked, on every run;
  * `Woken`: on the runs in time, a blocked thread has missed no signal;
  * `wakeup_in_time`: the thread is never blocked after a registration, and it
    gets past the wait only after one;
  * `wakeup_lost`: a run in which it blocks for ever.
-/
import IotWrap.Startup

namespace IotWrap

open Lib

namespace Startup

/-! ## 1. The lock -/

/-- The client is in the part of `clientActive` that holds the lock. -/
def ClientHolds : ClientPc → Prop
  | .signalling _ | .signalled _ => True
  | _ => False

/-- **Who holds the lock and who can be blocked.** -/
structure Locks (s : Startup) : Prop where
  shadow : s.shadow = .locked ∨ s.shadow = .returned → s.clis.owner = some .shadow
  client : ∀ n, ClientHolds (s.client n) → s.clis.owner = some (.client n)
  waiters : ∀ t ∈ s.clis.waiters, t = Thread.shadow
  nodup : s.clis.waiters.Nodup
  waiting : Thread.shadow ∈ s.clis.waiters → s.shadow = .waiting

/-- A step that goes one of two ways, each outside of the section. -/
theorem not_ite {P : ClientPc → Prop} {p : Prop} [Decidable p] {a b : ClientPc} (ha : ¬ P a)
    (hb : ¬ P b) : ¬ P (if p then a else b) := by
  split
  · exact ha
  · exact hb

theorem locks_init (reportFlag : Bool) : Locks (init reportFlag) where
  shadow h := by rcases h with h | h <;> cases h
  client _ h := absurd h id
  waiters _ h := absurd h List.not_mem_nil
  nodup := List.nodup_nil
  waiting h := absurd h List.not_mem_nil

/-- A step of one client that leaves the lock alone and ends outside of it. -/
theorem Locks.step_client {s s' : Startup} (h : Locks s) (hc : s'.clis = s.clis)
    (hs : s'.shadow = s.shadow) (n : Nat) {pc : ClientPc} (hpc : ¬ ClientHolds pc)
    (hcl : s'.client = Function.update s.client n pc) : Locks s' where
  shadow := by rw [hc, hs]; exact h.shadow
  client m hm := by
    rw [hcl] at hm
    rw [hc]
    by_cases hmn : m = n
    · subst hmn
      rw [Function.update_self] at hm
      exact absurd hm hpc
    · rw [Function.update_of_ne hmn] at hm
      exact h.client m hm
  waiters := by rw [hc]; exact h.waiters
  nodup := by rw [hc]; exact h.nodup
  waiting := by rw [hc, hs]; exact h.waiting

/-- While the shadow thread holds the lock no client does. -/
theorem Locks.not_client {s : Startup} (h : Locks s)
    (hs : s.shadow = .locked ∨ s.shadow = .returned) (n : Nat) : ¬ ClientHolds (s.client n) := by
  intro hn
  have hc := h.client n hn
  rw [h.shadow hs] at hc
  cases hc

/-- While the lock is free nobody holds it. -/
theorem Locks.free_client {s : Startup} (h : Locks s) (hf : s.clis.Free) (n : Nat) :
    ¬ ClientHolds (s.client n) := by
  intro hn
  have hc := h.client n hn
  rw [show s.clis.owner = none from hf] at hc
  cases hc

theorem Locks.free_shadow {s : Startup} (h : Locks s) (hf : s.clis.Free) :
    ¬ (s.shadow = .locked ∨ s.shadow = .returned) := by
  intro hs
  have hc := h.shadow hs
  rw [show s.clis.owner = none from hf] at hc
  cases hc

/-- A thread that is not in the wait is not blocked. -/
theorem Locks.not_blocked {s : Startup} (h : Locks s) (hs : s.shadow ≠ .waiting) :
    Thread.shadow ∉ s.clis.waiters := fun hm => hs (h.waiting hm)

/-- **Every step keeps the lock facts.** -/
theorem locks_next {s : Startup} (h : Locks s) (l : Label) (he : s.enabled l) :
    Locks (s.next l) := by
  cases l with
  | setupShadow hd =>
    have hpc : s.shadow = .setupShadow := he
    have hnb := h.not_blocked (by rw [hpc]; decide)
    exact ⟨fun hs => (by rcases hs with hs | hs <;> cases hs), h.client, h.waiters, h.nodup,
      fun hm => absurd hm hnb⟩
  | lock =>
    obtain ⟨hpc, hf⟩ := he
    have hnb := h.not_blocked (by rw [hpc]; decide)
    exact ⟨fun _ => rfl, fun n hn => absurd hn (h.free_client hf n), h.waiters, h.nodup,
      fun hm => absurd hm hnb⟩
  | wait =>
    have hpc : s.shadow = .locked := he
    have hnb := h.not_blocked (by rw [hpc]; decide)
    refine ⟨fun hs => (by rcases hs with hs | hs <;> cases hs),
      fun n hn => absurd hn (h.not_client (.inl hpc) n), fun t ht => ?_,
      List.nodup_cons.mpr ⟨hnb, h.nodup⟩, fun _ => rfl⟩
    rcases List.mem_cons.mp ht with rfl | ht
    · rfl
    · exact h.waiters t ht
  | spurious =>
    exact ⟨h.shadow, h.client, fun t ht => h.waiters t (List.mem_of_mem_erase ht), h.nodup.erase _,
      fun hm => h.waiting (List.mem_of_mem_erase hm)⟩
  | reacquire =>
    obtain ⟨hpc, hnb, hf⟩ := he
    exact ⟨fun _ => rfl, fun n hn => absurd hn (h.free_client hf n), h.waiters, h.nodup,
      fun hm => absurd hm hnb⟩
  | unlock =>
    have hpc : s.shadow = .returned := he
    have hnb := h.not_blocked (by rw [hpc]; decide)
    exact ⟨fun hs => (by rcases hs with hs | hs <;> cases hs),
      fun n hn => absurd hn (h.not_client (.inr hpc) n), h.waiters, h.nodup,
      fun hm => absurd hm hnb⟩
  | sweep =>
    have hpc : s.shadow = .passed := he
    have hnb := h.not_blocked (by rw [hpc]; decide)
    exact ⟨fun hs => (by rcases hs with hs | hs <;> cases hs), h.client, h.waiters, h.nodup,
      fun hm => absurd hm hnb⟩
  | finish =>
    have hpc : s.shadow = .swept := he
    have hnb := h.not_blocked (by rw [hpc]; decide)
    exact ⟨fun hs => (by rcases hs with hs | hs <;> cases hs), h.client, h.waiters, h.nodup,
      fun hm => absurd hm hnb⟩
  | poll n => exact h.step_client rfl rfl n (not_ite id id) rfl
  | limit n => exact h.step_client rfl rfl n (not_ite id id) rfl
  | create n name => exact h.step_client rfl rfl n id rfl
  | followProperty n c key type size mem =>
    exact h.step_client rfl rfl n (not_ite id id) rfl
  | addProperty n c name type size mem =>
    simp only [next]
    split
    · exact h.step_client rfl rfl n id rfl
    · exact h.step_client rfl rfl n (by split <;> exact id) rfl
  | register n c attr => exact h.step_client rfl rfl n id rfl
  | followCommand n c cmd => exact ⟨h.shadow, h.client, h.waiters, h.nodup, h.waiting⟩
  | registCommandCB n c cb => exact ⟨h.shadow, h.client, h.waiters, h.nodup, h.waiting⟩
  | registPropertyCB n c cb => exact h.step_client rfl rfl n (not_ite id id) rfl
  | lockActive n c =>
    obtain ⟨hpc, hf⟩ := he
    refine ⟨fun hs => absurd hs (h.free_shadow hf), fun m hm => ?_, h.waiters, h.nodup, h.waiting⟩
    by_cases hmn : m = n
    · subst hmn
      rfl
    · rw [show (s.next (.lockActive n c)).client m = s.client m from goto_ne _ hmn _] at hm
      exact absurd hm (h.free_client hf m)
  | signal n c w =>
    obtain ⟨hpc, hw⟩ := he
    have hown : s.clis.owner = some (.client n) := h.client n (by rw [hpc]; trivial)
    have hempty : (s.clis.signal w).waiters = [] := Monitor.signal_only h.waiters h.nodup hw
    have hwait : (s.next (.signal n c w)).clis.waiters = [] := hempty
    refine ⟨fun hs => ?_, fun m hm => ?_, ?_, ?_, ?_⟩
    · rw [h.shadow hs] at hown
      cases hown
    · show (s.clis.signal w).owner = _
      rw [Monitor.signal_owner, hown]
      by_cases hmn : m = n
      · rw [hmn]
      · rw [show (s.next (.signal n c w)).client m = s.client m from goto_ne _ hmn _] at hm
        rw [← hown]
        exact h.client m hm
    · rw [hwait]
      exact fun t ht => absurd ht List.not_mem_nil
    · rw [hwait]
      exact List.nodup_nil
    · rw [hwait]
      exact fun hm => absurd hm List.not_mem_nil
  | unlockActive n c =>
    have hpc : s.client n = .signalled c := he
    have hown : s.clis.owner = some (.client n) := h.client n (by rw [hpc]; trivial)
    refine ⟨fun hs => ?_, fun m hm => ?_, h.waiters, h.nodup, h.waiting⟩
    · have hs' := h.shadow hs
      rw [hown] at hs'
      cases hs'
    · by_cases hmn : m = n
      · subst hmn
        rw [show (s.next (.unlockActive m c)).client m = .ready c from goto_self _ _ _] at hm
        exact absurd hm id
      · rw [show (s.next (.unlockActive n c)).client m = s.client m from goto_ne _ hmn _] at hm
        have hm' := h.client m hm
        rw [hown] at hm'
        cases hm'
        exact absurd rfl hmn

theorem locks_reach {C : Startup → Label → Prop} {s : Startup} (h : machine.Reach C s) :
    Locks s := by
  refine h.inv (I := Locks) ?_ fun s l hI _ he => locks_next hI l he
  intro s h0
  obtain ⟨reportFlag, rfl⟩ := h0
  exact locks_init reportFlag

/-! ## 2. The runs in time -/

/-- **The condition on one step**: the shadow thread enters its wait before any
    client has completed `registPropertyCB`, and does not wake spuriously. -/
def InTime (s : Startup) : Label → Prop
  | .wait => s.completed = []
  | .spurious => False
  | _ => True

instance (s : Startup) : DecidablePred (InTime s)
  | .wait => inferInstanceAs (Decidable (s.completed = []))
  | .spurious => .isFalse id
  | .setupShadow _ | .lock | .reacquire | .unlock | .sweep | .finish | .poll _ | .limit _
  | .create _ _ | .followProperty _ _ _ _ _ _ | .addProperty _ _ _ _ _ _ | .register _ _ _
  | .followCommand _ _ _ | .registCommandCB _ _ _ | .registPropertyCB _ _ _ | .lockActive _ _
  | .signal _ _ _ | .unlockActive _ _ => .isTrue trivial

/-- The client has signalled and still holds the lock. -/
def Signalled : ClientPc → Prop
  | .signalled _ => True
  | _ => False

/-- The thread has left the wait. -/
def Returned : ShadowPc → Prop
  | .returned | .passed | .swept | .done => True
  | _ => False

/-- **No signal was missed**: a blocked thread has nobody before it that
    signalled, a woken one has, and one that returned has a completed client. -/
structure Woken (s : Startup) : Prop where
  blocked : Thread.shadow ∈ s.clis.waiters → s.completed = [] ∧ ∀ n, ¬ Signalled (s.client n)
  awake : s.shadow = .waiting → Thread.shadow ∉ s.clis.waiters →
    s.completed ≠ [] ∨ ∃ n, Signalled (s.client n)
  returned : Returned s.shadow → s.completed ≠ []

theorem woken_init (reportFlag : Bool) : Woken (init reportFlag) where
  blocked h := absurd h List.not_mem_nil
  awake h := by cases h
  returned h := absurd h id

theorem signalled_holds {pc : ClientPc} (h : Signalled pc) : ClientHolds pc := by
  cases pc <;> first | exact absurd h id | trivial

/-- A step of one client that neither signals nor completes. -/
theorem Woken.step_client {s s' : Startup} (h : Woken s) (hc : s'.clis.waiters = s.clis.waiters)
    (hs : s'.shadow = s.shadow) (hcomp : s'.completed = s.completed) (n : Nat) {pc : ClientPc}
    (hold : ¬ Signalled (s.client n)) (hpc : ¬ Signalled pc)
    (hcl : s'.client = Function.update s.client n pc) : Woken s' := by
  have hsig : ∀ m, Signalled (s'.client m) ↔ Signalled (s.client m) := by
    intro m
    rw [hcl]
    by_cases hmn : m = n
    · subst hmn
      rw [Function.update_self]
      exact ⟨fun hm => absurd hm hpc, fun hm => absurd hm hold⟩
    · rw [Function.update_of_ne hmn]
  refine ⟨fun hb => ?_, fun hw hn => ?_, fun hr => ?_⟩
  · rw [hc] at hb
    rw [hcomp]
    exact ⟨(h.blocked hb).1, fun m hm => (h.blocked hb).2 m ((hsig m).mp hm)⟩
  · rw [hs] at hw
    rw [hc] at hn
    rw [hcomp]
    rcases h.awake hw hn with ha | ⟨m, hm⟩
    · exact .inl ha
    · exact .inr ⟨m, (hsig m).mpr hm⟩
  · rw [hs] at hr
    rw [hcomp]
    exact h.returned hr

/-- **A step in time misses no signal.** -/
theorem woken_next {s : Startup} (hL : Locks s) (h : Woken s) (l : Label) (hC : InTime s l)
    (he : s.enabled l) : Woken (s.next l) := by
  cases l with
  | setupShadow hd =>
    have hpc : s.shadow = .setupShadow := he
    have hnb := hL.not_blocked (by rw [hpc]; decide)
    exact ⟨fun hb => absurd hb hnb, fun hw _ => (by cases hw), fun hr => absurd hr id⟩
  | lock =>
    have hnb := hL.not_blocked (by rw [he.1]; decide)
    exact ⟨fun hb => absurd hb hnb, fun hw _ => (by cases hw), fun hr => absurd hr id⟩
  | wait =>
    have hpc : s.shadow = .locked := he
    refine ⟨fun _ => ⟨hC, fun n hn => ?_⟩, fun _ hn => absurd List.mem_cons_self hn,
      fun hr => absurd hr id⟩
    exact hL.not_client (.inl hpc) n (signalled_holds hn)
  | spurious => exact absurd hC id
  | reacquire =>
    obtain ⟨hpc, hnb, hf⟩ := he
    refine ⟨fun hb => absurd hb hnb, fun hw _ => (by cases hw), fun _ => ?_⟩
    -- the lock is free, so the client that signalled has also completed
    rcases h.awake hpc hnb with ha | ⟨n, hn⟩
    · exact ha
    · exact absurd (signalled_holds hn) (hL.free_client hf n)
  | unlock =>
    have hpc : s.shadow = .returned := he
    have hnb := hL.not_blocked (by rw [hpc]; decide)
    exact ⟨fun hb => absurd hb hnb, fun hw _ => (by cases hw),
      fun _ => h.returned (by rw [hpc]; trivial)⟩
  | sweep =>
    have hpc : s.shadow = .passed := he
    have hnb := hL.not_blocked (by rw [hpc]; decide)
    exact ⟨fun hb => absurd hb hnb, fun hw _ => (by cases hw),
      fun _ => h.returned (by rw [hpc]; trivial)⟩
  | finish =>
    have hpc : s.shadow = .swept := he
    have hnb := hL.not_blocked (by rw [hpc]; decide)
    exact ⟨fun hb => absurd hb hnb, fun hw _ => (by cases hw),
      fun _ => h.returned (by rw [hpc]; trivial)⟩
  | poll n =>
    have hpc : s.client n = .polling := he
    exact h.step_client rfl rfl rfl n (by rw [hpc]; exact id) (not_ite id id) rfl
  | limit n =>
    have hpc : s.client n = .connected := he
    exact h.step_client rfl rfl rfl n (by rw [hpc]; exact id) (not_ite id id) rfl
  | create n name => exact h.step_client rfl rfl rfl n (by rw [he.1]; exact id) id rfl
  | followProperty n c key type size mem =>
    exact h.step_client rfl rfl rfl n (by rw [he.1]; exact id) (not_ite id id) rfl
  | addProperty n c name type size mem =>
    have hpc : s.client n = .following c name type size mem := he
    simp only [next]
    split
    · exact h.step_client rfl rfl rfl n (by rw [hpc]; exact id) id rfl
    · exact h.step_client rfl rfl rfl n (by rw [hpc]; exact id) (by split <;> exact id) rfl
  | register n c attr =>
    have hpc : s.client n = .adding c attr := he
    exact h.step_client rfl rfl rfl n (by rw [hpc]; exact id) id rfl
  | followCommand n c cmd => exact ⟨h.blocked, h.awake, h.returned⟩
  | registCommandCB n c cb => exact ⟨h.blocked, h.awake, h.returned⟩
  | registPropertyCB n c cb =>
    have hpc : s.client n = .ready c := he
    exact h.step_client rfl rfl rfl n (by rw [hpc]; exact id) (not_ite id id) rfl
  | lockActive n c => exact h.step_client rfl rfl rfl n (by rw [he.1]; exact id) id rfl
  | signal n c w =>
    -- whoever was blocked is not any more, and this client is the one that signalled
    have hwait : (s.next (.signal n c w)).clis.waiters = [] :=
      Monitor.signal_only hL.waiters hL.nodup he.2
    have hn : Signalled ((s.next (.signal n c w)).client n) := by
      rw [show (s.next (.signal n c w)).client n = .signalled c from goto_self _ _ _]
      trivial
    refine ⟨fun hb => ?_, fun _ _ => .inr ⟨n, hn⟩, h.returned⟩
    rw [hwait] at hb
    exact absurd hb List.not_mem_nil
  | unlockActive n c =>
    have hpc : s.client n = .signalled c := he
    refine ⟨fun hb => ?_, fun _ _ => .inl (List.cons_ne_nil n _), fun _ => List.cons_ne_nil n _⟩
    exact absurd (by rw [hpc]; trivial) ((h.blocked hb).2 n)

theorem woken_reach {s : Startup} (h : machine.Reach InTime s) : Woken s := by
  refine h.inv_of (I := Woken) (J := Locks) (fun s hs => locks_reach hs) ?_
    fun s l hL hI hC he => woken_next hL hI l hC he
  intro s h0
  obtain ⟨reportFlag, rfl⟩ := h0
  exact woken_init reportFlag

/-! ## 3. The wake-up -/

/-- The shadow thread is past `waitForClient`. -/
def PastWait : ShadowPc → Prop
  | .passed | .swept | .done => True
  | _ => False

/-- The thread is not blocked once a client has completed `registPropertyCB`,
    and it is past the wait only once one has. -/
def NoLostWakeup (s : Startup) : Prop :=
  ¬ (Thread.shadow ∈ s.clis.waiters ∧ s.completed ≠ []) ∧
    (PastWait s.shadow → s.completed ≠ [])

/-- **No lost wake-up on the runs in time.** -/
theorem wakeup_in_time {s : Startup} (h : machine.Reach InTime s) : NoLostWakeup s := by
  have hW := woken_reach h
  refine ⟨fun ⟨hb, hc⟩ => hc (hW.blocked hb).1, fun hp => hW.returned ?_⟩
  cases hs : s.shadow <;> rw [hs] at hp <;> first | exact absurd hp id | trivial

/-- One client connects, is created and registers its property callback. -/
def registers (n : Nat) (c : ClientId) (w : Option Thread) : List Label :=
  [.poll n, .limit n, .create n (lit "tv"), .registPropertyCB n c 7, .lockActive n c,
    .signal n c w, .unlockActive n c]

/-- `wakeup_in_time` for the run in which the client registers while the thread
    waits: the thread passes. -/
theorem wakeup_in_time_passed :
    ∃ s, machine.Reach InTime s ∧ s.shadow = .passed ∧ NoLostWakeup s := by
  have hrun : ((machine.run InTime (init false)
      ([.setupShadow 0, .lock, .wait] ++ registers 0 0 (some .shadow) ++
        [.reacquire, .unlock])).map fun s => s.shadow) = some .passed := by decide
  have h0 : machine.init (init false) := ⟨false, rfl⟩
  obtain ⟨s, hs, hp⟩ := Machine.exists_of_run h0 hrun
  exact ⟨s, hs, hp, wakeup_in_time hs⟩

/-- **A lost wake-up**: `m_shadow` is published, the client registers and signals
    nobody, then the thread enters its wait. -/
theorem wakeup_lost : ¬ ∀ s, machine.Reachable s → NoLostWakeup s := by
  intro h
  have hrun : ((machine.run (fun _ _ => True) (init false)
      ([.setupShadow 0] ++ registers 0 0 none ++ [.lock, .wait])).map fun s =>
        decide (Thread.shadow ∈ s.clis.waiters ∧ s.completed ≠ [])) = some true := by decide
  have h0 : machine.init (init false) := ⟨false, rfl⟩
  obtain ⟨s, hs, hb⟩ := Machine.exists_of_run h0 hrun
  exact (h s hs).1 (of_decide_eq_true hb)

end Startup

end IotWrap
