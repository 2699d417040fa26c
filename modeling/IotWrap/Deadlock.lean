/-
  File:      IotWrap/Deadlock.lean
  Subject:   When the server's threads deadlock.

  The order of the locks is `m_lockAttrs`, `m_lockClis` as long as no handler's
  request wants `m_lockAttrs`; while one does it is `m_lockClis`, `m_lockAttrs`,
  since the request runs under the `m_lockClis` of the dispatch it was issued in.
  `updateProperties` fits the first order only, and no order has room for a
  handler's request that takes `m_lockClis`.

  * `Known.not_deadlock`: under the condition one of the two orders holds;
  * `Known.doomed_of_not_apart`: a step that breaks it makes a deadlock reachable;
  * `locks_apart`: both, over every run;
  * `report_in_getter`: a client that reports from its getter.
-/
import IotWrap.Locking

namespace IotWrap

open Lib Lib.Locks

namespace Locking

open Lock Instr

/-! ## 1. No deadlock -/

def attrsFirst : Lock → Nat
  | m_lockAttrs => 0
  | m_lockClis => 1

def clisFirst : Lock → Nat
  | m_lockClis => 0
  | m_lockAttrs => 1

/-- Who serves no request holds what it owns. -/
theorem owner_of_holds {s : State Lock} {i : Nat} {k : Lock} (hi : (s.task i).caller = none)
    (h : Holds s i k) : s.owner k = some i := by
  cases h with
  | own h => exact h
  | caller hj _ =>
    rw [hi] at hj
    cases hj

theorem nested_iff {s : State Lock} {i : Nat} :
    (s.view i).nested = true ↔ (s.task i).caller ≠ none :=
  Option.isSome_iff_ne_none

theorem At.owns {s : State Lock} {i : Nat} {p : Point} (h : At (s.view i) p) {k : Lock} :
    s.owner k = some i ↔ p.owns k = true := by
  rw [← h.1]
  exact beq_iff_eq.symm

namespace Known

variable {s : State Lock}

/-- A task that is in a call serves no request and is in a dispatch. -/
theorem of_call (h : Known s) {i : Nat} (hp : (s.task i).phase ≠ .running) :
    (s.task i).caller = none ∧ ∃ n, (∃ bs, At (s.view i) (.inClis (n + 1) bs)) ∨
      ∃ ns, At (s.view i) (.inGet (n + 1) ns) := by
  obtain ⟨c, hc⟩ := h.sound.calls i hp
  obtain ⟨p, hat, hnested⟩ := h.located i
  obtain ⟨q, hq, -⟩ := Point.next_of_code (hat.2.symm.trans hc)
  constructor
  · by_contra hne
    rcases hnested (nested_iff.mpr hne) with rfl | rfl | rfl <;> cases hq
  · rcases Point.next_call hq with ⟨n, bs, rfl⟩ | ⟨n, ns, rfl⟩
    · exact ⟨n, .inl ⟨bs, hat⟩⟩
    · exact ⟨n, .inr ⟨ns, hat⟩⟩

/-- Who takes `m_lockClis` serves no request, does not own it, and owns
    `m_lockAttrs` in `updateProperties` only. -/
theorem of_clis (h : Known s) {i : Nat} {c : Code} (hc : (s.task i).code = acquire m_lockClis :: c) :
    (s.task i).caller = none ∧ s.owner m_lockClis ≠ some i ∧
      (s.owner m_lockAttrs = some i → Updates (s.view i)) := by
  obtain ⟨p, hat, hnested⟩ := h.located i
  obtain ⟨q, hq, -⟩ := Point.next_of_code (hat.2.symm.trans hc)
  refine ⟨?_, ?_⟩
  · by_contra hne
    rcases hnested (nested_iff.mpr hne) with rfl | rfl | rfl <;> cases hq
  · rcases Point.next_clis hq with ⟨n, bs, rfl⟩ | ⟨n, ns, rfl⟩
    · exact ⟨fun ho => Bool.noConfusion (hat.owns.mp ho),
        fun ho => Bool.noConfusion (hat.owns.mp ho)⟩
    · exact ⟨fun ho => Bool.noConfusion (hat.owns.mp ho), fun _ => hat.updates_iff.mpr rfl⟩

/-- Who takes `m_lockAttrs` owns nothing. -/
theorem of_attrs (h : Known s) {i : Nat} {c : Code}
    (hc : (s.task i).code = acquire m_lockAttrs :: c) (k : Lock) : s.owner k ≠ some i := by
  obtain ⟨p, hat, -⟩ := h.located i
  obtain ⟨q, hq, -⟩ := Point.next_of_code (hat.2.symm.trans hc)
  intro ho
  have hown := hat.owns.mp ho
  rcases Point.next_attrs hq with ⟨bs, rfl⟩ | ⟨ns, rfl⟩
  · cases k <;> cases hown
  · cases k <;> cases hown

/-- **Without a handler's request** for `m_lockAttrs` the order is `m_lockAttrs`,
    `m_lockClis`. -/
theorem orderly_attrsFirst (h : Known s) (hr : ∀ j, ¬ Reports (s.view j)) :
    Orderly s attrsFirst := by
  intro i k c _ hc l hl
  cases k with
  | m_lockAttrs =>
    have hcaller : (s.task i).caller = none := by
      by_contra hne
      exact hr i ⟨nested_iff.mpr hne, (show (s.view i).code = _ from hc) ▸ List.mem_cons_self⟩
    exact absurd (owner_of_holds hcaller hl) (h.of_attrs hc l)
  | m_lockClis =>
    obtain ⟨hcaller, hclis, _⟩ := h.of_clis hc
    cases l with
    | m_lockAttrs => exact Nat.zero_lt_one
    | m_lockClis => exact absurd (owner_of_holds hcaller hl) hclis

/-- **Without an update** the order is `m_lockClis`, `m_lockAttrs`: a handler's
    request takes `m_lockAttrs` under the `m_lockClis` of its caller. -/
theorem orderly_clisFirst (h : Known s) (hu : ∀ u, ¬ Updates (s.view u)) :
    Orderly s clisFirst := by
  intro i k c _ hc l hl
  cases k with
  | m_lockClis =>
    obtain ⟨hcaller, hclis, hattrs⟩ := h.of_clis hc
    cases l with
    | m_lockAttrs => exact absurd (hattrs (owner_of_holds hcaller hl)) (hu i)
    | m_lockClis => exact absurd (owner_of_holds hcaller hl) hclis
  | m_lockAttrs =>
    cases l with
    | m_lockClis => exact Nat.zero_lt_one
    | m_lockAttrs =>
      cases hl with
      | own ho => exact absurd ho (h.of_attrs hc _)
      | @caller i' _ _ hcaller hl =>
        -- the caller is in a dispatch outside `updateProperties`
        have hne : (s.task i).code ≠ [] := fun hnil => by
          rw [hc] at hnil
          cases hnil
        have hphase := h.sound.pending i' i hcaller hne
        obtain ⟨htop, n, ⟨bs, hat⟩ | ⟨ns, hat⟩⟩ :=
          h.of_call (i := i') (by rw [hphase]; exact Phase.noConfusion)
        · exact absurd (hat.owns.mp (owner_of_holds htop hl)) Bool.false_ne_true
        · exact absurd (hat.updates_iff.mpr rfl) (hu i')

theorem not_deadlock (h : Known s) : ¬ Deadlock (Waits s) := by
  by_cases hr : ∃ j, Reports (s.view j)
  · obtain ⟨j, hj⟩ := hr
    have hu : ∀ u, ¬ Updates (s.view u) := fun u hu => h.excluded u j hu hj
    have hb : ∀ k, clisFirst k < 2 := fun k => by cases k <;> decide
    exact (h.orderly_clisFirst hu).not_deadlock h.sound hb
  · have hb : ∀ k, attrsFirst k < 2 := fun k => by cases k <;> decide
    exact (h.orderly_attrsFirst (not_exists.mp hr)).not_deadlock h.sound hb

end Known

/-! ## 2. What breaks the condition -/

/-- A deadlock can be reached from here. -/
def Doomed (s : State Lock) : Prop :=
  ∃ s', (machine.after s).Reachable s' ∧ Deadlock (Waits s')

theorem Doomed.of_deadlock {s : State Lock} (h : Deadlock (Waits s)) : Doomed s :=
  ⟨s, .init s rfl, h⟩

theorem Doomed.of_exec {s : State Lock} {i : Nat} (hp : (s.task i).phase = .running)
    (hr : s.Ready i) (h : Doomed (s.exec i)) : Doomed s := by
  obtain ⟨s', hs', hd⟩ := h
  exact ⟨s', Machine.after_step (l := .step i) trivial ⟨hp, hr⟩ hs', hd⟩

section Doomed

variable {s : State Lock} {i j u : Nat} {c c' : Code}

/-- An update begins while a handler's request wants `m_lockAttrs`. -/
theorem doomed_update (hi : (s.task i).phase = .nested j) (hj : (s.task j).phase = .running)
    (hc : (s.task j).code = acquire m_lockAttrs :: c) (hu : (s.task u).phase = .running)
    (hcu : (s.task u).code = acquire m_lockAttrs :: acquire m_lockClis :: c')
    (hui : i ≠ u) (huj : j ≠ u) (hA : s.owner m_lockAttrs = none)
    (hC : s.owner m_lockClis = some i) : Doomed s := by
  refine .of_exec hu (ready_acquire hcu hA) (.of_deadlock ?_)
  have howner := exec_acquire_owner hcu
  have htask := exec_acquire_task hcu
  refine deadlock_via (i := i) (j := j) (z := u) (k := m_lockAttrs) (c := c) ?_ ?_ ?_ ?_ ?_
    (congrArg Task.code htask) ?_
  · rw [exec_task_of_ne hui, hi]
  · rw [exec_task_of_ne huj, hj]
  · rw [exec_task_of_ne huj, hc]
  · exact howner m_lockAttrs
  · rw [htask, hu]
  · rw [howner, if_neg (by decide), hC]

/-- A handler's request takes `m_lockAttrs`, leaves it and takes `m_lockClis`. -/
theorem doomed_push (hi : (s.task i).phase = .nested j) (hj : (s.task j).phase = .running)
    (hc : (s.task j).code = acquire m_lockAttrs :: release m_lockAttrs :: acquire m_lockClis :: c)
    (hij : i ≠ j) (hA : s.owner m_lockAttrs = none) (hC : s.owner m_lockClis = some i) :
    Doomed s := by
  refine .of_exec hj (ready_acquire hc hA) ?_
  have howner := exec_acquire_owner hc
  have htask := exec_acquire_task hc
  have hc' : ((s.exec j).task j).code = release m_lockAttrs :: acquire m_lockClis :: c :=
    congrArg Task.code htask
  have howner' := exec_release_owner hc'
  have htask' := exec_release_task hc'
  have hj' : ((s.exec j).task j).phase = .running := by rw [htask, hj]
  refine .of_exec hj' (ready_release hc' (howner m_lockAttrs)) (.of_deadlock ?_)
  refine deadlock_own (i := i) (j := j) (k := m_lockClis) ?_ ?_ (congrArg Task.code htask') ?_
  · rw [exec_task_of_ne hij, exec_task_of_ne hij, hi]
  · rw [htask', hj']
  · rw [howner', if_neg (by decide), howner, if_neg (by decide), hC]

/-- A handler's request wants `m_lockAttrs`: whoever owns it leaves it in one step,
    or there is a deadlock. -/
theorem doomed_of_free (hs : Sound s) (hi : (s.task i).phase = .nested j)
    (hj : (s.task j).phase = .running) (hc : (s.task j).code = acquire m_lockAttrs :: c)
    (hC : s.owner m_lockClis = some i)
    (hat : ∀ z, s.owner m_lockAttrs = some z → ∃ p, At (s.view z) p)
    (hfree : ∀ t : State Lock, (∀ x, s.owner m_lockAttrs ≠ some x → t.task x = s.task x) →
      s.owner m_lockAttrs ≠ some i → t.owner m_lockAttrs = none → t.owner m_lockClis = some i →
      Doomed t) : Doomed s := by
  match ho : s.owner m_lockAttrs with
  | none => exact hfree s (fun _ _ => rfl) (by simp [ho]) ho hC
  | some z =>
    by_cases hzi : z = i
    · exact .of_deadlock (deadlock_own hi hj hc (hzi ▸ ho))
    obtain ⟨p, hp⟩ := hat z ho
    have hown := hp.owns.mp ho
    have hrelease : ∀ {c' : Code}, p.code = release m_lockAttrs :: c' → Doomed s := by
      intro c' hcode
      have hcz : (s.task z).code = release m_lockAttrs :: c' := hp.2.trans hcode
      refine .of_exec (hs.running_of_code hcz (by decide)) (ready_release hcz ho)
        (hfree _ ?_ ?_ ?_ ?_)
      · intro x hx
        exact exec_task_of_ne fun h => hx (h ▸ ho)
      · rw [ho]
        exact fun h => hzi (Option.some.inj h)
      · exact exec_release_owner hcz m_lockAttrs
      · rw [exec_release_owner hcz, if_neg (by decide), hC]
    cases p with
    | idle bs => cases hown
    | inClis n bs => cases hown
    | update ns => cases hown
    | inAttrs bs => exact hrelease rfl
    | polling ns =>
      cases ns with
      | nil => exact hrelease rfl
      | cons n ns =>
        have hcz : (s.task z).code = acquire m_lockClis :: _ := hp.2.trans (Point.code_eq _)
        have hrun := hs.running_of_code hcz (by decide)
        exact .of_deadlock (deadlock_via hi hj hc ho hrun hcz hC)
    | inGet n ns =>
      have hz : s.owner m_lockClis = some z := hp.owns.mpr rfl
      exact absurd (Option.some.inj (hz.symm.trans hC)) hzi

/-- Task `i`'s handler has issued a request with the code `c`. -/
def issued (s : State Lock) (i : Nat) (c : Code) : State Lock :=
  (s.add c (some i)).setPhase i (.nested s.fresh)

theorem issued_task {c : Code} {x : Nat} (hi : x ≠ i) (hx : x ≠ s.fresh) :
    (issued s i c).task x = s.task x := by
  unfold issued
  rw [State.setPhase_task, if_neg hi, State.add_task, if_neg hx]

theorem issued_fresh {c : Code} (hi : i ≠ s.fresh) :
    (issued s i c).task s.fresh = ⟨c, .running, some i⟩ := by
  unfold issued
  rw [State.setPhase_task, if_neg (Ne.symm hi), State.add_task, if_pos rfl]

theorem issued_caller (s : State Lock) (i : Nat) (c : Code) :
    ((issued s i c).task i).phase = .nested s.fresh := by
  unfold issued
  rw [State.setPhase_task, if_pos rfl]

end Doomed

namespace Known

variable {s : State Lock} {i j u : Nat}

/-- Who is in a call owns `m_lockClis`. -/
theorem owner_of_call (h : Known s) (hp : (s.task i).phase ≠ .running) :
    s.owner m_lockClis = some i := by
  obtain ⟨-, n, ⟨bs, hat⟩ | ⟨ns, hat⟩⟩ := h.of_call hp
  · exact hat.owns.mpr rfl
  · exact hat.owns.mpr rfl

/-- A handler's request that wants `m_lockAttrs` is about to take it. -/
theorem of_reports (h : Known s) (hj : Reports (s.view j)) :
    ∃ i c, (s.task i).phase = .nested j ∧ (s.task j).phase = .running ∧
      (s.task j).code = acquire m_lockAttrs :: c ∧ s.owner m_lockClis = some i := by
  obtain ⟨p, hat, hnested⟩ := h.located j
  have hmem : acquire m_lockAttrs ∈ p.code := hat.2 ▸ hj.2
  obtain ⟨i, hcaller⟩ := Option.ne_none_iff_exists'.mp (nested_iff.mp hj.1)
  rcases hnested hj.1 with rfl | rfl | rfl
  · have hc : (s.task j).code = autolock m_lockAttrs := hat.2
    have hphase := h.sound.pending i j hcaller (by rw [hc]; exact List.cons_ne_nil _ _)
    exact ⟨i, _, hphase, h.sound.running_of_code hc (by decide), hc,
      h.owner_of_call (by rw [hphase]; exact Phase.noConfusion)⟩
  · exact absurd hmem (by decide)
  · exact absurd hmem (by decide)

/-- An update with a property to read has both locks ahead, or owns the first one
    and takes or owns the other. -/
theorem of_updates (h : Known s) (hu : Updates (s.view u)) :
    (∃ c, (s.task u).code = acquire m_lockAttrs :: acquire m_lockClis :: c) ∨
      s.owner m_lockAttrs = some u ∧
        ((∃ c, (s.task u).code = acquire m_lockClis :: c) ∨ s.owner m_lockClis = some u) := by
  obtain ⟨p, hat, -⟩ := h.located u
  have hreads := hat.updates_iff.mp hu
  cases p with
  | idle bs => cases hreads
  | inAttrs bs => cases hreads
  | inClis n bs => cases hreads
  | update ns =>
    cases ns with
    | nil => cases hreads
    | cons n ns => exact .inl ⟨_, hat.2⟩
  | polling ns =>
    cases ns with
    | nil => cases hreads
    | cons n ns => exact .inr ⟨hat.owns.mpr rfl, .inl ⟨_, hat.2.trans (Point.code_eq _)⟩⟩
  | inGet n ns => exact .inr ⟨hat.owns.mpr rfl, .inr (hat.owns.mpr rfl)⟩

/-- **An update begins** beside a handler's request for `m_lockAttrs`. -/
theorem doomed_start (h : Known s) (n : Nat) (ns : List Nat) (hj : Reports (s.view j)) :
    Doomed (s.add (Operation.updateProperties (n :: ns)).code none) := by
  obtain ⟨i, c, hi, hjrun, hc, hC⟩ := h.of_reports hj
  have hAj := h.of_attrs hc m_lockAttrs
  have hAu : s.owner m_lockAttrs ≠ some s.fresh := fun ho => h.sound.ne_fresh ho rfl
  have hiu : i ≠ s.fresh := h.sound.ne_fresh hC
  have hju : j ≠ s.fresh := Nat.ne_of_lt (hj.lt_fresh h.sound)
  have htask : ∀ x, x ≠ s.fresh →
      (s.add (Operation.updateProperties (n :: ns)).code none).task x = s.task x := fun x hx => by
    rw [State.add_task, if_neg hx]
  have hnew : (s.add (Operation.updateProperties (n :: ns)).code none).task s.fresh =
      ⟨(Operation.updateProperties (n :: ns)).code, .running, none⟩ := by
    rw [State.add_task, if_pos rfl]
  refine doomed_of_free (i := i) (j := j) (c := c) (h.sound.start _) ?_ ?_ ?_ hC ?_ ?_
  · rw [htask i hiu, hi]
  · rw [htask j hju, hjrun]
  · rw [htask j hju, hc]
  · intro z hz
    obtain ⟨p, hat, -⟩ := h.located z
    rw [h.sound.view_add, if_neg (h.sound.ne_fresh hz)]
    exact ⟨p, hat⟩
  · intro t ht hAi hA hCt
    have hti := (ht i hAi).trans (htask i hiu)
    have htj := (ht j hAj).trans (htask j hju)
    have htu := (ht s.fresh hAu).trans hnew
    rw [← hti] at hi
    rw [← htj] at hjrun hc
    exact doomed_update hi hjrun hc (congrArg Task.phase htu) (congrArg Task.code htu) hiu hju
      hA hCt

/-- The tasks from before the request are where they were. -/
theorem issued_at (h : Known s) {c : Code} {z : Nat} {k : Lock} (hz : s.owner k = some z) :
    ∃ p, At ((issued s i c).view z) p := by
  obtain ⟨p, hat, -⟩ := h.located z
  unfold issued
  rw [view_setPhase, h.sound.view_add, if_neg (h.sound.ne_fresh hz)]
  exact ⟨p, hat⟩

/-- **A handler's request takes `m_lockClis`.** -/
theorem doomed_request_clis (h : Known s) (hi : (s.task i).phase = .calling) {r : Request}
    (hr : acquire m_lockClis ∈ r.code) : Doomed (issued s i r.code) := by
  have hC : s.owner m_lockClis = some i := h.owner_of_call (by rw [hi]; exact Phase.noConfusion)
  have hiu : i ≠ s.fresh := h.sound.ne_fresh hC
  have hAu : s.owner m_lockAttrs ≠ some s.fresh := fun ho => h.sound.ne_fresh ho rfl
  have hnew := issued_fresh (s := s) (c := r.code) hiu
  have hcaller := issued_caller s i r.code
  have hrun : ((issued s i r.code).task s.fresh).phase = .running := by rw [hnew]
  rcases r.code_of_clis hr with ⟨c, hc⟩ | ⟨c, hc⟩
  · have hcode : ((issued s i r.code).task s.fresh).code = acquire m_lockClis :: c := by
      rw [hnew, hc]
    exact .of_deadlock (deadlock_own hcaller hrun hcode hC)
  · have hcode : ((issued s i r.code).task s.fresh).code =
        acquire m_lockAttrs :: release m_lockAttrs :: acquire m_lockClis :: c := by rw [hnew, hc]
    refine doomed_of_free (h.sound.request hi _) hcaller hrun hcode hC
      (fun z hz => h.issued_at hz) ?_
    intro t ht hAi hA hCt
    have hti : (t.task i).phase = .nested s.fresh := by rw [ht i hAi, hcaller]
    have htj := ht s.fresh hAu
    rw [← htj] at hrun hcode
    exact doomed_push hti hrun hcode hiu hA hCt

/-- **A handler's request takes `m_lockAttrs`** beside an update. -/
theorem doomed_request_attrs (h : Known s) (hi : (s.task i).phase = .calling) {c : Code}
    (hu : Updates (s.view u)) : Doomed (issued s i (acquire m_lockAttrs :: c)) := by
  have hC : s.owner m_lockClis = some i := h.owner_of_call (by rw [hi]; exact Phase.noConfusion)
  have hiu : i ≠ s.fresh := h.sound.ne_fresh hC
  have hAf : s.owner m_lockAttrs ≠ some s.fresh := fun ho => h.sound.ne_fresh ho rfl
  have huf : u ≠ s.fresh := Nat.ne_of_lt (hu.lt_fresh h.sound)
  have hnew := issued_fresh (s := s) (c := acquire m_lockAttrs :: c) hiu
  have hcaller := issued_caller s i (acquire m_lockAttrs :: c)
  have hrun : ((issued s i (acquire m_lockAttrs :: c)).task s.fresh).phase = .running := by rw [hnew]
  have hcode : ((issued s i (acquire m_lockAttrs :: c)).task s.fresh).code =
      acquire m_lockAttrs :: c := by rw [hnew]
  by_cases hui : u = i
  · -- the handler's own caller is the update
    subst hui
    rcases h.of_updates hu with ⟨c', hcu⟩ | ⟨hA, -⟩
    · have hphase := h.sound.running_of_code hcu (by decide)
      cases hphase.symm.trans hi
    · exact .of_deadlock (deadlock_own hcaller hrun hcode hA)
  · have htu := issued_task (s := s) (c := acquire m_lockAttrs :: c) hui huf
    rcases h.of_updates hu with ⟨c', hcu⟩ | ⟨hA, ⟨c', hcu⟩ | hCu⟩
    · have hurun := h.sound.running_of_code hcu (by decide)
      refine doomed_of_free (h.sound.request hi _) hcaller hrun hcode hC
        (fun z hz => h.issued_at hz) ?_
      intro t ht hAi hA hCt
      have hti : (t.task i).phase = .nested s.fresh := by rw [ht i hAi, hcaller]
      have htj := ht s.fresh hAf
      have htu := (ht u (h.of_attrs hcu _)).trans htu
      rw [← htj] at hrun hcode
      rw [← htu] at hurun hcu
      exact doomed_update hti hrun hcode hurun hcu (Ne.symm hui) (Ne.symm huf) hA hCt
    · have hurun := h.sound.running_of_code hcu (by decide)
      rw [← htu] at hurun hcu
      exact .of_deadlock (deadlock_via hcaller hrun hcode hA hurun hcu hC)
    · exact absurd (Option.some.inj (hCu.symm.trans hC)) hui

/-- A step that breaks the condition makes a deadlock reachable. -/
theorem doomed_of_not_apart (h : Known s) {l : Label Operation Request}
    (he : machine.enabled s l) (hl : ¬ Apart s l) : Doomed (machine.next s l) := by
  cases l with
  | start o =>
    obtain ⟨hu, hj⟩ := Classical.not_imp.mp hl
    obtain ⟨n, ns, rfl⟩ := (updates_begin o).mp hu
    obtain ⟨j, hj⟩ := not_forall.mp hj
    exact h.doomed_start n ns (not_not.mp (Classical.not_imp.mp hj).2)
  | request i r =>
    by_cases hr : acquire m_lockClis ∈ r.code
    · exact h.doomed_request_clis he hr
    · obtain ⟨hrep, hu⟩ := Classical.not_imp.mp fun h => hl ⟨hr, h⟩
      obtain ⟨u, hu⟩ := not_forall.mp hu
      have hcode : r.code = autolock m_lockAttrs := by
        rw [r.code_eq]
        rcases Request.sections_of_clis hr with hs | hs
        · rw [r.code_eq, hs] at hrep
          exact absurd hrep.2 List.not_mem_nil
        · rw [hs]
          rfl
      show Doomed (issued s i r.code)
      rw [hcode]
      exact h.doomed_request_attrs he (not_not.mp (Classical.not_imp.mp hu).2)
  | step i => exact absurd trivial hl
  | reply i => exact absurd trivial hl
  | ret i => exact absurd trivial hl

end Known

/-! ## 3. The server's threads -/

/-- **When the server's threads deadlock.** In no state of a run under the condition
    does a set of threads and calls hold itself up; a step that breaks the condition
    leads to a state where one can. -/
theorem locks_apart (s : State Lock) (h : machine.Reach Apart s) :
    ¬ Deadlock (Waits s) ∧
    ∀ l, machine.enabled s l → ¬ Apart s l →
      ∃ s', (machine.after (machine.next s l)).Reachable s' ∧ Deadlock (Waits s') :=
  ⟨(known_of_reach h).not_deadlock, fun _ he hl => (known_of_reach h).doomed_of_not_apart he hl⟩

/-- A cloud callback whose handler reports a property; before the report has its lock. -/
def reportRun : List (Label Operation Request) :=
  [.start (.cloud 1), .step 0, .step 0, .request 0 (.reportProperty [])]

/-- The report takes its lock beside the dispatch. An update that begins before
    makes a deadlock reachable. -/
theorem locks_apart_report :
    (∃ s, machine.Reach Apart s ∧
      (s.owner m_lockClis, s.owner m_lockAttrs) = (some 0, some 1) ∧ ¬ Deadlock (Waits s)) ∧
    ∃ s, machine.Reach Apart s ∧ ∃ s',
      (machine.after (machine.next s (.start (.updateProperties [1])))).Reachable s' ∧
        Deadlock (Waits s') := by
  have h0 : machine.init .init := rfl
  constructor
  · have hrun : (machine.run Apart .init (reportRun ++ [.step 1])).map
        (fun s => (s.owner m_lockClis, s.owner m_lockAttrs)) = some (some 0, some 1) := by decide
    obtain ⟨s, hr, hs⟩ := Machine.exists_of_run h0 hrun
    exact ⟨s, hr, hs, (locks_apart s hr).1⟩
  · have hrun : (machine.run Apart .init reportRun).map
        (fun s => decide (Apart s (.start (.updateProperties [1])))) = some false := by decide
    obtain ⟨s, hr, hs⟩ := Machine.exists_of_run h0 hrun
    exact ⟨s, hr, (locks_apart s hr).2 _ trivial (of_decide_eq_false hs)⟩

/-- The periodic update reads a property of one client. -/
def getterRun : List (Label Operation Request) :=
  [.start (.updateProperties [1]), .step 0, .step 0, .step 0, .request 0 (.reportProperty [])]

/-- **A client reports from its getter**: the update holds `m_lockAttrs` and waits
    for the getter, the getter for the report, and the report for `m_lockAttrs`. -/
theorem report_in_getter : ¬ ∀ s, machine.Reachable s → ¬ Deadlock (Waits s) := by
  intro h
  have h0 : machine.init .init := rfl
  have hrun : (machine.run (fun _ _ => True) .init getterRun).map
      (fun s => ((s.task 0).phase, s.task 1, s.owner m_lockAttrs)) =
        some (.nested 1, ⟨autolock m_lockAttrs, .running, some 0⟩, some 0) := by decide
  obtain ⟨s, hr, hs⟩ := Machine.exists_of_run h0 hrun
  simp only [Prod.mk.injEq] at hs
  obtain ⟨hphase, htask, hA⟩ := hs
  exact h s hr (deadlock_own hphase (congrArg Task.phase htask) (congrArg Task.code htask) hA)

end Locking

end IotWrap
