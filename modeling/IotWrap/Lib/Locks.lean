/-
  File:      IotWrap/Lib/Locks.lean
  Subject:   Tasks that take exclusive locks and make synchronous calls, and
             DEADLOCK FREEDOM from an order of the locks.

  A task runs a straight piece of code: take a lock, give it up, make a call. The
  code of the called side is not known; while a call lasts it may issue requests,
  one at a time, and wait for each reply. A request is served by a task of its
  own, whose `caller` is the task that is in the call.

  `Waits` is the wait-for graph over tasks and calls: a task waits for the owner
  of the lock it wants (which may be itself) or for its call, a call for the task
  that serves its request. `Deadlock` is a nonempty set in which everybody waits
  for a member.

  * `not_deadlock_of_rank`: a rank that falls along the waits excludes it;
    `deadlock_of_cycle`: a cycle is one;
  * `Orderly.not_deadlock`: no deadlock, where every wanted lock is above all
    that the task OR ONE OF ITS CALLERS holds;
  * `view_of_reach`: what a task keeps by itself holds on every run;
  * `not_deadlock_of_rising`: no deadlock, where the locks of each task rise along
    its code and no request takes one;
  * `deadlock_own`, `deadlock_via`: a request that needs a lock of its caller, at
    once or through a third task.
-/
import IotWrap.Lib.Machine
import Mathlib.Data.Prod.Lex
import Mathlib.Order.Lattice.Nat
import Mathlib.Order.WellFounded

namespace IotWrap.Lib.Locks

/-! ## 1. Waiting, in general -/

section Wait

variable {α : Type} {waits : α → α → Prop}

/-- A nonempty set in which everybody waits for a member. -/
def Deadlock (waits : α → α → Prop) : Prop :=
  ∃ D : Set α, D.Nonempty ∧ ∀ n ∈ D, ∃ m ∈ D, waits n m

/-- **A rank that falls along every wait** excludes a deadlock. -/
theorem not_deadlock_of_rank {β : Type} [LT β] [WellFoundedLT β] (rank : α → β)
    (h : ∀ n m, waits n m → rank m < rank n) : ¬ Deadlock waits := by
  rintro ⟨D, hne, hD⟩
  have hwf : WellFounded fun n m => rank n < rank m := InvImage.wf rank wellFounded_lt
  obtain ⟨m, hm, hwait⟩ := hD (hwf.min D hne) (hwf.min_mem D hne)
  exact hwf.not_lt_min D hm (h _ m hwait)

/-- **A cycle of waits is a deadlock.** -/
theorem deadlock_of_cycle {n : α} (h : Relation.TransGen waits n n) : Deadlock waits := by
  refine ⟨{m | Relation.ReflTransGen waits m n ∧ Relation.ReflTransGen waits n m},
    ⟨n, .refl, .refl⟩, fun m hm => ?_⟩
  rcases Relation.ReflTransGen.cases_head hm.1 with rfl | ⟨m', hw, hr⟩
  · obtain ⟨m', hw, hr⟩ := Relation.TransGen.head'_iff.mp h
    exact ⟨m', ⟨hr, .single hw⟩, hw⟩
  · exact ⟨m', ⟨hr, hm.2.tail hw⟩, hw⟩

end Wait

/-! ## 2. Tasks -/

inductive Instr (κ : Type) where
  | acquire (k : κ) : Instr κ
  | release (k : κ) : Instr κ
  /-- A call whose reply the task waits for. -/
  | call : Instr κ
  deriving DecidableEq, Repr

/-- Where a task is. A task that is in a call keeps the call at the head of its code. -/
inductive Phase where
  | running : Phase
  /-- In a call, whose other side waits for nothing. -/
  | calling : Phase
  /-- In a call, whose other side waits for the reply of task `j`. -/
  | nested (j : Nat) : Phase
  deriving DecidableEq, Repr

structure Task (κ : Type) where
  code : List (Instr κ)
  phase : Phase
  /-- The task in whose call the request was issued that this one serves. -/
  caller : Option Nat
  deriving DecidableEq, Repr

def Task.none {κ : Type} : Task κ := ⟨[], .running, Option.none⟩

structure State (κ : Type) where
  task : Nat → Task κ
  fresh : Nat
  owner : κ → Option Nat

/-- What may happen: a task begins, runs on, its call's other side issues a
    request, gets the reply, returns. -/
inductive Label (ι ρ : Type) where
  | start (o : ι) : Label ι ρ
  | step (i : Nat) : Label ι ρ
  | request (i : Nat) (r : ρ) : Label ι ρ
  | reply (i : Nat) : Label ι ρ
  | ret (i : Nat) : Label ι ρ
  deriving DecidableEq, Repr

variable {κ ι ρ : Type}

namespace State

def init : State κ := ⟨fun _ => .none, 0, fun _ => none⟩

def setPhase (s : State κ) (i : Nat) (p : Phase) : State κ :=
  { s with task := Function.update s.task i { s.task i with phase := p } }

def setCode (s : State κ) (i : Nat) (c : List (Instr κ)) : State κ :=
  { s with task := Function.update s.task i { s.task i with code := c } }

/-- A new task. -/
def add (s : State κ) (c : List (Instr κ)) (caller : Option Nat) : State κ :=
  { s with
    task := Function.update s.task s.fresh ⟨c, .running, caller⟩
    fresh := s.fresh + 1 }

def setOwner [DecidableEq κ] (s : State κ) (k : κ) (o : Option Nat) : State κ :=
  { s with owner := Function.update s.owner k o }

/-- Task `i` can run its next instruction: a lock it takes is free, a lock it gives
    up is its own. -/
def Ready (s : State κ) (i : Nat) : Prop :=
  match (s.task i).code with
  | [] => False
  | .acquire k :: _ => s.owner k = none
  | .release k :: _ => s.owner k = some i
  | .call :: _ => True

instance (s : State κ) (i : Nat) : Decidable (s.Ready i) :=
  match h : (s.task i).code with
  | [] => isFalse (by simp [Ready, h])
  | .acquire k :: _ => decidable_of_iff (s.owner k = none) (by simp [Ready, h])
  | .release k :: _ => decidable_of_iff (s.owner k = some i) (by simp [Ready, h])
  | .call :: _ => isTrue (by simp [Ready, h])

/-- The request its call waits for has been served. -/
def Served (s : State κ) (i : Nat) : Prop :=
  match (s.task i).phase with
  | .nested j => (s.task j).code = []
  | _ => False

instance (s : State κ) (i : Nat) : Decidable (s.Served i) :=
  match h : (s.task i).phase with
  | .nested j => decidable_of_iff ((s.task j).code.isEmpty = true) (by simp [Served, h])
  | .running => isFalse (by simp [Served, h])
  | .calling => isFalse (by simp [Served, h])

@[simp, grind =] theorem setPhase_task (s : State κ) (i j : Nat) (p : Phase) :
    (s.setPhase i p).task j = if j = i then { s.task i with phase := p } else s.task j :=
  Function.update_apply ..

@[simp, grind =] theorem setCode_task (s : State κ) (i j : Nat) (c : List (Instr κ)) :
    (s.setCode i c).task j = if j = i then { s.task i with code := c } else s.task j :=
  Function.update_apply ..

@[simp, grind =] theorem add_task (s : State κ) (c : List (Instr κ)) (caller : Option Nat) (j : Nat) :
    (s.add c caller).task j = if j = s.fresh then ⟨c, .running, caller⟩ else s.task j :=
  Function.update_apply ..

@[simp, grind =] theorem setOwner_owner [DecidableEq κ] (s : State κ) (k l : κ) (o : Option Nat) :
    (s.setOwner k o).owner l = if l = k then o else s.owner l :=
  Function.update_apply ..

@[simp, grind =] theorem setPhase_owner (s : State κ) (i : Nat) (p : Phase) (k : κ) :
    (s.setPhase i p).owner k = s.owner k := rfl

@[simp, grind =] theorem setPhase_fresh (s : State κ) (i : Nat) (p : Phase) :
    (s.setPhase i p).fresh = s.fresh := rfl

@[simp, grind =] theorem setCode_owner (s : State κ) (i : Nat) (c : List (Instr κ)) (k : κ) :
    (s.setCode i c).owner k = s.owner k := rfl

@[simp, grind =] theorem setCode_fresh (s : State κ) (i : Nat) (c : List (Instr κ)) :
    (s.setCode i c).fresh = s.fresh := rfl

@[simp, grind =] theorem add_owner (s : State κ) (c : List (Instr κ)) (caller : Option Nat) (k : κ) :
    (s.add c caller).owner k = s.owner k := rfl

@[simp, grind =] theorem add_fresh (s : State κ) (c : List (Instr κ)) (caller : Option Nat) :
    (s.add c caller).fresh = s.fresh + 1 := rfl

@[simp, grind =] theorem setOwner_task [DecidableEq κ] (s : State κ) (k : κ) (o : Option Nat) (i : Nat) :
    (s.setOwner k o).task i = s.task i := rfl

@[simp, grind =] theorem setOwner_fresh [DecidableEq κ] (s : State κ) (k : κ) (o : Option Nat) :
    (s.setOwner k o).fresh = s.fresh := rfl

/-- The next instruction of task `i`. -/
def exec [DecidableEq κ] (s : State κ) (i : Nat) : State κ :=
  match (s.task i).code with
  | [] => s
  | .acquire k :: c => (s.setCode i c).setOwner k (some i)
  | .release k :: c => (s.setCode i c).setOwner k none
  | .call :: _ => s.setPhase i .calling

end State

def enabled (s : State κ) : Label ι ρ → Prop
  | .start _ => True
  | .step i => (s.task i).phase = .running ∧ s.Ready i
  | .request i _ => (s.task i).phase = .calling
  | .reply i => s.Served i
  | .ret i => (s.task i).phase = .calling

def next [DecidableEq κ] (main : ι → List (Instr κ)) (nested : ρ → List (Instr κ))
    (s : State κ) : Label ι ρ → State κ
  | .start o => s.add (main o) none
  | .step i => s.exec i
  | .request i r => (s.add (nested r) (some i)).setPhase i (.nested s.fresh)
  | .reply i => s.setPhase i .calling
  | .ret i => (s.setCode i (s.task i).code.tail).setPhase i .running

/-- The machine of the operations `ι`, which may begin at any time, and the
    requests `ρ`, which the other side of a call issues. -/
def machine [DecidableEq κ] (main : ι → List (Instr κ)) (nested : ρ → List (Instr κ)) :
    Machine (State κ) (Label ι ρ) where
  init s := s = .init
  enabled := enabled
  next := next main nested

instance [DecidableEq κ] (main : ι → List (Instr κ)) (nested : ρ → List (Instr κ))
    (s : State κ) (l : Label ι ρ) : Decidable ((machine main nested).enabled s l) :=
  match l with
  | .start _ => isTrue trivial
  | .step _ => inferInstanceAs (Decidable (_ ∧ _))
  | .request _ _ => inferInstanceAs (Decidable (_ = _))
  | .reply i => inferInstanceAs (Decidable (s.Served i))
  | .ret _ => inferInstanceAs (Decidable (_ = _))

/-! ## 3. The wait-for graph -/

inductive Node where
  | task (i : Nat) : Node
  /-- The call that task `i` is in. -/
  | call (i : Nat) : Node
  deriving DecidableEq, Repr

/-- Whom a member of the graph is held up by. -/
inductive Waits (s : State κ) : Node → Node → Prop where
  | lock {i j : Nat} {k : κ} {c : List (Instr κ)} (hp : (s.task i).phase = .running)
      (hc : (s.task i).code = .acquire k :: c) (ho : s.owner k = some j) :
      Waits s (.task i) (.task j)
  | call {i : Nat} (hp : (s.task i).phase ≠ .running) : Waits s (.task i) (.call i)
  | reply {i j : Nat} (hp : (s.task i).phase = .nested j) : Waits s (.call i) (.task j)

/-- Task `i`, or a task that waits for it to serve a request, owns `k`. -/
inductive Holds (s : State κ) : Nat → κ → Prop where
  | own {i : Nat} {k : κ} (h : s.owner k = some i) : Holds s i k
  | caller {i j : Nat} {k : κ} (hj : (s.task j).caller = some i) (h : Holds s i k) : Holds s j k

/-- **The order**: a lock that a task wants is above every lock that it or one of
    its callers holds. -/
def Orderly (s : State κ) (rank : κ → Nat) : Prop :=
  ∀ i k c, (s.task i).phase = .running → (s.task i).code = .acquire k :: c →
    ∀ l, Holds s i l → rank l < rank k

/-- What is true of the tasks on every run. -/
structure Sound (s : State κ) : Prop where
  beyond : ∀ i, s.fresh ≤ i → s.task i = .none
  owner : ∀ k i, s.owner k = some i → i < s.fresh
  caller : ∀ i j, (s.task j).caller = some i → i < j
  nested : ∀ i j, (s.task i).phase = .nested j → (s.task j).caller = some i
  pending : ∀ i j, (s.task j).caller = some i → (s.task j).code ≠ [] → (s.task i).phase = .nested j
  calls : ∀ i, (s.task i).phase ≠ .running → ∃ c, (s.task i).code = .call :: c

/-! ## 4. An order excludes the deadlock -/

section Order

variable {s : State κ} {rank : κ → Nat} {bound : Nat}

/-- Above every lock that task `i` or one of its callers holds. -/
noncomputable def height (s : State κ) (rank : κ → Nat) (i : Nat) : Nat :=
  sSup {n | ∃ l, Holds s i l ∧ n = rank l + 1}

theorem height_le {i n : Nat} (h : ∀ l, Holds s i l → rank l < n) : height s rank i ≤ n := by
  refine csSup_le' ?_
  rintro _ ⟨l, hl, rfl⟩
  exact h l hl

theorem bddAbove_height (hb : ∀ k, rank k < bound) (i : Nat) :
    BddAbove {n | ∃ l, Holds s i l ∧ n = rank l + 1} := by
  refine ⟨bound, ?_⟩
  rintro _ ⟨l, _, rfl⟩
  exact hb l

theorem lt_height (hb : ∀ k, rank k < bound) {i : Nat} {l : κ} (h : Holds s i l) :
    rank l < height s rank i :=
  le_csSup (bddAbove_height hb i) ⟨l, h, rfl⟩

/-- Who serves a request holds what its caller holds. -/
theorem height_caller (hb : ∀ k, rank k < bound) {i j : Nat} (h : (s.task j).caller = some i) :
    height s rank i ≤ height s rank j :=
  height_le fun _ hl => lt_height hb (.caller h hl)

/-- What falls along the waits: the room above the locks that are held, then the
    room for deeper requests. -/
noncomputable def depth (s : State κ) (rank : κ → Nat) (bound : Nat) : Node → ℕ ×ₗ ℕ
  | .task i => toLex (bound - height s rank i, 2 * (s.fresh - i) + 1)
  | .call i => toLex (bound - height s rank i, 2 * (s.fresh - i))

theorem Sound.lt_fresh (hs : Sound s) {i j : Nat} (h : (s.task j).caller = some i) :
    j < s.fresh := by
  by_contra hj
  rw [hs.beyond j (Nat.le_of_not_lt hj)] at h
  cases h

theorem depth_lt (hs : Sound s) (hb : ∀ k, rank k < bound) (h : Orderly s rank) {n m : Node}
    (hw : Waits s n m) : depth s rank bound m < depth s rank bound n := by
  refine Prod.Lex.toLex_lt_toLex.mpr ?_
  cases hw with
  | lock hp hc ho =>
    -- the owner holds a lock that is above all the waiting task holds
    have hlt := lt_height hb (.own ho)
    have hle := height_le (h _ _ _ hp hc)
    have htop := hb ‹κ›
    left
    exact Nat.sub_lt_sub_left (hle.trans_lt htop) (hle.trans_lt hlt)
  | call hp =>
    right
    exact ⟨rfl, Nat.lt_succ_self _⟩
  | @reply i j hp =>
    have hcaller := hs.nested _ _ hp
    have hle := height_caller hb hcaller
    have hij := hs.caller _ _ hcaller
    have hj := hs.lt_fresh hcaller
    rcases Nat.lt_or_eq_of_le (Nat.sub_le_sub_left hle bound) with hlt | heq
    · exact .inl hlt
    · right
      have hlt : 2 * (s.fresh - j) + 1 < 2 * (s.fresh - i) := by omega
      exact ⟨heq, hlt⟩

/-- **No deadlock where the locks are ordered**, over the calls and the requests
    that are issued in them. -/
theorem Orderly.not_deadlock (hs : Sound s) (hb : ∀ k, rank k < bound) (h : Orderly s rank) :
    ¬ Deadlock (Waits s) :=
  not_deadlock_of_rank (depth s rank bound) fun _ _ => depth_lt hs hb h

end Order

/-! ## 5. The tasks on a run -/

section Steps

variable {s : State κ}

theorem served_cases {i : Nat} (h : s.Served i) :
    ∃ j, (s.task i).phase = .nested j ∧ (s.task j).code = [] := by
  unfold State.Served at h
  match hp : (s.task i).phase with
  | .nested j =>
    rw [hp] at h
    exact ⟨j, rfl, h⟩
  | .running =>
    rw [hp] at h
    exact absurd h not_false
  | .calling =>
    rw [hp] at h
    exact absurd h not_false

theorem sound_init : Sound (State.init : State κ) where
  beyond _ _ := rfl
  owner _ _ h := by cases h
  caller _ _ h := by cases h
  nested _ _ h := by cases h
  pending _ _ h := by cases h
  calls _ h := absurd rfl h

theorem Sound.idle (hs : Sound s) {i j : Nat} (hp : (s.task i).phase ≠ .nested j)
    (hj : (s.task j).caller = some i) : (s.task j).code = [] := by
  by_contra hne
  exact hp (hs.pending i j hj hne)

/-- A task in a call has the call at its head. -/
theorem Sound.running_of_code (hs : Sound s) {i : Nat} {x : Instr κ} {c : List (Instr κ)}
    (hc : (s.task i).code = x :: c) (hx : x ≠ .call) : (s.task i).phase = .running := by
  by_contra hne
  obtain ⟨c', hcall⟩ := hs.calls i hne
  exact hx (List.head_eq_of_cons_eq (hc.symm.trans hcall))

theorem Sound.start (hs : Sound s) (c : List (Instr κ)) : Sound (s.add c none) := by
  obtain ⟨beyond, owner, caller, nested, pending, calls⟩ := hs
  constructor <;> grind [Task.none]

/-- A request in a call: no other one is waited for there. -/
theorem Sound.request (hs : Sound s) {i : Nat} (hp : (s.task i).phase = .calling)
    (c : List (Instr κ)) : Sound ((s.add c (some i)).setPhase i (.nested s.fresh)) := by
  have hidle : ∀ j, (s.task j).caller = some i → (s.task j).code = [] := fun j =>
    hs.idle (by rw [hp]; exact Phase.noConfusion)
  obtain ⟨beyond, owner, caller, nested, pending, calls⟩ := hs
  constructor <;> grind [Task.none]

/-- The call goes on: the only request it waited for is served. -/
theorem Sound.reply (hs : Sound s) {i : Nat} (h : s.Served i) : Sound (s.setPhase i .calling) := by
  obtain ⟨j, hp, hc⟩ := served_cases h
  obtain ⟨beyond, owner, caller, nested, pending, calls⟩ := hs
  constructor <;> grind [Task.none]

theorem Sound.ret (hs : Sound s) {i : Nat} (hp : (s.task i).phase = .calling) :
    Sound ((s.setCode i (s.task i).code.tail).setPhase i .running) := by
  obtain ⟨beyond, owner, caller, nested, pending, calls⟩ := hs
  constructor <;> grind [Task.none]

theorem ready_acquire {i : Nat} {k : κ} {c : List (Instr κ)}
    (hc : (s.task i).code = .acquire k :: c) (ho : s.owner k = none) : s.Ready i := by
  unfold State.Ready
  rw [hc]
  exact ho

theorem ready_release {i : Nat} {k : κ} {c : List (Instr κ)}
    (hc : (s.task i).code = .release k :: c) (ho : s.owner k = some i) : s.Ready i := by
  unfold State.Ready
  rw [hc]
  exact ho

variable [DecidableEq κ]

theorem exec_acquire {i : Nat} {k : κ} {c : List (Instr κ)}
    (hc : (s.task i).code = .acquire k :: c) :
    s.exec i = (s.setCode i c).setOwner k (some i) := by
  unfold State.exec
  rw [hc]

theorem exec_release {i : Nat} {k : κ} {c : List (Instr κ)}
    (hc : (s.task i).code = .release k :: c) : s.exec i = (s.setCode i c).setOwner k none := by
  unfold State.exec
  rw [hc]

theorem exec_call {i : Nat} {c : List (Instr κ)} (hc : (s.task i).code = .call :: c) :
    s.exec i = s.setPhase i .calling := by
  unfold State.exec
  rw [hc]

/-- An instruction does not touch the other tasks. -/
theorem exec_task_of_ne {i j : Nat} (hj : j ≠ i) : (s.exec i).task j = s.task j := by
  unfold State.exec
  split <;> simp [hj]

theorem exec_acquire_task {i : Nat} {k : κ} {c : List (Instr κ)}
    (hc : (s.task i).code = .acquire k :: c) :
    (s.exec i).task i = { s.task i with code := c } := by
  rw [exec_acquire hc]
  simp

theorem exec_release_task {i : Nat} {k : κ} {c : List (Instr κ)}
    (hc : (s.task i).code = .release k :: c) :
    (s.exec i).task i = { s.task i with code := c } := by
  rw [exec_release hc]
  simp

theorem exec_acquire_owner {i : Nat} {k : κ} {c : List (Instr κ)}
    (hc : (s.task i).code = .acquire k :: c) (l : κ) :
    (s.exec i).owner l = if l = k then some i else s.owner l := by
  rw [exec_acquire hc]
  simp

theorem exec_release_owner {i : Nat} {k : κ} {c : List (Instr κ)}
    (hc : (s.task i).code = .release k :: c) (l : κ) :
    (s.exec i).owner l = if l = k then none else s.owner l := by
  rw [exec_release hc]
  simp

/-- **What an instruction does.** -/
theorem exec_cases {i : Nat} (hr : s.Ready i) :
    (∃ k c, (s.task i).code = .acquire k :: c ∧ s.owner k = none ∧
      s.exec i = (s.setCode i c).setOwner k (some i)) ∨
    (∃ k c, (s.task i).code = .release k :: c ∧ s.owner k = some i ∧
      s.exec i = (s.setCode i c).setOwner k none) ∨
    (∃ c, (s.task i).code = .call :: c ∧ s.exec i = s.setPhase i .calling) := by
  unfold State.Ready at hr
  match hc : (s.task i).code with
  | [] =>
    rw [hc] at hr
    exact absurd hr not_false
  | .acquire k :: c =>
    rw [hc] at hr
    exact .inl ⟨k, c, rfl, hr, exec_acquire hc⟩
  | .release k :: c =>
    rw [hc] at hr
    exact .inr (.inl ⟨k, c, rfl, hr, exec_release hc⟩)
  | .call :: c => exact .inr (.inr ⟨c, rfl, exec_call hc⟩)

/-- A running task moves on: nobody serves a request of its. -/
theorem Sound.exec (hs : Sound s) {i : Nat} (hp : (s.task i).phase = .running)
    (hr : s.Ready i) : Sound (s.exec i) := by
  obtain ⟨beyond, owner, caller, nested, pending, calls⟩ := hs
  rcases exec_cases hr with ⟨k, c, hc, _, he⟩ | ⟨k, c, hc, _, he⟩ | ⟨c, hc, he⟩
  · rw [he]
    constructor <;> grind [Task.none]
  · rw [he]
    constructor <;> grind [Task.none]
  · rw [he]
    constructor <;> grind [Task.none]

theorem Sound.step {main : ι → List (Instr κ)} {nested : ρ → List (Instr κ)} (hs : Sound s)
    (l : Label ι ρ) (he : enabled s l) : Sound (next main nested s l) := by
  cases l with
  | start o => exact hs.start (main o)
  | step i => exact hs.exec he.1 he.2
  | request i r => exact hs.request he (nested r)
  | reply i => exact hs.reply he
  | ret i => exact hs.ret he

theorem sound_of_reach {main : ι → List (Instr κ)} {nested : ρ → List (Instr κ)}
    {C : State κ → Label ι ρ → Prop} (h : (machine main nested).Reach C s) : Sound s :=
  h.inv (fun _ h => h ▸ sound_init) fun _ l hs _ he => hs.step l he

end Steps

/-! ## 6. One task, whatever the others do -/

/-- A task alone: whether it serves a request, the locks it owns, the code it has
    still to run. -/
structure View (κ : Type) where
  nested : Bool
  owns : κ → Bool
  code : List (Instr κ)

def State.view (s : State κ) (i : Nat) : View κ :=
  ⟨(s.task i).caller.isSome, fun k => s.owner k == some i, (s.task i).code⟩

/-- A task that begins. -/
def View.begin (nested : Bool) (c : List (Instr κ)) : View κ := ⟨nested, fun _ => false, c⟩

/-- What a task owns after an instruction. -/
def Instr.after [DecidableEq κ] : Instr κ → (κ → Bool) → κ → Bool
  | .acquire k, own => Function.update own k true
  | .release k, own => Function.update own k false
  | .call, own => own

/-- What a step may do to task `i`: nothing, its begin, or one instruction. -/
inductive Moves [DecidableEq κ] (main : ι → List (Instr κ)) (nested : ρ → List (Instr κ)) (s : State κ)
    (i : Nat) : Label ι ρ → View κ → Prop where
  | stays (l : Label ι ρ) : Moves main nested s i l (s.view i)
  | start (o : ι) (hi : i = s.fresh) : Moves main nested s i (.start o) (.begin false (main o))
  | request (i' : Nat) (r : ρ) (hi : i = s.fresh) :
      Moves main nested s i (.request i' r) (.begin true (nested r))
  | instr (l : Label ι ρ) (x : Instr κ) (c : List (Instr κ)) (hc : (s.task i).code = x :: c) :
      Moves main nested s i l ⟨(s.view i).nested, x.after (s.view i).owns, c⟩

section View

variable {s : State κ}

theorem view_setPhase (s : State κ) (i : Nat) (p : Phase) (j : Nat) :
    (s.setPhase i p).view j = s.view j := by
  unfold State.view
  rw [State.setPhase_task]
  by_cases hj : j = i
  · subst hj
    simp
  · simp [hj]

theorem view_setCode (s : State κ) (i : Nat) (c : List (Instr κ)) (j : Nat) :
    (s.setCode i c).view j = if j = i then { s.view i with code := c } else s.view j := by
  unfold State.view
  rw [State.setCode_task]
  by_cases hj : j = i
  · subst hj
    simp
  · simp [hj]

theorem Sound.ne_fresh (hs : Sound s) {k : κ} {i : Nat} (ho : s.owner k = some i) : i ≠ s.fresh :=
  Nat.ne_of_lt (hs.owner k i ho)

theorem Sound.view_add (hs : Sound s) (c : List (Instr κ)) (caller : Option Nat) (j : Nat) :
    (s.add c caller).view j = if j = s.fresh then .begin caller.isSome c else s.view j := by
  unfold State.view View.begin
  rw [State.add_task]
  by_cases hj : j = s.fresh
  · have hown : ∀ k, (s.owner k == some s.fresh) = false := fun k =>
      beq_eq_false_iff_ne.mpr fun ho => hs.ne_fresh ho rfl
    simp [hj, hown]
  · simp [hj]

variable [DecidableEq κ]

theorem view_setOwner (s : State κ) (k : κ) (o : Option Nat) (j : Nat) :
    (s.setOwner k o).view j =
      { s.view j with owns := Function.update (s.view j).owns k (o == some j) } := by
  unfold State.view
  simp only [State.setOwner_task, View.mk.injEq, true_and, and_true]
  funext l
  by_cases hl : l = k
  · subst hl
    simp
  · simp [hl]

/-- Who owns a lock neither before nor after sees nothing. -/
theorem view_setOwner_of_eq {k : κ} {o : Option Nat} {j : Nat}
    (h : (s.owner k == some j) = (o == some j)) : (s.setOwner k o).view j = s.view j := by
  rw [view_setOwner, ← h]
  exact congrArg (fun own => { s.view j with owns := own }) (Function.update_eq_self k _)

variable {main : ι → List (Instr κ)} {nested : ρ → List (Instr κ)}

/-- The step of task `i`, seen by a task. -/
theorem moves_exec {i : Nat} (hr : s.Ready i) (j : Nat) (l : Label ι ρ) :
    Moves main nested s j l ((s.exec i).view j) := by
  rcases exec_cases hr with ⟨k, c, hc, ho, he⟩ | ⟨k, c, hc, ho, he⟩ | ⟨c, hc, he⟩
  · rw [he]
    by_cases hj : j = i
    · subst hj
      rw [view_setOwner, view_setCode, if_pos rfl, beq_self_eq_true]
      exact .instr l (.acquire k) c hc
    · have hown : (s.owner k == some j) = (some i == some j) := by simp [ho, Ne.symm hj]
      rw [view_setOwner_of_eq (by exact hown), view_setCode, if_neg hj]
      exact .stays l
  · rw [he]
    by_cases hj : j = i
    · subst hj
      rw [view_setOwner, view_setCode, if_pos rfl]
      exact .instr l (.release k) c hc
    · have hown : (s.owner k == some j) = (none == some j) := by simp [ho, Ne.symm hj]
      rw [view_setOwner_of_eq (by exact hown), view_setCode, if_neg hj]
      exact .stays l
  · rw [he, view_setPhase]
    exact .stays l

/-- **What a step does to a task.** -/
theorem Sound.moves (hs : Sound s) {l : Label ι ρ} (he : enabled s l) (j : Nat) :
    Moves main nested s j l ((next main nested s l).view j) := by
  cases l with
  | start o =>
    show Moves main nested s j _ ((s.add (main o) none).view j)
    rw [hs.view_add]
    by_cases hj : j = s.fresh
    · rw [if_pos hj]
      exact .start o hj
    · rw [if_neg hj]
      exact .stays _
  | step i => exact moves_exec he.2 j _
  | request i r =>
    show Moves main nested s j _ (((s.add (nested r) (some i)).setPhase i _).view j)
    rw [view_setPhase, hs.view_add]
    by_cases hj : j = s.fresh
    · rw [if_pos hj]
      exact .request i r hj
    · rw [if_neg hj]
      exact .stays _
  | reply i =>
    show Moves main nested s j _ ((s.setPhase i _).view j)
    rw [view_setPhase]
    exact .stays _
  | ret i =>
    have hp : (s.task i).phase = .calling := he
    obtain ⟨c, hc⟩ := hs.calls i (by rw [hp]; exact Phase.noConfusion)
    show Moves main nested s j _ (((s.setCode i (s.task i).code.tail).setPhase i _).view j)
    rw [view_setPhase, view_setCode, hc]
    by_cases hj : j = i
    · subst hj
      rw [if_pos rfl]
      exact .instr _ _ c hc
    · rw [if_neg hj]
      exact .stays _

/-- A property that every task has where it begins under `C`, and that every
    instruction keeps. -/
structure Local [DecidableEq κ] (P : View κ → Prop) (main : ι → List (Instr κ)) (nested : ρ → List (Instr κ))
    (C : State κ → Label ι ρ → Prop) : Prop where
  none : P (.begin false [])
  start : ∀ o, P (.begin false (main o))
  request : ∀ s i r, C s (.request i r) → P (.begin true (nested r))
  instr : ∀ b own x c, P ⟨b, own, x :: c⟩ → P ⟨b, x.after own, c⟩

/-- **The local rule**: what every task keeps by itself holds of every task on
    every run. -/
theorem view_of_reach {P : View κ → Prop} {C : State κ → Label ι ρ → Prop}
    (hP : Local P main nested C) (h : (machine main nested).Reach C s) (i : Nat) : P (s.view i) := by
  refine h.inv_of (J := Sound) (I := fun s => ∀ i, P (s.view i)) (fun _ => sound_of_reach)
    ?_ ?_ i
  · rintro _ rfl i
    have hinit : (State.init : State κ).view i = .begin false [] := by
      simp [State.view, State.init, View.begin, Task.none]
    rw [hinit]
    exact hP.none
  · intro s l hs ih hc he j
    have hm : Moves main nested s j l (((machine main nested).next s l).view j) := hs.moves he j
    generalize ((machine main nested).next s l).view j = v at hm ⊢
    cases hm with
    | stays => exact ih j
    | start o => exact hP.start o
    | request i r => exact hP.request s i r hc
    | instr _ x c hcode =>
      have hj := ih j
      unfold State.view at hj
      rw [hcode] at hj
      exact hP.instr _ _ x c hj

end View

/-! ## 7. Locks that rise along the code -/

section Rising

variable [DecidableEq κ] {rank : κ → Nat}

/-- **The locks rise**: each lock the code takes is above all that are held there. -/
def Rising (rank : κ → Nat) : (κ → Bool) → List (Instr κ) → Prop
  | _, [] => True
  | own, .acquire k :: c =>
    (∀ l, own l = true → rank l < rank k) ∧ Rising rank (Function.update own k true) c
  | own, .release k :: c => Rising rank (Function.update own k false) c
  | own, .call :: c => Rising rank own c

/-- What is held after a piece of code. -/
def heldAfter (own : κ → Bool) (c : List (Instr κ)) : κ → Bool :=
  c.foldl (fun own x => x.after own) own

theorem rising_append {own : κ → Bool} {c c' : List (Instr κ)} :
    Rising rank own (c ++ c') ↔ Rising rank own c ∧ Rising rank (heldAfter own c) c' := by
  induction c generalizing own with
  | nil => exact (and_iff_right trivial).symm
  | cons x c ih =>
    cases x with
    | acquire k => exact (and_congr_right fun _ => ih).trans and_assoc.symm
    | release k => exact ih
    | call => exact ih

/-- **A scope**: its locks rise above what is held, and it gives all of them back. -/
structure Scope (rank : κ → Nat) (own : κ → Bool) (c : List (Instr κ)) : Prop where
  rising : Rising rank own c
  back : heldAfter own c = own

theorem scope_nil (own : κ → Bool) : Scope rank own [] := ⟨trivial, rfl⟩

theorem Scope.append {own : κ → Bool} {c c' : List (Instr κ)} (h : Scope rank own c)
    (h' : Scope rank own c') : Scope rank own (c ++ c') where
  rising := rising_append.mpr ⟨h.rising, h.back.symm ▸ h'.rising⟩
  back := by
    show (c ++ c').foldl _ own = own
    rw [List.foldl_append]
    show heldAfter (heldAfter own c) c' = own
    rw [h.back, h'.back]

theorem scope_call (own : κ → Bool) : Scope rank own [.call] := ⟨trivial, rfl⟩

/-- A lock around a scope. -/
theorem Scope.lock {own : κ → Bool} {k : κ} {c : List (Instr κ)}
    (hk : ∀ l, own l = true → rank l < rank k) (h : Scope rank (Function.update own k true) c) :
    Scope rank own (.acquire k :: (c ++ [.release k])) where
  rising := ⟨hk, rising_append.mpr ⟨h.rising, trivial⟩⟩
  back := by
    have hfree : own k = false := Bool.eq_false_iff.mpr fun e => Nat.lt_irrefl _ (hk k e)
    show (c ++ [Instr.release k]).foldl _ (Function.update own k true) = own
    rw [List.foldl_append]
    show Function.update (heldAfter (Function.update own k true) c) k false = own
    rw [h.back, Function.update_idem, ← hfree, Function.update_eq_self]

theorem scope_flatMap {α : Type} {own : κ → Bool} (l : List α) {f : α → List (Instr κ)}
    (h : ∀ a ∈ l, Scope rank own (f a)) : Scope rank own (l.flatMap f) := by
  induction l with
  | nil => exact scope_nil own
  | cons a l ih =>
    exact (h a List.mem_cons_self).append (ih fun b hb => h b (List.mem_cons_of_mem _ hb))

theorem scope_replicate {own : κ → Bool} (n : Nat) {c : List (Instr κ)} (h : Scope rank own c) :
    Scope rank own (List.replicate n c).flatten := by
  induction n with
  | zero => exact scope_nil own
  | succ n ih => exact h.append ih

variable {main : ι → List (Instr κ)} {nested : ρ → List (Instr κ)}

/-- No request takes a lock. -/
def Unlocked (nested : ρ → List (Instr κ)) (_ : State κ) : Label ι ρ → Prop
  | .request _ r => ∀ k, .acquire k ∉ nested r
  | _ => True

/-- **No deadlock where the locks rise** along the code of every task, and the
    requests that are issued in calls take none. -/
theorem not_deadlock_of_rising {bound : Nat} (hb : ∀ k, rank k < bound)
    (hmain : ∀ o, Rising rank (fun _ => false) (main o)) {s : State κ}
    (h : (machine main nested).Reach (Unlocked nested) s) : ¬ Deadlock (Waits s) := by
  have hview := view_of_reach (P := fun v => (v.nested = true → ∀ k, .acquire k ∉ v.code) ∧
    (v.nested = false → Rising rank v.owns v.code)) ?_ h
  · have hs := sound_of_reach h
    refine @Orderly.not_deadlock _ _ rank bound hs hb fun i k c hp hc l hl => ?_
    have hcode : (s.view i).code = .acquire k :: c := hc
    cases hcaller : (s.task i).caller with
    | some j =>
      have hn : (s.view i).nested = true := by
        show (s.task i).caller.isSome = true
        rw [hcaller]
        rfl
      exact absurd (hcode ▸ List.mem_cons_self) ((hview i).1 hn k)
    | none =>
      have hn : (s.view i).nested = false := by
        show (s.task i).caller.isSome = false
        rw [hcaller]
        rfl
      have hrise := (hview i).2 hn
      rw [hcode] at hrise
      cases hl with
      | own ho => exact hrise.1 l (beq_iff_eq.mpr ho)
      | caller hj _ =>
        rw [hcaller] at hj
        cases hj
  · constructor
    · exact ⟨fun hn => (by cases hn), fun _ => trivial⟩
    · exact fun o => ⟨fun hn => (by cases hn), fun _ => hmain o⟩
    · exact fun s i r hC => ⟨fun _ => hC, fun hn => by cases hn⟩
    · rintro b own x c ⟨hno, hrise⟩
      refine ⟨fun hn k hk => hno hn k (List.mem_cons_of_mem _ hk), fun hn => ?_⟩
      have hr := hrise hn
      cases x with
      | acquire k => exact hr.2
      | release k => exact hr
      | call => exact hr

end Rising

/-! ## 8. Deadlocks -/

section Deadlock

variable {s : State κ} {i j z : Nat} {k k' : κ} {c c' : List (Instr κ)}

/-- A task waits, through its call, for the task that serves the request. -/
theorem waits_nested (hi : (s.task i).phase = .nested j) :
    Relation.TransGen (Waits s) (.task i) (.task j) := by
  have hcall : Waits s (.task i) (.call i) := .call (by rw [hi]; exact Phase.noConfusion)
  exact .tail (.single hcall) (.reply hi)

/-- A request needs a lock of the task in whose call it was issued. -/
theorem deadlock_own (hi : (s.task i).phase = .nested j) (hj : (s.task j).phase = .running)
    (hc : (s.task j).code = .acquire k :: c) (ho : s.owner k = some i) : Deadlock (Waits s) :=
  deadlock_of_cycle ((waits_nested hi).tail (.lock hj hc ho))

/-- A request needs a lock whose owner needs one of the task in whose call the
    request was issued. -/
theorem deadlock_via (hi : (s.task i).phase = .nested j) (hj : (s.task j).phase = .running)
    (hc : (s.task j).code = .acquire k :: c) (ho : s.owner k = some z)
    (hz : (s.task z).phase = .running) (hcz : (s.task z).code = .acquire k' :: c')
    (hoz : s.owner k' = some i) : Deadlock (Waits s) :=
  deadlock_of_cycle (((waits_nested hi).tail (.lock hj hc ho)).tail (.lock hz hcz hoz))

end Deadlock

end IotWrap.Lib.Locks
