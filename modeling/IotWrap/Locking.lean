/-
  File:      IotWrap/Locking.lean
  Subject:   What the server's operations lock while they call clients
             (jni/server/IOT_Service.cpp, jni/server/IOT_DeviceShadow.cpp).

  The code of an operation is the sequence of its locks, its unlocks and its calls
  of clients. The dispatchers call under `m_lockClis`, and `updateProperties` calls
  one of them for every property under `m_lockAttrs` as well. A function of the SDK
  that talks to the cloud may deliver messages, so it runs any number of
  dispatches; the SDK's own locks are outside.

  What the maps and the flags decide about an operation (how many clients are
  called, whether there is room for a client) is an argument of it, so every state
  of the data is covered. Operations may begin at any time on any thread, which
  covers the serial order of the shadow thread. A handler's request is a task of
  its own also where Binder runs it on the thread that waits.

  * `Point`: where an operation can be, with the locks it owns there;
  * `Apart`: the condition on what handlers issue and when an update begins;
    `known_of_reach`: what holds of every state of a run under it.
-/
import IotWrap.Lib.Locks
import IotWrap.Shadow

namespace IotWrap

open Lib Lib.Locks

namespace Locking

/-- The mutexes of the server (`m_lockFollow` is never locked). -/
inductive Lock where
  | m_lockAttrs : Lock
  | m_lockClis : Lock
  deriving DecidableEq, Repr

open Lock Instr

abbrev Code := List (Instr Lock)

/-! ## 1. The code of the operations -/

/-- A scope of a `Mutex::Autolock` without calls. -/
def autolock (k : Lock) : Code := [acquire k, release k]

/-- `callCommandCB`, `callPropertyGet` and `callPropertySet`, with `n` clients to call. -/
def dispatch (n : Nat) : Code :=
  acquire m_lockClis :: (List.replicate n call ++ [release m_lockClis])

/-- Dispatches one after another. -/
def dispatches (ns : List Nat) : Code := ns.flatMap dispatch

/-- What a client may ask for: the functions of IIOTService and of IIOTClient. -/
inductive Request where
  /-- `full`: `m_clients` has no room. -/
  | createClient (full : Bool) : Request
  | getServiceStatus : Request
  /-- `valid`: `doAddProperty` finds nothing wrong with the arguments. -/
  | followProperty (valid : Bool) : Request
  | followCommand : Request
  | reportEvent (ns : List Nat) : Request
  /-- `ns` is empty where the key is unknown or there is no handle. -/
  | reportProperty (ns : List Nat) : Request
  | registCommandCB : Request
  /-- `first`: the client has no property callback yet. -/
  | registPropertyCB (first : Bool) : Request
  deriving DecidableEq, Repr

def Request.code : Request → Code
  | createClient full => if full then [] else autolock m_lockClis
  | getServiceStatus => []
  -- `addFollowing`, then `_addProperty`
  | followProperty valid => autolock m_lockClis ++ if valid then autolock m_lockAttrs else []
  | followCommand => autolock m_lockClis
  | reportEvent ns => dispatches ns
  -- the lock is left before the SDK is called
  | reportProperty ns => autolock m_lockAttrs ++ dispatches ns
  | registCommandCB => []
  -- `clientActive`
  | registPropertyCB first => if first then autolock m_lockClis else []

/-- What the server's threads run. -/
inductive Operation where
  | request (r : Request) : Operation
  | preShadow (ns : List Nat) : Operation
  | yieldShadow (ns : List Nat) : Operation
  /-- `ns`: the clients to call for each property that is read. -/
  | updateProperties (ns : List Nat) : Operation
  /-- `flagged`: `m_reportFlag` or `g_forceReport` is set. -/
  | pushProperties (flagged : Bool) (ns : List Nat) : Operation
  | postShadow : Operation
  /-- A callback of the SDK. -/
  | cloud (n : Nat) : Operation
  | binderDied : Operation
  deriving DecidableEq, Repr

def Operation.code : Operation → Code
  | request r => r.code
  -- `waitForClient` gives the lock up while it waits
  | preShadow ns =>
    autolock m_lockClis ++ autolock m_lockClis ++ autolock m_lockAttrs ++ dispatches ns
  | yieldShadow ns => dispatches ns
  -- the lock is held over the calls
  | updateProperties ns => acquire m_lockAttrs :: (dispatches ns ++ [release m_lockAttrs])
  | pushProperties flagged ns => if flagged then autolock m_lockAttrs ++ dispatches ns else []
  | postShadow => autolock m_lockAttrs
  | cloud n => dispatch n
  | binderDied => autolock m_lockClis

/-- The buffer `updateProperties` reads an attribute into, where it asks for it. -/
def pollCap (a : DSAttr) : Option Nat :=
  if a.isLocal then none
  else match a.attr.attr_type with
    | .IOTX_SHADOW_INT32 => some 32
    | .IOTX_SHADOW_STRING => some ATTR_VALUE_MAX_LEN
    | .other => none

/-- `updateProperties` in the state `d`: its calls of `callPropertyGet`. -/
def updateOf (d : DeviceShadow) : Operation :=
  .updateProperties (d.m_iotAttrs.toList.filterMap fun p =>
    (pollCap p.2).map fun cap => (d.callPropertyGetCalls p.2.attr.pattr_name cap).length)

/-- The server: its operations, with a client's requests inside its handlers. -/
abbrev machine : Machine (State Lock) (Label Operation Request) :=
  Locks.machine Operation.code Request.code

/-! ## 2. Where an operation can be -/

/-- A scope that is entered with nothing locked. -/
inductive Section where
  | attrs : Section
  /-- A scope of `m_lockClis` with `n` calls. -/
  | clis (n : Nat) : Section
  deriving DecidableEq, Repr

def Section.code : Section → Code
  | attrs => autolock m_lockAttrs
  | clis n => dispatch n

def sections (bs : List Section) : Code := bs.flatMap Section.code

/-- Where an operation can be: between its scopes, in one of them, or in
    `updateProperties`. -/
inductive Point where
  | idle (bs : List Section) : Point
  | inAttrs (bs : List Section) : Point
  | inClis (n : Nat) (bs : List Section) : Point
  | update (ns : List Nat) : Point
  | polling (ns : List Nat) : Point
  | inGet (n : Nat) (ns : List Nat) : Point
  deriving DecidableEq, Repr

namespace Point

/-- What is left to run. -/
def code : Point → Code
  | idle bs => sections bs
  | inAttrs bs => release m_lockAttrs :: sections bs
  | inClis n bs => List.replicate n call ++ release m_lockClis :: sections bs
  | update ns => acquire m_lockAttrs :: (dispatches ns ++ [release m_lockAttrs])
  | polling ns => dispatches ns ++ [release m_lockAttrs]
  | inGet n ns =>
    List.replicate n call ++ release m_lockClis :: (dispatches ns ++ [release m_lockAttrs])

/-- The locks it owns there. -/
def owns : Point → Lock → Bool
  | inAttrs _, m_lockAttrs => true
  | polling _, m_lockAttrs => true
  | inGet _ _, _ => true
  | inClis _ _, m_lockClis => true
  | _, _ => false

/-- The next instruction, and where it leads. -/
def next : Point → Option (Instr Lock × Point)
  | idle [] => none
  | idle (.attrs :: bs) => some (acquire m_lockAttrs, inAttrs bs)
  | idle (.clis n :: bs) => some (acquire m_lockClis, inClis n bs)
  | inAttrs bs => some (release m_lockAttrs, idle bs)
  | inClis 0 bs => some (release m_lockClis, idle bs)
  | inClis (n + 1) bs => some (call, inClis n bs)
  | update ns => some (acquire m_lockAttrs, polling ns)
  | polling [] => some (release m_lockAttrs, idle [])
  | polling (n :: ns) => some (acquire m_lockClis, inGet n ns)
  | inGet 0 ns => some (release m_lockClis, polling ns)
  | inGet (n + 1) ns => some (call, inGet n ns)

/-- `updateProperties` with a property still to read. -/
def reads : Point → Bool
  | update ns => !ns.isEmpty
  | polling ns => !ns.isEmpty
  | inGet n ns => n ≠ 0 || !ns.isEmpty
  | _ => false

theorem code_eq (p : Point) :
    p.code = match p.next with
      | none => []
      | some (x, q) => x :: q.code := by
  cases p with
  | idle bs =>
    cases bs with
    | nil => rfl
    | cons b bs =>
      cases b with
      | attrs => rfl
      | clis n => simp [code, next, sections, Section.code, dispatch]
  | inAttrs bs => rfl
  | inClis n bs => cases n <;> rfl
  | update ns => rfl
  | polling ns =>
    cases ns with
    | nil => rfl
    | cons n ns => simp [code, next, dispatches, dispatch]
  | inGet n ns => cases n <;> rfl

/-- The head of the code is the next instruction. -/
theorem next_of_code {p : Point} {x : Instr Lock} {c : Code} (h : p.code = x :: c) :
    ∃ q, p.next = some (x, q) ∧ c = q.code := by
  rw [code_eq] at h
  match hn : p.next with
  | none =>
    rw [hn] at h
    cases h
  | some (y, q) =>
    rw [hn] at h
    cases h
    exact ⟨q, rfl, rfl⟩

/-- **What an operation owns** after its next instruction. -/
theorem owns_next {p q : Point} {x : Instr Lock} (h : p.next = some (x, q)) :
    q.owns = x.after p.owns := by
  funext k
  unfold next at h
  split at h <;> cases h <;> cases k <;> rfl

theorem next_attrs {p q : Point} (h : p.next = some (acquire m_lockAttrs, q)) :
    (∃ bs, p = idle (.attrs :: bs)) ∨ ∃ ns, p = update ns := by
  unfold next at h
  split at h <;> cases h
  · exact .inl ⟨_, rfl⟩
  · exact .inr ⟨_, rfl⟩

theorem next_clis {p q : Point} (h : p.next = some (acquire m_lockClis, q)) :
    (∃ n bs, p = idle (.clis n :: bs)) ∨ ∃ n ns, p = polling (n :: ns) := by
  unfold next at h
  split at h <;> cases h
  · exact .inl ⟨_, _, rfl⟩
  · exact .inr ⟨_, _, rfl⟩

theorem next_call {p q : Point} (h : p.next = some (call, q)) :
    (∃ n bs, p = inClis (n + 1) bs) ∨ ∃ n ns, p = inGet (n + 1) ns := by
  unfold next at h
  split at h <;> cases h
  · exact .inl ⟨_, _, rfl⟩
  · exact .inr ⟨_, _, rfl⟩

end Point

theorem dispatches_eq (ns : List Nat) : dispatches ns = sections (ns.map .clis) := by
  unfold dispatches sections
  rw [List.flatMap_map]
  rfl

/-- The scopes of a request. -/
def Request.sections : Request → List Section
  | createClient full => if full then [] else [.clis 0]
  | getServiceStatus => []
  | followProperty valid => .clis 0 :: if valid then [.attrs] else []
  | followCommand => [.clis 0]
  | reportEvent ns => ns.map .clis
  | reportProperty ns => .attrs :: ns.map .clis
  | registCommandCB => []
  | registPropertyCB first => if first then [.clis 0] else []

/-- Where an operation begins. -/
def Operation.point : Operation → Point
  | request r => .idle r.sections
  | preShadow ns => .idle (.clis 0 :: .clis 0 :: .attrs :: ns.map .clis)
  | yieldShadow ns => .idle (ns.map .clis)
  | updateProperties ns => .update ns
  | pushProperties flagged ns => .idle (if flagged then .attrs :: ns.map .clis else [])
  | postShadow => .idle [.attrs]
  | cloud n => .idle [.clis n]
  | binderDied => .idle [.clis 0]

theorem Request.code_eq (r : Request) : r.code = Locking.sections r.sections := by
  cases r with
  | createClient full => cases full <;> rfl
  | getServiceStatus => rfl
  | followProperty valid => cases valid <;> rfl
  | followCommand => rfl
  | reportEvent ns => exact dispatches_eq ns
  | reportProperty ns => exact congrArg (autolock m_lockAttrs ++ ·) (dispatches_eq ns)
  | registCommandCB => rfl
  | registPropertyCB first => cases first <;> rfl

theorem Operation.code_eq (o : Operation) : o.code = o.point.code := by
  cases o with
  | request r => exact r.code_eq
  | preShadow ns =>
    exact congrArg (autolock m_lockClis ++ autolock m_lockClis ++ autolock m_lockAttrs ++ ·)
      (dispatches_eq ns)
  | yieldShadow ns => exact dispatches_eq ns
  | updateProperties ns => rfl
  | pushProperties flagged ns =>
    cases flagged with
    | false => rfl
    | true => exact congrArg (autolock m_lockAttrs ++ ·) (dispatches_eq ns)
  | postShadow => rfl
  | cloud n => simp [code, Operation.point, Point.code, Locking.sections, Section.code]
  | binderDied => rfl

/-- An operation begins with nothing locked. -/
theorem Operation.owns_point (o : Operation) : o.point.owns = fun _ => false := by
  cases o <;> rfl

/-! ## 3. The condition -/

/-- `m_lockClis` is taken or a client called while `m_lockAttrs` is held; `attrs`
    says whether it is held before. -/
def readsUnder : Bool → Code → Bool
  | _, [] => false
  | _, acquire m_lockAttrs :: c => readsUnder true c
  | _, release m_lockAttrs :: c => readsUnder false c
  | attrs, acquire m_lockClis :: c => attrs || readsUnder attrs c
  | attrs, release m_lockClis :: c => readsUnder attrs c
  | attrs, call :: c => attrs || readsUnder attrs c

/-- The task has still to call clients under `m_lockAttrs`. -/
def Updates (v : View Lock) : Prop := readsUnder (v.owns m_lockAttrs) v.code = true

/-- The task serves a handler's request and has still to take `m_lockAttrs`. -/
def Reports (v : View Lock) : Prop := v.nested = true ∧ acquire m_lockAttrs ∈ v.code

instance (v : View Lock) : Decidable (Updates v) := inferInstanceAs (Decidable (_ = _))

instance (v : View Lock) : Decidable (Reports v) := inferInstanceAs (Decidable (_ ∧ _))

/-- **The condition**: no handler issues a request that takes `m_lockClis`; a
    handler's request for `m_lockAttrs` and an `updateProperties` that has still a
    property to read are not in progress at once. -/
def Apart (s : State Lock) : Label Operation Request → Prop
  | .start o => Updates (.begin false o.code) → ∀ j < s.fresh, ¬ Reports (s.view j)
  | .request _ r => acquire m_lockClis ∉ r.code ∧
      (Reports (.begin true r.code) → ∀ u < s.fresh, ¬ Updates (s.view u))
  | _ => True

instance (s : State Lock) (l : Label Operation Request) : Decidable (Apart s l) :=
  match l with
  | .start o => inferInstanceAs (Decidable (Updates (.begin false o.code) → _))
  | .step _ => isTrue trivial
  | .request _ r => inferInstanceAs
      (Decidable (_ ∧ (Reports (.begin true r.code) → ∀ u < s.fresh, ¬ Updates (s.view u))))
  | .reply _ => isTrue trivial
  | .ret _ => isTrue trivial

/-- The task is at the point. -/
def At (v : View Lock) (p : Point) : Prop := v.owns = p.owns ∧ v.code = p.code

/-- Every task is at a point; one that serves a request takes no lock but one
    `m_lockAttrs`. -/
def Located (v : View Lock) : Prop :=
  ∃ p, At v p ∧ (v.nested = true → p = .idle [.attrs] ∨ p = .inAttrs [] ∨ p = .idle [])

/-- A request without `m_lockClis`. -/
theorem Request.sections_of_clis {r : Request} (h : acquire m_lockClis ∉ r.code) :
    r.sections = [] ∨ r.sections = [.attrs] := by
  cases r with
  | createClient full =>
    cases full with
    | false => exact absurd List.mem_cons_self h
    | true => exact .inl rfl
  | getServiceStatus => exact .inl rfl
  | followProperty valid => exact absurd List.mem_cons_self h
  | followCommand => exact absurd List.mem_cons_self h
  | reportEvent ns =>
    cases ns with
    | nil => exact .inl rfl
    | cons n ns => exact absurd List.mem_cons_self h
  | reportProperty ns =>
    cases ns with
    | nil => exact .inr rfl
    | cons n ns =>
      exact absurd (.tail _ (.tail _ List.mem_cons_self)) h
  | registCommandCB => exact .inl rfl
  | registPropertyCB first =>
    cases first with
    | false => exact .inl rfl
    | true => exact absurd List.mem_cons_self h

/-- A request with `m_lockClis` takes it at once, or after `m_lockAttrs`. -/
theorem Request.code_of_clis {r : Request} (h : acquire m_lockClis ∈ r.code) :
    (∃ c, r.code = acquire m_lockClis :: c) ∨
      ∃ c, r.code = acquire m_lockAttrs :: release m_lockAttrs :: acquire m_lockClis :: c := by
  cases r with
  | createClient full =>
    cases full with
    | false => exact .inl ⟨_, rfl⟩
    | true => exact absurd h List.not_mem_nil
  | getServiceStatus => exact absurd h List.not_mem_nil
  | followProperty valid => exact .inl ⟨_, rfl⟩
  | followCommand => exact .inl ⟨_, rfl⟩
  | reportEvent ns =>
    cases ns with
    | nil => exact absurd h List.not_mem_nil
    | cons n ns => exact .inl ⟨_, rfl⟩
  | reportProperty ns =>
    cases ns with
    | nil => exact absurd h (by decide)
    | cons n ns => exact .inr ⟨_, rfl⟩
  | registCommandCB => exact absurd h List.not_mem_nil
  | registPropertyCB first =>
    cases first with
    | false => exact absurd h List.not_mem_nil
    | true => exact .inl ⟨_, rfl⟩

/-- **Every task is at a point**, on every run under the condition. -/
theorem local_located : Local Located Operation.code Request.code Apart where
  none := ⟨.idle [], ⟨rfl, rfl⟩, fun h => by cases h⟩
  start o := ⟨o.point, ⟨o.owns_point.symm, o.code_eq⟩, fun h => by cases h⟩
  request s i r h := by
    refine ⟨.idle r.sections, ⟨rfl, r.code_eq⟩, fun _ => ?_⟩
    rcases Request.sections_of_clis h.1 with hr | hr
    · exact .inr (.inr (congrArg Point.idle hr))
    · exact .inl (congrArg Point.idle hr)
  instr b own x c := by
    rintro ⟨p, ⟨hown, hcode⟩, hnested⟩
    obtain ⟨q, hq, rfl⟩ := Point.next_of_code hcode.symm
    have hown : own = p.owns := hown
    refine ⟨q, ⟨?_, rfl⟩, fun hb => ?_⟩
    · rw [Point.owns_next hq, ← hown]
    · rcases hnested hb with rfl | rfl | rfl
      · cases hq
        exact .inr (.inl rfl)
      · cases hq
        exact .inr (.inr rfl)
      · cases hq

/-! ## 4. Updates and reports -/

theorem readsUnder_replicate (attrs : Bool) (n : Nat) (c : Code) :
    readsUnder attrs (List.replicate n call ++ c) = (attrs && n ≠ 0 || readsUnder attrs c) := by
  induction n with
  | zero => simp
  | succ n ih =>
    rw [List.replicate_succ, List.cons_append, readsUnder, ih]
    cases attrs <;> simp

theorem readsUnder_sections (bs : List Section) : readsUnder false (sections bs) = false := by
  induction bs with
  | nil => rfl
  | cons b bs ih =>
    cases b with
    | attrs => exact ih
    | clis n =>
      show readsUnder false (dispatch n ++ sections bs) = false
      simp [dispatch, readsUnder, readsUnder_replicate, ih]

theorem readsUnder_polling (ns : List Nat) :
    readsUnder true (dispatches ns ++ [release m_lockAttrs]) = !ns.isEmpty := by
  cases ns with
  | nil => rfl
  | cons n ns => rfl

theorem Point.readsUnder_code (p : Point) : readsUnder (p.owns m_lockAttrs) p.code = p.reads := by
  cases p with
  | idle bs => exact readsUnder_sections bs
  | inAttrs bs => exact readsUnder_sections bs
  | inClis n bs =>
    simp only [owns, code, reads, readsUnder_replicate, readsUnder, readsUnder_sections,
      Bool.false_and, Bool.or_false]
  | update ns => exact readsUnder_polling ns
  | polling ns => exact readsUnder_polling ns
  | inGet n ns =>
    simp only [owns, code, reads, readsUnder_replicate, readsUnder, readsUnder_polling,
      Bool.true_and]

theorem At.updates_iff {v : View Lock} {p : Point} (h : At v p) : Updates v ↔ p.reads = true := by
  unfold Updates
  rw [h.1, h.2, Point.readsUnder_code]

/-- Only `updateProperties` calls clients under `m_lockAttrs`. -/
theorem updates_begin (o : Operation) :
    Updates (.begin false o.code) ↔ ∃ n ns, o = .updateProperties (n :: ns) := by
  have hat : At (.begin false o.code) o.point := ⟨o.owns_point.symm, o.code_eq⟩
  rw [hat.updates_iff]
  cases o with
  | updateProperties ns => cases ns <;> simp [Operation.point, Point.reads]
  | _ => simp [Operation.point, Point.reads]

/-- An attribute `updateProperties` does not ask for is not changed. -/
theorem updateData_of_pollCap {a : DSAttr} (h : pollCap a = none) (s : IOTService)
    (ans : IOTService.Answers) : DeviceShadow.updateData s ans a = none := by
  unfold pollCap at h
  unfold DeviceShadow.updateData
  by_cases hl : a.isLocal = true
  · rw [if_pos hl]
  · rw [if_neg hl] at h ⊢
    cases ht : a.attr.attr_type with
    | other => rfl
    | _ =>
      rw [ht] at h
      cases h

/-- The update of a table with an attribute to ask for is one. -/
theorem updates_updateOf (d : DeviceShadow) :
    Updates (.begin false (updateOf d).code) ↔
      ∃ p ∈ d.m_iotAttrs.toList, pollCap p.2 ≠ none := by
  have hat : At (.begin false (updateOf d).code) (updateOf d).point :=
    ⟨(updateOf d).owns_point.symm, (updateOf d).code_eq⟩
  rw [hat.updates_iff]
  simp [updateOf, Operation.point, Point.reads]

theorem not_updates_request (b : Bool) (r : Request) : ¬ Updates (.begin b r.code) := by
  have hat : At (.begin b r.code) (.idle r.sections) := ⟨rfl, r.code_eq⟩
  rw [hat.updates_iff]
  exact Bool.false_ne_true

/-- Whether a task updates is decided where it begins. -/
theorem Updates.of_moves {s : State Lock} {u : Nat} {l : Label Operation Request} {v : View Lock}
    (hm : Moves Operation.code Request.code s u l v) (h : Updates v) :
    Updates (s.view u) ∨ ∃ o, l = .start o ∧ Updates (.begin false o.code) := by
  cases hm with
  | stays => exact .inl h
  | start o => exact .inr ⟨o, rfl, h⟩
  | request i r => exact absurd h (not_updates_request true r)
  | instr _ x c hcode =>
    left
    unfold Updates at h ⊢
    have hc : (s.view u).code = x :: c := hcode
    rw [hc]
    cases x with
    | acquire k =>
      cases k with
      | m_lockAttrs => exact h
      | m_lockClis => exact Bool.or_eq_true_iff.mpr (.inr h)
    | release k =>
      cases k with
      | m_lockAttrs => exact h
      | m_lockClis => exact h
    | call => exact Bool.or_eq_true_iff.mpr (.inr h)

/-- Whether a task reports is decided where it begins. -/
theorem Reports.of_moves {s : State Lock} {j : Nat} {l : Label Operation Request} {v : View Lock}
    (hm : Moves Operation.code Request.code s j l v) (h : Reports v) :
    Reports (s.view j) ∨ ∃ i r, l = .request i r ∧ Reports (.begin true r.code) := by
  cases hm with
  | stays => exact .inl h
  | start o => exact absurd h.1 Bool.false_ne_true
  | request i r => exact .inr ⟨i, r, rfl, h⟩
  | instr _ x c hcode =>
    have hc : (s.view j).code = x :: c := hcode
    exact .inl ⟨h.1, hc ▸ .tail _ h.2⟩

/-- No `updateProperties` with a property to read beside a handler's request for
    `m_lockAttrs`. -/
def Excluded (s : State Lock) : Prop := ∀ u j, Updates (s.view u) → ¬ Reports (s.view j)

theorem lt_fresh_of_code {s : State Lock} (hs : Sound s) {i : Nat} (h : (s.task i).code ≠ []) :
    i < s.fresh := by
  by_contra hi
  rw [hs.beyond i (Nat.le_of_not_lt hi)] at h
  exact h rfl

theorem Updates.lt_fresh {s : State Lock} (hs : Sound s) {u : Nat} (h : Updates (s.view u)) :
    u < s.fresh := by
  refine lt_fresh_of_code hs fun hc => ?_
  unfold Updates at h
  rw [show (s.view u).code = [] from hc] at h
  cases h

theorem Reports.lt_fresh {s : State Lock} (hs : Sound s) {j : Nat} (h : Reports (s.view j)) :
    j < s.fresh :=
  lt_fresh_of_code hs fun hc => List.not_mem_nil ((show (s.view j).code = [] from hc) ▸ h.2)

theorem Excluded.next {s : State Lock} (hs : Sound s) (h : Excluded s)
    {l : Label Operation Request} (hc : Apart s l) (he : machine.enabled s l) :
    Excluded (machine.next s l) := by
  intro u j hu hj
  have hmu : Moves Operation.code Request.code s u l ((machine.next s l).view u) := hs.moves he u
  have hmj : Moves Operation.code Request.code s j l ((machine.next s l).view j) := hs.moves he j
  rcases hu.of_moves hmu with hu' | ⟨o, rfl, hu'⟩
  · rcases hj.of_moves hmj with hj' | ⟨i, r, rfl, hj'⟩
    · exact h u j hu' hj'
    · exact hc.2 hj' u (hu'.lt_fresh hs) hu'
  · rcases hj.of_moves hmj with hj' | ⟨i, r, hl, _⟩
    · exact hc hu' j (hj'.lt_fresh hs) hj'
    · cases hl

/-- What is known of every state of a run under the condition. -/
structure Known (s : State Lock) : Prop where
  sound : Sound s
  located : ∀ i, Located (s.view i)
  excluded : Excluded s

theorem known_of_reach {s : State Lock} (h : machine.Reach Apart s) : Known s where
  sound := sound_of_reach h
  located := view_of_reach local_located h
  excluded := by
    refine h.inv_of (J := Sound) (I := Excluded) (fun _ => sound_of_reach) ?_
      fun s l hs hx hc he => hx.next hs hc he
    rintro _ rfl u j hu
    cases hu

end Locking

end IotWrap
