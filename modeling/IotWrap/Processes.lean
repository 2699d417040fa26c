/-
  File:      IotWrap/Processes.lean
  Subject:   Deadlocks across processes: the server's locks and those of any number
             of applications (jni/client/IOT_ClientJNI.cpp).

  A thread of an application waits for its remote call, so the server's part of the
  call is put in its place, between the locks of the library that are held around it.
  A handler is called by a dispatch of the server and may use the library of its
  process; a request is one such use.

  The lists and the proxy are locked around remote calls, so their locks come before
  the server's. A handler takes them after `m_lockClis`.

  * `rising`: all the code of both sides takes its locks upwards;
  * `silent_not_deadlock`: no deadlock where handlers do not use the library, and one as
    soon as a handler needs a lock whose owner waits for the server.
-/
import IotWrap.Locking

namespace IotWrap

open Lib Lib.Locks

namespace Processes

open Instr
open Locking (Lock Request Operation autolock dispatch dispatches)

/-- The mutexes of the server and of every application. -/
inductive Mutex where
  | server (k : Lock) : Mutex
  | m_lockPropertyList (p : Nat) : Mutex
  | m_lockCommandList (p : Nat) : Mutex
  | m_lockProxy (p : Nat) : Mutex
  deriving DecidableEq, Repr

open Mutex

abbrev Code := List (Instr Mutex)

/-! ## 1. The code of both sides -/

/-- The server's part of a remote call. -/
def onServer (c : Locking.Code) : Code :=
  c.map fun
    | acquire k => acquire (server k)
    | release k => release (server k)
    | call => call

/-- A scope of a `Mutex::Autolock`. -/
def scope (k : Mutex) (c : Code) : Code := acquire k :: (c ++ [release k])

/-- What an application calls: the functions of IOTClientJNI. -/
inductive LibCall where
  /-- `skipped`: the proxy is set, or no service was found; `full`: the server has no room;
      `valid`, `cmds`: the follows on the two lists. -/
  | connService (skipped full : Bool) (valid : List Bool) (cmds : Nat) : LibCall
  | followProperty : LibCall
  | followCommand : LibCall
  /-- `sent`: the proxy is set and the argument is not empty. -/
  | reportEvent (sent : Bool) (ns : List Nat) : LibCall
  | reportProperty (sent : Bool) (ns : List Nat) : LibCall
  deriving DecidableEq, Repr

/-- In process `p`. -/
def LibCall.code (p : Nat) : LibCall → Code
  | connService skipped full valid cmds =>
    if skipped then []
    else scope (m_lockProxy p) (onServer (Request.createClient full).code) ++
      if full then []
      else scope (m_lockPropertyList p)
          (valid.flatMap fun v => onServer (Request.followProperty v).code) ++
        scope (m_lockCommandList p)
          (List.replicate cmds (onServer Request.followCommand.code)).flatten ++
        scope (m_lockProxy p)
          (onServer Request.registCommandCB.code ++ onServer (Request.registPropertyCB true).code)
  | followProperty => scope (m_lockPropertyList p) []
  | followCommand => scope (m_lockCommandList p) []
  | reportEvent sent ns =>
    if sent then scope (m_lockProxy p) (onServer (Request.reportEvent ns).code) else []
  | reportProperty sent ns =>
    if sent then scope (m_lockProxy p) (onServer (Request.reportProperty ns).code) else []

/-- A use of the library in a process. -/
structure Use where
  process : Nat
  libCall : LibCall
  deriving DecidableEq, Repr

def Use.code (u : Use) : Code := u.libCall.code u.process

/-- What may begin at any time: on a thread of the server, or of an application. -/
inductive Job where
  | server (o : Operation) : Job
  | application (u : Use) : Job
  deriving DecidableEq, Repr

def Job.code : Job → Code
  | server o => onServer o.code
  | application u => u.code

abbrev machine : Machine (State Mutex) (Label Job Use) := Locks.machine Job.code Use.code

/-! ## 2. The order -/

/-- The libraries' locks, then `m_lockAttrs`, then `m_lockClis`. -/
def rank : Mutex → Nat
  | server .m_lockClis => 2
  | server .m_lockAttrs => 1
  | _ => 0

theorem rank_lt (k : Mutex) : rank k < 3 := by
  cases k with
  | server k => cases k <;> decide
  | _ => exact Nat.zero_lt_succ 2

section Scopes

variable {own : Mutex → Bool}

theorem scope_autolock {k : Lock} (h : ∀ l, own l = true → rank l < rank (server k)) :
    Scope rank own (onServer (autolock k)) := Scope.lock (c := []) h (scope_nil _)

theorem scope_dispatch (h : ∀ l, own l = true → rank l < 2) (n : Nat) :
    Scope rank own (onServer (dispatch n)) := by
  have hcode : onServer (dispatch n) =
      acquire (server .m_lockClis) :: ((List.replicate n [call]).flatten ++
        [release (server .m_lockClis)]) := by
    simp [onServer, dispatch, List.flatten_replicate_singleton]
  rw [hcode]
  exact Scope.lock h (scope_replicate n (scope_call _))

theorem scope_dispatches (h : ∀ l, own l = true → rank l < 2) (ns : List Nat) :
    Scope rank own (onServer (dispatches ns)) := by
  have hcode : onServer (dispatches ns) = ns.flatMap fun n => onServer (dispatch n) := by
    simp only [onServer, dispatches, List.map_flatMap]
  rw [hcode]
  exact scope_flatMap ns fun n _ => scope_dispatch h n

/-- **A request** takes its locks above those of the libraries. -/
theorem scope_request (h : ∀ l, own l = true → rank l < 1) (r : Request) :
    Scope rank own (onServer r.code) := by
  have hattrs : Scope rank own (onServer (autolock .m_lockAttrs)) := scope_autolock h
  have hclis : Scope rank own (onServer (autolock .m_lockClis)) :=
    scope_autolock fun l hl => Nat.lt_succ_of_lt (h l hl)
  have hdisp : ∀ ns, Scope rank own (onServer (dispatches ns)) :=
    scope_dispatches fun l hl => Nat.lt_succ_of_lt (h l hl)
  cases r with
  | createClient full =>
    cases full with
    | true => exact scope_nil own
    | false => exact hclis
  | getServiceStatus => exact scope_nil own
  | followProperty valid =>
    cases valid with
    | true => exact hclis.append hattrs
    | false => exact hclis
  | followCommand => exact hclis
  | reportEvent ns => exact hdisp ns
  | reportProperty ns =>
    have hcode : onServer (Request.reportProperty ns).code =
        onServer (autolock .m_lockAttrs) ++ onServer (dispatches ns) := List.map_append
    exact hcode ▸ hattrs.append (hdisp ns)
  | registCommandCB => exact scope_nil own
  | registPropertyCB first =>
    cases first with
    | true => exact hclis
    | false => exact scope_nil own

/-- The server's operations, with nothing locked before. -/
theorem scope_operation (o : Operation) : Scope rank (fun _ => false) (onServer o.code) := by
  have hattrs : Scope rank (fun _ => false) (onServer (autolock .m_lockAttrs)) :=
    scope_autolock fun l hl => by cases hl
  have hclis : Scope rank (fun _ => false) (onServer (autolock .m_lockClis)) :=
    scope_autolock fun l hl => by cases hl
  have hdisp : ∀ ns, Scope rank (fun _ => false) (onServer (dispatches ns)) :=
    scope_dispatches fun l hl => by cases hl
  cases o with
  | request r => exact scope_request (fun l hl => by cases hl) r
  | preShadow ns =>
    have hcode : onServer (Operation.preShadow ns).code =
        onServer (autolock .m_lockClis) ++ onServer (autolock .m_lockClis) ++
          onServer (autolock .m_lockAttrs) ++ onServer (dispatches ns) := List.map_append
    exact hcode ▸ ((hclis.append hclis).append hattrs).append (hdisp ns)
  | yieldShadow ns => exact hdisp ns
  | updateProperties ns =>
    have hcode : onServer (Operation.updateProperties ns).code =
        scope (server .m_lockAttrs) (onServer (dispatches ns)) := by
      simp [onServer, Operation.code, scope]
    rw [hcode]
    refine Scope.lock (fun l hl => by cases hl) (scope_dispatches (fun l hl => ?_) ns)
    by_cases hk : l = server .m_lockAttrs
    · subst hk
      decide
    · rw [Function.update_of_ne hk] at hl
      cases hl
  | pushProperties flagged ns =>
    cases flagged with
    | false => exact scope_nil _
    | true =>
      have hcode : onServer (Operation.pushProperties true ns).code =
          onServer (autolock .m_lockAttrs) ++ onServer (dispatches ns) := List.map_append
      exact hcode ▸ hattrs.append (hdisp ns)
  | postShadow => exact hattrs
  | cloud n => exact scope_dispatch (fun l hl => by cases hl) n
  | binderDied => exact hclis

end Scopes

/-- Around the server's part nothing but one lock of a library is held. -/
theorem below_of_update {k : Mutex} (hk : rank k = 0) (l : Mutex)
    (hl : Function.update (fun _ => false) k true l = true) : rank l < 1 := by
  by_cases hlk : l = k
  · rw [hlk, hk]
    exact Nat.zero_lt_one
  · rw [Function.update_of_ne hlk] at hl
    cases hl

/-- One lock of a library around the server's part of its calls. -/
theorem scope_library {k : Mutex} {c : Code}
    (h : Scope rank (Function.update (fun _ => false) k true) c) :
    Scope rank (fun _ => false) (scope k c) := Scope.lock (fun l hl => by cases hl) h

theorem scope_use (u : Use) : Scope rank (fun _ => false) u.code := by
  obtain ⟨p, f⟩ := u
  have hproxy := below_of_update (k := m_lockProxy p) rfl
  show Scope rank _ (f.code p)
  cases f with
  | connService skipped full valid cmds =>
    unfold LibCall.code
    cases skipped with
    | true => exact scope_nil _
    | false =>
      refine (scope_library (scope_request hproxy _)).append ?_
      cases full with
      | true => exact scope_nil _
      | false =>
        refine ((scope_library (scope_flatMap valid fun v _ => ?_)).append
          (scope_library (scope_replicate cmds ?_))).append
            (scope_library ((scope_request hproxy _).append (scope_request hproxy _)))
        · exact scope_request (below_of_update rfl) _
        · exact scope_request (below_of_update rfl) _
  | followProperty => exact scope_library (scope_nil _)
  | followCommand => exact scope_library (scope_nil _)
  | reportEvent sent ns =>
    cases sent with
    | false => exact scope_nil _
    | true => exact scope_library (scope_request hproxy _)
  | reportProperty sent ns =>
    cases sent with
    | false => exact scope_nil _
    | true => exact scope_library (scope_request hproxy _)

/-- **All the code of both sides takes its locks upwards.** -/
theorem rising (o : Job) : Rising rank (fun _ => false) o.code := by
  cases o with
  | server o => exact (scope_operation o).rising
  | application u => exact (scope_use u).rising

/-! ## 3. Deadlocks -/

/-- **The condition on one step**: what a handler uses of the library takes no lock. -/
abbrev Silent : State Mutex → Label Job Use → Prop := Unlocked Use.code

/-- A handler uses the library. -/
theorem request_task {s : State Mutex} (i : Nat) (u : Use) (j : Nat) :
    (machine.next s (.request i u)).task j =
      if j = i then { if i = s.fresh then ⟨u.code, .running, some i⟩ else s.task i with
        phase := .nested s.fresh }
      else if j = s.fresh then ⟨u.code, .running, some i⟩ else s.task j := by
  show ((s.add u.code (some i)).setPhase i (.nested s.fresh)).task j = _
  rw [State.setPhase_task, State.add_task, State.add_task]

/-- **No deadlock across processes**, whatever the threads of the server and of any number
    of applications do, as long as handlers do not use the library. And a deadlock as soon
    as one does that needs a lock whose owner waits for the lock of the dispatch. -/
theorem silent_not_deadlock {s : State Mutex} (h : machine.Reach Silent s) :
    ¬ Deadlock (Waits s) ∧
      ∀ (i z : Nat) (u : Use) (k k' : Mutex) (c c' : Code), (s.task i).phase = .calling →
        u.code = acquire k :: c → s.owner k = some z → (s.task z).code = acquire k' :: c' →
          s.owner k' = some i → Deadlock (Waits (machine.next s (.request i u))) := by
  have hs := sound_of_reach h
  refine ⟨not_deadlock_of_rising rank_lt rising h, ?_⟩
  intro i z u k k' c c' hi hu hk hz hk'
  have hrun : (s.task z).phase = .running := hs.running_of_code hz (by simp)
  have hzi : z ≠ i := by
    rintro rfl
    rw [hrun] at hi
    cases hi
  have hif : i ≠ s.fresh := hs.ne_fresh hk'
  have hzf : z ≠ s.fresh := hs.ne_fresh hk
  have hnew : (machine.next s (.request i u)).task s.fresh = ⟨u.code, .running, some i⟩ := by
    rw [request_task, if_neg (Ne.symm hif), if_pos rfl]
  have hold : (machine.next s (.request i u)).task z = s.task z := by
    rw [request_task, if_neg hzi, if_neg hzf]
  refine @deadlock_via _ _ i s.fresh z k _ c c' ?_ ?_ ?_ hk ?_ ?_ hk'
  · rw [request_task, if_pos rfl]
  · rw [hnew]
  · rw [hnew]
    exact hu
  · rw [hold]
    exact hrun
  · rw [hold]
    exact hz

/-- No handler does anything. -/
def NoUse : Label Job Use → Prop
  | .request _ _ => False
  | _ => True

instance : DecidablePred NoUse
  | .request _ _ => .isFalse id
  | .start _ | .step _ | .reply _ | .ret _ => .isTrue trivial

/-- An application connects, up to `clientActive`: its command callback is registered. -/
def connects (p : Nat) : List (Label Job Use) :=
  .start (.application ⟨p, .connService false false [true] 0⟩) :: List.replicate 13 (.step 0)

/-- A command of the cloud arrives, and its dispatch calls a handler. -/
def commands : List (Label Job Use) := [.start (.server (.cloud 1)), .step 1, .step 1]

/-- `silent_not_deadlock` for a handler that reports a property while its application is
    still connecting. -/
theorem silent_not_deadlock_report : ∃ s, machine.Reach Silent s ∧ ¬ Deadlock (Waits s) ∧
    Deadlock (Waits (machine.next s (.request 1 ⟨7, .reportProperty true []⟩))) := by
  have hrun : ((machine.run (fun _ l => NoUse l) State.init (connects 7 ++ commands)).map fun s =>
      decide ((s.task 1).phase = .calling ∧ s.owner (m_lockProxy 7) = some 0 ∧
        (s.task 0).code.head? = some (acquire (server .m_lockClis)) ∧
        s.owner (server .m_lockClis) = some 1)) = some true := by decide
  obtain ⟨s, hs, hb⟩ := Machine.exists_of_run (M := machine) rfl hrun
  obtain ⟨hcall, hproxy, hhead, hclis⟩ := of_decide_eq_true hb
  have hsilent : machine.Reach Silent s := hs.mono fun _ l hC => by
    cases l with
    | request i r => exact absurd hC id
    | _ => trivial
  obtain ⟨c', hcode⟩ := List.head?_eq_some_iff.mp hhead
  obtain ⟨hno, hall⟩ := silent_not_deadlock hsilent
  exact ⟨s, hsilent, hno, hall 1 0 _ _ _ _ _ hcall rfl hproxy hcode hclis⟩

end Processes

end IotWrap
