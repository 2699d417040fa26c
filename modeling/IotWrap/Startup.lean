/-
  File:      IotWrap/Startup.lean
  Subject:   The start of the server as a machine: the shadow thread in
             setupShadow and preShadow, and any number of clients that
             connect, follow and register their callbacks.

  One label is one step of one thread. A section under a lock is one step that
  needs the lock free; only `waitForClient` and `clientActive` keep
  `m_lockClis` over several steps, because the condition variable lives there:

    shadow   setupShadow . lock . wait . reacquire . unlock . sweep . finish
    client   poll . limit . create . (followProperty . addProperty . register |
             followCommand | registCommandCB)* . registPropertyCB . lockActive .
             signal . unlockActive . ...

  `spurious` is the wake-up POSIX allows at any time.
-/
import IotWrap.Lib.Machine
import IotWrap.Lib.Monitor
import IotWrap.Shadow

namespace IotWrap

open Lib

/-- The threads that take `m_lockClis`. -/
inductive Thread where
  | shadow : Thread
  | client (n : Nat) : Thread
  deriving DecidableEq, Repr

/-- Where the shadow thread is. -/
inductive ShadowPc where
  | setupShadow : ShadowPc
  | preShadow : ShadowPc
  /-- In `waitForClient`, holding the lock, before the wait. -/
  | locked : ShadowPc
  /-- In `m_condition.wait`: blocked, or woken and without the lock. -/
  | waiting : ShadowPc
  /-- The wait has returned, the lock is still held. -/
  | returned : ShadowPc
  /-- Past `waitForClient`. -/
  | passed : ShadowPc
  /-- Past the registration pass. -/
  | swept : ShadowPc
  /-- `preShadow` has returned. -/
  | done : ShadowPc
  deriving DecidableEq, Repr

/-- Where a client, or the binder thread that executes its request, is. -/
inductive ClientPc where
  | polling : ClientPc
  | connected : ClientPc
  | creating : ClientPc
  | refused : ClientPc
  /-- It has its proxy, and no request is in progress. -/
  | ready (c : ClientId) : ClientPc
  /-- In `followProperty`, between `addFollowing` and `_addProperty`. -/
  | following (c : ClientId) (name : String8) (type size : Int) (mem : Callocs) : ClientPc
  /-- In `doAddProperty`, between `_addProperty` and the test of `m_shadow`. -/
  | adding (c : ClientId) (attr : ShadowAttr) : ClientPc
  /-- In `registPropertyCB`, before the lock of `clientActive`. -/
  | activating (c : ClientId) : ClientPc
  | signalling (c : ClientId) : ClientPc
  | signalled (c : ClientId) : ClientPc
  deriving DecidableEq, Repr

/-- No request of the client is in progress. -/
def ClientPc.Idle : ClientPc → Prop
  | .polling | .connected | .refused | .ready _ => True
  | _ => False

structure Startup where
  d : DeviceShadow
  /-- `m_lockClis` and `m_condition`. -/
  clis : Monitor Thread
  shadow : ShadowPc
  client : Nat → ClientPc
  /-- The clients whose `registPropertyCB` has run to its end, the last one first. -/
  completed : List Nat

namespace Startup

inductive Label where
  | setupShadow (h : Handle) : Label
  | lock : Label
  | wait : Label
  | spurious : Label
  | reacquire : Label
  | unlock : Label
  | sweep : Label
  | finish : Label
  | poll (n : Nat) : Label
  | limit (n : Nat) : Label
  | create (n : Nat) (name : String8) : Label
  | followProperty (n : Nat) (c : ClientId) (key : String8) (type size : Int) (mem : Callocs) : Label
  | addProperty (n : Nat) (c : ClientId) (name : String8) (type size : Int) (mem : Callocs) : Label
  | register (n : Nat) (c : ClientId) (attr : ShadowAttr) : Label
  | followCommand (n : Nat) (c : ClientId) (cmd : String8) : Label
  | registCommandCB (n : Nat) (c : ClientId) (cb : CbId) : Label
  | registPropertyCB (n : Nat) (c : ClientId) (cb : CbId) : Label
  | lockActive (n : Nat) (c : ClientId) : Label
  | signal (n : Nat) (c : ClientId) (w : Option Thread) : Label
  | unlockActive (n : Nat) (c : ClientId) : Label

/-- Client `n` moves to `pc`. -/
def goto (s : Startup) (n : Nat) (pc : ClientPc) : Startup :=
  { s with client := Function.update s.client n pc }

/-- The registry part of the server changes. -/
def withService (s : Startup) (t : IOTService) : Startup :=
  { s with d := { s.d with toIOTService := t } }

def enabled (s : Startup) : Label → Prop
  | .setupShadow _ => s.shadow = .setupShadow
  | .lock => s.shadow = .preShadow ∧ s.clis.Free
  | .wait => s.shadow = .locked
  | .spurious => Thread.shadow ∈ s.clis.waiters
  | .reacquire => s.shadow = .waiting ∧ Thread.shadow ∉ s.clis.waiters ∧ s.clis.Free
  | .unlock => s.shadow = .returned
  | .sweep => s.shadow = .passed
  | .finish => s.shadow = .swept
  | .poll n => s.client n = .polling
  | .limit n => s.client n = .connected
  | .create n _ => s.client n = .creating ∧ s.clis.Free
  | .followProperty n c _ _ _ _ => s.client n = .ready c ∧ s.clis.Free
  | .addProperty n c name type size mem => s.client n = .following c name type size mem
  | .register n c attr => s.client n = .adding c attr
  | .followCommand n c _ => s.client n = .ready c ∧ s.clis.Free
  | .registCommandCB n c _ => s.client n = .ready c
  | .registPropertyCB n c _ => s.client n = .ready c
  | .lockActive n c => s.client n = .activating c ∧ s.clis.Free
  | .signal n c w => s.client n = .signalling c ∧ s.clis.MayWake w
  | .unlockActive n c => s.client n = .signalled c

instance (s : Startup) (l : Label) : Decidable (s.enabled l) := by
  cases l <;> simp only [enabled] <;> infer_instance

def next (s : Startup) : Label → Startup
  | .setupShadow h => { s with d := { s.d with m_shadow := some h }, shadow := .preShadow }
  | .lock => { s with clis := s.clis.acquire .shadow, shadow := .locked }
  | .wait => { s with clis := s.clis.wait .shadow, shadow := .waiting }
  | .spurious => { s with clis := s.clis.wake .shadow }
  | .reacquire => { s with clis := s.clis.acquire .shadow, shadow := .returned }
  | .unlock => { s with clis := s.clis.release, shadow := .passed }
  | .sweep => { s with d := s.d.registerAll, shadow := .swept }
  | .finish => { s with shadow := .done }
  | .poll n =>
    s.goto n (if s.d.getServiceStatus = DS_STATUS_CONNECTED then .connected else .polling)
  | .limit n => s.goto n (if s.d.hasSlot then .creating else .refused)
  | .create n name =>
    let (c, t) := s.d.insertClient name
    (s.withService t).goto n (.ready c)
  | .followProperty n c key type size mem =>
    let (ret, t) := s.d.addFollowing FOLLOW_TYPE_PROPERTY (cstr key) c
    (s.withService t).goto n
      (if ret ≠ 0 then .ready c else .following c (cstr key) type size mem)
  | .addProperty n c name type size mem =>
    match DeviceShadow.acceptType type size with
    | none => s.goto n (.ready c)
    | some t =>
      let (attr, d) := s.d._addProperty name t size (some .DS_call_default_property_cb) false mem
      { s with d := d }.goto n (match attr with | none => .ready c | some a => .adding c a)
  | .register n c attr => { s with d := s.d.registerNew (some attr) }.goto n (.ready c)
  | .followCommand _ c cmd => s.withService (s.d.toIOTService.followCommand c cmd).2
  | .registCommandCB _ c cb => s.withService (s.d.toIOTService.registCommandCB c (some cb)).2
  | .registPropertyCB n c cb =>
    let (ret, t) := s.d.toIOTService.setPropertyCB c cb
    (s.withService t).goto n (if ret ≠ 0 then .ready c else .activating c)
  | .lockActive n c => { s with clis := s.clis.acquire (.client n) }.goto n (.signalling c)
  | .signal n c w => { s with clis := s.clis.signal w }.goto n (.signalled c)
  | .unlockActive n c =>
    { s with
      clis := s.clis.release
      completed := n :: s.completed }.goto n (.ready c)

/-- A server that was just constructed, and clients that have not asked yet. -/
def init (reportFlag : Bool) : Startup :=
  ⟨DeviceShadow.init reportFlag, Monitor.init, .setupShadow, fun _ => .polling, []⟩

/-- **The start of the server.** -/
def machine : Machine Startup Label where
  init s := ∃ reportFlag, s = init reportFlag
  enabled := enabled
  next := next

instance (s : Startup) (l : Label) : Decidable (machine.enabled s l) :=
  inferInstanceAs (Decidable (s.enabled l))

@[simp] theorem goto_self (s : Startup) (n : Nat) (pc : ClientPc) : (s.goto n pc).client n = pc :=
  Function.update_self _ _ _

theorem goto_ne (s : Startup) {n m : Nat} (h : m ≠ n) (pc : ClientPc) :
    (s.goto n pc).client m = s.client m :=
  Function.update_of_ne h _ _

end Startup

end IotWrap
