/-
  File:      IotWrap/Applications.lean
  Subject:   Applications and their Java objects, over the server's registry
             (jni/client/IOT_ClientJNI.cpp, src/com/android/leiot/DeviceShadow.java).

  Any number of processes, each with the singleton `IOTClientJNI`, over the server of
  `Sessions`. Every `new DeviceShadow` replaces the two callbacks of the singleton; the
  server gets the ones that are there when `_postFollow` registers. `_postFollow` holds
  the lock of a list while it sends it, and a name that is listed later is not sent.

  Two things that the source allows are left out: a second `connService` of a process
  while one is in progress, and the death of the server, after which `serviceDied`
  connects again and registers the callbacks that are there then.

  * `machine`: the steps of the processes, wrapped around those of the server;
  * `World.onCommand`, `World.onPropertySet`, `World.onPropertyGet`, `World.onMessage`: the
    Java methods that a call of the server comes to.
-/
import IotWrap.Callback
import IotWrap.Command
import IotWrap.Sessions

namespace IotWrap

open Lib

namespace Applications

open IOTService
open Callback (Kind JavaCall JNIEnv)

/-! ## 1. The machine -/

/-- Where `connService` is. -/
inductive ConnPc where
  | idle : ConnPc
  /-- In `_connect`: the service was found, and is asked for a client. -/
  | creating : ConnPc
  /-- In `_postFollow`, before the lock of the properties. -/
  | created : ConnPc
  | properties : ConnPc
  /-- Before the lock of the commands. -/
  | between : ConnPc
  | commands : ConnPc
  | registerCommand : ConnPc
  | registerProperty : ConnPc
  deriving DecidableEq, Repr

structure Process where
  jni : IOTClientJNI
  /-- There was a `new DeviceShadow`. -/
  constructed : Bool
  pc : ConnPc
  /-- `i` of the first loop of `_postFollow`, and of the second one. -/
  keys : Nat
  cmds : Nat

structure World where
  server : Sessions.State
  process : ProcId → Process
  /-- The process of a Java object. -/
  home : ObjId → ProcId
  fresh : ObjId
  collected : List ObjId

namespace Process

def init : Process := ⟨⟨[], [], [], 0, 0, none⟩, false, .idle, 0, 0⟩

/-- `IOTClientJNI::init`, called by the constructor of the object `o`. -/
def construct (P : Process) (clientID : String8) (o : ObjId) : Process :=
  { P with
    constructed := true
    jni := { P.jni with m_clientID := cstr clientID, m_commandCB := o, m_propertyCB := o } }

def followProperty (P : Process) (jkey : String8) (type size : Int) : Process :=
  { P with jni := (P.jni.followProperty jkey type size).2 }

def followCommand (P : Process) (jcmd : String8) : Process :=
  { P with jni := (P.jni.followCommand jcmd).2 }

/-- The request that `connService` makes next. -/
def request (P : Process) : Option Sessions.Request :=
  match P.pc with
  | .creating => some (.createClient P.jni.m_clientID)
  | .properties =>
    P.jni.m_proxy.bind fun c =>
      (P.jni.m_propertyList[P.keys]?).map fun q => .followProperty c q._key
  | .commands =>
    P.jni.m_proxy.bind fun c => (P.jni.m_commandList[P.cmds]?).map fun cmd => .followCommand c cmd
  | .registerCommand => P.jni.m_proxy.map fun c => .registCommandCB c (some P.jni.m_commandCB)
  | .registerProperty => P.jni.m_proxy.map fun c => .registPropertyCB c P.jni.m_propertyCB
  | .idle | .created | .between => none

/-- A loop of `_postFollow` begins, or has come to the end of its list. -/
def Proceeds (P : Process) : Prop :=
  match P.pc with
  | .created | .between => True
  | .properties => P.jni.m_propertyList.length ≤ P.keys
  | .commands => P.jni.m_commandList.length ≤ P.cmds
  | .idle | .creating | .registerCommand | .registerProperty => False

instance (P : Process) : Decidable P.Proceeds :=
  match h : P.pc with
  | .created | .between => .isTrue (by simp [Proceeds, h])
  | .properties => decidable_of_iff (P.jni.m_propertyList.length ≤ P.keys) (by simp [Proceeds, h])
  | .commands => decidable_of_iff (P.jni.m_commandList.length ≤ P.cmds) (by simp [Proceeds, h])
  | .idle | .creating | .registerCommand | .registerProperty => .isFalse (by simp [Proceeds, h])

def proceed (P : Process) : Process :=
  match P.pc with
  | .created => { P with pc := .properties }
  | .properties => { P with pc := .between }
  | .between => { P with pc := .commands }
  | .commands => { P with pc := .registerCommand }
  | _ => P

/-- The reply to a request; `createClient` that has no slot returns null. -/
def replied (P : Process) (slot : Bool) : Sessions.Request → Process
  | .createClient _ => if slot then P else { P with pc := .idle }
  | .followProperty _ _ => { P with keys := P.keys + 1 }
  | .followCommand _ _ => { P with cmds := P.cmds + 1 }
  | .registCommandCB _ _ => { P with pc := .registerProperty }
  | .registPropertyCB _ _ => { P with pc := .idle }

/-- `createClient` returns the client `c`. -/
def connected (P : Process) (c : ClientId) : Process :=
  { P with jni := { P.jni with m_proxy := some c }, pc := .created, keys := 0, cmds := 0 }

/-- The names that were sent to the server. -/
def posted (P : Process) : Kind → List String8
  | .command => (P.jni.m_commandList.take P.cmds).map cstr
  | .property => (P.jni.m_propertyList.take P.keys).map fun q => cstr q._key

end Process

namespace World

def init : World := ⟨Sessions.init, fun _ => Process.init, fun _ => 0, 0, []⟩

/-- The processes with a request that was not answered. -/
def inFlight (w : World) : List ProcId :=
  w.server.sent.map Prod.fst ++ w.server.tested.map Prod.fst

/-- Another state of one process. -/
def set (w : World) (p : ProcId) (P : Process) : World :=
  { w with process := Function.update w.process p P }

end World

inductive Label where
  | construct (p : ProcId) (clientID : String8) : Label
  | followProperty (p : ProcId) (jkey : String8) (type size : Int) : Label
  | followCommand (p : ProcId) (jcmd : String8) : Label
  /-- `connService`, the service being found in time and connected. -/
  | connService (p : ProcId) : Label
  | proceed (p : ProcId) : Label
  | collect (o : ObjId) : Label
  | server (l : Sessions.Label) : Label
  deriving DecidableEq, Repr

/-- A request that is sent is the one its process makes. -/
def Sends (w : World) : Sessions.Label → Prop
  | .send p r => (w.process p).request = some r ∧ p ∉ w.inFlight
  | _ => True

instance (w : World) : DecidablePred (Sends w)
  | .send _ _ => inferInstanceAs (Decidable (_ ∧ _))
  | .serve _ _ | .insert _ _ | .die _ | .notify _ => .isTrue trivial

def enabled (w : World) : Label → Prop
  | .construct p _ => p ∉ w.server.dead
  | .followProperty p _ _ _ =>
    p ∉ w.server.dead ∧ (w.process p).constructed = true ∧ (w.process p).pc ≠ .properties
  | .followCommand p _ =>
    p ∉ w.server.dead ∧ (w.process p).constructed = true ∧ (w.process p).pc ≠ .commands
  | .connService p =>
    p ∉ w.server.dead ∧ (w.process p).constructed = true ∧ (w.process p).pc = .idle ∧
      (w.process p).jni.m_proxy = none
  | .proceed p => p ∉ w.server.dead ∧ (w.process p).Proceeds
  | .collect o => o < w.fresh
  | .server l => Sessions.enabled w.server l ∧ Sends w l

/-- What a process that lives learns of a step of the server. -/
def told (w : World) : Sessions.Label → World
  | .serve p r =>
    if p ∈ w.server.dead then w
    else w.set p ((w.process p).replied w.server.service.hasSlot r)
  | .insert p _ =>
    if p ∈ w.server.dead then w else w.set p ((w.process p).connected w.server.service.fresh)
  | .send _ _ | .die _ | .notify _ => w

def next (w : World) : Label → World
  | .construct p clientID =>
    { w with
      process := Function.update w.process p ((w.process p).construct clientID w.fresh)
      home := Function.update w.home w.fresh p
      fresh := w.fresh + 1 }
  | .followProperty p jkey type size => w.set p ((w.process p).followProperty jkey type size)
  | .followCommand p jcmd => w.set p ((w.process p).followCommand jcmd)
  | .connService p => w.set p { w.process p with pc := .creating }
  | .proceed p => w.set p (w.process p).proceed
  | .collect o => { w with collected := o :: w.collected }
  | .server l => { told w l with server := Sessions.next w.server l }

/-- **The processes during one life of the server**, each with one `connService` at a
    time. -/
def machine : Machine World Label where
  init w := w = World.init
  enabled := enabled
  next := next

instance (w : World) (l : Label) : Decidable (machine.enabled w l) :=
  match l with
  | .construct p _ => inferInstanceAs (Decidable (p ∉ w.server.dead))
  | .followProperty _ _ _ _ => inferInstanceAs (Decidable (_ ∧ _ ∧ _))
  | .followCommand _ _ => inferInstanceAs (Decidable (_ ∧ _ ∧ _))
  | .connService _ => inferInstanceAs (Decidable (_ ∧ _ ∧ _ ∧ _))
  | .proceed _ => inferInstanceAs (Decidable (_ ∧ _))
  | .collect o => inferInstanceAs (Decidable (o < w.fresh))
  | .server l => inferInstanceAs (Decidable (Sessions.machine.enabled w.server l ∧ _))

/-- A request of the process, sent and served at once. -/
def exchange (p : ProcId) (r : Sessions.Request) : List Label :=
  [.server (.send p r), .server (.serve p r)]

/-- A process follows a command and connects. -/
def playRun : List Label :=
  [.construct 0 (lit "tv"), .followCommand 0 (lit "play,pause"), .connService 0] ++
    exchange 0 (.createClient (lit "tv")) ++ [.server (.insert 0 (lit "tv"))] ++
    [.proceed 0, .proceed 0, .proceed 0] ++ exchange 0 (.followCommand 0 (lit "play,pause")) ++
    [.proceed 0] ++ exchange 0 (.registCommandCB 0 (some 0)) ++
    exchange 0 (.registPropertyCB 0 0)

/-! ## 2. What the server reaches -/

/-- Java strings that are bytes. -/
def bytesEnv : JNIEnv Bytes := ⟨some, some⟩

/-- The follow map of a dispatch. -/
def mapOf (s : IOTService) : Kind → FollowMap
  | .command => s.m_cmdFollow
  | .property => s.m_keyFollow

/-- The callback of a dispatch. -/
def cbOf : Kind → IOTClient → Option CbId
  | .command => IOTClient.m_command
  | .property => IOTClient.m_property

namespace World

/-- The process of the object died. -/
def gone (w : World) (o : ObjId) : Bool := decide (w.home o ∈ w.server.dead)

variable {JString : Type} (env : JNIEnv JString) (get : ObjId → JString → Option JString)

/-- The Java methods that `callCommandCB` comes to. -/
def onCommand (w : World) (cmd data : String8) : List (JavaCall JString) :=
  (Callback.deliver env get w.gone .command (w.server.service.callCommandCB cmd data).2
    ⟨w.collected, []⟩).calls

/-- The Java methods that `callPropertySet` comes to. -/
def onPropertySet (w : World) (key val : String8) : List (JavaCall JString) :=
  (Callback.deliver env get w.gone .property (w.server.service.callPropertySet key val).2
    ⟨w.collected, []⟩).calls

/-- What the applications answer. -/
def answers (w : World) : Answers := Callback.answers env get w.gone w.collected

/-- `callPropertyGet`, with its remote calls: what it gives, and the Java methods it
    comes to. -/
def onPropertyGet (w : World) (key : String8) (val : Bytes) (size : Nat) :
    (Int × Bytes) × List (JavaCall JString) :=
  let (ret, vm) :=
    Callback.callPropertyGet env get w.gone w.server.service key val size ⟨w.collected, []⟩
  (ret, vm.calls)

/-- The calls that are made in one process. -/
def callsIn (w : World) (p : ProcId) (calls : List (JavaCall JString)) : List (JavaCall JString) :=
  calls.filter fun j => decide (w.home j.object = p)

/-- The object whose callback the server has of a process. -/
def registered (w : World) (p : ProcId) (kind : Kind) : Option ObjId :=
  (w.process p).jni.m_proxy.bind fun c => cbOf kind (w.server.service.client c)

/-- **A dispatch of the name goes to the process**: the name was sent, or nobody ever
    followed it and the process's client is the first one. -/
def Addressed (w : World) (p : ProcId) (kind : Kind) (name : String8) : Prop :=
  name ∈ (w.process p).posted kind ∨
    (mapOf w.server.service kind)[name]? = none ∧
      ∃ c ∈ w.server.service.m_clients.head?, (w.process p).jni.m_proxy = some c

instance (w : World) (p : ProcId) (kind : Kind) (name : String8) :
    Decidable (w.Addressed p kind name) :=
  inferInstanceAs (Decidable (_ ∨ _ ∧ ∃ c ∈ w.server.service.m_clients.head?, _ = some c))

end World

end Applications

end IotWrap
