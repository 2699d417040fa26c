/-
  File:      IotWrap/Pointers.lean
  Subject:   Null pointers in the server: every `sp<IOTClient>`, follower list,
             callback and binder as it is stored, and what follows it
             (jni/server/IOT_Service.cpp, jni/binder/IIOTClient.cpp).

  `Pointers` is the registry with pointers that may be null. A function gives
  nothing where it follows a null pointer: the process is dead. Requests come
  in as parcels through the stubs, the dispatches from the shadow thread.

  `Holds` says that the pointers hold a registry of `IOTService`, which has no
  null client anywhere; every function at the pointers is then the function of
  `IOTService`.

  * `holds_run`: the pointers of a living process hold the registry of a run;
  * `alive_iff`: a living process survives exactly the steps that are `Tested`;
  * `null_property_callback`: `registPropertyCB` with a null binder kills it.
-/
import IotWrap.Connect

namespace IotWrap

open Lib
open IOTService (Answers GetLoop Invocation Op)

/-! ## 1. The registry with its pointers -/

/-- `sp<IOTClient>`. -/
abbrev ClientPtr := Option ClientId

/-- `std::map<std::string, Vector<sp<IOTClient>>*>`. -/
abbrev PtrMap := Std.TreeMap String8 (Option (List ClientPtr))

structure Pointers where
  m_clients : List ClientPtr
  m_keyFollow : PtrMap
  m_cmdFollow : PtrMap
  /-- The heap of client objects. -/
  client : ClientId → IOTClient
  /-- The address the next `new IOTClient` gets. -/
  fresh : ClientId

namespace Pointers

def init : Pointers := ⟨[], {}, {}, fun _ => ⟨[], none, none⟩, 0⟩

/-- `p->`. -/
def deref (s : Pointers) : ClientPtr → Option (ClientId × IOTClient)
  | none => none
  | some c => some (c, s.client c)

/-- `createClient`. What it returns may be null, and so may `asBinder` of it. -/
def createClient (s : Pointers) (name : String8) : ClientPtr × Pointers :=
  if s.m_clients.length < MAX_CLINETS then
    (some s.fresh, { s with
      m_clients := s.m_clients ++ [some s.fresh]
      client := Function.update s.client s.fresh ⟨cstr name, none, none⟩
      fresh := s.fresh + 1 })
  else (none, s)

/-- The loop over one follow map in `removeClient`; a null list is skipped. -/
def dropFrom (m : PtrMap) (p : ClientPtr) : PtrMap :=
  m.map fun _ v_clients => v_clients.map fun l => l.erase p

/-- `removeClient`: pointers are compared, none is followed. -/
def removeClient (s : Pointers) (p : ClientPtr) : Int × Pointers :=
  let s' := { s with
    m_keyFollow := dropFrom s.m_keyFollow p
    m_cmdFollow := dropFrom s.m_cmdFollow p }
  if p ∈ s.m_clients then (1, { s' with m_clients := s.m_clients.erase p }) else (0, s')

/-- The vector `addFollowing` works on; a stored null stays. -/
def vectorFor (m : PtrMap) (val : String8) : PtrMap × Option (List ClientPtr) :=
  match m[val]? with
  | none => (m.insert val (some []), some [])
  | some v_clients => (m, v_clients)

/-- The end of `addFollowing`: a null vector is tested for. -/
def addTo (m : PtrMap) (val : String8) (target : ClientPtr) : Int × PtrMap :=
  match vectorFor m val with
  | (m', none) => (-1, m')
  | (m', some l) => if target ∈ l then (0, m') else (0, m'.insert val (some (l ++ [target])))

/-- `addFollowing`. -/
def addFollowing (s : Pointers) (type : Int) (val : String8) (target : ClientPtr) :
    Int × Pointers :=
  if type = FOLLOW_TYPE_PROPERTY then
    let (ret, m) := addTo s.m_keyFollow val target
    (ret, { s with m_keyFollow := m })
  else if type = FOLLOW_TYPE_COMMAND then
    let (ret, m) := addTo s.m_cmdFollow val target
    (ret, { s with m_cmdFollow := m })
  else (-1, s)

/-- Write the object at `c`. -/
def setClient (s : Pointers) (c : ClientId) (o : IOTClient) : Pointers :=
  { s with client := Function.update s.client c o }

/-- `registCommandCB`: a null callback is stored like any other. -/
def registCommandCB (s : Pointers) (c : ClientId) (cmdCB : Option CbId) : Int × Pointers :=
  if (s.client c).m_command ≠ none then (-1, s)
  else (0, s.setClient c { s.client c with m_command := cmdCB })

/-- `registPropertyCB`: the store, then `asBinder(m_property)->linkToDeath`. -/
def registPropertyCB (s : Pointers) (c : ClientId) (proCB : Option CbId) :
    Option (Int × Pointers) :=
  if (s.client c).m_property ≠ none then some (-1, s)
  else
    match proCB with
    | none => none
    | some cb => some (0, s.setClient c { s.client c with m_property := some cb })

/-- One follower in a dispatch: the client is followed without a test, its
    callback only where it is not null. -/
def callOne (s : Pointers) (cb : IOTClient → Option CbId) (key val : String8) (p : ClientPtr) :
    Option (List Invocation) :=
  (s.deref p).map fun (c, o) =>
    match cb o with
    | none => []
    | some b => [⟨c, b, key, val⟩]

/-- The body of `callCommandCB` and `callPropertySet`. -/
def call (s : Pointers) (m : PtrMap) (cb : IOTClient → Option CbId) (key val : String8) :
    Option (Int × List Invocation) :=
  match m[key]? with
  | none =>
    match s.m_clients with
    | some c :: _ => (s.callOne cb key val (some c)).map fun l => (0, l)
    | _ => some (-1, [])
  | some none => some (-1, [])
  | some (some v_clients) =>
    (v_clients.mapM (s.callOne cb key val)).map fun ls => (0, ls.flatten)

def callCommandCB (s : Pointers) (cmd data : String8) : Option (Int × List Invocation) :=
  s.call s.m_cmdFollow IOTClient.m_command cmd data

def callPropertySet (s : Pointers) (key val : String8) : Option (Int × List Invocation) :=
  s.call s.m_keyFollow IOTClient.m_property key val

/-- One round of `callPropertyGet`'s loop. -/
def getFrom (s : Pointers) (ans : Answers) (key : String8) (size : Nat) (g : GetLoop)
    (p : ClientPtr) : Option GetLoop :=
  (s.deref p).map fun (_, o) =>
    match o.m_property with
    | none => g
    | some cb =>
      let str := (ans cb key).getD g.str
      if str.length = 0 then { g with str := str, len := 0 }
      else
        let len := min str.length size
        ⟨str, len, memcpy g.val str len⟩

def callPropertyGet (s : Pointers) (ans : Answers) (key : String8) (val : Bytes) (size : Nat) :
    Option (Int × Bytes) :=
  if size ≤ 0 then some (-1, val)
  else match s.m_keyFollow[key]? with
    | none =>
      match s.m_clients with
      | some c :: _ => (s.getFrom ans key size ⟨[], 0, val⟩ (some c)).map fun g => (0, g.val)
      | _ => some (-1, val)
    | some none => some (-1, val)
    | some (some v_clients) =>
      (v_clients.foldlM (s.getFrom ans key size) ⟨[], 0, val⟩).map fun g => (g.len, g.val)

/-! ## 2. The pointers hold a registry -/

/-- The pointers to the followers of a list. -/
def listPtr : Option (List ClientId) → Option (List ClientPtr) := Option.map (List.map some)

/-- A map of pointers without a null follower. -/
def HoldsMap (p : PtrMap) (m : FollowMap) : Prop := ∀ k : String8, p[k]? = (m[k]?).map listPtr

/-- **The pointers hold the registry**: no client pointer is null, in any list. -/
structure Holds (p : Pointers) (s : IOTService) : Prop where
  clients : p.m_clients = s.m_clients.map some
  keys : HoldsMap p.m_keyFollow s.m_keyFollow
  cmds : HoldsMap p.m_cmdFollow s.m_cmdFollow
  client : p.client = s.client
  fresh : p.fresh = s.fresh

theorem holds_init : Holds init IOTService.init where
  clients := rfl
  keys k := by simp [init, IOTService.init]
  cmds k := by simp [init, IOTService.init]
  client := rfl
  fresh := rfl

theorem HoldsMap.insert {p : PtrMap} {m : FollowMap} (h : HoldsMap p m) (k : String8)
    (v : Option (List ClientId)) : HoldsMap (p.insert k (listPtr v)) (m.insert k v) := by
  intro k'
  rw [get_insert, get_insert]
  split
  · rfl
  · exact h k'

theorem HoldsMap.dropFrom {p : PtrMap} {m : FollowMap} (h : HoldsMap p m) (c : ClientId) :
    HoldsMap (Pointers.dropFrom p (some c)) (IOTService.dropFrom m c) := by
  intro k
  unfold Pointers.dropFrom IOTService.dropFrom
  rw [Std.TreeMap.getElem?_map, Std.TreeMap.getElem?_map, h k]
  cases m[k]? with
  | none => rfl
  | some v =>
    cases v with
    | none => rfl
    | some l =>
      simp only [Option.map_some, listPtr]
      rw [List.map_erase (Option.some_injective _)]

theorem HoldsMap.vectorFor {p : PtrMap} {m : FollowMap} (h : HoldsMap p m) (val : String8) :
    HoldsMap (Pointers.vectorFor p val).1 (IOTService.vectorFor m val).1 ∧
      (Pointers.vectorFor p val).2 = listPtr (IOTService.vectorFor m val).2 := by
  unfold Pointers.vectorFor IOTService.vectorFor
  rw [h val]
  cases m[val]? with
  | none => exact ⟨h.insert val (some []), rfl⟩
  | some v => exact ⟨h, rfl⟩

theorem HoldsMap.addTo {p : PtrMap} {m : FollowMap} (h : HoldsMap p m) (val : String8)
    (c : ClientId) :
    (Pointers.addTo p val (some c)).1 = (IOTService.addTo m val c).1 ∧
      HoldsMap (Pointers.addTo p val (some c)).2 (IOTService.addTo m val c).2 := by
  obtain ⟨hm, hv⟩ := h.vectorFor val
  unfold Pointers.addTo IOTService.addTo
  generalize Pointers.vectorFor p val = x at hm hv
  generalize IOTService.vectorFor m val = y at hm hv
  obtain ⟨p', v'⟩ := x
  obtain ⟨m', v⟩ := y
  obtain rfl : v' = listPtr v := hv
  cases v with
  | none => exact ⟨rfl, hm⟩
  | some l =>
    have hmem : some c ∈ l.map some ↔ c ∈ l := List.mem_map_of_injective (Option.some_injective _)
    simp only [listPtr, Option.map_some, hmem]
    split
    · exact ⟨rfl, hm⟩
    · refine ⟨rfl, ?_⟩
      have hl : l.map some ++ [some c] = (l ++ [c]).map some := by simp
      rw [hl]
      exact hm.insert val (some (l ++ [c]))

/-! ## 3. Every function follows the registry -/

section Follow

variable {p : Pointers} {s : IOTService} (h : Holds p s)
include h

theorem Holds.createClient (name : String8) :
    (p.createClient name).1 = (s.createClient name).1 ∧
      Holds (p.createClient name).2 (s.createClient name).2 := by
  have hlen : p.m_clients.length = s.m_clients.length := by rw [h.clients, List.length_map]
  unfold Pointers.createClient IOTService.createClient IOTService.hasSlot
  rw [hlen, h.fresh]
  by_cases hs : s.m_clients.length < MAX_CLINETS
  · simp only [hs, decide_true, ↓reduceIte, IOTService.insertClient, true_and]
    exact ⟨by simp [h.clients], h.keys, h.cmds, by rw [h.client], rfl⟩
  · simp only [hs, decide_false, Bool.false_eq_true, ↓reduceIte, true_and]
    exact h

theorem Holds.removeClient (c : ClientId) :
    Holds (p.removeClient (some c)).2 (s.removeClient c).2 := by
  have hmem : some c ∈ p.m_clients ↔ c ∈ s.m_clients := by
    rw [h.clients]
    exact List.mem_map_of_injective (Option.some_injective _)
  have herase : p.m_clients.erase (some c) = (s.m_clients.erase c).map some := by
    rw [h.clients, List.map_erase (Option.some_injective _)]
  unfold Pointers.removeClient IOTService.removeClient
  simp only [hmem]
  split
  · exact ⟨herase, h.keys.dropFrom c, h.cmds.dropFrom c, h.client, h.fresh⟩
  · exact ⟨h.clients, h.keys.dropFrom c, h.cmds.dropFrom c, h.client, h.fresh⟩

theorem Holds.addFollowing (type : Int) (val : String8) (c : ClientId) :
    (p.addFollowing type val (some c)).1 = (s.addFollowing type val c).1 ∧
      Holds (p.addFollowing type val (some c)).2 (s.addFollowing type val c).2 := by
  unfold Pointers.addFollowing IOTService.addFollowing
  split
  · have ha := h.keys.addTo val c
    exact ⟨ha.1, h.clients, ha.2, h.cmds, h.client, h.fresh⟩
  · split
    · have ha := h.cmds.addTo val c
      exact ⟨ha.1, h.clients, h.keys, ha.2, h.client, h.fresh⟩
    · exact ⟨rfl, h⟩

theorem Holds.setClient (c : ClientId) (o : IOTClient) :
    Holds (p.setClient c o) (s.setClient c o) :=
  ⟨h.clients, h.keys, h.cmds, by
    show Function.update p.client c o = Function.update s.client c o
    rw [h.client], h.fresh⟩

theorem Holds.registCommandCB (c : ClientId) (cmdCB : Option CbId) :
    (p.registCommandCB c cmdCB).1 = (s.registCommandCB c cmdCB).1 ∧
      Holds (p.registCommandCB c cmdCB).2 (s.registCommandCB c cmdCB).2 := by
  unfold Pointers.registCommandCB IOTService.registCommandCB
  rw [h.client]
  split
  · exact ⟨rfl, h⟩
  · exact ⟨rfl, h.setClient c _⟩

/-- A callback, or a client that has one: the process goes on. -/
theorem Holds.registPropertyCB_some {c : ClientId} {proCB : Option CbId}
    (hc : proCB = none → (s.client c).m_property ≠ none) :
    ∃ ret p', p.registPropertyCB c proCB = some (ret, p') ∧
      (Holds p' s ∨ ∃ cb, Holds p' (s.setPropertyCB c cb).2) := by
  unfold Pointers.registPropertyCB
  rw [h.client]
  by_cases hp : (s.client c).m_property ≠ none
  · rw [if_pos hp]
    exact ⟨-1, p, rfl, .inl h⟩
  · rw [if_neg hp]
    cases proCB with
    | none => exact absurd (hc rfl) hp
    | some cb =>
      refine ⟨0, _, rfl, .inr ⟨cb, ?_⟩⟩
      unfold IOTService.setPropertyCB
      rw [if_neg hp]
      exact h.setClient c _

theorem Holds.callOne (cb : IOTClient → Option CbId) (key val : String8) (c : ClientId) :
    p.callOne cb key val (some c) = some (s.callAll cb key val [c]) := by
  simp only [Pointers.callOne, deref, Option.map_some, h.client, IOTService.callAll]
  cases hb : cb (s.client c) with
  | none => simp [hb]
  | some b => simp [hb]

theorem Holds.callAll (cb : IOTClient → Option CbId) (key val : String8) (l : List ClientId) :
    ((l.map some).mapM (p.callOne cb key val)).map List.flatten =
      some (s.callAll cb key val l) := by
  induction l with
  | nil => rfl
  | cons c l ih =>
    obtain ⟨ls, hls, hflat⟩ := Option.map_eq_some_iff.mp ih
    have hcons : s.callAll cb key val (c :: l) =
        s.callAll cb key val [c] ++ s.callAll cb key val l := by
      simp only [IOTService.callAll]
      rw [← List.filterMap_append]
      rfl
    simp only [List.map_cons, List.mapM_cons, h.callOne, hls, Option.bind_eq_bind, Option.bind_some,
      Option.pure_def, Option.map_some, List.flatten_cons, hflat, hcons]

/-- **The dispatchers** follow no null pointer: they do what `IOTService`'s do. -/
theorem Holds.call {pm : PtrMap} {m : FollowMap} (hm : HoldsMap pm m)
    (cb : IOTClient → Option CbId) (key val : String8) :
    p.call pm cb key val = some (s.call m cb key val) := by
  unfold Pointers.call IOTService.call
  rw [hm key]
  cases m[key]? with
  | none =>
    cases hc : s.m_clients with
    | nil => simp [h.clients, hc]
    | cons c l => simp [h.clients, hc, h.callOne]
  | some v =>
    cases v with
    | none => rfl
    | some l =>
      have hl := h.callAll cb key val l
      obtain ⟨ls, hls, hflat⟩ := Option.map_eq_some_iff.mp hl
      simp only [listPtr, Option.map_some, hls, hflat]

theorem Holds.getFrom (ans : Answers) (key : String8) (size : Nat) (g : GetLoop) (c : ClientId) :
    p.getFrom ans key size g (some c) = some (s.getFrom ans key size g c) := by
  have hd : p.deref (some c) = some (c, s.client c) := by rw [deref, h.client]
  unfold Pointers.getFrom
  rw [hd]
  rfl

theorem Holds.getLoop (ans : Answers) (key : String8) (size : Nat) (g : GetLoop)
    (l : List ClientId) :
    (l.map some).foldlM (p.getFrom ans key size) g =
      some (l.foldl (s.getFrom ans key size) g) := by
  induction l generalizing g with
  | nil => rfl
  | cons c l ih =>
    simp only [List.map_cons, List.foldlM_cons, h.getFrom, Option.bind_eq_bind, Option.bind_some,
      List.foldl_cons, ih]

theorem Holds.callPropertyGet (ans : Answers) (key : String8) (val : Bytes) (size : Nat) :
    p.callPropertyGet ans key val size = some (s.callPropertyGet ans key val size) := by
  unfold Pointers.callPropertyGet IOTService.callPropertyGet
  split
  · rfl
  · rw [h.keys key]
    cases s.m_keyFollow[key]? with
    | none =>
      cases hc : s.m_clients with
      | nil => simp [h.clients, hc]
      | cons c l => simp [h.clients, hc, h.getFrom]
    | some v =>
      cases v with
      | none => rfl
      | some l => simp only [listPtr, Option.map_some, h.getLoop]

end Follow

end Pointers

/-! ## 4. The process -/

/-- The server process: the registry, and the attribute table with what goes with
    it. The registry inside `shadow` is not used. -/
structure Process where
  pointers : Pointers
  shadow : DeviceShadow

namespace Process

open Binder

def init (reportFlag : Bool) : Process := ⟨Pointers.init, DeviceShadow.init reportFlag⟩

/-- A request to the process; it dies where `f` gives nothing. -/
def serve (s : Option Process) (f : Process → Option (Int × Process)) : Int × Option Process :=
  match s with
  | none => (DEAD_OBJECT, none)
  | some r =>
    match f r with
    | none => (DEAD_OBJECT, none)
    | some (ret, r') => (ret, some r')

/-- A request that ends in the registry. -/
def onPointers (r : Process) (x : Int × Pointers) : Option (Int × Process) :=
  some (x.1, { r with pointers := x.2 })

/-- `IOTClient::followProperty`. -/
def followProperty (r : Process) (c : ClientId) (key : String8) (type size : Int) (mem : Callocs) :
    Int × Process :=
  let (ret, p) := r.pointers.addFollowing FOLLOW_TYPE_PROPERTY (cstr key) (some c)
  if ret ≠ 0 then (-1, { r with pointers := p })
  else
    let (ret, d) := r.shadow.doAddProperty (cstr key) type size mem
    (ret, ⟨p, d⟩)

/-- `IOTClient::followCommand`. -/
def followCommand (r : Process) (c : ClientId) (cmd : String8) : Int × Process :=
  let (ret, p) := r.pointers.addFollowing FOLLOW_TYPE_COMMAND (cstr cmd) (some c)
  (if ret ≠ 0 then -1 else 0, { r with pointers := p })

/-- The service object. -/
def service : IIOTService (Option Process) where
  createClient name s :=
    match s with
    | none => (none, none)
    | some r =>
      let (b, p) := r.pointers.createClient name
      (b, some { r with pointers := p })
  getServiceStatus s :=
    match s with
    | none => (DS_STATUS_INVALID, none)
    | some r => (r.shadow.getServiceStatus, some r)

/-- The client object at `c`. -/
def client (sdk : Sdk) (c : ClientId) : IIOTClient (Option Process) where
  followProperty key type size s := serve s fun r =>
    some (r.followProperty c key type size (sdk.mem key))
  followCommand cmd s := serve s fun r => some (r.followCommand c cmd)
  reportEvent msg s := serve s fun r =>
    let (ret, d) := r.shadow.doReportEvent msg sdk.eventRc
    some (ret, { r with shadow := d })
  reportProperty key val s := serve s fun r =>
    let (ret, d) := r.shadow.doReportProperty (cstr key) (cstr val) sdk.pushRc
    some (ret, { r with shadow := d })
  registCommandCB cmdCB s := serve s fun r => r.onPointers (r.pointers.registCommandCB c cmdCB)
  registPropertyCB proCB s := serve s fun r =>
    (r.pointers.registPropertyCB c proCB).bind r.onPointers

/-- A parcel for the service or for a client, the death of a client's process, or
    a dispatch of the shadow thread. -/
inductive Label where
  | service (code : Nat) (data : Parcel) : Label
  | client (sdk : Sdk) (c : ClientId) (code : Nat) (data : Parcel) : Label
  | binderDied (c : ClientId) : Label
  | callCommandCB (cmd data : String8) : Label
  | callPropertyGet (ans : Answers) (key : String8) (val : Bytes) (size : Nat) : Label
  | callPropertySet (key val : String8) : Label

/-- `order` is the compiler's order of evaluation. -/
def next (order : EvalOrder) (s : Option Process) : Label → Option Process
  | .service code data => (BnIOTService.onTransact service code data s).2
  | .client sdk c code data => (BnIOTClient.onTransact order (client sdk c) code data s).2
  | .binderDied c => s.map fun r => { r with pointers := (r.pointers.removeClient (some c)).2 }
  | .callCommandCB cmd data => s.bind fun r => (r.pointers.callCommandCB cmd data).map fun _ => r
  | .callPropertyGet ans key val size => s.bind fun r =>
    (r.pointers.callPropertyGet ans key val size).map fun _ => r
  | .callPropertySet key val => s.bind fun r =>
    (r.pointers.callPropertySet key val).map fun _ => r

/-- Every sequence of requests and dispatches. -/
def machine (order : EvalOrder) : Machine (Option Process) Label where
  init s := ∃ reportFlag, s = some (init reportFlag)
  enabled _ _ := True
  next := next order

/-- **The condition on one step**: a parcel that reaches `registPropertyCB` with a
    null binder is for a client that has a property callback already. -/
def Tested : Option Process → Label → Prop
  | some r, .client _ c code data => code = IOTACTION_REGIST_PROPERTY_CALLBACK →
      ∀ rest, data.checkInterface IIOTClient.descriptor = some rest →
        rest.readStrongBinder.1 = none → (r.pointers.client c).m_property ≠ none
  | _, _ => True

/-! ## 5. Who survives -/

/-- The pointers hold the registry of a run of `IOTService`. -/
def HoldsRun (p : Pointers) : Prop := ∃ ops, p.Holds (IOTService.init.run ops)

/-- The process lives, and its pointers hold the registry of a run. -/
def Alive (s : Option Process) : Prop := ∃ r, s = some r ∧ HoldsRun r.pointers

/-- One more request of the run. -/
theorem HoldsRun.step {p p' : Pointers} (h : HoldsRun p) (op : Op)
    (hstep : ∀ s, p.Holds s → p'.Holds (s.exec op)) : HoldsRun p' := by
  obtain ⟨ops, hops⟩ := h
  exact ⟨ops ++ [op], by rw [IOTService.run_append]; exact hstep _ hops⟩

theorem HoldsRun.addFollowing {p : Pointers} (h : HoldsRun p) (type : Int) (val : String8)
    (c : ClientId) : HoldsRun (p.addFollowing type val (some c)).2 :=
  h.step (.addFollowing type val c) fun _ hs => (hs.addFollowing type val c).2

theorem alive_init (reportFlag : Bool) : Alive (some (init reportFlag)) :=
  ⟨_, rfl, [], Pointers.holds_init⟩

theorem alive_serve {s : Option Process} (h : Alive s) {f : Process → Option (Int × Process)}
    (hf : ∀ r, s = some r → HoldsRun r.pointers →
      ∃ ret r', f r = some (ret, r') ∧ HoldsRun r'.pointers) : Alive (serve s f).2 := by
  obtain ⟨r, rfl, hr⟩ := h
  obtain ⟨ret, r', he, hr'⟩ := hf r rfl hr
  simp only [serve, he]
  exact ⟨r', rfl, hr'⟩

theorem holdsRun_followProperty {r : Process} (h : HoldsRun r.pointers) (c : ClientId)
    (key : String8) (type size : Int) (mem : Callocs) :
    HoldsRun (r.followProperty c key type size mem).2.pointers := by
  have ha := h.addFollowing FOLLOW_TYPE_PROPERTY (cstr key) c
  unfold followProperty
  simp only
  split
  · exact ha
  · exact ha

/-- `registPropertyCB` on a living process. -/
theorem alive_registPropertyCB {r : Process} (h : HoldsRun r.pointers) {c : ClientId}
    {proCB : StrongBinder} (hc : proCB = none → (r.pointers.client c).m_property ≠ none) :
    ∃ ret r', (r.pointers.registPropertyCB c proCB).bind r.onPointers = some (ret, r') ∧
      HoldsRun r'.pointers := by
  obtain ⟨ops, hops⟩ := h
  rw [hops.client] at hc
  obtain ⟨ret, p', he, hp'⟩ := hops.registPropertyCB_some hc
  refine ⟨ret, { r with pointers := p' }, by rw [he]; rfl, ?_⟩
  rcases hp' with hp' | ⟨cb, hp'⟩
  · exact ⟨ops, hp'⟩
  · exact ⟨ops ++ [.registPropertyCB c cb], by rw [IOTService.run_append]; exact hp'⟩

/-- A stub case: the parcel is rejected, or the handler runs. -/
theorem checked_cases {σ : Type} (descriptor : String8) (data : Parcel) (s : σ)
    (body : Parcel → (Status × Parcel) × σ) :
    (checked descriptor data s body).2 = s ∨
      ∃ rest, data.checkInterface descriptor = some rest ∧
        (checked descriptor data s body).2 = (body rest).2 := by
  unfold checked
  cases data.checkInterface descriptor with
  | none => exact .inl rfl
  | some rest => exact .inr ⟨rest, rfl, rfl⟩

theorem alive_checked {descriptor : String8} {data : Parcel} {s : Option Process}
    {body : Parcel → (Status × Parcel) × Option Process} (h : Alive s)
    (hb : ∀ rest, data.checkInterface descriptor = some rest → Alive (body rest).2) :
    Alive (checked descriptor data s body).2 := by
  rcases checked_cases descriptor data s body with e | ⟨rest, hr, e⟩
  · rw [e]
    exact h
  · rw [e]
    exact hb rest hr

theorem alive_service {s : Option Process} (h : Alive s) (code : Nat) (data : Parcel) :
    Alive (BnIOTService.onTransact service code data s).2 := by
  unfold BnIOTService.onTransact
  split
  · refine alive_checked h fun rest _ => ?_
    obtain ⟨r, rfl, hr⟩ := h
    refine ⟨_, rfl, hr.step (.createClient rest.readString8.1) fun _ hs => ?_⟩
    exact (hs.createClient _).2
  · split
    · refine alive_checked h fun rest _ => ?_
      obtain ⟨r, rfl, hr⟩ := h
      exact ⟨r, rfl, hr⟩
    · exact h

theorem alive_client {s : Option Process} (h : Alive s) {order : EvalOrder} {sdk : Sdk}
    {c : ClientId} {code : Nat} {data : Parcel} (ht : Tested s (.client sdk c code data)) :
    Alive (BnIOTClient.onTransact order (client sdk c) code data s).2 := by
  unfold BnIOTClient.onTransact
  split
  · exact alive_checked h fun rest _ => alive_serve h fun r _ hr =>
      ⟨_, _, rfl, holdsRun_followProperty hr c _ _ _ _⟩
  · split
    · exact alive_checked h fun rest _ => alive_serve h fun r _ hr =>
        ⟨_, _, rfl, hr.addFollowing FOLLOW_TYPE_COMMAND _ c⟩
    · split
      · exact alive_checked h fun rest _ => alive_serve h fun r _ hr => ⟨_, _, rfl, hr⟩
      · split
        · exact alive_checked h fun rest _ => alive_serve h fun r _ hr => ⟨_, _, rfl, hr⟩
        · split
          · refine alive_checked h fun rest _ => alive_serve h fun r _ hr => ⟨_, _, rfl, ?_⟩
            exact hr.step (.registCommandCB c rest.readStrongBinder.1) fun _ hs =>
              (hs.registCommandCB c _).2
          · split
            · rename_i hcode
              refine alive_checked h fun rest hrest => alive_serve h fun r hs hr => ?_
              subst hs
              exact alive_registPropertyCB hr fun hnull => ht hcode rest hrest hnull
            · exact h

/-- **A tested step keeps the process alive**, and the registry a registry. -/
theorem alive_next {order : EvalOrder} {s : Option Process} (h : Alive s) {l : Label}
    (ht : Tested s l) : Alive (next order s l) := by
  cases l with
  | service code data => exact alive_service h code data
  | client sdk c code data => exact alive_client h ht
  | binderDied c =>
    obtain ⟨r, rfl, hr⟩ := h
    exact ⟨_, rfl, hr.step (.removeClient c) fun _ hs => hs.removeClient c⟩
  | callCommandCB cmd data =>
    obtain ⟨r, rfl, ops, hops⟩ := h
    refine ⟨r, ?_, ops, hops⟩
    simp only [next, Option.bind_some, Pointers.callCommandCB, hops.call hops.cmds, Option.map_some]
  | callPropertyGet ans key val size =>
    obtain ⟨r, rfl, ops, hops⟩ := h
    refine ⟨r, ?_, ops, hops⟩
    simp only [next, Option.bind_some, hops.callPropertyGet, Option.map_some]
  | callPropertySet key val =>
    obtain ⟨r, rfl, ops, hops⟩ := h
    refine ⟨r, ?_, ops, hops⟩
    simp only [next, Option.bind_some, Pointers.callPropertySet, hops.call hops.keys,
      Option.map_some]

/-- **The pointers of a process that lives hold a registry.** -/
theorem holds_run {order : EvalOrder} {s : Option Process} (h : (machine order).Reach Tested s) :
    Alive s := by
  refine h.inv (I := Alive) ?_ fun s l hs ht _ => alive_next hs ht
  rintro s ⟨reportFlag, rfl⟩
  exact alive_init reportFlag

/-- A null property callback for a client without one. -/
theorem next_not_tested {order : EvalOrder} {s : Option Process} {l : Label}
    (ht : ¬ Tested s l) : next order s l = none := by
  unfold Tested at ht
  split at ht
  · rename_i r sdk c code data
    simp only [Classical.not_imp, not_forall, Decidable.not_not] at ht
    obtain ⟨rfl, rest, hrest, hnull, hp⟩ := ht
    simp [next, BnIOTClient.onTransact, IOTACTION_REGIST_PROPERTY_CALLBACK,
      IOTACTION_FOLLOW_PROPERTY, IOTACTION_FOLLOW_COMMAND, IOTACTION_REPORT_EVENT_MESSAGE,
      IOTACTION_REPORT_PROPERTY, IOTACTION_REGIST_COMMAND_CALLBACK, checked, hrest, client, serve,
      Pointers.registPropertyCB, hnull, hp, replyInt32]
  · exact absurd trivial ht

/-- **No null pointer is followed** on a run whose steps are all tested: the
    process lives, and it survives exactly the next steps that are tested. -/
theorem alive_iff {order : EvalOrder} {s : Option Process} (h : (machine order).Reach Tested s) :
    s ≠ none ∧ ∀ l, (machine order).next s l ≠ none ↔ Tested s l := by
  have hs := holds_run h
  obtain ⟨r, e, -⟩ := hs
  refine ⟨by simp [e], fun l => ⟨fun hl => ?_, fun ht => ?_⟩⟩
  · by_contra ht
    exact hl (next_not_tested ht)
  · have hnext : Alive ((machine order).next s l) := alive_next (holds_run h) ht
    obtain ⟨r', e', -⟩ := hnext
    simp [e']

/-- The request that creates a client. -/
def createRequest : Label :=
  .service IOTACTION_CREATE_CLIENT
    ((Parcel.writeInterfaceToken [] IIOTService.descriptor).writeString8 (lit "tv"))

/-- A request for the first client, with a null binder in its parcel. -/
def nullRequest (code : Nat) : Label :=
  .client ⟨fun _ => .succeed, 0, 0⟩ 0 code
    ((Parcel.writeInterfaceToken [] IIOTClient.descriptor).writeStrongBinder none)

/-- A server with one client, which registered nothing. -/
def oneClient : Option Process := next .leftToRight (some (init false)) createRequest

theorem oneClient_reach {C : Option Process → Label → Prop}
    (hc : C (some (init false)) createRequest) : (machine .leftToRight).Reach C oneClient :=
  have h0 : (machine .leftToRight).init (some (init false)) := ⟨false, rfl⟩
  .step (M := machine .leftToRight) _ _ (.init _ h0) hc trivial

/-- `alive_iff` for a null command callback. -/
theorem alive_iff_command :
    next .leftToRight oneClient (nullRequest IOTACTION_REGIST_COMMAND_CALLBACK) ≠ none := by
  have ht : Tested oneClient (nullRequest IOTACTION_REGIST_COMMAND_CALLBACK) :=
    fun hcode => absurd hcode (by decide)
  exact ((alive_iff (oneClient_reach trivial)).2 _).mpr ht

/-- **A null property callback** from the only client, and the server is dead. -/
theorem null_property_callback :
    ¬ ∀ (order : EvalOrder) (s : Option Process), (machine order).Reachable s → s ≠ none := by
  intro h
  have hr : (machine .leftToRight).Reachable ((machine .leftToRight).next oneClient
      (nullRequest IOTACTION_REGIST_PROPERTY_CALLBACK)) :=
    .step _ _ (oneClient_reach trivial) trivial trivial
  have hdead : next .leftToRight oneClient
      (nullRequest IOTACTION_REGIST_PROPERTY_CALLBACK) = none :=
    next_not_tested fun ht => ht rfl _ rfl rfl rfl
  exact h .leftToRight _ hr hdead

end Process

end IotWrap
