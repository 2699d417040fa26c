/-
  File:      IotWrap/Service.lean
  Subject:   IOTService: the client registry, the follow maps and the calls
             that go out to clients (jni/server/IOT_Service.cpp).

  Client objects live at addresses (`ClientId`); `IOTService.client` is what
  the object at an address holds. A callback is a remote object (`CbId`) and
  its answer to `get` is an argument of the model. Every function here runs
  under `m_lockClis` in the source, so it is one step of the service; the size
  test of `createClient` is the exception and stands on its own (`hasSlot`).

  The two follow maps are `std::map<std::string, Vector<sp<IOTClient>>*>`: an
  ordered map to POINTERS, so a stored value may be null (`none`) or point to
  an empty vector, and both differ from a missing key.
-/
import IotWrap.Lib.CMem

namespace IotWrap

open Lib

/-- `String8` and `std::string`: bytes with a length of their own. -/
abbrev String8 := Bytes

/-- The address of an `IOTClient` object. -/
abbrev ClientId := Nat

/-- A callback object of a client process, as the server holds it. -/
abbrev CbId := Nat

def MAX_CLINETS : Nat := 10

def FOLLOW_TYPE_PROPERTY : Int := 0
def FOLLOW_TYPE_COMMAND : Int := 1

/-- What an `IOTClient` object holds. -/
structure IOTClient where
  m_name : String8
  m_command : Option CbId
  m_property : Option CbId
  deriving DecidableEq, Repr

/-- `std::map<std::string, Vector<sp<IOTClient>>*>`. -/
abbrev FollowMap := Std.TreeMap String8 (Option (List ClientId))

theorem get_insert {β : Type} (m : Std.TreeMap String8 β) (key : String8) (a : β) (k : String8) :
    (m.insert key a)[k]? = if key = k then some a else m[k]? := by
  rw [Std.TreeMap.getElem?_insert]
  exact if_congr Std.LawfulEqCmp.compare_eq_iff_eq rfl rfl

theorem get_modify {β : Type} (m : Std.TreeMap String8 β) (key : String8) (f : β → β) (k : String8) :
    (m.modify key f)[k]? = if key = k then (m[k]?).map f else m[k]? := by
  rw [Std.TreeMap.getElem?_modify]
  by_cases hk : key = k
  · subst hk
    rw [if_pos (Std.LawfulEqCmp.compare_eq_iff_eq.mpr rfl), if_pos rfl]
  · rw [if_neg (fun e => hk (Std.LawfulEqCmp.compare_eq_iff_eq.mp e)), if_neg hk]

structure IOTService where
  m_clients : List ClientId
  m_keyFollow : FollowMap
  m_cmdFollow : FollowMap
  /-- The heap of client objects. -/
  client : ClientId → IOTClient
  /-- The address the next `new IOTClient` gets. -/
  fresh : ClientId

namespace IOTService

def init : IOTService := ⟨[], {}, {}, fun _ => ⟨[], none, none⟩, 0⟩

/-! ## 1. Clients -/

/-- `createClient`'s test, made before the lock is taken. -/
def hasSlot (s : IOTService) : Bool := decide (s.m_clients.length < MAX_CLINETS)

/-- `createClient`'s section under the lock: `new IOTClient`, `m_clients.add`. -/
def insertClient (s : IOTService) (name : String8) : ClientId × IOTService :=
  (s.fresh, { s with
    m_clients := s.m_clients ++ [s.fresh]
    client := Function.update s.client s.fresh ⟨cstr name, none, none⟩
    fresh := s.fresh + 1 })

/-- `IOTService::createClient`, the test and the insertion in one step. -/
def createClient (s : IOTService) (name : String8) : Option ClientId × IOTService :=
  if s.hasSlot then
    let (c, s') := s.insertClient name
    (some c, s')
  else (none, s)

/-- The loop over one follow map in `removeClient`: the first occurrence goes
    from every list; a null pointer is skipped. -/
def dropFrom (m : FollowMap) (c : ClientId) : FollowMap :=
  m.map fun _ v_clients => v_clients.map fun l => l.erase c

/-- `IOTService::removeClient`. -/
def removeClient (s : IOTService) (c : ClientId) : Int × IOTService :=
  let s' := { s with
    m_keyFollow := dropFrom s.m_keyFollow c
    m_cmdFollow := dropFrom s.m_cmdFollow c }
  if c ∈ s.m_clients then (1, { s' with m_clients := s.m_clients.erase c }) else (0, s')

/-! ## 2. Following -/

/-- The vector `addFollowing` works on: a new empty one where the key is
    missing, else the stored pointer. -/
def vectorFor (m : FollowMap) (val : String8) : FollowMap × Option (List ClientId) :=
  match m[val]? with
  | none => (m.insert val (some []), some [])
  | some v_clients => (m, v_clients)

/-- The end of `addFollowing`: search the vector, then add. -/
def addTo (m : FollowMap) (val : String8) (target : ClientId) : Int × FollowMap :=
  match vectorFor m val with
  | (m', none) => (-1, m')
  | (m', some l) => if target ∈ l then (0, m') else (0, m'.insert val (some (l ++ [target])))

/-- `IOTService::addFollowing`. `val` is a `const char*`. -/
def addFollowing (s : IOTService) (type : Int) (val : String8) (target : ClientId) :
    Int × IOTService :=
  if type = FOLLOW_TYPE_PROPERTY then
    let (ret, m) := addTo s.m_keyFollow val target
    (ret, { s with m_keyFollow := m })
  else if type = FOLLOW_TYPE_COMMAND then
    let (ret, m) := addTo s.m_cmdFollow val target
    (ret, { s with m_cmdFollow := m })
  else (-1, s)

/-- `IOTClient::followCommand`. -/
def followCommand (s : IOTService) (c : ClientId) (cmd : String8) : Int × IOTService :=
  let (ret, s') := s.addFollowing FOLLOW_TYPE_COMMAND (cstr cmd) c
  if ret ≠ 0 then (-1, s') else (0, s')

/-! ## 3. Callbacks -/

/-- Write the object at `c`. -/
def setClient (s : IOTService) (c : ClientId) (o : IOTClient) : IOTService :=
  { s with client := Function.update s.client c o }

/-- `IOTClient::registCommandCB`; the argument may be null. -/
def registCommandCB (s : IOTService) (c : ClientId) (cmdCB : Option CbId) : Int × IOTService :=
  if (s.client c).m_command ≠ none then (-1, s)
  else (0, s.setClient c { s.client c with m_command := cmdCB })

/-- `IOTClient::registPropertyCB` up to the call of `clientActive`, for a callback. -/
def setPropertyCB (s : IOTService) (c : ClientId) (cb : CbId) : Int × IOTService :=
  if (s.client c).m_property ≠ none then (-1, s)
  else (0, s.setClient c { s.client c with m_property := some cb })

/-- `IOTClient::registPropertyCB` up to the call of `clientActive`; the argument
    may be null. The result `none` is the death of the process:
    `asBinder(m_property)->linkToDeath` on null. -/
def registPropertyCB (s : IOTService) (c : ClientId) : Option CbId → Option (Int × IOTService)
  | none => if (s.client c).m_property ≠ none then some (-1, s) else none
  | some cb => some (s.setPropertyCB c cb)

/-! ## 4. Calls to clients -/

/-- One call of a callback: the client it was found at, the callback, the arguments. -/
structure Invocation where
  client : ClientId
  cb : CbId
  key : String8
  val : String8
  deriving DecidableEq, Repr

/-- The loop over the followers: every one that registered the callback is called. -/
def callAll (s : IOTService) (cb : IOTClient → Option CbId) (key val : String8)
    (l : List ClientId) : List Invocation :=
  l.filterMap fun c => (cb (s.client c)).map fun b => ⟨c, b, key, val⟩

/-- The body `callCommandCB` and `callPropertySet` share: the followers of the
    key, or the first client where the map has no entry for it. -/
def call (s : IOTService) (m : FollowMap) (cb : IOTClient → Option CbId) (key val : String8) :
    Int × List Invocation :=
  match m[key]? with
  | none =>
    match s.m_clients with
    | [] => (-1, [])
    | c :: _ => (0, s.callAll cb key val [c])
  | some none => (-1, [])
  | some (some v_clients) => (0, s.callAll cb key val v_clients)

/-- `IOTService::callCommandCB`. -/
def callCommandCB (s : IOTService) (cmd data : String8) : Int × List Invocation :=
  s.call s.m_cmdFollow IOTClient.m_command cmd data

/-- `IOTService::callPropertySet`. -/
def callPropertySet (s : IOTService) (key val : String8) : Int × List Invocation :=
  s.call s.m_keyFollow IOTClient.m_property key val

/-- What a callback answers to `get(key, str)`: `none` where the remote call
    fails and `str` keeps what it held. -/
abbrev Answers := CbId → String8 → Option String8

/-- The locals of `callPropertyGet`'s loop. -/
structure GetLoop where
  str : String8
  len : Nat
  val : Bytes

/-- One round of `callPropertyGet`'s loop. -/
def getFrom (s : IOTService) (ans : Answers) (key : String8) (size : Nat) (g : GetLoop)
    (c : ClientId) : GetLoop :=
  match (s.client c).m_property with
  | none => g
  | some cb =>
    let str := (ans cb key).getD g.str
    if str.length = 0 then { g with str := str, len := 0 }
    else
      let len := min str.length size
      ⟨str, len, memcpy g.val str len⟩

/-- The calls of `get` that `callPropertyGet` makes; their value is an out-value. -/
def callPropertyGetCalls (s : IOTService) (key : String8) (size : Nat) : List Invocation :=
  if size ≤ 0 then [] else (s.call s.m_keyFollow IOTClient.m_property key []).2

/-- `IOTService::callPropertyGet`: the result and the caller's buffer after it. -/
def callPropertyGet (s : IOTService) (ans : Answers) (key : String8) (val : Bytes) (size : Nat) :
    Int × Bytes :=
  if size ≤ 0 then (-1, val)
  else match s.m_keyFollow[key]? with
    | none =>
      match s.m_clients with
      | [] => (-1, val)
      -- the first client's answer reaches the buffer, its length is not returned
      | c :: _ => (0, (s.getFrom ans key size ⟨[], 0, val⟩ c).val)
    | some none => (-1, val)
    | some (some v_clients) =>
      let g := v_clients.foldl (s.getFrom ans key size) ⟨[], 0, val⟩
      (g.len, g.val)

end IOTService

end IotWrap
