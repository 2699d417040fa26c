/-
  File:      IotWrap/Callback.lean
  Subject:   The callbacks of an application, from the server's call to the Java
             object (jni/client/IOT_CommandCB.cpp, IOT_PropertyCB.cpp, IOT_Helper.cpp,
             src/com/android/leiot/DeviceShadow.java).

  A callback holds a `WeakReference` to the Java object it was made for, and the
  object's address stands for both callbacks that are made with it. What the Java
  machine does with strings is a parameter (`JNIEnv`), and so is what an
  application's `iotPropertyGet` answers.

  A call goes through the proxy and the stub of its interface; on an object of a
  process that died the transaction fails.

  * `command_remote`, `set_remote`, `get_remote`: what a remote call comes to;
  * `calls_deliver`: the calls of Java methods that a dispatch makes;
  * `callPropertyGet_remote`: a poll, by the answers of the Java objects.
-/
import IotWrap.Binder

namespace IotWrap

open Lib
open IOTService (Invocation Answers GetLoop)

/-- A `DeviceShadow` object of Java. -/
abbrev ObjId := CbId

namespace Callback

/-! ## 1. The Java side -/

/-- What the native code asks of the Java machine; `none` is a null pointer. -/
structure JNIEnv (JString : Type) where
  NewStringUTF : Bytes → Option JString
  GetStringUTFChars : JString → Option Bytes

variable {JString : Type}

/-- A call of a method that the application overrides. -/
inductive JavaCall (JString : Type) where
  | iotCommandCallback (o : ObjId) (cmd data : JString) : JavaCall JString
  | iotPropertyGet (o : ObjId) (key : JString) : JavaCall JString
  | iotPropertySet (o : ObjId) (key val : JString) : JavaCall JString
  deriving DecidableEq, Repr

/-- The object whose method is called. -/
def JavaCall.object : JavaCall JString → ObjId
  | iotCommandCallback o _ _ | iotPropertyGet o _ | iotPropertySet o _ _ => o

structure Vm (JString : Type) where
  /-- Objects that were collected: `WeakReference.get` gives null. -/
  collected : List ObjId
  /-- The calls that were made, in their order. -/
  calls : List (JavaCall JString)
  deriving DecidableEq, Repr

/-- The application's method runs. -/
def Vm.call (vm : Vm JString) (j : JavaCall JString) : Vm JString :=
  { vm with calls := vm.calls ++ [j] }

/-- `DeviceShadow._iotCommandCallback`. -/
def _iotCommandCallback (o : ObjId) (cmd data : JString) (vm : Vm JString) : Vm JString :=
  if o ∈ vm.collected then vm else vm.call (.iotCommandCallback o cmd data)

/-- `DeviceShadow._iotPropertyGet`; `get` is what the applications answer. -/
def _iotPropertyGet (get : ObjId → JString → Option JString) (o : ObjId) (key : JString)
    (vm : Vm JString) : Option JString × Vm JString :=
  if o ∈ vm.collected then (none, vm) else (get o key, vm.call (.iotPropertyGet o key))

/-- `DeviceShadow._iotPropertySet`. -/
def _iotPropertySet (o : ObjId) (key val : JString) (vm : Vm JString) : Vm JString :=
  if o ∈ vm.collected then vm else vm.call (.iotPropertySet o key val)

/-! ## 2. The native side -/

/-- `JStringToString8`. -/
def JStringToString8 (env : JNIEnv JString) (jstr : JString) : String8 :=
  match env.GetStringUTFChars jstr with
  | none => []
  | some s => cstr s

/-- `IOTCommandCB`, made for the object `o`. -/
def IOTCommandCB (env : JNIEnv JString) (o : ObjId) : Binder.IIOTCommandCB (Vm JString) where
  callback cmd msg vm :=
    match env.NewStringUTF (cstr cmd), env.NewStringUTF (cstr msg) with
    | some jcmd, some jmsg => (0, _iotCommandCallback o jcmd jmsg vm)
    | _, _ => (-1, vm)

/-- `IOTPropertyCB`, made for the object `o`. -/
def IOTPropertyCB (env : JNIEnv JString) (get : ObjId → JString → Option JString) (o : ObjId) :
    Binder.IIOTPropertyCB (Vm JString) where
  get key val vm :=
    match env.NewStringUTF (cstr key) with
    | some jkey =>
      match _iotPropertyGet get o jkey vm with
      | (some jval, vm) => ((0, JStringToString8 env jval), vm)
      | (none, vm) => ((0, val), vm)
    | none => ((-1, val), vm)
  set key val vm :=
    match env.NewStringUTF (cstr key), env.NewStringUTF (cstr val) with
    | some jkey, some jval => (0, _iotPropertySet o jkey jval vm)
    | _, _ => (-1, vm)

/-! ## 3. Remote calls -/

/-- The status of a transaction to a process that died. -/
def DEAD_OBJECT : Status := -32

/-- The stub, as long as its process lives. -/
def remote (dead : Bool) (stub : Transact (Vm JString)) : Transact (Vm JString) :=
  if dead then fun _ _ vm => ((DEAD_OBJECT, []), vm) else stub

variable (env : JNIEnv JString) (get : ObjId → JString → Option JString) (dead : ObjId → Bool)

/-- The server calls `callback` of the command callback of `o`. -/
def callCommand (o : ObjId) (cmd msg : String8) : Vm JString → Int × Vm JString :=
  Binder.BpIOTCommandCB.callback
    (remote (dead o) (Binder.BnIOTCommandCB.onTransact (IOTCommandCB env o))) cmd msg

/-- The server calls `set` of the property callback of `o`. -/
def callSet (o : ObjId) (key val : String8) : Vm JString → Int × Vm JString :=
  Binder.BpIOTPropertyCB.set
    (remote (dead o) (Binder.BnIOTPropertyCB.onTransact (IOTPropertyCB env get o))) key val

/-- The server calls `get` of the property callback of `o`, with `val` as its out-value. -/
def callGet (o : ObjId) (key val : String8) : Vm JString → (Int × String8) × Vm JString :=
  Binder.BpIOTPropertyCB.get
    (remote (dead o) (Binder.BnIOTPropertyCB.onTransact (IOTPropertyCB env get o))) key val

/-- **A command**, through proxy and stub. -/
theorem command_remote (o : ObjId) (cmd msg : String8) (vm : Vm JString) :
    callCommand env dead o cmd msg vm =
      if dead o then (DEAD_OBJECT, vm) else (IOTCommandCB env o).callback cmd msg vm := by
  unfold callCommand remote
  split <;> rfl

/-- **A property set**, through proxy and stub. -/
theorem set_remote (o : ObjId) (key val : String8) (vm : Vm JString) :
    callSet env get dead o key val vm =
      if dead o then (DEAD_OBJECT, vm) else (IOTPropertyCB env get o).set key val vm := by
  unfold callSet remote
  split <;> rfl

/-- **A property get**: the handler starts from an empty string. -/
theorem get_remote (o : ObjId) (key val : String8) (vm : Vm JString) :
    callGet env get dead o key val vm =
      if dead o then ((DEAD_OBJECT, val), vm) else (IOTPropertyCB env get o).get key [] vm := by
  unfold callGet remote
  split <;> rfl

/-! ## 4. Dispatches -/

/-- The two dispatchers that make a call of two strings. -/
inductive Kind where
  | command : Kind
  | property : Kind
  deriving DecidableEq, Repr

/-- The Java method that a dispatch of this kind ends in. -/
def Kind.method : Kind → ObjId → JString → JString → JavaCall JString
  | command => .iotCommandCallback
  | property => .iotPropertySet

/-- One call of a dispatch. -/
def invoke (kind : Kind) (i : Invocation) (vm : Vm JString) : Vm JString :=
  match kind with
  | .command => (callCommand env dead i.cb i.key i.val vm).2
  | .property => (callSet env get dead i.cb i.key i.val vm).2

/-- The calls of a dispatch, one after the other. -/
def deliver (kind : Kind) (calls : List Invocation) (vm : Vm JString) : Vm JString :=
  calls.foldl (fun vm i => invoke env get dead kind i vm) vm

/-- The Java method that a call of the object's callback comes to. -/
def callOf (collected : List ObjId) (kind : Kind) (key val : String8) (o : ObjId) :
    Option (JavaCall JString) :=
  match env.NewStringUTF (cstr key), env.NewStringUTF (cstr val) with
  | some jkey, some jval => if o ∈ collected then none else some (kind.method o jkey jval)
  | _, _ => none

theorem callOf_object {collected : List ObjId} {kind : Kind} {key val : String8} {o : ObjId}
    {j : JavaCall JString} (h : callOf env collected kind key val o = some j) : j.object = o := by
  unfold callOf at h
  split at h
  · split at h
    · cases h
    · obtain rfl := Option.some.inj h
      cases kind <;> rfl
  · cases h

/-- **One call**: the method it comes to is called, and nothing else happens. -/
theorem invoke_eq (kind : Kind) (i : Invocation) (vm : Vm JString) :
    invoke env get dead kind i vm =
      { vm with
        calls := vm.calls ++ (if dead i.cb then none
          else callOf env vm.collected kind i.key i.val i.cb).toList } := by
  have hnone : vm = { vm with calls := vm.calls ++ [] } := by rw [List.append_nil]
  unfold callOf
  cases hd : dead i.cb with
  | true =>
    cases kind with
    | command =>
      simp only [invoke, command_remote, hd, if_true]
      exact hnone
    | property =>
      simp only [invoke, set_remote, hd, if_true]
      exact hnone
  | false =>
    cases kind with
    | command =>
      simp only [invoke, command_remote, hd, Bool.false_eq_true, if_false, IOTCommandCB,
        _iotCommandCallback]
      split
      · split
        · exact hnone
        · rfl
      · exact hnone
    | property =>
      simp only [invoke, set_remote, hd, Bool.false_eq_true, if_false, IOTPropertyCB,
        _iotPropertySet]
      split
      · split
        · exact hnone
        · rfl
      · exact hnone

/-- **A dispatch**: the methods its calls come to, in their order. -/
theorem calls_deliver (kind : Kind) (calls : List Invocation) (vm : Vm JString) :
    deliver env get dead kind calls vm =
      { vm with
        calls := vm.calls ++ calls.filterMap fun i =>
          if dead i.cb then none else callOf env vm.collected kind i.key i.val i.cb } := by
  induction calls generalizing vm with
  | nil =>
    show vm = { vm with calls := vm.calls ++ [] }
    rw [List.append_nil]
  | cons i calls ih =>
    show deliver env get dead kind calls (invoke env get dead kind i vm) = _
    rw [ih, invoke_eq]
    cases h : (if dead i.cb then none else callOf env vm.collected kind i.key i.val i.cb) with
    | none => simp [h]
    | some j => simp [h]

/-! ## 5. Polls -/

/-- What a property callback answers: nothing from a process that died, and nothing but
    the empty string where the Java object gives none. -/
def answers (collected : List ObjId) : Answers := fun o key =>
  if dead o then none
  else
    match env.NewStringUTF (cstr key) with
    | none => some []
    | some jkey =>
      if o ∈ collected then some []
      else some (((get o jkey).map (JStringToString8 env)).getD [])

/-- The Java method that a `get` comes to. -/
def getOf (collected : List ObjId) (key : String8) (o : ObjId) : Option (JavaCall JString) :=
  match env.NewStringUTF (cstr key) with
  | some jkey => if o ∈ collected then none else some (.iotPropertyGet o jkey)
  | none => none

theorem getOf_object {collected : List ObjId} {key : String8} {o : ObjId} {j : JavaCall JString}
    (h : getOf env collected key o = some j) : j.object = o := by
  unfold getOf at h
  split at h
  · split at h
    · cases h
    · obtain rfl := Option.some.inj h
      rfl
  · cases h

/-- **One `get`**: the answer, and the method it comes to. -/
theorem callGet_eq (o : ObjId) (key str : String8) (vm : Vm JString) :
    (callGet env get dead o key str vm).1.2 =
        (answers env get dead vm.collected o key).getD str ∧
      (callGet env get dead o key str vm).2 =
        { vm with
          calls := vm.calls ++
            (if dead o then none else getOf env vm.collected key o).toList } := by
  have hnone : vm = { vm with calls := vm.calls ++ [] } := by rw [List.append_nil]
  rw [get_remote]
  unfold answers getOf
  cases dead o with
  | true => exact ⟨rfl, hnone⟩
  | false =>
    simp only [Bool.false_eq_true, if_false, IOTPropertyCB, _iotPropertyGet]
    cases env.NewStringUTF (cstr key) with
    | none => exact ⟨rfl, hnone⟩
    | some jkey =>
      by_cases hcol : o ∈ vm.collected
      · simp only [hcol, if_true]
        exact ⟨rfl, hnone⟩
      · simp only [hcol, if_false]
        cases get o jkey with
        | none => exact ⟨rfl, rfl⟩
        | some jval => exact ⟨rfl, rfl⟩

/-- One round of the loop of `callPropertyGet`, with the remote call. -/
def getFrom (s : IOTService) (key : String8) (size : Nat) (g : GetLoop × Vm JString)
    (c : ClientId) : GetLoop × Vm JString :=
  match (s.client c).m_property with
  | none => g
  | some cb =>
    let ((_, str), vm) := callGet env get dead cb key g.1.str g.2
    if str.length = 0 then ({ g.1 with str := str, len := 0 }, vm)
    else
      let len := min str.length size
      (⟨str, len, memcpy g.1.val str len⟩, vm)

/-- `IOTService::callPropertyGet`, with the remote calls. -/
def callPropertyGet (s : IOTService) (key : String8) (val : Bytes) (size : Nat)
    (vm : Vm JString) : (Int × Bytes) × Vm JString :=
  if size ≤ 0 then ((-1, val), vm)
  else match s.m_keyFollow[key]? with
    | none =>
      match s.m_clients with
      | [] => ((-1, val), vm)
      | c :: _ =>
        let g := getFrom env get dead s key size (⟨[], 0, val⟩, vm) c
        ((0, g.1.val), g.2)
    | some none => ((-1, val), vm)
    | some (some v_clients) =>
      let g := v_clients.foldl (getFrom env get dead s key size) (⟨[], 0, val⟩, vm)
      ((g.1.len, g.1.val), g.2)

/-- The calls of Java methods that a list of clients is asked with. -/
def gets (s : IOTService) (collected : List ObjId) (key : String8) (l : List ClientId) :
    List (JavaCall JString) :=
  (s.callAll IOTClient.m_property key [] l).filterMap fun i =>
    if dead i.cb then none else getOf env collected key i.cb

theorem getFrom_eq (s : IOTService) (key : String8) (size : Nat) (g : GetLoop) (vm : Vm JString)
    (c : ClientId) :
    getFrom env get dead s key size (g, vm) c =
      (s.getFrom (answers env get dead vm.collected) key size g c,
        { vm with calls := vm.calls ++ gets env dead s vm.collected key [c] }) := by
  have hnone : vm = { vm with calls := vm.calls ++ [] } := by rw [List.append_nil]
  unfold getFrom IOTService.getFrom gets IOTService.callAll
  cases hp : (s.client c).m_property with
  | none => 
    simp only [List.filterMap_cons, hp, Option.map_none, List.filterMap_nil, ← hnone]
  | some cb =>
    obtain ⟨hstr, hvm⟩ := callGet_eq env get dead cb key g.str vm
    simp only [hstr, hvm]
    have hcalls : ((if dead cb then none else getOf env vm.collected key cb).toList :
        List (JavaCall JString)) = [⟨c, cb, key, []⟩].filterMap fun i : Invocation =>
          if dead i.cb then none else getOf env vm.collected key i.cb := by
      cases h : (if dead cb then none else getOf env vm.collected key cb) with
      | none => simp [h]
      | some j => simp [h]
    rw [hcalls]
    simp only [List.filterMap_cons, hp, Option.map_some, List.filterMap_nil]
    split <;> rfl

theorem getLoop_eq (s : IOTService) (key : String8) (size : Nat) (g : GetLoop) (vm : Vm JString)
    (l : List ClientId) :
    l.foldl (getFrom env get dead s key size) (g, vm) =
      (l.foldl (s.getFrom (answers env get dead vm.collected) key size) g,
        { vm with calls := vm.calls ++ gets env dead s vm.collected key l }) := by
  induction l generalizing g vm with
  | nil =>
    have hnone : vm = { vm with calls := vm.calls ++ [] } := by rw [List.append_nil]
    exact Prod.ext rfl hnone
  | cons c l ih =>
    have happ : gets env dead s vm.collected key (c :: l) =
        gets env dead s vm.collected key [c] ++ gets env dead s vm.collected key l := by
      unfold gets IOTService.callAll
      rw [← List.filterMap_append, ← List.filterMap_append]
      rfl
    rw [List.foldl_cons, List.foldl_cons, getFrom_eq, ih, happ, List.append_assoc]

/-- **A poll**: the answers alone decide what `callPropertyGet` returns and leaves in the
    buffer, and the Java methods are those of its calls. -/
theorem callPropertyGet_remote (s : IOTService) (key : String8) (val : Bytes) (size : Nat)
    (vm : Vm JString) :
    callPropertyGet env get dead s key val size vm =
      (s.callPropertyGet (answers env get dead vm.collected) key val size,
        { vm with
          calls := vm.calls ++ (s.callPropertyGetCalls key size).filterMap fun i =>
            if dead i.cb then none else getOf env vm.collected key i.cb }) := by
  have hnone : vm = { vm with calls := vm.calls ++ [] } := by rw [List.append_nil]
  unfold callPropertyGet IOTService.callPropertyGet IOTService.callPropertyGetCalls IOTService.call
  by_cases hsize : size ≤ 0
  · rw [if_pos hsize, if_pos hsize, if_pos hsize]
    exact Prod.ext rfl hnone
  · rw [if_neg hsize, if_neg hsize, if_neg hsize]
    cases s.m_keyFollow[key]? with
    | none =>
      cases s.m_clients with
      | nil => exact Prod.ext rfl hnone
      | cons c l =>
        simp only [getFrom_eq]
        rfl
    | some v =>
      cases v with
      | none => exact Prod.ext rfl hnone
      | some l =>
        simp only [getLoop_eq]
        rfl

end Callback

end IotWrap
