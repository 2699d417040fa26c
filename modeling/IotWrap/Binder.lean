/-
  File:      IotWrap/Binder.lean
  Subject:   The four remote interfaces: proxies, stubs and their descriptors
             (jni/binder/IIOTService.cpp, IIOTClient.cpp, IIOTPropertyCB.cpp,
             IIOTCommandCB.cpp).

  An implementation of an interface is a structure of handlers over a state of
  its own. `Bp…` is the proxy, which writes a parcel and reads the reply;
  `Bn…onTransact` is the stub, which reads the parcel and calls the handler.

  `BnIOTClient` reads `type` and `size` inside one argument list, so the order
  of the two reads is the compiler's (`EvalOrder`). `IIOTService` is declared
  with the descriptor of `IIOTClient`.

  * `remote_iff`: a call through proxy and stub is the call of the handler,
    except for `followProperty` read from right to left;
  * `rejects_iff`: a stub rejects another interface's parcel exactly where the
    descriptors differ or it does not know the code.
-/
import IotWrap.Lib.Parcel
import IotWrap.Shadow

namespace IotWrap

open Lib

namespace Binder

/-! ## 1. The interfaces -/

/-- The order in which the arguments of a call expression are evaluated. -/
inductive EvalOrder where
  | leftToRight : EvalOrder
  | rightToLeft : EvalOrder
  deriving DecidableEq, Repr

variable {σ : Type}

structure IIOTService (σ : Type) where
  createClient (name : String8) : σ → StrongBinder × σ
  getServiceStatus : σ → Int × σ

structure IIOTClient (σ : Type) where
  followProperty (key : String8) (type size : Int) : σ → Int × σ
  followCommand (cmd : String8) : σ → Int × σ
  reportEvent (msg : String8) : σ → Int × σ
  reportProperty (key val : String8) : σ → Int × σ
  registCommandCB (cmdCB : StrongBinder) : σ → Int × σ
  registPropertyCB (proCB : StrongBinder) : σ → Int × σ

/-- `val` of `get` is an out-value: the handler gets what the caller holds and
    gives back what it left there. -/
structure IIOTPropertyCB (σ : Type) where
  get (key val : String8) : σ → (Int × String8) × σ
  set (key val : String8) : σ → Int × σ

structure IIOTCommandCB (σ : Type) where
  callback (cmd msg : String8) : σ → Int × σ

/-- `IOT_CLIENT_PACK`. -/
def IOT_CLIENT_PACK : String8 := lit "com.android.leiot.IIOTClient"

/-- `IOT_PROPERTY_PACK`. -/
def IOT_PROPERTY_PACK : String8 := lit "com.android.leiot.IIOTPropertyCB"

/-- `IOT_COMMAND_PACK`. -/
def IOT_COMMAND_PACK : String8 := lit "com.android.leiot.IIOTCommandCB"

/-- `IMPLEMENT_META_INTERFACE(IOTService, IOT_CLIENT_PACK)`. -/
def IIOTService.descriptor : String8 := IOT_CLIENT_PACK

def IIOTClient.descriptor : String8 := IOT_CLIENT_PACK
def IIOTPropertyCB.descriptor : String8 := IOT_PROPERTY_PACK
def IIOTCommandCB.descriptor : String8 := IOT_COMMAND_PACK

/-! ## 2. IIOTService -/

def IOTACTION_CREATE_CLIENT : Nat := FIRST_CALL_TRANSACTION
def IOTACTION_SERVICE_STATUS : Nat := FIRST_CALL_TRANSACTION + 1

def BpIOTService.createClient (remote : Transact σ) (name : String8) (s : σ) : StrongBinder × σ :=
  let data := (Parcel.writeInterfaceToken [] IIOTService.descriptor).writeString8 name
  let ((status, reply), s) := remote IOTACTION_CREATE_CLIENT data s
  if status ≠ 0 then (none, s) else (reply.readStrongBinder.1, s)

def BpIOTService.getServiceStatus (remote : Transact σ) (s : σ) : Int × σ :=
  let data := Parcel.writeInterfaceToken [] IIOTService.descriptor
  let ((status, reply), s) := remote IOTACTION_SERVICE_STATUS data s
  if status ≠ 0 then (DS_STATUS_INVALID, s) else (reply.readInt32.1, s)

/-- `CHECK_INTERFACE`, then the rest of the case. -/
def checked (descriptor : String8) (data : Parcel) (s : σ)
    (body : Parcel → (Status × Parcel) × σ) : (Status × Parcel) × σ :=
  match data.checkInterface descriptor with
  | none => ((PERMISSION_DENIED, []), s)
  | some data => body data

/-- The reply every stub method with an `int` result writes. -/
def replyInt32 (r : Int × σ) : (Status × Parcel) × σ :=
  ((NO_ERROR, Parcel.writeInt32 [] r.1), r.2)

/-- `BnIOTService::onTransact`. -/
def BnIOTService.onTransact (impl : IIOTService σ) : Transact σ := fun code data s =>
  if code = IOTACTION_CREATE_CLIENT then
    checked IIOTService.descriptor data s fun data =>
      let (name, _) := data.readString8
      let (b, s) := impl.createClient name s
      ((NO_ERROR, Parcel.writeStrongBinder [] b), s)
  else if code = IOTACTION_SERVICE_STATUS then
    checked IIOTService.descriptor data s fun _ => replyInt32 (impl.getServiceStatus s)
  else BBinder.onTransact code data s

/-! ## 3. IIOTClient -/

def IOTACTION_FOLLOW_PROPERTY : Nat := FIRST_CALL_TRANSACTION
def IOTACTION_FOLLOW_COMMAND : Nat := FIRST_CALL_TRANSACTION + 1
def IOTACTION_REPORT_EVENT_MESSAGE : Nat := FIRST_CALL_TRANSACTION + 2
def IOTACTION_REPORT_PROPERTY : Nat := FIRST_CALL_TRANSACTION + 3
def IOTACTION_REGIST_COMMAND_CALLBACK : Nat := FIRST_CALL_TRANSACTION + 4
def IOTACTION_REGIST_PROPERTY_CALLBACK : Nat := FIRST_CALL_TRANSACTION + 5

/-- The end every proxy method with an `int` result shares: the status of a
    transaction that failed, else the int of the reply. -/
def transactInt32 (remote : Transact σ) (code : Nat) (data : Parcel) (s : σ) : Int × σ :=
  let ((status, reply), s) := remote code data s
  if status ≠ 0 then (status, s) else (reply.readInt32.1, s)

def BpIOTClient.followProperty (remote : Transact σ) (key : String8) (type size : Int) :
    σ → Int × σ :=
  transactInt32 remote IOTACTION_FOLLOW_PROPERTY
    ((((Parcel.writeInterfaceToken [] IIOTClient.descriptor).writeString8 key).writeInt32
      type).writeInt32 size)

def BpIOTClient.followCommand (remote : Transact σ) (cmd : String8) : σ → Int × σ :=
  transactInt32 remote IOTACTION_FOLLOW_COMMAND
    ((Parcel.writeInterfaceToken [] IIOTClient.descriptor).writeString8 cmd)

def BpIOTClient.reportEvent (remote : Transact σ) (msg : String8) : σ → Int × σ :=
  transactInt32 remote IOTACTION_REPORT_EVENT_MESSAGE
    ((Parcel.writeInterfaceToken [] IIOTClient.descriptor).writeString8 msg)

def BpIOTClient.reportProperty (remote : Transact σ) (key val : String8) : σ → Int × σ :=
  transactInt32 remote IOTACTION_REPORT_PROPERTY
    (((Parcel.writeInterfaceToken [] IIOTClient.descriptor).writeString8 key).writeString8 val)

def BpIOTClient.registCommandCB (remote : Transact σ) (ctlCB : StrongBinder) : σ → Int × σ :=
  transactInt32 remote IOTACTION_REGIST_COMMAND_CALLBACK
    ((Parcel.writeInterfaceToken [] IIOTClient.descriptor).writeStrongBinder ctlCB)

def BpIOTClient.registPropertyCB (remote : Transact σ) (proCB : StrongBinder) : σ → Int × σ :=
  transactInt32 remote IOTACTION_REGIST_PROPERTY_CALLBACK
    ((Parcel.writeInterfaceToken [] IIOTClient.descriptor).writeStrongBinder proCB)

/-- `f(data.readInt32(), data.readInt32())`: the arguments of `f`, in their
    positions. -/
def readTwoInt32 (order : EvalOrder) (data : Parcel) : Int × Int :=
  let (first, data) := data.readInt32
  let (second, _) := data.readInt32
  match order with
  | .leftToRight => (first, second)
  | .rightToLeft => (second, first)

/-- `BnIOTClient::onTransact`. -/
def BnIOTClient.onTransact (order : EvalOrder) (impl : IIOTClient σ) : Transact σ :=
  fun code data s =>
    if code = IOTACTION_FOLLOW_PROPERTY then
      checked IIOTClient.descriptor data s fun data =>
        let (key, data) := data.readString8
        let (type, size) := readTwoInt32 order data
        replyInt32 (impl.followProperty key type size s)
    else if code = IOTACTION_FOLLOW_COMMAND then
      checked IIOTClient.descriptor data s fun data =>
        let (cmd, _) := data.readString8
        replyInt32 (impl.followCommand cmd s)
    else if code = IOTACTION_REPORT_EVENT_MESSAGE then
      checked IIOTClient.descriptor data s fun data =>
        let (msg, _) := data.readString8
        replyInt32 (impl.reportEvent msg s)
    else if code = IOTACTION_REPORT_PROPERTY then
      checked IIOTClient.descriptor data s fun data =>
        let (key, data) := data.readString8
        let (val, _) := data.readString8
        replyInt32 (impl.reportProperty key val s)
    else if code = IOTACTION_REGIST_COMMAND_CALLBACK then
      checked IIOTClient.descriptor data s fun data =>
        let (ctlCB, _) := data.readStrongBinder
        replyInt32 (impl.registCommandCB ctlCB s)
    else if code = IOTACTION_REGIST_PROPERTY_CALLBACK then
      checked IIOTClient.descriptor data s fun data =>
        let (proCB, _) := data.readStrongBinder
        replyInt32 (impl.registPropertyCB proCB s)
    else BBinder.onTransact code data s

/-! ## 4. IIOTPropertyCB and IIOTCommandCB -/

def IOTACTION_GET_PROPERTY : Nat := FIRST_CALL_TRANSACTION
def IOTACTION_SET_PROPERTY : Nat := FIRST_CALL_TRANSACTION + 1

/-- `val` keeps what it held where the transaction fails. -/
def BpIOTPropertyCB.get (remote : Transact σ) (key val : String8) (s : σ) : (Int × String8) × σ :=
  let data := (Parcel.writeInterfaceToken [] IIOTPropertyCB.descriptor).writeString8 key
  let ((status, reply), s) := remote IOTACTION_GET_PROPERTY data s
  if status ≠ 0 then ((status, val), s)
  else
    let (val, reply) := reply.readString8
    ((reply.readInt32.1, val), s)

def BpIOTPropertyCB.set (remote : Transact σ) (key val : String8) : σ → Int × σ :=
  transactInt32 remote IOTACTION_SET_PROPERTY
    (((Parcel.writeInterfaceToken [] IIOTPropertyCB.descriptor).writeString8 key).writeString8 val)

/-- `BnIOTPropertyCB::onTransact`. The handler of `get` starts from an empty
    `val`, whatever the caller holds. -/
def BnIOTPropertyCB.onTransact (impl : IIOTPropertyCB σ) : Transact σ := fun code data s =>
  if code = IOTACTION_GET_PROPERTY then
    checked IIOTPropertyCB.descriptor data s fun data =>
      let (key, _) := data.readString8
      let ((ret, val), s) := impl.get key [] s
      ((NO_ERROR, (Parcel.writeString8 [] val).writeInt32 ret), s)
  else if code = IOTACTION_SET_PROPERTY then
    checked IIOTPropertyCB.descriptor data s fun data =>
      let (key, data) := data.readString8
      let (val, _) := data.readString8
      replyInt32 (impl.set key val s)
  else BBinder.onTransact code data s

def IOTACTION_COMMAND_CALLBACK : Nat := FIRST_CALL_TRANSACTION

def BpIOTCommandCB.callback (remote : Transact σ) (cmd msg : String8) : σ → Int × σ :=
  transactInt32 remote IOTACTION_COMMAND_CALLBACK
    (((Parcel.writeInterfaceToken [] IIOTCommandCB.descriptor).writeString8 cmd).writeString8 msg)

/-- `BnIOTCommandCB::onTransact`. -/
def BnIOTCommandCB.onTransact (impl : IIOTCommandCB σ) : Transact σ := fun code data s =>
  if code = IOTACTION_COMMAND_CALLBACK then
    checked IIOTCommandCB.descriptor data s fun data =>
      let (cmd, data) := data.readString8
      let (msg, _) := data.readString8
      replyInt32 (impl.callback cmd msg s)
  else BBinder.onTransact code data s

/-! ## 5. Calls of every method -/

/-- An implementation of each interface, over one state. -/
structure Objects (σ : Type) where
  service : IIOTService σ
  client : IIOTClient σ
  propertyCB : IIOTPropertyCB σ
  commandCB : IIOTCommandCB σ

inductive Interface where
  | IIOTService : Interface
  | IIOTClient : Interface
  | IIOTPropertyCB : Interface
  | IIOTCommandCB : Interface
  deriving DecidableEq, Repr

/-- A method of one of the interfaces with its arguments. -/
inductive Call where
  | createClient (name : String8) : Call
  | getServiceStatus : Call
  | followProperty (key : String8) (type size : Int) : Call
  | followCommand (cmd : String8) : Call
  | reportEvent (msg : String8) : Call
  | reportProperty (key val : String8) : Call
  | registCommandCB (cmdCB : StrongBinder) : Call
  | registPropertyCB (proCB : StrongBinder) : Call
  | get (key val : String8) : Call
  | set (key val : String8) : Call
  | callback (cmd msg : String8) : Call
  deriving DecidableEq, Repr

/-- What a call gives back. -/
inductive Result where
  | int (ret : Int) : Result
  | binder (b : StrongBinder) : Result
  | out (ret : Int) (val : String8) : Result
  deriving DecidableEq, Repr

namespace Call

def interface : Call → Interface
  | createClient _ | getServiceStatus => .IIOTService
  | followProperty _ _ _ | followCommand _ | reportEvent _ | reportProperty _ _
  | registCommandCB _ | registPropertyCB _ => .IIOTClient
  | get _ _ | set _ _ => .IIOTPropertyCB
  | callback _ _ => .IIOTCommandCB

/-- The handler itself, on the arguments in their positions. An out-value has no
    value going in. -/
def handle (o : Objects σ) (s : σ) : Call → Result × σ
  | createClient name => (o.service.createClient name s).map .binder id
  | getServiceStatus => (o.service.getServiceStatus s).map .int id
  | followProperty key type size => (o.client.followProperty key type size s).map .int id
  | followCommand cmd => (o.client.followCommand cmd s).map .int id
  | reportEvent msg => (o.client.reportEvent msg s).map .int id
  | reportProperty key val => (o.client.reportProperty key val s).map .int id
  | registCommandCB cmdCB => (o.client.registCommandCB cmdCB s).map .int id
  | registPropertyCB proCB => (o.client.registPropertyCB proCB s).map .int id
  | get key _ => (o.propertyCB.get key [] s).map (fun r => .out r.1 r.2) id
  | set key val => (o.propertyCB.set key val s).map .int id
  | callback cmd msg => (o.commandCB.callback cmd msg s).map .int id

/-- The proxy method. -/
def proxy (remote : Transact σ) (s : σ) : Call → Result × σ
  | createClient name => (BpIOTService.createClient remote name s).map .binder id
  | getServiceStatus => (BpIOTService.getServiceStatus remote s).map .int id
  | followProperty key type size =>
    (BpIOTClient.followProperty remote key type size s).map .int id
  | followCommand cmd => (BpIOTClient.followCommand remote cmd s).map .int id
  | reportEvent msg => (BpIOTClient.reportEvent remote msg s).map .int id
  | reportProperty key val => (BpIOTClient.reportProperty remote key val s).map .int id
  | registCommandCB cmdCB => (BpIOTClient.registCommandCB remote cmdCB s).map .int id
  | registPropertyCB proCB => (BpIOTClient.registPropertyCB remote proCB s).map .int id
  | get key val => (BpIOTPropertyCB.get remote key val s).map (fun r => .out r.1 r.2) id
  | set key val => (BpIOTPropertyCB.set remote key val s).map .int id
  | callback cmd msg => (BpIOTCommandCB.callback remote cmd msg s).map .int id

/-- The code and the parcel the proxy method hands to `transact`. -/
def transaction (call : Call) : Nat × Parcel :=
  (call.proxy (fun code data _ => ((NO_ERROR, []), (code, data))) (0, [])).2

end Call

/-- The stub of an interface. -/
def onTransact (order : EvalOrder) (o : Objects σ) : Interface → Transact σ
  | .IIOTService => BnIOTService.onTransact o.service
  | .IIOTClient => BnIOTClient.onTransact order o.client
  | .IIOTPropertyCB => BnIOTPropertyCB.onTransact o.propertyCB
  | .IIOTCommandCB => BnIOTCommandCB.onTransact o.commandCB

/-- A call through the proxy, answered by the stub of the same interface. -/
def Call.remote (call : Call) (order : EvalOrder) (o : Objects σ) (s : σ) : Result × σ :=
  call.proxy (onTransact order o call.interface) s

/-! ## 6. Proxies and stubs agree -/

/-- Objects that do nothing but keep the calls they got. -/
def recorder : Objects (List Call) where
  service :=
    { createClient name s := (none, s ++ [.createClient name])
      getServiceStatus s := (0, s ++ [.getServiceStatus]) }
  client :=
    { followProperty key type size s := (0, s ++ [.followProperty key type size])
      followCommand cmd s := (0, s ++ [.followCommand cmd])
      reportEvent msg s := (0, s ++ [.reportEvent msg])
      reportProperty key val s := (0, s ++ [.reportProperty key val])
      registCommandCB cmdCB s := (0, s ++ [.registCommandCB cmdCB])
      registPropertyCB proCB s := (0, s ++ [.registPropertyCB proCB]) }
  propertyCB :=
    { get key val s := ((0, val), s ++ [.get key val])
      set key val s := (0, s ++ [.set key val]) }
  commandCB := { callback cmd msg s := (0, s ++ [.callback cmd msg]) }

/-- **What the stub of `followProperty` calls**: the handler with the two ints as
    the order of evaluation reads them. -/
theorem remote_followProperty (order : EvalOrder) (o : Objects σ) (s : σ) (key : String8)
    (type size : Int) :
    (Call.followProperty key type size).remote order o s =
      match order with
      | .leftToRight => (Call.followProperty key type size).handle o s
      | .rightToLeft => (Call.followProperty key size type).handle o s := by
  cases order <;> rfl

/-- **When proxy and stub agree**: on every call but a `followProperty` whose
    type and size differ and are read from right to left. -/
theorem remote_iff (order : EvalOrder) (call : Call) :
    (∀ (σ : Type) (o : Objects σ) (s : σ), call.remote order o s = call.handle o s) ↔
      ¬ (order = .rightToLeft ∧
        ∃ key type size, call = .followProperty key type size ∧ type ≠ size) := by
  constructor
  · intro h hbad
    obtain ⟨rfl, key, type, size, rfl, hne⟩ := hbad
    -- the recorder tells the two calls apart
    have hrec := congrArg Prod.snd (h _ recorder [])
    rw [remote_followProperty] at hrec
    have hcall : Call.followProperty key size type = Call.followProperty key type size :=
      List.cons.inj hrec |>.1
    injection hcall with _ hsize _
    exact hne hsize.symm
  · intro hgood σ o s
    cases call with
    | followProperty key type size =>
      rw [remote_followProperty]
      cases order with
      | leftToRight => rfl
      | rightToLeft =>
        have heq : type = size := by
          by_contra hne
          exact hgood ⟨rfl, key, type, size, rfl, hne⟩
        rw [heq]
    | _ => rfl

/-- **A follow with its fields exchanged**: an INT32 property of four bytes,
    read from right to left, is followed as type 4 and size 1. -/
theorem follow_exchanged :
    ¬ ∀ (order : EvalOrder) (call : Call) (σ : Type) (o : Objects σ) (s : σ),
      call.remote order o s = call.handle o s := by
  intro h
  have hrec := h .rightToLeft (.followProperty (lit "power") IOT_PROPERTY_INT32 4) _ recorder []
  revert hrec
  decide

/-! ## 7. Stubs of other interfaces -/

def Interface.descriptor : Interface → String8
  | .IIOTService => Binder.IIOTService.descriptor
  | .IIOTClient => Binder.IIOTClient.descriptor
  | .IIOTPropertyCB => Binder.IIOTPropertyCB.descriptor
  | .IIOTCommandCB => Binder.IIOTCommandCB.descriptor

/-- The last code of the interface's `enum`. -/
def Interface.lastCode : Interface → Nat
  | .IIOTService => IOTACTION_SERVICE_STATUS
  | .IIOTClient => IOTACTION_REGIST_PROPERTY_CALLBACK
  | .IIOTPropertyCB => IOTACTION_SET_PROPERTY
  | .IIOTCommandCB => IOTACTION_COMMAND_CALLBACK

/-- The stub has a case for the code. -/
def Interface.Knows (b : Interface) (code : Nat) : Prop :=
  FIRST_CALL_TRANSACTION ≤ code ∧ code ≤ b.lastCode

instance (b : Interface) (code : Nat) : Decidable (b.Knows code) :=
  inferInstanceAs (Decidable (_ ∧ _))

/-- **The stub turns the parcel down**: an error status, and the handlers' state
    as it was, whatever the handlers are; so none of them ran. -/
def Rejects (order : EvalOrder) (b : Interface) (code : Nat) (data : Parcel) : Prop :=
  ∀ (σ : Type) (o : Objects σ) (s : σ),
    (onTransact order o b code data s).1.1 ≠ NO_ERROR ∧ (onTransact order o b code data s).2 = s

theorem checked_token (d descriptor : String8) (data : Parcel) (s : σ)
    (body : Parcel → (Status × Parcel) × σ) :
    checked descriptor (.token d :: data) s body =
      if d = descriptor then body data else ((PERMISSION_DENIED, []), s) := by
  unfold checked
  rw [Parcel.checkInterface_token]
  by_cases h : d = descriptor
  · rw [if_pos h, if_pos h]
  · rw [if_neg h, if_neg h]

/-- A code the stub has a case for: the interface test, then the handler and a
    reply. -/
theorem onTransact_known (order : EvalOrder) (o : Objects σ) {b : Interface} {code : Nat}
    (hk : b.Knows code) (s : σ) :
    ∃ body : Parcel → (Status × Parcel) × σ, (∀ data, (body data).1.1 = NO_ERROR) ∧
      ∀ data, onTransact order o b code data s = checked b.descriptor data s body := by
  obtain ⟨hfirst, hlast⟩ := hk
  cases b with
  | IIOTService =>
    have hcode : code = 1 ∨ code = 2 := by
      simp only [Interface.lastCode, FIRST_CALL_TRANSACTION, IOTACTION_SERVICE_STATUS]
        at hfirst hlast
      omega
    rcases hcode with rfl | rfl
    · exact ⟨_, fun _ => rfl, fun _ => rfl⟩
    · exact ⟨_, fun _ => rfl, fun _ => rfl⟩
  | IIOTClient =>
    have hcode : code = 1 ∨ code = 2 ∨ code = 3 ∨ code = 4 ∨ code = 5 ∨ code = 6 := by
      simp only [Interface.lastCode, FIRST_CALL_TRANSACTION, IOTACTION_REGIST_PROPERTY_CALLBACK]
        at hfirst hlast
      omega
    rcases hcode with rfl | rfl | rfl | rfl | rfl | rfl
    · exact ⟨_, fun _ => rfl, fun _ => rfl⟩
    · exact ⟨_, fun _ => rfl, fun _ => rfl⟩
    · exact ⟨_, fun _ => rfl, fun _ => rfl⟩
    · exact ⟨_, fun _ => rfl, fun _ => rfl⟩
    · exact ⟨_, fun _ => rfl, fun _ => rfl⟩
    · exact ⟨_, fun _ => rfl, fun _ => rfl⟩
  | IIOTPropertyCB =>
    have hcode : code = 1 ∨ code = 2 := by
      simp only [Interface.lastCode, FIRST_CALL_TRANSACTION, IOTACTION_SET_PROPERTY] at hfirst hlast
      omega
    rcases hcode with rfl | rfl
    · exact ⟨_, fun _ => rfl, fun _ => rfl⟩
    · exact ⟨_, fun _ => rfl, fun _ => rfl⟩
  | IIOTCommandCB =>
    obtain rfl : code = 1 := by
      simp only [Interface.lastCode, FIRST_CALL_TRANSACTION, IOTACTION_COMMAND_CALLBACK]
        at hfirst hlast
      omega
    exact ⟨_, fun _ => rfl, fun _ => rfl⟩

/-- Any other code reaches `BBinder`. -/
theorem onTransact_unknown (order : EvalOrder) (o : Objects σ) {b : Interface} {code : Nat}
    (hk : ¬ b.Knows code) (data : Parcel) (s : σ) :
    onTransact order o b code data s = ((UNKNOWN_TRANSACTION, []), s) := by
  have hne : ∀ c, FIRST_CALL_TRANSACTION ≤ c → c ≤ b.lastCode → code ≠ c := by
    intro c hfirst hlast e
    exact hk (e ▸ ⟨hfirst, hlast⟩)
  cases b with
  | IIOTService =>
    simp only [onTransact, BnIOTService.onTransact]
    rw [if_neg (hne _ (by decide) (by decide)), if_neg (hne _ (by decide) (by decide))]
    rfl
  | IIOTClient =>
    simp only [onTransact, BnIOTClient.onTransact]
    rw [if_neg (hne _ (by decide) (by decide)), if_neg (hne _ (by decide) (by decide)),
      if_neg (hne _ (by decide) (by decide)), if_neg (hne _ (by decide) (by decide)),
      if_neg (hne _ (by decide) (by decide)), if_neg (hne _ (by decide) (by decide))]
    rfl
  | IIOTPropertyCB =>
    simp only [onTransact, BnIOTPropertyCB.onTransact]
    rw [if_neg (hne _ (by decide) (by decide)), if_neg (hne _ (by decide) (by decide))]
    rfl
  | IIOTCommandCB =>
    simp only [onTransact, BnIOTCommandCB.onTransact]
    rw [if_neg (hne _ (by decide) (by decide))]
    rfl

theorem permission_denied_ne : PERMISSION_DENIED ≠ NO_ERROR := by decide

theorem unknown_transaction_ne : UNKNOWN_TRANSACTION ≠ NO_ERROR := by decide

/-- **What a stub turns down**: another token, or a code it does not know. -/
theorem rejects_token (order : EvalOrder) (b : Interface) (code : Nat) (d : String8)
    (data : Parcel) :
    Rejects order b code (.token d :: data) ↔ ¬ (d = b.descriptor ∧ b.Knows code) := by
  constructor
  · intro hrej htaken
    obtain ⟨rfl, hk⟩ := htaken
    obtain ⟨body, hok, hbody⟩ := onTransact_known order recorder hk []
    refine (hrej _ recorder []).1 ?_
    rw [hbody, checked_token, if_pos rfl]
    exact hok data
  · intro hnot σ o s
    by_cases hk : b.Knows code
    · have hd : d ≠ b.descriptor := fun e => hnot ⟨e, hk⟩
      obtain ⟨body, -, hbody⟩ := onTransact_known order o hk s
      rw [hbody, checked_token, if_neg hd]
      exact ⟨permission_denied_ne, rfl⟩
    · rw [onTransact_unknown order o hk]
      exact ⟨unknown_transaction_ne, rfl⟩

/-- The code of a method. -/
def Call.code : Call → Nat
  | createClient _ => IOTACTION_CREATE_CLIENT
  | getServiceStatus => IOTACTION_SERVICE_STATUS
  | followProperty _ _ _ => IOTACTION_FOLLOW_PROPERTY
  | followCommand _ => IOTACTION_FOLLOW_COMMAND
  | reportEvent _ => IOTACTION_REPORT_EVENT_MESSAGE
  | reportProperty _ _ => IOTACTION_REPORT_PROPERTY
  | registCommandCB _ => IOTACTION_REGIST_COMMAND_CALLBACK
  | registPropertyCB _ => IOTACTION_REGIST_PROPERTY_CALLBACK
  | get _ _ => IOTACTION_GET_PROPERTY
  | set _ _ => IOTACTION_SET_PROPERTY
  | callback _ _ => IOTACTION_COMMAND_CALLBACK

/-- Every proxy method sends its code, and writes the token of its interface first. -/
theorem transaction_eq (call : Call) :
    ∃ data, call.transaction = (call.code, .token call.interface.descriptor :: data) := by
  cases call <;> exact ⟨_, rfl⟩

/-- Two interfaces share a descriptor: the service and the client. -/
theorem descriptor_eq : ∀ {a b : Interface}, a ≠ b → (a.descriptor = b.descriptor ↔
    a = .IIOTService ∧ b = .IIOTClient ∨ a = .IIOTClient ∧ b = .IIOTService) := by
  intro a b
  cases a <;> cases b <;> decide

/-- A call that another interface's stub takes for one of its own. -/
inductive Crosses : Call → Interface → Prop where
  | service (call : Call) (h : call.interface = .IIOTService) : Crosses call .IIOTClient
  | followProperty (key : String8) (type size : Int) :
      Crosses (.followProperty key type size) .IIOTService
  | followCommand (cmd : String8) : Crosses (.followCommand cmd) .IIOTService

/-- The client's stub knows the codes of the service. -/
theorem knows_service {call : Call} (h : call.interface = .IIOTService) :
    Interface.IIOTClient.Knows call.code := by
  cases call with
  | createClient name => exact (by decide : Interface.IIOTClient.Knows IOTACTION_CREATE_CLIENT)
  | getServiceStatus => exact (by decide : Interface.IIOTClient.Knows IOTACTION_SERVICE_STATUS)
  | _ => cases h

/-- The service's stub knows two codes of the client, those of the follows. -/
theorem knows_client {call : Call} (h : call.interface = .IIOTClient) :
    Interface.IIOTService.Knows call.code ↔ Crosses call .IIOTService := by
  have hno : ∀ {code : Nat}, IOTACTION_SERVICE_STATUS < code →
      ¬ Interface.IIOTService.Knows code := fun hlt hk => Nat.not_le_of_lt hlt hk.2
  cases call with
  | followProperty key type size =>
    refine ⟨fun _ => .followProperty key type size, fun _ => ?_⟩
    exact (by decide : Interface.IIOTService.Knows IOTACTION_FOLLOW_PROPERTY)
  | followCommand cmd =>
    refine ⟨fun _ => .followCommand cmd, fun _ => ?_⟩
    exact (by decide : Interface.IIOTService.Knows IOTACTION_FOLLOW_COMMAND)
  | reportEvent msg =>
    refine ⟨fun hk => absurd hk (hno ?_), fun hc => by cases hc⟩
    exact (by decide : IOTACTION_SERVICE_STATUS < IOTACTION_REPORT_EVENT_MESSAGE)
  | reportProperty key val =>
    refine ⟨fun hk => absurd hk (hno ?_), fun hc => by cases hc⟩
    exact (by decide : IOTACTION_SERVICE_STATUS < IOTACTION_REPORT_PROPERTY)
  | registCommandCB cmdCB =>
    refine ⟨fun hk => absurd hk (hno ?_), fun hc => by cases hc⟩
    exact (by decide : IOTACTION_SERVICE_STATUS < IOTACTION_REGIST_COMMAND_CALLBACK)
  | registPropertyCB proCB =>
    refine ⟨fun hk => absurd hk (hno ?_), fun hc => by cases hc⟩
    exact (by decide : IOTACTION_SERVICE_STATUS < IOTACTION_REGIST_PROPERTY_CALLBACK)
  | _ => cases h

/-- **When a stub rejects another interface's parcel**: always, except that the
    client's stub takes every call of the service and the service's stub takes
    the two follows of the client. -/
theorem rejects_iff (order : EvalOrder) (call : Call) (b : Interface) (hb : call.interface ≠ b) :
    Rejects order b call.transaction.1 call.transaction.2 ↔ ¬ Crosses call b := by
  obtain ⟨data, hdata⟩ := transaction_eq call
  rw [hdata, rejects_token, descriptor_eq hb, not_iff_not]
  constructor
  · intro h
    obtain ⟨⟨ha, rfl⟩ | ⟨ha, rfl⟩, hk⟩ := h
    · exact .service call ha
    · exact (knows_client ha).mp hk
  · intro hc
    cases hc with
    | service _ ha => exact ⟨.inl ⟨ha, rfl⟩, knows_service ha⟩
    | followProperty key type size =>
      exact ⟨.inr ⟨rfl, rfl⟩, (knows_client rfl).mpr (.followProperty key type size)⟩
    | followCommand cmd =>
      exact ⟨.inr ⟨rfl, rfl⟩, (knows_client rfl).mpr (.followCommand cmd)⟩

/-- `rejects_iff` at a report that the service's stub gets. -/
theorem rejects_iff_report :
    Rejects .rightToLeft .IIOTService (Call.reportProperty (lit "power") (lit "1")).transaction.1
      (Call.reportProperty (lit "power") (lit "1")).transaction.2 := by
  refine (rejects_iff .rightToLeft (.reportProperty (lit "power") (lit "1")) .IIOTService
    (by decide)).mpr ?_
  intro hc
  cases hc

/-- **A client is created and a property followed**: the client's stub runs
    `followProperty` on the parcel of `createClient`. -/
theorem create_follows :
    ¬ ∀ (order : EvalOrder) (call : Call) (b : Interface), call.interface ≠ b →
      Rejects order b call.transaction.1 call.transaction.2 := by
  intro h
  have hrec := (h .leftToRight (.createClient (lit "power")) .IIOTClient (by decide) _ recorder []).2
  have hcalls : (onTransact .leftToRight recorder .IIOTClient
      (Call.createClient (lit "power")).transaction.1
      (Call.createClient (lit "power")).transaction.2 []).2 =
        [.followProperty (lit "power") 0 0] := by decide
  rw [hcalls] at hrec
  cases hrec

end Binder

end IotWrap
