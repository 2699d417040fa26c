/-
  File:      IotWrap/Connect.lean
  Subject:   A connect through any remote objects, and what the server's own
             objects make of it (jni/client/IOT_ClientJNI.cpp).

  `connServiceTo` is `connService` over a service object and the client objects
  it hands out, whatever they answer; a transaction that fails is one more
  answer. `Server` is the server process, dead or alive, with the requests it
  served, and gives its answers.

  * `connServiceTo_iff`: when `ERR_NOERROR` means that every request was accepted;
  * `refused_follow`: a connect that succeeds although a follow was refused;
  * `connServiceTo_server`: over the server's objects this is `connService`.
-/
import IotWrap.Binder
import IotWrap.Client

namespace IotWrap

open Lib Binder

namespace IOTClientJNI

variable {σ : Type}

/-! ## 1. connService through any objects -/

/-- `_connect` over a service object. -/
def connectTo (j : IOTClientJNI) (service : IIOTService σ) (timeout_ms : Int)
    (polls : Nat → Option Int) (s : σ) : Int × IOTClientJNI × σ :=
  if waitStatus DS_STATUS_INVALID ((List.range (tryCnt timeout_ms).toNat).map polls) ≠
      DS_STATUS_CONNECTED then (ERR_PROXY_NULL, j, s)
  else
    let (c, s) := service.createClient j.m_clientID s
    (if c = none then ERR_PROXY_NULL else ERR_NOERROR, { j with m_proxy := c }, s)

/-- The requests of `_postFollow`, in the order it makes them. -/
def posts (j : IOTClientJNI) (proxy : IIOTClient σ) : List (σ → Int × σ) :=
  (j.m_propertyList.map fun p => proxy.followProperty p._key p._type p._size) ++
    (j.m_commandList.map fun cmd => proxy.followCommand cmd) ++
    [proxy.registCommandCB (some j.m_commandCB), proxy.registPropertyCB (some j.m_propertyCB)]

/-- Requests made one after the other, and what each of them returned. -/
def send : List (σ → Int × σ) → σ → List Int × σ
  | [], s => ([], s)
  | post :: l, s =>
    let (ret, s) := post s
    let (rets, s) := send l s
    (ret :: rets, s)

/-- What a call of `connService` leaves: its result, the library, what the
    requests returned, and the remote side. -/
structure Connection (σ : Type) where
  ret : Int
  jni : IOTClientJNI
  rets : List Int
  remote : σ

/-- `_postFollow`: what the requests return is only logged. -/
def postTo (j : IOTClientJNI) (client : ClientId → IIOTClient σ) (s : σ) : Connection σ :=
  match j.m_proxy with
  | none => ⟨ERR_PROXY_NULL, j, [], s⟩
  | some c =>
    let (rets, s) := send (j.posts (client c)) s
    ⟨ERR_NOERROR, j, rets, s⟩

/-- `connService` over a service object and its client objects. -/
def connServiceTo (j : IOTClientJNI) (service : IIOTService σ) (client : ClientId → IIOTClient σ)
    (timeout_ms : Int) (polls : Nat → Option Int) (s : σ) : Connection σ :=
  if j.m_proxy.isSome then ⟨ERR_NOERROR, j, [], s⟩
  else
    let (ret, j, s) := j.connectTo service timeout_ms polls s
    if ret < 0 then ⟨ret, j, [], s⟩ else j.postTo client s

/-- The proxy a call of `connService` gets and the state it got it in. -/
def proxyOf (j : IOTClientJNI) (service : IIOTService σ) (timeout_ms : Int)
    (polls : Nat → Option Int) (s : σ) : StrongBinder × σ :=
  if waitStatus DS_STATUS_INVALID ((List.range (tryCnt timeout_ms).toNat).map polls) ≠
      DS_STATUS_CONNECTED then (none, s)
  else service.createClient j.m_clientID s

/-- **What `connService` of an unconnected client does**: without a proxy it fails
    and makes no request; with one it makes all of them and succeeds. -/
theorem connServiceTo_cases {j : IOTClientJNI} (hp : j.m_proxy = none) (service : IIOTService σ)
    (client : ClientId → IIOTClient σ) (timeout_ms : Int) (polls : Nat → Option Int) (s : σ) :
    (∃ t, j.proxyOf service timeout_ms polls s = (none, t) ∧
        j.connServiceTo service client timeout_ms polls s = ⟨ERR_PROXY_NULL, j, [], t⟩) ∨
      ∃ c t, j.proxyOf service timeout_ms polls s = (some c, t) ∧
        j.connServiceTo service client timeout_ms polls s =
          ⟨ERR_NOERROR, { j with m_proxy := some c }, (send (j.posts (client c)) t).1,
            (send (j.posts (client c)) t).2⟩ := by
  have hsome : ¬ j.m_proxy.isSome = true := by
    rw [hp]
    decide
  have e : j.connServiceTo service client timeout_ms polls s =
      if (j.connectTo service timeout_ms polls s).1 < 0 then
        ⟨(j.connectTo service timeout_ms polls s).1, (j.connectTo service timeout_ms polls s).2.1,
          [], (j.connectTo service timeout_ms polls s).2.2⟩
      else (j.connectTo service timeout_ms polls s).2.1.postTo client
        (j.connectTo service timeout_ms polls s).2.2 := if_neg hsome
  rw [e]
  unfold connectTo proxyOf
  by_cases hst : waitStatus DS_STATUS_INVALID ((List.range (tryCnt timeout_ms).toNat).map polls) ≠
      DS_STATUS_CONNECTED
  · rw [if_pos hst, if_pos hst]
    exact .inl ⟨s, rfl, rfl⟩
  · rw [if_neg hst, if_neg hst]
    obtain ⟨b, t⟩ := service.createClient j.m_clientID s
    cases b with
    | none =>
      have hself : { j with m_proxy := none } = j := by rw [← hp]
      refine .inl ⟨t, rfl, ?_⟩
      simp only [hself]
      rfl
    | some c => exact .inr ⟨c, t, rfl, rfl⟩

/-- **When `ERR_NOERROR` means accepted**: there is no proxy, or every request of
    the replay returns a non-negative result. -/
theorem connServiceTo_iff {j : IOTClientJNI} (hp : j.m_proxy = none) (service : IIOTService σ)
    (client : ClientId → IIOTClient σ) (timeout_ms : Int) (polls : Nat → Option Int) (s : σ) :
    ((j.connServiceTo service client timeout_ms polls s).ret = ERR_NOERROR →
        (j.connServiceTo service client timeout_ms polls s).jni.m_proxy ≠ none ∧
          ∀ ret ∈ (j.connServiceTo service client timeout_ms polls s).rets, 0 ≤ ret) ↔
      ∀ c t, j.proxyOf service timeout_ms polls s = (some c, t) →
        ∀ ret ∈ (send (j.posts (client c)) t).1, 0 ≤ ret := by
  rcases connServiceTo_cases hp service client timeout_ms polls s with
    ⟨t, hproxy, e⟩ | ⟨c, t, hproxy, e⟩
  · rw [e, hproxy]
    constructor
    · intro _ c t h
      cases h
    · intro _ h
      exact absurd h (by decide : ¬ ERR_PROXY_NULL = ERR_NOERROR)
  · rw [e, hproxy]
    constructor
    · intro h c' t' h'
      obtain ⟨hc, rfl⟩ := Prod.mk.inj h'
      obtain rfl := Option.some.inj hc
      exact (h rfl).2
    · intro h _
      exact ⟨Option.some_ne_none c, h c t rfl⟩

/-! ## 2. The server's objects -/

end IOTClientJNI

/-- What the SDK and the allocator answer to the server. -/
structure Sdk where
  mem : String8 → Callocs
  pushRc : Int
  eventRc : Int

/-- `doReportEvent`; `rc` is what `IOT_Shadow_Event_Report` returns. -/
def DeviceShadow.doReportEvent (d : DeviceShadow) (msg : String8) (rc : Int) : Int × DeviceShadow :=
  if msg.length = 0 then (-1, d) else (rc, d)

/-- What a transaction with a dead process returns. -/
def DEAD_OBJECT : Status := -32

/-- The server process: its shadow while it lives, and the client requests it
    served, in order. -/
structure Server where
  shadow : Option DeviceShadow
  served : List Call

namespace Server

/-- A request to the server process. The process dies where `f` gives nothing. -/
def serve (s : Server) (call : Call) (f : DeviceShadow → Option (Int × DeviceShadow)) :
    Int × Server :=
  match s.shadow with
  | none => (DEAD_OBJECT, s)
  | some d =>
    match f d with
    | none => (DEAD_OBJECT, { s with shadow := none })
    | some (ret, d) => (ret, ⟨some d, s.served ++ [call]⟩)

/-- Lift a request to the registry. -/
def onService (d : DeviceShadow) (r : Int × IOTService) : Option (Int × DeviceShadow) :=
  some (r.1, { d with toIOTService := r.2 })

/-- The server's service object. -/
def service : IIOTService Server where
  createClient name s :=
    match s.shadow with
    | none => (none, s)
    | some d =>
      let (c, t) := d.toIOTService.createClient name
      (c, { s with shadow := some { d with toIOTService := t } })
  getServiceStatus s :=
    match s.shadow with
    | none => (DS_STATUS_INVALID, s)
    | some d => (d.getServiceStatus, s)

/-- The server's client object at `c`. -/
def client (sdk : Sdk) (c : ClientId) : IIOTClient Server where
  followProperty key type size s := s.serve (.followProperty key type size) fun d =>
    some (d.followProperty c key type size (sdk.mem key))
  followCommand cmd s := s.serve (.followCommand cmd) fun d =>
    onService d (d.toIOTService.followCommand c cmd)
  reportEvent msg s := s.serve (.reportEvent msg) fun d => some (d.doReportEvent msg sdk.eventRc)
  reportProperty key val s := s.serve (.reportProperty key val) fun d =>
    some (d.doReportProperty (cstr key) (cstr val) sdk.pushRc)
  registCommandCB cmdCB s := s.serve (.registCommandCB cmdCB) fun d =>
    onService d (d.toIOTService.registCommandCB c cmdCB)
  registPropertyCB proCB s := s.serve (.registPropertyCB proCB) fun d =>
    (d.toIOTService.registPropertyCB c proCB).bind (onService d)

end Server

namespace IOTClientJNI

/-! ## 3. The replay, served by the server -/

/-- The replay as the calls it makes. -/
def calls (j : IOTClientJNI) : List Call :=
  (j.m_propertyList.map fun p => .followProperty p._key p._type p._size) ++
    (j.m_commandList.map fun cmd => .followCommand cmd) ++
    [.registCommandCB (some j.m_commandCB), .registPropertyCB (some j.m_propertyCB)]

theorem send_append {σ : Type} (l l' : List (σ → Int × σ)) (s : σ) :
    send (l ++ l') s = ((send l s).1 ++ (send l' (send l s).2).1, (send l' (send l s).2).2) := by
  induction l generalizing s with
  | nil => rfl
  | cons post l ih =>
    simp only [List.cons_append, send, ih]

theorem send_properties (sdk : Sdk) (c : ClientId) (l : List PropertyInfo) (d : DeviceShadow)
    (log : List Call) :
    (send (l.map fun p => (Server.client sdk c).followProperty p._key p._type p._size)
        ⟨some d, log⟩).2 =
      ⟨some (postProperties d c sdk.mem l),
        log ++ l.map fun p => .followProperty p._key p._type p._size⟩ := by
  induction l generalizing d log with
  | nil => simp [send, postProperties]
  | cons p l ih =>
    have hstep : (Server.client sdk c).followProperty p._key p._type p._size ⟨some d, log⟩ =
        ((d.followProperty c p._key p._type p._size (sdk.mem p._key)).1,
          ⟨some (d.followProperty c p._key p._type p._size (sdk.mem p._key)).2,
            log ++ [.followProperty p._key p._type p._size]⟩) := rfl
    simp only [List.map_cons, send, hstep]
    rw [ih, List.append_assoc]
    rfl

theorem send_commands (sdk : Sdk) (c : ClientId) (l : List String8) (d : DeviceShadow)
    (log : List Call) :
    (send (l.map fun cmd => (Server.client sdk c).followCommand cmd) ⟨some d, log⟩).2 =
      ⟨some { d with toIOTService := postCommands d.toIOTService c l },
        log ++ l.map fun cmd => .followCommand cmd⟩ := by
  induction l generalizing d log with
  | nil => simp [send, postCommands]
  | cons cmd l ih =>
    have hstep : (Server.client sdk c).followCommand cmd ⟨some d, log⟩ =
        ((d.toIOTService.followCommand c cmd).1,
          ⟨some { d with toIOTService := (d.toIOTService.followCommand c cmd).2 },
            log ++ [.followCommand cmd]⟩) := rfl
    simp only [List.map_cons, send, hstep]
    rw [ih, List.append_assoc]
    rfl

/-- **The replay over the server's objects** is `_postFollow`, and the server
    serves its calls in their order. -/
theorem send_posts {j : IOTClientJNI} {c : ClientId} (hp : j.m_proxy = some c) (sdk : Sdk)
    (d : DeviceShadow) (log : List Call) :
    (send (j.posts (Server.client sdk c)) ⟨some d, log⟩).2 =
      ⟨some (j._postFollow d sdk.mem).2, log ++ j.calls⟩ := by
  unfold posts calls _postFollow
  rw [send_append, send_append, hp]
  simp only [send_properties, send_commands]
  simp only [send, Server.client, Server.serve, Server.onService, IOTService.registPropertyCB,
    Option.bind_some, List.append_assoc]
  rfl

/-- The server's `createClient`, as the proxy sees it. -/
theorem proxyOf_server (j : IOTClientJNI) (d : DeviceShadow) (log : List Call) (timeout_ms : Int)
    (polls : Nat → Option Int) :
    j.proxyOf Server.service timeout_ms polls ⟨some d, log⟩ =
      if waitStatus DS_STATUS_INVALID ((List.range (tryCnt timeout_ms).toNat).map polls) ≠
          DS_STATUS_CONNECTED then (none, ⟨some d, log⟩)
      else ((d.toIOTService.createClient j.m_clientID).1,
        ⟨some { d with toIOTService := (d.toIOTService.createClient j.m_clientID).2 }, log⟩) := rfl

/-- **`connServiceTo` over the server's objects** is `connService`. -/
theorem connServiceTo_server {j : IOTClientJNI} (hp : j.m_proxy = none) (sdk : Sdk)
    (d : DeviceShadow) (log : List Call) (timeout_ms : Int) (polls : Nat → Option Int) :
    let r := j.connServiceTo Server.service (Server.client sdk) timeout_ms polls ⟨some d, log⟩
    r.ret = (j.connService d timeout_ms polls sdk.mem).1 ∧
      r.jni = (j.connService d timeout_ms polls sdk.mem).2.1 ∧
      r.remote.shadow = some (j.connService d timeout_ms polls sdk.mem).2.2 := by
  intro r
  have hsome : ¬ j.m_proxy.isSome = true := by
    rw [hp]
    decide
  have hself : { j with m_proxy := none } = j := by rw [← hp]
  have e : j.connService d timeout_ms polls sdk.mem =
      if (j._connect d timeout_ms polls).1 < 0 then j._connect d timeout_ms polls
      else
        (((j._connect d timeout_ms polls).2.1._postFollow (j._connect d timeout_ms polls).2.2
            sdk.mem).1, (j._connect d timeout_ms polls).2.1,
          ((j._connect d timeout_ms polls).2.1._postFollow (j._connect d timeout_ms polls).2.2
            sdk.mem).2) := if_neg hsome
  rw [e]
  have hproxy := j.proxyOf_server d log timeout_ms polls
  unfold _connect
  by_cases hst : waitStatus DS_STATUS_INVALID ((List.range (tryCnt timeout_ms).toNat).map polls) ≠
      DS_STATUS_CONNECTED
  · rw [if_pos hst] at hproxy ⊢
    rcases connServiceTo_cases hp Server.service (Server.client sdk) timeout_ms polls
      ⟨some d, log⟩ with ⟨t, ht, hr⟩ | ⟨c, t, ht, -⟩
    · obtain ⟨-, rfl⟩ := Prod.mk.inj (hproxy.symm.trans ht)
      rw [show r = _ from hr]
      exact ⟨rfl, rfl, rfl⟩
    · cases hproxy.symm.trans ht
  · rw [if_neg hst] at hproxy ⊢
    rcases connServiceTo_cases hp Server.service (Server.client sdk) timeout_ms polls
      ⟨some d, log⟩ with ⟨t, ht, hr⟩ | ⟨c, t, ht, hr⟩
    · obtain ⟨hc, rfl⟩ := Prod.mk.inj (hproxy.symm.trans ht)
      rw [show r = _ from hr]
      simp only [hc, hself]
      exact ⟨rfl, rfl, rfl⟩
    · obtain ⟨hc, rfl⟩ := Prod.mk.inj (hproxy.symm.trans ht)
      have hsend := send_posts (j := { j with m_proxy := some c }) rfl sdk
        { d with toIOTService := (d.toIOTService.createClient j.m_clientID).2 } log
      rw [show r = _ from hr]
      simp only [hc]
      exact ⟨rfl, rfl, congrArg Server.shadow hsend⟩

/-! ## 4. Accepted or not -/

/-- An application that follows one property. -/
def followsPower (size : Int) : IOTClientJNI :=
  ⟨lit "tv", [⟨lit "power", IOT_PROPERTY_INT32, size⟩], [], 1, 2, none⟩

/-- A server that is up, with memory and a cloud that takes everything. -/
def upSdk : Sdk := ⟨fun _ => .succeed, 0, 0⟩

/-- A connect to it. -/
def connectsTo (j : IOTClientJNI) : Connection Server :=
  j.connServiceTo Server.service (Server.client upSdk) 1000
    (fun _ => some App.upServer.getServiceStatus) ⟨some App.upServer, []⟩

/-- `connServiceTo_iff` for a follow that the server accepts. -/
theorem connServiceTo_iff_power : (connectsTo (followsPower 4)).ret = ERR_NOERROR ∧
    ((connectsTo (followsPower 4)).ret = ERR_NOERROR →
      (connectsTo (followsPower 4)).jni.m_proxy ≠ none ∧
        ∀ ret ∈ (connectsTo (followsPower 4)).rets, 0 ≤ ret) := by
  refine ⟨by decide, (connServiceTo_iff rfl Server.service (Server.client upSdk) 1000
    (fun _ => some App.upServer.getServiceStatus) ⟨some App.upServer, []⟩).mpr ?_⟩
  intro c t ht
  have hok : ∀ ret ∈ (connectsTo (followsPower 4)).rets, 0 ≤ ret := by decide
  rcases connServiceTo_cases (j := followsPower 4) rfl Server.service (Server.client upSdk) 1000
    (fun _ => some App.upServer.getServiceStatus) ⟨some App.upServer, []⟩ with
    ⟨t', ht', -⟩ | ⟨c', t', ht', e⟩
  · cases ht'.symm.trans ht
  · obtain ⟨hc, rfl⟩ := Prod.mk.inj (ht'.symm.trans ht)
    obtain rfl := Option.some.inj hc
    rw [connectsTo, e] at hok
    exact hok

/-- **A refused follow**: the server returns -1 for size 0, and the connect succeeds. -/
theorem refused_follow :
    ¬ ∀ (σ : Type) (j : IOTClientJNI), j.m_proxy = none → ∀ (service : IIOTService σ)
      (client : ClientId → IIOTClient σ) (timeout_ms : Int) (polls : Nat → Option Int) (s : σ),
      (j.connServiceTo service client timeout_ms polls s).ret = ERR_NOERROR →
        (j.connServiceTo service client timeout_ms polls s).jni.m_proxy ≠ none ∧
          ∀ ret ∈ (j.connServiceTo service client timeout_ms polls s).rets, 0 ≤ ret := by
  intro h
  have hall := (h _ (followsPower 0) rfl Server.service (Server.client upSdk) 1000
    (fun _ => some App.upServer.getServiceStatus) ⟨some App.upServer, []⟩ (by decide)).2
  exact absurd hall (by decide)

end IOTClientJNI

end IotWrap
