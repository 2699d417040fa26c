/-
  File:      IotWrap/Reconnect.lean
  Subject:   What a reconnection leaves at the server (jni/client/IOT_ClientJNI.cpp).

  `life` is every history of a client process: local follows, connects to
  whatever server there is, deaths of the server. Its lists stay lists of C
  strings, and a client object that is new to the server is in no list, so the
  replay puts it at the end of the list of every listed name.

  * `restored_postFollow`: what the replay leaves of the maps and the objects;
  * `reconnect_restores`: after any history, against a server in any state.
-/
import IotWrap.Connect
import IotWrap.Sessions

namespace IotWrap

open Lib Binder

namespace IOTClientJNI

open IOTService

/-! ## 1. The histories of a client process -/

inductive Event where
  | followProperty (jkey : String8) (type size : Int) : Event
  | followCommand (jcmd : String8) : Event
  /-- A connect to whatever server there is. -/
  | connService (d : DeviceShadow) (timeout_ms : Int) (polls : Nat → Option Int)
      (mem : String8 → Callocs) : Event
  /-- `serviceDied` up to its `connService`. -/
  | serviceDied : Event

/-- `m_proxy = NULL`. -/
def dropProxy (j : IOTClientJNI) : IOTClientJNI := { j with m_proxy := none }

def handle (j : IOTClientJNI) : Event → IOTClientJNI
  | .followProperty jkey type size => (j.followProperty jkey type size).2
  | .followCommand jcmd => (j.followCommand jcmd).2
  | .connService d timeout_ms polls mem => (j.connService d timeout_ms polls mem).2.1
  | .serviceDied => j.dropProxy

/-- Histories of local follows, connects and deaths of the server. -/
def life : Machine IOTClientJNI Event where
  init j := j.m_propertyList = [] ∧ j.m_commandList = [] ∧ j.m_proxy = none
  enabled _ _ := True
  next := handle

theorem clean_handle {j : IOTClientJNI} (h : Clean j) (e : Event) : Clean (j.handle e) := by
  cases e with
  | followProperty jkey type size => exact clean_followProperty h jkey type size
  | followCommand jcmd => exact clean_followCommand h jcmd
  | connService d timeout_ms polls mem =>
    obtain ⟨hp, hc⟩ := j.connService_lists d timeout_ms polls mem
    refine ⟨fun k hk => h.key k ?_, fun k hk => h.cmd k ?_⟩
    · simp only [handle, keys, hp] at hk
      exact hk
    · simp only [handle, hc] at hk
      exact hk
  | serviceDied => exact ⟨h.key, h.cmd⟩

theorem clean_life {j : IOTClientJNI} (h : life.Reachable j) : Clean j := by
  refine h.inv (I := Clean) ?_ fun j e hI _ _ => clean_handle hI e
  intro j h0
  obtain ⟨hp, hc, -⟩ := h0
  refine ⟨fun k hk => ?_, fun k hk => ?_⟩
  · rw [keys, hp] at hk
    cases hk
  · rw [hc] at hk
    cases hk

/-! ## 2. What the replay does to the client objects -/

/-- The client list and the client objects are as before. -/
structure SameObjects (s s' : IOTService) : Prop where
  clients : s'.m_clients = s.m_clients
  client : s'.client = s.client

theorem SameObjects.rfl {s : IOTService} : SameObjects s s := ⟨Eq.refl _, Eq.refl _⟩

theorem SameObjects.trans {s s' s'' : IOTService} (h : SameObjects s s')
    (h' : SameObjects s' s'') : SameObjects s s'' :=
  ⟨h'.clients.trans h.clients, h'.client.trans h.client⟩

theorem sameObjects_followProperty (d : DeviceShadow) (c : ClientId) (key : String8)
    (type size : Int) (mem : Callocs) :
    SameObjects d.toIOTService (d.followProperty c key type size mem).2.toIOTService := by
  rcases d.followProperty_cases c key type size mem with ⟨reg, e⟩ | ⟨a, reg, e, -, -⟩
  · rw [e]
    exact ⟨rfl, rfl⟩
  · rw [e]
    exact ⟨rfl, rfl⟩

theorem sameObjects_postProperties (d : DeviceShadow) (c : ClientId) (mem : String8 → Callocs)
    (l : List PropertyInfo) :
    SameObjects d.toIOTService (postProperties d c mem l).toIOTService := by
  induction l generalizing d with
  | nil => exact .rfl
  | cons p l ih => exact (sameObjects_followProperty d c _ _ _ _).trans (ih _)

theorem sameObjects_postCommands (s : IOTService) (c : ClientId) (l : List String8) :
    SameObjects s (postCommands s c l) := by
  induction l generalizing s with
  | nil => exact .rfl
  | cons cmd l ih =>
    have hstep : SameObjects s (s.followCommand c cmd).2 := by
      rw [followCommand_maps]
      exact ⟨rfl, rfl⟩
    exact hstep.trans (ih _)

/-- **The registrations** of a client object without callbacks set both. -/
theorem registered_both {s : IOTService} {c : ClientId} {name : String8}
    (hc : s.client c = ⟨name, none, none⟩) (cmdCB proCB : CbId) :
    (((s.registCommandCB c (some cmdCB)).2.setPropertyCB c proCB).2.m_clients = s.m_clients) ∧
      ((s.registCommandCB c (some cmdCB)).2.setPropertyCB c proCB).2.client =
        Function.update s.client c ⟨name, some cmdCB, some proCB⟩ := by
  simp [registCommandCB, setPropertyCB, setClient, hc]

/-- **What the replay leaves of the client objects**: the client has both
    callbacks, and the others are as before. -/
theorem postFollow_objects {j : IOTClientJNI} {c : ClientId} (hp : j.m_proxy = some c)
    {d : DeviceShadow} {name : String8} (hc : d.client c = ⟨name, none, none⟩)
    (mem : String8 → Callocs) :
    (j._postFollow d mem).2.m_clients = d.m_clients ∧
      (j._postFollow d mem).2.client =
        Function.update d.client c ⟨name, some j.m_commandCB, some j.m_propertyCB⟩ := by
  have hprop := sameObjects_postProperties d c mem j.m_propertyList
  have hcmd := sameObjects_postCommands (postProperties d c mem j.m_propertyList).toIOTService c
    j.m_commandList
  have hall := hprop.trans hcmd
  have hc' : (postCommands (postProperties d c mem j.m_propertyList).toIOTService c
      j.m_commandList).client c = ⟨name, none, none⟩ := by
    rw [hall.client, hc]
  obtain ⟨hclients, hclient⟩ := registered_both hc' j.m_commandCB j.m_propertyCB
  simp only [_postFollow, hp]
  rw [hclients, hclient, hall.clients, hall.client]
  exact ⟨rfl, rfl⟩

/-! ## 3. Reconnection -/

/-- The follows of the replay. -/
def follows (j : IOTClientJNI) : List Call :=
  (j.m_propertyList.map fun p => .followProperty p._key p._type p._size) ++
    j.m_commandList.map fun cmd => .followCommand cmd

/-- **The subscriptions are restored**: the new client `c` follows exactly the
    listed names, once each, its callbacks are the library's, and every other
    client and its entries are as before. -/
structure Restored (j : IOTClientJNI) (c : ClientId) (s s' : IOTService) : Prop where
  key : ∀ k, (stored s'.m_keyFollow k).count c = if k ∈ j.keys then 1 else 0
  cmd : ∀ k, (stored s'.m_cmdFollow k).count c = if k ∈ j.m_commandList then 1 else 0
  keyOthers : ∀ k, (stored s'.m_keyFollow k).filter (· ≠ c) = stored s.m_keyFollow k
  cmdOthers : ∀ k, (stored s'.m_cmdFollow k).filter (· ≠ c) = stored s.m_cmdFollow k
  callbacks : s'.client c = ⟨cstr j.m_clientID, some j.m_commandCB, some j.m_propertyCB⟩
  clientOthers : ∀ c', c' ≠ c → s'.client c' = s.client c'
  clients : s'.m_clients = s.m_clients ++ [c]

/-- One map after the replay, list by list. -/
theorem stored_followed {m : FollowMap} {c : ClientId} (hnull : NoNull m)
    (hc : ∀ k, c ∉ stored m k) (names : List String8) (k : String8) :
    stored (followed m c names) k = stored m k ++ if k ∈ names then [c] else [] := by
  have hget := followed_get hnull hc names k
  by_cases hk : k ∈ names
  · rw [if_pos hk] at hget ⊢
    exact stored_of_get hget
  · rw [if_neg hk] at hget ⊢
    rw [List.append_nil]
    simp only [stored, hget]

/-- A list with the client once or not at all at its end. -/
theorem count_filter_end {l : List ClientId} {c : ClientId} (hc : c ∉ l) (p : Prop) [Decidable p] :
    (l ++ if p then [c] else []).count c = (if p then 1 else 0) ∧
      (l ++ if p then [c] else []).filter (· ≠ c) = l := by
  have hl : l.filter (· ≠ c) = l :=
    List.filter_eq_self.mpr fun a ha => decide_eq_true fun e => hc (e ▸ ha)
  rw [List.count_append, List.filter_append, List.count_eq_zero_of_not_mem hc, hl]
  by_cases hp : p
  · simp [hp]
  · simp [hp]

theorem restored_postFollow {j : IOTClientJNI} (hj : Clean j) {d : DeviceShadow}
    (hd : Proper d.toIOTService) (mem : String8 → Callocs) :
    Restored j d.fresh d.toIOTService
      ({ j with m_proxy := some d.fresh }._postFollow
        { d with toIOTService := (d.insertClient j.m_clientID).2 } mem).2.toIOTService := by
  have hnew : (d.insertClient j.m_clientID).2.client d.fresh = ⟨cstr j.m_clientID, none, none⟩ :=
    Function.update_self _ _ _
  obtain ⟨hk, hc⟩ := postFollow_maps (j := { j with m_proxy := some d.fresh }) ⟨hj.key, hj.cmd⟩ rfl
    { d with toIOTService := (d.insertClient j.m_clientID).2 } mem
  obtain ⟨hclients, hclient⟩ := postFollow_objects (j := { j with m_proxy := some d.fresh }) rfl
    (d := { d with toIOTService := (d.insertClient j.m_clientID).2 }) hnew mem
  replace hk : _ = followed d.m_keyFollow d.fresh j.keys := hk
  replace hc : _ = followed d.m_cmdFollow d.fresh j.m_commandList := hc
  have hkey : ∀ k, d.fresh ∉ stored d.m_keyFollow k := not_stored hd.keyOld
  have hcmd : ∀ k, d.fresh ∉ stored d.m_cmdFollow k := not_stored hd.cmdOld
  refine ⟨fun k => ?_, fun k => ?_, fun k => ?_, fun k => ?_, ?_, fun c' hne => ?_, hclients⟩
  · rw [hk, stored_followed hd.keyNull hkey]
    exact (count_filter_end (hkey k) _).1
  · rw [hc, stored_followed hd.cmdNull hcmd]
    exact (count_filter_end (hcmd k) _).1
  · rw [hk, stored_followed hd.keyNull hkey]
    exact (count_filter_end (hkey k) _).2
  · rw [hc, stored_followed hd.cmdNull hcmd]
    exact (count_filter_end (hcmd k) _).2
  · rw [hclient]
    exact Function.update_self _ _ _
  · rw [hclient, Function.update_of_ne hne]
    exact Function.update_of_ne hne _ _

/-- **Reconnection restores the subscriptions**: after any history of the process,
    a connect without a proxy to a server in any state with a free slot succeeds,
    restores the subscriptions, and the server served every follow before the
    registrations, the property callback last. -/
theorem reconnect_restores {j : IOTClientJNI} (hj : life.Reachable j) (hp : j.m_proxy = none)
    {s : Sessions.State} (hs : Sessions.machine.Reachable s) {d : DeviceShadow}
    (hd : d.toIOTService = s.service) (hslot : d.toIOTService.hasSlot = true) (sdk : Sdk)
    (log : List Call) (timeout_ms : Int) (polls : Nat → Option Int)
    (hst : waitStatus DS_STATUS_INVALID ((List.range (tryCnt timeout_ms).toNat).map polls) =
      DS_STATUS_CONNECTED) :
    let r := j.connServiceTo Server.service (Server.client sdk) timeout_ms polls ⟨some d, log⟩
    r.ret = ERR_NOERROR ∧ r.jni = { j with m_proxy := some d.fresh } ∧
      (∃ d', r.remote.shadow = some d' ∧ Restored j d.fresh d.toIOTService d'.toIOTService) ∧
      r.remote.served = log ++ j.follows ++
        [.registCommandCB (some j.m_commandCB), .registPropertyCB (some j.m_propertyCB)] := by
  intro r
  have hproper : Proper d.toIOTService := hd ▸ (Sessions.sound_reach hs).proper
  have hproxy := j.proxyOf_server d log timeout_ms polls
  rw [if_neg (not_not.mpr hst)] at hproxy
  have hcreate : d.toIOTService.createClient j.m_clientID =
      (some d.fresh, (d.insertClient j.m_clientID).2) := by
    simp only [createClient, if_pos hslot]
    rfl
  rw [hcreate] at hproxy
  rcases connServiceTo_cases hp Server.service (Server.client sdk) timeout_ms polls
    ⟨some d, log⟩ with ⟨t, ht, -⟩ | ⟨c, t, ht, hr⟩
  · cases hproxy.symm.trans ht
  · obtain ⟨hc, rfl⟩ := Prod.mk.inj (hproxy.symm.trans ht)
    obtain rfl := Option.some.inj hc
    have hsend := send_posts (j := { j with m_proxy := some d.fresh }) rfl sdk
      { d with toIOTService := (d.insertClient j.m_clientID).2 } log
    rw [show r = _ from hr]
    refine ⟨rfl, rfl, ⟨_, congrArg Server.shadow hsend,
      restored_postFollow (clean_life hj) hproper sdk.mem⟩, ?_⟩
    rw [List.append_assoc]
    exact congrArg Server.served hsend

instance (j : IOTClientJNI) (e : Event) : Decidable (life.enabled j e) := .isTrue trivial

/-- Two follows, a connect, and the death of the server. -/
def tvLife : List Event :=
  [.followProperty (lit "power") IOT_PROPERTY_INT32 4, .followCommand (lit "play"),
    .connService App.upServer 1000 (fun _ => some DS_STATUS_CONNECTED) fun _ => .succeed, .serviceDied]

/-- `reconnect_restores` for that process and a server with another follower. -/
theorem reconnect_restores_tv : ∃ (j : IOTClientJNI) (s s' : IOTService), j.keys = [lit "power"] ∧
    stored s.m_keyFollow (lit "power") = [0] ∧ s.fresh = 1 ∧ Restored j 1 s s' := by
  have h0 : life.init ⟨lit "tv", [], [], 1, 2, none⟩ := ⟨rfl, rfl, rfl⟩
  have hlife : (life.run (fun _ _ => True) ⟨lit "tv", [], [], 1, 2, none⟩ tvLife).map
      (fun j => (j.keys, j.m_proxy)) = some ([lit "power"], none) := by decide
  obtain ⟨j, hj, hjs⟩ := Machine.exists_of_run h0 hlife
  have h0' : Sessions.machine.init Sessions.init := rfl
  have hrun : (Sessions.machine.run (fun _ _ => True) Sessions.init (Sessions.connects ++
      Sessions.request 0 (.followProperty 0 (lit "power")))).map
      (fun s => (s.service.fresh, s.service.hasSlot, stored s.service.m_keyFollow (lit "power"))) =
        some (1, true, [0]) := by decide
  obtain ⟨s, hs, hss⟩ := Machine.exists_of_run h0' hrun
  simp only [Prod.mk.injEq] at hjs hss
  obtain ⟨-, -, ⟨d', -, hrestored⟩, -⟩ := reconnect_restores hj hjs.2 hs
    (d := { App.upServer with toIOTService := s.service }) rfl hss.2.1 upSdk [] 1000
    (fun _ => some DS_STATUS_CONNECTED) (by decide)
  exact ⟨j, s.service, d'.toIOTService, hjs.1, hss.2.2, hss.1, hss.1 ▸ hrestored⟩

end IOTClientJNI

end IotWrap
