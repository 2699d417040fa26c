/-
  File:      IotWrap/Reached.lean
  Subject:   Which Java objects a command, a property set and a control message of the
             server reach.

  * `dispatched_to`: what one dispatch calls in a process;
  * `message_to`: the same for a control message, from its text;
  * `one_object`: the object that a process registered is the only one of it that is
    called from then on.
-/
import IotWrap.Objects

namespace IotWrap

open Lib

namespace Applications

open IOTService
open Callback (Kind JavaCall JNIEnv)

/-! ## 1. What a dispatch calls -/

/-- Of a list without duplicates, the one element that gives something. -/
theorem filterMap_one {α β : Type} [DecidableEq α] {f : α → Option β} {a : α} {l : List α}
    (hl : l.Nodup) (h : ∀ b ∈ l, b ≠ a → f b = none) :
    l.filterMap f = if a ∈ l then (f a).toList else [] := by
  induction l with
  | nil => rfl
  | cons b l ih =>
    obtain ⟨hb, hl⟩ := List.nodup_cons.mp hl
    have ih := ih hl fun c hc => h c (List.mem_cons_of_mem b hc)
    by_cases hba : b = a
    · subst hba
      rw [if_neg hb] at ih
      rw [if_pos List.mem_cons_self]
      cases hf : f b with
      | none => rw [List.filterMap_cons_none hf, ih, Option.toList_none]
      | some j => rw [List.filterMap_cons_some hf, ih, Option.toList_some]
    · rw [List.filterMap_cons_none (h b List.mem_cons_self hba), ih]
      exact if_congr (by rw [List.mem_cons, or_iff_right (Ne.symm hba)]) rfl rfl

/-- The clients a dispatch goes through. -/
def asked (s : IOTService) (kind : Kind) (name : String8) : List ClientId :=
  match (mapOf s kind)[name]? with
  | none => s.m_clients.take 1
  | some none => []
  | some (some v_clients) => v_clients

theorem call_asked (s : IOTService) (kind : Kind) (name val : String8) :
    (s.call (mapOf s kind) (cbOf kind) name val).2 = s.callAll (cbOf kind) name val (asked s kind name) := by
  unfold call asked
  cases (mapOf s kind)[name]? with
  | none =>
    cases s.m_clients with
    | nil => rfl
    | cons c l => rfl
  | some v =>
    cases v with
    | none => rfl
    | some l => rfl

/-- They are clients that exist, each once. -/
theorem asked_sound {C : Sessions.State → Sessions.Label → Prop} {s : Sessions.State}
    (h : Sessions.machine.Reach C s) (kind : Kind) (name : String8) :
    (asked s.service kind name).Nodup ∧
      ∀ c ∈ asked s.service kind name, c < s.service.fresh := by
  have hs := Sessions.sound_reach h
  have hd := Sessions.distinct_reach h
  unfold asked
  cases hm : (mapOf s.service kind)[name]? with
  | none =>
    exact ⟨hs.nodup.sublist (List.take_sublist 1 _), fun c hc => hs.clients c (List.mem_of_mem_take hc)⟩
  | some v =>
    cases v with
    | none => exact ⟨List.nodup_nil, fun c hc => absurd hc List.not_mem_nil⟩
    | some l =>
      have hst := stored_of_get hm
      cases kind with
      | command => exact ⟨hst ▸ hd.2 name, fun c hc => hs.proper.cmdOld name c (hst ▸ hc)⟩
      | property => exact ⟨hst ▸ hd.1 name, fun c hc => hs.proper.keyOld name c (hst ▸ hc)⟩

/-- **Whether a process is addressed**: its client is among those. -/
theorem addressed_iff {w : World} (h : machine.Reachable w) {p : ProcId} (hp : p ∉ w.server.dead)
    {c : ClientId} (hc : (w.process p).jni.m_proxy = some c) (kind : Kind) (name : String8) :
    c ∈ asked w.server.service kind name ↔ w.Addressed p kind name := by
  have hs := Sessions.sound_reach (server_reach h)
  have hposted := ((sound_reach h).agree p hp).posted c hc kind name
  have hhead : (∃ c ∈ w.server.service.m_clients.head?, (w.process p).jni.m_proxy = some c) ↔
      c ∈ w.server.service.m_clients.head? := by
    rw [hc]
    constructor
    · intro hx
      obtain ⟨c', hc', he⟩ := hx
      exact Option.some.inj he ▸ hc'
    · exact fun hx => ⟨c, hx, rfl⟩
  unfold World.Addressed asked
  rw [← hposted, hhead]
  cases hm : (mapOf w.server.service kind)[name]? with
  | none =>
    have hst : stored (mapOf w.server.service kind) name = [] := by simp only [stored, hm]
    rw [hst]
    cases w.server.service.m_clients with
    | nil => simp
    | cons c' l => simp [eq_comm]
  | some v =>
    cases v with
    | none =>
      cases kind with
      | command => exact absurd hm (hs.proper.cmdNull name)
      | property => exact absurd hm (hs.proper.keyNull name)
    | some l =>
      rw [stored_of_get hm]
      simp

/-- What the calls of a name come to in a process: one call, of the object it registered,
    where the process lives and the name is addressed to it. -/
def World.reaches {α : Type} (w : World) (p : ProcId) (kind : Kind) (name : String8)
    (call : ObjId → Option α) : List α :=
  if p ∉ w.server.dead ∧ w.Addressed p kind name then ((w.registered p kind).bind call).toList
  else []

section Dispatch

variable {JString : Type}

/-- **What one client of the list adds**: its callback's object, where the client is
    the process's own. -/
theorem call_client {w : World} (hO : Objects w) (p : ProcId) (kind : Kind) (name val : String8)
    {call : ObjId → Option (JavaCall JString)} (hcall : ∀ o j, call o = some j → j.object = o)
    {c : ClientId} (hc : c < w.server.service.fresh) :
    ((((cbOf kind (w.server.service.client c)).map fun b => (⟨c, b, name, val⟩ : Invocation)).bind
      fun i => if w.gone i.cb then none else call i.cb).filter fun j =>
        decide (w.home j.object = p)) =
      if w.server.owner c = p ∧ p ∉ w.server.dead then
        (cbOf kind (w.server.service.client c)).bind call
      else none := by
  cases hcb : cbOf kind (w.server.service.client c) with
  | none => simp
  | some o =>
    obtain ⟨-, hhome⟩ := hO.client c hc kind o hcb
    simp only [Option.map_some, Option.bind_some, World.gone, hhome]
    by_cases hd : w.server.owner c ∈ w.server.dead
    · rw [if_pos (decide_eq_true hd), if_neg fun h => h.2 (h.1 ▸ hd)]
      rfl
    · rw [if_neg fun h => hd (of_decide_eq_true h)]
      cases hj : call o with
      | none => simp
      | some j =>
        rw [Option.filter_some, hcall o j hj, hhome]
        by_cases ho : w.server.owner c = p
        · simp [ho, ho ▸ hd]
        · simp [ho]

/-- **The calls of a name in one process**, whatever a call comes to in an object. -/
theorem callsIn_call {w : World} (h : machine.Reachable w) (p : ProcId) (kind : Kind)
    (name val : String8) {call : ObjId → Option (JavaCall JString)}
    (hcall : ∀ o j, call o = some j → j.object = o) :
    w.callsIn p ((w.server.service.call (mapOf w.server.service kind) (cbOf kind) name
      val).2.filterMap fun i => if w.gone i.cb then none else call i.cb) =
      w.reaches p kind name call := by
  have hO := objects_reach h
  obtain ⟨hnodup, hlt⟩ := asked_sound (server_reach h) kind name
  rw [call_asked]
  simp only [World.callsIn, callAll, List.filterMap_filterMap, List.filter_filterMap]
  rw [List.filterMap_congr fun c hc => call_client hO p kind name val hcall (hlt c hc)]
  unfold World.reaches
  by_cases hp : p ∈ w.server.dead
  · rw [if_neg fun hx => hx.1 hp, List.filterMap_eq_nil_iff.mpr fun c _ => if_neg fun hx => hx.2 hp]
  · have hA := (sound_reach h).agree p hp
    unfold World.registered
    cases hproxy : (w.process p).jni.m_proxy with
    | none =>
      -- the process owns no client
      have hnone : ∀ c ∈ asked w.server.service kind name, w.server.owner c ≠ p := fun c hc ho => by
        have hc' := hA.unique c (hlt c hc) ho
        rw [hproxy] at hc'
        cases hc'
      rw [List.filterMap_eq_nil_iff.mpr fun c hc => if_neg fun hx => hnone c hc hx.1]
      split <;> rfl
    | some c₀ =>
      rw [filterMap_one (a := c₀) hnodup fun c hc hne => if_neg fun hx =>
        hne (Option.some.inj ((hA.unique c (hlt c hc) hx.1).symm.trans hproxy))]
      simp only [(hA.proxy c₀ hproxy).2.1, hp, not_false_eq_true, and_self, if_true, true_and]
      exact if_congr (addressed_iff h hp hproxy kind name) rfl rfl

variable (env : JNIEnv JString) (get : ObjId → JString → Option JString)

/-- What a dispatch of two strings has to call in a process. -/
def World.callsFor (w : World) (p : ProcId) (kind : Kind) (name val : String8) :
    List (JavaCall JString) :=
  w.reaches p kind name (Callback.callOf env w.collected kind name val)

/-- What a poll of a key has to call in it. -/
def World.getsFor (w : World) (p : ProcId) (key : String8) : List (JavaCall JString) :=
  w.reaches p .property key (Callback.getOf env w.collected key)

/-- Of the calls of a list, each has the strings of the dispatch. -/
theorem callAll_strings {s : IOTService} {cb : IOTClient → Option CbId} {key val : String8}
    {l : List ClientId} {i : Invocation} (h : i ∈ s.callAll cb key val l) :
    i.key = key ∧ i.val = val := by
  obtain ⟨c, -, hi⟩ := List.mem_filterMap.mp h
  obtain ⟨b, -, rfl⟩ := Option.map_eq_some_iff.mp hi
  exact ⟨rfl, rfl⟩

/-- The calls of a dispatch in one process, either kind. -/
theorem callsIn_deliver {w : World} (h : machine.Reachable w) (p : ProcId) (kind : Kind)
    (name val : String8) :
    w.callsIn p (Callback.deliver env get w.gone kind
      (w.server.service.call (mapOf w.server.service kind) (cbOf kind) name val).2
      ⟨w.collected, []⟩).calls = w.callsFor env p kind name val := by
  refine Eq.trans ?_ (callsIn_call h p kind name val fun _ _ => Callback.callOf_object env)
  rw [Callback.calls_deliver, call_asked]
  refine congrArg (w.callsIn p) (List.filterMap_congr fun i hi => ?_)
  rw [(callAll_strings hi).1, (callAll_strings hi).2]

/-- A poll, and its calls in one process. -/
theorem callsIn_poll {w : World} (h : machine.Reachable w) (p : ProcId) (key : String8)
    (buf : Bytes) {size : Nat} (hsize : 0 < size) :
    (w.onPropertyGet env get key buf size).1 =
        w.server.service.callPropertyGet (w.answers env get) key buf size ∧
      w.callsIn p (w.onPropertyGet env get key buf size).2 = w.getsFor env p key := by
  unfold World.onPropertyGet
  rw [Callback.callPropertyGet_remote]
  refine ⟨rfl, ?_⟩
  show w.callsIn p ((w.server.service.callPropertyGetCalls key size).filterMap _) = _
  rw [callPropertyGetCalls, if_neg (Nat.not_le_of_lt hsize)]
  exact callsIn_call h p .property key [] fun _ _ => Callback.getOf_object env

end Dispatch

/-! ## 2. One object for a process -/

section Object

variable {JString : Type} (env : JNIEnv JString) (get : ObjId → JString → Option JString)

/-- The calls of one kind after the process was registered. -/
theorem reaches_after {w w' : World} (h : machine.Reachable w)
    (hr : (machine.after w).Reachable w') {p : ProcId} (hp : p ∉ w.server.dead) {kind : Kind}
    {o : ObjId} (ho : w.registered p kind = some o) {name : String8}
    {call : ObjId → Option (JavaCall JString)} (hcall : ∀ o j, call o = some j → j.object = o)
    {j : JavaCall JString} (hj : j ∈ w'.reaches p kind name call) : j.object = o := by
  obtain ⟨c, hc, hcb⟩ := Option.bind_eq_some_iff.mp ho
  obtain ⟨hlt, hown, -, -⟩ := ((sound_reach h).agree p hp).proxy c hc
  obtain ⟨hlt', hcb', hown'⟩ := client_after hr hlt hcb
  unfold World.reaches at hj
  split at hj
  case isTrue hx =>
    have hc' := ((sound_reach (h.after hr)).agree p hx.1).unique c hlt' (hown'.trans hown)
    rw [World.registered, hc', Option.bind_some, hcb', Option.bind_some] at hj
    exact hcall o j (Option.mem_toList.mp hj)
  case isFalse => cases hj

/-- **One object for a process**: when `connService` is through, the server has an
    object of the process for commands and one for properties, and on the rest of the run
    no other object of the process is called, whatever is constructed. -/
theorem one_object {w w' : World} (h : machine.Reachable w) (hr : (machine.after w).Reachable w')
    {p : ProcId} (hp : p ∉ w.server.dead) (hidle : (w.process p).pc = .idle)
    (hconn : (w.process p).jni.m_proxy ≠ none) :
    (∃ o, w.registered p .command = some o ∧ w.MadeIn o p ∧
      ∀ cmd data, ∀ j ∈ w'.callsIn p (w'.onCommand env get cmd data), j.object = o) ∧
    ∃ o, w.registered p .property = some o ∧ w.MadeIn o p ∧
      (∀ key val, ∀ j ∈ w'.callsIn p (w'.onPropertySet env get key val), j.object = o) ∧
      ∀ key buf size, 0 < size →
        ∀ j ∈ w'.callsIn p (w'.onPropertyGet env get key buf size).2, j.object = o := by
  obtain ⟨c, hc⟩ := Option.ne_none_iff_exists'.mp hconn
  obtain ⟨hlt, hown, -, -⟩ := ((sound_reach h).agree p hp).proxy c hc
  have hreg : ∀ kind, Past kind .idle → ∃ o, w.registered p kind = some o ∧ w.MadeIn o p := by
    intro kind hpast
    obtain ⟨o, ho⟩ := Option.ne_none_iff_exists'.mp (attached_reach h p hp c hc kind (hidle ▸ hpast))
    exact ⟨o, by rw [World.registered, hc, Option.bind_some, ho],
      hown ▸ (objects_reach h).client c hlt kind o ho⟩
  obtain ⟨o, ho, hmade⟩ := hreg .command trivial
  obtain ⟨o', ho', hmade'⟩ := hreg .property trivial
  refine ⟨⟨o, ho, hmade, fun cmd data j hj => ?_⟩, o', ho', hmade', fun key val j hj => ?_,
    fun key buf size hsize j hj => ?_⟩
  · have hcalls := callsIn_deliver env get (h.after hr) p .command cmd data
    exact reaches_after h hr hp ho (fun _ _ => Callback.callOf_object env) (hcalls ▸ hj)
  · have hcalls := callsIn_deliver env get (h.after hr) p .property key val
    exact reaches_after h hr hp ho' (fun _ _ => Callback.callOf_object env) (hcalls ▸ hj)
  · have hcalls := (callsIn_poll env get (h.after hr) p key buf hsize).2
    exact reaches_after h hr hp ho' (fun _ _ => Callback.getOf_object env) (hcalls ▸ hj)

/-- `one_object` for a process that makes its second object later. -/
theorem one_object_play : ∃ w w', machine.Reachable w ∧ (machine.after w).Reachable w' ∧
    w'.fresh = 2 ∧ ∃ o, w.registered 0 .command = some o ∧
      ∀ cmd data, ∀ j ∈ w'.callsIn 0 (w'.onCommand bytesEnv (fun _ _ => none) cmd data),
        j.object = o := by
  have h0 : machine.init World.init := rfl
  have hrun : (machine.run (fun _ _ => True) World.init playRun).map (fun w => decide
      (0 ∉ w.server.dead ∧ (w.process 0).pc = .idle ∧ (w.process 0).jni.m_proxy = some 0 ∧
        w.fresh = 1)) = some true := by decide
  obtain ⟨w, hw, hb⟩ := Machine.exists_of_run h0 hrun
  obtain ⟨hlive, hpc, hproxy, hfresh⟩ := of_decide_eq_true hb
  have hnext : (machine.after w).Reachable (next w (.construct 0 (lit "box"))) :=
    .step w (Label.construct 0 (lit "box")) (.init w rfl) trivial hlive
  obtain ⟨⟨o, ho, -, hall⟩, -⟩ := one_object bytesEnv (fun _ _ => none) hw hnext hlive hpc
    (by rw [hproxy]; exact Option.some_ne_none 0)
  exact ⟨w, _, hw, hnext, congrArg Nat.succ hfresh, o, ho, hall⟩

end Object

end Applications

end IotWrap
