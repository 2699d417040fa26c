/-
  File:      IotWrap/Agreement.lean
  Subject:   What the server has of the applications, on every run of `Applications`.

  * `Agree`: of a process that lives, the request in flight is the one it waits for, its
    proxy is the only client it owns, and that client follows what was sent;
  * `sound_reach`: one request for each process, and the server agrees with all that live.
-/
import IotWrap.Applications
import IotWrap.Followers

namespace IotWrap

open Lib

namespace Sessions

open IOTService

/-! ## 1. What a step of the server leaves of a client -/

/-- **The followers of a property** after a request was served. -/
theorem mem_key_serve {s : State} (hs : Proper s.service) (p : ProcId) (r : Request)
    (c : ClientId) (k : String8) :
    c ∈ stored (serve s p r).service.m_keyFollow k ↔
      c ∈ stored s.service.m_keyFollow k ∨ ∃ key, r = .followProperty c key ∧ cstr key = k := by
  by_cases hr : ∃ c' key, r = .followProperty c' key
  · obtain ⟨c', key, rfl⟩ := hr
    refine (mem_stored_addTo hs.keyNull (cstr key) k c' c).trans (or_congr_right ⟨?_, ?_⟩)
    · intro h
      exact ⟨key, by rw [h.2], h.1⟩
    · intro h
      obtain ⟨key', he, hk⟩ := h
      injection he with hc hkey
      exact ⟨hkey ▸ hk, hc.symm⟩
  · have hk : (serve s p r).service.m_keyFollow = s.service.m_keyFollow := by
      cases r with
      | followProperty c' key => exact absurd ⟨c', key, rfl⟩ hr
      | followCommand c' cmd => rfl
      | createClient name => exact (serve_maps s p _ (by simp) (by simp)).1
      | registCommandCB c' cb => exact (serve_maps s p _ (by simp) (by simp)).1
      | registPropertyCB c' cb => exact (serve_maps s p _ (by simp) (by simp)).1
    rw [hk]
    exact (or_iff_left fun h => hr ⟨c, h.imp fun _ h => h.1⟩).symm

/-- **The followers of a command** after a request was served. -/
theorem mem_cmd_serve {s : State} (hs : Proper s.service) (p : ProcId) (r : Request)
    (c : ClientId) (k : String8) :
    c ∈ stored (serve s p r).service.m_cmdFollow k ↔
      c ∈ stored s.service.m_cmdFollow k ∨ ∃ cmd, r = .followCommand c cmd ∧ cstr cmd = k := by
  by_cases hr : ∃ c' cmd, r = .followCommand c' cmd
  · obtain ⟨c', cmd, rfl⟩ := hr
    refine (mem_stored_addTo hs.cmdNull (cstr cmd) k c' c).trans (or_congr_right ⟨?_, ?_⟩)
    · intro h
      exact ⟨cmd, by rw [h.2], h.1⟩
    · intro h
      obtain ⟨cmd', he, hk⟩ := h
      injection he with hc hcmd
      exact ⟨hcmd ▸ hk, hc.symm⟩
  · have hk : (serve s p r).service.m_cmdFollow = s.service.m_cmdFollow := by
      cases r with
      | followCommand c' cmd => exact absurd ⟨c', cmd, rfl⟩ hr
      | followProperty c' key => rfl
      | createClient name => exact (serve_maps s p _ (by simp) (by simp)).2
      | registCommandCB c' cb => exact (serve_maps s p _ (by simp) (by simp)).2
      | registPropertyCB c' cb => exact (serve_maps s p _ (by simp) (by simp)).2
    rw [hk]
    exact (or_iff_left fun h => hr ⟨c, h.imp fun _ h => h.1⟩).symm

/-- **Every list holds a follower once**, on every run. -/
theorem distinct_reach {C : State → Label → Prop} {s : State} (h : machine.Reach C s) :
    Distinct s.service.m_keyFollow ∧ Distinct s.service.m_cmdFollow := by
  refine h.inv_of (J := Sound)
    (I := fun s => Distinct s.service.m_keyFollow ∧ Distinct s.service.m_cmdFollow)
    (fun s => sound_reach) ?_ ?_
  · intro s h0
    obtain rfl : s = init := h0
    have hnil : ∀ k, stored ({} : FollowMap) k = [] := fun k => by simp [stored]
    exact ⟨fun k => hnil k ▸ List.nodup_nil, fun k => hnil k ▸ List.nodup_nil⟩
  · intro s l hs hI _ _
    cases l with
    | serve p r =>
      cases r with
      | followProperty c key => exact ⟨distinct_addTo hs.proper.keyNull hI.1 _ c, hI.2⟩
      | followCommand c cmd => exact ⟨hI.1, distinct_addTo hs.proper.cmdNull hI.2 _ c⟩
      | createClient name =>
        obtain ⟨hk, hc⟩ := serve_maps { s with sent := s.sent.erase (p, .createClient name) } p
          (.createClient name) (by simp) (by simp)
        exact ⟨hk ▸ hI.1, hc ▸ hI.2⟩
      | registCommandCB c cb =>
        obtain ⟨hk, hc⟩ := serve_maps { s with sent := s.sent.erase (p, .registCommandCB c cb) } p
          (.registCommandCB c cb) (by simp) (by simp)
        exact ⟨hk ▸ hI.1, hc ▸ hI.2⟩
      | registPropertyCB c cb =>
        obtain ⟨hk, hc⟩ := serve_maps { s with sent := s.sent.erase (p, .registPropertyCB c cb) } p
          (.registPropertyCB c cb) (by simp) (by simp)
        exact ⟨hk ▸ hI.1, hc ▸ hI.2⟩
    | notify c =>
      have e := removeClient_eq s.service c
      simp only [machine, next, binderDied, e]
      exact ⟨distinct_dropFrom hI.1 c, distinct_dropFrom hI.2 c⟩
    | send p r => exact hI
    | insert p name => exact hI
    | die p => exact hI

/-- Only the size test of `createClient` adds to the clients that will be inserted. -/
theorem tested_serve (s : State) (p : ProcId) (r : Request) :
    (serve s p r).tested = s.tested ∨ ∃ name, s.service.hasSlot = true ∧
      r = .createClient name ∧ (serve s p r).tested = s.tested ++ [(p, name)] := by
  cases r with
  | createClient name =>
    simp only [serve]
    split
    case isTrue hs => exact .inr ⟨name, hs, rfl, rfl⟩
    case isFalse => exact .inl rfl
  | registPropertyCB c cb =>
    rcases serve_registPropertyCB s p c cb with e | ⟨links, -, e⟩
    · exact .inl (by rw [e])
    · exact .inl (by rw [e])
  | _ => exact .inl rfl

end Sessions

namespace Applications

open IOTService
open Callback (Kind)

/-! ## 2. What the server has of a process -/

/-- The process waits for the answer to the request. -/
def Process.Asks (P : Process) : Sessions.Request → Prop
  | .createClient _ => P.pc = .creating
  | .followProperty c key =>
    P.pc = .properties ∧ P.jni.m_proxy = some c ∧
      (P.jni.m_propertyList[P.keys]?).map (fun q => q._key) = some key
  | .followCommand c cmd =>
    P.pc = .commands ∧ P.jni.m_proxy = some c ∧ P.jni.m_commandList[P.cmds]? = some cmd
  | .registCommandCB c cmdCB =>
    P.pc = .registerCommand ∧ P.jni.m_proxy = some c ∧ cmdCB.isSome = true
  | .registPropertyCB c _ => P.pc = .registerProperty ∧ P.jni.m_proxy = some c

theorem Process.asks_of_request {P : Process} {r : Sessions.Request} (h : P.request = some r) :
    P.Asks r := by
  unfold Process.request at h
  cases hpc : P.pc with
  | creating =>
    rw [hpc, Option.some.injEq] at h
    exact h ▸ hpc
  | properties =>
    rw [hpc] at h
    obtain ⟨c, hc, h⟩ := Option.bind_eq_some_iff.mp h
    obtain ⟨q, hq, rfl⟩ := Option.map_eq_some_iff.mp h
    exact ⟨hpc, hc, by rw [hq]; rfl⟩
  | commands =>
    rw [hpc] at h
    obtain ⟨c, hc, h⟩ := Option.bind_eq_some_iff.mp h
    obtain ⟨cmd, hcmd, rfl⟩ := Option.map_eq_some_iff.mp h
    exact ⟨hpc, hc, hcmd⟩
  | registerCommand =>
    rw [hpc] at h
    obtain ⟨c, hc, rfl⟩ := Option.map_eq_some_iff.mp h
    exact ⟨hpc, hc, rfl⟩
  | registerProperty =>
    rw [hpc] at h
    obtain ⟨c, hc, rfl⟩ := Option.map_eq_some_iff.mp h
    exact ⟨hpc, hc⟩
  | idle => rw [hpc] at h; cases h
  | created => rw [hpc] at h; cases h
  | between => rw [hpc] at h; cases h

/-- Where `connService` makes a request of this kind. -/
def placeOf : Sessions.Request → ConnPc
  | .createClient _ => .creating
  | .followProperty _ _ => .properties
  | .followCommand _ _ => .commands
  | .registCommandCB _ _ => .registerCommand
  | .registPropertyCB _ _ => .registerProperty

theorem Process.Asks.place {P : Process} {r : Sessions.Request} (h : P.Asks r) :
    P.pc = placeOf r := by
  cases r with
  | createClient name => exact h
  | followProperty c key => exact h.1
  | followCommand c cmd => exact h.1
  | registCommandCB c cb => exact h.1
  | registPropertyCB c cb => exact h.1

/-- Nothing is asked before the call and between its parts. -/
theorem Process.not_asks {P : Process} (h : P.pc = .idle ∨ P.pc = .created ∨ P.pc = .between)
    (r : Sessions.Request) : ¬ P.Asks r := by
  intro ha
  rw [ha.place] at h
  cases r <;> rcases h with h | h | h <;> cases h

/-- The registration of this kind is behind the process. -/
def Past : Kind → ConnPc → Prop
  | .command, .registerProperty | .command, .idle | .property, .idle => True
  | _, _ => False

/-- A loop of `_postFollow` that begins or ends has no registration behind it. -/
theorem Process.proceed_cases {P : Process} (h : P.Proceeds) :
    ∃ pc, P.proceed = { P with pc := pc } ∧ ∀ kind, ¬ Past kind pc := by
  unfold Process.Proceeds at h
  unfold Process.proceed
  have hnot : ∀ pc : ConnPc, pc ≠ .registerProperty → pc ≠ .idle → ∀ kind, ¬ Past kind pc := by
    intro pc hr hi kind hpast
    cases kind <;> cases pc <;> first | exact hpast | exact hr rfl | exact hi rfl
  cases hpc : P.pc with
  | created => exact ⟨.properties, rfl, hnot _ (by decide) (by decide)⟩
  | properties => exact ⟨.between, rfl, hnot _ (by decide) (by decide)⟩
  | between => exact ⟨.commands, rfl, hnot _ (by decide) (by decide)⟩
  | commands => exact ⟨.registerCommand, rfl, hnot _ (by decide) (by decide)⟩
  | idle => rw [hpc] at h; exact h.elim
  | creating => rw [hpc] at h; exact h.elim
  | registerCommand => rw [hpc] at h; exact h.elim
  | registerProperty => rw [hpc] at h; exact h.elim

/-- **The server and a process that lives**: its request in flight is the one it waits
    for, its proxy is the only client it owns, and that client follows exactly the
    names that were sent. -/
structure Agree (s : Sessions.State) (p : ProcId) (P : Process) : Prop where
  asks : ∀ r, (p, r) ∈ s.sent → P.Asks r
  tested : ∀ name, (p, name) ∈ s.tested → P.pc = .creating
  unique : ∀ c < s.service.fresh, s.owner c = p → P.jni.m_proxy = some c
  proxy : ∀ c, P.jni.m_proxy = some c →
    c < s.service.fresh ∧ s.owner c = p ∧ c ∈ s.service.m_clients ∧ P.pc ≠ .creating
  posted : ∀ c, P.jni.m_proxy = some c → ∀ kind k,
    c ∈ stored (mapOf s.service kind) k ↔ k ∈ P.posted kind
  keys : P.keys ≤ P.jni.m_propertyList.length
  cmds : P.cmds ≤ P.jni.m_commandList.length

/-- A step of the server that is not about the process. -/
theorem Agree.server {s s' : Sessions.State} {p : ProcId} {P : Process} (h : Agree s p P)
    (hsent : ∀ r, (p, r) ∈ s'.sent → (p, r) ∈ s.sent)
    (htested : ∀ name, (p, name) ∈ s'.tested → (p, name) ∈ s.tested)
    (hmine : ∀ c, c < s'.service.fresh ∧ s'.owner c = p ↔ c < s.service.fresh ∧ s.owner c = p)
    (hclients : ∀ c, s.owner c = p → c ∈ s.service.m_clients → c ∈ s'.service.m_clients)
    (hstored : ∀ c < s.service.fresh, s.owner c = p → ∀ kind k,
      c ∈ stored (mapOf s'.service kind) k ↔ c ∈ stored (mapOf s.service kind) k) :
    Agree s' p P where
  asks r hr := h.asks r (hsent r hr)
  tested name hn := h.tested name (htested name hn)
  unique c hc ho := h.unique c ((hmine c).mp ⟨hc, ho⟩).1 ((hmine c).mp ⟨hc, ho⟩).2
  proxy c hc := by
    obtain ⟨hlt, ho, hm, hpc⟩ := h.proxy c hc
    exact ⟨((hmine c).mpr ⟨hlt, ho⟩).1, ((hmine c).mpr ⟨hlt, ho⟩).2, hclients c ho hm, hpc⟩
  posted c hc kind k := by
    obtain ⟨hlt, ho, -, -⟩ := h.proxy c hc
    rw [hstored c hlt ho]
    exact h.posted c hc kind k
  keys := h.keys
  cmds := h.cmds

/-- A step of the process that leaves its loops, its lists and its proxy alone. -/
theorem Agree.process {s : Sessions.State} {p : ProcId} {P P' : Process} (h : Agree s p P)
    (hproxy : P'.jni.m_proxy = P.jni.m_proxy) (hposted : P'.posted = P.posted)
    (hkeys : P'.keys ≤ P'.jni.m_propertyList.length)
    (hcmds : P'.cmds ≤ P'.jni.m_commandList.length)
    (hasks : ∀ r, P.Asks r → P'.Asks r)
    (htested : P.pc = .creating → P'.pc = .creating)
    (hpc : P.jni.m_proxy ≠ none → P.pc ≠ .creating → P'.pc ≠ .creating) : Agree s p P' where
  asks r hr := hasks r (h.asks r hr)
  tested name hn := htested (h.tested name hn)
  unique c hc ho := hproxy ▸ h.unique c hc ho
  proxy c hc := by
    rw [hproxy] at hc
    obtain ⟨hlt, ho, hm, hne⟩ := h.proxy c hc
    exact ⟨hlt, ho, hm, hpc (by rw [hc]; exact Option.some_ne_none c) hne⟩
  posted c hc := by
    rw [hposted]
    exact h.posted c (hproxy ▸ hc)
  keys := hkeys
  cmds := hcmds

theorem Agree.construct {s : Sessions.State} {p : ProcId} {P : Process} (h : Agree s p P)
    (clientID : String8) (o : ObjId) : Agree s p (P.construct clientID o) :=
  h.process rfl rfl h.keys h.cmds (fun r hr => by cases r <;> exact hr) id fun _ => id

/-- `IOTClientJNI::followProperty` adds to the end of the list, or does nothing. -/
theorem followProperty_list (j : IOTClientJNI) (jkey : String8) (type size : Int) :
    ∃ l, (j.followProperty jkey type size).2 =
      { j with m_propertyList := j.m_propertyList ++ l } := by
  have hnil : j = { j with m_propertyList := j.m_propertyList ++ [] } := by rw [List.append_nil]
  simp only [IOTClientJNI.followProperty]
  split
  · exact ⟨[], hnil⟩
  · split
    · exact ⟨[], hnil⟩
    · exact ⟨_, rfl⟩

theorem followCommand_list (j : IOTClientJNI) (jcmd : String8) :
    ∃ l, (j.followCommand jcmd).2 = { j with m_commandList := j.m_commandList ++ l } := by
  have hnil : j = { j with m_commandList := j.m_commandList ++ [] } := by rw [List.append_nil]
  simp only [IOTClientJNI.followCommand]
  split
  · exact ⟨[], hnil⟩
  · split
    · exact ⟨[], hnil⟩
    · exact ⟨_, rfl⟩

/-- **A follow of the application** is not sent by the loop that has ended. -/
theorem Agree.followProperty {s : Sessions.State} {p : ProcId} {P : Process} (h : Agree s p P)
    (hpc : P.pc ≠ .properties) (jkey : String8) (type size : Int) :
    Agree s p (P.followProperty jkey type size) := by
  obtain ⟨l, hl⟩ := followProperty_list P.jni jkey type size
  unfold Process.followProperty
  rw [hl]
  refine h.process rfl ?_ ?_ h.cmds (fun r hr => ?_) id fun _ => id
  · funext kind
    cases kind with
    | command => rfl
    | property => exact congrArg _ (List.take_append_of_le_length h.keys)
  · exact h.keys.trans (by simp)
  · cases r with
    | followProperty c key => exact absurd hr.1 hpc
    | _ => exact hr

theorem Agree.followCommand {s : Sessions.State} {p : ProcId} {P : Process} (h : Agree s p P)
    (hpc : P.pc ≠ .commands) (jcmd : String8) : Agree s p (P.followCommand jcmd) := by
  obtain ⟨l, hl⟩ := followCommand_list P.jni jcmd
  unfold Process.followCommand
  rw [hl]
  refine h.process rfl ?_ h.keys ?_ (fun r hr => ?_) id fun _ => id
  · funext kind
    cases kind with
    | command => exact congrArg _ (List.take_append_of_le_length h.cmds)
    | property => rfl
  · exact h.cmds.trans (by simp)
  · cases r with
    | followCommand c cmd => exact absurd hr.1 hpc
    | _ => exact hr

theorem Agree.connService {s : Sessions.State} {p : ProcId} {P : Process} (h : Agree s p P)
    (hpc : P.pc = .idle) (hproxy : P.jni.m_proxy = none) :
    Agree s p { P with pc := .creating } :=
  h.process rfl rfl h.keys h.cmds (fun r hr => absurd hr (P.not_asks (.inl hpc) r)) (fun _ => rfl)
    fun hn => absurd hproxy hn

theorem Agree.proceed {s : Sessions.State} {p : ProcId} {P : Process} (h : Agree s p P)
    (hp : P.Proceeds) : Agree s p P.proceed := by
  unfold Process.Proceeds at hp
  unfold Process.proceed
  cases hpc : P.pc with
  | created =>
    exact h.process rfl rfl h.keys h.cmds
      (fun r hr => absurd hr (P.not_asks (.inr (.inl hpc)) r)) (by simp [hpc]) (by simp)
  | between =>
    exact h.process rfl rfl h.keys h.cmds
      (fun r hr => absurd hr (P.not_asks (.inr (.inr hpc)) r)) (by simp [hpc]) (by simp)
  | properties =>
    rw [hpc] at hp
    refine h.process rfl rfl h.keys h.cmds (fun r hr => ?_) (by simp [hpc]) (by simp)
    -- the loop is at the end of its list, so no request is out
    cases r with
    | followProperty c key =>
      have hq := hr.2.2
      rw [List.getElem?_eq_none hp] at hq
      cases hq
    | _ => cases hpc.symm.trans hr.place
  | commands =>
    rw [hpc] at hp
    refine h.process rfl rfl h.keys h.cmds (fun r hr => ?_) (by simp [hpc]) (by simp)
    cases r with
    | followCommand c cmd =>
      have hq := hr.2.2
      rw [List.getElem?_eq_none hp] at hq
      cases hq
    | _ => cases hpc.symm.trans hr.place
  | idle => rw [hpc] at hp; exact hp.elim
  | creating => rw [hpc] at hp; exact hp.elim
  | registerCommand => rw [hpc] at hp; exact hp.elim
  | registerProperty => rw [hpc] at hp; exact hp.elim

/-! ## 3. The steps of the server -/

theorem mem_mapOf_serve {s : Sessions.State} (hs : Proper s.service) (q : ProcId)
    (r : Sessions.Request) (c : ClientId) (kind : Kind) (k : String8) :
    c ∈ stored (mapOf (Sessions.serve s q r).service kind) k ↔
      c ∈ stored (mapOf s.service kind) k ∨
        match kind with
        | .command => ∃ cmd, r = .followCommand c cmd ∧ cstr cmd = k
        | .property => ∃ key, r = .followProperty c key ∧ cstr key = k := by
  cases kind with
  | command => exact Sessions.mem_cmd_serve hs q r c k
  | property => exact Sessions.mem_key_serve hs q r c k

/-- A request of another process is served. -/
theorem Agree.serve_other {s : Sessions.State} {p q : ProcId} {P : Process} {r : Sessions.Request}
    (h : Agree s p P) (hs : Sessions.Sound s) (hr : (q, r) ∈ s.sent) (hne : p ≠ q) :
    Agree (Sessions.next s (.serve q r)) p P := by
  have hf := Sessions.serve_frame { s with sent := s.sent.erase (q, r) } q r
  refine h.server (fun r' hr' => ?_) (fun name hn => ?_) (fun c => ?_) (fun c _ hc => ?_)
    fun c _ ho kind k => ?_
  · rw [show (Sessions.next s (.serve q r)).sent = s.sent.erase (q, r) from hf.sent] at hr'
    exact List.mem_of_mem_erase hr'
  · change (p, name) ∈ (Sessions.serve { s with sent := s.sent.erase (q, r) } q r).tested at hn
    rcases Sessions.tested_serve { s with sent := s.sent.erase (q, r) } q r with e | ⟨_, -, -, e⟩
    · exact e ▸ hn
    · rw [e] at hn
      exact (List.mem_append.mp hn).resolve_right fun h => hne
        (congrArg Prod.fst (List.mem_singleton.mp h))
  · rw [show (Sessions.next s (.serve q r)).service.fresh = s.service.fresh from hf.fresh,
      show (Sessions.next s (.serve q r)).owner = s.owner from hf.owner]
  · rw [show (Sessions.next s (.serve q r)).service.m_clients = s.service.m_clients from hf.clients]
    exact hc
  · refine (mem_mapOf_serve (s := { s with sent := s.sent.erase (q, r) }) hs.proper q r c kind k).trans
      (or_iff_left fun hnew => hne ?_)
    have hown : c ∈ r.client := by
      cases kind with
      | command =>
        obtain ⟨cmd, rfl, -⟩ := hnew
        exact rfl
      | property =>
        obtain ⟨key, rfl, -⟩ := hnew
        exact rfl
    exact ho.symm.trans (hs.sent _ hr c hown).2

/-- `createClient` changes at most where the process is. -/
theorem Process.replied_createClient (P : Process) (slot : Bool) (name : String8) :
    ∃ pc, P.replied slot (.createClient name) = { P with pc := pc } := by
  cases slot with
  | true => exact ⟨P.pc, rfl⟩
  | false => exact ⟨.idle, rfl⟩

theorem Process.replied_jni (P : Process) (slot : Bool) (r : Sessions.Request) :
    (P.replied slot r).jni = P.jni := by
  cases r with
  | createClient name =>
    obtain ⟨pc, e⟩ := P.replied_createClient slot name
    rw [e]
  | _ => rfl

/-- **What an answer adds** to the names that were sent. -/
theorem Process.posted_replied {P : Process} {r : Sessions.Request} (h : P.Asks r) (slot : Bool)
    {c : ClientId} (hc : P.jni.m_proxy = some c) (kind : Kind) (k : String8) :
    k ∈ (P.replied slot r).posted kind ↔ k ∈ P.posted kind ∨
      match kind with
      | .command => ∃ cmd, r = .followCommand c cmd ∧ cstr cmd = k
      | .property => ∃ key, r = .followProperty c key ∧ cstr key = k := by
  cases r with
  | followProperty c' key =>
    obtain ⟨-, hc', hq⟩ := h
    obtain rfl : c' = c := Option.some.inj (hc'.symm.trans hc)
    obtain ⟨q, hget, rfl⟩ := Option.map_eq_some_iff.mp hq
    cases kind with
    | command =>
      refine (or_iff_left fun h => ?_).symm
      obtain ⟨cmd, he, -⟩ := h
      cases he
    | property =>
      show k ∈ (P.jni.m_propertyList.take (P.keys + 1)).map (fun q => cstr q._key) ↔ _
      rw [List.take_add_one, hget, List.map_append, List.mem_append]
      refine or_congr_right ⟨fun hk => ⟨q._key, rfl, (List.mem_singleton.mp hk).symm⟩, fun hk => ?_⟩
      obtain ⟨key, he, hk⟩ := hk
      injection he with _ hkey
      exact List.mem_singleton.mpr (hk ▸ congrArg cstr hkey.symm)
  | followCommand c' cmd =>
    obtain ⟨-, hc', hq⟩ := h
    obtain rfl : c' = c := Option.some.inj (hc'.symm.trans hc)
    cases kind with
    | command =>
      show k ∈ (P.jni.m_commandList.take (P.cmds + 1)).map cstr ↔ _
      rw [List.take_add_one, hq, List.map_append, List.mem_append]
      refine or_congr_right ⟨fun hk => ⟨cmd, rfl, (List.mem_singleton.mp hk).symm⟩, fun hk => ?_⟩
      obtain ⟨cmd', he, hk⟩ := hk
      injection he with _ hcmd
      exact List.mem_singleton.mpr (hk ▸ congrArg cstr hcmd.symm)
    | property =>
      refine (or_iff_left fun h => ?_).symm
      obtain ⟨key, he, -⟩ := h
      cases he
  | createClient name =>
    obtain ⟨pc, e⟩ := P.replied_createClient slot name
    rw [e]
    refine (or_iff_left fun h => ?_).symm
    cases kind <;> obtain ⟨_, he, -⟩ := h <;> cases he
  | registCommandCB c' cb =>
    refine (or_iff_left fun h => ?_).symm
    cases kind <;> obtain ⟨_, he, -⟩ := h <;> cases he
  | registPropertyCB c' cb =>
    refine (or_iff_left fun h => ?_).symm
    cases kind <;> obtain ⟨_, he, -⟩ := h <;> cases he

/-- **The process's own request is served.** -/
theorem Agree.serve_own {s : Sessions.State} {p : ProcId} {P : Process} {r : Sessions.Request}
    (h : Agree s p P) (hs : Sessions.Sound s) (hr : (p, r) ∈ s.sent)
    (hone : ∀ r', (p, r') ∉ s.sent.erase (p, r)) (hnone : ∀ name, (p, name) ∉ s.tested) :
    Agree (Sessions.next s (.serve p r)) p (P.replied s.service.hasSlot r) := by
  have ha : P.Asks r := h.asks r hr
  have hf := Sessions.serve_frame { s with sent := s.sent.erase (p, r) } p r
  have hfresh : (Sessions.next s (.serve p r)).service.fresh = s.service.fresh := hf.fresh
  have howner : (Sessions.next s (.serve p r)).owner = s.owner := hf.owner
  refine ⟨fun r' hr' => ?_, fun name hn => ?_, ?_, ?_, ?_, ?_, ?_⟩
  · rw [show (Sessions.next s (.serve p r)).sent = s.sent.erase (p, r) from hf.sent] at hr'
    exact absurd hr' (hone r')
  · change (p, name) ∈ (Sessions.serve { s with sent := s.sent.erase (p, r) } p r).tested at hn
    rcases Sessions.tested_serve { s with sent := s.sent.erase (p, r) } p r with
      e | ⟨name', hslot, rfl, e⟩
    · exact absurd (e ▸ hn) (hnone name)
    · have hpos : s.service.hasSlot = true := hslot
      rw [hpos]
      exact ha
  · rw [hfresh, howner, P.replied_jni]
    exact h.unique
  · intro c hc
    rw [P.replied_jni] at hc
    obtain ⟨hlt, ho, hm, hpc⟩ := h.proxy c hc
    refine ⟨hfresh ▸ hlt, howner ▸ ho, ?_, ?_⟩
    · rw [show (Sessions.next s (.serve p r)).service.m_clients = s.service.m_clients from
        hf.clients]
      exact hm
    · cases r with
      | createClient name => exact absurd ha hpc
      | followProperty c key => exact hpc
      | followCommand c cmd => exact hpc
      | registCommandCB c cb => exact fun he => by cases he
      | registPropertyCB c cb => exact fun he => by cases he
  · intro c hc kind k
    rw [P.replied_jni] at hc
    rw [Process.posted_replied ha _ hc kind k, ← h.posted c hc kind k]
    exact mem_mapOf_serve (s := { s with sent := s.sent.erase (p, r) }) hs.proper p r c kind k
  · rw [P.replied_jni]
    cases r with
    | followProperty c key =>
      obtain ⟨-, -, hq⟩ := ha
      obtain ⟨q, hget, -⟩ := Option.map_eq_some_iff.mp hq
      exact (List.getElem?_eq_some_iff.mp hget).1
    | createClient name =>
      obtain ⟨pc, e⟩ := P.replied_createClient s.service.hasSlot name
      rw [e]
      exact h.keys
    | _ => exact h.keys
  · rw [P.replied_jni]
    cases r with
    | followCommand c cmd => exact (List.getElem?_eq_some_iff.mp ha.2.2).1
    | createClient name =>
      obtain ⟨pc, e⟩ := P.replied_createClient s.service.hasSlot name
      rw [e]
      exact h.cmds
    | _ => exact h.cmds

/-- A client of another process is inserted. -/
theorem Agree.insert_other {s : Sessions.State} {p q : ProcId} {P : Process} {name : String8}
    (h : Agree s p P) (hne : p ≠ q) : Agree (Sessions.next s (.insert q name)) p P := by
  refine h.server (fun _ => id) (fun _ hn => List.mem_of_mem_erase hn) (fun c => ?_)
    (fun c _ hc => List.mem_append_left _ hc) fun c _ _ kind k => by cases kind <;> exact Iff.rfl
  show c < s.service.fresh + 1 ∧ Function.update s.owner s.service.fresh q c = p ↔ _
  by_cases hc : c = s.service.fresh
  · rw [hc, Function.update_self]
    exact ⟨fun hq => absurd hq.2.symm hne, fun hq => absurd hq.1 (Nat.lt_irrefl _)⟩
  · rw [Function.update_of_ne hc]
    exact and_congr_left fun _ => Nat.lt_succ_iff_lt_or_eq.trans (or_iff_left hc)

/-- **The process's client is inserted.** -/
theorem Agree.insert_own {s : Sessions.State} {p : ProcId} {P : Process} {name : String8}
    (h : Agree s p P) (hs : Sessions.Sound s) (hn : (p, name) ∈ s.tested)
    (hnone : ∀ r, (p, r) ∉ s.sent) (hone : ∀ name', (p, name') ∉ s.tested.erase (p, name)) :
    Agree (Sessions.next s (.insert p name)) p (P.connected s.service.fresh) := by
  have hproxy : P.jni.m_proxy = none := by
    cases hc : P.jni.m_proxy with
    | none => rfl
    | some c => exact absurd (h.tested name hn) (h.proxy c hc).2.2.2
  have hold : ∀ c, ¬ (c < s.service.fresh ∧ s.owner c = p) := fun c hc => by
    have := h.unique c hc.1 hc.2
    rw [hproxy] at this
    cases this
  refine ⟨fun r hr => absurd hr (hnone r), fun name' hn' => absurd hn' (hone name'), ?_, ?_, ?_,
    Nat.zero_le _, Nat.zero_le _⟩
  · intro c hlt ho
    replace hlt : c < s.service.fresh + 1 := hlt
    replace ho : Function.update s.owner s.service.fresh p c = p := ho
    by_cases hc : c = s.service.fresh
    · exact congrArg some hc.symm
    · rw [Function.update_of_ne hc] at ho
      exact absurd ⟨(Nat.lt_succ_iff_lt_or_eq.mp hlt).resolve_right hc, ho⟩ (hold c)
  · intro c hc
    obtain rfl : s.service.fresh = c := Option.some.inj hc
    refine ⟨Nat.lt_succ_self _, Function.update_self .., ?_, fun he => by cases he⟩
    exact List.mem_append_right _ List.mem_cons_self
  · intro c hc kind k
    obtain rfl : s.service.fresh = c := Option.some.inj hc
    -- the new client follows nothing, and nothing was sent
    have hnew : s.service.fresh ∉ stored (mapOf s.service kind) k := fun hm => by
      cases kind with
      | command => exact Nat.lt_irrefl _ (hs.proper.cmdOld k _ hm)
      | property => exact Nat.lt_irrefl _ (hs.proper.keyOld k _ hm)
    have hnil : (P.connected s.service.fresh).posted kind = [] := by cases kind <;> rfl
    rw [hnil]
    cases kind <;> exact ⟨fun hm => absurd hm hnew, fun hm => absurd hm List.not_mem_nil⟩

/-- **Another process's client is removed.** -/
theorem Agree.notify {s : Sessions.State} {p : ProcId} {P : Process} {c : ClientId}
    (h : Agree s p P) (hne : s.owner c ≠ p) : Agree (Sessions.next s (.notify c)) p P := by
  have e := Sessions.removeClient_eq s.service c
  simp only [Sessions.next, Sessions.binderDied, e]
  have hmem : ∀ c', s.owner c' = p → ∀ l : List ClientId, c' ∈ l.erase c ↔ c' ∈ l :=
    fun c' ho l => List.mem_erase_of_ne fun he => hne (he ▸ ho)
  refine h.server (fun _ => id) (fun _ => id) (fun _ => Iff.rfl)
    (fun c' ho hm => (hmem c' ho _).mpr hm) fun c' _ ho kind k => ?_
  cases kind with
  | command =>
    show c' ∈ stored (dropFrom s.service.m_cmdFollow c) k ↔ _
    rw [Sessions.stored_dropFrom]
    exact hmem c' ho _
  | property =>
    show c' ∈ stored (dropFrom s.service.m_keyFollow c) k ↔ _
    rw [Sessions.stored_dropFrom]
    exact hmem c' ho _

/-! ## 4. Every run -/

theorem told_server (w : World) (l : Sessions.Label) : (told w l).server = w.server := by
  cases l with
  | serve p r => exact apply_ite World.server .. |>.trans (ite_self _)
  | insert p name => exact apply_ite World.server .. |>.trans (ite_self _)
  | _ => rfl

/-- What a step of the server tells a process, and no other. -/
theorem told_process (w : World) (l : Sessions.Label) (p : ProcId) :
    (told w l).process p = match l with
      | .serve q r =>
        if p = q ∧ q ∉ w.server.dead then (w.process p).replied w.server.service.hasSlot r
        else w.process p
      | .insert q _ =>
        if p = q ∧ q ∉ w.server.dead then (w.process p).connected w.server.service.fresh
        else w.process p
      | _ => w.process p := by
  cases l with
  | serve q r =>
    simp only [told]
    by_cases hd : q ∈ w.server.dead
    · rw [if_pos hd, if_neg fun h => h.2 hd]
    · rw [if_neg hd]
      by_cases hp : p = q
      · subst hp
        rw [if_pos ⟨rfl, hd⟩]
        exact Function.update_self ..
      · rw [if_neg fun h => hp h.1]
        exact Function.update_of_ne hp ..
  | insert q name =>
    simp only [told]
    by_cases hd : q ∈ w.server.dead
    · rw [if_pos hd, if_neg fun h => h.2 hd]
    · rw [if_neg hd]
      by_cases hp : p = q
      · subst hp
        rw [if_pos ⟨rfl, hd⟩]
        exact Function.update_self ..
      · rw [if_neg fun h => hp h.1]
        exact Function.update_of_ne hp ..
  | _ => rfl

/-- **The server's part of a run** is a run of the server. -/
theorem server_reach {C : World → Label → Prop} {w : World} (h : machine.Reach C w) :
    Sessions.machine.Reachable w.server := by
  refine Machine.Reach.simulate World.server (fun w h0 => ?_) (fun w l _ he => ?_) h
  · obtain rfl : w = World.init := h0
    rfl
  · cases l with
    | server l => exact .inr ⟨l, trivial, he.1, rfl⟩
    | _ => exact .inl rfl

/-- **One request for each process**, and the server agrees with those that live. -/
structure Sound (w : World) : Prop where
  flight : w.inFlight.Nodup
  agree : ∀ p ∉ w.server.dead, Agree w.server p (w.process p)

theorem sound_init : Sound World.init where
  flight := List.nodup_nil
  agree _ _ :=
    ⟨fun _ hr => absurd hr List.not_mem_nil, fun _ hn => absurd hn List.not_mem_nil,
      fun c hc => absurd hc (Nat.not_lt_zero c), fun _ hc => (nomatch hc), fun _ hc => (nomatch hc),
      Nat.le_refl 0, Nat.le_refl 0⟩

/-- The local steps of a process. -/
theorem Sound.set {w : World} (h : Sound w) {p : ProcId} {P : Process}
    (hP : p ∉ w.server.dead → Agree w.server p P) : Sound (w.set p P) := by
  refine ⟨h.flight, fun q hq => ?_⟩
  show Agree w.server q (Function.update w.process p P q)
  by_cases hqp : q = p
  · subst hqp
    rw [Function.update_self]
    exact hP hq
  · rw [Function.update_of_ne hqp]
    exact h.agree q hq

/-- Of a process in flight, the one request that is. -/
theorem Sound.sent_one {w : World} (h : Sound w) {p : ProcId} {r : Sessions.Request}
    (hr : (p, r) ∈ w.server.sent) :
    (∀ r', (p, r') ∉ w.server.sent.erase (p, r)) ∧ ∀ name, (p, name) ∉ w.server.tested := by
  obtain ⟨hsent, -, hdis⟩ := List.nodup_append.mp h.flight
  refine ⟨fun r' hr' => ?_, fun name hn => ?_⟩
  · have hperm := (List.perm_cons_erase hr).map Prod.fst
    have hnot : p ∉ (w.server.sent.erase (p, r)).map Prod.fst :=
      (List.nodup_cons.mp (hperm.nodup_iff.mp hsent)).1
    exact hnot (List.mem_map_of_mem hr')
  · exact hdis p (List.mem_map_of_mem hr) p (List.mem_map_of_mem hn) rfl

theorem Sound.tested_one {w : World} (h : Sound w) {p : ProcId} {name : String8}
    (hn : (p, name) ∈ w.server.tested) :
    (∀ name', (p, name') ∉ w.server.tested.erase (p, name)) ∧ ∀ r, (p, r) ∉ w.server.sent := by
  obtain ⟨-, htested, hdis⟩ := List.nodup_append.mp h.flight
  refine ⟨fun name' hn' => ?_, fun r hr => ?_⟩
  · have hperm := (List.perm_cons_erase hn).map Prod.fst
    have hnot : p ∉ (w.server.tested.erase (p, name)).map Prod.fst :=
      (List.nodup_cons.mp (hperm.nodup_iff.mp htested)).1
    exact hnot (List.mem_map_of_mem hn')
  · exact hdis p (List.mem_map_of_mem hr) p (List.mem_map_of_mem hn) rfl

/-- One request for each process, after a step of the server. -/
theorem Sound.flight_server {w : World} (h : Sound w) {l : Sessions.Label}
    (he : enabled w (.server l)) : (next w (.server l)).inFlight.Nodup := by
  cases l with
  | send p r =>
    have hp : p ∉ w.inFlight := he.2.2
    have hperm : ((w.server.sent ++ [(p, r)]).map Prod.fst ++ w.server.tested.map Prod.fst).Perm
        (p :: w.inFlight) := by
      rw [List.map_append, List.append_assoc]
      exact List.perm_middle
    exact hperm.nodup_iff.mpr (List.nodup_cons.mpr ⟨hp, h.flight⟩)
  | serve p r =>
    have hsub : ((w.server.sent.erase (p, r)).map Prod.fst ++ w.server.tested.map Prod.fst).Sublist
        w.inFlight := (List.erase_sublist.map _).append (List.Sublist.refl _)
    have hf := Sessions.serve_frame { w.server with sent := w.server.sent.erase (p, r) } p r
    show (List.map Prod.fst (Sessions.serve _ p r).sent ++
      List.map Prod.fst (Sessions.serve _ p r).tested).Nodup
    rw [hf.sent]
    rcases Sessions.tested_serve { w.server with sent := w.server.sent.erase (p, r) } p r with
      e | ⟨name, -, rfl, e⟩
    · rw [e]
      exact hsub.nodup h.flight
    · -- the process goes from one list to the other
      rw [e, List.map_append, ← List.append_assoc]
      have hperm := (List.perm_cons_erase he.1).map Prod.fst
      have hall : ((w.server.sent.erase (p, .createClient name)).map Prod.fst ++
          w.server.tested.map Prod.fst ++ [p]).Perm w.inFlight :=
        (List.perm_append_singleton p _).trans (hperm.symm.append_right _)
      exact hall.nodup_iff.mpr h.flight
  | insert p name =>
    exact ((List.Sublist.refl _).append (List.erase_sublist.map _)).nodup h.flight
  | die p => exact h.flight
  | notify c => exact h.flight

/-- **The server agrees with a process that lives**, after a step of it. -/
theorem Sound.agree_server {w : World} (hs : Sessions.Sound w.server) (h : Sound w)
    {l : Sessions.Label} (he : enabled w (.server l)) (p : ProcId)
    (hp : p ∉ (Sessions.next w.server l).dead) :
    Agree (Sessions.next w.server l) p ((told w l).process p) := by
  rw [told_process]
  cases l with
  | send q r =>
    have hA := h.agree p hp
    refine { hA with asks := fun r' hr' => ?_ }
    rcases List.mem_append.mp hr' with hr' | hr'
    · exact hA.asks r' hr'
    · obtain ⟨rfl, rfl⟩ := Prod.mk.injEq .. ▸ List.mem_singleton.mp hr'
      exact Process.asks_of_request he.2.1
  | serve q r =>
    have hf := Sessions.serve_frame { w.server with sent := w.server.sent.erase (q, r) } q r
    have hlive : p ∉ w.server.dead :=
      (show (Sessions.next w.server (.serve q r)).dead = w.server.dead from hf.dead) ▸ hp
    by_cases hpq : p = q
    · subst hpq
      obtain ⟨hone, hnone⟩ := h.sent_one he.1
      simp only [hlive, not_false_eq_true, and_self, if_true]
      exact (h.agree p hlive).serve_own hs he.1 hone hnone
    · simp only [hpq, false_and, if_false]
      exact (h.agree p hlive).serve_other hs he.1 hpq
  | insert q name =>
    have hlive : p ∉ w.server.dead := hp
    by_cases hpq : p = q
    · subst hpq
      obtain ⟨hone, hnone⟩ := h.tested_one he.1
      simp only [hlive, not_false_eq_true, and_self, if_true]
      exact (h.agree p hlive).insert_own hs he.1 hnone hone
    · simp only [hpq, false_and, if_false]
      exact (h.agree p hlive).insert_other hpq
  | die q =>
    have hA := h.agree p fun hd => hp (List.mem_cons_of_mem q hd)
    exact ⟨hA.asks, hA.tested, hA.unique, hA.proxy, hA.posted, hA.keys, hA.cmds⟩
  | notify c => exact (h.agree p hp).notify fun ho => hp (ho ▸ he.1.2)

theorem sound_step {w : World} {l : Label} (hs : Sessions.Sound w.server) (h : Sound w)
    (he : enabled w l) : Sound (next w l) := by
  cases l with
  | construct p clientID =>
    have hset : Sound (w.set p ((w.process p).construct clientID w.fresh)) :=
      h.set fun hp => (h.agree p hp).construct clientID w.fresh
    exact ⟨hset.flight, hset.agree⟩
  | followProperty p jkey type size =>
    exact h.set fun hp => (h.agree p hp).followProperty he.2.2 jkey type size
  | followCommand p jcmd => exact h.set fun hp => (h.agree p hp).followCommand he.2.2 jcmd
  | connService p => exact h.set fun hp => (h.agree p hp).connService he.2.2.1 he.2.2.2
  | proceed p => exact h.set fun hp => (h.agree p hp).proceed he.2
  | collect o => exact ⟨h.flight, h.agree⟩
  | server l => exact ⟨h.flight_server he, fun p hp => h.agree_server hs he p hp⟩

theorem sound_reach {C : World → Label → Prop} {w : World} (h : machine.Reach C w) : Sound w := by
  refine h.inv_of (I := Sound) (J := fun w => Sessions.Sound w.server)
    (fun w hw => Sessions.sound_reach (server_reach hw)) ?_ fun w l hs hI _ he => sound_step hs hI he
  intro w h0
  obtain rfl : w = World.init := h0
  exact sound_init

end Applications

end IotWrap
