/-
  File:      IotWrap/Sessions.lean
  Subject:   Client processes, their requests in flight, and their deaths, over
             the registry (jni/server/IOT_Service.cpp).

  A step is one section of a binder thread: the size test of `createClient`, its
  insertion under the lock, `addFollowing`, a registration, or `binderDied`
  with `removeClient`. A request is sent by a live process for a client of its
  own and is served at any later time, also after the process died.

  Of binder: a death recipient that was linked while its process was alive is
  notified once, after the death; linking to a dead process does nothing.

  * `serve_frame`, `serve_links`, `removeClient_eq`: what a step changes;
  * `sound_reach`: what holds on every run.
-/
import IotWrap.Client

namespace IotWrap

open Lib

/-- A client process. -/
abbrev ProcId := Nat

namespace Sessions

open IOTService

/-! ## 1. The machine -/

inductive Request where
  | createClient (name : String8) : Request
  | followProperty (c : ClientId) (key : String8) : Request
  | followCommand (c : ClientId) (cmd : String8) : Request
  | registCommandCB (c : ClientId) (cmdCB : Option CbId) : Request
  | registPropertyCB (c : ClientId) (proCB : CbId) : Request
  deriving DecidableEq, Repr

/-- The client object a request is made to. -/
def Request.client : Request → Option ClientId
  | createClient _ => none
  | followProperty c _ | followCommand c _ | registCommandCB c _ | registPropertyCB c _ => some c

structure State where
  service : IOTService
  /-- The process that created a client. -/
  owner : ClientId → ProcId
  dead : List ProcId
  /-- Requests sent and not served. -/
  sent : List (ProcId × Request)
  /-- `createClient` calls that passed the size test and did not insert. -/
  tested : List (ProcId × String8)
  /-- Death recipients that were linked and not notified. -/
  links : List ClientId

def init : State := ⟨IOTService.init, fun _ => 0, [], [], [], []⟩

inductive Label where
  | send (p : ProcId) (r : Request) : Label
  | serve (p : ProcId) (r : Request) : Label
  | insert (p : ProcId) (name : String8) : Label
  | die (p : ProcId) : Label
  | notify (c : ClientId) : Label
  deriving DecidableEq, Repr

/-- The client of a request exists and is the process's own. -/
def Owns (s : State) (p : ProcId) (r : Request) : Prop :=
  ∀ c ∈ r.client, c < s.service.fresh ∧ s.owner c = p

/-- The end of `registPropertyCB`: `linkToDeath`, which fails on a dead process. -/
def linkToDeath (s : State) (p : ProcId) (c : ClientId) : State :=
  if p ∈ s.dead then s else { s with links := s.links ++ [c] }

/-- A binder thread serves a request; of `createClient`, the size test. -/
def serve (s : State) (p : ProcId) : Request → State
  | .createClient name =>
    if s.service.hasSlot then { s with tested := s.tested ++ [(p, name)] } else s
  | .followProperty c key =>
    { s with service := (s.service.addFollowing FOLLOW_TYPE_PROPERTY (cstr key) c).2 }
  | .followCommand c cmd =>
    { s with service := (s.service.addFollowing FOLLOW_TYPE_COMMAND (cstr cmd) c).2 }
  | .registCommandCB c cmdCB => { s with service := (s.service.registCommandCB c cmdCB).2 }
  | .registPropertyCB c proCB =>
    if (s.service.client c).m_property ≠ none then s
    else linkToDeath { s with service := (s.service.setPropertyCB c proCB).2 } p c

/-- The section of `createClient` under the lock. -/
def insert (s : State) (p : ProcId) (name : String8) : State :=
  { s with
    service := (s.service.insertClient name).2
    owner := Function.update s.owner s.service.fresh p }

/-- `binderDied`. -/
def binderDied (s : State) (c : ClientId) : State :=
  { s with service := (s.service.removeClient c).2 }

def enabled (s : State) : Label → Prop
  | .send p r => p ∉ s.dead ∧ Owns s p r
  | .serve p r => (p, r) ∈ s.sent
  | .insert p name => (p, name) ∈ s.tested
  | .die p => p ∉ s.dead
  | .notify c => c ∈ s.links ∧ s.owner c ∈ s.dead

def next (s : State) : Label → State
  | .send p r => { s with sent := s.sent ++ [(p, r)] }
  | .serve p r => serve { s with sent := s.sent.erase (p, r) } p r
  | .insert p name => insert { s with tested := s.tested.erase (p, name) } p name
  | .die p => { s with dead := p :: s.dead }
  | .notify c => binderDied { s with links := s.links.erase c } c

def machine : Machine State Label where
  init s := s = init
  enabled := enabled
  next := next

instance (s : State) (p : ProcId) (r : Request) : Decidable (Owns s p r) :=
  inferInstanceAs (Decidable (∀ c ∈ r.client, _))

instance (s : State) (l : Label) : Decidable (machine.enabled s l) :=
  match l with
  | .send p r => inferInstanceAs (Decidable (p ∉ s.dead ∧ Owns s p r))
  | .serve p r => inferInstanceAs (Decidable ((p, r) ∈ s.sent))
  | .insert p name => inferInstanceAs (Decidable ((p, name) ∈ s.tested))
  | .die p => inferInstanceAs (Decidable (p ∉ s.dead))
  | .notify c => inferInstanceAs (Decidable (c ∈ s.links ∧ s.owner c ∈ s.dead))

/-! ## 2. What a step leaves alone -/

/-- The clients, who owns them, who died and what was sent are as before. -/
structure Frame (s s' : State) : Prop where
  clients : s'.service.m_clients = s.service.m_clients
  fresh : s'.service.fresh = s.service.fresh
  owner : s'.owner = s.owner
  dead : s'.dead = s.dead
  sent : s'.sent = s.sent

theorem addFollowing_frame (s : IOTService) (type : Int) (val : String8) (c : ClientId) :
    (s.addFollowing type val c).2.m_clients = s.m_clients ∧
      (s.addFollowing type val c).2.fresh = s.fresh := by
  unfold addFollowing
  split
  · exact ⟨rfl, rfl⟩
  · split <;> exact ⟨rfl, rfl⟩

theorem registCommandCB_frame (s : IOTService) (c : ClientId) (cmdCB : Option CbId) :
    (s.registCommandCB c cmdCB).2.m_clients = s.m_clients ∧
      (s.registCommandCB c cmdCB).2.fresh = s.fresh := by
  unfold registCommandCB
  split <;> exact ⟨rfl, rfl⟩

theorem setPropertyCB_frame (s : IOTService) (c : ClientId) (proCB : CbId) :
    (s.setPropertyCB c proCB).2.m_clients = s.m_clients ∧
      (s.setPropertyCB c proCB).2.fresh = s.fresh := by
  unfold setPropertyCB
  split <;> exact ⟨rfl, rfl⟩

/-- **What a property registration does**: nothing where the client has one, else
    the callback is set and the client of a live process linked. -/
theorem serve_registPropertyCB (s : State) (p : ProcId) (c : ClientId) (proCB : CbId) :
    serve s p (.registPropertyCB c proCB) = s ∨
      ∃ links, (links = s.links ∨ p ∉ s.dead ∧ links = s.links ++ [c]) ∧
        serve s p (.registPropertyCB c proCB) =
          { s with service := (s.service.setPropertyCB c proCB).2, links := links } := by
  simp only [serve, linkToDeath]
  split
  · exact .inl rfl
  · split
    · exact .inr ⟨s.links, .inl rfl, rfl⟩
    · rename_i hp
      exact .inr ⟨s.links ++ [c], .inr ⟨hp, rfl⟩, rfl⟩

/-- **Serving a request** leaves the client list alone. -/
theorem serve_frame (s : State) (p : ProcId) (r : Request) : Frame s (serve s p r) := by
  cases r with
  | createClient name =>
    simp only [serve]
    split <;> exact ⟨rfl, rfl, rfl, rfl, rfl⟩
  | followProperty c key =>
    obtain ⟨hc, hf⟩ := addFollowing_frame s.service FOLLOW_TYPE_PROPERTY (cstr key) c
    exact ⟨hc, hf, rfl, rfl, rfl⟩
  | followCommand c cmd =>
    obtain ⟨hc, hf⟩ := addFollowing_frame s.service FOLLOW_TYPE_COMMAND (cstr cmd) c
    exact ⟨hc, hf, rfl, rfl, rfl⟩
  | registCommandCB c cmdCB =>
    obtain ⟨hc, hf⟩ := registCommandCB_frame s.service c cmdCB
    exact ⟨hc, hf, rfl, rfl, rfl⟩
  | registPropertyCB c proCB =>
    rcases serve_registPropertyCB s p c proCB with e | ⟨links, -, e⟩
    · rw [e]
      exact ⟨rfl, rfl, rfl, rfl, rfl⟩
    · obtain ⟨hc, hf⟩ := setPropertyCB_frame s.service c proCB
      rw [e]
      exact ⟨hc, hf, rfl, rfl, rfl⟩

/-- **What serving adds to the links**: the client of a property registration,
    where its process lives. -/
theorem serve_links (s : State) (p : ProcId) (r : Request) :
    (serve s p r).links = s.links ∨
      ∃ c proCB, r = .registPropertyCB c proCB ∧ p ∉ s.dead ∧
        (serve s p r).links = s.links ++ [c] := by
  cases r with
  | createClient name =>
    refine .inl ?_
    simp only [serve]
    split <;> rfl
  | registPropertyCB c proCB =>
    rcases serve_registPropertyCB s p c proCB with e | ⟨links, hl | ⟨hp, hl⟩, e⟩
    · exact .inl (by rw [e])
    · exact .inl (by rw [e, hl])
    · exact .inr ⟨c, proCB, rfl, hp, by rw [e, hl]⟩
  | _ => exact .inl rfl

theorem removeClient_eq (s : IOTService) (c : ClientId) :
    (s.removeClient c).2 = { s with
      m_clients := s.m_clients.erase c
      m_keyFollow := dropFrom s.m_keyFollow c
      m_cmdFollow := dropFrom s.m_cmdFollow c } := by
  unfold removeClient
  split
  · rfl
  · rename_i hc
    rw [List.erase_of_not_mem hc]

/-! ## 3. What holds on every run -/

/-- **Sound**: clients are distinct and exist, and so do the clients of the links
    and of the requests in flight, which their senders own. -/
structure Sound (s : State) : Prop where
  nodup : s.service.m_clients.Nodup
  clients : ∀ c ∈ s.service.m_clients, c < s.service.fresh
  links : ∀ c ∈ s.links, c < s.service.fresh
  sent : ∀ q ∈ s.sent, Owns s q.1 q.2
  proper : Proper s.service

theorem Owns.of_frame {s s' : State} (hf : Frame s s') {p : ProcId} {r : Request}
    (h : Owns s p r) : Owns s' p r := by
  intro c hc
  rw [hf.fresh, hf.owner]
  exact h c hc

theorem proper_serve {s : State} (h : Proper s.service) {p : ProcId} {r : Request}
    (hr : Owns s p r) : Proper (serve s p r).service := by
  cases r with
  | createClient name =>
    simp only [serve]
    split <;> exact h
  | followProperty c key =>
    exact proper_exec h (.addFollowing FOLLOW_TYPE_PROPERTY (cstr key) c) (hr c rfl).1
  | followCommand c cmd =>
    exact proper_exec h (.addFollowing FOLLOW_TYPE_COMMAND (cstr cmd) c) (hr c rfl).1
  | registCommandCB c cmdCB => exact proper_exec h (.registCommandCB c cmdCB) trivial
  | registPropertyCB c proCB =>
    rcases serve_registPropertyCB s p c proCB with e | ⟨links, -, e⟩
    · rw [e]
      exact h
    · rw [e]
      exact proper_exec h (.registPropertyCB c proCB) trivial

/-- Taking a request out of the queue. -/
theorem sound_taken {s : State} (h : Sound s) (q : ProcId × Request) :
    Sound { s with sent := s.sent.erase q } :=
  ⟨h.nodup, h.clients, h.links, fun q' hq => h.sent q' (List.mem_of_mem_erase hq), h.proper⟩

theorem sound_init : Sound init where
  nodup := List.nodup_nil
  clients _ h := absurd h List.not_mem_nil
  links _ h := absurd h List.not_mem_nil
  sent _ h := absurd h List.not_mem_nil
  proper := proper_reach (.init _ rfl)

theorem proper_insertClient {s : IOTService} (h : Proper s) (name : String8) :
    Proper (s.insertClient name).2 :=
  ⟨h.keyNull, h.cmdNull, fun k c hc => Nat.lt_succ_of_lt (h.keyOld k c hc),
    fun k c hc => Nat.lt_succ_of_lt (h.cmdOld k c hc)⟩

theorem sound_step {s : State} {l : Label} (h : Sound s) (he : enabled s l) : Sound (next s l) := by
  cases l with
  | send p r =>
    refine ⟨h.nodup, h.clients, h.links, fun q hq => ?_, h.proper⟩
    rcases List.mem_append.mp hq with hq | hq
    · exact h.sent q hq
    · rw [List.mem_singleton.mp hq]
      exact he.2
  | serve p r =>
    have hr : Owns s p r := h.sent _ he
    have hf := serve_frame { s with sent := s.sent.erase (p, r) } p r
    refine ⟨hf.clients ▸ h.nodup, ?_, ?_, fun q hq => ?_, ?_⟩
    · show ∀ c ∈ (serve _ p r).service.m_clients, c < (serve _ p r).service.fresh
      rw [hf.clients, hf.fresh]
      exact h.clients
    · intro c hc
      show c < (serve _ p r).service.fresh
      rw [hf.fresh]
      rcases serve_links { s with sent := s.sent.erase (p, r) } p r with e | ⟨c', cb, rfl, -, e⟩
      · exact h.links c (e ▸ hc)
      · replace hc : c ∈ s.links ++ [c'] := e ▸ hc
        rcases List.mem_append.mp hc with hc | hc
        · exact h.links c hc
        · rw [List.mem_singleton.mp hc]
          exact (hr c' rfl).1
    · replace hq : q ∈ (serve { s with sent := s.sent.erase (p, r) } p r).sent := hq
      rw [hf.sent] at hq
      have ho : Owns { s with sent := s.sent.erase (p, r) } q.1 q.2 :=
        h.sent q (List.mem_of_mem_erase hq)
      exact ho.of_frame hf
    · have ho : Owns { s with sent := s.sent.erase (p, r) } p r := hr
      exact proper_serve (s := { s with sent := s.sent.erase (p, r) }) h.proper ho
  | insert p name =>
    refine ⟨?_, fun c hc => ?_, fun c hc => Nat.lt_succ_of_lt (h.links c hc), fun q hq c hc => ?_,
      proper_insertClient h.proper name⟩
    · refine List.nodup_append.mpr ⟨h.nodup, List.nodup_singleton _, fun a ha b hb e => ?_⟩
      rw [e, List.mem_singleton.mp hb] at ha
      exact Nat.lt_irrefl _ (h.clients _ ha)
    · rcases List.mem_append.mp hc with hc | hc
      · exact Nat.lt_succ_of_lt (h.clients c hc)
      · rw [List.mem_singleton.mp hc]
        exact Nat.lt_succ_self _
    · obtain ⟨hlt, ho⟩ := h.sent q hq c hc
      refine ⟨Nat.lt_succ_of_lt hlt, ?_⟩
      show Function.update s.owner s.service.fresh p c = q.1
      rw [Function.update_of_ne (Nat.ne_of_lt hlt)]
      exact ho
  | die p => exact ⟨h.nodup, h.clients, h.links, h.sent, h.proper⟩
  | notify c =>
    have hp : Proper (s.service.removeClient c).2 := proper_exec h.proper (.removeClient c) trivial
    have e := removeClient_eq s.service c
    simp only [next, binderDied, e] at hp ⊢
    exact ⟨h.nodup.erase c, fun c' hc' => h.clients c' (List.mem_of_mem_erase hc'),
      fun c' hc' => h.links c' (List.mem_of_mem_erase hc'), h.sent, hp⟩

theorem sound_reach {C : State → Label → Prop} {s : State} (h : machine.Reach C s) : Sound s := by
  refine h.inv (I := Sound) ?_ fun s l hI _ he => sound_step hI he
  intro s h0
  obtain rfl : s = init := h0
  exact sound_init

/-! ## 4. Short runs -/

/-- A request, sent and served at once. -/
def request (p : ProcId) (r : Request) : List Label := [.send p r, .serve p r]

/-- A process connects: its client is created. -/
def connects : List Label :=
  request 0 (.createClient (lit "tv")) ++ [.insert 0 (lit "tv")]

/-- It registers its property callback, which links its client. -/
def registers : List Label := request 0 (.registPropertyCB 0 7)

end Sessions

end IotWrap
