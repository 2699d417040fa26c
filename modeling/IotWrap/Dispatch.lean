/-
  File:      IotWrap/Dispatch.lean
  Subject:   Whom `callCommandCB` and `callPropertySet` reach after a run.

  `recipients` is what a dispatch is for: the members of the name's topic that
  registered the callback, once each and in follow order; where the topic has
  no member, the first client of `m_clients`, if it registered the callback.

  The source tests for a missing map ENTRY where the fallback is for a missing
  FOLLOWER, and `removeClient` empties a list without erasing its entry. So a
  name whose followers are all gone reaches nobody. `dispatch_iff` is the exact
  condition; `dispatch_lost` is a run that meets it on the wrong side.
-/
import IotWrap.Registry

namespace IotWrap

open Lib Lib.Event

namespace IOTService

/-- Whom a dispatch of the topic is for, after the history `h`. -/
def recipients (s : IOTService) (h : History) (t : Topic) : List ClientId :=
  if members t h = [] then s.m_clients.take 1 else members t h

/-- **One call for each** of these clients that registered the callback, in their order,
    with this name and payload. -/
structure CallsEach (s : IOTService) (cb : IOTClient → Option CbId) (key val : String8)
    (l : List ClientId) (calls : List Invocation) : Prop where
  clients : calls.map Invocation.client = l.filter fun c => (cb (s.client c)).isSome
  calls : ∀ i ∈ calls, cb (s.client i.client) = some i.cb ∧ i.key = key ∧ i.val = val

/-- The name was never followed, or somebody follows it, or the first client
    (if there is one) did not register the callback. -/
def Served (s : IOTService) (h : History) (t : Topic) (cb : IOTClient → Option CbId) : Prop :=
  joined t h = false ∨ members t h ≠ [] ∨ ∀ c ∈ s.m_clients.head?, cb (s.client c) = none

theorem callAll_each (s : IOTService) (cb : IOTClient → Option CbId) (key val : String8)
    (l : List ClientId) : CallsEach s cb key val l (s.callAll cb key val l) where
  clients := by
    unfold callAll
    rw [List.map_filterMap, ← List.filterMap_eq_filter]
    refine List.filterMap_congr fun c _ => ?_
    cases hc : cb (s.client c) with
    | none => simp [Option.guard, hc]
    | some b => simp [Option.guard, hc]
  calls i hi := by
    obtain ⟨c, -, hc⟩ := List.mem_filterMap.mp hi
    obtain ⟨b, hb, rfl⟩ := Option.map_eq_some_iff.mp hc
    exact ⟨hb, rfl, rfl⟩

/-- A list of calls like that is determined by the clients. -/
theorem CallsEach.eq_map {s : IOTService} {cb : IOTClient → Option CbId} {key val : String8}
    {l : List ClientId} {calls : List Invocation} (h : CallsEach s cb key val l calls) :
    calls = (l.filter fun c => (cb (s.client c)).isSome).map
      fun c => ⟨c, (cb (s.client c)).getD 0, key, val⟩ := by
  rw [← h.clients, List.map_map]
  refine (List.map_id calls).symm.trans (List.map_congr_left fun i hi => ?_)
  obtain ⟨hb, hk, hv⟩ := h.calls i hi
  simp only [Function.comp_apply, hb, Option.getD_some, ← hk, ← hv, id]

/-- They are the loop's. -/
theorem callsEach_iff {s : IOTService} {cb : IOTClient → Option CbId} {key val : String8}
    {l : List ClientId} {calls : List Invocation} :
    CallsEach s cb key val l calls ↔ calls = s.callAll cb key val l := by
  constructor
  · intro h
    exact h.eq_map.trans (callAll_each s cb key val l).eq_map.symm
  · rintro rfl
    exact callAll_each s cb key val l

theorem callAll_take_one (s : IOTService) (cb : IOTClient → Option CbId) (key val : String8) :
    s.callAll cb key val (s.m_clients.take 1) = [] ↔
      ∀ c ∈ s.m_clients.head?, cb (s.client c) = none := by
  cases s.m_clients with
  | nil => simp [callAll]
  | cons c l => simp [callAll]

/-- The body of both dispatchers against its purpose, on a map that refines the
    history: they agree exactly where the name is served. -/
theorem call_iff {s : IOTService} {h : History} {t : String8 → Topic} {m : FollowMap}
    (hm : MapRefines t m h) (cb : IOTClient → Option CbId) (key val : String8) :
    CallsEach s cb key val (recipients s h (t key)) (s.call m cb key val).2 ↔
      Served s h (t key) cb := by
  rw [callsEach_iff]
  unfold call recipients Served
  rw [hm key]
  cases hj : joined (t key) h with
  | false =>
    -- no entry: the fallback runs, and it is the purpose
    rw [members_of_not_joined hj]
    simp only [Bool.false_eq_true, ↓reduceIte, true_or, iff_true]
    cases s.m_clients with
    | nil => simp [callAll]
    | cons c l => simp
  | true =>
    by_cases hnil : members (t key) h = []
    · -- an entry without followers: nobody is called
      have he : s.callAll cb key val [] = [] := rfl
      simp only [hnil, ↓reduceIte, he]
      rw [eq_comm, callAll_take_one]
      simp
    · simp [hnil]

/-- **Dispatch after any run**: a command (a property set) calls exactly whom it
    is for if and only if the name was never followed, or has a follower, or
    the first client did not register the callback. -/
theorem dispatch_iff (ops : List Op) (name payload : String8) :
    (CallsEach (init.run ops) IOTClient.m_command name payload
        (recipients (init.run ops) (history ops) (.cmd name))
        ((init.run ops).callCommandCB name payload).2 ↔
      Served (init.run ops) (history ops) (.cmd name) IOTClient.m_command) ∧
    (CallsEach (init.run ops) IOTClient.m_property name payload
        (recipients (init.run ops) (history ops) (.key name))
        ((init.run ops).callPropertySet name payload).2 ↔
      Served (init.run ops) (history ops) (.key name) IOTClient.m_property) :=
  have hr := refines_run ops
  ⟨call_iff hr.cmds IOTClient.m_command name payload,
    call_iff hr.keys IOTClient.m_property name payload⟩

/-- Two clients; the second follows the command and is removed. -/
def lostRun : List Op :=
  [.createClient (lit "tv"), .registCommandCB 0 (some 7), .createClient (lit "app"),
    .addFollowing FOLLOW_TYPE_COMMAND (lit "play") 1, .removeClient 1]

/-- **A command is lost**: nobody follows `play` any more, the first client has
    its callback registered, and the dispatch calls nobody. -/
theorem dispatch_lost :
    ¬ ∀ (ops : List Op) (name payload : String8),
      CallsEach (init.run ops) IOTClient.m_command name payload
        (recipients (init.run ops) (history ops) (.cmd name))
        ((init.run ops).callCommandCB name payload).2 ∧
      CallsEach (init.run ops) IOTClient.m_property name payload
        (recipients (init.run ops) (history ops) (.key name))
        ((init.run ops).callPropertySet name payload).2 := by
  intro h
  have hcmd := (h lostRun (lit "play") (lit "now")).1.clients
  revert hcmd
  decide

end IOTService

end IotWrap
