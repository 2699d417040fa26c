/-
  File:      IotWrap/Registry.lean
  Subject:   The registry over whole runs: `m_clients`, `m_keyFollow` and
             `m_cmdFollow` are the directory of the run's history.

  A run is a list of requests (`Op`) executed one at a time; its history is the
  list of the events they amount to. `Refines s h` says that the service state
  `s` is the directory of `h`: one topic for the clients, one for every
  property name, one for every command name.

  * `refines_exec`: one request keeps the refinement;
  * `refines_run`: every run from the empty registry does;
  * `registry_refines`: the lists of the service, and what `removeClient`
    returns and leaves alone.
-/
import IotWrap.Lib.Directory
import IotWrap.Service

namespace IotWrap

open Lib Lib.Event

namespace IOTService

/-- A request to the service, as a binder thread executes it. -/
inductive Op where
  | createClient (name : String8) : Op
  | addFollowing (type : Int) (val : String8) (target : ClientId) : Op
  | removeClient (c : ClientId) : Op
  | registCommandCB (c : ClientId) (cmdCB : Option CbId) : Op
  | registPropertyCB (c : ClientId) (proCB : CbId) : Op
  deriving DecidableEq, Repr

def exec (s : IOTService) : Op → IOTService
  | .createClient name => (s.createClient name).2
  | .addFollowing type val target => (s.addFollowing type val target).2
  | .removeClient c => (s.removeClient c).2
  | .registCommandCB c cmdCB => (s.registCommandCB c cmdCB).2
  | .registPropertyCB c proCB => (s.setPropertyCB c proCB).2

def run (s : IOTService) (ops : List Op) : IOTService := ops.foldl exec s

@[simp] theorem run_append (s : IOTService) (ops : List Op) (op : Op) :
    s.run (ops ++ [op]) = (s.run ops).exec op := by
  simp [run]

/-! ## 1. The history of a run -/

/-- What can be joined: the client list, the followers of a property, of a command. -/
inductive Topic where
  | clients : Topic
  | key (k : String8) : Topic
  | cmd (k : String8) : Topic
  deriving DecidableEq, Repr

abbrev History := List (Event Topic ClientId)

/-- How many clients were created. -/
def created (h : History) : Nat := h.countP fun e => e matches .join .clients _

/-- What a request amounts to after `h`: below the limit a new client joins the clients,
    a follow of either kind joins its name, a removal leaves everything. -/
def eventOf (h : History) : Op → Option (Event Topic ClientId)
  | .createClient _ =>
    if (members .clients h).length < MAX_CLINETS then some (.join .clients (created h)) else none
  | .addFollowing type val target =>
    if type = FOLLOW_TYPE_PROPERTY then some (.join (.key val) target)
    else if type = FOLLOW_TYPE_COMMAND then some (.join (.cmd val) target)
    else none
  | .removeClient c => some (.leave c)
  | .registCommandCB _ _ => none
  | .registPropertyCB _ _ => none

def after (h : History) (op : Op) : History := h ++ (eventOf h op).toList

def history (ops : List Op) : History := ops.foldl after []

theorem history_append (ops : List Op) (op : Op) :
    history (ops ++ [op]) = after (history ops) op := by
  simp [history]

/-- Only a new client counts. -/
theorem created_join (h : History) (t : Topic) (c : ClientId) :
    created (h ++ [.join t c]) = created h + if t = .clients then 1 else 0 := by
  cases t <;> simp [created]

theorem created_leave (h : History) (c : ClientId) : created (h ++ [.leave c]) = created h := by
  simp [created]

/-! ## 2. One follow map -/

/-- The list a follow map stores for a name; empty where the name is missing. -/
def stored (m : FollowMap) (k : String8) : List ClientId :=
  match m[k]? with
  | some (some l) => l
  | _ => []

/-- **A follow map is the directory of the history**: a name has an entry as
    soon as it was followed once, and the entry points to its members. -/
def MapRefines (t : String8 → Topic) (m : FollowMap) (h : History) : Prop :=
  ∀ k, m[k]? = if joined (t k) h then some (some (members (t k) h)) else none

theorem MapRefines.stored {t : String8 → Topic} {m : FollowMap} {h : History}
    (hm : MapRefines t m h) (k : String8) : stored m k = members (t k) h := by
  unfold IOTService.stored
  rw [hm k]
  cases hj : joined (t k) h with
  | true => rfl
  | false => exact (members_of_not_joined hj).symm

theorem mapRefines_init (t : String8 → Topic) : MapRefines t {} [] := by
  intro k
  simp [joined]

/-- `addFollowing` into a map that refines the history: it succeeds, and the
    join is the only difference. -/
theorem mapRefines_addTo {t : String8 → Topic} (ht : Function.Injective t) {m : FollowMap}
    {h : History} (hm : MapRefines t m h) (val : String8) (c : ClientId) :
    (addTo m val c).1 = 0 ∧ MapRefines t (addTo m val c).2 (h ++ [.join (t val) c]) := by
  have hval := hm val
  unfold addTo vectorFor
  cases hj : joined (t val) h with
  | false =>
    rw [hj] at hval
    have hnil := members_of_not_joined hj
    simp only [hval, Bool.false_eq_true, ↓reduceIte, List.not_mem_nil, List.nil_append, true_and]
    intro k
    by_cases hk : val = k
    · subst hk
      simp [members_join, hnil]
    · have htk : t val ≠ t k := fun e => hk (ht e)
      have hmk := hm k
      simp [Std.TreeMap.getElem?_insert, hk, htk, members_other htk, hmk]
  | true =>
    rw [hj] at hval
    simp only [hval, ↓reduceIte]
    by_cases hc : c ∈ members (t val) h
    · rw [if_pos hc]
      refine ⟨rfl, fun k => ?_⟩
      by_cases hk : val = k
      · subst hk
        simp [hval, members_join, hc]
      · have htk : t val ≠ t k := fun e => hk (ht e)
        simp [htk, members_other htk, hm k]
    · rw [if_neg hc]
      refine ⟨rfl, fun k => ?_⟩
      by_cases hk : val = k
      · subst hk
        simp [members_join, hc]
      · have htk : t val ≠ t k := fun e => hk (ht e)
        simp [Std.TreeMap.getElem?_insert, hk, htk, members_other htk, hm k]

/-- `removeClient`'s loop over a map that refines the history. Every list is
    free of duplicates, so taking out the first occurrence takes out all. -/
theorem mapRefines_dropFrom {t : String8 → Topic} {m : FollowMap} {h : History}
    (hm : MapRefines t m h) (c : ClientId) : MapRefines t (dropFrom m c) (h ++ [.leave c]) := by
  intro k
  unfold dropFrom
  rw [Std.TreeMap.getElem?_map, hm k, joined_leave, ← erase_members]
  cases joined (t k) h with
  | false => rfl
  | true => rfl

/-- Joins of topics outside the map do not count for it. -/
theorem mapRefines_other {t : String8 → Topic} {m : FollowMap} {h : History}
    (hm : MapRefines t m h) {u : Topic} (hu : ∀ k, u ≠ t k) (c : ClientId) :
    MapRefines t m (h ++ [.join u c]) := by
  intro k
  rw [hm k, joined_join, members_other (hu k), decide_eq_false (hu k), Bool.or_false]

/-! ## 3. The registry -/

/-- **The service state is the directory of the history.** -/
structure Refines (s : IOTService) (h : History) : Prop where
  clients : s.m_clients = members .clients h
  keys : MapRefines .key s.m_keyFollow h
  cmds : MapRefines .cmd s.m_cmdFollow h
  created : s.fresh = created h
  fresh : ∀ c, Event.join .clients c ∈ h → c < s.fresh

theorem refines_init : Refines init [] where
  clients := rfl
  keys := mapRefines_init .key
  cmds := mapRefines_init .cmd
  created := rfl
  fresh _ h := absurd h List.not_mem_nil

theorem Refines.fresh_notMem {s : IOTService} {h : History} (hr : Refines s h) :
    s.fresh ∉ members .clients h := by
  intro hm
  obtain ⟨h₁, h₂, rfl, -⟩ := mem_members.mp hm
  exact Nat.lt_irrefl _ (hr.fresh s.fresh (by simp))

theorem refines_createClient {s : IOTService} {h : History} (hr : Refines s h) (name : String8) :
    Refines (s.createClient name).2 (after h (.createClient name)) := by
  unfold createClient after eventOf
  by_cases hs : s.m_clients.length < MAX_CLINETS
  · have hslot : s.hasSlot = true := decide_eq_true hs
    rw [← hr.clients, if_pos hs, if_pos hslot, ← hr.created]
    refine ⟨?_, mapRefines_other hr.keys (by simp) _, mapRefines_other hr.cmds (by simp) _, ?_, ?_⟩
    · show s.m_clients ++ [s.fresh] = members .clients (h ++ [.join .clients s.fresh])
      rw [members_join, if_neg hr.fresh_notMem, hr.clients]
    · show s.fresh + 1 = IOTService.created (h ++ [.join .clients s.fresh])
      rw [created_join, if_pos rfl, hr.created]
    · intro c hc
      simp only [Option.toList_some, List.mem_append, List.mem_singleton, join.injEq, true_and] at hc
      rcases hc with hc | rfl
      · exact Nat.lt_succ_of_lt (hr.fresh c hc)
      · exact Nat.lt_succ_self _
  · have hslot : ¬ s.hasSlot = true := fun h => hs (of_decide_eq_true h)
    rw [← hr.clients, if_neg hs, if_neg hslot]
    simpa using hr

theorem refines_addFollowing {s : IOTService} {h : History} (hr : Refines s h) (type : Int)
    (val : String8) (c : ClientId) :
    Refines (s.addFollowing type val c).2 (after h (.addFollowing type val c)) := by
  unfold addFollowing after eventOf
  by_cases hp : type = FOLLOW_TYPE_PROPERTY
  · simp only [if_pos hp, Option.toList_some]
    exact ⟨by rw [members_other (by simp)]; exact hr.clients,
      (mapRefines_addTo (fun _ _ => Topic.key.inj) hr.keys val c).2,
      mapRefines_other hr.cmds (by simp) c, by simpa [created_join] using hr.created,
      by simpa using hr.fresh⟩
  · by_cases hc : type = FOLLOW_TYPE_COMMAND
    · simp only [if_neg hp, if_pos hc, Option.toList_some]
      exact ⟨by rw [members_other (by simp)]; exact hr.clients,
        mapRefines_other hr.keys (by simp) c,
        (mapRefines_addTo (fun _ _ => Topic.cmd.inj) hr.cmds val c).2,
        by simpa [created_join] using hr.created, by simpa using hr.fresh⟩
    · simpa only [if_neg hp, if_neg hc, Option.toList_none, List.append_nil] using hr

theorem refines_removeClient {s : IOTService} {h : History} (hr : Refines s h) (c : ClientId) :
    Refines (s.removeClient c).2 (h ++ [.leave c]) := by
  have hk := mapRefines_dropFrom hr.keys c
  have hm := mapRefines_dropFrom hr.cmds c
  have hn : s.fresh = created (h ++ [.leave c]) := hr.created.trans (created_leave h c).symm
  have hf : ∀ c', Event.join Topic.clients c' ∈ h ++ [.leave c] → c' < s.fresh := by
    simpa using hr.fresh
  have hl : s.m_clients.erase c = members .clients (h ++ [.leave c]) := by
    rw [hr.clients, erase_members]
  unfold removeClient
  split
  · exact ⟨hl, hk, hm, hn, hf⟩
  · rename_i hc
    exact ⟨by rw [← hl, List.erase_of_not_mem hc], hk, hm, hn, hf⟩

/-- **One request keeps the refinement.** -/
theorem refines_exec {s : IOTService} {h : History} (hr : Refines s h) (op : Op) :
    Refines (s.exec op) (after h op) := by
  cases op with
  | createClient name => exact refines_createClient hr name
  | addFollowing type val target => exact refines_addFollowing hr type val target
  | removeClient c => exact refines_removeClient hr c
  | registCommandCB c cmdCB =>
    simp only [exec, registCommandCB, after, eventOf, Option.toList_none, List.append_nil]
    split
    · exact hr
    · exact ⟨hr.clients, hr.keys, hr.cmds, hr.created, hr.fresh⟩
  | registPropertyCB c proCB =>
    simp only [exec, setPropertyCB, after, eventOf, Option.toList_none, List.append_nil]
    split
    · exact hr
    · exact ⟨hr.clients, hr.keys, hr.cmds, hr.created, hr.fresh⟩

/-- **Every run of the service refines its history.** -/
theorem refines_run (ops : List Op) : Refines (init.run ops) (history ops) := by
  induction ops using List.reverseRecOn with
  | nil => exact refines_init
  | append_singleton ops op ih =>
    rw [run_append, history_append]
    exact refines_exec ih op

/-! ## 4. The two maps do not see each other -/

/-- A follow of the given kind. -/
def follows (type : Int) : Op → Bool
  | .addFollowing t _ _ => t = type
  | _ => false

/-- **What a request does to one follow map** depends on that map alone, and the
    rest of what it does on neither. -/
theorem exec_maps (s : IOTService) (op : Op) :
    ∃ fk fc : FollowMap → FollowMap, ∀ m m',
      exec { s with m_keyFollow := m, m_cmdFollow := m' } op =
        { exec s op with m_keyFollow := fk m, m_cmdFollow := fc m' } := by
  cases op with
  | createClient name =>
    refine ⟨id, id, fun m m' => ?_⟩
    by_cases hs : s.m_clients.length < MAX_CLINETS <;>
      simp [exec, createClient, hasSlot, insertClient, hs]
  | addFollowing type val target =>
    by_cases hp : type = FOLLOW_TYPE_PROPERTY
    · exact ⟨fun m => (addTo m val target).2, id, fun m m' => by simp [exec, addFollowing, hp]⟩
    · by_cases hc : type = FOLLOW_TYPE_COMMAND
      · exact ⟨id, fun m => (addTo m val target).2, fun m m' => by
          simp [exec, addFollowing, hc, FOLLOW_TYPE_PROPERTY, FOLLOW_TYPE_COMMAND]⟩
      · exact ⟨id, id, fun m m' => by simp [exec, addFollowing, hp, hc]⟩
  | removeClient c =>
    refine ⟨fun m => dropFrom m c, fun m => dropFrom m c, fun m m' => ?_⟩
    simp only [exec, removeClient]
    split <;> rfl
  | registCommandCB c cmdCB =>
    refine ⟨id, id, fun m m' => ?_⟩
    simp only [exec, registCommandCB, setClient]
    split <;> rfl
  | registPropertyCB c proCB =>
    refine ⟨id, id, fun m m' => ?_⟩
    simp only [exec, setPropertyCB, setClient]
    split <;> rfl

theorem exec_cmdFrame (s : IOTService) (m : FollowMap) (op : Op) :
    ∃ m', exec { s with m_cmdFollow := m } op = { exec s op with m_cmdFollow := m' } := by
  obtain ⟨fk, fc, h⟩ := exec_maps s op
  have hk : (exec s op).m_keyFollow = fk s.m_keyFollow :=
    congrArg m_keyFollow (h s.m_keyFollow s.m_cmdFollow)
  exact ⟨fc m, (h s.m_keyFollow m).trans (by rw [← hk])⟩

theorem exec_keyFrame (s : IOTService) (m : FollowMap) (op : Op) :
    ∃ m', exec { s with m_keyFollow := m } op = { exec s op with m_keyFollow := m' } := by
  obtain ⟨fk, fc, h⟩ := exec_maps s op
  have hc : (exec s op).m_cmdFollow = fc s.m_cmdFollow :=
    congrArg m_cmdFollow (h s.m_keyFollow s.m_cmdFollow)
  exact ⟨fk m, (h m s.m_cmdFollow).trans (by rw [← hc])⟩

/-- **A run without the follows of one kind** differs from the run in one map
    only. `put` replaces that map. -/
theorem run_without {type : Int} (put : IOTService → FollowMap → IOTService)
    (hput : ∀ s m m', put (put s m) m' = put s m') (hself : ∀ s, ∃ m, put s m = s)
    (hframe : ∀ s m op, ∃ m', exec (put s m) op = put (exec s op) m')
    (hskip : ∀ s op, follows type op = true → ∃ m, exec s op = put s m)
    (s : IOTService) (ops : List Op) :
    ∃ m, s.run (ops.filter fun op => !follows type op) = put (s.run ops) m := by
  induction ops using List.reverseRecOn with
  | nil =>
    obtain ⟨m, hm⟩ := hself s
    exact ⟨m, hm.symm⟩
  | append_singleton ops op ih =>
    obtain ⟨m, hm⟩ := ih
    rw [List.filter_append, run_append]
    cases hop : follows type op with
    | false =>
      rw [List.filter_cons_of_pos (by simp [hop]), List.filter_nil, run_append, hm]
      exact hframe _ m op
    | true =>
      -- the follow is left out, and what it wrote is in the map that is replaced
      rw [List.filter_cons_of_neg (by simp [hop]), List.filter_nil, List.append_nil, hm]
      obtain ⟨m', hm'⟩ := hskip (s.run ops) op hop
      exact ⟨m, by rw [hm', hput]⟩

theorem run_without_commands (s : IOTService) (ops : List Op) :
    ∃ m', s.run (ops.filter fun op => !follows FOLLOW_TYPE_COMMAND op) =
      { s.run ops with m_cmdFollow := m' } := by
  refine run_without (fun s m => { s with m_cmdFollow := m }) (fun _ _ _ => rfl)
    (fun s => ⟨s.m_cmdFollow, rfl⟩) exec_cmdFrame (fun s op hop => ?_) s ops
  cases op with
  | addFollowing type val target =>
    have ht : type = FOLLOW_TYPE_COMMAND := by simpa [follows] using hop
    exact ⟨(addTo s.m_cmdFollow val target).2, by
      simp [exec, addFollowing, ht, FOLLOW_TYPE_PROPERTY, FOLLOW_TYPE_COMMAND]⟩
  | _ => cases hop

theorem run_without_properties (s : IOTService) (ops : List Op) :
    ∃ m', s.run (ops.filter fun op => !follows FOLLOW_TYPE_PROPERTY op) =
      { s.run ops with m_keyFollow := m' } := by
  refine run_without (fun s m => { s with m_keyFollow := m }) (fun _ _ _ => rfl)
    (fun s => ⟨s.m_keyFollow, rfl⟩) exec_keyFrame (fun s op hop => ?_) s ops
  cases op with
  | addFollowing type val target =>
    have ht : type = FOLLOW_TYPE_PROPERTY := by simpa [follows] using hop
    exact ⟨(addTo s.m_keyFollow val target).2, by simp [exec, addFollowing, ht]⟩
  | _ => cases hop

/-! ## 5. The registry over whole runs -/

/-- `removeClient` on a state that refines a history: its result, and every
    list without the client and otherwise as it was. -/
theorem Refines.removeClient {s : IOTService} {h : History} (hr : Refines s h) (c : ClientId) :
    (s.removeClient c).1 = (if c ∈ s.m_clients then 1 else 0) ∧
    (s.removeClient c).2.m_clients = s.m_clients.filter (· ≠ c) ∧
    (∀ k, stored (s.removeClient c).2.m_keyFollow k = (stored s.m_keyFollow k).filter (· ≠ c)) ∧
    ∀ k, stored (s.removeClient c).2.m_cmdFollow k = (stored s.m_cmdFollow k).filter (· ≠ c) := by
  have hr' := refines_removeClient hr c
  refine ⟨?_, ?_, fun k => ?_, fun k => ?_⟩
  · unfold IOTService.removeClient
    split <;> rfl
  · rw [hr'.clients, hr.clients, members_leave]
  · rw [hr'.keys.stored, hr.keys.stored, members_leave]
  · rw [hr'.cmds.stored, hr.cmds.stored, members_leave]

/-- **The registry over every run**: the client list and the list stored for
    every name are the members of their topic in the run's history (the live
    joins, each client once, in the order of the first); the command follows
    of the run do not count for `m_keyFollow` nor the property follows for
    `m_cmdFollow`; and `removeClient` at the end of the run returns 1 exactly
    for a client of `m_clients` and takes that client out of every list and
    nothing else. -/
theorem registry_refines (ops : List Op) :
    (init.run ops).m_clients = members .clients (history ops) ∧
    (∀ k, stored (init.run ops).m_keyFollow k = members (.key k) (history ops)) ∧
    (∀ k, stored (init.run ops).m_cmdFollow k = members (.cmd k) (history ops)) ∧
    (init.run (ops.filter fun op => !follows FOLLOW_TYPE_COMMAND op)).m_keyFollow =
      (init.run ops).m_keyFollow ∧
    (init.run (ops.filter fun op => !follows FOLLOW_TYPE_PROPERTY op)).m_cmdFollow =
      (init.run ops).m_cmdFollow ∧
    ∀ c, ((init.run ops).removeClient c).1 = (if c ∈ (init.run ops).m_clients then 1 else 0) ∧
      ((init.run ops).removeClient c).2.m_clients = (init.run ops).m_clients.filter (· ≠ c) ∧
      (∀ k, stored ((init.run ops).removeClient c).2.m_keyFollow k =
        (stored (init.run ops).m_keyFollow k).filter (· ≠ c)) ∧
      ∀ k, stored ((init.run ops).removeClient c).2.m_cmdFollow k =
        (stored (init.run ops).m_cmdFollow k).filter (· ≠ c) := by
  have hr := refines_run ops
  obtain ⟨m, hm⟩ := run_without_commands init ops
  obtain ⟨m', hm'⟩ := run_without_properties init ops
  refine ⟨hr.clients, hr.keys.stored, hr.cmds.stored, ?_, ?_, fun c => hr.removeClient c⟩
  · rw [hm]
  · rw [hm']

end IOTService

end IotWrap
