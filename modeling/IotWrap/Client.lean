/-
  File:      IotWrap/Client.lean
  Subject:   IOTClientJNI: the client library of one application, which keeps
             lists of what was followed and replays them when it connects
             (jni/client/IOT_ClientJNI.cpp).

  The proxy is the server's client object; a call through it is executed by the
  server at once. The two integers of a `followProperty` transaction are read
  in the order they were written.

  A follow is only put on a list; `_postFollow` alone sends the lists, and
  `connService` returns before it where the proxy is set already. So a follow
  made while connected never reaches the server.

  * `holds_postFollow`: what a successful connect leaves in the two maps;
  * `follow_connect_iff`: the server holds the client exactly under the listed
    names if and only if no new name was followed while connected, and then the
    maps do not depend on the order of the calls;
  * `follow_unsent`: connect, then follow.
-/
import IotWrap.Follow
import IotWrap.Lib.Machine
import IotWrap.Registry

namespace IotWrap

open Lib

def ERR_NOERROR : Int := 0
def ERR_PROXY_NULL : Int := -1
def ERR_PARAM_INVALID : Int := -2
def USLEEP_TIME : Int := 100000

/-- `_PropertyInfo`. -/
structure PropertyInfo where
  _key : String8
  _type : Int
  _size : Int
  deriving DecidableEq, Repr

/-- The singleton after `init`. -/
structure IOTClientJNI where
  m_clientID : String8
  m_propertyList : List PropertyInfo
  m_commandList : List String8
  m_commandCB : CbId
  m_propertyCB : CbId
  m_proxy : Option ClientId
  deriving DecidableEq, Repr

/-! ## 1. The client library -/

namespace IOTClientJNI

/-- The names on the property list. -/
def keys (j : IOTClientJNI) : List String8 := j.m_propertyList.map fun p => p._key

/-- `followProperty`. `JStringToString8` takes the C string of the argument. -/
def followProperty (j : IOTClientJNI) (jkey : String8) (type size : Int) : Int × IOTClientJNI :=
  let key := cstr jkey
  if key.length ≤ 0 then (ERR_PARAM_INVALID, j)
  else if key ∈ j.keys then (ERR_PARAM_INVALID, j)
  else (ERR_NOERROR, { j with m_propertyList := j.m_propertyList ++ [⟨key, type, size⟩] })

/-- `followCommand`. -/
def followCommand (j : IOTClientJNI) (jcmd : String8) : Int × IOTClientJNI :=
  let cmd := cstr jcmd
  if cmd.length ≤ 0 then (-1, j)
  else if cmd ∈ j.m_commandList then (ERR_PARAM_INVALID, j)
  else (ERR_NOERROR, { j with m_commandList := j.m_commandList ++ [cmd] })

/-- How often `_connect` tries. Above 2147483 ms the product overflows, which C++ leaves
    undefined; that it wraps around in 32 bits is an assumption. -/
def tryCnt (timeout_ms : Int) : Int := (Int.bmod (timeout_ms * 1000) (2 ^ 32)).tdiv USLEEP_TIME + 1

/-- The loop of `_connect`: the status of each try, `none` where the service was
    not found. -/
def waitStatus (status : Int) : List (Option Int) → Int
  | [] => status
  | none :: polls => waitStatus status polls
  | some st :: polls => if st = DS_STATUS_CONNECTED then st else waitStatus st polls

/-- `_connect`. -/
def _connect (j : IOTClientJNI) (d : DeviceShadow) (timeout_ms : Int) (polls : Nat → Option Int) :
    Int × IOTClientJNI × DeviceShadow :=
  if waitStatus DS_STATUS_INVALID ((List.range (tryCnt timeout_ms).toNat).map polls) ≠
      DS_STATUS_CONNECTED then (ERR_PROXY_NULL, j, d)
  else
    let (c, s) := d.toIOTService.createClient j.m_clientID
    (if c = none then ERR_PROXY_NULL else ERR_NOERROR, { j with m_proxy := c },
      { d with toIOTService := s })

/-- `_postFollow`'s first loop. -/
def postProperties (d : DeviceShadow) (c : ClientId) (mem : String8 → Callocs)
    (l : List PropertyInfo) : DeviceShadow :=
  l.foldl (fun d p => (d.followProperty c p._key p._type p._size (mem p._key)).2) d

/-- `_postFollow`'s second loop. -/
def postCommands (s : IOTService) (c : ClientId) (l : List String8) : IOTService :=
  l.foldl (fun s cmd => (s.followCommand c cmd).2) s

/-- `_postFollow`; what the server returns is only logged. `mem` is the server's memory. -/
def _postFollow (j : IOTClientJNI) (d : DeviceShadow) (mem : String8 → Callocs) : Int × DeviceShadow :=
  match j.m_proxy with
  | none => (ERR_PROXY_NULL, d)
  | some c =>
    let d := postProperties d c mem j.m_propertyList
    let s := postCommands d.toIOTService c j.m_commandList
    let s := (s.registCommandCB c (some j.m_commandCB)).2
    let s := (s.setPropertyCB c j.m_propertyCB).2
    (ERR_NOERROR, { d with toIOTService := s })

/-- `connService`. -/
def connService (j : IOTClientJNI) (d : DeviceShadow) (timeout_ms : Int) (polls : Nat → Option Int)
    (mem : String8 → Callocs) : Int × IOTClientJNI × DeviceShadow :=
  if j.m_proxy.isSome then (ERR_NOERROR, j, d)
  else
    let (ret, j, d) := j._connect d timeout_ms polls
    if ret < 0 then (ret, j, d)
    else
      let (ret, d) := j._postFollow d mem
      (ret, j, d)

end IOTClientJNI

/-! ## 2. Runs of one application -/

/-- The application's side and the server. -/
structure App where
  jni : IOTClientJNI
  server : DeviceShadow

namespace App

inductive Call where
  | followProperty (jkey : String8) (type size : Int) : Call
  | followCommand (jcmd : String8) : Call
  | connService (timeout_ms : Int) (polls : Nat → Option Int) (mem : String8 → Callocs) : Call

def exec (s : App) : Call → Int × App
  | .followProperty jkey type size =>
    let (ret, j) := s.jni.followProperty jkey type size
    (ret, { s with jni := j })
  | .followCommand jcmd =>
    let (ret, j) := s.jni.followCommand jcmd
    (ret, { s with jni := j })
  | .connService timeout_ms polls mem =>
    let (ret, j, d) := s.jni.connService s.server timeout_ms polls mem
    (ret, ⟨j, d⟩)

def run (s : App) (calls : List Call) : App := calls.foldl (fun s call => (s.exec call).2) s

/-- The application before its first call. -/
def start (d : DeviceShadow) (clientID : String8) (commandCB propertyCB : CbId) : App :=
  ⟨⟨clientID, [], [], commandCB, propertyCB, none⟩, d⟩

end App

/-! ## 3. The server's side -/

namespace IOTService

/-- What `addTo` stores, name by name. -/
theorem addTo_get {m : FollowMap} {val : String8} (hn : m[val]? ≠ some none) (c : ClientId)
    (k : String8) : (addTo m val c).2[k]? =
      if val = k then some (some (if c ∈ stored m val then stored m val else stored m val ++ [c]))
      else m[k]? := by
  cases hm : m[val]? with
  | none =>
    have hs : stored m val = [] := by simp only [stored, hm]
    rw [hs, if_neg List.not_mem_nil]
    simp only [addTo, vectorFor, hm, List.not_mem_nil, if_false, get_insert, List.nil_append]
    by_cases hk : val = k
    · rw [if_pos hk, if_pos hk]
    · rw [if_neg hk, if_neg hk, if_neg hk]
  | some p =>
    cases p with
    | none => exact absurd hm hn
    | some l =>
      have hs : stored m val = l := by simp only [stored, hm]
      rw [hs]
      by_cases hc : c ∈ l
      · rw [addTo_of_mem hm hc, if_pos hc]
        by_cases hk : val = k
        · rw [if_pos hk, ← hk, hm]
        · rw [if_neg hk]
      · rw [if_neg hc]
        simp only [addTo, vectorFor, hm, hc, if_false]
        exact get_insert m val _ k

/-- No null pointer is stored. -/
def NoNull (m : FollowMap) : Prop := ∀ k : String8, m[k]? ≠ some none

/-- Every follower has an address below `n`. -/
def Older (m : FollowMap) (n : ClientId) : Prop := ∀ k, ∀ c ∈ stored m k, c < n

/-- The map after one client followed a list of names. -/
def followed (m : FollowMap) (c : ClientId) (names : List String8) : FollowMap :=
  names.foldl (fun m k => (addTo m k c).2) m

/-- **A client that was in no list** ends up at the end of the list of every
    name it followed, and nowhere else. -/
theorem followed_get {m : FollowMap} {c : ClientId} (hnull : NoNull m)
    (hc : ∀ k, c ∉ stored m k) (names : List String8) (k : String8) :
    (followed m c names)[k]? = if k ∈ names then some (some (stored m k ++ [c])) else m[k]? := by
  induction names using List.reverseRecOn generalizing k with
  | nil => rw [if_neg List.not_mem_nil]; rfl
  | append_singleton names n ih =>
    have hstep : followed m c (names ++ [n]) = (addTo (followed m c names) n c).2 := by
      unfold followed
      rw [List.foldl_append]
      rfl
    have hn : (followed m c names)[n]? ≠ some none := by
      rw [ih n]
      split
      · exact fun e => by cases e
      · exact hnull n
    rw [hstep, addTo_get hn]
    by_cases hk : n = k
    · subst hk
      rw [if_pos rfl, if_pos (List.mem_append_right _ List.mem_cons_self)]
      by_cases hin : n ∈ names
      · -- followed before, in the same replay
        have hs : stored (followed m c names) n = stored m n ++ [c] := by
          rw [stored, ih n, if_pos hin]
        rw [hs, if_pos (List.mem_append_right _ List.mem_cons_self)]
      · have hs : stored (followed m c names) n = stored m n := by
          rw [stored, ih n, if_neg hin]
          rfl
        rw [hs, if_neg (hc n)]
    · rw [if_neg hk, ih k]
      have hmem : k ∈ names ++ [n] ↔ k ∈ names := by
        simp [List.mem_append, Ne.symm hk]
      exact if_congr hmem.symm rfl rfl

theorem stored_of_get {m : FollowMap} {k : String8} {l : List ClientId}
    (h : m[k]? = some (some l)) : stored m k = l := by
  rw [stored, h]

/-- The requests of clients that exist. -/
def requests : Machine IOTService Op where
  init s := s = IOTService.init
  enabled s op := match op with | .addFollowing _ _ c => c < s.fresh | _ => True
  next := exec

/-- **No null pointer, and no follower that does not exist.** -/
structure Proper (s : IOTService) : Prop where
  keyNull : NoNull s.m_keyFollow
  cmdNull : NoNull s.m_cmdFollow
  keyOld : Older s.m_keyFollow s.fresh
  cmdOld : Older s.m_cmdFollow s.fresh

/-- One map under `addTo`. -/
theorem proper_addTo {m : FollowMap} {n : ClientId} (hnull : NoNull m) (hold : Older m n)
    (val : String8) {c : ClientId} (hc : c < n) :
    NoNull (addTo m val c).2 ∧ Older (addTo m val c).2 n := by
  have hget := addTo_get (hnull val) c
  refine ⟨fun k => ?_, fun k c' hc' => ?_⟩
  · rw [hget k]
    split
    · exact fun e => by cases e
    · exact hnull k
  · by_cases hk : val = k
    · rw [stored_of_get (by rw [hget k, if_pos hk])] at hc'
      split at hc'
      · exact hold val c' hc'
      · rcases List.mem_append.mp hc' with h | h
        · exact hold val c' h
        · rw [List.mem_singleton.mp h]
          exact hc
    · rw [stored, hget k, if_neg hk] at hc'
      exact hold k c' hc'

/-- One map under `dropFrom`. -/
theorem proper_dropFrom {m : FollowMap} {n : ClientId} (hnull : NoNull m) (hold : Older m n)
    (c : ClientId) : NoNull (dropFrom m c) ∧ Older (dropFrom m c) n := by
  have hget : ∀ k : String8, (dropFrom m c)[k]? = (m[k]?).map fun v => v.map fun l => l.erase c :=
    fun k => Std.TreeMap.getElem?_map
  refine ⟨fun k => ?_, fun k c' hc' => ?_⟩
  · rw [hget k]
    cases hm : m[k]? with
    | none => exact fun e => by cases e
    | some v =>
      cases v with
      | none => exact absurd hm (hnull k)
      | some l => exact fun e => by cases e
  · refine hold k c' ?_
    rw [stored, hget k] at hc'
    cases hm : m[k]? with
    | none => rw [hm] at hc'; cases hc'
    | some v =>
      cases v with
      | none => exact absurd hm (hnull k)
      | some l =>
        rw [hm] at hc'
        rw [stored_of_get hm]
        exact List.mem_of_mem_erase hc'

/-- **Every request of an existing client keeps the maps proper.** -/
theorem proper_exec {s : IOTService} (h : Proper s) (op : Op) (he : requests.enabled s op) :
    Proper (s.exec op) := by
  cases op with
  | createClient name =>
    simp only [exec, createClient]
    split
    · exact ⟨h.keyNull, h.cmdNull, fun k c hc => Nat.lt_succ_of_lt (h.keyOld k c hc),
        fun k c hc => Nat.lt_succ_of_lt (h.cmdOld k c hc)⟩
    · exact h
  | addFollowing type val c =>
    simp only [exec, addFollowing]
    split
    · obtain ⟨hn, ho⟩ := proper_addTo h.keyNull h.keyOld val he
      exact ⟨hn, h.cmdNull, ho, h.cmdOld⟩
    · split
      · obtain ⟨hn, ho⟩ := proper_addTo h.cmdNull h.cmdOld val he
        exact ⟨h.keyNull, hn, h.keyOld, ho⟩
      · exact h
  | removeClient c =>
    obtain ⟨hkn, hko⟩ := proper_dropFrom h.keyNull h.keyOld c
    obtain ⟨hcn, hco⟩ := proper_dropFrom h.cmdNull h.cmdOld c
    simp only [exec, removeClient]
    split
    · exact ⟨hkn, hcn, hko, hco⟩
    · exact ⟨hkn, hcn, hko, hco⟩
  | registCommandCB c cmdCB =>
    simp only [exec, registCommandCB]
    split
    · exact h
    · exact ⟨h.keyNull, h.cmdNull, h.keyOld, h.cmdOld⟩
  | registPropertyCB c proCB =>
    simp only [exec, setPropertyCB]
    split
    · exact h
    · exact ⟨h.keyNull, h.cmdNull, h.keyOld, h.cmdOld⟩

theorem proper_reach {s : IOTService} (h : requests.Reachable s) : Proper s := by
  refine h.inv (I := Proper) ?_ fun s op hI _ he => proper_exec hI op he
  intro s h0
  subst h0
  exact ⟨fun k => by simp [init], fun k => by simp [init], fun k c hc => by simp [stored, init] at hc,
    fun k c hc => by simp [stored, init] at hc⟩

end IOTService

/-! ## 4. A connect -/

namespace IOTClientJNI

open IOTService

/-- The names on the two lists. -/
def Listed (j : IOTClientJNI) : Topic → Prop
  | .key k => k ∈ j.keys
  | .cmd k => k ∈ j.m_commandList
  | .clients => False

instance (j : IOTClientJNI) (t : Topic) : Decidable (j.Listed t) := by
  cases t <;> simp only [Listed] <;> infer_instance

/-- The names on the lists are C strings. -/
structure Clean (j : IOTClientJNI) : Prop where
  key : ∀ k ∈ j.keys, cstr k = k
  cmd : ∀ k ∈ j.m_commandList, cstr k = k

theorem clean_followProperty {j : IOTClientJNI} (h : Clean j) (jkey : String8) (type size : Int) :
    Clean (j.followProperty jkey type size).2 := by
  simp only [followProperty]
  split
  · exact h
  · split
    · exact h
    · refine ⟨fun k hk => ?_, h.cmd⟩
      simp only [keys, List.map_append, List.mem_append] at hk
      rcases hk with hk | hk
      · exact h.key k hk
      · rw [List.mem_singleton.mp hk]
        exact cstr_cstr jkey

theorem clean_followCommand {j : IOTClientJNI} (h : Clean j) (jcmd : String8) :
    Clean (j.followCommand jcmd).2 := by
  simp only [followCommand]
  split
  · exact h
  · split
    · exact h
    · refine ⟨h.key, fun k hk => ?_⟩
      rcases List.mem_append.mp hk with hk | hk
      · exact h.cmd k hk
      · rw [List.mem_singleton.mp hk]
        exact cstr_cstr jcmd

theorem followProperty_maps (d : DeviceShadow) (c : ClientId) (key : String8) (type size : Int)
    (mem : Callocs) :
    (d.followProperty c key type size mem).2.m_keyFollow = (addTo d.m_keyFollow (cstr key) c).2 ∧
      (d.followProperty c key type size mem).2.m_cmdFollow = d.m_cmdFollow := by
  rcases d.followProperty_cases c key type size mem with ⟨reg, e⟩ | ⟨a, reg, e, -, -⟩
  · rw [e]
    exact ⟨rfl, rfl⟩
  · rw [e]
    exact ⟨rfl, rfl⟩

/-- **The first loop of `_postFollow`** follows every name of the property list. -/
theorem postProperties_maps (d : DeviceShadow) (c : ClientId) (mem : String8 → Callocs)
    (l : List PropertyInfo) (hl : ∀ k ∈ l.map fun p => p._key, cstr k = k) :
    (postProperties d c mem l).m_keyFollow = followed d.m_keyFollow c (l.map fun p => p._key) ∧
      (postProperties d c mem l).m_cmdFollow = d.m_cmdFollow := by
  induction l generalizing d with
  | nil => exact ⟨rfl, rfl⟩
  | cons p l ih =>
    obtain ⟨hk, hc⟩ := followProperty_maps d c p._key p._type p._size (mem p._key)
    rw [hl p._key List.mem_cons_self] at hk
    obtain ⟨ihk, ihc⟩ := ih (d.followProperty c p._key p._type p._size (mem p._key)).2
      fun k hk => hl k (List.mem_cons_of_mem _ hk)
    refine ⟨ihk.trans ?_, ihc.trans hc⟩
    rw [hk]
    rfl

theorem followCommand_maps (s : IOTService) (c : ClientId) (cmd : String8) :
    (s.followCommand c cmd).2 = { s with m_cmdFollow := (addTo s.m_cmdFollow (cstr cmd) c).2 } := by
  unfold IOTService.followCommand
  show (if (addTo s.m_cmdFollow (cstr cmd) c).1 ≠ 0 then (_ : Int × IOTService) else _).2 = _
  split <;> rfl

/-- **The second loop of `_postFollow`** follows every name of the command list. -/
theorem postCommands_maps (s : IOTService) (c : ClientId) (l : List String8)
    (hl : ∀ k ∈ l, cstr k = k) :
    (postCommands s c l).m_cmdFollow = followed s.m_cmdFollow c l ∧
      (postCommands s c l).m_keyFollow = s.m_keyFollow := by
  induction l generalizing s with
  | nil => exact ⟨rfl, rfl⟩
  | cons cmd l ih =>
    have hstep := followCommand_maps s c cmd
    rw [hl cmd List.mem_cons_self] at hstep
    obtain ⟨ihc, ihk⟩ := ih (s.followCommand c cmd).2 fun k hk => hl k (List.mem_cons_of_mem _ hk)
    refine ⟨ihc.trans ?_, ihk.trans ?_⟩
    · rw [hstep]
      rfl
    · rw [hstep]

theorem registCommandCB_maps (s : IOTService) (c : ClientId) (cb : Option CbId) :
    (s.registCommandCB c cb).2.m_keyFollow = s.m_keyFollow ∧
      (s.registCommandCB c cb).2.m_cmdFollow = s.m_cmdFollow := by
  unfold registCommandCB
  split <;> exact ⟨rfl, rfl⟩

theorem setPropertyCB_maps (s : IOTService) (c : ClientId) (cb : CbId) :
    (s.setPropertyCB c cb).2.m_keyFollow = s.m_keyFollow ∧
      (s.setPropertyCB c cb).2.m_cmdFollow = s.m_cmdFollow := by
  unfold setPropertyCB
  split <;> exact ⟨rfl, rfl⟩

/-- **What `_postFollow` leaves in the two maps.** -/
theorem postFollow_maps {j : IOTClientJNI} (hj : Clean j) {c : ClientId} (hp : j.m_proxy = some c)
    (d : DeviceShadow) (mem : String8 → Callocs) :
    (j._postFollow d mem).2.m_keyFollow = followed d.m_keyFollow c j.keys ∧
      (j._postFollow d mem).2.m_cmdFollow = followed d.m_cmdFollow c j.m_commandList := by
  obtain ⟨hpk, hpc⟩ := postProperties_maps d c mem j.m_propertyList hj.key
  obtain ⟨hcc, hck⟩ := postCommands_maps (postProperties d c mem j.m_propertyList).toIOTService c
    j.m_commandList hj.cmd
  simp only [_postFollow, hp]
  constructor
  · rw [(setPropertyCB_maps _ c _).1, (registCommandCB_maps _ c _).1, hck, hpk]
    rfl
  · rw [(setPropertyCB_maps _ c _).2, (registCommandCB_maps _ c _).2, hcc, hpc]

/-- **The server sent with the lists `L`**: the client `c`, which was in no list,
    follows exactly the names of `L`. -/
structure Sent (s₀ : IOTService) (L : Topic → Prop) (c : ClientId) (s : IOTService) : Prop where
  key : ∀ k, (L (.key k) → s.m_keyFollow[k]? = some (some (stored s₀.m_keyFollow k ++ [c]))) ∧
    (¬ L (.key k) → s.m_keyFollow[k]? = s₀.m_keyFollow[k]?)
  cmd : ∀ k, (L (.cmd k) → s.m_cmdFollow[k]? = some (some (stored s₀.m_cmdFollow k ++ [c]))) ∧
    (¬ L (.cmd k) → s.m_cmdFollow[k]? = s₀.m_cmdFollow[k]?)

/-- A client whose address is new follows nothing. -/
theorem not_stored {m : FollowMap} {n : ClientId} (h : Older m n) (k : String8) :
    n ∉ stored m k := fun hm => Nat.lt_irrefl n (h k n hm)

/-- **`connService` of an unconnected client** changes nothing, or makes the new
    client follow what is listed. -/
theorem connService_cases {j : IOTClientJNI} (hj : Clean j) (hp : j.m_proxy = none)
    {d : DeviceShadow} (hd : Proper d.toIOTService) (timeout_ms : Int) (polls : Nat → Option Int)
    (mem : String8 → Callocs) :
    (∃ ret, j.connService d timeout_ms polls mem = (ret, j, d)) ∨
      ∃ ret d', j.connService d timeout_ms polls mem =
          (ret, { j with m_proxy := some d.fresh }, d') ∧
        Sent d.toIOTService j.Listed d.fresh d'.toIOTService := by
  have hself : { j with m_proxy := none } = j := by
    rw [← hp]
  simp only [connService, hp, Option.isSome_none, Bool.false_eq_true, if_false, _connect]
  split
  · exact .inl ⟨_, rfl⟩
  · unfold createClient
    split
    · -- the proxy is set, so the lists are sent
      refine .inr ?_
      obtain ⟨hk, hc⟩ := postFollow_maps (j := { j with m_proxy := some d.fresh })
        ⟨hj.key, hj.cmd⟩ rfl { d with toIOTService := (d.insertClient j.m_clientID).2 } mem
      refine ⟨_, _, rfl, ⟨fun k => ?_, fun k => ?_⟩⟩
      · have hget := (congrArg (·[k]?) hk).trans
          (followed_get hd.keyNull (not_stored hd.keyOld) j.keys k)
        exact ⟨fun hL => hget.trans (if_pos hL), fun hL => hget.trans (if_neg hL)⟩
      · have hget := (congrArg (·[k]?) hc).trans
          (followed_get hd.cmdNull (not_stored hd.cmdOld) j.m_commandList k)
        exact ⟨fun hL => hget.trans (if_pos hL), fun hL => hget.trans (if_neg hL)⟩
    · refine .inl ⟨ERR_PROXY_NULL, ?_⟩
      simp only [hself]
      rfl

/-- `connService` does not touch the lists. -/
theorem connService_lists (j : IOTClientJNI) (d : DeviceShadow) (timeout_ms : Int)
    (polls : Nat → Option Int) (mem : String8 → Callocs) :
    (j.connService d timeout_ms polls mem).2.1.m_propertyList = j.m_propertyList ∧
      (j.connService d timeout_ms polls mem).2.1.m_commandList = j.m_commandList := by
  have hconn : (j._connect d timeout_ms polls).2.1.m_propertyList = j.m_propertyList ∧
      (j._connect d timeout_ms polls).2.1.m_commandList = j.m_commandList := by
    unfold _connect
    split <;> exact ⟨rfl, rfl⟩
  unfold connService
  split
  · exact ⟨rfl, rfl⟩
  · show (if (j._connect d timeout_ms polls).1 < 0 then
        (_ : Int × IOTClientJNI × DeviceShadow) else _).2.1.m_propertyList = _ ∧
      (if (j._connect d timeout_ms polls).1 < 0 then
        (_ : Int × IOTClientJNI × DeviceShadow) else _).2.1.m_commandList = _
    split <;> exact hconn

end IOTClientJNI

/-! ## 5. Follow and connect -/

namespace App

open IOTService

/-- The name a call asks to follow. -/
def Call.follows : Call → Option Topic
  | .followProperty jkey _ _ => if cstr jkey = [] then none else some (.key (cstr jkey))
  | .followCommand jcmd => if cstr jcmd = [] then none else some (.cmd (cstr jcmd))
  | .connService _ _ _ => none

/-- The name whose follow returned `ERR_NOERROR`. -/
def acceptedBy (s : App) (call : Call) : Option Topic :=
  if (s.exec call).1 = ERR_NOERROR then call.follows else none

/-- The names whose follow returned `ERR_NOERROR` in a run. -/
def accepted (s : App) : List Call → List Topic
  | [] => []
  | call :: calls => (s.acceptedBy call).toList ++ (s.exec call).2.accepted calls

/-- The call asks for a name that is not listed yet. -/
def IsNew (s : App) (call : Call) : Prop := ∃ t ∈ call.follows, ¬ s.jni.Listed t

/-- **The condition on a run**: no new name is followed while `m_proxy` is set. -/
def FollowsFirst (s : App) : List Call → Prop
  | [] => True
  | call :: calls =>
    (s.jni.m_proxy.isSome = true → ¬ s.IsNew call) ∧ (s.exec call).2.FollowsFirst calls

theorem length_le_zero {b : Bytes} : b.length ≤ 0 ↔ b = [] := by
  rw [Nat.le_zero, List.length_eq_zero_iff]

theorem param_invalid_ne : ¬ ERR_PARAM_INVALID = ERR_NOERROR := by decide

/-- **What one call does to the lists**: it leaves them alone and accepts nothing
    new, or it accepts one new name and lists it. -/
inductive ListStep (s : App) (call : Call) : Prop where
  | same (hacc : s.acceptedBy call = none) (hall : ∀ t ∈ call.follows, s.jni.Listed t)
      (hl : ∀ t, (s.exec call).2.jni.Listed t ↔ s.jni.Listed t) : ListStep s call
  | adds (t₀ : Topic) (hacc : s.acceptedBy call = some t₀) (hf : call.follows = some t₀)
      (hnew : ¬ s.jni.Listed t₀)
      (hl : ∀ t, (s.exec call).2.jni.Listed t ↔ s.jni.Listed t ∨ t = t₀) : ListStep s call

/-- A call without a name, or refused with `ERR_PARAM_INVALID` for a listed one. -/
theorem ListStep.refused {s : App} {call : Call} (hj : (s.exec call).2.jni = s.jni)
    (h : call.follows = none ∨
      (s.exec call).1 = ERR_PARAM_INVALID ∧ ∀ t ∈ call.follows, s.jni.Listed t) :
    ListStep s call := by
  refine .same ?_ ?_ fun t => by rw [hj]
  · unfold acceptedBy
    rcases h with h | ⟨h, -⟩
    · rw [h, ite_self]
    · rw [h]
      exact if_neg param_invalid_ne
  · rcases h with h | ⟨-, h⟩
    · rw [h]
      exact fun t ht => by cases ht
    · exact h

/-- A call that asks for `t`: refused where it is listed, and listed where it is not. -/
theorem ListStep.follow {s : App} {call : Call} {t : Topic} (hf : call.follows = some t)
    (hin : s.jni.Listed t → s.exec call = (ERR_PARAM_INVALID, s))
    (hnew : ¬ s.jni.Listed t → (s.exec call).1 = ERR_NOERROR ∧
      ∀ t', (s.exec call).2.jni.Listed t' ↔ s.jni.Listed t' ∨ t' = t) : ListStep s call := by
  by_cases hl : s.jni.Listed t
  · have hexec := hin hl
    refine .refused (by rw [hexec]) (.inr ⟨by rw [hexec], fun t' ht => ?_⟩)
    rw [hf] at ht
    obtain rfl := Option.some.inj ht
    exact hl
  · obtain ⟨hret, hlist⟩ := hnew hl
    refine .adds t ?_ hf hl hlist
    rw [acceptedBy, if_pos hret, hf]

theorem listStep_followProperty (s : App) (jkey : String8) (type size : Int) :
    ListStep s (.followProperty jkey type size) := by
  by_cases hne : cstr jkey = []
  · refine .refused ?_ (.inl (if_pos hne))
    simp only [exec, IOTClientJNI.followProperty, if_pos (length_le_zero.mpr hne)]
  · have hlen : ¬ (cstr jkey).length ≤ 0 := fun h => hne (length_le_zero.mp h)
    refine .follow (t := .key (cstr jkey)) (if_neg hne) (fun hin => ?_) fun hnew => ?_
    · have hmem : cstr jkey ∈ s.jni.keys := hin
      simp only [exec, IOTClientJNI.followProperty, if_neg hlen, if_pos hmem]
    · have hmem : cstr jkey ∉ s.jni.keys := hnew
      simp only [exec, IOTClientJNI.followProperty, if_neg hlen, if_neg hmem, true_and]
      intro t
      cases t with
      | key k => simp [IOTClientJNI.Listed, IOTClientJNI.keys]
      | cmd k => simp [IOTClientJNI.Listed]
      | clients => simp [IOTClientJNI.Listed]

theorem listStep_followCommand (s : App) (jcmd : String8) : ListStep s (.followCommand jcmd) := by
  by_cases hne : cstr jcmd = []
  · refine .refused ?_ (.inl (if_pos hne))
    simp only [exec, IOTClientJNI.followCommand, if_pos (length_le_zero.mpr hne)]
  · have hlen : ¬ (cstr jcmd).length ≤ 0 := fun h => hne (length_le_zero.mp h)
    refine .follow (t := .cmd (cstr jcmd)) (if_neg hne) (fun hin => ?_) fun hnew => ?_
    · have hmem : cstr jcmd ∈ s.jni.m_commandList := hin
      simp only [exec, IOTClientJNI.followCommand, if_neg hlen, if_pos hmem]
    · have hmem : cstr jcmd ∉ s.jni.m_commandList := hnew
      simp only [exec, IOTClientJNI.followCommand, if_neg hlen, if_neg hmem, true_and]
      intro t
      cases t with
      | key k => simp [IOTClientJNI.Listed, IOTClientJNI.keys]
      | cmd k => simp [IOTClientJNI.Listed]
      | clients => simp [IOTClientJNI.Listed]

theorem listStep_connService (s : App) (timeout_ms : Int) (polls : Nat → Option Int)
    (mem : String8 → Callocs) : ListStep s (.connService timeout_ms polls mem) := by
  obtain ⟨hp, hc⟩ := s.jni.connService_lists s.server timeout_ms polls mem
  refine .same (ite_self _) (fun t ht => by cases ht) fun t => ?_
  cases t with
  | key k =>
    show k ∈ (s.jni.connService s.server timeout_ms polls mem).2.1.keys ↔ _
    rw [IOTClientJNI.keys, hp]
    exact Iff.rfl
  | cmd k =>
    show k ∈ (s.jni.connService s.server timeout_ms polls mem).2.1.m_commandList ↔ _
    rw [hc]
    exact Iff.rfl
  | clients => exact Iff.rfl

theorem listStep_exec (s : App) (call : Call) : ListStep s call := by
  cases call with
  | followProperty jkey type size => exact listStep_followProperty s jkey type size
  | followCommand jcmd => exact listStep_followCommand s jcmd
  | connService timeout_ms polls mem => exact listStep_connService s timeout_ms polls mem

/-- The lists after a run: what was listed, and what was accepted. -/
theorem listed_run (s : App) (calls : List Call) (t : Topic) :
    (s.run calls).jni.Listed t ↔ s.jni.Listed t ∨ t ∈ s.accepted calls := by
  induction calls generalizing s with
  | nil => simp [run, accepted]
  | cons call calls ih =>
    rw [show s.run (call :: calls) = (s.exec call).2.run calls from rfl, ih, accepted]
    cases s.listStep_exec call with
    | same hacc _ hl =>
      rw [hacc, hl]
      simp
    | adds t₀ hacc _ _ hl =>
      rw [hacc, hl]
      simp [or_assoc]

/-- What a run accepts was not listed before. -/
theorem accepted_new {s : App} {calls : List Call} {t : Topic} (h : t ∈ s.accepted calls) :
    ¬ s.jni.Listed t := by
  induction calls generalizing s with
  | nil => cases h
  | cons call calls ih =>
    rw [accepted] at h
    cases s.listStep_exec call with
    | same hacc _ hl =>
      rw [hacc] at h
      exact fun hL => ih h ((hl t).mpr hL)
    | adds t₀ hacc _ hnew hl =>
      rw [hacc] at h
      rcases List.mem_cons.mp h with rfl | h
      · exact hnew
      · exact fun hL => ih h ((hl t).mpr (.inl hL))

/-- A call is new exactly where it is accepted. -/
theorem isNew_iff (s : App) (call : Call) : s.IsNew call ↔ s.acceptedBy call ≠ none := by
  cases s.listStep_exec call with
  | same hacc hall _ =>
    rw [hacc]
    exact ⟨fun ⟨t, ht, hn⟩ => absurd (hall t ht) hn, fun h => absurd rfl h⟩
  | adds t₀ hacc hf hnew _ =>
    rw [hacc]
    exact ⟨fun _ e => (by cases e), fun _ => ⟨t₀, hf, hnew⟩⟩

/-- **Connected, and the server was sent the lists `L`.** -/
structure Linked (s₀ : IOTService) (L : Topic → Prop) (s : App) : Prop where
  proxy : s.jni.m_proxy = some s₀.fresh
  sent : IOTClientJNI.Sent s₀ L s₀.fresh s.server.toIOTService

/-- Not connected yet, and the server is as it was. -/
structure Unlinked (d : DeviceShadow) (s : App) : Prop where
  proxy : s.jni.m_proxy = none
  server : s.server = d
  clean : s.jni.Clean

/-- **While connected no call reaches the server.** -/
theorem linked_exec {s₀ : IOTService} {L : Topic → Prop} {s : App} (h : Linked s₀ L s)
    (call : Call) : Linked s₀ L (s.exec call).2 := by
  cases call with
  | followProperty jkey type size =>
    simp only [exec, IOTClientJNI.followProperty]
    split
    · exact h
    · split
      · exact h
      · exact ⟨h.proxy, h.sent⟩
  | followCommand jcmd =>
    simp only [exec, IOTClientJNI.followCommand]
    split
    · exact h
    · split
      · exact h
      · exact ⟨h.proxy, h.sent⟩
  | connService timeout_ms polls mem =>
    have hp := h.proxy
    simp only [exec, IOTClientJNI.connService, hp, Option.isSome_some, if_true]
    exact h

theorem linked_run {s₀ : IOTService} {L : Topic → Prop} {s : App} (h : Linked s₀ L s)
    (calls : List Call) : Linked s₀ L (s.run calls) := by
  induction calls generalizing s with
  | nil => exact h
  | cons call calls ih => exact ih (linked_exec h call)

/-- From a connected state the condition says that nothing is accepted. -/
theorem followsFirst_linked {s₀ : IOTService} {L : Topic → Prop} {s : App} (h : Linked s₀ L s)
    (calls : List Call) : s.FollowsFirst calls ↔ s.accepted calls = [] := by
  induction calls generalizing s with
  | nil => exact ⟨fun _ => rfl, fun _ => trivial⟩
  | cons call calls ih =>
    have hp : s.jni.m_proxy.isSome = true := by rw [h.proxy]; rfl
    rw [FollowsFirst, accepted, ih (linked_exec h call), List.append_eq_nil_iff, isNew_iff]
    cases s.acceptedBy call with
    | none => simp
    | some t => simp [hp]

/-- **A call of an unconnected application** leaves it so, or connects it. -/
theorem unlinked_exec {d : DeviceShadow} (hd : Proper d.toIOTService) {s : App}
    (h : Unlinked d s) (call : Call) :
    Unlinked d (s.exec call).2 ∨ (Linked d.toIOTService s.jni.Listed (s.exec call).2 ∧
      ∀ t, (s.exec call).2.jni.Listed t ↔ s.jni.Listed t) := by
  cases call with
  | followProperty jkey type size =>
    have hclean := IOTClientJNI.clean_followProperty h.clean jkey type size
    refine .inl ⟨?_, h.server, hclean⟩
    simp only [exec, IOTClientJNI.followProperty]
    split
    · exact h.proxy
    · split
      · exact h.proxy
      · exact h.proxy
  | followCommand jcmd =>
    have hclean := IOTClientJNI.clean_followCommand h.clean jcmd
    refine .inl ⟨?_, h.server, hclean⟩
    simp only [exec, IOTClientJNI.followCommand]
    split
    · exact h.proxy
    · split
      · exact h.proxy
      · exact h.proxy
  | connService timeout_ms polls mem =>
    have hsd : Proper s.server.toIOTService := by rw [h.server]; exact hd
    rcases IOTClientJNI.connService_cases h.clean h.proxy hsd timeout_ms polls mem with
      ⟨ret, e⟩ | ⟨ret, d', e, hsent⟩
    · simp only [exec, e]
      exact .inl h
    · simp only [exec, e]
      rw [h.server] at hsent
      refine .inr ⟨⟨by rw [h.server], hsent⟩, fun t => ?_⟩
      cases t <;> exact Iff.rfl

/-- **A run from an unconnected state** stays there, or connects once: the server
    then has the lists of that moment, and the condition says that the lists did
    not grow after it. -/
theorem unlinked_run {d : DeviceShadow} (hd : Proper d.toIOTService) {s : App} (h : Unlinked d s)
    (calls : List Call) :
    (Unlinked d (s.run calls) ∧ s.FollowsFirst calls) ∨
      ∃ L : Topic → Prop, Linked d.toIOTService L (s.run calls) ∧
        (∀ t, L t → (s.run calls).jni.Listed t) ∧
        (s.FollowsFirst calls ↔ ∀ t, (s.run calls).jni.Listed t → L t) := by
  induction calls generalizing s with
  | nil => exact .inl ⟨h, trivial⟩
  | cons call calls ih =>
    have hrun : s.run (call :: calls) = (s.exec call).2.run calls := rfl
    have hnot : ¬ s.jni.m_proxy.isSome = true := by rw [h.proxy]; decide
    have hff : s.FollowsFirst (call :: calls) ↔ (s.exec call).2.FollowsFirst calls :=
      ⟨fun hF => hF.2, fun hF => ⟨fun hp => absurd hp hnot, hF⟩⟩
    rw [hrun, hff]
    rcases unlinked_exec hd h call with hU | ⟨hL, hlists⟩
    · exact ih hU
    · -- this call connects, and the lists of this moment were sent
      refine .inr ⟨s.jni.Listed, linked_run hL calls, fun t ht => ?_, ?_⟩
      · exact (listed_run _ calls t).mpr (.inl ((hlists t).mpr ht))
      · rw [followsFirst_linked hL]
        constructor
        · intro hnil t ht
          rcases (listed_run _ calls t).mp ht with ht | ht
          · exact (hlists t).mp ht
          · rw [hnil] at ht
            cases ht
        · intro hall
          cases hacc : (s.exec call).2.accepted calls with
          | nil => rfl
          | cons t ts =>
            have hm : t ∈ (s.exec call).2.accepted calls := by
              rw [hacc]
              exact List.mem_cons_self
            exact absurd ((hlists t).mpr (hall t ((listed_run _ calls t).mpr (.inr hm))))
              (accepted_new hm)

/-- The server holds the client under the name. -/
def Holds (d : DeviceShadow) (c : ClientId) : Topic → Prop
  | .key k => c ∈ stored d.m_keyFollow k
  | .cmd k => c ∈ stored d.m_cmdFollow k
  | .clients => False

instance (d : DeviceShadow) (c : ClientId) (t : Topic) : Decidable (Holds d c t) := by
  cases t <;> simp only [Holds] <;> infer_instance

/-- Where the application is connected, the server holds its client exactly under
    the names on the lists. -/
def InStep (s : App) : Prop :=
  ∀ c, s.jni.m_proxy = some c → ∀ t, Holds s.server c t ↔ s.jni.Listed t

/-- The two servers have the same follow maps. -/
def SameFollows (d d' : DeviceShadow) : Prop :=
  ∀ k : String8, d.m_keyFollow[k]? = d'.m_keyFollow[k]? ∧ d.m_cmdFollow[k]? = d'.m_cmdFollow[k]?

/-- A client that is sent to one map is in the lists of the sent names only. -/
theorem mem_stored_sent {m m₀ : FollowMap} {c : ClientId} (hc : ∀ k, c ∉ stored m₀ k) {k : String8}
    {p : Prop} (hyes : p → m[k]? = some (some (stored m₀ k ++ [c]))) (hno : ¬ p → m[k]? = m₀[k]?) :
    c ∈ stored m k ↔ p := by
  by_cases hp : p
  · rw [stored_of_get (hyes hp)]
    exact ⟨fun _ => hp, fun _ => List.mem_append_right _ List.mem_cons_self⟩
  · have hs : stored m k = stored m₀ k := by
      rw [stored, hno hp]
      rfl
    rw [hs]
    exact ⟨fun h => absurd h (hc k), fun h => absurd h hp⟩

/-- The server holds a connected client exactly under the names it was sent. -/
theorem Linked.holds {d : DeviceShadow} (hd : Proper d.toIOTService) {L : Topic → Prop}
    (hL : ¬ L .clients) {s : App} (h : Linked d.toIOTService L s) (t : Topic) :
    Holds s.server d.fresh t ↔ L t := by
  cases t with
  | key k =>
    exact mem_stored_sent (IOTClientJNI.not_stored hd.keyOld) (h.sent.key k).1 (h.sent.key k).2
  | cmd k =>
    exact mem_stored_sent (IOTClientJNI.not_stored hd.cmdOld) (h.sent.cmd k).1 (h.sent.cmd k).2
  | clients => exact ⟨fun hf => absurd hf id, fun hf => absurd hf hL⟩

theorem unlinked_start (d : DeviceShadow) (clientID : String8) (commandCB propertyCB : CbId) :
    Unlinked d (start d clientID commandCB propertyCB) :=
  ⟨rfl, rfl, fun _ h => absurd h List.not_mem_nil, fun _ h => absurd h List.not_mem_nil⟩

/-- From the start the lists are what was accepted. -/
theorem listed_start (d : DeviceShadow) (clientID : String8) (commandCB propertyCB : CbId)
    (calls : List Call) (t : Topic) :
    ((start d clientID commandCB propertyCB).run calls).jni.Listed t ↔
      t ∈ (start d clientID commandCB propertyCB).accepted calls := by
  have hempty : ¬ (start d clientID commandCB propertyCB).jni.Listed t := by
    cases t with
    | key k => exact List.not_mem_nil
    | cmd k => exact List.not_mem_nil
    | clients => exact id
  rw [listed_run]
  exact ⟨fun h => h.resolve_left hempty, .inr⟩

/-- What a server that was sent `L` stores, it stores for every `L'` that is the same. -/
theorem sameFollows_sent {s₀ : IOTService} {L L' : Topic → Prop} {c : ClientId}
    {d d' : DeviceShadow} (h : IOTClientJNI.Sent s₀ L c d.toIOTService)
    (h' : IOTClientJNI.Sent s₀ L' c d'.toIOTService) (hLL : ∀ t, L t ↔ L' t) : SameFollows d d' := by
  intro k
  constructor
  · by_cases hk : L (.key k)
    · rw [(h.key k).1 hk, (h'.key k).1 ((hLL _).mp hk)]
    · rw [(h.key k).2 hk, (h'.key k).2 fun hk' => hk ((hLL _).mpr hk')]
  · by_cases hk : L (.cmd k)
    · rw [(h.cmd k).1 hk, (h'.cmd k).1 ((hLL _).mp hk)]
    · rw [(h.cmd k).2 hk, (h'.cmd k).2 fun hk' => hk ((hLL _).mpr hk')]

/-- **Follow and connect**: the server and the lists agree if and only if no new
    name was followed while connected; and then the follow maps depend only on
    the names that were accepted and on whether a connect succeeded. -/
theorem follow_connect_iff {d : DeviceShadow} (hd : requests.Reachable d.toIOTService)
    (clientID : String8) (commandCB propertyCB : CbId) (calls : List Call) :
    let s := start d clientID commandCB propertyCB
    ((s.run calls).InStep ↔ s.FollowsFirst calls) ∧
      ∀ calls', s.FollowsFirst calls → s.FollowsFirst calls' →
        (s.run calls).jni.m_proxy.isSome = (s.run calls').jni.m_proxy.isSome →
          (∀ t, t ∈ s.accepted calls ↔ t ∈ s.accepted calls') →
            SameFollows (s.run calls).server (s.run calls').server := by
  intro s
  have hD := proper_reach hd
  have hstart : Unlinked d s := unlinked_start d clientID commandCB propertyCB
  refine ⟨?_, fun calls' hF hF' hsome hacc => ?_⟩
  · rcases unlinked_run hD hstart calls with ⟨hU, hF⟩ | ⟨L, hL, hsub, hiff⟩
    · refine ⟨fun _ => hF, fun _ c hc => ?_⟩
      rw [hU.proxy] at hc
      cases hc
    · have hholds := hL.holds hD (fun h => hsub .clients h)
      rw [hiff]
      constructor
      · intro hin t ht
        exact (hholds t).mp ((hin _ hL.proxy t).mpr ht)
      · intro hall c hc t
        obtain rfl := Option.some.inj (hL.proxy.symm.trans hc)
        exact (hholds t).trans ⟨hsub t, hall t⟩
  · rcases unlinked_run hD hstart calls with ⟨hU, -⟩ | ⟨L, hL, hsub, hiff⟩
    · rcases unlinked_run hD hstart calls' with ⟨hU', -⟩ | ⟨L', hL', -, -⟩
      · rw [hU.server, hU'.server]
        exact fun _ => ⟨rfl, rfl⟩
      · rw [hU.proxy, hL'.proxy] at hsome
        cases hsome
    · rcases unlinked_run hD hstart calls' with ⟨hU', -⟩ | ⟨L', hL', hsub', hiff'⟩
      · rw [hL.proxy, hU'.proxy] at hsome
        cases hsome
      · -- each server was sent its own final lists, and those are the accepted names
        refine sameFollows_sent hL.sent hL'.sent fun t => ?_
        have hl : L t ↔ t ∈ s.accepted calls :=
          (Iff.intro (hsub t) (hiff.mp hF t)).trans (listed_start d _ _ _ calls t)
        have hl' : L' t ↔ t ∈ s.accepted calls' :=
          (Iff.intro (hsub' t) (hiff'.mp hF' t)).trans (listed_start d _ _ _ calls' t)
        exact hl.trans ((hacc t).trans hl'.symm)

/-- A server that is up. -/
def upServer : DeviceShadow := { DeviceShadow.init false with m_shadow := some 0 }

/-- A connect to it. -/
def connects : Call := .connService 1000 (fun _ => some upServer.getServiceStatus) fun _ => .succeed

/-- `follow_connect_iff` for a follow and then a connect. -/
theorem follow_connect_iff_power :
    let s := (start upServer (lit "tv") 1 2).run
      [.followProperty (lit "power") IOT_PROPERTY_INT32 4, connects]
    s.jni.m_proxy = some 0 ∧ s.InStep := by
  have hup : requests.Reachable upServer.toIOTService := .init _ rfl
  refine ⟨by decide, (follow_connect_iff hup (lit "tv") 1 2 _).1.mpr ?_⟩
  exact ⟨fun h => (by cases h), fun h => absurd h (by decide), trivial⟩

/-- **A follow that is never sent**: connect, then follow. -/
theorem follow_unsent : ¬ ∀ d : DeviceShadow, requests.Reachable d.toIOTService →
    ∀ calls, ((start d (lit "tv") 1 2).run calls).InStep := by
  intro h
  have hin := h upServer (.init _ rfl) [connects, .followProperty (lit "power") IOT_PROPERTY_INT32 4]
    0 (by decide) (.key (lit "power"))
  exact absurd (hin.mpr (by decide)) (by decide)

end App

end IotWrap
