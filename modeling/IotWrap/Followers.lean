/-
  File:      IotWrap/Followers.lean
  Subject:   Whether a removed client is followed or called again.

  `removeClient` takes a client out of every list and `addFollowing` does not
  look whether its client is still in `m_clients`, so a follow that is served
  after the removal enters it again, and nothing removes it.

  * `followers_present`: the condition on a run under which every follower is in
    `m_clients` and a removed client is not called, and that it is needed;
  * `follower_dangles`: a follow in flight while its client is removed.
-/
import IotWrap.Sessions

namespace IotWrap

open Lib

namespace Sessions

open IOTService

/-! ## 1. The lists of a follow map -/

/-- The lists of a follow map after `addTo`. -/
theorem stored_addTo {m : FollowMap} (hn : NoNull m) (val k : String8) (c : ClientId) :
    stored (addTo m val c).2 k =
      if val = k ∧ c ∉ stored m k then stored m k ++ [c] else stored m k := by
  have hget := addTo_get (hn val) c k
  by_cases hk : val = k
  · subst hk
    rw [if_pos rfl] at hget
    rw [stored_of_get hget]
    by_cases hc : c ∈ stored m val
    · rw [if_pos hc, if_neg (fun h => h.2 hc)]
    · rw [if_neg hc, if_pos ⟨rfl, hc⟩]
  · rw [if_neg hk] at hget
    rw [if_neg (fun h => hk h.1)]
    simp only [stored, hget]

/-- What they hold. -/
theorem mem_stored_addTo {m : FollowMap} (hn : NoNull m) (val k : String8) (c c' : ClientId) :
    c' ∈ stored (addTo m val c).2 k ↔ c' ∈ stored m k ∨ (val = k ∧ c' = c) := by
  rw [stored_addTo hn]
  split
  case isTrue h =>
    rw [List.mem_append, List.mem_singleton]
    exact or_congr_right (and_iff_right h.1).symm
  case isFalse h =>
    refine (or_iff_left_of_imp ?_).symm
    rintro ⟨hk, rfl⟩
    by_contra hc
    exact h ⟨hk, hc⟩

theorem stored_dropFrom (m : FollowMap) (c : ClientId) (k : String8) :
    stored (dropFrom m c) k = (stored m k).erase c := by
  have hget : (dropFrom m c)[k]? = (m[k]?).map fun v => v.map fun l => l.erase c :=
    Std.TreeMap.getElem?_map
  simp only [stored, hget]
  cases m[k]? with
  | none => rfl
  | some v =>
    cases v with
    | none => rfl
    | some l => rfl

/-- Every list of the map holds a client once. -/
def Distinct (m : FollowMap) : Prop := ∀ k, (stored m k).Nodup

theorem distinct_addTo {m : FollowMap} (hn : NoNull m) (h : Distinct m) (val : String8)
    (c : ClientId) : Distinct (addTo m val c).2 := by
  intro k
  rw [stored_addTo hn]
  split
  case isTrue hnew =>
    refine List.nodup_append.mpr ⟨h k, List.nodup_singleton c, fun a ha b hb e => hnew.2 ?_⟩
    rw [← List.mem_singleton.mp hb, ← e]
    exact ha
  case isFalse => exact h k

theorem distinct_dropFrom {m : FollowMap} (h : Distinct m) (c : ClientId) :
    Distinct (dropFrom m c) := by
  intro k
  rw [stored_dropFrom]
  exact (h k).erase c

/-! ## 2. Followers are clients -/

/-- The client occurs in a list of one of the two maps. -/
def Follows (s : IOTService) (c : ClientId) : Prop :=
  ∃ k, c ∈ stored s.m_keyFollow k ∨ c ∈ stored s.m_cmdFollow k

/-- **No dangling follower**, and every list holds a follower once. -/
structure Present (s : State) : Prop where
  keyOnce : Distinct s.service.m_keyFollow
  cmdOnce : Distinct s.service.m_cmdFollow
  listed : ∀ c, Follows s.service c → c ∈ s.service.m_clients

/-- **The condition**: a follow is served only while its client is in `m_clients`. -/
def Timely (s : State) : Label → Prop
  | .serve _ (.followProperty c _) => c ∈ s.service.m_clients
  | .serve _ (.followCommand c _) => c ∈ s.service.m_clients
  | _ => True

/-- A state whose maps are as before and whose clients are the same or more. -/
theorem Present.of_maps {s s' : State} (h : Present s)
    (hk : s'.service.m_keyFollow = s.service.m_keyFollow)
    (hc : s'.service.m_cmdFollow = s.service.m_cmdFollow)
    (hl : s.service.m_clients ⊆ s'.service.m_clients) : Present s' := by
  refine ⟨hk ▸ h.keyOnce, hc ▸ h.cmdOnce, fun c hf => hl (h.listed c ?_)⟩
  obtain ⟨k, hm⟩ := hf
  rw [hk, hc] at hm
  exact ⟨k, hm⟩

theorem present_followProperty {s : State} (hs : Sound s) (h : Present s) {c : ClientId}
    (hc : c ∈ s.service.m_clients) (p : ProcId) (key : String8) :
    Present (serve s p (.followProperty c key)) := by
  refine ⟨distinct_addTo hs.proper.keyNull h.keyOnce _ c, h.cmdOnce, fun c' hf => ?_⟩
  obtain ⟨k, hk | hk⟩ := hf
  · rcases (mem_stored_addTo hs.proper.keyNull _ _ _ _).mp hk with hk | ⟨-, rfl⟩
    · exact h.listed c' ⟨k, .inl hk⟩
    · exact hc
  · exact h.listed c' ⟨k, .inr hk⟩

theorem present_followCommand {s : State} (hs : Sound s) (h : Present s) {c : ClientId}
    (hc : c ∈ s.service.m_clients) (p : ProcId) (cmd : String8) :
    Present (serve s p (.followCommand c cmd)) := by
  refine ⟨h.keyOnce, distinct_addTo hs.proper.cmdNull h.cmdOnce _ c, fun c' hf => ?_⟩
  obtain ⟨k, hk | hk⟩ := hf
  · exact h.listed c' ⟨k, .inl hk⟩
  · rcases (mem_stored_addTo hs.proper.cmdNull _ _ _ _).mp hk with hk | ⟨-, rfl⟩
    · exact h.listed c' ⟨k, .inr hk⟩
    · exact hc

/-- Registrations leave the maps alone, and so does the size test. -/
theorem serve_maps (s : State) (p : ProcId) (r : Request)
    (hk : ∀ c key, r ≠ .followProperty c key) (hc : ∀ c cmd, r ≠ .followCommand c cmd) :
    (serve s p r).service.m_keyFollow = s.service.m_keyFollow ∧
      (serve s p r).service.m_cmdFollow = s.service.m_cmdFollow := by
  cases r with
  | createClient name =>
    simp only [serve]
    split <;> exact ⟨rfl, rfl⟩
  | followProperty c key => exact absurd rfl (hk c key)
  | followCommand c cmd => exact absurd rfl (hc c cmd)
  | registCommandCB c cmdCB => exact IOTClientJNI.registCommandCB_maps s.service c cmdCB
  | registPropertyCB c proCB =>
    rcases serve_registPropertyCB s p c proCB with e | ⟨links, -, e⟩
    · rw [e]
      exact ⟨rfl, rfl⟩
    · rw [e]
      exact IOTClientJNI.setPropertyCB_maps s.service c proCB

theorem present_serve {s : State} (hs : Sound s) (h : Present s) {p : ProcId} {r : Request}
    (ht : Timely s (.serve p r)) : Present (serve s p r) := by
  have hl : s.service.m_clients ⊆ (serve s p r).service.m_clients :=
    (serve_frame s p r).clients ▸ List.Subset.refl _
  cases r with
  | followProperty c key => exact present_followProperty hs h ht p key
  | followCommand c cmd => exact present_followCommand hs h ht p cmd
  | createClient name =>
    obtain ⟨hk, hc⟩ := serve_maps s p (.createClient name) (by simp) (by simp)
    exact h.of_maps hk hc hl
  | registCommandCB c cmdCB =>
    obtain ⟨hk, hc⟩ := serve_maps s p (.registCommandCB c cmdCB) (by simp) (by simp)
    exact h.of_maps hk hc hl
  | registPropertyCB c proCB =>
    obtain ⟨hk, hc⟩ := serve_maps s p (.registPropertyCB c proCB) (by simp) (by simp)
    exact h.of_maps hk hc hl

theorem present_step {s : State} {l : Label} (hs : Sound s) (h : Present s) (ht : Timely s l) :
    Present (next s l) := by
  cases l with
  | send p r => exact h.of_maps rfl rfl (List.Subset.refl _)
  | serve p r =>
    have h' : Present { s with sent := s.sent.erase (p, r) } :=
      h.of_maps rfl rfl (List.Subset.refl _)
    have ht' : Timely { s with sent := s.sent.erase (p, r) } (.serve p r) := by
      cases r <;> exact ht
    exact present_serve (sound_taken hs (p, r)) h' ht'
  | insert p name => exact h.of_maps rfl rfl (List.subset_append_left _ _)
  | die p => exact h.of_maps rfl rfl (List.Subset.refl _)
  | notify c =>
    have e := removeClient_eq s.service c
    simp only [next, binderDied, e]
    refine ⟨distinct_dropFrom h.keyOnce c, distinct_dropFrom h.cmdOnce c, fun c' hf => ?_⟩
    obtain ⟨k, hk⟩ := hf
    rw [stored_dropFrom, stored_dropFrom, (h.keyOnce k).mem_erase_iff,
      (h.cmdOnce k).mem_erase_iff] at hk
    rcases hk with ⟨hne, hk⟩ | ⟨hne, hk⟩
    · exact (List.mem_erase_of_ne hne).mpr (h.listed c' ⟨k, .inl hk⟩)
    · exact (List.mem_erase_of_ne hne).mpr (h.listed c' ⟨k, .inr hk⟩)

/-- **A follow that is served too late** leaves a dangling follower. -/
theorem dangling_of_late {s : State} {l : Label} (hs : Sound s) (hl : ¬ Timely s l) :
    ∃ c, Follows (next s l).service c ∧ c ∉ (next s l).service.m_clients := by
  cases l with
  | serve p r =>
    have hf := serve_frame { s with sent := s.sent.erase (p, r) } p r
    cases r with
    | followProperty c key =>
      refine ⟨c, ⟨cstr key, .inl ?_⟩, ?_⟩
      · exact (mem_stored_addTo hs.proper.keyNull _ _ _ _).mpr (.inr ⟨rfl, rfl⟩)
      · rw [show (next s (.serve p (.followProperty c key))).service.m_clients =
          s.service.m_clients from hf.clients]
        exact hl
    | followCommand c cmd =>
      refine ⟨c, ⟨cstr cmd, .inr ?_⟩, ?_⟩
      · exact (mem_stored_addTo hs.proper.cmdNull _ _ _ _).mpr (.inr ⟨rfl, rfl⟩)
      · rw [show (next s (.serve p (.followCommand c cmd))).service.m_clients =
          s.service.m_clients from hf.clients]
        exact hl
    | createClient name => exact absurd trivial hl
    | registCommandCB c cmdCB => exact absurd trivial hl
    | registPropertyCB c proCB => exact absurd trivial hl
  | send p r => exact absurd trivial hl
  | insert p name => exact absurd trivial hl
  | die p => exact absurd trivial hl
  | notify c => exact absurd trivial hl

/-! ## 3. Whom a dispatch calls -/

/-- **What `callPropertyGet` returns** depends on the answers to its calls alone. -/
theorem callPropertyGet_congr {s : IOTService} {ans ans' : Answers} {key : String8} {size : Nat}
    (h : ∀ i ∈ s.callPropertyGetCalls key size, ans i.cb key = ans' i.cb key) (val : Bytes) :
    s.callPropertyGet ans key val size = s.callPropertyGet ans' key val size := by
  have hfrom : ∀ (l : List ClientId) (g : GetLoop),
      (∀ i ∈ s.callAll IOTClient.m_property key [] l, ans i.cb key = ans' i.cb key) →
        l.foldl (s.getFrom ans key size) g = l.foldl (s.getFrom ans' key size) g := by
    intro l
    induction l with
    | nil => exact fun g _ => rfl
    | cons c l ih =>
      intro g hl
      cases hp : (s.client c).m_property with
      | none =>
        have hc : ∀ ans, s.getFrom ans key size g c = g := fun ans => by simp only [getFrom, hp]
        rw [List.foldl_cons, List.foldl_cons, hc, hc]
        exact ih g fun i hi => hl i (by simpa [callAll, hp] using hi)
      | some cb =>
        have hcb : ans cb key = ans' cb key := hl ⟨c, cb, key, []⟩ (by simp [callAll, hp])
        have hc : s.getFrom ans key size g c = s.getFrom ans' key size g c := by
          simp only [getFrom, hp, hcb]
        rw [List.foldl_cons, List.foldl_cons, hc]
        refine ih _ fun i hi => hl i ?_
        simp only [callAll, List.filterMap_cons, hp, Option.map_some]
        exact List.mem_cons_of_mem _ hi
  unfold callPropertyGetCalls call at h
  unfold callPropertyGet
  by_cases hsize : size ≤ 0
  · rw [if_pos hsize, if_pos hsize]
  · rw [if_neg hsize] at h ⊢
    rw [if_neg hsize]
    cases hm : s.m_keyFollow[key]? with
    | none =>
      cases hc : s.m_clients with
      | nil => rfl
      | cons c l =>
        rw [hm, hc] at h
        have hone := hfrom [c] ⟨[], 0, val⟩ h
        simp only [List.foldl_cons, List.foldl_nil] at hone
        simp only [hone]
    | some v =>
      cases v with
      | none => rfl
      | some l =>
        rw [hm] at h
        simp only [hfrom l ⟨[], 0, val⟩ h]

/-- No callback of the client is invoked, whatever is dispatched. -/
structure NotInvoked (s : IOTService) (c : ClientId) : Prop where
  command : ∀ cmd data, ∀ i ∈ (s.callCommandCB cmd data).2, i.client ≠ c
  propertySet : ∀ key val, ∀ i ∈ (s.callPropertySet key val).2, i.client ≠ c
  propertyGet : ∀ key size, ∀ i ∈ s.callPropertyGetCalls key size, i.client ≠ c

theorem mem_callAll {s : IOTService} {cb : IOTClient → Option CbId} {key val : String8}
    {l : List ClientId} {i : Invocation} (h : i ∈ s.callAll cb key val l) : i.client ∈ l := by
  obtain ⟨c, hc, hi⟩ := List.mem_filterMap.mp h
  obtain ⟨b, -, rfl⟩ := Option.map_eq_some_iff.mp hi
  exact hc

/-- **Whom a dispatch calls**: followers of the key, or the first client. -/
theorem mem_call {s : IOTService} {m : FollowMap} {cb : IOTClient → Option CbId}
    {key val : String8} {i : Invocation} (h : i ∈ (s.call m cb key val).2) :
    i.client ∈ stored m key ∨ i.client ∈ s.m_clients := by
  unfold call at h
  cases hm : m[key]? with
  | none =>
    rw [hm] at h
    cases hc : s.m_clients with
    | nil =>
      rw [hc] at h
      cases h
    | cons c l =>
      rw [hc] at h
      exact .inr (List.mem_singleton.mp (mem_callAll h) ▸ List.mem_cons_self)
  | some v =>
    rw [hm] at h
    cases v with
    | none => cases h
    | some l => exact .inl (stored_of_get hm ▸ mem_callAll h)

/-- A client that is nowhere is not invoked. -/
theorem notInvoked_of_present {s : State} (h : Present s) {c : ClientId}
    (hc : c ∉ s.service.m_clients) : NotInvoked s.service c := by
  have hkey : ∀ {key : String8} {i : Invocation},
      i.client ∈ stored s.service.m_keyFollow key ∨ i.client ∈ s.service.m_clients →
        i.client ≠ c := by
    intro key i hi e
    rw [e] at hi
    exact hc (hi.elim (fun hm => h.listed c ⟨key, .inl hm⟩) id)
  refine ⟨fun cmd data i hi e => ?_, fun key val i hi => hkey (mem_call hi),
    fun key size i hi => ?_⟩
  · have hm := mem_call hi
    rw [e] at hm
    exact hc (hm.elim (fun hm => h.listed c ⟨cmd, .inr hm⟩) id)
  · unfold callPropertyGetCalls at hi
    split at hi
    · cases hi
    · exact hkey (mem_call hi)

/-! ## 4. Removed clients -/

/-- A client that was created and is not in `m_clients` never returns. -/
theorem gone_step {c : ClientId} {s : State} {l : Label}
    (h : c < s.service.fresh ∧ c ∉ s.service.m_clients) :
    c < (next s l).service.fresh ∧ c ∉ (next s l).service.m_clients := by
  cases l with
  | send p r => exact h
  | serve p r =>
    have hf := serve_frame { s with sent := s.sent.erase (p, r) } p r
    simp only [next]
    rw [hf.clients, hf.fresh]
    exact h
  | insert p name =>
    refine ⟨Nat.lt_succ_of_lt h.1, fun hc => ?_⟩
    rcases List.mem_append.mp hc with hc | hc
    · exact h.2 hc
    · exact Nat.ne_of_lt h.1 (List.mem_singleton.mp hc)
  | die p => exact h
  | notify c' =>
    have e := removeClient_eq s.service c'
    simp only [next, binderDied, e]
    exact ⟨h.1, fun hc => h.2 (List.mem_of_mem_erase hc)⟩

theorem present_reach {s : State} (h : machine.Reach Timely s) : Present s := by
  refine h.inv_of (I := Present) (J := Sound) (fun s => sound_reach) ?_
    fun s l hs hI hc _ => present_step hs hI hc
  intro s h0
  obtain rfl : s = init := h0
  have hnil : ∀ k, stored ({} : FollowMap) k = [] := fun k => by simp [stored]
  refine ⟨fun k => ?_, fun k => ?_, fun c hf => ?_⟩
  · exact hnil k ▸ List.nodup_nil
  · exact hnil k ▸ List.nodup_nil
  · obtain ⟨k, hk | hk⟩ := hf
    · exact absurd (hnil k ▸ hk) List.not_mem_nil
    · exact absurd (hnil k ▸ hk) List.not_mem_nil

/-- **When a removed client is gone**: on every run whose follows are served while
    their client is in `m_clients`, every follower is in `m_clients`, and after
    `removeClient` no dispatch calls that client again; and a follow that is
    served later leaves a follower that is not in `m_clients`. -/
theorem followers_present {s : State} (h : machine.Reach Timely s) :
    (∀ c, Follows s.service c → c ∈ s.service.m_clients) ∧
      (∀ c, machine.enabled s (.notify c) →
        ∀ s', (machine.after (machine.next s (.notify c))).Reach Timely s' →
          NotInvoked s'.service c) ∧
      ∀ l, machine.enabled s l → ¬ Timely s l → ∃ c, Follows (machine.next s l).service c ∧
        c ∉ (machine.next s l).service.m_clients := by
  have hs := sound_reach h
  refine ⟨(present_reach h).listed, fun c he s' hr => ?_, fun l _ hl => dangling_of_late hs hl⟩
  have hgone : c < s'.service.fresh ∧ c ∉ s'.service.m_clients := by
    refine hr.inv (I := fun s => c < s.service.fresh ∧ c ∉ s.service.m_clients) ?_
      fun s l hI _ _ => gone_step hI
    intro t h0
    obtain rfl : t = machine.next s (.notify c) := h0
    have e := removeClient_eq s.service c
    simp only [machine, next, binderDied, e]
    exact ⟨hs.links c he.1, fun hc => (hs.nodup.mem_erase_iff.mp hc).1 rfl⟩
  have hnotified : machine.Reach Timely (machine.next s (.notify c)) := .step s _ h trivial he
  have hpresent : Present s' := present_reach (hnotified.after hr)
  exact notInvoked_of_present hpresent hgone.2

instance (s : State) (l : Label) : Decidable (Timely s l) :=
  match l with
  | .serve _ (.followProperty c _) => inferInstanceAs (Decidable (c ∈ s.service.m_clients))
  | .serve _ (.followCommand c _) => inferInstanceAs (Decidable (c ∈ s.service.m_clients))
  | .serve _ (.createClient _) => .isTrue trivial
  | .serve _ (.registCommandCB _ _) => .isTrue trivial
  | .serve _ (.registPropertyCB _ _) => .isTrue trivial
  | .send _ _ => .isTrue trivial
  | .insert _ _ => .isTrue trivial
  | .die _ => .isTrue trivial
  | .notify _ => .isTrue trivial

/-- `followers_present` for a client that follows, dies and is removed. -/
theorem followers_present_removed : ∃ s, machine.Reach Timely s ∧
    machine.enabled s (.notify 0) ∧ stored s.service.m_keyFollow (lit "power") = [0] ∧
      NotInvoked (machine.next s (.notify 0)).service 0 := by
  have h0 : machine.init init := rfl
  have hrun : (machine.run Timely init
      (connects ++ request 0 (.followProperty 0 (lit "power")) ++ registers ++ [.die 0])).map
      (fun s => (decide (machine.enabled s (.notify 0)), stored s.service.m_keyFollow (lit "power")))
        = some (true, [0]) := by decide
  obtain ⟨s, hr, hs⟩ := Machine.exists_of_run h0 hrun
  simp only [Prod.mk.injEq, decide_eq_true_eq] at hs
  exact ⟨s, hr, hs.1, hs.2, (followers_present hr).2.1 0 hs.1 _ (.init _ rfl)⟩

/-- **A dangling follower**: the follow is in flight when its client is removed. -/
theorem follower_dangles : ¬ ∀ s, machine.Reachable s →
    ∀ c, Follows s.service c → c ∈ s.service.m_clients := by
  intro h
  have h0 : machine.init init := rfl
  have hrun : (machine.run (fun _ _ => True) init (connects ++ registers ++
      [.send 0 (.followProperty 0 (lit "power")), .die 0, .notify 0,
        .serve 0 (.followProperty 0 (lit "power"))])).map
      (fun s => (stored s.service.m_keyFollow (lit "power"), s.service.m_clients)) =
        some ([0], []) := by decide
  obtain ⟨s, hr, hs⟩ := Machine.exists_of_run h0 hrun
  simp only [Prod.mk.injEq] at hs
  have hin := h s hr 0 ⟨lit "power", .inl (by rw [hs.1]; exact List.mem_cons_self)⟩
  rw [hs.2] at hin
  cases hin

end Sessions

end IotWrap
