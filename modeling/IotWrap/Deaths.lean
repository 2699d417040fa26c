/-
  File:      IotWrap/Deaths.lean
  Subject:   Whether a dead client frees its slot.

  The slot is taken by `createClient` and the death link is made by
  `registPropertyCB`, the last request of a connection. `DeadLinked` is the
  invariant: a dead client of `m_clients` is linked, so its notification is
  outstanding. `Leaked` is its opposite, and it stays.

  * `dead_freed`: the condition on a run under which a state at rest has no dead
    client, and that it is needed;
  * `dead_client_stays`: a process that dies before it registers.
-/
import IotWrap.Sessions

namespace IotWrap

open Lib

namespace Sessions

open IOTService

/-! ## 1. Dead clients are linked -/

/-- No request is in progress and no death notification is outstanding. -/
def Quiet (s : State) : Prop :=
  s.sent = [] ∧ s.tested = [] ∧ ∀ c ∈ s.links, s.owner c ∉ s.dead

/-- No client of `m_clients` belongs to a dead process. -/
def NoDead (s : State) : Prop := ∀ c ∈ s.service.m_clients, s.owner c ∉ s.dead

/-- **The condition**: a process dies only once each of its clients is linked,
    and no client is inserted for a dead process. -/
def Linked (s : State) : Label → Prop
  | .die p => ∀ c ∈ s.service.m_clients, s.owner c = p → c ∈ s.links
  | .insert p _ => p ∉ s.dead
  | _ => True

/-- Dead clients are linked, so their notification is outstanding. -/
def DeadLinked (s : State) : Prop := ∀ c ∈ s.service.m_clients, s.owner c ∈ s.dead → c ∈ s.links

/-- A new client is none of the old ones, and every old one keeps its owner. -/
theorem owner_insert {s : State} (h : Sound s) {p : ProcId} {name : String8} {c : ClientId}
    (hc : c ∈ (insert s p name).service.m_clients) :
    (c ∈ s.service.m_clients ∧ (insert s p name).owner c = s.owner c) ∨
      (c = s.service.fresh ∧ (insert s p name).owner c = p) := by
  rcases List.mem_append.mp hc with hc | hc
  · exact .inl ⟨hc, Function.update_of_ne (Nat.ne_of_lt (h.clients c hc)) _ _⟩
  · obtain rfl := List.mem_singleton.mp hc
    exact .inr ⟨rfl, Function.update_self _ _ _⟩

theorem links_serve {s : State} {p : ProcId} {r : Request} {c : ClientId} (h : c ∈ s.links) :
    c ∈ (serve s p r).links := by
  rcases serve_links s p r with e | ⟨c', cb, -, -, e⟩
  · exact e ▸ h
  · rw [e]
    exact List.mem_append_left _ h

theorem deadLinked_step {s : State} {l : Label} (hs : Sound s) (h : DeadLinked s)
    (hl : Linked s l) : DeadLinked (next s l) := by
  cases l with
  | send p r => exact h
  | serve p r =>
    intro c hc hd
    have hf := serve_frame { s with sent := s.sent.erase (p, r) } p r
    simp only [next] at hc hd
    rw [hf.clients] at hc
    rw [hf.owner, hf.dead] at hd
    exact links_serve (h c hc hd)
  | insert p name =>
    intro c hc hd
    have hs' : Sound { s with tested := s.tested.erase (p, name) } :=
      ⟨hs.nodup, hs.clients, hs.links, hs.sent, hs.proper⟩
    simp only [next] at hc hd
    rcases owner_insert hs' hc with ⟨hc', ho⟩ | ⟨-, ho⟩
    · exact h c hc' (ho ▸ hd)
    · exact absurd (ho ▸ hd) hl
  | die p =>
    intro c hc hd
    rcases List.mem_cons.mp hd with hd | hd
    · exact hl c hc hd
    · exact h c hc hd
  | notify c =>
    intro c' hc' hd
    have e := removeClient_eq s.service c
    simp only [next, binderDied, e] at hc' hd ⊢
    obtain ⟨hne, hmem⟩ := (hs.nodup.mem_erase_iff).mp hc'
    exact (List.mem_erase_of_ne hne).mpr (h c' hmem hd)

theorem noDead_of_quiet {s : State} (h : DeadLinked s) (hq : Quiet s) : NoDead s :=
  fun c hc hd => hq.2.2 c (h c hc hd) hd

/-! ## 2. A leak stays -/

/-- **Leaked**: the client of a dead process is in `m_clients` and not linked. -/
structure Leaked (c : ClientId) (s : State) : Prop where
  mem : c ∈ s.service.m_clients
  dead : s.owner c ∈ s.dead
  unlinked : c ∉ s.links

/-- **A leak stays**: nothing links the client of a dead process, and only a
    notification removes one. -/
theorem leaked_step {c : ClientId} {s : State} {l : Label} (hs : Sound s) (h : Leaked c s)
    (he : enabled s l) : Leaked c (next s l) := by
  cases l with
  | send p r => exact ⟨h.mem, h.dead, h.unlinked⟩
  | serve p r =>
    have hf := serve_frame { s with sent := s.sent.erase (p, r) } p r
    refine ⟨?_, ?_, ?_⟩
    · simp only [next]
      rw [hf.clients]
      exact h.mem
    · simp only [next]
      rw [hf.owner, hf.dead]
      exact h.dead
    · simp only [next]
      rcases serve_links { s with sent := s.sent.erase (p, r) } p r with e | ⟨c', cb, rfl, hp, e⟩
      · rw [e]
        exact h.unlinked
      · rw [e]
        intro hc
        rcases List.mem_append.mp hc with hc | hc
        · exact h.unlinked hc
        · -- the request is the owner's, and the owner is dead
          rw [List.mem_singleton.mp hc] at h
          have ho : s.owner c' = p := (hs.sent _ he c' rfl).2
          exact hp (ho ▸ h.dead)
  | insert p name =>
    refine ⟨List.mem_append_left _ h.mem, ?_, h.unlinked⟩
    show Function.update s.owner s.service.fresh p c ∈ s.dead
    rw [Function.update_of_ne (Nat.ne_of_lt (hs.clients c h.mem))]
    exact h.dead
  | die p => exact ⟨h.mem, List.mem_cons_of_mem _ h.dead, h.unlinked⟩
  | notify c' =>
    have hne : c ≠ c' := fun e => h.unlinked (e ▸ he.1)
    have e := removeClient_eq s.service c'
    simp only [next, binderDied, e]
    exact ⟨(List.mem_erase_of_ne hne).mpr h.mem, h.dead,
      fun hc => h.unlinked (List.mem_of_mem_erase hc)⟩

/-- A step that does not meet the condition leaks a client. -/
theorem leaked_of_not_linked {s : State} {l : Label} (hs : Sound s) (he : enabled s l)
    (hl : ¬ Linked s l) : ∃ c, Leaked c (next s l) := by
  cases l with
  | die p =>
    simp only [Linked, not_forall] at hl
    obtain ⟨c, hc, rfl, hun⟩ := hl
    exact ⟨c, hc, List.mem_cons_self, hun⟩
  | insert p name =>
    have hp : p ∈ s.dead := not_not.mp hl
    refine ⟨s.service.fresh, List.mem_append_right _ List.mem_cons_self, ?_, fun hc => ?_⟩
    · show Function.update s.owner s.service.fresh p s.service.fresh ∈ s.dead
      rw [Function.update_self]
      exact hp
    · exact Nat.lt_irrefl _ (hs.links _ hc)
  | send p r => exact absurd trivial hl
  | serve p r => exact absurd trivial hl
  | notify c => exact absurd trivial hl

/-! ## 3. Coming to rest -/

/-- What is left to do: serving a request may leave one more thing behind. -/
def outstanding (s : State) : Nat := 2 * s.sent.length + s.tested.length + s.links.length

theorem outstanding_serve (s : State) (p : ProcId) (r : Request) :
    outstanding (serve s p r) ≤ outstanding s + 1 := by
  cases r with
  | createClient name =>
    simp only [serve, outstanding]
    split
    · simp only [List.length_append, List.length_singleton]
      omega
    · omega
  | registPropertyCB c proCB =>
    rcases serve_registPropertyCB s p c proCB with e | ⟨links, hl, e⟩
    · rw [e]
      exact Nat.le_succ _
    · have hlen : links.length ≤ s.links.length + 1 := by
        rcases hl with rfl | ⟨-, rfl⟩
        · exact Nat.le_succ _
        · rw [List.length_append, List.length_singleton]
      rw [e]
      simp only [outstanding]
      omega
  | _ => exact Nat.le_succ _

/-- **Every state can come to rest**: serve what was sent, insert what was
    tested, notify who is linked. -/
theorem exists_quiet (s : State) : ∃ s', (machine.after s).Reachable s' ∧ Quiet s' := by
  refine Machine.exists_after (I := fun _ => True) outstanding (fun s _ hq => ?_) s trivial
  cases hsent : s.sent with
  | cons q l =>
    have hm : (q.1, q.2) ∈ s.sent := by rw [hsent]; exact List.mem_cons_self
    refine ⟨.serve q.1 q.2, hm, trivial, ?_⟩
    have hlt := outstanding_serve { s with sent := s.sent.erase (q.1, q.2) } q.1 q.2
    have hlen := List.length_erase_of_mem hm
    have hpos := List.length_pos_of_mem hm
    simp only [machine, next, outstanding] at hlt hlen hpos ⊢
    omega
  | nil =>
    cases htested : s.tested with
    | cons q l =>
      have hm : (q.1, q.2) ∈ s.tested := by rw [htested]; exact List.mem_cons_self
      refine ⟨.insert q.1 q.2, hm, trivial, ?_⟩
      have hlen := List.length_erase_of_mem hm
      have hpos := List.length_pos_of_mem hm
      simp only [machine, next, insert, outstanding]
      omega
    | nil =>
      -- nothing is in progress, so a notification is outstanding
      have hne : ¬ ∀ c ∈ s.links, s.owner c ∉ s.dead := fun h => hq ⟨hsent, htested, h⟩
      simp only [not_forall, not_not] at hne
      obtain ⟨c, hc, hd⟩ := hne
      refine ⟨.notify c, ⟨hc, hd⟩, trivial, ?_⟩
      have hlen := List.length_erase_of_mem hc
      have hpos := List.length_pos_of_mem hc
      simp only [machine, next, binderDied, outstanding]
      omega

/-- **When dead clients free their slot**: on every run whose steps meet the
    condition a state at rest has no dead client; and after a step that does not
    meet it some state at rest has one. -/
theorem dead_freed {s : State} (h : machine.Reach Linked s) :
    (Quiet s → NoDead s) ∧
      ∀ l, machine.enabled s l → ¬ Linked s l →
        ∃ s', (machine.after (machine.next s l)).Reachable s' ∧ Quiet s' ∧ ¬ NoDead s' := by
  have hlinked : DeadLinked s := by
    refine h.inv_of (I := DeadLinked) (J := Sound) (fun s => sound_reach) ?_
      fun s l hs hI hc _ => deadLinked_step hs hI hc
    intro s h0
    obtain rfl : s = init := h0
    exact fun c hc => absurd hc List.not_mem_nil
  refine ⟨noDead_of_quiet hlinked, fun l he hl => ?_⟩
  have hs := sound_reach h
  obtain ⟨c, hleak⟩ := leaked_of_not_linked hs he hl
  obtain ⟨s', hr, hq⟩ := exists_quiet (machine.next s l)
  refine ⟨s', hr, hq, fun hno => ?_⟩
  have hkept : Sound s' ∧ Leaked c s' := by
    refine hr.inv (I := fun s => Sound s ∧ Leaked c s) ?_
      fun s l hI _ he => ⟨sound_step hI.1 he, leaked_step hI.1 hI.2 he⟩
    intro t h0
    obtain rfl : t = machine.next s l := h0
    exact ⟨sound_step hs he, hleak⟩
  exact hno c hkept.2.mem hkept.2.dead

instance (s : State) : Decidable (Quiet s) := inferInstanceAs (Decidable (_ ∧ _ ∧ _))

instance (s : State) : Decidable (NoDead s) :=
  inferInstanceAs (Decidable (∀ c ∈ s.service.m_clients, _))

instance (s : State) (l : Label) : Decidable (Linked s l) :=
  match l with
  | .send _ _ => .isTrue trivial
  | .serve _ _ => .isTrue trivial
  | .insert p _ => inferInstanceAs (Decidable (p ∉ s.dead))
  | .die p => inferInstanceAs (Decidable (∀ c ∈ s.service.m_clients, s.owner c = p → c ∈ s.links))
  | .notify _ => .isTrue trivial

/-- `dead_freed` for a process that dies after it registered. -/
theorem dead_freed_registered : ∃ s, machine.Reach Linked s ∧
    s.dead = [0] ∧ s.service.m_clients = [] ∧ NoDead s := by
  have h0 : machine.init init := rfl
  have hrun : (machine.run Linked init (connects ++ registers ++ [.die 0, .notify 0])).map
      (fun s => (s.dead, s.service.m_clients, decide (Quiet s))) = some ([0], [], true) := by decide
  obtain ⟨s, hr, hs⟩ := Machine.exists_of_run h0 hrun
  simp only [Prod.mk.injEq, decide_eq_true_eq] at hs
  exact ⟨s, hr, hs.1, hs.2.1, (dead_freed hr).1 hs.2.2⟩

/-- **A dead client that stays**: the process dies after `createClient`, before it
    registers. -/
theorem dead_client_stays : ¬ ∀ s, machine.Reachable s → Quiet s → NoDead s := by
  intro h
  have h0 : machine.init init := rfl
  have hrun : (machine.run (fun _ _ => True) init (connects ++ [.die 0])).map
      (fun s => (decide (Quiet s), decide (NoDead s))) = some (true, false) := by decide
  obtain ⟨s, hr, hs⟩ := Machine.exists_of_run h0 hrun
  simp only [Prod.mk.injEq, decide_eq_true_eq, decide_eq_false_iff_not] at hs
  exact hs.2 (h s hr hs.1)

end Sessions

end IotWrap
