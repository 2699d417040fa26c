/-
  File:      IotWrap/Slots.lean
  Subject:   The client limit with the size test outside the lock.

  `createClient` tests `m_clients.size()` before it takes `m_lockClis`. What has
  to stay within the limit is `taken`: the clients, and the calls that passed
  the test and did not insert.

  * `clients_bounded`: the condition on a run under which the limit holds, and
    that it is needed;
  * `clients_exceed`: eleven processes connect at once.
-/
import IotWrap.Sessions

namespace IotWrap

open Lib

namespace Sessions

open IOTService

/-- **The condition**: the size test passes only while the clients and the calls
    that passed it and did not insert are together fewer than the limit. -/
def Roomy (s : State) : Label → Prop
  | .serve _ (.createClient _) =>
    s.service.hasSlot = true → s.service.m_clients.length + s.tested.length < MAX_CLINETS
  | _ => True

/-- Clients, and the clients to come. -/
def taken (s : State) : Nat := s.service.m_clients.length + s.tested.length

theorem serve_tested (s : State) (p : ProcId) (r : Request) :
    (serve s p r).tested = s.tested ∨
      ∃ name, r = .createClient name ∧ s.service.hasSlot = true ∧
        (serve s p r).tested = s.tested ++ [(p, name)] := by
  cases r with
  | createClient name =>
    by_cases hslot : s.service.hasSlot = true
    · exact .inr ⟨name, rfl, hslot, by simp only [serve, if_pos hslot]⟩
    · exact .inl (by simp only [serve, if_neg hslot])
  | registPropertyCB c proCB =>
    left
    rcases serve_registPropertyCB s p c proCB with e | ⟨links, -, e⟩
    · rw [e]
    · rw [e]
  | _ => exact .inl rfl

/-- A size test that passes takes one more. -/
theorem taken_test {s : State} (p : ProcId) (name : String8) (hslot : s.service.hasSlot = true) :
    taken (next s (.serve p (.createClient name))) = taken s + 1 := by
  simp only [next, serve, if_pos hslot, taken, List.length_append, List.length_singleton]
  omega

/-- Any other step takes nothing. -/
theorem taken_step {s : State} {l : Label} (he : enabled s l)
    (hl : ∀ p name, l = .serve p (.createClient name) → s.service.hasSlot = false) :
    taken (next s l) ≤ taken s := by
  cases l with
  | send p r => exact Nat.le_refl _
  | serve p r =>
    have hf := serve_frame { s with sent := s.sent.erase (p, r) } p r
    simp only [next, taken]
    rw [hf.clients]
    rcases serve_tested { s with sent := s.sent.erase (p, r) } p r with e | ⟨name, rfl, hslot, -⟩
    · rw [e]
    · exact absurd (hslot.symm.trans (hl p name rfl)) (by decide)
  | insert p name =>
    have hm : (p, name) ∈ s.tested := he
    have hlen := List.length_erase_of_mem hm
    have hpos := List.length_pos_of_mem hm
    simp only [next, insert, insertClient, taken, List.length_append, List.length_singleton]
    omega
  | die p => exact Nat.le_refl _
  | notify c =>
    have hle : (s.service.m_clients.erase c).length ≤ s.service.m_clients.length :=
      List.erase_sublist.length_le
    have e := removeClient_eq s.service c
    simp only [next, binderDied, e, taken]
    exact Nat.add_le_add_right hle _

/-- A step that does not meet the condition is a size test that passes. -/
theorem test_of_not_roomy {s : State} {l : Label} (hl : ¬ Roomy s l) :
    ∃ p name, l = .serve p (.createClient name) ∧ s.service.hasSlot = true ∧
      MAX_CLINETS ≤ taken s := by
  cases l with
  | serve p r =>
    cases r with
    | createClient name =>
      simp only [Roomy, Classical.not_imp] at hl
      exact ⟨p, name, rfl, hl.1, Nat.le_of_not_lt hl.2⟩
    | _ => exact absurd trivial hl
  | _ => exact absurd trivial hl

theorem taken_roomy {s : State} {l : Label} (h : taken s ≤ MAX_CLINETS) (hl : Roomy s l)
    (he : enabled s l) : taken (next s l) ≤ MAX_CLINETS := by
  by_cases ht : ∃ p name, l = .serve p (.createClient name) ∧ s.service.hasSlot = true
  · obtain ⟨p, name, rfl, hslot⟩ := ht
    rw [taken_test p name hslot]
    exact hl hslot
  · refine Nat.le_trans (taken_step he fun p name e => ?_) h
    cases hslot : s.service.hasSlot with
    | false => rfl
    | true => exact absurd ⟨p, name, e, hslot⟩ ht

/-- **Everything that passed the test inserts**: some run has all of it in `m_clients`. -/
theorem exists_inserted (s : State) : ∃ s', (machine.after s).Reachable s' ∧
    s'.service.m_clients.length = taken s := by
  have hrun : ∃ s', (machine.after s).Reachable s' ∧ (s'.tested = [] ∧ taken s' = taken s) := by
    refine Machine.exists_after (I := fun t => taken t = taken s) (fun t => t.tested.length)
      (fun t hI hne => ?_) s rfl
    obtain ⟨⟨p, name⟩, hm⟩ := List.exists_mem_of_ne_nil t.tested fun h => hne ⟨h, hI⟩
    have hlen := List.length_erase_of_mem hm
    have hpos := List.length_pos_of_mem hm
    refine ⟨.insert p name, hm, ?_, ?_⟩
    · simp only [taken] at hI ⊢
      simp only [machine, next, insert, insertClient, List.length_append, List.length_singleton]
      omega
    · simp only [machine, next, insert]
      omega
  obtain ⟨s', hr, hnil, htaken⟩ := hrun
  refine ⟨s', hr, ?_⟩
  rw [← htaken, taken, hnil]
  rfl

/-- **When the limit holds**: on every run whose size tests meet the condition
    `m_clients` stays within the limit; and after a test that does not meet it
    some run exceeds the limit. -/
theorem clients_bounded {s : State} (h : machine.Reach Roomy s) :
    s.service.m_clients.length ≤ MAX_CLINETS ∧
      ∀ l, machine.enabled s l → ¬ Roomy s l →
        ∃ s', (machine.after (machine.next s l)).Reachable s' ∧
          MAX_CLINETS < s'.service.m_clients.length := by
  have htaken : taken s ≤ MAX_CLINETS := by
    refine h.inv (I := fun s => taken s ≤ MAX_CLINETS) ?_ fun s l hI hl he => taken_roomy hI hl he
    intro s h0
    obtain rfl : s = init := h0
    decide
  refine ⟨Nat.le_trans (Nat.le_add_right _ _) htaken, fun l he hl => ?_⟩
  obtain ⟨s', hr, hlen⟩ := exists_inserted (machine.next s l)
  refine ⟨s', hr, ?_⟩
  rw [hlen]
  obtain ⟨p, name, rfl, hslot, hfull⟩ := test_of_not_roomy hl
  rw [show machine.next s (.serve p (.createClient name)) =
    next s (.serve p (.createClient name)) from rfl, taken_test p name hslot]
  exact Nat.lt_succ_of_le hfull

instance (s : State) (l : Label) : Decidable (Roomy s l) :=
  match l with
  | .serve _ (.createClient _) => inferInstanceAs (Decidable (_ = true → _ < MAX_CLINETS))
  | .serve _ (.followProperty _ _) => .isTrue trivial
  | .serve _ (.followCommand _ _) => .isTrue trivial
  | .serve _ (.registCommandCB _ _) => .isTrue trivial
  | .serve _ (.registPropertyCB _ _) => .isTrue trivial
  | .send _ _ => .isTrue trivial
  | .insert _ _ => .isTrue trivial
  | .die _ => .isTrue trivial
  | .notify _ => .isTrue trivial

/-- Ten processes pass the size test before the first of them inserts, nine insert, and an
    eleventh process asks. -/
def nearlyFull : List Label :=
  ((List.range 10).flatMap fun p => request p (.createClient [])) ++
    ((List.range 9).map fun p => .insert p []) ++ [.send 10 (.createClient [])]

/-- `clients_bounded` for these calls, and for the test of the eleventh. -/
theorem clients_bounded_eleventh : ∃ s, machine.Reach Roomy s ∧ s.service.m_clients.length = 9 ∧
    s.service.m_clients.length ≤ MAX_CLINETS ∧
      ∃ s', (machine.after (machine.next s (.serve 10 (.createClient [])))).Reachable s' ∧
        MAX_CLINETS < s'.service.m_clients.length := by
  have h0 : machine.init init := rfl
  have hrun : (machine.run Roomy init nearlyFull).map (fun s => decide
      (s.service.m_clients.length = 9 ∧ machine.enabled s (.serve 10 (.createClient [])) ∧
        ¬ Roomy s (.serve 10 (.createClient [])))) = some true := by decide
  obtain ⟨s, hr, hs⟩ := Machine.exists_of_run h0 hrun
  obtain ⟨hlen, he, hfull⟩ := of_decide_eq_true hs
  obtain ⟨hle, hover⟩ := clients_bounded hr
  exact ⟨s, hr, hlen, hle, hover _ he hfull⟩

/-- Eleven processes pass the size test before the first of them inserts. -/
def crowd : List Label :=
  ((List.range 11).flatMap fun p => request p (.createClient [])) ++
    (List.range 11).map fun p => .insert p []

/-- **Eleven clients**: the limit is tested and not kept. -/
theorem clients_exceed :
    ¬ ∀ s, machine.Reachable s → s.service.m_clients.length ≤ MAX_CLINETS := by
  intro h
  have h0 : machine.init init := rfl
  have hrun : (machine.run (fun _ _ => True) init crowd).map
      (fun s => s.service.m_clients.length) = some 11 := by decide
  obtain ⟨s, hr, hs⟩ := Machine.exists_of_run h0 hrun
  have hle := h s hr
  rw [hs] at hle
  exact absurd hle (by decide)

end Sessions

end IotWrap
