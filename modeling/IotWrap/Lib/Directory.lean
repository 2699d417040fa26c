/-
  File:      IotWrap/Lib/Directory.lean
  Subject:   Membership directories: who belongs to a topic after a history of
             joins and leaves.

  A member joins topics one at a time and leaves all of them at once. What a
  topic holds is defined from the WHOLE history, not from the previous
  holdings: a join counts if no leave of the same member comes after it
  (`live`), and the members of the topic are the members of its live joins in
  the order of their first one (`members`).

  * `mem_members`, `nodup_members`: membership, and no duplicates;
  * `members_join`, `members_leave`, `members_other`: how one more event
    changes the members, the form in which an implementation is compared;
  * `erase_members`: a leave done by erasing the first occurrence;
  * `joined`: whether the topic was ever joined, which an implementation that
    keeps empty topics around still knows.
-/
import Mathlib.Data.List.Basic
import Mathlib.Data.List.Induction
import Mathlib.Data.List.Nodup

namespace IotWrap.Lib

/-- One event of a directory with topics `κ` and members `α`. -/
inductive Event (κ α : Type) where
  | join (k : κ) (a : α) : Event κ α
  | leave (a : α) : Event κ α
  deriving DecidableEq, Repr

namespace Event

variable {κ α : Type} [DecidableEq κ] [DecidableEq α]

/-- The members of the joins of `k` that no leave of the same member follows. -/
def live (k : κ) : List (Event κ α) → List α
  | [] => []
  | join k' a :: h => if k' = k ∧ leave a ∉ h then a :: live k h else live k h
  | leave _ :: h => live k h

/-- The members of `k`, in the order of their first live join. -/
def members (k : κ) (h : List (Event κ α)) : List α := (live k h).eraseDups

/-! ## 1. One more event -/

theorem live_join (k : κ) (h : List (Event κ α)) (k' : κ) (a : α) :
    live k (h ++ [join k' a]) = live k h ++ if k' = k then [a] else [] := by
  induction h with
  | nil => simp [live]
  | cons e h ih =>
    cases e with
    | join k₀ b =>
      by_cases hb : k₀ = k ∧ leave b ∉ h
      · have hb' : k₀ = k ∧ leave b ∉ h ++ [join k' a] := ⟨hb.1, by simpa using hb.2⟩
        simp only [List.cons_append, live, if_pos hb, if_pos hb', ih]
      · have hb' : ¬ (k₀ = k ∧ leave b ∉ h ++ [join k' a]) := by simpa using hb
        simp only [List.cons_append, live, if_neg hb, if_neg hb', ih]
    | leave b => simp only [List.cons_append, live, ih]

theorem live_leave (k : κ) (h : List (Event κ α)) (a : α) :
    live k (h ++ [leave a]) = (live k h).filter (· ≠ a) := by
  induction h with
  | nil => rfl
  | cons e h ih =>
    cases e with
    | join k₀ b =>
      by_cases hb : k₀ = k ∧ leave b ∉ h
      · by_cases hba : b = a
        · subst hba
          have hb' : ¬ (k₀ = k ∧ leave b ∉ h ++ [leave b]) := by simp
          simp only [List.cons_append, live, if_pos hb, if_neg hb', ih]
          simp
        · have hb' : k₀ = k ∧ leave b ∉ h ++ [leave a] := ⟨hb.1, by simpa [hba] using hb.2⟩
          simp only [List.cons_append, live, if_pos hb, if_pos hb', ih]
          simp [hba]
      · have hb' : ¬ (k₀ = k ∧ leave b ∉ h ++ [leave a]) := by
          intro hc
          exact hb ⟨hc.1, fun hm => hc.2 (List.mem_append_left _ hm)⟩
        simp only [List.cons_append, live, if_neg hb, if_neg hb', ih]
    | leave b => simp only [List.cons_append, live, ih]

theorem eraseDups_filter (p : α → Bool) : ∀ l : List α,
    (l.filter p).eraseDups = l.eraseDups.filter p
  | [] => rfl
  | a :: l => by
      have ih := eraseDups_filter p (l.filter fun b => !b == a)
      by_cases ha : p a = true
      · rw [List.filter_cons_of_pos ha, List.eraseDups_cons, List.eraseDups_cons,
          List.filter_cons_of_pos ha, ← ih, List.filter_filter, List.filter_filter]
        simp only [Bool.and_comm]
      · rw [List.filter_cons_of_neg ha, List.eraseDups_cons, List.filter_cons_of_neg ha, ← ih,
          List.filter_filter]
        congr 1
        refine List.filter_congr fun b hb => ?_
        by_cases hba : b = a
        · subst hba
          simp [ha]
        · simp [hba]
termination_by l => l.length
decreasing_by exact Nat.lt_succ_of_le (List.length_filter_le _ _)

/-- **A join** puts the member at the end, unless it is one already. -/
theorem members_join (k : κ) (h : List (Event κ α)) (a : α) :
    members k (h ++ [join k a]) =
      if a ∈ members k h then members k h else members k h ++ [a] := by
  unfold members
  rw [live_join, if_pos rfl, List.eraseDups_append]
  by_cases ha : a ∈ live k h
  · rw [if_pos (List.mem_eraseDups.mpr ha)]
    simp [List.removeAll, ha]
  · rw [if_neg fun hm => ha (List.mem_eraseDups.mp hm)]
    simp [List.removeAll, ha, List.eraseDups_cons]

/-- A join of another topic changes nothing. -/
theorem members_other {k k' : κ} (hk : k' ≠ k) (h : List (Event κ α)) (a : α) :
    members k (h ++ [join k' a]) = members k h := by
  unfold members
  rw [live_join, if_neg hk, List.append_nil]

/-- **A leave** takes the member out and leaves the others as they are. -/
theorem members_leave (k : κ) (h : List (Event κ α)) (a : α) :
    members k (h ++ [leave a]) = (members k h).filter (· ≠ a) := by
  unfold members
  rw [live_leave, eraseDups_filter]

/-! ## 2. What the members are -/

theorem mem_live {k : κ} {h : List (Event κ α)} {a : α} :
    a ∈ live k h ↔ ∃ h₁ h₂, h = h₁ ++ join k a :: h₂ ∧ leave a ∉ h₂ := by
  induction h with
  | nil => simp [live]
  | cons e h ih =>
    have hcons : (∃ h₁ h₂, e :: h = h₁ ++ join k a :: h₂ ∧ leave a ∉ h₂) ↔
        (e = join k a ∧ leave a ∉ h) ∨ ∃ h₁ h₂, h = h₁ ++ join k a :: h₂ ∧ leave a ∉ h₂ := by
      constructor
      · intro hj
        obtain ⟨h₁, h₂, he, hl⟩ := hj
        cases h₁ with
        | nil =>
          simp only [List.nil_append, List.cons.injEq] at he
          exact .inl ⟨he.1, he.2 ▸ hl⟩
        | cons e' h₁ =>
          simp only [List.cons_append, List.cons.injEq] at he
          exact .inr ⟨h₁, h₂, he.2, hl⟩
      · intro hj
        rcases hj with ⟨rfl, hl⟩ | ⟨h₁, h₂, rfl, hl⟩
        · exact ⟨[], h, rfl, hl⟩
        · exact ⟨e :: h₁, h₂, rfl, hl⟩
    rw [hcons, ← ih]
    cases e with
    | join k' b =>
      simp only [live, join.injEq]
      split
      · rename_i hb
        obtain ⟨rfl, hb⟩ := hb
        simp only [List.mem_cons]
        constructor
        · intro hj
          rcases hj with rfl | hm
          · exact .inl ⟨⟨trivial, rfl⟩, hb⟩
          · exact .inr hm
        · intro hj
          rcases hj with ⟨⟨-, rfl⟩, -⟩ | hm
          · exact .inl rfl
          · exact .inr hm
      · rename_i hb
        constructor
        · exact .inr
        · intro hj
          rcases hj with ⟨⟨rfl, rfl⟩, hl⟩ | hm
          · exact absurd ⟨rfl, hl⟩ hb
          · exact hm
    | leave b => simp [live]

/-- **Membership**: a join of the topic with no later leave of the member. -/
theorem mem_members {k : κ} {h : List (Event κ α)} {a : α} :
    a ∈ members k h ↔ ∃ h₁ h₂, h = h₁ ++ join k a :: h₂ ∧ leave a ∉ h₂ := by
  unfold members
  rw [List.mem_eraseDups, mem_live]

theorem nodup_members (k : κ) (h : List (Event κ α)) : (members k h).Nodup := by
  induction h using List.reverseRecOn with
  | nil => exact List.nodup_nil
  | append_singleton h e ih =>
    cases e with
    | join k' a =>
      by_cases hk : k' = k
      · subst hk
        rw [members_join]
        split
        · exact ih
        · rename_i ha
          exact List.nodup_append'.mpr ⟨ih, List.nodup_singleton a, by simpa using ha⟩
      · rw [members_other hk]
        exact ih
    | leave a =>
      rw [members_leave]
      exact ih.filter _

/-- In a list without duplicates the first occurrence is the only one. -/
theorem erase_members (k : κ) (h : List (Event κ α)) (a : α) :
    (members k h).erase a = members k (h ++ [leave a]) := by
  rw [members_leave, (nodup_members k h).erase_eq_filter]
  refine List.filter_congr fun b _ => ?_
  by_cases hb : b = a <;> simp [hb]

/-- Whether anybody ever joined the topic. -/
def joined (k : κ) (h : List (Event κ α)) : Bool :=
  h.any fun
    | join k' _ => k' = k
    | leave _ => false

omit [DecidableEq α] in
theorem joined_iff {k : κ} {h : List (Event κ α)} : joined k h = true ↔ ∃ a, join k a ∈ h := by
  simp only [joined, List.any_eq_true]
  constructor
  · intro hj
    obtain ⟨e, he, hk⟩ := hj
    cases e with
    | join k' a => exact ⟨a, of_decide_eq_true hk ▸ he⟩
    | leave a => cases hk
  · intro hj
    obtain ⟨a, ha⟩ := hj
    exact ⟨join k a, ha, decide_eq_true rfl⟩

omit [DecidableEq α] in
@[simp] theorem joined_join (k k' : κ) (h : List (Event κ α)) (a : α) :
    joined k (h ++ [join k' a]) = (joined k h || decide (k' = k)) := by
  simp [joined]

omit [DecidableEq α] in
@[simp] theorem joined_leave (k : κ) (h : List (Event κ α)) (a : α) :
    joined k (h ++ [leave a]) = joined k h := by
  simp [joined]

/-- A topic nobody joined has no members. -/
theorem members_of_not_joined {k : κ} {h : List (Event κ α)} (hj : joined k h = false) :
    members k h = [] := by
  refine List.eq_nil_iff_forall_not_mem.mpr fun a ha => ?_
  obtain ⟨h₁, h₂, rfl, -⟩ := mem_members.mp ha
  have : joined k (h₁ ++ join k a :: h₂) = true := joined_iff.mpr ⟨a, by simp⟩
  rw [hj] at this
  cases this

end Event

end IotWrap.Lib
