/-
  File:      IotWrap/Lib/Monitor.lean
  Subject:   A mutex with one condition variable, as POSIX describes it.

  A wait gives up the mutex and blocks in one step; a blocked thread is woken
  by a signal or spuriously, and takes the mutex again before it returns. A
  signal wakes one of the blocked threads and is FORGOTTEN where none is
  blocked (`signal none`).
-/
import Mathlib.Data.List.Basic

namespace IotWrap.Lib

/-- The owner of the mutex and the threads blocked on the condition. -/
structure Monitor (τ : Type) where
  owner : Option τ
  waiters : List τ
  deriving DecidableEq, Repr

namespace Monitor

variable {τ : Type}

def init : Monitor τ := ⟨none, []⟩

/-- Nobody holds the mutex. -/
def Free (m : Monitor τ) : Prop := m.owner = none

instance [DecidableEq τ] (m : Monitor τ) : Decidable m.Free := inferInstanceAs (Decidable (_ = _))

def acquire (m : Monitor τ) (t : τ) : Monitor τ := { m with owner := some t }

def release (m : Monitor τ) : Monitor τ := { m with owner := none }

/-- Give up the mutex and block. -/
def wait (m : Monitor τ) (t : τ) : Monitor τ := ⟨none, t :: m.waiters⟩

variable [DecidableEq τ]

/-- Unblock a thread; it does not hold the mutex yet. -/
def wake (m : Monitor τ) (t : τ) : Monitor τ := { m with waiters := m.waiters.erase t }

/-- Whom a signal may wake: a blocked thread, nobody only if there is none. -/
def MayWake (m : Monitor τ) : Option τ → Prop
  | none => m.waiters = []
  | some t => t ∈ m.waiters

instance (m : Monitor τ) (w : Option τ) : Decidable (m.MayWake w) := by
  cases w <;> simp only [MayWake] <;> infer_instance

def signal (m : Monitor τ) : Option τ → Monitor τ
  | none => m
  | some t => m.wake t

/-- A signal does not move the mutex. -/
@[simp] theorem signal_owner (m : Monitor τ) (w : Option τ) : (m.signal w).owner = m.owner := by
  cases w <;> rfl

/-- Where one thread at most can block, waking leaves nobody blocked. -/
theorem wake_only {m : Monitor τ} {t u : τ} (hm : ∀ v ∈ m.waiters, v = t)
    (hn : m.waiters.Nodup) (hu : u ∈ m.waiters) : (m.wake u).waiters = [] := by
  have hut : u = t := hm u hu
  subst hut
  refine List.eq_nil_iff_forall_not_mem.mpr fun v hv => ?_
  have hvu : v = u := hm v (List.mem_of_mem_erase hv)
  subst hvu
  exact hn.not_mem_erase hv

/-- **A signal reaches the only thread that can block.** -/
theorem signal_only {m : Monitor τ} {t : τ} {w : Option τ} (hm : ∀ v ∈ m.waiters, v = t)
    (hn : m.waiters.Nodup) (hw : m.MayWake w) : (m.signal w).waiters = [] := by
  cases w with
  | none => exact hw
  | some u => exact wake_only hm hn hw

end Monitor

end IotWrap.Lib
