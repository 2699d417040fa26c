/-
  File:      IotWrap/Waiting.lean
  Subject:   How long `_connect` waits (jni/client/IOT_ClientJNI.cpp).

  The number of tries is the timeout in units of `USLEEP_TIME`. A try that finds no
  service sleeps for one unit, a try that finds it not connected for two. And
  `timeout_ms * 1000` leaves 32 bits from 2147484 on: `serviceDied` passes
  `USLEEP_TIME * 60`, a number of microseconds.

  * `waitFor_status`: the loop with its sleeps ends as the loop of `_connect`;
  * `waitLoop_looks`, `waitLoop_slept`: how often it looks the service up and how long
    it sleeps;
  * `inTime_iff`: the timeout is respected if and only if it has 32 bits in
    microseconds and the service refuses at most as often as there are tries left;
  * `reconnect_overflows`: the timeout of the automatic reconnect.
-/
import IotWrap.Client

namespace IotWrap

namespace IOTClientJNI

/-! ## 1. The loop with its sleeps -/

/-- The second `usleep` of the loop. -/
def STATUS_SLEEP : Int := 200000

/-- What `serviceDied` passes to `connService`. -/
def RECONNECT_TIMEOUT : Int := USLEEP_TIME * 60

/-- What the service manager and the service would answer at each try. -/
structure Answers where
  getService : Nat → Bool
  getServiceStatus : Nat → Int

/-- The locals of the loop; `lookups` and `slept` (in microseconds) count its calls
    of `getService` and what it asked `usleep` for. -/
structure Wait where
  service : Bool
  status : Int
  lookups : Nat
  slept : Int
  deriving DecidableEq, Repr

def Wait.init : Wait := ⟨false, DS_STATUS_INVALID, 0, 0⟩

/-- The loop of `_connect`, from try `i` on with `n` tries left. -/
def waitLoop (ans : Answers) : Nat → Nat → Wait → Wait
  | 0, _, w => w
  | n + 1, i, w =>
    let found := w.service || ans.getService i
    let lookups := if w.service then w.lookups else w.lookups + 1
    if found then
      let status := ans.getServiceStatus i
      if status = DS_STATUS_CONNECTED then ⟨true, status, lookups, w.slept⟩
      else waitLoop ans n (i + 1) ⟨true, status, lookups, w.slept + STATUS_SLEEP⟩
    else waitLoop ans n (i + 1) ⟨false, w.status, lookups, w.slept + USLEEP_TIME⟩

/-- `_connect` up to the end of its loop. -/
def waitFor (ans : Answers) (timeout_ms : Int) : Wait :=
  waitLoop ans (tryCnt timeout_ms).toNat 0 .init

/-- Whether a value has 32 bits. -/
def InInt32 (x : Int) : Prop := -2 ^ 31 ≤ x ∧ x < 2 ^ 31

/-- The number of tries is computed without overflow. -/
def NoOverflow (timeout_ms : Int) : Prop :=
  InInt32 (timeout_ms * 1000) ∧ InInt32 ((timeout_ms * 1000).tdiv USLEEP_TIME + 1)

/-- **The timeout is respected**: no overflow, at least one look, and no more sleep
    than the timeout and one retry interval. -/
def InTime (ans : Answers) (timeout_ms : Int) : Prop :=
  NoOverflow timeout_ms ∧ 1 ≤ (waitFor ans timeout_ms).lookups ∧
    (waitFor ans timeout_ms).slept ≤ timeout_ms * 1000 + USLEEP_TIME

/-! ## 2. What the loop does -/

/-- The tries before the service is there. -/
def absent (ans : Answers) (tries : List Nat) : List Nat :=
  tries.takeWhile fun i => !ans.getService i

/-- The tries at which the service refuses, once it is there. -/
def refused (ans : Answers) (tries : List Nat) : List Nat :=
  tries.takeWhile fun i => ans.getServiceStatus i ≠ DS_STATUS_CONNECTED

/-- The tries from the first at which the service is there. -/
def present (ans : Answers) (tries : List Nat) : List Nat :=
  tries.dropWhile fun i => !ans.getService i

/-- Once the service is there. -/
theorem waitLoop_found (ans : Answers) (n i : Nat) {w : Wait} (hw : w.service = true) :
    (waitLoop ans n i w).lookups = w.lookups ∧
      (waitLoop ans n i w).slept =
        w.slept + STATUS_SLEEP * (refused ans (List.range' i n)).length := by
  induction n generalizing i w with
  | zero => simp [waitLoop, refused]
  | succ n ih =>
    unfold waitLoop refused
    rw [hw, List.range'_succ, List.takeWhile_cons]
    simp only [Bool.true_or, ↓reduceIte, ne_eq, decide_not, Bool.not_eq_eq_eq_not, Bool.not_true,
      decide_eq_false_iff_not]
    by_cases hc : ans.getServiceStatus i = DS_STATUS_CONNECTED
    · simp [hc]
    · rw [if_neg hc, if_pos hc]
      obtain ⟨hl, hs⟩ := ih (i + 1)
        (w := ⟨true, ans.getServiceStatus i, w.lookups, w.slept + STATUS_SLEEP⟩) rfl
      refine ⟨hl, hs.trans ?_⟩
      simp only [refused, ne_eq, decide_not, List.length_cons]
      push_cast
      ring

/-- **The sleeps of the loop**: one unit for each try without the service, two for
    each refusal. -/
theorem waitLoop_slept (ans : Answers) (n i : Nat) {w : Wait} (hw : w.service = false) :
    (waitLoop ans n i w).slept = w.slept + USLEEP_TIME * (absent ans (List.range' i n)).length +
      STATUS_SLEEP * (refused ans (present ans (List.range' i n))).length := by
  induction n generalizing i w with
  | zero => simp [waitLoop, absent, present, refused]
  | succ n ih =>
    by_cases hg : ans.getService i = true
    · -- the service is there: as if it had been found before this try
      have he : waitLoop ans (n + 1) i w =
          waitLoop ans (n + 1) i ⟨true, w.status, w.lookups + 1, w.slept⟩ := by
        simp [waitLoop, hw, hg]
      have hp : present ans (List.range' i (n + 1)) = List.range' i (n + 1) := by
        unfold present
        rw [List.range'_succ, List.dropWhile_cons, if_neg (by simp [hg])]
      have ha : absent ans (List.range' i (n + 1)) = [] := by
        unfold absent
        rw [List.range'_succ, List.takeWhile_cons, if_neg (by simp [hg])]
      rw [he, (waitLoop_found ans (n + 1) i rfl).2, hp, ha]
      simp
    · have he : waitLoop ans (n + 1) i w =
          waitLoop ans n (i + 1) ⟨false, w.status, w.lookups + 1, w.slept + USLEEP_TIME⟩ := by
        simp [waitLoop, hw, hg]
      have hp : present ans (List.range' i (n + 1)) = present ans (List.range' (i + 1) n) := by
        unfold present
        rw [List.range'_succ, List.dropWhile_cons, if_pos (by simp [hg])]
      have ha : absent ans (List.range' i (n + 1)) = i :: absent ans (List.range' (i + 1) n) := by
        unfold absent
        rw [List.range'_succ, List.takeWhile_cons, if_pos (by simp [hg])]
      rw [he, ih (i + 1) rfl, hp, ha, List.length_cons]
      push_cast
      ring

/-- The loop does not take a look back. -/
theorem waitLoop_lookups (ans : Answers) (n i : Nat) {w : Wait} {k : Nat} (h : k ≤ w.lookups) :
    k ≤ (waitLoop ans n i w).lookups := by
  induction n generalizing i w with
  | zero => exact h
  | succ n ih =>
    have hle : k ≤ if w.service then w.lookups else w.lookups + 1 := by split <;> omega
    unfold waitLoop
    simp only
    split
    · split
      · exact hle
      · exact ih (i + 1) hle
    · exact ih (i + 1) hle

/-- The service is looked up unless there is no try at all. -/
theorem waitLoop_looks (ans : Answers) (n : Nat) :
    1 ≤ (waitLoop ans n 0 .init).lookups ↔ 1 ≤ n := by
  cases n with
  | zero => simp [waitLoop, Wait.init]
  | succ n =>
    refine iff_of_true ?_ (Nat.succ_le_succ (Nat.zero_le n))
    unfold waitLoop
    simp only [Wait.init, Bool.false_eq_true, ↓reduceIte]
    split
    · split
      · exact Nat.le_refl _
      · exact waitLoop_lookups ans n _ (Nat.le_refl _)
    · exact waitLoop_lookups ans n _ (Nat.le_refl _)

/-- What `_connect`'s model takes for the answer of try `i`: the status, if the service
    is there by then. -/
def Answers.poll (ans : Answers) (i : Nat) : Option Int :=
  if (List.range (i + 1)).any ans.getService then some (ans.getServiceStatus i) else none

/-- **The loop ends with the status** that `_connect` goes on with. -/
theorem waitLoop_status (ans : Answers) (n i : Nat) {w : Wait}
    (hw : w.service = (List.range i).any ans.getService) :
    (waitLoop ans n i w).status = waitStatus w.status ((List.range' i n).map ans.poll) := by
  induction n generalizing i w with
  | zero => rfl
  | succ n ih =>
    have hany : (List.range (i + 1)).any ans.getService = (w.service || ans.getService i) := by
      rw [List.range_succ, List.any_append, hw, List.any_cons, List.any_nil, Bool.or_false]
    rw [List.range'_succ, List.map_cons, Answers.poll, hany]
    unfold waitLoop
    cases hf : w.service || ans.getService i with
    | true =>
      simp only [↓reduceIte, waitStatus]
      split
      · rfl
      · exact ih (i + 1) (hany.trans hf).symm
    | false =>
      simp only [Bool.false_eq_true, ↓reduceIte, waitStatus]
      exact ih (i + 1) (hany.trans hf).symm

/-- The status at the end of the wait is what `_connect` decides on. -/
theorem waitFor_status (ans : Answers) (timeout_ms : Int) :
    (waitFor ans timeout_ms).status =
      waitStatus DS_STATUS_INVALID ((List.range (tryCnt timeout_ms).toNat).map ans.poll) := by
  rw [List.range_eq_range']
  exact waitLoop_status ans _ 0 rfl

/-! ## 3. The timeout -/

/-- **The condition on the answers**: the service refuses at most as often as there
    are tries left after that. -/
def Patient (ans : Answers) (n : Nat) : Prop :=
  let tries := List.range n
  (refused ans (present ans tries)).length ≤
    n - ((absent ans tries).length + (refused ans (present ans tries)).length)

instance (ans : Answers) (n : Nat) : Decidable (Patient ans n) :=
  inferInstanceAs (Decidable (_ ≤ _))

theorem length_tries (ans : Answers) (l : List Nat) :
    (absent ans l).length + (refused ans (present ans l)).length ≤ l.length := by
  have hsplit : absent ans l ++ present ans l = l := List.takeWhile_append_dropWhile
  have hr := (List.takeWhile_sublist (fun i => decide (ans.getServiceStatus i ≠
    DS_STATUS_CONNECTED)) (l := present ans l)).length_le
  have hlen := congrArg List.length hsplit
  rw [List.length_append] at hlen
  unfold refused
  omega

theorem noOverflow_iff (timeout_ms : Nat) : NoOverflow timeout_ms ↔ timeout_ms ≤ 2147483 := by
  unfold NoOverflow InInt32 USLEEP_TIME
  constructor
  · rintro ⟨⟨-, h⟩, -⟩
    omega
  · intro h
    rw [Int.tdiv_eq_ediv_of_nonneg (by omega)]
    omega

/-- Without overflow the tries are the timeout in units of `USLEEP_TIME`, and one. -/
theorem tryCnt_eq {timeout_ms : Nat} (h : timeout_ms ≤ 2147483) :
    tryCnt timeout_ms = (timeout_ms / 100 + 1 : Nat) := by
  unfold tryCnt USLEEP_TIME
  rw [Int.bmod_eq_of_le (by omega) (by omega), Int.tdiv_eq_ediv_of_nonneg (by omega)]
  omega

/-- **The timeout is respected** if and only if `timeout_ms * 1000` has 32 bits and the
    service refuses at most as often as there are tries left; the timeout of the
    automatic reconnect never is. -/
theorem inTime_iff (ans : Answers) (timeout_ms : Nat) :
    (InTime ans timeout_ms ↔ timeout_ms ≤ 2147483 ∧ Patient ans (timeout_ms / 100 + 1)) ∧
      ¬ InTime ans RECONNECT_TIMEOUT := by
  constructor
  · unfold InTime
    rw [noOverflow_iff]
    refine and_congr_right fun ht => ?_
    have hn : (tryCnt timeout_ms).toNat = timeout_ms / 100 + 1 := by
      rw [tryCnt_eq ht, Int.toNat_natCast]
    have hs := waitLoop_slept ans (timeout_ms / 100 + 1) 0 (w := .init) rfl
    rw [← List.range_eq_range'] at hs
    unfold waitFor Patient
    rw [hn, hs, waitLoop_looks]
    simp only [Wait.init, USLEEP_TIME, STATUS_SLEEP]
    have hlen := length_tries ans (List.range (timeout_ms / 100 + 1))
    rw [List.length_range] at hlen
    omega
  · rintro ⟨hno, -⟩
    have h60 : RECONNECT_TIMEOUT = (6000000 : Nat) := by decide
    rw [h60, noOverflow_iff] at hno
    omega

/-- **The reconnect overflows**: `serviceDied` waits 6000000 ms. -/
theorem reconnect_overflows :
    ¬ ∀ (ans : Answers) (timeout_ms : Nat), timeout_ms < 2 ^ 31 → InTime ans timeout_ms := by
  intro h
  have hno := (h ⟨fun _ => true, fun _ => DS_STATUS_CONNECTED⟩ 6000000 (by decide)).1
  rw [noOverflow_iff] at hno
  omega

end IOTClientJNI

end IotWrap
