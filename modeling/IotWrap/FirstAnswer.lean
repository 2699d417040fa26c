/-
  File:      IotWrap/FirstAnswer.lean
  Subject:   Which answer `callPropertyGet` returns (jni/server/IOT_Service.cpp).

  The comment at the loop promises the first answer. The loop has no exit: every
  answer is copied over the ones before it, and the last one sets the length.
  The path for a key without followers copies an answer and returns 0.

  `FirstAnswer` is the promise; `AnswersAgree` is the condition on the answers
  under which it is kept.

  * `callPropertyGet_eq`: result and buffer as a function of the answers;
  * `callPropertyGet_iff`: the promise is kept if and only if the answers agree;
  * `second_answer`: two followers, and the second one's answer is returned.
-/
import IotWrap.Buffers

namespace IotWrap

open Lib

namespace IOTService

/-! ## 1. Who is asked -/

/-- The clients `callPropertyGet` asks, in order: the followers of the key, or the
    first client where the key has no entry. -/
def asked (s : IOTService) (key : String8) : List ClientId :=
  match s.m_keyFollow[key]? with
  | none => s.m_clients.take 1
  | some none => []
  | some (some v_clients) => v_clients

/-- What they answer; a failed call and a client without callback are left out. -/
def askedAnswers (s : IOTService) (ans : Answers) (key : String8) : List String8 :=
  (s.asked key).filterMap (s.answerOf ans key)

/-- The first answer that is not empty. -/
def firstAnswer (s : IOTService) (ans : Answers) (key : String8) : Option String8 :=
  (s.askedAnswers ans key).find? fun str => str.length ≠ 0

/-- The two rules for a result `r` on a buffer `val`: a positive length is that of
    the first answer, which is what was copied; without an answer nothing is. -/
def ReturnsOnly (first : Option String8) (val : Bytes) (r : Int × Bytes) : Prop :=
  (0 < r.1 → ∃ str, first = some str ∧ r.1 = (min str.length val.length : Nat) ∧
    r.2 = str.take val.length ++ val.drop (min str.length val.length)) ∧
  (first = none → r.1 ≤ 0 ∧ r.2 = val)

/-- **The first answer is returned**: the two rules, and a positive length where
    there is an answer. -/
def FirstAnswer (first : Option String8) (val : Bytes) (r : Int × Bytes) : Prop :=
  ReturnsOnly first val r ∧ (first ≠ none → 0 < r.1)

/-- The last answer is the first as far as the buffer goes, and behind it the
    answers in between left the buffer as it was. -/
def LastIsFirst (s : IOTService) (ans : Answers) (key : String8) (val : Bytes) : Prop :=
  ∀ first ∈ s.firstAnswer ans key,
    ((s.askedAnswers ans key).getLast?.getD []).take val.length = first.take val.length ∧
      ∀ j, first.length ≤ j → j < val.length → ∀ w ∈ lastReaching (s.askedAnswers ans key) j,
        w[j]? = val[j]?

/-- **The condition**: a key without an entry gets no answer, and for one with an
    entry the last answer is the first. -/
def AnswersAgree (s : IOTService) (ans : Answers) (key : String8) (val : Bytes) : Prop :=
  if key ∈ s.m_keyFollow then LastIsFirst s ans key val else s.firstAnswer ans key = none

/-! ## 2. What the loop leaves -/

theorem memcpy_min (dst src : Bytes) (cap : Nat) :
    memcpy dst src (min src.length cap) = poke dst (src.take cap) := by
  rw [memcpy, Nat.min_comm, ← List.take_take, List.take_length]

/-- One round: an answer is stored over the buffer, anything else leaves it. -/
theorem getFrom_val {s : IOTService} {ans : Answers} {key : String8} {cap : Nat} {g : GetLoop}
    (hg : g.Copied cap) (c : ClientId) :
    (s.getFrom ans key cap g c).val =
      ((s.answerOf ans key c).toList.map (List.take cap)).foldl poke g.val := by
  unfold getFrom answerOf
  cases (s.client c).m_property with
  | none => rfl
  | some cb =>
    simp only [Option.bind_some]
    cases ans cb key with
    | none =>
      -- the call failed: the string of an earlier answer is stored again
      simp only [Option.getD_none, Option.toList_none, List.map_nil, List.foldl_nil]
      split
      · rfl
      · exact (memcpy_min _ _ _).trans (poke_start_again hg.starts)
    | some str =>
      simp only [Option.getD_some, Option.toList_some, List.map_cons, List.map_nil,
        List.foldl_cons, List.foldl_nil]
      split
      · rename_i h0
        simp [List.eq_nil_of_length_eq_zero h0, poke]
      · exact memcpy_min _ _ _

/-- The whole loop: every answer is stored over those before it. -/
theorem getLoop_val (s : IOTService) (ans : Answers) (key : String8) {cap : Nat}
    (l : List ClientId) {g : GetLoop} (hg : g.Copied cap) :
    (l.foldl (s.getFrom ans key cap) g).val =
      ((l.filterMap (s.answerOf ans key)).map (List.take cap)).foldl poke g.val := by
  induction l generalizing g with
  | nil => rfl
  | cons c l ih =>
    rw [List.foldl_cons, ih (getFrom_copied hg c), getFrom_val hg, ← List.foldl_append,
      ← List.map_append]
    cases h : s.answerOf ans key c with
    | none => rw [List.filterMap_cons_none h]; rfl
    | some str => rw [List.filterMap_cons_some h]; rfl

/-- **`callPropertyGet` as a function of the answers**: they are stored one over
    the other, and the result is the length of the last. -/
theorem callPropertyGet_eq (s : IOTService) (ans : Answers) (key : String8) {val : Bytes}
    (h : 0 < val.length) :
    (s.callPropertyGet ans key val val.length).2 =
        ((s.askedAnswers ans key).map (List.take val.length)).foldl poke val ∧
      (key ∈ s.m_keyFollow → s.askedAnswers ans key ≠ [] →
        (s.callPropertyGet ans key val val.length).1 =
          (min ((s.askedAnswers ans key).getLast?.getD []).length val.length : Nat)) ∧
      (key ∉ s.m_keyFollow ∨ s.askedAnswers ans key = [] →
        (s.callPropertyGet ans key val val.length).1 ≤ 0) := by
  have hg : GetLoop.Copied val.length ⟨[], 0, val⟩ := ⟨by simp, by simp, rfl⟩
  unfold callPropertyGet askedAnswers asked
  rw [if_neg (Nat.not_le_of_lt h)]
  cases hm : s.m_keyFollow[key]? with
  | none =>
    have hk : key ∉ s.m_keyFollow := by
      rw [Std.TreeMap.mem_iff_isSome_getElem?, hm]
      simp
    cases s.m_clients with
    | nil => simp [hk]
    | cons c l =>
      have hv := getLoop_val s ans key [c] hg
      refine ⟨hv, fun hk' => absurd hk' hk, fun _ => Int.le_refl 0⟩
  | some v =>
    have hk : key ∈ s.m_keyFollow := Std.TreeMap.mem_iff_isSome_getElem?.mpr (by rw [hm]; rfl)
    cases v with
    | none => simp [hk]
    | some l =>
      obtain ⟨hcop, hstr⟩ := getLoop_copied s ans key l hg
      refine ⟨getLoop_val s ans key l hg, fun _ _ => ?_, fun hno => ?_⟩
      · show ((l.foldl (s.getFrom ans key val.length) ⟨[], 0, val⟩).len : Int) = _
        rw [hcop.len, hstr]
      · have hnil := hno.resolve_left (fun hk' => hk' hk)
        show ((l.foldl (s.getFrom ans key val.length) ⟨[], 0, val⟩).len : Int) ≤ 0
        rw [hcop.len, hstr, hnil]
        simp

/-- For a key with an entry, the answers are those of its followers. -/
theorem askedAnswers_eq {s : IOTService} {ans : Answers} {key : String8}
    (hk : key ∈ s.m_keyFollow) : s.askedAnswers ans key = s.answersOf ans key := by
  obtain ⟨v, hm⟩ := Option.isSome_iff_exists.mp (Std.TreeMap.mem_iff_isSome_getElem?.mp hk)
  unfold askedAnswers answersOf asked stored
  rw [hm]
  cases v <;> rfl

/-! ## 3. The promise and the answers -/

theorem lastReaching_take (ws : List Bytes) {n j : Nat} (hj : j < n) :
    lastReaching (ws.map (List.take n)) j = (lastReaching ws j).map (List.take n) := by
  have hp : ((fun w : Bytes => decide (j < w.length)) ∘ List.take n) = fun w : Bytes =>
      decide (j < w.length) := by
    funext w
    simp only [Function.comp_apply, List.length_take, decide_eq_decide]
    omega
  unfold lastReaching
  rw [List.filter_map, hp, List.getLast?_map]

/-- At every place of the buffer stands what the last answer that reached it has. -/
theorem getElem?_callPropertyGet (s : IOTService) (ans : Answers) (key : String8) {val : Bytes}
    {j : Nat} (hj : j < val.length) :
    (s.callPropertyGet ans key val val.length).2[j]? =
      match lastReaching (s.askedAnswers ans key) j with
      | none => val[j]?
      | some w => w[j]? := by
  rw [(s.callPropertyGet_eq ans key (Nat.lt_of_le_of_lt (Nat.zero_le j) hj)).1,
    getElem?_pokes _ _ hj, lastReaching_take _ hj]
  cases lastReaching (s.askedAnswers ans key) j with
  | none => rfl
  | some w => exact List.getElem?_take_of_lt hj

theorem length_callPropertyGet (s : IOTService) (ans : Answers) (key : String8) {val : Bytes}
    (h : 0 < val.length) : (s.callPropertyGet ans key val val.length).2.length = val.length := by
  rw [(s.callPropertyGet_eq ans key h).1, length_pokes]

/-- The last answer is the last one to reach each of its places. -/
theorem lastReaching_last {ws : List Bytes} {j : Nat} (hj : j < (ws.getLast?.getD []).length) :
    lastReaching ws j = some (ws.getLast?.getD []) := by
  cases hl : ws.getLast? with
  | none => simp [hl] at hj
  | some w =>
    rw [hl] at hj
    obtain ⟨init, rfl⟩ := List.getLast?_eq_some_iff.mp hl
    have hw : j < w.length := hj
    unfold lastReaching
    rw [List.filter_append, List.filter_cons_of_pos (by simpa using hw), List.filter_nil,
      List.getLast?_concat]
    rfl

theorem poke_min (dst w : Bytes) :
    w.take dst.length ++ dst.drop (min w.length dst.length) = poke dst w := by
  unfold poke
  rcases Nat.le_total w.length dst.length with h | h
  · rw [Nat.min_eq_left h]
  · rw [Nat.min_eq_right h, List.drop_length, List.drop_eq_nil_of_le h]

/-- Without an answer the result is not positive and the buffer is untouched. -/
theorem callPropertyGet_none {s : IOTService} {ans : Answers} {key : String8} {val : Bytes}
    (h : 0 < val.length) (hfirst : s.firstAnswer ans key = none) :
    (s.callPropertyGet ans key val val.length).1 ≤ 0 ∧
      (s.callPropertyGet ans key val val.length).2 = val := by
  have hempty : ∀ w ∈ s.askedAnswers ans key, w = [] := by
    intro w hw
    simpa using List.find?_eq_none.mp hfirst w hw
  have hreach : ∀ j, lastReaching (s.askedAnswers ans key) j = none := by
    intro j
    unfold lastReaching
    rw [List.getLast?_eq_none_iff, List.filter_eq_nil_iff]
    intro w hw
    simp [hempty w hw]
  refine ⟨?_, List.ext_getElem? fun j => ?_⟩
  · obtain ⟨-, hret, hno⟩ := s.callPropertyGet_eq ans key h
    by_cases hk : key ∈ s.m_keyFollow ∧ s.askedAnswers ans key ≠ []
    · rw [hret hk.1 hk.2]
      have hlast : (s.askedAnswers ans key).getLast?.getD [] = [] := by
        cases hl : (s.askedAnswers ans key).getLast? with
        | none => rfl
        | some w => exact hempty w (List.mem_of_getLast? hl)
      rw [hlast]
      simp
    · refine hno ?_
      by_cases hk' : key ∈ s.m_keyFollow
      · exact .inr (by_contra fun hne => hk ⟨hk', hne⟩)
      · exact .inl hk'
  · by_cases hj : j < val.length
    · rw [getElem?_callPropertyGet s ans key hj, hreach j]
    · rw [List.getElem?_eq_none (by rw [length_callPropertyGet s ans key h]; omega),
        List.getElem?_eq_none (Nat.le_of_not_lt hj)]

/-- **Where there is a first answer**, on the path of the followers: it is what is
    returned exactly where the last answer is the first. -/
theorem callPropertyGet_first {s : IOTService} {ans : Answers} {key first : String8} {val : Bytes}
    (h : 0 < val.length) (hk : key ∈ s.m_keyFollow) (hfirst : s.firstAnswer ans key = some first) :
    ((s.callPropertyGet ans key val val.length).1 = (min first.length val.length : Nat) ∧
        (s.callPropertyGet ans key val val.length).2 = poke val first) ↔
      LastIsFirst s ans key val := by
  have hne : s.askedAnswers ans key ≠ [] := by
    intro he
    simp [firstAnswer, he] at hfirst
  rw [(s.callPropertyGet_eq ans key h).2.1 hk hne, Nat.cast_inj]
  have hat := fun j (hj : j < val.length) => s.getElem?_callPropertyGet ans key hj
  have hlen := s.length_callPropertyGet ans key h
  generalize (s.callPropertyGet ans key val val.length).2 = out at hat hlen
  constructor
  · rintro ⟨hmin, rfl⟩ f hf
    obtain rfl := Option.some.inj (hfirst.symm.trans hf)
    have hval := fun j (hj : j < val.length) => (hat j hj).symm.trans (getElem?_poke val first j)
    refine ⟨List.ext_getElem? fun j => ?_, fun j hfj hj w hw => ?_⟩
    · rw [List.getElem?_take, List.getElem?_take]
      by_cases hj : j < val.length
      · rw [if_pos hj, if_pos hj]
        by_cases hl : j < ((s.askedAnswers ans key).getLast?.getD []).length
        · have hv := hval j hj
          rw [lastReaching_last hl, if_pos ⟨by omega, hj⟩] at hv
          exact hv
        · rw [List.getElem?_eq_none (Nat.le_of_not_lt hl), List.getElem?_eq_none (by omega)]
      · rw [if_neg hj, if_neg hj]
    · have hv := hval j hj
      rw [Option.mem_def.mp hw, if_neg (fun hlt => by omega)] at hv
      exact hv
  · intro hlf
    obtain ⟨htake, hbehind⟩ := hlf first hfirst
    have hmin := congrArg List.length htake
    rw [List.length_take, List.length_take] at hmin
    refine ⟨by omega, List.ext_getElem? fun j => ?_⟩
    by_cases hj : j < val.length
    · rw [hat j hj, getElem?_poke]
      by_cases hf : j < first.length
      · have htj := congrArg (fun l : Bytes => l[j]?) htake
        simp only [List.getElem?_take, hj, ↓reduceIte] at htj
        rw [lastReaching_last (by omega), if_pos ⟨hf, hj⟩]
        exact htj
      · rw [if_neg (fun hlt => hf hlt.1)]
        cases hr : lastReaching (s.askedAnswers ans key) j with
        | none => rfl
        | some w => exact hbehind j (Nat.le_of_not_lt hf) hj w hr
    · rw [List.getElem?_eq_none (by rw [hlen]; omega),
        List.getElem?_eq_none (by rw [length_poke]; omega)]

theorem returnsOnly_of_le {first : String8} {val : Bytes} {r : Int × Bytes} (h : r.1 ≤ 0) :
    ReturnsOnly (some first) val r :=
  ⟨fun hpos => absurd hpos (Int.not_lt.mpr h), fun hn => by cases hn⟩

theorem returnsOnly_of_pos {first : String8} {val : Bytes} {r : Int × Bytes} (h : 0 < r.1) :
    ReturnsOnly (some first) val r ↔
      r.1 = (min first.length val.length : Nat) ∧ r.2 = poke val first := by
  rw [← poke_min]
  constructor
  · rintro ⟨hpos, -⟩
    obtain ⟨str, he, hr⟩ := hpos h
    obtain rfl := Option.some.inj he
    exact hr
  · intro hr
    exact ⟨fun _ => ⟨first, rfl, hr⟩, fun hn => by cases hn⟩

/-- An empty last answer is not the first. -/
theorem not_lastIsFirst_of_empty {s : IOTService} {ans : Answers} {key first : String8}
    {val : Bytes} (h : 0 < val.length) (hfirst : s.firstAnswer ans key = some first)
    (hlast : (s.askedAnswers ans key).getLast?.getD [] = []) : ¬ s.LastIsFirst ans key val := by
  intro hlf
  have hlen := congrArg List.length (hlf first hfirst).1
  have hpos : first.length ≠ 0 := by simpa using List.find?_some hfirst
  rw [hlast, List.take_nil, List.length_take, List.length_nil] at hlen
  omega

/-- **`callPropertyGet` returns the first answer** if and only if the answers
    agree. The two rules for what it returns are kept as well where the key has
    no entry, or the last answer is empty: no length is returned there. -/
theorem callPropertyGet_iff (s : IOTService) (ans : Answers) (key : String8) {val : Bytes}
    (h : 0 < val.length) :
    (FirstAnswer (s.firstAnswer ans key) val (s.callPropertyGet ans key val val.length) ↔
        s.AnswersAgree ans key val) ∧
      (ReturnsOnly (s.firstAnswer ans key) val (s.callPropertyGet ans key val val.length) ↔
        key ∉ s.m_keyFollow ∨ (s.askedAnswers ans key).getLast?.getD [] = [] ∨
          s.LastIsFirst ans key val) := by
  obtain ⟨-, hret, hno⟩ := s.callPropertyGet_eq ans key h
  unfold FirstAnswer AnswersAgree
  cases hfirst : s.firstAnswer ans key with
  | none =>
    have hlf : s.LastIsFirst ans key val := fun f hf => by rw [hfirst] at hf; cases hf
    obtain ⟨hle, hval⟩ := callPropertyGet_none h hfirst
    have hr : ReturnsOnly none val (s.callPropertyGet ans key val val.length) :=
      ⟨fun hpos => absurd hpos (Int.not_lt.mpr hle), fun _ => ⟨hle, hval⟩⟩
    refine ⟨⟨fun _ => ?_, fun _ => ⟨hr, fun hn => absurd rfl hn⟩⟩,
      ⟨fun _ => .inr (.inr hlf), fun _ => hr⟩⟩
    split
    · exact hlf
    · rfl
  | some first =>
    by_cases hk : key ∈ s.m_keyFollow
    · have hne : s.askedAnswers ans key ≠ [] := by
        intro he
        simp [firstAnswer, he] at hfirst
      have hlen := hret hk hne
      rw [if_pos hk]
      by_cases hlast : (s.askedAnswers ans key).getLast?.getD [] = []
      · -- the last answer is empty: the length is 0
        have hle : (s.callPropertyGet ans key val val.length).1 ≤ 0 := by
          rw [hlen, hlast]
          simp
        refine ⟨⟨fun hf => ?_, fun hlf => ?_⟩,
          ⟨fun _ => .inr (.inl hlast), fun _ => returnsOnly_of_le hle⟩⟩
        · exact absurd (hf.2 (Option.some_ne_none _)) (Int.not_lt.mpr hle)
        · exact absurd hlf (not_lastIsFirst_of_empty h hfirst hlast)
      · have hpos : 0 < (s.callPropertyGet ans key val val.length).1 := by
          have := List.length_pos_of_ne_nil hlast
          rw [hlen]
          omega
        have hiff : ReturnsOnly (some first) val (s.callPropertyGet ans key val val.length) ↔
            s.LastIsFirst ans key val :=
          (returnsOnly_of_pos hpos).trans (callPropertyGet_first h hk hfirst)
        refine ⟨⟨fun hf => hiff.mp hf.1, fun hlf => ⟨hiff.mpr hlf, fun _ => hpos⟩⟩,
          ⟨fun hr => .inr (.inr (hiff.mp hr)), fun hor => hiff.mpr ?_⟩⟩
        exact (hor.resolve_left (fun hn => hn hk)).resolve_left hlast
    · -- the path without followers returns no length
      have hle := hno (.inl hk)
      rw [if_neg hk]
      refine ⟨⟨fun hf => ?_, fun hn => by cases hn⟩,
        ⟨fun _ => .inl hk, fun _ => returnsOnly_of_le hle⟩⟩
      exact absurd (hf.2 (Option.some_ne_none _)) (Int.not_lt.mpr hle)

/-- Two clients with property callbacks follow `power`. -/
def twoFollowers : IOTService :=
  init.run [.createClient (lit "tv"), .createClient (lit "app"), .registPropertyCB 0 1,
    .registPropertyCB 1 2, .addFollowing FOLLOW_TYPE_PROPERTY (lit "power") 0,
    .addFollowing FOLLOW_TYPE_PROPERTY (lit "power") 1]

/-- The first answers `on`, the second `off`. -/
def onOff : Answers := fun cb _ => if cb = 1 then some (lit "on") else some (lit "off")

/-- `callPropertyGet_iff` for two followers that answer alike. -/
theorem callPropertyGet_iff_alike :
    FirstAnswer (twoFollowers.firstAnswer (fun _ _ => some (lit "on")) (lit "power")) (calloc 8)
      (twoFollowers.callPropertyGet (fun _ _ => some (lit "on")) (lit "power") (calloc 8) 8) := by
  have hsize : 0 < (calloc 8).length := by decide
  refine (callPropertyGet_iff twoFollowers (fun _ _ => some (lit "on")) (lit "power")
    hsize).1.mpr ?_
  have hfirst : twoFollowers.firstAnswer (fun _ _ => some (lit "on")) (lit "power") =
      some (lit "on") := by decide
  have hasked : twoFollowers.askedAnswers (fun _ _ => some (lit "on")) (lit "power") =
      [lit "on", lit "on"] := by decide
  unfold AnswersAgree LastIsFirst
  rw [if_pos (by decide), hfirst, hasked]
  rintro f hf
  obtain rfl := Option.some.inj hf
  refine ⟨rfl, fun j hj _ w hw => ?_⟩
  obtain ⟨hmem, hlt⟩ := List.mem_filter.mp (List.mem_of_getLast? hw)
  obtain rfl : w = lit "on" := by simpa using hmem
  exact absurd (of_decide_eq_true hlt) (Nat.not_lt.mpr hj)

/-- **The second answer is returned**: `on` came first, and `off` is in the buffer. -/
theorem second_answer :
    ¬ ∀ (s : IOTService) (ans : Answers) (key : String8) (val : Bytes), 0 < val.length →
      ReturnsOnly (s.firstAnswer ans key) val (s.callPropertyGet ans key val val.length) := by
  intro h
  have hr := (h twoFollowers onOff (lit "power") (calloc 8) (by decide)).1 (by decide)
  have hfirst : twoFollowers.firstAnswer onOff (lit "power") = some (lit "on") := by decide
  obtain ⟨str, he, hlen, -⟩ := hr
  obtain rfl := Option.some.inj (hfirst.symm.trans he)
  revert hlen
  decide

end IOTService

end IotWrap
