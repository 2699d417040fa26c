/-
  File:      IotWrap/Lib/CString.lean
  Subject:   `strchr` and `strstr`.

  A pointer into a buffer is an offset. A search starts at one, stops at the first
  NUL from there on (at the end of the buffer, where there is none) and returns
  the place of the first hit.

  * `strchr_iff`, `strstr_iff`: what the place says of the bytes before it;
  * `strchr_split`: what stands around a hit;
  * `strchr_of_some`, `strstr_of_some`: a hit stays one in a longer buffer;
  * `strchr_of_none`, `strstr_of_none`: where there was none, the search goes on behind;
  * `strchr_skip`, `strchr_shift`: the search goes on behind bytes without a hit; one
    that starts behind `w` does not see it;
  * `strchr_cstr`, `strstr_cstr`: a search reads nothing behind the NUL.
-/
import IotWrap.Lib.CMem
import Mathlib.Data.List.Infix

namespace IotWrap.Lib

/-- `strchr(b + p, c)`, for a `c` that is not NUL. -/
def strchr (b : Bytes) (p : Nat) (c : UInt8) : Option Nat :=
  ((cstr (b.drop p)).idxOf? c).map (p + ·)

/-- `strstr(b + p, tok)`. -/
def strstr (b : Bytes) (p : Nat) (tok : Bytes) : Option Nat :=
  ((cstr (b.drop p)).tails.findIdx? tok.isPrefixOf).map (p + ·)

/-- The places at which `tok` stands in a string. -/
def places (tok s : Bytes) : List Nat :=
  (List.range (s.length + 1)).filter fun i => tok.isPrefixOf (s.drop i)

theorem mem_places {tok s : Bytes} {i : Nat} :
    i ∈ places tok s ↔ ∃ u v, s = u ++ tok ++ v ∧ u.length = i := by
  unfold places
  rw [List.mem_filter, List.mem_range, List.isPrefixOf_iff_prefix]
  constructor
  · rintro ⟨hlt, v, hv⟩
    refine ⟨s.take i, v, ?_, ?_⟩
    · rw [List.append_assoc, hv, List.take_append_drop]
    · rw [List.length_take]
      omega
  · rintro ⟨u, v, rfl, rfl⟩
    refine ⟨?_, v, ?_⟩
    · simp only [List.length_append]
      omega
    · rw [List.append_assoc, List.drop_left]

/-! ## 1. The place of the first hit -/

/-- What a buffer starts with is the start of its C string. -/
theorem cstr_starts {w b : Bytes} (h : w <+: b) : cstr w <+: cstr b := by
  obtain ⟨r, rfl⟩ := h
  by_cases h0 : (0 : UInt8) ∈ w
  · rw [cstr_of_starts (List.prefix_append w r) h0]
  · rw [cstr_append h0, cstr_eq_self h0]
    exact List.prefix_append _ _

theorem idxOf?_iff {s : Bytes} {c : UInt8} {i : Nat} :
    s.idxOf? c = some i ↔ ∃ u v, s = u ++ c :: v ∧ c ∉ u ∧ u.length = i := by
  induction s generalizing i with
  | nil => simp
  | cons x s ih =>
    rw [List.idxOf?_cons]
    by_cases hx : x = c
    · subst hx
      simp only [BEq.rfl, ↓reduceIte, Option.some.injEq]
      constructor
      · rintro rfl
        exact ⟨[], s, rfl, List.not_mem_nil, rfl⟩
      · rintro ⟨u, v, he, hu, rfl⟩
        cases u with
        | nil => rfl
        | cons y u =>
          rw [List.cons_append, List.cons.injEq] at he
          exact absurd (he.1 ▸ List.mem_cons_self) hu
    · rw [if_neg (by simpa using hx), Option.map_eq_some_iff]
      constructor
      · rintro ⟨j, hj, rfl⟩
        obtain ⟨u, v, rfl, hu, rfl⟩ := ih.mp hj
        exact ⟨x :: u, v, rfl, by simp [hu, Ne.symm hx], rfl⟩
      · rintro ⟨u, v, he, hu, rfl⟩
        cases u with
        | nil => exact absurd (List.cons.inj he).1 hx
        | cons y u =>
          rw [List.cons_append, List.cons.injEq] at he
          obtain ⟨rfl, rfl⟩ := he
          exact ⟨u.length, ih.mpr ⟨u, v, rfl, fun h => hu (List.mem_cons_of_mem _ h), rfl⟩, rfl⟩

/-- **`strchr`**: the first `c`, with no NUL on the way. -/
theorem strchr_iff {b : Bytes} {p q : Nat} {c : UInt8} (hc : c ≠ 0) :
    strchr b p c = some q ↔
      ∃ u v, b.drop p = u ++ c :: v ∧ c ∉ u ∧ (0 : UInt8) ∉ u ∧ q = p + u.length := by
  unfold strchr
  rw [Option.map_eq_some_iff]
  constructor
  · rintro ⟨i, hi, rfl⟩
    obtain ⟨u, v, he, hu, rfl⟩ := idxOf?_iff.mp hi
    have h0 : (0 : UInt8) ∉ u := fun h =>
      zero_not_mem_cstr (b.drop p) (he ▸ List.mem_append_left _ h)
    rcases eq_cstr_append (b.drop p) with hb | ⟨r, hb⟩
    · exact ⟨u, v, hb.trans he, hu, h0, rfl⟩
    · refine ⟨u, v ++ 0 :: r, ?_, hu, h0, rfl⟩
      rw [hb, he, List.append_assoc]
      rfl
  · rintro ⟨u, v, he, hu, h0, rfl⟩
    refine ⟨u.length, idxOf?_iff.mpr ⟨u, cstr v, ?_, hu, rfl⟩, rfl⟩
    rw [he, cstr_append h0, show c :: v = [c] ++ v from rfl,
      cstr_append (by simpa using Ne.symm hc)]
    rfl

/-- **`strstr`**: the first `tok` of the C string. -/
theorem strstr_iff {b : Bytes} {p q : Nat} {tok : Bytes} :
    strstr b p tok = some q ↔
      ∃ u v, cstr (b.drop p) = u ++ tok ++ v ∧ q = p + u.length ∧
        ∀ u' v', cstr (b.drop p) = u' ++ tok ++ v' → u.length ≤ u'.length := by
  unfold strstr
  generalize cstr (b.drop p) = s
  rw [Option.map_eq_some_iff]
  constructor
  · rintro ⟨i, hi, rfl⟩
    obtain ⟨hlt, hp, hmin⟩ := List.findIdx?_eq_some_iff_getElem.mp hi
    rw [List.length_tails] at hlt
    simp only [List.getElem_tails, List.isPrefixOf_iff_prefix] at hp hmin
    obtain ⟨v, hv⟩ := hp
    have hu : (s.take i).length = i := by
      rw [List.length_take]
      omega
    refine ⟨s.take i, v, ?_, by rw [hu], fun u' v' he => ?_⟩
    · rw [List.append_assoc, hv, List.take_append_drop]
    · rw [hu]
      refine Nat.le_of_not_lt fun hlt' => hmin _ hlt' ⟨v', ?_⟩
      rw [he, List.append_assoc, List.drop_left]
  · rintro ⟨u, v, he, rfl, hmin⟩
    refine ⟨u.length, List.findIdx?_eq_some_iff_getElem.mpr ⟨?_, ?_, fun j hj => ?_⟩, rfl⟩
    · rw [List.length_tails, he]
      simp only [List.length_append]
      omega
    · simp only [List.getElem_tails, List.isPrefixOf_iff_prefix]
      exact ⟨v, by rw [he, List.append_assoc, List.drop_left]⟩
    · simp only [List.getElem_tails, List.isPrefixOf_iff_prefix]
      rintro ⟨v', hv'⟩
      have hlen : (s.take j).length = j := by
        rw [List.length_take, he]
        simp only [List.length_append]
        omega
      have := hmin (s.take j) v' (by rw [List.append_assoc, hv', List.take_append_drop])
      omega

/-- **Around a hit**: what is before it has no `c`, and the buffer goes on behind it. -/
theorem strchr_split {b : Bytes} {p q : Nat} {c : UInt8} (hc : c ≠ 0)
    (h : strchr b p c = some q) :
    ∃ u, b.drop p = u ++ c :: b.drop (q + 1) ∧ c ∉ u ∧ q = p + u.length := by
  obtain ⟨u, v, he, hu, -, rfl⟩ := (strchr_iff hc).mp h
  have hv : b.drop (p + u.length + 1) = v := by
    rw [← List.drop_drop, ← List.drop_drop, he, List.drop_left]
    rfl
  exact ⟨u, by rw [hv]; exact he, hu, rfl⟩

theorem drop_of_strchr {b : Bytes} {p q : Nat} {c : UInt8} (hc : c ≠ 0)
    (h : strchr b p c = some q) : b.drop q = c :: b.drop (q + 1) := by
  obtain ⟨u, he, -, hq⟩ := strchr_split hc h
  have hd := congrArg (List.drop u.length) he
  rw [List.drop_drop, List.drop_left, ← hq] at hd
  exact hd

/-- There is a hit where the C string has the byte. -/
theorem strchr_isSome {b : Bytes} {p : Nat} {c : UInt8} :
    (∃ q, strchr b p c = some q) ↔ c ∈ cstr (b.drop p) := by
  unfold strchr
  rw [← Option.isSome_iff_exists, Option.isSome_map, List.isSome_idxOf?]

theorem strchr_none {b : Bytes} {p : Nat} {c : UInt8} (h : c ∉ b.drop p) : strchr b p c = none := by
  by_contra hne
  have hmem := strchr_isSome.mp (Option.ne_none_iff_exists'.mp hne)
  exact h ((List.takeWhile_prefix _).subset hmem)

/-- A hit is not before bytes that are not `c`. -/
theorem strchr_ge {b w : Bytes} {p q : Nat} {c : UInt8} (hc : c ≠ 0)
    (h : strchr b p c = some q) (hw : w <+: b.drop p) (hcw : c ∉ w) : p + w.length ≤ q := by
  obtain ⟨u, v, he, -, -, rfl⟩ := (strchr_iff hc).mp h
  by_contra hlt
  have hpre : u ++ [c] <+: w :=
    List.prefix_of_prefix_length_le ⟨v, by rw [he, List.append_assoc]; rfl⟩ hw
      (by simp only [List.length_append, List.length_singleton]; omega)
  exact hcw (hpre.subset (List.mem_append_right _ (List.mem_singleton.mpr rfl)))

/-- No `c` before the hit. -/
theorem not_mem_of_strchr {b w r : Bytes} {p q : Nat} {c : UInt8} (hc : c ≠ 0)
    (h : strchr b p c = some q) (hb : b.drop p = w ++ r) (hq : p + w.length ≤ q) : c ∉ w := by
  obtain ⟨u, v, he, hu, -, rfl⟩ := (strchr_iff hc).mp h
  have hpre : w <+: u :=
    List.prefix_of_prefix_length_le ⟨r, hb.symm⟩ ⟨c :: v, he.symm⟩ (by omega)
  exact fun hm => hu (hpre.subset hm)

/-- The search goes on behind bytes that are not `c`. -/
theorem strchr_skip {b w r : Bytes} {p : Nat} {c : UInt8} (hb : b.drop p = w ++ r)
    (hc : c ∉ w) (h0 : (0 : UInt8) ∉ w) : strchr b p c = strchr b (p + w.length) c := by
  have hnone : w.findIdx? (· == c) = none :=
    List.findIdx?_eq_none_iff.mpr fun x hx => beq_eq_false_iff_ne.mpr fun e => hc (e ▸ hx)
  unfold strchr List.idxOf?
  rw [← List.drop_drop, hb, List.drop_left, cstr_append h0, List.findIdx?_append, hnone,
    Option.none_or, Option.map_map]
  congr 1
  funext i
  simp only [Function.comp_apply]
  omega

theorem strchr_step {b r : Bytes} {p : Nat} {c x : UInt8} (hb : b.drop p = x :: r)
    (hx : x ≠ c) (h0 : x ≠ 0) : strchr b p c = strchr b (p + 1) c :=
  strchr_skip (w := [x]) hb (by simpa using hx.symm) (by simpa using h0.symm)

/-! ## 2. Longer buffers -/

/-- **A hit stays one**, whatever stands behind. -/
theorem strchr_of_some {w b : Bytes} (hw : w <+: b) {p q : Nat} {c : UInt8} (hc : c ≠ 0)
    (h : strchr w p c = some q) : strchr b p c = some q := by
  obtain ⟨r, rfl⟩ := hw
  obtain ⟨u, v, he, hu, h0, rfl⟩ := (strchr_iff hc).mp h
  refine (strchr_iff hc).mpr ⟨u, v ++ r, ?_, hu, h0, rfl⟩
  have hp : p ≤ w.length := by
    by_contra hlt
    rw [List.drop_eq_nil_of_le (by omega)] at he
    exact absurd he.symm (by simp)
  rw [List.drop_append_of_le_length hp, he, List.append_assoc]
  rfl

/-- A hit inside the start of the buffer is one there. -/
theorem strchr_of_lt {w b : Bytes} (hw : w <+: b) {p q : Nat} {c : UInt8} (hc : c ≠ 0)
    (h : strchr b p c = some q) (hq : q < w.length) : strchr w p c = some q := by
  obtain ⟨r, rfl⟩ := hw
  obtain ⟨u, v, he, hu, h0, rfl⟩ := (strchr_iff hc).mp h
  have hp : p ≤ w.length := by omega
  rw [List.drop_append_of_le_length hp] at he
  have hpre : u ++ [c] <+: w.drop p := by
    refine List.prefix_of_prefix_length_le ⟨v, ?_⟩ (List.prefix_append _ r) ?_
    · rw [he, List.append_assoc]
      rfl
    · simp only [List.length_append, List.length_singleton, List.length_drop]
      omega
  obtain ⟨v', hv'⟩ := hpre
  exact (strchr_iff hc).mpr ⟨u, v', by rw [← hv', List.append_assoc]; rfl, hu, h0, rfl⟩

/-- A search that starts behind `w` does not see it. -/
theorem strchr_shift (w r : Bytes) (j : Nat) (c : UInt8) :
    strchr (w ++ r) (w.length + j) c = (strchr r j c).map (w.length + ·) := by
  unfold strchr
  rw [List.drop_append, List.drop_eq_nil_of_le (Nat.le_add_right _ _), List.nil_append,
    Nat.add_sub_cancel_left, Option.map_map]
  congr 1
  funext i
  simp only [Function.comp_apply]
  omega

/-- **Without a hit** the search goes on behind. -/
theorem strchr_of_none {w : Bytes} (h0 : (0 : UInt8) ∉ w) {p : Nat} (hp : p ≤ w.length)
    {c : UInt8} (h : strchr w p c = none) (r : Bytes) :
    strchr (w ++ r) p c = (strchr r 0 c).map (w.length + ·) := by
  have h0d : (0 : UInt8) ∉ w.drop p := fun hm => h0 (List.mem_of_mem_drop hm)
  have hn : c ∉ w.drop p := by
    unfold strchr at h
    rw [Option.map_eq_none_iff, cstr_eq_self h0d, List.idxOf?_eq_none_iff] at h
    exact h
  have hlen : p + (w.drop p).length = w.length + 0 := by
    rw [List.length_drop]
    omega
  rw [strchr_skip (List.drop_append_of_le_length hp) hn h0d, hlen, strchr_shift]

/-- The first `tok` stays the first. -/
theorem strstr_of_some {w b : Bytes} (hw : w <+: b) {q : Nat} {tok : Bytes}
    (h : strstr w 0 tok = some q) : strstr b 0 tok = some q := by
  obtain ⟨u, v, he, rfl, hmin⟩ := strstr_iff.mp h
  rw [List.drop_zero] at he hmin
  obtain ⟨r, hr⟩ := cstr_starts hw
  refine strstr_iff.mpr ⟨u, v ++ r, ?_, rfl, fun u' v' he' => ?_⟩
  · rw [List.drop_zero, ← hr, he, List.append_assoc]
  · -- an earlier one would end before the first, inside `w`
    rw [List.drop_zero, ← hr] at he'
    by_contra hlt
    have hle : (u' ++ tok).length ≤ (cstr w).length := by
      have := congrArg List.length he
      simp only [List.length_append] at this ⊢
      omega
    have hpre : u' ++ tok <+: cstr w :=
      List.prefix_of_prefix_length_le ⟨v', he'.symm⟩ (List.prefix_append _ _) hle
    obtain ⟨v'', hv''⟩ := hpre
    exact hlt (hmin u' v'' hv''.symm)

/-- Where the C string has a `tok`, the search finds one no later. -/
theorem strstr_le {b u v tok : Bytes} (h : cstr b = u ++ tok ++ v) :
    ∃ q, strstr b 0 tok = some q ∧ q ≤ u.length := by
  cases hq : strstr b 0 tok with
  | some q =>
    obtain ⟨u', v', he, rfl, hmin⟩ := strstr_iff.mp hq
    exact ⟨_, rfl, by simpa using hmin u v h⟩
  | none =>
    unfold strstr at hq
    rw [Option.map_eq_none_iff, List.findIdx?_eq_none_iff, List.drop_zero] at hq
    have hmem : tok ++ v ∈ (cstr b).tails :=
      (List.mem_tails _ _).mpr ⟨u, by rw [h, List.append_assoc]⟩
    have hno := hq _ hmem
    rw [List.isPrefixOf_iff_prefix.mpr (List.prefix_append _ _)] at hno
    cases hno

/-- **Without a `tok`** in `w` the search finds one that starts in `w` or right behind
    it: what it has of `w` is the start of `tok`. -/
theorem strstr_of_none {w tok : Bytes} (h0 : (0 : UInt8) ∉ w) (h : strstr w 0 tok = none)
    {r : Bytes} (hr : tok <+: cstr r) :
    ∃ q, strstr (w ++ r) 0 tok = some q ∧ q ≤ w.length ∧ w.drop q <+: tok := by
  obtain ⟨v, hv⟩ := hr
  have hc : cstr (w ++ r) = w ++ tok ++ v := by
    rw [cstr_append h0, ← hv, List.append_assoc]
  obtain ⟨q, hq, hle⟩ := strstr_le hc
  obtain ⟨u, v', he, hu, -⟩ := strstr_iff.mp hq
  rw [Nat.zero_add] at hu
  subst hu
  refine ⟨u.length, hq, hle, ?_⟩
  rw [List.drop_zero, hc, List.append_assoc, List.append_assoc] at he
  obtain ⟨s, rfl⟩ : u <+: w := List.prefix_of_prefix_length_le ⟨_, he.symm⟩ ⟨_, rfl⟩ hle
  rw [List.append_assoc, List.append_cancel_left_eq] at he
  rw [List.drop_left]
  rcases Nat.le_total s.length tok.length with hlen | hlen
  · exact List.prefix_of_prefix_length_le ⟨_, he⟩ ⟨v', rfl⟩ hlen
  · -- all of `tok` is in `w`
    obtain ⟨s', rfl⟩ : tok <+: s := List.prefix_of_prefix_length_le ⟨v', rfl⟩ ⟨_, he⟩ hlen
    obtain ⟨q, hq, -⟩ := strstr_le ((cstr_eq_self h0).trans (List.append_assoc u tok s').symm)
    rw [hq] at h
    cases h

/-! ## 3. Behind the NUL -/

theorem cstr_drop {b : Bytes} {p : Nat} (hp : p ≤ (cstr b).length) :
    cstr (b.drop p) = (cstr b).drop p := by
  have h0 : (0 : UInt8) ∉ (cstr b).drop p := fun h => zero_not_mem_cstr b (List.mem_of_mem_drop h)
  rcases eq_cstr_append b with hb | ⟨r, hb⟩
  · rw [← hb] at h0 ⊢
    exact cstr_eq_self h0
  · conv_lhs => rw [hb]
    rw [List.drop_append_of_le_length hp, cstr_append_zero, cstr_eq_self h0]

/-- **A search reads the C string** and nothing behind it. -/
theorem strchr_cstr {b : Bytes} {p : Nat} (hp : p ≤ (cstr b).length) (c : UInt8) :
    strchr (cstr b) p c = strchr b p c := by
  unfold strchr
  rw [cstr_drop hp, cstr_drop (by rw [cstr_cstr]; exact hp), cstr_cstr]

theorem strstr_cstr (b tok : Bytes) : strstr (cstr b) 0 tok = strstr b 0 tok := by
  unfold strstr
  rw [List.drop_zero, List.drop_zero, cstr_cstr]

/-- A hit is in the C string. -/
theorem strchr_lt_cstr {b : Bytes} {p q : Nat} (hp : p ≤ (cstr b).length) {c : UInt8}
    (h : strchr b p c = some q) : q < (cstr b).length := by
  unfold strchr at h
  rw [cstr_drop hp, Option.map_eq_some_iff] at h
  obtain ⟨i, hi, rfl⟩ := h
  obtain ⟨u, v, he, -, rfl⟩ := idxOf?_iff.mp hi
  have hlen := congrArg List.length he
  simp only [List.length_drop, List.length_append, List.length_cons] at hlen
  omega

theorem strstr_le_cstr {b tok : Bytes} {q : Nat} (h : strstr b 0 tok = some q) :
    q ≤ (cstr b).length := by
  obtain ⟨u, v, he, rfl, -⟩ := strstr_iff.mp h
  rw [List.drop_zero] at he
  rw [he]
  simp only [List.length_append]
  omega

end IotWrap.Lib
