/-
  File:      IotWrap/Lib/CMem.lean
  Subject:   Byte buffers as the C library reads and writes them.

  A buffer is the list of the bytes it was allocated with; a store keeps its
  length (`poke`: what would fall past the end is not in the buffer). Whether a
  store or a read stays inside is a statement of its own: `Access` records
  what a function does to a buffer, `Access.inBounds` says that it is allowed.

  * `strncpy`, `memcpy`, `atoi`, `loadInt32`, `storeInt32`, `cstr`: the
    library's functions on buffers;
  * `cstr_store`: when a stored string is the string that is read;
  * `getElem?_pokes`: what is left of stores on top of each other;
  * `terminated_strncpy`: a copy shorter than the buffer keeps the last byte,
    so a buffer that ended in NUL still does;
  * `load_storeInt32`: the int32 stored is the int32 loaded.
-/
import Mathlib.Data.List.Basic
import Mathlib.Data.List.Induction
import Mathlib.Data.List.TakeWhile
import Mathlib.Tactic.Ring

namespace IotWrap.Lib

/-- The bytes of a buffer, or of a string object. -/
abbrev Bytes := List UInt8

/-- The bytes of an ASCII literal. -/
def lit (s : String) : Bytes := s.toList.map fun c => c.toNat.toUInt8

/-! ## 1. C strings -/

/-- The C string at the start of a buffer: the bytes before the first NUL. -/
def cstr (b : Bytes) : Bytes := b.takeWhile (· != 0)

/-- `calloc(1, n)`. -/
def calloc (n : Nat) : Bytes := List.replicate n 0

/-- Overwrite the start of `dst`; the length of `dst` stays. -/
def poke (dst w : Bytes) : Bytes := w.take dst.length ++ dst.drop w.length

/-- The `n` bytes `strncpy(_, src, n)` stores: the string, then NULs. -/
def strncpyBytes (src : Bytes) (n : Nat) : Bytes :=
  (cstr src).take n ++ List.replicate (n - (cstr src).length) 0

/-- `strncpy(dst, src, n)`. -/
def strncpy (dst src : Bytes) (n : Nat) : Bytes := poke dst (strncpyBytes src n)

/-- `memcpy(dst, src, n)`. -/
def memcpy (dst src : Bytes) (n : Nat) : Bytes := poke dst (src.take n)

@[simp] theorem length_calloc (n : Nat) : (calloc n).length = n := List.length_replicate

@[simp] theorem length_poke (dst w : Bytes) : (poke dst w).length = dst.length := by
  simp only [poke, List.length_append, List.length_take, List.length_drop]
  omega

@[simp] theorem length_strncpyBytes (src : Bytes) (n : Nat) : (strncpyBytes src n).length = n := by
  simp only [strncpyBytes, List.length_append, List.length_take, List.length_replicate]
  omega

@[simp] theorem length_strncpy (dst src : Bytes) (n : Nat) :
    (strncpy dst src n).length = dst.length := length_poke _ _

@[simp] theorem length_memcpy (dst src : Bytes) (n : Nat) :
    (memcpy dst src n).length = dst.length := length_poke _ _

theorem length_cstr_le (b : Bytes) : (cstr b).length ≤ b.length :=
  (List.takeWhile_sublist _).length_le

/-- A C string has no NUL. -/
theorem zero_not_mem_cstr (b : Bytes) : (0 : UInt8) ∉ cstr b := by
  intro h
  have := List.mem_takeWhile_imp h
  simp at this

@[simp] theorem cstr_cstr (b : Bytes) : cstr (cstr b) = cstr b := by
  refine List.takeWhile_eq_self_iff.mpr fun x hx => ?_
  exact bne_iff_ne.mpr fun e => zero_not_mem_cstr b (e ▸ hx)

/-- The NUL is not part of the C string. -/
theorem length_cstr_lt {b : Bytes} (h : (0 : UInt8) ∈ b) : (cstr b).length < b.length := by
  refine Nat.lt_of_le_of_ne (length_cstr_le b) fun he => zero_not_mem_cstr b ?_
  have hb : cstr b = b := (List.takeWhile_prefix _).eq_of_length he
  exact hb.symm ▸ h

/-- A C string that is shorter than its bytes ends at a NUL. -/
theorem zero_mem_of_length_cstr {b : Bytes} (h : (cstr b).length < b.length) :
    (0 : UInt8) ∈ b := by
  by_contra h0
  have hb : cstr b = b := by
    refine List.takeWhile_eq_self_iff.mpr fun x hx => bne_iff_ne.mpr fun e => h0 (e ▸ hx)
  rw [hb] at h
  exact Nat.lt_irrefl _ h

/-- What stands behind the first NUL does not matter. -/
theorem cstr_of_starts {w b : Bytes} (hw : w <+: b) (h : (0 : UInt8) ∈ w) : cstr b = cstr w := by
  obtain ⟨r, rfl⟩ := hw
  have hne : (w.takeWhile (· != 0)).length ≠ w.length := Nat.ne_of_lt (length_cstr_lt h)
  exact List.takeWhile_append.trans (if_neg hne)

/-- Bytes without a NUL are part of the C string they start. -/
theorem cstr_append {w : Bytes} (h : (0 : UInt8) ∉ w) (r : Bytes) :
    cstr (w ++ r) = w ++ cstr r := by
  have hp : ∀ x ∈ w, (x != 0) = true := fun x hx => bne_iff_ne.mpr fun e => h (e ▸ hx)
  exact List.takeWhile_append_of_pos hp

theorem cstr_eq_self {w : Bytes} (h : (0 : UInt8) ∉ w) : cstr w = w := by
  have hw := cstr_append h []
  rw [List.append_nil] at hw
  exact hw.trans (List.append_nil w)

/-- Behind the C string stands a NUL, or nothing. -/
theorem eq_cstr_append (b : Bytes) : b = cstr b ∨ ∃ r, b = cstr b ++ 0 :: r := by
  have hb : cstr b ++ b.dropWhile (· != 0) = b := List.takeWhile_append_dropWhile
  have hh := List.head?_dropWhile_not (· != (0 : UInt8)) b
  cases hc : b.dropWhile (· != 0) with
  | nil =>
    rw [hc, List.append_nil] at hb
    exact .inl hb.symm
  | cons x r =>
    rw [hc] at hh hb
    have hx : x = 0 := by simpa using hh
    exact .inr ⟨r, by rw [← hx]; exact hb.symm⟩

/-- A C string that starts with `w` is `w` exactly where a NUL stands behind it. -/
theorem cstr_eq_iff {b w : Bytes} (hw : w <+: cstr b) (h : w.length < b.length) :
    cstr b = w ↔ b[w.length]? = some 0 := by
  rcases eq_cstr_append b with hb | ⟨r, hb⟩
  · constructor
    · rintro rfl
      exact absurd (congrArg List.length hb) (Nat.ne_of_gt h)
    · intro h0
      exact absurd (hb ▸ List.mem_of_getElem? h0) (zero_not_mem_cstr b)
  · rcases Nat.lt_or_eq_of_le hw.length_le with hlt | heq
    · have hne : cstr b ≠ w := fun e => Nat.ne_of_gt hlt (congrArg List.length e)
      refine iff_of_false hne fun h0 => zero_not_mem_cstr b ?_
      rw [hb, List.getElem?_append_left hlt] at h0
      exact List.mem_of_getElem? h0
    · have he : cstr b = w := (hw.eq_of_length heq).symm
      refine iff_of_true he ?_
      rw [hb, heq]
      simp

/-- A NUL ends the string, whatever stands behind. -/
theorem cstr_append_zero (w r : Bytes) : cstr (w ++ 0 :: r) = cstr w := by
  by_cases h0 : (0 : UInt8) ∈ w
  · exact cstr_of_starts (List.prefix_append _ _) h0
  · rw [cstr_append h0, cstr_eq_self h0]
    exact List.append_nil w

theorem head_cstr {r : Bytes} {c : UInt8} (h : c ∈ (cstr r).head?) : c ∈ r.head? := by
  cases r with
  | nil => exact h
  | cons x r =>
    unfold cstr at h
    rw [List.takeWhile_cons] at h
    split at h
    · exact h
    · cases h

/-- A store starts the buffer with what was stored, as far as it fits. -/
theorem take_starts_poke (dst w : Bytes) : w.take dst.length <+: poke dst w :=
  List.prefix_append _ _

/-- `strncpy` reads no more than the count. -/
theorem strncpyBytes_take (src : Bytes) (n : Nat) :
    strncpyBytes (src.take n) n = strncpyBytes src n := by
  have hc : cstr (src.take n) = (cstr src).take n := List.take_takeWhile.symm
  unfold strncpyBytes
  rw [hc, List.take_take, Nat.min_self, List.length_take]
  congr 2
  omega

/-- **A store of a whole string** makes it the C string of the buffer exactly where
    it has a NUL of its own, or the buffer has one where the string ends. -/
theorem cstr_store {dst str : Bytes} (h : str.length < dst.length) :
    cstr (strncpy dst str str.length) = cstr str ↔
      (0 : UInt8) ∈ str ∨ dst[str.length]? = some 0 := by
  by_cases h0 : (0 : UInt8) ∈ str
  · refine iff_of_true ?_ (.inl h0)
    have hlt := length_cstr_lt h0
    obtain ⟨n, hn⟩ := Nat.exists_eq_succ_of_ne_zero (Nat.sub_ne_zero_of_lt hlt)
    simp only [strncpy, strncpyBytes, hn, List.replicate_succ, poke,
      List.take_of_length_le (Nat.le_of_lt hlt)]
    rw [List.take_of_length_le (by simp; omega), List.append_assoc, List.cons_append,
      cstr_append (zero_not_mem_cstr str)]
    exact List.append_nil _
  · have hs := cstr_eq_self h0
    have hp : strncpy dst str str.length = str ++ dst.drop str.length := by
      simp only [strncpy, strncpyBytes, hs, List.take_length, Nat.sub_self, List.replicate_zero,
        List.append_nil, poke]
      rw [List.take_of_length_le (Nat.le_of_lt h)]
    rw [hs]
    have hpre : str <+: cstr (strncpy dst str str.length) := by
      rw [hp, cstr_append h0]
      exact List.prefix_append _ _
    rw [cstr_eq_iff hpre (by rw [length_strncpy]; exact h), hp,
      List.getElem?_append_right (Nat.le_refl _), List.getElem?_drop]
    simp [h0]

/-- What a store leaves at one place of the buffer. -/
theorem getElem?_poke (dst w : Bytes) (j : Nat) :
    (poke dst w)[j]? = if j < w.length ∧ j < dst.length then w[j]? else dst[j]? := by
  unfold poke
  by_cases hw : j < w.length ∧ j < dst.length
  · rw [if_pos hw, List.getElem?_append_left (by rw [List.length_take]; omega),
      List.getElem?_take_of_lt hw.2]
  · rw [if_neg hw, List.getElem?_append, List.length_take, List.getElem?_drop]
    by_cases hd : j < dst.length
    · have hj : w.length ≤ j := Nat.le_of_not_lt fun hlt => hw ⟨hlt, hd⟩
      rw [if_neg (by omega)]
      congr 1
      omega
    · rw [List.getElem?_take, if_neg hd, List.getElem?_eq_none (Nat.le_of_not_lt hd),
        List.getElem?_eq_none (by omega), ite_self]

/-- Storing again what the buffer starts with. -/
theorem poke_start_again {dst w : Bytes} (h : w <+: dst) : poke dst w = dst := by
  obtain ⟨r, rfl⟩ := h
  rw [poke, List.take_of_length_le (by simp), List.drop_left]

@[simp] theorem length_pokes (dst : Bytes) (ws : List Bytes) :
    (ws.foldl poke dst).length = dst.length := by
  induction ws using List.reverseRecOn with
  | nil => rfl
  | append_singleton ws w ih => simp [ih]

/-- The last of the strings that reach a place of the buffer. -/
def lastReaching (ws : List Bytes) (j : Nat) : Option Bytes :=
  (ws.filter fun w => j < w.length).getLast?

/-- **Stores on top of each other**: at every place stands what the last store
    that reached it put there. -/
theorem getElem?_pokes (dst : Bytes) (ws : List Bytes) {j : Nat} (hj : j < dst.length) :
    (ws.foldl poke dst)[j]? = match lastReaching ws j with
      | none => dst[j]?
      | some w => w[j]? := by
  induction ws using List.reverseRecOn with
  | nil => rfl
  | append_singleton ws w ih =>
    have hrec : lastReaching (ws ++ [w]) j =
        if j < w.length then some w else lastReaching ws j := by
      unfold lastReaching
      rw [List.filter_append]
      by_cases hw : j < w.length
      · rw [if_pos hw, List.filter_cons_of_pos (by simpa using hw), List.filter_nil,
          List.getLast?_concat]
      · rw [if_neg hw, List.filter_cons_of_neg (by simpa using hw), List.filter_nil,
          List.append_nil]
    rw [List.foldl_append, List.foldl_cons, List.foldl_nil, getElem?_poke, length_pokes, hrec]
    by_cases hw : j < w.length
    · rw [if_pos ⟨hw, hj⟩, if_pos hw]
    · rw [if_neg (fun h => hw h.1), if_neg hw, ih]

/-! ## 2. Buffers that end in NUL -/

/-- The last byte of the buffer is NUL: every C-string read of it stops inside. -/
def Terminated (b : Bytes) : Prop := b.getLast? = some 0

instance (b : Bytes) : Decidable (Terminated b) := inferInstanceAs (Decidable (_ = _))

theorem Terminated.zero_mem {b : Bytes} (h : Terminated b) : (0 : UInt8) ∈ b :=
  List.mem_of_getLast? h

theorem terminated_calloc {n : Nat} (h : 0 < n) : Terminated (calloc n) := by
  unfold Terminated calloc
  rw [List.getLast?_replicate, if_neg (Nat.ne_of_gt h)]

/-- A store that ends before the last byte keeps it. -/
theorem terminated_poke_short {dst w : Bytes} (h : Terminated dst) (hw : w.length < dst.length) :
    Terminated (poke dst w) := by
  have hd : dst.drop w.length ≠ [] := by
    intro he
    have := congrArg List.length he
    simp only [List.length_drop, List.length_nil] at this
    omega
  unfold Terminated poke
  rw [List.getLast?_append_of_ne_nil _ hd, List.getLast?_drop, if_neg (by omega)]
  exact h

/-- A store that fills the buffer with bytes ending in NUL. -/
theorem terminated_poke_full {dst w : Bytes} (h : Terminated w) (hw : w.length = dst.length) :
    Terminated (poke dst w) := by
  unfold poke
  rw [← hw, List.take_length, hw, List.drop_length, List.append_nil]
  exact h

/-- `strncpy` pads with NULs once the string is shorter than the count. -/
theorem terminated_strncpyBytes {src : Bytes} {n : Nat} (h : (cstr src).length < n) :
    Terminated (strncpyBytes src n) := by
  have hne : List.replicate (n - (cstr src).length) (0 : UInt8) ≠ [] := by
    simp only [ne_eq, List.replicate_eq_nil_iff]
    omega
  unfold Terminated strncpyBytes
  rw [List.getLast?_append_of_ne_nil _ hne, List.getLast?_replicate, if_neg (by omega)]

/-- **A copy that fits keeps the buffer terminated**: it is shorter than the
    buffer, or it fills the buffer and the string is shorter than the copy. -/
theorem terminated_strncpy {dst src : Bytes} {n : Nat} (h : Terminated dst)
    (hn : n < dst.length ∨ (n = dst.length ∧ (cstr src).length < n)) :
    Terminated (strncpy dst src n) := by
  rcases hn with hn | ⟨hn, hc⟩
  · exact terminated_poke_short h (by simpa using hn)
  · exact terminated_poke_full (terminated_strncpyBytes hc) (by simpa using hn)

/-! ## 3. Numbers -/

/-- The decimal digits at the start of a string, as a number on top of `acc`. -/
def digits (acc : Nat) : Bytes → Nat
  | [] => acc
  | c :: cs => if 48 ≤ c.toNat ∧ c.toNat ≤ 57 then digits (acc * 10 + (c.toNat - 48)) cs else acc

/-- `isspace` in the C locale. -/
def isspace (c : UInt8) : Bool := c == 32 || (9 ≤ c.toNat && c.toNat ≤ 13)

/-- The least and the greatest `long`, which has 64 bits. -/
def LONG_MIN : Int := -9223372036854775808
def LONG_MAX : Int := 9223372036854775807

/-- `strtol(b, NULL, 10)`: white space, a sign, digits. A number that is no `long` gives
    the `long` nearest to it. -/
def strtol (b : Bytes) : Int :=
  let n : Int := match (cstr b).dropWhile isspace with
    | 45 :: ds => -(digits 0 ds : Int)
    | 43 :: ds => digits 0 ds
    | ds => digits 0 ds
  max LONG_MIN (min LONG_MAX n)

/-- `atoi`: what `strtol` gives, as an `int`. -/
def atoi (b : Bytes) : BitVec 32 := BitVec.ofInt 32 (strtol b)

/-- A `long` is read as it is. -/
theorem clamp_long {n : Int} (h : LONG_MIN ≤ n ∧ n ≤ LONG_MAX) :
    max LONG_MIN (min LONG_MAX n) = n := by
  rw [min_eq_right h.2, max_eq_right h.1]

/-- `atoi` reads a C string. -/
theorem atoi_congr {b b' : Bytes} (h : cstr b = cstr b') : atoi b = atoi b' := by
  unfold atoi strtol
  rw [h]

/-- `*(int32_t*)p`, least byte first. -/
def loadInt32 (b : Bytes) : BitVec 32 :=
  BitVec.ofNat 32 ((b.getD 0 0).toNat + 256 * (b.getD 1 0).toNat + 65536 * (b.getD 2 0).toNat +
    16777216 * (b.getD 3 0).toNat)

/-- The four bytes of an int32, least byte first. -/
def int32Bytes (x : BitVec 32) : Bytes :=
  [UInt8.ofNat (x.toNat % 256), UInt8.ofNat (x.toNat / 256 % 256),
    UInt8.ofNat (x.toNat / 65536 % 256), UInt8.ofNat (x.toNat / 16777216 % 256)]

/-- `*(int32_t*)p = x`. -/
def storeInt32 (b : Bytes) (x : BitVec 32) : Bytes := poke b (int32Bytes x)

@[simp] theorem length_storeInt32 (b : Bytes) (x : BitVec 32) :
    (storeInt32 b x).length = b.length := length_poke _ _

/-- **The int32 stored is the int32 loaded**, where the buffer has four bytes. -/
theorem load_storeInt32 {b : Bytes} (h : 4 ≤ b.length) (x : BitVec 32) :
    loadInt32 (storeInt32 b x) = x := by
  obtain ⟨b0, b1, b2, b3, r, rfl⟩ : ∃ b0 b1 b2 b3 r, b = b0 :: b1 :: b2 :: b3 :: r := by
    match b, h with
    | b0 :: b1 :: b2 :: b3 :: r, _ => exact ⟨b0, b1, b2, b3, r, rfl⟩
  have hx := x.isLt
  apply BitVec.eq_of_toNat_eq
  simp [loadInt32, storeInt32, poke, int32Bytes]
  omega

/-! ## 4. Accesses -/

/-- What a function does to a buffer. -/
inductive Access where
  | write (n cap : Nat) : Access
  | int32 (cap : Nat) : Access
  | cstring (b : Bytes) : Access
  deriving DecidableEq, Repr

/-- A store of `n` bytes stays in the buffer; an int32 has its four bytes; a
    C-string read meets a NUL. -/
def Access.inBounds : Access → Prop
  | .write n cap => n ≤ cap
  | .int32 cap => 4 ≤ cap
  | .cstring b => (0 : UInt8) ∈ b

instance : DecidablePred Access.inBounds := fun a => by
  cases a <;> simp only [Access.inBounds] <;> infer_instance

end IotWrap.Lib
