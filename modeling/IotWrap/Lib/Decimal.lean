/-
  File:      IotWrap/Lib/Decimal.lean
  Subject:   Numbers printed by `%d` and read back by `atoi`.

  * `natDigits_eq`: the last digit and the digits before it;
  * `strtol_natDigits`, `strtol_minus`: what was printed is what is read, where it is a
    `long`, with anything behind it that does not start with a digit;
  * `length_natDigits_le`: how long a number below a power of ten is.
-/
import IotWrap.Lib.CMem

namespace IotWrap.Lib

/-- The decimal digits of a number, as bytes. -/
def natDigits (n : Nat) : Bytes := (Nat.toDigits 10 n).map fun c => c.toNat.toUInt8

/-- `isdigit` in the C locale. -/
def isdigit (c : UInt8) : Bool := 48 ≤ c.toNat && c.toNat ≤ 57

theorem digitChar_byte : ∀ d < 10, d.digitChar.toNat.toUInt8 = UInt8.ofNat (48 + d) := by
  decide

/-- **The digits of a number**: those of its tenth, then the last. -/
theorem natDigits_eq (n : Nat) :
    natDigits n = (if n < 10 then [] else natDigits (n / 10)) ++ [UInt8.ofNat (48 + n % 10)] := by
  unfold natDigits
  rw [Nat.toDigits_eq_if (by decide)]
  split
  · rename_i h
    rw [List.map_singleton, digitChar_byte n h, Nat.mod_eq_of_lt h]
    rfl
  · rw [List.map_append, List.map_singleton, digitChar_byte _ (Nat.mod_lt n (by decide))]

theorem natDigits_ne_nil (n : Nat) : natDigits n ≠ [] := by
  simp [natDigits]

theorem toNat_digit {d : Nat} (hd : d < 10) : (UInt8.ofNat (48 + d)).toNat = 48 + d :=
  UInt8.toNat_ofNat_of_lt' (Nat.lt_trans (Nat.add_lt_add_left hd 48) (by decide))

/-- Every byte of a printed number is a digit. -/
theorem isdigit_natDigits {n : Nat} {c : UInt8} (h : c ∈ natDigits n) : isdigit c = true := by
  induction n using Nat.strongRecOn with
  | ind n ih =>
    rw [natDigits_eq] at h
    rcases List.mem_append.mp h with h | h
    · split at h
      · cases h
      · exact ih (n / 10) (by omega) h
    · have hd := Nat.mod_lt n (by decide : 0 < 10)
      rw [List.mem_singleton.mp h, isdigit, toNat_digit hd]
      simp only [Bool.and_eq_true, decide_eq_true_eq]
      omega

theorem zero_notMem_natDigits (n : Nat) : (0 : UInt8) ∉ natDigits n := by
  intro h
  have := isdigit_natDigits h
  revert this
  decide

theorem length_natDigits_le {n k : Nat} (hk : 0 < k) (h : n < 10 ^ k) :
    (natDigits n).length ≤ k := by
  rw [natDigits, List.length_map]
  exact (Nat.length_toDigits_le_iff (by decide) hk).mpr h

/-! ## Reading -/

theorem digits_append {ds : Bytes} (h : ∀ c ∈ ds, isdigit c = true) (acc : Nat) (r : Bytes) :
    digits acc (ds ++ r) = digits (digits acc ds) r := by
  induction ds generalizing acc with
  | nil => rfl
  | cons c ds ih =>
    have hc := h c List.mem_cons_self
    simp only [isdigit, Bool.and_eq_true, decide_eq_true_eq] at hc
    simp only [List.cons_append, digits, if_pos hc]
    exact ih (fun x hx => h x (List.mem_cons_of_mem c hx)) _

theorem digits_stop (acc : Nat) {r : Bytes} (h : ∀ c ∈ r.head?, isdigit c = false) :
    digits acc r = acc := by
  cases r with
  | nil => rfl
  | cons c r =>
    have hc := h c rfl
    simp only [isdigit, Bool.and_eq_false_iff, decide_eq_false_iff_not] at hc
    simp only [digits]
    rw [if_neg (by omega)]

theorem digits_natDigits (n : Nat) : digits 0 (natDigits n) = n := by
  induction n using Nat.strongRecOn with
  | ind n ih =>
    have hd := Nat.mod_lt n (by decide : 0 < 10)
    have hlast : ∀ acc, digits acc [UInt8.ofNat (48 + n % 10)] = acc * 10 + n % 10 := by
      intro acc
      simp only [digits, toNat_digit hd]
      rw [if_pos (by omega)]
      omega
    rw [natDigits_eq]
    split
    · rename_i h
      rw [List.nil_append, hlast, Nat.mod_eq_of_lt h]
      omega
    · rw [digits_append fun c hc => isdigit_natDigits hc, ih (n / 10) (by omega), hlast]
      omega

/-- A number is read back, whatever else than a digit stands behind it. -/
theorem digits_natDigits_append (n : Nat) {r : Bytes} (h : ∀ c ∈ r.head?, isdigit c = false) :
    digits 0 (natDigits n ++ r) = n := by
  rw [digits_append fun c hc => isdigit_natDigits hc, digits_natDigits, digits_stop n h]

/-- The first byte of a printed number. -/
theorem natDigits_head (n : Nat) : ∃ c ds, natDigits n = c :: ds ∧ isdigit c = true := by
  cases hn : natDigits n with
  | nil => exact absurd hn (natDigits_ne_nil n)
  | cons c ds => exact ⟨c, ds, rfl, isdigit_natDigits (by rw [hn]; exact List.mem_cons_self)⟩

/-- **`strtol` of a printed number.** -/
theorem strtol_natDigits (n : Nat) {r : Bytes} (h : ∀ c ∈ r.head?, isdigit c = false) :
    strtol (natDigits n ++ r) = max LONG_MIN (min LONG_MAX n) := by
  have hr : ∀ c ∈ (cstr r).head?, isdigit c = false := fun c hc => h c (head_cstr hc)
  have hd := digits_natDigits_append n hr
  obtain ⟨c, ds, hn, hc⟩ := natDigits_head n
  have hdigit : 48 ≤ c.toNat ∧ c.toNat ≤ 57 := by simpa [isdigit] using hc
  have hspace : isspace c = false := by
    simp only [isspace, Bool.or_eq_false_iff, beq_eq_false_iff_ne, Bool.and_eq_false_iff,
      decide_eq_false_iff_not]
    refine ⟨fun e => ?_, .inr (by omega)⟩
    rw [e] at hdigit
    exact absurd hdigit.1 (by decide)
  unfold strtol
  rw [cstr_append (zero_notMem_natDigits n)]
  rw [hn] at hd ⊢
  rw [List.cons_append, List.dropWhile_cons_of_neg (by simp [hspace])]
  split
  · rename_i ds' e
    obtain ⟨rfl, -⟩ := List.cons.inj e
    exact absurd hdigit.1 (by decide)
  · rename_i ds' e
    obtain ⟨rfl, -⟩ := List.cons.inj e
    exact absurd hdigit.1 (by decide)
  · rw [← List.cons_append, hd]

/-- **`strtol` of a printed number with a minus.** -/
theorem strtol_minus (n : Nat) {r : Bytes} (h : ∀ c ∈ r.head?, isdigit c = false) :
    strtol (45 :: natDigits n ++ r) = max LONG_MIN (min LONG_MAX (-n)) := by
  have hr : ∀ c ∈ (cstr r).head?, isdigit c = false := fun c hc => h c (head_cstr hc)
  have hz : (0 : UInt8) ∉ (45 :: natDigits n : Bytes) := by
    rw [List.mem_cons, not_or]
    exact ⟨by decide, zero_notMem_natDigits n⟩
  unfold strtol
  rw [cstr_append hz, List.cons_append, List.dropWhile_cons_of_neg (by decide)]
  simp only
  rw [digits_natDigits_append n hr]

end IotWrap.Lib
