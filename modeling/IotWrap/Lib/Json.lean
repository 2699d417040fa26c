/-
  File:      IotWrap/Lib/Json.lean
  Subject:   The grammar of JSON texts, over bytes.

  White space stands where RFC 8259 allows it. Whether the bytes of a string are
  well-formed UTF-8 is not asked: every byte from 0x20 on is a character.

  * `Text`: the texts of each nonterminal;
  * `Text.no_nul`: no text has a NUL;
  * `text_members`: members around a member are members.
-/
import IotWrap.Lib.CMem

namespace IotWrap.Lib.Json

/-- White space. -/
def Ws (w : Bytes) : Prop := ∀ c ∈ w, c = 32 ∨ c = 9 ∨ c = 10 ∨ c = 13

def IsDigit (c : UInt8) : Prop := 48 ≤ c ∧ c ≤ 57

def IsHex (c : UInt8) : Prop := IsDigit c ∨ (65 ≤ c ∧ c ≤ 70) ∨ (97 ≤ c ∧ c ≤ 102)

def Digits (b : Bytes) : Prop := b ≠ [] ∧ ∀ c ∈ b, IsDigit c

/-- A character that a string holds unescaped. -/
def IsPlain (c : UInt8) : Prop := 32 ≤ c ∧ c ≠ 34 ∧ c ≠ 92

instance : DecidablePred IsPlain := fun _ => inferInstanceAs (Decidable (_ ∧ _ ∧ _))

theorem isPlain_of_all {s : Bytes} (h : (s.all fun c => decide (IsPlain c)) = true) :
    ∀ c ∈ s, IsPlain c := fun c hc => of_decide_eq_true (List.all_eq_true.mp h c hc)

/-- What stands between the quotes of a string. -/
inductive Chars : Bytes → Prop where
  | nil : Chars []
  | plain {c : UInt8} {s : Bytes} : IsPlain c → Chars s → Chars (c :: s)
  | escape {c : UInt8} {s : Bytes} : c ∈ lit "\"\\/bfnrt" → Chars s → Chars (92 :: c :: s)
  | unicode {h s : Bytes} : h.length = 4 → (∀ c ∈ h, IsHex c) → Chars s →
      Chars (92 :: 117 :: (h ++ s))

/-- A string. -/
inductive Str : Bytes → Prop where
  | quoted {s : Bytes} : Chars s → Str (34 :: (s ++ [34]))

/-- `0`, or digits that do not start with it. -/
inductive Whole : Bytes → Prop where
  | zero : Whole [48]
  | digits {c : UInt8} {b : Bytes} : IsDigit c → c ≠ 48 → (∀ x ∈ b, IsDigit x) → Whole (c :: b)

inductive Fraction : Bytes → Prop where
  | none : Fraction []
  | point {b : Bytes} : Digits b → Fraction (46 :: b)

inductive Exponent : Bytes → Prop where
  | none : Exponent []
  | plain {e : UInt8} {b : Bytes} : e = 101 ∨ e = 69 → Digits b → Exponent (e :: b)
  | signed {e s : UInt8} {b : Bytes} : e = 101 ∨ e = 69 → s = 43 ∨ s = 45 → Digits b →
      Exponent (e :: s :: b)

inductive Number : Bytes → Prop where
  | nonneg {i f e : Bytes} : Whole i → Fraction f → Exponent e → Number (i ++ f ++ e)
  | neg {i f e : Bytes} : Whole i → Fraction f → Exponent e → Number (45 :: (i ++ f ++ e))

inductive Nonterminal where
  | value | elements | element | members | member
  deriving DecidableEq, Repr

/-- **The texts of a nonterminal.** An element is a value with the white space
    around it. -/
inductive Text : Nonterminal → Bytes → Prop where
  | null : Text .value (lit "null")
  | false : Text .value (lit "false")
  | true : Text .value (lit "true")
  | number {b : Bytes} : Number b → Text .value b
  | string {b : Bytes} : Str b → Text .value b
  | emptyArray {w : Bytes} : Ws w → Text .value (91 :: (w ++ [93]))
  | array {b : Bytes} : Text .elements b → Text .value (91 :: (b ++ [93]))
  | emptyObject {w : Bytes} : Ws w → Text .value (123 :: (w ++ [125]))
  | object {b : Bytes} : Text .members b → Text .value (123 :: (b ++ [125]))
  | lastElement {b : Bytes} : Text .element b → Text .elements b
  | elements {b bs : Bytes} : Text .element b → Text .elements bs → Text .elements (b ++ 44 :: bs)
  | element {w b w' : Bytes} : Ws w → Text .value b → Ws w' → Text .element (w ++ b ++ w')
  | lastMember {b : Bytes} : Text .member b → Text .members b
  | members {b bs : Bytes} : Text .member b → Text .members bs → Text .members (b ++ 44 :: bs)
  | member {w k w' b : Bytes} : Ws w → Str k → Ws w' → Text .element b →
      Text .member (w ++ k ++ w' ++ 58 :: b)

/-! ## 1. No NUL -/

theorem Ws.no_nul {w : Bytes} (h : Ws w) : (0 : UInt8) ∉ w := by
  intro h0
  have := h 0 h0
  revert this
  decide

/-- White space has nothing above the blank. -/
theorem Ws.not_mem {w : Bytes} (h : Ws w) {c : UInt8} (hc : 32 < c) : c ∉ w := by
  intro hm
  rcases h c hm with rfl | rfl | rfl | rfl <;> exact absurd hc (by decide)

theorem digits_no_nul {b : Bytes} (h : ∀ c ∈ b, IsDigit c) : (0 : UInt8) ∉ b := by
  intro h0
  exact absurd (h 0 h0).1 (by decide)

theorem Chars.no_nul {s : Bytes} (h : Chars s) : (0 : UInt8) ∉ s := by
  induction h with
  | nil => exact List.not_mem_nil
  | plain hc _ ih =>
    rintro (_ | ⟨_, h0⟩)
    · exact absurd hc.1 (by decide)
    · exact ih h0
  | escape hc _ ih =>
    simp only [List.mem_cons, not_or]
    refine ⟨by decide, ?_, ih⟩
    rintro rfl
    exact absurd hc (by decide)
  | unicode _ hh _ ih =>
    simp only [List.mem_cons, List.mem_append, not_or]
    refine ⟨by decide, by decide, fun h0 => ?_, ih⟩
    exact absurd (hh 0 h0) (by unfold IsHex IsDigit; decide)

theorem Str.no_nul {s : Bytes} (h : Str s) : (0 : UInt8) ∉ s := by
  obtain ⟨h⟩ := h
  simp [h.no_nul]

theorem Whole.no_nul {b : Bytes} (h : Whole b) : (0 : UInt8) ∉ b := by
  cases h with
  | zero => decide
  | digits hc _ hb =>
    refine digits_no_nul fun x hx => ?_
    rcases List.mem_cons.mp hx with rfl | hx
    · exact hc
    · exact hb x hx

theorem Fraction.no_nul {b : Bytes} (h : Fraction b) : (0 : UInt8) ∉ b := by
  cases h with
  | none => exact List.not_mem_nil
  | point hb => simp [digits_no_nul hb.2]

theorem Exponent.no_nul {b : Bytes} (h : Exponent b) : (0 : UInt8) ∉ b := by
  cases h with
  | none => exact List.not_mem_nil
  | plain he hb => rcases he with rfl | rfl <;> simp [digits_no_nul hb.2]
  | signed he hs hb =>
    rcases he with rfl | rfl <;> rcases hs with rfl | rfl <;> simp [digits_no_nul hb.2]

theorem Number.no_nul {b : Bytes} (h : Number b) : (0 : UInt8) ∉ b := by
  cases h with
  | nonneg hi hf he => simp [hi.no_nul, hf.no_nul, he.no_nul]
  | neg hi hf he => simp [hi.no_nul, hf.no_nul, he.no_nul]

/-- **No text has a NUL.** -/
theorem Text.no_nul {n : Nonterminal} {b : Bytes} (h : Text n b) : (0 : UInt8) ∉ b := by
  induction h with
  | null => decide
  | false => decide
  | true => decide
  | number h => exact h.no_nul
  | string h => exact h.no_nul
  | emptyArray h => simp [h.no_nul]
  | array _ ih => simp [ih]
  | emptyObject h => simp [h.no_nul]
  | object _ ih => simp [ih]
  | lastElement _ ih => exact ih
  | elements _ _ ih ih' => simp [ih, ih']
  | element h _ h' ih => simp [h.no_nul, h'.no_nul, ih]
  | lastMember _ ih => exact ih
  | members _ _ ih ih' => simp [ih, ih']
  | member h hk h' _ ih => simp [h.no_nul, hk.no_nul, h'.no_nul, ih]

/-! ## 2. Members around a member -/

/-- **Members before and after a member**, with the commas between them. -/
theorem text_members {before after : List Bytes} {m : Bytes}
    (hb : ∀ b ∈ before, Text .member b) (hm : Text .member m)
    (ha : ∀ b ∈ after, Text .member b) :
    Text .members (before.flatMap (· ++ [44]) ++ m ++ after.flatMap (44 :: ·)) := by
  induction before with
  | cons b before ih =>
    have h := Text.members (hb b List.mem_cons_self)
      (ih fun x hx => hb x (List.mem_cons_of_mem _ hx))
    simpa [List.flatMap_cons] using h
  | nil =>
    rw [List.flatMap_nil, List.nil_append]
    clear hb
    induction after generalizing m with
    | nil =>
      rw [List.flatMap_nil, List.append_nil]
      exact .lastMember hm
    | cons a after ih =>
      have h := Text.members hm (ih (ha a List.mem_cons_self)
        fun x hx => ha x (List.mem_cons_of_mem _ hx))
      simpa [List.flatMap_cons] using h

end IotWrap.Lib.Json
