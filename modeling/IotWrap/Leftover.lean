/-
  File:      IotWrap/Leftover.lean
  Subject:   Commands and the bytes behind their message
             (`_DS_call_default_command_cb`, jni/server/IOT_DeviceShadow.cpp).

  The callback does not look at `data_len`: it searches, and hands on, what stands
  at `data` up to a NUL. Behind a message without one stands what earlier messages
  left in the buffer.

  * `dispatch_cstr`: what is dispatched depends on the C string alone;
  * `Hopeless.refused`: a message that is refused whatever follows it;
  * `extension_accepted`: any other message without a NUL can be continued to a
    command;
  * `ownMessage_iff`: a command depends on its own message alone if and only if the
    message has a NUL, or is refused in any case;
  * `leftover_comma`: the comma of an earlier message makes a command of a later one.
-/
import IotWrap.Command

namespace IotWrap

open Lib

namespace DeviceShadow

/-! ## 1. One buffer for all messages -/

/-- The buffer after the messages: each is read to its start. -/
def received (buf : Bytes) (messages : List Bytes) : Bytes := messages.foldl poke buf

/-- **The searches give up in the message itself**: behind the colon a comma comes
    before any quote, or behind the opening quote stand `COMMAND_MAX_LEN` bytes
    and none of them is a quote. -/
def Hopeless (m : Bytes) : Prop :=
  ∃ ptr k, strstr m 0 COMMAND_TOKEN = some ptr ∧ strchr m ptr 58 = some k ∧
    ((∃ c, strchr m k 44 = some c ∧ ∀ q, strchr m k 34 = some q → c < q) ∨
      ∃ q, strchr m k 34 = some q ∧ q + COMMAND_MAX_LEN < m.length ∧
        ∀ q', strchr m (q + 1) 34 = some q' → q + COMMAND_MAX_LEN < q')

/-- **The condition**: the message ends inside its own bytes, or is refused there. -/
def SelfContained (m : Bytes) : Prop := (0 : UInt8) ∈ m ∨ Hopeless m

/-! ## 2. Messages that depend on nothing else -/

theorem nameQuotes_cstr (b : Bytes) : nameQuotes (cstr b) = nameQuotes b := by
  refine Option.ext fun p => ?_
  obtain ⟨q, q'⟩ := p
  rw [nameQuotes_iff, nameQuotes_iff]
  refine exists_congr fun ptr => exists_congr fun k => exists_congr fun c => ?_
  rw [strstr_cstr]
  -- every pointer the searches start at is in the C string
  refine and_congr_right fun hptr => ?_
  have h1 := strstr_le_cstr hptr
  rw [strchr_cstr h1]
  refine and_congr_right fun hk => ?_
  have h2 := Nat.le_of_lt (strchr_lt_cstr h1 hk)
  rw [strchr_cstr h2, strchr_cstr h2]
  refine and_congr_right fun _ => and_congr_right fun hq => and_congr_right fun _ => ?_
  rw [strchr_cstr (strchr_lt_cstr h2 hq)]

/-- The searches end in the C string. -/
theorem nameQuotes_lt {b : Bytes} {p : Nat × Nat} (h : nameQuotes b = some p) :
    p.1 < (cstr b).length := by
  obtain ⟨ptr, k, c, hptr, hk, -, hq, -⟩ := nameQuotes_iff.mp h
  have h1 := strstr_le_cstr hptr
  exact strchr_lt_cstr (Nat.le_of_lt (strchr_lt_cstr h1 hk)) hq

/-- **What is dispatched depends on the C string** and on nothing behind it. -/
theorem dispatch_cstr (b : Bytes) : dispatch (cstr b) = dispatch b := by
  unfold dispatch
  rw [nameQuotes_cstr]
  cases hp : nameQuotes b with
  | none => rfl
  | some p =>
    have hlt := nameQuotes_lt hp
    have hsrc : cstr ((cstr b).drop (p.1 + 1)) = cstr (b.drop (p.1 + 1)) := by
      rw [← cstr_drop hlt, cstr_cstr]
    simp only [Option.map_some, cmdBuffer, strncpy, strncpyBytes, hsrc, cstr_cstr]

/-- **A hopeless message is refused**, whatever follows it. -/
theorem Hopeless.refused {m b : Bytes} (h : Hopeless m) (hb : m <+: b) : nameQuotes b = none := by
  obtain ⟨ptr, k, hptr, hk, h⟩ := h
  rw [Option.eq_none_iff_forall_ne_some]
  rintro ⟨q, q'⟩ hn
  obtain ⟨c', hc', hq', hle, hclose, hlen⟩ :=
    (nameQuotes_of_colon (strstr_of_some hb hptr) (strchr_of_some hb (by decide) hk)).mp hn
  rcases h with ⟨c, hc, hno⟩ | ⟨q₁, hq, hlt, hno⟩
  · -- the comma is the message's own, so the quote before it would be as well
    have hcb := strchr_of_some hb (by decide) hc
    rw [hcb, Option.some.injEq] at hc'
    subst hc'
    have hclt := Nat.lt_of_lt_of_le (strchr_lt_cstr
      (Nat.le_of_lt (strchr_lt_cstr (strstr_le_cstr hptr) hk)) hc) (length_cstr_le m)
    have := hno q (strchr_of_lt hb (by decide) hq' (Nat.lt_of_le_of_lt hle hclt))
    omega
  · have hqb := strchr_of_some hb (by decide) hq
    rw [hqb, Option.some.injEq] at hq'
    subst hq'
    have := hno q' (strchr_of_lt hb (by decide) hclose (by omega))
    omega

theorem SelfContained.same {m b b' : Bytes} (h : SelfContained m) (hb : m <+: b)
    (hb' : m <+: b') : dispatch b = dispatch b' := by
  rcases h with h0 | h
  · rw [← dispatch_cstr b, ← dispatch_cstr b', cstr_of_starts hb h0, cstr_of_starts hb' h0]
  · unfold dispatch
    rw [h.refused hb, h.refused hb']
    rfl

/-! ## 3. Messages that can be continued -/

/-- What the searches found stays found. -/
theorem nameQuotes_of_some {w b : Bytes} (hw : w <+: b) {p : Nat × Nat}
    (h : nameQuotes w = some p) : nameQuotes b = some p := by
  obtain ⟨ptr, k, c, hptr, hk, hc, hq, hle, hq', hlen⟩ := nameQuotes_iff.mp h
  exact nameQuotes_iff.mpr ⟨ptr, k, c, strstr_of_some hw hptr, strchr_of_some hw (by decide) hk,
    strchr_of_some hw (by decide) hc, strchr_of_some hw (by decide) hq, hle,
    strchr_of_some hw (by decide) hq', hlen⟩

/-- The searches from a colon behind the message. -/
theorem nameQuotes_behind {m r : Bytes} {ptr j c q e : Nat}
    (hptr : strstr (m ++ r) 0 COMMAND_TOKEN = some ptr)
    (hk : strchr (m ++ r) ptr 58 = some (m.length + j)) (hc : strchr r j 44 = some c)
    (hq : strchr r j 34 = some q) (hle : q ≤ c) (he : strchr r (q + 1) 34 = some e)
    (hlen : e ≤ q + COMMAND_MAX_LEN) : nameQuotes (m ++ r) = some (m.length + q, m.length + e) := by
  refine (nameQuotes_of_colon hptr hk).mpr ⟨m.length + c, ?_, ?_, by omega, ?_, by omega⟩
  · rw [strchr_shift, hc]
    rfl
  · rw [strchr_shift, hq]
    rfl
  · rw [Nat.add_assoc, strchr_shift, he]
    rfl

/-- The comma is the message's own, or the next thing behind it. -/
theorem comma_behind {m r : Bytes} (h0 : (0 : UInt8) ∉ m) {k c : Nat} (hk : k ≤ m.length)
    (hc : strchr r 0 44 = some c) :
    ∃ c', strchr (m ++ r) k 44 = some c' ∧ (strchr m k 44 = some c' ∨ m.length ≤ c') := by
  cases hm : strchr m k 44 with
  | some c' => exact ⟨c', strchr_of_some (List.prefix_append _ _) (by decide) hm, .inl rfl⟩
  | none =>
    refine ⟨m.length + c, ?_, .inr (Nat.le_add_right _ _)⟩
    rw [strchr_of_none h0 hk hm, hc]
    rfl

/-- Without the key, or without a colon behind it, the rest of the member goes on. -/
theorem continue_key {m : Bytes} (h0 : (0 : UInt8) ∉ m)
    (h : strstr m 0 COMMAND_TOKEN = none) :
    ∃ p, nameQuotes (m ++ lit "\"command\":\"x\",") = some p := by
  obtain ⟨ptr, hp, hle, hpre⟩ :=
    strstr_of_none h0 h (r := lit "\"command\":\"x\",") (by decide)
  -- what `m` has of the key has no colon
  have hcolon : strchr m ptr 58 = none := strchr_none fun hm =>
    absurd (hpre.subset hm) (by decide)
  have hk := strchr_of_none h0 hle hcolon (lit "\"command\":\"x\",")
  exact ⟨_, nameQuotes_behind (j := 9) (c := 13) (q := 10) (e := 12) hp hk
    (by decide) (by decide) (by decide) (by decide) (by decide)⟩

theorem continue_colon {m : Bytes} (h0 : (0 : UInt8) ∉ m) {ptr : Nat}
    (hptr : strstr m 0 COMMAND_TOKEN = some ptr) (h : strchr m ptr 58 = none) :
    ∃ p, nameQuotes (m ++ lit ":\"x\",") = some p := by
  have hp := strstr_of_some (List.prefix_append m (lit ":\"x\",")) hptr
  have hle : ptr ≤ m.length := Nat.le_trans (strstr_le_cstr hptr) (length_cstr_le m)
  have hk := strchr_of_none h0 hle h (lit ":\"x\",")
  exact ⟨_, nameQuotes_behind (j := 0) (c := 4) (q := 1) (e := 3) hp hk
    (by decide) (by decide) (by decide) (by decide) (by decide)⟩

section

variable {m : Bytes} (h0 : (0 : UInt8) ∉ m) {ptr k : Nat}
  (hptr : strstr m 0 COMMAND_TOKEN = some ptr) (hcolon : strchr m ptr 58 = some k)
  (hcomma : ∀ c, strchr m k 44 = some c → ∃ q, strchr m k 34 = some q ∧ q ≤ c)
include hptr hcolon

theorem colon_lt : k < (cstr m).length := strchr_lt_cstr (strstr_le_cstr hptr) hcolon

theorem colon_le : k ≤ m.length :=
  Nat.le_trans (Nat.le_of_lt (colon_lt hptr hcolon)) (length_cstr_le m)

theorem colon_stays (r : Bytes) :
    strstr (m ++ r) 0 COMMAND_TOKEN = some ptr ∧ strchr (m ++ r) ptr 58 = some k :=
  ⟨strstr_of_some (List.prefix_append m r) hptr,
    strchr_of_some (List.prefix_append m r) (by decide) hcolon⟩

include h0 hcomma

/-- Without a quote: the whole name goes on. -/
theorem continue_open (h : strchr m k 34 = none) :
    ∃ p, nameQuotes (m ++ lit "\"x\",") = some p := by
  have hnone : strchr m k 44 = none := by
    by_contra hne
    obtain ⟨c, hc⟩ := Option.ne_none_iff_exists'.mp hne
    obtain ⟨q, hq, -⟩ := hcomma c hc
    rw [h] at hq
    cases hq
  obtain ⟨hp, hk⟩ := colon_stays hptr hcolon (lit "\"x\",")
  have hle := colon_le hptr hcolon
  have hq := strchr_of_none h0 hle h (lit "\"x\",")
  have hc := strchr_of_none h0 hle hnone (lit "\"x\",")
  refine ⟨(m.length + 0, m.length + 2), (nameQuotes_of_colon hp hk).mpr
    ⟨_, hc, hq, by simp, ?_, Nat.add_le_add (Nat.le_refl _) (by decide)⟩⟩
  rw [Nat.add_assoc, strchr_shift]
  rfl

/-- With the opening quote: what is found behind it goes on, if a comma follows. -/
theorem continue_name {q e : Nat} (hopen : strchr m k 34 = some q) (r : Bytes) {c : Nat}
    (hc : strchr r 0 44 = some c) (he : strchr (m ++ r) (q + 1) 34 = some e)
    (hlen : e ≤ q + COMMAND_MAX_LEN) : ∃ p, nameQuotes (m ++ r) = some p := by
  obtain ⟨hp, hk⟩ := colon_stays hptr hcolon r
  obtain ⟨c', hc', hor⟩ := comma_behind h0 (colon_le hptr hcolon) hc
  have hle : q ≤ c' := by
    rcases hor with hm | hm
    · obtain ⟨q₁, hq₁, hle⟩ := hcomma c' hm
      rw [hopen, Option.some.injEq] at hq₁
      exact hq₁ ▸ hle
    · have := strchr_lt_cstr (Nat.le_of_lt (colon_lt hptr hcolon)) hopen
      have := length_cstr_le m
      omega
  exact ⟨(q, e), (nameQuotes_of_colon hp hk).mpr ⟨c', hc',
    strchr_of_some (List.prefix_append m r) (by decide) hopen, hle, he, hlen⟩⟩

end

/-- **Any other message can be continued** to one that is dispatched: with the rest of
    a command, from where the searches have come to. -/
theorem extension_accepted {m : Bytes} (h0 : (0 : UInt8) ∉ m) (h : ¬ Hopeless m) :
    ∃ r p, (0 : UInt8) ∉ r ∧ nameQuotes (m ++ r) = some p := by
  cases hptr : strstr m 0 COMMAND_TOKEN with
  | none =>
    obtain ⟨p, hp⟩ := continue_key h0 hptr
    exact ⟨_, p, by decide, hp⟩
  | some ptr =>
    cases hcolon : strchr m ptr 58 with
    | none =>
      obtain ⟨p, hp⟩ := continue_colon h0 hptr hcolon
      exact ⟨_, p, by decide, hp⟩
    | some k =>
      have hcomma : ∀ c, strchr m k 44 = some c → ∃ q, strchr m k 34 = some q ∧ q ≤ c := by
        intro c hc
        by_contra hno
        refine h ⟨ptr, k, hptr, hcolon, .inl ⟨c, hc, fun q hq => Nat.lt_of_not_le fun hle => ?_⟩⟩
        exact hno ⟨q, hq, hle⟩
      cases hopen : strchr m k 34 with
      | none =>
        obtain ⟨p, hp⟩ := continue_open h0 hptr hcolon hcomma hopen
        exact ⟨_, p, by decide, hp⟩
      | some q =>
        -- otherwise the name is too long in any case
        have hlen : m.length ≤ q + COMMAND_MAX_LEN ∨
            ∃ e, strchr m (q + 1) 34 = some e ∧ e ≤ q + COMMAND_MAX_LEN := by
          by_contra hno
          rw [not_or, not_exists] at hno
          exact h ⟨ptr, k, hptr, hcolon, .inr ⟨q, hopen, Nat.lt_of_not_le hno.1,
            fun e he => Nat.lt_of_not_le fun hle => hno.2 e ⟨he, hle⟩⟩⟩
        have hqlt := strchr_lt_cstr (Nat.le_of_lt (colon_lt hptr hcolon)) hopen
        cases hclose : strchr m (q + 1) 34 with
        | some e =>
          have he : e ≤ q + COMMAND_MAX_LEN := by
            have helt := strchr_lt_cstr hqlt hclose
            rcases hlen with hlen | ⟨e₁, he₁, hle⟩
            · have := length_cstr_le m
              omega
            · rw [hclose, Option.some.injEq] at he₁
              exact he₁ ▸ hle
          obtain ⟨p, hp⟩ := continue_name h0 hptr hcolon hcomma hopen (lit ",") (c := 0)
            (by decide) (strchr_of_some (List.prefix_append _ _) (by decide) hclose) he
          exact ⟨_, p, by decide, hp⟩
        | none =>
          have hshort : m.length + 0 ≤ q + COMMAND_MAX_LEN := by
            rcases hlen with hlen | ⟨e₁, he₁, -⟩
            · exact hlen
            · rw [hclose] at he₁
              cases he₁
          have hle := Nat.lt_of_lt_of_le hqlt (length_cstr_le m)
          obtain ⟨p, hp⟩ := continue_name h0 hptr hcolon hcomma hopen (lit "\",") (c := 1)
            (by decide) (strchr_of_none h0 hle hclose _) hshort
          exact ⟨_, p, by decide, hp⟩

/-! ## 4. The condition is exact -/

/-- **Two tails, two commands**: what is dispatched differs in its data. -/
theorem tails_differ {m r : Bytes} {p : Nat × Nat} (h : nameQuotes (m ++ r) = some p)
    (h0 : (0 : UInt8) ∉ m ++ r) (s s' : Bytes) :
    dispatch (m ++ r ++ 0 :: s) ≠ dispatch (m ++ (r ++ [32]) ++ 0 :: s') := by
  intro he
  have hr : (0 : UInt8) ∉ m ++ (r ++ [32]) := by
    rw [← List.append_assoc]
    simpa using h0
  have h' : nameQuotes (m ++ (r ++ [32])) = some p :=
    nameQuotes_of_some ⟨[32], List.append_assoc _ _ _⟩ h
  rw [← dispatch_cstr, ← dispatch_cstr (m ++ (r ++ [32]) ++ 0 :: s'), cstr_append_zero,
    cstr_append_zero, cstr_eq_self h0, cstr_eq_self hr] at he
  unfold dispatch at he
  rw [h, h', Option.map_some, Option.map_some, Option.some.injEq, Prod.mk.injEq,
    cstr_eq_self h0, cstr_eq_self hr] at he
  have := congrArg List.length he.2
  simp at this

/-- The buffer after the messages starts with the last of them. -/
theorem received_starts {buf m : Bytes} (ms : List Bytes) (h : m.length ≤ buf.length) :
    m <+: received buf (ms ++ [m]) := by
  have hlen : (received buf ms).length = buf.length := length_pokes buf ms
  have hpre := take_starts_poke (received buf ms) m
  rw [hlen, List.take_of_length_le h] at hpre
  unfold received
  rw [List.foldl_append]
  exact hpre

/-- A message that starts with the next one, and what is left of it. -/
theorem received_leftover (m r : Bytes) (n : Nat) :
    received (calloc ((m ++ r).length + n)) ([m ++ r] ++ [m]) = m ++ r ++ calloc n := by
  have h1 : poke (calloc ((m ++ r).length + n)) (m ++ r) = m ++ r ++ calloc n := by
    unfold poke calloc
    rw [List.length_replicate, List.take_of_length_le (Nat.le_add_right _ _),
      List.drop_replicate, Nat.add_sub_cancel_left]
  show poke (poke _ _) _ = _
  rw [h1, poke_start_again ⟨r ++ calloc n, by rw [List.append_assoc]⟩]

/-- **A command depends on its own message alone** if and only if the message has a
    NUL of its own or is refused whatever follows: over all buffers that start
    with the message, and over all messages received before it. -/
theorem ownMessage_iff (m : Bytes) :
    ((∀ b b' : Bytes, m <+: b → m <+: b' → dispatch b = dispatch b') ↔ SelfContained m) ∧
      ((∀ (buf : Bytes) (ms ms' : List Bytes), m.length ≤ buf.length →
          dispatch (received buf (ms ++ [m])) = dispatch (received buf (ms' ++ [m]))) ↔
        SelfContained m) := by
  refine ⟨⟨fun h => ?_, fun h b b' hb hb' => h.same hb hb'⟩, fun h => ?_,
    fun h buf ms ms' hm => h.same (received_starts ms hm) (received_starts ms' hm)⟩
  · by_contra hno
    obtain ⟨h0, hop⟩ := not_or.mp hno
    obtain ⟨r, p, hr, hp⟩ := extension_accepted h0 hop
    refine tails_differ hp (by simp [h0, hr]) [] [] (h _ _ ?_ ?_)
    · exact ⟨r ++ [0], by rw [List.append_assoc]⟩
    · exact ⟨r ++ [32] ++ [0], by rw [← List.append_assoc]⟩
  · by_contra hno
    obtain ⟨h0, hop⟩ := not_or.mp hno
    obtain ⟨r, p, hr, hp⟩ := extension_accepted h0 hop
    refine tails_differ hp (by simp [h0, hr]) [0] [] ?_
    have hd := h (calloc ((m ++ r).length + 2)) [m ++ r] [m ++ (r ++ [32])] (by simp; omega)
    have hn : (m ++ r).length + 2 = (m ++ (r ++ [32])).length + 1 := by simp; omega
    rw [received_leftover, hn, received_leftover] at hd
    exact hd

/-- **The comma of an earlier message**: what is dispatched for `{"command":"x"}`
    depends on what stands behind it in the buffer. -/
theorem leftover_comma :
    ¬ ∀ m b b' : Bytes, m <+: b → m <+: b' → dispatch b = dispatch b' := by
  intro h
  have hd := h (lit "\x7b\"command\":\"x\"\x7d") (lit "\x7b\"command\":\"x\"\x7d" ++ [0])
    (lit "\x7b\"command\":\"x\"\x7d,1\x7d" ++ [0]) (by decide) (by decide)
  revert hd
  decide

end DeviceShadow

end IotWrap
