/-
  File:      IotWrap/CommandName.lean
  Subject:   The name that is handed to `callCommandCB`, for every text
             (`_DS_call_default_command_cb`, jni/server/IOT_DeviceShadow.cpp).

  Where the name stands is said of the text, without the searches: behind the first
  key and the colon after it, between two quotes, the first of them before a comma.
  The searches come to that place and to no other.

  * `nameQuotes_place`: what the searches come to where there is a place;
  * `exists_place`: they come to one wherever they do not give up;
  * `cmd_terminated`: the count of `strncpy` leaves the last byte of `cmd` alone;
  * `commandName`: what `callCommandCB` is handed, and when;
  * `ControlMessage.placed_iff`: which control messages have a place.
-/
import IotWrap.Leftover

namespace IotWrap

open Lib
open IOTService (Invocation)

namespace DeviceShadow

/-! ## 1. The place of the name -/

/-- **The place of the name** in a text. The first key is meant, the first colon
    behind it, the first quote behind that and the next one; a comma stands behind
    the colon, and none before the first of the quotes. -/
structure NamePlace (s : Bytes) where
  before : Bytes
  gap : Bytes
  lead : Bytes
  name : Bytes
  rest : Bytes
  split : s = before ++ COMMAND_TOKEN ++ (gap ++ 58 :: (lead ++ 34 :: (name ++ 34 :: rest)))
  first : ∀ u v, s = u ++ COMMAND_TOKEN ++ v → before.length ≤ u.length
  colon : (58 : UInt8) ∉ gap
  opening : (34 : UInt8) ∉ lead
  closing : (34 : UInt8) ∉ name
  comma : (44 : UInt8) ∈ name ++ 34 :: rest
  earlier : (44 : UInt8) ∉ lead

namespace NamePlace

variable {s : Bytes} (p : NamePlace s)

/-- What the searches come to, as offsets. -/
def keyAt : Nat := p.before.length

def colonAt : Nat := p.keyAt + COMMAND_TOKEN.length + p.gap.length

def quoteAt : Nat := p.colonAt + 1 + p.lead.length

theorem drop_keyAt :
    s.drop p.keyAt =
      COMMAND_TOKEN ++ (p.gap ++ 58 :: (p.lead ++ 34 :: (p.name ++ 34 :: p.rest))) := by
  have h := congrArg (List.drop p.keyAt) p.split
  rw [List.append_assoc] at h
  exact h.trans List.drop_left

theorem drop_key :
    s.drop (p.keyAt + COMMAND_TOKEN.length) =
      p.gap ++ 58 :: (p.lead ++ 34 :: (p.name ++ 34 :: p.rest)) := by
  rw [← List.drop_drop, drop_keyAt, List.drop_left]

theorem drop_colonAt : s.drop p.colonAt = 58 :: (p.lead ++ 34 :: (p.name ++ 34 :: p.rest)) := by
  rw [colonAt, ← List.drop_drop, drop_key, List.drop_left]

theorem drop_colon : s.drop (p.colonAt + 1) = p.lead ++ 34 :: (p.name ++ 34 :: p.rest) := by
  rw [← List.drop_drop, drop_colonAt]
  rfl

theorem drop_quote : s.drop (p.quoteAt + 1) = p.name ++ 34 :: p.rest := by
  have h : s.drop p.quoteAt = 34 :: (p.name ++ 34 :: p.rest) := by
    rw [quoteAt, ← List.drop_drop, drop_colon, List.drop_left]
  rw [← List.drop_drop, h]
  rfl

/-! ## 2. The searches -/

section

variable (h0 : (0 : UInt8) ∉ s)
include h0

theorem no_nul : (0 : UInt8) ∉ p.gap ∧ (0 : UInt8) ∉ p.lead ∧ (0 : UInt8) ∉ p.name := by
  rw [p.split] at h0
  simp only [List.mem_append, List.mem_cons, not_or] at h0
  tauto

theorem strstr_key : strstr s 0 COMMAND_TOKEN = some p.keyAt := by
  have hs : cstr (s.drop 0) = s := cstr_eq_self h0
  refine strstr_iff.mpr ⟨p.before, _, hs.trans p.split, (Nat.zero_add _).symm, fun u v he => ?_⟩
  exact p.first u v (hs.symm.trans he)

theorem strchr_colon : strchr s p.keyAt 58 = some p.colonAt := by
  rw [strchr_skip p.drop_keyAt (by decide) (by decide)]
  exact (strchr_iff (by decide)).mpr ⟨_, _, p.drop_key, p.colon, (p.no_nul h0).1, rfl⟩

theorem strchr_open : strchr s p.colonAt 34 = some p.quoteAt := by
  rw [strchr_step p.drop_colonAt (by decide) (by decide)]
  exact (strchr_iff (by decide)).mpr ⟨_, _, p.drop_colon, p.opening, (p.no_nul h0).2.1, rfl⟩

theorem strchr_close : strchr s (p.quoteAt + 1) 34 = some (p.quoteAt + 1 + p.name.length) :=
  (strchr_iff (by decide)).mpr ⟨_, _, p.drop_quote, p.closing, (p.no_nul h0).2.2, rfl⟩

theorem strchr_comma : ∃ c, strchr s p.colonAt 44 = some c ∧ p.quoteAt ≤ c := by
  have hmem : (44 : UInt8) ∈ cstr (s.drop p.colonAt) := by
    rw [cstr_eq_self fun hm => h0 (List.mem_of_mem_drop hm), drop_colonAt]
    exact List.mem_cons_of_mem _ (List.mem_append_right _ (List.mem_cons_of_mem _ p.comma))
  obtain ⟨c, hc⟩ := strchr_isSome.mpr hmem
  refine ⟨c, hc, ?_⟩
  rw [strchr_step p.drop_colonAt (by decide) (by decide)] at hc
  exact strchr_ge (by decide) hc ⟨_, p.drop_colon.symm⟩ p.earlier

/-- **The place is found**, and refused where the name is too long. -/
theorem nameQuotes_place :
    nameQuotes s = if p.name.length < COMMAND_MAX_LEN then
      some (p.quoteAt, p.quoteAt + 1 + p.name.length) else none := by
  obtain ⟨c, hc, hle⟩ := p.strchr_comma h0
  split
  case isTrue hlen =>
    exact (nameQuotes_of_colon (p.strstr_key h0) (p.strchr_colon h0)).mpr
      ⟨c, hc, p.strchr_open h0, hle, p.strchr_close h0, by omega⟩
  case isFalse hlen =>
    rw [Option.eq_none_iff_forall_ne_some]
    rintro ⟨q, q'⟩ h
    obtain ⟨-, -, hq, -, hq', hmax⟩ :=
      (nameQuotes_of_colon (p.strstr_key h0) (p.strchr_colon h0)).mp h
    rw [p.strchr_open h0, Option.some.injEq] at hq
    subst hq
    rw [p.strchr_close h0, Option.some.injEq] at hq'
    omega

/-- A text has one place: the searches know nothing of the pieces. -/
theorem name_unique (p' : NamePlace s) : p.name = p'.name := by
  have hkey := p.strstr_key h0
  rw [p'.strstr_key h0, Option.some.injEq] at hkey
  have hcolon := p.strchr_colon h0
  rw [← hkey, p'.strchr_colon h0, Option.some.injEq] at hcolon
  have hopen := p.strchr_open h0
  rw [← hcolon, p'.strchr_open h0, Option.some.injEq] at hopen
  have hclose := p.strchr_close h0
  rw [← hopen, p'.strchr_close h0, Option.some.injEq] at hclose
  have htext := p.drop_quote
  rw [← hopen, p'.drop_quote] at htext
  exact (List.append_inj_left htext (by omega)).symm

end

end NamePlace

/-- **Where the searches do not give up** they have come to the place. -/
theorem exists_place {s : Bytes} (h0 : (0 : UInt8) ∉ s) {q q' : Nat}
    (h : nameQuotes s = some (q, q')) :
    ∃ p : NamePlace s, q = p.quoteAt ∧ q' = q + 1 + p.name.length ∧
      p.name.length < COMMAND_MAX_LEN := by
  obtain ⟨ptr, k, c, hptr, hk, hc, hq, hle, hq', hmax⟩ := nameQuotes_iff.mp h
  -- the key
  obtain ⟨before, r, hs, hbefore, hfirst⟩ := strstr_iff.mp hptr
  have hcs : cstr (s.drop 0) = s := cstr_eq_self h0
  rw [hcs] at hs hfirst
  rw [Nat.zero_add] at hbefore
  have hkey : s.drop ptr = COMMAND_TOKEN ++ r := by
    rw [hs, hbefore, List.append_assoc, List.drop_left]
  -- the colon
  rw [strchr_skip hkey (by decide) (by decide)] at hk
  obtain ⟨gap, hgap, hcolon, hgapEnd⟩ := strchr_split (by decide) hk
  have hcol := drop_of_strchr (by decide) hk
  rw [← List.drop_drop, hkey, List.drop_left] at hgap
  -- the opening quote, before the comma
  rw [strchr_step hcol (by decide) (by decide)] at hq hc
  obtain ⟨lead, hlead, hopen, hleadEnd⟩ := strchr_split (by decide) hq
  have hearly : (44 : UInt8) ∉ lead := not_mem_of_strchr (by decide) hc hlead (by omega)
  have hcomma := (List.takeWhile_prefix _).subset (strchr_isSome.mp ⟨c, hc⟩)
  -- the closing quote
  obtain ⟨name, hname, hclose, hnameEnd⟩ := strchr_split (by decide) hq'
  have hrest : (44 : UInt8) ∈ name ++ 34 :: s.drop (q' + 1) := by
    rw [hlead, List.mem_append, List.mem_cons, hname] at hcomma
    exact (hcomma.resolve_left hearly).resolve_left (by decide)
  have hsplit : s = before ++ COMMAND_TOKEN ++
      (gap ++ 58 :: (lead ++ 34 :: (name ++ 34 :: s.drop (q' + 1)))) := by
    rw [← hname, ← hlead, ← hgap]
    exact hs
  have hlen : name.length < COMMAND_MAX_LEN := by omega
  refine ⟨⟨before, gap, lead, name, s.drop (q' + 1), hsplit, hfirst, hcolon, hopen, hclose, hrest,
    hearly⟩, ?_, hnameEnd, hlen⟩
  rw [hleadEnd, hgapEnd, hbefore]
  rfl

/-! ## 3. The buffer and the call -/

/-- **`cmd` stays terminated**: the count is not negative, and ends before the last byte. -/
theorem cmd_terminated {data : Bytes} {q q' : Nat} (h : nameQuotes data = some (q, q')) :
    0 ≤ (q' : Int) - q - 1 ∧ (q' : Int) - q - 1 ≤ COMMAND_MAX_LEN - 1 ∧
      (cmdBuffer data q q').length = COMMAND_MAX_LEN ∧ Terminated (cmdBuffer data q q') := by
  rw [← nameQuotes_cstr] at h
  obtain ⟨p, -, hq', hlen⟩ := exists_place (zero_not_mem_cstr data) h
  have hcount : q' - q - 1 < (calloc COMMAND_MAX_LEN).length := by
    rw [length_calloc]
    omega
  refine ⟨by omega, by omega, ?_, ?_⟩
  · exact (length_strncpy _ _ _).trans (length_calloc _)
  · exact terminated_strncpy (terminated_calloc (by decide)) (.inl hcount)

/-- **What is dispatched for a place**: its name, whole, if it fits. -/
theorem dispatch_place {data : Bytes} (p : NamePlace (cstr data)) :
    dispatch data =
      if p.name.length < COMMAND_MAX_LEN then some (p.name, cstr data) else none := by
  have h0 := zero_not_mem_cstr data
  rw [← dispatch_cstr]
  unfold dispatch
  rw [p.nameQuotes_place h0]
  split
  case isTrue hlen =>
    rw [Option.map_some, cstr_cmdBuffer p.drop_quote (p.no_nul h0).2.2 hlen, cstr_cstr]
  case isFalse => rfl

/-- **What is dispatched** is the name at the place. -/
theorem dispatch_eq_some {data : Bytes} {name msg : String8} :
    dispatch data = some (name, msg) ↔
      ∃ p : NamePlace (cstr data), p.name = name ∧ name.length < COMMAND_MAX_LEN ∧
        msg = cstr data := by
  constructor
  · intro h
    obtain ⟨⟨q, q'⟩, hq, -⟩ := Option.map_eq_some_iff.mp h
    rw [← nameQuotes_cstr] at hq
    obtain ⟨p, -, -, hlen⟩ := exists_place (zero_not_mem_cstr data) hq
    rw [dispatch_place p, if_pos hlen, Option.some.injEq, Prod.mk.injEq] at h
    obtain ⟨rfl, rfl⟩ := h
    exact ⟨p, rfl, hlen, rfl⟩
  · rintro ⟨p, rfl, hlen, rfl⟩
    rw [dispatch_place p, if_pos hlen]

theorem lt_commandMaxLen {n : Nat} : n < COMMAND_MAX_LEN ↔ n ≤ 63 := Nat.lt_succ_iff

/-- **The command's name**: the count of `strncpy` is in bounds and `cmd` terminated;
    `callCommandCB` is called once, with the name at the place, whole, where it has at
    most 63 bytes, and is not called where it has more or there is no place. -/
theorem commandName (data : Bytes) :
    (∀ p1 p2, nameQuotes data = some (p1, p2) →
        0 ≤ (p2 : Int) - p1 - 1 ∧ (p2 : Int) - p1 - 1 ≤ COMMAND_MAX_LEN - 1 ∧
          (cmdBuffer data p1 p2).length = COMMAND_MAX_LEN ∧ Terminated (cmdBuffer data p1 p2)) ∧
      (∀ p p' : NamePlace (cstr data), p.name = p'.name) ∧
      (∀ name msg, dispatch data = some (name, msg) ↔
        ∃ p : NamePlace (cstr data), p.name = name ∧ name.length ≤ 63 ∧ msg = cstr data) ∧
      (∀ p : NamePlace (cstr data), 63 < p.name.length → dispatch data = none) ∧
      ∀ d : DeviceShadow,
        (∀ p : NamePlace (cstr data), p.name.length ≤ 63 →
          d.callDefaultCommandCb data = (d.callCommandCB p.name (cstr data)).2) ∧
        ((∀ p : NamePlace (cstr data), 63 < p.name.length) → d.callDefaultCommandCb data = []) := by
  have hiff : ∀ name msg, dispatch data = some (name, msg) ↔
      ∃ p : NamePlace (cstr data), p.name = name ∧ name.length ≤ 63 ∧ msg = cstr data := by
    intro name msg
    rw [dispatch_eq_some, lt_commandMaxLen]
  refine ⟨fun p1 p2 h => cmd_terminated h, fun p p' => p.name_unique (zero_not_mem_cstr data) p',
    hiff, fun p hlong => ?_, fun d => ⟨fun p hp => ?_, fun hlong => ?_⟩⟩
  · rw [dispatch_place p, if_neg (by rw [lt_commandMaxLen]; omega)]
  · unfold callDefaultCommandCb
    rw [(hiff p.name (cstr data)).mpr ⟨p, rfl, hp, rfl⟩]
  · unfold callDefaultCommandCb
    cases hd : dispatch data with
    | none => rfl
    | some r =>
      obtain ⟨p, hname, hlen, -⟩ := (hiff r.1 r.2).mp hd
      have := hlong p
      rw [hname] at this
      omega

/-- 63 bytes fit, with the NUL behind them; 64 do not. -/
example : (dispatch (lit "\"command\":\"" ++ List.replicate 63 97 ++ lit "\",")).map (·.1) =
    some (List.replicate 63 97) := by decide

example : dispatch (lit "\"command\":\"" ++ List.replicate 64 97 ++ lit "\",") = none := by decide

/-! ## 4. Control messages -/

/-- **The name of a control message** is in place exactly where there is a comma behind
    the colon. -/
theorem ControlMessage.placed_iff (o : ControlMessage) :
    (∃ p : NamePlace o.text, p.name = o.name) ↔ o.after ≠ [] ∨ (44 : UInt8) ∈ o.name := by
  have hlen : o.name.length < COMMAND_MAX_LEN := lt_commandMaxLen.mpr o.size.2
  have hplace := @dispatch_eq_some (o.memory []) o.name o.text
  rw [o.cstr_memory, o.dispatch_text] at hplace
  constructor
  · rintro ⟨p, hname⟩
    by_contra hno
    rw [if_neg hno] at hplace
    cases hplace.mpr ⟨p, hname, hlen, rfl⟩
  · intro hcomma
    rw [if_pos hcomma] at hplace
    obtain ⟨p, hname, -⟩ := hplace.mp rfl
    exact ⟨p, hname⟩

end DeviceShadow

end IotWrap
