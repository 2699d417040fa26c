/-
  File:      IotWrap/Command.lean
  Subject:   The name of the command in a control message
             (`_DS_call_default_command_cb`, jni/server/IOT_DeviceShadow.cpp).

  The message is not parsed. The searches go from the key to the next colon, from
  there to the next comma, and from the colon to the quotes around the name; the
  opening quote has to stand before the comma. A message without a comma behind
  the colon is refused, although no name needs one.

  * `nameQuotes_iff`, `nameQuotes_of_colon`: what the searches found where they did
    not give up;
  * `dispatch_text`: what becomes of a well-formed message;
  * `callDefaultCommandCb_text`: whom the callback calls for it;
  * `extracted_iff`: the name and the message reach `callCommandCB` if and only
    if a member follows, or the name itself has a comma;
  * `last_member`: a message that is refused.
-/
import IotWrap.Lib.CString
import IotWrap.Lib.Json
import IotWrap.Shadow

namespace IotWrap

open Lib
open Lib.Json (Text Ws)
open IOTService (Invocation)

/-! ## 1. The callback -/

def COMMAND_MAX_LEN : Nat := 64

def COMMAND_TOKEN : Bytes := lit "\"command\""

namespace DeviceShadow

/-- The searches of `_DS_call_default_command_cb`: `p1` and `p2` as they are where
    it does not return early. -/
def nameQuotes (data : Bytes) : Option (Nat × Nat) := do
  let ptr ← strstr data 0 COMMAND_TOKEN
  let p1 ← strchr data ptr 58
  let p2 ← strchr data p1 44
  let p1 ← strchr data p1 34
  if p1 > p2 then none
  else
    let p2 ← strchr data (p1 + 1) 34
    if p1 > p2 then none
    else if (p2 : Int) - p1 > COMMAND_MAX_LEN then none
    else some (p1, p2)

/-- The buffer `cmd` after `strncpy`. -/
def cmdBuffer (data : Bytes) (p1 p2 : Nat) : Bytes :=
  strncpy (calloc COMMAND_MAX_LEN) (data.drop (p1 + 1)) (p2 - p1 - 1)

/-- **The call of `callCommandCB`**, by what it reads of its arguments: `cmd` and
    the memory at `data`, both up to the first NUL. -/
def dispatch (data : Bytes) : Option (String8 × String8) :=
  (nameQuotes data).map fun p => (cstr (cmdBuffer data p.1 p.2), cstr data)

/-- `_DS_call_default_command_cb`. -/
def callDefaultCommandCb (d : DeviceShadow) (data : Bytes) : List Invocation :=
  match dispatch data with
  | none => []
  | some (cmd, data) => (d.callCommandCB cmd data).2

/-- **What the searches found**, where none of them gave up. -/
theorem nameQuotes_iff {data : Bytes} {q q' : Nat} :
    nameQuotes data = some (q, q') ↔
      ∃ ptr k c, strstr data 0 COMMAND_TOKEN = some ptr ∧ strchr data ptr 58 = some k ∧
        strchr data k 44 = some c ∧ strchr data k 34 = some q ∧ q ≤ c ∧
        strchr data (q + 1) 34 = some q' ∧ q' ≤ q + COMMAND_MAX_LEN := by
  unfold nameQuotes
  simp only [Option.bind_eq_bind, Option.bind_eq_some_iff]
  constructor
  · rintro ⟨ptr, hptr, k, hk, c, hc, q₁, hq, h⟩
    split at h
    · cases h
    · obtain ⟨q₂, hq', h⟩ := Option.bind_eq_some_iff.mp h
      split at h
      · cases h
      · split at h
        · cases h
        · simp only [Option.some.injEq, Prod.mk.injEq] at h
          obtain ⟨rfl, rfl⟩ := h
          exact ⟨ptr, k, c, hptr, hk, hc, hq, by omega, hq', by omega⟩
  · rintro ⟨ptr, k, c, hptr, hk, hc, hq, hle, hq', hlen⟩
    have hge := strchr_ge (by decide) hq' (List.nil_prefix) List.not_mem_nil
    refine ⟨ptr, hptr, k, hk, c, hc, q, hq, ?_⟩
    rw [if_neg (by omega), hq', Option.bind_some, if_neg (by simp at hge; omega),
      if_neg (by omega)]

/-- **From the colon on**: where the first two searches come to is known. -/
theorem nameQuotes_of_colon {data : Bytes} {ptr k q q' : Nat}
    (hptr : strstr data 0 COMMAND_TOKEN = some ptr) (hk : strchr data ptr 58 = some k) :
    nameQuotes data = some (q, q') ↔
      ∃ c, strchr data k 44 = some c ∧ strchr data k 34 = some q ∧ q ≤ c ∧
        strchr data (q + 1) 34 = some q' ∧ q' ≤ q + COMMAND_MAX_LEN := by
  rw [nameQuotes_iff]
  constructor
  · rintro ⟨ptr', k', c, hptr', hk', h⟩
    rw [hptr, Option.some.injEq] at hptr'
    subst hptr'
    rw [hk, Option.some.injEq] at hk'
    subst hk'
    exact ⟨c, h⟩
  · rintro ⟨c, h⟩
    exact ⟨ptr, k, c, hptr, hk, h⟩

/-- The name between the quotes, whole. -/
theorem cstr_cmdBuffer {data name v : Bytes} {q : Nat} (hd : data.drop (q + 1) = name ++ v)
    (h0 : (0 : UInt8) ∉ name) (hlen : name.length < COMMAND_MAX_LEN) :
    cstr (cmdBuffer data q (q + 1 + name.length)) = name := by
  have hn : q + 1 + name.length - q - 1 = name.length := by omega
  have ht : (name ++ v).take name.length = name := List.take_left
  unfold cmdBuffer
  rw [hd, hn, strncpy, ← strncpyBytes_take, ht]
  show cstr (strncpy (calloc COMMAND_MAX_LEN) name name.length) = name
  rw [(cstr_store (by rw [length_calloc]; exact hlen)).mpr ?_, cstr_eq_self h0]
  right
  rw [calloc, List.getElem?_replicate, if_pos hlen]

/-! ## 2. Control messages -/

/-- The pieces of a control message. -/
structure MessageParts where
  lead : Bytes
  before : List Bytes
  ws1 : Bytes
  ws2 : Bytes
  ws3 : Bytes
  name : Bytes
  ws4 : Bytes
  after : List Bytes
  trail : Bytes

namespace MessageParts

variable (o : MessageParts)

/-- What stands before the key. -/
def head : Bytes := o.lead ++ 123 :: (o.before.flatMap (· ++ [44]) ++ o.ws1)

/-- What stands behind the name's closing quote. -/
def tail : Bytes := o.ws4 ++ o.after.flatMap (44 :: ·) ++ 125 :: o.trail

/-- From the key to the name's opening quote. -/
def key : Bytes := COMMAND_TOKEN ++ o.ws2 ++ 58 :: (o.ws3 ++ [34])

def text : Bytes := o.head ++ o.key ++ (o.name ++ 34 :: o.tail)

end MessageParts

/-- **A control message**: a JSON object with a member `command`, its value a string
    of 1 to 63 plain bytes; the key stands nowhere else in the text. -/
structure ControlMessage extends MessageParts where
  white : ∀ w ∈ [lead, ws1, ws2, ws3, ws4, trail], Ws w
  members : ∀ m ∈ before ++ after, Text .member m
  size : 1 ≤ name.length ∧ name.length ≤ 63
  plain : ∀ c ∈ name, Json.IsPlain c
  once : places COMMAND_TOKEN toMessageParts.text = [toMessageParts.head.length]

namespace ControlMessage

variable (o : ControlMessage)

theorem chars_of_plain {s : Bytes} (h : ∀ c ∈ s, Json.IsPlain c) : Json.Chars s := by
  induction s with
  | nil => exact .nil
  | cons c s ih =>
    exact .plain (h c List.mem_cons_self) (ih fun x hx => h x (List.mem_cons_of_mem _ hx))

/-- The message is a JSON text. -/
theorem text_json : Text .element o.text := by
  have hw := o.white
  simp only [List.mem_cons, List.not_mem_nil, or_false, forall_eq_or_imp, forall_eq] at hw
  obtain ⟨h1, h2, h3, h4, h5, h6⟩ := hw
  have hname : Json.Str (34 :: (o.name ++ [34])) := .quoted (chars_of_plain o.plain)
  have hkey : Json.Str COMMAND_TOKEN :=
    .quoted (s := lit "command") (chars_of_plain (Json.isPlain_of_all (by decide)))
  have hm := Text.member h2 hkey h3 (.element h4 (.string hname) h5)
  have hall := Json.text_members (fun b hb => o.members b (List.mem_append_left _ hb)) hm
    (fun b hb => o.members b (List.mem_append_right _ hb))
  have htext := Text.element h1 (.object hall) h6
  simpa [MessageParts.text, MessageParts.head, MessageParts.key, MessageParts.tail] using htext

theorem text_no_nul : (0 : UInt8) ∉ o.text := o.text_json.no_nul

/-- Where the searches of a message come to: the key, the colon, the opening quote. -/
def keyAt : Nat := o.head.length

def colonAt : Nat := o.keyAt + (COMMAND_TOKEN ++ o.ws2).length

def quoteAt : Nat := o.colonAt + (58 :: o.ws3).length

/-- The message and its terminator in memory. -/
def memory (rest : Bytes) : Bytes := o.text ++ 0 :: rest

theorem cstr_memory (rest : Bytes) : cstr (o.memory rest) = o.text := by
  unfold memory
  rw [cstr_append_zero, cstr_eq_self o.text_no_nul]

theorem drop_keyAt (rest : Bytes) :
    (o.memory rest).drop o.keyAt =
      (COMMAND_TOKEN ++ o.ws2) ++ 58 :: (o.ws3 ++ 34 :: (o.name ++ 34 :: (o.tail ++ 0 :: rest))) := by
  have hm : o.memory rest = o.head ++
      ((COMMAND_TOKEN ++ o.ws2) ++
        58 :: (o.ws3 ++ 34 :: (o.name ++ 34 :: (o.tail ++ 0 :: rest)))) := by
    simp [memory, MessageParts.text, MessageParts.key]
  rw [hm, keyAt, List.drop_left]

theorem drop_colonAt (rest : Bytes) :
    (o.memory rest).drop o.colonAt =
      (58 :: o.ws3) ++ 34 :: (o.name ++ 34 :: (o.tail ++ 0 :: rest)) := by
  rw [colonAt, ← List.drop_drop, drop_keyAt, List.drop_left]
  rfl

theorem drop_quoteAt (rest : Bytes) :
    (o.memory rest).drop (o.quoteAt + 1) = o.name ++ 34 :: (o.tail ++ 0 :: rest) := by
  have h : (o.memory rest).drop o.quoteAt = 34 :: (o.name ++ 34 :: (o.tail ++ 0 :: rest)) := by
    rw [quoteAt, ← List.drop_drop, drop_colonAt, List.drop_left]
  rw [← List.drop_drop, h]
  rfl

/-- The first search finds the key. -/
theorem strstr_memory (rest : Bytes) :
    strstr (o.memory rest) 0 COMMAND_TOKEN = some o.keyAt := by
  have hc : cstr ((o.memory rest).drop 0) = o.text := o.cstr_memory rest
  have hmem : o.head.length ∈ places COMMAND_TOKEN o.text := o.once ▸ List.mem_singleton.mpr rfl
  obtain ⟨u, v, he, hu⟩ := mem_places.mp hmem
  refine strstr_iff.mpr ⟨u, v, hc.trans he, by rw [hu, Nat.zero_add]; rfl, fun u' v' he' => ?_⟩
  have hmem' : u'.length ∈ places COMMAND_TOKEN o.text :=
    mem_places.mpr ⟨u', v', hc.symm.trans he', rfl⟩
  rw [o.once, List.mem_singleton] at hmem'
  exact Nat.le_of_eq (hu.trans hmem'.symm)

theorem strchr_colon (rest : Bytes) :
    strchr (o.memory rest) o.keyAt 58 = some o.colonAt := by
  have hws : Ws o.ws2 := o.white _ (by simp)
  refine (strchr_iff (by decide)).mpr ⟨_, _, o.drop_keyAt rest, ?_, ?_, rfl⟩
  · rw [List.mem_append, not_or]
    exact ⟨by decide, hws.not_mem (by decide)⟩
  · rw [List.mem_append, not_or]
    exact ⟨by decide, hws.no_nul⟩

theorem strchr_open (rest : Bytes) :
    strchr (o.memory rest) o.colonAt 34 = some o.quoteAt := by
  have hws : Ws o.ws3 := o.white _ (by simp)
  refine (strchr_iff (by decide)).mpr ⟨_, _, o.drop_colonAt rest, ?_, ?_, rfl⟩
  · rw [List.mem_cons, not_or]
    exact ⟨by decide, hws.not_mem (by decide)⟩
  · rw [List.mem_cons, not_or]
    exact ⟨by decide, hws.no_nul⟩

theorem strchr_close (rest : Bytes) :
    strchr (o.memory rest) (o.quoteAt + 1) 34 = some (o.quoteAt + 1 + o.name.length) :=
  (strchr_iff (by decide)).mpr ⟨_, _, o.drop_quoteAt rest, fun h => (o.plain _ h).2.1 rfl,
    fun h => absurd (o.plain _ h).1 (by decide), rfl⟩

/-- A comma behind the colon: in the name, or after it where a member follows. -/
theorem comma_iff (rest : Bytes) :
    (44 : UInt8) ∈ cstr ((o.memory rest).drop o.colonAt) ↔ o.after ≠ [] ∨ (44 : UInt8) ∈ o.name := by
  have hw := o.white
  simp only [List.mem_cons, List.not_mem_nil, or_false, forall_eq_or_imp, forall_eq] at hw
  obtain ⟨-, -, -, h3, h4, h6⟩ := hw
  have hsplit : (o.memory rest).drop o.colonAt =
      (58 :: o.ws3 ++ 34 :: (o.name ++ 34 :: o.tail)) ++ 0 :: rest := by
    rw [drop_colonAt]
    simp
  have h0 : (0 : UInt8) ∉ 58 :: o.ws3 ++ 34 :: (o.name ++ 34 :: o.tail) := by
    refine fun hm => o.text_no_nul ?_
    simp only [MessageParts.text, MessageParts.key]
    simp only [List.mem_append, List.mem_cons] at hm ⊢
    tauto
  rw [hsplit, cstr_append_zero, cstr_eq_self h0]
  have hafter : (44 : UInt8) ∈ o.after.flatMap (44 :: ·) ↔ o.after ≠ [] := by
    cases o.after with
    | nil => simp
    | cons a l => simp
  have n3 := h3.not_mem (c := 44) (by decide)
  have n4 := h4.not_mem (c := 44) (by decide)
  have n6 := h6.not_mem (c := 44) (by decide)
  have d1 : (44 : UInt8) ≠ 58 := by decide
  have d2 : (44 : UInt8) ≠ 34 := by decide
  have d3 : (44 : UInt8) ≠ 125 := by decide
  simp only [MessageParts.tail, List.mem_append, List.mem_cons, hafter, n3, n4, n6, d1, d2, d3,
    false_or, or_false]
  exact or_comm

/-- **What becomes of a message**: with a comma behind the colon it is dispatched. -/
theorem dispatch_text (rest : Bytes) :
    dispatch (o.memory rest) =
      if o.after ≠ [] ∨ (44 : UInt8) ∈ o.name then some (o.name, o.text) else none := by
  by_cases hcomma : o.after ≠ [] ∨ (44 : UInt8) ∈ o.name
  · obtain ⟨c, hc⟩ := strchr_isSome.mpr ((o.comma_iff rest).mpr hcomma)
    have hge : o.quoteAt ≤ c := by
      refine strchr_ge (by decide) hc ⟨_, (o.drop_colonAt rest).symm⟩ ?_
      rw [List.mem_cons, not_or]
      exact ⟨by decide, (o.white o.ws3 (by simp)).not_mem (by decide)⟩
    have hsize : o.name.length < COMMAND_MAX_LEN := Nat.lt_succ_of_le o.size.2
    have hq : nameQuotes (o.memory rest) = some (o.quoteAt, o.quoteAt + 1 + o.name.length) :=
      (nameQuotes_of_colon (o.strstr_memory rest) (o.strchr_colon rest)).mpr
        ⟨c, hc, o.strchr_open rest, hge, o.strchr_close rest, by omega⟩
    have hname : cstr (cmdBuffer (o.memory rest) o.quoteAt (o.quoteAt + 1 + o.name.length)) =
        o.name :=
      cstr_cmdBuffer (o.drop_quoteAt rest) (fun h => absurd (o.plain _ h).1 (by decide)) hsize
    rw [if_pos hcomma]
    unfold dispatch
    rw [hq, Option.map_some, hname, cstr_memory]
  · have hnone : nameQuotes (o.memory rest) = none := by
      rw [Option.eq_none_iff_forall_ne_some]
      rintro ⟨q, q'⟩ h
      obtain ⟨c, hc, -⟩ := (nameQuotes_of_colon (o.strstr_memory rest) (o.strchr_colon rest)).mp h
      exact hcomma ((o.comma_iff rest).mp (strchr_isSome.mp ⟨c, hc⟩))
    rw [if_neg hcomma]
    unfold dispatch
    rw [hnone]
    rfl

end ControlMessage

/-- **The callback for a message**: `callCommandCB` with the name and the message, where
    there is a comma behind the colon; else nothing. -/
theorem callDefaultCommandCb_text (d : DeviceShadow) (o : ControlMessage) (rest : Bytes) :
    d.callDefaultCommandCb (o.text ++ 0 :: rest) =
      if o.after ≠ [] ∨ (44 : UInt8) ∈ o.name then (d.callCommandCB o.name o.text).2 else [] := by
  show (match dispatch (o.memory rest) with
    | none => []
    | some (cmd, data) => (d.callCommandCB cmd data).2) = _
  rw [o.dispatch_text rest]
  by_cases hcomma : o.after ≠ [] ∨ (44 : UInt8) ∈ o.name
  · rw [if_pos hcomma, if_pos hcomma]
  · rw [if_neg hcomma, if_neg hcomma]

/-- **The name is extracted** if and only if a member follows the command, or the
    name has a comma of its own; the callback makes that one call then, and none else. -/
theorem extracted_iff (o : ControlMessage) (rest : Bytes) :
    (dispatch (o.text ++ 0 :: rest) = some (o.name, o.text) ↔
      o.after ≠ [] ∨ (44 : UInt8) ∈ o.name) ∧
      ∀ d : DeviceShadow, d.callDefaultCommandCb (o.text ++ 0 :: rest) =
        if o.after ≠ [] ∨ (44 : UInt8) ∈ o.name then (d.callCommandCB o.name o.text).2 else [] := by
  refine ⟨?_, fun d => callDefaultCommandCb_text d o rest⟩
  show dispatch (o.memory rest) = _ ↔ _
  rw [o.dispatch_text rest]
  split
  · simp [*]
  · simp [*]

/-- `{"command":"play"}`. -/
def playOnly : ControlMessage where
  lead := []
  before := []
  ws1 := []
  ws2 := []
  ws3 := []
  name := lit "play"
  ws4 := []
  after := []
  trail := []
  white := by simp [Ws]
  members := by simp
  size := by decide
  plain := Json.isPlain_of_all (by decide)
  once := by decide

/-- **The only member is not found**. -/
theorem last_member :
    ¬ ∀ (o : ControlMessage) (rest : Bytes),
      dispatch (o.text ++ 0 :: rest) = some (o.name, o.text) := by
  intro h
  have hplay : dispatch (playOnly.text ++ [0]) = none := by decide
  rw [h playOnly []] at hplay
  cases hplay

end DeviceShadow

end IotWrap
