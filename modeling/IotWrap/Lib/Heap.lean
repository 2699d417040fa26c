/-
  File:      IotWrap/Lib/Heap.lean
  Subject:   Programs over allocated blocks, and the blocks they own.

  A heap gives each live address its block. A program over it gives a result and a
  heap, or nothing: it followed a null or freed pointer, freed a block twice, or
  accessed a block as it may not. What it owns is a list of blocks.

  `Does l c ok Q` says all that `c` does to the blocks `l`, whatever else there is:
  where `ok` holds it ends, with a result and blocks that meet `Q`, and everything else
  is untouched; where `ok` does not hold it goes wrong. Nothing is left open, so a
  program with such a statement goes wrong exactly where its `ok` fails.

  * `Does.pure`, `Does.bind`, `Does.seq`, `Does.before`, `Does.frame`, `Does.perm`: how
    the statements compose;
  * `does_load`, `does_store`, `does_free`, `does_alloc`, `does_require`: the commands;
  * `Does.each`: a loop in which every round has blocks of its own.
-/
import Mathlib.Data.Fintype.EquivFin
import Mathlib.Data.List.Nodup
import Mathlib.Data.List.Perm.Basic
import Mathlib.Data.Nat.Find
import Mathlib.Logic.Function.Basic

namespace IotWrap.Lib

abbrev Addr := Nat

/-- A pointer; null is `none`. -/
abbrev Ptr := Option Addr

/-- The block at each live address. -/
abbrev Heap (β : Type) := Addr → Option β

/-- A program over a heap; `none` where it goes wrong. -/
abbrev Prog (β : Type) := StateT (Heap β) Option

/-- Blocks with their addresses. -/
abbrev Blocks (β : Type) := List (Addr × β)

/-- **What an allocator does**: it fails, or gives an address that is not in use. It may
    give one that was freed. -/
structure Allocator (β : Type) where
  place : Heap β → β → Ptr
  fresh : ∀ h b a, place h b = some a → h a = none

/-- It does not fail as long as an address is free. -/
def Allocator.Ample {β : Type} (al : Allocator β) : Prop :=
  ∀ h b a, h a = none → al.place h b ≠ none

variable {α γ β : Type}

namespace Allocator

/-- The first free one of `n` addresses. -/
def firstOf (n : Nat) : Allocator β where
  place h _ := (List.range n).find? fun a => (h a).isNone
  fresh h _ a e := by simpa using List.find?_some e

open Classical in
/-- The first free address. -/
noncomputable def first : Allocator β where
  place h _ := if hx : ∃ a, h a = none then some (Nat.find hx) else none
  fresh h _ a e := by
    split at e
    · rename_i hx
      exact Option.some.inj e ▸ Nat.find_spec hx
    · cases e

theorem first_ample : (first : Allocator β).Ample := by
  intro h b a ha
  have hx : ∃ a, h a = none := ⟨a, ha⟩
  simp only [first, dif_pos hx, ne_eq, reduceCtorEq, not_false_eq_true]

/-- One allocator, and another where it fails. -/
def orElse (al al' : Allocator β) : Allocator β where
  place h b := (al.place h b).or (al'.place h b)
  fresh h b a e := by
    rcases Option.or_eq_some_iff.mp e with h1 | ⟨-, h2⟩
    · exact al.fresh h b a h1
    · exact al'.fresh h b a h2

theorem Ample.orElse (al : Allocator β) {al' : Allocator β} (h' : al'.Ample) :
    (al.orElse al').Ample := by
  intro h b a ha hn
  exact h' h b a ha (Option.or_eq_none_iff.mp hn).2

end Allocator

/-! ## 1. Commands -/

namespace Prog

def fail : Prog β α := fun _ => none

/-- Go wrong where `p` does not hold. -/
def require (p : Prop) [Decidable p] : Prog β Unit := if p then Pure.pure () else fail

/-- The block that a pointer leads to. -/
def load (p : Ptr) : Prog β β := fun h => do
  let a ← p
  let b ← h a
  some (b, h)

/-- Write the block that a pointer leads to. -/
def store (p : Ptr) (b : β) : Prog β Unit := fun h => do
  let a ← p
  let _ ← h a
  some ((), Function.update h a (some b))

/-- A new block, or null. -/
def alloc (al : Allocator β) (b : β) : Prog β Ptr := fun h =>
  match al.place h b with
  | none => some (none, h)
  | some a => some (some a, Function.update h a (some b))

/-- `free`, which null does not mind. -/
def free : Ptr → Prog β Unit
  | none => Pure.pure ()
  | some a => fun h => do
    let _ ← h a
    some ((), Function.update h a none)

theorem bind_apply (c : Prog β α) (f : α → Prog β γ) (h : Heap β) :
    (c >>= f) h = (c h).bind fun p => f p.1 p.2 := rfl

end Prog

/-! ## 2. Owning blocks -/

/-- The heap is these blocks: each at an address of its own, and nothing else. -/
structure Owns (h : Heap β) (l : Blocks β) : Prop where
  distinct : (l.map Prod.fst).Nodup
  mem : ∀ a b, h a = some b ↔ (a, b) ∈ l

namespace Owns

variable {h : Heap β} {l l' : Blocks β} {a : Addr} {b : β}

theorem empty : Owns (fun _ => none : Heap β) [] :=
  ⟨List.nodup_nil, fun _ b => iff_of_false (Option.some_ne_none b).symm List.not_mem_nil⟩

/-- No block, no heap. -/
theorem eq_empty (ho : Owns h []) : h = fun _ => none := by
  funext a
  cases ha : h a with
  | none => rfl
  | some b => exact absurd ((ho.mem a b).mp ha) List.not_mem_nil

theorem perm (ho : Owns h l) (hp : l.Perm l') : Owns h l' :=
  ⟨(hp.map Prod.fst).nodup_iff.mp ho.distinct, fun a b => (ho.mem a b).trans hp.mem_iff⟩

/-- An address is free: the blocks are finitely many. -/
theorem exists_free (ho : Owns h l) : ∃ a, h a = none := by
  obtain ⟨a, ha⟩ := Infinite.exists_notMem_finset (l.map Prod.fst).toFinset
  refine ⟨a, Option.eq_none_iff_forall_ne_some.mpr fun b hb => ha ?_⟩
  exact List.mem_toFinset.mpr (List.mem_map.mpr ⟨(a, b), (ho.mem a b).mp hb, rfl⟩)

theorem get (ho : Owns h ((a, b) :: l)) : h a = some b :=
  (ho.mem a b).mpr List.mem_cons_self

theorem not_mem (ho : Owns h ((a, b) :: l)) (c : β) : (a, c) ∉ l := fun hm =>
  (List.nodup_cons.mp ho.distinct).1 (List.mem_map.mpr ⟨(a, c), hm, rfl⟩)

/-- A block at an address that is not in use. -/
theorem cons (ho : Owns h l) (ha : h a = none) (b : β) :
    Owns (Function.update h a (some b)) ((a, b) :: l) := by
  refine ⟨List.nodup_cons.mpr ⟨fun hm => ?_, ho.distinct⟩, fun a' b' => ?_⟩
  · obtain ⟨⟨a', c⟩, hc, rfl⟩ := List.mem_map.mp hm
    rw [(ho.mem a' c).mpr hc] at ha
    cases ha
  · rw [Function.update_apply, List.mem_cons, Prod.mk.injEq]
    split
    case isTrue e =>
      subst e
      constructor
      · intro hb
        exact .inl ⟨rfl, (Option.some.inj hb).symm⟩
      · rintro (⟨-, rfl⟩ | hm)
        · rfl
        · rw [(ho.mem a' b').mpr hm] at ha
          cases ha
    case isFalse e =>
      rw [ho.mem a' b']
      exact ⟨.inr, fun hm => hm.resolve_left fun he => e he.1⟩

/-- A freed block. -/
theorem uncons (ho : Owns h ((a, b) :: l)) : Owns (Function.update h a none) l := by
  refine ⟨(List.nodup_cons.mp ho.distinct).2, fun a' b' => ?_⟩
  rw [Function.update_apply]
  split
  case isTrue e =>
    subst e
    exact iff_of_false (Option.some_ne_none b').symm (ho.not_mem b')
  case isFalse e =>
    rw [ho.mem a' b', List.mem_cons, Prod.mk.injEq]
    exact ⟨fun hm => hm.resolve_left fun he => e he.1, .inr⟩

/-- A block with another content. -/
theorem write (ho : Owns h ((a, b) :: l)) (b' : β) :
    Owns (Function.update h a (some b')) ((a, b') :: l) := by
  have hw := ho.uncons.cons (a := a) (Function.update_self a none h) b'
  rwa [Function.update_idem] at hw

end Owns

/-! ## 3. What a program does -/

/-- **All that `c` does to the blocks `l`**, beside any others: where `ok` holds it ends
    as `Q` says, and where it does not it goes wrong. -/
structure Does (l : Blocks β) (c : Prog β α) (ok : Prop) (Q : α → Blocks β → Prop) : Prop where
  ends : ok → ∀ h fr, Owns h (l ++ fr) →
    ∃ r h' l', c h = some (r, h') ∧ Owns h' (l' ++ fr) ∧ Q r l'
  wrong : ¬ ok → ∀ h fr, Owns h (l ++ fr) → c h = none

namespace Does

variable {l l' : Blocks β} {c : Prog β α} {ok ok' : Prop} {Q Q' : α → Blocks β → Prop}

theorem conseq (hc : Does l c ok Q) (hok : ok ↔ ok') (hQ : ∀ r l', Q r l' → Q' r l') :
    Does l c ok' Q' where
  ends ho h fr hl := by
    obtain ⟨r, h', l', he, hl', hq⟩ := hc.ends (hok.mpr ho) h fr hl
    exact ⟨r, h', l', he, hl', hQ r l' hq⟩
  wrong ho := hc.wrong fun hn => ho (hok.mp hn)

theorem congr (hc : Does l c ok Q) (hok : ok ↔ ok') : Does l c ok' Q :=
  hc.conseq hok fun _ _ hq => hq

/-- A program that cannot go wrong, where it may not. -/
theorem sure (hc : Does l c True Q) (hok : ok) : Does l c ok Q := hc.congr (iff_of_true trivial hok)

theorem perm (hc : Does l c ok Q) (hp : l.Perm l') : Does l' c ok Q where
  ends ho h fr hl := hc.ends ho h fr (hl.perm (hp.symm.append_right fr))
  wrong ho h fr hl := hc.wrong ho h fr (hl.perm (hp.symm.append_right fr))

/-- What is not owned stays as it is. -/
theorem frame (hc : Does l c ok Q) (fr : Blocks β) :
    Does (l ++ fr) c ok fun r l' => ∃ l₁, Q r l₁ ∧ l' = l₁ ++ fr where
  ends ho h fr' hl := by
    rw [List.append_assoc] at hl
    obtain ⟨r, h', l₁, he, hl', hq⟩ := hc.ends ho h (fr ++ fr') hl
    rw [← List.append_assoc] at hl'
    exact ⟨r, h', l₁ ++ fr, he, hl', l₁, hq, rfl⟩
  wrong ho h fr' hl := by
    rw [List.append_assoc] at hl
    exact hc.wrong ho h (fr ++ fr') hl

theorem pure {r : α} (hq : Q r l) : Does l (Pure.pure r) True Q where
  ends _ h _ hl := ⟨r, h, l, rfl, hl, hq⟩
  wrong ho := absurd trivial ho

/-- One program after the other goes wrong where one of the two does. -/
theorem bind {f : α → Prog β γ} {p : Prop} {R : γ → Blocks β → Prop} (hc : Does l c ok Q)
    (hf : ∀ r l', Q r l' → Does l' (f r) p R) : Does l (c >>= f) (ok ∧ p) R where
  ends ho h fr hl := by
    obtain ⟨r, h₁, l₁, he, hl₁, hq⟩ := hc.ends ho.1 h fr hl
    obtain ⟨x, h₂, l₂, he₂, hl₂, hr⟩ := (hf r l₁ hq).ends ho.2 h₁ fr hl₁
    exact ⟨x, h₂, l₂, by rw [Prog.bind_apply, he, Option.bind_some, he₂], hl₂, hr⟩
  wrong ho h fr hl := by
    by_cases hok : ok
    · obtain ⟨r, h₁, l₁, he, hl₁, hq⟩ := hc.ends hok h fr hl
      have hw := (hf r l₁ hq).wrong (fun hp => ho ⟨hok, hp⟩) h₁ fr hl₁
      rw [Prog.bind_apply, he, Option.bind_some, hw]
    · rw [Prog.bind_apply, hc.wrong hok h fr hl, Option.bind_none]

/-- After a program that cannot go wrong. -/
theorem seq {f : α → Prog β γ} {R : γ → Blocks β → Prop} (hc : Does l c True Q)
    (hf : ∀ r l', Q r l' → Does l' (f r) ok R) : Does l (c >>= f) ok R :=
  (hc.bind hf).congr (iff_of_eq (true_and ok))

/-- Before a program that cannot go wrong. -/
theorem before {f : α → Prog β γ} {R : γ → Blocks β → Prop} (hc : Does l c ok Q)
    (hf : ∀ r l', Q r l' → Does l' (f r) True R) : Does l (c >>= f) ok R :=
  (hc.bind hf).congr (iff_of_eq (and_true ok))

/-- The end of a program, with the blocks in any order. -/
theorem pure_perm {r : α} (hp : l.Perm l') (hq : Q r l') : Does l (Pure.pure r) True Q where
  ends _ h fr hl := ⟨r, h, l', rfl, hl.perm (hp.append_right fr), hq⟩
  wrong ho := absurd trivial ho

/-- What is left, in another order. -/
theorem arrange {R : α → Blocks β → Prop} (hc : Does l c ok Q)
    (hQ : ∀ r l', Q r l' → ∃ l₁, l'.Perm l₁ ∧ R r l₁) : Does l c ok R where
  ends ho h fr hl := by
    obtain ⟨r, h', l', he, hl', hq⟩ := hc.ends ho h fr hl
    obtain ⟨l₁, hp, hr⟩ := hQ r l' hq
    exact ⟨r, h', l₁, he, hl'.perm (hp.append_right fr), hr⟩
  wrong := hc.wrong

end Does

/-! ## 4. The commands -/

section Commands

variable {l : Blocks β} {a : Addr} {b : β}

theorem does_fail (l : Blocks β) (Q : α → Blocks β → Prop) : Does l Prog.fail False Q :=
  ⟨fun ho => ho.elim, fun _ _ _ _ => rfl⟩

theorem does_require (l : Blocks β) (p : Prop) [Decidable p] :
    Does l (Prog.require p) p fun _ l' => p ∧ l' = l := by
  unfold Prog.require
  split
  case isTrue hp =>
    have hpure : Does l (Pure.pure () : Prog β Unit) True fun _ l' => p ∧ l' = l :=
      Does.pure ⟨hp, rfl⟩
    exact hpure.sure hp
  case isFalse hp => exact (does_fail l _).congr (iff_of_false id hp)

theorem does_load (hm : (a, b) ∈ l) :
    Does l (Prog.load (some a)) True fun r l' => r = b ∧ l' = l where
  ends _ h fr hl := by
    have ha : h a = some b := (hl.mem a b).mpr (List.mem_append_left fr hm)
    exact ⟨b, h, l, by simp [Prog.load, ha], hl, rfl, rfl⟩
  wrong ho := absurd trivial ho

theorem does_load_null (l : Blocks β) (Q : β → Blocks β → Prop) :
    Does l (Prog.load none) False Q :=
  ⟨fun ho => ho.elim, fun _ _ _ _ => rfl⟩

theorem does_store (l₁ l₂ : Blocks β) (a : Addr) (b b' : β) :
    Does (l₁ ++ (a, b) :: l₂) (Prog.store (some a) b') True fun _ l' =>
      l' = l₁ ++ (a, b') :: l₂ where
  ends _ h fr hl := by
    have hl' := hl.perm (List.perm_middle.append_right fr)
    have ha : h a = some b := hl'.get
    exact ⟨(), _, _, by simp [Prog.store, ha],
      (hl'.write b').perm (List.perm_middle.symm.append_right fr), rfl⟩
  wrong ho := absurd trivial ho

theorem does_free (l₁ l₂ : Blocks β) (a : Addr) (b : β) :
    Does (l₁ ++ (a, b) :: l₂) (Prog.free (some a)) True fun _ l' => l' = l₁ ++ l₂ where
  ends _ h fr hl := by
    have hl' := hl.perm (List.perm_middle.append_right fr)
    have ha : h a = some b := hl'.get
    exact ⟨(), _, _, by simp [Prog.free, ha], hl'.uncons, rfl⟩
  wrong ho := absurd trivial ho

theorem does_free_null (l : Blocks β) : Does l (Prog.free none) True fun _ l' => l' = l :=
  Does.pure rfl

theorem does_alloc (al : Allocator β) (l : Blocks β) (b : β) :
    Does l (Prog.alloc al b) True fun r l' =>
      (r = none ∧ ¬ al.Ample ∧ l' = l) ∨ ∃ a, r = some a ∧ l' = (a, b) :: l where
  ends _ h fr hl := by
    cases hp : al.place h b with
    | none =>
      obtain ⟨a, ha⟩ := hl.exists_free
      exact ⟨none, h, l, by simp [Prog.alloc, hp], hl, .inl ⟨rfl, fun hal => hal h b a ha hp, rfl⟩⟩
    | some a =>
      exact ⟨some a, _, _, by simp [Prog.alloc, hp], hl.cons (al.fresh h b a hp) b,
        .inr ⟨a, rfl, rfl⟩⟩
  wrong ho := absurd trivial ho

end Commands

/-! ## 5. Loops -/

/-- **A loop over things with blocks of their own**: it goes wrong where one round does,
    and else every thing has the blocks that its round left. -/
theorem Does.each {ι : Type} {f : ι → Prog β γ} {own own' : ι → Blocks β} {ok : ι → Prop}
    {g : ι → γ} (xs : List ι)
    (hf : ∀ x ∈ xs, Does (own x) (f x) (ok x) fun r l' => r = g x ∧ l' = own' x) :
    Does (xs.flatMap own) (xs.mapM f) (∀ x ∈ xs, ok x) fun r l' =>
      r = xs.map g ∧ l' = xs.flatMap own' := by
  induction xs with
  | nil => exact (Does.pure ⟨rfl, rfl⟩).sure (by simp)
  | cons x xs ih =>
    have hx := (hf x List.mem_cons_self).frame (xs.flatMap own)
    have hxs := ih fun y hy => hf y (List.mem_cons_of_mem x hy)
    rw [List.mapM_cons]
    refine (hx.bind (p := ∀ y ∈ xs, ok y) ?_).congr (by simp)
    intro r l' hq
    obtain ⟨l₁, ⟨rfl, rfl⟩, rfl⟩ := hq
    have hcomm : (xs.flatMap own ++ own' x).Perm (own' x ++ xs.flatMap own) :=
      List.perm_append_comm
    have hxs' := (hxs.frame (own' x)).perm hcomm
    refine hxs'.before ?_
    intro rs l' hq
    obtain ⟨l₂, ⟨rfl, rfl⟩, rfl⟩ := hq
    exact Does.pure_perm List.perm_append_comm ⟨rfl, rfl⟩

end IotWrap.Lib
