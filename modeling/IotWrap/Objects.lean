/-
  File:      IotWrap/Objects.lean
  Subject:   The Java objects whose callbacks the server holds, on every run of
             `Applications`.

  * `objects_reach`: the callbacks of a client are objects of its process;
  * `attached_reach`: what `connService` has registered is there;
  * `client_after`: and it stays.
-/
import IotWrap.Agreement

namespace IotWrap

open Lib

namespace Sessions

open IOTService
open Callback (Kind)
open Applications (cbOf)

/-! ## 1. What a request registers -/

/-- The request registers a callback of the client. -/
def Registers (c : ClientId) (cb : Option CbId) : Kind → Request → Prop
  | .command, r => r = .registCommandCB c cb
  | .property, r => ∃ o, cb = some o ∧ r = .registPropertyCB c o

/-- **Registrations**: a callback that a client has stays, and one that it gets was
    in the request. -/
theorem cbOf_serve (s : State) (p : ProcId) (r : Request) (kind : Kind) (c : ClientId) :
    cbOf kind ((serve s p r).service.client c) = cbOf kind (s.service.client c) ∨
      cbOf kind (s.service.client c) = none ∧
        Registers c (cbOf kind ((serve s p r).service.client c)) kind r := by
  cases r with
  | createClient name =>
    refine .inl ?_
    simp only [serve]
    split <;> rfl
  | followProperty c' key =>
    refine .inl ?_
    simp only [serve, addFollowing]
    rfl
  | followCommand c' cmd =>
    refine .inl ?_
    simp only [serve, addFollowing]
    rfl
  | registCommandCB c' cb =>
    simp only [serve, registCommandCB]
    split
    case isTrue => exact .inl rfl
    case isFalse hn =>
      by_cases hc : c = c'
      · subst hc
        cases kind with
        | command => exact .inr ⟨not_not.mp hn, by simp [Registers, cbOf, setClient]⟩
        | property => exact .inl (by simp [cbOf, setClient])
      · exact .inl (by simp [setClient, Function.update_of_ne hc])
  | registPropertyCB c' o =>
    rcases serve_registPropertyCB s p c' o with e | ⟨links, -, e⟩
    · exact .inl (by rw [e])
    · rw [e]
      simp only [setPropertyCB]
      split
      case isTrue => exact .inl rfl
      case isFalse hn =>
        by_cases hc : c = c'
        · subst hc
          cases kind with
          | command => exact .inl (by simp [cbOf, setClient])
          | property => exact .inr ⟨not_not.mp hn, o, by simp [cbOf, setClient], rfl⟩
        · exact .inl (by simp [setClient, Function.update_of_ne hc])

end Sessions

namespace Applications

open IOTService
open Callback (Kind)

/-! ## 2. Objects and their processes -/

/-- The object was made in the process. -/
def World.MadeIn (w : World) (o : ObjId) (p : ProcId) : Prop := o < w.fresh ∧ w.home o = p

/-- **Every callback is the process's own**: in its singleton, in its requests and in
    its clients. -/
structure Objects (w : World) : Prop where
  begun : ∀ p, (w.process p).pc ≠ .idle → (w.process p).constructed = true
  own : ∀ p, (w.process p).constructed = true →
    w.MadeIn (w.process p).jni.m_commandCB p ∧ w.MadeIn (w.process p).jni.m_propertyCB p
  sent : ∀ p r, (p, r) ∈ w.server.sent → ∀ c kind o, Sessions.Registers c (some o) kind r →
    w.MadeIn o p
  client : ∀ c < w.server.service.fresh, ∀ kind o, cbOf kind (w.server.service.client c) = some o →
    w.MadeIn o (w.server.owner c)

/-- A step of one process that keeps its callbacks. -/
theorem Objects.set {w : World} (h : Objects w) {p : ProcId} {P : Process}
    (hbegun : P.pc ≠ .idle → P.constructed = true)
    (hcons : P.constructed = true → (w.process p).constructed = true)
    (hcmd : P.jni.m_commandCB = (w.process p).jni.m_commandCB)
    (hprop : P.jni.m_propertyCB = (w.process p).jni.m_propertyCB) : Objects (w.set p P) := by
  refine ⟨fun q => ?_, fun q => ?_, h.sent, h.client⟩
  · show (Function.update w.process p P q).pc ≠ .idle →
      (Function.update w.process p P q).constructed = true
    by_cases hq : q = p
    · subst hq
      rw [Function.update_self]
      exact hbegun
    · rw [Function.update_of_ne hq]
      exact h.begun q
  · show (Function.update w.process p P q).constructed = true →
      w.MadeIn (Function.update w.process p P q).jni.m_commandCB q ∧
        w.MadeIn (Function.update w.process p P q).jni.m_propertyCB q
    by_cases hq : q = p
    · subst hq
      rw [Function.update_self, hcmd, hprop]
      exact fun hc => h.own q (hcons hc)
    · rw [Function.update_of_ne hq]
      exact h.own q

/-- **A new object** is its process's own, and the others are where they were. -/
theorem Objects.construct {w : World} (h : Objects w) (p : ProcId) (clientID : String8) :
    Objects (next w (.construct p clientID)) := by
  have hkeep : ∀ {o : ObjId} {q : ProcId}, w.MadeIn o q →
      (next w (.construct p clientID)).MadeIn o q := fun {o q} ho => by
    refine ⟨Nat.lt_succ_of_lt ho.1, ?_⟩
    show Function.update w.home w.fresh p o = q
    rw [Function.update_of_ne (Nat.ne_of_lt ho.1)]
    exact ho.2
  have hnew : (next w (.construct p clientID)).MadeIn w.fresh p :=
    ⟨Nat.lt_succ_self _, Function.update_self ..⟩
  refine ⟨fun q => ?_, fun q => ?_, fun q r hr c kind o ho => hkeep (h.sent q r hr c kind o ho),
    fun c hc kind o ho => hkeep (h.client c hc kind o ho)⟩
  · show (Function.update w.process p _ q).pc ≠ .idle →
      (Function.update w.process p _ q).constructed = true
    by_cases hq : q = p
    · subst hq
      rw [Function.update_self]
      exact fun _ => rfl
    · rw [Function.update_of_ne hq]
      exact h.begun q
  · show (Function.update w.process p _ q).constructed = true →
      World.MadeIn _ (Function.update w.process p _ q).jni.m_commandCB q ∧
        World.MadeIn _ (Function.update w.process p _ q).jni.m_propertyCB q
    by_cases hq : q = p
    · subst hq
      rw [Function.update_self]
      exact fun _ => ⟨hnew, hnew⟩
    · rw [Function.update_of_ne hq]
      exact fun hc => ⟨hkeep (h.own q hc).1, hkeep (h.own q hc).2⟩

/-- What a process is told keeps its callbacks. -/
theorem objects_told {w : World} (hS : Sound w) (h : Objects w) {l : Sessions.Label}
    (he : enabled w (.server l)) : Objects (told w l) := by
  cases l with
  | serve p r =>
    simp only [told]
    split
    case isTrue => exact h
    case isFalse hp =>
      have ha : (w.process p).Asks r := (hS.agree p hp).asks r he.1
      have hc := h.begun p fun hi => (w.process p).not_asks (.inl hi) r ha
      have hsame : ((w.process p).replied w.server.service.hasSlot r).constructed =
          (w.process p).constructed := by
        cases r with
        | createClient name =>
          obtain ⟨pc, e⟩ := (w.process p).replied_createClient w.server.service.hasSlot name
          rw [e]
        | _ => rfl
      exact h.set (fun _ => hsame.trans hc) (fun _ => hc) (by rw [Process.replied_jni])
        (by rw [Process.replied_jni])
  | insert p name =>
    simp only [told]
    split
    case isTrue => exact h
    case isFalse hp =>
      have hpc : (w.process p).pc = .creating := (hS.agree p hp).tested name he.1
      have hc := h.begun p (by rw [hpc]; decide)
      exact h.set (fun _ => hc) (fun _ => hc) rfl rfl
  | send p r => exact h
  | die p => exact h
  | notify c => exact h

theorem told_madeIn (w : World) (l : Sessions.Label) (o : ObjId) (p : ProcId) :
    (told w l).MadeIn o p ↔ w.MadeIn o p := by
  cases l with
  | serve q r =>
    simp only [told]
    split <;> exact Iff.rfl
  | insert q name =>
    simp only [told]
    split <;> exact Iff.rfl
  | _ => exact Iff.rfl

/-- A step of the server whose requests and clients have callbacks of their own. -/
theorem Objects.server {w : World} (h : Objects w) {s : Sessions.State}
    (hsent : ∀ p r, (p, r) ∈ s.sent → (p, r) ∈ w.server.sent ∨
      ∀ c kind o, Sessions.Registers c (some o) kind r → w.MadeIn o p)
    (hclient : ∀ c < s.service.fresh, ∀ kind o, cbOf kind (s.service.client c) = some o →
      w.MadeIn o (s.owner c)) : Objects { w with server := s } where
  begun := h.begun
  own := h.own
  sent p r hr c kind o ho := (hsent p r hr).elim (fun hr => h.sent p r hr c kind o ho)
    fun hr => hr c kind o ho
  client := hclient

theorem registers_client {c : ClientId} {cb : Option CbId} {kind : Kind} {r : Sessions.Request}
    (h : Sessions.Registers c cb kind r) : c ∈ r.client := by
  cases kind with
  | command =>
    obtain rfl := h
    exact rfl
  | property =>
    obtain ⟨o, -, rfl⟩ := h
    exact rfl

/-- The callback of a request is the one of the singleton. -/
theorem Objects.request {w : World} (h : Objects w) {p : ProcId} {r : Sessions.Request}
    (hr : (w.process p).request = some r) {c : ClientId} {kind : Kind} {o : ObjId}
    (ho : Sessions.Registers c (some o) kind r) : w.MadeIn o p := by
  have ha := Process.asks_of_request hr
  have hown := h.own p (h.begun p fun hi => (w.process p).not_asks (.inl hi) r ha)
  cases kind with
  | command =>
    obtain rfl := ho
    rw [Process.request, ha.1] at hr
    obtain ⟨c', -, he⟩ := Option.map_eq_some_iff.mp hr
    injection he with _ hcb
    exact Option.some.inj hcb ▸ hown.1
  | property =>
    obtain ⟨o', he, rfl⟩ := ho
    rw [Process.request, ha.1] at hr
    obtain ⟨c', -, he'⟩ := Option.map_eq_some_iff.mp hr
    injection he' with _ hcb
    exact (Option.some.inj he).symm ▸ hcb ▸ hown.2

theorem objects_server {w : World} (hs : Sessions.Sound w.server) (hS : Sound w) (h : Objects w)
    {l : Sessions.Label} (he : enabled w (.server l)) : Objects (next w (.server l)) := by
  refine (objects_told hS h he).server ?_ ?_
  · intro p r hr
    simp only [told_madeIn, told_server]
    cases l with
    | send q r' =>
      rcases List.mem_append.mp hr with hr | hr
      · exact .inl hr
      · obtain ⟨rfl, rfl⟩ := Prod.mk.injEq .. ▸ List.mem_singleton.mp hr
        exact .inr fun c kind o ho => h.request he.2.1 ho
    | serve q r' =>
      have hf := Sessions.serve_frame { w.server with sent := w.server.sent.erase (q, r') } q r'
      rw [show (Sessions.next w.server (.serve q r')).sent = w.server.sent.erase (q, r') from
        hf.sent] at hr
      exact .inl (List.mem_of_mem_erase hr)
    | insert q name => exact .inl hr
    | die q => exact .inl hr
    | notify c => exact .inl hr
  · intro c hc kind o ho
    rw [told_madeIn]
    cases l with
    | serve q r =>
      have hf := Sessions.serve_frame { w.server with sent := w.server.sent.erase (q, r) } q r
      rw [show (Sessions.next w.server (.serve q r)).owner = w.server.owner from hf.owner]
      rw [show (Sessions.next w.server (.serve q r)).service.fresh = w.server.service.fresh from
        hf.fresh] at hc
      change cbOf kind ((Sessions.serve { w.server with sent := w.server.sent.erase (q, r) } q
        r).service.client c) = some o at ho
      rcases Sessions.cbOf_serve { w.server with sent := w.server.sent.erase (q, r) } q r kind c with
        e | ⟨-, hreg⟩
      · exact h.client c hc kind o (e ▸ ho)
      · rw [ho] at hreg
        rw [(hs.sent _ he.1 c (registers_client hreg)).2]
        exact h.sent q r he.1 c kind o hreg
    | insert q name =>
      replace hc : c < w.server.service.fresh + 1 := hc
      change cbOf kind (Function.update w.server.service.client w.server.service.fresh
        ⟨cstr name, none, none⟩ c) = some o at ho
      show w.MadeIn o (Function.update w.server.owner w.server.service.fresh q c)
      by_cases hcf : c = w.server.service.fresh
      · rw [hcf, Function.update_self] at ho
        cases kind <;> cases ho
      · rw [Function.update_of_ne hcf] at ho ⊢
        exact h.client c ((Nat.lt_succ_iff_lt_or_eq.mp hc).resolve_right hcf) kind o ho
    | notify c' =>
      have e := Sessions.removeClient_eq w.server.service c'
      simp only [Sessions.next, Sessions.binderDied, e] at hc ho ⊢
      exact h.client c hc kind o ho
    | send q r => exact h.client c hc kind o ho
    | die q => exact h.client c hc kind o ho

theorem objects_reach {C : World → Label → Prop} {w : World} (h : machine.Reach C w) :
    Objects w := by
  refine h.inv_of (I := Objects) (J := fun w => Sessions.Sound w.server ∧ Sound w)
    (fun w hw => ⟨Sessions.sound_reach (server_reach hw), sound_reach hw⟩) ?_ ?_
  · intro w h0
    obtain rfl : w = World.init := h0
    exact ⟨fun _ hp => absurd rfl hp, fun _ hc => (nomatch hc), fun _ _ hr => absurd hr List.not_mem_nil,
      fun c hc => absurd hc (Nat.not_lt_zero c)⟩
  · intro w l hJ hI _ he
    cases l with
    | construct p clientID => exact hI.construct p clientID
    | followProperty p jkey type size =>
      obtain ⟨l, hl⟩ := followProperty_list (w.process p).jni jkey type size
      exact hI.set (fun _ => he.2.1) (fun _ => he.2.1) (by simp only [Process.followProperty, hl])
        (by simp only [Process.followProperty, hl])
    | followCommand p jcmd =>
      obtain ⟨l, hl⟩ := followCommand_list (w.process p).jni jcmd
      exact hI.set (fun _ => he.2.1) (fun _ => he.2.1) (by simp only [Process.followCommand, hl])
        (by simp only [Process.followCommand, hl])
    | connService p => exact hI.set (fun _ => he.2.1) (fun _ => he.2.1) rfl rfl
    | proceed p =>
      have hnot : (w.process p).pc ≠ .idle := fun hi => by
        have hp := he.2
        rw [Process.Proceeds, hi] at hp
        exact hp
      have hc := hI.begun p hnot
      obtain ⟨pc, e, -⟩ := Process.proceed_cases he.2
      show Objects (w.set p (w.process p).proceed)
      rw [e]
      exact hI.set (fun _ => hc) (fun _ => hc) rfl rfl
    | collect o => exact ⟨hI.begun, hI.own, hI.sent, hI.client⟩
    | server l => exact objects_server hJ.1 hJ.2 hI he

/-! ## 3. Registrations -/

/-- The callback of a registration is there after it. -/
theorem registered_serve {s : Sessions.State} {p : ProcId} {r : Sessions.Request} {c : ClientId}
    {o : CbId} {kind : Kind} (h : Sessions.Registers c (some o) kind r) :
    cbOf kind ((Sessions.serve s p r).service.client c) ≠ none := by
  cases kind with
  | command =>
    obtain rfl := h
    simp only [Sessions.serve, registCommandCB]
    split
    case isTrue hn => exact hn
    case isFalse => simp [cbOf, setClient]
  | property =>
    obtain ⟨o', -, rfl⟩ := h
    simp only [Sessions.serve]
    split
    case isTrue hn => exact hn
    case isFalse hn =>
      have hlink : ∀ s' : Sessions.State, (Sessions.linkToDeath s' p c).service = s'.service :=
        fun s' => by unfold Sessions.linkToDeath; split <;> rfl
      rw [hlink, setPropertyCB, if_neg hn]
      simp [cbOf, setClient]

/-- A callback that a client has stays, on every run. -/
theorem cbOf_next {s : Sessions.State} {l : Sessions.Label} {c : ClientId}
    (hc : c < s.service.fresh) {kind : Kind} {o : CbId}
    (h : cbOf kind (s.service.client c) = some o) :
    c < (Sessions.next s l).service.fresh ∧
      cbOf kind ((Sessions.next s l).service.client c) = some o ∧
      (Sessions.next s l).owner c = s.owner c := by
  cases l with
  | serve p r =>
    have hf := Sessions.serve_frame { s with sent := s.sent.erase (p, r) } p r
    refine ⟨?_, ?_, congrFun hf.owner c⟩
    · rw [show (Sessions.next s (.serve p r)).service.fresh = s.service.fresh from hf.fresh]
      exact hc
    · rcases Sessions.cbOf_serve { s with sent := s.sent.erase (p, r) } p r kind c with e | ⟨hn, -⟩
      · exact e.trans h
      · exact absurd (hn.symm.trans h) nofun
  | insert p name =>
    refine ⟨Nat.lt_succ_of_lt hc, ?_, Function.update_of_ne (Nat.ne_of_lt hc) ..⟩
    show cbOf kind (Function.update s.service.client s.service.fresh _ c) = _
    rw [Function.update_of_ne (Nat.ne_of_lt hc)]
    exact h
  | notify c' =>
    have e := Sessions.removeClient_eq s.service c'
    simp only [Sessions.next, Sessions.binderDied, e]
    exact ⟨hc, h, trivial⟩
  | send p r => exact ⟨hc, h, rfl⟩
  | die p => exact ⟨hc, h, rfl⟩

/-- **What is behind the process is done**: the server has the callback. -/
def Attached (w : World) (p : ProcId) : Prop :=
  ∀ c, (w.process p).jni.m_proxy = some c → ∀ kind, Past kind (w.process p).pc →
    cbOf kind (w.server.service.client c) ≠ none

/-- The callbacks stay, so it is enough to look at the process. -/
theorem Attached.server {w : World} {p : ProcId} (h : Attached w p)
    (hA : Agree w.server p (w.process p)) {l : Sessions.Label}
    (hproc : ∀ c, ((told w l).process p).jni.m_proxy = some c →
      ∀ kind, Past kind ((told w l).process p).pc →
        (w.process p).jni.m_proxy = some c ∧ Past kind (w.process p).pc ∨
          cbOf kind ((Sessions.next w.server l).service.client c) ≠ none) :
    Attached (next w (.server l)) p := by
  intro c hc kind hpast
  rcases hproc c hc kind hpast with ⟨hc, hpast⟩ | hnew
  · obtain ⟨o, ho⟩ := Option.ne_none_iff_exists'.mp (h c hc kind hpast)
    have hnext := (cbOf_next (l := l) (hA.proxy c hc).1 ho).2.1
    exact fun hn => absurd (hn.symm.trans hnext) nofun
  · exact hnew

theorem attached_server {w : World} (hS : Sound w) {p : ProcId}
    (h : p ∉ w.server.dead → Attached w p) {l : Sessions.Label} (he : enabled w (.server l))
    (hp : p ∉ (Sessions.next w.server l).dead) : Attached (next w (.server l)) p := by
  cases l with
  | send q r => exact (h hp).server (hS.agree p hp) fun c hc kind hx => .inl ⟨hc, hx⟩
  | serve q r =>
    have hf := Sessions.serve_frame { w.server with sent := w.server.sent.erase (q, r) } q r
    have hlive : p ∉ w.server.dead :=
      (show (Sessions.next w.server (.serve q r)).dead = w.server.dead from hf.dead) ▸ hp
    have hA := hS.agree p hlive
    refine (h hlive).server hA fun c hc kind hpast => ?_
    simp only [told_process] at hc hpast
    split at hc
    case isFalse hne =>
      rw [if_neg hne] at hpast
      exact .inl ⟨hc, hpast⟩
    case isTrue heq =>
      rw [if_pos heq] at hpast
      obtain ⟨rfl, -⟩ := heq
      rw [Process.replied_jni] at hc
      have ha := hA.asks r he.1
      cases r with
      | createClient name => exact absurd ha (hA.proxy c hc).2.2.2
      | followProperty c' key => exact .inl ⟨hc, hpast⟩
      | followCommand c' cmd => exact .inl ⟨hc, hpast⟩
      | registCommandCB c' cb =>
        obtain ⟨-, hc', hcb⟩ := ha
        obtain rfl : c' = c := Option.some.inj (hc'.symm.trans hc)
        obtain ⟨o, rfl⟩ := Option.isSome_iff_exists.mp hcb
        have hreg : Sessions.Registers c' (some o) .command (.registCommandCB c' (some o)) := rfl
        cases kind with
        | command => exact .inr (registered_serve hreg)
        | property => exact hpast.elim
      | registPropertyCB c' o =>
        obtain ⟨hpc, hc'⟩ := ha
        obtain rfl : c' = c := Option.some.inj (hc'.symm.trans hc)
        have hreg : Sessions.Registers c' (some o) .property (.registPropertyCB c' o) := ⟨o, rfl, rfl⟩
        cases kind with
        | command => exact .inl ⟨hc, hpc ▸ trivial⟩
        | property => exact .inr (registered_serve hreg)
  | insert q name =>
    have hA := hS.agree p hp
    refine (h hp).server hA fun c hc kind hpast => ?_
    simp only [told_process] at hc hpast
    split at hc
    case isFalse hne =>
      rw [if_neg hne] at hpast
      exact .inl ⟨hc, hpast⟩
    case isTrue heq =>
      rw [if_pos heq] at hpast
      cases kind <;> exact hpast.elim
  | die q =>
    have hlive : p ∉ w.server.dead := fun hd => hp (List.mem_cons_of_mem q hd)
    exact (h hlive).server (hS.agree p hlive) fun c hc kind hx => .inl ⟨hc, hx⟩
  | notify c' => exact (h hp).server (hS.agree p hp) fun c hc kind hx => .inl ⟨hc, hx⟩

theorem attached_reach {C : World → Label → Prop} {w : World} (h : machine.Reach C w) :
    ∀ p ∉ w.server.dead, Attached w p := by
  refine h.inv_of (I := fun w => ∀ p ∉ w.server.dead, Attached w p) (J := Sound)
    (fun w hw => sound_reach hw) ?_ ?_
  · intro w h0
    obtain rfl : w = World.init := h0
    exact fun p _ c hc => (nomatch hc)
  · intro w l hS hI _ he
    -- a step of one process that leaves its place, or leads to one before the registrations
    have hset : ∀ {q : ProcId} {P : Process},
        (∀ c, P.jni.m_proxy = some c → ∀ kind, Past kind P.pc →
          (w.process q).jni.m_proxy = some c ∧ Past kind (w.process q).pc) →
        ∀ p ∉ w.server.dead, Attached (w.set q P) p := by
      intro q P hP p hp c hc kind hpast
      replace hc : (Function.update w.process q P p).jni.m_proxy = some c := hc
      replace hpast : Past kind (Function.update w.process q P p).pc := hpast
      by_cases hpq : p = q
      · subst hpq
        rw [Function.update_self] at hc hpast
        exact hI p hp c (hP c hc kind hpast).1 kind (hP c hc kind hpast).2
      · rw [Function.update_of_ne hpq] at hc hpast
        exact hI p hp c hc kind hpast
    cases l with
    | construct p clientID =>
      exact hset (P := (w.process p).construct clientID w.fresh) fun c hc kind hx => ⟨hc, hx⟩
    | followProperty p jkey type size =>
      obtain ⟨l, hl⟩ := followProperty_list (w.process p).jni jkey type size
      refine hset fun c hc kind hx => ⟨?_, hx⟩
      simpa only [Process.followProperty, hl] using hc
    | followCommand p jcmd =>
      obtain ⟨l, hl⟩ := followCommand_list (w.process p).jni jcmd
      refine hset fun c hc kind hx => ⟨?_, hx⟩
      simpa only [Process.followCommand, hl] using hc
    | connService p => exact hset fun c hc kind hx => by cases kind <;> exact hx.elim
    | proceed p =>
      obtain ⟨pc, e, hnot⟩ := Process.proceed_cases he.2
      refine hset fun c hc kind hx => absurd hx ?_
      rw [e]
      exact hnot kind
    | collect o => exact hI
    | server l => exact fun p hp => attached_server hS (hI p) he hp

/-- A client that was registered for a process is there on the rest of the run. -/
theorem client_after {w w' : World} (hr : (machine.after w).Reachable w') {c : ClientId}
    (hc : c < w.server.service.fresh) {kind : Kind} {o : CbId}
    (ho : cbOf kind (w.server.service.client c) = some o) :
    c < w'.server.service.fresh ∧ cbOf kind (w'.server.service.client c) = some o ∧
      w'.server.owner c = w.server.owner c := by
  refine hr.inv (I := fun v => c < v.server.service.fresh ∧
    cbOf kind (v.server.service.client c) = some o ∧ v.server.owner c = w.server.owner c) ?_ ?_
  · intro v h0
    obtain rfl : v = w := h0
    exact ⟨hc, ho, rfl⟩
  · intro v l hv _ _
    cases l with
    | server l =>
      obtain ⟨hlt, hcb, howner⟩ := cbOf_next (l := l) hv.1 hv.2.1
      exact ⟨hlt, hcb, howner.trans hv.2.2⟩
    | _ => exact hv

end Applications

end IotWrap
