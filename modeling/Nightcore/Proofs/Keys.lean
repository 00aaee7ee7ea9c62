import Nightcore.Gateway.Run
import Mathlib.Data.List.Perm.Subperm

/-! Call ids. `next_call_id_` starts at 1 and every arrival takes the next value, so
context `c` carries call id `c + 1` and the ids stay distinct while at most `2^32`
contexts have been built. Under that bound the key that admission or promotion writes
into `running_external_func_calls_` is never there already: a context is, at any time,
at most once in `pending_external_func_calls_` or in a piece of the admission and
dispatch path (its token), and a context holding a token is not in the running table
before it is inserted. -/

namespace Nightcore.Gateway

theorem uint32_toNat_ofNat (n : Nat) : (UInt32.ofNat n).toNat = n % 4294967296 := by
  simp [UInt32.ofNat, UInt32.toNat]

theorem uint32_ofNat_succ (n : Nat) : UInt32.ofNat n + 1 = UInt32.ofNat (n + 1) := by
  apply UInt32.toNat.inj
  simp [UInt32.ofNat, UInt32.toNat, UInt32.add_def, Nat.add_mod]

theorem filterMap_subperm {α β : Type} (f : α → Option β) {l₁ l₂ : List α}
    (h : List.Subperm l₁ l₂) : List.Subperm (l₁.filterMap f) (l₂.filterMap f) :=
  let ⟨l, hp, hs⟩ := h
  ⟨l.filterMap f, hp.filterMap f, hs.filterMap f⟩

theorem nodup_of_subperm {α : Type} {l₁ l₂ : List α} (h : List.Subperm l₁ l₂) (hn : l₂.Nodup) :
    l₁.Nodup :=
  let ⟨_, hp, hs⟩ := h
  hp.nodup_iff.1 (hn.sublist hs)

theorem filterMap_none {α β : Type} (l : List α) : l.filterMap (fun _ => (none : Option β)) = [] :=
  List.filterMap_eq_nil_iff.2 fun _ _ => rfl

/-- The context a piece of the admission and dispatch path works on. -/
def Instr.pipelineCtx : Instr → Option Nat
  | .newExternalFuncCall c | .dispatch c | .dispatchLocked c | .dispatchTail c _ | .erase c => some c
  | _ => none

namespace Server

/-- The tokens: the pending queue and the contexts of the admission and dispatch pieces
still to run. -/
def tokens (s : Server) (tasks : List Instr) : List Nat :=
  s.pending ++ tasks.filterMap Instr.pipelineCtx

/-- Context `c` carries client id 0 and call id `c + 1`, and `next_call_id_` is the id
the next context gets. -/
def IdsOk (s : Server) : Prop :=
  s.nextCallId = UInt32.ofNat (s.contexts.length + 1) ∧
  ∀ c < s.contexts.length, (s.callOf c).clientId = 0 ∧ (s.callOf c).callId = UInt32.ofNat (c + 1)

theorem IdsOk.callOf_inj {s : Server} (h : s.IdsOk) (hL : s.contexts.length ≤ 4294967296)
    {c d : Nat} (hc : c < s.contexts.length) (hd : d < s.contexts.length)
    (he : s.callOf c = s.callOf d) : c = d := by
  have := congrArg (fun fc => fc.callId.toNat) he
  simp only [(h.2 c hc).2, (h.2 d hd).2, uint32_toNat_ofNat] at this
  omega

theorem construct_ctx_lt (s : Server) (sink f m body) {c : Nat} (hc : c < s.contexts.length) :
    (s.construct sink f m body).ctx c = s.ctx c := by
  simp only [ctx, List.getD_eq_getElem?_getD, construct_contexts, List.getElem?_append_left hc]

theorem construct_callOf_lt (s : Server) (sink f m body) {c : Nat} (hc : c < s.contexts.length) :
    (s.construct sink f m body).callOf c = s.callOf c :=
  congrArg Ctx.call (construct_ctx_lt s sink f m body hc)

theorem construct_callOf_length (s : Server) (sink f m body) :
    (s.construct sink f m body).callOf s.contexts.length = newFuncCallWithMethod f m 0 s.nextCallId := by
  simp [callOf, ctx, List.getD_eq_getElem?_getD]

theorem IdsOk.construct {s : Server} (h : s.IdsOk) (sink f m body) :
    (s.construct sink f m body).IdsOk := by
  refine ⟨by simp [h.1, uint32_ofNat_succ], fun c hc => ?_⟩
  simp only [construct_contexts, List.length_append, List.length_singleton] at hc
  rcases Nat.lt_succ_iff_lt_or_eq.1 hc with hc | rfl
  · rw [construct_callOf_lt _ _ _ _ _ hc]; exact h.2 c hc
  · rw [construct_callOf_length, h.1]; exact ⟨rfl, rfl⟩

theorem idsOk_init : Server.init.IdsOk := ⟨rfl, fun _ h => absurd h (Nat.not_lt_zero _)⟩

end Server

open Server

/-- What keeps the running table's keys apart: ids as `next_call_id_` hands them out,
every entry under its own context's key, each token held once, and a token's context
absent from the table. -/
structure KeyInv (s : Server) (tasks : List Instr) : Prop where
  ids : s.IdsOk
  running_key : ∀ k c, s.running.lookup k = some c → s.callOf c = k ∧ c < s.contexts.length
  tokens_nodup : (s.tokens tasks).Nodup
  tokens_lt : ∀ c ∈ s.tokens tasks, c < s.contexts.length
  fresh_absent : ∀ c, Instr.newExternalFuncCall c ∈ tasks ∨ c ∈ s.pending →
    s.running.lookup (s.callOf c) = none

namespace KeyInv

variable {s t : Server} {tasks : List Instr}

theorem congr (h : KeyInv s tasks) (h1 : t.nextCallId = s.nextCallId) (h2 : t.contexts = s.contexts)
    (h3 : t.running = s.running) (h4 : t.pending = s.pending) : KeyInv t tasks := by
  have hc : t.callOf = s.callOf := funext fun c => by simp [callOf, ctx, h2]
  obtain ⟨⟨i1, i2⟩, r, n, l, f⟩ := h
  exact ⟨⟨by rw [h1, h2, i1], by rw [hc, h2]; exact i2⟩, by rw [hc, h2, h3]; exact r,
    by rw [tokens, h4]; exact n, by rw [tokens, h4, h2]; exact l, by rw [hc, h3, h4]; exact f⟩

theorem mono {tasks' : List Instr} (h : KeyInv s tasks)
    (htok : List.Subperm (s.tokens tasks') (s.tokens tasks))
    (hnew : ∀ c, Instr.newExternalFuncCall c ∈ tasks' → Instr.newExternalFuncCall c ∈ tasks) :
    KeyInv s tasks' :=
  ⟨h.ids, h.running_key, nodup_of_subperm htok h.tokens_nodup,
    fun c hc => h.tokens_lt c (htok.subset hc),
    fun c hc => h.fresh_absent c (hc.imp_left (hnew c))⟩

theorem subperm {tasks' : List Instr} (h : KeyInv s tasks) (ht : List.Subperm tasks' tasks) :
    KeyInv s tasks' :=
  h.mono ((List.subperm_append_left _).2 (filterMap_subperm _ ht)) fun _ hc => ht.subset hc

theorem erase (h : KeyInv s tasks) (k : FuncCall) :
    KeyInv { s with running := s.running.erase k } tasks := by
  refine ⟨h.ids, fun k' c hk => h.running_key k' c ?_, h.tokens_nodup, h.tokens_lt,
    fun c hc => ?_⟩
  · by_cases hkk : k' = k
    · rw [hkk, AList.lookup_erase] at hk; cases hk
    · rwa [AList.lookup_erase_ne hkk] at hk
  · show (s.running.erase k).lookup (s.callOf c) = none
    by_cases hkk : s.callOf c = k
    · rw [hkk, AList.lookup_erase]
    · rw [AList.lookup_erase_ne hkk]; exact h.fresh_absent c hc

theorem mem_tokens {c : Nat} (hc : Instr.newExternalFuncCall c ∈ tasks ∨ c ∈ s.pending) :
    c ∈ s.tokens tasks := by
  rcases hc with hc | hc
  · exact List.mem_append_right _ (List.mem_filterMap.2 ⟨_, hc, rfl⟩)
  · exact List.mem_append_left _ hc

theorem insert {c : Nat} {q : List Nat} {tasks' : List Instr} (h : KeyInv s tasks)
    (hL : s.contexts.length ≤ 4294967296) (hc : c ∈ s.tokens tasks)
    (htok : List.Perm ({ s with running := s.running.insert (s.callOf c) c, pending := q }.tokens tasks')
      (s.tokens tasks))
    (hfresh : ∀ d, Instr.newExternalFuncCall d ∈ tasks' ∨ d ∈ q →
      (Instr.newExternalFuncCall d ∈ tasks ∨ d ∈ s.pending) ∧ d ≠ c) :
    KeyInv { s with running := s.running.insert (s.callOf c) c, pending := q } tasks' := by
  have hcL := h.tokens_lt c hc
  refine ⟨h.ids, fun k d hk => ?_, htok.nodup_iff.2 h.tokens_nodup,
    fun d hd => h.tokens_lt d (htok.subset hd), fun d hd => ?_⟩
  · show s.callOf d = k ∧ d < s.contexts.length
    by_cases hkc : k = s.callOf c
    · rw [hkc, AList.lookup_insert] at hk
      cases hk
      exact ⟨hkc.symm, hcL⟩
    · rw [AList.lookup_insert_ne hkc] at hk
      exact h.running_key k d hk
  · obtain ⟨hd, hne⟩ := hfresh d hd
    show (s.running.insert (s.callOf c) c).lookup (s.callOf d) = none
    rw [AList.lookup_insert_ne fun he => hne (h.ids.callOf_inj hL (h.tokens_lt d (mem_tokens hd)) hcL he)]
    exact h.fresh_absent d hd

theorem admission {c : Nat} (h : KeyInv s (.newExternalFuncCall c :: tasks))
    (hL : s.contexts.length ≤ 4294967296) :
    KeyInv (s.putRunning (s.callOf c) c) (.dispatch c :: tasks) := by
  have hn := h.tokens_nodup
  simp only [tokens, List.filterMap_cons, Instr.pipelineCtx, List.nodup_append, List.nodup_cons,
    List.disjoint_cons_right] at hn
  refine (h.insert (q := s.pending) hL (mem_tokens (.inl (List.mem_cons_self _ _)))
    (by simp [tokens, Instr.pipelineCtx, List.Subperm.refl]) fun d hd => ?_).congr (by simp) (by simp) (by simp) (by simp)
  rcases hd with hd | hd
  · have hd : Instr.newExternalFuncCall d ∈ tasks := by simpa using hd
    exact ⟨.inl (List.mem_cons_of_mem _ hd), fun he => hn.2.1.1 (he ▸ List.mem_filterMap.2 ⟨_, hd, rfl⟩)⟩
  · exact ⟨.inr hd, fun he => hn.2.2.1 (he ▸ hd)⟩

theorem queue {c : Nat} (h : KeyInv s (.newExternalFuncCall c :: tasks)) :
    KeyInv { s with pending := s.pending ++ [c] } tasks := by
  have ht : { s with pending := s.pending ++ [c] }.tokens tasks = s.tokens (.newExternalFuncCall c :: tasks) := by
    simp [tokens, Instr.pipelineCtx, List.Subperm.refl]
  refine ⟨h.ids, h.running_key, ht ▸ h.tokens_nodup, ht ▸ h.tokens_lt, fun d hd => h.fresh_absent d ?_⟩
  rcases hd with hd | hd
  · exact .inl (List.mem_cons_of_mem _ hd)
  · rcases List.mem_append.1 hd with hd | hd
    · exact .inr hd
    · exact .inl (by simp at hd; simp [hd])

theorem pop {p : Nat} {rest : List Nat} (h : KeyInv s tasks) (hL : s.contexts.length ≤ 4294967296)
    (hp : s.pending = p :: rest) : KeyInv (popPending s).1 (.dispatch p :: tasks) := by
  have hn := h.tokens_nodup
  rw [tokens, hp, List.cons_append, List.nodup_cons] at hn
  simp only [List.mem_append, not_or] at hn
  have hpop : (popPending s).1 = { s with pending := rest }.putRunning (s.callOf p) p := by
    simp only [popPending, hp]
  rw [hpop]
  refine (h.insert (q := rest) hL (mem_tokens (.inr (hp ▸ List.mem_cons_self _ _)))
    (by simp [tokens, hp, Instr.pipelineCtx]) fun d hd => ?_).congr
    (by simp) (by simp) (by simp) (by simp)
  rcases hd with hd | hd
  · have hd : Instr.newExternalFuncCall d ∈ tasks := by simpa using hd
    exact ⟨.inl hd, fun he => hn.1.2 (he ▸ List.mem_filterMap.2 ⟨_, hd, rfl⟩)⟩
  · exact ⟨.inr (hp ▸ List.mem_cons_of_mem _ hd), fun he => hn.1.1 (he ▸ hd)⟩

theorem takeDiscarded (h : KeyInv s tasks) (l : List FuncCall) :
    KeyInv (takeDiscarded s l).1 tasks := by
  induction l generalizing s with
  | nil => exact h
  | cons fc rest ih =>
    simp only [Server.takeDiscarded]
    split_ifs
    · split
      · exact ih (h.erase fc)
      · exact ih h
    · exact ih h

theorem promote (cfg : Config) (q : List Nat) (h : KeyInv s tasks)
    (hL : s.contexts.length ≤ 4294967296) (hq : s.pending = q) :
    KeyInv (promote cfg s q).1 ((promote cfg s q).2.map .dispatch ++ tasks) := by
  induction q generalizing s tasks with
  | nil => exact h
  | cons p rest ih =>
    simp only [Server.promote]
    split_ifs
    · have h1 := h.pop hL hq
      simp only [popPending, hq] at h1
      exact (ih h1 (by simpa using hL) (by simp)).subperm (by simpa using List.perm_middle.symm.subperm)
    · exact h

theorem tail {x : Instr} (h : KeyInv s (x :: tasks)) : KeyInv s tasks :=
  h.subperm (List.sublist_cons_self _ _).subperm

theorem free {next : List Instr} (h : KeyInv s tasks) (h1 : t.nextCallId = s.nextCallId)
    (h2 : t.contexts = s.contexts) (h3 : t.running = s.running) (h4 : t.pending = s.pending)
    (hm : ∀ x ∈ next, x.pipelineCtx = none) : KeyInv t (next ++ tasks) := by
  have hf : next.filterMap Instr.pipelineCtx = [] := List.filterMap_eq_nil_iff.2 hm
  refine (h.congr h1 h2 h3 h4).mono (by simp only [tokens, List.filterMap_append, hf, List.nil_append]; exact .refl _)
    fun c hc => ?_
  rcases List.mem_append.1 hc with hc | hc
  · simpa [Instr.pipelineCtx] using hm _ hc
  · exact hc

theorem recvLocked (cfg : Config) (h : KeyInv s tasks) (hL : s.contexts.length ≤ 4294967296)
    (m : Message) :
    KeyInv (recvLocked cfg s m).srv ((recvLocked cfg s m).promoted.toList.map .dispatch ++ tasks) := by
  simp only [Server.recvLocked, getOrCreateDispatcherLocked_fst]
  refine KeyInv.congr (s := (recvTake cfg s m.funcCall).1) ?_ rfl rfl rfl rfl
  unfold recvTake
  split
  · dsimp only
    split_ifs with hc
    · obtain ⟨p, rest, hp⟩ := List.exists_cons_of_ne_nil hc.1
      simpa [popPending, hp] using (h.erase m.funcCall).pop hL hp
    · exact h.erase m.funcCall
  · exact h

theorem sweepLocked (cfg : Config) (h : KeyInv s tasks) (hL : s.contexts.length ≤ 4294967296) :
    KeyInv (sweepLocked cfg s).srv ((sweepLocked cfg s).promoted.map .dispatch ++ tasks) :=
  promote cfg _ ((h.takeDiscarded s.discarded).congr rfl rfl rfl rfl) (by simpa using hL) rfl

theorem construct (h : KeyInv s tasks) (sink : Sink) (f m : UInt16) (body : List UInt8)
    (hL : s.contexts.length + 1 ≤ 4294967296) :
    KeyInv (s.construct sink f m body) (tasks ++ [.newExternalFuncCall s.contexts.length]) := by
  have hL' : (s.construct sink f m body).contexts.length ≤ 4294967296 := by simpa using hL
  have hcall : ∀ {c}, c < s.contexts.length → (s.construct sink f m body).callOf c = s.callOf c :=
    construct_callOf_lt s sink f m body
  have ht : (s.construct sink f m body).tokens (tasks ++ [.newExternalFuncCall s.contexts.length]) =
      s.tokens tasks ++ [s.contexts.length] := by
    simp [tokens, Instr.pipelineCtx]
  refine ⟨h.ids.construct sink f m body, fun k c hk => ?_, ?_, ?_, fun c hc => ?_⟩
  · obtain ⟨hk, hc⟩ := h.running_key k c hk
    exact ⟨(hcall hc).trans hk, by simp; omega⟩
  · rw [ht]
    exact h.tokens_nodup.append (List.nodup_singleton _)
      (List.disjoint_singleton.2 fun hm => Nat.lt_irrefl _ (h.tokens_lt _ hm))
  · rw [ht]
    intro c hc
    rcases List.mem_append.1 hc with hc | hc
    · have := h.tokens_lt c hc; simp; omega
    · simp at hc; simp [hc]
  · by_cases hcl : c < s.contexts.length
    · rw [hcall hcl]
      refine h.fresh_absent c (hc.imp_left fun hm => ?_)
      rcases List.mem_append.1 hm with hm | hm
      · exact hm
      · simp at hm; omega
    · have hcs : c = s.contexts.length := by
        rcases hc with hc | hc
        · rcases List.mem_append.1 hc with hm | hm
          · exact absurd (h.tokens_lt c (mem_tokens (.inl hm))) hcl
          · simpa using hm
        · exact absurd (h.tokens_lt c (mem_tokens (.inr hc))) hcl
      subst hcs
      cases hk : s.running.lookup ((s.construct sink f m body).callOf s.contexts.length) with
      | none => exact hk
      | some e =>
        obtain ⟨he, heL⟩ := h.running_key _ e hk
        have := (h.ids.construct sink f m body).callOf_inj hL' (by simp; omega) (by simp)
          ((hcall heL).trans he)
        omega

end KeyInv

theorem keyInv_init : KeyInv Server.init [] :=
  ⟨idsOk_init, fun _ _ hk => by simp [Server.init] at hk, by simp [tokens, Server.init],
    by simp [tokens, Server.init], fun _ hc => by simp [Server.init] at hc⟩

theorem keyInv_exec (cfg : Config) (ok : Bool) {s : Server} {ins : Instr} {tasks : List Instr}
    (h : KeyInv s (ins :: tasks)) (hL : s.contexts.length ≤ 4294967296) :
    KeyInv (exec cfg ok s ins).1 ((exec cfg ok s ins).2 ++ tasks) := by
  cases ins with
  | newExternalFuncCall c =>
    by_cases hr : s.HasRoom cfg
    · simp only [exec, newExternalFuncCallLocked, hr, ↓reduceIte, List.singleton_append]
      exact h.admission hL
    · simp only [exec, newExternalFuncCallLocked, hr, ↓reduceIte, Bool.false_eq_true, List.nil_append]
      exact h.queue
  | dispatch c =>
    refine (h.congr (t := (dispatchStart cfg ok s c).1) (by simp) (by simp) (by simp) (by simp)).mono
      ?_ ?_ <;> simp only [exec] <;> split <;> simp [tokens, Instr.pipelineCtx, List.Subperm.refl]
  | dispatchLocked c =>
    refine (h.congr (t := (dispatchLocked cfg s c).1) (by simp) (by simp) (by simp) (by simp)).mono
      ?_ ?_ <;> simp [exec, tokens, Instr.pipelineCtx, List.Subperm.refl]
  | dispatchTail c found =>
    simp only [exec]
    split
    · exact h.tail.free (by simp) (by simp) (by simp) (by simp) (by simp)
    · exact (h.congr (by simp) (by simp) (by simp) (by simp)).mono
        (by simp [tokens, Instr.pipelineCtx, List.Subperm.refl]) (by simp)
  | erase c =>
    exact (h.tail.erase (s.callOf c)).congr (by simp) (by simp) (by simp [exec]) (by simp [exec])
  | recv m =>
    simp only [exec]
    split
    · exact h.tail.free (by simp) (by simp) (by simp) (by simp) (by simp [Instr.pipelineCtx])
    iterate 2
      · refine (h.tail.recvLocked cfg hL m).mono ?_ ?_ <;>
          simp [tokens, Instr.pipelineCtx, List.filterMap_map, Function.comp_def, filterMap_none,
            List.Subperm.refl]
    · exact h.tail.free rfl rfl rfl rfl (by simp [Instr.pipelineCtx])
  | recvTail m c found =>
    simp only [exec]
    exact h.tail.free (by simp) (by simp) (by simp) (by simp) (by simp)
  | invokeTail m found =>
    simp only [exec]
    exact h.tail.free (by simp) (by simp) (by simp) (by simp) (by simp)
  | destroy c =>
    simp only [exec]
    exact h.tail.free (by simp) (by simp) (by simp) (by simp) (by simp)
  | sweep =>
    refine (h.tail.sweepLocked cfg hL).mono ?_ ?_ <;>
      simp [exec, tokens, Instr.pipelineCtx, List.filterMap_map, Function.comp_def, filterMap_none,
        List.Subperm.refl]
  | finishDiscarded c =>
    simp only [exec]
    exact h.tail.free (by simp) (by simp) (by simp) (by simp) (by simp)
  | notify fc =>
    simp only [exec]
    exact h.tail.free rfl rfl rfl rfl (by simp)
  | discard fc =>
    simp only [exec]
    exact h.tail.free rfl rfl rfl rfl (by simp)

theorem keyInv_spawn (cfg : Config) {s : Server} {tasks : List Instr} (h : KeyInv s tasks)
    (e : Event) (hL : (spawn cfg s e).1.contexts.length ≤ 4294967296) :
    KeyInv (spawn cfg s e).1 (tasks ++ (spawn cfg s e).2) := by
  cases e with
  | httpCall f body => exact h.construct .http f 0 body (by simpa [spawn] using hL)
  | grpcCall f mth body => exact h.construct .grpc f mth body (by simpa [spawn] using hL)
  | message m => exact h.mono (by simp [spawn, tokens, Instr.pipelineCtx, List.Subperm.refl]) (by simp [spawn])
  | handshake m =>
    exact h.mono (by simp only [spawn]; split <;> simp [tokens, Instr.pipelineCtx, List.Subperm.refl])
      (by simp only [spawn]; split <;> simp)
  | connectionClose fcs =>
    exact h.mono (by simp [spawn, tokens, Instr.pipelineCtx, List.filterMap_map, Function.comp_def,
      filterMap_none, List.Subperm.refl]) (by simp [spawn])

theorem contexts_length_le_act {cfg : Config} {s s' : Sys} {a : Action}
    (ha : s.act cfg a = some s') : s.srv.contexts.length ≤ s'.srv.contexts.length := by
  cases a with
  | spawn e =>
    simp only [Sys.act, Option.some.injEq] at ha
    subst ha
    cases e <;> simp [spawn]
  | exec i ok =>
    obtain ⟨ins, rest, -, rfl⟩ := Sys.act_exec ha
    simp
  | shmOutput id data =>
    simp only [Sys.act, Option.some.injEq] at ha
    subst ha
    exact le_refl _

theorem keyInv_act {cfg : Config} {s s' : Sys} {a : Action} (h : KeyInv s.srv s.tasks)
    (ha : s.act cfg a = some s') (hL : s'.srv.contexts.length ≤ 4294967296) :
    KeyInv s'.srv s'.tasks := by
  cases a with
  | spawn e =>
    simp only [Sys.act, Option.some.injEq] at ha
    subst ha
    simpa [Sys.tasks] using keyInv_spawn cfg h e hL
  | exec i ok =>
    obtain ⟨ins, rest, hi, rfl⟩ := Sys.act_exec ha
    obtain ⟨others, h1, h2⟩ := Sys.tasks_set hi (exec cfg ok s.srv ins).2
    exact (keyInv_exec cfg ok (h.subperm h1.symm.subperm) (by simpa using hL)).subperm h2.subperm
  | shmOutput id data =>
    simp only [Sys.act, Option.some.injEq] at ha
    subst ha
    exact h.congr rfl rfl rfl rfl

theorem keyInv_reachable {cfg : Config} {s : Sys} (h : Reachable cfg s)
    (hL : s.srv.contexts.length ≤ 4294967296) : KeyInv s.srv s.tasks := by
  induction h with
  | refl => exact keyInv_init
  | tail _ hst ih =>
    obtain ⟨a, ha⟩ := hst
    exact keyInv_act (ih ((contexts_length_le_act ha).trans hL)) ha hL

/-- In every run that has built at most `2^32` contexts, under any interleaving and any
outcomes, the contexts carry pairwise distinct `full_call_id`s, and the key of a context
still to be admitted or waiting in the queue is absent from the running table: the
insertions of admission and promotion never replace a resident context. -/
theorem call_ids_unique_below_wrap {cfg : Config} {s : Sys} (h : Reachable cfg s)
    (hL : s.srv.contexts.length ≤ 4294967296) :
    (∀ c < s.srv.contexts.length, ∀ d < s.srv.contexts.length,
      s.srv.callOf c = s.srv.callOf d → c = d) ∧
    ∀ c, Instr.newExternalFuncCall c ∈ s.tasks ∨ c ∈ s.srv.pending →
      s.srv.running.lookup (s.srv.callOf c) = none := by
  have hk := keyInv_reachable h hL
  exact ⟨fun c hc d hd => hk.ids.callOf_inj hL hc hd, hk.fresh_absent⟩

theorem call_ids_unique_three_arrivals :
    ∃ s, Reachable scenarioConfig s ∧ s.srv.contexts.length ≤ 4294967296 ∧ s.srv.pending = [2] ∧
      (∀ c < s.srv.contexts.length, ∀ d < s.srv.contexts.length,
        s.srv.callOf c = s.srv.callOf d → c = d) ∧
      ∀ c, Instr.newExternalFuncCall c ∈ s.tasks ∨ c ∈ s.srv.pending →
        s.srv.running.lookup (s.srv.callOf c) = none := by
  obtain ⟨s, hs, hp, hL⟩ : ∃ s, Sys.init.replay scenarioConfig threeArrivals = some s ∧
      s.srv.pending = [2] ∧ s.srv.contexts.length = 3 := ⟨_, rfl, by decide, by decide⟩
  have h := (Sys.replay_protoReachable _ .refl hs).reachable
  exact ⟨s, h, by omega, hp, call_ids_unique_below_wrap h (by omega)⟩

end Nightcore.Gateway
