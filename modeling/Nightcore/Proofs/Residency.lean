import Nightcore.Proofs.Keys

/-! Input regions. `CreateShmInput` links the region `GetFuncCallInputShmName(id)` of a
context whose body is over `MESSAGE_INLINE_DATA_SIZE`, and the context's destructor
unlinks it. Under the worker protocol, and while at most `2^32` contexts have been built,
a region is linked exactly while its context holds it, and a context holds one only
while it is in the running table or about to be destroyed by the handler that took it
out. So when no handler is mid-flight, the linked input regions are those of the
resident contexts whose `CreateShmInput` succeeded, and no context outside the table,
pending ones included, owns one.

The argument rests on the order the protocol imposes: a context is not answered or
discarded before `OnNewFuncCall` was called for it, so nothing takes a context out of the
table while its dispatch, and with it `CreateShmInput`, is still to run. -/

namespace Nightcore.Gateway

open Server

namespace Server

/-- Context `c` is in the running table, under its own key. -/
def Resident (s : Server) (c : Nat) : Prop := s.running.lookup (s.callOf c) = some c

theorem invoked_append (s : Server) (call : DispatcherCall) (k : FuncCall) (a : Bool) :
    Invoked { s with dispatcherCalls := s.dispatcherCalls ++ [call] } k a ↔
      s.Invoked k a ∨ ∃ p n d b a', call = .onNewFuncCall k p n d b a' ∧ (a → a') := by
  simp only [Invoked, List.mem_append, List.mem_singleton]
  constructor
  · rintro ⟨p, n, d, b, a', h | h, ha⟩
    · exact .inl ⟨p, n, d, b, a', h, ha⟩
    · exact .inr ⟨p, n, d, b, a', h.symm, ha⟩
  · rintro (⟨p, n, d, b, a', h, ha⟩ | ⟨p, n, d, b, a', h, ha⟩)
    · exact ⟨p, n, d, b, a', .inl h, ha⟩
    · exact ⟨p, n, d, b, a', .inr h.symm, ha⟩

theorem Invoked.of_true {s : Server} {k : FuncCall} (h : s.Invoked k true) : s.Invoked k false :=
  let ⟨p, n, d, b, a, hm, _⟩ := h
  ⟨p, n, d, b, a, hm, fun h => absurd h Bool.false_ne_true⟩

end Server

/-- The context a piece of `DispatchExternalFuncCall` works on. -/
def Instr.dispatchCtx : Instr → Option Nat
  | .dispatch c | .dispatchLocked c | .dispatchTail c _ => some c
  | _ => none

/-- A piece of `DispatchExternalFuncCall` for context `c` is still to run. -/
def Dispatching (tasks : List Instr) (c : Nat) : Prop := ∃ x ∈ tasks, x.dispatchCtx = some c

/-- The pieces whose presence the invariant constrains. -/
def Instr.guarded : Instr → Bool
  | .newExternalFuncCall _ | .dispatch _ | .dispatchLocked _ | .dispatchTail _ _ | .recv _
  | .invokeTail _ _ | .discard _ => true
  | _ => false

theorem Instr.guarded_of_dispatchCtx {x : Instr} {c : Nat} (h : x.dispatchCtx = some c) :
    x.guarded = true := by
  cases x <;> first | rfl | cases h

theorem Instr.pipelineCtx_of_dispatchCtx {x : Instr} {c : Nat} (h : x.dispatchCtx = some c) :
    x.pipelineCtx = some c := by
  cases x <;> first | exact h | cases h

/-- Input regions and the contexts that hold them, with what the worker protocol has
promised about the calls in flight. -/
structure ShmInv (cfg : Config) (s : Server) (tasks : List Instr) : Prop where
  /-- A context still to be admitted or waiting has not been handed to a dispatcher. -/
  fresh : ∀ c, Instr.newExternalFuncCall c ∈ tasks ∨ c ∈ s.pending → ¬ s.Invoked (s.callOf c) false
  /-- A context whose dispatch is under way is resident, and not yet handed over. -/
  dispatching : ∀ c, Dispatching tasks c → s.Resident c ∧ ¬ s.Invoked (s.callOf c) false
  /-- An input region is linked exactly when a context holds it. -/
  shm : ∀ id, (s.shm (.funcCallInput id)).isSome ↔
    ∃ c < s.contexts.length, s.callOf c = id ∧ (s.ctxState c).inputRegion
  /-- A context holding a region has a body over the inline limit and is resident, or
  the handler that took it out is still to destroy it. -/
  holder : ∀ c, (s.ctxState c).inputRegion → c < s.contexts.length ∧
    cfg.messageInlineDataSize < (s.ctx c).input.length ∧ (s.Resident c ∨ Instr.destroy c ∈ tasks)
  /-- Under client id 0, only the gateway's own contexts have been handed to a dispatcher. -/
  invoked : ∀ k, s.Invoked k false → k.clientId = 0 → ∃ c < s.contexts.length, s.callOf c = k
  /-- Messages in flight are as the worker protocol allows. -/
  recv : ∀ m, Instr.recv m ∈ tasks →
    (m.messageType = .invokeFunc → m.funcCall.clientId ≠ 0) ∧
    ((m.messageType = .funcCallComplete ∨ m.messageType = .funcCallFailed) →
      m.funcCall.clientId = 0 → s.Invoked m.funcCall true)
  invokeTail : ∀ m b, Instr.invokeTail m b ∈ tasks → m.funcCall.clientId ≠ 0
  /-- A call is discarded only once `OnNewFuncCall` was called for it. -/
  discard : ∀ fc, Instr.discard fc ∈ tasks ∨ fc ∈ s.discarded → fc.clientId = 0 → s.Invoked fc false

namespace KeyInv

variable {s : Server} {tasks : List Instr}

theorem mem_tokens_of_live {d : Nat}
    (hd : Instr.newExternalFuncCall d ∈ tasks ∨ d ∈ s.pending ∨ Dispatching tasks d) :
    d ∈ s.tokens tasks := by
  rcases hd with hd | hd | ⟨x, hx, hd⟩
  · exact mem_tokens (.inl hd)
  · exact mem_tokens (.inr hd)
  · exact List.mem_append_right _ (List.mem_filterMap.2 ⟨x, hx, Instr.pipelineCtx_of_dispatchCtx hd⟩)

theorem head_ne {x : Instr} {c d : Nat} (hk : KeyInv s (x :: tasks)) (hx : x.pipelineCtx = some c)
    (hd : d ∈ s.tokens tasks) : d ≠ c := by
  have hn := hk.tokens_nodup
  simp only [tokens, List.filterMap_cons, hx, List.nodup_append, List.nodup_cons,
    List.disjoint_cons_right] at hn
  rintro rfl
  rcases List.mem_append.1 hd with hd | hd
  · exact hn.2.2.1 hd
  · exact hn.2.1.1 hd

theorem tokens_subset_cons (x : Instr) : s.tokens tasks ⊆ s.tokens (x :: tasks) := fun d hd => by
  rcases List.mem_append.1 hd with hd | hd
  · exact List.mem_append_left _ hd
  · exact List.mem_append_right _ (((List.sublist_cons_self x tasks).filterMap _).subset hd)

theorem live_lt {x : Instr} {d : Nat} (hk : KeyInv s (x :: tasks))
    (hd : Instr.newExternalFuncCall d ∈ tasks ∨ d ∈ s.pending ∨ Dispatching tasks d) :
    d < s.contexts.length :=
  hk.tokens_lt d (tokens_subset_cons x (mem_tokens_of_live hd))

end KeyInv

namespace ShmInv

variable {cfg : Config} {s t : Server} {tasks : List Instr}

theorem congr (h : ShmInv cfg s tasks) (h1 : t.contexts = s.contexts) (h2 : t.running = s.running)
    (h3 : t.pending = s.pending) (h4 : ∀ c, (t.ctxState c).inputRegion = (s.ctxState c).inputRegion)
    (h5 : ∀ id, t.shm (.funcCallInput id) = s.shm (.funcCallInput id))
    (h6 : ∀ k a, t.Invoked k a ↔ s.Invoked k a) (h7 : t.discarded = s.discarded) :
    ShmInv cfg t tasks := by
  have hc : ∀ c, t.callOf c = s.callOf c := fun c => by simp [callOf, ctx, h1]
  have hx : ∀ c, t.ctx c = s.ctx c := fun c => by simp [ctx, h1]
  have hi : ∀ k a, t.Invoked k a = s.Invoked k a := fun k a => propext (h6 k a)
  have hr : ∀ c, t.Resident c = s.Resident c := fun c => by unfold Resident; rw [hc, h2]
  obtain ⟨f, d, sh, ho, iv, r, it, dc⟩ := h
  refine ⟨?_, ?_, ?_, ?_, ?_, ?_, it, ?_⟩ <;> simp only [hc, hx, hi, hr, h1, h3, h4, h5, h7]
  exacts [f, d, sh, ho, iv, r, dc]

theorem mono {tasks' : List Instr} (h : ShmInv cfg s tasks)
    (hg : ∀ x ∈ tasks', x.guarded → x ∈ tasks) (hd : ∀ c, Instr.destroy c ∈ tasks → Instr.destroy c ∈ tasks') :
    ShmInv cfg s tasks' := by
  have g : ∀ x ∈ tasks', x.guarded = true → x ∈ tasks := hg
  refine ⟨fun c hc => h.fresh c (hc.imp_left fun hm => g _ hm rfl), fun c hc => h.dispatching c ?_,
    h.shm, fun c hc => ?_, h.invoked, fun m hm => h.recv m (g _ hm rfl),
    fun m b hm => h.invokeTail m b (g _ hm rfl), fun fc hc => h.discard fc (hc.imp_left fun hm => g _ hm rfl)⟩
  · obtain ⟨x, hx, hc⟩ := hc
    exact ⟨x, g x hx (Instr.guarded_of_dispatchCtx hc), hc⟩
  · obtain ⟨h1, h2, h3⟩ := h.holder c hc
    exact ⟨h1, h2, h3.imp_right (hd c)⟩

theorem frame (h : ShmInv cfg s tasks) (h1 : t.contexts = s.contexts) (h2 : t.running = s.running)
    (h3 : t.pending = s.pending) (h4 : ∀ c, (t.ctxState c).inputRegion = (s.ctxState c).inputRegion)
    (h5 : ∀ id, t.shm (.funcCallInput id) = s.shm (.funcCallInput id))
    (h6 : t.dispatcherCalls = s.dispatcherCalls) (h7 : t.discarded = s.discarded) :
    ShmInv cfg t tasks :=
  h.congr h1 h2 h3 h4 h5 (fun k a => by rw [Invoked, Invoked, h6]) h7

theorem perm {tasks' : List Instr} (h : ShmInv cfg s tasks) (hp : tasks.Perm tasks') :
    ShmInv cfg s tasks' :=
  h.mono (fun _ hx _ => hp.symm.subset hx) fun _ hc => hp.subset hc

theorem tail {x : Instr} (h : ShmInv cfg s (x :: tasks)) (hx : ∀ c, x ≠ .destroy c) :
    ShmInv cfg s tasks :=
  h.mono (fun _ hy _ => List.mem_cons_of_mem _ hy) fun c hc => by
    rcases List.mem_cons.1 hc with hc | hc
    · exact absurd hc.symm (hx c)
    · exact hc

theorem append_free {l : List Instr} (h : ShmInv cfg s tasks) (hm : ∀ x ∈ l, x.guarded = false) :
    ShmInv cfg s (l ++ tasks) :=
  h.mono (fun x hx hg => by
      rcases List.mem_append.1 hx with hx | hx
      · exact absurd hg (by simp [hm x hx])
      · exact hx)
    fun _ hc => List.mem_append_right _ hc

theorem advance {c : Nat} {x y : Instr} (h : ShmInv cfg s (x :: tasks)) (hx : x.dispatchCtx = some c)
    (hy : y.dispatchCtx = some c) : ShmInv cfg s (y :: tasks) := by
  have other : ∀ z, z.dispatchCtx = some c → ∀ w ∈ z :: tasks, w.dispatchCtx = none → w ∈ tasks := by
    intro z hz w hw hn
    rcases List.mem_cons.1 hw with rfl | hw
    · simp [hz] at hn
    · exact hw
  have back : ∀ w ∈ y :: tasks, w.dispatchCtx = none → w ∈ x :: tasks := fun w hw hn =>
    List.mem_cons_of_mem _ (other y hy w hw hn)
  refine ⟨fun d hd => h.fresh d (hd.imp_left fun hm => back _ hm rfl), fun d ⟨w, hw, hd⟩ => ?_, h.shm,
    fun d hd => ?_, h.invoked, fun m hm => h.recv m (back _ hm rfl),
    fun m b hm => h.invokeTail m b (back _ hm rfl),
    fun fc hc => h.discard fc (hc.imp_left fun hm => back _ hm rfl)⟩
  · rcases List.mem_cons.1 hw with rfl | hw
    · exact h.dispatching d ⟨x, List.mem_cons_self _ _, hx.trans (hy.symm.trans hd)⟩
    · exact h.dispatching d ⟨w, List.mem_cons_of_mem _ hw, hd⟩
  · obtain ⟨h1, h2, h3⟩ := h.holder d hd
    exact ⟨h1, h2, h3.imp_right fun hm => List.mem_cons_of_mem _ (other x hx _ hm rfl)⟩

theorem call (h : ShmInv cfg s tasks) (call : DispatcherCall)
    (hcall : ∀ k p n d b a, call = .onNewFuncCall k p n d b a →
      (∀ e, Instr.newExternalFuncCall e ∈ tasks ∨ e ∈ s.pending ∨ Dispatching tasks e → s.callOf e ≠ k) ∧
      (k.clientId = 0 → ∃ c < s.contexts.length, s.callOf c = k)) :
    ShmInv cfg { s with dispatcherCalls := s.dispatcherCalls ++ [call] } tasks := by
  have fresh : ∀ e, Instr.newExternalFuncCall e ∈ tasks ∨ e ∈ s.pending ∨ Dispatching tasks e →
      ¬ s.Invoked (s.callOf e) false →
      ¬ Invoked { s with dispatcherCalls := s.dispatcherCalls ++ [call] } (s.callOf e) false := by
    intro e he hn hi
    rcases (invoked_append s call _ _).1 hi with hi | ⟨p, n, d, b, a, hc, -⟩
    · exact hn hi
    · exact (hcall _ p n d b a hc).1 e he rfl
  have mono : ∀ k a, s.Invoked k a → Invoked { s with dispatcherCalls := s.dispatcherCalls ++ [call] } k a :=
    fun k a hi => (invoked_append s call k a).2 (.inl hi)
  refine ⟨fun e he => fresh e (he.elim .inl (.inr ∘ .inl)) (h.fresh e he), fun e he =>
    ⟨(h.dispatching e he).1, fresh e (.inr (.inr he)) (h.dispatching e he).2⟩, h.shm, h.holder,
    fun k hi hk0 => ?_, fun m hm => ⟨(h.recv m hm).1, fun ht h0 => mono _ _ ((h.recv m hm).2 ht h0)⟩,
    h.invokeTail, fun fc hc h0 => mono _ _ (h.discard fc hc h0)⟩
  rcases (invoked_append s call k false).1 hi with hi | ⟨p, n, d, b, a, hc, -⟩
  · exact h.invoked k hi hk0
  · exact (hcall k p n d b a hc).2 hk0

theorem withPending (h : ShmInv cfg s tasks) {q : List Nat} (hq : ∀ d ∈ q, d ∈ s.pending) :
    ShmInv cfg { s with pending := q } tasks :=
  ⟨fun d hd => h.fresh d (hd.imp_right (hq d)), h.dispatching, h.shm, h.holder, h.invoked, h.recv,
    h.invokeTail, h.discard⟩

theorem withDiscarded (h : ShmInv cfg s tasks) {q : List FuncCall}
    (hq : ∀ fc ∈ q, fc.clientId = 0 → s.Invoked fc false) :
    ShmInv cfg { s with discarded := q } tasks :=
  ⟨h.fresh, h.dispatching, h.shm, h.holder, h.invoked, h.recv, h.invokeTail,
    fun fc hc => hc.elim (h.discard fc ∘ .inl) (hq fc)⟩

theorem queue {c : Nat} (h : ShmInv cfg s (.newExternalFuncCall c :: tasks)) :
    ShmInv cfg { s with pending := s.pending ++ [c] } tasks := by
  have hT : ∀ x ∈ tasks, x ∈ Instr.newExternalFuncCall c :: tasks := fun _ => List.mem_cons_of_mem _
  refine ⟨fun d hd => ?_, fun d ⟨w, hw, hd⟩ => h.dispatching d ⟨w, hT w hw, hd⟩, h.shm,
    fun d hd => ?_, h.invoked, fun m hm => h.recv m (hT _ hm), fun m b hm => h.invokeTail m b (hT _ hm),
    fun fc hc => h.discard fc (hc.imp_left (hT _))⟩
  · rcases hd with hd | hd
    · exact h.fresh d (.inl (hT _ hd))
    · rcases List.mem_append.1 hd with hd | hd
      · exact h.fresh d (.inr hd)
      · rw [List.mem_singleton.1 hd]; exact h.fresh c (.inl (List.mem_cons_self _ _))
  · obtain ⟨h1, h2, h3⟩ := h.holder d hd
    exact ⟨h1, h2, h3.imp_right fun hm => (List.mem_cons.1 hm).resolve_left (by simp)⟩

theorem createShm {c : Nat} (h : ShmInv cfg s tasks) (hres : s.Resident c) (hcl : c < s.contexts.length)
    (hbig : cfg.messageInlineDataSize < (s.ctx c).input.length) :
    ShmInv cfg (createShmInput true s c).1 tasks := by
  simp only [createShmInput, ↓reduceIte]
  have hflag : ∀ d, (Function.update s.ctxState c { s.ctxState c with inputRegion := true } d).inputRegion =
      if d = c then true else (s.ctxState d).inputRegion := by
    intro d; by_cases hdc : d = c
    · subst hdc; simp
    · simp [hdc, Function.update_noteq]
  refine ⟨h.fresh, h.dispatching, fun id => ?_, fun d hd => ?_, h.invoked, h.recv, h.invokeTail, h.discard⟩
  · simp only [modifyCtx, Function.update_apply, ShmName.funcCallInput.injEq, hflag]
    by_cases hid : id = s.callOf c
    · simp only [hid, ↓reduceIte, Option.isSome_some, true_iff]
      exact ⟨c, hcl, rfl, by simp⟩
    · rw [if_neg hid, h.shm id]
      constructor
      · rintro ⟨d, hd, rfl, hf⟩
        exact ⟨d, hd, rfl, by rwa [if_neg fun (hdc : d = c) => hid (hdc ▸ rfl)]⟩
      · rintro ⟨d, hd, rfl, hf⟩
        exact ⟨d, hd, rfl, by rwa [if_neg fun (hdc : d = c) => hid (hdc ▸ rfl)] at hf⟩
  · simp only [modifyCtx, hflag] at hd
    by_cases hdc : d = c
    · subst hdc; exact ⟨hcl, hbig, .inl hres⟩
    · exact h.holder d (by simpa [hdc] using hd)

theorem resident_lt {tasks' : List Instr} (hk : KeyInv s tasks') {c : Nat} (hc : s.Resident c) :
    c < s.contexts.length :=
  (hk.running_key _ c hc).2

section Keys

variable {tasks' : List Instr} (hk : KeyInv s tasks') (hL : s.contexts.length ≤ 4294967296)
include hk hL

theorem resident_insert {c d : Nat} (hc : c < s.contexts.length) (hd : s.Resident d) :
    (s.running.insert (s.callOf c) c).lookup (s.callOf d) = some d := by
  by_cases he : s.callOf d = s.callOf c
  · obtain rfl := hk.ids.callOf_inj hL (resident_lt hk hd) hc he
    exact AList.lookup_insert _
  · rw [AList.lookup_insert_ne he]; exact hd

theorem resident_erase {c d : Nat} (hc : c < s.contexts.length) (hd : s.Resident d) (hne : d ≠ c) :
    (s.running.erase (s.callOf c)).lookup (s.callOf d) = some d := by
  rw [AList.lookup_erase_ne fun he => hne (hk.ids.callOf_inj hL (resident_lt hk hd) hc he)]
  exact hd

theorem insert {c : Nat} (h : ShmInv cfg s tasks) (hc : c < s.contexts.length)
    (hfresh : ¬ s.Invoked (s.callOf c) false) :
    ShmInv cfg { s with running := s.running.insert (s.callOf c) c } (.dispatch c :: tasks) := by
  have back : ∀ w ∈ Instr.dispatch c :: tasks, w.guarded → w ≠ .dispatch c → w ∈ tasks :=
    fun w hw _ hne => (List.mem_cons.1 hw).resolve_left hne
  refine ⟨fun d hd => h.fresh d (hd.imp_left fun hm => back _ hm rfl (by simp)),
    fun d ⟨w, hw, hd⟩ => ?_, h.shm, fun d hd => ?_, h.invoked,
    fun m hm => h.recv m (back _ hm rfl (by simp)), fun m b hm => h.invokeTail m b (back _ hm rfl (by simp)),
    fun fc hc => h.discard fc (hc.imp_left fun hm => back _ hm rfl (by simp))⟩
  · rcases List.mem_cons.1 hw with rfl | hw
    · cases hd
      exact ⟨AList.lookup_insert _, hfresh⟩
    · obtain ⟨hr, hi⟩ := h.dispatching d ⟨w, hw, hd⟩
      exact ⟨resident_insert hk hL hc hr, hi⟩
  · obtain ⟨h1, h2, h3⟩ := h.holder d hd
    exact ⟨h1, h2, h3.imp (resident_insert hk hL hc) (List.mem_cons_of_mem _)⟩

theorem take {c : Nat} {k : FuncCall} (h : ShmInv cfg s tasks) (hl : s.running.lookup k = some c)
    (hnd : ∀ d, Dispatching tasks d → d ≠ c) :
    ShmInv cfg { s with running := s.running.erase k } (.destroy c :: tasks) := by
  obtain ⟨rfl, hc⟩ := hk.running_key k c hl
  have hT : ∀ x ∈ Instr.destroy c :: tasks, x.guarded → x ∈ tasks := fun x hx hg =>
    (List.mem_cons.1 hx).resolve_left (by rintro rfl; cases hg)
  have hD : ∀ d, Dispatching (.destroy c :: tasks) d → Dispatching tasks d := fun d ⟨w, hw, hd⟩ =>
    ⟨w, (List.mem_cons.1 hw).resolve_left (by rintro rfl; cases hd), hd⟩
  refine ⟨fun d hd => h.fresh d (hd.imp_left fun hm => hT _ hm rfl), fun d hd => ?_, h.shm,
    fun d hd => ?_, h.invoked, fun m hm => h.recv m (hT _ hm rfl),
    fun m b hm => h.invokeTail m b (hT _ hm rfl), fun fc hc => h.discard fc (hc.imp_left fun hm => hT _ hm rfl)⟩
  · obtain ⟨hr, hi⟩ := h.dispatching d (hD d hd)
    exact ⟨resident_erase hk hL hc hr (hnd d (hD d hd)), hi⟩
  · obtain ⟨h1, h2, h3⟩ := h.holder d hd
    refine ⟨h1, h2, ?_⟩
    by_cases hdc : d = c
    · exact .inr (hdc ▸ List.mem_cons_self _ _)
    · exact h3.imp (fun hr => resident_erase hk hL hc hr hdc) (List.mem_cons_of_mem _)

theorem destroy {c : Nat} (h : ShmInv cfg s (.destroy c :: tasks)) : ShmInv cfg (s.destroy c) tasks := by
  have hc : ∀ d, (s.destroy c).callOf d = s.callOf d := fun _ => rfl
  refine ⟨fun d hd => h.fresh d (hd.imp_left (List.mem_cons_of_mem _)),
    fun d ⟨w, hw, hd⟩ => h.dispatching d ⟨w, List.mem_cons_of_mem _ hw, hd⟩, fun id => ?_, fun d hd => ?_,
    h.invoked, fun m hm => h.recv m (List.mem_cons_of_mem _ hm),
    fun m b hm => h.invokeTail m b (List.mem_cons_of_mem _ hm),
    fun fc hc => h.discard fc (hc.imp_left (List.mem_cons_of_mem _))⟩
  · simp only [destroy_shm_input, destroy_inputRegion, hc, destroy_contexts]
    split_ifs with hcut
    · obtain ⟨hflag, rfl⟩ := hcut
      simp only [Option.isSome_none, Bool.false_eq_true, false_iff, not_exists, not_and]
      intro d hd he
      have hcl := (h.holder c hflag).1
      split_ifs with hdc
      · simp
      · exact absurd (hk.ids.callOf_inj hL hd hcl he) hdc
    · rw [h.shm id]
      constructor
      · rintro ⟨d, hd, rfl, hflag⟩
        refine ⟨d, hd, rfl, ?_⟩
        split_ifs with hdc
        · exact absurd ⟨hdc ▸ hflag, hdc ▸ rfl⟩ hcut
        · exact hflag
      · rintro ⟨d, hd, rfl, hflag⟩
        by_cases hdc : d = c
        · simp [hdc] at hflag
        · exact ⟨d, hd, rfl, by simpa [hdc] using hflag⟩
  · rw [destroy_inputRegion] at hd
    by_cases hdc : d = c
    · simp [hdc] at hd
    · obtain ⟨h1, h2, h3⟩ := h.holder d (by simpa [hdc] using hd)
      exact ⟨h1, h2, h3.imp_right fun hm => (List.mem_cons.1 hm).resolve_left (by simpa using hdc)⟩

theorem pop {p : Nat} {rest : List Nat} (h : ShmInv cfg s tasks) (hp : s.pending = p :: rest) :
    ShmInv cfg (popPending s).1 (.dispatch p :: tasks) := by
  have hpm : p ∈ s.pending := hp ▸ List.mem_cons_self _ _
  have hnone : s.running.lookup (s.callOf p) = none := hk.fresh_absent p (.inr hpm)
  have h1 := (h.insert hk hL (hk.tokens_lt p (List.mem_append_left _ hpm)) (h.fresh p (.inr hpm))).withPending
    (q := rest) fun d hd => hp ▸ List.mem_cons_of_mem _ hd
  simp only [popPending, hp]
  rw [putRunning_of_lookup_eq_none (s := { s with pending := rest }) hnone]
  exact h1

end Keys

theorem takeDiscarded (l : List FuncCall) (h : ShmInv cfg s tasks) {tasks' : List Instr}
    (hk : KeyInv s tasks') (hL : s.contexts.length ≤ 4294967296)
    (hl : ∀ fc ∈ l, fc.clientId = 0 → s.Invoked fc false) :
    ShmInv cfg (takeDiscarded s l).1 ((takeDiscarded s l).2.1.map .destroy ++ tasks) := by
  induction l generalizing s tasks with
  | nil => exact h
  | cons fc rest ih =>
    have hrest : ∀ fc ∈ rest, fc.clientId = 0 → s.Invoked fc false := fun fc hfc => hl fc (List.mem_cons_of_mem _ hfc)
    simp only [Server.takeDiscarded]
    split_ifs with h0
    · split
      · rename_i c hc
        have hnd : ∀ d, Dispatching tasks d → d ≠ c := by
          rintro d hd rfl
          exact (h.dispatching d hd).2 ((hk.running_key fc d hc).1 ▸ hl fc (List.mem_cons_self _ _) h0)
        have := ih ((h.take hk hL hc hnd)) (hk.erase fc) hL hrest
        simpa using this.perm List.perm_middle
      · exact ih h hk hL hrest
    · exact ih h hk hL hrest

theorem promote (q : List Nat) (h : ShmInv cfg s tasks) {tasks' : List Instr}
    (hk : KeyInv s tasks') (hL : s.contexts.length ≤ 4294967296) (hq : s.pending = q) :
    ShmInv cfg (promote cfg s q).1 ((promote cfg s q).2.map .dispatch ++ tasks) := by
  induction q generalizing s tasks tasks' with
  | nil => exact h
  | cons p rest ih =>
    simp only [Server.promote]
    split_ifs
    · have h1 := h.pop hk hL hq
      have k1 := hk.pop hL hq
      simp only [popPending, hq] at h1 k1
      simpa using (ih h1 k1 (by simpa using hL) (by simp)).perm List.perm_middle
    · exact h

theorem recvLocked (h : ShmInv cfg s tasks) {tasks' : List Instr} (hk : KeyInv s tasks')
    (hL : s.contexts.length ≤ 4294967296) (m : Message)
    (hm : m.funcCall.clientId = 0 → s.Invoked m.funcCall true) :
    ShmInv cfg (recvLocked cfg s m).srv ((recvLocked cfg s m).promoted.toList.map .dispatch ++
      ((recvLocked cfg s m).taken.toList.map .destroy ++ tasks)) := by
  simp only [Server.recvLocked, getOrCreateDispatcherLocked_fst]
  refine ShmInv.frame (s := (recvTake cfg s m.funcCall).1) ?_ rfl rfl rfl (fun _ => rfl) (fun _ => rfl) rfl rfl
  unfold recvTake
  split
  · rename_i c hc
    split_ifs at hc with h0
    have hnd : ∀ d, Dispatching tasks d → d ≠ c := by
      rintro d hd rfl
      exact (h.dispatching d hd).2 ((hk.running_key _ d hc).1 ▸ (hm h0).of_true)
    have h1 := h.take hk hL hc hnd
    dsimp only
    split_ifs with hp
    · obtain ⟨p, rest, hpr⟩ := List.exists_cons_of_ne_nil hp.1
      simpa [popPending, hpr] using h1.pop (hk.erase m.funcCall) hL hpr
    · simpa using h1
  · simpa using h

theorem sweepLocked (h : ShmInv cfg s tasks) {tasks' : List Instr} (hk : KeyInv s tasks')
    (hL : s.contexts.length ≤ 4294967296) :
    ShmInv cfg (sweepLocked cfg s).srv ((sweepLocked cfg s).promoted.map .dispatch ++
      ((sweepLocked cfg s).external.map .destroy ++ tasks)) := by
  simp only [Server.sweepLocked]
  have h1 := (h.takeDiscarded s.discarded hk hL fun fc hfc => h.discard fc (.inr hfc)).withDiscarded
    (q := []) (by simp)
  exact h1.promote _ ((hk.takeDiscarded s.discarded).congr rfl rfl rfl rfl) (by simpa using hL) rfl

theorem respond (h : ShmInv cfg s tasks) (c : Nat) (f : Ctx → Response → Response) :
    ShmInv cfg (s.respond c f) tasks :=
  h.frame rfl rfl rfl (by simp) (fun _ => rfl) rfl rfl

theorem finishWithShmOutput (h : ShmInv cfg s tasks) (ok : Bool) (c : Nat) :
    ShmInv cfg (Server.finishWithShmOutput ok s c) tasks := by
  unfold Server.finishWithShmOutput
  split
  · refine ShmInv.respond (h.frame (t := s.modifyCtx c fun st => { st with outputRegion := true })
      rfl rfl rfl (fun d => ?_) (fun _ => rfl) rfl rfl) c _
    by_cases hdc : d = c
    · subst hdc; simp [modifyCtx]
    · simp [modifyCtx, Function.update_noteq hdc]
  · exact h.respond c _

theorem recvTail (h : ShmInv cfg s tasks) (ok : Bool) (m : Message) (c : Option Nat) (found : Bool) :
    ShmInv cfg (Server.recvTail ok s m c found) tasks := by
  have base : ShmInv cfg (if found then
      { s with dispatcherCalls := s.dispatcherCalls ++
          [if m.messageType = .funcCallComplete then
            .onFuncCallCompleted m.funcCall m.processingTime m.dispatchDelay (completeOutputSize m)
          else .onFuncCallFailed m.funcCall m.dispatchDelay] } else s) tasks := by
    split
    · exact h.call _ fun k p n d b a hc => by split at hc <;> cases hc
    · exact h
  unfold Server.recvTail
  generalize (if found = true then _ else s) = t at base ⊢
  dsimp only
  split_ifs <;> (try split) <;>
    first | exact base | exact base.finishWithShmOutput ok _ | exact base.respond _ _

theorem addInvokeTail {m : Message} (h : ShmInv cfg s tasks) (hm : m.funcCall.clientId ≠ 0) (b : Bool) :
    ShmInv cfg s (.invokeTail m b :: tasks) := by
  have hT : ∀ x ∈ Instr.invokeTail m b :: tasks, (∀ m' b', x ≠ .invokeTail m' b') → x ∈ tasks :=
    fun x hx hne => (List.mem_cons.1 hx).resolve_left (hne m b)
  refine ⟨fun d hd => h.fresh d (hd.imp_left fun hx => hT _ hx (by simp)),
    fun d ⟨w, hw, hd⟩ => h.dispatching d ⟨w, hT _ hw (by rintro _ _ rfl; cases hd), hd⟩, h.shm,
    fun d hd => let ⟨h1, h2, h3⟩ := h.holder d hd; ⟨h1, h2, h3.imp_right (List.mem_cons_of_mem _)⟩,
    h.invoked, fun m' hm' => h.recv m' (hT _ hm' (by simp)), fun m' b' hm' => ?_,
    fun fc hc => h.discard fc (hc.imp_left fun hx => hT _ hx (by simp))⟩
  rcases List.mem_cons.1 hm' with he | hm'
  · cases he; exact hm
  · exact h.invokeTail m' b' hm'

theorem addFresh {c : Nat} (h : ShmInv cfg s tasks) (hnew : ¬ s.Invoked (s.callOf c) false) :
    ShmInv cfg s (.newExternalFuncCall c :: tasks) := by
  have hT : ∀ x ∈ Instr.newExternalFuncCall c :: tasks, x ≠ .newExternalFuncCall c → x ∈ tasks :=
    fun x hx hne => (List.mem_cons.1 hx).resolve_left hne
  refine ⟨fun d hd => ?_, fun d ⟨w, hw, hd⟩ => h.dispatching d ⟨w, hT _ hw (by rintro rfl; cases hd), hd⟩,
    h.shm, fun d hd => let ⟨h1, h2, h3⟩ := h.holder d hd; ⟨h1, h2, h3.imp_right (List.mem_cons_of_mem _)⟩,
    h.invoked, fun m hm => h.recv m (hT _ hm (by simp)), fun m b hm => h.invokeTail m b (hT _ hm (by simp)),
    fun fc hc => h.discard fc (hc.imp_left fun hx => hT _ hx (by simp))⟩
  by_cases hdc : d = c
  · exact hdc ▸ hnew
  · exact h.fresh d (hd.imp_left fun hx => hT _ hx (by simpa using hdc))

theorem addRecv {m : Message} (h : ShmInv cfg s tasks)
    (hm : (m.messageType = .invokeFunc → m.funcCall.clientId ≠ 0) ∧
      ((m.messageType = .funcCallComplete ∨ m.messageType = .funcCallFailed) →
        m.funcCall.clientId = 0 → s.Invoked m.funcCall true)) :
    ShmInv cfg s (.recv m :: tasks) := by
  have hT : ∀ x ∈ Instr.recv m :: tasks, x ≠ .recv m → x ∈ tasks :=
    fun x hx hne => (List.mem_cons.1 hx).resolve_left hne
  refine ⟨fun d hd => h.fresh d (hd.imp_left fun hx => hT _ hx (by simp)),
    fun d ⟨w, hw, hd⟩ => h.dispatching d ⟨w, hT _ hw (by rintro rfl; cases hd), hd⟩,
    h.shm, fun d hd => let ⟨h1, h2, h3⟩ := h.holder d hd; ⟨h1, h2, h3.imp_right (List.mem_cons_of_mem _)⟩,
    h.invoked, fun m' hm' => ?_, fun m' b hm' => h.invokeTail m' b (hT _ hm' (by simp)),
    fun fc hc => h.discard fc (hc.imp_left fun hx => hT _ hx (by simp))⟩
  by_cases he : m' = m
  · exact he ▸ hm
  · exact h.recv m' (hT _ hm' (by simpa using he))

theorem addDiscards {fcs : List FuncCall} (h : ShmInv cfg s tasks)
    (hl : ∀ fc ∈ fcs, fc.clientId = 0 → s.Invoked fc false) :
    ShmInv cfg s (fcs.map .discard ++ tasks) := by
  have hT : ∀ x ∈ fcs.map Instr.discard ++ tasks, (∀ fc, x ≠ .discard fc) → x ∈ tasks := fun x hx hne =>
    (List.mem_append.1 hx).resolve_left fun hm => by
      obtain ⟨fc, -, rfl⟩ := List.mem_map.1 hm; exact hne fc rfl
  refine ⟨fun d hd => h.fresh d (hd.imp_left fun hx => hT _ hx (by simp)),
    fun d ⟨w, hw, hd⟩ => h.dispatching d ⟨w, hT _ hw (by rintro _ rfl; cases hd), hd⟩,
    h.shm, fun d hd => let ⟨h1, h2, h3⟩ := h.holder d hd; ⟨h1, h2, h3.imp_right (List.mem_append_right _)⟩,
    h.invoked, fun m hm => h.recv m (hT _ hm (by simp)), fun m b hm => h.invokeTail m b (hT _ hm (by simp)),
    fun fc hc h0 => ?_⟩
  rcases hc with hc | hc
  · rcases List.mem_append.1 hc with hc | hc
    · obtain ⟨e, he, hef⟩ := List.mem_map.1 hc
      obtain rfl := Instr.discard.inj hef
      exact hl e he h0
    · exact h.discard fc (.inl hc) h0
  · exact h.discard fc (.inr hc) h0

theorem construct (h : ShmInv cfg s tasks) (hk : KeyInv s tasks) (sink : Sink) (f m : UInt16)
    (body : List UInt8) : ShmInv cfg (s.construct sink f m body) tasks := by
  have hcall : ∀ {c}, c < s.contexts.length → (s.construct sink f m body).callOf c = s.callOf c :=
    construct_callOf_lt s sink f m body
  have hlen : s.contexts.length < (s.construct sink f m body).contexts.length := by simp
  refine ⟨fun c hc => ?_, fun c hc => ?_, fun id => ?_, fun c hc => ?_, fun k hi hk0 => ?_,
    h.recv, h.invokeTail, h.discard⟩
  · rw [hcall (hk.tokens_lt c (KeyInv.mem_tokens hc))]; exact h.fresh c hc
  · have hcl := hk.tokens_lt c (KeyInv.mem_tokens_of_live (.inr (.inr hc)))
    unfold Resident; rw [hcall hcl]; exact h.dispatching c hc
  · show (s.shm _).isSome ↔ _
    rw [h.shm id]
    constructor
    · rintro ⟨c, hc, rfl, hf⟩; exact ⟨c, hc.trans hlen, hcall hc, hf⟩
    · rintro ⟨c, -, rfl, hf⟩
      have hc := (h.holder c hf).1
      exact ⟨c, hc, (hcall hc).symm, hf⟩
  · obtain ⟨h1, h2, h3⟩ := h.holder c hc
    refine ⟨h1.trans hlen, by rwa [construct_ctx_lt s sink f m body h1], h3.imp_left fun hr => ?_⟩
    unfold Resident; rw [hcall h1]; exact hr
  · obtain ⟨c, hc, rfl⟩ := h.invoked k hi hk0
    exact ⟨c, hc.trans hlen, hcall hc⟩

end ShmInv

section Pieces

variable {cfg : Config} {ok : Bool} {s : Server} {tasks : List Instr}

theorem shmInv_dispatchTail {c : Nat} {found : Bool} (h : ShmInv cfg s (.dispatchTail c found :: tasks))
    (hk : KeyInv s (.dispatchTail c found :: tasks)) (hL : s.contexts.length ≤ 4294967296) :
    ShmInv cfg (exec cfg ok s (.dispatchTail c found)).1 ((exec cfg ok s (.dispatchTail c found)).2 ++ tasks) := by
  have h0 := h.tail (by simp)
  have hc : c < s.contexts.length :=
    hk.tokens_lt c (List.mem_append_right _ (List.mem_filterMap.2 ⟨_, List.mem_cons_self _ _, rfl⟩))
  -- the only call handed over is the context's own
  have h1 : ∀ call, (∀ k p n d b a, call = DispatcherCall.onNewFuncCall k p n d b a → k = s.callOf c) →
      ShmInv cfg { s with dispatcherCalls := s.dispatcherCalls ++ [call] } tasks := fun call hcall =>
    h0.call call fun k p n d b a he => by
      obtain rfl := hcall k p n d b a he
      exact ⟨fun e he hek => hk.head_ne rfl (KeyInv.mem_tokens_of_live he)
          (hk.ids.callOf_inj hL (hk.live_lt he) hc hek),
        fun _ => ⟨c, hc, rfl⟩⟩
  have own : ∀ k p n d b a, (if (s.ctx c).input.length ≤ cfg.messageInlineDataSize then
      DispatcherCall.onNewFuncCall (s.callOf c) cfg.invalidFuncCall (s.ctx c).input.length (s.ctx c).input false ok
    else .onNewFuncCall (s.callOf c) cfg.invalidFuncCall (s.ctx c).input.length [] true ok) =
      .onNewFuncCall k p n d b a → k = s.callOf c := fun k p n d b a he => by
    split at he <;> exact (DispatcherCall.onNewFuncCall.inj he).1.symm
  cases found <;> cases ok <;> simp only [exec, dispatchTail, ↓reduceIte, Bool.false_eq_true]
  · exact (h0.respond c _).append_free (by simp [Instr.guarded])
  · exact (h0.respond c _).append_free (by simp [Instr.guarded])
  · exact ((h1 _ own).respond c _).append_free (by simp [Instr.guarded])
  · exact h1 _ own

theorem shmInv_recv {m : Message} (h : ShmInv cfg s (.recv m :: tasks)) (hk : KeyInv s (.recv m :: tasks))
    (hL : s.contexts.length ≤ 4294967296) :
    ShmInv cfg (exec cfg ok s (.recv m)).1 ((exec cfg ok s (.recv m)).2 ++ tasks) := by
  have h0 := h.tail (by simp)
  have hm := h.recv m (List.mem_cons_self _ _)
  -- a completion: the context taken out is destroyed and the promoted ones dispatched
  have done : m.messageType = .funcCallComplete ∨ m.messageType = .funcCallFailed →
      ShmInv cfg (recvLocked cfg s m).srv (.recvTail m (recvLocked cfg s m).taken (recvLocked cfg s m).found ::
        ((recvLocked cfg s m).promoted.toList.map .dispatch ++
          (recvLocked cfg s m).taken.toList.map .destroy ++ [.sweep] ++ tasks)) := fun ht => by
    refine (h0.recvLocked hk hL m (hm.2 ht)).mono (fun x hx hg => ?_) fun c hc => ?_
    · simp only [List.mem_cons, List.mem_append, List.mem_map, List.not_mem_nil, or_false] at hx ⊢
      rcases hx with rfl | (((⟨e, he, rfl⟩ | ⟨_, -, rfl⟩) | rfl) | hx)
      exacts [absurd hg (by simp [Instr.guarded]), .inl ⟨e, he, rfl⟩, absurd hg (by simp [Instr.guarded]),
        absurd hg (by simp [Instr.guarded]), .inr (.inr hx)]
    · simp only [List.mem_cons, List.mem_append, List.mem_map, List.not_mem_nil, or_false] at hc ⊢
      rcases hc with ⟨_, -, hc⟩ | ⟨e, he, hc⟩ | hc
      exacts [absurd hc (by simp), .inr (.inl (.inl (.inr ⟨e, he, hc⟩))), .inr (.inr hc)]
  simp only [exec]
  split
  · rename_i htype
    rw [recvInvokeLocked_eq]
    dsimp only [List.cons_append, List.nil_append]
    refine ShmInv.addInvokeTail (ShmInv.append_free (l := [.sweep]) ?_ (by simp [Instr.guarded]))
      (hm.1 htype) _
    exact h0.frame rfl rfl rfl (fun _ => rfl) (fun _ => rfl) rfl rfl
  · exact done (.inl ‹_›)
  · exact done (.inr ‹_›)
  · exact h0.append_free (l := [.sweep]) (by simp [Instr.guarded])

theorem shmInv_sweep (h : ShmInv cfg s (.sweep :: tasks)) (hk : KeyInv s (.sweep :: tasks))
    (hL : s.contexts.length ≤ 4294967296) :
    ShmInv cfg (exec cfg ok s .sweep).1 ((exec cfg ok s .sweep).2 ++ tasks) := by
  simp only [exec]
  refine ((h.tail (by simp)).sweepLocked hk hL).mono (fun x hx hg => ?_) fun c hc => ?_
  · simp only [List.mem_append, List.mem_map] at hx ⊢
    rcases hx with (((⟨_, -, rfl⟩ | ⟨_, -, rfl⟩) | ⟨_, -, rfl⟩) | ⟨e, he, rfl⟩) | hx
    exacts [absurd hg (by simp [Instr.guarded]), absurd hg (by simp [Instr.guarded]),
      absurd hg (by simp [Instr.guarded]), .inl ⟨e, he, rfl⟩, .inr (.inr hx)]
  · simp only [List.mem_append, List.mem_map] at hc ⊢
    rcases hc with ⟨_, -, hc⟩ | ⟨e, he, hc⟩ | hc
    exacts [absurd hc (by simp), .inl (.inl (.inl (.inr ⟨e, he, hc⟩))), .inr hc]

end Pieces

theorem shmInv_exec (cfg : Config) (ok : Bool) {s : Server} {ins : Instr} {tasks : List Instr}
    (h : ShmInv cfg s (ins :: tasks)) (hk : KeyInv s (ins :: tasks)) (hL : s.contexts.length ≤ 4294967296) :
    ShmInv cfg (exec cfg ok s ins).1 ((exec cfg ok s ins).2 ++ tasks) := by
  have live_ne : ∀ c, ins.pipelineCtx = some c → ∀ d,
      (Instr.newExternalFuncCall d ∈ tasks ∨ d ∈ s.pending ∨ Dispatching tasks d) → d ≠ c :=
    fun c hc d hd => hk.head_ne hc (KeyInv.mem_tokens_of_live hd)
  have head_lt : ∀ c, ins.pipelineCtx = some c → c < s.contexts.length := fun c hc =>
    hk.tokens_lt c (List.mem_append_right _ (List.mem_filterMap.2 ⟨ins, List.mem_cons_self _ _, hc⟩))
  cases ins with
  | newExternalFuncCall c =>
    have hc0 := List.mem_cons_self (Instr.newExternalFuncCall c) tasks
    by_cases hr : s.HasRoom cfg
    · simp only [exec, newExternalFuncCallLocked, hr, ↓reduceIte, List.singleton_append]
      rw [putRunning_of_lookup_eq_none (hk.fresh_absent c (.inl hc0))]
      exact (h.tail (by simp)).insert hk hL (head_lt c rfl) (h.fresh c (.inl hc0))
    · simp only [exec, newExternalFuncCallLocked, hr, ↓reduceIte, Bool.false_eq_true, List.nil_append]
      exact h.queue
  | dispatch c =>
    obtain ⟨hres, -⟩ := h.dispatching c ⟨_, List.mem_cons_self _ _, rfl⟩
    simp only [exec, dispatchStart]
    by_cases hbig : (s.ctx c).input.length > cfg.messageInlineDataSize
    · cases ok
      · simp only [hbig, ↓reduceIte, createShmInput, Bool.false_eq_true]
        exact ((h.tail (by simp)).respond c _).append_free (by simp [Instr.guarded])
      · simp only [hbig, ↓reduceIte]
        exact (h.createShm hres (ShmInv.resident_lt hk hres) hbig).advance rfl rfl
    · simp only [hbig, ↓reduceIte]
      exact h.advance rfl rfl
  | dispatchLocked c =>
    simp only [exec, List.singleton_append]
    rw [dispatchLocked_eq]
    refine ShmInv.advance ?_ (x := .dispatchLocked c) rfl rfl
    exact h.frame rfl rfl rfl (fun _ => rfl) (fun _ => rfl) rfl rfl
  | dispatchTail c found => exact shmInv_dispatchTail h hk hL
  | erase c =>
    have h0 := h.tail (by simp)
    simp only [exec, List.nil_append]
    cases hl : s.running.lookup (s.callOf c) with
    | none => simpa [eraseRunning, hl] using h0
    | some d =>
      obtain ⟨hdc, hdl⟩ := hk.running_key _ d hl
      obtain rfl := hk.ids.callOf_inj hL hdl (head_lt c rfl) hdc
      rw [eraseRunning_of_lookup_eq_some hl]
      exact ShmInv.destroy (hk.erase _) hL (h0.take hk hL hl fun e he => live_ne d rfl e (.inr (.inr he)))
  | recv m => exact shmInv_recv h hk hL
  | recvTail m c found =>
    simp only [exec, List.nil_append]
    exact (h.tail (by simp)).recvTail ok m c found
  | invokeTail m found =>
    have hm := h.invokeTail m found (List.mem_cons_self _ _)
    have h0 := h.tail (by simp)
    simp only [exec, recvInvokeTail, List.nil_append]
    split
    · refine h0.call _ fun k p n d b a hc => ?_
      cases hc
      refine ⟨fun e he hek => hm ?_, fun h0 => absurd h0 hm⟩
      rw [← hek]
      exact (hk.ids.2 e (hk.live_lt he)).1
    · exact h0
  | destroy c =>
    simp only [exec, List.nil_append]
    exact ShmInv.destroy hk hL h
  | sweep => exact shmInv_sweep h hk hL
  | finishDiscarded c =>
    simp only [exec, List.nil_append]
    exact (h.tail (by simp)).respond c _
  | notify fc =>
    simp only [exec, List.nil_append]
    exact (h.tail (by simp)).frame rfl rfl rfl (fun _ => rfl) (fun _ => rfl) rfl rfl
  | discard fc =>
    have hd := h.discard fc (.inl (List.mem_cons_self _ _))
    simp only [exec, List.nil_append]
    refine (h.tail (by simp)).withDiscarded fun fc' hfc' h0 => ?_
    rcases List.mem_append.1 hfc' with hfc' | hfc'
    · exact h.discard fc' (.inr hfc') h0
    · rw [List.mem_singleton.1 hfc']; exact hd (List.mem_singleton.1 hfc' ▸ h0)

theorem shmInv_init (cfg : Config) : ShmInv cfg Server.init [] :=
  ⟨by simp [Server.init], by simp [Dispatching], by simp [Server.init], by simp [Server.init],
    by simp [Invoked, Server.init], by simp, by simp, by simp [Server.init]⟩

theorem shmInv_spawn (cfg : Config) {S : Sys} (h : ShmInv cfg S.srv S.tasks) (hk : KeyInv S.srv S.tasks)
    (e : Event) (ha : S.Allows (.spawn e)) (hL : (spawn cfg S.srv e).1.contexts.length ≤ 4294967296) :
    ShmInv cfg (spawn cfg S.srv e).1 (S.tasks ++ (spawn cfg S.srv e).2) := by
  -- the new context's key is no older context's, so no dispatcher has heard of it
  have arrive : ∀ sink f m body, S.srv.contexts.length + 1 ≤ 4294967296 →
      ShmInv cfg (S.srv.construct sink f m body) (S.tasks ++ [.newExternalFuncCall S.srv.contexts.length]) := by
    intro sink f m body hL
    have hL' : (S.srv.construct sink f m body).contexts.length ≤ 4294967296 := by simpa using hL
    refine ((h.construct hk sink f m body).addFresh fun hi => ?_).perm (List.perm_append_singleton _ _).symm
    obtain ⟨c, hc, hck⟩ := h.invoked _ hi (by rw [construct_callOf_length]; rfl)
    have := (hk.ids.construct sink f m body).callOf_inj hL' (by simp; omega) (by simp)
      ((construct_callOf_lt _ _ _ _ _ hc).trans hck)
    omega
  cases e with
  | httpCall f body => exact arrive .http f 0 body (by simpa [spawn] using hL)
  | grpcCall f mth body => exact arrive .grpc f mth body (by simpa [spawn] using hL)
  | message m =>
    exact (h.addRecv ⟨ha.1, fun ht h0 => (ha.2 ht h0).1⟩).perm (List.perm_append_singleton _ _).symm
  | handshake m =>
    exact (h.append_free (by simp only [spawn]; split <;> simp [Instr.guarded])).perm List.perm_append_comm
  | connectionClose fcs =>
    exact (h.addDiscards fun fc hfc h0 => (ha.2 fc hfc h0).1).perm List.perm_append_comm

theorem shmInv_act {cfg : Config} {s s' : Sys} {a : Action} (h : ShmInv cfg s.srv s.tasks)
    (hk : KeyInv s.srv s.tasks) (ha : s.Allows a) (hact : s.act cfg a = some s')
    (hL : s'.srv.contexts.length ≤ 4294967296) : ShmInv cfg s'.srv s'.tasks := by
  cases a with
  | spawn e =>
    simp only [Sys.act, Option.some.injEq] at hact
    subst hact
    simpa [Sys.tasks] using shmInv_spawn cfg h hk e ha hL
  | exec i ok =>
    obtain ⟨ins, rest, hi, rfl⟩ := Sys.act_exec hact
    obtain ⟨others, h1, h2⟩ := Sys.tasks_set hi (exec cfg ok s.srv ins).2
    exact (shmInv_exec cfg ok (h.perm h1) (hk.subperm h1.symm.subperm) (by simpa using hL)).perm h2.symm
  | shmOutput id data =>
    simp only [Sys.act, Option.some.injEq] at hact
    subst hact
    exact h.frame rfl rfl rfl (fun _ => rfl) (fun _ => by simp) rfl rfl

theorem shmInv_reachable {cfg : Config} {s : Sys} (h : ProtoReachable cfg s)
    (hL : s.srv.contexts.length ≤ 4294967296) : ShmInv cfg s.srv s.tasks := by
  induction h with
  | refl => exact shmInv_init cfg
  | tail hr hst ih =>
    obtain ⟨a, ha, hact⟩ := hst
    have hL' := (contexts_length_le_act hact).trans hL
    exact shmInv_act (ih hL') (keyInv_reachable (ProtoReachable.reachable hr) hL') ha hact hL

/-- When no handler is mid-flight, in a run the worker protocol allows with at most `2^32`
contexts built: the input region named after a call is linked exactly when a resident
context with that call id holds one, which happens only for a body over the inline limit
whose `CreateShmInput` succeeded; a built context outside the running table, pending or
gone, holds no region and none is linked under its name. -/
theorem input_regions_track_residency {cfg : Config} {s : Sys} (h : ProtoReachable cfg s)
    (hL : s.srv.contexts.length ≤ 4294967296) (hq : s.Quiescent) :
    (∀ id, (s.srv.shm (.funcCallInput id)).isSome ↔ ∃ c, s.srv.callOf c = id ∧ s.srv.Resident c ∧
      cfg.messageInlineDataSize < (s.srv.ctx c).input.length ∧ (s.srv.ctxState c).inputRegion) ∧
    (∀ c < s.srv.contexts.length, ¬ s.srv.Resident c →
      (s.srv.ctxState c).inputRegion = false ∧ s.srv.shm (.funcCallInput (s.srv.callOf c)) = none) ∧
    ∀ p ∈ s.srv.pending, ¬ s.srv.Resident p := by
  have hi := shmInv_reachable h hL
  have hk := keyInv_reachable h.reachable hL
  have hnil : s.tasks = [] := List.flatten_eq_nil_iff.2 hq
  -- with no handler mid-flight, a holder is resident
  have holder : ∀ c, (s.srv.ctxState c).inputRegion → c < s.srv.contexts.length ∧
      cfg.messageInlineDataSize < (s.srv.ctx c).input.length ∧ s.srv.Resident c := fun c hc =>
    let ⟨h1, h2, h3⟩ := hi.holder c hc
    ⟨h1, h2, h3.resolve_right (by simp [hnil])⟩
  refine ⟨fun id => (hi.shm id).trans ⟨fun ⟨c, _, hc, hf⟩ => ⟨c, hc, (holder c hf).2.2, (holder c hf).2.1, hf⟩,
    fun ⟨c, hc, _, _, hf⟩ => ⟨c, (holder c hf).1, hc, hf⟩⟩, fun c hc hr => ?_,
    fun p hp hr => ?_⟩
  · have hflag : (s.srv.ctxState c).inputRegion = false := by
      by_contra hf
      exact hr (holder c (by simpa using hf)).2.2
    refine ⟨hflag, Option.not_isSome_iff_eq_none.1 fun hs => ?_⟩
    obtain ⟨d, hd, hdc, hf⟩ := (hi.shm _).1 hs
    obtain rfl := hk.ids.callOf_inj hL hd hc hdc
    simp [hflag] at hf
  · rw [Resident, hk.fresh_absent p (.inr hp)] at hr
    cases hr

/-- A request with a body over the inline limit, dispatched through a region. -/
def bigArrival : List Action :=
  [.spawn (.httpCall 1 [1, 2, 3]), .exec 0 true, .exec 0 true, .exec 0 true, .exec 0 true]

theorem input_regions_track_residency_big_body :
    ∃ s, ProtoReachable smallInlineConfig s ∧ s.srv.contexts.length ≤ 4294967296 ∧ s.Quiescent ∧
      (s.srv.shm (.funcCallInput (s.srv.callOf 0))).isSome ∧
      (∀ id, (s.srv.shm (.funcCallInput id)).isSome ↔ ∃ c, s.srv.callOf c = id ∧ s.srv.Resident c ∧
        smallInlineConfig.messageInlineDataSize < (s.srv.ctx c).input.length ∧ (s.srv.ctxState c).inputRegion) ∧
      (∀ c < s.srv.contexts.length, ¬ s.srv.Resident c →
        (s.srv.ctxState c).inputRegion = false ∧ s.srv.shm (.funcCallInput (s.srv.callOf c)) = none) ∧
      ∀ p ∈ s.srv.pending, ¬ s.srv.Resident p := by
  obtain ⟨s, hs, hL, hq, hshm⟩ : ∃ s, Sys.init.replay smallInlineConfig bigArrival = some s ∧
      s.srv.contexts.length = 1 ∧ s.Quiescent ∧ (s.srv.shm (.funcCallInput (s.srv.callOf 0))).isSome :=
    ⟨_, rfl, by decide, by decide, by decide⟩
  have h := Sys.replay_protoReachable _ .refl hs
  exact ⟨s, h, by omega, hq, hshm, input_regions_track_residency h (by omega) hq⟩

end Nightcore.Gateway
