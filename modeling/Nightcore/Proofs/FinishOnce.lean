import Nightcore.Proofs.Accounting

/-! Single finalization, and what it takes. Every exit path of a context answers it from a
piece that holds it: its admission and dispatch, a completion's or a failure's continuation
that took it out of the running table, or a sweep's answer to a discarded call. A context
that a worker accepted sits in the running table until exactly one of these takes it out.
So the finalizations a context has had, and those it still has coming from the pieces to
run, the queue and the running table, add up to at most one, as long as nothing takes a
context out of the table whose dispatch may still fail: completions come only after
`OnNewFuncCall` returned `true` (the worker protocol), and the `WorkerManager` discards an
external call only after a worker accepted it. Under the weaker protocol, where a call is
discarded once `OnNewFuncCall` was called for it, a sweep can answer a context whose
dispatch failed and that its caller has yet to erase, and that context is answered
twice. -/

namespace Nightcore.Gateway

open Server

/-- The context a piece may answer, directly or through the pieces it starts. -/
def Instr.finisher : Instr → Option Nat
  | .newExternalFuncCall c | .dispatch c | .dispatchLocked c | .dispatchTail c _
  | .finishDiscarded c => some c
  | .recvTail _ c _ => c
  | .erase _ | .recv _ | .invokeTail _ _ | .destroy _ | .sweep | .notify _ | .discard _ => none

namespace Server

instance (s : Server) (c : Nat) : Decidable (s.Resident c) := inferInstanceAs (Decidable (_ = _))

@[simp] theorem respond_invoked (s : Server) (c : Nat) (f) (k : FuncCall) (a : Bool) :
    (s.respond c f).Invoked k a ↔ s.Invoked k a := Iff.rfl

/-- The answers the tables owe context `c`: a place in the queue, or a place in the running
table once a worker accepted its call, from where a completion, a failure or a sweep takes
it out to answer it. -/
def standing (s : Server) (c : Nat) : Nat :=
  (if c ∈ s.pending then 1 else 0) + (if s.Resident c ∧ s.Invoked (s.callOf c) true then 1 else 0)

end Server

/-- The answers context `c` has coming. -/
def owed (s : Server) (tasks : List Instr) (c : Nat) : Nat :=
  tasks.countP (·.finisher = some c) + s.standing c

/-- Every context is answered at most once: the answers it had and those it has coming add
up to at most one, and to none for a context not yet built; and every external call
discarded was accepted by a worker. -/
structure OnceInv (s : Server) (tasks : List Instr) : Prop where
  bound : ∀ c, (s.ctxState c).response.finishes + owed s tasks c ≤ if c < s.contexts.length then 1 else 0
  discarded : ∀ fc ∈ s.discarded, fc.clientId = 0 → s.Invoked fc true
  discards : ∀ fc, Instr.discard fc ∈ tasks → fc.clientId = 0 → s.Invoked fc true

theorem Finalizes.finisher {cfg : Config} {ok : Bool} {s : Server} {c : Nat} {ins : Instr}
    {v : Finalization} (h : Finalizes cfg ok s c ins v) : ins.finisher = some c := by
  cases h <;> rfl

theorem exec_finishes_le {cfg : Config} {ok : Bool} {s : Server} {ins : Instr}
    (hins : ∀ m d found, ins = .recvTail m d found →
      m.messageType = .funcCallComplete ∨ m.messageType = .funcCallFailed) (c : Nat) :
    ((exec cfg ok s ins).1.ctxState c).response.finishes ≤
      (s.ctxState c).response.finishes + if ins.finisher = some c then 1 else 0 := by
  rcases exec_response_cases cfg ok s ins c hins with h | ⟨v, hv⟩
  · rw [h]; omega
  · rw [hv.exec_response, Finalization.apply_finishes, if_pos hv.finisher]

theorem recvTail_invoked (ok : Bool) (s : Server) (m : Message) (c : Option Nat) (found : Bool)
    (k : FuncCall) (a : Bool) : (recvTail ok s m c found).Invoked k a ↔ s.Invoked k a := by
  have base : ∀ t : Server, (recvTail ok t m c false).Invoked k a ↔ t.Invoked k a := fun t => by
    simp only [recvTail, Bool.false_eq_true, ↓reduceIte]
    split_ifs <;> (try split) <;>
      simp only [Invoked, finishWithShmOutput_dispatcherCalls, respond_dispatcherCalls]
  cases found
  · exact base s
  · refine (base _).trans ((invoked_append _ _ _ _).trans (or_iff_left ?_))
    rintro ⟨p, n, d, b, a', he, -⟩
    split at he <;> cases he

theorem exec_invoked_true {cfg : Config} {ok : Bool} {s : Server} {ins : Instr} {k : FuncCall} :
    (exec cfg ok s ins).1.Invoked k true ↔ s.Invoked k true ∨
      (∃ c, ins = .dispatchTail c true ∧ ok = true ∧ k = s.callOf c) ∨
      ∃ m, ins = .invokeTail m true ∧ ok = true ∧ k = m.funcCall := by
  have same : ∀ t : Server, t.dispatcherCalls = s.dispatcherCalls → (t.Invoked k true ↔ s.Invoked k true) :=
    fun t h => by simp only [Invoked, h]
  cases ins with
  | dispatchTail c found =>
    cases found
    · simp [exec, dispatchTail, same]
    · by_cases hb : (s.ctx c).input.length ≤ cfg.messageInlineDataSize <;> cases ok <;>
        simp [exec, dispatchTail, hb, same, invoked_append, eq_comm]
  | invokeTail m found =>
    cases found
    · simp [exec, recvInvokeTail]
    · cases ok <;> simp [exec, recvInvokeTail, invoked_append, eq_comm]
  | recvTail m c found => simp [exec, recvTail_invoked]
  | recv m =>
    simp only [exec]
    split <;> simp [same, recvLocked]
  | dispatchLocked c =>
    simp only [exec]
    rw [dispatchLocked_eq]
    simp [same]
  | _ => simp [exec, same, sweepLocked]

namespace Server

theorem resident_iff {s t : Server} (h1 : t.contexts = s.contexts) {c : Nat} :
    t.Resident c ↔ t.running.lookup (s.callOf c) = some c := by
  unfold Resident
  rw [show t.callOf c = s.callOf c from congrArg Ctx.call (ctx_eq_of_contexts h1 c)]

theorem standing_withPending (s : Server) (q : List Nat) (c : Nat) :
    standing { s with pending := q } c =
      (if c ∈ q then 1 else 0) + if s.Resident c ∧ s.Invoked (s.callOf c) true then 1 else 0 := rfl

theorem invoked_congr {s t : Server} (h : t.dispatcherCalls = s.dispatcherCalls) (k : FuncCall) (a : Bool) :
    t.Invoked k a ↔ s.Invoked k a := by
  simp only [Invoked, h]

theorem standing_frame {s t : Server} (c : Nat) (h1 : t.contexts = s.contexts) (h2 : t.running = s.running)
    (h3 : t.pending = s.pending) (h4 : t.dispatcherCalls = s.dispatcherCalls) : t.standing c = s.standing c := by
  simp only [standing, resident_iff h1, h2, h3, invoked_congr h4,
    show t.callOf c = s.callOf c from congrArg Ctx.call (ctx_eq_of_contexts h1 c)]
  rfl

theorem standing_le {s t : Server} {c : Nat} (hp : c ∈ t.pending → c ∈ s.pending)
    (hr : t.Resident c → t.Invoked (t.callOf c) true → s.Resident c ∧ s.Invoked (s.callOf c) true) :
    t.standing c ≤ s.standing c := by
  unfold standing
  have h1 : (if c ∈ t.pending then 1 else 0) ≤ if c ∈ s.pending then 1 else 0 := by
    split_ifs <;> simp_all
  have h2 : (if t.Resident c ∧ t.Invoked (t.callOf c) true then 1 else 0) ≤
      if s.Resident c ∧ s.Invoked (s.callOf c) true then 1 else 0 := by
    split_ifs with ht hs
    · exact le_refl _
    · exact absurd (hr ht.1 ht.2) hs
    · exact Nat.zero_le _
    · exact le_refl _
  omega

theorem standing_transfer {s t : Server} {c : Nat} {E P : List Nat} (hc : t.callOf c = s.callOf c)
    (hE : c ∈ E → s.Resident c ∧ s.Invoked (s.callOf c) true ∧ ¬ t.Resident c) (hEn : E.Nodup)
    (hpend : s.pending = P ++ t.pending) (hnd : s.pending.Nodup)
    (hres : t.Resident c → s.Resident c ∨ c ∈ P) (hinv : t.Invoked (s.callOf c) true → s.Invoked (s.callOf c) true)
    (hfresh : c ∈ s.pending → ¬ s.Resident c ∧ ¬ s.Invoked (s.callOf c) true) :
    E.countP (· = c) + P.countP (· = c) + t.standing c ≤ s.standing c := by
  have hcnt : ∀ l : List Nat, l.countP (· = c) = l.count c := fun l => by
    rw [List.count_eq_countP]
    exact List.countP_congr fun x _ => by simp
  rw [hcnt, hcnt]
  rw [hpend, List.nodup_append] at hnd
  by_cases hcE : c ∈ E
  · obtain ⟨hr, hi, hnt⟩ := hE hcE
    have hcp : c ∉ P ++ t.pending := fun hm => (hfresh (hpend ▸ hm)).1 hr
    rw [List.mem_append, not_or] at hcp
    simp [standing, List.count_eq_one_of_mem hEn hcE, List.count_eq_zero_of_not_mem hcp.1, hcp.2, hnt, hpend,
      hr, hi]
  · by_cases hcP : c ∈ P
    · obtain ⟨hr, hi⟩ := hfresh (hpend ▸ List.mem_append_left _ hcP)
      have hct : c ∉ t.pending := fun hm => hnd.2.2 hcP hm
      simp [standing, List.count_eq_zero_of_not_mem hcE, List.count_eq_one_of_mem hnd.1 hcP, hct, hpend, hcP,
        hc, hi, hr, mt hinv hi]
    · rw [List.count_eq_zero_of_not_mem hcE, List.count_eq_zero_of_not_mem hcP, Nat.zero_add]
      exact standing_le (fun hm => hpend ▸ List.mem_append_right _ hm)
        fun ht hi => ⟨(hres ht).resolve_right hcP, hinv (hc ▸ hi)⟩

theorem popPending_back (s : Server) :
    (∀ c, (popPending s).1.Resident c → s.Resident c ∨ (popPending s).2 = some c) ∧
      s.pending = (popPending s).2.toList ++ (popPending s).1.pending := by
  unfold popPending
  split
  · rename_i p rest hp
    refine ⟨fun c hc => ?_, by simp [hp]⟩
    replace hc := (resident_iff (s := s) (by simp)).1 hc
    rw [putRunning_running] at hc
    by_cases he : s.callOf c = s.callOf p
    · rw [he, AList.lookup_insert] at hc
      exact .inr (congrArg some (Option.some.inj hc))
    · exact .inl (by rwa [AList.lookup_insert_ne he] at hc)
  · exact ⟨fun c hc => .inl hc, by simp [*]⟩

theorem lookup_of_lookup_erase {m : RunningMap} {fc k : FuncCall} {c : Nat}
    (h : (m.erase fc).lookup k = some c) : m.lookup k = some c := by
  by_cases hk : k = fc
  · rw [hk, AList.lookup_erase] at h; cases h
  · rwa [AList.lookup_erase_ne hk] at h

theorem erase_back {s : Server} {c0 : Nat} {fc : FuncCall} (hk0 : s.callOf c0 = fc) :
    (∀ c, Resident { s with running := s.running.erase fc } c → s.Resident c ∧ c ≠ c0) ∧
      ¬ Resident { s with running := s.running.erase fc } c0 := by
  have key : ∀ c, Resident { s with running := s.running.erase fc } c ↔
      (s.running.erase fc).lookup (s.callOf c) = some c := fun c => resident_iff rfl
  refine ⟨fun c hc => ⟨lookup_of_lookup_erase hc, fun he => ?_⟩, fun hc => ?_⟩
  · subst he
    rw [key, hk0, AList.lookup_erase] at hc
    cases hc
  · rw [key, hk0, AList.lookup_erase] at hc
    cases hc

theorem recvTake_back {s : Server} {fc : FuncCall}
    (hkey : ∀ k c, s.running.lookup k = some c → s.callOf c = k)
    (hfresh : ∀ p ∈ s.pending, s.running.lookup (s.callOf p) = none) :
    (∀ c, (recvTake cfg s fc).1.Resident c → s.Resident c ∨ (recvTake cfg s fc).2.2 = some c) ∧
    (∀ c, (recvTake cfg s fc).2.1 = some c → s.Resident c ∧ s.callOf c = fc ∧ fc.clientId = 0 ∧
      ¬ (recvTake cfg s fc).1.Resident c) ∧
    s.pending = (recvTake cfg s fc).2.2.toList ++ (recvTake cfg s fc).1.pending := by
  unfold recvTake
  split
  · rename_i c0 hc0
    split_ifs at hc0 with h0
    have hk0 := hkey fc c0 hc0
    have hr0 : s.Resident c0 := by rw [Resident, hk0]; exact hc0
    obtain ⟨back, gone⟩ := erase_back hk0
    dsimp only
    split_ifs
    · obtain ⟨pb, pp⟩ := popPending_back { s with running := s.running.erase fc }
      refine ⟨fun c hc => (pb c hc).imp_left fun h => (back c h).1, fun c hc => ?_, pp⟩
      cases hc
      refine ⟨hr0, hk0, h0, fun hr => (pb _ hr).elim gone fun hp => ?_⟩
      rw [hp, Option.toList_some, List.singleton_append] at pp
      have hm : c0 ∈ s.pending := by rw [show s.pending = _ from pp]; exact List.mem_cons_self _ _
      exact absurd (hfresh c0 hm) (by rw [hr0]; simp)
    · refine ⟨fun c hc => .inl (back c hc).1, fun c hc => ?_, by simp⟩
      cases hc
      exact ⟨hr0, hk0, h0, gone⟩
  · exact ⟨fun c hc => .inl hc, fun c hc => absurd hc (by simp), by simp⟩

theorem resident_withDispatchers (t : Server) (d : List UInt16) (c : Nat) :
    Resident { t with dispatchers := d } c ↔ t.Resident c := Iff.rfl

theorem recvLocked_back {s : Server} {m : Message}
    (hkey : ∀ k c, s.running.lookup k = some c → s.callOf c = k)
    (hfresh : ∀ p ∈ s.pending, s.running.lookup (s.callOf p) = none) :
    (∀ c, (recvLocked cfg s m).srv.Resident c → s.Resident c ∨ (recvLocked cfg s m).promoted = some c) ∧
    (∀ c, (recvLocked cfg s m).taken = some c → s.Resident c ∧ s.callOf c = m.funcCall ∧
      m.funcCall.clientId = 0 ∧ ¬ (recvLocked cfg s m).srv.Resident c) ∧
    s.pending = (recvLocked cfg s m).promoted.toList ++ (recvLocked cfg s m).srv.pending := by
  have hsrv : (recvLocked cfg s m).srv =
      { (recvTake cfg s m.funcCall).1 with dispatchers := (recvLocked cfg s m).srv.dispatchers } := by
    simp only [recvLocked, getOrCreateDispatcherLocked_fst]
  rw [hsrv]
  simp only [resident_withDispatchers]
  exact recvTake_back hkey hfresh

theorem takeDiscarded_back (l : List FuncCall) {s : Server}
    (hkey : ∀ k c, s.running.lookup k = some c → s.callOf c = k) :
    (∀ c, (takeDiscarded s l).1.Resident c → s.Resident c) ∧
    (∀ c ∈ (takeDiscarded s l).2.1, s.Resident c ∧ s.callOf c ∈ l ∧ (s.callOf c).clientId = 0 ∧
      ¬ (takeDiscarded s l).1.Resident c) ∧ (takeDiscarded s l).2.1.Nodup := by
  induction l generalizing s with
  | nil => exact ⟨fun _ h => h, by simp [takeDiscarded], List.nodup_nil⟩
  | cons fc rest ih =>
    simp only [takeDiscarded]
    split_ifs with h0
    · split
      · rename_i c0 hc0
        have hk0 := hkey fc c0 hc0
        obtain ⟨back, gone⟩ := erase_back hk0
        obtain ⟨i1, i2, i3⟩ := ih (s := { s with running := s.running.erase fc })
          fun k c h => hkey k c (lookup_of_lookup_erase h)
        refine ⟨fun c hc => (back c (i1 c hc)).1, fun c hc => ?_,
          List.nodup_cons.2 ⟨fun hm => gone (i2 c0 hm).1, i3⟩⟩
        rcases List.mem_cons.1 hc with rfl | hc
        · exact ⟨by rw [Resident, hk0]; exact hc0, by simp [hk0], hk0 ▸ h0, fun hr => gone (i1 _ hr)⟩
        · obtain ⟨r1, r2, r3, r4⟩ := i2 c hc
          exact ⟨(back c r1).1, List.mem_cons_of_mem _ r2, r3, r4⟩
      · obtain ⟨i1, i2, i3⟩ := ih hkey
        exact ⟨i1, fun c hc => let ⟨r1, r2, r3, r4⟩ := i2 c hc; ⟨r1, List.mem_cons_of_mem _ r2, r3, r4⟩, i3⟩
    · obtain ⟨i1, i2, i3⟩ := ih hkey
      exact ⟨i1, fun c hc => let ⟨r1, r2, r3, r4⟩ := i2 c hc; ⟨r1, List.mem_cons_of_mem _ r2, r3, r4⟩, i3⟩

theorem promote_back (q : List Nat) {s : Server} (hq : s.pending = q) :
    (∀ c, (promote cfg s q).1.Resident c → s.Resident c ∨ c ∈ (promote cfg s q).2) ∧
      q = (promote cfg s q).2 ++ (promote cfg s q).1.pending := by
  induction q generalizing s with
  | nil => exact ⟨fun c hc => .inl hc, by simp [promote, hq]⟩
  | cons p rest ih =>
    simp only [promote]
    split_ifs
    · have hpop : popPending s = ({ s with pending := rest }.putRunning (s.callOf p) p, some p) := by
        simp [popPending, hq]
      obtain ⟨pb, -⟩ := popPending_back s
      rw [hpop] at pb
      obtain ⟨i1, i2⟩ := ih (s := { s with pending := rest }.putRunning (s.callOf p) p) (by simp)
      refine ⟨fun c hc => ?_, by rw [List.cons_append, ← i2]⟩
      rcases i1 c hc with h | h
      · exact (pb c h).imp_right fun h => by cases h; exact List.mem_cons_self _ _
      · exact .inr (List.mem_cons_of_mem _ h)
    · exact ⟨fun c hc => .inl hc, by simp [hq]⟩

theorem sweepLocked_back {s : Server} (hkey : ∀ k c, s.running.lookup k = some c → s.callOf c = k)
    (hfresh : ∀ p ∈ s.pending, s.running.lookup (s.callOf p) = none) :
    (∀ c, (sweepLocked cfg s).srv.Resident c → s.Resident c ∨ c ∈ (sweepLocked cfg s).promoted) ∧
    (∀ c ∈ (sweepLocked cfg s).external, s.Resident c ∧ s.callOf c ∈ s.discarded ∧
      (s.callOf c).clientId = 0 ∧ ¬ (sweepLocked cfg s).srv.Resident c) ∧
    (sweepLocked cfg s).external.Nodup ∧
    s.pending = (sweepLocked cfg s).promoted ++ (sweepLocked cfg s).srv.pending := by
  obtain ⟨t1, t2, t3⟩ := takeDiscarded_back s.discarded hkey
  obtain ⟨p1, p2⟩ := @promote_back cfg _ ({ (takeDiscarded s s.discarded).1 with discarded := [] })
    rfl
  replace p2 : s.pending = _ := (takeDiscarded_pending s s.discarded).symm.trans p2
  refine ⟨fun c hc => (p1 c hc).imp_left (t1 c), fun c hc => ?_, t3, p2⟩
  obtain ⟨h1, h2, h3, h4⟩ := t2 c hc
  refine ⟨h1, h2, h3, fun hr => (p1 c hr).elim h4 fun hp => ?_⟩
  exact absurd (hfresh c (p2 ▸ List.mem_append_left _ hp)) (by rw [h1]; simp)

end Server

theorem exec_discarded {cfg : Config} {ok : Bool} {s : Server} {ins : Instr} {fc : FuncCall}
    (h : fc ∈ (exec cfg ok s ins).1.discarded) : fc ∈ s.discarded ∨ ins = .discard fc := by
  cases ins with
  | recv m =>
    simp only [exec] at h
    split at h <;> simp_all [recvLocked]
  | dispatchLocked c =>
    simp only [exec] at h
    rw [dispatchLocked_eq] at h
    exact .inl h
  | sweep => simp [exec, sweepLocked] at h
  | discard fc' => simpa [exec, eq_comm] using h
  | _ => simp_all [exec]

theorem exec_no_discard {cfg : Config} {ok : Bool} {s : Server} {ins : Instr} (fc : FuncCall) :
    Instr.discard fc ∉ (exec cfg ok s ins).2 := by
  cases ins with
  | recv m => simp only [exec]; split <;> simp
  | _ => simp only [exec]; (try split_ifs) <;> simp

namespace OnceInv

variable {s t : Server} {x : Instr} {rest next : List Instr}

theorem step (h : OnceInv s (x :: rest)) (h1 : t.contexts = s.contexts)
    (hloc : ∀ c, (t.ctxState c).response.finishes + next.countP (·.finisher = some c) + t.standing c ≤
      (s.ctxState c).response.finishes + (if x.finisher = some c then 1 else 0) + s.standing c)
    (hmono : ∀ k, s.Invoked k true → t.Invoked k true)
    (hdisc : ∀ fc ∈ t.discarded, fc ∈ s.discarded ∨ Instr.discard fc ∈ x :: rest)
    (hnext : ∀ fc, Instr.discard fc ∉ next) : OnceInv t (next ++ rest) := by
  refine ⟨fun c => ?_, fun fc hfc h0 => ?_, fun fc hfc h0 => ?_⟩
  · have hb := h.bound c
    have hl := hloc c
    simp only [owed, List.countP_append, List.countP_cons, decide_eq_true_eq, h1] at hb ⊢
    omega
  · rcases hdisc fc hfc with hd | hd
    · exact hmono fc (h.discarded fc hd h0)
    · exact hmono fc (h.discards fc hd h0)
  · rcases List.mem_append.1 hfc with hf | hf
    · exact absurd hf (hnext fc)
    · exact hmono fc (h.discards fc (List.mem_cons_of_mem _ hf) h0)

theorem perm {tasks tasks' : List Instr} (h : OnceInv s tasks) (hp : tasks.Perm tasks') : OnceInv s tasks' :=
  ⟨fun c => by simpa only [owed, hp.countP_eq] using h.bound c, h.discarded,
    fun fc hfc => h.discards fc (hp.symm.subset hfc)⟩

theorem construct {tasks : List Instr} (h : OnceInv s tasks) (hk : KeyInv s tasks) (sink : Sink)
    (f mth : UInt16) (body : List UInt8) :
    OnceInv (s.construct sink f mth body) (tasks ++ [.newExternalFuncCall s.contexts.length]) := by
  refine ⟨fun c => ?_, h.discarded, fun fc hfc => h.discards fc (by simpa using hfc)⟩
  have hb := h.bound c
  have hcount : (tasks ++ [Instr.newExternalFuncCall s.contexts.length]).countP (·.finisher = some c) =
      tasks.countP (·.finisher = some c) + if s.contexts.length = c then 1 else 0 := by
    rw [List.countP_append, List.countP_singleton]
    simp [Instr.finisher]
  -- the tables owe nothing to a context not built before
  have hst : (s.construct sink f mth body).standing c = if c < s.contexts.length then s.standing c else 0 := by
    split_ifs with hc
    · have hr : (s.construct sink f mth body).Resident c ↔ s.Resident c := by
        unfold Resident
        rw [construct_callOf_lt _ _ _ _ _ hc]
        rfl
      simp only [standing, hr, construct_pending, construct_callOf_lt _ _ _ _ _ hc,
        invoked_congr (s := s) (t := s.construct sink f mth body) rfl]
    · have hp : c ∉ s.pending := fun hp => hc (hk.tokens_lt c (@KeyInv.mem_tokens _ tasks _ (.inr hp)))
      have hr : ¬ Resident (s.construct sink f mth body) c := fun hr => hc (hk.running_key _ c hr).2
      simp [standing, hp, hr]
  simp only [owed, hcount, hst, construct_contexts, List.length_append, List.length_singleton] at hb ⊢
  show (s.ctxState c).response.finishes + _ ≤ _
  split_ifs at hb ⊢ <;> omega

end OnceInv

@[simp] theorem exec_callOf (cfg : Config) (ok : Bool) (s : Server) (ins : Instr) (c : Nat) :
    (exec cfg ok s ins).1.callOf c = s.callOf c :=
  congrArg Ctx.call (ctx_eq_of_contexts (exec_contexts ..) c)

/-- Piece `ins` keeps context `c`'s count: what it answers of `c` and leaves owed to it is
no more than what it held for `c` and what the tables owed. -/
def Keeps (cfg : Config) (ok : Bool) (s : Server) (ins : Instr) (c : Nat) : Prop :=
  ((exec cfg ok s ins).1.ctxState c).response.finishes + (exec cfg ok s ins).2.countP (·.finisher = some c) +
      (exec cfg ok s ins).1.standing c ≤
    (s.ctxState c).response.finishes + (if ins.finisher = some c then 1 else 0) + s.standing c

section Keeps

variable {cfg : Config} {ok : Bool} {s : Server} {tasks : List Instr} (c : Nat)

theorem pending_idle (hk : KeyInv s tasks) (hs : ShmInv cfg s tasks) {p : Nat} (hp : p ∈ s.pending) :
    ¬ s.Resident p ∧ ¬ s.Invoked (s.callOf p) true :=
  ⟨fun hr => (by rw [Resident, hk.fresh_absent p (.inr hp)] at hr; cases hr),
    fun hi => hs.fresh p (.inr hp) hi.of_true⟩

theorem standing_exec_le {ins : Instr} (hk : KeyInv s tasks) (h2 : (exec cfg ok s ins).1.running = s.running)
    (h3 : (exec cfg ok s ins).1.pending = s.pending)
    (hi : ∀ k, (exec cfg ok s ins).1.Invoked k true → s.Invoked k true ∨ k.clientId ≠ 0) :
    (exec cfg ok s ins).1.standing c ≤ s.standing c :=
  standing_le (by rw [h3]; exact id) fun hr hinv => by
    rw [resident_iff (exec_contexts ..), h2] at hr
    rw [exec_callOf] at hinv
    exact ⟨hr, (hi _ hinv).resolve_right (not_not.2 (hk.ids.2 c (hk.running_key _ c hr).2).1)⟩

theorem keeps_of_frame {ins : Instr} (hk : KeyInv s tasks)
    (hins : ∀ m d found, ins = .recvTail m d found →
      m.messageType = .funcCallComplete ∨ m.messageType = .funcCallFailed)
    (h2 : (exec cfg ok s ins).1.running = s.running) (h3 : (exec cfg ok s ins).1.pending = s.pending)
    (hi : ∀ k, (exec cfg ok s ins).1.Invoked k true → s.Invoked k true ∨ k.clientId ≠ 0)
    (h0 : ∀ x ∈ (exec cfg ok s ins).2, x.finisher = none) : Keeps cfg ok s ins c := by
  have hn : (exec cfg ok s ins).2.countP (·.finisher = some c) = 0 :=
    List.countP_eq_zero.2 fun x hx => by simp [h0 x hx]
  have := @exec_finishes_le cfg ok s _ hins c
  have := standing_exec_le c hk h2 h3 hi
  unfold Keeps
  omega

theorem keeps_newExternalFuncCall {e : Nat} (hk : KeyInv s (.newExternalFuncCall e :: tasks))
    (hs : ShmInv cfg s (.newExternalFuncCall e :: tasks)) : Keeps cfg ok s (.newExternalFuncCall e) c := by
  have he0 := List.mem_cons_self (Instr.newExternalFuncCall e) tasks
  unfold Keeps
  by_cases hr : s.HasRoom cfg
  · -- admitted: `e` enters the running table, not yet accepted by a worker
    have heq : exec cfg ok s (.newExternalFuncCall e) =
        ({ s with running := s.running.insert (s.callOf e) e }, [.dispatch e]) := by
      simp only [exec, newExternalFuncCallLocked, hr, ↓reduceIte]
      rw [putRunning_of_lookup_eq_none (hk.fresh_absent e (.inl he0))]
    have hst : standing { s with running := s.running.insert (s.callOf e) e } c ≤ s.standing c := by
      refine standing_le id fun hrc hi => ?_
      by_cases hce : c = e
      · exact absurd (hce ▸ hi).of_true (hs.fresh e (.inl he0))
      · refine ⟨?_, hi⟩
        change (s.running.insert (s.callOf e) e).lookup (s.callOf c) = some c at hrc
        by_cases hk' : s.callOf c = s.callOf e
        · rw [hk', AList.lookup_insert] at hrc
          exact absurd (Option.some.inj hrc).symm hce
        · rwa [AList.lookup_insert_ne hk'] at hrc
    simp only [heq, List.countP_cons, List.countP_nil, Instr.finisher, decide_eq_true_eq]
    show (s.ctxState c).response.finishes + _ + _ ≤ _
    omega
  · -- queued at the back
    have heq : exec cfg ok s (.newExternalFuncCall e) = ({ s with pending := s.pending ++ [e] }, []) := by
      simp only [exec, newExternalFuncCallLocked, hr, ↓reduceIte, Bool.false_eq_true]
    have hst : standing { s with pending := s.pending ++ [e] } c ≤ s.standing c + if e = c then 1 else 0 := by
      rw [standing_withPending]
      unfold standing
      by_cases hce : e = c
      · subst hce
        simp only [List.mem_append, List.mem_singleton, or_true, ↓reduceIte]
        split_ifs <;> omega
      · simp [Ne.symm hce]
    simp only [heq, List.countP_nil, Instr.finisher, Option.some.injEq]
    show (s.ctxState c).response.finishes + _ + _ ≤ _
    omega

theorem keeps_dispatch {e : Nat} (hk : KeyInv s tasks) : Keeps cfg ok s (.dispatch e) c := by
  have hi : ∀ k, (exec cfg ok s (.dispatch e)).1.Invoked k true → s.Invoked k true ∨ k.clientId ≠ 0 :=
    fun k hi => .inl ((exec_invoked_true.1 hi).resolve_right (by simp))
  cases hok : (dispatchStart cfg ok s e).2
  · -- `ShmCreate` failed and answered `e`, whose caller erases it
    exact keeps_of_frame c hk (fun _ _ _ h => nomatch h) (by simp [exec]) (by simp [exec]) hi
      (by simp [exec, hok, Instr.finisher])
  · -- the start answered nothing and hands `e` to the locked section
    have hr : ((exec cfg ok s (.dispatch e)).1.ctxState c).response = (s.ctxState c).response :=
      (exec_response_cases cfg ok s (.dispatch e) c fun _ _ _ h => nomatch h).resolve_right fun ⟨v, hv⟩ => by
        cases hv with
        | inputShmFailed hbig hf => subst hf; simp [dispatchStart, hbig, createShmInput] at hok
    have h0 : (exec cfg ok s (.dispatch e)).2.countP (·.finisher = some c) =
        if (Instr.dispatch e).finisher = some c then 1 else 0 := by
      simp only [exec, hok, ↓reduceIte, List.countP_singleton]
      simp [Instr.finisher]
    have := standing_exec_le c hk (by simp [exec]) (by simp [exec]) hi
    unfold Keeps
    rw [hr]
    omega

theorem keeps_dispatchLocked {e : Nat} (hk : KeyInv s tasks) : Keeps cfg ok s (.dispatchLocked e) c := by
  have hcs : (exec cfg ok s (.dispatchLocked e)).1 = { s with
      inputUseShm := (dispatchLocked cfg s e).1.inputUseShm, dispatchers := (dispatchLocked cfg s e).1.dispatchers } := by
    simp only [exec]; rw [dispatchLocked_eq]
  have := standing_exec_le c hk (by rw [hcs]) (by rw [hcs]) fun k hi =>
    .inl ((exec_invoked_true.1 hi).resolve_right (by simp))
  have h0 : (exec cfg ok s (.dispatchLocked e)).2.countP (·.finisher = some c) =
      if (Instr.dispatchLocked e).finisher = some c then 1 else 0 := by
    simp only [exec, List.countP_singleton]
    simp [Instr.finisher]
  unfold Keeps
  rw [show (exec cfg ok s (.dispatchLocked e)).1.ctxState = s.ctxState by rw [hcs]]
  omega

theorem keeps_dispatchTail {e : Nat} {found : Bool} (hk : KeyInv s (.dispatchTail e found :: tasks))
    (hs : ShmInv cfg s (.dispatchTail e found :: tasks)) : Keeps cfg ok s (.dispatchTail e found) c := by
  have h2 : (exec cfg ok s (.dispatchTail e found)).1.running = s.running := by simp [exec]
  have h3 : (exec cfg ok s (.dispatchTail e found)).1.pending = s.pending := by simp [exec]
  have h0 : ∀ x ∈ (exec cfg ok s (.dispatchTail e found)).2, x.finisher = none := by
    simp only [exec]; split <;> simp [Instr.finisher]
  by_cases hacc : found = true ∧ ok = true
  · obtain ⟨rfl, rfl⟩ := hacc
    -- a worker accepted `e`: nothing is answered, and `e` now stands in the running table
    have hres : s.Resident e := (hs.dispatching e ⟨_, List.mem_cons_self _ _, rfl⟩).1
    have hr : ((exec cfg true s (.dispatchTail e true)).1.ctxState c).response = (s.ctxState c).response :=
      (exec_response_cases cfg true s (.dispatchTail e true) c fun _ _ _ h => nomatch h).resolve_right fun ⟨v, hv⟩ => by
        cases hv with
        | rejected hf => cases hf
    have hn : (exec cfg true s (.dispatchTail e true)).2.countP (·.finisher = some c) = 0 :=
      List.countP_eq_zero.2 fun x hx => by simp [h0 x hx]
    have hst : (exec cfg true s (.dispatchTail e true)).1.standing c ≤
        s.standing c + if (Instr.dispatchTail e true).finisher = some c then 1 else 0 := by
      by_cases hce : c = e
      · subst hce
        unfold standing
        rw [h3]
        simp only [Instr.finisher, ↓reduceIte]
        split_ifs <;> omega
      · refine (standing_le (by rw [h3]; exact id) fun hrc hi => ?_).trans (Nat.le_add_right _ _)
        rw [resident_iff (exec_contexts ..), h2] at hrc
        rw [exec_callOf] at hi
        refine ⟨hrc, ?_⟩
        rcases exec_invoked_true.1 hi with hi | ⟨c', he, -, hk'⟩ | ⟨m, he, -⟩
        · exact hi
        · cases he
          rw [hk', hres] at hrc
          exact absurd (Option.some.inj hrc).symm hce
        · cases he
    unfold Keeps
    rw [hr]
    omega
  · -- rejected: `e` is answered, and its erase piece holds nothing more
    exact keeps_of_frame c hk (fun _ _ _ h => nomatch h) h2 h3 (fun k hi => .inl ((exec_invoked_true.1 hi).resolve_right
      fun h => h.elim (fun ⟨c', he, hok, _⟩ => by cases he; exact hacc ⟨rfl, hok⟩) fun ⟨m, he, _⟩ => by cases he)) h0

theorem keeps_erase {e : Nat} : Keeps cfg ok s (.erase e) c := by
  have := @exec_finishes_le cfg ok s (.erase e) (fun _ _ _ h => nomatch h) c
  have hst : (exec cfg ok s (.erase e)).1.standing c ≤ s.standing c :=
    standing_le (fun hm => by simpa [exec] using hm) fun hrc hi => by
      rw [resident_iff (exec_contexts ..)] at hrc
      simp only [exec, eraseRunning_running] at hrc
      rw [exec_callOf] at hi
      exact ⟨lookup_of_lookup_erase hrc, (exec_invoked_true.1 hi).resolve_right (by simp)⟩
  have h0 : (exec cfg ok s (.erase e)).2.countP (·.finisher = some c) = 0 := by simp [exec]
  unfold Keeps
  omega

theorem keeps_recv {m : Message} (hk : KeyInv s (.recv m :: tasks)) (hs : ShmInv cfg s (.recv m :: tasks)) :
    Keeps cfg ok s (.recv m) c := by
  have hr0 : ((exec cfg ok s (.recv m)).1.ctxState c).response = (s.ctxState c).response :=
    (exec_response_cases cfg ok s (.recv m) c fun _ _ _ h => nomatch h).resolve_right fun ⟨v, hv⟩ => nomatch hv
  have done : m.messageType = .funcCallComplete ∨ m.messageType = .funcCallFailed →
      (Instr.recvTail m (recvLocked cfg s m).taken (recvLocked cfg s m).found ::
        ((recvLocked cfg s m).promoted.toList.map .dispatch ++ (recvLocked cfg s m).taken.toList.map .destroy ++
          [.sweep])).countP (·.finisher = some c) + (recvLocked cfg s m).srv.standing c ≤ s.standing c := by
    intro ht
    obtain ⟨b1, b2, b3⟩ := @recvLocked_back cfg _ m (fun k c h => (hk.running_key k c h).1)
      fun p hp => hk.fresh_absent p (.inr hp)
    have hcount : ∀ (t p : Option Nat) (f : Bool), (Instr.recvTail m t f ::
        (p.toList.map .dispatch ++ t.toList.map .destroy ++ [.sweep])).countP (·.finisher = some c) =
        t.toList.countP (· = c) + p.toList.countP (· = c) := fun t p f => by
      cases t <;> cases p <;>
        simp only [Option.toList, List.map_cons, List.map_nil, List.cons_append, List.nil_append,
          List.countP_cons, List.countP_nil] <;> simp [Instr.finisher, Nat.add_comm]
    rw [hcount]
    refine standing_transfer (congrArg Ctx.call (ctx_eq_of_contexts (by simp [recvLocked]) c))
      (fun hc => ?_) (by cases (recvLocked cfg s m).taken <;> simp) b3 (List.nodup_append.1 hk.tokens_nodup).1
      (fun hr => (b1 c hr).imp_right fun hp => by simp [hp])
      (fun hi => (invoked_congr (by simp [recvLocked]) _ _).1 hi) (pending_idle hk hs)
    obtain ⟨hr, hk0, h0, hnt⟩ := b2 c (Option.mem_toList.1 hc)
    exact ⟨hr, hk0 ▸ (hs.recv m (List.mem_cons_self _ _)).2 ht h0, hnt⟩
  unfold Keeps
  rw [hr0]
  simp only [exec]
  split
  · have h0 : ([.invokeTail m (recvInvokeLocked cfg s m).2, .sweep] : List Instr).countP
        (·.finisher = some c) = 0 := by simp [Instr.finisher]
    have h1 := standing_frame (s := s) (t := (recvInvokeLocked cfg s m).1) c (by simp) (by simp) (by simp)
      (by simp)
    dsimp only
    omega
  · have := done (.inl ‹_›)
    dsimp only
    omega
  · have := done (.inr ‹_›)
    dsimp only
    omega
  · simp [Instr.finisher]

theorem keeps_sweep (hk : KeyInv s (.sweep :: tasks)) (hs : ShmInv cfg s (.sweep :: tasks))
    (hd : ∀ fc ∈ s.discarded, fc.clientId = 0 → s.Invoked fc true) : Keeps cfg ok s .sweep c := by
  have hr0 : ((exec cfg ok s .sweep).1.ctxState c).response = (s.ctxState c).response :=
    (exec_response_cases cfg ok s .sweep c fun _ _ _ h => nomatch h).resolve_right fun ⟨v, hv⟩ => nomatch hv
  obtain ⟨b1, b2, b3, b4⟩ := @sweepLocked_back cfg _ (fun k c h => (hk.running_key k c h).1)
    fun p hp => hk.fresh_absent p (.inr hp)
  have hcount : (exec cfg ok s .sweep).2.countP (·.finisher = some c) =
      (sweepLocked cfg s).external.countP (· = c) + (sweepLocked cfg s).promoted.countP (· = c) := by
    simp [exec, List.countP_append, List.countP_map, Function.comp_def, Instr.finisher]
  have hst := standing_transfer (s := s) (t := (sweepLocked cfg s).srv) (c := c)
    (congrArg Ctx.call (ctx_eq_of_contexts (by simp [sweepLocked]) c))
    (fun hc => let ⟨hr, hd', h0, hnt⟩ := b2 c hc; ⟨hr, hd _ hd' h0, hnt⟩) b3 b4
    (List.nodup_append.1 hk.tokens_nodup).1 (b1 c)
    (fun hi => (invoked_congr (by simp [sweepLocked]) _ _).1 hi) (pending_idle hk hs)
  unfold Keeps
  rw [hr0, hcount]
  simp only [exec] at hst ⊢
  omega

theorem keeps_invokeTail {m : Message} {found : Bool} (hk : KeyInv s (.invokeTail m found :: tasks))
    (hs : ShmInv cfg s (.invokeTail m found :: tasks)) : Keeps cfg ok s (.invokeTail m found) c :=
  keeps_of_frame c hk (fun _ _ _ h => nomatch h) (by simp [exec]) (by simp [exec])
    (fun k hi => (exec_invoked_true.1 hi).imp_right fun h => by
      obtain ⟨m', he, -, rfl⟩ := h.resolve_left (by simp)
      cases he
      exact hs.invokeTail m _ (List.mem_cons_self _ _))
    (by simp [exec])

theorem keeps_exec (cfg : Config) (ok : Bool) {ins : Instr} (hk : KeyInv s (ins :: tasks))
    (hs : ShmInv cfg s (ins :: tasks))
    (hins : ∀ m d found, ins = .recvTail m d found →
      m.messageType = .funcCallComplete ∨ m.messageType = .funcCallFailed)
    (hd : ∀ fc ∈ s.discarded, fc.clientId = 0 → s.Invoked fc true) : Keeps cfg ok s ins c := by
  cases ins with
  | newExternalFuncCall e => exact keeps_newExternalFuncCall c hk hs
  | dispatch e => exact keeps_dispatch c hk
  | dispatchLocked e => exact keeps_dispatchLocked c hk
  | dispatchTail e found => exact keeps_dispatchTail c hk hs
  | erase e => exact keeps_erase c
  | recv m => exact keeps_recv c hk hs
  | sweep => exact keeps_sweep c hk hs hd
  | invokeTail m found => exact keeps_invokeTail c hk hs
  | _ =>
    exact keeps_of_frame c hk hins (by simp [exec]) (by simp [exec])
      (fun k hi => .inl ((exec_invoked_true.1 hi).resolve_right (by simp))) (by simp [exec])

end Keeps

theorem onceInv_exec (cfg : Config) (ok : Bool) {s : Server} {ins : Instr} {tasks : List Instr}
    (h : OnceInv s (ins :: tasks)) (hk : KeyInv s (ins :: tasks)) (hs : ShmInv cfg s (ins :: tasks))
    (hins : ∀ m d found, ins = .recvTail m d found →
      m.messageType = .funcCallComplete ∨ m.messageType = .funcCallFailed) :
    OnceInv (exec cfg ok s ins).1 ((exec cfg ok s ins).2 ++ tasks) :=
  h.step (exec_contexts ..) (fun c => keeps_exec c cfg ok hk hs hins h.discarded)
    (fun k hi => exec_invoked_true.2 (.inl hi))
    (fun fc hfc => (exec_discarded hfc).imp_right fun he => by rw [he]; exact List.mem_cons_self _ _)
    exec_no_discard

theorem onceInv_init : OnceInv Server.init [] := by
  refine ⟨fun c => ?_, fun _ h => absurd h (List.not_mem_nil _), fun _ h => absurd h (List.not_mem_nil _)⟩
  have hr : ¬ Server.init.Resident c := by simp [Resident, Server.init]
  have hp : c ∉ Server.init.pending := List.not_mem_nil c
  simp [owed, standing, hr, hp]
  rfl

theorem onceInv_spawn (cfg : Config) {s : Server} {tasks : List Instr} (h : OnceInv s tasks)
    (hk : KeyInv s tasks) (e : Event) (ha : ∀ fcs, e = .connectionClose fcs → ∀ fc ∈ fcs, fc.clientId = 0 →
      s.Invoked fc true) :
    OnceInv (spawn cfg s e).1 (tasks ++ (spawn cfg s e).2) := by
  -- a handler that starts with no piece that answers
  have quiet : ∀ next : List Instr, (∀ x ∈ next, x.finisher = none) →
      (∀ fc, Instr.discard fc ∈ next → fc.clientId = 0 → s.Invoked fc true) → OnceInv s (tasks ++ next) :=
    fun next hn hd => ⟨fun c => by
      have h0 : next.countP (·.finisher = some c) = 0 := List.countP_eq_zero.2 fun x hx => by simp [hn x hx]
      simpa [owed, List.countP_append, h0] using h.bound c,
      h.discarded, fun fc hfc => (List.mem_append.1 hfc).elim (h.discards fc) (hd fc)⟩
  cases e with
  | httpCall f body => exact h.construct hk .http f 0 body
  | grpcCall f mth body => exact h.construct hk .grpc f mth body
  | message m => exact quiet _ (by simp [spawn, Instr.finisher]) (by simp [spawn])
  | handshake m =>
    exact quiet _ (by simp only [spawn]; split <;> simp [Instr.finisher]) (by simp only [spawn]; split <;> simp)
  | connectionClose fcs =>
    exact quiet _ (by simp [spawn, Instr.finisher]) fun fc hfc => ha fcs rfl fc (by simpa [spawn] using hfc)

theorem onceInv_act {cfg : Config} {s s' : Sys} {a : Action} (h : OnceInv s.srv s.tasks)
    (hk : KeyInv s.srv s.tasks) (hs : ShmInv cfg s.srv s.tasks) (ht : TailsOk s.tasks)
    (ha : s.AcceptedDiscards a) (hact : s.act cfg a = some s') : OnceInv s'.srv s'.tasks := by
  cases a with
  | spawn e =>
    simp only [Sys.act, Option.some.injEq] at hact
    subst hact
    simpa [Sys.tasks] using onceInv_spawn cfg h hk e fun fcs he => by subst he; exact ha
  | exec i ok =>
    obtain ⟨ins, rest, hi, rfl⟩ := Sys.act_exec hact
    obtain ⟨others, h1, h2⟩ := Sys.tasks_set hi (exec cfg ok s.srv ins).2
    exact (onceInv_exec cfg ok (h.perm h1) (hk.subperm h1.symm.subperm) (hs.perm h1)
      fun m d found he => ht m d found (h1.symm.subset (he ▸ List.mem_cons_self _ _))).perm h2.symm
  | shmOutput id data =>
    simp only [Sys.act, Option.some.injEq] at hact
    subst hact
    exact ⟨h.1, h.2, h.3⟩

theorem onceInv_reachable {cfg : Config} {s : Sys} (h : AcceptedReachable cfg s)
    (hL : s.srv.contexts.length ≤ 4294967296) : OnceInv s.srv s.tasks := by
  induction h with
  | refl => exact onceInv_init
  | tail hr hst ih =>
    obtain ⟨a, -, ha, hact⟩ := hst
    have hL' := (contexts_length_le_act hact).trans hL
    have hp := AcceptedReachable.protoReachable hr
    exact onceInv_act (ih hL') (keyInv_reachable hp.reachable hL') (shmInv_reachable hp hL')
      (tailsOk_reachable hp.reachable) ha hact

/-- Single finalization: in every run of the worker protocol in which the `WorkerManager`
discards an external call only after a worker accepted it, under any interleaving and any
outcomes, while at most `2^32` contexts have been built, no context is answered twice. -/
theorem answered_at_most_once {cfg : Config} {s : Sys} (h : AcceptedReachable cfg s)
    (hL : s.srv.contexts.length ≤ 4294967296) (c : Nat) : (s.srv.ctxState c).response.finishes ≤ 1 := by
  have hb := (onceInv_reachable h hL).bound c
  split_ifs at hb <;> omega

/-- A request is dispatched and accepted, its worker's connection closes and discards it, and
a function worker's handshake sweeps it. -/
def acceptedDiscardRun : List Action :=
  [.spawn (.httpCall 1 [104, 105]), .exec 0 true, .exec 0 true, .exec 0 true, .exec 0 true,
   .spawn (.connectionClose [⟨1, 0, 0, 1⟩]), .exec 1 true,
   .spawn (.handshake (workerHandshake 1)), .exec 2 true, .exec 2 true, .exec 2 true]

theorem answered_at_most_once_accepted_discard :
    ∃ s, AcceptedReachable scenarioConfig s ∧ s.srv.contexts.length ≤ 4294967296 ∧ s.Quiescent ∧
      (s.srv.ctxState 0).response.finishes = 1 ∧ ∀ c, (s.srv.ctxState c).response.finishes ≤ 1 := by
  obtain ⟨s, hs, hL, hq, hf⟩ : ∃ s, Sys.init.acceptedReplay scenarioConfig acceptedDiscardRun = some s ∧
      s.srv.contexts.length = 1 ∧ s.Quiescent ∧ (s.srv.ctxState 0).response.finishes = 1 :=
    ⟨_, rfl, by decide, by decide, by decide⟩
  have h := Sys.acceptedReplay_reachable _ .refl hs
  exact ⟨s, h, by omega, hq, hf, answered_at_most_once h (by omega)⟩

end Nightcore.Gateway
