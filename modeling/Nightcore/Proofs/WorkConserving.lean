import Nightcore.Proofs.Admission
import Nightcore.Proofs.Keys

/-! Work conservation of the admission queue. A request waits in
`pending_external_func_calls_` only while the running table is at the cap. Admission queues
a request only when the table is full; the completion branch of `OnRecvMessage` promotes
the front of the queue into the slot it frees; the sweep promotes while there is room. The
one piece that frees a slot and promotes nothing is the erase after a failed dispatch, so
the property holds along every run in which no such erase has run, under any interleaving,
while at most `2^32` contexts have been built (below that, promotion never lands on a
resident key). -/

namespace Nightcore.Gateway

open Server

variable {cfg : Config}

/-- A request waits only while the running table is full. -/
def WorkConserving (cfg : Config) (s : Server) : Prop := s.pending ≠ [] → ¬ s.HasRoom cfg

namespace WorkConserving

theorem of_frame {s t : Server} (h : WorkConserving cfg s) (h1 : t.running = s.running)
    (h2 : t.pending = s.pending) : WorkConserving cfg t := by
  simpa only [WorkConserving, HasRoom, runningSize, h1, h2] using h

theorem promote : ∀ (q : List Nat) (s : Server), s.pending = q → WorkConserving cfg (promote cfg s q).1
  | [], _, hq => fun hp => absurd hq hp
  | p :: rest, s, hq => by
    unfold Server.promote
    split_ifs with hr
    · exact promote rest _ (by simp)
    · exact fun _ => hr

theorem sweepLocked (s : Server) : WorkConserving cfg (sweepLocked cfg s).srv :=
  promote _ _ (by simp)

theorem newExternalFuncCallLocked {s : Server} (h : WorkConserving cfg s) (c : Nat) :
    WorkConserving cfg (newExternalFuncCallLocked cfg s c).1 := by
  unfold Server.newExternalFuncCallLocked
  split_ifs with hr
  · exact fun hp => absurd hr (h (by simpa using hp))
  · exact fun _ => hr

theorem runningSize_putRunning_of_absent {s : Server} {id : FuncCall} (h : s.running.lookup id = none)
    (c : Nat) : (s.putRunning id c).runningSize = s.runningSize + 1 := by
  rw [putRunning_of_lookup_eq_none h]
  simp only [runningSize, AList.keys_insert, List.length_cons,
    List.erase_of_not_mem (AList.mem_keys.not.2 (AList.lookup_eq_none.1 h))]

theorem runningSize_popPending {s : Server} {p : Nat} {rest : List Nat} (hq : s.pending = p :: rest)
    (h : s.running.lookup (s.callOf p) = none) : (popPending s).1.runningSize = s.runningSize + 1 := by
  simp only [popPending, hq]
  exact runningSize_putRunning_of_absent (s := { s with pending := rest }) h p

theorem recvTake {s : Server} (h : WorkConserving cfg s)
    (hfresh : ∀ p ∈ s.pending, s.running.lookup (s.callOf p) = none) (fc : FuncCall) :
    WorkConserving cfg (recvTake cfg s fc).1 := by
  unfold Server.recvTake
  split
  · rename_i c hc
    have hk : fc ∈ s.running.keys := AList.mem_keys.2 (AList.lookup_isSome.1 (by
      split_ifs at hc; simp [hc]))
    let t : Server := { s with running := s.running.erase fc }
    have ht : t.runningSize = s.runningSize - 1 := by
      simp only [t, runningSize, AList.keys_erase, List.length_erase_of_mem hk]
    have hpos : 0 < s.runningSize := List.length_pos_of_mem hk
    dsimp only
    split_ifs with hr
    · obtain ⟨p, rest, hq⟩ := List.exists_cons_of_ne_nil hr.1
      have hfull := h hr.1
      have habs : t.running.lookup (t.callOf p) = none := by
        rw [AList.lookup_eq_none, AList.mem_erase, not_and_or, not_not, ← AList.lookup_eq_none]
        exact .inr (hfresh p (by simp [hq]))
      have hsize : (popPending t).1.runningSize = s.runningSize := by
        rw [runningSize_popPending (s := t) hq habs, ht]
        omega
      intro _
      simpa only [HasRoom, hsize] using hfull
    · intro hne
      simp only [HasRoom, runningSize] at hr ⊢
      tauto
  · exact h

end WorkConserving

/-- The action runs a thread's erase after a failed dispatch. -/
def Sys.runsErase (s : Sys) : Action → Bool
  | .exec i _ =>
    match s.threads[i]? with
    | some (.erase _ :: _) => true
    | _ => false
  | _ => false

/-- A step that is not the erase after a failed dispatch. -/
def NoEraseStep (cfg : Config) (s s' : Sys) : Prop := ∃ a, s.runsErase a = false ∧ s.act cfg a = some s'

theorem workConserving_exec {s : Server} {ins : Instr} {tasks : List Instr}
    (h : WorkConserving cfg s) (hk : KeyInv s (ins :: tasks)) (hne : ∀ c, ins ≠ .erase c) (ok : Bool) :
    WorkConserving cfg (exec cfg ok s ins).1 := by
  have hfresh : ∀ p ∈ s.pending, s.running.lookup (s.callOf p) = none :=
    fun p hp => hk.fresh_absent p (.inr hp)
  cases ins with
  | newExternalFuncCall c => exact h.newExternalFuncCallLocked c
  | erase c => exact absurd rfl (hne c)
  | recv m =>
    simp only [exec]
    split
    · exact h.of_frame (by simp) (by simp)
    iterate 2 exact (h.recvTake hfresh m.funcCall).of_frame (by simp [recvLocked]) (by simp [recvLocked])
    · exact h
  | sweep => exact WorkConserving.sweepLocked s
  | _ => exact h.of_frame (by simp [exec]) (by simp [exec])

theorem workConserving_act {s s' : Sys} {a : Action} (h : WorkConserving cfg s.srv)
    (hk : KeyInv s.srv s.tasks) (he : s.runsErase a = false) (ha : s.act cfg a = some s') :
    WorkConserving cfg s'.srv := by
  cases a with
  | spawn e =>
    cases ha
    cases e <;> exact h.of_frame (by simp [spawn]) (by simp [spawn])
  | exec i ok =>
    obtain ⟨ins, rest, hi, rfl⟩ := Sys.act_exec ha
    obtain ⟨others, h1, -⟩ := Sys.tasks_set hi (exec cfg ok s.srv ins).2
    refine workConserving_exec h (hk.subperm h1.symm.subperm) (fun c hc => ?_) ok
    simp [Sys.runsErase, hi, hc] at he
  | shmOutput => cases ha; exact h.of_frame rfl rfl

theorem NoEraseStep.step {s s' : Sys} (h : NoEraseStep cfg s s') : Step cfg s s' :=
  let ⟨a, _, h⟩ := h; ⟨a, h⟩

theorem capOk_reachable {s : Sys} (h : Reachable cfg s) : CapOk cfg s.srv := by
  induction h with
  | refl => intro _; simp [Sys.init, Server.init, runningSize]
  | tail _ hst ih => exact capOk_act ih hst.choose_spec

theorem workConserving_of_noErase {s : Sys} (h : Relation.ReflTransGen (NoEraseStep cfg) Sys.init s)
    (hL : s.srv.contexts.length ≤ 4294967296) : WorkConserving cfg s.srv := by
  induction h with
  | refl => exact fun hp => absurd rfl hp
  | tail hr hst ih =>
    obtain ⟨a, he, ha⟩ := hst
    have hL' := (contexts_length_le_act ha).trans hL
    exact workConserving_act (ih hL') (keyInv_reachable (hr.mono fun _ _ => NoEraseStep.step) hL') he ha

/-- Work conservation: along every run in which no erase after a failed dispatch has run,
under any interleaving of the handlers and any outcomes, while at most `2^32` contexts have
been built, a request waits in the queue only while the cap is set and exactly that many
requests run. -/
theorem pending_only_when_full {s : Sys} (h : Relation.ReflTransGen (NoEraseStep cfg) Sys.init s)
    (hL : s.srv.contexts.length ≤ 4294967296) (hp : s.srv.pending ≠ []) :
    0 < cfg.maxRunningExternalRequests ∧ s.srv.runningSize = cfg.maxRunningExternalRequests := by
  have hcap := capOk_reachable (h.mono fun _ _ => NoEraseStep.step)
  have hfull := workConserving_of_noErase h hL hp
  simp only [HasRoom, not_or] at hfull
  exact ⟨Nat.pos_of_ne_zero hfull.1, le_antisymm (hcap (Nat.pos_of_ne_zero hfull.1)) (by omega)⟩

/-- Replay a schedule, checking that no step is the erase after a failed dispatch. -/
def Sys.noEraseReplay (cfg : Config) (s : Sys) : List Action → Option Sys
  | [] => some s
  | a :: as => if s.runsErase a = false then (s.act cfg a).bind (·.noEraseReplay cfg as) else none

theorem Sys.noEraseReplay_steps :
    ∀ {s s' : Sys} (as : List Action), s.noEraseReplay cfg as = some s' →
      Relation.ReflTransGen (NoEraseStep cfg) s s'
  | s, s', [], he => by simp only [noEraseReplay, Option.some.injEq] at he; exact he ▸ .refl
  | s, s', a :: as, he => by
    simp only [noEraseReplay] at he
    split_ifs at he with ha
    obtain ⟨t, ht, he⟩ := Option.bind_eq_some.1 he
    exact .head ⟨a, ha, ht⟩ (noEraseReplay_steps as he)

theorem pending_only_when_full_three_arrivals :
    ∃ s, Relation.ReflTransGen (NoEraseStep scenarioConfig) Sys.init s ∧
      s.srv.contexts.length ≤ 4294967296 ∧ s.srv.pending = [2] ∧
      0 < scenarioConfig.maxRunningExternalRequests ∧
      s.srv.runningSize = scenarioConfig.maxRunningExternalRequests := by
  obtain ⟨s, hs, hL, hp⟩ : ∃ s, Sys.init.noEraseReplay scenarioConfig threeArrivals = some s ∧
      s.srv.contexts.length = 3 ∧ s.srv.pending = [2] := ⟨_, rfl, by decide, by decide⟩
  have h := Sys.noEraseReplay_steps _ hs
  exact ⟨s, h, by omega, hp, pending_only_when_full h (by omega) (by simp [hp])⟩

end Nightcore.Gateway
