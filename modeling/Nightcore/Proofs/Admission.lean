import Nightcore.Gateway.Run

/-! The running table never holds more than `max_running_external_requests_` contexts
when that cap is set, in every interleaving of the handlers' pieces and for every answer
of the environment. Three pieces insert into the table (admission, the promotion in
`OnRecvMessage`, the promotion loop of the sweep), each after the test `HasRoom`; all
other pieces leave the table alone or erase from it. -/

namespace Nightcore.Gateway

open Server

variable {cfg : Config}

/-- The cap, when it is set. -/
def CapOk (cfg : Config) (s : Server) : Prop :=
  0 < cfg.maxRunningExternalRequests → s.runningSize ≤ cfg.maxRunningExternalRequests

theorem CapOk.mono {s t : Server} (h : CapOk cfg s) (hle : t.runningSize ≤ s.runningSize) :
    CapOk cfg t :=
  fun hc => hle.trans (h hc)

theorem CapOk.of_running {s t : Server} (h : CapOk cfg s) (he : t.running = s.running) :
    CapOk cfg t :=
  h.mono (by simp [runningSize, he])

theorem capOk_putRunning {s t : Server} (h : s.HasRoom cfg) (ht : t.running = s.running)
    (k : FuncCall) (c : Nat) : CapOk cfg (t.putRunning k c) := by
  intro hc
  have := s.runningSize_insert_le k c
  simp only [HasRoom, runningSize, putRunning_running, ht] at *
  rcases h with h | h <;> omega

theorem capOk_erase {s t : Server} {k : FuncCall} (h : CapOk cfg s)
    (ht : t.running = s.running.erase k) : CapOk cfg t :=
  h.mono (by simpa [runningSize, ht] using s.runningSize_erase_le k)

theorem capOk_newExternalFuncCallLocked {s : Server} (h : CapOk cfg s) (c : Nat) :
    CapOk cfg (newExternalFuncCallLocked cfg s c).1 := by
  unfold newExternalFuncCallLocked
  split_ifs with hr
  · exact capOk_putRunning hr (by rfl) _ _
  · exact h.of_running rfl

theorem capOk_popPending {s : Server} (h : CapOk cfg s) (hr : s.HasRoom cfg) :
    CapOk cfg (popPending s).1 := by
  unfold popPending
  split
  · exact capOk_putRunning hr (by rfl) _ _
  · exact h

theorem capOk_recvTake {s : Server} (h : CapOk cfg s) (fc : FuncCall) :
    CapOk cfg (recvTake cfg s fc).1 := by
  unfold recvTake
  split
  · have he : CapOk cfg { s with running := s.running.erase fc } := capOk_erase h rfl
    dsimp only
    split_ifs with hr
    · exact capOk_popPending he hr.2
    · exact he
  · exact h

theorem runningSize_takeDiscarded_le :
    ∀ (l : List FuncCall) (s : Server), (takeDiscarded s l).1.runningSize ≤ s.runningSize
  | [], _ => le_rfl
  | fc :: rest, s => by
    unfold takeDiscarded
    split_ifs
    · split
      · exact (runningSize_takeDiscarded_le rest _).trans (s.runningSize_erase_le fc)
      · exact runningSize_takeDiscarded_le rest s
    · exact runningSize_takeDiscarded_le rest s

theorem capOk_promote : ∀ (q : List Nat) (s : Server), CapOk cfg s → CapOk cfg (promote cfg s q).1
  | [], _, h => h
  | p :: rest, s, h => by
    unfold promote
    split_ifs with hr
    · exact capOk_promote rest _ (capOk_putRunning hr (by rfl) _ _)
    · exact h

theorem capOk_sweepLocked {s : Server} (h : CapOk cfg s) : CapOk cfg (sweepLocked cfg s).srv :=
  capOk_promote _ _ ((h.mono (runningSize_takeDiscarded_le _ s)).of_running rfl)

theorem capOk_exec {s : Server} (h : CapOk cfg s) (ok : Bool) (i : Instr) :
    CapOk cfg (exec cfg ok s i).1 := by
  cases i with
  | newExternalFuncCall c => exact capOk_newExternalFuncCallLocked h c
  | erase c => exact capOk_erase (k := s.callOf c) h (by simp [exec])
  | recv m =>
    simp only [exec]
    split
    · exact h.of_running (by simp)
    · exact (capOk_recvTake h m.funcCall).of_running (by simp [recvLocked])
    · exact (capOk_recvTake h m.funcCall).of_running (by simp [recvLocked])
    · exact h
  | sweep => exact capOk_sweepLocked h
  | _ => exact h.of_running (by simp [exec])

theorem capOk_act {s s' : Sys} (h : CapOk cfg s.srv) {a : Action} (ha : s.act cfg a = some s') :
    CapOk cfg s'.srv := by
  cases a with
  | spawn e =>
    cases ha
    cases e <;> exact h.of_running rfl
  | exec i ok =>
    simp only [Sys.act] at ha
    split at ha
    · cases ha; exact capOk_exec h ok _
    · cases ha
  | shmOutput => cases ha; exact h.of_running rfl

theorem running_size_le_max_running {s : Sys} (h : Reachable cfg s)
    (hcap : 0 < cfg.maxRunningExternalRequests) :
    s.srv.runningSize ≤ cfg.maxRunningExternalRequests := by
  refine Relation.ReflTransGen.rec (motive := fun s _ => CapOk cfg s.srv) ?_ ?_ h hcap
  · intro _; simp [Sys.init, Server.init, runningSize]
  · rintro _ _ _ ⟨a, ha⟩ ih
    exact capOk_act ih ha

theorem running_size_le_max_running_three_arrivals :
    ∃ s, Reachable scenarioConfig s ∧ 0 < scenarioConfig.maxRunningExternalRequests ∧
      s.srv.pending = [2] ∧ s.srv.runningSize ≤ scenarioConfig.maxRunningExternalRequests := by
  obtain ⟨s, hs, hp⟩ : ∃ s, Sys.init.replay scenarioConfig threeArrivals = some s ∧
      s.srv.pending = [2] := ⟨_, rfl, by decide⟩
  have h := (Sys.replay_protoReachable _ .refl hs).reachable
  exact ⟨s, h, by decide, hp, running_size_le_max_running h (by decide)⟩

/-- Handlers one at a time, cap two: two requests are dispatched, two more wait; the
first one's worker goes away, and the sweep of the next worker handshake promotes the
third, whose dispatch fails and is erased after the promotion loop has stopped. -/
def idleSlotRun : List (Event × List Bool) :=
  [(.httpCall 1 [97], [true, true, true, true]), (.httpCall 1 [98], [true, true, true, true]),
   (.httpCall 1 [99], [true]), (.httpCall 1 [100], [true]),
   (.connectionClose [⟨1, 0, 0, 1⟩], [true]),
   (.handshake (workerHandshake 1), [true, true, true, true, true, false, true])]

/-- After `idleSlotRun` a request waits while a slot is free, and the next arrival takes
that slot ahead of it. -/
theorem later_arrival_overtakes_pending :
    ∃ s s', Server.init.hreplay scenarioConfig idleSlotRun = some s ∧
      HStep scenarioConfig s s' ∧
      s.pending = [3] ∧ s.runningSize < scenarioConfig.maxRunningExternalRequests ∧
      s'.pending = [3] ∧ s'.running.lookup (s'.callOf 4) = some 4 :=
  ⟨_, _, rfl, ⟨.httpCall 1 [101], [true, true, true, true], rfl⟩,
    by decide, by decide, by decide, by decide⟩

end Nightcore.Gateway
