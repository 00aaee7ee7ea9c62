import Nightcore.Gateway.Ingress
import Nightcore.Proofs.Keys
import Nightcore.Proofs.Dispatch

/-! The front door sends each request to one handler, and the core builds external calls
only for what `func_config_` holds. No request is accepted by two of the three matchers,
so `MatchRequest` picks the same handler whatever the order of registration. A request
reaches `OnExternalFuncCall` exactly when it is `POST /function/<name>` for a name the
configuration holds, with that entry's id narrowed to 16 bits, so the handler's
`DCHECK(func_entry != nullptr)` never fails; only `POST /shutdown` stops the server.
Along every run whose arrivals come through the front door, every context the gateway
built names a configured function, and a gRPC context a configured method as well; when
the configuration also finds each of its functions by its narrowed id, no dispatch fails
for want of a `Dispatcher`. -/

namespace Nightcore.Gateway

open Server

theorem isPrefixOf_iff_exists {pre s : List Char} : pre.isPrefixOf s = true ↔ ∃ t, s = pre ++ t := by
  rw [List.isPrefixOf_iff_prefix]
  exact ⟨fun ⟨t, h⟩ => ⟨t, h.symm⟩, fun ⟨t, h⟩ => ⟨t, h.symm⟩⟩

@[simp] theorem stripPrefix_append (pre t : List Char) : stripPrefix (pre ++ t) pre = t := by
  rw [stripPrefix, if_pos (isPrefixOf_iff_exists.2 ⟨t, rfl⟩), List.drop_left]

theorem find?_perm_of_unique {α : Type} {p : α → Bool} {l l' : List α} (hp : l.Perm l')
    (hu : ∀ a b, p a = true → p b = true → a = b) : l.find? p = l'.find? p := by
  cases h : l.find? p with
  | some a =>
    cases h' : l'.find? p with
    | some b => rw [hu a b (List.find?_some h) (List.find?_some h')]
    | none =>
      exact absurd (List.find?_some h)
        (List.find?_eq_none.1 h' a (hp.subset (List.mem_of_find?_eq_some h)))
  | none => exact (List.find?_eq_none.2 fun x hx => List.find?_eq_none.1 h x (hp.symm.subset hx)).symm

namespace Route

variable {fc : FuncConfig} {method path : List Char}

theorem matcher_shutdown :
    Route.shutdown.matcher fc method path = true ↔ method = "POST".toList ∧ path = "/shutdown".toList := by
  simp [matcher]

theorem matcher_hello :
    Route.hello.matcher fc method path = true ↔ method = "GET".toList ∧ path = "/hello".toList := by
  simp [matcher]

theorem matcher_function :
    Route.function.matcher fc method path = true ↔
      method = "POST".toList ∧ ∃ name, path = functionPrefix ++ name ∧ (fc.findByFuncName name).isSome := by
  simp only [matcher, Bool.or_eq_true, bne_iff_ne, ne_eq, Bool.not_eq_true']
  constructor
  · intro h
    split_ifs at h with hc
    push_neg at hc
    have hp : functionPrefix.isPrefixOf path = true := by simpa using hc.2
    obtain ⟨t, rfl⟩ := isPrefixOf_iff_exists.1 hp
    exact ⟨hc.1, t, rfl, by rwa [stripPrefix_append] at h⟩
  · rintro ⟨rfl, name, rfl, h⟩
    rw [if_neg (by simp [isPrefixOf_iff_exists]), stripPrefix_append]
    exact h

theorem matcher_unique {r r' : Route} (h : r.matcher fc method path = true)
    (h' : r'.matcher fc method path = true) : r = r' := by
  have sh_he : ¬ (Route.shutdown.matcher fc method path = true ∧ Route.hello.matcher fc method path = true) := by
    rw [matcher_shutdown, matcher_hello]
    rintro ⟨⟨rfl, -⟩, hm, -⟩
    exact absurd hm (by decide)
  have sh_fn : ¬ (Route.shutdown.matcher fc method path = true ∧ Route.function.matcher fc method path = true) := by
    rw [matcher_shutdown, matcher_function]
    rintro ⟨⟨-, rfl⟩, -, name, hp, -⟩
    exact absurd (isPrefixOf_iff_exists.2 ⟨name, hp⟩) (by decide)
  have he_fn : ¬ (Route.hello.matcher fc method path = true ∧ Route.function.matcher fc method path = true) := by
    rw [matcher_hello, matcher_function]
    rintro ⟨⟨rfl, -⟩, hm, -⟩
    exact absurd hm (by decide)
  exact match r, r', h, h' with
    | .shutdown, .shutdown, _, _ | .hello, .hello, _, _ | .function, .function, _, _ => rfl
    | .shutdown, .hello, h, h' | .hello, .shutdown, h', h => absurd ⟨h, h'⟩ sh_he
    | .shutdown, .function, h, h' | .function, .shutdown, h', h => absurd ⟨h, h'⟩ sh_fn
    | .hello, .function, h, h' | .function, .hello, h', h => absurd ⟨h, h'⟩ he_fn

theorem mem_requestHandlers (r : Route) : r ∈ requestHandlers := by
  cases r <;> decide

end Route

open Route

section Routing

variable {fc : FuncConfig} {method path : List Char} {body : List UInt8}

theorem matchRequest_eq_some_iff {r : Route} :
    matchRequest fc requestHandlers method path = some r ↔ r.matcher fc method path = true := by
  refine ⟨List.find?_some, fun h => ?_⟩
  cases h' : matchRequest fc requestHandlers method path with
  | some r' => rw [matcher_unique (List.find?_some h') h]
  | none => exact absurd h (List.find?_eq_none.1 h' r (mem_requestHandlers r))

theorem onHttpRequest_eq_some {o : HttpOutcome} :
    onHttpRequest fc method path body = some o ↔
      ∃ r : Route, r.matcher fc method path = true ∧ r.handle fc path body = o := by
  simp only [onHttpRequest, Option.map_eq_some', matchRequest_eq_some_iff]

theorem handle_function_of_matcher (body : List UInt8) (h : Route.function.matcher fc method path = true) :
    ∃ name e, path = functionPrefix ++ name ∧ fc.findByFuncName name = some e ∧
      Route.function.handle fc path body = .external (.httpCall (narrowCastUInt16 e.funcId) body) := by
  obtain ⟨-, name, rfl, hn⟩ := matcher_function.1 h
  obtain ⟨e, he⟩ := Option.isSome_iff_exists.1 hn
  exact ⟨name, e, rfl, he, by simp [handle, he]⟩

theorem onHttpRequest_external_iff {ev : Event} :
    onHttpRequest fc method path body = some (.external ev) ↔
      method = "POST".toList ∧ ∃ name e, path = functionPrefix ++ name ∧ fc.findByFuncName name = some e ∧
        ev = .httpCall (narrowCastUInt16 e.funcId) body := by
  rw [onHttpRequest_eq_some]
  constructor
  · rintro ⟨r, hm, ho⟩
    cases r with
    | function =>
      obtain ⟨name, e, hp, he, hh⟩ := handle_function_of_matcher body hm
      rw [hh, HttpOutcome.external.injEq] at ho
      exact ⟨(matcher_function.1 hm).1, name, e, hp, he, ho.symm⟩
    | shutdown | hello => cases ho
  · rintro ⟨rfl, name, e, rfl, he, rfl⟩
    exact ⟨.function, matcher_function.2 ⟨rfl, name, rfl, by simp [he]⟩, by simp [handle, he]⟩

/-- At most one handler accepts any request, so `MatchRequest` picks the same handler in
whatever order `request_handlers_` was filled, and it picks whichever handler accepts. -/
theorem request_routes_unambiguous (fc : FuncConfig) (method path : List Char) {handlers : List Route}
    (h : handlers.Perm requestHandlers) :
    matchRequest fc handlers method path = matchRequest fc requestHandlers method path ∧
      ∀ r, r.matcher fc method path = true → matchRequest fc handlers method path = some r := by
  have same : matchRequest fc handlers method path = matchRequest fc requestHandlers method path :=
    find?_perm_of_unique h fun _ _ => matcher_unique
  exact ⟨same, fun r hr => by rw [same, matchRequest_eq_some_iff]; exact hr⟩

/-- A configuration with the HTTP function `foo` (id 1) and the gRPC service `Greeter`
(id 2) with its method `Hello` (id 0). -/
def sampleFuncConfig : FuncConfig :=
  ⟨fun name =>
    if name = "foo".toList then some ⟨1, fun _ => none⟩
    else if name = "grpc:Greeter".toList then some ⟨2, fun m => if m = "Hello".toList then some 0 else none⟩
    else none⟩

/-- The handlers registered in the reverse order route `POST /function/foo` alike. -/
theorem request_routes_unambiguous_reversed :
    [Route.function, .hello, .shutdown].Perm requestHandlers ∧
      matchRequest sampleFuncConfig [.function, .hello, .shutdown] "POST".toList "/function/foo".toList =
        some .function ∧
      (matchRequest sampleFuncConfig [.function, .hello, .shutdown] "POST".toList "/function/foo".toList =
          matchRequest sampleFuncConfig requestHandlers "POST".toList "/function/foo".toList ∧
        ∀ r, r.matcher sampleFuncConfig "POST".toList "/function/foo".toList = true →
          matchRequest sampleFuncConfig [.function, .hello, .shutdown] "POST".toList "/function/foo".toList = some r) :=
  ⟨by decide, by decide, request_routes_unambiguous sampleFuncConfig _ _ (by decide)⟩

/-- The HTTP routes: the function handler's `DCHECK` never fails; a request reaches
`OnExternalFuncCall` exactly when it is `POST /function/<name>` for a name `func_config_`
holds, which then gets that entry's `func_id` narrowed to 16 bits and the request's body;
and only `POST /shutdown` calls `ScheduleStop`. -/
theorem http_request_routing (fc : FuncConfig) (method path : List Char) (body : List UInt8) :
    onHttpRequest fc method path body ≠ some .dcheckFailed ∧
      (∀ ev, onHttpRequest fc method path body = some (.external ev) ↔
        method = "POST".toList ∧ ∃ name e, path = functionPrefix ++ name ∧ fc.findByFuncName name = some e ∧
          ev = .httpCall (narrowCastUInt16 e.funcId) body) ∧
      ((∃ text, onHttpRequest fc method path body = some (.sync text true)) ↔
        method = "POST".toList ∧ path = "/shutdown".toList) := by
  refine ⟨fun hd => ?_, fun _ => onHttpRequest_external_iff, ⟨fun ⟨text, ht⟩ => ?_, fun hm => ?_⟩⟩
  · obtain ⟨r, hm, ho⟩ := onHttpRequest_eq_some.1 hd
    cases r with
    | function =>
      obtain ⟨_, _, _, _, hh⟩ := handle_function_of_matcher body hm
      rw [hh] at ho
      cases ho
    | shutdown | hello => cases ho
  · obtain ⟨r, hm, ho⟩ := onHttpRequest_eq_some.1 ht
    cases r with
    | shutdown => exact matcher_shutdown.1 hm
    | hello => cases ho
    | function =>
      obtain ⟨_, _, _, _, hh⟩ := handle_function_of_matcher body hm
      rw [hh] at ho
      cases ho
  · exact ⟨_, onHttpRequest_eq_some.2 ⟨.shutdown, matcher_shutdown.2 hm, rfl⟩⟩

example : onHttpRequest ⟨fun name => if name = "foo".toList then some ⟨1, fun _ => none⟩ else none⟩
    "POST".toList "/function/foo".toList [7] = some (.external (.httpCall 1 [7])) := by decide

end Routing

theorem onNewGrpcCall_external {fc : FuncConfig} {service method : List Char} {body : List UInt8}
    {ev : Event} (h : onNewGrpcCall fc service method body = .external ev) :
    ∃ e m, fc.findByFuncName ("grpc:".toList ++ service) = some e ∧ e.grpcMethodIds method = some m ∧
      ev = .grpcCall (narrowCastUInt16 e.funcId) (narrowCastUInt16 m) body := by
  unfold onNewGrpcCall at h
  split at h
  · split at h
    · cases h
      exact ⟨_, _, ‹_›, ‹_›, rfl⟩
    · cases h
  · cases h

/-- The arrivals the front door lets through: an `httpCall` that some request gets from
its handler, a `grpcCall` that some gRPC call gets from `OnNewGrpcCall`. The other actions
are as in any run. -/
def FrontAllows (fc : FuncConfig) : Action → Prop
  | .spawn (.httpCall f body) =>
    ∃ method path, onHttpRequest fc method path body = some (.external (.httpCall f body))
  | .spawn (.grpcCall f m body) =>
    ∃ service method, onNewGrpcCall fc service method body = .external (.grpcCall f m body)
  | _ => True

def FrontStep (fc : FuncConfig) (cfg : Config) (s s' : Sys) : Prop :=
  ∃ a, FrontAllows fc a ∧ s.act cfg a = some s'

def FrontReachable (fc : FuncConfig) (cfg : Config) (s : Sys) : Prop :=
  Relation.ReflTransGen (FrontStep fc cfg) Sys.init s

theorem FrontReachable.reachable {fc : FuncConfig} {cfg : Config} {s : Sys} (h : FrontReachable fc cfg s) :
    Reachable cfg s :=
  Relation.ReflTransGen.mono (fun _ _ ⟨a, _, ha⟩ => ⟨a, ha⟩) h

theorem Sys.replay_frontReachable {fc : FuncConfig} {cfg : Config} :
    ∀ {s s' : Sys} (as : List Action), (∀ a ∈ as, FrontAllows fc a) → FrontReachable fc cfg s →
      s.replay cfg as = some s' → FrontReachable fc cfg s'
  | s, s', [], _, h, he => by simp only [Sys.replay, Option.some.injEq] at he; exact he ▸ h
  | s, s', a :: as, hf, h, he => by
    simp only [Sys.replay] at he
    split at he
    · cases ha : s.act cfg a with
      | none => simp [ha] at he
      | some t =>
        rw [ha, Option.some_bind] at he
        exact replay_frontReachable as (fun b hb => hf b (List.mem_cons_of_mem _ hb))
          (h.tail ⟨a, hf a (List.mem_cons_self _ _), ha⟩) he
    · cases he

/-- A context names what `func_config_` holds: an HTTP context a function found by name,
with method 0; a gRPC context a service `grpc:<service>` and one of its methods. -/
def Configured (fc : FuncConfig) (k : Ctx) : Prop :=
  match k.sink with
  | .http => k.call.methodId = 0 ∧
    ∃ name e, fc.findByFuncName name = some e ∧ k.call.funcId = narrowCastUInt16 e.funcId
  | .grpc => ∃ service method e m, fc.findByFuncName ("grpc:".toList ++ service) = some e ∧
    e.grpcMethodIds method = some m ∧ k.call.funcId = narrowCastUInt16 e.funcId ∧
    k.call.methodId = narrowCastUInt16 m

theorem Configured.funcId {fc : FuncConfig} {k : Ctx} (h : Configured fc k) :
    ∃ name e, fc.findByFuncName name = some e ∧ k.call.funcId = narrowCastUInt16 e.funcId := by
  unfold Configured at h
  split at h
  · exact h.2
  · obtain ⟨service, -, e, -, he, -, hf, -⟩ := h
    exact ⟨_, e, he, hf⟩

theorem construct_ctx_length (s : Server) (sink : Sink) (f m : UInt16) (body : List UInt8) :
    (s.construct sink f m body).ctx s.contexts.length = ⟨newFuncCallWithMethod f m 0 s.nextCallId, sink, body⟩ := by
  simp [Server.ctx, List.getD_eq_getElem?_getD]

theorem configured_construct {fc : FuncConfig} {s : Server} {sink : Sink} {f m : UInt16} {body : List UInt8}
    (h : ∀ c < s.contexts.length, Configured fc (s.ctx c))
    (hn : Configured fc ⟨newFuncCallWithMethod f m 0 s.nextCallId, sink, body⟩) :
    ∀ c < (s.construct sink f m body).contexts.length, Configured fc ((s.construct sink f m body).ctx c) := by
  intro c hc
  simp only [construct_contexts, List.length_append, List.length_singleton] at hc
  rcases Nat.lt_succ_iff_lt_or_eq.1 hc with hc | rfl
  · rw [construct_ctx_lt _ _ _ _ _ hc]
    exact h c hc
  · rw [construct_ctx_length]
    exact hn

theorem configured_spawn {fc : FuncConfig} {cfg : Config} {s : Server} {e : Event}
    (ha : FrontAllows fc (.spawn e)) (h : ∀ c < s.contexts.length, Configured fc (s.ctx c)) :
    ∀ c < (spawn cfg s e).1.contexts.length, Configured fc ((spawn cfg s e).1.ctx c) := by
  cases e with
  | httpCall f body =>
    obtain ⟨method, path, hr⟩ := ha
    obtain ⟨-, name, entry, -, he, hev⟩ := onHttpRequest_external_iff.1 hr
    cases hev
    exact configured_construct h ⟨rfl, name, entry, he, rfl⟩
  | grpcCall f m body =>
    obtain ⟨service, method, hr⟩ := ha
    obtain ⟨entry, mid, he, hm, hev⟩ := onNewGrpcCall_external hr
    cases hev
    exact configured_construct h ⟨service, method, entry, mid, he, hm, rfl, rfl⟩
  | message m => exact h
  | handshake m => exact h
  | connectionClose fcs => exact h

theorem configured_reachable {fc : FuncConfig} {cfg : Config} {s : Sys} (h : FrontReachable fc cfg s) :
    ∀ c < s.srv.contexts.length, Configured fc (s.srv.ctx c) := by
  induction h with
  | refl => exact fun c hc => absurd hc (Nat.not_lt_zero c)
  | tail _ hst ih =>
    obtain ⟨a, ha, hact⟩ := hst
    cases a with
    | spawn e =>
      simp only [Sys.act, Option.some.injEq] at hact
      subst hact
      exact configured_spawn ha ih
    | exec i ok =>
      obtain ⟨ins, rest, -, rfl⟩ := Sys.act_exec hact
      intro c hc
      rw [ctx_eq_of_contexts (exec_contexts cfg ok _ ins)]
      exact ih c (by simpa using hc)
    | shmOutput id data =>
      simp only [Sys.act, Option.some.injEq] at hact
      subst hact
      exact ih

theorem exec_dispatchTail_mem {cfg : Config} {ok : Bool} {s : Server} {ins : Instr} {c : Nat}
    {found : Bool} (h : Instr.dispatchTail c found ∈ (exec cfg ok s ins).2) :
    ins = .dispatchLocked c ∧ found = (dispatchLocked cfg s c).2 := by
  cases ins with
  | dispatchLocked d =>
    simp only [exec, List.mem_singleton, Instr.dispatchTail.injEq] at h
    rw [h.1, h.2]
    exact ⟨rfl, rfl⟩
  | recv m =>
    simp only [exec] at h
    split at h <;> simp at h
  | sweep => simp [exec] at h
  | newExternalFuncCall d | dispatch d | dispatchTail d f =>
    simp only [exec] at h
    split at h <;> simp at h
  | _ => simp [exec] at h

theorem spawn_no_dispatchTail (cfg : Config) (s : Server) (e : Event) (c : Nat) (found : Bool) :
    Instr.dispatchTail c found ∉ (spawn cfg s e).2 := by
  cases e with
  | handshake m =>
    simp only [spawn]
    split <;> simp
  | _ => simp [spawn]

/-- `func_config_` finds each of its functions by the narrowed id as well: `Config.knownFuncId`
stands for `find_by_func_id`, which `GetOrCreateDispatcherLocked` asks. -/
def FuncConfig.IdsKnown (fc : FuncConfig) (cfg : Config) : Prop :=
  ∀ name e, fc.findByFuncName name = some e → cfg.knownFuncId (narrowCastUInt16 e.funcId) = true

/-- Every dispatch still to be handed to its dispatcher found one. -/
def Sys.DispatchersFound (s : Sys) : Prop :=
  ∀ c found, Instr.dispatchTail c found ∈ s.tasks → found = true

section Dispatchers

variable {fc : FuncConfig} {cfg : Config}

theorem dispatchersFound_act
    (hcons : fc.IdsKnown cfg)
    {s s' : Sys} {a : Action} (hk : KeyInv s.srv s.tasks) (hconf : ∀ c < s.srv.contexts.length, Configured fc (s.srv.ctx c))
    (h : s.DispatchersFound) (ha : s.act cfg a = some s') : s'.DispatchersFound := by
  cases a with
  | spawn e =>
    simp only [Sys.act, Option.some.injEq] at ha
    subst ha
    intro c found hm
    simp only [Sys.tasks, List.flatten_append, List.flatten_cons, List.flatten_nil, List.append_nil,
      List.mem_append] at hm
    rcases hm with hm | hm
    · exact h c found hm
    · exact absurd hm (spawn_no_dispatchTail cfg s.srv e c found)
  | exec i ok =>
    obtain ⟨ins, rest, hi, rfl⟩ := Sys.act_exec ha
    obtain ⟨others, hp, hp'⟩ := Sys.tasks_set hi (exec cfg ok s.srv ins).2
    intro c found hm
    rcases List.mem_append.1 (hp'.subset hm) with hm | hm
    · -- a fresh piece: the locked section just looked the call's function up
      obtain ⟨rfl, rfl⟩ := exec_dispatchTail_mem hm
      have hlt : c < s.srv.contexts.length :=
        hk.tokens_lt c (List.mem_append_right _ (List.mem_filterMap.2 ⟨_, hp.symm.subset (List.mem_cons_self _ _), rfl⟩))
      obtain ⟨name, e, he, hf⟩ := (hconf c hlt).funcId
      rw [(dispatchLocked_spec cfg s.srv c).2.2.2.2, Bool.or_eq_true]
      right
      rw [callOf, hf]
      exact hcons name e he
    · exact h c found (hp.symm.subset (List.mem_cons_of_mem _ hm))
  | shmOutput id data =>
    simp only [Sys.act, Option.some.injEq] at ha
    subst ha
    exact h

theorem dispatchersFound_reachable
    (hcons : fc.IdsKnown cfg)
    {s : Sys} (h : FrontReachable fc cfg s) (hL : s.srv.contexts.length ≤ 4294967296) : s.DispatchersFound := by
  induction h with
  | refl => exact fun c found hm => absurd hm (by simp [Sys.init, Sys.tasks])
  | tail hr hst ih =>
    obtain ⟨a, -, ha⟩ := hst
    have hL' := (contexts_length_le_act ha).trans hL
    exact dispatchersFound_act hcons (keyInv_reachable (FrontReachable.reachable hr) hL')
      (configured_reachable hr) (ih hL') ha

end Dispatchers

/-- Along every run whose arrivals come through the front door, every context the gateway
built names what `func_config_` holds (a function found by name, and for a gRPC call one of
its service's methods); and when `func_config_` finds each of its functions by the
narrowed id as well, then, while at most `2^32` contexts have been built, every dispatch
finds its `Dispatcher`: `DispatchExternalFuncCall` fails only when `ShmCreate` fails or
`OnNewFuncCall` refuses. -/
theorem front_door_calls_are_configured {fc : FuncConfig} {cfg : Config} {s : Sys}
    (h : FrontReachable fc cfg s) :
    (∀ c < s.srv.contexts.length, Configured fc (s.srv.ctx c)) ∧
      (fc.IdsKnown cfg →
        s.srv.contexts.length ≤ 4294967296 →
        ∀ c found, Instr.dispatchTail c found ∈ s.tasks → found = true) :=
  ⟨configured_reachable h, fun hcons hL => dispatchersFound_reachable hcons h hL⟩

/-- The small deployment, with the ids of both functions of `sampleFuncConfig` known. -/
def sampleConfig : Config := { scenarioConfig with knownFuncId := fun f => f == 1 || f == 2 }

/-- A request `POST /function/foo` admitted and dispatched up to the hand-over. -/
def fooDispatch : List Action :=
  [.spawn (.httpCall 1 [97]), .exec 0 true, .exec 0 true, .exec 0 true]

theorem front_door_calls_are_configured_foo :
    ∃ s, FrontReachable sampleFuncConfig sampleConfig s ∧ Instr.dispatchTail 0 true ∈ s.tasks ∧
      Configured sampleFuncConfig (s.srv.ctx 0) ∧
      ∀ c found, Instr.dispatchTail c found ∈ s.tasks → found = true := by
  have hf : ∀ a ∈ fooDispatch, FrontAllows sampleFuncConfig a := by
    intro a ha
    simp only [fooDispatch, List.mem_cons, List.mem_singleton, List.not_mem_nil, or_false] at ha
    rcases ha with rfl | rfl | rfl | rfl
    · exact ⟨"POST".toList, "/function/foo".toList, by decide⟩
    all_goals trivial
  have hcons : sampleFuncConfig.IdsKnown sampleConfig := by
    intro name e he
    simp only [sampleFuncConfig] at he
    split_ifs at he <;> cases he <;> rfl
  obtain ⟨s, hs, hm, hl⟩ : ∃ s, Sys.init.replay sampleConfig fooDispatch = some s ∧
      Instr.dispatchTail 0 true ∈ s.tasks ∧ s.srv.contexts.length = 1 := ⟨_, rfl, by decide, rfl⟩
  have h := Sys.replay_frontReachable fooDispatch hf .refl hs
  exact ⟨s, h, hm, (front_door_calls_are_configured h).1 0 (by omega),
    (front_door_calls_are_configured h).2 hcons (by omega)⟩

end Nightcore.Gateway
