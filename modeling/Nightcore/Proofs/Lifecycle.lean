import Nightcore.Proofs.Framing

/-! The life of the watchdog's connection to the gateway, over every order in which libuv
may run its callbacks. `Start` makes the connect request, a successful connect writes the
handshake, the written handshake starts the response's read, and the response, once read,
goes to `Watchdog::OnRecvHandshakeResponse`: one request leads to the next, so at most one
of them is outstanding, and the watchdog is handed at most one response. Only an accepted
response starts the message reads. `ScheduleClose` calls `uv_close` only from
`kHandshake` or `kRunning` and stops reading, and a request's callback after `uv_close`
reports an error, which closes nothing more. So `uv_close` runs at most once, the
watchdog hears of the close at most once and only after it, the state never goes back,
and once the connection is closing nothing more reaches the watchdog. -/

namespace Nightcore.Watchdog

/-- The order of the lifecycle: `kCreated`, `kHandshake`, `kRunning`, `kClosing`,
`kClosed`. -/
def ConnState.rank : ConnState → Nat
  | .created => 0
  | .handshake => 1
  | .running => 2
  | .closing => 3
  | .closed => 4

namespace Conn

/-- The watchdog was handed one response, and accepted it. -/
def Accepted (accept : List UInt8 → Bool) (c : Conn) : Prop := ∃ r, c.responses = [r] ∧ accept r = true

theorem scheduleClose_of_open {c : Conn} (h : c.state = .handshake ∨ c.state = .running) :
    c.scheduleClose = { c with state := .closing, reader := .none, closes := c.closes + 1 } :=
  if_pos h

theorem scheduleClose_of_shut {c : Conn} (h : 3 ≤ c.state.rank) : c.scheduleClose = c :=
  if_neg fun ho => by rcases ho with ho | ho <;> simp [ho, ConnState.rank] at h

theorem rank_le_scheduleClose (c : Conn) : c.state.rank ≤ c.scheduleClose.state.rank := by
  unfold scheduleClose
  split_ifs with h
  · rcases h with h | h <;> simp [h, ConnState.rank]
  · exact le_rfl

theorem read_cases (w : Wire) (accept : List UInt8 → Bool) (c : Conn) (r : ReadResult) :
    c.read w accept r = c.scheduleClose ∨
    ((c.read w accept r).state = c.state ∧ (c.read w accept r).reader = c.reader ∧
      (c.read w accept r).responses = c.responses ∧ (c.read w accept r).messages = c.messages ∧
      (c.read w accept r).closes = c.closes) ∨
    (c.reader = .handshakeResponse ∧ ∃ buf, c.read w accept r = recvHandshakeResponse accept { c with buffer := buf }) ∨
    (c.reader = .message ∧ ∃ ms buf, c.read w accept r = { c with messages := c.messages ++ ms, buffer := buf }) := by
  unfold read
  split
  · exact .inr (.inl ⟨rfl, rfl, rfl, rfl, rfl⟩)
  · rename_i hr
    unfold readHandshakeResponseCallback
    split
    · exact .inl rfl
    · exact .inr (.inl ⟨rfl, rfl, rfl, rfl, rfl⟩)
    · dsimp only
      split_ifs
      · exact .inr (.inr (.inl ⟨hr, _, rfl⟩))
      · exact .inr (.inl ⟨rfl, rfl, rfl, rfl, rfl⟩)
  · rename_i hr
    unfold readMessageCallback
    split
    · exact .inl rfl
    · exact .inr (.inl ⟨rfl, rfl, rfl, rfl, rfl⟩)
    · exact .inr (.inr (.inr ⟨hr, _, _, rfl⟩))

end Conn

namespace Pipe

variable {w : Wire} {accept : List UInt8 → Bool} {p q : Pipe} {e : Callback}

@[simp] theorem moveTo_conn (p : Pipe) (c : Conn) : (p.moveTo c).conn = c := rfl
@[simp] theorem moveTo_closes (p : Pipe) (c : Conn) : (p.moveTo c).closes = c.closes := rfl
@[simp] theorem moveTo_closeNotices (p : Pipe) (c : Conn) : (p.moveTo c).closeNotices = p.closeNotices := rfl
@[simp] theorem moveTo_connecting (p : Pipe) (c : Conn) : (p.moveTo c).connecting = p.connecting := rfl
@[simp] theorem moveTo_writingHandshake (p : Pipe) (c : Conn) :
    (p.moveTo c).writingHandshake = p.writingHandshake := rfl

/-- The steps towards the response still to come: the connect request, the handshake's
write, and the response's read. -/
def coming (p : Pipe) : Nat :=
  (if p.connecting then 1 else 0) + (if p.writingHandshake then 1 else 0) +
    (if p.conn.reader = .handshakeResponse then 1 else 0)

theorem coming_drop (p : Pipe) {c w : Bool} (hc : c = true → p.connecting = true)
    (hw : w = true → p.writingHandshake = true) :
    coming { p with connecting := c, writingHandshake := w } ≤ p.coming := by
  have h1 : (if c = true then 1 else 0) ≤ if p.connecting = true then 1 else 0 := by
    cases c <;> simp_all
  have h2 : (if w = true then 1 else 0) ≤ if p.writingHandshake = true then 1 else 0 := by
    cases w <;> simp_all
  simp only [coming]
  omega

/-- The lifecycle's invariant. -/
structure Inv (accept : List UInt8 → Bool) (p : Pipe) : Prop where
  /-- `uv_close` has run once exactly when the connection is closing or closed, ... -/
  closes : p.closes = if 3 ≤ p.conn.state.rank then 1 else 0
  /-- ... and `CloseCallback` once exactly when it is closed. -/
  closeNotices : p.closeNotices = if p.conn.state = .closed then 1 else 0
  /-- A closing connection reads nothing. -/
  shut : 3 ≤ p.conn.state.rank → p.conn.reader = .none
  /-- A new connection has nothing under way. -/
  created : p.conn.state = .created → p.conn.reader = .none ∧ p.coming + p.conn.responses.length = 0
  /-- One response at most, counting those still to come. -/
  once : p.coming + p.conn.responses.length ≤ 1
  awaiting : p.conn.reader = .handshakeResponse → p.conn.state = .handshake
  reading : p.conn.reader = .message → p.conn.state = .running
  running : p.conn.state = .running → p.conn.Accepted accept
  delivered : p.conn.messages ≠ [] → p.conn.Accepted accept

namespace Inv

theorem init : Inv accept Pipe.init where
  closes := rfl
  closeNotices := rfl
  shut := nofun
  created := fun _ => ⟨rfl, rfl⟩
  once := by decide
  awaiting := nofun
  reading := nofun
  running := nofun
  delivered := fun h => absurd rfl h

theorem messages_nil (h : Inv accept p) (hresp : p.conn.responses = []) : p.conn.messages = [] := by
  by_contra hm
  obtain ⟨r, hr, -⟩ := h.delivered hm
  simp [hresp] at hr

theorem frame (h : Inv accept p) (hs : q.conn.state = p.conn.state) (hr : q.conn.reader = p.conn.reader)
    (hresp : q.conn.responses = p.conn.responses) (hd : q.conn.messages ≠ [] → p.conn.Accepted accept)
    (hcl : q.closes = p.closes) (hn : q.closeNotices = p.closeNotices) (hc : q.coming ≤ p.coming) :
    Inv accept q where
  closes := by rw [hcl, hs]; exact h.closes
  closeNotices := by rw [hn, hs]; exact h.closeNotices
  shut := fun h3 => hr ▸ h.shut (hs ▸ h3)
  created := fun h0 => by
    obtain ⟨h1, h2⟩ := h.created (hs ▸ h0)
    exact ⟨hr ▸ h1, by rw [hresp]; omega⟩
  once := by have := h.once; rw [hresp]; omega
  awaiting := fun ha => hs ▸ h.awaiting (hr ▸ ha)
  reading := fun ha => hs ▸ h.reading (hr ▸ ha)
  running := fun hrun => by simpa only [Conn.Accepted, hresp] using h.running (hs ▸ hrun)
  delivered := fun hm => by simpa only [Conn.Accepted, hresp] using hd hm

theorem shutDown (h : Inv accept p) (hs : 3 ≤ q.conn.state.rank) (hr : q.conn.reader = .none)
    (hresp : q.conn.responses = p.conn.responses) (hm : q.conn.messages = p.conn.messages)
    (hcl : q.closes = 1) (hn : q.closeNotices = if q.conn.state = .closed then 1 else 0)
    (hc : q.coming ≤ p.coming) : Inv accept q where
  closes := by rw [hcl, if_pos hs]
  closeNotices := hn
  shut := fun _ => hr
  created := fun h0 => by simp [h0, ConnState.rank] at hs
  once := by have := h.once; rw [hresp]; omega
  awaiting := fun ha => by rw [hr] at ha; cases ha
  reading := fun ha => by rw [hr] at ha; cases ha
  running := fun hrun => by simp [hrun, ConnState.rank] at hs
  delivered := fun hd => by simpa only [Conn.Accepted, hresp] using h.delivered (hm ▸ hd)

theorem ofHandshake (hs : q.conn.state = .handshake) (hr : q.conn.reader ≠ .message)
    (hcl : q.closes = 0) (hn : q.closeNotices = 0) (hm : q.conn.messages = [])
    (ho : q.coming + q.conn.responses.length ≤ 1) : Inv accept q where
  closes := by rw [hcl, hs]; rfl
  closeNotices := by rw [hn, hs]; rfl
  shut := fun h3 => by rw [hs] at h3; exact absurd h3 (by decide)
  created := fun h0 => by rw [hs] at h0; cases h0
  once := ho
  awaiting := fun _ => hs
  reading := fun h => absurd h hr
  running := fun h => by rw [hs] at h; cases h
  delivered := fun h => absurd hm h

theorem ofRunning (hs : q.conn.state = .running) (hr : q.conn.reader = .message)
    (hcl : q.closes = 0) (hn : q.closeNotices = 0) (hc : q.coming = 0) (ha : q.conn.Accepted accept) :
    Inv accept q where
  closes := by rw [hcl, hs]; rfl
  closeNotices := by rw [hn, hs]; rfl
  shut := fun h3 => by rw [hs] at h3; exact absurd h3 (by decide)
  created := fun h0 => by rw [hs] at h0; cases h0
  once := by obtain ⟨r, hr', -⟩ := ha; rw [hc, hr']; simp
  awaiting := fun h => by rw [hr] at h; cases h
  reading := fun _ => hs
  running := fun _ => ha
  delivered := fun _ => ha

theorem exclusive (h : Inv accept p) :
    (p.connecting = true → p.writingHandshake = false ∧ p.conn.responses = []) ∧
    (p.writingHandshake = true → p.connecting = false ∧ p.conn.reader ≠ .handshakeResponse ∧
      p.conn.responses = []) ∧
    (p.conn.reader = .handshakeResponse → p.connecting = false ∧ p.writingHandshake = false ∧
      p.conn.responses = []) := by
  have hone := h.once
  simp only [coming] at hone
  refine ⟨fun hc => ?_, fun hw => ?_, fun hr => ?_⟩ <;> simp only [*, if_true] at hone <;>
    refine ⟨?_, ?_⟩ <;> try refine ⟨?_, ?_⟩
  all_goals first
    | exact List.eq_nil_of_length_eq_zero (by omega)
    | exact Bool.eq_false_iff.2 fun hx => by simp only [hx, if_true] at hone; omega
    | exact fun hx => by simp only [hx, if_true] at hone; omega

theorem counts_of_open (h : Inv accept p) (ho : p.conn.state = .handshake ∨ p.conn.state = .running) :
    p.closes = 0 ∧ p.closeNotices = 0 := by
  rw [h.closes, h.closeNotices]
  rcases ho with ho | ho <;> simp [ho, ConnState.rank]

theorem scheduleClose (h : Inv accept p) : Inv accept (p.moveTo p.conn.scheduleClose) := by
  by_cases ho : p.conn.state = .handshake ∨ p.conn.state = .running
  · obtain ⟨hcl, hn⟩ := h.counts_of_open ho
    rw [Conn.scheduleClose_of_open ho]
    refine h.shutDown le_rfl rfl rfl rfl (by simpa [Pipe.closes] using hcl) (by simpa using hn) ?_
    simp [coming]
  · rw [show p.conn.scheduleClose = p.conn from if_neg ho]
    exact h.frame rfl rfl rfl h.delivered rfl rfl le_rfl

theorem step (h : Inv accept p) (ha : p.Allows e) : Inv accept (p.step w accept e) := by
  cases e with
  | start =>
    change p.conn.state = .created at ha
    obtain ⟨hr, h0⟩ := h.created ha
    simp [coming, hr] at h0
    have hcl : p.closes = 0 := by simpa [ha, ConnState.rank] using h.closes
    have hn : p.closeNotices = 0 := by simpa [ha] using h.closeNotices
    exact ofHandshake rfl (by simp [Pipe.step, Conn.start, hr]) hcl hn (h.messages_nil h0.2)
      (by simp [Pipe.step, Conn.start, coming, hr, h0])
  | connect ok =>
    cases ok
    · exact h.scheduleClose.frame rfl rfl rfl h.scheduleClose.delivered rfl rfl
        (coming_drop _ nofun fun hw => by simpa using hw)
    · obtain ⟨hc, -⟩ := ha
      have hw := (h.exclusive.1 hc).1
      exact h.frame rfl rfl rfl h.delivered rfl rfl (by simp [coming, Pipe.step, Conn.connectCallback, hc, hw])
  | writeHandshake ok =>
    cases ok
    · exact h.scheduleClose.frame rfl rfl rfl h.scheduleClose.delivered rfl rfl
        (coming_drop _ id nofun)
    · obtain ⟨hw, hw0⟩ := ha
      -- the write is the one step to come: nothing else is under way and nothing was handed over
      obtain ⟨hc, -, hresp⟩ := h.exclusive.2.1 hw
      have hs : p.conn.state = .handshake := by
        have hcl := h.closes
        cases hst : p.conn.state
        · have := (h.created hst).2; simp [coming, hw] at this
        · rfl
        · obtain ⟨r, hr', -⟩ := h.running hst; simp [hresp] at hr'
        all_goals simp [hst, ConnState.rank, hw0 rfl] at hcl
      have hn := (h.counts_of_open (.inl hs)).2
      exact ofHandshake hs nofun (hw0 rfl) hn
        (h.messages_nil hresp) (by simp [Pipe.step, Conn.writeHandshakeCallback, coming, hc, hresp])
  | read r =>
    rcases Conn.read_cases w accept p.conn r with hc | ⟨hs, hr, hresp, hm, hcl⟩ | ⟨hr, buf, hc⟩ | ⟨hr, ms, buf, hc⟩
    · simp only [Pipe.step, hc]
      exact h.scheduleClose
    · exact h.frame hs hr hresp (fun hne => h.delivered (hm ▸ hne)) hcl rfl (by simp [coming, Pipe.step, hr])
    · -- the response is handed over: it is the first, and nothing else is under way
      have hs := h.awaiting hr
      obtain ⟨hc', hw, hresp⟩ := h.exclusive.2.2 hr
      obtain ⟨hcl, hn⟩ := h.counts_of_open (.inl hs)
      simp only [Pipe.step, hc, Conn.recvHandshakeResponse]
      split_ifs with hacc
      · exact ofRunning rfl rfl hcl hn (by simp [coming, hc', hw]) ⟨buf, by simp [hresp], hacc⟩
      · exact ofHandshake hs nofun hcl hn (h.messages_nil hresp)
          (by simp [coming, hc', hw, hresp])
    · -- messages are handed over while running, after the accepted response
      have hrun := h.reading hr
      exact h.frame (by simp [Pipe.step, hc]) (by simp [Pipe.step, hc]) (by simp [Pipe.step, hc])
        (fun _ => h.running hrun) (by simp [Pipe.step, hc, Pipe.closes]) rfl (by simp [coming, Pipe.step, hc])
  | writeMessage ok =>
    cases ok
    · exact h.scheduleClose
    · exact h.frame rfl rfl rfl h.delivered rfl rfl le_rfl
  | close =>
    change p.closeNotices < p.closes at ha
    have hcl := h.closes
    have hn := h.closeNotices
    -- `CloseCallback` comes only while the connection is closing
    have hs : p.conn.state = .closing := by
      cases hst : p.conn.state <;> simp [hst, ConnState.rank] at hcl hn <;> first | rfl | omega
    refine h.shutDown (by simp [Pipe.step, Conn.closeCallback, ConnState.rank]) (h.shut (by simp [hs, ConnState.rank]))
      rfl rfl ?_ ?_ le_rfl
    · simpa [Pipe.closes, hs, ConnState.rank] using hcl
    · simp [Pipe.step, Conn.closeCallback, hn, hs]

end Inv

theorem rank_le_step (h : Inv accept p) (ha : p.Allows e) :
    p.conn.state.rank ≤ (p.step w accept e).conn.state.rank := by
  cases e with
  | start => simp [Pipe.step, Conn.start, show p.conn.state = .created from ha, ConnState.rank]
  | connect ok =>
    cases ok
    · exact Conn.rank_le_scheduleClose _
    · exact le_rfl
  | writeHandshake ok =>
    cases ok
    · exact Conn.rank_le_scheduleClose _
    · exact le_rfl
  | read r =>
    rcases Conn.read_cases w accept p.conn r with hc | ⟨hs, -⟩ | ⟨hr, buf, hc⟩ | ⟨-, ms, buf, hc⟩
    · simpa only [Pipe.step, moveTo_conn, hc] using Conn.rank_le_scheduleClose _
    · simp [Pipe.step, hs]
    · -- the response's acceptance moves `kHandshake` to `kRunning`
      simp only [Pipe.step, moveTo_conn, hc, Conn.recvHandshakeResponse, h.awaiting hr]
      split_ifs <;> simp [ConnState.rank]
    · simp [Pipe.step, hc]
  | writeMessage ok =>
    cases ok
    · exact Conn.rank_le_scheduleClose _
    · exact le_rfl
  | close => cases hs : p.conn.state <;> simp [Pipe.step, Conn.closeCallback, hs, ConnState.rank]

theorem silent_step (h : Inv accept p) (ha : p.Allows e) (hs : 3 ≤ p.conn.state.rank) :
    3 ≤ (p.step w accept e).conn.state.rank ∧
      (p.step w accept e).conn.responses = p.conn.responses ∧
      (p.step w accept e).conn.messages = p.conn.messages := by
  have hr := h.shut hs
  have hcl : p.closes = 1 := by rw [h.closes, if_pos hs]
  have hsc := Conn.scheduleClose_of_shut hs
  cases e with
  | start => simp [show p.conn.state = .created from ha, ConnState.rank] at hs
  | connect ok =>
    -- after `uv_close` the connect request reports an error
    obtain ⟨-, hok⟩ := ha
    cases ok
    · simp [Pipe.step, Conn.connectCallback, hsc, hs]
    · simp [hok rfl] at hcl
  | writeHandshake ok =>
    obtain ⟨-, hok⟩ := ha
    cases ok
    · simp [Pipe.step, Conn.writeHandshakeCallback, hsc, hs]
    · simp [hok rfl] at hcl
  | read r => simp [Pipe.step, Conn.read, hr, hs]
  | writeMessage ok => cases ok <;> simp [Pipe.step, Conn.writeMessageCallback, hsc, hs]
  | close => simp [Pipe.step, Conn.closeCallback, ConnState.rank]

theorem inv_reachable (h : PipeReachable w accept p) : Inv accept p := by
  induction h with
  | refl => exact Inv.init
  | tail _ hst ih =>
    obtain ⟨e, ha, rfl⟩ := hst
    exact ih.step ha

theorem replay_steps :
    ∀ {p p' : Pipe} (es : List Callback), p.replay w accept es = some p' →
      Relation.ReflTransGen (PipeStep w accept) p p'
  | p, p', [], he => by simp only [replay, Option.some.injEq] at he; exact he ▸ .refl
  | p, p', e :: es, he => by
    simp only [replay] at he
    split_ifs at he with ha
    exact .head ⟨e, ha, rfl⟩ (replay_steps es he)

end Pipe

open Pipe

/-- The connection's lifecycle, over every order in which libuv may run its callbacks and
every answer of the watchdog: `uv_close` is called at most once; `CloseCallback`, and with
it `Watchdog::OnGatewayConnectionClose`, runs at most once and only after `uv_close`;
`OnRecvHandshakeResponse` is handed at most one response; and `OnRecvMessage` is handed
messages only after the watchdog accepted that response. -/
theorem gateway_connection_lifecycle {w : Wire} {accept : List UInt8 → Bool} {p : Pipe}
    (h : PipeReachable w accept p) :
    p.closes ≤ 1 ∧ p.closeNotices ≤ p.closes ∧ p.conn.responses.length ≤ 1 ∧
      (p.conn.messages ≠ [] → ∃ r, p.conn.responses = [r] ∧ accept r = true) := by
  have hi := inv_reachable h
  have hcl := hi.closes
  have hn := hi.closeNotices
  refine ⟨by split_ifs at hcl <;> omega, ?_, by have := hi.once; omega, hi.delivered⟩
  -- a closed connection has rank 4, so `uv_close` has run
  split_ifs at hn with hc
  · simp [hcl, hn, hc, ConnState.rank]
  · omega

/-- A run of a connection accepted by the watchdog: connected, handshake written, the
response read in one piece, two one-byte messages, and a read error that closes it. -/
def acceptedThenClosed : List Callback :=
  [.start, .connect true, .writeHandshake true, .read (.data [7, 7]), .read (.data [1, 2]),
   .read .error, .close]

theorem gateway_connection_lifecycle_accepted :
    ∃ p, PipeReachable tinyWire (fun _ => true) p ∧ p.closes = 1 ∧ p.closeNotices = 1 ∧
      p.conn.responses = [[7, 7]] ∧ p.conn.messages = [[1], [2]] ∧
      (p.closes ≤ 1 ∧ p.closeNotices ≤ p.closes ∧ p.conn.responses.length ≤ 1 ∧
        (p.conn.messages ≠ [] → ∃ r, p.conn.responses = [r] ∧ (fun _ => true) r = true)) := by
  obtain ⟨p, hp, h1, h2, h3, h4⟩ : ∃ p, Pipe.init.replay tinyWire (fun _ => true) acceptedThenClosed = some p ∧
      p.closes = 1 ∧ p.closeNotices = 1 ∧ p.conn.responses = [[7, 7]] ∧ p.conn.messages = [[1], [2]] :=
    ⟨_, rfl, rfl, rfl, rfl, rfl⟩
  have h := replay_steps _ hp
  exact ⟨p, h, h1, h2, h3, h4, gateway_connection_lifecycle h⟩

/-- The state only advances: from any reachable point, along every later run, the
connection never returns to an earlier state of `kCreated`, `kHandshake`, `kRunning`,
`kClosing`, `kClosed`. -/
theorem connection_state_only_advances {w : Wire} {accept : List UInt8 → Bool} {p p' : Pipe}
    (h : PipeReachable w accept p) (h' : Relation.ReflTransGen (PipeStep w accept) p p') :
    p.conn.state.rank ≤ p'.conn.state.rank := by
  induction h' with
  | refl => exact le_rfl
  | tail hr hst ih =>
    obtain ⟨e, ha, rfl⟩ := hst
    exact ih.trans (rank_le_step (inv_reachable (h.trans hr)) ha)

theorem connection_state_only_advances_accepted :
    ∃ p p', PipeReachable tinyWire (fun _ => true) p ∧
      Relation.ReflTransGen (PipeStep tinyWire (fun _ => true)) p p' ∧
      p.conn.state = .created ∧ p'.conn.state = .closed ∧ p.conn.state.rank ≤ p'.conn.state.rank := by
  obtain ⟨p', hp, hs⟩ : ∃ p', Pipe.init.replay tinyWire (fun _ => true) acceptedThenClosed = some p' ∧
      p'.conn.state = .closed := ⟨_, rfl, rfl⟩
  have h := replay_steps _ hp
  exact ⟨_, p', .refl, h, rfl, hs, connection_state_only_advances .refl h⟩

/-- Nothing reaches the watchdog after `ScheduleClose`: from a point where the connection is
closing or closed, along every later run it stays so, and the responses and messages the
watchdog was handed stay what they were. -/
theorem closed_connection_stays_silent {w : Wire} {accept : List UInt8 → Bool} {p p' : Pipe}
    (h : PipeReachable w accept p) (hs : p.conn.state = .closing ∨ p.conn.state = .closed)
    (h' : Relation.ReflTransGen (PipeStep w accept) p p') :
    (p'.conn.state = .closing ∨ p'.conn.state = .closed) ∧
      p'.conn.responses = p.conn.responses ∧ p'.conn.messages = p.conn.messages := by
  have key : 3 ≤ p'.conn.state.rank ∧ p'.conn.responses = p.conn.responses ∧
      p'.conn.messages = p.conn.messages := by
    induction h' with
    | refl => exact ⟨by rcases hs with hs | hs <;> simp [hs, ConnState.rank], rfl, rfl⟩
    | tail hr hst ih =>
      obtain ⟨e, ha, rfl⟩ := hst
      obtain ⟨h1, h2, h3⟩ := ih
      obtain ⟨k1, k2, k3⟩ := silent_step (inv_reachable (h.trans hr)) ha h1
      exact ⟨k1, k2.trans h2, k3.trans h3⟩
  refine ⟨?_, key.2⟩
  cases hst : p'.conn.state <;> simp [hst, ConnState.rank] at key ⊢

theorem closed_connection_stays_silent_accepted :
    ∃ p p', PipeReachable tinyWire (fun _ => true) p ∧ p.conn.state = .closing ∧
      Relation.ReflTransGen (PipeStep tinyWire (fun _ => true)) p p' ∧ p'.conn.state = .closed ∧
      p'.conn.responses = p.conn.responses ∧ p'.conn.messages = p.conn.messages := by
  obtain ⟨p, hp, hs⟩ : ∃ p, Pipe.init.replay tinyWire (fun _ => true) (acceptedThenClosed.take 6) = some p ∧
      p.conn.state = .closing := ⟨_, rfl, rfl⟩
  obtain ⟨p', hp', hs'⟩ : ∃ p', p.replay tinyWire (fun _ => true) [.close] = some p' ∧
      p'.conn.state = .closed := by
    cases hp
    exact ⟨_, rfl, rfl⟩
  have h := replay_steps _ hp
  have h' := replay_steps _ hp'
  exact ⟨p, p', h, hs, h', hs', (closed_connection_stays_silent h (.inl hs) h').2⟩

end Nightcore.Watchdog
