import Mathlib.Data.List.Basic
import Mathlib.Logic.Relation

/-! The watchdog's end of its connection to the gateway, `GatewayConnection`. After
writing its handshake it reads the gateway's `HandshakeResponse` with one read callback,
hands it to `Watchdog::OnRecvHandshakeResponse`, and on acceptance switches to a second
read callback that cuts the rest of the stream into `Message`s for
`Watchdog::OnRecvMessage`. Each read delivers whatever bytes libuv has, so a stream may
arrive in any chunking. `Pipe` adds the requests libuv holds for the connection, so that
`PipeStep` runs the callbacks in any order libuv may run them. -/

namespace Nightcore.Watchdog

/-- `GatewayConnection::State`. -/
inductive ConnState
  | created
  | handshake
  | running
  | closing
  | closed
deriving DecidableEq, Repr

/-- The read callback libuv calls on the pipe: none after `uv_read_stop` or `uv_close`. -/
inductive Reader
  | none
  | handshakeResponse
  | message
deriving DecidableEq, Repr

/-- The sizes of the two wire structs, whose definitions are not among the sources. -/
structure Wire where
  /-- `sizeof(HandshakeResponse)`. -/
  handshakeResponseSize : Nat
  /-- `sizeof(Message)`. -/
  messageSize : Nat
  handshakeResponseSize_pos : 0 < handshakeResponseSize
  messageSize_pos : 0 < messageSize

/-- The bytes of one wire struct of `n` bytes. -/
structure Frame (n : Nat) where
  bytes : List UInt8
  length_eq : bytes.length = n

/-- A response followed by messages, as the gateway writes them. -/
def stream {r m : Nat} (resp : Frame r) (msgs : List (Frame m)) : List UInt8 :=
  resp.bytes ++ (msgs.map Frame.bytes).flatten

/-- The fields of `GatewayConnection` the read path uses, with what the watchdog has been
handed. -/
structure Conn where
  state : ConnState
  reader : Reader
  /-- `message_buffer_`. -/
  buffer : List UInt8
  /-- The arguments of `OnRecvHandshakeResponse`, in order. -/
  responses : List (List UInt8)
  /-- The arguments of `OnRecvMessage`, in order. -/
  messages : List (List UInt8)
  /-- The `uv_close` calls made on the pipe handle. -/
  closes : Nat
deriving DecidableEq, Repr

/-- What a read callback gets: `nread < 0`, or `nread ≥ 0` bytes. -/
inductive ReadResult
  | error
  | data (bytes : List UInt8)
deriving DecidableEq, Repr

/-- `utils::ReadMessages<Message>`, with the bytes fed one at a time. Modelled from the
spec: the function is not among the sources; it completes the partial message in
`message_buffer_` with the new bytes, hands over every message that reaches
`sizeof(Message)` bytes, in order, and keeps the rest in the buffer. -/
def readMessages (n : Nat) : List UInt8 → List UInt8 → List (List UInt8) × List UInt8
  | cur, [] => ([], cur)
  | cur, b :: bs =>
    if (cur ++ [b]).length = n then
      let r := readMessages n [] bs
      ((cur ++ [b]) :: r.1, r.2)
    else readMessages n (cur ++ [b]) bs

namespace Conn

/-- The connection as the constructor leaves it. -/
def init : Conn := ⟨.created, .none, [], [], [], 0⟩

/-- `ScheduleClose`: from `kHandshake` or `kRunning`, `uv_close`, which stops reading, and
`kClosing`. -/
def scheduleClose (c : Conn) : Conn :=
  if c.state = .handshake ∨ c.state = .running then
    { c with state := .closing, reader := .none, closes := c.closes + 1 }
  else c

/-- `Start`: the connect request is made. -/
def start (c : Conn) : Conn := { c with state := .handshake }

/-- `ConnectCallback`; `ok` is whether the connect succeeded, after which the handshake
message is written. -/
def connectCallback (c : Conn) (ok : Bool) : Conn := if ok then c else c.scheduleClose

/-- `WriteHandshakeCallback`: reading the response starts once the handshake is written. -/
def writeHandshakeCallback (c : Conn) (ok : Bool) : Conn :=
  if ok then { c with reader := .handshakeResponse } else c.scheduleClose

/-- `RecvHandshakeResponse`: reading stops, the buffer goes to the watchdog, and on
acceptance the buffer is reset and message reading starts. -/
def recvHandshakeResponse (accept : List UInt8 → Bool) (c : Conn) : Conn :=
  let c := { c with reader := .none, responses := c.responses ++ [c.buffer] }
  if accept c.buffer then { c with buffer := [], reader := .message, state := .running } else c

/-- `ReadHandshakeResponseCallback`: the response is handed over when the buffer holds
exactly `sizeof(HandshakeResponse)` bytes. -/
def readHandshakeResponseCallback (w : Wire) (accept : List UInt8 → Bool) (c : Conn) :
    ReadResult → Conn
  | .error => c.scheduleClose
  | .data [] => c
  | .data bytes =>
    let c := { c with buffer := c.buffer ++ bytes }
    if c.buffer.length = w.handshakeResponseSize then recvHandshakeResponse accept c else c

/-- `ReadMessageCallback`. -/
def readMessageCallback (w : Wire) (c : Conn) : ReadResult → Conn
  | .error => c.scheduleClose
  | .data [] => c
  | .data bytes =>
    let r := readMessages w.messageSize c.buffer bytes
    { c with messages := c.messages ++ r.1, buffer := r.2 }

/-- libuv calls the read callback in place, if any. -/
def read (w : Wire) (accept : List UInt8 → Bool) (c : Conn) (r : ReadResult) : Conn :=
  match c.reader with
  | .none => c
  | .handshakeResponse => readHandshakeResponseCallback w accept c r
  | .message => readMessageCallback w c r

/-- `CloseCallback`; the watchdog is told through `OnGatewayConnectionClose`. -/
def closeCallback (c : Conn) : Conn := { c with state := .closed }

/-- `WriteMessageCallback`: a failed write closes the connection. -/
def writeMessageCallback (c : Conn) (ok : Bool) : Conn := if ok then c else c.scheduleClose

/-- The reads of a run, in order. -/
def readAll (w : Wire) (accept : List UInt8 → Bool) (c : Conn) (rs : List ReadResult) : Conn :=
  rs.foldl (read w accept) c

/-- Connected, handshake written, waiting for the response. -/
def awaitingResponse : Conn := ((init.start).connectCallback true).writeHandshakeCallback true

theorem awaitingResponse_eq : awaitingResponse = ⟨.handshake, .handshakeResponse, [], [], [], 0⟩ := rfl

end Conn

/-- What runs on the connection: the watchdog's call of `Start`, or a callback libuv makes. -/
inductive Callback
  | start
  /-- `ConnectCallback`, with whether `status == 0`. -/
  | connect (ok : Bool)
  /-- `WriteHandshakeCallback`, with whether `status == 0`. -/
  | writeHandshake (ok : Bool)
  /-- The read callback in place, with what libuv read. -/
  | read (r : ReadResult)
  /-- `WriteMessageCallback` of a `WriteMessage`, with whether `status == 0`. -/
  | writeMessage (ok : Bool)
  /-- `CloseCallback`. -/
  | close
deriving DecidableEq, Repr

/-- The connection with the requests libuv holds for it whose callbacks are still to come,
and the calls of `CloseCallback` libuv has made. -/
structure Pipe where
  conn : Conn
  /-- `connect_req_`, made by `Start`. -/
  connecting : Bool
  /-- The handshake's `uv_write`, made by `ConnectCallback`. -/
  writingHandshake : Bool
  /-- `CloseCallback` runs, each of which calls `Watchdog::OnGatewayConnectionClose`. -/
  closeNotices : Nat
deriving DecidableEq, Repr

namespace Pipe

def init : Pipe := ⟨Conn.init, false, false, 0⟩

/-- The `uv_close` calls, each of which libuv answers with one `CloseCallback`. -/
def closes (p : Pipe) : Nat := p.conn.closes

/-- The pipe once a callback has left the connection as `c`. -/
def moveTo (p : Pipe) (c : Conn) : Pipe := { p with conn := c }

/-- One callback; `accept` is what `Watchdog::OnRecvHandshakeResponse` answers. A successful
connect writes the handshake. -/
def step (w : Wire) (accept : List UInt8 → Bool) (p : Pipe) : Callback → Pipe
  | .start => { p with conn := p.conn.start, connecting := true }
  | .connect ok =>
    { p.moveTo (p.conn.connectCallback ok) with connecting := false, writingHandshake := p.writingHandshake || ok }
  | .writeHandshake ok => { p.moveTo (p.conn.writeHandshakeCallback ok) with writingHandshake := false }
  | .read r => p.moveTo (p.conn.read w accept r)
  | .writeMessage ok => p.moveTo (p.conn.writeMessageCallback ok)
  | .close => { p with conn := p.conn.closeCallback, closeNotices := p.closeNotices + 1 }

/-- What libuv and the watchdog promise: `Start` is called on a new connection (its
`DCHECK`); a request's callback comes once, and reports an error once `uv_close` was
called; `CloseCallback` comes once per `uv_close`. The requests of `WriteMessage` are not
tracked, so their callbacks may come at any time: the runs allowed are more than libuv
makes. -/
def Allows (p : Pipe) : Callback → Prop
  | .start => p.conn.state = .created
  | .connect ok => p.connecting = true ∧ (ok = true → p.closes = 0)
  | .writeHandshake ok => p.writingHandshake = true ∧ (ok = true → p.closes = 0)
  | .read _ | .writeMessage _ => True
  | .close => p.closeNotices < p.closes

instance (p : Pipe) (e : Callback) : Decidable (p.Allows e) :=
  match e with
  | .start => inferInstanceAs (Decidable (_ = _))
  | .connect _ | .writeHandshake _ => inferInstanceAs (Decidable (_ ∧ _))
  | .read _ | .writeMessage _ => inferInstanceAs (Decidable True)
  | .close => inferInstanceAs (Decidable (_ < _))

/-- Replay callbacks, checking each is allowed. -/
def replay (w : Wire) (accept : List UInt8 → Bool) (p : Pipe) : List Callback → Option Pipe
  | [] => some p
  | e :: es => if p.Allows e then (p.step w accept e).replay w accept es else none

end Pipe

def PipeStep (w : Wire) (accept : List UInt8 → Bool) (p p' : Pipe) : Prop :=
  ∃ e, p.Allows e ∧ p.step w accept e = p'

def PipeReachable (w : Wire) (accept : List UInt8 → Bool) (p : Pipe) : Prop :=
  Relation.ReflTransGen (PipeStep w accept) Pipe.init p

end Nightcore.Watchdog
