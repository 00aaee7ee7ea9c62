import Nightcore.Watchdog.GatewayConnection

/-! How `GatewayConnection` frames the gateway's stream. A read callback sees each chunk
whole: `ReadHandshakeResponseCallback` tests the buffer's length against
`sizeof(HandshakeResponse)` only after appending a chunk, so the response is handed over
exactly when some read ends at its last byte. A read that runs past it leaves the buffer
longer than the response, against the callback's `DCHECK_LE`, and the handshake never
completes. When a read does end there, every message after it is handed over once and in
order, however the rest is chunked. -/

namespace Nightcore.Watchdog

theorem readMessages_append (n : Nat) (cur xs ys : List UInt8) :
    readMessages n cur (xs ++ ys) =
      ((readMessages n cur xs).1 ++ (readMessages n (readMessages n cur xs).2 ys).1,
        (readMessages n (readMessages n cur xs).2 ys).2) := by
  induction xs generalizing cur with
  | nil => rfl
  | cons b bs ih =>
    rw [List.cons_append, readMessages.eq_2, readMessages.eq_2]
    split_ifs
    · simp only [ih, List.cons_append]
    · exact ih _

theorem readMessages_complete (n : Nat) (cur f rest : List UInt8) (hf : f ≠ [])
    (h : (cur ++ f).length = n) :
    readMessages n cur (f ++ rest) =
      ((cur ++ f) :: (readMessages n [] rest).1, (readMessages n [] rest).2) := by
  induction f generalizing cur with
  | nil => exact absurd rfl hf
  | cons b bs ih =>
    rw [List.cons_append, readMessages.eq_2]
    by_cases hbs : bs = []
    · subst hbs
      simp only [List.append_nil] at h ⊢
      simp [h]
    · have hlen : (cur ++ [b] ++ bs).length = n := by simpa using h
      have hlt : (cur ++ [b]).length ≠ n := by
        have := List.length_pos.2 hbs
        simp only [List.length_append, List.length_singleton] at hlen ⊢
        omega
      rw [if_neg hlt, ih (cur ++ [b]) hbs hlen]
      simp

theorem readMessages_frames {n : Nat} (hn : 0 < n) (fs : List (Frame n)) :
    readMessages n [] (fs.map Frame.bytes).flatten = (fs.map Frame.bytes, []) := by
  induction fs with
  | nil => rfl
  | cons f fs ih =>
    have hf : f.bytes ≠ [] := List.ne_nil_of_length_pos (by rw [f.length_eq]; exact hn)
    simp only [List.map_cons, List.flatten_cons]
    rw [readMessages_complete n [] f.bytes _ hf (by simpa using f.length_eq), ih]
    rfl

namespace Conn

variable (w : Wire) (accept : List UInt8 → Bool)

theorem read_of_handshakeResponse {c : Conn} (hc : c.reader = .handshakeResponse) (r : ReadResult) :
    read w accept c r = readHandshakeResponseCallback w accept c r := by
  simp only [read, hc]

theorem read_of_message {c : Conn} (hc : c.reader = .message) (r : ReadResult) :
    read w accept c r = readMessageCallback w c r := by
  simp only [read, hc]

theorem readAll_append (c : Conn) (xs ys : List ReadResult) :
    c.readAll w accept (xs ++ ys) = (c.readAll w accept xs).readAll w accept ys :=
  List.foldl_append _ _ _ _

theorem readHandshakeResponseCallback_short (c : Conn) {bytes : List UInt8}
    (h : (c.buffer ++ bytes).length ≠ w.handshakeResponseSize) :
    readHandshakeResponseCallback w accept c (.data bytes) = { c with buffer := c.buffer ++ bytes } := by
  cases bytes with
  | nil => simp [readHandshakeResponseCallback]
  | cons b bs => exact if_neg h

theorem readHandshakeResponseCallback_full (c : Conn) {bytes : List UInt8} (hb : bytes ≠ [])
    (h : (c.buffer ++ bytes).length = w.handshakeResponseSize) :
    readHandshakeResponseCallback w accept c (.data bytes) =
      recvHandshakeResponse accept { c with buffer := c.buffer ++ bytes } := by
  cases bytes with
  | nil => exact absurd rfl hb
  | cons b bs => simp only [readHandshakeResponseCallback, h, ↓reduceIte]

theorem readMessageCallback_data (c : Conn) (bytes : List UInt8) :
    readMessageCallback w c (.data bytes) =
      { c with messages := c.messages ++ (readMessages w.messageSize c.buffer bytes).1,
               buffer := (readMessages w.messageSize c.buffer bytes).2 } := by
  cases bytes with
  | nil => simp [readMessageCallback, readMessages]
  | cons b bs => rfl

theorem readAll_short {c : Conn} (hc : c.reader = .handshakeResponse) (A : List (List UInt8))
    (hA : ∀ j, 0 < j → (c.buffer ++ (A.take j).flatten).length ≠ w.handshakeResponseSize) :
    c.readAll w accept (A.map .data) = { c with buffer := c.buffer ++ A.flatten } := by
  induction A generalizing c with
  | nil => simp [readAll]
  | cons a A ih =>
    have h1 := hA 1 Nat.one_pos
    simp only [List.take_succ_cons, List.take_zero, List.flatten_cons, List.flatten_nil,
      List.append_nil] at h1
    show (read w accept c (.data a)).readAll w accept (A.map .data) = _
    rw [read_of_handshakeResponse w accept hc, readHandshakeResponseCallback_short w accept c h1,
      ih (c := { c with buffer := c.buffer ++ a }) hc fun j hj => by simpa [List.append_assoc] using hA (j + 1) (Nat.succ_pos j)]
    simp [List.append_assoc]

theorem readAll_handshake {c : Conn} (hc : c.reader = .handshakeResponse) (A : List (List UInt8))
    (hA : ∀ a ∈ A, a ≠ []) (hne : A ≠ [])
    (hlen : (c.buffer ++ A.flatten).length = w.handshakeResponseSize) :
    c.readAll w accept (A.map .data) = recvHandshakeResponse accept { c with buffer := c.buffer ++ A.flatten } := by
  induction A generalizing c with
  | nil => exact absurd rfl hne
  | cons a A ih =>
    have ha := hA a (List.mem_cons_self _ _)
    show (read w accept c (.data a)).readAll w accept (A.map .data) = _
    rw [read_of_handshakeResponse w accept hc]
    by_cases hA' : A = []
    · subst hA'
      simp only [List.flatten_cons, List.flatten_nil, List.append_nil] at hlen ⊢
      rw [readHandshakeResponseCallback_full w accept c ha hlen]
      rfl
    · have hpos : 0 < A.flatten.length := by
        obtain ⟨b, hb⟩ := List.exists_mem_of_ne_nil A hA'
        exact List.length_pos.2 fun h => hA b (List.mem_cons_of_mem _ hb)
          (List.flatten_eq_nil_iff.1 h b hb)
      have hshort : (c.buffer ++ a).length ≠ w.handshakeResponseSize := by
        simp only [List.flatten_cons, List.length_append] at hlen ⊢
        omega
      rw [readHandshakeResponseCallback_short w accept c hshort,
        ih (c := { c with buffer := c.buffer ++ a }) hc (fun b hb => hA b (List.mem_cons_of_mem _ hb)) hA' (by simpa [List.append_assoc] using hlen)]
      simp [List.append_assoc]

theorem readAll_messages {c : Conn} (hc : c.reader = .message) (B : List (List UInt8)) :
    c.readAll w accept (B.map .data) =
      { c with messages := c.messages ++ (readMessages w.messageSize c.buffer B.flatten).1,
               buffer := (readMessages w.messageSize c.buffer B.flatten).2 } := by
  induction B generalizing c with
  | nil => simp [readAll, readMessages]
  | cons b B ih =>
    show (read w accept c (.data b)).readAll w accept (B.map .data) = _
    rw [read_of_message w accept hc, readMessageCallback_data, ih (c := { c with
      messages := c.messages ++ (readMessages w.messageSize c.buffer b).1,
      buffer := (readMessages w.messageSize c.buffer b).2 }) hc, List.flatten_cons, readMessages_append]
    simp [List.append_assoc]

end Conn

/-- When some read ends at the response's last byte and the watchdog accepts the response,
the response is handed over once, the connection runs, and every message after it is
handed over once and in order, however the reads cut the stream. -/
theorem framing_of_boundary_read (w : Wire) (accept : List UInt8 → Bool)
    (resp : Frame w.handshakeResponseSize) (msgs : List (Frame w.messageSize))
    (chunks : List (List UInt8)) (hne : ∀ a ∈ chunks, a ≠ [])
    (hflat : chunks.flatten = stream resp msgs) (hk : ∃ k, (chunks.take k).flatten = resp.bytes)
    (hacc : accept resp.bytes = true) :
    let c := Conn.awaitingResponse.readAll w accept (chunks.map .data)
    c.responses = [resp.bytes] ∧ c.state = .running ∧ c.messages = msgs.map Frame.bytes ∧ c.buffer = [] := by
  obtain ⟨k, hk⟩ := hk
  have hB : (chunks.drop k).flatten = (msgs.map Frame.bytes).flatten := by
    rw [← List.take_append_drop k chunks, List.flatten_append, hk, stream] at hflat
    exact List.append_cancel_left hflat
  have hA : chunks.take k ≠ [] := fun h => by
    have := congrArg List.length hk
    rw [h, resp.length_eq] at this
    exact absurd this.symm (by simpa using w.handshakeResponseSize_pos.ne')
  have h1 := Conn.readAll_handshake w accept (c := Conn.awaitingResponse) rfl (chunks.take k)
    (fun a ha => hne a (List.mem_of_mem_take ha)) hA (by simp [Conn.awaitingResponse_eq, hk, resp.length_eq])
  simp only [Conn.awaitingResponse_eq, List.nil_append, hk, Conn.recvHandshakeResponse, hacc,
    ↓reduceIte] at h1
  rw [← List.take_append_drop k chunks, List.map_append, Conn.readAll_append, Conn.awaitingResponse_eq, h1,
    Conn.readAll_messages w accept rfl, hB, readMessages_frames w.messageSize_pos]
  simp

/-- A two-byte response and one-byte messages. -/
def tinyWire : Wire := ⟨2, 1, by decide, by decide⟩

theorem framing_of_boundary_read_split_reads :
    let resp : Frame tinyWire.handshakeResponseSize := ⟨[1, 2], rfl⟩
    let msgs : List (Frame tinyWire.messageSize) := [⟨[3], rfl⟩, ⟨[4], rfl⟩]
    let chunks : List (List UInt8) := [[1], [2], [3, 4]]
    ((∀ a ∈ chunks, a ≠ []) ∧ chunks.flatten = stream resp msgs ∧
      (∃ k, (chunks.take k).flatten = resp.bytes) ∧ (fun _ => true) resp.bytes = true) ∧
    let c := Conn.awaitingResponse.readAll tinyWire (fun _ => true) (chunks.map .data)
    c.responses = [resp.bytes] ∧ c.state = .running ∧ c.messages = msgs.map Frame.bytes ∧ c.buffer = [] :=
  have hne : ∀ a ∈ [[1], [2], [3, 4]], a ≠ ([] : List UInt8) := by decide
  have hk : ∃ k, ([[1], [2], [3, 4]].take k).flatten = [(1 : UInt8), 2] := ⟨2, by decide⟩
  ⟨⟨hne, rfl, hk, rfl⟩, framing_of_boundary_read tinyWire (fun _ => true) ⟨[1, 2], rfl⟩
    [⟨[3], rfl⟩, ⟨[4], rfl⟩] _ hne rfl hk rfl⟩

/-- A read that carries the response and the first message with it leaves the buffer
longer than `sizeof(HandshakeResponse)`, against the callback's `DCHECK_LE`; the length
test never fires on it or any later read, so neither the response nor any message is
ever handed over and the connection never runs. -/
theorem straddling_read_loses_handshake (w : Wire) (accept : List UInt8 → Bool)
    (resp : Frame w.handshakeResponseSize) (m : Frame w.messageSize) (ms : List (Frame w.messageSize))
    (later : List (List UInt8)) :
    let c := Conn.awaitingResponse.readAll w accept ((stream resp (m :: ms) :: later).map .data)
    c.responses = [] ∧ c.messages = [] ∧ c.state = .handshake ∧
      w.handshakeResponseSize < c.buffer.length := by
  have hlong : w.handshakeResponseSize < (stream resp (m :: ms)).length := by
    have := w.messageSize_pos
    simp [stream, resp.length_eq, m.length_eq]
    omega
  have h := Conn.readAll_short w accept (c := Conn.awaitingResponse) rfl (stream resp (m :: ms) :: later)
    fun j hj => by
      obtain ⟨j, rfl⟩ := Nat.exists_eq_add_of_lt hj
      simp only [Conn.awaitingResponse_eq, List.nil_append, Nat.zero_add, List.take_succ_cons,
        List.flatten_cons, List.length_append]
      omega
  rw [h, Conn.awaitingResponse_eq]
  simp only [List.nil_append, List.flatten_cons, List.length_append, true_and]
  omega

end Nightcore.Watchdog
