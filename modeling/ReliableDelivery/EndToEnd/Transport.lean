import ReliableDelivery.Client.Receiver
import ReliableDelivery.Support.Driver
import ReliableDelivery.Support.SharedStream
import ReliableDelivery.EndToEnd.World

/-!
# The connections byte by byte

`Client::sendEnvelope` encodes an envelope and gives the frame to `Client::sendAll`,
which writes it under `send_mutex`, as much at a time as the socket takes.  The
server gets the bytes in chunks cut anywhere, in callbacks that interleave with those
of other connections; in the other direction muduo writes whole frames, and
`Client::receiverLoop` reads.  From the calls of any number of threads to the envelopes
that come out, this is a queue of envelopes for each direction of a connection.
-/

namespace ReliableDelivery

open Decimal MessageCodec TransitionSystem

/-- For the server a connection is not there yet, or established, or closed. -/
inductive Link where
  | fresh
  | established
  | closed
  deriving DecidableEq, Repr

structure Transport where
  toServer : Conn → SharedStream ClientThread Envelope UInt8 := fun _ => {}
  link : Conn → Link := fun _ => .fresh
  serverRead : Conn → ℕ := fun _ => 0
  server : ChatServer := {}
  toClient : Conn → Bytes := fun _ => []
  clientRead : Conn → ℕ := fun _ => 0

/-- A thread of the client is in `sendEnvelope`, muduo calls the server back, the
server gives a frame to muduo, or the client returns from `recv`. -/
inductive TransportLabel where
  | sendEnvelope (conn : Conn) (l : SharedStream.Label ClientThread Envelope)
  | callback (event : NetEvent)
  | push (conn : Conn) (envelope : Envelope)
  | recv (conn : Conn) (result : RecvResult)

/-- In `sendEnvelope`, `refuse` is the return for an empty frame.  `lock` takes
`send_mutex`, `write` is a call of `send` that returns a positive number, and `fail` is
one that returns zero or less, with which `sendAll` returns.  `finish` is the return
after the loop. -/
inductive TransportStep (pb : Protobuf) (s : Transport) :
    TransportLabel → Transport → Prop where
  | sendEnvelope (conn : Conn) (l : SharedStream.Label ClientThread Envelope)
      (wire : SharedStream ClientThread Envelope UInt8)
      (hstep : (s.toServer conn).step (encode pb.serialize) l = some wire) :
      TransportStep pb s (.sendEnvelope conn l)
        { s with toServer := Function.update s.toServer conn wire }
  | connected (conn : Conn) (hlink : s.link conn = .fresh) :
      TransportStep pb s (.callback (.connected conn))
        { s with link := Function.update s.link conn .established,
                 server := (s.server.handleEvent pb (.connected conn)).1 }
  | message (conn : Conn) (input rest : Bytes)
      (hlink : s.link conn = .established)
      (hstream : (s.toServer conn).stream.drop (s.serverRead conn) =
        input ++ rest) :
      TransportStep pb s (.callback (.message conn input))
        { s with serverRead := Function.update s.serverRead conn
                   (s.serverRead conn + input.length),
                 server := (s.server.handleEvent pb (.message conn input)).1 }
  | disconnected (conn : Conn) (hlink : s.link conn = .established) :
      TransportStep pb s (.callback (.disconnected conn))
        { s with link := Function.update s.link conn .closed,
                 server := (s.server.handleEvent pb (.disconnected conn)).1 }
  | push (conn : Conn) (envelope : Envelope)
      (hlink : s.link conn = .established)
      (hframe : encode pb.serialize envelope ≠ []) :
      TransportStep pb s (.push conn envelope)
        { s with toClient := Function.update s.toClient conn
                   (s.toClient conn ++ encode pb.serialize envelope) }
  | recv (conn : Conn) (buf rest : Bytes)
      (hstream : (s.toClient conn).drop (s.clientRead conn) = buf ++ rest) :
      TransportStep pb s (.recv conn (.data buf))
        { s with clientRead := Function.update s.clientRead conn
                   (s.clientRead conn + buf.length) }
  | stopped (conn : Conn) (result : RecvResult)
      (hresult : result = .failed ∨ result = .closed) :
      TransportStep pb s (.recv conn result) s

def transport (pb : Protobuf) : TransitionSystem Transport TransportLabel where
  init s := s = {}
  step := TransportStep pb

/-- The step under a label, if it is possible. -/
def Transport.advance (pb : Protobuf) (s : Transport) :
    TransportLabel → Option (TransportLabel × Transport)
  | .sendEnvelope conn l =>
      ((s.toServer conn).step (encode pb.serialize) l).map fun wire =>
        (.sendEnvelope conn l,
          { s with toServer := Function.update s.toServer conn wire })
  | .callback (.connected conn) =>
      if s.link conn = .fresh then
        some (.callback (.connected conn),
          { s with link := Function.update s.link conn .established,
                   server := (s.server.handleEvent pb (.connected conn)).1 })
      else none
  | .callback (.message conn input) =>
      if s.link conn = .established ∧
          input <+: (s.toServer conn).stream.drop (s.serverRead conn) then
        some (.callback (.message conn input),
          { s with serverRead := Function.update s.serverRead conn
                     (s.serverRead conn + input.length),
                   server := (s.server.handleEvent pb (.message conn input)).1 })
      else none
  | .callback (.disconnected conn) =>
      if s.link conn = .established then
        some (.callback (.disconnected conn),
          { s with link := Function.update s.link conn .closed,
                   server := (s.server.handleEvent pb (.disconnected conn)).1 })
      else none
  | .push conn envelope =>
      if s.link conn = .established ∧ encode pb.serialize envelope ≠ [] then
        some (.push conn envelope,
          { s with toClient := Function.update s.toClient conn
                     (s.toClient conn ++ encode pb.serialize envelope) })
      else none
  | .recv conn (.data buf) =>
      if buf <+: (s.toClient conn).drop (s.clientRead conn) then
        some (.recv conn (.data buf),
          { s with clientRead := Function.update s.clientRead conn
                     (s.clientRead conn + buf.length) })
      else none
  | .recv conn .failed => some (.recv conn .failed, s)
  | .recv conn .closed => some (.recv conn .closed, s)

def transportDriver (pb : Protobuf) : Driver (transport pb) TransportLabel where
  advance := Transport.advance pb
  sound s choice l s' h := by
    cases choice with
    | sendEnvelope conn l =>
        simp only [Transport.advance, Option.map_eq_some_iff] at h
        obtain ⟨wire, hstep, rfl, rfl⟩ := h
        exact .sendEnvelope conn l wire hstep
    | callback event =>
        cases event with
        | connected conn =>
            simp only [Transport.advance, Option.ite_none_right_eq_some] at h
            obtain ⟨hlink, rfl, rfl⟩ := h
            exact .connected conn hlink
        | message conn input =>
            simp only [Transport.advance, Option.ite_none_right_eq_some] at h
            obtain ⟨⟨hlink, rest, hrest⟩, rfl, rfl⟩ := h
            exact .message conn input rest hlink hrest.symm
        | disconnected conn =>
            simp only [Transport.advance, Option.ite_none_right_eq_some] at h
            obtain ⟨hlink, rfl, rfl⟩ := h
            exact .disconnected conn hlink
    | push conn envelope =>
        simp only [Transport.advance, Option.ite_none_right_eq_some] at h
        obtain ⟨⟨hlink, hframe⟩, rfl, rfl⟩ := h
        exact .push conn envelope hlink hframe
    | recv conn result =>
        cases result with
        | data buf =>
            simp only [Transport.advance, Option.ite_none_right_eq_some] at h
            obtain ⟨⟨rest, hrest⟩, rfl, rfl⟩ := h
            exact .recv conn buf rest hrest.symm
        | failed =>
            cases h
            exact .stopped conn .failed (.inl rfl)
        | closed =>
            cases h
            exact .stopped conn .closed (.inr rfl)

abbrev TransportRun (pb : Protobuf) := (transport pb).Execution

variable {pb : Protobuf}

/-- The calls of `sendEnvelope` on one connection. -/
def wire (pb : Protobuf) (conn : Conn) :
    Projection (transport pb)
      (SharedStream.system ClientThread (encode pb.serialize)) where
  onState s := s.toServer conn
  onLabel
    | .sendEnvelope c l => if c = conn then some l else none
    | _ => none
  init s hinit := by
    have hs : s = {} := hinit
    rw [hs]
    rfl
  step s l s' k hstep hl := by
    cases hstep with
    | sendEnvelope c l wire hstep =>
        simp only [Option.ite_none_right_eq_some, Option.some.injEq] at hl
        obtain ⟨rfl, rfl⟩ := hl
        change _ = some (Function.update s.toServer c wire c)
        rw [Function.update_self]
        exact hstep
    | _ => cases hl
  stutter s l s' hstep hl := by
    cases hstep with
    | sendEnvelope c l wire hstep =>
        have hne : conn ≠ c := by
          rintro rfl
          simp at hl
        exact Function.update_of_ne hne _ _
    | _ => rfl

/-- What the label tells of the callbacks. -/
def TransportLabel.event : TransportLabel → Option NetEvent
  | .callback event => some event
  | _ => none

def TransportLabel.pushed (conn : Conn) : TransportLabel → Option Envelope
  | .push c envelope => if c = conn then some envelope else none
  | _ => none

def TransportLabel.result (conn : Conn) : TransportLabel → Option RecvResult
  | .recv c result => if c = conn then some result else none
  | _ => none

namespace TransportRun

def calls (e : TransportRun pb) (conn : Conn) :
    (SharedStream.system ClientThread (encode pb.serialize)).Execution :=
  (wire pb conn).onRun e

/-- The envelopes whose frames the client has written to the last byte. -/
def sent (e : TransportRun pb) (conn : Conn) : List Envelope :=
  (calls e conn).log (SharedStream.Label.completed (encode pb.serialize))

/-- The envelopes for which `sendEnvelope` has returned `true`. -/
def returned (e : TransportRun pb) (conn : Conn) : List Envelope :=
  (calls e conn).log SharedStream.Label.finished

/-- The envelopes `ChatServer::onMessage` has given to the dispatcher. -/
def dispatched (e : TransportRun pb) (conn : Conn) : List Envelope :=
  dispatchedFor conn (ChatServer.serve pb {} (e.log TransportLabel.event)).2

def pushed (e : TransportRun pb) (conn : Conn) : List Envelope :=
  e.log (TransportLabel.pushed conn)

/-- The envelopes `Client::receiverLoop` has given to `handleEnvelope`. -/
def handled (e : TransportRun pb) (conn : Conn) : List Envelope :=
  receiverLoop pb [] (e.log (TransportLabel.result conn))

/-! ## What the server has read -/

theorem server_eq (e : TransportRun pb) :
    e.state.server = (ChatServer.serve pb {} (e.log TransportLabel.event)).1 := by
  apply Execution.induct (P := fun e : TransportRun pb =>
    (Execution.state e).server =
      (ChatServer.serve pb {} (Execution.log TransportLabel.event e)).1)
  · intro e hnil hinit
    rw [show e.state = {} from hinit, Execution.log_init hnil]
    rfl
  · intro e e' l ih hnext
    obtain ⟨hstep, -⟩ := id hnext
    rw [Execution.log_next hnext, serve_append, ← ih]
    generalize e'.state = s' at hstep
    cases hstep with
    | _ => rfl

theorem dispatched_next {e e' : TransportRun pb} {l : TransportLabel}
    (hnext : Execution.Next e l e') (conn : Conn) :
    dispatched e' conn = dispatched e conn ++
      dispatchedFor conn
        (ChatServer.serve pb e.state.server l.event.toList).2 := by
  rw [dispatched, Execution.log_next hnext, serve_append, dispatchedFor_append,
    ← server_eq, dispatched]

/-- The chunks the server has read from a connection. -/
structure Fed (e : TransportRun pb) (conn : Conn) (chunks : List Bytes) : Prop where
  stream : chunks.flatten <+: (e.state.toServer conn).stream
  length : chunks.flatten.length = e.state.serverRead conn
  dispatched : dispatched e conn =
    ((frames pb kDefaultMaxFrameLength).feedAll [] chunks).1
  fresh : e.state.link conn = .fresh → chunks = []
  established : e.state.link conn = .established →
    e.state.server.sessionsTable conn =
      some ((frames pb kDefaultMaxFrameLength).feedAll [] chunks).2

/-- What a step leaves alone that is no callback for the connection. -/
theorem step_other {s s' : Transport} {l : TransportLabel} {conn : Conn}
    (h : TransportStep pb s l s')
    (hother : ∀ event, l = .callback event → event.conn ≠ conn) :
    s'.serverRead conn = s.serverRead conn ∧ s'.link conn = s.link conn ∧
      s'.server.sessionsTable conn = s.server.sessionsTable conn ∧
      (s.toServer conn).stream <+: (s'.toServer conn).stream := by
  cases h with
  | sendEnvelope c l wire hstep =>
      refine ⟨rfl, rfl, rfl, ?_⟩
      by_cases hc : conn = c
      · subst hc
        simp only [Function.update_self]
        exact SharedStream.stream_prefix hstep
      · simp only [Function.update_of_ne hc]
        exact List.prefix_rfl
  | connected c hlink =>
      have hne := hother _ rfl
      exact ⟨rfl, Function.update_of_ne hne.symm _ _,
        (handleEvent_other pb s.server hne).1, List.prefix_rfl⟩
  | message c input rest hlink hstream =>
      have hne := hother _ rfl
      exact ⟨Function.update_of_ne hne.symm _ _, rfl,
        (handleEvent_other pb s.server hne).1, List.prefix_rfl⟩
  | disconnected c hlink =>
      have hne := hother _ rfl
      exact ⟨rfl, Function.update_of_ne hne.symm _ _,
        (handleEvent_other pb s.server hne).1, List.prefix_rfl⟩
  | _ => exact ⟨rfl, rfl, rfl, List.prefix_rfl⟩

theorem Fed.other {e e' : TransportRun pb} {l : TransportLabel} {conn : Conn}
    {chunks : List Bytes} (h : Fed e conn chunks) (hnext : Execution.Next e l e')
    (hother : ∀ event, l = .callback event → event.conn ≠ conn) :
    Fed e' conn chunks := by
  have hdispatched : TransportRun.dispatched e' conn =
      TransportRun.dispatched e conn := by
    rw [dispatched_next hnext, List.append_right_eq_self]
    cases l with
    | callback event =>
        simp only [TransportLabel.event, Option.toList_some, ChatServer.serve,
          List.append_nil]
        exact (handleEvent_other pb e.state.server (hother event rfl)).2
    | _ => rfl
  obtain ⟨hread, hlink, htable, hstream⟩ := step_other hnext.1 hother
  exact {
    stream := h.stream.trans hstream
    length := h.length.trans hread.symm
    dispatched := hdispatched.trans h.dispatched
    fresh := fun hfresh => h.fresh (hlink ▸ hfresh)
    established := fun hup => htable.trans (h.established (hlink ▸ hup)) }

/-- Whatever the connections do, the session reads the stream of its own. -/
theorem exists_fed (e : TransportRun pb) (conn : Conn) :
    ∃ chunks, Fed e conn chunks := by
  apply Execution.induct (P := fun e : TransportRun pb => ∃ chunks, Fed e conn chunks)
  · intro e hnil hinit
    have hs : e.state = {} := hinit
    refine ⟨[], ?_, ?_, ?_, fun _ => rfl, ?_⟩
    · exact List.nil_prefix
    · rw [hs]
      rfl
    · rw [dispatched, Execution.log_init hnil]
      rfl
    · intro hup
      rw [hs] at hup
      cases hup
  · rintro e e' l ⟨chunks, ih⟩ hnext
    by_cases hother : ∀ event, l = .callback event → event.conn ≠ conn
    · exact ⟨chunks, ih.other hnext hother⟩
    · obtain ⟨event, rfl, hconn⟩ : ∃ event, l = .callback event ∧
          event.conn = conn := by simpa using hother
      have hmore := dispatched_next hnext conn
      simp only [TransportLabel.event, Option.toList_some, ChatServer.serve,
        List.append_nil] at hmore
      obtain ⟨hstep, -⟩ := id hnext
      generalize hs' : e'.state = s' at hstep
      cases hstep with
      | connected c hlink =>
          have hc : c = conn := hconn
          subst hc
          have hnil := ih.fresh hlink
          subst hnil
          refine ⟨[], ?_, ?_, ?_, fun _ => rfl, fun _ => ?_⟩
          · exact List.nil_prefix
          · rw [hs']
            exact ih.length
          · rw [hmore]
            exact (List.append_nil _).trans ih.dispatched
          · rw [hs']
            exact Function.update_self _ _ _
      | message c input rest hlink hstream =>
          have hc : c = conn := hconn
          subst hc
          have hsession := ih.established hlink
          obtain ⟨hfound, htable⟩ := onMessage_eq pb input hsession
          obtain ⟨later, hlater⟩ := ih.stream
          have hrest : later = input ++ rest := by
            rw [← hstream, ← hlater, ← ih.length, List.drop_left]
          refine ⟨chunks ++ [input], ?_, ?_, ?_, ?_, fun _ => ?_⟩
          · rw [hs', ← hlater, hrest]
            simp
          · rw [hs']
            simp [ih.length]
          · rw [hmore, Framing.feedAll_concat, ih.dispatched]
            congr 1
            exact (dispatchedFor_map _).trans hfound
          · intro hfresh
            rw [hs'] at hfresh
            rw [hlink] at hfresh
            cases hfresh
          · rw [hs', Framing.feedAll_concat]
            simp only [ChatServer.handleEvent, htable, Function.update_self]
      | disconnected c hlink =>
          have hc : c = conn := hconn
          subst hc
          refine ⟨chunks, ?_, ?_, ?_, ?_, ?_⟩
          · rw [hs']
            exact ih.stream
          · rw [hs']
            exact ih.length
          · rw [hmore]
            exact (List.append_nil _).trans ih.dispatched
          · intro hfresh
            rw [hs'] at hfresh
            simp at hfresh
          · intro hup
            rw [hs'] at hup
            simp at hup

/-! ## From the calls of the client to the dispatcher -/

/-- The frames the server finds are those of the first envelopes, in the order in
which their threads have had `send_mutex`. -/
theorem dispatched_begins (e : TransportRun pb) (conn : Conn)
    (hinverse : ∀ envelope body, pb.serialize envelope = some body →
      pb.parse body = some envelope)
    (hsize : ∀ envelope body, pb.serialize envelope = some body →
      body.length < 2 ^ 32)
    (hdies : SharedStream.Dies (calls e conn)) :
    dispatched e conn <+: sent e conn ∧
      ∀ envelope ∈ dispatched e conn, Encodable pb envelope := by
  obtain ⟨chunks, hfed⟩ := exists_fed e conn
  obtain ⟨rest, hpiece, hstream⟩ := SharedStream.stream_eq_of_dies (calls e conn) hdies
  have hrest : ((frames pb kDefaultMaxFrameLength).split rest).1 = [] := by
    rcases hpiece with rfl | ⟨envelope, -, k, hk, rfl⟩
    · rw [Framing.split_incomplete rfl]
    · exact split_take_encode (hinverse envelope) (hsize envelope) hk
  have hframes : ∀ envelope ∈ sent e conn, encode pb.serialize envelope ≠ [] :=
    fun _ he => (SharedStream.written_of_mem_completed he).2
  obtain ⟨hbegins, hall⟩ := split_encode_prefix hinverse hsize hframes hrest
  rw [sent, ← hstream] at hbegins hall
  have hfound : dispatched e conn <+: ((frames pb kDefaultMaxFrameLength).split
      (calls e conn).state.stream).1 := by
    rw [hfed.dispatched]
    exact (Framing.feedAll_prefix chunks).trans (Framing.split_prefix hfed.stream)
  exact ⟨hfound.trans hbegins, fun envelope he => hall envelope (hfound.mem he)⟩

/-- When the server has read everything, and the frames are of permitted length,
it has found all of them. -/
theorem dispatched_eq (e : TransportRun pb) (conn : Conn)
    (hinverse : ∀ envelope body, pb.serialize envelope = some body →
      pb.parse body = some envelope)
    (hdies : SharedStream.Dies (calls e conn))
    (hencodable : ∀ envelope ∈ (calls e conn).log SharedStream.Label.written,
      Encodable pb envelope)
    (hread : e.state.serverRead conn = (e.state.toServer conn).stream.length) :
    dispatched e conn = sent e conn := by
  obtain ⟨chunks, hfed⟩ := exists_fed e conn
  obtain ⟨rest, hpiece, hstream⟩ := SharedStream.stream_eq_of_dies (calls e conn) hdies
  have hall : chunks.flatten = (calls e conn).state.stream :=
    hfed.stream.eq_of_length (hfed.length.trans hread)
  have hsent : (frames pb kDefaultMaxFrameLength).split
      ((sent e conn).map (encode pb.serialize)).flatten = (sent e conn, none, []) :=
    split_encode (fun envelope _ => hinverse envelope) fun envelope he =>
      hencodable envelope (SharedStream.written_of_mem_completed he).1
  have hrest : (frames pb kDefaultMaxFrameLength).front rest = .incomplete := by
    rcases hpiece with rfl | ⟨envelope, he, k, hk, rfl⟩
    · rfl
    · exact front_take_encode (hinverse envelope) (hencodable envelope he) hk
  have hsplit : (frames pb kDefaultMaxFrameLength).split
      (calls e conn).state.stream = (sent e conn, none, rest) := by
    have happend := Framing.split_append rest _ (congrArg (fun x => x.2.1) hsent)
    rw [hsent, List.nil_append, Framing.split_incomplete hrest,
      List.append_nil] at happend
    rw [hstream]
    exact happend
  rw [hfed.dispatched, Framing.feedAll_ok _ rfl, List.nil_append, hall, hsplit]
  rw [List.nil_append, hall, hsplit]

/-! ## From the server to the handlers of the client -/

/-- The frames muduo has taken, in a row, and how far the client has read. -/
structure Received (e : TransportRun pb) (conn : Conn) : Prop where
  stream : e.state.toClient conn =
    ((pushed e conn).map (encode pb.serialize)).flatten
  frames : ∀ envelope ∈ pushed e conn, encode pb.serialize envelope ≠ []
  bytes : ((e.log (TransportLabel.result conn)).filterMap RecvResult.bytes).flatten
    <+: e.state.toClient conn
  length : ((e.log (TransportLabel.result conn)).filterMap
    RecvResult.bytes).flatten.length = e.state.clientRead conn

/-- A step that has nothing to do with this direction of the connection. -/
theorem Received.other {e e' : TransportRun pb} {l : TransportLabel} {conn : Conn}
    (h : Received e conn) (hnext : Execution.Next e l e')
    (hpushed : l.pushed conn = none) (hresult : l.result conn = none)
    (hstream : e'.state.toClient conn = e.state.toClient conn)
    (hread : e'.state.clientRead conn = e.state.clientRead conn) :
    Received e' conn := by
  have hlog : pushed e' conn = pushed e conn := by
    rw [pushed, Execution.log_next hnext, hpushed]
    exact List.append_nil _
  have hresults : e'.log (TransportLabel.result conn) =
      e.log (TransportLabel.result conn) := by
    rw [Execution.log_next hnext, hresult]
    exact List.append_nil _
  constructor
  · rw [hlog, hstream]
    exact h.stream
  · rw [hlog]
    exact h.frames
  · rw [hresults, hstream]
    exact h.bytes
  · rw [hresults, hread]
    exact h.length

theorem received (e : TransportRun pb) (conn : Conn) : Received e conn := by
  apply Execution.induct (P := fun e : TransportRun pb => Received e conn)
  · intro e hnil hinit
    have hs : e.state = {} := hinit
    constructor
    · rw [pushed, Execution.log_init hnil, hs]
      rfl
    · rw [pushed, Execution.log_init hnil]
      exact List.forall_mem_nil _
    · rw [Execution.log_init hnil]
      exact List.nil_prefix
    · rw [Execution.log_init hnil, hs]
      rfl
  · intro e e' l ih hnext
    obtain ⟨hstep, -⟩ := id hnext
    generalize hs' : e'.state = s' at hstep
    cases hstep with
    | push c envelope hlink hframe =>
        by_cases hc : c = conn
        · subst hc
          have hlog : pushed e' c = pushed e c ++ [envelope] := by
            rw [pushed, Execution.log_next hnext]
            simp [TransportLabel.pushed, pushed]
          have hresults : e'.log (TransportLabel.result c) =
              e.log (TransportLabel.result c) := by
            rw [Execution.log_next hnext]
            exact List.append_nil _
          have hwritten : e'.state.toClient c =
              e.state.toClient c ++ encode pb.serialize envelope := by
            rw [hs']
            exact Function.update_self _ _ _
          constructor
          · rw [hlog, hwritten, ih.stream]
            simp
          · rw [hlog]
            exact List.forall_mem_append.mpr ⟨ih.frames, by simpa using hframe⟩
          · rw [hresults, hwritten]
            exact ih.bytes.trans (List.prefix_append _ _)
          · rw [hresults, hs']
            exact ih.length
        · refine ih.other hnext (if_neg hc) rfl ?_ (by rw [hs'])
          rw [hs']
          exact Function.update_of_ne (Ne.symm hc) _ _
    | recv c buf rest hstream =>
        by_cases hc : c = conn
        · subst hc
          have hlog : pushed e' c = pushed e c := by
            rw [pushed, Execution.log_next hnext]
            exact List.append_nil _
          have hbytes : (e'.log (TransportLabel.result c)).filterMap
              RecvResult.bytes =
                (e.log (TransportLabel.result c)).filterMap RecvResult.bytes ++
                  [buf] := by
            rw [Execution.log_next hnext]
            simp [TransportLabel.result, RecvResult.bytes]
          obtain ⟨later, hlater⟩ := ih.bytes
          have hrest : later = buf ++ rest := by
            rw [← hstream, ← hlater, ← ih.length, List.drop_left]
          constructor
          · rw [hlog, hs']
            exact ih.stream
          · rw [hlog]
            exact ih.frames
          · rw [hbytes, hs', ← hlater, hrest]
            simp
          · rw [hbytes, hs']
            simp [ih.length]
        · refine ih.other hnext rfl (if_neg hc) (by rw [hs']) ?_
          rw [hs']
          exact Function.update_of_ne (Ne.symm hc) _ _
    | stopped c result hresult =>
        have hbytes : (e'.log (TransportLabel.result conn)).filterMap
            RecvResult.bytes =
              (e.log (TransportLabel.result conn)).filterMap RecvResult.bytes := by
          rw [Execution.log_next hnext]
          rcases hresult with rfl | rfl
          · simp only [TransportLabel.result]
            split <;> simp [RecvResult.bytes]
          · simp only [TransportLabel.result]
            split <;> simp [RecvResult.bytes]
        have hlog : pushed e' conn = pushed e conn := by
          rw [pushed, Execution.log_next hnext]
          exact List.append_nil _
        exact {
          stream := by rw [hlog, hs']; exact ih.stream
          frames := by rw [hlog]; exact ih.frames
          bytes := by rw [hbytes, hs']; exact ih.bytes
          length := by rw [hbytes, hs']; exact ih.length }
    | _ => exact ih.other hnext rfl rfl (by rw [hs']) (by rw [hs'])

/-- The client handles the envelopes in the order in which the server has written
them. -/
theorem handled_begins (e : TransportRun pb) (conn : Conn)
    (hinverse : ∀ envelope body, pb.serialize envelope = some body →
      pb.parse body = some envelope)
    (hsize : ∀ envelope body, pb.serialize envelope = some body →
      body.length < 2 ^ 32) :
    handled e conn <+: pushed e conn ∧
      ∀ envelope ∈ handled e conn, Encodable pb envelope := by
  have h := received e conn
  have hrest : ((frames pb kDefaultMaxFrameLength).split []).1 = [] := by
    rw [Framing.split_incomplete rfl]
  obtain ⟨hbegins, hall⟩ := split_encode_prefix hinverse hsize h.frames hrest
  rw [List.append_nil, ← h.stream] at hbegins hall
  have hfound : handled e conn <+: ((frames pb kDefaultMaxFrameLength).split
      (e.state.toClient conn)).1 :=
    (receiverLoop_prefix_split _).trans (Framing.split_prefix h.bytes)
  exact ⟨hfound.trans hbegins, fun envelope he => hall envelope (hfound.mem he)⟩

end TransportRun

/-! ## Queues of envelopes -/

inductive ChannelLabel where
  | post (conn : Conn) (envelope : Envelope)
  | take (conn : Conn) (envelope : Envelope)

/-- Envelopes are put in at one end and taken out at the other. -/
inductive ChannelStep (channels : Channels) : ChannelLabel → Channels → Prop where
  | post (conn : Conn) (envelope : Envelope) :
      ChannelStep channels (.post conn envelope)
        (channels.post (some (conn, envelope)))
  | take (conn : Conn) (envelope : Envelope) (rest : List Envelope)
      (hchannel : channels conn = envelope :: rest) :
      ChannelStep channels (.take conn envelope)
        (Function.update channels conn rest)

def channels : TransitionSystem Channels ChannelLabel where
  init c := c = fun _ => []
  step := ChannelStep

def ChannelLabel.posted (conn : Conn) : ChannelLabel → Option Envelope
  | .post c envelope => if c = conn then some envelope else none
  | .take _ _ => none

def ChannelLabel.taken (conn : Conn) : ChannelLabel → Option Envelope
  | .post _ _ => none
  | .take c envelope => if c = conn then some envelope else none

abbrev ChannelRun := channels.Execution

namespace ChannelRun

/-- What has been put in and taken out of each channel. -/
structure Carries (c : ChannelRun) (posted taken : Conn → List Envelope) : Prop where
  posted : ∀ conn, c.log (ChannelLabel.posted conn) = posted conn
  taken : ∀ conn, c.log (ChannelLabel.taken conn) = taken conn

/-- What has been put in has been taken out or is there. -/
theorem state_eq (c : ChannelRun) (conn : Conn) :
    c.log (ChannelLabel.posted conn) =
      c.log (ChannelLabel.taken conn) ++ c.state conn := by
  apply Execution.induct (P := fun c : ChannelRun =>
    Execution.log (ChannelLabel.posted conn) c =
      Execution.log (ChannelLabel.taken conn) c ++ Execution.state c conn)
  · intro c hnil hinit
    rw [Execution.log_init hnil, Execution.log_init hnil,
      show c.state = fun _ => [] from hinit]
    rfl
  · intro c c' l ih hnext
    obtain ⟨hstep, -⟩ := id hnext
    rw [Execution.log_next hnext, Execution.log_next hnext, ih]
    generalize c'.state = s' at hstep
    cases hstep with
    | post k envelope =>
        by_cases hk : k = conn
        · subst hk
          simp [ChannelLabel.posted, ChannelLabel.taken, Channels.post]
        · simp [ChannelLabel.posted, ChannelLabel.taken, Channels.post, hk,
            Function.update_of_ne (Ne.symm hk)]
    | take k envelope rest hchannel =>
        by_cases hk : k = conn
        · subst hk
          simp [ChannelLabel.posted, ChannelLabel.taken, hchannel]
        · simp [ChannelLabel.posted, ChannelLabel.taken, hk,
            Function.update_of_ne (Ne.symm hk)]

variable {c : ChannelRun} {posted taken posted' taken' : Conn → List Envelope}

/-- More is put into one channel. -/
theorem Carries.posts (h : Carries c posted taken) (conn : Conn)
    (more : List Envelope) :
    ∃ c', Execution.Later c c' ∧
      Carries c' (Function.update posted conn (posted conn ++ more)) taken := by
  induction more using List.reverseRecOn with
  | nil =>
      refine ⟨c, .refl c, ?_⟩
      rw [List.append_nil, Function.update_eq_self]
      exact h
  | append_singleton more envelope ih =>
      obtain ⟨c₁, hlater, hcarries⟩ := ih
      have hnext := Execution.next_extend c₁
        (show channels.step _ _ _ from ChannelStep.post conn envelope)
      refine ⟨_, hlater.trans hnext.later, fun k => ?_, fun k => ?_⟩
      · rw [Execution.log_next hnext, hcarries.posted]
        by_cases hk : conn = k
        · subst hk
          simp [ChannelLabel.posted]
        · simp [ChannelLabel.posted, hk, Function.update_of_ne (Ne.symm hk)]
      · rw [Execution.log_next hnext, hcarries.taken]
        exact List.append_nil _

/-- More of what is in a channel is taken out. -/
theorem Carries.takes (h : Carries c posted taken) (conn : Conn)
    (more : List Envelope) (hmore : taken conn ++ more <+: posted conn) :
    ∃ c', Execution.Later c c' ∧
      Carries c' posted (Function.update taken conn (taken conn ++ more)) := by
  induction more using List.reverseRecOn with
  | nil =>
      refine ⟨c, .refl c, ?_⟩
      rw [List.append_nil, Function.update_eq_self]
      exact h
  | append_singleton more envelope ih =>
      rw [← List.append_assoc] at hmore
      obtain ⟨c₁, hlater, hcarries⟩ := ih ((List.prefix_append _ _).trans hmore)
      obtain ⟨rest, hrest⟩ := hmore
      have hchannel : c₁.state conn = envelope :: rest := by
        have hstate := state_eq c₁ conn
        rw [hcarries.posted, hcarries.taken, Function.update_self, ← hrest,
          List.append_assoc, List.append_cancel_left_eq] at hstate
        exact hstate.symm
      have hnext := Execution.next_extend c₁
        (show channels.step _ _ _ from ChannelStep.take conn envelope rest hchannel)
      refine ⟨_, hlater.trans hnext.later, fun k => ?_, fun k => ?_⟩
      · rw [Execution.log_next hnext, hcarries.posted]
        exact List.append_nil _
      · rw [Execution.log_next hnext, hcarries.taken]
        by_cases hk : conn = k
        · subst hk
          simp [ChannelLabel.taken]
        · simp [ChannelLabel.taken, hk, Function.update_of_ne (Ne.symm hk)]

/-- A channel follows what only adds to its logs. -/
theorem Carries.follows (h : Carries c posted taken) {conn : Conn}
    (hother : ∀ k, k ≠ conn → posted' k = posted k ∧ taken' k = taken k)
    (hposted : posted conn <+: posted' conn) (htaken : taken conn <+: taken' conn)
    (hfits : taken' conn <+: posted' conn) :
    ∃ c', Execution.Later c c' ∧ Carries c' posted' taken' := by
  obtain ⟨new, hnew⟩ := hposted
  obtain ⟨out, hout⟩ := htaken
  obtain ⟨c₁, hlater₁, h₁⟩ := h.posts conn new
  have hposted' : Function.update posted conn (posted conn ++ new) = posted' := by
    rw [hnew]
    exact Function.update_eq_iff.mpr ⟨rfl, fun k hk => ((hother k hk).1).symm⟩
  have htaken' : Function.update taken conn (taken conn ++ out) = taken' := by
    rw [hout]
    exact Function.update_eq_iff.mpr ⟨rfl, fun k hk => ((hother k hk).2).symm⟩
  rw [hposted'] at h₁
  obtain ⟨c₂, hlater₂, h₂⟩ := h₁.takes conn out (hout ▸ hfits)
  exact ⟨c₂, hlater₁.trans hlater₂, htaken' ▸ h₂⟩

end ChannelRun

/-! ## The transport is made of such queues -/

def TransportLabel.conn : TransportLabel → Conn
  | .sendEnvelope conn _ => conn
  | .callback event => event.conn
  | .push conn _ => conn
  | .recv conn _ => conn

namespace TransportRun

section Next

variable {e e' : TransportRun pb} {l : TransportLabel} {conn : Conn}

theorem onLabel_of_ne (hne : conn ≠ l.conn) : (wire pb conn).onLabel l = none := by
  cases l with
  | sendEnvelope c l => exact if_neg (Ne.symm hne)
  | _ => rfl

theorem calls_of_ne (hnext : Execution.Next e l e') (hne : conn ≠ l.conn) :
    calls e' conn = calls e conn :=
  (wire pb conn).onRun_stutter hnext (onLabel_of_ne hne)

theorem dispatched_of_ne (hnext : Execution.Next e l e') (hne : conn ≠ l.conn) :
    dispatched e' conn = dispatched e conn := by
  rw [dispatched_next hnext, List.append_right_eq_self]
  cases l with
  | callback event =>
      simp only [TransportLabel.event, Option.toList_some, ChatServer.serve,
        List.append_nil]
      exact (handleEvent_other pb e.state.server (Ne.symm hne)).2
  | _ => rfl

theorem pushed_of_ne (hnext : Execution.Next e l e') (hne : conn ≠ l.conn) :
    pushed e' conn = pushed e conn := by
  have hnone : l.pushed conn = none := by
    cases l with
    | push c envelope => exact if_neg (Ne.symm hne)
    | _ => rfl
  rw [pushed, Execution.log_next hnext, hnone]
  exact List.append_nil _

theorem handled_of_ne (hnext : Execution.Next e l e') (hne : conn ≠ l.conn) :
    handled e' conn = handled e conn := by
  have hnone : l.result conn = none := by
    cases l with
    | recv c result => exact if_neg (Ne.symm hne)
    | _ => rfl
  rw [handled, Execution.log_next hnext, hnone, Option.toList_none, List.append_nil]
  rfl

end Next

/-- Each step of the transport is followed by steps of the queues. -/
theorem exists_carries {e e' : TransportRun pb} {l : TransportLabel}
    (hinverse : ∀ envelope body, pb.serialize envelope = some body →
      pb.parse body = some envelope)
    (hsize : ∀ envelope body, pb.serialize envelope = some body →
      body.length < 2 ^ 32)
    (hnext : Execution.Next e l e') (hdies : ∀ conn, SharedStream.Dies (calls e' conn))
    {up down : ChannelRun} (hup : up.Carries (sent e) (dispatched e))
    (hdown : down.Carries (pushed e) (handled e)) :
    (∃ up', Execution.Later up up' ∧
        ChannelRun.Carries up' (sent e') (dispatched e')) ∧
      ∃ down', Execution.Later down down' ∧
        ChannelRun.Carries down' (pushed e') (handled e') := by
  constructor
  · refine hup.follows (fun k hk => ?_) ?_ ?_
      (dispatched_begins e' l.conn hinverse hsize (hdies l.conn)).1
    · exact ⟨congrArg _ (calls_of_ne hnext hk), dispatched_of_ne hnext hk⟩
    · exact ((wire pb l.conn).onRun_later hnext.later).log_extends _
    · rw [dispatched_next hnext]
      exact List.prefix_append _ _
  · refine hdown.follows (fun k hk => ?_) ?_ ?_
      (handled_begins e' l.conn hinverse hsize).1
    · exact ⟨pushed_of_ne hnext hk, handled_of_ne hnext hk⟩
    · exact hnext.later.log_extends _
    · rw [handled, handled, Execution.log_next hnext]
      exact receiverLoop_prefix _ _ _

/-- From the calls of `sendEnvelope` to the dispatcher.  Any number of threads write
to a socket, which takes each frame in pieces of any size, and may fail, after which
it takes nothing any more; the server reads the stream in chunks cut anywhere, among
the callbacks of all connections.  The calls that return `true` are those whose frames
are written whole, up to one that is about to return.  What is dispatched for the
connection is a first part of the envelopes of these frames, in the order in which
their threads had `send_mutex`.  When the frames have the permitted length and
everything has been read, it is all of them. -/
theorem envelopes_cross_in_lock_order (pb : Protobuf)
    (hinverse : ∀ envelope body, pb.serialize envelope = some body →
      pb.parse body = some envelope)
    (hsize : ∀ envelope body, pb.serialize envelope = some body →
      body.length < 2 ^ 32)
    (e : TransportRun pb) (conn : Conn) (hdies : SharedStream.Dies (calls e conn)) :
    (∃ last, last.length ≤ 1 ∧ sent e conn = returned e conn ++ last) ∧
      dispatched e conn <+: sent e conn ∧
      (∀ envelope ∈ dispatched e conn, Encodable pb envelope) ∧
      ((∀ envelope ∈ (calls e conn).log SharedStream.Label.written,
          Encodable pb envelope) →
        e.state.serverRead conn = (e.state.toServer conn).stream.length →
        dispatched e conn = sent e conn) := by
  obtain ⟨hbegins, hall⟩ := dispatched_begins e conn hinverse hsize hdies
  refine ⟨⟨_, ?_, SharedStream.completed_eq (calls e conn)⟩, hbegins, hall,
    dispatched_eq e conn hinverse hdies⟩
  exact Option.length_toList_le

/-- Two threads of a client write a heartbeat each, in pieces; a third frame breaks
off.  The server reads across the borders of the frames. -/
def heartbeatSchedule : List TransportLabel :=
  [.sendEnvelope 7 (.call (.caller 0) heartbeatOne),
    .sendEnvelope 7 (.call (.retry 7) heartbeatOne),
    .sendEnvelope 7 (.lock (.retry 7) heartbeatOne),
    .sendEnvelope 7 (.write (.retry 7) heartbeatOne 0 3),
    .callback (.connected 7),
    .callback (.message 7 [0, 0]),
    .sendEnvelope 7 (.write (.retry 7) heartbeatOne 3 5),
    .sendEnvelope 7 (.finish (.retry 7) heartbeatOne),
    .sendEnvelope 7 (.lock (.caller 0) heartbeatOne),
    .sendEnvelope 7 (.write (.caller 0) heartbeatOne 0 8),
    .callback (.message 7 [0, 4, 8, 6, 16, 1, 0]),
    .push 7 heartbeatOne,
    .recv 7 (.data [0, 0, 0, 4, 8]),
    .recv 7 (.data [6, 16, 1]),
    .sendEnvelope 7 (.finish (.caller 0) heartbeatOne),
    .sendEnvelope 7 (.call (.retry 7) heartbeatOne),
    .sendEnvelope 7 (.lock (.retry 7) heartbeatOne),
    .sendEnvelope 7 (.write (.retry 7) heartbeatOne 0 2),
    .sendEnvelope 7 (.fail (.retry 7) heartbeatOne 2),
    .callback (.message 7 [0, 0, 4, 8, 6, 16, 1, 0, 0])]

theorem exists_heartbeat_run :
    ∃ e : TransportRun heartbeatProtobuf,
      e.history =
          ((transportDriver heartbeatProtobuf).trace {} heartbeatSchedule).reverse ∧
        e.state =
          (transportDriver heartbeatProtobuf).follow {} heartbeatSchedule := by
  let start : TransportRun heartbeatProtobuf := ⟨[], {}, .init rfl⟩
  obtain ⟨e, -, hstate, hhistory⟩ :=
    (transportDriver heartbeatProtobuf).exists_follow heartbeatSchedule start
  exact ⟨e, hhistory.trans (List.append_nil _), hstate⟩

theorem envelopes_cross_in_lock_order_heartbeats :
    ∃ e : TransportRun heartbeatProtobuf,
      sent e 7 = [heartbeatOne, heartbeatOne] ∧
        dispatched e 7 = [heartbeatOne, heartbeatOne] := by
  obtain ⟨e, hhistory, hstate⟩ := exists_heartbeat_run
  have hcalls : (calls e 7).history = (wire heartbeatProtobuf 7).onHistory
      ((transportDriver heartbeatProtobuf).trace {} heartbeatSchedule).reverse :=
    congrArg _ hhistory
  have hdies : SharedStream.Dies (calls e 7) := by
    rw [SharedStream.Dies, hcalls]
    decide +kernel
  have hsent : sent e 7 = [heartbeatOne, heartbeatOne] := by
    rw [sent, Execution.log, hcalls]
    decide +kernel
  have hwritten : (calls e 7).log SharedStream.Label.written =
      [heartbeatOne, heartbeatOne, heartbeatOne, heartbeatOne] := by
    rw [Execution.log, hcalls]
    decide +kernel
  have hencodable : Encodable heartbeatProtobuf heartbeatOne :=
    ⟨[8, 6, 16, 1], rfl, by decide, by decide⟩
  obtain ⟨-, -, -, hall⟩ := envelopes_cross_in_lock_order heartbeatProtobuf
    heartbeatProtobuf_inverse heartbeatProtobuf_size e 7 hdies
  refine ⟨e, hsent, (hall ?_ ?_).trans hsent⟩
  · rw [hwritten]
    simp [hencodable]
  · rw [hstate]
    decide +kernel

/-- The connections are queues of envelopes, if a socket that fails inside a frame takes
nothing more.  Every step of the transport, with its bytes, chunks and mutexes, is
followed by steps of two families of queues: to the server, into which an envelope comes
when the last byte of its frame is written and out of which it comes when it is
dispatched, and to the clients, from the call of `send` to `handleEnvelope`.  So every
run of the transport is a run of the queues. -/
theorem transport_refines_channels (pb : Protobuf)
    (hinverse : ∀ envelope body, pb.serialize envelope = some body →
      pb.parse body = some envelope)
    (hsize : ∀ envelope body, pb.serialize envelope = some body →
      body.length < 2 ^ 32) :
    (∀ (e e' : TransportRun pb) l, Execution.Next e l e' →
      (∀ conn, SharedStream.Dies (calls e' conn)) →
      ∀ up down : ChannelRun, up.Carries (sent e) (dispatched e) →
        down.Carries (pushed e) (handled e) →
        (∃ up', Execution.Later up up' ∧
            ChannelRun.Carries up' (sent e') (dispatched e')) ∧
          ∃ down', Execution.Later down down' ∧
            ChannelRun.Carries down' (pushed e') (handled e')) ∧
    ∀ e : TransportRun pb, (∀ conn, SharedStream.Dies (calls e conn)) →
      ∃ up down : ChannelRun, up.Carries (sent e) (dispatched e) ∧
        down.Carries (pushed e) (handled e) := by
  refine ⟨fun e e' l hnext hdies up down hup hdown =>
    exists_carries hinverse hsize hnext hdies hup hdown, fun e => ?_⟩
  apply Execution.induct (P := fun e : TransportRun pb =>
    (∀ conn, SharedStream.Dies (calls e conn)) → ∃ up down : ChannelRun,
      up.Carries (sent e) (dispatched e) ∧ down.Carries (pushed e) (handled e))
  · intro e hnil _ _
    have hcalls : ∀ conn, (calls e conn).history = [] := by
      intro conn
      simp only [calls, Projection.onRun, hnil]
      rfl
    let empty : ChannelRun := ⟨[], _, .init rfl⟩
    refine ⟨empty, empty, ⟨fun conn => ?_, fun conn => ?_⟩,
      ⟨fun conn => ?_, fun conn => ?_⟩⟩
    · exact (Execution.log_init (hcalls conn)).symm
    · rw [dispatched, Execution.log_init hnil]
      rfl
    · exact (Execution.log_init hnil).symm
    · rw [handled, Execution.log_init hnil]
      rfl
  · intro e e' l ih hnext hdies
    have hbefore : ∀ conn, SharedStream.Dies (calls e conn) := fun conn =>
      (hdies conn).before ((wire pb conn).onRun_later hnext.later)
    obtain ⟨up, down, hup, hdown⟩ := ih hbefore
    obtain ⟨⟨up', -, hup'⟩, down', -, hdown'⟩ :=
      exists_carries hinverse hsize hnext hdies hup hdown
    exact ⟨up', down', hup', hdown'⟩

theorem transport_refines_channels_heartbeats :
    ∃ (e : TransportRun heartbeatProtobuf) (up down : ChannelRun),
      up.Carries (sent e) (dispatched e) ∧ down.Carries (pushed e) (handled e) ∧
        handled e 7 = [heartbeatOne] := by
  obtain ⟨e, hhistory, -⟩ := exists_heartbeat_run
  have hdies : ∀ conn, SharedStream.Dies (calls e conn) := by
    intro conn
    have hseven : ∀ x ∈ ((transportDriver heartbeatProtobuf).trace {}
        heartbeatSchedule).reverse, x.2.conn = 7 := by decide +kernel
    have hcalls : (calls e conn).history = (wire heartbeatProtobuf conn).onHistory
        ((transportDriver heartbeatProtobuf).trace {} heartbeatSchedule).reverse :=
      congrArg _ hhistory
    rw [SharedStream.Dies, hcalls]
    by_cases hconn : conn = 7
    · subst hconn
      decide +kernel
    · rw [Projection.onHistory, List.filterMap_eq_nil_iff.mpr]
      · exact List.Pairwise.nil
      · intro x hx
        rw [onLabel_of_ne (hseven x hx ▸ hconn), Option.map_none]
  obtain ⟨up, down, hup, hdown⟩ := (transport_refines_channels heartbeatProtobuf
    heartbeatProtobuf_inverse heartbeatProtobuf_size).2 e hdies
  refine ⟨e, up, down, hup, hdown, ?_⟩
  rw [handled, Execution.log, hhistory]
  decide +kernel

end TransportRun

end ReliableDelivery
