import ReliableDelivery.Protocol.Codec
import ReliableDelivery.Server.UserState

/-!
# From byte streams to envelopes

The callbacks of `ChatServer.cpp`.  A session keeps the bytes of a connection
that do not form a complete frame yet.  Muduo calls back with the chunks of one
connection in order; the callbacks of different connections interleave in any
way.
-/

namespace ReliableDelivery

open Decimal MessageCodec

/-- The receive buffers of the open connections. -/
structure ChatServer where
  sessionsTable : Conn → Option Bytes := fun _ => none

/-- What a message callback does: the envelopes it hands to the dispatcher, and
whether it shuts the connection down. -/
structure MessageOutcome where
  server : ChatServer
  dispatched : List Envelope := []
  shutdown : Bool := false

namespace ChatServer

def onConnection (server : ChatServer) (conn : Conn) (connected : Bool) :
    ChatServer :=
  if connected then
    { sessionsTable := Function.update server.sessionsTable conn (some []) }
  else { sessionsTable := Function.update server.sessionsTable conn none }

def onMessage (pb : Protobuf) (server : ChatServer) (conn : Conn)
    (input : Bytes) : MessageOutcome :=
  match server.sessionsTable conn with
  | none => { server, shutdown := true }
  | some recvBuffer =>
      let data := recvBuffer ++ input
      let result := decodeAll pb data kDefaultMaxFrameLength
      let rest :=
        if 0 < result.consumedBytes then data.drop result.consumedBytes
        else data
      let server : ChatServer :=
        { sessionsTable := Function.update server.sessionsTable conn
            (some rest) }
      if result.status = .invalidLength ∨ result.status = .parseError then
        { server, shutdown := true }
      else { server, dispatched := result.envelopes }

end ChatServer

/-- A callback of the network library. -/
inductive NetEvent where
  | connected (conn : Conn)
  | message (conn : Conn) (input : Bytes)
  | disconnected (conn : Conn)
  deriving DecidableEq, Repr

def NetEvent.conn : NetEvent → Conn
  | .connected conn => conn
  | .message conn _ => conn
  | .disconnected conn => conn

/-- The server after a callback and what it dispatched, with the connection. -/
def ChatServer.handleEvent (pb : Protobuf) (server : ChatServer) :
    NetEvent → ChatServer × List (Conn × Envelope)
  | .connected conn => (server.onConnection conn true, [])
  | .disconnected conn => (server.onConnection conn false, [])
  | .message conn input =>
      let outcome := server.onMessage pb conn input
      (outcome.server, outcome.dispatched.map fun envelope => (conn, envelope))

/-- A sequence of callbacks. -/
def ChatServer.serve (pb : Protobuf) (server : ChatServer) :
    List NetEvent → ChatServer × List (Conn × Envelope)
  | [] => (server, [])
  | event :: events =>
      let first := server.handleEvent pb event
      let others := first.1.serve pb events
      (others.1, first.2 ++ others.2)

/-- The envelopes dispatched for one connection, in order. -/
def dispatchedFor (conn : Conn) (log : List (Conn × Envelope)) :
    List Envelope :=
  (log.filter fun entry => entry.1 = conn).map Prod.snd

/-! ## One callback -/

section Callback

variable {pb : Protobuf} {server : ChatServer} {conn : Conn}

/-- A message callback reads the frames of buffer and input together. -/
theorem onMessage_eq (pb : Protobuf) {recvBuffer : Bytes} (input : Bytes)
    (h : server.sessionsTable conn = some recvBuffer) :
    (server.onMessage pb conn input).dispatched =
        ((frames pb kDefaultMaxFrameLength).feed recvBuffer input).1 ∧
      (server.onMessage pb conn input).server.sessionsTable =
        Function.update server.sessionsTable conn
          (some ((frames pb kDefaultMaxFrameLength).feed
            recvBuffer input).2) := by
  simp only [ChatServer.onMessage, h, erase_consumedBytes, isError_iff,
    decodeAll_envelopes]
  cases herror : ((frames pb kDefaultMaxFrameLength).split
      (recvBuffer ++ input)).2.1 with
  | none =>
      rw [Framing.feed_ok herror]
      simp
  | some status =>
      rw [Framing.feed_error herror]
      simp

/-- A callback of another connection does not touch the session. -/
theorem handleEvent_other (pb : Protobuf) (server : ChatServer)
    {event : NetEvent} (h : event.conn ≠ conn) :
    (server.handleEvent pb event).1.sessionsTable conn =
        server.sessionsTable conn ∧
      dispatchedFor conn (server.handleEvent pb event).2 = [] := by
  cases event with
  | connected c =>
      have hne : conn ≠ c := fun heq => h heq.symm
      refine ⟨?_, rfl⟩
      simp only [ChatServer.handleEvent, ChatServer.onConnection, if_true]
      rw [Function.update_of_ne hne]
  | disconnected c =>
      have hne : conn ≠ c := fun heq => h heq.symm
      refine ⟨?_, rfl⟩
      simp only [ChatServer.handleEvent, ChatServer.onConnection,
        Bool.false_eq_true, if_false]
      rw [Function.update_of_ne hne]
  | message c input =>
      have hne : conn ≠ c := fun heq => h heq.symm
      constructor
      · cases hsession : server.sessionsTable c with
        | none =>
            simp only [ChatServer.handleEvent, ChatServer.onMessage, hsession]
        | some recvBuffer =>
            simp only [ChatServer.handleEvent]
            rw [(onMessage_eq pb input hsession).2, Function.update_of_ne hne]
      · have hnone : ∀ entry ∈ (server.handleEvent pb (.message c input)).2,
            ¬entry.1 = conn := by
          intro entry hentry
          simp only [ChatServer.handleEvent, List.mem_map] at hentry
          obtain ⟨envelope, -, rfl⟩ := hentry
          exact fun heq => hne heq.symm
        rw [dispatchedFor, List.filter_eq_nil_iff.mpr (by simpa using hnone)]
        rfl

theorem dispatchedFor_append (log log' : List (Conn × Envelope)) :
    dispatchedFor conn (log ++ log') =
      dispatchedFor conn log ++ dispatchedFor conn log' := by
  simp only [dispatchedFor, List.filter_append, List.map_append]

theorem dispatchedFor_map (envelopes : List Envelope) :
    dispatchedFor conn (envelopes.map fun envelope => (conn, envelope)) =
      envelopes := by
  simp only [dispatchedFor]
  rw [List.filter_eq_self.mpr (by simp), List.map_map]
  exact List.map_id envelopes

end Callback

/-! ## Runs of callbacks -/

section Runs

variable {pb : Protobuf} {server : ChatServer} {conn : Conn}

/-- The callbacks of one connection. -/
def eventsOf (conn : Conn) (events : List NetEvent) : List NetEvent :=
  events.filter fun event => event.conn = conn

theorem serve_append (events events' : List NetEvent) :
    server.serve pb (events ++ events') =
      (((server.serve pb events).1.serve pb events').1,
        (server.serve pb events).2 ++
          ((server.serve pb events).1.serve pb events').2) := by
  induction events generalizing server with
  | nil => rfl
  | cons event events ih =>
      simp only [List.cons_append, ChatServer.serve, ih, List.append_assoc]

/-- While a connection is open, its session reads its own chunks, whatever the
other connections do. -/
theorem serve_chunks (pb : Protobuf) {events : List NetEvent} {chunks : List Bytes}
    {recvBuffer : Bytes}
    (hevents : eventsOf conn events = chunks.map (.message conn))
    (hsession : server.sessionsTable conn = some recvBuffer) :
    dispatchedFor conn (server.serve pb events).2 =
        ((frames pb kDefaultMaxFrameLength).feedAll recvBuffer chunks).1 ∧
      (server.serve pb events).1.sessionsTable conn =
        some ((frames pb kDefaultMaxFrameLength).feedAll
          recvBuffer chunks).2 := by
  induction events generalizing server chunks recvBuffer with
  | nil =>
      have hnil : chunks = [] := by
        simpa [eventsOf] using hevents.symm
      rw [hnil]
      exact ⟨rfl, hsession⟩
  | cons event events ih =>
      by_cases hconn : event.conn = conn
      · rw [eventsOf, List.filter_cons_of_pos (by simpa using hconn)] at hevents
        rcases chunks with _ | ⟨chunk, chunks⟩
        · cases hevents
        · rw [List.map_cons, List.cons.injEq] at hevents
          obtain ⟨rfl, hrest⟩ := hevents
          obtain ⟨hdispatched, htable⟩ := onMessage_eq pb chunk hsession
          have hsession' : (server.handleEvent pb
              (.message conn chunk)).1.sessionsTable conn =
                some ((frames pb kDefaultMaxFrameLength).feed
                  recvBuffer chunk).2 := by
            simp only [ChatServer.handleEvent, htable, Function.update_self]
          obtain ⟨hothers, hfinal⟩ := ih hrest hsession'
          have hfirst : dispatchedFor conn (server.handleEvent pb
              (.message conn chunk)).2 =
                ((frames pb kDefaultMaxFrameLength).feed recvBuffer chunk).1 := by
            simp only [ChatServer.handleEvent, dispatchedFor_map, hdispatched]
          constructor
          · simp only [ChatServer.serve, dispatchedFor_append, hfirst, hothers,
              Framing.feedAll]
          · simp only [ChatServer.serve, hfinal, Framing.feedAll]
      · rw [eventsOf, List.filter_cons_of_neg (by simpa using hconn)] at hevents
        obtain ⟨htable, hnone⟩ := handleEvent_other pb server hconn
        obtain ⟨hothers, hfinal⟩ := ih hevents (htable.trans hsession)
        constructor
        · simp only [ChatServer.serve, dispatchedFor_append, hnone, hothers,
            List.nil_append]
        · simp only [ChatServer.serve, hfinal]

/-- A connection is established, and its chunks follow. -/
theorem serve_connection (pb : Protobuf) {events : List NetEvent}
    {chunks : List Bytes}
    (hevents : eventsOf conn events =
      .connected conn :: chunks.map (.message conn)) :
    dispatchedFor conn (server.serve pb events).2 =
        ((frames pb kDefaultMaxFrameLength).feedAll [] chunks).1 ∧
      (server.serve pb events).1.sessionsTable conn =
        some ((frames pb kDefaultMaxFrameLength).feedAll [] chunks).2 := by
  induction events generalizing server with
  | nil => cases hevents
  | cons event events ih =>
      by_cases hconn : event.conn = conn
      · rw [eventsOf, List.filter_cons_of_pos (by simpa using hconn),
          List.cons.injEq] at hevents
        obtain ⟨rfl, hrest⟩ := hevents
        have hsession : (server.handleEvent pb
            (.connected conn)).1.sessionsTable conn = some [] := by
          simp only [ChatServer.handleEvent, ChatServer.onConnection, if_true,
            Function.update_self]
        obtain ⟨hothers, hfinal⟩ := serve_chunks pb hrest hsession
        constructor
        · simp only [ChatServer.serve, ChatServer.handleEvent, List.nil_append]
          exact hothers
        · exact hfinal
      · rw [eventsOf, List.filter_cons_of_neg (by simpa using hconn)] at hevents
        obtain ⟨htable, hnone⟩ := handleEvent_other pb server hconn
        obtain ⟨hothers, hfinal⟩ :=
          @ih (server.handleEvent pb event).1 hevents
        constructor
        · simp only [ChatServer.serve, dispatchedFor_append, hnone, hothers,
            List.nil_append]
        · simp only [ChatServer.serve, hfinal]

end Runs

/-! ## Stream reassembly -/

/-- After an error nothing more is dispatched. -/
theorem dispatched_after_error {pb : Protobuf} {conn : Conn}
    {before after : List NetEvent} {chunks : List Bytes}
    {input recvBuffer : Bytes}
    (hevents : eventsOf conn (before ++ .message conn input :: after) =
      .connected conn :: chunks.map (.message conn))
    (hsession : (ChatServer.serve pb {} before).1.sessionsTable conn =
      some recvBuffer)
    (herror : ((frames pb kDefaultMaxFrameLength).split
      (recvBuffer ++ input)).2.1 ≠ none) :
    dispatchedFor conn (ChatServer.serve pb {}
        (before ++ .message conn input :: after)).2 =
      dispatchedFor conn (ChatServer.serve pb {} before).2 := by
  obtain ⟨later, hlater⟩ : ∃ later : List Bytes,
      eventsOf conn (.message conn input :: after) =
        later.map (.message conn) := by
    rw [eventsOf, List.filter_append] at hevents
    change eventsOf conn before ++
      eventsOf conn (.message conn input :: after) = _ at hevents
    rcases hbefore : eventsOf conn before with _ | ⟨first, rest⟩
    · rw [hbefore, List.nil_append] at hevents
      simp [eventsOf, NetEvent.conn] at hevents
    · rw [hbefore, List.cons_append, List.cons.injEq] at hevents
      obtain ⟨l₁, l₂, -, -, hl₂⟩ := List.map_eq_append_iff.mp hevents.2.symm
      exact ⟨l₂, hl₂.symm⟩
  obtain ⟨hdispatched, -⟩ := serve_chunks pb hlater hsession
  rw [serve_append, dispatchedFor_append, hdispatched]
  have hnone : ((frames pb kDefaultMaxFrameLength).feedAll
      recvBuffer later).1 = [] := by
    rcases later with _ | ⟨chunk, later⟩
    · rfl
    · have hchunk : chunk = input := by
        simp only [eventsOf, NetEvent.conn, decide_true,
          List.filter_cons_of_pos, List.map_cons, List.cons.injEq,
          NetEvent.message.injEq, true_and] at hlater
        exact hlater.1.symm
      subst hchunk
      obtain ⟨status, hstatus⟩ := Option.ne_none_iff_exists'.mp herror
      have hrest := (frames pb kDefaultMaxFrameLength).front_rest
        (recvBuffer ++ chunk)
      rw [hstatus] at hrest
      simp only [Framing.feedAll, Framing.feed_error hstatus,
        Framing.feedAll_invalid hrest, List.append_nil]
  rw [hnone, List.append_nil]

/-- Reassembly of a stream.  The callbacks of all connections interleave in any
way; those of `conn` are its establishment and then `chunks`.  What is
dispatched for `conn` depends on its chunks alone.  It is a prefix of the frames
in the one parse of its stream, and all of them if no frame is invalid; the
session then holds the incomplete rest.  Nothing is dispatched from the first
decode error on.  If the stream consists of encoded envelopes of permitted
length, exactly these are dispatched and nothing is left. -/
theorem stream_reassembly (pb : Protobuf)
    (hinverse : ∀ envelope body, pb.serialize envelope = some body →
      pb.parse body = some envelope)
    (events : List NetEvent) (conn : Conn) (chunks : List Bytes)
    (hevents : eventsOf conn events =
      .connected conn :: chunks.map (.message conn)) :
    (∀ events', eventsOf conn events' = eventsOf conn events →
      dispatchedFor conn (ChatServer.serve pb {} events').2 =
        dispatchedFor conn (ChatServer.serve pb {} events).2) ∧
    (∃ envelopes rest,
      (frames pb kDefaultMaxFrameLength).Parse chunks.flatten envelopes rest ∧
      (∀ envelopes' rest', (frames pb kDefaultMaxFrameLength).Parse
        chunks.flatten envelopes' rest' →
          envelopes' = envelopes ∧ rest' = rest) ∧
      dispatchedFor conn (ChatServer.serve pb {} events).2 <+: envelopes ∧
      ((∀ status, (frames pb kDefaultMaxFrameLength).front rest ≠
          .invalid status) →
        dispatchedFor conn (ChatServer.serve pb {} events).2 = envelopes ∧
        (ChatServer.serve pb {} events).1.sessionsTable conn = some rest)) ∧
    (∀ before input after recvBuffer,
      events = before ++ .message conn input :: after →
      (ChatServer.serve pb {} before).1.sessionsTable conn =
        some recvBuffer →
      (decodeAll pb (recvBuffer ++ input) kDefaultMaxFrameLength).status =
          .invalidLength ∨
        (decodeAll pb (recvBuffer ++ input) kDefaultMaxFrameLength).status =
          .parseError →
      dispatchedFor conn (ChatServer.serve pb {} events).2 =
        dispatchedFor conn (ChatServer.serve pb {} before).2) ∧
    (∀ envelopes, (∀ envelope ∈ envelopes, Encodable pb envelope) →
      chunks.flatten = (envelopes.map (encode pb.serialize)).flatten →
      dispatchedFor conn (ChatServer.serve pb {} events).2 = envelopes ∧
      (ChatServer.serve pb {} events).1.sessionsTable conn = some []) := by
  have hrun := fun (events : List NetEvent)
      (h : eventsOf conn events =
        .connected conn :: chunks.map (.message conn)) =>
    @serve_connection {} conn pb events chunks h
  obtain ⟨hdispatched, hsession⟩ := hrun events hevents
  have hincomplete : (frames pb kDefaultMaxFrameLength).front [] =
      .incomplete := rfl
  refine ⟨?_, ?_, ?_, ?_⟩
  · intro events' hsame
    rw [hdispatched, (hrun events' (hsame.trans hevents)).1]
  · have hrest := (frames pb kDefaultMaxFrameLength).front_rest chunks.flatten
    refine ⟨_, _, Framing.parse_split chunks.flatten,
      fun envelopes' rest' hparse => hparse.eq_split, ?_, ?_⟩
    · rw [hdispatched]
      exact Framing.feedAll_prefix chunks
    · intro hvalid
      have hnone : ((frames pb kDefaultMaxFrameLength).split
          chunks.flatten).2.1 = none := by
        cases hstatus : ((frames pb kDefaultMaxFrameLength).split
            chunks.flatten).2.1 with
        | none => rfl
        | some status =>
            rw [hstatus] at hrest
            exact absurd hrest (hvalid status)
      have hall : (frames pb kDefaultMaxFrameLength).feedAll [] chunks = _ :=
        Framing.feedAll_ok hnone hincomplete
      rw [hdispatched, hsession, hall]
      exact ⟨rfl, rfl⟩
  · rintro before input after recvBuffer rfl hbuffer herror
    exact dispatched_after_error hevents hbuffer
      ((isError_iff (recvBuffer ++ input)).mp herror)
  · intro envelopes hencodable hstream
    have hsplit := split_encode (fun envelope _ => hinverse envelope) hencodable
    rw [← hstream] at hsplit
    have hall : (frames pb kDefaultMaxFrameLength).feedAll [] chunks = _ :=
      Framing.feedAll_ok (by rw [List.nil_append, hsplit]) hincomplete
    rw [List.nil_append, hsplit] at hall
    rw [hdispatched, hsession, hall]
    exact ⟨rfl, rfl⟩

/-- A heartbeat, and what protobuf does with it. -/
def heartbeatOne : Envelope :=
  { type := .heartbeat, seq := 1 }

def heartbeatProtobuf : Protobuf where
  serialize envelope :=
    if envelope = heartbeatOne then some [8, 6, 16, 1] else none
  parse body := if body = [8, 6, 16, 1] then some heartbeatOne else none

theorem heartbeatProtobuf_inverse (envelope : Envelope) (body : Bytes)
    (h : heartbeatProtobuf.serialize envelope = some body) :
    heartbeatProtobuf.parse body = some envelope := by
  simp only [heartbeatProtobuf, Option.ite_none_right_eq_some, Option.some.injEq] at h
  obtain ⟨rfl, rfl⟩ := h
  rfl

theorem heartbeatProtobuf_size (envelope : Envelope) (body : Bytes)
    (h : heartbeatProtobuf.serialize envelope = some body) :
    body.length < 2 ^ 32 := by
  simp only [heartbeatProtobuf, Option.ite_none_right_eq_some, Option.some.injEq] at h
  obtain ⟨-, rfl⟩ := h
  decide

/-- Two heartbeats cut inside the header and inside the body, with another
connection in between. -/
theorem stream_reassembly_heartbeats :
    dispatchedFor 7 (ChatServer.serve heartbeatProtobuf {}
      [.connected 7, .message 7 [0, 0], .connected 8, .message 8 [1],
        .message 7 [0, 4, 8, 6, 16, 1, 0, 0, 0, 4, 8], .disconnected 8,
        .message 7 [6, 16, 1]]).2 = [heartbeatOne, heartbeatOne] := by
  have hinverse : ∀ envelope body,
      heartbeatProtobuf.serialize envelope = some body →
        heartbeatProtobuf.parse body = some envelope := by
    intro envelope body hbody
    simp only [heartbeatProtobuf] at hbody ⊢
    split at hbody
    · next henvelope =>
        rw [Option.some.injEq] at hbody
        rw [if_pos hbody.symm, henvelope]
    · cases hbody
  have hencodable : Encodable heartbeatProtobuf heartbeatOne :=
    ⟨[8, 6, 16, 1], rfl, by decide, by decide⟩
  have hresult := (stream_reassembly heartbeatProtobuf hinverse
    [.connected 7, .message 7 [0, 0], .connected 8, .message 8 [1],
      .message 7 [0, 4, 8, 6, 16, 1, 0, 0, 0, 4, 8], .disconnected 8,
      .message 7 [6, 16, 1]]
    7 [[0, 0], [0, 4, 8, 6, 16, 1, 0, 0, 0, 4, 8], [6, 16, 1]]
    rfl).2.2.2 [heartbeatOne, heartbeatOne] (by simp [hencodable]) (by decide)
  exact hresult.1

end ReliableDelivery
