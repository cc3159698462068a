import ReliableDelivery.Protocol.Codec
import ReliableDelivery.Server.UserState
import ReliableDelivery.Support.Program
import Mathlib.Data.List.AList

/-!
# The client

`Client.cpp` as programs.  A client is named by its connection: `startClient`
resets every field and opens a new connection, so a client object that is
started again counts as a further client.  A command is one step that other
threads cannot interrupt: an access to an atomic, a block under one of the
mutexes, a frame written to the socket, or a reading of the clock.  The clock
that `sendMessage` reads while it holds `pending_mutex` belongs to the block.
-/

namespace ReliableDelivery

open Decimal EnvelopeFactory

def kBaseRetryTimeoutMs : UInt64 := 2000

def kMaxRetryCount : ℕ := 5

/-- A request that waits for its acknowledgement. -/
structure PendingAck where
  envelope : Envelope
  lastSendMs : UInt64 := 0
  retryCount : ℕ := 0
  deriving DecidableEq, Repr

/-- The map `pending_acks` from sequence numbers. -/
abbrev PendingAcks := AList fun _ : UInt64 => PendingAck

namespace PendingAck

/-- The waiting time grows with the number of retries. -/
def retryTimeoutMs (pending : PendingAck) : UInt64 :=
  kBaseRetryTimeoutMs * UInt64.ofNat (pending.retryCount + 1)

/-- What a scan makes of an entry: the entry afterwards, unless it is given up,
and the envelope to send again, if any.  The difference of the times is taken
in 64 bits. -/
def scan (now : UInt64) (pending : PendingAck) :
    Option PendingAck × Option Envelope :=
  if now - pending.lastSendMs < pending.retryTimeoutMs then
    (some pending, none)
  else if kMaxRetryCount ≤ pending.retryCount then
    (none, none)
  else
    (some { pending with
      retryCount := pending.retryCount + 1, lastSendMs := now },
      some pending.envelope)

end PendingAck

namespace PendingAcks

/-- The entry of the map after a scan. -/
def scanEntry (now : UInt64) (entry : Σ _ : UInt64, PendingAck) :
    Option (Σ _ : UInt64, PendingAck) :=
  (entry.2.scan now).1.map fun pending => ⟨entry.1, pending⟩

theorem keys_filterMap_scanEntry (now : UInt64)
    (entries : List (Σ _ : UInt64, PendingAck)) :
    (entries.filterMap (scanEntry now)).keys.Sublist entries.keys := by
  induction entries with
  | nil => exact List.Sublist.refl _
  | cons entry entries ih =>
      rw [List.filterMap_cons]
      cases h : scanEntry now entry with
      | none => exact ih.cons _
      | some entry' =>
          have hkey : entry'.1 = entry.1 := by
            rw [scanEntry, Option.map_eq_some_iff] at h
            obtain ⟨pending, -, rfl⟩ := h
            rfl
          simp only [List.keys, List.map_cons, hkey]
          exact ih.cons_cons _

/-- The block of `retryLoop` under the lock: the map afterwards, and the
envelopes to send again in the order of the entries. -/
def scan (now : UInt64) (acks : PendingAcks) : PendingAcks × List Envelope :=
  (⟨acks.entries.filterMap (scanEntry now),
      (keys_filterMap_scanEntry now acks.entries).nodup acks.nodupKeys⟩,
    acks.entries.filterMap fun entry => (entry.2.scan now).2)

@[simp] theorem lookup_scan (now : UInt64) (acks : PendingAcks)
    (seq : UInt64) :
    (scan now acks).1.lookup seq =
      (acks.lookup seq).bind fun pending => (pending.scan now).1 := by
  ext pending
  rw [← Option.mem_def, AList.mem_lookup_iff, Option.bind_eq_some_iff]
  simp only [scan, List.mem_filterMap, scanEntry, Option.map_eq_some_iff]
  constructor
  · rintro ⟨⟨seq', old⟩, hmem, new, hscan, heq⟩
    cases heq
    exact ⟨old, AList.mem_lookup_iff.mpr hmem, hscan⟩
  · rintro ⟨old, hold, hscan⟩
    exact ⟨⟨seq, old⟩, AList.mem_lookup_iff.mp hold, pending, hscan, rfl⟩

theorem mem_scan {now : UInt64} {acks : PendingAcks} {envelope : Envelope} :
    envelope ∈ (scan now acks).2 ↔ ∃ seq pending,
      acks.lookup seq = some pending ∧
      (pending.scan now).2 = some envelope := by
  simp only [scan, List.mem_filterMap]
  constructor
  · rintro ⟨⟨seq, pending⟩, hmem, hscan⟩
    exact ⟨seq, pending, AList.mem_lookup_iff.mpr hmem, hscan⟩
  · rintro ⟨seq, pending, hlookup, hscan⟩
    exact ⟨⟨seq, pending⟩, AList.mem_lookup_iff.mp hlookup, hscan⟩

/-- What a scan sends again is what was registered. -/
theorem envelope_of_scan {now : UInt64} {pending : PendingAck}
    {envelope : Envelope} (h : (pending.scan now).2 = some envelope) :
    envelope = pending.envelope := by
  unfold PendingAck.scan at h
  split at h
  · cases h
  · split at h
    · cases h
    · exact (Option.some.inj h).symm

section Count

variable {now seq : UInt64} {acks : PendingAcks} {holds : Envelope → Bool}

/-- A scan finds nothing for a number that has no entry that is due. -/
theorem countP_scan_eq_zero
    (hkey : ∀ seq' pending, acks.lookup seq' = some pending →
      holds pending.envelope = true → seq' = seq)
    (hnone : ∀ pending, acks.lookup seq = some pending →
      (pending.scan now).2 = none) :
    (scan now acks).2.countP holds = 0 := by
  rw [List.countP_eq_zero]
  intro envelope hmem hholds
  obtain ⟨seq', pending, hlookup, hscan⟩ := mem_scan.mp hmem
  rw [envelope_of_scan hscan] at hholds
  have heq := hkey seq' pending hlookup hholds
  subst heq
  rw [hnone pending hlookup] at hscan
  cases hscan

/-- A scan finds a number once at most. -/
theorem countP_scan_le_one
    (hkey : ∀ seq' pending, acks.lookup seq' = some pending →
      holds pending.envelope = true → seq' = seq) :
    (scan now acks).2.countP holds ≤ 1 := by
  have hkeys : acks.keys.count seq ≤ 1 :=
    List.nodup_iff_count_le_one.mp acks.keys_nodup seq
  refine le_trans ?_ hkeys
  rw [scan, List.countP_filterMap, AList.keys, List.keys, List.count,
    List.countP_map]
  apply List.countP_mono_left
  rintro ⟨seq', pending⟩ hmem hholds
  cases hscan : (pending.scan now).2 with
  | none => simp [hscan] at hholds
  | some envelope =>
      simp only [hscan, envelope_of_scan hscan, Option.map_some,
        Option.getD_some] at hholds
      simp [hkey seq' pending (AList.mem_lookup_iff.mpr hmem) hholds]

end Count

end PendingAcks

/-- The `static` atomics of `sendMessage`, shared by all clients of the
process. -/
inductive Counter where
  | nextSeq
  | nextClientMsgNo
  deriving DecidableEq, Repr

def Counter.start : Counter → ℕ
  | .nextSeq => 2
  | .nextClientMsgNo => 1

inductive ClientCommand where
  | nowMs
  | stopped (client : Conn)
  | setStop (client : Conn)
  | loginOk (client : Conn)
  | handleLogin (client : Conn) (ok : Bool)
  | failPendingLogin (client : Conn)
  | waitLogin (client : Conn)
  | fetchAdd (counter : Counter)
  | register (client : Conn) (seq : UInt64) (envelope : Envelope)
  | erase (client : Conn) (seq : UInt64)
  | scan (client : Conn) (now : UInt64)
  | pushMessage (client : Conn) (envelope : Envelope)
  | sendEnvelope (client : Conn) (envelope : Envelope)
  | connectServer (client : Conn)
  | startReceiver (client : Conn)
  | startRetry (client : Conn)
  | returns (ok : Bool)
  deriving DecidableEq, Repr

/-- The reply to a command.  Registering a request tells when it was done. -/
@[reducible] def ClientCommand.Answer : ClientCommand → Type
  | .nowMs => UInt64
  | .stopped _ => Bool
  | .setStop _ => Unit
  | .loginOk _ => Bool
  | .handleLogin _ _ => Unit
  | .failPendingLogin _ => Unit
  | .waitLogin _ => Bool
  | .fetchAdd _ => UInt64
  | .register _ _ _ => UInt64
  | .erase _ _ => Unit
  | .scan _ _ => List Envelope
  | .pushMessage _ _ => Unit
  | .sendEnvelope _ _ => Bool
  | .connectServer _ => Bool
  | .startReceiver _ => Unit
  | .startRetry _ => Unit
  | .returns _ => Unit

/-- Code of a thread of the client process. -/
abbrev ClientProgram := Program ClientCommand ClientCommand.Answer

instance : Clock ClientProgram where
  nowMs := Program.perform ClientCommand.nowMs

namespace Client

open Program

def nowMs : ClientProgram UInt64 :=
  perform ClientCommand.nowMs

def stopped (client : Conn) : ClientProgram Bool :=
  perform (ClientCommand.stopped client)

def setStop (client : Conn) : ClientProgram Unit :=
  perform (ClientCommand.setStop client)

def loginOk (client : Conn) : ClientProgram Bool :=
  perform (ClientCommand.loginOk client)

def fetchAdd (counter : Counter) : ClientProgram UInt64 :=
  perform (ClientCommand.fetchAdd counter)

/-- False if the envelope cannot be encoded or the socket fails. -/
def sendEnvelope (client : Conn) (envelope : Envelope) : ClientProgram Bool :=
  perform (ClientCommand.sendEnvelope client envelope)

/-! ## Sending -/

/-- The idempotency key of a message: user, time and number. -/
def makeClientMsgId (uid now msgNo : UInt64) : Bytes :=
  toText uid ++ literal "-" ++ toText now ++ literal "-" ++ toText msgNo

/-- The request is registered before it is written, and forgotten if writing
fails. -/
def sendRequest (client : Conn) (seq : UInt64) (envelope : Envelope) :
    ClientProgram Bool := do
  let _ ← perform (ClientCommand.register client seq envelope)
  let sent ← sendEnvelope client envelope
  if sent then pure true
  else do
    perform (ClientCommand.erase client seq)
    pure false

def sendMessage (client : Conn) (uid toUid : UInt64) (msg : Bytes) :
    ClientProgram Bool := do
  let stop ← stopped client
  if stop then pure false
  else do
    let loggedIn ← loginOk client
    if loggedIn = false then pure false
    else do
      let seq ← fetchAdd .nextSeq
      let msgNo ← fetchAdd .nextClientMsgNo
      let now ← nowMs
      let envelope ← createChatRequest seq uid toUid msg
        (makeClientMsgId uid now msgNo)
      sendRequest client seq envelope

/-! ## Sending again -/

/-- Send the envelopes of one scan.  False if the loop is left. -/
def resend (client : Conn) : List Envelope → ClientProgram Bool
  | [] => pure true
  | envelope :: envelopes => do
      let stop ← stopped client
      if stop then pure false
      else do
        let sent ← sendEnvelope client envelope
        if sent then resend client envelopes
        else do
          setStop client
          pure false

/-- The first rounds of the loop of the retry thread. -/
def retryLoop (client : Conn) : (rounds : ℕ) → ClientProgram Unit
  | 0 => pure ()
  | rounds + 1 => do
      let stop ← stopped client
      if stop then pure ()
      else do
        let now ← nowMs
        let retryMessages ← perform (ClientCommand.scan client now)
        let goOn ← resend client retryMessages
        if goOn then retryLoop client rounds else pure ()

/-! ## Receiving -/

/-- Any acknowledgement ends the wait, whatever it says. -/
def handleAck (client : Conn) (envelope : Envelope) : ClientProgram Unit :=
  match envelope.ack? with
  | none => pure ()
  | some ack => perform (ClientCommand.erase client ack.seq)

/-- Pushes are acknowledged unless they replay the history. -/
def handleChatPush (client : Conn) (envelope : Envelope) :
    ClientProgram Unit :=
  match envelope.chatPush? with
  | none => pure ()
  | some push => do
      let loggedIn ← loginOk client
      if loggedIn = false then pure ()
      else do
        perform (ClientCommand.pushMessage client envelope)
        if push.history then pure ()
        else do
          let ack ← createAck envelope.seq push.msgId true []
          let _ ← sendEnvelope client ack
          pure ()

def handleLoginResponse (client : Conn) (envelope : Envelope) :
    ClientProgram Unit :=
  match envelope.loginResp? with
  | none => perform (ClientCommand.handleLogin client false)
  | some response => perform (ClientCommand.handleLogin client response.ok)

def handleEnvelope (client : Conn) (envelope : Envelope) :
    ClientProgram Unit :=
  match envelope.type with
  | .ack => handleAck client envelope
  | .chatPush => handleChatPush client envelope
  | .loginResp => handleLoginResponse client envelope
  | _ => pure ()

/-- The end of `receiverLoop` when the connection is lost or the stream is
damaged. -/
def connectionLost (client : Conn) : ClientProgram Unit := do
  setStop client
  perform (ClientCommand.failPendingLogin client)

/-! ## Starting and stopping -/

/-- The threads are joined and the socket is closed afterwards. -/
def stopClient (client : Conn) : ClientProgram Unit :=
  setStop client

/-- Wait for the answer to the login request.  The retry thread is started once
it has come. -/
def awaitLogin (client : Conn) : ClientProgram Bool := do
  let ok ← perform (ClientCommand.waitLogin client)
  if ok then do
    perform (ClientCommand.startRetry client)
    pure true
  else do
    stopClient client
    pure false

def startClient (client : Conn) (uid : UInt64) : ClientProgram Bool := do
  let connected ← perform (ClientCommand.connectServer client)
  if connected = false then pure false
  else do
    perform (ClientCommand.startReceiver client)
    let request ← createLoginRequest 1 uid
    let sent ← sendEnvelope client request
    if sent then awaitLogin client
    else do
      stopClient client
      pure false

end Client

end ReliableDelivery
