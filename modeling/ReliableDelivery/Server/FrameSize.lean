import ReliableDelivery.Server.Pushes
import ReliableDelivery.Server.Retention

/-!
# Frames that receivers refuse

`Encode` puts no limit on a frame, and every decoder refuses a body of more than
`kDefaultMaxFrameLength` bytes.  The push of a message is not the request it
came from: it leaves out the client's id for the message and adds the server's
id, twice, and two times.  So the server can accept a message that no receiver
accepts from it.  This module computes the size of a push to the byte.
-/

namespace ReliableDelivery

open Decimal Redis MessageCodec TransitionSystem Wire

variable {P : Platform}

/-- The bytes of the message in a push: its id, its users, its content, its
stamp and the history flag. -/
def pushBodySize (id fromUid toUid : UInt64) (contentLength : ℕ)
    (stamp : UInt64) (history : Bool) : ℕ :=
  numberSize id + numberSize fromUid + numberSize toUid +
    (if contentLength = 0 then 0 else messageSize contentLength) +
    numberSize stamp + if history then 2 else 0

/-- The bytes of a push: the type, the sequence number, the time of sending, and
the message. -/
def pushSize (id fromUid toUid : UInt64) (contentLength : ℕ)
    (now stamp : UInt64) (history : Bool) : ℕ :=
  2 + numberSize id + numberSize now +
    messageSize (pushBodySize id fromUid toUid contentLength stamp history)

theorem pushBodySize_le {contentLength : ℕ} (h : contentLength < 2 ^ 32)
    (id fromUid toUid stamp : UInt64) (history : Bool) :
    pushBodySize id fromUid toUid contentLength stamp history ≤
      contentLength + 57 := by
  have hid := numberSize_le id
  have hfrom := numberSize_le fromUid
  have hto := numberSize_le toUid
  have hstamp := numberSize_le stamp
  have hlength : varintSize contentLength ≤ 10 := varintSize_le (by omega)
  rw [pushBodySize, messageSize]
  split
  · split
    · omega
    · omega
  · split
    · omega
    · omega

/-- A push adds less than a hundred bytes to the content. -/
theorem pushSize_le {contentLength : ℕ} (h : contentLength < 2 ^ 32)
    (id fromUid toUid now stamp : UInt64) (history : Bool) :
    pushSize id fromUid toUid contentLength now stamp history ≤
      contentLength + 92 := by
  have hbody := pushBodySize_le h id fromUid toUid stamp history
  have hid := numberSize_le id
  have hnow := numberSize_le now
  have hlength : varintSize
      (pushBodySize id fromUid toUid contentLength stamp history) ≤ 10 :=
    varintSize_le (by omega)
  rw [pushSize, messageSize]
  omega

theorem length_wire_pushOf {record : MessageRecord}
    (hcontent : record.content.length < 2 ^ 32) (history : Bool)
    (now stamp : UInt64) :
    (pushOf record history now stamp).wire.length =
      pushSize record.msgId record.fromUid record.toUid record.content.length
        now stamp history := by
  have htext : (stringField 4 record.content).length =
      if record.content.length = 0 then 0
        else messageSize record.content.length := by
    rw [length_stringField (by decide) (by omega)]
    simp only [List.length_eq_zero_iff]
  have htype : (enumField 1 MessageType.chatPush.number).length = 2 := rfl
  have hbody : (uint64Field 1 record.msgId ++ uint64Field 2 record.fromUid ++
      uint64Field 3 record.toUid ++ stringField 4 record.content ++
      uint64Field 5 stamp ++ boolField 6 history).length =
      pushBodySize record.msgId record.fromUid record.toUid
        record.content.length stamp history := by
    simp only [pushBodySize, List.length_append, htext,
      length_uint64Field (by decide : 1 ≤ 15),
      length_uint64Field (by decide : 2 ≤ 15),
      length_uint64Field (by decide : 3 ≤ 15),
      length_uint64Field (by decide : 5 ≤ 15),
      length_boolField (by decide : 6 ≤ 15)]
  have hsmall := pushBodySize_le hcontent record.msgId record.fromUid
    record.toUid stamp history
  simp only [Envelope.wire, pushOf, Option.map_some, Option.getD_some,
    Payload.wire, List.length_append, htype,
    length_uint64Field (by decide : 2 ≤ 15),
    length_uint64Field (by decide : 3 ≤ 15)]
  rw [length_messageField (by decide) (by omega), hbody, pushSize]

/-- The content of a stored message came in a frame that the server accepted, so
it is no longer than such a frame. -/
theorem content_length_le {parse : Bytes → Option Envelope} {e : ServerRun P}
    (hparse : ∀ body envelope request, parse body = some envelope →
      envelope.chatReq? = some request →
        request.content.length ≤ body.length)
    (hreceived : ∀ conn envelope, Received e conn envelope →
      ∃ data, envelope ∈
        (decodeAll ⟨P.serialize, parse⟩ data kDefaultMaxFrameLength).envelopes)
    {id : UInt64} {m : Message} (hm : e.ledger.find id = some m) :
    m.content.length ≤ kDefaultMaxFrameLength := by
  obtain ⟨job, s, e₁, e₂, t, answer, -, hnext, hlater, -⟩ :=
    (accounted e id m hm).written
  obtain ⟨conn, envelope, s', hhandles, -, hrequest, -, hdid⟩ : Justified job e₁
      (.redis (.evalCreateMessage m.fromUid m.toUid m.content m.clientMsgId
        m.createdAtMs)) := justified_of_next hnext
  have harrived : Received e conn envelope :=
    (hdid.received hhandles).mono (hnext.later.trans hlater)
  obtain ⟨data, hmem⟩ := hreceived conn envelope harrived
  obtain ⟨body, hbody, hparsed⟩ := exists_body_of_mem hmem
  exact (hparse body envelope _ hparsed hrequest).trans hbody

/-- When a push fits.  The server reads its requests with `DecodeAll`, and
protobuf writes standard sizes and reads no text that is longer than its input.
Then the receiver's decoder accepts the length of a push exactly if the stored
content, with what the push adds to it, is within the limit. -/
theorem push_fits_iff {parse : Bytes → Option Envelope} {e e' : ServerRun P}
    {t : Thread} {job : Job} {conn : Conn} {envelope : Envelope}
    {push : ChatPush} {fromUid toUid createdAtMs : UInt64}
    {content clientMsgId : Bytes}
    (hserialize : P.serialize = Envelope.serializeToString)
    (hparse : ∀ body envelope request, parse body = some envelope →
      envelope.chatReq? = some request →
        request.content.length ≤ body.length)
    (hreceived : ∀ conn envelope, Received e conn envelope →
      ∃ data, envelope ∈
        (decodeAll ⟨P.serialize, parse⟩ data kDefaultMaxFrameLength).envelopes)
    (hsend : Execution.Next e
      (.execute t job (.sendEnvelope conn envelope) ()) e')
    (hpush : envelope.payload = some (.chatPush push))
    (hstored : OriginStored e.state.store.db push.msgId fromUid toUid content
      clientMsgId createdAtMs) :
    (∀ body, P.serialize envelope = some body →
        body.length ≤ kDefaultMaxFrameLength) ↔
      pushSize push.msgId fromUid toUid content.length envelope.timestampMs
        (if createdAtMs = 0 then push.serverTimestampMs else createdAtMs)
        push.history ≤ kDefaultMaxFrameLength := by
  have hchatPush : envelope.chatPush? = some push := by
    rw [Envelope.chatPush?, hpush]
  obtain ⟨record, ⟨m, hm, horigin, -⟩, ⟨now, stamp, hstamp, rfl⟩, -⟩ :=
    pushOf_known hsend hchatPush
  simp only [pushOf, Option.some.injEq, Payload.chatPush.injEq] at hpush
  have hid : record.msgId = push.msgId := congrArg ChatPush.msgId hpush
  have htime : stamp = push.serverTimestampMs :=
    congrArg ChatPush.serverTimestampMs hpush
  have hsmall : record.content.length ≤ kDefaultMaxFrameLength := by
    simp only [Message.origin, Prod.mk.injEq] at horigin
    rw [horigin.2.2.1]
    exact content_length_le hparse hreceived hm
  have hsame := originStored e.represents hm
  simp only [Message.origin, Prod.mk.injEq] at horigin
  rw [← horigin.1, ← horigin.2.1, ← horigin.2.2.1, ← horigin.2.2.2.1,
    ← horigin.2.2.2.2, hid] at hsame
  obtain ⟨hfrom, hto, hcontent, -, hcreated⟩ := hstored
  obtain ⟨hfrom', hto', hcontent', -, hcreated'⟩ := hsame
  rw [hfrom', Option.some.injEq, toText_inj] at hfrom
  rw [hto', Option.some.injEq, toText_inj] at hto
  rw [hcontent', Option.some.injEq] at hcontent
  rw [hcreated', Option.some.injEq, toText_inj] at hcreated
  have hlimit : record.content.length < 2 ^ 32 := by
    rw [kDefaultMaxFrameLength] at hsmall
    omega
  have hwire := length_wire_pushOf hlimit push.history now stamp
  have hbound := pushSize_le hlimit record.msgId record.fromUid record.toUid
    now stamp push.history
  have hstamp' : (if createdAtMs = 0 then push.serverTimestampMs
      else createdAtMs) = stamp := by
    rw [← hcreated, ← htime]
    split
    · rfl
    · next hne => exact (hstamp hne).symm
  rw [hstamp', ← hfrom, ← hto, ← hcontent, ← hid]
  change _ ↔ pushSize record.msgId record.fromUid record.toUid
    record.content.length now stamp push.history ≤ _
  have hserialized : P.serialize (pushOf record push.history now stamp) =
      some (pushOf record push.history now stamp).wire := by
    rw [hserialize, Envelope.serializeToString, if_pos]
    rw [hwire]
    rw [kDefaultMaxFrameLength] at hsmall
    omega
  rw [hserialized, ← hwire]
  simp only [Option.some.injEq, forall_eq']

/-! ## Notes to self -/

/-- A parser for streams of these envelopes. -/
def parseOf (envelopes : List Envelope) (body : Bytes) : Option Envelope :=
  envelopes.find? fun envelope => envelope.wire = body

theorem content_le_wire {envelope : Envelope} {request : ChatRequest}
    (h : envelope.chatReq? = some request) :
    request.content.length ≤ envelope.wire.length := by
  have hpayload := Envelope.chatReq?_eq_some.mp h
  have htext : request.content.length ≤
      (stringField 3 request.content).length := by
    rw [stringField]
    split
    · next hnil => simp [hnil]
    · simp only [messageField, List.length_append]
      omega
  simp only [Envelope.wire, hpayload, Option.map_some, Option.getD_some,
    Payload.wire, messageField, List.length_append]
  omega

/-- It reads no text that is longer than its input. -/
theorem parseOf_content {envelopes : List Envelope} {body : Bytes}
    {envelope : Envelope} {request : ChatRequest}
    (h : parseOf envelopes body = some envelope)
    (hrequest : envelope.chatReq? = some request) :
    request.content.length ≤ body.length := by
  have hwire := List.find?_some h
  rw [decide_eq_true_eq] at hwire
  rw [← hwire]
  exact content_le_wire hrequest

/-- It reads back what was written, if no two envelopes are written alike. -/
theorem parseOf_wire {envelopes : List Envelope}
    (hdistinct : envelopes.Pairwise fun a b => a.wire ≠ b.wire)
    {envelope : Envelope} (h : envelope ∈ envelopes) :
    parseOf envelopes envelope.wire = some envelope := by
  induction envelopes with
  | nil => cases h
  | cons first rest ih =>
      rw [List.pairwise_cons] at hdistinct
      rw [parseOf, List.find?_cons]
      rcases List.mem_cons.mp h with rfl | hrest
      · simp
      · simp only [hdistinct.1 envelope hrest, decide_false]
        exact ih hdistinct.2 hrest

theorem exists_data_of_wire {envelopes : List Envelope}
    (hdistinct : envelopes.Pairwise fun a b => a.wire ≠ b.wire)
    (hsize : ∀ envelope ∈ envelopes, 1 ≤ envelope.wire.length ∧
      envelope.wire.length ≤ kDefaultMaxFrameLength)
    {envelope : Envelope} (h : envelope ∈ envelopes) :
    ∃ data, envelope ∈ (decodeAll
      ⟨Envelope.serializeToString, parseOf envelopes⟩ data
      kDefaultMaxFrameLength).envelopes := by
  obtain ⟨hpos, hmax⟩ := hsize envelope h
  have hserialize : envelope.serializeToString = some envelope.wire := by
    rw [Envelope.serializeToString, if_pos]
    rw [kDefaultMaxFrameLength] at hmax
    omega
  refine ⟨([envelope].map (encode Envelope.serializeToString)).flatten, ?_⟩
  have hsplit := @split_encode ⟨Envelope.serializeToString, parseOf envelopes⟩
    [envelope] ?_ ?_
  · rw [decodeAll_envelopes, hsplit]
    exact List.mem_cons_self
  · intro envelope' hmem body hbody
    rw [List.mem_singleton.mp hmem] at hbody ⊢
    have hwire : some envelope.wire = some body := hserialize.symm.trans hbody
    rw [Option.some.injEq] at hwire
    rw [← hwire]
    exact parseOf_wire hdistinct h
  · intro envelope' hmem
    rw [List.mem_singleton.mp hmem]
    exact ⟨envelope.wire, hserialize, hpos, hmax⟩

/-- The envelope that a step receives. -/
def ServerLabel.receives : ServerLabel → Option Envelope
  | .receive _ envelope => some envelope
  | _ => none

theorem mem_of_received {e : ServerRun P} {envelopes : List Envelope}
    (h : e.history.reverse.filterMap (fun x => x.2.receives) = envelopes)
    {conn : Conn} {envelope : Envelope} (hreceived : Received e conn envelope) :
    envelope ∈ envelopes := by
  obtain ⟨s, hmem⟩ := hreceived
  rw [← h, List.mem_filterMap]
  exact ⟨_, List.mem_reverse.mpr hmem, rfl⟩

theorem received_of_mem {e : ServerRun P} {envelope : Envelope}
    (h : envelope ∈ e.history.reverse.filterMap fun x => x.2.receives) :
    ∃ conn, Received e conn envelope := by
  rw [List.mem_filterMap] at h
  obtain ⟨⟨s, l⟩, hmem, hl⟩ := h
  cases l with
  | receive conn envelope' =>
      cases hl
      exact ⟨conn, s, List.mem_reverse.mp hmem⟩
  | _ => cases hl

/-- User 1 logs in and writes a note to self; the server is about to push it. -/
def noteToSelfOf (content : Bytes) : List Choice :=
  [.connect 0, .receive 0 (loginAs 1)] ++ complete 0 20 ++
    [.receive 0 (chatFrom 1 1 7 content (literal "a"))] ++ work 0 6

/-- The push of the note. -/
def notePush (content : Bytes) : ChatPush where
  msgId := 1
  fromUid := 1
  toUid := 1
  content := content
  serverTimestampMs := 1000

def noteEnvelope (content : Bytes) : Envelope where
  type := .chatPush
  seq := 1
  timestampMs := 1000
  payload := some (.chatPush (notePush content))

def noteRequests (content : Bytes) : List Envelope :=
  [loginAs 1, chatFrom 1 1 7 content (literal "a")]

theorem push_fits_iff_note :
    ∃ e e' : ServerRun wirePlatform,
      Execution.Next e (.execute (.worker 0)
        ⟨1, .event (.envelope 0
          (chatFrom 1 1 7 (literal "hi") (literal "a")))⟩
        (.sendEnvelope 0 (noteEnvelope (literal "hi"))) ()) e' ∧
      ((∀ body, wirePlatform.serialize (noteEnvelope (literal "hi")) =
          some body → body.length ≤ kDefaultMaxFrameLength) ↔
        pushSize 1 1 1 2 1000 1000 false ≤ kDefaultMaxFrameLength) := by
  obtain ⟨e, hstate, hhistory⟩ :=
    exists_run wirePlatform (noteToSelfOf (literal "hi"))
  have hissues : e.state.issues (.worker 0) = some
      (⟨1, .event (.envelope 0
          (chatFrom 1 1 7 (literal "hi") (literal "a")))⟩,
        .sendEnvelope 0 (noteEnvelope (literal "hi"))) := by
    rw [hstate]
    decide +kernel
  have hstored : OriginStored e.state.store.db 1 1 1 (literal "hi")
      (literal "a") 1000 := by
    rw [hstate, OriginStored]
    decide +kernel
  have hreceives : e.history.reverse.filterMap (fun x => x.2.receives) =
      noteRequests (literal "hi") := by
    rw [hhistory, List.reverse_reverse]
    decide +kernel
  obtain ⟨e', hnext, -⟩ := exists_execute 1000 hissues
  have hiff := push_fits_iff (P := wirePlatform) rfl
    (fun body envelope request => parseOf_content)
    (fun conn envelope hreceived => exists_data_of_wire (by decide) (by decide)
      (mem_of_received hreceives hreceived)) hnext rfl hstored
  rw [if_neg (by decide)] at hiff
  exact ⟨e, e', hnext, hiff⟩

/-- The size of a request for a note. -/
theorem length_wire_request {content : Bytes} (hnil : content ≠ [])
    (hcontent : content.length < 2 ^ 32) :
    (chatFrom 1 1 7 content (literal "a")).wire.length =
      4 + messageSize (7 + messageSize content.length) := by
  have htext := length_stringField (by decide : 3 ≤ 15)
    (lt_trans hcontent (by decide : 2 ^ 32 < 2 ^ 64))
  rw [if_neg hnil] at htext
  have hclient : (stringField 4 (literal "a")).length = 3 := by decide
  have hfrom : (uint64Field 1 1).length = 2 := by decide
  have hto : (uint64Field 2 1).length = 2 := by decide
  have hbody : (uint64Field 1 1 ++ uint64Field 2 1 ++ stringField 3 content ++
      stringField 4 (literal "a")).length = 7 + messageSize content.length := by
    rw [List.length_append, List.length_append, List.length_append, htext,
      hclient, hfrom, hto]
    omega
  have hlength : varintSize content.length ≤ 10 := varintSize_le (by omega)
  have hsmall : 7 + messageSize content.length < 2 ^ 64 := by
    rw [messageSize]
    omega
  have hwire : (chatFrom 1 1 7 content (literal "a")).wire =
      enumField 1 3 ++ uint64Field 2 7 ++ uint64Field 3 0 ++
        messageField 12 (uint64Field 1 1 ++ uint64Field 2 1 ++
          stringField 3 content ++ stringField 4 (literal "a")) := rfl
  have hhead : (enumField 1 3 ++ uint64Field 2 7 ++ uint64Field 3 0).length =
      4 := by decide
  rw [hwire, List.length_append, hhead,
    length_messageField (by decide) (by rw [hbody]; exact hsmall), hbody]

/-- The size of its push. -/
theorem length_wire_noteEnvelope {content : Bytes} (hnil : content ≠ [])
    (hcontent : content.length < 2 ^ 32) :
    (noteEnvelope content).wire.length =
      7 + messageSize (9 + messageSize content.length) := by
  have hform : noteEnvelope content =
      pushOf { msgId := 1, fromUid := 1, toUid := 1, content }
        false 1000 1000 := rfl
  have hone : numberSize 1 = 2 := by decide
  have htime : numberSize 1000 = 3 := by decide
  have hpos : content.length ≠ 0 := by
    rw [ne_eq, List.length_eq_zero_iff]
    exact hnil
  rw [hform, length_wire_pushOf hcontent, pushSize, pushBodySize, hone, htime,
    if_neg hpos]
  have hinner : 2 + 2 + 2 + messageSize content.length + 3 +
      (if (false : Bool) = true then 2 else 0) =
        9 + messageSize content.length := by
    simp only [Bool.false_eq_true, if_false]
    omega
  rw [hinner]

theorem serialize_wire {envelope : Envelope}
    (h : envelope.wire.length < 2 ^ 31) :
    wirePlatform.serialize envelope = some envelope.wire := by
  change Envelope.serializeToString envelope = _
  rw [Envelope.serializeToString, if_pos h]

/-- A note that the server accepts and its writer refuses. -/
theorem refused_of_long {content : Bytes} {e : ServerRun wirePlatform}
    {job : Job}
    (hissues : e.state.issues (.worker 0) =
      some (job, .sendEnvelope 0 (noteEnvelope content)))
    (hreceives : e.history.reverse.filterMap (fun x => x.2.receives) =
      noteRequests content)
    (hrequest : (chatFrom 1 1 7 content (literal "a")).wire.length =
      kDefaultMaxFrameLength)
    (hlong : kDefaultMaxFrameLength < (noteEnvelope content).wire.length)
    (hsmall : (noteEnvelope content).wire.length < 2 ^ 31) :
    ∃ (e' : ServerRun wirePlatform) (parse : Bytes → Option Envelope),
      (∀ conn envelope, Received e conn envelope → ∃ data, envelope ∈
        (decodeAll ⟨wirePlatform.serialize, parse⟩ data
          kDefaultMaxFrameLength).envelopes) ∧
      (∃ conn, Received e conn (chatFrom 1 1 7 content (literal "a"))) ∧
      Execution.Next e (.execute (.worker 0) job
        (.sendEnvelope 0 (noteEnvelope content)) ()) e' ∧
      (∃ body, wirePlatform.serialize (noteEnvelope content) = some body ∧
        kDefaultMaxFrameLength < body.length) ∧
      (decodeAll ⟨wirePlatform.serialize, parse⟩
        (encode wirePlatform.serialize (noteEnvelope content))
        kDefaultMaxFrameLength).status = .invalidLength := by
  have hserialize := serialize_wire hsmall
  obtain ⟨e', hnext, -⟩ := exists_execute 1000 hissues
  refine ⟨e', parseOf (noteRequests content), ?_, ?_, hnext,
    ⟨_, hserialize, hlong⟩, ?_⟩
  · intro conn envelope hreceived
    have hlogin : (loginAs 1).wire.length = 6 := by decide
    refine exists_data_of_wire ?_ ?_ (mem_of_received hreceives hreceived)
    · rw [noteRequests, List.pairwise_pair]
      intro heq
      have hlength := congrArg List.length heq
      rw [hlogin, hrequest, kDefaultMaxFrameLength] at hlength
      omega
    · intro envelope' hmem
      rw [noteRequests, List.mem_pair] at hmem
      rcases hmem with rfl | rfl
      · rw [hlogin, kDefaultMaxFrameLength]
        omega
      · rw [hrequest, kDefaultMaxFrameLength]
        omega
  · apply received_of_mem
    rw [hreceives, noteRequests]
    exact List.mem_cons_of_mem _ List.mem_cons_self
  · exact decodeAll_encode_long hserialize hlong (by omega)

/-- As long as a request can be. -/
def longText : Bytes :=
  List.replicate 1048557 97

theorem length_longText : longText.length = 1048557 := by
  rw [longText, List.length_replicate]

theorem longText_ne_nil : longText ≠ [] := by
  intro hnil
  have hlength := length_longText
  rw [hnil] at hlength
  simp at hlength

theorem length_wire_longRequest :
    (chatFrom 1 1 7 longText (literal "a")).wire.length =
      kDefaultMaxFrameLength := by
  have hcontent : varintSize 1048557 = 3 := by decide
  have hbody : varintSize 1048568 = 3 := by decide
  rw [length_wire_request longText_ne_nil (by rw [length_longText]; omega),
    length_longText]
  norm_num [messageSize, hcontent, hbody, kDefaultMaxFrameLength]

theorem length_wire_longPush :
    (noteEnvelope longText).wire.length = 1048581 := by
  have hcontent : varintSize 1048557 = 3 := by decide
  have hbody : varintSize 1048570 = 3 := by decide
  rw [length_wire_noteEnvelope longText_ne_nil (by rw [length_longText]; omega),
    length_longText]
  norm_num [messageSize, hcontent, hbody]

/-- The request is as long as the server accepts, and the push is longer than
the receiver does. -/
theorem accepted_message_undeliverable :
    ∃ (e e' : ServerRun wirePlatform) (job : Job)
      (parse : Bytes → Option Envelope),
      (∀ conn envelope, Received e conn envelope → ∃ data, envelope ∈
        (decodeAll ⟨wirePlatform.serialize, parse⟩ data
          kDefaultMaxFrameLength).envelopes) ∧
      (∃ conn, Received e conn (chatFrom 1 1 7 longText (literal "a"))) ∧
      Execution.Next e (.execute (.worker 0) job
        (.sendEnvelope 0 (noteEnvelope longText)) ()) e' ∧
      (∃ body, wirePlatform.serialize (noteEnvelope longText) = some body ∧
        kDefaultMaxFrameLength < body.length) ∧
      (decodeAll ⟨wirePlatform.serialize, parse⟩
        (encode wirePlatform.serialize (noteEnvelope longText))
        kDefaultMaxFrameLength).status = .invalidLength := by
  obtain ⟨e, hstate, hhistory⟩ :=
    exists_run wirePlatform (noteToSelfOf longText)
  have hissues : e.state.issues (.worker 0) = some
      (⟨1, .event (.envelope 0 (chatFrom 1 1 7 longText (literal "a")))⟩,
        .sendEnvelope 0 (noteEnvelope longText)) := by
    rw [hstate]
    eq_refl
  have hreceives : e.history.reverse.filterMap (fun x => x.2.receives) =
      noteRequests longText := by
    rw [hhistory, List.reverse_reverse]
    eq_refl
  have hlong : kDefaultMaxFrameLength < (noteEnvelope longText).wire.length := by
    rw [length_wire_longPush, kDefaultMaxFrameLength]
    omega
  have hsmall : (noteEnvelope longText).wire.length < 2 ^ 31 := by
    rw [length_wire_longPush]
    omega
  obtain ⟨e', parse, hrefused⟩ := refused_of_long hissues hreceives
    length_wire_longRequest hlong hsmall
  exact ⟨e, e', _, parse, hrefused⟩

end ReliableDelivery
