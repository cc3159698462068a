import ReliableDelivery.Server.Footprint
import ReliableDelivery.Server.Sessions

/-!
# Requests and replies

A handler answers the envelope it handles, unless this is an acknowledgement or a
heartbeat, once and on the connection of the envelope.  Everything else that the
server sends is a push.  Since the envelopes of a connection are handled one at a
time, the replies on a connection come in the order of the requests.
-/

namespace ReliableDelivery

open Decimal Redis MessageStore EnvelopeFactory Program TransitionSystem

/-- A CHAT_PUSH with a push in it. -/
def Envelope.isPush (envelope : Envelope) : Bool :=
  envelope.type = .chatPush && envelope.chatPush?.isSome

def Envelope.awaitsReply (envelope : Envelope) : Bool :=
  envelope.type ≠ .ack && envelope.type ≠ .heartbeat

/-- A login is answered with a LOGIN_RESP, any other request with an ACK, which is
negative if the server does not know what to do with the request. -/
def Envelope.Answers (reply request : Envelope) : Prop :=
  reply.seq = request.seq ∧
    (request.type = .loginReq ∧ reply.type = .loginResp ∧
        (∃ response, reply.payload = some (.loginResp response)) ∨
      request.type ≠ .loginReq ∧ reply.type = .ack ∧
        ∃ ack, reply.payload = some (.ack ack) ∧ ack.seq = request.seq ∧
          (request.type ≠ .chatReq → ack.ok = false))

def Replies : Command → Prop
  | .sendEnvelope _ envelope => envelope.isPush = false
  | _ => False

def RepliesTo (conn : Conn) (request : Envelope) (command : Command) : Prop :=
  ∃ reply, command = .sendEnvelope conn reply ∧ reply.Answers request

/-- The program sends nothing but pushes. -/
def Mute {α : Type} (p : Handler α) : Prop :=
  Avoids (fun _ _ => True) Replies (fun _ => True) p

section Combinators

variable {α β : Type}

theorem mute_done (a : α) : Mute (.done a : Handler α) :=
  avoids_done.mpr trivial

theorem Mute.bind {p : Handler α} {f : α → Handler β} (hp : Mute p)
    (hf : ∀ a, Mute (f a)) : Mute (p.bind f) :=
  Avoids.bind hp fun a _ => hf a

theorem mute_perform {command : Command} (h : ¬Replies command) :
    Mute (perform command) :=
  (Program.avoids_perform h).weaken fun _ _ => trivial

theorem mute_forEach {xs : List β} {body : β → Handler Unit}
    (hbody : ∀ x, Mute (body x)) : Mute (forEach xs body) :=
  avoids_forEach fun x _ => hbody x

end Combinators

/-! ## Pushes -/

theorem mute_nowMs : Mute Handler.nowMs :=
  mute_perform id

theorem mute_redis (request : RedisRequest) : Mute (perform (.redis request)) :=
  mute_perform id

theorem mute_collectRecords (keep : MessageRecord → Bool) (elements : List Reply) :
    Mute (collect elements (fetchElement keep) : Handler _) := by
  have hfetch : ∀ element ∈ elements, Avoids (fun _ _ => True) Replies
      (fun o => ∀ record ∈ o, True) (fetchElement keep element : Handler _) := by
    intro element _
    have hmute : Mute (fetchElement keep element : Handler _) := by
      rw [fetchElement]
      split
      · exact mute_done _
      · next msgId _ =>
          have hrecord : Mute (fetchRecord msgId : Handler _) := by
            rw [fetchRecord]
            split
            · exact mute_done _
            · exact (mute_redis _).bind fun _ => mute_done _
          exact hrecord.bind fun _ => mute_done _
    exact Avoids.weaken hmute fun _ _ _ _ => trivial
  exact (avoids_collect (fun _ => True) hfetch).weaken fun _ _ => trivial

theorem mute_evalMsgState (script : MsgStateScript) (msgId : UInt64) :
    Mute (evalMsgState script msgId : Handler _) :=
  mute_nowMs.bind fun _ => (mute_redis _).bind fun _ => mute_done _

theorem mute_onlineTarget (uid : UInt64) : Mute (onlineTarget uid) := by
  apply (mute_perform id).bind
  intro target
  cases target with
  | none => exact mute_done _
  | some conn => exact (mute_perform id).bind fun _ => mute_done _

/-- What is made of a record is a push. -/
theorem mute_push (conn : Conn) (record : MessageRecord) (history : Bool) :
    Mute ((createRecordPush record history).bind (sendEnvelope conn)) := by
  have hpush : Avoids (fun _ _ => True) Replies
      (fun envelope => envelope.isPush = true) (createRecordPush record history) := by
    apply Avoids.bind mute_nowMs
    intro now _
    by_cases hstamp : record.createdAtMs = 0
    · rw [if_pos hstamp]
      exact Avoids.bind mute_nowMs fun stamp _ => avoids_done.mpr rfl
    · rw [if_neg hstamp]
      exact avoids_done.mpr rfl
  refine hpush.bind fun envelope henvelope => mute_perform fun hreplies => ?_
  cases hreplies.symm.trans henvelope

theorem mute_pushAndMark (conn : Conn) (record : MessageRecord) :
    Mute (pushAndMark conn record) := by
  have hmark : Mute (((createRecordPush record false).bind (sendEnvelope conn)).bind
      fun _ => (markDelivered record.msgId : Handler _).bind fun _ => .done true) :=
    (mute_push conn record false).bind fun _ =>
      (mute_evalMsgState _ record.msgId).bind fun _ => mute_done _
  rw [bind_assoc] at hmark
  exact hmark

theorem mute_tryDeliverMessage (record : MessageRecord) :
    Mute (tryDeliverMessage record) := by
  rw [tryDeliverMessage]
  split
  · exact mute_done _
  · apply (mute_onlineTarget record.toUid).bind
    intro target
    cases target with
    | none => exact (mute_evalMsgState _ record.msgId).bind fun _ => mute_done _
    | some conn => exact mute_pushAndMark conn record

theorem mute_retryDeliverMessage (record : MessageRecord) :
    Mute (retryDeliverMessage record) := by
  rw [retryDeliverMessage]
  split
  · exact mute_done _
  · apply (mute_onlineTarget record.toUid).bind
    intro target
    cases target with
    | none => exact (mute_evalMsgState _ record.msgId).bind fun _ => mute_done _
    | some conn =>
        have hretry : Mute (incrementRetryCount record.msgId : Handler _) :=
          (mute_redis _).bind fun _ => mute_done _
        exact hretry.bind fun _ => mute_pushAndMark conn record

theorem mute_deliverLoginMessages (uid : UInt64) :
    Mute (deliverLoginMessages uid) := by
  have hpending : Mute (deliverPendingMessages uid) := by
    have hread : Mute (getPendingMessages uid : Handler _) :=
      (mute_redis _).bind fun _ => mute_collectRecords _ _
    apply hread.bind
    intro records
    have hloop : Mute (forEach records fun record => do
        let _ ← tryDeliverMessage record
        pure ()) :=
      mute_forEach fun record =>
        (mute_tryDeliverMessage record).bind fun _ => mute_done _
    exact hloop.bind fun _ => mute_done _
  have hrecent : Mute (sendRecentMessages uid kLoginRecentMessageLimit) := by
    have hread : Mute
        (getRecentMessages uid kLoginRecentMessageLimit : Handler _) := by
      rw [getRecentMessages]
      split
      · exact mute_done _
      · exact (mute_redis _).bind fun reply =>
          (mute_collectRecords _ _).bind fun _ => mute_done _
    apply hread.bind
    intro records
    apply (mute_onlineTarget uid).bind
    intro target
    cases target with
    | none => exact mute_done _
    | some conn => exact mute_forEach fun record => mute_push conn record true
  apply hpending.bind
  intro delivered
  split
  · exact mute_done _
  · exact hrecent

theorem mute_deliveryScan : Mute deliveryScan := by
  apply mute_nowMs.bind
  intro now
  have hread : Mute (getTimeoutDeliveredMessages now kAckTimeoutMs : Handler _) :=
    (mute_redis _).bind fun _ => mute_collectRecords _ _
  apply hread.bind
  intro records
  apply mute_forEach
  intro record
  split
  · exact (mute_evalMsgState _ record.msgId).bind fun _ => mute_done _
  · exact (mute_retryDeliverMessage record).bind fun _ => mute_done _

theorem mute_handleAck (conn : Conn) (envelope : Envelope) :
    Mute (handleAck conn envelope) := by
  rw [handleAck]
  split
  · exact mute_done _
  · next ack _ =>
      split
      · exact mute_done _
      · apply (mute_perform id).bind
        intro uid
        split
        · exact mute_done _
        · have hmark : Mute (markAcked ack.msgId uid : Handler _) :=
            mute_nowMs.bind fun _ => (mute_redis _).bind fun _ => mute_done _
          exact hmark.bind fun _ => mute_done _

/-! ## Replies -/

section Handlers

variable {conn : Conn} {request : Envelope}

theorem once_sendAck {msgId : UInt64} {ok : Bool} {reason : Bytes}
    (htype : request.type ≠ .loginReq) (hok : request.type ≠ .chatReq → ok = false) :
    Once Replies (RepliesTo conn request)
      ((createAck request.seq msgId ok reason : Handler _).bind
        (sendEnvelope conn)) := by
  apply mute_nowMs.once_bind
  intro now
  refine once_first rfl ⟨_, rfl, rfl, .inr ⟨htype, rfl, _, rfl, rfl, hok⟩⟩ ?_
  exact fun _ => mute_done _

theorem once_sendErrorAck {reason : Bytes} (htype : request.type ≠ .loginReq) :
    Once Replies (RepliesTo conn request)
      (sendErrorAck conn request.seq reason) :=
  once_sendAck htype fun _ => rfl

theorem once_handleLogin (htype : request.type = .loginReq) :
    Once Replies (RepliesTo conn request) (handleLogin conn request) := by
  have hbind : Mute (bindLogin conn (request.loginReq?.getD {}).uid) := by
    rw [bindLogin]
    split
    · exact mute_done _
    · exact (mute_perform id).bind fun _ => mute_done _
  apply hbind.once_bind
  intro result
  apply mute_nowMs.once_bind
  intro now
  refine once_first rfl ⟨_, rfl, rfl, .inl ⟨htype, rfl, _, rfl⟩⟩ ?_
  intro _
  change Mute (if result.1 then deliverLoginMessages _ else .done ())
  split
  · exact mute_deliverLoginMessages _
  · exact mute_done _

theorem once_handleChat (htype : request.type = .chatReq) :
    Once Replies (RepliesTo conn request) (handleChat conn request) := by
  have hlogin : request.type ≠ .loginReq := by simp [htype]
  have hchat : ∀ ok : Bool, request.type ≠ .chatReq → ok = false :=
    fun ok hne => absurd htype hne
  have hstore : ∀ chat, Once Replies (RepliesTo conn request)
      (storeAndDeliver conn request.seq chat) := by
    intro chat
    have hcreate : Mute (createMessage chat.fromUid chat.toUid chat.content
        chat.clientMsgId : Handler _) :=
      mute_nowMs.bind fun _ => (mute_redis _).bind fun _ => mute_done _
    apply hcreate.once_bind
    intro result
    split
    · exact once_sendErrorAck hlogin
    · split
      · exact once_sendAck hlogin (hchat _)
      · exact (mute_tryDeliverMessage _).once_bind fun _ =>
          once_sendAck hlogin (hchat _)
  rw [handleChat]
  split
  · exact once_sendErrorAck hlogin
  · apply (mute_perform id).once_bind
    intro uid
    split
    · exact once_sendErrorAck hlogin
    · split
      · exact once_sendErrorAck hlogin
      · exact hstore _

/-- A job answers the envelope that it handles. -/
theorem once_code {job : Job} (hhandles : Handles job conn request)
    (hawaits : request.awaitsReply = true) :
    Once Replies (RepliesTo conn request) job.code := by
  have hcode : job.code = handle (.envelope conn request) := by
    rw [Job.code, show job.task = .event (.envelope conn request) from hhandles]
  rw [hcode, handle]
  split
  · next htype => exact once_handleLogin htype
  · next htype => exact once_handleChat htype
  · next htype => simp [Envelope.awaitsReply, htype] at hawaits
  · next htype => simp [Envelope.awaitsReply, htype] at hawaits
  · next hlogin _ _ _ => exact once_sendErrorAck hlogin

/-- A job without an envelope that awaits a reply sends none. -/
theorem mute_code {job : Job}
    (hnone : ∀ conn request, Handles job conn request →
      request.awaitsReply = false) : Mute job.code := by
  rw [Job.code]
  split
  · next event hevent =>
      cases event with
      | connectionClosed conn => exact mute_perform id
      | envelope conn request =>
          have hawaits := hnone conn request hevent
          rw [handle]
          split
          · next htype => simp [Envelope.awaitsReply, htype] at hawaits
          · next htype => simp [Envelope.awaitsReply, htype] at hawaits
          · exact mute_handleAck conn request
          · exact mute_perform id
          · next hack hheartbeat =>
              have htrue : request.awaitsReply = true := by
                rw [Envelope.awaitsReply, Bool.and_eq_true, decide_eq_true_eq,
                  decide_eq_true_eq]
                exact ⟨hack, hheartbeat⟩
              cases hawaits.symm.trans htrue
  · exact mute_deliveryScan

end Handlers

/-! ## Runs -/

variable {P : Platform}

def ServerEvent.request : ServerEvent → Option Envelope
  | .envelope _ x => if x.awaitsReply then some x else none
  | .connectionClosed _ => none

def ServerLabel.reply (c : Conn) : ServerLabel → Option Envelope
  | .execute _ _ (.sendEnvelope conn envelope) _ =>
      if conn = c ∧ envelope.isPush = false then some envelope else none
  | _ => none

namespace ServerRun

/-- What was received on the connection and awaits a reply, in order. -/
def requestsOn (e : ServerRun P) (c : Conn) : List Envelope :=
  (e.enqueuedFor c).filterMap ServerEvent.request

/-- What was sent on the connection apart from pushes, in order. -/
def repliesOn (e : ServerRun P) (c : Conn) : List Envelope :=
  e.log (ServerLabel.reply c)

end ServerRun

section Runs

variable {e e' : ServerRun P} {l : ServerLabel} {c : Conn}

/-- Any job that runs has a reply to send, or none any more. -/
theorem mute_or_once {t : Thread} {job : Job} {code : Handler Unit}
    (hrunning : e.state.running t = some (job, code)) :
    Mute code ∨ ∃ conn request, Handles job conn request ∧
      request.awaitsReply = true ∧ Once Replies (RepliesTo conn request) code := by
  refine @ThreadPool.running_induct _ _ _ _ _ _ _ (serverThreads P) job
    (fun code => Mute code ∨ ∃ conn request, Handles job conn request ∧
      request.awaitsReply = true ∧ Once Replies (RepliesTo conn request) code)
    (fun _ _ => True) ?_ ?_ e t code hrunning fun _ _ _ _ _ => trivial
  · by_cases h : ∃ conn request, Handles job conn request ∧ request.awaitsReply = true
    · obtain ⟨conn, request, hhandles, hawaits⟩ := h
      exact .inr ⟨conn, request, hhandles, hawaits, once_code hhandles hawaits⟩
    · refine .inl (mute_code fun conn request hhandles => ?_)
      by_contra hawaits
      exact h ⟨conn, request, hhandles, Bool.not_eq_false _ ▸ hawaits⟩
  · rintro command next answer - (hmute | ⟨conn, request, hhandles, hawaits, honce⟩)
    · exact .inl ((avoids_call.mp hmute).2 answer trivial)
    · rcases once_call.mp honce with ⟨-, -, hmute⟩ | ⟨-, hnext⟩
      · exact .inl (hmute answer)
      · exact .inr ⟨conn, request, hhandles, hawaits, hnext answer⟩

/-- Only the worker of a connection replies on it, and only to an envelope of it. -/
theorem event_of_reply {t : Thread} {job : Job} {command : Command}
    {next : command.Answer → Handler Unit} {answer : command.Answer}
    {reply : Envelope}
    (hrunning : e.state.running t = some (job, .call command next))
    (hreply : ServerLabel.reply c (.execute t job command answer) = some reply) :
    ∃ request, job.eventOf c = some (.envelope c request) := by
  unfold ServerLabel.reply at hreply
  split at hreply
  · next t' job' conn envelope answer' heq =>
      cases heq
      split at hreply
      · next hc =>
          cases hreply
          obtain ⟨rfl, hpush⟩ := hc
          rcases mute_or_once hrunning with
            hmute | ⟨conn', request, hhandles, -, honce⟩
          · exact absurd hpush (avoids_call.mp hmute).1
          · rcases once_call.mp honce with ⟨-, ⟨reply', heq, -⟩, -⟩ | ⟨hnot, -⟩
            · cases heq
              exact ⟨request, Job.eventOf_eq_some.mpr ⟨hhandles, rfl⟩⟩
            · exact absurd hpush hnot
      · cases hreply
  · cases hreply

/-- The replies on the connection answer the requests that have been handled, and
the pending one, which is in hand and has been answered. -/
structure InTurn (e : ServerRun P) (c : Conn) (pending : List Envelope) : Prop where
  replied : List.Forall₂ Envelope.Answers (e.repliesOn c)
    ((e.handledFor c).filterMap ServerEvent.request ++ pending)
  idle : e.state.inHandFor P c = [] → pending = []
  busy : ∀ job code event,
    e.state.running (.worker (ServerState.shard P c)) = some (job, code) →
    job.eventOf c = some event →
      pending = [] ∧ (∃ request, event.request = some request ∧
          Once Replies (RepliesTo c request) code) ∨
        pending = event.request.toList ∧ Mute code

theorem repliesOn_next (hnext : Execution.Next e l e') :
    e'.repliesOn c = e.repliesOn c ++ (l.reply c).toList :=
  Execution.log_next hnext

theorem handledFor_next (hnext : Execution.Next e l e') :
    e'.handledFor c = e.handledFor c ++ (l.handled c).toList :=
  Execution.log_next hnext

/-- As long as nothing is sent and nothing is done with, the replies are in turn. -/
theorem InTurn.still {pending : List Envelope} (h : InTurn e c pending)
    (hnext : Execution.Next e l e') (hreply : l.reply c = none)
    (hhandled : l.handled c = none) :
    List.Forall₂ Envelope.Answers (e'.repliesOn c)
      ((e'.handledFor c).filterMap ServerEvent.request ++ pending) := by
  rw [repliesOn_next hnext, handledFor_next hnext, hreply, hhandled]
  simpa using h.replied

/-- A step that neither replies on the connection nor has to do with its worker. -/
theorem InTurn.frame {pending : List Envelope} (h : InTurn e c pending)
    (hnext : Execution.Next e l e') (hreply : l.reply c = none)
    (hhandled : l.handled c = none)
    (hrunning : e'.state.running (.worker (ServerState.shard P c)) =
      e.state.running (.worker (ServerState.shard P c))) : InTurn e' c pending := by
  refine ⟨h.still hnext hreply hhandled, ?_, ?_⟩
  · rw [ServerState.inHandFor, hrunning]
    exact h.idle
  · rw [hrunning]
    exact h.busy

theorem inHandFor_of_running {s : ServerState} {job : Job} {code : Handler Unit}
    (hrunning : s.running (.worker (ServerState.shard P c)) = some (job, code)) :
    s.inHandFor P c = (job.eventOf c).toList := by
  rw [ServerState.inHandFor, hrunning]
  rfl

/-- The worker of the connection begins a job. -/
theorem InTurn.begin {pending : List Envelope} {job : Job} (h : InTurn e c pending)
    (hnext : Execution.Next e
      (.begin (.worker (ServerState.shard P c)) job) e')
    (hidle : e.state.running (.worker (ServerState.shard P c)) = none)
    (hrunning : e'.state.running (.worker (ServerState.shard P c)) =
      some (job, job.code)) : InTurn e' c [] := by
  have hpending : pending = [] := h.idle (by rw [ServerState.inHandFor, hidle]; rfl)
  subst hpending
  refine ⟨h.still hnext rfl rfl, fun _ => rfl, ?_⟩
  intro job' code event hrunning' hevent
  cases hrunning.symm.trans hrunning'
  obtain ⟨htask, hconn⟩ := Job.eventOf_eq_some.mp hevent
  cases hrequest : event.request with
  | some request =>
      refine .inl ⟨rfl, request, rfl, ?_⟩
      cases event with
      | connectionClosed conn => cases hrequest
      | envelope conn x =>
          obtain rfl : conn = c := hconn
          rw [ServerEvent.request, Option.ite_none_right_eq_some] at hrequest
          obtain ⟨hawaits, ⟨⟩⟩ := hrequest
          exact once_code htask hawaits
  | none =>
      refine .inr ⟨rfl, mute_code fun conn request hhandles => ?_⟩
      rw [Handles, htask] at hhandles
      cases hhandles
      by_contra hawaits
      rw [ServerEvent.request, if_pos (Bool.not_eq_false _ ▸ hawaits)] at hrequest
      cases hrequest

/-- The worker of the connection is done with a job. -/
theorem InTurn.finish {pending : List Envelope} {job : Job} (h : InTurn e c pending)
    (hnext : Execution.Next e
      (.finish (.worker (ServerState.shard P c)) job) e')
    (hrunning : e.state.running (.worker (ServerState.shard P c)) =
      some (job, .done ()))
    (hidle : e'.state.running (.worker (ServerState.shard P c)) = none) :
    InTurn e' c [] := by
  refine ⟨?_, fun _ => rfl, fun job' code event hrunning' _ => ?_⟩
  · cases hevent : job.eventOf c with
    | none =>
        have hpending : pending = [] := h.idle (by
          rw [inHandFor_of_running hrunning, hevent]
          rfl)
        rw [← hpending]
        exact h.still hnext rfl hevent
    | some event =>
        rcases h.busy job _ event hrunning hevent with
          ⟨-, request, -, honce⟩ | ⟨rfl, -⟩
        · exact honce.elim
        · have hhandled : (ServerLabel.finish (.worker (ServerState.shard P c))
              job).handled c = some event := hevent
          rw [repliesOn_next hnext, handledFor_next hnext, hhandled,
            Option.toList_some, List.filterMap_append, List.append_nil]
          have hone : [event].filterMap ServerEvent.request =
              event.request.toList := by
            cases hrequest : event.request with
            | none => exact List.filterMap_cons_none hrequest
            | some request => exact List.filterMap_cons_some hrequest
          rw [hone]
          simpa [ServerLabel.reply] using h.replied
  · rw [hidle] at hrunning'
    cases hrunning'

/-- The worker of the connection issues a command. -/
theorem InTurn.execute {pending : List Envelope} {job : Job} {command : Command}
    {next : command.Answer → Handler Unit} {answer : command.Answer}
    (h : InTurn e c pending)
    (hnext : Execution.Next e (.execute (.worker (ServerState.shard P c)) job command
      answer) e')
    (hrunning : e.state.running (.worker (ServerState.shard P c)) =
      some (job, .call command next))
    (hafter : e'.state.running (.worker (ServerState.shard P c)) =
      some (job, next answer)) : ∃ pending', InTurn e' c pending' := by
  have hquiet : ServerLabel.reply c (.execute (.worker (ServerState.shard P c)) job
      command answer) = none →
      (∀ event, job.eventOf c = some event →
        pending = [] ∧ (∃ request, event.request = some request ∧
            Once Replies (RepliesTo c request) (next answer)) ∨
          pending = event.request.toList ∧ Mute (next answer)) →
      InTurn e' c pending := by
    intro hreply hbusy
    refine ⟨h.still hnext hreply rfl, ?_, ?_⟩
    · rw [inHandFor_of_running hafter, ← inHandFor_of_running hrunning]
      exact h.idle
    · intro job' code event hrunning' hevent
      cases hafter.symm.trans hrunning'
      exact hbusy event hevent
  have hmute : ¬Replies command → ServerLabel.reply c
      (.execute (.worker (ServerState.shard P c)) job command answer) = none := by
    intro hnot
    rw [ServerLabel.reply.eq_def]
    split
    · next t' job' conn envelope answer' heq =>
        cases heq
        exact if_neg fun hc => hnot hc.2
    · rfl
  cases hevent : job.eventOf c with
  | none =>
      refine ⟨pending, hquiet ?_ (by simp [hevent])⟩
      rw [Option.eq_none_iff_forall_ne_some]
      intro reply hreply
      obtain ⟨request, hsome⟩ := event_of_reply hrunning hreply
      cases hevent.symm.trans hsome
  | some event =>
      rcases h.busy job _ event hrunning hevent with
        ⟨rfl, request, hrequest, honce⟩ | ⟨rfl, hsilent⟩
      · rcases once_call.mp honce with ⟨hreplies, ⟨reply, rfl, hanswers⟩, hnext'⟩ |
          ⟨hnot, hnext'⟩
        · refine ⟨[request], ?_, ?_, ?_⟩
          · have hreply : ServerLabel.reply c
                (.execute (.worker (ServerState.shard P c)) job
                  (.sendEnvelope c reply) answer) = some reply :=
              if_pos ⟨rfl, hreplies⟩
            have hhandled : ServerLabel.handled c
                (.execute (.worker (ServerState.shard P c)) job
                  (.sendEnvelope c reply) answer) = none := rfl
            rw [repliesOn_next hnext, handledFor_next hnext, hreply, hhandled]
            have hbefore := h.replied
            rw [List.append_nil] at hbefore
            simpa using List.rel_append hbefore (.cons hanswers .nil)
          · rw [inHandFor_of_running hafter, hevent]
            exact nofun
          · intro job' code event' hrunning' hevent'
            cases hafter.symm.trans hrunning'
            cases hevent.symm.trans hevent'
            exact .inr ⟨by rw [hrequest]; rfl, hnext' answer⟩
        · refine ⟨[], hquiet (hmute hnot) ?_⟩
          intro event' hevent'
          cases hevent.symm.trans hevent'
          exact .inl ⟨rfl, request, hrequest, hnext' answer⟩
      · obtain ⟨hnot, hnext'⟩ := avoids_call.mp hsilent
        refine ⟨_, hquiet (hmute hnot) ?_⟩
        intro event' hevent'
        cases hevent.symm.trans hevent'
        exact .inr ⟨rfl, hnext' answer trivial⟩

theorem in_turn (e : ServerRun P) (c : Conn) : ∃ pending, InTurn e c pending := by
  apply Execution.induct (P := fun e : ServerRun P => ∃ pending, InTurn e c pending)
  · intro e hnil hinit
    have hs : e.state = {} := hinit
    refine ⟨[], ?_, fun _ => rfl, ?_⟩
    · rw [ServerRun.repliesOn, ServerRun.handledFor, Execution.log_init hnil,
        Execution.log_init hnil]
      exact .nil
    · intro job code event hrunning
      rw [hs] at hrunning
      cases hrunning
  · rintro e e' l ⟨pending, h⟩ hnext
    have hassigned := ServerRun.assigned e
    have hstep : ServerStep P e.state l e'.state := hnext.1
    generalize hs' : e'.state = s' at hstep
    cases hstep with
    | beginEvent i job rest hidle hqueue =>
        by_cases hi : i = ServerState.shard P c
        · subst hi
          refine ⟨[], h.begin hnext hidle ?_⟩
          rw [hs', ServerState.setRunning]
          exact Function.update_self ..
        · refine ⟨pending, h.frame hnext rfl rfl ?_⟩
          have hne : Thread.worker (ServerState.shard P c) ≠ .worker i := by
            simpa using fun heq => hi heq.symm
          rw [hs', ServerState.setRunning_of_ne _ hne]
    | beginScan hidle =>
        refine ⟨pending, h.frame hnext rfl rfl ?_⟩
        have hne : Thread.worker (ServerState.shard P c) ≠ .delivery := by simp
        rw [hs', ServerState.setRunning_of_ne _ hne]
    | execute t job command next answer s'' hrunning heffect =>
        by_cases ht : t = .worker (ServerState.shard P c)
        · subst ht
          refine h.execute hnext hrunning ?_
          rw [hs', ServerState.setRunning]
          exact Function.update_self ..
        · refine ⟨pending, h.frame hnext ?_ rfl ?_⟩
          · rw [Option.eq_none_iff_forall_ne_some]
            intro reply hreply
            obtain ⟨request, hevent⟩ := event_of_reply hrunning hreply
            exact ht ((hassigned.running t job _ hrunning).symm.trans
              (Job.thread_of_eventOf hevent))
          · rw [hs', ServerState.setRunning_of_ne _ (Ne.symm ht), heffect.threads.1]
    | finish t job hrunning =>
        by_cases ht : t = .worker (ServerState.shard P c)
        · subst ht
          refine ⟨[], h.finish hnext hrunning ?_⟩
          rw [hs', ServerState.setRunning]
          exact Function.update_self ..
        · refine ⟨pending, h.frame hnext rfl ?_ ?_⟩
          · change job.eventOf c = none
            rw [Option.eq_none_iff_forall_ne_some]
            intro event hevent
            exact ht ((hassigned.running t job _ hrunning).symm.trans
              (Job.thread_of_eventOf hevent))
          · rw [hs', ServerState.setRunning_of_ne _ (Ne.symm ht)]
    | shutdown conn =>
        refine ⟨pending, h.frame hnext rfl rfl ?_⟩
        rw [hs', ServerState.shutdown]
        split
        · rfl
        · rfl
    | receive conn envelope hphase =>
        refine ⟨pending, h.frame hnext rfl rfl ?_⟩
        rw [hs']
        rfl
    | notifyClosed conn hphase =>
        refine ⟨pending, h.frame hnext rfl rfl ?_⟩
        rw [hs']
        rfl
    | _ => exact ⟨pending, h.frame hnext rfl rfl (by rw [hs'])⟩

/-- What is sent and is no reply is a push. -/
theorem isPush_of_sent {t : Thread} {job : Job} {conn : Conn} {envelope : Envelope}
    (hsend : Execution.Next e (.execute t job (.sendEnvelope conn envelope) ()) e')
    (hlogin : envelope.type ≠ .loginResp) (hack : envelope.type ≠ .ack) :
    ∃ push, envelope.payload = some (.chatPush push) := by
  have hstep : ServerStep P e.state (.execute t job (.sendEnvelope conn envelope) ())
      e'.state := hsend.1
  obtain ⟨next, -, hrunning, -, -⟩ := hstep.execute_inv
  have hpush : envelope.isPush = true := by
    by_contra hnot
    rw [Bool.not_eq_true] at hnot
    have hreplies : Replies (.sendEnvelope conn envelope) := hnot
    rcases mute_or_once hrunning with hmute | ⟨conn', request, -, -, honce⟩
    · exact (avoids_call.mp hmute).1 hreplies
    · rcases once_call.mp honce with
        ⟨-, ⟨reply, heq, -, ⟨-, htype, -⟩ | ⟨-, htype, -⟩⟩, -⟩ | ⟨hnone, -⟩
      · cases heq
        exact hlogin htype
      · cases heq
        exact hack htype
      · exact hnone hreplies
  rw [Envelope.isPush, Bool.and_eq_true] at hpush
  obtain ⟨push, hsome⟩ := Option.isSome_iff_exists.mp hpush.2
  exact ⟨push, Envelope.chatPush?_eq_some.mp hsome⟩

end Runs

/-- The request that has been answered without being done with is in hand. -/
theorem InTurn.pending_prefix {e : ServerRun P} {c : Conn} {pending : List Envelope}
    (h : InTurn e c pending) :
    pending <+: (e.state.inHandFor P c).filterMap ServerEvent.request := by
  cases hbusy : (e.state.inHandFor P c) with
  | nil =>
      rw [h.idle hbusy]
      exact List.nil_prefix
  | cons event rest =>
      have hmem : event ∈ e.state.inHandFor P c := by simp [hbusy]
      rw [ServerState.inHandFor, Option.mem_toList, Option.bind_eq_some_iff] at hmem
      obtain ⟨⟨job, code⟩, hrunning, hevent⟩ := hmem
      rcases h.busy job code event hrunning hevent with ⟨rfl, -⟩ | ⟨rfl, -⟩
      · exact List.nil_prefix
      · cases hrequest : event.request with
        | none => exact List.nil_prefix
        | some request =>
            rw [List.filterMap_cons_some hrequest]
            exact List.prefix_append [request] _

/-- Requests are answered once and in order.  In every run, the replies on a
connection answer, one by one, the first of the requests received on it: all those
that have been handled, and no others but the one in hand. -/
theorem requests_answered_in_order (e : ServerRun P) (c : Conn) :
    ∃ answered, (e.handledFor c).filterMap ServerEvent.request <+: answered ∧
      answered <+: (e.handledFor c).filterMap ServerEvent.request ++
        (e.state.inHandFor P c).filterMap ServerEvent.request ∧
      (e.state.inHandFor P c).length ≤ 1 ∧
      answered <+: e.requestsOn c ∧
      List.Forall₂ Envelope.Answers (e.repliesOn c) answered := by
  obtain ⟨pending, h⟩ := in_turn e c
  have hbound : (e.handledFor c).filterMap ServerEvent.request ++ pending <+:
      (e.handledFor c).filterMap ServerEvent.request ++
        (e.state.inHandFor P c).filterMap ServerEvent.request :=
    (List.prefix_append_right_inj _).mpr h.pending_prefix
  have hreceived : (e.handledFor c).filterMap ServerEvent.request ++
      (e.state.inHandFor P c).filterMap ServerEvent.request <+: e.requestsOn c := by
    rw [ServerRun.requestsOn, ServerRun.enqueuedFor_eq, List.filterMap_append,
      List.filterMap_append]
    exact (List.prefix_append_right_inj _).mpr (List.prefix_append _ _)
  exact ⟨_, List.prefix_append _ pending, hbound, Option.length_toList_le,
    hbound.trans hreceived, h.replied⟩

end ReliableDelivery
