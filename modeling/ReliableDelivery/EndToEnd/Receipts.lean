import ReliableDelivery.Client.Receipts
import ReliableDelivery.EndToEnd.ExactlyOnce
import ReliableDelivery.EndToEnd.Schedule
import ReliableDelivery.Server.Confirmation
import ReliableDelivery.Server.Identity

/-!
# What an acknowledgement stands for

A message that is marked as acknowledged over a connection of the client process is in
the message queue of its receiver, as it was stored.  Others may send over their own
connections what they like.
-/

namespace ReliableDelivery

open Decimal Redis MessageStore TransitionSystem Program

variable {P : Platform} {S : Sessions}

namespace WorldRun

open ProcessRun (Begun)

section Written

variable {w : WorldRun P S} {conn : Conn} {envelope : Envelope}

/-- A client logs in as its own user. -/
theorem session_of_login (hreceived : Received w.server conn envelope)
    (htype : envelope.type = .loginReq) (huid : envelope.loginUid ≠ 0)
    (hown : S conn ≠ none) : S conn = some envelope.loginUid := by
  obtain ⟨job, hwrote⟩ := wrote_of_received hreceived hown
  obtain ⟨rfl, hwrites⟩ := ProcessRun.mayWrite_of_send w.client hwrote
  rcases hwrites with hpayload | hrequest | hconfirms
  · rw [(ProcessRun.begun_of_mem_trace w.client hwrote).session, Envelope.loginUid,
      Envelope.loginReq?, hpayload]
    rfl
  · rw [hrequest] at htype
    cases htype
  · obtain ⟨received, push, -, -, -, -, hpayload, -⟩ := hconfirms
    rw [Envelope.loginUid, Envelope.loginReq?, hpayload] at huid
    exact absurd rfl huid

/-- An acknowledgement is written for a push in the message queue. -/
theorem push_of_ack {ack : Ack} (hreceived : Received w.server conn envelope)
    (htype : envelope.type = .ack) (hack : envelope.ack? = some ack)
    (hown : S conn ≠ none) :
    ∃ received ∈ (w.state.process.clients conn).messageQueue, ∃ push,
      received.type = .chatPush ∧ received.chatPush? = some push ∧
      push.history = false ∧ push.msgId = ack.msgId ∧ Sent w conn received := by
  obtain ⟨job, hwrote⟩ := wrote_of_received hreceived hown
  obtain ⟨rfl, hwrites⟩ := ProcessRun.mayWrite_of_send w.client hwrote
  rcases hwrites with hpayload | hrequest | hconfirms
  · rw [Envelope.ack?, hpayload] at hack
    cases hack
  · rw [hrequest] at htype
    cases htype
  · obtain ⟨received, push, htask, hpushType, hpush, hhistory, hpayload, hpushed⟩ :=
      hconfirms
    rw [Envelope.ack?, hpayload] at hack
    cases hack
    have hbegun := ProcessRun.begun_of_mem_trace w.client hwrote
    exact ⟨received, ProcessRun.queued w.client hpushed, push, hpushType, hpush, hhistory,
      rfl, w.conveyed.handled job received hbegun htask⟩

/-- A push that the server has sent carries a message of the store. -/
theorem stored_of_sent {push : ChatPush} (hsent : Sent w conn envelope)
    (hpush : envelope.chatPush? = some push) :
    ∃ m, w.server.ledger.find push.msgId = some m ∧ push.fromUid = m.fromUid ∧
      push.toUid = m.toUid ∧ push.content = m.content := by
  obtain ⟨job, v, t, hmem⟩ := hsent
  obtain ⟨e₁, e₂, -, hnext, hlater⟩ := Execution.exists_next_of_mem hmem
  obtain ⟨m, uid, s, hm, hfrom, hto, hcontent, -⟩ :=
    message_of_push hnext hlater (Envelope.chatPush?_eq_some.mp hpush)
  exact ⟨m, hm, hfrom, hto, hcontent⟩

end Written

/-- The queue of a client has the message, as it is stored. -/
def HasInQueue (w : WorldRun P S) (client : Conn) (id toUid : UInt64) : Prop :=
  ∃ envelope ∈ (w.state.process.clients client).messageQueue, ∃ push,
    envelope.chatPush? = some push ∧ push.history = false ∧ push.msgId = id ∧
    push.toUid = toUid ∧ ∃ clientMsgId createdAtMs,
      OriginStored w.state.server.store.db id push.fromUid toUid push.content
        clientMsgId createdAtMs

/-- Acknowledged means received.  In every run of the client process with the server,
a message that is marked as acked was named in an ACK that the server received on some
connection, and when that ACK was handled the receiver of the message was the only user
logged in on it.  If this is a connection of the process, then its client is a client of
the receiver and has the message in its queue, as it is stored. -/
theorem acked_received (w : WorldRun P S) {id : UInt64}
    (h : fieldOf w.state.server.store.db (makeMessageKey id) (literal "status") =
      some (literal "Acked")) :
    ∃ conn envelope ack toUid job v,
      Received w.server conn envelope ∧ envelope.type = .ack ∧
      envelope.ack? = some ack ∧ ack.msgId = id ∧
      fieldOf w.state.server.store.db (makeMessageKey id) (literal "to_uid") =
        some (toText toUid) ∧
      Handles job conn envelope ∧
      Did w.server job (.getUidByConn conn) toUid v ∧ SoleConnection v toUid conn ∧
      (S conn ≠ none → S conn = some toUid ∧ HasInQueue w conn id toUid) := by
  have hrepresents := w.server.represents
  obtain ⟨m, hm, hstatus⟩ := (hrepresents.status_iff id .acked).mp h
  obtain ⟨job, conn, envelope, ack, v, hreceived, hhandles, htype, hack, rfl, huid, hdid,
    -⟩ := (accounted w.server id m hm).acked hstatus
  have hsole := hdid.soleConnection huid
  refine ⟨conn, envelope, ack, m.toUid, job, v, hreceived, htype, hack, rfl,
    (hrepresents.toUid_iff _ _).mpr ⟨m, hm, rfl⟩, hhandles, hdid, hsole,
    fun hown => ⟨?_, ?_⟩⟩
  · obtain ⟨e₁, e₂, v', rfl, h₁, h₂, -, -⟩ := hdid.effect
    obtain ⟨login, hlogin, hloginType, huidLogin⟩ := login_of_bound e₁ hsole.2.1
    rw [← huidLogin]
    exact session_of_login (hlogin.mono (h₁.trans h₂)) hloginType (huidLogin ▸ huid) hown
  · obtain ⟨received, hqueued, push, hpushType, hpush, hhistory, hid, hsent⟩ :=
      push_of_ack hreceived htype hack hown
    obtain ⟨m', hm', hfrom, hto, hcontent⟩ := stored_of_sent hsent hpush
    rw [hid] at hm'
    cases hm.symm.trans hm'
    refine ⟨received, hqueued, push, hpush, hhistory, hid, hto, m.clientMsgId,
      m.createdAtMs, ?_⟩
    rw [hfrom, hcontent]
    exact originStored hrepresents hm

end WorldRun

/-- All clients of the process are of user 1. -/
def oneUser : Sessions := fun _ => some 1

/-- User 1 writes a note to self, and gets it. -/
def noteToOneself : List WorldChoice :=
  clientLogin ++ [.client (.begin (.caller 0) 0 (.send 1 (literal "hi")))] ++
    clientCalls (.caller 0) 9 ++ [.client (.finish (.caller 0)), .arrive 0] ++
    (complete 0 20).map .server ++ [.deliver 0] ++ clientCalls (.receiver 0) 6 ++
    [.client (.finish (.receiver 0)), .deliver 0] ++ clientCalls (.receiver 0) 6 ++
    [.client (.finish (.receiver 0)), .arrive 0] ++ (complete 0 20).map .server

theorem acked_received_noteToOneself :
    ∃ (w : WorldRun wirePlatform oneUser) (client : Conn),
      WorldRun.HasInQueue w client 1 1 := by
  obtain ⟨w, hstate, -⟩ := exists_worldRun wirePlatform oneUser noteToOneself
  have hacked : fieldOf w.state.server.store.db (makeMessageKey 1)
      (literal "status") = some (literal "Acked") := by
    rw [hstate]
    decide +kernel
  obtain ⟨client, -, -, toUid, job, v, -, -, -, -, -, -, -, -, hown⟩ :=
    WorldRun.acked_received w hacked
  obtain ⟨huid, hqueued⟩ := hown (Option.some_ne_none 1)
  cases huid
  exact ⟨w, client, hqueued⟩

end ReliableDelivery
