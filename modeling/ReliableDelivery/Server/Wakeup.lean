import ReliableDelivery.Server.Duties
import ReliableDelivery.Server.Marks
import ReliableDelivery.Server.Retention
import ReliableDelivery.Server.Schedule

/-!
# Pending messages of users who are online

Only a login delivers pending messages, so a message that is marked pending
after its receiver's login has read the index waits for the next login.  A
delivery looks its receiver up first and marks the message later, and a login
can fit in between.  This module shows that this is the only way to strand a
message: if nobody is about to make such a late mark when a login reads the
index, then in a quiescent state no message is pending for a user who is online.

The proof keeps an account of who takes care of each user who is online.  As
long as the login has not read the index, it is bound to do so.  Afterwards
every pending message is in the hands of a handler that is bound to mark it
delivered.
-/

namespace ReliableDelivery

open Decimal Redis MessageStore TransitionSystem Program

variable {P : Platform}

/-! ## Marks for a user who is online -/

/-- The answers that a thread gets while the user is online on the connection.
Records carry the receiver that the message has. -/
def SeesOnline (receiver : UInt64 → UInt64) (uid : UInt64) (conn : Conn) :
    (command : Command) → command.Answer → Prop
  | .getConnByUid uid', answer => uid' = uid → answer = some conn
  | .connected conn', answer => conn' = conn → answer = true
  | .redis (.hmgetRecord _), answer => ∀ record,
      readRecordReply answer = some record →
        record.toUid = receiver record.msgId
  | .redis (.evalCreateMessage _ _ _ _ _), answer =>
      (readCreateReply answer).created = true →
        (readCreateReply answer).record.toUid =
          receiver (readCreateReply answer).record.msgId
  | _, _ => True

/-- A mark that makes a message to the user pending. -/
def MarksPendingTo (receiver : UInt64 → UInt64) (uid : UInt64)
    (command : Command) : Prop :=
  ∃ id now, receiver id = uid ∧
    command = .redis (.evalMsgStateScript .markPending id now)

theorem markRule_online (receiver : UInt64 → UInt64) (uid : UInt64)
    (conn : Conn) :
    MarkRule (SeesOnline receiver uid conn) (MarksPendingTo receiver uid)
      (fun record => record.toUid = receiver record.msgId) where
  onlyMarks := by
    rintro command ⟨id, now, -, rfl⟩
    exact ⟨.markPending, id, now, rfl⟩
  fetched := by
    intro msgId answer record hallowed hread
    exact hallowed record hread
  created := by
    intro _ _ _ _ _ answer hallowed hcreated
    exact hallowed hcreated
  delivered := by
    rintro record now - - ⟨id, now', -, heq⟩
    cases heq
  pending := by
    rintro record now hheld - hunreachable ⟨id, now', hreceiver, heq⟩
    cases heq
    have huid : record.toUid = uid := hheld.trans hreceiver
    rw [huid] at hunreachable
    rcases hunreachable with hnone | ⟨conn', hfound, hdown⟩
    · cases hnone rfl
    · have hconn : some conn' = some conn := hfound rfl
      cases hdown (Option.some.inj hconn)
  failed := by
    rintro record now - - ⟨id, now', -, heq⟩
    cases heq

/-- The receivers of the stored messages. -/
def Receivers (db : Db) (receiver : UInt64 → UInt64) : Prop :=
  ∀ id uid, fieldOf db (makeMessageKey id) (literal "to_uid") =
    some (toText uid) → receiver id = uid

theorem receivers_iff {db : Db} {L : Ledger}
    (hL : Represents (entriesOf db) L) (receiver : UInt64 → UInt64) :
    Receivers db receiver ↔
      ∀ id m, L.find id = some m → receiver id = m.toUid := by
  constructor
  · intro h id m hm
    exact h id m.toUid ((hL.toUid_iff id m.toUid).mpr ⟨m, hm, rfl⟩)
  · intro h id uid hfield
    obtain ⟨m, hm, rfl⟩ := (hL.toUid_iff id uid).mp hfield
    exact h id m hm

/-- The user can be reached on the connection. -/
def ReachableOn (s : ServerState) (uid : UInt64) (conn : Conn) : Prop :=
  s.users.getConnByUid uid = some conn ∧ s.connected conn = true

/-- If the user can be reached, no running handler is about to mark a message to
them pending.  This fails exactly for a delivery that has found the user
unreachable and has not yet made its mark. -/
def NoLateMark (s : ServerState) (uid : UInt64) : Prop :=
  ∀ receiver conn, Receivers s.store.db receiver → ReachableOn s uid conn →
    ∀ t job code, s.running t = some (job, code) →
      Avoids (SeesOnline receiver uid conn) (MarksPendingTo receiver uid)
        (fun _ => True) code

/-- A call to Redis in this step gets its reply. -/
def Answered (l : ServerLabel) : Prop :=
  ∀ t job request answer, l = .execute t job (.redis request) answer →
    answer ≠ none

/-! ## Connections -/

theorem connected_iff {s : ServerState} {conn : Conn} :
    s.connected conn = true ↔ s.phase conn = some .up := by
  simp [ServerState.connected]

theorem phase_ne_none_later {e e' : ServerRun P} {conn : Conn}
    (hlater : Execution.Later e e') (h : e.state.phase conn ≠ none) :
    e'.state.phase conn ≠ none := by
  apply hlater.preserves (P := fun e => e.state.phase conn ≠ none) h
  intro e₁ e₂ l hphase hnext
  rcases ServerStep.phase hnext.1 conn with
    hsame | ⟨-, hnone⟩ | ⟨-, hafter, -⟩
  · rw [hsame]
    exact hphase
  · exact absurd hnone hphase
  · exact hafter

/-- Whoever is logged in came over a connection that was opened. -/
theorem phase_ne_none_of_bound (e : ServerRun P) {uid : UInt64} {conn : Conn}
    (hbound : e.state.users.getConnByUid uid = some conn) :
    e.state.phase conn ≠ none := by
  apply ServerRun.bound_induct (Q := fun e => e.state.phase conn ≠ none)
    ?_ ?_ e hbound
  · intro e e' t job hnext
    obtain ⟨envelope, hhandles⟩ : Justified job e (.bindUser conn uid) :=
      justified_of_next hnext
    have hdid : Did e' job (.bindUser conn uid) true e.state :=
      ⟨t, hnext.mem_history⟩
    obtain ⟨s, hreceived⟩ := hdid.received hhandles
    obtain ⟨e₁, e₂, -, hreceive, hlater⟩ :=
      Execution.exists_next_of_mem hreceived
    have hopen : e₁.state.phase conn ≠ none :=
      ServerStep.phase_of_receive hreceive.1
    exact phase_ne_none_later (hreceive.later.trans hlater) hopen
  · intro e e' l hphase hnext
    exact phase_ne_none_later hnext.later hphase

/-- A user who can be reached could be reached before, on the same connection,
or has just logged in. -/
theorem ReachableOn.before {e e' : ServerRun P} {l : ServerLabel}
    {uid : UInt64} {conn : Conn} (h : ReachableOn e'.state uid conn)
    (hnext : Execution.Next e l e') :
    ReachableOn e.state uid conn ∨
      ∃ t job, l = .execute t job (.bindUser conn uid) true := by
  rcases ServerStep.bound hnext.1 (ServerRun.users_consistent e) h.1 with
    hold | hnew
  · left
    refine ⟨hold, connected_iff.mpr ?_⟩
    have hup := connected_iff.mp h.2
    rcases ServerStep.phase hnext.1 conn with
      hsame | ⟨-, hnone⟩ | ⟨-, -, hdown⟩
    · rw [← hsame]
      exact hup
    · exact absurd hnone (phase_ne_none_of_bound e hold)
    · exact absurd hup hdown
  · exact .inr hnew

/-! ## The answers that threads get -/

section Answers

variable {e e' : ServerRun P} {t : Thread} {job : Job} {command : Command}
  {answer : command.Answer} {uid : UInt64} {conn : Conn}

theorem seesOnline_of_next {receiver : UInt64 → UInt64}
    (hnext : Execution.Next e (.execute t job command answer) e')
    (honline : ReachableOn e.state uid conn)
    (hreceivers : Receivers e'.state.store.db receiver) :
    SeesOnline receiver uid conn command answer := by
  rw [receivers_iff e'.represents] at hreceivers
  have hstep : ServerStep P e.state (.execute t job command answer)
      e'.state := hnext.1
  obtain ⟨-, s', -, heffect, -⟩ := hstep.execute_inv
  unfold SeesOnline
  split
  · next uid' answer =>
      rintro rfl
      cases heffect
      exact honline.1
  · next conn' answer =>
      rintro rfl
      cases heffect
      exact honline.2
  · next id answer =>
      intro record hread
      have hdid : Did e' job (.redis (.hmgetRecord id)) answer e.state :=
        ⟨t, hnext.mem_history⟩
      obtain ⟨m, hm, horigin, -⟩ := known_of_did hdid hread
      simp only [Message.origin, Prod.mk.injEq] at horigin
      rw [hreceivers _ m hm]
      exact horigin.2.1
  · next fromUid toUid content clientMsgId now answer =>
      intro hcreated
      have hdid : Did e' job (.redis (.evalCreateMessage fromUid toUid content
          clientMsgId now)) answer e.state := ⟨t, hnext.mem_history⟩
      have hok : (readCreateReply answer).ok = true := by
        cases heffect with
        | redisNotExecuted _ => cases hcreated
        | redisReplyLost _ => cases hcreated
        | redisAnswered _ =>
            rcases run_create e.represents fromUid toUid content clientMsgId now
              with ⟨id, m, reply, -, -, hrun, hreply⟩ |
                ⟨-, -, reply, db', hrun, hreply, -⟩ |
                ⟨-, -, reply, hrun, hreply⟩
            · simp only [StoreDb.run, hrun, hreply]
            · simp only [StoreDb.run, hrun, hreply]
            · simp only [StoreDb.run, hrun, hreply] at hcreated
              cases hcreated
      obtain ⟨m, hm, horigin, -⟩ := known_of_created hdid hok
      simp only [Message.origin, Prod.mk.injEq] at horigin
      rw [hreceivers _ m hm]
      exact horigin.2.1
  · trivial

theorem seesPending_of_next {id : UInt64} {m : Message}
    (hnext : Execution.Next e (.execute t job command answer) e')
    (hanswered : Answered (.execute t job command answer))
    (honline : ReachableOn e.state uid conn)
    (hm : e.ledger.find id = some m) (hto : m.toUid = uid)
    (hpending : m.status = .pending) :
    SeesPending uid conn id command answer := by
  have hstep : ServerStep P e.state (.execute t job command answer)
      e'.state := hnext.1
  obtain ⟨-, s', -, heffect, -⟩ := hstep.execute_inv
  unfold SeesPending
  split
  · next uid' answer =>
      rintro rfl
      cases heffect
      exact honline.1
  · next conn' answer =>
      rintro rfl
      cases heffect
      exact honline.2
  · next id' answer =>
      rintro rfl
      have hreplied := hanswered t job _ answer rfl
      obtain ⟨reply, hrun, hreply⟩ := run_hmgetRecord e.represents id'
      cases heffect with
      | redisNotExecuted _ => exact absurd rfl hreplied
      | redisReplyLost _ => exact absurd rfl hreplied
      | redisAnswered _ =>
          refine ⟨m.record id', ?_, rfl, hto, hpending⟩
          simp only [StoreDb.run, hrun, hreply, hm]
          rfl
  · trivial

end Answers

/-! ## Who takes care of a user -/

/-- Some thread is bound to read the pending messages of the user. -/
def Reading (s : ServerState) (uid : UInt64) : Prop :=
  ∃ t job code, s.running t = some (job, code) ∧
    Leads (fun _ _ => True) (ReadsPending uid) (fun _ => False) code

/-- Some thread is bound to mark the message delivered. -/
def Awaited (s : ServerState) (uid : UInt64) (conn : Conn) (id : UInt64) :
    Prop :=
  ∃ t job code, s.running t = some (job, code) ∧
    Leads (SeesPending uid conn id) (MarksDelivered id) (fun _ => False) code

/-- Nobody is about to make a message to the user pending, and every message
that is pending for them is in good hands. -/
structure Served (receiver : UInt64 → UInt64) (e : ServerRun P) (uid : UInt64)
    (conn : Conn) : Prop where
  quiet : ∀ t job code, e.state.running t = some (job, code) →
    Avoids (SeesOnline receiver uid conn) (MarksPendingTo receiver uid)
      (fun _ => True) code
  awaited : ∀ id m, e.ledger.find id = some m → m.toUid = uid →
    m.status = .pending → Awaited e.state uid conn id

/-- Every user who can be reached is taken care of. -/
def Attended (receiver : UInt64 → UInt64) (e : ServerRun P) : Prop :=
  ∀ uid conn, ReachableOn e.state uid conn →
    Reading e.state uid ∨ Served receiver e uid conn

section Steps

variable {receiver : UInt64 → UInt64} {e e' : ServerRun P} {l : ServerLabel}
  {uid : UInt64} {conn : Conn}

theorem pays_of_running {t : Thread} {job : Job} {code : Handler Unit}
    (h : e.state.running t = some (job, code)) : Pays Owes code := by
  refine (serverThreads P).pays_running ?_ e t job code h
  intro job'
  change Pays Owes job'.code
  rw [Job.code]
  split
  · exact pays_handle _
  · exact pays_deliveryScan

theorem quiet_next
    (hquiet : ∀ t job code, e.state.running t = some (job, code) →
      Avoids (SeesOnline receiver uid conn) (MarksPendingTo receiver uid)
        (fun _ => True) code)
    (hnext : Execution.Next e l e') (honline : ReachableOn e.state uid conn)
    (hreceivers : Receivers e'.state.store.db receiver) (t : Thread)
    (job : Job) (code : Handler Unit)
    (hcode : e'.state.running t = some (job, code)) :
    Avoids (SeesOnline receiver uid conn) (MarksPendingTo receiver uid)
      (fun _ => True) code := by
  have hstep : ServerStep P e.state l e'.state := hnext.1
  rcases hstep.running hcode with
    ⟨hsame, -⟩ | ⟨rfl, -⟩ | ⟨command, next, answer, hbefore, rfl, rfl⟩
  · exact hquiet t job code hsame
  · rw [Job.code]
    split
    · exact (markRule_online receiver uid conn).avoids_handle _
    · exact (markRule_online receiver uid conn).avoids_deliveryScan
  · have hcall := avoids_call.mp (hquiet t job _ hbefore)
    exact hcall.2 answer (seesOnline_of_next hnext honline hreceivers)

/-- A request that got its reply was executed. -/
theorem ledger_of_answered {t : Thread} {job : Job} {request : RedisRequest}
    {answer : Option Reply}
    (hnext : Execution.Next e (.execute t job (.redis request) answer) e')
    (hanswered : Answered (.execute t job (.redis request) answer)) :
    answer = some (e.state.store.run request).1 ∧
      e'.ledger = e.ledger.after request := by
  have hreplied := hanswered t job request answer rfl
  have hstep : ServerStep P e.state (.execute t job (.redis request) answer)
      e'.state := hnext.1
  obtain ⟨next, s', -, heffect, hstate⟩ := hstep.execute_inv
  cases heffect with
  | redisNotExecuted _ => exact absurd rfl hreplied
  | redisReplyLost _ => exact absurd rfl hreplied
  | redisAnswered _ =>
      refine ⟨rfl, ?_⟩
      simp only [ServerRun.ledger, hstate]
      exact StoreDb.ledger_run _ _

/-- A message that stays pending stays in good hands. -/
theorem Awaited.next {id : UInt64} {m m' : Message}
    (h : Awaited e.state uid conn id) (hnext : Execution.Next e l e')
    (hanswered : Answered l) (honline : ReachableOn e.state uid conn)
    (hm : e.ledger.find id = some m) (hto : m.toUid = uid)
    (hpending : m.status = .pending) (hm' : e'.ledger.find id = some m')
    (hpending' : m'.status = .pending) : Awaited e'.state uid conn id := by
  obtain ⟨t, job, code, hrunning, hleads⟩ := h
  have hstep : ServerStep P e.state l e'.state := hnext.1
  rcases hstep.goesOn hrunning with
    hsame | ⟨command, next, answer, rfl, rfl, hnow⟩ | ⟨rfl, -⟩
  · exact ⟨t, job, code, hsame, hleads⟩
  · rcases hleads with ⟨now, rfl⟩ | hgoes
    · obtain ⟨-, hledger⟩ := ledger_of_answered hnext hanswered
      rw [hledger, Ledger.after, Ledger.find_modify, if_pos rfl, hm,
        Option.map_some, Option.some.injEq] at hm'
      rw [← hm'] at hpending'
      cases hpending'
    · exact ⟨t, job, next answer, hnow, hgoes answer
        (seesPending_of_next hnext hanswered honline hm hto hpending)⟩
  · exact hleads.elim

/-- A message that has just been created is in good hands. -/
theorem awaited_of_create {t : Thread} {job : Job}
    {fromUid toUid now : UInt64} {content clientMsgId : Bytes}
    {answer : Option Reply}
    (hnext : Execution.Next e (.execute t job (.redis (.evalCreateMessage
      fromUid toUid content clientMsgId now)) answer) e')
    (hanswered : Answered (.execute t job (.redis (.evalCreateMessage fromUid
      toUid content clientMsgId now)) answer))
    (hfree : ¬e.ledger.Taken (fromUid, clientMsgId)) {m : Message}
    (hm : e'.ledger.find e.ledger.nextId = some m) :
    Awaited e'.state toUid conn e.ledger.nextId := by
  obtain ⟨hanswer, hledger⟩ := ledger_of_answered hnext hanswered
  have hstep : ServerStep P e.state (.execute t job (.redis
    (.evalCreateMessage fromUid toUid content clientMsgId now)) answer)
      e'.state := hnext.1
  obtain ⟨next, s', hrunning, -, hstate⟩ := hstep.execute_inv
  rcases run_create e.represents fromUid toUid content clientMsgId now with
    ⟨id, m', reply, hm', hkey, -, -⟩ | ⟨-, -, reply, db', hrun, hreply, -⟩ |
    ⟨-, hfull, -⟩
  · exact absurd ⟨id, m', hm', hkey⟩ hfree
  · have hread : readCreateReply answer =
        { record := (Message.new fromUid toUid content clientMsgId now).record
            e.ledger.nextId, created := true, ok := true } := by
      rw [hanswer, ← hreply]
      simp only [StoreDb.run, hrun]
    have howes := Owes.create fromUid toUid content clientMsgId now conn answer
      (by rw [hread]) (by rw [hread]) (by rw [hread]; rfl) (by rw [hread]; rfl)
    have hleads := (pays_of_running hrunning answer).1 _ howes
    rw [hread] at hleads
    refine ⟨t, job, next answer, ?_, hleads⟩
    rw [hstate]
    simp only [ServerState.setRunning, Function.update_self]
  · rw [hledger, Ledger.after_create_full hfull, e.ledger.find_nextId] at hm
    cases hm

theorem Served.next (h : Served receiver e uid conn)
    (hnext : Execution.Next e l e') (hanswered : Answered l)
    (honline : ReachableOn e.state uid conn)
    (hreceivers : Receivers e'.state.store.db receiver) :
    Served receiver e' uid conn := by
  refine ⟨quiet_next h.quiet hnext honline hreceivers, ?_⟩
  intro id m' hm' hto hpending'
  have hcarry : ∀ m, e.ledger.find id = some m → m.toUid = uid →
      m.status = .pending → Awaited e'.state uid conn id := by
    intro m hm hto' hpending
    exact (h.awaited id m hm hto' hpending).next hnext hanswered honline hm
      hto' hpending hm' hpending'
  rcases ServerRun.ledger_next hnext with
    hledger | ⟨t, job, request, answer, rfl, hledger⟩
  · have hm := hm'
    rw [hledger] at hm
    exact hcarry m' hm hto hpending'
  · have hm := hm'
    rw [hledger] at hm
    rcases Ledger.find_after_cases hm with
      hold | ⟨fromUid, toUid, content, clientMsgId, now, rfl, hfree, rfl, rfl⟩ |
      ⟨m, script, now, rfl, hold, rfl⟩ | ⟨m, now, -, -, rfl⟩ |
      ⟨m, -, hold, rfl⟩
    · exact hcarry m' hold hto hpending'
    · obtain rfl : toUid = uid := hto
      exact awaited_of_create hnext hanswered hfree hm'
    · rcases script with _ | _ | _
      · cases hpending'
      · have hstep : ServerStep P e.state (.execute t job (.redis
          (.evalMsgStateScript .markPending id now)) answer) e'.state := hnext.1
        obtain ⟨next, -, hrunning, -, -⟩ := hstep.execute_inv
        have hmark := (avoids_call.mp (h.quiet t job _ hrunning)).1
        have hreceiver : receiver id = uid :=
          ((receivers_iff e'.represents receiver).mp hreceivers id _ hm').trans
            hto
        exact absurd ⟨id, now, hreceiver, rfl⟩ hmark
      · cases hpending'
    · cases hpending'
    · exact hcarry m hold hto hpending'

/-- A login that reads the index takes all pending messages into its hands. -/
theorem served_of_read {t : Thread} {job : Job} {answer : Option Reply}
    (hnext : Execution.Next e
      (.execute t job (.redis (.zrangePending uid)) answer) e')
    (hanswered : Answered (.execute t job (.redis (.zrangePending uid)) answer))
    (hquiet : ∀ t job code, e.state.running t = some (job, code) →
      Avoids (SeesOnline receiver uid conn) (MarksPendingTo receiver uid)
        (fun _ => True) code)
    (honline : ReachableOn e.state uid conn)
    (hreceivers : Receivers e'.state.store.db receiver) :
    Served receiver e' uid conn := by
  refine ⟨quiet_next hquiet hnext honline hreceivers, ?_⟩
  intro id m hm hto hpending
  obtain ⟨hanswer, hledger⟩ := ledger_of_answered hnext hanswered
  have hstep : ServerStep P e.state
    (.execute t job (.redis (.zrangePending uid)) answer) e'.state := hnext.1
  obtain ⟨next, s', hrunning, -, hstate⟩ := hstep.execute_inv
  have hm₀ : e.ledger.find id = some m := by
    rw [hledger] at hm
    exact hm
  have hid : id ≠ 0 := by
    rintro rfl
    have hnumbered := (e.ledger.numbered 0).mp (by rw [hm₀]; rfl)
    exact absurd hnumbered.1 (by decide)
  have hlists : Lists answer id := by
    obtain ⟨ids, hrun, hids, -⟩ := run_zrangePending e.represents uid
    refine ⟨.bulk (toText id), ?_, parseUint64_toText id⟩
    rw [hanswer]
    simp only [StoreDb.run, hrun, replyOfIds, replyElements, List.mem_map]
    exact ⟨id, (hids id).mpr ⟨m, hm₀, hto, hpending⟩, rfl⟩
  refine ⟨t, job, next answer, ?_, ?_⟩
  · rw [hstate]
    simp only [ServerState.setRunning, Function.update_self]
  · exact (pays_of_running hrunning answer).1 _
      (.read uid conn id answer hid hlists)

theorem Attended.next (h : Attended receiver e)
    (hnext : Execution.Next e l e') (hanswered : Answered l)
    (hreads : ∀ t job uid answer,
      l = .execute t job (.redis (.zrangePending uid)) answer →
        NoLateMark e.state uid)
    (hreceivers : Receivers e.state.store.db receiver)
    (hreceivers' : Receivers e'.state.store.db receiver) :
    Attended receiver e' := by
  intro uid conn honline'
  have hstep : ServerStep P e.state l e'.state := hnext.1
  rcases honline'.before hnext with honline | ⟨t, job, rfl⟩
  · rcases h uid conn honline with ⟨t, job, code, hrunning, hleads⟩ | hserved
    · rcases hstep.goesOn hrunning with
        hsame | ⟨command, next, answer, rfl, rfl, hnow⟩ | ⟨rfl, -⟩
      · exact .inl ⟨t, job, code, hsame, hleads⟩
      · rcases hleads with hread | hgoes
        · obtain rfl : command = .redis (.zrangePending uid) := hread
          exact .inr (served_of_read hnext hanswered
            (hreads t job uid answer rfl receiver conn hreceivers honline)
            honline hreceivers')
        · exact .inl ⟨t, job, next answer, hnow, hgoes answer trivial⟩
      · exact hleads.elim
    · exact .inr (hserved.next hnext hanswered honline hreceivers')
  · obtain ⟨next, s', hrunning, -, hstate⟩ := hstep.execute_inv
    refine .inl ⟨t, job, next true, ?_, ?_⟩
    · rw [hstate]
      simp only [ServerState.setRunning, Function.update_self]
    · exact (pays_of_running hrunning true).1 _ (.login conn uid)

end Steps

/-! ## Runs -/

/-- The receivers that the messages of a run have at its end are those they had
all along. -/
theorem exists_receivers (e : ServerRun P) :
    ∃ receiver, ∀ e₁ : ServerRun P, Execution.Later e₁ e →
      Receivers e₁.state.store.db receiver := by
  refine ⟨fun id => ((e.ledger.find id).map Message.toUid).getD 0, ?_⟩
  intro e₁ hlater
  rw [receivers_iff e₁.represents]
  intro id m hm
  obtain ⟨m', hm', horigin, -⟩ := (ServerRun.extends_later hlater).2 id m hm
  simp only [Message.origin, Prod.mk.injEq] at horigin
  rw [hm']
  exact horigin.2.1

/-- No message is stranded.  In a run whose calls to Redis are all answered, and
in which nobody is about to make a late mark whenever a login reads the index of
pending messages, a quiescent state has no pending message whose receiver can be
reached. -/
theorem no_message_stranded {e : ServerRun P}
    (hanswered : ∀ s l, (s, l) ∈ e.history → Answered l)
    (hreads : ∀ s t job uid answer,
      (s, .execute t job (.redis (.zrangePending uid)) answer) ∈ e.history →
        NoLateMark s uid)
    (hquiescent : e.state.Quiescent) {id toUid : UInt64} {conn : Conn}
    (hto : fieldOf e.state.store.db (makeMessageKey id) (literal "to_uid") =
      some (toText toUid))
    (hbound : e.state.users.getConnByUid toUid = some conn)
    (hup : e.state.connected conn = true) :
    fieldOf e.state.store.db (makeMessageKey id) (literal "status") ≠
      some (literal "Pending") := by
  obtain ⟨receiver, hreceivers⟩ := exists_receivers e
  have hattended : Execution.Later e e → Attended receiver e := by
    apply Execution.induct (P := fun e₁ : ServerRun P =>
      Execution.Later e₁ e → Attended receiver e₁)
    · intro e₁ _ hinit _ uid conn' honline
      have hs : e₁.state = {} := hinit
      rw [hs] at honline
      cases honline.1
    · intro e₁ e₂ l ih hnext hlater
      have hmem := hlater.mem_history hnext.mem_history
      apply (ih (hnext.later.trans hlater)).next hnext (hanswered _ l hmem)
      · rintro t job uid answer rfl
        exact hreads _ t job uid answer hmem
      · exact hreceivers e₁ (hnext.later.trans hlater)
      · exact hreceivers e₂ hlater
  intro hpending
  obtain ⟨m, hm, hstatus⟩ :=
    (e.represents.status_iff id .pending).mp hpending
  obtain ⟨m', hm', htoUid⟩ := (e.represents.toUid_iff id toUid).mp hto
  rw [hm, Option.some.injEq] at hm'
  subst hm'
  have hidle := hquiescent.2
  rcases hattended (Execution.Later.refl e) toUid conn ⟨hbound, hup⟩ with
    ⟨t, job, code, hrunning, -⟩ | hserved
  · rw [hidle t] at hrunning
    cases hrunning
  · obtain ⟨t, job, code, hrunning, -⟩ :=
      hserved.awaited id m hm htoUid hstatus
    rw [hidle t] at hrunning
    cases hrunning

/-! ## A late mark -/

/-- User 1 writes to user 2, who is offline.  User 2 logs in after the handler
has looked them up and before it marks the message. -/
def lateMark : List Choice :=
  [.connect 0, .connect 1, .receive 0 (loginAs 1)] ++ complete 0 20 ++
    [.receive 0 (chatFrom 1 2 7 (literal "hi") (literal "a"))] ++ work 0 4 ++
    [.receive 1 (loginAs 2)] ++ complete 6 30 ++
    List.replicate 4 (.call (.worker 0) 1000) ++ [.finish (.worker 0)]

theorem lateMark_quiescent :
    ((serverDriver wirePlatform).follow {} lateMark).Quiescent :=
  ServerState.quiescent_of_idle (by decide +kernel) (by decide +kernel)

/-- The message is left pending although user 2 is online. -/
theorem message_stranded :
    ¬∀ e : ServerRun wirePlatform,
      (∀ s l, (s, l) ∈ e.history → Answered l) → e.state.Quiescent →
      ∀ (id toUid : UInt64) (conn : Conn),
        fieldOf e.state.store.db (makeMessageKey id) (literal "to_uid") =
          some (toText toUid) →
        e.state.users.getConnByUid toUid = some conn →
        e.state.connected conn = true →
        fieldOf e.state.store.db (makeMessageKey id) (literal "status") ≠
          some (literal "Pending") := by
  intro hdelivers
  obtain ⟨e, hstate, hhistory⟩ := exists_run wirePlatform lateMark
  have hanswered : ∀ s l, (s, l) ∈ e.history → Answered l := by
    rintro s l hmem t job request answer rfl
    rw [hhistory, List.mem_reverse] at hmem
    exact answer_ne_none_of_trace hmem
  have hquiescent : e.state.Quiescent := by
    rw [hstate]
    exact lateMark_quiescent
  apply hdelivers e hanswered hquiescent 1 2 1
  · rw [hstate]
    decide +kernel
  · rw [hstate]
    decide +kernel
  · rw [hstate]
    decide +kernel
  · rw [hstate]
    decide +kernel

/-! ## A run without late marks -/

/-- User 2 logs in, up to the point where the index is read. -/
def beforeRead : List Choice :=
  [.connect 0, .receive 0 (loginAs 2)] ++ work 0 3

/-- User 2 then writes to themselves. -/
def afterRead : List Choice :=
  List.replicate 20 (.call (.worker 0) 1000) ++ [.finish (.worker 0)] ++
    [.receive 0 (chatFrom 2 2 7 (literal "hi") (literal "a"))] ++ complete 0 20

/-- The step reads an index of pending messages. -/
def readsIndex : ServerLabel → Bool
  | .execute _ _ (.redis (.zrangePending _)) _ => true
  | _ => false

/-- The step gives a handler an answer about nothing but itself. -/
def givesNothing : ServerLabel → Bool
  | .execute _ _ (.bindUser _ _) _ => true
  | .execute _ _ .nowMs _ => true
  | .execute _ _ (.sendEnvelope _ _) _ => true
  | .execute _ _ _ _ => false
  | _ => true

theorem seesOnline_of_givesNothing {receiver : UInt64 → UInt64} {uid : UInt64}
    {conn : Conn} {t : Thread} {job : Job} {command : Command}
    {answer : command.Answer}
    (h : givesNothing (.execute t job command answer) = true) :
    SeesOnline receiver uid conn command answer := by
  cases command with
  | bindUser conn' uid' => trivial
  | nowMs => trivial
  | sendEnvelope conn' envelope => trivial
  | _ => cases h

theorem beforeRead_jobs (t : Thread) :
    ((serverDriver wirePlatform).follow {} beforeRead).jobOf t = none ∨
      ((serverDriver wirePlatform).follow {} beforeRead).jobOf t =
        some ⟨0, .event (.envelope 0 (loginAs 2))⟩ := by
  rcases t with i | _
  · revert i
    decide +kernel
  · decide +kernel

/-- Nobody but the login itself is at work when it reads the index. -/
theorem beforeRead_noLateMark (uid : UInt64) :
    NoLateMark ((serverDriver wirePlatform).follow {} beforeRead) uid := by
  intro receiver conn _ _ t job code hrunning
  obtain ⟨e, hstate, hhistory⟩ := exists_run wirePlatform beforeRead
  have hjob := ServerState.jobOf_of_running hrunning
  rcases beforeRead_jobs t with hnone | hlogin
  · rw [hnone] at hjob
    cases hjob
  · rw [hlogin, Option.some.injEq] at hjob
    subst hjob
    rw [← hstate] at hrunning
    have hcode : Avoids (SeesOnline receiver uid conn)
        (MarksPendingTo receiver uid) (fun _ => True)
        (handle (.envelope 0 (loginAs 2))) :=
      (markRule_online receiver uid conn).avoids_handle _
    apply (serverThreads wirePlatform).avoids_running hcode e t code hrunning
    rintro ⟨s, l⟩ hmem command answer hperforms
    obtain ⟨t', rfl⟩ := performs_iff.mp hperforms
    rw [hhistory, List.mem_reverse] at hmem
    have hall : ((serverDriver wirePlatform).trace {} beforeRead).all
        (fun x => givesNothing x.2) = true := by decide +kernel
    exact seesOnline_of_givesNothing (List.all_eq_true.mp hall _ hmem)

/-- User 2 logs in and then writes to themselves. -/
def noteToSelf : List Choice :=
  beforeRead ++ ([.call (.worker 0) 1000] ++ afterRead)

/-- The index is read once, right after `beforeRead`. -/
theorem noteToSelf_reads {s : ServerState} {l : ServerLabel}
    (h : (s, l) ∈ (serverDriver wirePlatform).trace {} noteToSelf)
    (hread : readsIndex l = true) :
    s = (serverDriver wirePlatform).follow {} beforeRead := by
  have hbefore : ((serverDriver wirePlatform).trace {} beforeRead).all
      (fun x => !readsIndex x.2) = true := by decide +kernel
  have hafter : ((serverDriver wirePlatform).trace ((serverDriver wirePlatform).follow
      ((serverDriver wirePlatform).follow {} beforeRead) [.call (.worker 0) 1000])
        afterRead).all (fun x => !readsIndex x.2) = true := by decide +kernel
  rw [noteToSelf, Driver.trace_append, Driver.trace_append, List.mem_append,
    List.mem_append] at h
  rcases h with hmem | hmem | hmem
  · have hnot := List.all_eq_true.mp hbefore _ hmem
    simp [hread] at hnot
  · exact Driver.state_of_mem_trace hmem
  · have hnot := List.all_eq_true.mp hafter _ hmem
    simp [hread] at hnot

theorem no_message_stranded_noteToSelf :
    ∃ e : ServerRun wirePlatform, e.state.Quiescent ∧
      fieldOf e.state.store.db (makeMessageKey 1) (literal "to_uid") =
        some (toText 2) ∧
      ReachableOn e.state 2 0 ∧
      fieldOf e.state.store.db (makeMessageKey 1) (literal "status") ≠
        some (literal "Pending") := by
  obtain ⟨e, hstate, hhistory⟩ := exists_run wirePlatform noteToSelf
  have hanswered : ∀ s l, (s, l) ∈ e.history → Answered l := by
    rintro s l hmem t job request answer rfl
    rw [hhistory, List.mem_reverse] at hmem
    exact answer_ne_none_of_trace hmem
  have hreads : ∀ s t job uid answer,
      (s, .execute t job (.redis (.zrangePending uid)) answer) ∈ e.history →
        NoLateMark s uid := by
    intro s t job uid answer hmem
    rw [hhistory, List.mem_reverse] at hmem
    rw [noteToSelf_reads hmem rfl]
    exact beforeRead_noLateMark uid
  have hquiescent : e.state.Quiescent := by
    rw [hstate]
    exact ServerState.quiescent_of_idle (by decide +kernel) (by decide +kernel)
  have hto : fieldOf e.state.store.db (makeMessageKey 1) (literal "to_uid") =
      some (toText 2) := by
    rw [hstate]
    decide +kernel
  have hbound : e.state.users.getConnByUid 2 = some 0 := by
    rw [hstate]
    decide +kernel
  have hup : e.state.connected 0 = true := by
    rw [hstate]
    decide +kernel
  exact ⟨e, hquiescent, hto, ⟨hbound, hup⟩,
    no_message_stranded hanswered hreads hquiescent hto hbound hup⟩

end ReliableDelivery
