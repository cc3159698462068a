import ReliableDelivery.Server.Justification
import ReliableDelivery.Server.Traces

/-!
# What is pushed, and in which turn

Every push is made from a record that its job has read or created.  A push that
is not history is the live delivery of a new message, a retry of a message that
was delivered before, or part of a replay.  A replay goes through the pending
index from the front: when it pushes a message, each message before it has been
pushed, turned out not to be pending, or found its receiver unreachable.
-/

namespace ReliableDelivery

open Decimal Redis MessageStore EnvelopeFactory TransitionSystem Program

/-! ## The rule -/

/-- The envelope that `createRecordPush` makes of a record. -/
def pushOf (record : MessageRecord) (history : Bool) (now stamp : UInt64) :
    Envelope where
  type := .chatPush
  seq := record.msgId
  timestampMs := now
  payload := some (.chatPush
    { msgId := record.msgId, fromUid := record.fromUid, toUid := record.toUid,
      content := record.content, serverTimestampMs := stamp, history })

/-- A push of the record; the stamp is the clock's only if the record has
none. -/
def PushesRecord (record : MessageRecord) (history : Bool)
    (envelope : Envelope) : Prop :=
  ∃ now stamp, (record.createdAtMs ≠ 0 → stamp = record.createdAtMs) ∧
    envelope = pushOf record history now stamp

/-- A push of the message that is not history. -/
def Envelope.pushesLive (id : UInt64) (envelope : Envelope) : Bool :=
  envelope.chatPush?.any fun push => push.msgId = id ∧ push.history = false

/-- The job has created the message of this record. -/
def HasCreated (τ : ServerTrace) (record : MessageRecord) : Prop :=
  ∃ fromUid toUid content clientMsgId now answer,
    ⟨.redis (.evalCreateMessage fromUid toUid content clientMsgId now),
      answer⟩ ∈ τ ∧
    (readCreateReply answer).ok = true ∧
    (readCreateReply answer).created = true ∧
    (readCreateReply answer).record = record

/-- The job has pushed the message. -/
def HasPushed (τ : ServerTrace) (id : UInt64) : Prop :=
  ∃ conn envelope, ⟨.sendEnvelope conn envelope, ()⟩ ∈ τ ∧
    envelope.pushesLive id = true

/-- The job has looked for a user and not found them connected. -/
def HasMissed (τ : ServerTrace) : Prop :=
  (∃ uid, ⟨.getConnByUid uid, none⟩ ∈ τ) ∨
    ∃ conn, ⟨.connected conn, false⟩ ∈ τ

/-- What the job read of the message was not worth keeping. -/
def HasSkipped (keep : MessageRecord → Bool) (τ : ServerTrace) (id : UInt64) :
    Prop :=
  id = 0 ∨ ∃ answer, ⟨.redis (.hmgetRecord id), answer⟩ ∈ τ ∧
    ∀ record, readRecordReply answer = some record → keep record = false

/-- The records of a replay. -/
def isPendingFor (uid : UInt64) (record : MessageRecord) : Bool :=
  record.toUid = uid && record.status = .pending

/-- The replay is through with the message. -/
def PassedOver (τ : ServerTrace) (uid id : UInt64) : Prop :=
  (∃ record, HasRead τ id record ∧ HasPushed τ record.msgId) ∨
    HasSkipped (isPendingFor uid) τ id ∨ HasMissed τ

/-- It is the turn of the message in a replay. -/
def IsNext (τ : ServerTrace) (id : UInt64) : Prop :=
  ∃ uid answer before after, ⟨.redis (.zrangePending uid), answer⟩ ∈ τ ∧
    (replyElements answer).filterMap parseUint64 = before ++ id :: after ∧
    ∀ id' ∈ before, PassedOver τ uid id'

/-- Why a record may be pushed: its message is new, was delivered before, or is
next in a replay. -/
def MayPush (τ : ServerTrace) (record : MessageRecord) : Prop :=
  HasCreated τ record ∨
    ∃ id, HasRead τ id record ∧ (record.status = .delivered ∨ IsNext τ id)

/-- The job has the record from the store. -/
def FromStore (τ : ServerTrace) (record : MessageRecord) : Prop :=
  HasCreated τ record ∨ ∃ id, HasRead τ id record

/-- An index that the job has read lists the message. -/
def Listed (τ : ServerTrace) (id : UInt64) : Prop :=
  ∃ (request : RedisRequest) (answer : Option Reply), request.lists = true ∧
    ⟨.redis request, answer⟩ ∈ τ ∧
    id ∈ (replyElements answer).filterMap parseUint64

/-- The rule for pushes, for the marks that tell of earlier ones and for the
reads they start from. -/
def PushRule (τ : ServerTrace) : Command → Prop
  | .sendEnvelope _ envelope => ∀ push, envelope.chatPush? = some push →
      ∃ record, FromStore τ record ∧
        PushesRecord record push.history envelope ∧
        (push.history = false → MayPush τ record)
  | .redis (.evalMsgStateScript .markDelivered id _) => HasPushed τ id
  | .redis (.evalMsgStateScript .markFailed id _) =>
      ∃ id' record, HasRead τ id' record ∧ record.status = .delivered ∧
        record.msgId = id
  | .redis (.hmgetRecord id) => Listed τ id
  | _ => True

section Mono

variable {τ τ' : ServerTrace}

theorem HasCreated.mono {record : MessageRecord} (h : HasCreated τ record)
    (hτ : τ <:+ τ') : HasCreated τ' record := by
  obtain ⟨fromUid, toUid, content, clientMsgId, now, answer, hmem, hcreated⟩ := h
  exact ⟨fromUid, toUid, content, clientMsgId, now, answer, hτ.mem hmem,
    hcreated⟩

theorem HasPushed.mono {id : UInt64} (h : HasPushed τ id) (hτ : τ <:+ τ') :
    HasPushed τ' id := by
  obtain ⟨conn, envelope, hmem, hpush⟩ := h
  exact ⟨conn, envelope, hτ.mem hmem, hpush⟩

theorem HasMissed.mono (h : HasMissed τ) (hτ : τ <:+ τ') : HasMissed τ' := by
  rcases h with ⟨uid, hmem⟩ | ⟨conn, hmem⟩
  · exact .inl ⟨uid, hτ.mem hmem⟩
  · exact .inr ⟨conn, hτ.mem hmem⟩

theorem HasSkipped.mono {keep : MessageRecord → Bool} {id : UInt64}
    (h : HasSkipped keep τ id) (hτ : τ <:+ τ') : HasSkipped keep τ' id := by
  rcases h with hzero | ⟨answer, hmem, hskip⟩
  · exact .inl hzero
  · exact .inr ⟨answer, hτ.mem hmem, hskip⟩

theorem PassedOver.mono {uid id : UInt64} (h : PassedOver τ uid id)
    (hτ : τ <:+ τ') : PassedOver τ' uid id := by
  rcases h with ⟨record, hread, hpushed⟩ | hskipped | hmissed
  · exact .inl ⟨record, hread.mono hτ, hpushed.mono hτ⟩
  · exact .inr (.inl (hskipped.mono hτ))
  · exact .inr (.inr (hmissed.mono hτ))

theorem IsNext.mono {id : UInt64} (h : IsNext τ id) (hτ : τ <:+ τ') :
    IsNext τ' id := by
  obtain ⟨uid, answer, before, after, hmem, hlist, hsettled⟩ := h
  exact ⟨uid, answer, before, after, hτ.mem hmem, hlist,
    fun id' hid' => (hsettled id' hid').mono hτ⟩

theorem MayPush.mono {record : MessageRecord} (h : MayPush τ record)
    (hτ : τ <:+ τ') : MayPush τ' record := by
  rcases h with hcreated | ⟨id, hread, hdelivered | hnext⟩
  · exact .inl (hcreated.mono hτ)
  · exact .inr ⟨id, hread.mono hτ, .inl hdelivered⟩
  · exact .inr ⟨id, hread.mono hτ, .inr (hnext.mono hτ)⟩

theorem MayPush.fromStore {record : MessageRecord} (h : MayPush τ record) :
    FromStore τ record := by
  rcases h with hcreated | ⟨id, hread, -⟩
  · exact .inl hcreated
  · exact .inr ⟨id, hread⟩

theorem FromStore.mono {record : MessageRecord} (h : FromStore τ record)
    (hτ : τ <:+ τ') : FromStore τ' record := by
  rcases h with hcreated | ⟨id, hread⟩
  · exact .inl (hcreated.mono hτ)
  · exact .inr ⟨id, hread.mono hτ⟩

theorem Listed.mono {id : UInt64} (h : Listed τ id) (hτ : τ <:+ τ') :
    Listed τ' id := by
  obtain ⟨request, answer, hlists, hmem, hid⟩ := h
  exact ⟨request, answer, hlists, hτ.mem hmem, hid⟩

end Mono

/-! ## Programs that push nothing -/

/-- Pushes, the marks that tell of earlier ones and the reads they start
from. -/
def Announces : Command → Prop
  | .sendEnvelope _ envelope => envelope.chatPush? ≠ none
  | .redis (.evalMsgStateScript .markDelivered _ _) => True
  | .redis (.evalMsgStateScript .markFailed _ _) => True
  | .redis (.hmgetRecord _) => True
  | _ => False

def Silent {α : Type} (p : Handler α) : Prop :=
  Avoids (fun _ _ => True) Announces (fun _ => True) p

theorem follows_silent {α : Type} {p : Handler α} (hp : Silent p)
    (τ : ServerTrace) : Follows PushRule (fun _ _ => True) p τ := by
  apply follows_of_avoids _ hp trivial
  intro τ command _ hsilent
  refine ⟨?_, fun _ => trivial⟩
  unfold PushRule
  split
  · intro push hpush
    exfalso
    apply hsilent
    simp [Announces, hpush]
  · exact absurd trivial hsilent
  · exact absurd trivial hsilent
  · exact absurd trivial hsilent
  · trivial

theorem Silent.bind {α β : Type} {p : Handler α} {f : α → Handler β}
    (hp : Silent p) (hf : ∀ a, Silent (f a)) : Silent (p.bind f) :=
  Avoids.bind hp fun a _ => hf a

theorem silent_done {α : Type} (a : α) : Silent (.done a : Handler α) :=
  avoids_done.mpr trivial

theorem silent_perform {command : Command} (h : ¬Announces command) :
    Silent (perform command) :=
  (Program.avoids_perform h).weaken fun _ _ => trivial

theorem silent_markPending (msgId : UInt64) :
    Silent (markPending msgId : Handler _) := by
  apply Silent.bind (silent_perform id)
  intro now
  exact (silent_perform id).bind fun _ => silent_done _

theorem silent_sendAck (conn : Conn) (seq msgId : UInt64) (ok : Bool)
    (reason : Bytes) :
    Silent ((createAck seq msgId ok reason : Handler _).bind fun ack =>
      sendEnvelope conn ack) := by
  refine avoids_call.mpr ⟨id, fun now _ => ?_⟩
  refine avoids_call.mpr ⟨?_, fun _ _ => silent_done _⟩
  intro hpush
  exact hpush rfl

theorem silent_handleAck (conn : Conn) (envelope : Envelope) :
    Silent (handleAck conn envelope) := by
  rw [handleAck]
  split
  · exact silent_done _
  · next ack _ =>
      split
      · exact silent_done _
      · apply Silent.bind (silent_perform id)
        intro uid
        split
        · exact silent_done _
        · have hmark : Silent (markAcked ack.msgId uid : Handler _) := by
            apply Silent.bind (silent_perform id)
            intro now
            exact (silent_perform id).bind fun _ => silent_done _
          exact hmark.bind fun _ => silent_done _

/-! ## Reading records -/

/-- What a job has made of the elements of an index, one after another. -/
inductive Listing (keep : MessageRecord → Bool) (τ : ServerTrace) :
    List UInt64 → List MessageRecord → Prop where
  | nil : Listing keep τ [] []
  | skip {id : UInt64} {ids : List UInt64} {records : List MessageRecord}
      (hskip : HasSkipped keep τ id) (h : Listing keep τ ids records) :
      Listing keep τ (id :: ids) records
  | take {id : UInt64} {record : MessageRecord} {ids : List UInt64}
      {records : List MessageRecord} (hread : HasRead τ id record)
      (hkeep : keep record = true) (h : Listing keep τ ids records) :
      Listing keep τ (id :: ids) (record :: records)

theorem Listing.mono {keep : MessageRecord → Bool} {τ τ' : ServerTrace}
    {ids : List UInt64} {records : List MessageRecord}
    (h : Listing keep τ ids records) (hτ : τ <:+ τ') :
    Listing keep τ' ids records := by
  induction h with
  | nil => exact .nil
  | skip hskip _ ih => exact .skip (hskip.mono hτ) ih
  | take hread hkeep _ ih => exact .take (hread.mono hτ) hkeep ih

theorem Listing.read {keep : MessageRecord → Bool} {τ : ServerTrace}
    {ids : List UInt64} {records : List MessageRecord}
    (h : Listing keep τ ids records) :
    ∀ record ∈ records, keep record = true ∧ ∃ id, HasRead τ id record := by
  induction h with
  | nil => simp
  | skip _ _ ih => exact ih
  | take hread hkeep _ ih =>
      intro record hrecord
      rcases List.mem_cons.mp hrecord with rfl | hrest
      · exact ⟨hkeep, _, hread⟩
      · exact ih record hrest

theorem follows_fetchElement_listing (keep : MessageRecord → Bool)
    {element : Reply} {τ : ServerTrace}
    (hlisted : ∀ id, parseUint64 element = some id → Listed τ id) :
    Follows PushRule
      (fun τ' o => Listing keep τ' (parseUint64 element).toList o.toList)
      (fetchElement keep element : Handler _) τ := by
  rw [fetchElement]
  split
  · next hnone =>
      refine follows_done.mpr ?_
      rw [hnone]
      exact .nil
  · next id helement =>
      rw [helement, fetchRecord]
      split
      · next hzero => exact follows_done.mpr (.skip (.inl hzero) .nil)
      · refine follows_call.mpr ⟨hlisted id helement, fun answer => ?_⟩
        change Follows PushRule _
          (.done ((readRecordReply answer).filter keep)) _
        refine follows_done.mpr ?_
        have hmem : ⟨.redis (.hmgetRecord id), answer⟩ ∈
            (⟨.redis (.hmgetRecord id), answer⟩ :: τ : ServerTrace) :=
          List.mem_cons_self
        cases hread : readRecordReply answer with
        | none => exact .skip (.inr ⟨answer, hmem, by simp [hread]⟩) .nil
        | some record =>
            by_cases hkeep : keep record = true
            · rw [Option.filter_some_pos hkeep]
              exact .take ⟨answer, hmem, hread⟩ hkeep .nil
            · rw [Bool.not_eq_true] at hkeep
              rw [Option.filter_some_neg hkeep]
              refine .skip (.inr ⟨answer, hmem, ?_⟩) .nil
              intro record' hrecord'
              rw [hread, Option.some.injEq] at hrecord'
              subst hrecord'
              exact hkeep

theorem Listing.append {keep : MessageRecord → Bool} {τ : ServerTrace}
    {ids ids' : List UInt64} {records records' : List MessageRecord}
    (h : Listing keep τ ids records) (h' : Listing keep τ ids' records') :
    Listing keep τ (ids ++ ids') (records ++ records') := by
  induction h with
  | nil => exact h'
  | skip hskip _ ih => exact .skip hskip ih
  | take hread hkeep _ ih => exact .take hread hkeep ih

theorem follows_collect_listing (keep : MessageRecord → Bool)
    (elements : List Reply) {τ : ServerTrace}
    (hlisted : ∀ id ∈ elements.filterMap parseUint64, Listed τ id) :
    Follows PushRule
      (fun τ' records => Listing keep τ' (elements.filterMap parseUint64)
        records)
      (collect elements (fetchElement keep) : Handler _) τ := by
  induction elements generalizing τ with
  | nil => exact follows_done.mpr .nil
  | cons element elements ih =>
      have hfirst : ∀ id, parseUint64 element = some id → Listed τ id := by
        intro id hid
        exact hlisted id (by simp [hid])
      apply Follows.bind (follows_fetchElement_listing keep hfirst)
      intro found τ₁ hτ₁ hfound
      have hrest : ∀ id ∈ elements.filterMap parseUint64, Listed τ₁ id := by
        intro id hid
        refine (hlisted id ?_).mono hτ₁
        rw [List.mem_filterMap] at hid ⊢
        obtain ⟨element', hmem, hparse⟩ := hid
        exact ⟨element', List.mem_cons_of_mem _ hmem, hparse⟩
      apply Follows.bind (ih hrest)
      intro records τ₂ hτ₂ hrecords
      refine follows_done.mpr ?_
      have hall := (hfound.mono hτ₂).append hrecords
      rw [List.filterMap_cons]
      cases hparse : parseUint64 element with
      | none =>
          rw [hparse] at hall
          exact hall
      | some id =>
          rw [hparse] at hall
          exact hall

/-- What a job makes of an index that it has just read. -/
theorem follows_listing (keep : MessageRecord → Bool) {request : RedisRequest}
    (hlists : request.lists = true) (answer : Option Reply) (τ : ServerTrace) :
    Follows PushRule
      (fun τ' records => Listing keep τ'
        ((replyElements answer).filterMap parseUint64) records)
      (collect (replyElements answer) (fetchElement keep) : Handler _)
      (⟨.redis request, answer⟩ :: τ) := by
  apply follows_collect_listing
  intro id hid
  exact ⟨request, answer, hlists, List.mem_cons_self, hid⟩

/-! ## Delivery -/

/-- A push that the rule allows, once its record has been turned into an
envelope. -/
theorem follows_push (conn : Conn) {record : MessageRecord} {history : Bool}
    {τ : ServerTrace} (hstore : FromStore τ record)
    (hmay : history = false → MayPush τ record) :
    Follows PushRule
      (fun τ' _ => history = false → HasPushed τ' record.msgId)
      ((createRecordPush record history).bind fun push =>
        sendEnvelope conn push) τ := by
  have hsend : ∀ (now stamp : UInt64) (τ₁ : ServerTrace), τ <:+ τ₁ →
      (record.createdAtMs ≠ 0 → stamp = record.createdAtMs) →
      Follows PushRule
        (fun τ' _ => history = false → HasPushed τ' record.msgId)
        (sendEnvelope conn (pushOf record history now stamp)) τ₁ := by
    intro now stamp τ₁ hτ₁ hstamp
    refine follows_call.mpr ⟨?_, fun _ => ?_⟩
    · intro push hpush
      cases hpush
      exact ⟨record, hstore.mono hτ₁, ⟨now, stamp, hstamp, rfl⟩,
        fun hlive => (hmay hlive).mono hτ₁⟩
    · refine follows_done.mpr fun hlive => ?_
      refine ⟨conn, _, List.mem_cons_self, ?_⟩
      simp [Envelope.pushesLive, pushOf, Envelope.chatPush?, hlive]
  refine follows_call.mpr ⟨trivial, fun now => ?_⟩
  by_cases hstamp : record.createdAtMs = 0
  · simp only [hstamp, if_true]
    refine follows_call.mpr ⟨trivial, fun stamp => ?_⟩
    apply hsend now stamp
    · exact (List.suffix_cons _ _).trans (List.suffix_cons _ _)
    · intro hne
      exact absurd hstamp hne
  · simp only [hstamp, if_false]
    apply hsend now record.createdAtMs
    · exact List.suffix_cons _ _
    · intro _
      rfl

theorem follows_pushAndMark_live (conn : Conn) {record : MessageRecord}
    {τ : ServerTrace} (hmay : MayPush τ record) :
    Follows PushRule (fun τ' _ => HasPushed τ' record.msgId)
      (pushAndMark conn record) τ := by
  have hpush := @follows_push conn record false τ hmay.fromStore fun _ => hmay
  have heq : pushAndMark conn record =
      ((createRecordPush record false).bind fun push =>
        sendEnvelope conn push).bind fun _ =>
          (markDelivered record.msgId : Handler _).bind fun _ => .done true := by
    rw [Program.bind_assoc]
    rfl
  rw [heq]
  apply Follows.bind hpush
  intro _ τ₁ _ hpushed
  refine follows_call.mpr ⟨trivial, fun now => ?_⟩
  have hpushed' : HasPushed (⟨.nowMs, now⟩ :: τ₁) record.msgId :=
    (hpushed rfl).mono (List.suffix_cons _ _)
  refine follows_call.mpr ⟨hpushed', fun answer => ?_⟩
  change Follows PushRule _ (.done true) _
  exact follows_done.mpr (hpushed'.mono (List.suffix_cons _ _))

theorem follows_onlineTarget (uid : UInt64) (τ : ServerTrace) :
    Follows PushRule (fun τ' o => o = none → HasMissed τ')
      (onlineTarget uid) τ := by
  refine follows_call.mpr ⟨trivial, fun target => ?_⟩
  rcases target with _ | conn
  · refine follows_done.mpr fun _ => ?_
    exact .inl ⟨uid, List.mem_cons_self⟩
  · refine follows_call.mpr ⟨trivial, fun connected => ?_⟩
    cases (connected : Bool) with
    | true =>
        refine follows_done.mpr fun hnone => ?_
        cases hnone
    | false =>
        refine follows_done.mpr fun _ => ?_
        exact .inr ⟨conn, List.mem_cons_self⟩

/-- A delivery attempt pushes the message, or finds nobody to push it to. -/
theorem follows_tryDeliverMessage {record : MessageRecord} {τ : ServerTrace}
    (hmay : MayPush τ record) :
    Follows PushRule
      (fun τ' _ => record.status = .pending →
        HasPushed τ' record.msgId ∨ HasMissed τ')
      (tryDeliverMessage record) τ := by
  rw [tryDeliverMessage]
  split
  · next hstatus =>
      refine follows_done.mpr fun hpending => ?_
      rw [hpending] at hstatus
      rcases hstatus with hacked | hfailed
      · cases hacked
      · cases hfailed
  · apply Follows.bind (follows_onlineTarget record.toUid τ)
    intro target τ₁ hτ₁ hmissed
    rcases target with _ | conn
    · have hmark : Silent ((markPending record.msgId : Handler _).bind
          fun _ => (.done false : Handler Bool)) :=
        (silent_markPending _).bind fun _ => silent_done _
      apply (follows_silent hmark τ₁).weaken
      intro _ τ₂ hτ₂ _ _
      exact .inr ((hmissed rfl).mono hτ₂)
    · apply (follows_pushAndMark_live conn (hmay.mono hτ₁)).weaken
      intro _ τ₂ _ hpushed _
      exact .inl hpushed

theorem follows_retryDeliverMessage_live {record : MessageRecord}
    {τ : ServerTrace} (hmay : MayPush τ record) :
    Follows PushRule (fun _ _ => True) (retryDeliverMessage record) τ := by
  rw [retryDeliverMessage]
  split
  · exact follows_done.mpr trivial
  · apply Follows.bind (follows_onlineTarget record.toUid τ)
    intro target τ₁ hτ₁ _
    rcases target with _ | conn
    · have hmark : Silent ((markPending record.msgId : Handler _).bind
          fun _ => (.done false : Handler Bool)) :=
        (silent_markPending _).bind fun _ => silent_done _
      exact follows_silent hmark τ₁
    · refine follows_call.mpr ⟨trivial, fun answer => ?_⟩
      apply (follows_pushAndMark_live conn
        (hmay.mono (hτ₁.trans (List.suffix_cons _ _)))).weaken
      intro _ _ _ _
      trivial

/-- A replay, from the middle: the job is through with the ids in `before`, and `records` is
what the job has made of the rest of the index. -/
theorem follows_replay {uid : UInt64} {answer : Option Reply}
    {before after : List UInt64} {records : List MessageRecord}
    {τ : ServerTrace}
    (hmem : ⟨.redis (.zrangePending uid), answer⟩ ∈ τ)
    (hlist : (replyElements answer).filterMap parseUint64 = before ++ after)
    (hbefore : ∀ id ∈ before, PassedOver τ uid id)
    (hafter : Listing (isPendingFor uid) τ after records) :
    Follows PushRule (fun _ _ => True)
      (forEach records fun record => do
        let _ ← tryDeliverMessage record
        pure ()) τ := by
  have hextend : ∀ (τ' : ServerTrace) (before : List UInt64) id,
      PassedOver τ' uid id → (∀ id' ∈ before, PassedOver τ' uid id') →
      ∀ id' ∈ before ++ [id], PassedOver τ' uid id' := by
    intro τ' before id hid hall id' hid'
    rcases List.mem_append.mp hid' with hold | hnew
    · exact hall id' hold
    · rw [List.mem_singleton.mp hnew]
      exact hid
  induction after generalizing before records τ with
  | nil =>
      cases hafter
      exact follows_done.mpr trivial
  | cons id after ih =>
      have hlist' : (replyElements answer).filterMap parseUint64 =
          (before ++ [id]) ++ after := by
        rw [hlist, List.append_assoc]
        rfl
      cases hafter with
      | skip hskip hrest =>
          exact ih hmem hlist'
            (hextend τ before id (.inr (.inl hskip)) hbefore) hrest
      | @take _ record _ records hread hkeep hrest =>
          have hmay : MayPush τ record := .inr ⟨id, hread,
            .inr ⟨uid, answer, before, after, hmem, hlist, hbefore⟩⟩
          have hpending : record.status = .pending := by
            simp only [isPendingFor, Bool.and_eq_true, decide_eq_true_eq]
              at hkeep
            exact hkeep.2
          have hbody : Follows PushRule
              (fun τ' _ => HasPushed τ' record.msgId ∨ HasMissed τ')
              ((tryDeliverMessage record).bind fun _ => .done ()) τ := by
            apply Follows.bind (follows_tryDeliverMessage hmay)
            intro _ τ₁ _ hdone
            exact follows_done.mpr (hdone hpending)
          apply Follows.bind hbody
          intro _ τ₁ hτ₁ hdone
          have hid : PassedOver τ₁ uid id := by
            rcases hdone with hpushed | hmissed
            · exact .inl ⟨record, hread.mono hτ₁, hpushed⟩
            · exact .inr (.inr hmissed)
          exact ih (hτ₁.mem hmem) hlist'
            (hextend τ₁ before id hid fun id' hid' =>
              (hbefore id' hid').mono hτ₁)
            (hrest.mono hτ₁)

theorem follows_deliverPendingMessages (uid : UInt64) (τ : ServerTrace) :
    Follows PushRule (fun _ _ => True) (deliverPendingMessages uid) τ := by
  refine follows_call.mpr ⟨trivial, fun answer => ?_⟩
  apply Follows.bind (follows_listing (isPendingFor uid) rfl answer τ)
  intro records τ₁ hτ₁ hlisting
  have hloop := @follows_replay uid answer [] _ records τ₁
    (hτ₁.mem List.mem_cons_self) rfl (by simp) hlisting
  apply Follows.bind hloop
  intro _ τ₂ _ _
  exact follows_done.mpr trivial

theorem follows_history (conn : Conn) (records : List MessageRecord)
    {τ : ServerTrace} (hrecords : ∀ record ∈ records, FromStore τ record) :
    Follows PushRule (fun _ _ => True)
      (forEach records fun record => do
        let push ← createRecordPush record true
        sendEnvelope conn push) τ := by
  induction records generalizing τ with
  | nil => exact follows_done.mpr trivial
  | cons record records ih =>
      apply Follows.bind (@follows_push conn record true τ
        (hrecords record (by simp)) (by simp))
      intro _ τ₁ hτ₁ _
      exact ih fun record' hrecord' =>
        (hrecords record' (by simp [hrecord'])).mono hτ₁

theorem follows_sendRecentMessages (uid limit : UInt64) (τ : ServerTrace) :
    Follows PushRule (fun _ _ => True) (sendRecentMessages uid limit) τ := by
  have hrecent : Follows PushRule
      (fun τ' records => ∀ record ∈ records, FromStore τ' record)
      (getRecentMessages uid limit : Handler _) τ := by
    rw [getRecentMessages]
    split
    · exact follows_done.mpr (by simp)
    · refine follows_call.mpr ⟨trivial, fun answer => ?_⟩
      apply Follows.bind (follows_listing _ rfl answer τ)
      intro records τ₁ _ hlisting
      refine follows_done.mpr fun record hrecord => ?_
      rw [List.mem_reverse] at hrecord
      exact .inr (hlisting.read record hrecord).2
  apply Follows.bind hrecent
  intro records τ₁ _ hrecords
  apply Follows.bind (follows_onlineTarget uid τ₁)
  intro target τ₂ hτ₂ _
  rcases target with _ | conn
  · exact follows_done.mpr trivial
  · exact follows_history conn records fun record hrecord =>
      (hrecords record hrecord).mono hτ₂

/-! ## Events and scans -/

theorem follows_handleLogin (conn : Conn) (envelope : Envelope)
    (τ : ServerTrace) :
    Follows PushRule (fun _ _ => True) (handleLogin conn envelope) τ := by
  have hbind : ∀ uid, Silent (bindLogin conn uid) := by
    intro uid
    rw [bindLogin]
    split
    · exact silent_done _
    · exact Silent.bind (silent_perform id) fun _ => silent_done _
  apply Follows.bind (follows_silent (hbind _) τ)
  intro result τ₁ _ _
  refine follows_call.mpr ⟨trivial, fun now => ?_⟩
  refine follows_call.mpr ⟨?_, fun _ => ?_⟩
  · intro push hpush
    cases hpush
  · change Follows PushRule (fun _ _ => True)
      (if result.1 then deliverLoginMessages _ else .done ()) _
    split
    · apply Follows.bind (follows_deliverPendingMessages _ _)
      intro delivered τ₂ _ _
      split
      · exact follows_done.mpr trivial
      · exact follows_sendRecentMessages _ _ τ₂
    · exact follows_done.mpr trivial

theorem follows_handleChat (conn : Conn) (envelope : Envelope)
    (τ : ServerTrace) :
    Follows PushRule (fun _ _ => True) (handleChat conn envelope) τ := by
  have hack : ∀ seq msgId ok reason τ', Follows PushRule (fun _ _ => True)
      ((createAck seq msgId ok reason : Handler _).bind fun ack =>
        sendEnvelope conn ack) τ' := by
    intro seq msgId ok reason τ'
    exact follows_silent (silent_sendAck conn seq msgId ok reason) τ'
  have hstore : ∀ request τ', Follows PushRule (fun _ _ => True)
      (storeAndDeliver conn envelope.seq request) τ' := by
    intro request τ'
    refine follows_call.mpr ⟨trivial, fun now => ?_⟩
    refine follows_call.mpr ⟨trivial, fun answer => ?_⟩
    change Follows PushRule (fun _ _ => True)
      (if (readCreateReply answer).ok = false then _
        else if (readCreateReply answer).created = false then _ else _) _
    split
    · exact hack _ _ _ _ _
    · next hok =>
      rw [Bool.not_eq_false] at hok
      split
      · exact hack _ _ _ _ _
      · next hcreated =>
          rw [Bool.not_eq_false] at hcreated
          have hmay : MayPush (⟨.redis (.evalCreateMessage request.fromUid
              request.toUid request.content request.clientMsgId now),
              answer⟩ :: ⟨.nowMs, now⟩ :: τ') (readCreateReply answer).record :=
            .inl ⟨_, _, _, _, _, answer, List.mem_cons_self, hok, hcreated, rfl⟩
          apply Follows.bind (follows_tryDeliverMessage hmay)
          intro _ τ₁ _ _
          exact hack _ _ _ _ _
  rw [handleChat]
  split
  · exact hack _ _ _ _ _
  · refine follows_call.mpr ⟨trivial, fun uid => ?_⟩
    change Follows PushRule (fun _ _ => True)
      (if uid = 0 then _ else if _ ≠ uid then _ else _) _
    split
    · exact hack _ _ _ _ _
    · split
      · exact hack _ _ _ _ _
      · exact hstore _ _

theorem follows_retries (records : List MessageRecord) {τ : ServerTrace}
    (hrecords : ∀ record ∈ records,
      record.status = .delivered ∧ ∃ id, HasRead τ id record) :
    Follows PushRule (fun _ _ => True)
      (forEach records fun record =>
        if kMaxDeliveryRetryCount ≤ record.retryCount then do
          let _ ← markFailed record.msgId
          pure ()
        else do
          let _ ← retryDeliverMessage record
          pure ()) τ := by
  induction records generalizing τ with
  | nil => exact follows_done.mpr trivial
  | cons record records ih =>
      have hbody : Follows PushRule (fun _ _ => True)
          (if kMaxDeliveryRetryCount ≤ record.retryCount then
            (markFailed record.msgId : Handler _).bind fun _ => .done ()
          else (retryDeliverMessage record).bind fun _ => .done ()) τ := by
        split
        · refine follows_call.mpr ⟨trivial, fun now => ?_⟩
          obtain ⟨hdelivered, id, hread⟩ := hrecords record (by simp)
          refine follows_call.mpr ⟨⟨id, record,
            hread.mono (List.suffix_cons _ _), hdelivered, rfl⟩, fun answer => ?_⟩
          change Follows PushRule _ (.done ()) _
          exact follows_done.mpr trivial
        · obtain ⟨hdelivered, id, hread⟩ := hrecords record (by simp)
          apply Follows.bind (follows_retryDeliverMessage_live
            (.inr ⟨id, hread, .inl hdelivered⟩))
          intro _ _ _ _
          exact follows_done.mpr trivial
      apply Follows.bind hbody
      intro _ τ₁ hτ₁ _
      apply ih
      intro record' hrecord'
      obtain ⟨hdelivered, id, hread⟩ := hrecords record' (by simp [hrecord'])
      exact ⟨hdelivered, id, hread.mono hτ₁⟩

theorem follows_deliveryScan_live (τ : ServerTrace) :
    Follows PushRule (fun _ _ => True) deliveryScan τ := by
  refine follows_call.mpr ⟨trivial, fun now => ?_⟩
  refine follows_call.mpr ⟨trivial, fun answer => ?_⟩
  apply Follows.bind (follows_listing _ rfl answer _)
  intro records τ₁ _ hlisting
  apply follows_retries records
  intro record hrecord
  obtain ⟨hkeep, hread⟩ := hlisting.read record hrecord
  simp only [Bool.and_eq_true, decide_eq_true_eq] at hkeep
  exact ⟨hkeep.1.1.1, hread⟩

/-- Every job follows the rule. -/
theorem follows_jobCode (job : Job) :
    Follows PushRule (fun _ _ => True) job.code [] := by
  rw [Job.code]
  split
  · next event _ =>
      rcases event with ⟨conn, envelope⟩ | conn
      · simp only [handle]
        split
        · exact follows_handleLogin conn envelope []
        · exact follows_handleChat conn envelope []
        · exact follows_silent (silent_handleAck conn envelope) []
        · exact follows_silent (silent_perform id) []
        · exact follows_silent (silent_sendAck conn envelope.seq 0 false _) []
      · exact follows_silent (silent_perform id) []
  · exact follows_deliveryScan_live []

/-- In every run, whatever a job does next meets the rule. -/
theorem pushRule_of_running {P : Platform} (e : ServerRun P) {t : Thread}
    {job : Job} {command : Command} {next : command.Answer → Handler Unit}
    (hrunning : e.state.running t = some (job, .call command next)) :
    PushRule ((serverThreads P).trace e job) command :=
  (follows_call.mp (follows_job (follows_jobCode job) e hrunning)).1

/-! ## In a run -/

section Runs

variable {P : Platform} {e : ServerRun P} {job : Job}

theorem did_of_mem_trace {command : Command} {answer : command.Answer}
    (h : ⟨command, answer⟩ ∈ (serverThreads P).trace e job) :
    ∃ s, Did e job command answer s := by
  obtain ⟨⟨s, l⟩, hx, haction⟩ := ThreadPool.mem_trace.mp h
  obtain ⟨t, hl⟩ := ServerLabel.action_eq_some.mp haction
  subst hl
  exact ⟨s, t, hx⟩

/-- What a job has from the store is a message of the ledger. -/
theorem FromStore.known {record : MessageRecord}
    (h : FromStore ((serverThreads P).trace e job) record) :
    Known e.ledger record := by
  rcases h with
    ⟨_, _, _, _, _, answer, hmem, hok, -, rfl⟩ | ⟨id, answer, hmem, hread⟩
  · obtain ⟨s, hdid⟩ := did_of_mem_trace hmem
    exact known_of_created hdid hok
  · obtain ⟨s, hdid⟩ := did_of_mem_trace hmem
    exact known_of_did hdid hread

/-- What an index has listed for a job is a message of the ledger. -/
theorem Listed.find {id : UInt64}
    (h : Listed ((serverThreads P).trace e job) id) :
    ∃ m, e.ledger.find id = some m := by
  obtain ⟨request, answer, hlists, hmem, hid⟩ := h
  obtain ⟨s, hdid⟩ := did_of_mem_trace hmem
  rcases answer with _ | reply
  · cases hid
  · obtain ⟨e₁, hlater, hreply⟩ := Did.answered hdid
    rw [← hreply] at hid
    obtain ⟨m, hm⟩ := run_lists (ServerRun.represents e₁) hlists hid
    obtain ⟨m', hm', -⟩ := (ServerRun.extends_later hlater).2 id m hm
    exact ⟨m', hm'⟩

/-- A job reads only records that exist: whatever a read answers, at an earlier
point of the run the message was there. -/
theorem Did.exists_read {id : UInt64} {reply : Reply} {s : ServerState}
    (h : Did e job (.redis (.hmgetRecord id)) (some reply) s) :
    ∃ (e₁ : ServerRun P) (m : Message), Execution.Later e₁ e ∧
      e₁.ledger.find id = some m ∧
      readRecordReply (some reply) = some (m.record id) := by
  obtain ⟨t, hmem⟩ := h
  obtain ⟨e₁, e₂, -, hnext, hlater⟩ := Execution.exists_next_of_mem hmem
  have hstep : ServerStep P e₁.state
    (.execute t job (.redis (.hmgetRecord id)) (some reply)) e₂.state := hnext.1
  obtain ⟨next, s', hrunning, heffect, -⟩ := hstep.execute_inv
  obtain ⟨m, hm⟩ := (pushRule_of_running e₁ hrunning : Listed _ id).find
  refine ⟨e₁, m, hnext.later.trans hlater, hm, ?_⟩
  obtain ⟨reply', hrun, hread⟩ := run_hmgetRecord (ServerRun.represents e₁) id
  cases heffect with
  | redisAnswered _ =>
      simp only [StoreDb.run, hrun, hread, hm, Option.map_some]

/-- A push is made of a message of the ledger. -/
theorem pushOf_known {e' : ServerRun P} {t : Thread} {conn : Conn}
    {envelope : Envelope} {push : ChatPush}
    (hsend : Execution.Next e
      (.execute t job (.sendEnvelope conn envelope) ()) e')
    (hpush : envelope.chatPush? = some push) :
    ∃ record, Known e.ledger record ∧
      PushesRecord record push.history envelope ∧
      (push.history = false →
        MayPush ((serverThreads P).trace e job) record) := by
  have hstep : ServerStep P e.state
    (.execute t job (.sendEnvelope conn envelope) ()) e'.state := hsend.1
  obtain ⟨next, -, hrunning, -, -⟩ := hstep.execute_inv
  obtain ⟨record, hstore, hform, hmay⟩ :=
    pushRule_of_running e hrunning push hpush
  exact ⟨record, hstore.known, hform, hmay⟩

end Runs

end ReliableDelivery
