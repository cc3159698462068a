import ReliableDelivery.Gateway.Exceptions
import ReliableDelivery.Gateway.Traffic

/-!
# Acknowledging redelivered pushes

The server sends a push again until it is acknowledged, and the browser
acknowledges every push that it gets.  The gateway remembers the pushes that are
outstanding in a map from `msg_id`, which has one entry for all pushes of a
message; the first acknowledgement takes it away, and the browser is told that
the next one is unknown.
-/

namespace ReliableDelivery

open Ecmascript TransitionSystem

/-- How often the message was pushed. -/
def pushes (t : List Traffic) (msgId : ℕ) : ℕ :=
  t.countP fun x => x.livePush = some msgId

/-- How often the browser acknowledged the message. -/
def acks (R : Runtime) (t : List Traffic) (msgId : ℕ) : ℕ :=
  t.countP fun x => x.messageAck R = some msgId

/-- The browser acknowledges every push once, after the push. -/
structure AcknowledgesPushes (R : Runtime) (t : List Traffic) : Prop where
  after : ∀ t', t' <+: t → ∀ msgId, 0 < msgId → acks R t' msgId ≤ pushes t' msgId
  once : ∀ msgId, 0 < msgId → acks R t msgId = pushes t msgId

/-- No message is pushed again while a push of it is outstanding. -/
def OneOutstanding (R : Runtime) (t : List Traffic) : Prop :=
  ∀ t', t' <+: t → ∀ msgId, 0 < msgId → pushes t' msgId ≤ acks R t' msgId + 1

/-- The browser acknowledges a push and is told that it is unknown. -/
def TellsUnknown (R : Runtime) (l : List Traffic) : Prop :=
  ∃ message x,
    toNumber R.engine (property (ascii "msg_id") message) = .ok x ∧
    (Traffic.fromBrowser message).messageAck R = some x.toNat ∧
    l = [.fromBrowser message,
      .toBrowser (.error (ascii "cannot ack unknown msg_id " ++
        R.engine.numberToString x))]

section Counting

variable {R : Runtime} {t l : List Traffic} {msgId : ℕ}

@[simp] theorem pushes_append :
    pushes (t ++ l) msgId = pushes t msgId + pushes l msgId :=
  List.countP_append ..

@[simp] theorem acks_append :
    acks R (t ++ l) msgId = acks R t msgId + acks R l msgId :=
  List.countP_append ..

theorem pushes_cons (x : Traffic) :
    pushes (x :: l) msgId =
      pushes l msgId + if x.livePush = some msgId then 1 else 0 := by
  rw [pushes, List.countP_cons, pushes]
  simp

theorem acks_cons (x : Traffic) :
    acks R (x :: l) msgId =
      acks R l msgId + if x.messageAck R = some msgId then 1 else 0 := by
  rw [acks, List.countP_cons, acks]
  simp

theorem pushes_eq_zero (h : ∀ x ∈ l, x.livePush = none) :
    pushes l msgId = 0 := by
  rw [pushes, List.countP_eq_zero]
  intro x hx
  simp [h x hx]

theorem acks_eq_zero (h : ∀ x ∈ l, x.messageAck R = none) :
    acks R l msgId = 0 := by
  rw [acks, List.countP_eq_zero]
  intro x hx
  simp [h x hx]

theorem pushes_prefix (h : t <+: l) : pushes t msgId ≤ pushes l msgId := by
  obtain ⟨rest, rfl⟩ := h
  simp

theorem acks_prefix (h : t <+: l) : acks R t msgId ≤ acks R l msgId := by
  obtain ⟨rest, rfl⟩ := h
  simp

end Counting

/-- The entry of a message, counted. -/
def Session.entry (s : Session) (msgId : ℕ) : ℕ :=
  if (s.client.pushSeqByMsgId msgId).isSome then 1 else 0

namespace Session

variable {R : Runtime} {s s' : Session} {l : List Traffic}

/-- An event without acknowledgements: the messages that are pushed have an entry
afterwards. -/
def Gains (R : Runtime) (s : Session) (l : List Traffic) (s' : Session) : Prop :=
  ∀ msgId, 0 < msgId → acks R l msgId = 0 ∧
    s'.entry msgId = if 0 < pushes l msgId then 1 else s.entry msgId

/-- An acknowledgement: the message has no entry afterwards, and the browser is
told so if it had none before. -/
def Loses (R : Runtime) (s : Session) (l : List Traffic) (s' : Session) : Prop :=
  ∃ msgId, 0 < msgId ∧ (∀ m, pushes l m = 0) ∧
    (∀ m, acks R l m = if m = msgId then 1 else 0) ∧
    (∀ m, s'.entry m = if m = msgId then 0 else s.entry m) ∧
    (TellsUnknown R l ↔ s.entry msgId = 0)

theorem Gains.not_tells (h : s.Gains R l s') : ¬TellsUnknown R l := by
  rintro ⟨message, x, hx, hmessage, rfl⟩
  have hzero := (h x.toNat (messageAck_pos hmessage)).1
  rw [acks_cons, if_pos hmessage] at hzero
  omega

theorem entry_congr (h : s'.client.books = s.client.books) (msgId : ℕ) :
    s'.entry msgId = s.entry msgId := by
  rw [entry, entry, (books_eq h).2.2]

theorem entry_noted (msgId : ℕ) (seq : Option ℕ) (s : Session) (m : ℕ) :
    (s.noted msgId seq).entry m =
      if m = msgId then (if seq.isSome then 1 else 0) else s.entry m := by
  simp only [entry, noted, Function.update_apply]
  split
  · rfl
  · rfl

theorem Heeds.entry {x : EnvelopeObject} {frames : List BrowserFrame}
    (h : s.Heeds x frames s') {msgId : ℕ} (hpos : 0 < msgId) :
    s'.entry msgId =
      if (Traffic.fromServer x).livePush = some msgId then 1
      else s.entry msgId := by
  obtain ⟨type, seq, timestampMs, payload⟩ := x
  cases h with
  | ignore hbooks hpush =>
      rw [entry_congr hbooks, if_neg]
      rw [Traffic.livePush.eq_def]
      split
      · next heq =>
          cases heq
          exact absurd rfl hpush
      · simp
  | settle htype hpending hbooks hframes =>
      subst htype
      rw [entry_congr hbooks, if_neg (by simp [Traffic.livePush])]
      rfl
  | push htype hbooks hframes =>
      subst htype
      rw [entry_congr hbooks, pushed]
      split
      · next m _ _ _ _ history hpayload =>
          subst hpayload
          cases history with
          | true => rw [if_pos rfl, if_neg (by simp [Traffic.livePush])]
          | false =>
              simp only [Bool.false_eq_true, if_false, entry_noted,
                Traffic.livePush, Option.some.injEq]
              by_cases heq : msgId = m
              · rw [if_pos heq, if_pos heq.symm]
                rfl
              · rw [if_neg heq, if_neg (Ne.symm heq)]
      · next hpayload =>
          rw [entry_noted, if_neg (by omega), if_neg]
          rw [Traffic.livePush.eq_def]
          split
          · next heq =>
              cases heq
              exact absurd rfl (hpayload _ _ _ _ _ _)
          · simp

theorem entry_handleEnvelopes (now : ℕ) (envelopes : List EnvelopeObject)
    (s : Session) {msgId : ℕ} (hpos : 0 < msgId) :
    ((handleEnvelopes R now envelopes).exec s).2.entry msgId =
      if 0 < pushes (envelopes.map .fromServer) msgId then 1
      else s.entry msgId := by
  induction envelopes generalizing s with
  | nil => rfl
  | cons x envelopes ih =>
      obtain ⟨frames, s₁, hexec, hheeds, -, -⟩ :=
        exec_handleEnvelope (R := R) now x s
      rw [handleEnvelopes, Js.exec_bind, hexec]
      dsimp only
      rw [ih s₁, hheeds.entry hpos, List.map_cons, pushes_cons]
      by_cases hmore : 0 < pushes (envelopes.map .fromServer) msgId
      · rw [if_pos hmore, if_pos (Nat.add_pos_left hmore _)]
      · have hzero : pushes (envelopes.map .fromServer) msgId = 0 := by omega
        rw [if_neg hmore, hzero, Nat.zero_add]
        split
        · rfl
        · rfl

/-- An event without pushes and acknowledgements. -/
theorem gains_of_quiet (hacks : ∀ x ∈ l, x.messageAck R = none)
    (hpushes : ∀ x ∈ l, x.livePush = none)
    (hentry : ∀ msgId, s'.entry msgId = s.entry msgId) : s.Gains R l s' := by
  intro msgId _
  rw [acks_eq_zero hacks, pushes_eq_zero hpushes, if_neg (Nat.lt_irrefl 0)]
  exact ⟨rfl, hentry msgId⟩

theorem messageAck_of_sendMessage {message : BrowserMessage}
    {clientMsgId : Text}
    (h : (Traffic.fromBrowser message).sendMessage R = some clientMsgId) :
    (Traffic.fromBrowser message).messageAck R = none := by
  rw [Traffic.sendMessage] at h
  split at h
  · next htype => exact messageAck_eq_none htype (by decide)
  · cases h

/-- The browser acknowledges a message: `l` is that, and what it is answered. -/
theorem loses_of_entry {message : BrowserMessage} {msgId : ℕ}
    {answer : List Traffic}
    (hmessage : (Traffic.fromBrowser message).messageAck R = some msgId)
    (hanswer : ∀ x ∈ answer, x.livePush = none ∧ x.messageAck R = none)
    (hentry : ∀ m, s'.entry m = if m = msgId then 0 else s.entry m)
    (htells : TellsUnknown R (.fromBrowser message :: answer) ↔
      s.entry msgId = 0) :
    s.Loses R (.fromBrowser message :: answer) s' := by
  refine ⟨msgId, messageAck_pos hmessage, fun m => ?_, fun m => ?_, hentry,
    htells⟩
  · apply pushes_eq_zero
    intro x hx
    rcases List.mem_cons.mp hx with rfl | hx
    · rfl
    · exact (hanswer x hx).1
  · have hzero : acks R answer m = 0 :=
      acks_eq_zero fun x hx => (hanswer x hx).2
    rw [acks_cons, hzero, hmessage, Nat.zero_add]
    simp [eq_comm]

theorem Idle.gains (hidle : s.Idle s') {inputs : List Traffic}
    (hinputs : ∀ x ∈ inputs, ∃ message, x = .fromBrowser message ∧
      x.messageAck R = none) :
    s.Gains R (inputs ++ s.output s') s' := by
  obtain ⟨frames, houtput, -⟩ := hidle.output
  refine gains_of_quiet ?_ ?_ (entry_congr hidle.books)
  · intro x hx
    rcases List.mem_append.mp hx with hx | hx
    · exact (hinputs x hx).choose_spec.2
    · rw [houtput] at hx
      obtain ⟨frame, -, rfl⟩ := List.mem_map.mp hx
      rfl
  · intro x hx
    rcases List.mem_append.mp hx with hx | hx
    · rw [(hinputs x hx).choose_spec.1]
      rfl
    · rw [houtput] at hx
      obtain ⟨frame, -, rfl⟩ := List.mem_map.mp hx
      rfl

/-- Every event gains entries or loses one. -/
theorem Passes.gains_or_loses (h : s.Passes R l s') (hopen : s.isOpen = true)
    (hregistered : s.registered = true) : s.Gains R l s' ∨ s.Loses R l s' := by
  cases h with
  | @idle inputs _ hidle hinputs =>
      refine .inl (hidle.gains fun x hx => ?_)
      obtain ⟨message, heq, hnone⟩ := hinputs x hx
      exact ⟨message, heq, hnone hregistered⟩
  | login hbooks hl =>
      refine .inl (gains_of_quiet ?_ ?_ (entry_congr (s := s.numbered) hbooks))
      · rcases hl with rfl | ⟨now, rfl⟩
        · simp
        · simp [Traffic.messageAck]
      · rcases hl with rfl | ⟨now, rfl⟩
        · simp
        · simp [Traffic.livePush]
  | @refuse message clientMsgId _ _ hmessage hbooks hl =>
      have hnone := messageAck_of_sendMessage hmessage
      refine .inl (gains_of_quiet ?_ ?_ ?_)
      · rcases hl with rfl | ⟨reason, rfl⟩
        · simpa using hnone
        · simpa [Traffic.messageAck] using hnone
      · rcases hl with rfl | ⟨reason, rfl⟩
        · simp [Traffic.livePush]
        · simp [Traffic.livePush]
      · rcases hbooks with hbooks | hbooks
        · exact entry_congr hbooks
        · exact entry_congr (s := s.expecting clientMsgId) hbooks
  | @forward message clientMsgId now toUid content _ hmessage hbooks =>
      have hnone := messageAck_of_sendMessage hmessage
      refine .inl (gains_of_quiet ?_ ?_
        (entry_congr (s := s.expecting clientMsgId) hbooks))
      · simpa [Traffic.messageAck] using hnone
      · simp [Traffic.livePush]
  | @acknowledge message msgId seq l _ hmessage hseq hbooks hl =>
      have hentry : ∀ m, s'.entry m = if m = msgId then 0 else s.entry m := by
        intro m
        rw [entry_congr hbooks, entry_noted]
        rfl
      have hone : s.entry msgId ≠ 0 := by
        rw [entry, hseq]
        exact Nat.one_ne_zero
      obtain ⟨answer, rfl, hanswer, htells⟩ : ∃ answer,
          l = .fromBrowser message :: answer ∧
          (∀ x ∈ answer, x.livePush = none ∧ x.messageAck R = none) ∧
          ¬TellsUnknown R (.fromBrowser message :: answer) := by
        rcases hl with rfl | ⟨now, rfl⟩
        · refine ⟨[], rfl, by simp, ?_⟩
          rintro ⟨_, _, -, -, heq⟩
          cases heq
        · refine ⟨_, rfl, by simp [Traffic.livePush, Traffic.messageAck], ?_⟩
          rintro ⟨_, _, -, -, heq⟩
          cases heq
      exact .inr (loses_of_entry hmessage hanswer hentry
        ⟨fun h => absurd h htells, fun h => absurd h hone⟩)
  | @unknown message x _ hx hmessage hseq hbooks =>
      have hzero : s.entry x.toNat = 0 := by
        rw [entry, hseq]
        rfl
      rw [if_pos hopen]
      refine .inr (loses_of_entry hmessage ?_ ?_ ?_)
      · simp [Traffic.livePush, Traffic.messageAck]
      · intro m
        rw [entry_congr hbooks]
        split
        · next heq => rw [heq, hzero]
        · rfl
      · exact ⟨fun _ => hzero, fun _ => ⟨message, x, hx, hmessage, rfl⟩⟩
  | @receive s₁ s' now envelopes hbooks hsent hwritten hs' =>
      subst hs'
      obtain ⟨frames, hframes, hsame, -⟩ :=
        handleEnvelopes_induct (R := R) (P := fun _ _ => True) now envelopes s₁
          trivial (fun _ _ _ _ _ _ _ _ => trivial)
      have houtput := output_eq (s := s) (hframes.trans (by rw [hsent]))
        ((hsame.trans hwritten).trans (List.append_nil _).symm)
      rw [List.map_nil, List.append_nil] at houtput
      refine .inl fun msgId hpos => ?_
      have hfrom : acks R (envelopes.map .fromServer) msgId = 0 := by
        apply acks_eq_zero
        intro x hx
        obtain ⟨envelope, -, rfl⟩ := List.mem_map.mp hx
        rfl
      have hto : acks R (frames.map .toBrowser) msgId = 0 ∧
          pushes (frames.map .toBrowser) msgId = 0 := by
        constructor
        · apply acks_eq_zero
          intro x hx
          obtain ⟨frame, -, rfl⟩ := List.mem_map.mp hx
          rfl
        · apply pushes_eq_zero
          intro x hx
          obtain ⟨frame, -, rfl⟩ := List.mem_map.mp hx
          rfl
      rw [houtput, acks_append, pushes_append, hfrom, hto.1, hto.2,
        entry_handleEnvelopes now envelopes s₁ hpos, entry_congr hbooks]
      exact ⟨rfl, rfl⟩

end Session

/-! ## Runs -/

section Runs

variable {R : Runtime} {t l : List Traffic} {s s' : Session}

/-- While no acknowledgement was unknown, a message that had two pushes
outstanding at some time has more pushes than acknowledgements and entries. -/
def Surplus (R : Runtime) (t : List Traffic) (s : Session) : Prop :=
  ∀ t', t' <+: t → ∀ msgId, 0 < msgId →
    pushes t' msgId + acks R t msgId + s.entry msgId ≤
      acks R t' msgId + 1 + pushes t msgId

/-- Every push has been acknowledged, but for those with an entry. -/
def Exact (R : Runtime) (t : List Traffic) (s : Session) : Prop :=
  ∀ msgId, 0 < msgId → acks R t msgId + s.entry msgId = pushes t msgId

theorem passing_eq_nil {n : ℕ} {past : List (GatewayState × GatewayEvent)}
    (h : traffic R n past = []) :
    ∀ step ∈ past, step.1.passing R n step.2 = [] := by
  induction past with
  | nil => intro step hstep; cases hstep
  | cons step past ih =>
      rw [traffic, List.append_eq_nil_iff] at h
      exact List.forall_mem_cons.mpr ⟨h.2, ih h.1⟩

theorem entry_le_one (s : Session) (msgId : ℕ) : s.entry msgId ≤ 1 := by
  rw [Session.entry]
  split
  · exact Nat.le_refl 1
  · exact Nat.zero_le 1

theorem Surplus.gains (h : Surplus R t s) (hgains : s.Gains R l s') :
    Surplus R (t ++ l) s' := by
  intro t' ht' msgId hpos
  obtain ⟨hacks, hentry⟩ := hgains msgId hpos
  have hle := entry_le_one s msgId
  rw [pushes_append, acks_append, hacks, hentry]
  have hcases : t' <+: t ∨ ∃ l', l' <+: l ∧ t' = t ++ l' :=
    (List.prefix_or_prefix_of_prefix ht' (List.prefix_append t l)).imp_right
      fun ⟨l', heq⟩ => ⟨l', (List.prefix_append_right_inj t).mp (heq ▸ ht'),
        heq.symm⟩
  rcases hcases with ht' | ⟨l', hl', rfl⟩
  · have hbefore := h t' ht' msgId hpos
    split
    · omega
    · omega
  · have hbefore := h t (List.prefix_refl t) msgId hpos
    have hmore : pushes l' msgId ≤ pushes l msgId := pushes_prefix hl'
    rw [pushes_append, acks_append]
    split
    · omega
    · omega

theorem Surplus.loses (h : Surplus R t s) (hloses : s.Loses R l s')
    (htells : ¬TellsUnknown R l) : Surplus R (t ++ l) s' := by
  obtain ⟨m, -, hpushes, hacks, hentry, htold⟩ := hloses
  have hone : s.entry m = 1 := by
    have hle := entry_le_one s m
    have hne : s.entry m ≠ 0 := fun hzero => htells (htold.mpr hzero)
    omega
  intro t' ht' msgId hpos
  have hsame : s'.entry msgId + acks R l msgId = s.entry msgId := by
    rw [hentry, hacks]
    split
    · next heq => rw [heq, hone]
    · rfl
  rw [pushes_append, acks_append, hpushes]
  rcases List.prefix_or_prefix_of_prefix ht' (List.prefix_append t l) with
    ht' | ⟨l', rfl⟩
  · have hbefore := h t' ht' msgId hpos
    omega
  · have hbefore := h t (List.prefix_refl t) msgId hpos
    have hnone : pushes l' msgId ≤ pushes l msgId :=
      pushes_prefix ((List.prefix_append_right_inj t).mp ht')
    rw [hpushes] at hnone
    rw [pushes_append, acks_append]
    omega

/-- If no acknowledgement was unknown, the pushes in between show. -/
theorem surplus_of_known {n : ℕ} (e : GatewayRun R)
    (hs : e.state.sessions n = some s) (hopen : s.isOpen = true)
    (hregistered : s.registered = true)
    (hknown : ∀ step ∈ e.history,
      ¬TellsUnknown R (step.1.passing R n step.2)) :
    Surplus R (traffic R n e.history) s := by
  revert hopen hregistered hknown
  apply session_induct (R := R) (n := n) (P := fun past s =>
    s.isOpen = true → s.registered = true →
      (∀ step ∈ past, ¬TellsUnknown R (step.1.passing R n step.2)) →
      Surplus R (traffic R n past) s) _ _ e hs
  · intro past uid hnil _ _ _ t' ht' msgId _
    rw [hnil, List.prefix_nil] at ht'
    rw [hnil, ht']
    exact Nat.zero_le 1
  · intro g event past s s' ih honward hpasses hopen hregistered hknown
    have hopen₁ := honward.isOpen_of hopen
    have hregistered₁ := honward.registered_of hregistered
    have hbefore := ih hopen₁ hregistered₁ fun step hstep =>
      hknown step (List.mem_cons_of_mem _ hstep)
    rcases hpasses.gains_or_loses hopen₁ hregistered₁ with hgains | hloses
    · exact hbefore.gains hgains
    · exact hbefore.loses hloses (hknown (g, event) List.mem_cons_self)

theorem Exact.gains (h : Exact R t s) (hgains : s.Gains R l s')
    (hone : OneOutstanding R (t ++ l)) : Exact R (t ++ l) s' := by
  intro msgId hpos
  obtain ⟨hacks, hentry⟩ := hgains msgId hpos
  have hbefore := h msgId hpos
  have hmost := hone (t ++ l) (List.prefix_refl _) msgId hpos
  rw [pushes_append, acks_append, hacks] at hmost
  rw [pushes_append, acks_append, hacks, hentry]
  split
  · omega
  · omega

theorem Exact.loses (h : Exact R t s) (hloses : s.Loses R l s')
    (hafter : ∀ t', t' <+: t ++ l → ∀ msgId, 0 < msgId →
      acks R t' msgId ≤ pushes t' msgId) :
    Exact R (t ++ l) s' ∧ ¬TellsUnknown R l := by
  obtain ⟨m, hm, hpushes, hacks, hentry, htold⟩ := hloses
  have hone : s.entry m = 1 := by
    have hmost := hafter (t ++ l) (List.prefix_refl _) m hm
    rw [pushes_append, acks_append, hpushes, hacks, if_pos rfl] at hmost
    have hbefore := h m hm
    have hle := entry_le_one s m
    omega
  refine ⟨fun msgId hpos => ?_, fun htells => ?_⟩
  · have hbefore := h msgId hpos
    rw [pushes_append, acks_append, hpushes, hacks, hentry]
    by_cases heq : msgId = m
    · rw [if_pos heq, if_pos heq]
      rw [heq, hone] at hbefore
      rw [heq]
      omega
    · rw [if_neg heq, if_neg heq]
      omega
  · rw [htold, hone] at htells
    cases htells

/-- If no push came while another one of the message was outstanding, every
acknowledgement finds its entry. -/
theorem exact_of_oneOutstanding {n : ℕ} (e : GatewayRun R)
    (hs : e.state.sessions n = some s) (hopen : s.isOpen = true)
    (hregistered : s.registered = true)
    (hafter : ∀ t', t' <+: traffic R n e.history → ∀ msgId, 0 < msgId →
      acks R t' msgId ≤ pushes t' msgId)
    (hone : OneOutstanding R (traffic R n e.history)) :
    Exact R (traffic R n e.history) s ∧
      ∀ step ∈ e.history, ¬TellsUnknown R (step.1.passing R n step.2) := by
  revert hopen hregistered hafter hone
  apply session_induct (R := R) (n := n) (P := fun past s =>
    s.isOpen = true → s.registered = true →
      (∀ t', t' <+: traffic R n past → ∀ msgId, 0 < msgId →
        acks R t' msgId ≤ pushes t' msgId) →
      OneOutstanding R (traffic R n past) →
      Exact R (traffic R n past) s ∧
        ∀ step ∈ past, ¬TellsUnknown R (step.1.passing R n step.2)) _ _ e hs
  · intro past uid hnil _ _ _ _
    rw [hnil]
    refine ⟨fun msgId _ => rfl, fun step hstep htells => ?_⟩
    obtain ⟨_, _, -, -, hpassing⟩ := htells
    rw [passing_eq_nil hnil step hstep] at hpassing
    cases hpassing
  · intro g event past s s' ih honward hpasses hopen hregistered hafter hone
    have hopen₁ := honward.isOpen_of hopen
    have hregistered₁ := honward.registered_of hregistered
    rw [traffic] at hafter hone
    have hbefore := ih hopen₁ hregistered₁
      (fun t' ht' => hafter t' (ht'.trans (List.prefix_append _ _)))
      (fun t' ht' => hone t' (ht'.trans (List.prefix_append _ _)))
    rw [traffic]
    rcases hpasses.gains_or_loses hopen₁ hregistered₁ with hgains | hloses
    · refine ⟨hbefore.1.gains hgains hone, ?_⟩
      exact List.forall_mem_cons.mpr ⟨hgains.not_tells, hbefore.2⟩
    · obtain ⟨hexact, hknown⟩ := hbefore.1.loses hloses hafter
      exact ⟨hexact, List.forall_mem_cons.mpr ⟨hknown, hbefore.2⟩⟩

end Runs

/-- While the session is open and its client in use, and the browser acknowledges
every push once, no acknowledgement is answered as unknown exactly if no message
was pushed again while a push of it was outstanding. -/
theorem acknowledgements_known_iff (R : Runtime) (e : GatewayRun R) {n : ℕ}
    {s : Session} (hs : e.state.sessions n = some s) (hopen : s.isOpen = true)
    (hregistered : s.registered = true)
    (hbrowser : AcknowledgesPushes R (traffic R n e.history)) :
    (∀ step ∈ e.history, ¬TellsUnknown R (step.1.passing R n step.2)) ↔
      OneOutstanding R (traffic R n e.history) := by
  constructor
  · intro hknown t' ht' msgId hpos
    have hsurplus :=
      surplus_of_known e hs hopen hregistered hknown t' ht' msgId hpos
    have honce := hbrowser.once msgId hpos
    omega
  · intro hone
    exact (exact_of_oneOutstanding e hs hopen hregistered hbrowser.after hone).2

/-! ## Two runs -/

theorem acks_pushes_eq_zero {R : Runtime} {t : List Traffic} {msgId : ℕ}
    (h : msgId ∉ t.filterMap (Traffic.messageAck R) ++
      t.filterMap Traffic.livePush) :
    acks R t msgId = 0 ∧ pushes t msgId = 0 := by
  rw [List.mem_append, not_or, List.mem_filterMap, List.mem_filterMap] at h
  constructor
  · rw [acks, List.countP_eq_zero]
    intro x hx hack
    exact h.1 ⟨x, hx, of_decide_eq_true hack⟩
  · rw [pushes, List.countP_eq_zero]
    intro x hx hpush
    exact h.2 ⟨x, hx, of_decide_eq_true hpush⟩

/-- It is enough to look at the messages that occur. -/
theorem acknowledgesPushes_of_forall {R : Runtime} {t : List Traffic}
    (hafter : ∀ t' ∈ t.inits, ∀ msgId ∈ t.filterMap (Traffic.messageAck R) ++
      t.filterMap Traffic.livePush, acks R t' msgId ≤ pushes t' msgId)
    (honce : ∀ msgId ∈ t.filterMap (Traffic.messageAck R) ++
      t.filterMap Traffic.livePush, acks R t msgId = pushes t msgId) :
    AcknowledgesPushes R t := by
  constructor
  · intro t' ht' msgId _
    by_cases hmem : msgId ∈ t.filterMap (Traffic.messageAck R) ++
        t.filterMap Traffic.livePush
    · exact hafter t' ((List.mem_inits t' t).mpr ht') msgId hmem
    · have hzero := (acks_pushes_eq_zero hmem).1
      have hle : acks R t' msgId ≤ acks R t msgId := acks_prefix ht'
      omega
  · intro msgId _
    by_cases hmem : msgId ∈ t.filterMap (Traffic.messageAck R) ++
        t.filterMap Traffic.livePush
    · exact honce msgId hmem
    · rw [(acks_pushes_eq_zero hmem).1, (acks_pushes_eq_zero hmem).2]

/-- The run of the events, in which the session stays open and the browser
acknowledges every push. -/
theorem exists_acknowledging (events : List GatewayEvent)
    (hsession : (((gatewayDriver sampleRuntime).follow {} events).sessions 0).any
      (fun s => s.isOpen && s.registered && s.client.connected &&
        s.client.hasSocket) = true)
    (hbrowser : AcknowledgesPushes sampleRuntime (traffic sampleRuntime 0
      ((gatewayDriver sampleRuntime).trace {} events).reverse)) :
    ∃ (e : GatewayRun sampleRuntime) (s : Session),
      e.history = ((gatewayDriver sampleRuntime).trace {} events).reverse ∧
      e.state.sessions 0 = some s ∧ s.isOpen = true ∧ s.registered = true ∧
      s.client.connected = true ∧ s.client.hasSocket = true ∧
      AcknowledgesPushes sampleRuntime (traffic sampleRuntime 0 e.history) := by
  obtain ⟨e, -, hstate, hhistory⟩ := (gatewayDriver sampleRuntime).exists_follow
    events ⟨[], {}, .init rfl⟩
  rw [List.append_nil] at hhistory
  rw [← show e.state = _ from hstate] at hsession
  obtain ⟨s, hs, hsession⟩ := (Option.any_eq_true _ _).mp hsession
  simp only [Bool.and_eq_true] at hsession
  obtain ⟨⟨⟨hopen, hregistered⟩, hconnected⟩, hsocket⟩ := hsession
  refine ⟨e, s, hhistory, hs, hopen, hregistered, hconnected, hsocket, ?_⟩
  rw [hhistory]
  exact hbrowser

/-- Message 1 is pushed and acknowledged, and once more. -/
theorem acknowledgements_known_iff_redelivered :
    ∃ e : GatewayRun sampleRuntime,
      pushes (traffic sampleRuntime 0 e.history) 1 = 2 ∧
      ((∀ step ∈ e.history,
          ¬TellsUnknown sampleRuntime (step.1.passing sampleRuntime 0 step.2)) ↔
        OneOutstanding sampleRuntime (traffic sampleRuntime 0 e.history)) := by
  obtain ⟨e, s, hhistory, hs, hopen, hregistered, -, -, hbrowser⟩ :=
    exists_acknowledging (sampleSession ++
      [.wsMessage 0 1000 (.buffer sampleAck),
       .imData 0 1000
        (MessageCodec.encode Envelope.serializeToString samplePush),
       .wsMessage 0 1000 (.buffer sampleAck)])
      (by decide +kernel) (acknowledgesPushes_of_forall (by decide +kernel)
        (by decide +kernel))
  refine ⟨e, ?_, acknowledgements_known_iff sampleRuntime e hs hopen hregistered
    hbrowser⟩
  rw [hhistory]
  decide +kernel

/-- Message 1 is pushed twice before the browser acknowledges it twice: the
second time it is told that the message is unknown. -/
theorem acknowledgement_unknown :
    ∃ (e : GatewayRun sampleRuntime) (s : Session),
      e.state.sessions 0 = some s ∧ s.isOpen = true ∧ s.registered = true ∧
      s.client.connected = true ∧ s.client.hasSocket = true ∧
      AcknowledgesPushes sampleRuntime (traffic sampleRuntime 0 e.history) ∧
      ∃ step ∈ e.history,
        TellsUnknown sampleRuntime (step.1.passing sampleRuntime 0 step.2) := by
  obtain ⟨e, s, hhistory, hs, hopen, hregistered, hconnected, hsocket,
      hbrowser⟩ :=
    exists_acknowledging (sampleSession ++
      [.imData 0 1000
        (MessageCodec.encode Envelope.serializeToString samplePush),
       .wsMessage 0 1000 (.buffer sampleAck),
       .wsMessage 0 1000 (.buffer sampleAck)])
      (by decide +kernel) (acknowledgesPushes_of_forall (by decide +kernel)
        (by decide +kernel))
  refine ⟨e, s, hs, hopen, hregistered, hconnected, hsocket, hbrowser, ?_⟩
  by_contra hknown
  have hsurplus := surplus_of_known e hs hopen hregistered
    (fun step hstep htells => hknown ⟨step, hstep, htells⟩)
    ((traffic sampleRuntime 0 e.history).take 7) (List.take_prefix _ _) 1
    Nat.one_pos
  have honce := hbrowser.once 1 Nat.one_pos
  have htwice : acks sampleRuntime ((traffic sampleRuntime 0 e.history).take 7)
      1 + 1 < pushes ((traffic sampleRuntime 0 e.history).take 7) 1 := by
    rw [hhistory]
    decide +kernel
  omega

end ReliableDelivery
