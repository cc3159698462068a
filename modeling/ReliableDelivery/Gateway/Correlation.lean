import ReliableDelivery.Gateway.Exceptions
import ReliableDelivery.Gateway.Traffic
import ReliableDelivery.Support.Matching

/-!
# What the gateway acknowledges

The gateway translates between three numberings.  `pendingSends` leads from the
sequence number of a request back to the `client_msg_id` of the browser, and
`pushSeqByMsgId` from the `msg_id` of a push to its sequence number.  The two are
changed by events of either side, and a send that fails at once is answered
without the server.  The invariants match each answer with what it answers, as
places of the session's traffic.
-/

namespace ReliableDelivery

open Ecmascript TransitionSystem Matching Traffic

/-- The server acknowledges requests that were sent to it. -/
def AnswersRequests (t : List Traffic) : Prop :=
  ∀ k ack, At serverAck t k ack → ∃ j < k, At request t j ack.1

/-- The `send_ack` at place `i` answers the `send_message` at place `p`, and if it
is positive, with the `msg_id` by which the server acknowledged the request made
of that very message. -/
def AnswersMessage (R : Runtime) (t : List Traffic) (i : ℕ)
    (ack : Bool × Text × ℕ) (p : ℕ) : Prop :=
  p < i ∧ At (sendMessage R) t p ack.2.1 ∧
    (ack.1 = true → ∃ seq k,
      At chatReq t (p + 1) (seq, R.utf8Write ack.2.1) ∧ p + 1 < k ∧ k < i ∧
        At serverAck t k (seq, ack.2.2, true))

/-- The ACK at place `i` acknowledges the push at place `p`, after the browser has
acknowledged it. -/
def AnswersPush (R : Runtime) (t : List Traffic) (i msgId p : ℕ) : Prop :=
  p < i ∧ At livePush t p msgId ∧
    ∃ k, p < k ∧ k < i ∧ At (messageAck R) t k msgId

variable {R : Runtime} {t : List Traffic}

theorem AnswersRequests.of_append {l : List Traffic}
    (h : AnswersRequests (t ++ l)) : AnswersRequests t := by
  intro k ack hk
  obtain ⟨j, hj, hrequest⟩ := h k ack (hk.append l)
  have hlt := hk.lt
  refine ⟨j, hj, ?_⟩
  rcases at_append.mp hrequest with hrequest | ⟨hle, -⟩
  · exact hrequest
  · omega

theorem AnswersRequests.append_frames (h : AnswersRequests t)
    (frames : List BrowserFrame) :
    AnswersRequests (t ++ frames.map .toBrowser) := by
  intro k ack hk
  have hnone : ∀ x ∈ frames.map Traffic.toBrowser, x.serverAck = none := by
    intro x hx
    obtain ⟨frame, -, rfl⟩ := List.mem_map.mp hx
    rfl
  obtain ⟨j, hj, hrequest⟩ := h k ack ((at_append_none hnone).mp hk)
  exact ⟨j, hj, hrequest.append _⟩

theorem AnswersMessage.append {i p : ℕ} {ack : Bool × Text × ℕ}
    (h : AnswersMessage R t i ack p) (l : List Traffic) :
    AnswersMessage R (t ++ l) i ack p := by
  obtain ⟨hp, hmessage, hok⟩ := h
  refine ⟨hp, hmessage.append l, fun h => ?_⟩
  obtain ⟨seq, k, hreq, hpk, hki, hack⟩ := hok h
  exact ⟨seq, k, hreq.append l, hpk, hki, hack.append l⟩

theorem AnswersPush.append {i msgId p : ℕ} (h : AnswersPush R t i msgId p)
    (l : List Traffic) : AnswersPush R (t ++ l) i msgId p := by
  obtain ⟨hp, hpush, k, hpk, hki, hack⟩ := h
  exact ⟨hp, hpush.append l, k, hpk, hki, hack.append l⟩

/-! ## Sends -/

/-- Every `send_ack` has a `send_message` of its own.  A pending send belongs to
one that has not been answered and whose request went to the server, or the
server never got its sequence number. -/
structure SendsMatched (R : Runtime) (t : List Traffic)
    (pendingSends : ℕ → Option Text) (nextSeq : ℕ) (origin : ℕ → ℕ) : Prop where
  requests : ∀ j seq, At request t j seq → seq < nextSeq
  distinct : ∀ i j seq, At request t i seq → At request t j seq → i = j
  matched : Matched sendAck (AnswersMessage R) t origin
  pending : ∀ seq clientMsgId, pendingSends seq = some clientMsgId →
    seq < nextSeq ∧
      ((∃ p, At (sendMessage R) t p clientMsgId ∧
          At chatReq t (p + 1) (seq, R.utf8Write clientMsgId) ∧
          Unused sendAck t origin p) ∨
        ∀ j, ¬At request t j seq)

namespace SendsMatched

variable {pendingSends : ℕ → Option Text} {nextSeq : ℕ} {origin : ℕ → ℕ}

theorem append (h : SendsMatched R t pendingSends nextSeq origin)
    {l : List Traffic} (hack : ∀ x ∈ l, x.sendAck = none)
    (hrequest : ∀ x ∈ l, x.request = none) :
    SendsMatched R (t ++ l) pendingSends nextSeq origin where
  requests j seq hj := h.requests j seq ((at_append_none hrequest).mp hj)
  distinct i j seq hi hj := h.distinct i j seq
    ((at_append_none hrequest).mp hi) ((at_append_none hrequest).mp hj)
  matched := h.matched.append (fun _ l _ _ _ h => h.append l) hack
  pending seq clientMsgId hseq := by
    obtain ⟨hlt, hcases⟩ := h.pending seq clientMsgId hseq
    refine ⟨hlt, ?_⟩
    rcases hcases with ⟨p, hmessage, hreq, hunused⟩ | hnone
    · exact .inl ⟨p, hmessage.append l, hreq.append l, hunused.append hack⟩
    · exact .inr fun j hj => hnone j ((at_append_none hrequest).mp hj)

/-- A sequence number is taken. -/
theorem number (h : SendsMatched R t pendingSends nextSeq origin) :
    SendsMatched R t pendingSends (nextSeq + 1) origin where
  requests j seq hj := Nat.lt_succ_of_lt (h.requests j seq hj)
  distinct := h.distinct
  matched := h.matched
  pending seq clientMsgId hseq := by
    obtain ⟨hlt, hcases⟩ := h.pending seq clientMsgId hseq
    exact ⟨Nat.lt_succ_of_lt hlt, hcases⟩

/-- A request goes out with the next sequence number. -/
theorem request (h : SendsMatched R t pendingSends nextSeq origin) {x : Traffic}
    (hx : x.request = some nextSeq) (hack : x.sendAck = none) :
    SendsMatched R (t ++ [x]) pendingSends (nextSeq + 1) origin where
  requests j seq hj := by
    rcases at_concat.mp hj with hj | ⟨-, hseq⟩
    · exact Nat.lt_succ_of_lt (h.requests j seq hj)
    · rw [hx, Option.some.injEq] at hseq
      omega
  distinct i j seq hi hj := by
    rcases at_concat.mp hi with hi₁ | ⟨rfl, hnew⟩
    · rcases at_concat.mp hj with hj₁ | ⟨rfl, hnew⟩
      · exact h.distinct i j seq hi₁ hj₁
      · rw [hx, Option.some.injEq] at hnew
        have hlt := h.requests i seq hi₁
        omega
    · rcases at_concat.mp hj with hj₁ | ⟨rfl, -⟩
      · rw [hx, Option.some.injEq] at hnew
        have hlt := h.requests j seq hj₁
        omega
      · rfl
  matched := h.matched.append (fun _ l _ _ _ h => h.append l) (by simpa using hack)
  pending seq clientMsgId hseq := by
    obtain ⟨hlt, hcases⟩ := h.pending seq clientMsgId hseq
    refine ⟨Nat.lt_succ_of_lt hlt, ?_⟩
    rcases hcases with ⟨p, hmessage, hreq, hunused⟩ | hnone
    · exact .inl ⟨p, hmessage.append _, hreq.append _,
        hunused.append (by simpa using hack)⟩
    · refine .inr fun j hj => ?_
      rcases at_concat.mp hj with hj | ⟨-, hj⟩
      · exact hnone j hj
      · rw [hx, Option.some.injEq] at hj
        omega

/-- A send becomes pending under a sequence number that was taken for it. -/
theorem expect (h : SendsMatched R t pendingSends (nextSeq + 1) origin)
    {clientMsgId : Text}
    (hcases : (∃ p, At (sendMessage R) t p clientMsgId ∧
        At chatReq t (p + 1) (nextSeq, R.utf8Write clientMsgId) ∧
        Unused sendAck t origin p) ∨
      ∀ j, ¬At Traffic.request t j nextSeq) :
    SendsMatched R t
      (Function.update pendingSends nextSeq (some clientMsgId)) (nextSeq + 1)
      origin where
  requests := h.requests
  distinct := h.distinct
  matched := h.matched
  pending seq clientMsgId' hseq := by
    rw [Function.update_apply] at hseq
    split at hseq
    · next heq =>
        cases hseq
        subst heq
        exact ⟨Nat.lt_succ_self _, hcases⟩
    · exact h.pending seq clientMsgId' hseq

/-- A send is no longer pending. -/
theorem settle (h : SendsMatched R t pendingSends nextSeq origin) (seq : ℕ) :
    SendsMatched R t (Function.update pendingSends seq none) nextSeq origin where
  requests := h.requests
  distinct := h.distinct
  matched := h.matched
  pending seq' clientMsgId hseq := by
    rw [Function.update_apply] at hseq
    split at hseq
    · cases hseq
    · exact h.pending seq' clientMsgId hseq

/-- A `send_message` is answered that was not answered before. -/
theorem answer (h : SendsMatched R t pendingSends nextSeq origin)
    {x : Traffic} {ack : Bool × Text × ℕ} {p : ℕ} (hx : x.sendAck = some ack)
    (hrequest : x.request = none) (hunused : Unused sendAck t origin p)
    (hanswers : AnswersMessage R t t.length ack p)
    (hother : ∀ seq clientMsgId, pendingSends seq = some clientMsgId →
      ¬At chatReq t (p + 1) (seq, R.utf8Write clientMsgId)) :
    SendsMatched R (t ++ [x]) pendingSends nextSeq
      (Function.update origin t.length p) where
  requests j seq hj :=
    h.requests j seq ((at_append_none (by simpa using hrequest)).mp hj)
  distinct i j seq hi hj := h.distinct i j seq
    ((at_append_none (by simpa using hrequest)).mp hi)
    ((at_append_none (by simpa using hrequest)).mp hj)
  matched := h.matched.concat (fun _ l _ _ _ h => h.append l) hunused hx
    (hanswers.append [x])
  pending seq clientMsgId hseq := by
    obtain ⟨hlt, hcases⟩ := h.pending seq clientMsgId hseq
    refine ⟨hlt, ?_⟩
    rcases hcases with ⟨p', hmessage, hreq, hunused'⟩ | hnone
    · have hne : p ≠ p' := by
        rintro rfl
        exact hother seq clientMsgId hseq hreq
      exact .inl ⟨p', hmessage.append _, hreq.append _, hunused'.concat hne x⟩
    · exact .inr fun j hj =>
        hnone j ((at_append_none (by simpa using hrequest)).mp hj)

end SendsMatched

theorem request_of_chatReq {x : Traffic} {seq : ℕ} {clientMsgId : Decimal.Bytes}
    (h : x.chatReq = some (seq, clientMsgId)) : x.request = some seq := by
  rw [Traffic.chatReq.eq_def] at h
  split at h
  · cases h
    rfl
  · cases h

theorem request_at {j seq : ℕ} {clientMsgId : Decimal.Bytes}
    (h : At chatReq t j (seq, clientMsgId)) : At Traffic.request t j seq := by
  rw [At, Option.bind_eq_some_iff] at h ⊢
  obtain ⟨x, hx, hreq⟩ := h
  exact ⟨x, hx, request_of_chatReq hreq⟩

section Sends

variable {s s' : Session} {origin : ℕ → ℕ}

/-- The sends of the session are matched. -/
abbrev Session.Sends (R : Runtime) (t : List Traffic) (s : Session)
    (origin : ℕ → ℕ) : Prop :=
  SendsMatched R t s.client.pendingSends s.client.nextSeq origin

theorem Session.Sends.congr (h : s.Sends R t origin)
    (hbooks : s'.client.books = s.client.books) : s'.Sends R t origin := by
  obtain ⟨hpending, hseq, -⟩ := books_eq hbooks
  rw [Session.Sends, hpending, hseq]
  exact h

/-- A `send_message` that has just been received is not answered yet. -/
theorem Session.Sends.unused (h : s.Sends R t origin) {p : ℕ}
    (hp : t.length ≤ p + 1) : Unused sendAck t origin p :=
  h.matched.unused_last (fun _ _ _ _ hanswers => hanswers.1) hp

theorem Session.Sends.expecting (h : s.Sends R t origin) (clientMsgId : Text) :
    (s.expecting clientMsgId).Sends R t origin := by
  refine h.number.expect (.inr fun j hj => ?_)
  exact Nat.lt_irrefl _ (h.requests j _ hj)

theorem Session.Sends.forward (h : s.Sends R t origin) {message : BrowserMessage}
    {clientMsgId : Text} (hmessage : (Traffic.fromBrowser message).sendMessage R =
      some clientMsgId) (now toUid : ℕ) (content : Text) :
    (s.expecting clientMsgId).Sends R
      (t ++ [.fromBrowser message] ++
        [.toServer (s.chatRequest R now toUid content clientMsgId)]) origin := by
  have hread : s.Sends R (t ++ [.fromBrowser message]) origin :=
    h.append (by simp [Traffic.sendAck]) (by simp [Traffic.request])
  have hlength : (t ++ [Traffic.fromBrowser message]).length = t.length + 1 :=
    List.length_append
  have hsent := hread.request
    (x := .toServer (s.chatRequest R now toUid content clientMsgId)) rfl rfl
  refine hsent.expect (.inl ⟨t.length, ?_, ?_, ?_⟩)
  · exact (at_concat.mpr (.inr ⟨rfl, hmessage⟩)).append _
  · exact at_concat.mpr (.inr ⟨hlength.symm, rfl⟩)
  · exact (hread.unused (by omega)).append (by simp [Traffic.sendAck])

theorem Session.Sends.refuse (h : s.Sends R t origin) {message : BrowserMessage}
    {clientMsgId : Text}
    (hmessage : (Traffic.fromBrowser message).sendMessage R =
      some clientMsgId) (reason : Text) :
    ∃ origin', s.Sends R (t ++ [.fromBrowser message] ++
      [.toBrowser (.sendAck false clientMsgId 0 reason)]) origin' := by
  have hread : s.Sends R (t ++ [.fromBrowser message]) origin :=
    h.append (by simp [Traffic.sendAck]) (by simp [Traffic.request])
  have hlength : (t ++ [Traffic.fromBrowser message]).length = t.length + 1 :=
    List.length_append
  refine ⟨_, hread.answer (p := t.length) rfl rfl (hread.unused (by omega)) ?_ ?_⟩
  · refine ⟨by omega, at_concat.mpr (.inr ⟨rfl, hmessage⟩), fun hok => ?_⟩
    cases hok
  · intro seq clientMsgId' _ hreq
    have hlt := hreq.lt
    omega

/-- Frames other than `send_ack` change nothing. -/
theorem Session.Sends.frames (h : s.Sends R t origin)
    {frames : List BrowserFrame}
    (hframes : ∀ frame ∈ frames, (Traffic.toBrowser frame).sendAck = none) :
    s.Sends R (t ++ frames.map .toBrowser) origin := by
  apply h.append
  · intro x hx
    obtain ⟨frame, hframe, rfl⟩ := List.mem_map.mp hx
    exact hframes frame hframe
  · intro x hx
    obtain ⟨frame, -, rfl⟩ := List.mem_map.mp hx
    rfl

/-- The server acknowledges a pending send at place `k`: the request went out in
answer to a `send_message` that has not been answered. -/
theorem Session.Sends.origin_of_ack (h : s.Sends R t origin) {k j : ℕ}
    {ack : ℕ × ℕ × Bool} {clientMsgId : Text} (hack : At serverAck t k ack)
    (hj : j < k) (hrequest : At Traffic.request t j ack.1)
    (hpending : s.client.pendingSends ack.1 = some clientMsgId) :
    ∃ p, At chatReq t (p + 1) (ack.1, R.utf8Write clientMsgId) ∧
      Unused sendAck t origin p ∧
      AnswersMessage R t t.length (ack.2.2, clientMsgId, ack.2.1) p := by
  obtain ⟨-, ⟨p, hmessage, hreq, hunused⟩ | hnone⟩ := h.pending _ _ hpending
  · have hplace := h.distinct _ _ _ (request_at hreq) hrequest
    have hlt := hack.lt
    refine ⟨p, hreq, hunused, by omega, hmessage, fun hok => ?_⟩
    refine ⟨ack.1, k, hreq, by omega, by omega, ?_⟩
    have hvalue : ack = (ack.1, ack.2.1, true) := by
      rw [← show ack.2.2 = true from hok]
    rw [← hvalue]
    exact hack
  · exact absurd hrequest (hnone j)

theorem Session.Sends.heeds (h : s.Sends R t origin) (hserver : AnswersRequests t)
    {x : EnvelopeObject} {k : ℕ} (hx : t[k]? = some (.fromServer x))
    {frames : List BrowserFrame} (hheeds : s.Heeds x frames s') :
    ∃ origin', s'.Sends R (t ++ frames.map .toBrowser) origin' := by
  cases hheeds with
  | ignore hbooks hpush =>
      exact ⟨origin, (h.congr hbooks).frames (by simp)⟩
  | push hpush hbooks hframes =>
      have hsame : (s.pushed x).Sends R t origin := by
        rw [Session.pushed]
        split
        · split
          · exact h
          · exact h
        · exact h
      exact ⟨origin, (hsame.congr hbooks).frames hframes⟩
  | @settle clientMsgId _ _ htype hpending hbooks hframes =>
      have hack : At serverAck t k x.acked := by
        rw [At, hx]
        exact if_pos htype
      obtain ⟨j, hj, hrequest⟩ := hserver k x.acked hack
      obtain ⟨p, hreq, hunused, hanswers⟩ :=
        h.origin_of_ack hack hj hrequest hpending
      have hsettled : (s.settled x.acked.1).Sends R t origin :=
        h.settle x.acked.1
      rcases hframes with rfl | ⟨reason, rfl⟩
      · exact ⟨origin, (hsettled.congr hbooks).frames (by simp)⟩
      · refine ⟨_, Session.Sends.congr (hsettled.answer (p := p) rfl rfl hunused
          hanswers ?_) hbooks⟩
        intro seq clientMsgId' hother hreq'
        obtain ⟨rfl, -⟩ := Prod.mk.injEq .. ▸ hreq.unique hreq'
        have hnone : (s.settled x.acked.1).client.pendingSends x.acked.1 =
            none :=
          Function.update_self ..
        rw [hnone] at hother
        cases hother

/-- The sends stay matched in every event. -/
theorem Session.Sends.passes (h : s.Sends R t origin) {l : List Traffic}
    (hserver : AnswersRequests (t ++ l)) (hpasses : s.Passes R l s') :
    ∃ origin', s'.Sends R (t ++ l) origin' := by
  cases hpasses with
  | @idle inputs _ hidle hinputs =>
      obtain ⟨frames, houtput, hframes⟩ := hidle.output
      have hread : s.Sends R (t ++ inputs) origin := by
        apply h.append
        · intro x hx
          obtain ⟨message, rfl, -⟩ := hinputs x hx
          rfl
        · intro x hx
          obtain ⟨message, rfl, -⟩ := hinputs x hx
          rfl
      rw [houtput, ← List.append_assoc]
      exact ⟨origin, (hread.congr hidle.books).frames hframes⟩
  | login hbooks hl =>
      rcases hl with rfl | ⟨now, rfl⟩
      · rw [List.append_nil]
        exact ⟨origin, Session.Sends.congr (s := s.numbered) h.number hbooks⟩
      · exact ⟨origin, Session.Sends.congr (s := s.numbered)
          (h.request rfl rfl) hbooks⟩
  | @refuse message clientMsgId _ _ hmessage hbooks hl =>
      have hbefore : ∃ s₁ : Session, s₁.Sends R t origin ∧
          s'.client.books = s₁.client.books := by
        rcases hbooks with hbooks | hbooks
        · exact ⟨s, h, hbooks⟩
        · exact ⟨_, h.expecting clientMsgId, hbooks⟩
      obtain ⟨s₁, h₁, hbooks⟩ := hbefore
      rcases hl with rfl | ⟨reason, rfl⟩
      · have hread : s₁.Sends R (t ++ [.fromBrowser message]) origin :=
          h₁.append (by simp [Traffic.sendAck]) (by simp [Traffic.request])
        exact ⟨origin, hread.congr hbooks⟩
      · obtain ⟨origin', hrefused⟩ := h₁.refuse hmessage reason
        rw [List.append_assoc] at hrefused
        exact ⟨origin', hrefused.congr hbooks⟩
  | @forward _ _ now toUid content _ hmessage hbooks =>
      have hforward := h.forward hmessage now toUid content
      rw [List.append_assoc] at hforward
      exact ⟨origin, hforward.congr hbooks⟩
  | @acknowledge message msgId seq _ _ hmessage hseq hbooks hl =>
      have hsame : (s.noted msgId none).Sends R t origin := h
      rcases hl with rfl | ⟨now, rfl⟩
      · exact ⟨origin, Session.Sends.congr (hsame.append
          (by simp [Traffic.sendAck]) (by simp [Traffic.request])) hbooks⟩
      · exact ⟨origin, Session.Sends.congr (hsame.append
          (by simp [Traffic.sendAck])
          (by simp [Traffic.request, Session.ackEnvelope])) hbooks⟩
  | unknown hx hmessage hseq hbooks =>
      refine ⟨origin, (h.congr hbooks).append ?_ ?_⟩
      · split
        · simp [Traffic.sendAck]
        · simp [Traffic.sendAck]
      · split
        · simp [Traffic.request]
        · simp [Traffic.request]
  | @receive s₁ s' now envelopes hbooks hsent hwritten hs' =>
      subst hs'
      have hread : s₁.Sends R (t ++ envelopes.map .fromServer) origin := by
        apply (h.congr hbooks).append
        · intro x hx
          obtain ⟨envelope, -, rfl⟩ := List.mem_map.mp hx
          rfl
        · intro x hx
          obtain ⟨envelope, -, rfl⟩ := List.mem_map.mp hx
          rfl
      have hbefore : AnswersRequests (t ++ envelopes.map .fromServer) := by
        rw [← List.append_assoc] at hserver
        exact hserver.of_append
      obtain ⟨frames, hframes, hsame, origin', hsends⟩ :=
        Session.handleEnvelopes_induct (R := R) (P := fun frames s₂ =>
            ∃ origin', s₂.Sends R (t ++ envelopes.map .fromServer ++
              frames.map .toBrowser) origin') now envelopes s₁
          ⟨origin, by simpa using hread⟩ (by
            rintro frames s₂ x frames' s₃ hx ⟨origin₁, h₁⟩ hheeds
            obtain ⟨k, hk⟩ := List.mem_iff_getElem?.mp
              (List.mem_append_left (frames.map .toBrowser)
                (List.mem_append_right t (List.mem_map_of_mem hx)))
            have hanswers := hbefore.append_frames frames
            rw [List.map_append, ← List.append_assoc]
            exact h₁.heeds hanswers hk hheeds)
      have houtput := Session.output_eq (s := s) (hframes.trans (by rw [hsent]))
        ((hsame.trans hwritten).trans (List.append_nil _).symm)
      rw [houtput, List.map_nil, List.append_nil, ← List.append_assoc]
      exact ⟨origin', hsends⟩

end Sends

/-! ## Pushes -/

/-- Every ACK to the server has a push of its own, and a push whose number is
noted has not been acknowledged. -/
structure PushesMatched (R : Runtime) (t : List Traffic)
    (pushSeqByMsgId : ℕ → Option ℕ) (origin : ℕ → ℕ) : Prop where
  matched : Matched pushAck (AnswersPush R) t origin
  noted : ∀ msgId seq, 0 < msgId → pushSeqByMsgId msgId = some seq →
    ∃ p, At livePush t p msgId ∧ Unused pushAck t origin p

namespace PushesMatched

variable {pushSeqByMsgId : ℕ → Option ℕ} {origin : ℕ → ℕ} {msgId : ℕ}

theorem append (h : PushesMatched R t pushSeqByMsgId origin) {l : List Traffic}
    (hl : ∀ x ∈ l, x.pushAck = none) :
    PushesMatched R (t ++ l) pushSeqByMsgId origin where
  matched := h.matched.append (fun _ l _ _ _ h => h.append l) hl
  noted msgId seq hpos hseq := by
    obtain ⟨p, hpush, hunused⟩ := h.noted msgId seq hpos hseq
    exact ⟨p, hpush.append l, hunused.append hl⟩

theorem note (h : PushesMatched R t pushSeqByMsgId origin) (seq : ℕ)
    (hpush : 0 < msgId →
      ∃ p, At livePush t p msgId ∧ Unused pushAck t origin p) :
    PushesMatched R t (Function.update pushSeqByMsgId msgId (some seq))
      origin where
  matched := h.matched
  noted msgId' seq' hpos hseq := by
    rw [Function.update_apply] at hseq
    split at hseq
    · next heq =>
        subst heq
        exact hpush hpos
    · exact h.noted msgId' seq' hpos hseq

theorem crossOut (h : PushesMatched R t pushSeqByMsgId origin) (msgId : ℕ) :
    PushesMatched R t (Function.update pushSeqByMsgId msgId none) origin where
  matched := h.matched
  noted msgId' seq hpos hseq := by
    rw [Function.update_apply] at hseq
    split at hseq
    · cases hseq
    · exact h.noted msgId' seq hpos hseq

/-- A push is acknowledged that was not acknowledged before. -/
theorem answer (h : PushesMatched R t pushSeqByMsgId origin) {x : Traffic}
    {p : ℕ} (hx : x.pushAck = some msgId) (hunused : Unused pushAck t origin p)
    (hanswers : AnswersPush R t t.length msgId p)
    (hcrossed : pushSeqByMsgId msgId = none) :
    PushesMatched R (t ++ [x]) pushSeqByMsgId
      (Function.update origin t.length p) where
  matched := h.matched.concat (fun _ l _ _ _ h => h.append l) hunused hx
    (hanswers.append [x])
  noted msgId' seq hpos hseq := by
    obtain ⟨p', hpush, hunused'⟩ := h.noted msgId' seq hpos hseq
    have hne : p ≠ p' := by
      rintro rfl
      rw [hanswers.2.1.unique hpush, hseq] at hcrossed
      cases hcrossed
    exact ⟨p', hpush.append _, hunused'.concat hne x⟩

end PushesMatched

section Pushes

variable {s s' : Session} {origin : ℕ → ℕ}

/-- The pushes to the session are matched. -/
abbrev Session.Pushes (R : Runtime) (t : List Traffic) (s : Session)
    (origin : ℕ → ℕ) : Prop :=
  PushesMatched R t s.client.pushSeqByMsgId origin

theorem Session.Pushes.congr (h : s.Pushes R t origin)
    (hbooks : s'.client.books = s.client.books) : s'.Pushes R t origin := by
  obtain ⟨-, -, hpushes⟩ := books_eq hbooks
  rw [Session.Pushes, hpushes]
  exact h

theorem Session.Pushes.frames (h : s.Pushes R t origin)
    (frames : List BrowserFrame) :
    s.Pushes R (t ++ frames.map .toBrowser) origin := by
  apply h.append
  intro x hx
  obtain ⟨frame, -, rfl⟩ := List.mem_map.mp hx
  rfl

/-- An envelope at place `k`, after which nothing was acknowledged yet. -/
theorem Session.Pushes.heeds (h : s.Pushes R t origin) {x : EnvelopeObject}
    {k : ℕ} (hx : t[k]? = some (.fromServer x))
    (hlast : ∀ i msgId, At pushAck t i msgId → i < k)
    {frames : List BrowserFrame} (hheeds : s.Heeds x frames s') :
    s'.Pushes R (t ++ frames.map .toBrowser) origin := by
  cases hheeds with
  | ignore hbooks hpush => exact (h.congr hbooks).frames _
  | settle htype hpending hbooks hframes =>
      have hsame : (s.settled x.acked.1).Pushes R t origin := h
      exact Session.Pushes.frames (hsame.congr hbooks) _
  | push hpush hbooks hframes =>
      have hunused : Unused pushAck t origin k := by
        intro i msgId hi heq
        have hbefore := (h.matched.related i msgId hi).1
        have hlt := hlast i msgId hi
        omega
      have hpushed : (s.pushed x).Pushes R t origin := by
        obtain ⟨type, seq, timestampMs, payload⟩ := x
        subst hpush
        rw [Session.pushed]
        split
        · next msgId _ _ _ _ history hpayload =>
            split
            · exact h
            · next hhistory =>
                refine h.note seq fun _ => ⟨k, ?_, hunused⟩
                rw [At, hx]
                cases history with
                | true => exact absurd rfl hhistory
                | false =>
                    cases hpayload
                    rfl
        · exact h.note seq fun hpos => absurd hpos (Nat.lt_irrefl 0)
      exact (hpushed.congr hbooks).frames _

/-- The pushes stay matched in every event. -/
theorem Session.Pushes.passes (h : s.Pushes R t origin) {l : List Traffic}
    (hpasses : s.Passes R l s') :
    ∃ origin', s'.Pushes R (t ++ l) origin' := by
  cases hpasses with
  | @idle inputs _ hidle hinputs =>
      obtain ⟨frames, houtput, -⟩ := hidle.output
      have hread : s.Pushes R (t ++ inputs) origin := by
        apply h.append
        intro x hx
        obtain ⟨message, rfl, -⟩ := hinputs x hx
        rfl
      rw [houtput, ← List.append_assoc]
      exact ⟨origin, (hread.congr hidle.books).frames frames⟩
  | login hbooks hl =>
      have hsame : s.numbered.Pushes R t origin := h
      refine ⟨origin, (hsame.congr hbooks).append ?_⟩
      rcases hl with rfl | ⟨now, rfl⟩
      · simp
      · simp [Traffic.pushAck, Session.loginRequest]
  | @refuse message clientMsgId _ _ hmessage hbooks hl =>
      have hsame : s'.Pushes R t origin := by
        rcases hbooks with hbooks | hbooks
        · exact h.congr hbooks
        · exact Session.Pushes.congr (s := s.expecting clientMsgId) h hbooks
      refine ⟨origin, hsame.append ?_⟩
      rcases hl with rfl | ⟨reason, rfl⟩
      · simp [Traffic.pushAck]
      · simp [Traffic.pushAck]
  | @forward message clientMsgId now toUid content _ hmessage hbooks =>
      have hsame : (s.expecting clientMsgId).Pushes R t origin := h
      refine ⟨origin, (hsame.congr hbooks).append ?_⟩
      simp [Traffic.pushAck, Session.chatRequest]
  | @acknowledge message msgId seq _ _ hmessage hseq hbooks hl =>
      have hread : s.Pushes R (t ++ [.fromBrowser message]) origin :=
        h.append (by simp [Traffic.pushAck])
      have hcrossed : (s.noted msgId none).Pushes R
          (t ++ [.fromBrowser message]) origin :=
        hread.crossOut msgId
      rcases hl with rfl | ⟨now, rfl⟩
      · exact ⟨origin, Session.Pushes.congr hcrossed hbooks⟩
      · obtain ⟨p, hpush, hunused⟩ :=
          h.noted msgId seq (messageAck_pos hmessage) hseq
        have hlength : (t ++ [Traffic.fromBrowser message]).length =
            t.length + 1 := List.length_append
        have hlt := hpush.lt
        have hnone : (s.noted msgId none).client.pushSeqByMsgId msgId = none :=
          Function.update_self ..
        have hanswers : AnswersPush R (t ++ [.fromBrowser message])
            (t ++ [Traffic.fromBrowser message]).length msgId p :=
          ⟨by omega, hpush.append _, t.length, hlt, by omega,
            at_concat.mpr (.inr ⟨rfl, hmessage⟩)⟩
        have hanswered := hcrossed.answer
          (x := .toServer (Session.ackEnvelope now msgId seq)) rfl
          (hunused.append (by simp [Traffic.pushAck])) hanswers hnone
        rw [List.append_assoc] at hanswered
        exact ⟨_, Session.Pushes.congr hanswered hbooks⟩
  | unknown hx hmessage hseq hbooks =>
      refine ⟨origin, (h.congr hbooks).append ?_⟩
      split
      · simp [Traffic.pushAck]
      · simp [Traffic.pushAck]
  | @receive s₁ s' now envelopes hbooks hsent hwritten hs' =>
      subst hs'
      have hnone : ∀ x ∈ envelopes.map Traffic.fromServer, x.pushAck = none := by
        intro x hx
        obtain ⟨envelope, -, rfl⟩ := List.mem_map.mp hx
        rfl
      have hread : s₁.Pushes R (t ++ envelopes.map .fromServer) origin :=
        (h.congr hbooks).append hnone
      obtain ⟨frames, hframes, hsame, hpushes⟩ :=
        Session.handleEnvelopes_induct (R := R) (P := fun frames s₂ =>
            s₂.Pushes R (t ++ envelopes.map .fromServer ++
              frames.map .toBrowser) origin) now envelopes s₁
          (by simpa using hread) (by
            intro frames s₂ x frames' s₃ hx h₂ hheeds
            obtain ⟨j, hj⟩ := List.mem_iff_getElem?.mp
              (List.mem_map_of_mem (f := Traffic.fromServer) hx)
            have hplace : (t ++ envelopes.map .fromServer ++
                frames.map .toBrowser)[t.length + j]? =
                  some (.fromServer x) := by
              rw [List.append_assoc, List.getElem?_append_right (by omega),
                Nat.add_sub_cancel_left]
              rw [List.getElem?_append_left]
              · exact hj
              · exact (List.getElem?_eq_some_iff.mp hj).1
            rw [List.map_append, ← List.append_assoc]
            refine h₂.heeds hplace ?_ hheeds
            intro i msgId hi
            have hold := (at_append_none (by
              intro y hy
              obtain ⟨frame, -, rfl⟩ := List.mem_map.mp hy
              rfl)).mp hi
            have hlt := ((at_append_none hnone).mp hold).lt
            omega)
      have houtput := Session.output_eq (s := s) (hframes.trans (by rw [hsent]))
        ((hsame.trans hwritten).trans (List.append_nil _).symm)
      rw [houtput, List.map_nil, List.append_nil, ← List.append_assoc]
      exact ⟨origin, hpushes⟩

end Pushes

/-! ## Runs -/

/-- In every run in which the server acknowledges requests that were sent to it,
every `send_ack` of a session has an earlier `send_message` of its own, with the
same `client_msg_id`; a positive one carries the `msg_id` of a positive ACK with
the sequence number of the request made of that message.  Every ACK to the server
has an earlier push of its own, with the same `msg_id`, and a `message_ack` for
it in between. -/
theorem acknowledgements_matched (R : Runtime) (e : GatewayRun R) (n : ℕ)
    (hserver : AnswersRequests (traffic R n e.history)) :
    (∃ origin : ℕ → ℕ,
      (∀ i j a b, At sendAck (traffic R n e.history) i a →
        At sendAck (traffic R n e.history) j b → origin i = origin j → i = j) ∧
      ∀ i ok clientMsgId msgId,
        At sendAck (traffic R n e.history) i (ok, clientMsgId, msgId) →
          origin i < i ∧
          At (sendMessage R) (traffic R n e.history) (origin i) clientMsgId ∧
          (ok = true → ∃ seq k,
            At chatReq (traffic R n e.history) (origin i + 1)
              (seq, R.utf8Write clientMsgId) ∧
            origin i + 1 < k ∧ k < i ∧
            At serverAck (traffic R n e.history) k (seq, msgId, true))) ∧
    ∃ origin : ℕ → ℕ,
      (∀ i j a b, At pushAck (traffic R n e.history) i a →
        At pushAck (traffic R n e.history) j b → origin i = origin j → i = j) ∧
      ∀ i msgId, At pushAck (traffic R n e.history) i msgId →
        origin i < i ∧ At livePush (traffic R n e.history) (origin i) msgId ∧
        ∃ k, origin i < k ∧ k < i ∧
          At (messageAck R) (traffic R n e.history) k msgId := by
  have hmatched : (∃ origin, Matched sendAck (AnswersMessage R)
      (traffic R n e.history) origin) ∧
      ∃ origin, Matched pushAck (AnswersPush R) (traffic R n e.history)
        origin := by
    cases hs : e.state.sessions n with
    | none =>
        rw [traffic_none e hs]
        exact ⟨⟨id, matched_nil ..⟩, id, matched_nil ..⟩
    | some s =>
        have hsends := session_induct (R := R) (n := n) (P := fun past s =>
            AnswersRequests (traffic R n past) →
              ∃ origin, s.Sends R (traffic R n past) origin)
          (by
            intro past uid hnil _
            rw [hnil]
            refine ⟨id, ?_, ?_, matched_nil .., ?_⟩
            · exact fun j seq hj => absurd hj.lt (Nat.not_lt_zero j)
            · exact fun j _ seq hj => absurd hj.lt (Nat.not_lt_zero j)
            · intro seq clientMsgId hseq
              cases hseq)
          (by
            intro g event past s s' ih _ hpasses hserver
            obtain ⟨origin, h⟩ := ih hserver.of_append
            exact h.passes hserver hpasses) e hs
        have hpushes := session_induct (R := R) (n := n) (P := fun past s =>
            ∃ origin, s.Pushes R (traffic R n past) origin)
          (by
            intro past uid hnil
            rw [hnil]
            refine ⟨id, matched_nil .., ?_⟩
            intro msgId seq hpos hseq
            cases hseq)
          (by
            rintro g event past s s' ⟨origin, h⟩ - hpasses
            exact h.passes hpasses) e hs
        obtain ⟨origin, hsends⟩ := hsends hserver
        obtain ⟨origin', hpushes⟩ := hpushes
        exact ⟨⟨origin, hsends.matched⟩, origin', hpushes.matched⟩
  obtain ⟨⟨origin, hsends⟩, origin', hpushes⟩ := hmatched
  refine ⟨⟨origin, hsends.injective, ?_⟩, origin', hpushes.injective, ?_⟩
  · intro i ok clientMsgId msgId hi
    exact hsends.related i _ hi
  · intro i msgId hi
    exact hpushes.related i msgId hi

/-! ## A concrete session -/

/-- User 7 sends a message to user 2. -/
def sampleChat : Decimal.Bytes :=
  Decimal.literal "\x7b\"type\":\"send_message\",\"to_uid\":2,\"content\":\"hi\",\"client_msg_id\":\"c\"\x7d"

/-- The server has stored it as message 5. -/
def sampleChatAck : Envelope where
  type := .ack
  seq := 2
  timestampMs := 1000
  payload := some (.ack { msgId := 5, seq := 2, ok := true })

/-- The surroundings of a session in which user 7 sends that message. -/
def sampleChatRuntime : Runtime where
  engine := sampleRuntime.engine
  parse data :=
    if data = sampleChat then
      some (.object [(ascii "type", .string (ascii "send_message")),
        (ascii "to_uid", .number (.finite 2)),
        (ascii "content", .string (ascii "hi")),
        (ascii "client_msg_id", .string (ascii "c"))])
    else sampleRuntime.parse data
  protobufjs :=
    { encode := sampleRuntime.protobufjs.encode
      decode := fun body =>
        if sampleChatAck.serializeToString = some body then
          .ok sampleChatAck.toObject
        else sampleRuntime.protobufjs.decode body }
  utf8Write := sampleRuntime.utf8Write
  utf8Read := sampleRuntime.utf8Read

/-- User 7 is sent message 1, acknowledges it, and sends message 5. -/
def sampleConversation : List GatewayEvent :=
  sampleSession ++ [.wsMessage 0 1000 (.buffer sampleAck),
    .wsMessage 0 1000 (.buffer sampleChat),
    .imData 0 1000
      (MessageCodec.encode Envelope.serializeToString sampleChatAck)]

theorem answersRequests_of_forall (h : ∀ k < t.length,
    ∀ ack ∈ t[k]?.bind serverAck,
      ∃ j < k, t[j]?.bind Traffic.request = some ack.1) :
    AnswersRequests t :=
  fun k ack hk => h k hk.lt ack hk

theorem acknowledgements_matched_sampleConversation :
    ∃ (e : GatewayRun sampleChatRuntime) (i p seq k : ℕ),
      At sendAck (traffic sampleChatRuntime 0 e.history) i
        (true, ascii "c", 5) ∧
      p + 1 < k ∧ k < i ∧
      At (sendMessage sampleChatRuntime)
        (traffic sampleChatRuntime 0 e.history) p (ascii "c") ∧
      At chatReq (traffic sampleChatRuntime 0 e.history) (p + 1)
        (seq, sampleChatRuntime.utf8Write (ascii "c")) ∧
      At serverAck (traffic sampleChatRuntime 0 e.history) k (seq, 5, true) := by
  obtain ⟨e, -, -, hhistory⟩ := (gatewayDriver sampleChatRuntime).exists_follow
    sampleConversation ⟨[], {}, .init rfl⟩
  have hserver : AnswersRequests (traffic sampleChatRuntime 0 e.history) := by
    apply answersRequests_of_forall
    rw [hhistory]
    decide +kernel
  have hack : At sendAck (traffic sampleChatRuntime 0 e.history) 10
      (true, ascii "c", 5) := by
    rw [hhistory, At]
    decide +kernel
  obtain ⟨⟨origin, -, hsends⟩, -⟩ :=
    acknowledgements_matched sampleChatRuntime e 0 hserver
  obtain ⟨-, hmessage, hok⟩ := hsends 10 true (ascii "c") 5 hack
  obtain ⟨seq, k, hreq, hpk, hki, hanswer⟩ := hok rfl
  exact ⟨e, 10, origin 10, seq, k, hack, hpk, hki, hmessage, hreq, hanswer⟩

end ReliableDelivery
