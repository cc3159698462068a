import ReliableDelivery.Server.UserState

/-!
# The user state as a history

After any sequence of operations the two tables of `UserStateService` say
nothing but what was done last: a connection serves a user if its last login was
as that user, and since then it was not removed and nobody else logged in as the
same user.
-/

namespace ReliableDelivery

/-- An operation that changes the user state, with the time it reads. -/
inductive UserOp where
  | addConnection (conn : Option Conn) (now : UInt64)
  | removeConnection (conn : Option Conn)
  | bindUser (conn : Option Conn) (uid now : UInt64)
  | updateHeartbeat (conn : Option Conn) (now : UInt64)
  deriving DecidableEq, Repr

namespace UserOp

def conn : UserOp → Option Conn
  | .addConnection conn _ => conn
  | .removeConnection conn => conn
  | .bindUser conn _ _ => conn
  | .updateHeartbeat conn _ => conn

/-- The operation ends what was before between the connection and the user: a
login of the connection, its removal, or a login of another one as the user. -/
def Ends (c : Conn) (u : UInt64) : UserOp → Prop
  | .bindUser (some c') uid _ => uid ≠ 0 ∧ (c' = c ∨ uid = u)
  | .removeConnection (some c') => c' = c
  | _ => False

end UserOp

namespace UserStateService

def apply (service : UserStateService) : UserOp → UserStateService
  | .addConnection conn now => service.addConnection conn now
  | .removeConnection conn => service.removeConnection conn
  | .bindUser conn uid now => (service.bindUser conn uid now).2
  | .updateHeartbeat conn now => service.updateHeartbeat conn now

/-- The user state after a sequence of operations. -/
def after (ops : List UserOp) : UserStateService :=
  ops.foldl apply {}

/-- The last successful login of the connection was as the user, and since then
neither was the connection removed nor did another one log in as the user. -/
def BoundTo (ops : List UserOp) (c : Conn) (u : UInt64) : Prop :=
  ∃ before now later, ops = before ++ .bindUser (some c) u now :: later ∧
    u ≠ 0 ∧ ∀ op ∈ later, ¬op.Ends c u

theorem after_append (ops : List UserOp) (op : UserOp) :
    after (ops ++ [op]) = (after ops).apply op := by
  simp [after]

theorem boundTo_nil {c : Conn} {u : UInt64} : ¬BoundTo [] c u := by
  rintro ⟨before, now, later, hops, -⟩
  simp at hops

/-- One more operation binds, or does not end what was before. -/
theorem boundTo_append {ops : List UserOp} {op : UserOp} {c : Conn}
    {u : UInt64} :
    BoundTo (ops ++ [op]) c u ↔
      (u ≠ 0 ∧ ∃ now, op = .bindUser (some c) u now) ∨
        BoundTo ops c u ∧ ¬op.Ends c u := by
  constructor
  · rintro ⟨before, now, later, hops, hu, hlater⟩
    rcases List.eq_nil_or_concat later with rfl | ⟨later', last, rfl⟩
    · obtain ⟨-, rfl⟩ := List.append_singleton_inj.mp hops
      exact .inl ⟨hu, now, rfl⟩
    · rw [List.concat_eq_append, ← List.cons_append,
        ← List.append_assoc] at hops
      obtain ⟨rfl, rfl⟩ := List.append_singleton_inj.mp hops
      refine .inr ⟨⟨before, now, later', rfl, hu, ?_⟩, ?_⟩
      · intro op' hop'
        exact hlater op' (by simp [hop'])
      · exact hlater op (by simp)
  · rintro (⟨hu, now, rfl⟩ | ⟨⟨before, now, later, rfl, hu, hlater⟩, hends⟩)
    · exact ⟨ops, now, [], rfl, hu, by simp⟩
    · refine ⟨before, now, later ++ [op], by simp, hu, ?_⟩
      intro op' hop'
      rw [List.mem_append, List.mem_singleton] at hop'
      rcases hop' with hop' | rfl
      · exact hlater op' hop'
      · exact hends

section Operations

variable {service : UserStateService} {c c' : Conn} {uid u now : UInt64}

theorem Consistent.addConnection (h : Consistent service) :
    Consistent (service.addConnection (some c) now) := by
  constructor
  · intro c' state hstate
    simp only [UserStateService.addConnection, Function.update_apply] at hstate
    split at hstate
    · rw [Option.some.injEq] at hstate
      rw [← hstate]
      cases hc : service.connStates c with
      | none => simp
      | some old => exact h.authenticated c old hc
    · exact h.authenticated c' state hstate
  · intro u c'
    simp only [UserStateService.addConnection, h.online, Function.update_apply]
    by_cases hcc : c' = c
    · subst hcc
      cases hc : service.connStates c' with
      | none =>
          simp only [reduceCtorEq, false_and, exists_false, and_false, if_true,
            Option.getD_none, Option.some.injEq, exists_eq_left', false_iff,
            not_and]
          exact fun hu hzero => hu hzero.symm
      | some old => simp
    · simp [hcc]

theorem Consistent.apply (h : Consistent service) (op : UserOp) :
    Consistent (service.apply op) := by
  cases op with
  | addConnection conn now =>
      cases conn with
      | none => exact h
      | some c => exact h.addConnection
  | removeConnection conn =>
      cases conn with
      | none => exact h
      | some c => exact h.removeConnection
  | bindUser conn uid now =>
      cases conn with
      | none => exact h
      | some c =>
          by_cases huid : uid = 0
          · simp only [UserStateService.apply, UserStateService.bindUser,
              if_pos huid]
            exact h
          · exact h.bindUser huid
  | updateHeartbeat conn now =>
      cases conn with
      | none => exact h
      | some c => exact h.updateHeartbeat

/-- A login succeeds exactly if there is a connection and a user. -/
theorem bindUser_succeeds {conn : Option Conn} :
    (service.bindUser conn uid now).1 = true ↔ conn ≠ none ∧ uid ≠ 0 := by
  cases conn with
  | none => simp [UserStateService.bindUser]
  | some c =>
      by_cases huid : uid = 0
      · simp [UserStateService.bindUser, huid]
      · simp [UserStateService.bindUser, huid]

theorem Consistent.removeConnection_uidToConn (h : Consistent service) :
    (service.removeConnection (some c)).uidToConn u = some c' ↔
      service.uidToConn u = some c' ∧ c' ≠ c := by
  cases hc : service.connStates c with
  | none =>
      simp only [UserStateService.removeConnection, hc]
      constructor
      · intro hu
        refine ⟨hu, ?_⟩
        rintro rfl
        obtain ⟨-, state, hstate, -⟩ := (h.online u c').mp hu
        rw [hc] at hstate
        cases hstate
      · exact fun hu => hu.1
  | some state =>
      simp only [UserStateService.removeConnection, hc]
      exact h.dropOnline_iff (by rw [hc]; rfl)

/-- What an operation does to the online index: it binds, or keeps what it does
not end. -/
theorem Consistent.apply_uidToConn (h : Consistent service) (op : UserOp)
    (hu : u ≠ 0) :
    (service.apply op).uidToConn u = some c ↔
      (∃ now, op = .bindUser (some c) u now) ∨
        service.uidToConn u = some c ∧ ¬op.Ends c u := by
  cases op with
  | addConnection conn now =>
      cases conn with
      | none => simp [UserStateService.apply, UserStateService.addConnection,
          UserOp.Ends]
      | some c' => simp [UserStateService.apply,
          UserStateService.addConnection, UserOp.Ends]
  | updateHeartbeat conn now =>
      cases conn with
      | none => simp [UserStateService.apply,
          UserStateService.updateHeartbeat, UserOp.Ends]
      | some c' =>
          simp only [UserStateService.apply, UserStateService.updateHeartbeat]
          cases service.connStates c' with
          | none => simp [UserOp.Ends]
          | some state => simp [UserOp.Ends]
  | removeConnection conn =>
      cases conn with
      | none => simp [UserStateService.apply,
          UserStateService.removeConnection, UserOp.Ends]
      | some c' =>
          simp only [UserStateService.apply, h.removeConnection_uidToConn,
            UserOp.Ends, reduceCtorEq, exists_false, false_or]
          rw [ne_comm]
  | bindUser conn uid now =>
      cases conn with
      | none => simp [UserStateService.apply, UserStateService.bindUser,
          UserOp.Ends]
      | some c' =>
          by_cases huid : uid = 0
          · subst huid
            simp [UserStateService.apply, UserStateService.bindUser,
              UserOp.Ends, hu.symm]
          · simp only [UserStateService.apply, h.bindUser_uidToConn huid,
              UserOp.Ends, ne_eq, huid, not_false_eq_true, true_and, not_or,
              UserOp.bindUser.injEq, Option.some.injEq]
            by_cases hsame : u = uid
            · subst hsame
              simp [eq_comm]
            · simp [hsame, Ne.symm hsame, eq_comm]

/-- An operation on one connection leaves every other as it is, except the one
that a login displaces. -/
theorem Consistent.apply_connStates_other (h : Consistent service)
    (op : UserOp) (hconn : op.conn ≠ some c) :
    (service.apply op).connStates c = service.connStates c ∨
      ∃ c' u now, op = .bindUser (some c') u now ∧ u ≠ 0 ∧
        service.uidToConn u = some c ∧
        (service.apply op).connStates c = (service.connStates c).map
          fun state => { state with uid := 0, state := .connected } := by
  cases op with
  | addConnection conn now =>
      left
      cases conn with
      | none => rfl
      | some c' =>
          have hne : c ≠ c' := fun heq => hconn (by rw [heq]; rfl)
          simp only [UserStateService.apply, UserStateService.addConnection,
            Function.update_of_ne hne]
  | updateHeartbeat conn now =>
      left
      cases conn with
      | none => rfl
      | some c' =>
          have hne : c ≠ c' := fun heq => hconn (by rw [heq]; rfl)
          simp only [UserStateService.apply, UserStateService.updateHeartbeat]
          cases service.connStates c' with
          | none => rfl
          | some state => exact Function.update_of_ne hne _ _
  | removeConnection conn =>
      left
      cases conn with
      | none => rfl
      | some c' =>
          have hne : c ≠ c' := fun heq => hconn (by rw [heq]; rfl)
          simp only [UserStateService.apply, UserStateService.removeConnection]
          cases service.connStates c' with
          | none => rfl
          | some state => exact Function.update_of_ne hne _ _
  | bindUser conn uid now =>
      cases conn with
      | none => exact .inl rfl
      | some c' =>
          have hne : c ≠ c' := fun heq => hconn (by rw [heq]; rfl)
          by_cases huid : uid = 0
          · left
            simp only [UserStateService.apply, UserStateService.bindUser,
              if_pos huid]
          · simp only [UserStateService.apply, h.bindUser_connStates huid,
              if_neg hne]
            by_cases hdisplaced : service.uidToConn uid = some c
            · rw [if_pos hdisplaced]
              exact .inr ⟨c', uid, now, rfl, huid, hdisplaced, rfl⟩
            · rw [if_neg hdisplaced]
              exact .inl rfl

end Operations

theorem consistent_after (ops : List UserOp) : Consistent (after ops) := by
  induction ops using List.reverseRecOn with
  | nil => exact consistent_empty
  | append_singleton ops op ih =>
      rw [after_append]
      exact ih.apply op

/-- The online index is what the history says. -/
theorem uidToConn_after_iff {ops : List UserOp} {c : Conn} {u : UInt64}
    (hu : u ≠ 0) : (after ops).uidToConn u = some c ↔ BoundTo ops c u := by
  induction ops using List.reverseRecOn with
  | nil => exact iff_of_false (by simp [after]) boundTo_nil
  | append_singleton ops op ih =>
      rw [after_append, boundTo_append,
        (consistent_after ops).apply_uidToConn op hu, ih]
      simp only [ne_eq, hu, not_false_eq_true, true_and]

/-- The user state is its history.  After any operations, on connections that
are null, unknown or known, a user is reached on a connection exactly if the
connection serves the user, and exactly if its last successful login was as that
user and has not been undone since.  The two tables are inverse to each other, a
connection is authenticated exactly if it has a user, and a further operation
changes no other connection than the one it displaces. -/
theorem user_state_is_history (ops : List UserOp) :
    (∀ conn uid now, ((after ops).bindUser conn uid now).1 = true ↔
      conn ≠ none ∧ uid ≠ 0) ∧
    (∀ c u, u ≠ 0 →
      ((after ops).getConnByUid u = some c ↔
        (after ops).getUidByConn (some c) = u) ∧
      ((after ops).getUidByConn (some c) = u ↔ BoundTo ops c u)) ∧
    (∀ u c, (after ops).uidToConn u = some c ↔
      u ≠ 0 ∧ ∃ state, (after ops).connStates c = some state ∧
        state.uid = u) ∧
    (∀ u u' c, (after ops).uidToConn u = some c →
      (after ops).uidToConn u' = some c → u = u') ∧
    (∀ c c' state state', (after ops).connStates c = some state →
      (after ops).connStates c' = some state' → state.uid ≠ 0 →
      state.uid = state'.uid → c = c') ∧
    (∀ c state, (after ops).connStates c = some state →
      (state.state = .authenticated ↔ state.uid ≠ 0)) ∧
    (∀ op c, op.conn ≠ some c →
      (after (ops ++ [op])).connStates c = (after ops).connStates c ∨
      ∃ c' u now, op = .bindUser (some c') u now ∧
        ((after ops).bindUser (some c') u now).1 = true ∧
        (after ops).getConnByUid u = some c ∧
        (after (ops ++ [op])).getUidByConn (some c) = 0) := by
  have hconsistent := consistent_after ops
  refine ⟨fun _ _ _ => bindUser_succeeds, ?_, hconsistent.online, ?_, ?_,
    hconsistent.authenticated, ?_⟩
  · intro c u hu
    have hboth := hconsistent.getUidByConn_iff (c := c) hu
    refine ⟨hboth.symm, ?_⟩
    rw [hboth, uidToConn_after_iff hu]
  · intro u u' c hu hu'
    obtain ⟨-, state, hstate, rfl⟩ := (hconsistent.online u c).mp hu
    obtain ⟨-, state', hstate', rfl⟩ := (hconsistent.online u' c).mp hu'
    rw [hstate, Option.some.injEq] at hstate'
    rw [hstate']
  · intro c c' state state' hc hc' hne hsame
    have hu := (hconsistent.online state.uid c).mpr ⟨hne, state, hc, rfl⟩
    have hu' := (hconsistent.online state.uid c').mpr
      ⟨hne, state', hc', hsame.symm⟩
    rw [hu, Option.some.injEq] at hu'
    exact hu'
  · intro op c hconn
    rw [after_append]
    rcases hconsistent.apply_connStates_other op hconn with
      hsame | ⟨c', u, now, rfl, hu, honline, hdisplaced⟩
    · exact .inl hsame
    · right
      refine ⟨c', u, now, rfl, ?_, honline, ?_⟩
      · exact bindUser_succeeds.mpr ⟨by simp, hu⟩
      · simp only [getUidByConn, hdisplaced]
        cases (after ops).connStates c with
        | none => rfl
        | some state => rfl

end UserStateService

end ReliableDelivery
