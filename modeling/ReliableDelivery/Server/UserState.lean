import Mathlib.Tactic

/-!
# User state

The operations of `UserStateService.cpp`: which connection is logged in as which
user, and which connection a user is reached on.  A connection is identified by
the object behind its pointer.  Both tables keep that object alive, so two
entries never share a pointer.
-/

namespace ReliableDelivery

/-- Identity of a connection object. -/
abbrev Conn := ℕ

inductive UserConnectionState where
  | connected
  | authenticated
  deriving DecidableEq, Repr

/-- The state of a connection; uid zero means that nobody is logged in. -/
structure UserState where
  uid : UInt64 := 0
  state : UserConnectionState := .connected
  lastActiveMs : UInt64 := 0
  deriving DecidableEq, Repr

structure UserStateService where
  connStates : Conn → Option UserState := fun _ => none
  uidToConn : UInt64 → Option Conn := fun _ => none

namespace UserStateService

def addConnection (service : UserStateService) (conn : Option Conn)
    (now : UInt64) : UserStateService :=
  match conn with
  | none => service
  | some c =>
      let state := (service.connStates c).getD {}
      { service with
        connStates := Function.update service.connStates c
          (some { state with lastActiveMs := now }) }

/-- Take the connection out of the online index if it is listed under `uid`. -/
def dropOnline (service : UserStateService) (uid : UInt64) (c : Conn) :
    UInt64 → Option Conn :=
  if uid ≠ 0 ∧ service.uidToConn uid = some c then
    Function.update service.uidToConn uid none
  else service.uidToConn

def removeConnection (service : UserStateService) (conn : Option Conn) :
    UserStateService :=
  match conn with
  | none => service
  | some c =>
      match service.connStates c with
      | none => service
      | some state =>
          { connStates := Function.update service.connStates c none
            uidToConn := service.dropOnline state.uid c }

/-- Log the connection in.  The entry of its former user is dropped, and the
connection on which `uid` was online falls back to not logged in. -/
def bindUser (service : UserStateService) (conn : Option Conn) (uid : UInt64)
    (now : UInt64) : Bool × UserStateService :=
  match conn with
  | none => (false, service)
  | some c =>
      if uid = 0 then (false, service)
      else
        let state := (service.connStates c).getD {}
        let online := service.dropOnline state.uid c
        let displaced : Conn → Option UserState :=
          match online uid with
          | some old =>
              if old = c then service.connStates
              else
                match service.connStates old with
                | some oldState =>
                    Function.update service.connStates old
                      (some { oldState with uid := 0, state := .connected })
                | none => service.connStates
          | none => service.connStates
        (true,
          { connStates := Function.update displaced c
              (some { uid, state := .authenticated, lastActiveMs := now })
            uidToConn := Function.update online uid (some c) })

/-- The user logged in on the connection, or zero. -/
def getUidByConn (service : UserStateService) (conn : Option Conn) : UInt64 :=
  match conn with
  | none => 0
  | some c =>
      match service.connStates c with
      | none => 0
      | some state => if state.state = .authenticated then state.uid else 0

def getConnByUid (service : UserStateService) (uid : UInt64) : Option Conn :=
  service.uidToConn uid

def isAuthenticated (service : UserStateService) (conn : Option Conn) : Bool :=
  service.getUidByConn conn ≠ 0

def getState (service : UserStateService) (conn : Option Conn) :
    UserConnectionState :=
  match conn with
  | none => .connected
  | some c => ((service.connStates c).map UserState.state).getD .connected

def updateHeartbeat (service : UserStateService) (conn : Option Conn)
    (now : UInt64) : UserStateService :=
  match conn with
  | none => service
  | some c =>
      match service.connStates c with
      | none => service
      | some state =>
          { service with
            connStates := Function.update service.connStates c
              (some { state with lastActiveMs := now }) }

/-! ## The two tables agree -/

/-- A connection is authenticated exactly when it has a user, and the tables
are inverse to each other. -/
structure Consistent (service : UserStateService) : Prop where
  authenticated : ∀ c state, service.connStates c = some state →
    (state.state = .authenticated ↔ state.uid ≠ 0)
  online : ∀ uid c, service.uidToConn uid = some c ↔
    uid ≠ 0 ∧ ∃ state, service.connStates c = some state ∧ state.uid = uid

theorem consistent_empty : Consistent {} where
  authenticated _ _ h := by cases h
  online uid c := by simp

section Consistency

variable {service : UserStateService} {c c' : Conn} {uid u now : UInt64}

/-- A user is online on at most one connection, and no connection serves two
users. -/
theorem Consistent.getUidByConn_iff (h : Consistent service) (huid : uid ≠ 0) :
    service.getUidByConn (some c) = uid ↔ service.uidToConn uid = some c := by
  rw [h.online]
  cases hc : service.connStates c with
  | none =>
      simp only [getUidByConn, hc]
      constructor
      · intro hzero
        exact absurd hzero.symm huid
      · rintro ⟨-, state, hstate, -⟩
        cases hstate
  | some state =>
      have hauth := h.authenticated c state hc
      simp only [getUidByConn, hc, Option.some.injEq, exists_eq_left',
        huid, ne_eq, not_false_eq_true, true_and]
      by_cases hstate : state.state = .authenticated
      · rw [if_pos hstate]
      · rw [if_neg hstate]
        have hzero : state.uid = 0 := by
          by_contra hne
          exact hstate (hauth.mpr hne)
        rw [hzero]

/-- What dropping the former user of a connection leaves online. -/
theorem Consistent.dropOnline_iff (h : Consistent service) {state : UserState}
    (hstate : (service.connStates c).getD {} = state) :
    service.dropOnline state.uid c u = some c' ↔
      service.uidToConn u = some c' ∧ c' ≠ c := by
  have honline : service.uidToConn u = some c → u = state.uid := by
    intro hu
    obtain ⟨-, state', hc, huid⟩ := (h.online u c).mp hu
    rw [hc, Option.getD_some] at hstate
    rw [← hstate, huid]
  rw [dropOnline]
  split
  · next hcond =>
      by_cases hu : u = state.uid
      · subst hu
        rw [Function.update_self, hcond.2]
        simp only [reduceCtorEq, Option.some.injEq, false_iff, not_and, ne_eq,
          not_not]
        exact fun heq => heq.symm
      · rw [Function.update_of_ne hu]
        constructor
        · intro hc'
          refine ⟨hc', ?_⟩
          rintro rfl
          exact hu (honline hc')
        · exact fun hc' => hc'.1
  · next hcond =>
      constructor
      · intro hc'
        refine ⟨hc', ?_⟩
        rintro rfl
        have hu := honline hc'
        rw [hu] at hc'
        have hne := ((h.online state.uid c').mp hc').1
        exact hcond ⟨hne, hc'⟩
      · exact fun hc' => hc'.1

theorem Consistent.removeConnection (h : Consistent service) :
    Consistent (service.removeConnection (some c)) := by
  cases hc : service.connStates c with
  | none =>
      simp only [UserStateService.removeConnection, hc]
      exact h
  | some state =>
      have hget : (service.connStates c).getD {} = state := by
        rw [hc]
        rfl
      simp only [UserStateService.removeConnection, hc]
      constructor
      · intro c' state' hc'
        simp only [Function.update_apply] at hc'
        split at hc'
        · cases hc'
        · exact h.authenticated c' state' hc'
      · intro u c'
        simp only [h.dropOnline_iff hget, h.online, Function.update_apply]
        by_cases hcc : c' = c
        · simp [hcc]
        · simp [hcc]

theorem Consistent.updateHeartbeat (h : Consistent service) :
    Consistent (service.updateHeartbeat (some c) now) := by
  cases hc : service.connStates c with
  | none =>
      simp only [UserStateService.updateHeartbeat, hc]
      exact h
  | some state =>
      simp only [UserStateService.updateHeartbeat, hc]
      constructor
      · intro c' state' hc'
        simp only [Function.update_apply] at hc'
        split at hc'
        · rw [Option.some.injEq] at hc'
          rw [← hc']
          exact h.authenticated c state hc
        · exact h.authenticated c' state' hc'
      · intro u c'
        simp only [h.online, Function.update_apply]
        by_cases hcc : c' = c
        · subst hcc
          simp [hc]
        · simp [hcc]

/-- The connections after a login: the one logged in, the one displaced, and
the others as before. -/
theorem Consistent.bindUser_connStates (h : Consistent service)
    (huid : uid ≠ 0) :
    (service.bindUser (some c) uid now).2.connStates c' =
      if c' = c then
        some { uid, state := .authenticated, lastActiveMs := now }
      else if service.uidToConn uid = some c' then
        (service.connStates c').map fun state =>
          { state with uid := 0, state := .connected }
      else service.connStates c' := by
  have hdrop : ∀ old, service.dropOnline
      ((service.connStates c).getD {}).uid c uid = some old ↔
        service.uidToConn uid = some old ∧ old ≠ c :=
    fun old => h.dropOnline_iff rfl
  simp only [UserStateService.bindUser, if_neg huid, Function.update_apply]
  by_cases hcc : c' = c
  · rw [if_pos hcc, if_pos hcc]
  · rw [if_neg hcc, if_neg hcc]
    cases honline : service.dropOnline
        ((service.connStates c).getD {}).uid c uid with
    | none =>
        have hnot : service.uidToConn uid ≠ some c' := by
          intro hc'
          have := (hdrop c').mpr ⟨hc', hcc⟩
          rw [honline] at this
          cases this
        rw [if_neg hnot]
    | some old =>
        obtain ⟨hold, hne⟩ := (hdrop old).mp honline
        obtain ⟨-, oldState, holdState, -⟩ := (h.online uid old).mp hold
        simp only [if_neg hne, holdState, Function.update_apply, hold,
          Option.some.injEq]
        by_cases hco : c' = old
        · simp [hco, holdState]
        · simp [hco, Ne.symm hco]

theorem Consistent.bindUser_uidToConn (h : Consistent service)
    (huid : uid ≠ 0) :
    (service.bindUser (some c) uid now).2.uidToConn u = some c' ↔
      if u = uid then c' = c
      else service.uidToConn u = some c' ∧ c' ≠ c := by
  simp only [UserStateService.bindUser, if_neg huid, Function.update_apply]
  by_cases hu : u = uid
  · rw [if_pos hu, if_pos hu, Option.some.injEq]
    exact eq_comm
  · rw [if_neg hu, if_neg hu]
    exact h.dropOnline_iff rfl

theorem Consistent.bindUser (h : Consistent service) (huid : uid ≠ 0) :
    Consistent (service.bindUser (some c) uid now).2 := by
  constructor
  · intro c' state hstate
    rw [h.bindUser_connStates huid] at hstate
    split at hstate
    · rw [Option.some.injEq] at hstate
      rw [← hstate]
      simp [huid]
    · split at hstate
      · obtain ⟨state', -, rfl⟩ := Option.map_eq_some_iff.mp hstate
        simp
      · exact h.authenticated c' state hstate
  · intro u c'
    rw [h.bindUser_uidToConn huid, h.bindUser_connStates huid]
    by_cases hcc : c' = c
    · subst hcc
      by_cases hu : u = uid
      · simp [hu, huid]
      · simp [hu, Ne.symm hu]
    · by_cases hold : service.uidToConn uid = some c'
      · obtain ⟨-, oldState, holdState, holdUid⟩ := (h.online uid c').mp hold
        by_cases hu : u = uid
        · simp [hcc, hu, hold, holdState, huid.symm]
        · have hnot : service.uidToConn u ≠ some c' := by
            intro hc'
            obtain ⟨-, state, hstate, hstateUid⟩ := (h.online u c').mp hc'
            rw [holdState, Option.some.injEq] at hstate
            rw [← hstate, holdUid] at hstateUid
            exact hu hstateUid.symm
          simp only [if_neg hu, hnot, false_and, if_neg hcc, if_pos hold,
            holdState, Option.map_some, Option.some.injEq, exists_eq_left',
            false_iff, not_and]
          exact fun hne hzero => hne hzero.symm
      · by_cases hu : u = uid
        · subst hu
          simp only [if_true, hcc, if_neg hold, false_iff]
          intro hcontra
          exact hold ((h.online u c').mpr hcontra)
        · simp only [if_neg hu, if_neg hold, ne_eq, hcc, not_false_eq_true,
            and_true]
          exact h.online u c'

end Consistency

end UserStateService

end ReliableDelivery
