import ReliableDelivery.Gateway.Rules

/-!
# The table of sessions

`sessionsByUid`, `sessionsById` and `imClientsBySessionId` are changed by five
callbacks around an `await`, and cleaning up may come more than once and before
the session is put in.  The two tables of sessions hold the same ones all the
same, and a session whose close event has fired stays out of all three.
-/

namespace ReliableDelivery

open Ecmascript TransitionSystem

namespace GatewayState

/-- Both tables hold the same sessions, each under its own uid and its own id,
and the sessions are those that have attached. -/
structure Registry (g : GatewayState) : Prop where
  fresh : ∀ n, g.nextSession ≤ n → g.sessions n = none
  stored : g.Stored
  byId : ∀ n m, g.sessionsById n = some m ↔
    m = n ∧ ∃ uid, g.sessionsByUid uid = some n
  coherent : ∀ n s, g.sessions n = some s → s.Coherent

/-- The session is out of the tables for good. -/
def Gone (g : GatewayState) (n : ℕ) : Prop :=
  (∀ uid, g.sessionsByUid uid ≠ some n) ∧
    ∃ s, g.sessions n = some s ∧ s.isOpen = false ∧ s.registered = false

variable {R : Runtime} {g g' : GatewayState} {event : GatewayEvent} {n : ℕ}
  {s s' : Session}

/-! ## The operations -/

theorem sessions_put (n m : ℕ) (s : Session) (g : GatewayState) :
    (g.put n s).sessions m = if m = n then some s else g.sessions m :=
  Function.update_apply ..

theorem Registry.put (h : g.Registry) (hs : g.sessions n = some s)
    (honward : s.Onward s') : (g.put n s').Registry where
  fresh m hm := by
    have hnone := h.fresh m hm
    rw [sessions_put, if_neg]
    · exact hnone
    · rintro rfl
      rw [hnone] at hs
      cases hs
  stored uid m hm := by
    obtain ⟨s₁, hs₁, huid⟩ := h.stored uid m hm
    rw [sessions_put]
    split
    · next heq =>
        rw [heq, hs, Option.some.injEq] at hs₁
        subst hs₁
        exact ⟨s', rfl, honward.uid.trans huid⟩
    · exact ⟨s₁, hs₁, huid⟩
  byId := h.byId
  coherent m s₁ hs₁ := by
    rw [sessions_put] at hs₁
    split at hs₁
    · rw [Option.some.injEq] at hs₁
      subst hs₁
      exact honward.coherent (h.coherent n s hs)
    · exact h.coherent m s₁ hs₁

theorem Registry.crash (h : g.Registry) (crashed : Bool) :
    { g with crashed := crashed }.Registry :=
  ⟨h.fresh, h.stored, h.byId, h.coherent⟩

/-- After `remove` the table is as before, without the session. -/
theorem removed_byUid {uid u m : ℕ} :
    (g.removed uid n).sessionsByUid u = some m ↔
      g.sessionsByUid u = some m ∧ ¬(u = uid ∧ m = n) := by
  simp only [removed]
  split
  · next hin =>
      rw [Function.update_apply]
      split
      · next heq =>
          subst heq
          rw [hin]
          simp only [Option.some.injEq, true_and]
          constructor
          · intro hnone
            cases hnone
          · rintro ⟨rfl, hne⟩
            exact absurd rfl hne
      · next hne => simp [hne]
  · next hout =>
      constructor
      · intro hu
        refine ⟨hu, ?_⟩
        rintro ⟨rfl, rfl⟩
        exact hout hu
      · exact And.left

theorem Registry.removed (h : g.Registry) (hs : g.sessions n = some s) :
    (g.removed s.uid n).Registry where
  fresh := h.fresh
  stored u m hm := h.stored u m (removed_byUid.mp hm).1
  byId m k := by
    have hbefore := h.byId m k
    simp only [removed_byUid]
    simp only [GatewayState.removed, Function.update_apply]
    split
    · next heq =>
        subst heq
        constructor
        · intro hnone
          cases hnone
        · rintro ⟨-, u, hu, hne⟩
          obtain ⟨s₁, hs₁, huid⟩ := h.stored u m hu
          rw [hs, Option.some.injEq] at hs₁
          exact absurd ⟨hs₁ ▸ huid.symm, rfl⟩ hne
    · next hne =>
        rw [hbefore]
        simp [hne]
  coherent := h.coherent

theorem Registry.entered (h : g.Registry) (hs : g.sessions n = some s)
    (hold : ∀ old, g.sessionsByUid s.uid = some old → old = n) :
    (g.entered s.uid n).Registry where
  fresh := h.fresh
  stored u m hm := by
    simp only [GatewayState.entered, Function.update_apply] at hm
    split at hm
    · next heq =>
        cases hm
        exact ⟨s, hs, heq.symm⟩
    · exact h.stored u m hm
  byId m k := by
    have hbefore := h.byId m k
    simp only [GatewayState.entered, Function.update_apply]
    by_cases heq : m = n
    · subst heq
      rw [if_pos rfl, Option.some.injEq]
      constructor
      · rintro rfl
        exact ⟨rfl, s.uid, if_pos rfl⟩
      · rintro ⟨rfl, -⟩
        rfl
    · rw [if_neg heq, hbefore]
      refine and_congr_right fun _ => exists_congr fun u => ?_
      split
      · next hu =>
          subst hu
          constructor
          · intro hm
            exact absurd (hold m hm) heq
          · intro hm
            cases hm
            exact absurd rfl heq
      · exact Iff.rfl
  coherent := h.coherent

/-- The old session of a user is shut and leaves. -/
theorem Registry.shut (h : g.Registry) {uid old : ℕ} {s₀ : Session}
    (hold : g.sessionsByUid uid = some old) (hs₀ : g.sessions old = some s₀) :
    ((g.put old s₀.shut).removed uid old).Registry := by
  obtain ⟨s₁, hs₁, huid⟩ := h.stored _ _ hold
  rw [hs₀, Option.some.injEq] at hs₁
  subst hs₁
  have honward := (Session.works_shut s₀).toOnward
  have hremoved := (h.put hs₀ honward).removed (put_self ..)
  rwa [honward.uid, huid] at hremoved

/-! ## Steps -/

theorem onward_online (hattach : s.attach = .resolved) (frame : BrowserFrame) :
    s.Onward ((s.leaving (.resume n)).send frame) := by
  have henabled : s.enabled (.resume n) = true := by
    simp [Session.enabled, hattach]
  exact trans_of Session.Onward (Session.onward_leaving henabled)
    (Session.works_send _ _).toOnward

theorem Registry.effect (h : g.Registry) (heffect : g.Effect R event g') :
    g'.Registry := by
  cases heffect with
  | attach uid =>
      refine ⟨?_, ?_, h.byId, ?_⟩
      · intro m hm
        have hlt : g.nextSession < m := hm
        rw [show _ = _ from sessions_put g.nextSession m _ g,
          if_neg (by omega)]
        exact h.fresh m (by omega)
      · intro u m hm
        obtain ⟨s₁, hs₁, huid⟩ := h.stored u m hm
        refine ⟨s₁, ?_, huid⟩
        rw [show _ = _ from sessions_put g.nextSession m _ g, if_neg]
        · exact hs₁
        · rintro rfl
          rw [h.fresh _ le_rfl] at hs₁
          cases hs₁
      · intro m s₁ hs₁
        rw [show _ = _ from sessions_put g.nextSession m _ g] at hs₁
        split at hs₁
        · cases hs₁
          exact ⟨fun hout => (by cases hout), fun hnone => (by cases hnone)⟩
        · exact h.coherent m s₁ hs₁
  | code hn hs henabled hcode =>
      exact (h.put hs (Session.onward_code hcode henabled)).crash _
  | cleanup hn hs henabled hcode hclosed =>
      have honward := trans_of Session.Onward
        (Session.onward_leaving henabled) (Session.onward_dropped _)
      have hremoved := (h.put hs honward).removed (put_self ..)
      rwa [honward.uid] at hremoved
  | @fail n s reason hs hreason =>
      have henabled : s.enabled (.resume n) = true := by
        simp [Session.enabled, hreason]
      exact (h.put hs (Session.onward_leaving henabled)).crash _
  | @join n s hs hattach hopen hold =>
      have honward := onward_online (n := n) hattach (.online s.uid n)
      have hentered := (h.put hs honward).entered (put_self ..)
      rw [honward.uid] at hentered
      exact hentered hold
  | @replace n old s s₀ hs hattach hopen hold hne hs₀ =>
      have honward := onward_online (n := n) hattach (.online s.uid n)
      have hput := h.put hs honward
      have hs₀' : (g.put n ((s.leaving (.resume n)).send
          (.online s.uid n))).sessions old = some s₀ :=
        (put_of_ne hne ..).trans hs₀
      have hremoved := hput.shut hold hs₀'
      have hn : ((g.put n ((s.leaving (.resume n)).send
            (.online s.uid n))).put old s₀.shut |>.removed s.uid old).sessions n =
          some ((s.leaving (.resume n)).send (.online s.uid n)) :=
        (put_of_ne hne.symm ..).trans (put_self ..)
      have hentered := hremoved.entered hn
      rw [honward.uid] at hentered
      apply hentered
      intro m hm
      obtain ⟨hm, hother⟩ := removed_byUid.mp hm
      cases hold.symm.trans hm
      exact absurd ⟨rfl, rfl⟩ hother
  | @stuck n old s s₀ hs hattach hopen hold hne hs₀ =>
      have henabled : s.enabled (.resume n) = true := by
        simp [Session.enabled, hattach]
      have hput := h.put hs (Session.onward_leaving henabled)
      have hs₀' : (g.put n (s.leaving (.resume n))).sessions old = some s₀ :=
        (put_of_ne hne ..).trans hs₀
      exact (hput.shut hold hs₀').crash _

/-! ### Sessions that are gone -/

/-- A session that is not open does not come back. -/
theorem Gone.put {m : ℕ} (h : g.Gone n) (hs : g.sessions m = some s)
    (honward : s.Onward s') : (g.put m s').Gone n := by
  obtain ⟨hout, s₁, hs₁, hclosed, hregistered⟩ := h
  refine ⟨hout, ?_⟩
  by_cases heq : n = m
  · subst heq
    cases hs.symm.trans hs₁
    exact ⟨s', put_self .., honward.closing hclosed,
      honward.registered hregistered⟩
  · exact ⟨s₁, (put_of_ne heq ..).trans hs₁, hclosed, hregistered⟩

theorem Gone.crash (h : g.Gone n) (crashed : Bool) :
    { g with crashed := crashed }.Gone n :=
  h

theorem Gone.removed (h : g.Gone n) (uid m : ℕ) : (g.removed uid m).Gone n :=
  ⟨fun u hu => h.1 u (removed_byUid.mp hu).1, h.2⟩

theorem Gone.entered {m : ℕ} (h : g.Gone n) (uid : ℕ) (hne : m ≠ n) :
    (g.entered uid m).Gone n := by
  refine ⟨fun u hu => ?_, h.2⟩
  simp only [GatewayState.entered, Function.update_apply] at hu
  split at hu
  · rw [Option.some.injEq] at hu
    exact hne hu
  · exact h.1 u hu

/-- Only an open session is put in. -/
theorem Gone.ne_of_open {m : ℕ} (h : g.Gone n) (hs : g.sessions m = some s)
    (hopen : s.isOpen = true) : m ≠ n := by
  obtain ⟨-, s₁, hs₁, hclosed, -⟩ := h
  rintro rfl
  cases hs.symm.trans hs₁
  rw [hopen] at hclosed
  cases hclosed

theorem Gone.effect (h : g.Gone n) (hregistry : g.Registry)
    (heffect : g.Effect R event g') : g'.Gone n := by
  cases heffect with
  | attach uid =>
      obtain ⟨hout, s₁, hs₁, hclosed, hregistered⟩ := h
      refine ⟨hout, s₁, ?_, hclosed, hregistered⟩
      have hne : n ≠ g.nextSession := by
        rintro rfl
        rw [hregistry.fresh _ le_rfl] at hs₁
        cases hs₁
      exact (put_of_ne hne ..).trans hs₁
  | code hn hs henabled hcode =>
      exact (h.put hs (Session.onward_code hcode henabled)).crash _
  | cleanup hn hs henabled hcode hclosed =>
      exact (h.put hs (trans_of Session.Onward
        (Session.onward_leaving henabled) (Session.onward_dropped _))).removed ..
  | @fail n s reason hs hreason =>
      have henabled : s.enabled (.resume n) = true := by
        simp [Session.enabled, hreason]
      exact (h.put hs (Session.onward_leaving henabled)).crash _
  | join hs hattach hopen hold =>
      exact (h.put hs (onward_online hattach _)).entered _
        (h.ne_of_open hs hopen)
  | @replace m old s s₀ hs hattach hopen hold hne hs₀ =>
      have hput := h.put hs (onward_online (n := m) hattach (.online s.uid m))
      exact ((hput.put ((put_of_ne hne ..).trans hs₀)
        (Session.works_shut _).toOnward).removed ..).entered _ (h.ne_of_open hs hopen)
  | @stuck n old s s₀ hs hattach hopen hold hne hs₀ =>
      have henabled : s.enabled (.resume n) = true := by
        simp [Session.enabled, hattach]
      have hput := h.put hs (Session.onward_leaving henabled)
      exact ((hput.put ((put_of_ne hne ..).trans hs₀)
        (Session.works_shut _).toOnward).removed ..).crash _

/-- Cleaning up puts a session out of the tables. -/
theorem gone_cleanup (h : g.Registry) (hs : g.sessions n = some s)
    (hclosed : s'.isOpen = false) :
    ((g.put n s'.dropped).removed s.uid n).Gone n := by
  refine ⟨?_, s'.dropped, put_self .., ?_, Session.dropped_registered s'⟩
  · intro u hu
    obtain ⟨hu, hother⟩ := removed_byUid.mp hu
    obtain ⟨s₁, hs₁, huid⟩ := h.stored u n hu
    cases hs.symm.trans hs₁
    exact hother ⟨huid.symm, rfl⟩
  · exact (Session.onward_dropped s').closing hclosed

/-! ### Sessions that stay -/

/-- The session takes the place of the one in the table. -/
def Replaces (g : GatewayState) (event : GatewayEvent) (uid : ℕ) : Prop :=
  ∃ n s, event = .resume n ∧ g.sessions n = some s ∧ s.uid = uid ∧
    s.attach = .resolved ∧ s.isOpen = true

theorem kept {uid m : ℕ} (heffect : g.Effect R event g')
    (hm : g.sessionsByUid uid = some m) (hother : event.session ≠ some m)
    (hreplaces : ¬g.Replaces event uid) : g'.sessionsByUid uid = some m := by
  cases heffect with
  | attach uid => exact hm
  | code hn hs henabled hcode => exact hm
  | cleanup hn hs henabled hcode hclosed =>
      refine removed_byUid.mpr ⟨hm, ?_⟩
      rintro ⟨-, rfl⟩
      exact hother hn
  | fail hs hreason => exact hm
  | @join n s hs hattach hopen hold =>
      have hne : uid ≠ s.uid := by
        rintro rfl
        exact hreplaces ⟨n, s, rfl, hs, rfl, hattach, hopen⟩
      exact (Function.update_of_ne hne ..).trans hm
  | @replace n old s s₀ hs hattach hopen hold hne hs₀ =>
      have huid : uid ≠ s.uid := by
        rintro rfl
        exact hreplaces ⟨n, s, rfl, hs, rfl, hattach, hopen⟩
      refine (Function.update_of_ne huid ..).trans (removed_byUid.mpr ⟨hm, ?_⟩)
      rintro ⟨rfl, -⟩
      exact huid rfl
  | @stuck n old s s₀ hs hattach hopen hold hne hs₀ =>
      refine removed_byUid.mpr ⟨hm, ?_⟩
      rintro ⟨rfl, -⟩
      exact hreplaces ⟨n, s, rfl, hs, rfl, hattach, hopen⟩

end GatewayState

/-- The tables agree in every state of every run. -/
theorem registry {R : Runtime} (e : GatewayRun R) : e.state.Registry := by
  apply Execution.induct (P := fun e : GatewayRun R =>
    GatewayState.Registry (Execution.state e))
  · intro e _ hinit
    rw [show e.state = {} from hinit]
    refine ⟨fun _ _ => rfl, ?_, ?_, ?_⟩
    · intro u n hn
      cases hn
    · intro n m
      constructor
      · intro hm
        cases hm
      · rintro ⟨-, u, hu⟩
        cases hu
    · intro n s hs
      cases hs
  · intro e e' event ih hnext
    obtain ⟨-, henabled, hstate⟩ := hnext.1
    rw [hstate]
    exact ih.effect (GatewayState.effect_of_enabled ih.stored henabled)

/-- Every step of a run has an effect. -/
theorem effect_of_next {R : Runtime} {e e' : GatewayRun R}
    {event : GatewayEvent} (h : e.Next event e') :
    e.state.Effect R event e'.state := by
  obtain ⟨-, henabled, hstate⟩ := h.1
  rw [hstate]
  exact GatewayState.effect_of_enabled (registry e).stored henabled

theorem later_gone {R : Runtime} {e e' : GatewayRun R} {n : ℕ}
    (h : e.state.Gone n) (hlater : e.Later e') : e'.state.Gone n := by
  apply hlater.preserves (P := fun e : GatewayRun R =>
    GatewayState.Gone (Execution.state e) n) h
  intro e₁ e₂ event hgone hnext
  exact hgone.effect (registry e₁) (effect_of_next hnext)

/-- In every state of every run, both tables hold the same sessions, at most one
of a user, each under its own uid and its own id.  A step that is about another
session leaves a session in them, unless it puts in a newer one of the same
user.  Once the close event of a session has fired, none of the
three tables has it again, and its client is closed. -/
theorem sessions_registered (R : Runtime) (e : GatewayRun R) :
    (∀ n, (∃ uid, e.state.sessionsByUid uid = some n) ↔
      ∃ m, e.state.sessionsById m = some n) ∧
    (∀ uid n, e.state.sessionsByUid uid = some n →
      ∃ s, e.state.sessions n = some s ∧ s.uid = uid) ∧
    (∀ m n, e.state.sessionsById m = some n → n = m) ∧
    (∀ m n s s', e.state.sessionsById m = some m →
      e.state.sessionsById n = some n → e.state.sessions m = some s →
      e.state.sessions n = some s' → s.uid = s'.uid → m = n) ∧
    (∀ event e', Execution.Next e event e' →
      ∀ uid m, e.state.sessionsByUid uid = some m → event.session ≠ some m →
        ¬e.state.Replaces event uid →
        e'.state.sessionsByUid uid = some m ∧
          e'.state.sessionsById m = some m) ∧
    ∀ n e₁ e₂, Execution.Next e₁ (.wsClose n) e₂ → Execution.Later e₂ e →
      (∀ uid, e.state.sessionsByUid uid ≠ some n) ∧
      (∀ m, e.state.sessionsById m ≠ some n) ∧
      ∃ s, e.state.sessions n = some s ∧ s.registered = false ∧
        s.client.hasSocket = false ∧ s.client.connected = false ∧
        (s.socket = .destroyed ∨ s.socket = .closed) := by
  have hregistry := registry e
  refine ⟨?_, hregistry.stored, fun m n h => ((hregistry.byId m n).mp h).1, ?_,
    ?_, ?_⟩
  · intro n
    constructor
    · intro hn
      exact ⟨n, (hregistry.byId n n).mpr ⟨rfl, hn⟩⟩
    · rintro ⟨m, hm⟩
      obtain ⟨rfl, hn⟩ := (hregistry.byId m n).mp hm
      exact hn
  · intro m n s s' hm hn hs hs' huid
    obtain ⟨-, u, hu⟩ := (hregistry.byId m m).mp hm
    obtain ⟨-, u', hu'⟩ := (hregistry.byId n n).mp hn
    obtain ⟨s₁, hs₁, rfl⟩ := hregistry.stored u m hu
    obtain ⟨s₂, hs₂, rfl⟩ := hregistry.stored u' n hu'
    cases hs.symm.trans hs₁
    cases hs'.symm.trans hs₂
    rw [huid, hu', Option.some.injEq] at hu
    exact hu.symm
  · intro event e' hnext uid m hm hother hreplaces
    have hkept := GatewayState.kept (effect_of_next hnext) hm hother hreplaces
    exact ⟨hkept, ((registry e').byId m m).mpr ⟨rfl, uid, hkept⟩⟩
  · intro n e₁ e₂ hclose hlater
    have hgone₂ : e₂.state.Gone n := by
      have heffect := effect_of_next hclose
      generalize e₂.state = g at heffect
      cases heffect with
      | code hn hs henabled hcode => cases hcode
      | cleanup hn hs henabled hcode hclosed =>
          cases hn
          exact GatewayState.gone_cleanup (registry e₁) hs hclosed
    obtain ⟨hout, s, hs, -, hregistered⟩ := later_gone hgone₂ hlater
    have hcoherent := hregistry.coherent n s hs
    have hnone := hcoherent.1 hregistered
    refine ⟨hout, ?_, s, hs, hregistered, hnone, hcoherent.2 hnone⟩
    intro m hm
    obtain ⟨rfl, u, hu⟩ := (hregistry.byId m n).mp hm
    exact hout u hu

end ReliableDelivery
