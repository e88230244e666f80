import LinquUb.Qemu.Latching
import LinquUb.Uapi.Books

/-!
# Sessions with queues of their own

Every registration opens a completion queue and a command queue, which is bound to it.  A device that
registers an endpoint more than once uses the last session.

* `registerEndpoint_spec` : what a registration does to the books of the surface;
* `OwnQueues` : no two endpoints have the same queues, and nobody else is bound to them;
* `OwnQueues.same`, `OwnQueues.hands`, `OwnQueues.opened` : **it stays so**.
-/

namespace LinquUb

open Action
open LocalGuestUapiSurface (SameBooks)
open Uapi (HandsOut)

namespace QemuBackendAdapter

theorem createSegment_exec (bytes : UInt64) (adapter : QemuBackendAdapter) :
    exec (createSegment bytes) adapter = ((exec (Uapi.createSegment bytes) adapter.surface).1,
      { adapter with surface := (exec (Uapi.createSegment bytes) adapter.surface).2 }) :=
  respond_exec .segmentCreated rfl (fun _ => rfl) adapter

theorem registerCq_exec (entity : EntityId) (adapter : QemuBackendAdapter) :
    exec (registerCq entity) adapter = ((exec (Uapi.registerCqWithOwner entity) adapter.surface).1,
      { adapter with surface := (exec (Uapi.registerCqWithOwner entity) adapter.surface).2 }) :=
  respond_exec .cqRegistered rfl (fun _ => rfl) adapter

theorem getHealth_exec (entity : EntityId) (adapter : QemuBackendAdapter) :
    exec (getHealth entity) adapter = ((exec (Uapi.getHealth entity) adapter.surface).1,
      { adapter with surface := (exec (Uapi.getHealth entity) adapter.surface).2 }) :=
  respond_exec .healthStatus rfl (fun _ => rfl) adapter

/-- The session of a registration, which gets the next queues. -/
def nextSession (adapter : QemuBackendAdapter) (entity : EntityId) : GuestEndpointSession :=
  ⟨entity, ⟨adapter.surface.nextCqId + 1⟩, ⟨adapter.surface.nextCmdqId + 1⟩,
    adapter.profile.endpoint⟩

/-- What registering an endpoint does to the books: a completion queue is opened, and bound to a
command queue unless that fails. -/
structure Registered (entity : EntityId) (result : Except SimError GuestEndpointSession)
    (adapter adapter' : QemuBackendAdapter) : Prop where
  nextCqId : adapter'.surface.nextCqId = adapter.surface.nextCqId + 1
  history : adapter'.surface.history = adapter.surface.history
  tickets : adapter'.surface.tickets = adapter.surface.tickets
  cases : ((∃ e, result = .error e) ∧
      ∀ q, adapter'.surface.flow.boundCq q = adapter.surface.flow.boundCq q) ∨
    (result = .ok (adapter.nextSession entity) ∧
      ∀ q, adapter'.surface.flow.boundCq q =
        if q = (adapter.nextSession entity).cmdq then some (adapter.nextSession entity).cq
        else adapter.surface.flow.boundCq q)

theorem Registered.session_eq {entity : EntityId} {session : GuestEndpointSession}
    {adapter adapter' : QemuBackendAdapter} (h : Registered entity (.ok session) adapter adapter') :
    session = adapter.nextSession entity := by
  rcases h.cases with ⟨⟨e, hresult⟩, -⟩ | ⟨hresult, -⟩ <;> cases hresult
  rfl

theorem registerEndpoint_spec (entity : EntityId) (adapter : QemuBackendAdapter) :
    Registered entity (exec (registerEndpoint entity) adapter).1 adapter
      (exec (registerEndpoint entity) adapter).2 := by
  let cq : CqHandle := ⟨adapter.surface.nextCqId + 1⟩
  let s₁ := (exec (Uapi.registerCqWithOwner entity) adapter.surface).2
  let adapter₁ := { adapter with surface := s₁ }
  have hcq : exec (registerCq entity) adapter = (.ok cq, adapter₁) := registerCq_exec entity adapter
  let depth := adapter.profile.endpoint.cmdqDepth.toNat
  have hcreate := createCmdQueue_exec cq entity depth adapter₁
  unfold registerEndpoint
  rw [exec_bind_ok hcq, exec_bind_ok (exec_get adapter₁)]
  rcases Uapi.createCmdQueue_spec cq entity depth s₁ with ⟨e, hexec⟩ | ⟨st, -, -, hexec⟩
  all_goals
    rw [show adapter₁.surface = s₁ from rfl, hexec] at hcreate
  · rw [exec_bind_error hcreate]
    exact ⟨rfl, rfl, rfl, .inl ⟨⟨e, rfl⟩, fun _ => rfl⟩⟩
  · rw [exec_bind_ok hcreate]
    refine ⟨rfl, rfl, rfl, .inr ⟨rfl, fun q => ?_⟩⟩
    let queue : CommandQueueState := { cq, owner := entity, depth, pending := [] }
    show ((Finmap.insert (⟨adapter.surface.nextCmdqId + 1⟩ : CmdQueueHandle) queue
      adapter.surface.cmdQueues).lookup q).map (·.cq) = _
    by_cases hq : q = ⟨adapter.surface.nextCmdqId + 1⟩
    · rw [hq, Finmap.lookup_insert]
      exact (if_pos rfl).symm
    · rw [Finmap.lookup_insert_of_ne _ hq]
      exact (if_neg hq).symm

/-- What a poll takes out of the surface. -/
theorem pollCq_handsOut {adapter : QemuBackendAdapter} (hi : adapter.surface.flow.Isolated)
    (session : GuestEndpointSession) (n : ℕ) :
    (∃ e adapter', exec (pollCq session (some n)) adapter = (.error e, adapter') ∧
        SameBooks adapter.surface adapter'.surface) ∨
      ∃ taken rest adapter', exec (pollCq session (some n)) adapter =
        (.ok (taken.map (·.event), rest), adapter') ∧
          HandsOut session.cq taken adapter.surface adapter'.surface := by
  have hpoll := pollCq_exec session (some n) adapter
  rcases Uapi.pollCqWithOwner_handsOut hi session.cq session.entity (some n) with
    ⟨e, s', hexec, hbooks⟩ | ⟨taken, rest, s', hexec, hout⟩
  all_goals
    rw [hexec] at hpoll
  · exact .inl ⟨e, _, hpoll, hbooks⟩
  · exact .inr ⟨taken, rest, _, hpoll, hout⟩

theorem Runs.isolated {adapter adapter' : QemuBackendAdapter} (hruns : adapter.Runs adapter')
    (h : adapter.surface.flow.Isolated) : adapter'.surface.flow.Isolated := by
  obtain ⟨cmds, hcmds⟩ := hruns.surface
  rw [hcmds]
  exact LocalGuestUapiSurface.run_invariant (fun _ _ hf hs => hf.step hs) h cmds

end QemuBackendAdapter

/-! ### Queues of one's own -/

variable {κ : Type} {s s' : LocalGuestUapiSurface}
  {sessionOf sessionOf' : κ → Option GuestEndpointSession}

/-- All submissions came through command queues, and every session has a command queue and a
completion queue of its own. -/
structure OwnQueues (s : LocalGuestUapiSurface) (sessionOf : κ → Option GuestEndpointSession) :
    Prop where
  isolated : s.flow.Isolated
  queued : s.tickets = s.history.accepted.length
  bound : ∀ k session, sessionOf k = some session →
    ∀ q, s.flow.boundCq q = some session.cq ↔ q = session.cmdq
  cqs : ∀ k session, sessionOf k = some session → session.cq.id ≤ s.nextCqId
  distinct : ∀ k k' session session', sessionOf k = some session → sessionOf k' = some session' →
    session.cq = session'.cq → k = k'

namespace OwnQueues

/-- Before the first registration. -/
theorem none (hisolated : s.flow.Isolated) (hqueued : s.tickets = s.history.accepted.length)
    (hnone : ∀ k, sessionOf k = .none) : OwnQueues s sessionOf where
  isolated := hisolated
  queued := hqueued
  bound := fun k _ hk => absurd ((hnone k).symm.trans hk) nofun
  cqs := fun k _ hk => absurd ((hnone k).symm.trans hk) nofun
  distinct := fun k _ _ _ hk => absurd ((hnone k).symm.trans hk) nofun

theorem same (h : OwnQueues s sessionOf) (hisolated : s'.flow.Isolated) (hbooks : SameBooks s s') :
    OwnQueues s' sessionOf where
  isolated := hisolated
  queued := by
    have hentered := hbooks.entered
    have hqueued := h.queued
    omega
  bound := fun k session hk q => (hbooks.boundCq q).symm ▸ h.bound k session hk q
  cqs := fun k session hk => hbooks.nextCqId.symm ▸ h.cqs k session hk
  distinct := h.distinct

theorem hands (h : OwnQueues s sessionOf) (hisolated : s'.flow.Isolated) {cq : CqHandle}
    {taken : List (Owned Submission)} (hout : HandsOut cq taken s s') : OwnQueues s' sessionOf where
  isolated := hisolated
  queued := by
    have hentered := hout.entered
    have hqueued := h.queued
    omega
  bound := fun k session hk q => (hout.boundCq q).symm ▸ h.bound k session hk q
  cqs := fun k session hk => hout.nextCqId.symm ▸ h.cqs k session hk
  distinct := h.distinct

/-- Two sessions do not share a completion queue, so a hand-out concerns one of them. -/
theorem returnsOf_other (h : OwnQueues s sessionOf) {k k' : κ}
    {session session' : GuestEndpointSession} (hk : sessionOf k = some session)
    (hk' : sessionOf k' = some session') (hne : k' ≠ k) {taken : List (Owned Submission)}
    (hout : HandsOut session.cq taken s s') :
    s'.returnsOf session'.cq = s.returnsOf session'.cq := by
  have hcq : session'.cq ≠ session.cq := fun heq => hne (h.distinct k' k session' session hk' hk heq)
  rw [hout.returnsOf session'.cq, if_neg hcq, List.append_nil]

theorem cmdq_ne (h : OwnQueues s sessionOf) {k k' : κ} {session session' : GuestEndpointSession}
    (hk : sessionOf k = some session) (hk' : sessionOf k' = some session') (hne : k ≠ k') :
    session.cmdq ≠ session'.cmdq := by
  intro heq
  have hbound := (h.bound k session hk session.cmdq).2 rfl
  have hbound' := (h.bound k' session' hk' session'.cmdq).2 rfl
  rw [heq, hbound'] at hbound
  exact hne (h.distinct k k' session session' hk hk' (Option.some.inj hbound).symm)

/-- What has been handed out was handed out for an existing queue. -/
theorem returnsOf_fresh (h : OwnQueues s sessionOf) : s.returnsOf ⟨s.nextCqId + 1⟩ = [] := by
  have hnone : s.history.returns.filter (·.cq = ⟨s.nextCqId + 1⟩) = [] := by
    rw [List.filter_eq_nil_iff]
    intro r hr
    obtain ⟨-, howner⟩ := h.isolated.logged.returns r hr
    obtain ⟨st, hst, -⟩ := Option.map_eq_some_iff.1 howner
    rw [decide_eq_true_eq]
    intro hcq
    have hle : r.cq.id ≤ s.nextCqId := h.isolated.wired.cqIds r.cq st hst
    rw [hcq] at hle
    exact Nat.not_succ_le_self _ hle
  rw [LocalGuestUapiSurface.returnsOf, hnone, List.map_nil]

/-- An existing session does not notice that queues are opened. -/
theorem bound_old (h : OwnQueues s sessionOf) {k : κ} {session : GuestEndpointSession}
    (hk : sessionOf k = some session) :
    session.cq ≠ ⟨s.nextCqId + 1⟩ ∧ session.cmdq ≠ ⟨s.nextCmdqId + 1⟩ := by
  constructor
  · intro heq
    have hle := h.cqs k session hk
    rw [heq] at hle
    exact Nat.not_succ_le_self _ hle
  · intro heq
    have hbound := (h.bound k session hk session.cmdq).2 rfl
    obtain ⟨queue, hqueue, -⟩ := Option.map_eq_some_iff.1 hbound
    rw [heq] at hqueue
    exact Option.some_ne_none _ (hqueue.symm.trans h.isolated.wired.queue_fresh)

/-- Nobody is bound to a queue that is not open. -/
theorem bound_fresh (h : OwnQueues s sessionOf) (q : CmdQueueHandle) :
    s.flow.boundCq q ≠ some ⟨s.nextCqId + 1⟩ := by
  intro hq
  obtain ⟨queue, hqueue, hcq⟩ := Option.map_eq_some_iff.1 hq
  obtain ⟨st, hst, -⟩ := Option.map_eq_some_iff.1 (h.isolated.wired.owners q queue hqueue)
  have hle : queue.cq.id ≤ s.nextCqId := h.isolated.wired.cqIds _ st hst
  rw [hcq] at hle
  exact Nat.not_succ_le_self _ hle

variable {adapter adapter' : QemuBackendAdapter} {entity : EntityId}
  {result : Except SimError GuestEndpointSession}

/-- A registration that fails. -/
theorem refused {e : SimError} (h : OwnQueues adapter.surface sessionOf)
    (hisolated : adapter'.surface.flow.Isolated)
    (hregistered : QemuBackendAdapter.Registered entity (.error e) adapter adapter') :
    OwnQueues adapter'.surface sessionOf := by
  rcases hregistered.cases with ⟨-, hbound⟩ | ⟨hresult, -⟩
  · exact
      { isolated := hisolated
        queued := by rw [hregistered.tickets, hregistered.history, h.queued]
        bound := fun k session hk q => (hbound q).symm ▸ h.bound k session hk q
        cqs := fun k session hk =>
          (h.cqs k session hk).trans (hregistered.nextCqId ▸ Nat.le_succ _)
        distinct := h.distinct }
  · cases hresult

/-- **A registration opens queues for the new session.**  The device may use it for the endpoint
`key`, or not at all. -/
theorem opened {session : GuestEndpointSession} (h : OwnQueues adapter.surface sessionOf)
    (hisolated : adapter'.surface.flow.Isolated)
    (hregistered : QemuBackendAdapter.Registered entity (.ok session) adapter adapter') (key : κ)
    (hsessions : ∀ k session', sessionOf' k = some session' →
      sessionOf k = some session' ∨ (k = key ∧ session' = session)) :
    OwnQueues adapter'.surface sessionOf' := by
  rcases hregistered.cases with ⟨⟨e, hresult⟩, -⟩ | ⟨hresult, hbound⟩
  · cases hresult
  cases hresult
  refine ⟨hisolated, by rw [hregistered.tickets, hregistered.history, h.queued], ?_, ?_, ?_⟩
  · intro k session' hk q
    rw [hbound q]
    rcases hsessions k session' hk with hk | ⟨-, rfl⟩
    · obtain ⟨hcq, hcmdq⟩ := h.bound_old hk
      split_ifs with hq
      · exact iff_of_false (fun heq => hcq (Option.some.inj heq).symm) (hq ▸ Ne.symm hcmdq)
      · exact h.bound k session' hk q
    · -- the new queue is bound to the new completion queue, and no other is
      split_ifs with hq
      · exact iff_of_true rfl hq
      · exact iff_of_false (h.bound_fresh q) hq
  · intro k session' hk
    rw [hregistered.nextCqId]
    rcases hsessions k session' hk with hk | ⟨-, rfl⟩
    · exact (h.cqs k session' hk).trans (Nat.le_succ _)
    · exact le_rfl
  · intro k k' session session' hk hk' hcq
    rcases hsessions k session hk with hk | ⟨rfl, rfl⟩ <;>
      rcases hsessions k' session' hk' with hk' | ⟨rfl, rfl⟩
    · exact h.distinct k k' session session' hk hk' hcq
    · exact absurd hcq (h.bound_old hk).1
    · exact absurd hcq.symm (h.bound_old hk').1
    · rfl

end OwnQueues

end LinquUb
