import LinquUb.Legacy.Endpoint
import LinquUb.Qemu.Delivery
import LinquUb.Qemu.Queues

/-!
# The bridge behind the C device

`linqu_ub_rust_bridge.c` hands the calls of the device on to the functions of `ffi.rs`, which turn
the result of the bridge into a number.

* `LinquUbRustBridge` : the bridge with the slots that it took from an endpoint and gave to it;
* `LinquUbRustBridge.Commands` : **what the surface accepted is what the slots say**;
* `LinquUbRustBridge.Completions` : **what the slots say is what the surface handed out**;
* `LinquUbRustBridge.run_joined` : both hold for every endpoint after all calls, in any order.
-/

namespace LinquUb

open Action
open LocalGuestUapiSurface (SameBooks NothingEnters)
open Uapi (HandsOut)

/-! ### The methods of the bridge -/

namespace LinquUbBridge

variable {bridge : LinquUbBridge} {endpointId : UInt16}

theorem session_exec {entry : BridgeEndpointSession}
    (hentry : bridge.sessions.lookup endpointId = some entry) :
    exec (session endpointId) bridge = (.ok entry.session, bridge) := by
  unfold session
  rw [exec_bind_ok (exec_get bridge), hentry]
  rfl

theorem session_unknown (hnone : bridge.sessions.lookup endpointId = none) :
    exec (session endpointId) bridge = (.error "unknown endpoint", bridge) := by
  unfold session
  rw [exec_bind_ok (exec_get bridge), hnone]
  rfl

/-- The adapter has only executed commands since. -/
def AdapterRuns (bridge bridge' : LinquUbBridge) : Prop := bridge.adapter.Runs bridge'.adapter

theorem adapterRuns_refl (bridge : LinquUbBridge) : AdapterRuns bridge bridge := .refl _

theorem adapterRuns_trans (x y z : LinquUbBridge) (h : AdapterRuns x y) (h' : AdapterRuns y z) :
    AdapterRuns x z :=
  h.trans _ _ _ h'

theorem onAdapter_runs {α : Type} {m : Action QemuBackendAdapter SimError α} (f : SimError → String)
    (hm : Within QemuBackendAdapter.Runs m) :
    Within AdapterRuns (mapErr f (onAdapter m)) :=
  fun bridge => hm bridge.adapter

theorem session_runs (endpointId : UInt16) :
    Within AdapterRuns (session endpointId) := by
  intro bridge
  cases hentry : bridge.sessions.lookup endpointId with
  | none =>
    rw [session_unknown hentry]
    exact .refl _
  | some entry =>
    rw [session_exec hentry]
    exact .refl _

theorem registerEndpoint_runs (endpointId : UInt16) (entityId : EntityId) :
    Within AdapterRuns
      (registerEndpoint endpointId entityId) := by
  refine within_bind adapterRuns_trans
    (onAdapter_runs _ (QemuBackendAdapter.registerEndpoint_runs entityId)) fun session => ?_
  exact within_bind adapterRuns_trans
    (onAdapter_runs _ (QemuBackendAdapter.createSegment_runs 4096)) fun _ bridge => .refl _

theorem submitSlot_runs (endpointId : UInt16) (slot : List UInt8) :
    Within AdapterRuns
      (submitSlot endpointId slot) := by
  refine within_bind adapterRuns_trans (session_runs endpointId) fun session => ?_
  cases hdecode : GuestDescriptor.decode slot with
  | error e => exact within_throw adapterRuns_refl e
  | ok desc =>
    refine within_bind adapterRuns_trans (within_pure adapterRuns_refl desc) fun desc => ?_
    exact within_bind adapterRuns_trans
      (onAdapter_runs _ (QemuBackendAdapter.enqueueDescriptor_runs session desc))
      fun _ => within_pure adapterRuns_refl _

theorem ringDoorbell_runs (endpointId : UInt16) (maxBatch : UInt32) :
    Within AdapterRuns
      (ringDoorbell endpointId maxBatch) := by
  refine within_bind adapterRuns_trans (session_runs endpointId) fun session => ?_
  exact within_bind adapterRuns_trans
    (onAdapter_runs _ (QemuBackendAdapter.ringDoorbell_runs session _))
    fun _ => within_pure adapterRuns_refl _

theorem pollCompletion_runs (endpointId : UInt16) (slotOut : List UInt8) :
    Within AdapterRuns
      (pollCompletion endpointId slotOut) := by
  refine within_bind adapterRuns_trans (session_runs endpointId) fun session => ?_
  refine within_bind adapterRuns_trans
    (onAdapter_runs _ (QemuBackendAdapter.pollCq_runs session _)) ?_
  rintro ⟨_ | ⟨event, events⟩, rest⟩
  · exact within_pure adapterRuns_refl _
  · show Within AdapterRuns (do return some (← ofExcept (encodeCompletion event slotOut.length)))
    cases encodeCompletion event slotOut.length with
    | error e => exact within_throw adapterRuns_refl e
    | ok slot => exact within_pure adapterRuns_refl _

theorem registerEndpoint_cases (endpointId : UInt16) (entityId : EntityId)
    (bridge : LinquUbBridge) :
    ∃ result adapter, QemuBackendAdapter.Registered entityId result bridge.adapter adapter ∧
      bridge.adapter.Runs adapter ∧
      ((∃ e, result = .error e ∧ exec (registerEndpoint endpointId entityId) bridge =
          (.error "register endpoint failed", { bridge with adapter })) ∨
        ∃ session adapter', result = .ok session ∧ adapter.Runs adapter' ∧
          NothingEnters adapter.surface adapter'.surface ∧
          (exec (registerEndpoint endpointId entityId) bridge =
              (.error "create default segment failed", { bridge with adapter := adapter' }) ∨
            ∃ segment, exec (registerEndpoint endpointId entityId) bridge =
              (.ok (), { adapter := adapter'
                         sessions := Finmap.insert endpointId ⟨session, segment⟩
                           bridge.sessions }))) := by
  refine ⟨_, _, QemuBackendAdapter.registerEndpoint_spec entityId bridge.adapter,
    QemuBackendAdapter.registerEndpoint_runs entityId bridge.adapter, ?_⟩
  rcases hregister : exec (QemuBackendAdapter.registerEndpoint entityId) bridge.adapter with
    ⟨e | session, adapter⟩
  all_goals
    have hon : exec (mapErr (fun _ => "register endpoint failed")
        (onAdapter (QemuBackendAdapter.registerEndpoint entityId))) bridge =
          (Except.mapError (fun _ => "register endpoint failed")
            (exec (QemuBackendAdapter.registerEndpoint entityId) bridge.adapter).1,
            { bridge with adapter :=
                (exec (QemuBackendAdapter.registerEndpoint entityId) bridge.adapter).2 }) :=
      rfl
    rw [hregister] at hon
  · exact .inl ⟨e, rfl, by rw [registerEndpoint, exec_bind_error hon]⟩
  · refine .inr ⟨session, (exec (QemuBackendAdapter.createSegment 4096) adapter).2, rfl,
      QemuBackendAdapter.createSegment_runs 4096 adapter, ?_, ?_⟩
    · rw [QemuBackendAdapter.createSegment_exec]
      exact Uapi.createSegment_nothingEnters 4096 adapter.surface
    · rw [registerEndpoint, exec_bind_ok hon]
      rcases hcreate : exec (QemuBackendAdapter.createSegment 4096) adapter with
        ⟨e | segment, adapter'⟩
      all_goals
        have hon' : exec (mapErr (fun _ => "create default segment failed")
            (onAdapter (QemuBackendAdapter.createSegment 4096))) { bridge with adapter } =
              (Except.mapError (fun _ => "create default segment failed")
                (exec (QemuBackendAdapter.createSegment 4096) adapter).1,
                { bridge with
                  adapter := (exec (QemuBackendAdapter.createSegment 4096) adapter).2 }) :=
          rfl
        rw [hcreate] at hon'
      · exact .inl (exec_bind_error hon')
      · exact .inr ⟨segment.id, by rw [exec_bind_ok hon']; rfl⟩

theorem submitSlot_cases (endpointId : UInt16) (slot : List UInt8) (bridge : LinquUbBridge) :
    (∃ e, exec (submitSlot endpointId slot) bridge = (.error e, bridge)) ∨
      ∃ entry desc queue adapter, bridge.sessions.lookup endpointId = some entry ∧
        GuestDescriptor.decode slot = .ok desc ∧
        bridge.adapter.surface.cmdQueues.lookup entry.session.cmdq = some queue ∧
        adapter.surface = Uapi.accepted bridge.adapter.surface entry.session.cmdq queue
          desc.toUapiDescriptor ∧
        bridge.adapter.Runs adapter ∧
        exec (submitSlot endpointId slot) bridge = (.ok (), { bridge with adapter }) := by
  unfold submitSlot
  cases hentry : bridge.sessions.lookup endpointId with
  | none => exact .inl ⟨_, exec_bind_error (session_unknown hentry)⟩
  | some entry =>
    rw [exec_bind_ok (session_exec hentry)]
    cases hdecode : GuestDescriptor.decode slot with
    | error e => exact .inl ⟨e, rfl⟩
    | ok desc =>
      have hruns := QemuBackendAdapter.enqueueDescriptor_runs entry.session desc bridge.adapter
      have hon : exec (mapErr (fun _ => "enqueue failed")
          (onAdapter (QemuBackendAdapter.enqueueDescriptor entry.session desc))) bridge =
            (Except.mapError (fun _ => "enqueue failed")
              (exec (QemuBackendAdapter.enqueueDescriptor entry.session desc) bridge.adapter).1,
              { bridge with adapter := (exec
                (QemuBackendAdapter.enqueueDescriptor entry.session desc) bridge.adapter).2 }) :=
        rfl
      rw [QemuBackendAdapter.enqueueDescriptor_exec] at hon hruns
      rw [exec_bind_ok (show exec (ofExcept (.ok desc : Except String GuestDescriptor)) bridge =
        (.ok desc, bridge) from rfl)]
      rcases Uapi.enqueueCmd_cases entry.session.cmdq entry.session.entity desc.toUapiDescriptor
        bridge.adapter.surface with ⟨e, hexec⟩ | ⟨queue, counts, hqueue, -, hexec⟩
      all_goals
        rw [hexec] at hon hruns
      · exact .inl ⟨_, exec_bind_error hon⟩
      · exact .inr ⟨entry, desc, queue, _, rfl, rfl, hqueue, rfl, hruns, exec_bind_ok hon⟩

theorem ringDoorbell_state (endpointId : UInt16) (maxBatch : UInt32) (bridge : LinquUbBridge) :
    ∃ adapter, (exec (ringDoorbell endpointId maxBatch) bridge).2 = { bridge with adapter } ∧
      bridge.adapter.Runs adapter ∧ NothingEnters bridge.adapter.surface adapter.surface := by
  unfold ringDoorbell
  cases hentry : bridge.sessions.lookup endpointId with
  | none =>
    rw [exec_bind_error (session_unknown hentry)]
    exact ⟨bridge.adapter, rfl, .refl _, .refl _⟩
  | some entry =>
    rw [exec_bind_ok (session_exec hentry)]
    let m := QemuBackendAdapter.ringDoorbell entry.session (some maxBatch.toNat)
    refine ⟨(exec m bridge.adapter).2, ?_, QemuBackendAdapter.ringDoorbell_runs _ _ _, ?_⟩
    · have hon : exec (mapErr (fun _ => "doorbell failed") (onAdapter m)) bridge =
          (Except.mapError (fun _ => "doorbell failed") (exec m bridge.adapter).1,
            { bridge with adapter := (exec m bridge.adapter).2 }) := rfl
      rcases hring : exec m bridge.adapter with ⟨e | counts, adapter⟩ <;> rw [hring] at hon
      · rw [exec_bind_error hon]
      · rw [exec_bind_ok hon]
        rfl
    · rw [QemuBackendAdapter.ringDoorbell_exec]
      exact Uapi.ringDoorbell_nothingEnters _ _ _ bridge.adapter.surface

/-- A poll takes one completion out of the queue of the endpoint, or none. -/
theorem pollCompletion_cases (hi : bridge.adapter.surface.flow.Isolated)
    {entry : BridgeEndpointSession} (hentry : bridge.sessions.lookup endpointId = some entry)
    (slotOut : List UInt8) :
    ∃ taken adapter result, exec (pollCompletion endpointId slotOut) bridge =
        (result, { bridge with adapter }) ∧ bridge.adapter.Runs adapter ∧
      HandsOut entry.session.cq taken bridge.adapter.surface adapter.surface ∧
      adapter.surface.history.accepted = bridge.adapter.surface.history.accepted ∧
      ((taken = [] ∧ ∀ slot, result ≠ .ok (some slot)) ∨ ∃ completion, taken = [completion] ∧
        result = (encodeCompletion completion.event slotOut.length).map some) := by
  have hruns := QemuBackendAdapter.pollCq_runs entry.session (some 1) bridge.adapter
  have haccepted : (exec (QemuBackendAdapter.pollCq entry.session (some 1))
      bridge.adapter).2.surface.history.accepted = bridge.adapter.surface.history.accepted := by
    rw [QemuBackendAdapter.pollCq_exec]
    exact Uapi.pollCqWithOwner_accepted hi _ _ _
  rcases QemuBackendAdapter.pollCq_handsOut hi entry.session 1 with
    ⟨e, adapter, hpoll, hbooks⟩ | ⟨taken, rest, adapter, hpoll, hout⟩
  all_goals
    rw [hpoll] at hruns haccepted
  · have hon : exec (mapErr (fun _ => "poll completion failed")
        (onAdapter (QemuBackendAdapter.pollCq entry.session (some 1)))) bridge =
          (.error "poll completion failed", { bridge with adapter }) := by
      rw [exec_mapErr, onAdapter, exec_zoom, hpoll]
      rfl
    refine ⟨[], adapter, .error "poll completion failed", ?_, hruns, Uapi.handsOut_nil _ hbooks,
      haccepted, .inl ⟨rfl, by simp⟩⟩
    rw [pollCompletion, exec_bind_ok (session_exec hentry), exec_bind_error hon]
  · have hlength := QemuBackendAdapter.pollCq_length hpoll
    have heq := @pollCompletion_eq bridge endpointId slotOut entry hentry _ rest adapter hpoll
    cases taken with
    | nil => exact ⟨[], adapter, .ok none, heq, hruns, hout, haccepted, .inl ⟨rfl, by simp⟩⟩
    | cons completion tail =>
      rw [List.length_map, List.length_cons] at hlength
      obtain rfl : tail = [] := List.length_eq_zero_iff.1 (by omega)
      exact ⟨[completion], adapter, _, heq, hruns, hout, haccepted, .inr ⟨completion, rfl, rfl⟩⟩

end LinquUbBridge

namespace Legacy

/-- The bridge and its past: the command slots that it took and the completion slots that it filled
since their endpoint was registered. -/
structure LinquUbRustBridge where
  bridge : LinquUbBridge
  accepted : List (UInt16 × List UInt8)
  given : List (UInt16 × List UInt8)

/-- The slots of an endpoint. -/
def slotsOf (log : List (UInt16 × List UInt8)) (endpointId : UInt16) : List (List UInt8) :=
  (log.filter (·.1 = endpointId)).map (·.2)

namespace LinquUbRustBridge

def new (machine : Machine) : LinquUbRustBridge :=
  { bridge := .new machine, accepted := [], given := [] }

def registerEndpoint (endpointId : UInt16) (entityId : EntityId) (self : LinquUbRustBridge) :
    ℤ × LinquUbRustBridge :=
  match exec (LinquUbBridge.registerEndpoint endpointId entityId) self.bridge with
  | (.ok (), bridge) =>
    (0, { bridge
          accepted := self.accepted.filter (·.1 ≠ endpointId)
          given := self.given.filter (·.1 ≠ endpointId) })
  | (.error _, bridge) => (-1, { self with bridge })

/-- The number and `segment_out`. -/
def getDefaultSegment (endpointId : UInt16) (self : LinquUbRustBridge) : ℤ × Option UInt64 :=
  match self.bridge.sessions.lookup endpointId with
  | some entry => (0, some entry.defaultSegment)
  | none => (-1, none)

def submitSlot (endpointId : UInt16) (slot : List UInt8) (self : LinquUbRustBridge) :
    ℤ × LinquUbRustBridge :=
  match exec (LinquUbBridge.submitSlot endpointId slot) self.bridge with
  | (.ok (), bridge) => (0, { self with bridge, accepted := self.accepted ++ [(endpointId, slot)] })
  | (.error _, bridge) => (-1, { self with bridge })

/-- The device does not look at the two counts. -/
def ringDoorbell (endpointId : UInt16) (maxBatch : ℕ) (self : LinquUbRustBridge) :
    ℤ × LinquUbRustBridge :=
  match exec (LinquUbBridge.ringDoorbell endpointId (.ofNat maxBatch)) self.bridge with
  | (.ok _, bridge) => (0, { self with bridge })
  | (.error _, bridge) => (-1, { self with bridge })

/-- The number and what is in `slot_out`, of which the device looks at a `0` only. -/
def pollCompletion (endpointId : UInt16) (self : LinquUbRustBridge) :
    (ℤ × List UInt8) × LinquUbRustBridge :=
  match exec (LinquUbBridge.pollCompletion endpointId (List.replicate descBytes 0)) self.bridge with
  | (.ok (some slot), bridge) =>
    ((0, slot), { self with bridge, given := self.given ++ [(endpointId, slot)] })
  | (.ok none, bridge) => ((1, []), { self with bridge })
  | (.error _, bridge) => ((-1, []), { self with bridge })

/-! ### What the calls keep -/

def surface (b : LinquUbRustBridge) : LocalGuestUapiSurface := b.bridge.adapter.surface

def sessionOf (b : LinquUbRustBridge) (endpointId : UInt16) : Option GuestEndpointSession :=
  (b.bridge.sessions.lookup endpointId).map (·.session)

/-- A submission is what a command slot says. -/
def Means (slot : List UInt8) (sub : Submission) : Prop :=
  ∃ desc, GuestDescriptor.decode slot = .ok desc ∧ sub.desc = desc.toUapiDescriptor

/-- A completion slot says what was handed out. -/
def Says (slot : List UInt8) (entry : Owned Submission) : Prop :=
  encodeCompletion entry.event descBytes = .ok slot

/-- What a command queue has accepted. -/
def acceptedBy (s : LocalGuestUapiSurface) (cmdq : CmdQueueHandle) : List Submission :=
  s.history.accepted.filter (·.queue = some cmdq)

/-- The command queue has accepted what the slots of the endpoint say, in their order. -/
def Commands (b : LinquUbRustBridge) (endpointId : UInt16) (session : GuestEndpointSession) :
    Prop :=
  List.Forall₂ Means (slotsOf b.accepted endpointId) (acceptedBy b.surface session.cmdq)

/-- The slots that the endpoint was given say what its completion queue has handed out, in this
order; if all of it fits into slots, none is missing. -/
def Completions (b : LinquUbRustBridge) (endpointId : UInt16) (session : GuestEndpointSession) :
    Prop :=
  ∃ entries, List.Forall₂ Says (slotsOf b.given endpointId) entries ∧
    entries.Sublist (b.surface.returnsOf session.cq) ∧
    ((∀ entry ∈ b.surface.returnsOf session.cq, entry.event.Fits descBytes) →
      entries = b.surface.returnsOf session.cq)

structure Joined (b : LinquUbRustBridge) : Prop where
  queues : OwnQueues b.surface b.sessionOf
  /-- Submissions came through queues that are open. -/
  opened : ∀ sub ∈ b.surface.history.accepted, ∀ q, sub.queue = some q →
    (b.surface.flow.boundCq q).isSome
  commands : ∀ endpointId session, b.sessionOf endpointId = some session →
    b.Commands endpointId session
  completions : ∀ endpointId session, b.sessionOf endpointId = some session →
    b.Completions endpointId session

variable {b : LinquUbRustBridge}

theorem slotsOf_append (log : List (UInt16 × List UInt8)) (endpointId other : UInt16)
    (slot : List UInt8) : slotsOf (log ++ [(endpointId, slot)]) other =
      slotsOf log other ++ if other = endpointId then [slot] else [] := by
  by_cases hother : other = endpointId
  · simp [slotsOf, List.filter_append, hother]
  · simp [slotsOf, List.filter_append, hother, Ne.symm hother]

theorem slotsOf_forget (log : List (UInt16 × List UInt8)) (endpointId other : UInt16) :
    slotsOf (log.filter (·.1 ≠ endpointId)) other =
      if other = endpointId then [] else slotsOf log other := by
  rw [slotsOf, List.filter_filter]
  split_ifs with hother
  · simp [hother]
  · have hsame : ∀ entry : UInt16 × List UInt8,
        (decide (entry.1 = other) && decide (entry.1 ≠ endpointId)) = decide (entry.1 = other) := by
      intro entry
      by_cases hentry : entry.1 = other <;> simp [hentry, hother]
    simp only [hsame]
    rfl

/-- The surface has handed out and accepted nothing. -/
theorem Joined.quiet (h : b.Joined) {adapter : QemuBackendAdapter}
    (hruns : b.bridge.adapter.Runs adapter)
    (henters : NothingEnters b.surface adapter.surface) :
    Joined { b with bridge := { b.bridge with adapter } } where
  queues := h.queues.same (hruns.isolated h.queues.isolated) henters.toSameBooks
  opened := fun sub hsub q hq => by
    have hbound := h.opened sub (henters.accepted ▸ hsub) q hq
    rwa [← henters.boundCq q] at hbound
  commands := fun endpointId session hsession => by
    have haccepted : acceptedBy adapter.surface session.cmdq =
        acceptedBy b.surface session.cmdq := by
      rw [acceptedBy, henters.accepted, acceptedBy]
    have hcommands := h.commands endpointId session hsession
    unfold Commands at hcommands ⊢
    rwa [← haccepted] at hcommands
  completions := fun endpointId session hsession => by
    have hreturns : adapter.surface.returnsOf session.cq = b.surface.returnsOf session.cq := by
      simp only [LocalGuestUapiSurface.returnsOf, henters.returns]
    obtain ⟨entries, hsaid, hrest⟩ := h.completions endpointId session hsession
    exact ⟨entries, hsaid, hreturns.symm ▸ hrest⟩

theorem acceptedBy_accepted (s : LocalGuestUapiSurface) (cmdq other : CmdQueueHandle)
    (queue : CommandQueueState) (desc : UapiDescriptor) :
    acceptedBy (Uapi.accepted s cmdq queue desc) other =
      acceptedBy s other ++ if other = cmdq then [⟨desc, s.tickets, some cmdq⟩] else [] := by
  by_cases hother : other = cmdq
  · simp [acceptedBy, Uapi.accepted, List.filter_append, hother]
  · simp [acceptedBy, Uapi.accepted, List.filter_append, hother, Ne.symm hother]

/-- **A slot that the bridge takes** is one more submission of the endpoint. -/
theorem submitSlot_joined (h : b.Joined) (endpointId : UInt16) (slot : List UInt8) :
    Joined (b.submitSlot endpointId slot).2 := by
  unfold submitSlot
  rcases LinquUbBridge.submitSlot_cases endpointId slot b.bridge with
    ⟨e, hexec⟩ | ⟨entry, desc, queue, adapter, hentry, hdecode, hqueue, hsurface, hruns, hexec⟩ <;>
    rw [hexec]
  · exact h
  have hsession : b.sessionOf endpointId = some entry.session := by
    rw [sessionOf, hentry]
    rfl
  have hbooks : SameBooks b.surface adapter.surface := by
    rw [hsurface]
    refine LocalGuestUapiSurface.sameBooks_pending hqueue _ rfl rfl rfl rfl ?_
    simp only [Uapi.accepted, surface, List.length_append, List.length_singleton]
    omega
  refine ⟨h.queues.same (hruns.isolated h.queues.isolated) hbooks, ?_, ?_, ?_⟩
  · intro sub hsub q hq
    show (adapter.surface.flow.boundCq q).isSome
    rw [hbooks.boundCq q]
    have hsub : sub ∈ adapter.surface.history.accepted := hsub
    rw [hsurface] at hsub
    rcases List.mem_append.1 hsub with hsub | hsub
    · exact h.opened sub hsub q hq
    · cases List.mem_singleton.1 hsub
      cases hq
      exact Option.isSome_map.trans (Option.isSome_iff_exists.2 ⟨queue, hqueue⟩)
  · intro other session hother
    have hcommands := h.commands other session hother
    show List.Forall₂ Means (slotsOf (b.accepted ++ [(endpointId, slot)]) other)
      (acceptedBy adapter.surface session.cmdq)
    rw [hsurface, slotsOf_append, acceptedBy_accepted]
    refine List.rel_append hcommands ?_
    by_cases hne : other = endpointId
    · subst hne
      obtain rfl : session = entry.session := Option.some.inj (hother.symm.trans hsession)
      rw [if_pos rfl, if_pos rfl]
      exact .cons ⟨desc, hdecode, rfl⟩ .nil
    · rw [if_neg hne, if_neg (h.queues.cmdq_ne hother hsession hne)]
      exact .nil
  · intro other session hother
    obtain ⟨entries, hsaid, hrest⟩ := h.completions other session hother
    have hreturns : adapter.surface.returnsOf session.cq = b.surface.returnsOf session.cq := by
      simp only [LocalGuestUapiSurface.returnsOf, hbooks.returns]
    exact ⟨entries, hsaid, hreturns.symm ▸ hrest⟩

theorem ringDoorbell_joined (h : b.Joined) (endpointId : UInt16) (maxBatch : ℕ) :
    Joined (b.ringDoorbell endpointId maxBatch).2 := by
  obtain ⟨adapter, hstate, hruns, henters⟩ :=
    b.bridge.ringDoorbell_state endpointId (.ofNat maxBatch)
  have hquiet := h.quiet hruns henters
  rw [← hstate] at hquiet
  unfold ringDoorbell
  rcases hexec : exec (LinquUbBridge.ringDoorbell endpointId (.ofNat maxBatch)) b.bridge with
    ⟨_ | _, bridge⟩ <;> rw [hexec] at hquiet <;> exact hquiet

/-- The completion queue of an endpoint hands out `taken`, and the endpoint is given the slots of
`kept`: of all of it, if it fits. -/
theorem Joined.hands (h : b.Joined) {endpointId : UInt16} {session : GuestEndpointSession}
    (hsession : b.sessionOf endpointId = some session) {adapter : QemuBackendAdapter}
    (hruns : b.bridge.adapter.Runs adapter) {taken kept : List (Owned Submission)}
    (hout : HandsOut session.cq taken b.surface adapter.surface)
    (haccepted : adapter.surface.history.accepted = b.surface.history.accepted)
    {given : List (UInt16 × List UInt8)} {slots : List (List UInt8)}
    (hgiven : ∀ other, slotsOf given other =
      slotsOf b.given other ++ if other = endpointId then slots else [])
    (hsaid : List.Forall₂ Says slots kept) (hkept : kept.Sublist taken)
    (hfits : (∀ entry ∈ taken, entry.event.Fits descBytes) → kept = taken) :
    Joined { b with bridge := { b.bridge with adapter }, given } := by
  refine ⟨h.queues.hands (hruns.isolated h.queues.isolated) hout, ?_, ?_, ?_⟩
  · intro sub hsub q hq
    have hsub : sub ∈ adapter.surface.history.accepted := hsub
    have hbound := h.opened sub (haccepted ▸ hsub) q hq
    rwa [← hout.boundCq q] at hbound
  · intro other session' hother
    have hcommands := h.commands other session' hother
    show List.Forall₂ Means (slotsOf b.accepted other) (acceptedBy adapter.surface session'.cmdq)
    rwa [acceptedBy, haccepted]
  · intro other session' hother
    obtain ⟨entries, hold, hsublist, hall⟩ := h.completions other session' hother
    by_cases hne : other = endpointId
    · subst hne
      obtain rfl : session' = session := Option.some.inj (hother.symm.trans hsession)
      have hreturns := hout.returnsOf session'.cq
      rw [if_pos rfl] at hreturns
      refine ⟨entries ++ kept, ?_, ?_, fun hfit => ?_⟩
      · rw [hgiven other, if_pos rfl]
        exact List.rel_append hold hsaid
      · exact hreturns.symm ▸ hsublist.append hkept
      · replace hfit : ∀ entry ∈ adapter.surface.returnsOf session'.cq,
          entry.event.Fits descBytes := hfit
        rw [hreturns] at hfit
        rw [hall fun entry hentry => hfit entry (List.mem_append_left _ hentry),
          hfits fun entry hentry => hfit entry (List.mem_append_right _ hentry)]
        exact hreturns.symm
    · have hreturns := h.queues.returnsOf_other hsession hother hne hout
      refine ⟨entries, ?_, hreturns.symm ▸ hsublist, hreturns.symm ▸ hall⟩
      rw [hgiven other, if_neg hne, List.append_nil]
      exact hold

/-- **A slot that the bridge fills** is the completion that it has taken out of the queue. -/
theorem pollCompletion_joined (h : b.Joined) (endpointId : UInt16) :
    Joined (b.pollCompletion endpointId).2 := by
  unfold pollCompletion
  cases hentry : b.bridge.sessions.lookup endpointId with
  | none =>
    rw [LinquUbBridge.pollCompletion, exec_bind_error (LinquUbBridge.session_unknown hentry)]
    exact h
  | some entry =>
    have hsession : b.sessionOf endpointId = some entry.session := by
      rw [sessionOf, hentry]
      rfl
    obtain ⟨taken, adapter, result, hexec, hruns, hout, haccepted, hcases⟩ :=
      LinquUbBridge.pollCompletion_cases h.queues.isolated hentry (List.replicate descBytes 0)
    have hsame : ∀ other, slotsOf b.given other =
        slotsOf b.given other ++ if other = endpointId then [] else [] := by simp
    rw [hexec]
    rcases hcases with ⟨rfl, hnone⟩ | ⟨completion, rfl, rfl⟩
    · have hnothing := h.hands hsession hruns hout haccepted hsame .nil (.refl _) fun _ => rfl
      rcases result with _ | _ | slot
      · exact hnothing
      · exact hnothing
      · exact absurd rfl (hnone slot)
    · rw [List.length_replicate]
      rcases completion.event.encodeCompletion_spec descBytes with
        ⟨hfits, e, hencode⟩ | ⟨-, slot, hencode, -⟩ <;> rw [hencode]
      · -- the completion has left the queue and is lost
        exact h.hands hsession hruns hout haccepted hsame .nil (List.nil_sublist _)
          fun hall => absurd (hall completion List.mem_cons_self) hfits
      · exact h.hands hsession hruns hout haccepted (slotsOf_append b.given endpointId · slot)
          (.cons hencode .nil) (.refl _) fun _ => rfl

/-- No submission came through a queue that is not open. -/
theorem Joined.acceptedBy_fresh (h : b.Joined) :
    acceptedBy b.surface ⟨b.surface.nextCmdqId + 1⟩ = [] := by
  rw [acceptedBy, List.filter_eq_nil_iff]
  intro sub hsub
  rw [decide_eq_true_eq]
  intro hqueue
  obtain ⟨queue, hbound⟩ := Option.isSome_iff_exists.1 (h.opened sub hsub _ hqueue)
  obtain ⟨st, hst, -⟩ := Option.map_eq_some_iff.1 hbound
  exact Option.some_ne_none _ (hst.symm.trans h.queues.isolated.wired.queue_fresh)

/-- Queues are opened, and nothing else happens to the history.  An endpoint keeps its session and
its logs, or has queues without a past. -/
theorem Joined.reopen {b' : LinquUbRustBridge} (h : b.Joined)
    (hqueues : OwnQueues b'.surface b'.sessionOf)
    (haccepted : b'.surface.history.accepted = b.surface.history.accepted)
    (hreturns : b'.surface.history.returns = b.surface.history.returns)
    (hbound : ∀ q, (b.surface.flow.boundCq q).isSome → (b'.surface.flow.boundCq q).isSome)
    (hcases : ∀ endpointId session, b'.sessionOf endpointId = some session →
      (b.sessionOf endpointId = some session ∧
        slotsOf b'.accepted endpointId = slotsOf b.accepted endpointId ∧
        slotsOf b'.given endpointId = slotsOf b.given endpointId) ∨
      (acceptedBy b.surface session.cmdq = [] ∧ b.surface.returnsOf session.cq = [] ∧
        slotsOf b'.accepted endpointId = [] ∧ slotsOf b'.given endpointId = [])) : b'.Joined where
  queues := hqueues
  opened := fun sub hsub q hq => hbound q (h.opened sub (haccepted ▸ hsub) q hq)
  commands := fun endpointId session hsession => by
    unfold Commands acceptedBy
    rw [haccepted]
    rcases hcases endpointId session hsession with ⟨hold, hslots, -⟩ | ⟨hnone, -, hslots, -⟩ <;>
      rw [hslots]
    · exact h.commands endpointId session hold
    · rw [acceptedBy] at hnone
      rw [hnone]
      exact .nil
  completions := fun endpointId session hsession => by
    unfold Completions LocalGuestUapiSurface.returnsOf
    rw [hreturns]
    rcases hcases endpointId session hsession with ⟨hold, -, hslots⟩ | ⟨-, hnone, -, hslots⟩ <;>
      rw [hslots]
    · exact h.completions endpointId session hold
    · rw [LocalGuestUapiSurface.returnsOf] at hnone
      rw [hnone]
      exact ⟨[], .nil, .refl _, fun _ => rfl⟩

/-- **A registration** gives the endpoint new queues and starts its logs again. -/
theorem registerEndpoint_joined (h : b.Joined) (endpointId : UInt16) (entityId : EntityId) :
    Joined (b.registerEndpoint endpointId entityId).2 := by
  obtain ⟨result, adapter, hregistered, hruns, hcases⟩ :=
    LinquUbBridge.registerEndpoint_cases endpointId entityId b.bridge
  have hisolated := hruns.isolated h.queues.isolated
  unfold registerEndpoint
  rcases hcases with ⟨e, rfl, hexec⟩ | ⟨session, adapter', rfl, hruns', henters, hexec⟩
  · rw [hexec]
    refine h.reopen (h.queues.refused hisolated hregistered)
      (congrArg History.accepted hregistered.history) (congrArg History.returns hregistered.history)
      (fun q hq => ?_) fun other session hother => .inl ⟨hother, rfl, rfl⟩
    rcases hregistered.cases with ⟨-, hsame⟩ | ⟨hresult, -⟩
    · exact (hsame q).symm ▸ hq
    · cases hresult
  obtain rfl := hregistered.session_eq
  -- the queues are there, whether or not the session is used
  have hqueues : ∀ sessionOf', (∀ k session, sessionOf' k = some session →
      b.sessionOf k = some session ∨
        (k = endpointId ∧ session = b.bridge.adapter.nextSession entityId)) →
      OwnQueues adapter'.surface sessionOf' := fun sessionOf' hsessions =>
    (h.queues.opened hisolated hregistered endpointId hsessions).same (hruns'.isolated hisolated)
      henters.toSameBooks
  have haccepted := henters.accepted.trans (congrArg History.accepted hregistered.history)
  have hreturns := henters.returns.trans (congrArg History.returns hregistered.history)
  have hbound : ∀ q, (b.surface.flow.boundCq q).isSome →
      (adapter'.surface.flow.boundCq q).isSome := by
    intro q hq
    rcases hregistered.cases with ⟨⟨e, hresult⟩, -⟩ | ⟨-, hnew⟩
    · cases hresult
    · rw [henters.boundCq q, hnew q]
      split_ifs
      · rfl
      · exact hq
  rcases hexec with hexec | ⟨segment, hexec⟩ <;> rw [hexec]
  · exact h.reopen (hqueues _ fun _ _ hk => .inl hk) haccepted hreturns hbound
      fun other session hother => .inl ⟨hother, rfl, rfl⟩
  · let sessions := Finmap.insert endpointId
      ⟨b.bridge.adapter.nextSession entityId, segment⟩ b.bridge.sessions
    have hsessions : ∀ other session, (sessions.lookup other).map (·.session) = some session →
        (other = endpointId ∧ session = b.bridge.adapter.nextSession entityId) ∨
          (other ≠ endpointId ∧ b.sessionOf other = some session) := by
      intro other session hother
      obtain ⟨entry, hentry, rfl⟩ := Option.map_eq_some_iff.1 hother
      rcases Flow.lookup_insert_cases hentry with ⟨rfl, rfl⟩ | ⟨hne, hentry⟩
      · exact .inl ⟨rfl, rfl⟩
      · exact .inr ⟨hne, Option.map_eq_some_iff.2 ⟨entry, hentry, rfl⟩⟩
    refine h.reopen (hqueues _ fun other session hother => ?_) haccepted hreturns hbound
      fun other session hother => ?_
    · exact (hsessions other session hother).elim .inr fun hold => .inl hold.2
    · rcases hsessions other session hother with ⟨rfl, rfl⟩ | ⟨hne, hold⟩
      · exact .inr ⟨h.acceptedBy_fresh, h.queues.returnsOf_fresh,
          (slotsOf_forget _ _ _).trans (if_pos rfl), (slotsOf_forget _ _ _).trans (if_pos rfl)⟩
      · exact .inl ⟨hold, (slotsOf_forget _ _ _).trans (if_neg hne),
          (slotsOf_forget _ _ _).trans (if_neg hne)⟩

/-! ### Calls in any order -/

theorem new_joined (machine : Machine) : Joined (new machine) where
  queues := .none (LocalGuestUapiSurface.initial_isolated _) rfl fun _ => rfl
  opened := nofun
  commands := fun _ _ hsession => (by cases hsession)
  completions := fun _ _ hsession => (by cases hsession)

end LinquUbRustBridge

/-- The calls of the C interface. -/
inductive RustBridgeCall
  | registerEndpoint (endpointId : UInt16) (entityId : EntityId)
  | getDefaultSegment (endpointId : UInt16)
  | submitSlot (endpointId : UInt16) (slot : List UInt8)
  | ringDoorbell (endpointId : UInt16) (maxBatch : ℕ)
  | pollCompletion (endpointId : UInt16)

namespace LinquUbRustBridge

variable {b : LinquUbRustBridge}

def call (b : LinquUbRustBridge) : RustBridgeCall → LinquUbRustBridge
  | .registerEndpoint endpointId entityId => (b.registerEndpoint endpointId entityId).2
  | .getDefaultSegment _ => b
  | .submitSlot endpointId slot => (b.submitSlot endpointId slot).2
  | .ringDoorbell endpointId maxBatch => (b.ringDoorbell endpointId maxBatch).2
  | .pollCompletion endpointId => (b.pollCompletion endpointId).2

def run (b : LinquUbRustBridge) (calls : List RustBridgeCall) : LinquUbRustBridge :=
  calls.foldl call b

theorem call_joined (h : b.Joined) (c : RustBridgeCall) : (b.call c).Joined := by
  cases c with
  | registerEndpoint endpointId entityId => exact registerEndpoint_joined h endpointId entityId
  | getDefaultSegment endpointId => exact h
  | submitSlot endpointId slot => exact submitSlot_joined h endpointId slot
  | ringDoorbell endpointId maxBatch => exact ringDoorbell_joined h endpointId maxBatch
  | pollCompletion endpointId => exact pollCompletion_joined h endpointId

/-- **All calls keep the slots and the surface joined.** -/
theorem run_joined (h : b.Joined) (calls : List RustBridgeCall) : (b.run calls).Joined := by
  induction calls generalizing b with
  | nil => exact h
  | cons c calls ih => exact ih (call_joined h c)

/-- The surface of the bridge has only executed commands since. -/
theorem call_runs (b : LinquUbRustBridge) (c : RustBridgeCall) :
    b.bridge.adapter.Runs (b.call c).bridge.adapter := by
  cases c with
  | registerEndpoint endpointId entityId =>
    have hruns := LinquUbBridge.registerEndpoint_runs endpointId entityId b.bridge
    rw [call, registerEndpoint]
    rcases hexec : exec (LinquUbBridge.registerEndpoint endpointId entityId) b.bridge with
      ⟨_ | _, bridge⟩ <;> rw [hexec] at hruns <;> exact hruns
  | getDefaultSegment endpointId => exact .refl _
  | submitSlot endpointId slot =>
    have hruns := LinquUbBridge.submitSlot_runs endpointId slot b.bridge
    rw [call, submitSlot]
    rcases hexec : exec (LinquUbBridge.submitSlot endpointId slot) b.bridge with
      ⟨_ | _, bridge⟩ <;> rw [hexec] at hruns <;> exact hruns
  | ringDoorbell endpointId maxBatch =>
    have hruns := LinquUbBridge.ringDoorbell_runs endpointId (.ofNat maxBatch) b.bridge
    rw [call, ringDoorbell]
    rcases hexec : exec (LinquUbBridge.ringDoorbell endpointId (.ofNat maxBatch)) b.bridge with
      ⟨_ | _, bridge⟩ <;> rw [hexec] at hruns <;> exact hruns
  | pollCompletion endpointId =>
    have hruns :=
      LinquUbBridge.pollCompletion_runs endpointId (List.replicate descBytes 0) b.bridge
    rw [call, pollCompletion]
    rcases hexec : exec (LinquUbBridge.pollCompletion endpointId (List.replicate descBytes 0))
      b.bridge with ⟨_ | _ | _, bridge⟩ <;> rw [hexec] at hruns <;> exact hruns

theorem run_runs (b : LinquUbRustBridge) (calls : List RustBridgeCall) :
    b.bridge.adapter.Runs (b.run calls).bridge.adapter := by
  induction calls generalizing b with
  | nil => exact .refl _
  | cons c calls ih => exact (b.call_runs c).trans _ _ _ (ih _)

/-- What the completions of an endpoint say about its commands: they belong to submissions of its
command queue, each to another one. -/
theorem Joined.owners (h : b.Joined) {machine : Machine}
    (hruns : (QemuBackendAdapter.new machine).Runs b.bridge.adapter) {endpointId : UInt16}
    {session : GuestEndpointSession} (hsession : b.sessionOf endpointId = some session)
    {entries : List (Owned Submission)}
    (hsublist : entries.Sublist (b.surface.returnsOf session.cq)) :
    (entries.map (·.owner)).Nodup ∧
      ∀ entry ∈ entries, entry.owner ∈ acceptedBy b.surface session.cmdq := by
  obtain ⟨cmds, hcmds⟩ := hruns.surface
  have hcmds : b.surface =
    (LocalGuestUapiSurface.withProfilesAndRuntimePolicy machine.config).run cmds := hcmds
  have hqueued := h.queues.queued
  rw [hcmds] at hqueued
  have hhanded := LocalGuestUapiSurface.run_handed_out machine.config cmds hqueued
  rw [← hcmds] at hhanded
  obtain ⟨hnodup, hhanded⟩ := hhanded
  refine ⟨hnodup.sublist ((hsublist.map (·.owner)).trans ?_), fun entry hentry => ?_⟩
  · rw [LocalGuestUapiSurface.returnsOf, List.map_map]
    exact List.filter_sublist.map _
  · obtain ⟨r, hr, rfl⟩ := List.mem_map.1 (hsublist.subset hentry)
    obtain ⟨hr, hcq⟩ := List.mem_filter.1 hr
    obtain ⟨haccepted, q, hq, hbound⟩ := hhanded r hr
    rw [of_decide_eq_true hcq] at hbound
    refine List.mem_filter.2 ⟨haccepted, decide_eq_true (hq.trans (congrArg some ?_))⟩
    exact (h.queues.bound endpointId session hsession q).1 hbound

/-- **The bridge keeps its endpoints apart.**  After calls in any order, what the command queue of
an endpoint has accepted is what the slots say that the bridge took from it; and the slots that the
bridge filled for it say what its completion queue has handed out, in this order and for submissions
of this command queue only, each for another one.  Nothing is missing if all of it fits into
slots. -/
theorem endpoints_apart (machine : Machine) (calls : List RustBridgeCall) :
    let b := (new machine).run calls
    (∀ endpointId session, b.sessionOf endpointId = some session →
      List.Forall₂ Means (slotsOf b.accepted endpointId) (acceptedBy b.surface session.cmdq) ∧
      ∃ entries, List.Forall₂ Says (slotsOf b.given endpointId) entries ∧
        entries.Sublist (b.surface.returnsOf session.cq) ∧
        (entries.map (·.owner)).Nodup ∧
        (∀ entry ∈ entries, entry.owner ∈ acceptedBy b.surface session.cmdq) ∧
        ((∀ entry ∈ b.surface.returnsOf session.cq, entry.event.Fits descBytes) →
          entries = b.surface.returnsOf session.cq)) ∧
    ∀ endpointId endpointId' session session', b.sessionOf endpointId = some session →
      b.sessionOf endpointId' = some session' → endpointId ≠ endpointId' →
        session.cmdq ≠ session'.cmdq ∧ session.cq ≠ session'.cq := by
  intro b
  have hjoined : b.Joined := run_joined (new_joined machine) calls
  have hruns : (QemuBackendAdapter.new machine).Runs b.bridge.adapter :=
    run_runs (new machine) calls
  refine ⟨fun endpointId session hsession => ⟨hjoined.commands endpointId session hsession, ?_⟩,
    fun endpointId endpointId' session session' hsession hsession' hne => ⟨?_, ?_⟩⟩
  · obtain ⟨entries, hsaid, hsublist, hfits⟩ := hjoined.completions endpointId session hsession
    obtain ⟨hnodup, howned⟩ := hjoined.owners hruns hsession hsublist
    exact ⟨entries, hsaid, hsublist, hnodup, howned, hfits⟩
  · exact hjoined.queues.cmdq_ne hsession hsession' hne
  · exact fun heq => hne (hjoined.queues.distinct _ _ _ _ hsession hsession' heq)

end LinquUbRustBridge

end Legacy

end LinquUb
