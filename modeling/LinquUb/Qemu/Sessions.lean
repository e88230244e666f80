import LinquUb.Qemu.Delivery
import LinquUb.Uapi.Doorbell

/-!
# The command queues of sessions

Every endpoint has a command queue of its own on the surface, made when the endpoint was realized.

* `Flow.Owns` : a command queue with its owner and depth, which no move takes away;
* `DeviceEndpointState.SameCommands` : what the methods on the completion ring leave alone;
* `LinquDeviceModel.Reachable.sessions` : **in every reachable state, the sessions of all endpoints
  have their command queues**.
-/

namespace LinquUb

open Action

namespace Flow

variable {f f' : Flow} {drops : Prop} {q : CmdQueueHandle} {owner : EntityId} {depth : ℕ}

/-- The command queue exists, and belongs to `owner`. -/
structure Owns (f : Flow) (q : CmdQueueHandle) (owner : EntityId) (depth : ℕ) : Prop where
  id_le : q.id ≤ f.nextCmdq
  queue : ∃ st, f.queues.lookup q = some st ∧ st.owner = owner ∧ st.depth = depth

/-- Only the submissions in a command queue change. -/
theorem Owns.insert (h : f.Owns q owner depth) {other : CmdQueueHandle} {st : CommandQueueState}
    (hother : f.queues.lookup other = some st) (pending : List Submission)
    (hqueues : f'.queues = Finmap.insert other { st with pending } f.queues)
    (hnext : f'.nextCmdq = f.nextCmdq) : f'.Owns q owner depth := by
  refine ⟨hnext ▸ h.id_le, ?_⟩
  obtain ⟨st', hq, howner, hdepth⟩ := h.queue
  rw [hqueues]
  by_cases heq : q = other
  · subst heq
    rw [hother] at hq
    cases hq
    exact ⟨_, Finmap.lookup_insert _, howner, hdepth⟩
  · exact ⟨st', by rwa [Finmap.lookup_insert_of_ne _ heq], howner, hdepth⟩

theorem Owns.step (h : f.Owns q owner depth) (hs : Step drops f f') : f'.Owns q owner depth := by
  cases hs with
  | openQueue depth' hcq =>
    have hne : q ≠ ⟨f.nextCmdq + 1⟩ := by
      rintro rfl
      exact absurd h.id_le (Nat.not_succ_le_self _)
    obtain ⟨st, hq, howner, hdepth⟩ := h.queue
    exact ⟨h.id_le.trans (Nat.le_succ _), st, by rwa [Finmap.lookup_insert_of_ne _ hne], howner,
      hdepth⟩
  | accept desc hq => exact h.insert hq _ rfl rfl
  | take hq hpending => exact h.insert hq _ rfl rfl
  | _ => exact ⟨h.id_le, h.queue⟩

end Flow

namespace QemuBackendAdapter

variable {adapter adapter' : QemuBackendAdapter}

/-- The session has its command queue. -/
def Serves (adapter : QemuBackendAdapter) (session : GuestEndpointSession) : Prop :=
  adapter.surface.flow.Owns session.cmdq session.entity session.layout.cmdqDepth.toNat

theorem Serves.runs {session : GuestEndpointSession} (h : adapter.Serves session)
    (hruns : adapter.Runs adapter') : adapter'.Serves session := by
  obtain ⟨cmds, hcmds⟩ := hruns.surface
  rw [Serves, hcmds]
  exact LocalGuestUapiSurface.run_invariant (fun _ _ hf hs => Flow.Owns.step hf hs) h cmds

/-- A command queue belongs to the entity that asks for it. -/
theorem createCmdQueue_serves {cq : CqHandle} {entity : EntityId} {depth : ℕ} {cmdq : CmdQueueHandle}
    (h : exec (createCmdQueue cq entity depth) adapter = (.ok cmdq, adapter')) :
    adapter'.surface.flow.Owns cmdq entity depth := by
  rw [createCmdQueue_exec] at h
  obtain ⟨hresult, rfl⟩ := Prod.mk.inj h
  rcases hcreate : exec (Uapi.createCmdQueue cq entity depth) adapter.surface with ⟨result, s⟩
  rw [hcreate] at hresult
  cases hresult
  unfold Uapi.createCmdQueue at hcreate
  split_ifs at hcreate with hzero
  · cases hcreate
  rw [exec_bind_ok (exec_get adapter.surface)] at hcreate
  dsimp only at hcreate
  cases hcq : adapter.surface.cqEvents.lookup cq with
  | none =>
    rw [hcq] at hcreate
    cases hcreate
  | some cqState =>
    rw [hcq] at hcreate
    by_cases howner : cqState.owner = entity
    · simp only [ne_eq, howner, not_true_eq_false, if_false] at hcreate
      cases hcreate
      exact ⟨le_rfl, _, Finmap.lookup_insert _, rfl, rfl⟩
    · simp only [ne_eq, howner, not_false_eq_true, if_true] at hcreate
      cases hcreate

theorem registerEndpoint_serves {entity : EntityId} {session : GuestEndpointSession}
    (h : exec (registerEndpoint entity) adapter = (.ok session, adapter')) :
    adapter'.Serves session := by
  obtain ⟨cq, adapter₁, -, h⟩ := exec_bind_eq_ok.1 h
  rw [exec_bind_ok (exec_get adapter₁)] at h
  obtain ⟨cmdq, adapter₂, hcreate, h⟩ := exec_bind_eq_ok.1 h
  cases h
  exact createCmdQueue_serves hcreate

end QemuBackendAdapter

/-! ### The command ring under other methods -/

namespace DeviceEndpointState

/-- The session and the command ring stay as they are. -/
structure SameCommands (st st' : DeviceEndpointState) : Prop where
  session : st'.session = st.session
  head : st'.cmdqHead = st.cmdqHead
  count : st'.cmdqCount = st.cmdqCount
  slots : st'.memory.cmdSlots = st.memory.cmdSlots
  valid : st'.memory.cmdValid = st.memory.cmdValid

theorem SameCommands.refl (st : DeviceEndpointState) : SameCommands st st :=
  ⟨rfl, rfl, rfl, rfl, rfl⟩

theorem SameCommands.trans (s t u : DeviceEndpointState) (h : SameCommands s t)
    (h' : SameCommands t u) : SameCommands s u :=
  ⟨h'.session.trans h.session, h'.head.trans h.head, h'.count.trans h.count,
    h'.slots.trans h.slots, h'.valid.trans h.valid⟩

theorem SameCommands.symm {s t : DeviceEndpointState} (h : SameCommands s t) : SameCommands t s :=
  ⟨h.session.symm, h.head.symm, h.count.symm, h.slots.symm, h.valid.symm⟩

theorem storeAll_same (events : List CompletionEvent) : Within SameCommands (storeAll events) := by
  intro st
  induction events generalizing st with
  | nil => exact .refl st
  | cons completion rest ih =>
    rw [storeAll, exec_bind_ok (exec_get st)]
    cases hwrite : st.memory.writeCqSlot st.cqTail completion with
    | error e => exact .refl st
    | ok memory =>
      obtain ⟨bytes, rfl⟩ := GuestRingMemory.writeCqSlot_ok hwrite
      let st₁ := st.store (st.memory.putCq st.cqTail bytes) completion
      exact (show SameCommands st st₁ from ⟨rfl, rfl, rfl, rfl, rfl⟩).trans _ _ _ (ih st₁)

theorem storeCompletions_same (events : List CompletionEvent) :
    Within SameCommands (storeCompletions events) := by
  refine within_bind SameCommands.trans (storeAll_same events) fun _ st => ?_
  rw [exec_bind_ok (exec_get st)]
  split_ifs
  · exact ⟨rfl, rfl, rfl, rfl, rfl⟩
  · exact .refl st

theorem takeCq_same : Within SameCommands takeCq := by
  intro st
  unfold takeCq
  rw [exec_bind_ok (exec_get st)]
  have hmemory : (st.memory.takeCqSlot st.cqHead).2.cmdSlots = st.memory.cmdSlots ∧
      (st.memory.takeCqSlot st.cqHead).2.cmdValid = st.memory.cmdValid := by
    unfold GuestRingMemory.takeCqSlot
    split_ifs <;> exact ⟨rfl, rfl⟩
  rcases htake : st.memory.takeCqSlot st.cqHead with ⟨_ | completion, memory⟩
  all_goals
    rw [htake] at hmemory
    exact ⟨rfl, rfl, rfl, hmemory.1, hmemory.2⟩

theorem takeCompletions_same (n : ℕ) : Within SameCommands (takeCompletions n) := by
  induction n with
  | zero => exact within_pure SameCommands.refl _
  | succ n ih =>
    refine within_bind SameCommands.trans takeCq_same fun _ => ?_
    refine within_bind SameCommands.trans (fun st => ⟨rfl, rfl, rfl, rfl, rfl⟩) fun _ => ?_
    exact within_bind SameCommands.trans ih fun _ => within_pure SameCommands.refl _

theorem pollRing_same (maxEntries : Option ℕ) : Within SameCommands (pollRing maxEntries) := by
  refine within_bind SameCommands.trans SameCommands.refl fun st => ?_
  refine within_bind SameCommands.trans (takeCompletions_same _) fun events => ?_
  refine within_bind SameCommands.trans (fun st => ⟨rfl, rfl, rfl, rfl, rfl⟩) fun _ => ?_
  exact within_bind SameCommands.trans SameCommands.refl fun _ => within_pure SameCommands.refl _

theorem retire_iterate_same (n : ℕ) (st : DeviceEndpointState) :
    SameCommands st (retire^[n] st) := by
  induction n generalizing st with
  | zero => exact .refl st
  | succ n ih =>
    rw [Function.iterate_succ_apply]
    exact (show SameCommands st st.retire from ⟨rfl, rfl, rfl, rfl, rfl⟩).trans _ _ _ (ih _)

theorem writeCqHead_same (newHead : ℕ) : Within SameCommands (writeCqHead newHead) := by
  intro st
  unfold writeCqHead
  rw [exec_bind_ok (exec_get st)]
  dsimp only
  by_cases hrange : newHead ≥ st.memory.cqDepth
  · simp only [hrange, if_true]
    exact .refl st
  · by_cases hpending : LTS.advance st.memory.cqDepth st.cqHead newHead > st.cqCount
    · simp only [hrange, if_false, hpending, if_true]
      exact .refl st
    · simp only [hrange, if_false, hpending]
      exact retire_iterate_same _ st

theorem writeCmdDescriptor_session (slot : ℕ) (desc : GuestDescriptor) (st : DeviceEndpointState) :
    (exec (writeCmdDescriptor slot desc) st).2.session = st.session := by
  unfold writeCmdDescriptor
  rw [exec_bind_ok (exec_get st)]
  cases st.memory.writeCmdSlot slot desc <;> rfl

theorem writeCmdqTail_session (newTail : ℕ) (st : DeviceEndpointState) :
    (exec (writeCmdqTail newTail) st).2.session = st.session := by
  unfold writeCmdqTail
  rw [exec_bind_ok (exec_get st)]
  dsimp only
  by_cases hrange : newTail ≥ st.memory.cmdDepth
  · simp only [hrange, if_true]
    rfl
  · by_cases hover : st.cmdqCount + LTS.advance st.memory.cmdDepth st.cmdqTail newTail >
        st.memory.cmdDepth
    · simp only [hrange, if_false, hover, if_true]
      rfl
    · simp only [hrange, if_false, hover]
      rfl

theorem takeCmd_session (st : DeviceEndpointState) :
    (exec takeCmd st).2.session = st.session := by
  rcases takeCmd_state st with heq | heq <;> rw [heq]

end DeviceEndpointState

/-! ### Sessions of endpoints -/

namespace EndpointView

open DeviceEndpointState

/-- The adapter has only run commands, and the endpoint has kept its session. -/
structure KeepsSession (v v' : EndpointView) : Prop where
  runs : v.adapter.Runs v'.adapter
  session : v'.state.session = v.state.session

theorem KeepsSession.refl (v : EndpointView) : KeepsSession v v := ⟨.refl _, rfl⟩

theorem KeepsSession.trans (u v w : EndpointView) (huv : KeepsSession u v)
    (hvw : KeepsSession v w) : KeepsSession u w :=
  ⟨huv.runs.trans _ _ _ hvw.runs, hvw.session.trans huv.session⟩

variable {α : Type}

theorem onAdapter_session {m : Action QemuBackendAdapter SimError α}
    (hm : Within QemuBackendAdapter.Runs m) : Within KeepsSession (onAdapter m) :=
  fun v => ⟨hm v.adapter, rfl⟩

theorem onState_session {m : Action DeviceEndpointState SimError α}
    (hm : ∀ st, (exec m st).2.session = st.session) : Within KeepsSession (onState m) :=
  fun v => ⟨.refl _, hm v.state⟩

theorem flushCqRing_session : Within KeepsSession flushCqRing := by
  refine within_bind KeepsSession.trans KeepsSession.refl fun v => ?_
  dsimp only
  split_ifs
  · exact within_pure KeepsSession.refl _
  · refine within_bind KeepsSession.trans
      (onAdapter_session (QemuBackendAdapter.pollCq_runs _ _)) fun polled => ?_
    exact onState_session fun st => (storeCompletions_same polled.1 st).session

theorem submitSlots_session (n : ℕ) : Within KeepsSession (submitSlots n) := by
  induction n with
  | zero => exact within_pure KeepsSession.refl _
  | succ n ih =>
    refine within_bind KeepsSession.trans (onState_session takeCmd_session) fun desc => ?_
    refine within_bind KeepsSession.trans KeepsSession.refl fun v => ?_
    refine within_bind KeepsSession.trans
      (onAdapter_session (QemuBackendAdapter.enqueueDescriptor_runs _ desc)) fun _ => ?_
    exact within_bind KeepsSession.trans (onState_session fun _ => rfl) fun _ => ih

theorem submitBatch_session (batch : Option ℕ) : Within KeepsSession (submitBatch batch) := by
  refine within_bind KeepsSession.trans KeepsSession.refl fun v => ?_
  refine within_bind KeepsSession.trans (submitSlots_session _) fun _ => ?_
  exact within_bind KeepsSession.trans KeepsSession.refl fun _ => within_pure KeepsSession.refl _

end EndpointView

namespace LinquDeviceModel

/-- A property of sessions that every new session has and that commands keep. -/
structure SessionRules (S : QemuBackendAdapter → GuestEndpointSession → Prop) : Prop where
  runs : ∀ {adapter adapter' : QemuBackendAdapter} {session : GuestEndpointSession},
    S adapter session → adapter.Runs adapter' → S adapter' session
  register : ∀ {entity : EntityId} {adapter adapter' : QemuBackendAdapter}
    {session : GuestEndpointSession},
    exec (QemuBackendAdapter.registerEndpoint entity) adapter = (.ok session, adapter') →
      S adapter' session

/-- The sessions of all endpoints have a property. -/
def SessionsHave (S : QemuBackendAdapter → GuestEndpointSession → Prop) (d : LinquDeviceModel) :
    Prop :=
  ∀ endpoint st, d.endpoints.lookup endpoint = some st → S d.adapter st.session

/-- The adapter has only run commands, and the sessions have kept a property. -/
structure KeepsHaving (S : QemuBackendAdapter → GuestEndpointSession → Prop)
    (d d' : LinquDeviceModel) : Prop where
  runs : d.adapter.Runs d'.adapter
  sessions : d.SessionsHave S → d'.SessionsHave S

variable {S : QemuBackendAdapter → GuestEndpointSession → Prop} {d : LinquDeviceModel}

theorem KeepsHaving.refl (d : LinquDeviceModel) : KeepsHaving S d d := ⟨.refl _, id⟩

theorem KeepsHaving.trans (d e f : LinquDeviceModel) (hde : KeepsHaving S d e)
    (hef : KeepsHaving S e f) : KeepsHaving S d f :=
  ⟨hde.runs.trans _ _ _ hef.runs, hef.sessions ∘ hde.sessions⟩

/-- The adapter runs commands, and one endpoint changes. -/
theorem SessionsHave.update (h : d.SessionsHave S) (rules : SessionRules S)
    {adapter : QemuBackendAdapter} (hruns : d.adapter.Runs adapter) (endpoint : EndpointId)
    {st : DeviceEndpointState} (hst : S adapter st.session) :
    ({ d.update endpoint st with adapter } : LinquDeviceModel).SessionsHave S := by
  intro other st' hlookup
  by_cases heq : other = endpoint
  · subst heq
    rw [LinquDeviceModel.update, Finmap.lookup_insert] at hlookup
    exact Option.some.inj hlookup ▸ hst
  · rw [LinquDeviceModel.update, Finmap.lookup_insert_of_ne _ heq] at hlookup
    exact rules.runs (h other st' hlookup) hruns

namespace SessionRules

open EndpointView (KeepsSession)

variable {α : Type}

theorem setLastError (rules : SessionRules S) (d : LinquDeviceModel) (endpoint : EndpointId)
    (err : SimError) : KeepsHaving S d (d.setLastError endpoint err) := by
  unfold LinquDeviceModel.setLastError
  cases hlookup : d.endpoints.lookup endpoint with
  | none => exact .refl d
  | some st => exact ⟨.refl _, fun h => h.update rules (.refl _) endpoint (h endpoint st hlookup)⟩

theorem onAdapter (rules : SessionRules S) {m : Action QemuBackendAdapter SimError α}
    (hm : Within QemuBackendAdapter.Runs m) : Within (KeepsHaving S) (Device.onAdapter m) :=
  fun d => ⟨hm d.adapter, fun h endpoint st hlookup =>
    rules.runs (h endpoint st hlookup) (hm d.adapter)⟩

theorem withEndpoint (rules : SessionRules S) (endpoint : EndpointId)
    {m : Action EndpointView SimError α} (hm : Within KeepsSession m) :
    Within (KeepsHaving S) (Device.withEndpoint endpoint m) := by
  intro d
  cases hlookup : d.endpoints.lookup endpoint with
  | none =>
    rw [Device.withEndpoint_none hlookup]
    exact .refl d
  | some st =>
    have hkeeps := hm ⟨d.adapter, st⟩
    rw [Device.withEndpoint_eq hlookup]
    refine ⟨hkeeps.runs, fun h => h.update rules hkeeps.runs endpoint ?_⟩
    rw [hkeeps.session]
    exact rules.runs (h endpoint st hlookup) hkeeps.runs

theorem realizeEndpoint (rules : SessionRules S) (entity : EntityId) :
    Within (KeepsHaving S) (Device.realizeEndpoint entity) := by
  intro d
  let d₁ := { d with nextEndpointId := d.nextEndpointId + 1 }
  have hruns := QemuBackendAdapter.registerEndpoint_runs entity d.adapter
  unfold Device.realizeEndpoint
  rw [exec_bind_ok (exec_modify _ d), exec_bind_ok (exec_get d₁)]
  rcases hregister : exec (QemuBackendAdapter.registerEndpoint entity) d.adapter with
    ⟨e | session, adapter⟩
  all_goals
    rw [hregister] at hruns
  · have hon : exec (Device.onAdapter (QemuBackendAdapter.registerEndpoint entity)) d₁ =
        (.error e, { d₁ with adapter }) := by
      rw [Device.onAdapter, exec_zoom, hregister]
    rw [exec_bind_error hon]
    exact ⟨hruns, fun h endpoint st hlookup => rules.runs (h endpoint st hlookup) hruns⟩
  · have hon : exec (Device.onAdapter (QemuBackendAdapter.registerEndpoint entity)) d₁ =
        (.ok session, { d₁ with adapter }) := by
      rw [Device.onAdapter, exec_zoom, hregister]
    rw [exec_bind_ok hon]
    refine ⟨hruns, fun h => ?_⟩
    have h₁ : d₁.SessionsHave S := h
    exact h₁.update rules hruns _ (rules.register hregister)

theorem callRules (rules : SessionRules S) : CallRules KeepsSession (KeepsHaving S) where
  refl := KeepsHaving.refl
  trans := KeepsHaving.trans
  adapter := rules.onAdapter
  endpoint := rules.withEndpoint
  lastError := rules.setLastError
  realize := rules.realizeEndpoint
  viewRefl := KeepsSession.refl
  viewAdapter := EndpointView.onAdapter_session
  flush := EndpointView.flushCqRing_session
  submit := EndpointView.submitBatch_session
  poll := fun maxEntries => EndpointView.onState_session fun st =>
    (DeviceEndpointState.pollRing_same maxEntries st).session
  writeCmd := fun slot desc => EndpointView.onState_session
    (DeviceEndpointState.writeCmdDescriptor_session slot desc)
  writeTail := fun newTail => EndpointView.onState_session
    (DeviceEndpointState.writeCmdqTail_session newTail)
  writeHead := fun newHead => EndpointView.onState_session fun st =>
    (DeviceEndpointState.writeCqHead_same newHead st).session
  writeAck := fun _ => EndpointView.onState_session fun _ => rfl

end SessionRules

/-- **In every reachable state, the sessions of all endpoints have the property.** -/
theorem Reachable.sessionsHave {machine : Machine} {profile : MachineProfile}
    (hd : Reachable machine profile d) (rules : SessionRules S) : d.SessionsHave S := by
  induction hd with
  | start =>
    intro endpoint st hlookup
    cases hlookup
  | call call _ ih => exact (rules.callRules.call call _).sessions ih
  | rung write _ ih => exact (rules.callRules.submitAndRing write _).sessions ih

/-- The sessions of all endpoints have their command queues. -/
def SessionsHold (d : LinquDeviceModel) : Prop :=
  ∀ endpoint st, d.endpoints.lookup endpoint = some st → d.adapter.Serves st.session

/-- **In every reachable state, the sessions of all endpoints have their command queues.** -/
theorem Reachable.sessionsHold {machine : Machine} {profile : MachineProfile}
    (hd : Reachable machine profile d) : d.SessionsHold :=
  hd.sessionsHave ⟨QemuBackendAdapter.Serves.runs, QemuBackendAdapter.registerEndpoint_serves⟩

end LinquDeviceModel

end LinquUb
