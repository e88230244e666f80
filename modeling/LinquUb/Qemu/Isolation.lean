import LinquUb.Qemu.Access
import LinquUb.Qemu.Provenance
import LinquUb.Qemu.Status

/-!
# Isolation of endpoints and silent losses

* `LinquDeviceModel.rings_isolated` : **no completion crosses over** to the ring of another endpoint,
  none arrives twice, and they arrive in the order of their queue;
* `LinquDeviceModel.nothing_lost_silently` : **what a command queue has accepted is not lost** unless
  a call says so or a completion does not fit into its slot.
-/

namespace LinquUb

open Action

namespace LinquDeviceModel

variable {machine : Machine} {profile : MachineProfile} {d : LinquDeviceModel}

/-- What polls have handed out belongs to an accepted submission of the command queue that is bound
to the queue. -/
theorem Reachable.handed_out (hd : Reachable machine profile d) :
    (d.adapter.surface.history.returns.map (·.entry.owner)).Nodup ∧
      ∀ r ∈ d.adapter.surface.history.returns,
        r.entry.owner ∈ d.adapter.surface.history.accepted ∧
          ∃ q, r.entry.owner.queue = some q ∧ d.adapter.surface.flow.boundCq q = some r.cq := by
  obtain ⟨cmds, hcmds⟩ := hd.runs.surface
  have hcmds : d.adapter.surface =
    (LocalGuestUapiSurface.withProfilesAndRuntimePolicy machine.config).run cmds := hcmds
  have hqueued := hd.provenance.queues.queued
  rw [hcmds] at hqueued ⊢
  exact LocalGuestUapiSurface.run_handed_out machine.config cmds hqueued

/-- **The rings of endpoints are isolated.**  In every reachable state, the completions that arrived
in the ring of an endpoint, and those that its polls returned, belong to submissions of its own
command queue, each to another one, and they arrived in the order in which its completion queue
handed them out; if all of these fit into slots, none is missing. -/
theorem rings_isolated (hd : Reachable machine profile d) :
    (∀ endpoint st, d.endpoints.lookup endpoint = some st →
      ∃ entries : List (Owned Submission), st.arrived = entries.map (·.event) ∧
        st.returned.Sublist st.arrived ∧
        entries.Sublist (d.adapter.surface.returnsOf st.session.cq) ∧
        (entries.map (·.owner)).Nodup ∧
        (∀ entry ∈ entries, entry.owner ∈ d.adapter.surface.history.accepted ∧
          entry.owner.queue = some st.session.cmdq) ∧
        ((∀ entry ∈ d.adapter.surface.returnsOf st.session.cq,
          entry.event.Fits st.memory.slotBytes) →
            entries = d.adapter.surface.returnsOf st.session.cq)) ∧
    ∀ endpoint endpoint' st st', d.endpoints.lookup endpoint = some st →
      d.endpoints.lookup endpoint' = some st' → endpoint ≠ endpoint' →
        st.session.cmdq ≠ st'.session.cmdq ∧ st.session.cq ≠ st'.session.cq := by
  have hp := hd.provenance
  obtain ⟨hnodup, hhanded⟩ := hd.handed_out
  refine ⟨fun endpoint st hst => ?_, fun endpoint endpoint' st st' hst hst' hne => ?_⟩
  · obtain ⟨entries, harrived, hsublist, hfits⟩ := hp.received endpoint st hst
    have hreturned := (hp.rings endpoint st hst).returned.trans (List.take_sublist _ _)
    refine ⟨entries, harrived, hreturned, hsublist, hnodup.sublist ?_, fun entry hentry => ?_, hfits⟩
    · refine (hsublist.map (·.owner)).trans ?_
      rw [LocalGuestUapiSurface.returnsOf, List.map_map]
      exact List.filter_sublist.map _
    · obtain ⟨r, hr, rfl⟩ := List.mem_map.1 (hsublist.subset hentry)
      obtain ⟨hr, hcq⟩ := List.mem_filter.1 hr
      obtain ⟨haccepted, q, hq, hbound⟩ := hhanded r hr
      rw [of_decide_eq_true hcq] at hbound
      exact ⟨haccepted, ((hp.queues.bound endpoint _ (sessionOf_eq hst) q).1 hbound) ▸ hq⟩
  · exact ⟨hp.queues.cmdq_ne (sessionOf_eq hst) (sessionOf_eq hst') hne, fun heq =>
      hne (hp.queues.distinct endpoint endpoint' _ _ (sessionOf_eq hst) (sessionOf_eq hst') heq)⟩

theorem wrapped_reachable : Reachable .sample threeSlotProfile wrapped := .run .start wrapCalls

/-- Two endpoints with queues of their own, and all that they have been handed out. -/
theorem wrapped_endpoints : ∃ st st' : DeviceEndpointState,
    wrapped.endpoints.lookup ⟨1⟩ = some st ∧ wrapped.endpoints.lookup ⟨2⟩ = some st' ∧
    (st.arrived.length, st.returned.length) = (4, 2) ∧
    (st'.arrived.length, st'.returned.length) = (3, 1) ∧
    (∀ entry ∈ wrapped.adapter.surface.returnsOf st.session.cq,
      entry.event.Fits st.memory.slotBytes) ∧
    ∀ entry ∈ wrapped.adapter.surface.returnsOf st'.session.cq,
      entry.event.Fits st'.memory.slotBytes := by
  obtain ⟨st, hst⟩ : ∃ st, wrapped.endpoints.lookup ⟨1⟩ = some st :=
    Option.isSome_iff_exists.1 (by decide +kernel)
  obtain ⟨st', hst'⟩ : ∃ st', wrapped.endpoints.lookup ⟨2⟩ = some st' :=
    Option.isSome_iff_exists.1 (by decide +kernel)
  have hview : (wrapped.endpoints.lookup ⟨1⟩).map (fun st => ((st.arrived.length,
      st.returned.length), st.session.cq, st.memory.slotBytes)) = some ((4, 2), ⟨1⟩, 64) := by
    decide +kernel
  have hview' : (wrapped.endpoints.lookup ⟨2⟩).map (fun st => ((st.arrived.length,
      st.returned.length), st.session.cq, st.memory.slotBytes)) = some ((3, 1), ⟨2⟩, 64) := by
    decide +kernel
  rw [hst] at hview
  rw [hst'] at hview'
  simp only [Option.map_some, Option.some.injEq, Prod.mk.injEq] at hview hview'
  obtain ⟨⟨harrived, hreturned⟩, hcq, hbytes⟩ := hview
  obtain ⟨⟨harrived', hreturned'⟩, hcq', hbytes'⟩ := hview'
  refine ⟨st, st', hst, hst', by rw [harrived, hreturned], by rw [harrived', hreturned'], ?_, ?_⟩
  · rw [hcq, hbytes]
    decide +kernel
  · rw [hcq', hbytes']
    decide +kernel

theorem rings_isolated_wrapped : ∃ (st st' : DeviceEndpointState)
    (entries entries' : List (Owned Submission)),
    wrapped.endpoints.lookup ⟨1⟩ = some st ∧ wrapped.endpoints.lookup ⟨2⟩ = some st' ∧
    (entries.length = 4 ∧ st.arrived = entries.map (·.event) ∧ st.returned.Sublist st.arrived ∧
      entries = wrapped.adapter.surface.returnsOf st.session.cq ∧
      (entries.map (·.owner)).Nodup ∧
      ∀ entry ∈ entries, entry.owner.queue = some st.session.cmdq) ∧
    (entries'.length = 3 ∧ st'.arrived = entries'.map (·.event) ∧
      st'.returned.Sublist st'.arrived ∧
      entries' = wrapped.adapter.surface.returnsOf st'.session.cq ∧
      (entries'.map (·.owner)).Nodup ∧
      ∀ entry ∈ entries', entry.owner.queue = some st'.session.cmdq) ∧
    st.session.cmdq ≠ st'.session.cmdq ∧ st.session.cq ≠ st'.session.cq := by
  obtain ⟨st, st', hst, hst', hlengths, hlengths', hfits, hfits'⟩ := wrapped_endpoints
  obtain ⟨hrings, hqueues⟩ := rings_isolated wrapped_reachable
  obtain ⟨entries, harrived, hreturned, -, hnodup, hown, hall⟩ := hrings ⟨1⟩ st hst
  obtain ⟨entries', harrived', hreturned', -, hnodup', hown', hall'⟩ := hrings ⟨2⟩ st' hst'
  rw [harrived, List.length_map] at hlengths
  rw [harrived', List.length_map] at hlengths'
  exact ⟨st, st', entries, entries', hst, hst',
    ⟨(Prod.mk.inj hlengths).1, harrived, hreturned, hall hfits, hnodup,
      fun entry hentry => (hown entry hentry).2⟩,
    ⟨(Prod.mk.inj hlengths').1, harrived', hreturned', hall' hfits', hnodup',
      fun entry hentry => (hown' entry hentry).2⟩,
    hqueues ⟨1⟩ ⟨2⟩ st st' hst hst' (by decide)⟩

/-! ### Runs in which the runtime queue never overflows -/

/-- The error of a doorbell that finds too little room. -/
def Overflow (err : SimError) : Prop := err = .invalidInput "uapi runtime queue full"

instance (err : SimError) : Decidable (Overflow err) := inferInstanceAs (Decidable (err = _))

instance decidableNoOverflow {α : Type} :
    (result : Except SimError α) → Decidable (∀ err, result = .error err → ¬Overflow err)
  | .ok _ => isTrue fun _ h => nomatch h
  | .error err => decidable_of_iff (¬Overflow err)
      ⟨fun h _ heq => Except.error.inj heq ▸ h, fun h => h err rfl⟩

/-- No call returns the error of an overflow. -/
def NeverFull (d : LinquDeviceModel) : List DeviceCall → Prop
  | [] => True
  | call :: calls =>
    (∀ err, (exec (Device.call call) d).1 = .error err → ¬Overflow err) ∧
      NeverFull (exec (Device.call call) d).2 calls

instance decidableNeverFull :
    (d : LinquDeviceModel) → (calls : List DeviceCall) → Decidable (d.NeverFull calls)
  | _, [] => isTrue trivial
  | d, call :: calls =>
    have := decidableNeverFull (exec (Device.call call) d).2 calls
    inferInstanceAs (Decidable ((∀ err, (exec (Device.call call) d).1 = .error err →
      ¬Overflow err) ∧ NeverFull (exec (Device.call call) d).2 calls))

/-- All accepted submissions of a surface are accounted for. -/
structure Complete (s : LocalGuestUapiSurface) : Prop where
  isolated : s.flow.Isolated
  conserved : s.flow.Conserved

theorem complete_rules :
    CommandRules Overflow (fun s s' => Complete s → Complete s') where
  refl := fun _ h => h
  trans := fun _ _ _ hst htu h => htu (hst h)
  execute := fun cmd s hfull h => by
    have hstep : ∀ f f', Flow.Isolated f ∧ Flow.Conserved f → Flow.Step False f f' →
        Flow.Isolated f' ∧ Flow.Conserved f' :=
      fun _ _ ⟨hi, hc⟩ hs => ⟨hi.step hs, hc.step hi hs⟩
    have hfits : Uapi.DoorbellFits s cmd := by
      by_contra hnot
      cases cmd with
      | ringDoorbell cmdq owner maxBatch =>
        simp only [Uapi.DoorbellFits, Option.mem_def, not_forall, Nat.not_le] at hnot
        obtain ⟨queue, hq, rfl, hover⟩ := hnot
        exact hfull _ (LocalGuestUapiSurface.ringDoorbell_overflow hq hover).1 rfl
      | _ => exact hnot trivial
    obtain ⟨hi, hc⟩ := LTS.steps_invariant hstep ⟨h.isolated, h.conserved⟩
      (Flow.Steps.mono (fun hover => hover hfits) (s.execute_steps cmd))
    exact ⟨hi, hc⟩

theorem run_complete {calls : List DeviceCall} (hfull : d.NeverFull calls)
    (h : Complete d.adapter.surface) : Complete (d.run calls).adapter.surface := by
  induction calls generalizing d with
  | nil => exact h
  | cons call calls ih => exact ih hfull.2 (complete_rules.methodRules.call call d hfull.1 h)

/-- **Nothing is lost silently.**  If no call of a run says that the runtime queue is full, every
accepted submission is at exactly one place.  For an endpoint whose completions all fit into slots,
the ring has received what its completion queue handed out; so a submission of its command queue is
still waiting or being served, or its completion arrived in this ring. -/
theorem nothing_lost_silently (machine : Machine) (profile : MachineProfile)
    (calls : List DeviceCall) (hfull : (withProfile machine profile).NeverFull calls) :
    let d := (withProfile machine profile).run calls
    let s := d.adapter.surface
    s.history.accepted.Nodup ∧
    (∀ sub ∈ s.history.accepted, Places.Sole s.homed sub) ∧
    ∀ endpoint st, d.endpoints.lookup endpoint = some st →
      (∀ entry ∈ s.returnsOf st.session.cq, entry.event.Fits st.memory.slotBytes) →
        st.arrived = (s.returnsOf st.session.cq).map (·.event) ∧
        ∀ sub ∈ s.history.accepted, sub.queue = some st.session.cmdq →
          (sub ∈ s.homed .returned ↔ sub ∈ (s.returnsOf st.session.cq).map (·.owner)) := by
  intro d s
  have hd : Reachable machine profile d := Reachable.run .start calls
  have hp := hd.provenance
  have hinitial : Complete (withProfile machine profile).adapter.surface :=
    ⟨LocalGuestUapiSurface.initial_isolated _, LocalGuestUapiSurface.initial_conserved _⟩
  obtain ⟨-, hconserved⟩ := run_complete hfull hinitial
  refine ⟨hconserved.accounts.nodup, fun sub hsub => ?_, fun endpoint st hst hfits => ⟨?_, ?_⟩⟩
  · exact LocalGuestUapiSurface.sole_homed (hconserved.accounts.sole sub hsub)
  · obtain ⟨entries, harrived, -, hall⟩ := hp.received endpoint st hst
    rw [harrived, hall hfits]
  · intro sub _ hqueue
    rw [LocalGuestUapiSurface.returnsOf, List.map_map]
    constructor
    · intro hmem
      obtain ⟨r, hr, rfl⟩ := List.mem_map.1 hmem
      obtain ⟨-, q, hq, hbound⟩ := hd.handed_out.2 r hr
      have hown := (hp.queues.bound endpoint _ (sessionOf_eq hst) st.session.cmdq).2 rfl
      rw [hqueue] at hq
      cases hq
      have hcq : r.cq = st.session.cq := Option.some.inj (hbound.symm.trans hown)
      exact List.mem_map.2 ⟨r, List.mem_filter.2 ⟨hr, decide_eq_true hcq⟩, rfl⟩
    · intro hmem
      obtain ⟨r, hr, rfl⟩ := List.mem_map.1 hmem
      exact List.mem_map.2 ⟨r, (List.mem_filter.1 hr).1, rfl⟩

theorem nothing_lost_silently_wrapped :
    let s := wrapped.adapter.surface
    s.history.accepted.length = 8 ∧ (∀ sub ∈ s.history.accepted, Places.Sole s.homed sub) ∧
    ∃ st st', wrapped.endpoints.lookup ⟨1⟩ = some st ∧ wrapped.endpoints.lookup ⟨2⟩ = some st' ∧
      (st.arrived.length = 4 ∧ st.arrived = (s.returnsOf st.session.cq).map (·.event)) ∧
      (st'.arrived.length = 3 ∧ st'.arrived = (s.returnsOf st'.session.cq).map (·.event)) ∧
      ∀ sub ∈ s.history.accepted, sub.queue = some st'.session.cmdq →
        (sub ∈ s.homed .returned ↔ sub ∈ (s.returnsOf st'.session.cq).map (·.owner)) := by
  obtain ⟨st, st', hst, hst', hlengths, hlengths', hfits, hfits'⟩ := wrapped_endpoints
  have hlost := nothing_lost_silently .sample threeSlotProfile wrapCalls (by decide +kernel)
  rw [show (withProfile .sample threeSlotProfile).run wrapCalls = wrapped from rfl] at hlost
  obtain ⟨-, hsole, hreceived⟩ := hlost
  obtain ⟨harrived, -⟩ := hreceived ⟨1⟩ st hst hfits
  obtain ⟨harrived', hhomed'⟩ := hreceived ⟨2⟩ st' hst' hfits'
  exact ⟨by decide +kernel, hsole, st, st', hst, hst', ⟨(Prod.mk.inj hlengths).1, harrived⟩,
    ⟨(Prod.mk.inj hlengths').1, harrived'⟩, hhomed'⟩

end LinquDeviceModel

end LinquUb
