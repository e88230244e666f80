import LinquUb.Uapi.Isolation
import LinquUb.LTS.Places

/-!
# Conservation of submissions

A move takes submissions from one place to another (`Step.accounted`), except the move that drops a
batch.  So after a run whose doorbells all find room in the runtime queue, every accepted submission
is at exactly one place (`run_conserved`).
-/

namespace LinquUb

namespace Flow

open Places

/-- Where a submission can be. -/
inductive Place
  | pending (q : CmdQueueHandle)
  | batch
  | waiting
  | ready
  | subject
  | failing
  | service (source : CompletionSource)
  | polled
  | cq (cq : CqHandle)
  | returned
deriving DecidableEq

def pendingOf (f : Flow) (q : CmdQueueHandle) : List Submission :=
  ((f.queues.lookup q).map (·.pending)).getD []

def eventsOf (f : Flow) (cq : CqHandle) : List (Owned Submission) :=
  ((f.cqs.lookup cq).map (·.events)).getD []

/-- The submissions at a place. -/
def held (f : Flow) : Place → List Submission
  | .pending q => f.pendingOf q
  | .batch => f.batch.map (·.2)
  | .waiting => f.waiting.map (·.payload.payload.sub)
  | .ready => f.ready.map (·.payload.payload.sub)
  | .subject => f.subject.toList.map (·.2)
  | .failing => f.failing.map (·.sub)
  | .service source => (f.services source).completions.map (·.owner)
  | .polled => f.polled.map (·.owner)
  | .cq cq => (f.eventsOf cq).map (·.owner)
  | .returned => f.history.returns.map (·.entry.owner)

variable {f f' : Flow}

theorem pendingOf_eq {q : CmdQueueHandle} {st : CommandQueueState}
    (h : f.queues.lookup q = some st) : f.pendingOf q = st.pending := by
  rw [pendingOf, h, Option.map_some, Option.getD_some]

theorem eventsOf_eq {cq : CqHandle} {st : CompletionQueueState} (h : f.cqs.lookup cq = some st) :
    f.eventsOf cq = st.events := by
  rw [eventsOf, h, Option.map_some, Option.getD_some]

theorem pendingOf_insert {q : CmdQueueHandle} {st : CommandQueueState}
    (h : f'.queues = Finmap.insert q st f.queues) : f'.pendingOf q = st.pending :=
  pendingOf_eq (by rw [h, Finmap.lookup_insert])

theorem pendingOf_insert_of_ne {q q' : CmdQueueHandle} {st : CommandQueueState}
    (h : f'.queues = Finmap.insert q st f.queues) (hne : q' ≠ q) :
    f'.pendingOf q' = f.pendingOf q' := by
  rw [pendingOf, pendingOf, h, Finmap.lookup_insert_of_ne _ hne]

theorem eventsOf_insert {cq : CqHandle} {st : CompletionQueueState}
    (h : f'.cqs = Finmap.insert cq st f.cqs) : f'.eventsOf cq = st.events :=
  eventsOf_eq (by rw [h, Finmap.lookup_insert])

theorem eventsOf_insert_of_ne {cq cq' : CqHandle} {st : CompletionQueueState}
    (h : f'.cqs = Finmap.insert cq st f.cqs) (hne : cq' ≠ cq) : f'.eventsOf cq' = f.eventsOf cq' := by
  rw [eventsOf, eventsOf, h, Finmap.lookup_insert_of_ne _ hne]

theorem pendingOf_openQueue (hw : Wired f) {cq : CqHandle} {owner : EntityId} {depth : ℕ}
    (hqueues : f'.queues = Finmap.insert ⟨f.nextCmdq + 1⟩ ⟨cq, owner, depth, []⟩ f.queues)
    (q : CmdQueueHandle) : f'.pendingOf q = f.pendingOf q := by
  by_cases hne : q = ⟨f.nextCmdq + 1⟩
  · subst hne
    rw [pendingOf_insert hqueues, pendingOf, hw.queue_fresh, Option.map_none, Option.getD_none]
  · exact pendingOf_insert_of_ne hqueues hne

/-- The accounts: accepted submissions are sole, and tickets not given out yet are nowhere. -/
structure Conserved (f : Flow) : Prop where
  accounts : Accounted f.held f.history.accepted (fun sub => f.tickets ≤ sub.ticket)
  queued : ∀ sub ∈ f.history.accepted, sub.queue.isSome

namespace Conserved

theorem same (h : Conserved f) (hheld : ∀ p, f'.held p = f.held p)
    (haccepted : f'.history.accepted = f.history.accepted) (htickets : f'.tickets = f.tickets) :
    Conserved f' := by
  refine ⟨?_, fun sub hsub => h.queued sub (haccepted ▸ hsub)⟩
  rw [haccepted, htickets, show f'.held = f.held from funext hheld]
  exact h.accounts

theorem moves (h : Conserved f) (a b : Place) (xs : List Submission)
    (hm : Moves f.held f'.held a b xs) (haccepted : f'.history.accepted = f.history.accepted)
    (htickets : f'.tickets = f.tickets) : Conserved f' := by
  refine ⟨?_, fun sub hsub => h.queued sub (haccepted ▸ hsub)⟩
  rw [haccepted, htickets]
  exact h.accounts.moves hm

/-- A submission enters with the next ticket. -/
theorem adds (h : Conserved f) (b : Place) (sub : Submission) (ha : Adds f.held f'.held b sub)
    (hticket : sub.ticket = f.tickets) (htickets : f'.tickets = f.tickets + 1)
    (haccepted : f'.history.accepted = f.history.accepted ++ [sub] ∧ sub.queue.isSome ∨
      f'.history.accepted = f.history.accepted) : Conserved f' := by
  refine ⟨h.accounts.adds ha (Nat.le_of_eq hticket.symm) (fun y hy => ⟨?_, ?_⟩)
    (haccepted.imp_left And.left), fun x hx => ?_⟩
  · rw [htickets] at hy
    omega
  · rintro rfl
    rw [htickets] at hy
    omega
  · rcases haccepted with ⟨haccepted, hsome⟩ | haccepted
    · rcases List.mem_append.1 (haccepted ▸ hx) with hx | hx
      · exact h.queued x hx
      · rwa [List.mem_singleton.1 hx]
    · exact h.queued x (haccepted ▸ hx)

/-- A push moves a submission to the end of a completion queue. -/
theorem push (h : Conserved f) (a : Place) {cq : CqHandle} {st : CompletionQueueState}
    {entry : Owned Submission} (hcq : f.cqs.lookup cq = some st) (ha : ∀ cq', a ≠ .cq cq')
    (hcqs : f'.cqs = Finmap.insert cq { st with events := st.events ++ [entry] } f.cqs)
    (hsource : (f'.held a ++ [entry.owner]).Perm (f.held a))
    (hothers : ∀ p, (∀ cq', p ≠ .cq cq') → p ≠ a → f'.held p = f.held p)
    (haccepted : f'.history.accepted = f.history.accepted) (htickets : f'.tickets = f.tickets) :
    Conserved f' := by
  refine h.moves a (.cq cq) [entry.owner] ⟨ha cq, hsource, ?_, fun p hpa hpb => ?_⟩ haccepted
    htickets
  · simp [held, eventsOf_insert hcqs, eventsOf_eq hcq]
  · cases p with
    | cq cq' =>
      have hne : cq' ≠ cq := fun heq => hpb (heq ▸ rfl)
      simp only [held, eventsOf_insert_of_ne hcqs hne]
    | _ => exact hothers _ (fun _ heq => by cases heq) hpa

/-! ### The moves -/

theorem openCq (h : Conserved f) (hw : Wired f) (owner : EntityId) :
    Conserved { f with
      nextCq := f.nextCq + 1
      cqs := Finmap.insert ⟨f.nextCq + 1⟩ ⟨owner, []⟩ f.cqs } := by
  refine h.same (fun p => ?_) rfl rfl
  cases p with
  | cq cq =>
    by_cases hne : cq = ⟨f.nextCq + 1⟩
    · subst hne
      simp only [held, eventsOf, Finmap.lookup_insert, hw.cq_fresh, Option.map_some,
        Option.map_none, Option.getD_some, Option.getD_none]
    · simp only [held, eventsOf, Finmap.lookup_insert_of_ne _ hne]
  | _ => rfl

theorem openQueue (h : Conserved f) (hw : Wired f) (cq : CqHandle) (owner : EntityId) (depth : ℕ) :
    Conserved { f with
      nextCmdq := f.nextCmdq + 1
      queues := Finmap.insert ⟨f.nextCmdq + 1⟩ ⟨cq, owner, depth, []⟩ f.queues } := by
  refine h.same (fun p => ?_) rfl rfl
  cases p with
  | pending q => exact pendingOf_openQueue hw rfl q
  | _ => rfl

theorem accept (h : Conserved f) {q : CmdQueueHandle} {st : CommandQueueState} (desc : UapiDescriptor)
    (hq : f.queues.lookup q = some st) :
    Conserved { f with
      tickets := f.tickets + 1
      queues := Finmap.insert q
        { st with pending := st.pending ++ [⟨desc, f.tickets, some q⟩] } f.queues
      history := { f.history with
        accepted := f.history.accepted ++ [⟨desc, f.tickets, some q⟩] } } := by
  refine h.adds (.pending q) ⟨desc, f.tickets, some q⟩ ⟨?_, fun p hp => ?_⟩ rfl rfl
    (.inl ⟨rfl, rfl⟩)
  · simp [held, pendingOf, hq]
  · cases p with
    | pending q' =>
      have hne : q' ≠ q := fun heq => hp (heq ▸ rfl)
      exact pendingOf_insert_of_ne rfl hne
    | _ => rfl

theorem take (h : Conserved f) {q : CmdQueueHandle} {st : CommandQueueState} {sub : Submission}
    {rest : List Submission} (hq : f.queues.lookup q = some st) (hpending : st.pending = sub :: rest) :
    Conserved { f with
      queues := Finmap.insert q { st with pending := rest } f.queues
      batch := f.batch ++ [(st.cq, sub)] } := by
  refine h.moves (.pending q) .batch [sub] ⟨by simp, ?_, ?_, fun p hpa hpb => ?_⟩ rfl rfl
  · simp only [held, pendingOf, Finmap.lookup_insert, hq, hpending, Option.map_some,
      Option.getD_some]
    exact List.perm_append_comm
  · simp [held]
  · cases p with
    | pending q' =>
      have hne : q' ≠ q := fun heq => hpa (heq ▸ rfl)
      exact pendingOf_insert_of_ne rfl hne
    | _ => first | rfl | contradiction

theorem stage (h : Conserved f) {cq : CqHandle} {sub : Submission}
    {rest : List (CqHandle × Submission)} {record : UapiRecord} (hbatch : f.batch = (cq, sub) :: rest)
    (hrecord : record.payload.payload = ⟨cq, sub⟩) :
    Conserved { f with batch := rest, waiting := f.waiting ++ [record] } := by
  refine h.moves .batch .waiting [sub] ⟨by simp, ?_, ?_, fun p hpa hpb => ?_⟩ rfl rfl
  · simp only [held, hbatch, List.map_cons]
    exact List.perm_append_comm
  · simp [held, hrecord]
  · cases p <;> first | rfl | contradiction

theorem gather (h : Conserved f) (hready : f.ready = []) :
    Conserved { f with waiting := [], ready := f.waiting } := by
  refine h.moves .waiting .ready (f.held .waiting) ⟨by simp, ?_, ?_, fun p hpa hpb => ?_⟩ rfl rfl
  · exact .refl _
  · simp [held, hready]
  · cases p <;> first | rfl | contradiction

theorem pick (h : Conserved f) {record : UapiRecord} {rest : List UapiRecord}
    (hready : f.ready = record :: rest) (hsubject : f.subject = none) :
    Conserved { f with
      ready := rest
      subject := some (record.payload.payload.cq, record.payload.payload.sub) } := by
  refine h.moves .ready .subject [record.payload.payload.sub]
    ⟨by simp, ?_, ?_, fun p hpa hpb => ?_⟩ rfl rfl
  · simp only [held, hready, List.map_cons]
    exact List.perm_append_comm
  · simp [held, hsubject]
  · cases p <;> first | rfl | contradiction

theorem enter (h : Conserved f) (cq : CqHandle) (desc : UapiDescriptor) (hsubject : f.subject = none) :
    Conserved { f with
      tickets := f.tickets + 1
      subject := some (cq, ⟨desc, f.tickets, none⟩) } := by
  refine h.adds .subject ⟨desc, f.tickets, none⟩ ⟨?_, fun p hp => ?_⟩ rfl rfl (.inr rfl)
  · simp [held, hsubject]
  · cases p <;> first | rfl | contradiction

theorem served (h : Conserved f) {cq : CqHandle} {sub : Submission} {source : CompletionSource}
    {item : QueuedCompletion Submission} (rows : Finmap fun _ : String => UInt64)
    (hsubject : f.subject = some (cq, sub)) (howner : item.owner = sub) :
    Conserved { f.serve source cq item rows with subject := none } := by
  refine h.moves .subject (.service source) [sub] ⟨by simp, ?_, ?_, fun p hpa hpb => ?_⟩ rfl rfl
  · simp [held, hsubject]
  · simp [held, Flow.serve, howner]
  · cases p with
    | service other =>
      have hne : other ≠ source := fun heq => hpb (heq ▸ rfl)
      simp only [held, Flow.serve, Function.update_of_ne hne]
    | _ => first | rfl | contradiction

theorem answered (h : Conserved f) {cq : CqHandle} {sub : Submission} {st : CompletionQueueState}
    (event : CompletionEvent) (hsubject : f.subject = some (cq, sub))
    (hcq : f.cqs.lookup cq = some st) :
    Conserved { f.push cq st ⟨event, sub⟩ with subject := none } := by
  refine h.push .subject hcq (by simp) rfl ?_ (fun p hcqs hp => ?_) rfl rfl
  · simp [held, hsubject]
  · cases p <;> first | rfl | contradiction | exact absurd rfl (hcqs _)

theorem requeue (h : Conserved f) {cq : CqHandle} {sub : Submission} {record : UapiRecord}
    (hsubject : f.subject = some (cq, sub)) (hrecord : record.payload.payload = ⟨cq, sub⟩) :
    Conserved { f with subject := none, waiting := f.waiting ++ [record] } := by
  refine h.moves .subject .waiting [sub] ⟨by simp, ?_, ?_, fun p hpa hpb => ?_⟩ rfl rfl
  · simp only [held, hsubject, Option.toList_none, List.map_nil, List.nil_append]
    exact .refl _
  · simp [held, hrecord]
  · cases p <;> first | rfl | contradiction

theorem giveUp (h : Conserved f) {cq : CqHandle} {sub : Submission} {failure : UapiRuntimeFailure}
    (hsubject : f.subject = some (cq, sub)) (hsub : failure.sub = sub) :
    Conserved { f with subject := none, failing := f.failing ++ [failure] } := by
  refine h.moves .subject .failing [sub] ⟨by simp, ?_, ?_, fun p hpa hpb => ?_⟩ rfl rfl
  · simp only [held, hsubject, Option.toList_none, List.map_nil, List.nil_append]
    exact .refl _
  · simp [held, hsub]
  · cases p <;> first | rfl | contradiction

/-- Only a submission that was never accepted is forgotten. -/
theorem forget (h : Conserved f) {cq : CqHandle} {sub : Submission}
    (hsubject : f.subject = some (cq, sub)) (hdirect : sub.queue = none) :
    Conserved { f with subject := none } := by
  refine ⟨h.accounts.removes (a := .subject) (x := sub) ⟨?_, fun p hp => ?_⟩ fun hmem => ?_, h.queued⟩
  · simp [held, hsubject]
  · cases p <;> first | rfl | contradiction
  · have hsome := h.queued sub hmem
    rw [hdirect] at hsome
    cases hsome

theorem report (h : Conserved f) {failure : UapiRuntimeFailure} {rest : List UapiRuntimeFailure}
    {st : CompletionQueueState} (event : CompletionEvent) (hfailing : f.failing = failure :: rest)
    (hcq : f.cqs.lookup failure.cq = some st) :
    Conserved { f.push failure.cq st ⟨event, failure.sub⟩ with failing := rest } := by
  refine h.push .failing hcq (by simp) rfl ?_ (fun p hcqs hp => ?_) rfl rfl
  · simp only [held, hfailing, List.map_cons]
    exact List.perm_append_comm
  · cases p <;> first | rfl | contradiction | exact absurd rfl (hcqs _)

theorem poll (h : Conserved f) {source : CompletionSource}
    {taken rest : List (QueuedCompletion Submission)} (hpolled : f.polled = [])
    (htaken : (f.services source).completions = taken ++ rest) :
    Conserved { f with
      services := Function.update f.services source ⟨rest, (f.services source).nextOpId⟩
      polled := taken.map (·.owned) } := by
  refine h.moves (.service source) .polled (taken.map (·.owner))
    ⟨by simp, ?_, ?_, fun p hpa hpb => ?_⟩ rfl rfl
  · simp only [held, Function.update_self, htaken, List.map_append]
    exact List.perm_append_comm
  · simp only [held, hpolled, List.map_nil, List.nil_append, List.map_map]
    exact .refl _
  · cases p with
    | service other =>
      have hne : other ≠ source := fun heq => hpa (heq ▸ rfl)
      simp only [held, Function.update_of_ne hne]
    | _ => first | rfl | contradiction

theorem route (h : Conserved f) {entry : Owned Submission} {rest : List (Owned Submission)}
    {cq : CqHandle} {st : CompletionQueueState} (hpolled : f.polled = entry :: rest)
    (hcq : f.cqs.lookup cq = some st) :
    Conserved { (f.unroute entry).push cq st entry with polled := rest } := by
  refine h.push .polled hcq (by simp) rfl ?_ (fun p hcqs hp => ?_) rfl rfl
  · simp only [held, hpolled, List.map_cons]
    exact List.perm_append_comm
  · cases p <;> first | rfl | contradiction | exact absurd rfl (hcqs _)

theorem handBack (h : Conserved f) {cq : CqHandle} {st : CompletionQueueState}
    {taken rest : List (Owned Submission)} (hcq : f.cqs.lookup cq = some st)
    (htaken : st.events = taken ++ rest) :
    Conserved { f with
      cqs := Finmap.insert cq { st with events := rest } f.cqs
      history := { f.history with
        returns := f.history.returns ++ taken.map fun entry => ⟨cq, st.owner, entry⟩ } } := by
  refine h.moves (.cq cq) .returned (taken.map (·.owner))
    ⟨by simp, ?_, ?_, fun p hpa hpb => ?_⟩ rfl rfl
  · simp only [held, eventsOf, Finmap.lookup_insert, hcq, htaken, Option.map_some,
      Option.getD_some, List.map_append]
    exact List.perm_append_comm
  · simp only [held, List.map_append, List.map_map]
    exact .refl _
  · cases p with
    | cq cq' =>
      have hne : cq' ≠ cq := fun heq => hpa (heq ▸ rfl)
      simp only [held, eventsOf, Finmap.lookup_insert_of_ne _ hne]
    | _ => first | rfl | contradiction

/-- **Every move that drops nothing keeps the accounts.** -/
theorem step (h : Conserved f) (hi : Isolated f) (hs : Step False f f') : Conserved f' := by
  cases hs with
  | openCq owner => exact h.openCq hi.wired owner
  | openQueue depth _ => exact h.openQueue hi.wired _ _ depth
  | accept desc hq => exact h.accept desc hq
  | take hq hpending => exact h.take hq hpending
  | stage hbatch hrecord => exact h.stage hbatch hrecord
  | drop hdrops => exact hdrops.elim
  | gather hready => exact h.gather hready
  | pick hready hsubject => exact h.pick hready hsubject
  | enter desc hsubject _ => exact h.enter _ desc hsubject
  | served hsubject _ _ howner _ _ => exact h.served _ hsubject howner
  | answered hsubject hcq _ => exact h.answered _ hsubject hcq
  | refuse hsubject => exact h.same (fun p => by cases p <;> rfl) rfl rfl
  | requeue hsubject hrecord _ => exact h.requeue hsubject hrecord
  | giveUp hsubject _ hsub => exact h.giveUp hsubject hsub
  | forget hsubject hdirect => exact h.forget hsubject hdirect
  | report hfailing hcq _ => exact h.report _ hfailing hcq
  | strandFailing hfailing hcq =>
    have hproper := hi.placed.failing _ (hfailing ▸ List.mem_cons_self)
    exact absurd hcq hproper.live
  | poll hpolled htaken => exact h.poll hpolled htaken
  | route hpolled _ hcq => exact h.route hpolled hcq
  | strandPolled hpolled hnone =>
    exact absurd hnone (hi.placed.not_stranded hi.routed hpolled fun _ _ => Proper.live)
  | handBack hcq htaken => exact h.handBack hcq htaken

end Conserved

end Flow

namespace LocalGuestUapiSurface

open Flow (Place Conserved)

/-- Where an accepted submission is between commands. -/
inductive Home
  | commandQueue (q : CmdQueueHandle)
  | runtimeQueue
  | service (source : CompletionSource)
  | completionQueue (cq : CqHandle)
  | returned
deriving DecidableEq

def Home.place : Home → Place
  | .commandQueue q => .pending q
  | .runtimeQueue => .waiting
  | .service source => .service source
  | .completionQueue cq => .cq cq
  | .returned => .returned

/-- The submissions at a home. -/
def homed (s : LocalGuestUapiSurface) : Home → List Submission
  | .commandQueue q => ((s.cmdQueues.lookup q).map (·.pending)).getD []
  | .runtimeQueue => s.runtimeQueue.queue.pending.map (·.payload.payload.sub)
  | .service source => (s.services source).completions.map (·.owner)
  | .completionQueue cq => (((s.cqEvents.lookup cq).map (·.events)).getD []).map (·.owner)
  | .returned => s.history.returns.map (·.entry.owner)

theorem held_place (s : LocalGuestUapiSurface) (home : Home) :
    s.flow.held home.place = s.homed home := by
  cases home <;> rfl

/-- Between commands a sole submission is at home. -/
theorem sole_homed {s : LocalGuestUapiSurface} {sub : Submission}
    (h : Places.Sole s.flow.held sub) : Places.Sole s.homed sub := by
  obtain ⟨p, hp, hother⟩ := h
  have hhome : ∃ home : Home, home.place = p := by
    cases p with
    | pending q => exact ⟨.commandQueue q, rfl⟩
    | waiting => exact ⟨.runtimeQueue, rfl⟩
    | service source => exact ⟨.service source, rfl⟩
    | cq cq => exact ⟨.completionQueue cq, rfl⟩
    | returned => exact ⟨.returned, rfl⟩
    | _ => cases hp
  obtain ⟨home, rfl⟩ := hhome
  refine ⟨home, s.held_place home ▸ hp, fun home' hne => ?_⟩
  rw [← held_place]
  refine hother home'.place fun heq => hne ?_
  cases home <;> cases home' <;> simp_all [Home.place]

theorem initial_conserved (config : Config) :
    Conserved (withProfilesAndRuntimePolicy config).flow := by
  refine ⟨⟨List.nodup_nil, fun sub h => (by cases h), fun sub _ => ⟨by rintro ⟨⟩, fun p => ?_⟩⟩,
    fun sub h => (by cases h)⟩
  have hnone : (withProfilesAndRuntimePolicy config).flow.held p = [] := by
    cases p with
    | pending q => rfl
    | cq cq => rfl
    | service source => cases source <;> rfl
    | _ => rfl
  rw [hnone, List.count_nil]

theorem run_conserved (config : Config) {cmds : List UapiCommand}
    (hfits : (withProfilesAndRuntimePolicy config).DoorbellsFit cmds) :
    Conserved ((withProfilesAndRuntimePolicy config).run cmds).flow := by
  have hstep : ∀ f f', Flow.Isolated f ∧ Conserved f → Flow.Step False f f' →
      Flow.Isolated f' ∧ Conserved f' :=
    fun _ _ ⟨hi, hc⟩ hs => ⟨hi.step hs, hc.step hi hs⟩
  have hinitial := And.intro (initial_isolated config) (initial_conserved config)
  exact (run_invariant_of_fits hstep hinitial hfits).2

end LocalGuestUapiSurface

end LinquUb
