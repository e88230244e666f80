import LinquUb.Uapi.Commands
import LinquUb.LTS.Counter

/-!
# Isolation of completion queues

A submission that came through a command queue stays with the completion queue that the command
queue is bound to.  The invariant has four parts.

* `Wired` : command queues are bound to completion queues of their owner;
* `Routed` : the operations in flight have pairwise distinct keys, which are the keys of the routes;
* `Placed` : wherever a submission is, it is labelled with a completion queue that is proper for it;
* `Logged` : what the history says about routes and returns.
-/

namespace LinquUb

namespace Flow

variable {f f' : Flow} {drops : Prop}

/-! ### Queues -/

/-- The completion queue that a command queue is bound to. -/
def boundCq (f : Flow) (q : CmdQueueHandle) : Option CqHandle := (f.queues.lookup q).map (·.cq)

def cqOwner (f : Flow) (cq : CqHandle) : Option EntityId := (f.cqs.lookup cq).map (·.owner)

theorem boundCq_eq {q : CmdQueueHandle} {st : CommandQueueState}
    (h : f.queues.lookup q = some st) : f.boundCq q = some st.cq := by
  rw [boundCq, h, Option.map_some]

theorem cqOwner_eq {cq : CqHandle} {st : CompletionQueueState} (h : f.cqs.lookup cq = some st) :
    f.cqOwner cq = some st.owner := by
  rw [cqOwner, h, Option.map_some]

/-- Bindings and owners are never changed. -/
structure Extends (f f' : Flow) : Prop where
  boundCq : ∀ q cq, f.boundCq q = some cq → f'.boundCq q = some cq
  cqOwner : ∀ cq owner, f.cqOwner cq = some owner → f'.cqOwner cq = some owner

structure Wired (f : Flow) : Prop where
  cqIds : ∀ cq st, f.cqs.lookup cq = some st → cq.id ≤ f.nextCq
  queueIds : ∀ q st, f.queues.lookup q = some st → q.id ≤ f.nextCmdq
  owners : ∀ q st, f.queues.lookup q = some st → f.cqOwner st.cq = some st.owner
  pending : ∀ q st, f.queues.lookup q = some st → ∀ sub ∈ st.pending, sub.queue = some q

theorem lookup_insert_cases {α β : Type} [DecidableEq α] {m : Finmap fun _ : α => β} {a x : α}
    {b y : β} (h : (Finmap.insert a b m).lookup x = some y) :
    (x = a ∧ y = b) ∨ (x ≠ a ∧ m.lookup x = some y) := by
  by_cases hx : x = a
  · rw [hx, Finmap.lookup_insert] at h
    exact .inl ⟨hx, (Option.some.inj h).symm⟩
  · rw [Finmap.lookup_insert_of_ne _ hx] at h
    exact .inr ⟨hx, h⟩

/-- Replacing a value by one that looks the same under `g`. -/
theorem lookup_insert_map {α β γ : Type} [DecidableEq α] {m : Finmap fun _ : α => β} {a : α}
    {b b' : β} (h : m.lookup a = some b) (g : β → γ) (hg : g b' = g b) (x : α) :
    ((Finmap.insert a b' m).lookup x).map g = (m.lookup x).map g := by
  by_cases hx : x = a
  · rw [hx, Finmap.lookup_insert, h, Option.map_some, Option.map_some, hg]
  · rw [Finmap.lookup_insert_of_ne _ hx]

/-- Adding a value under a key that has none. -/
theorem lookup_insert_of_none {α β : Type} [DecidableEq α] {m : Finmap fun _ : α => β} {a x : α}
    {b y : β} (ha : m.lookup a = none) (h : m.lookup x = some y) :
    (Finmap.insert a b m).lookup x = some y := by
  rwa [Finmap.lookup_insert_of_ne _ (fun hx => by rw [hx, ha] at h; cases h)]

theorem lookup_of_erase {α β : Type} [DecidableEq α] {m : Finmap fun _ : α => β} {a x : α} {y : β}
    (h : (m.erase a).lookup x = some y) : m.lookup x = some y := by
  by_cases hx : x = a
  · rw [hx, Finmap.lookup_erase] at h
    cases h
  · rwa [Finmap.lookup_erase_ne hx] at h

/-- Replacing the events of a completion queue. -/
theorem Wired.setEvents (hw : Wired f) {cq : CqHandle} {st : CompletionQueueState}
    (hcq : f.cqs.lookup cq = some st) (events : List (Owned Submission))
    (hcqs : f'.cqs = Finmap.insert cq { st with events } f.cqs) (hqueues : f'.queues = f.queues)
    (hnextCq : f'.nextCq = f.nextCq) (hnextCmdq : f'.nextCmdq = f.nextCmdq) :
    Extends f f' ∧ Wired f' := by
  have howner : f'.cqOwner = f.cqOwner := by
    funext cq'
    rw [cqOwner, hcqs]
    have hsame : ({ st with events } : CompletionQueueState).owner = st.owner := rfl
    exact lookup_insert_map hcq (·.owner) hsame cq'
  refine ⟨⟨fun q cq' h => ?_, fun cq' owner h => howner ▸ h⟩, fun cq' st' h => ?_,
    fun q st' h => ?_, fun q st' h => ?_, fun q st' h => ?_⟩
  · rwa [boundCq, hqueues]
  · rw [hcqs] at h
    rw [hnextCq]
    rcases lookup_insert_cases h with ⟨rfl, _⟩ | ⟨_, h⟩
    · exact hw.cqIds _ _ hcq
    · exact hw.cqIds _ _ h
  · exact hnextCmdq ▸ hw.queueIds q st' (hqueues ▸ h)
  · exact howner ▸ hw.owners q st' (hqueues ▸ h)
  · exact hw.pending q st' (hqueues ▸ h)

/-- Replacing the pending submissions of a command queue. -/
theorem Wired.setPending (hw : Wired f) {q : CmdQueueHandle} {st : CommandQueueState}
    (hq : f.queues.lookup q = some st) {pending : List Submission}
    (hpending : ∀ sub ∈ pending, sub.queue = some q)
    (hqueues : f'.queues = Finmap.insert q { st with pending } f.queues)
    (hcqs : f'.cqs = f.cqs) (hnextCq : f'.nextCq = f.nextCq)
    (hnextCmdq : f'.nextCmdq = f.nextCmdq) : Extends f f' ∧ Wired f' := by
  have hbound : f'.boundCq = f.boundCq := by
    funext q'
    rw [boundCq, hqueues]
    have hsame : ({ st with pending } : CommandQueueState).cq = st.cq := rfl
    exact lookup_insert_map hq (·.cq) hsame q'
  have howner : f'.cqOwner = f.cqOwner := by
    funext cq
    rw [cqOwner, hcqs]
    rfl
  refine ⟨⟨fun q' cq h => hbound ▸ h, fun cq owner h => howner ▸ h⟩, fun cq st' h => ?_,
    fun q' st' h => ?_, fun q' st' h => ?_, fun q' st' h => ?_⟩
  · exact hnextCq ▸ hw.cqIds cq st' (hcqs ▸ h)
  all_goals
    rw [hqueues] at h
  · rw [hnextCmdq]
    rcases lookup_insert_cases h with ⟨rfl, _⟩ | ⟨_, h⟩
    · exact hw.queueIds _ _ hq
    · exact hw.queueIds _ _ h
  · rw [howner]
    rcases lookup_insert_cases h with ⟨_, rfl⟩ | ⟨_, h⟩
    · exact hw.owners q st hq
    · exact hw.owners _ _ h
  · rcases lookup_insert_cases h with ⟨rfl, rfl⟩ | ⟨_, h⟩
    · exact hpending
    · exact hw.pending _ _ h

theorem Wired.cq_fresh (hw : Wired f) : f.cqs.lookup ⟨f.nextCq + 1⟩ = none := by
  by_contra hne
  obtain ⟨st, hst⟩ := Option.ne_none_iff_exists'.1 hne
  have hle : f.nextCq + 1 ≤ f.nextCq := hw.cqIds _ _ hst
  omega

theorem Wired.queue_fresh (hw : Wired f) : f.queues.lookup ⟨f.nextCmdq + 1⟩ = none := by
  by_contra hne
  obtain ⟨st, hst⟩ := Option.ne_none_iff_exists'.1 hne
  have hle : f.nextCmdq + 1 ≤ f.nextCmdq := hw.queueIds _ _ hst
  omega

theorem Wired.openCq (hw : Wired f) (owner : EntityId)
    (hcqs : f'.cqs = Finmap.insert ⟨f.nextCq + 1⟩ ⟨owner, []⟩ f.cqs)
    (hqueues : f'.queues = f.queues) (hnextCq : f'.nextCq = f.nextCq + 1)
    (hnextCmdq : f'.nextCmdq = f.nextCmdq) : Extends f f' ∧ Wired f' := by
  have hfresh := hw.cq_fresh
  have hext : Extends f f' := by
    refine ⟨fun q cq h => ?_, fun cq owner' h => ?_⟩
    · rwa [boundCq, hqueues]
    · obtain ⟨st, hst, howner⟩ := Option.map_eq_some_iff.1 h
      rw [cqOwner, hcqs, lookup_insert_of_none hfresh hst, Option.map_some, howner]
  refine ⟨hext, fun cq st h => ?_, fun q st h => ?_, fun q st h => ?_, fun q st h => ?_⟩
  · rw [hcqs] at h
    rw [hnextCq]
    rcases lookup_insert_cases h with ⟨rfl, _⟩ | ⟨_, h⟩
    · exact Nat.le_refl _
    · exact Nat.le_succ_of_le (hw.cqIds _ _ h)
  · exact hnextCmdq ▸ hw.queueIds q st (hqueues ▸ h)
  · exact hext.cqOwner _ _ (hw.owners q st (hqueues ▸ h))
  · exact hw.pending q st (hqueues ▸ h)

theorem Wired.openQueue (hw : Wired f) {cq : CqHandle} {st : CompletionQueueState} (depth : ℕ)
    (hcq : f.cqs.lookup cq = some st)
    (hqueues : f'.queues = Finmap.insert ⟨f.nextCmdq + 1⟩ ⟨cq, st.owner, depth, []⟩ f.queues)
    (hcqs : f'.cqs = f.cqs) (hnextCq : f'.nextCq = f.nextCq)
    (hnextCmdq : f'.nextCmdq = f.nextCmdq + 1) : Extends f f' ∧ Wired f' := by
  have hfresh := hw.queue_fresh
  have howner : f'.cqOwner = f.cqOwner := by
    funext cq'
    rw [cqOwner, hcqs]
    rfl
  refine ⟨⟨fun q cq' h => ?_, fun cq' owner h => howner ▸ h⟩, fun cq' st' h => ?_,
    fun q st' h => ?_, fun q st' h => ?_, fun q st' h => ?_⟩
  · obtain ⟨st', hst', hbound⟩ := Option.map_eq_some_iff.1 h
    rw [boundCq, hqueues, lookup_insert_of_none hfresh hst', Option.map_some, hbound]
  · exact hnextCq ▸ hw.cqIds cq' st' (hcqs ▸ h)
  all_goals
    rw [hqueues] at h
  · rw [hnextCmdq]
    rcases lookup_insert_cases h with ⟨rfl, _⟩ | ⟨_, h⟩
    · exact Nat.le_refl _
    · exact Nat.le_succ_of_le (hw.queueIds _ _ h)
  · rw [howner]
    rcases lookup_insert_cases h with ⟨_, rfl⟩ | ⟨_, h⟩
    · exact cqOwner_eq hcq
    · exact hw.owners _ _ h
  · rcases lookup_insert_cases h with ⟨rfl, rfl⟩ | ⟨_, h⟩
    · exact fun sub hsub => (by cases hsub)
    · exact hw.pending _ _ h

theorem Wired.same (hw : Wired f) (hqueues : f'.queues = f.queues) (hcqs : f'.cqs = f.cqs)
    (hnextCq : f'.nextCq = f.nextCq) (hnextCmdq : f'.nextCmdq = f.nextCmdq) :
    Extends f f' ∧ Wired f' := by
  obtain ⟨queues, cqs⟩ := f'
  cases hqueues
  cases hcqs
  cases hnextCq
  cases hnextCmdq
  exact ⟨⟨fun _ _ h => h, fun _ _ h => h⟩, hw.cqIds, hw.queueIds, hw.owners, hw.pending⟩

theorem Wired.step (hw : Wired f) (hs : Step drops f f') : Extends f f' ∧ Wired f' := by
  cases hs with
  | openCq owner => exact hw.openCq owner rfl rfl rfl rfl
  | openQueue depth hcq => exact hw.openQueue depth hcq rfl rfl rfl rfl
  | accept desc hq =>
    refine hw.setPending hq (fun sub hsub => ?_) rfl rfl rfl rfl
    rcases List.mem_append.1 hsub with hsub | hsub
    · exact hw.pending _ _ hq sub hsub
    · rw [List.mem_singleton.1 hsub]
  | take hq hpending =>
    refine hw.setPending hq (fun sub hsub => hw.pending _ _ hq sub ?_) rfl rfl rfl rfl
    rw [hpending]
    exact List.mem_cons_of_mem _ hsub
  | answered _ hcq _ => exact hw.setEvents hcq _ rfl rfl rfl rfl
  | report _ hcq _ => exact hw.setEvents hcq _ rfl rfl rfl rfl
  | route _ _ hcq => exact hw.setEvents hcq _ rfl rfl rfl rfl
  | handBack hcq _ => exact hw.setEvents hcq _ rfl rfl rfl rfl
  | _ => exact hw.same rfl rfl rfl rfl

/-! ### Operations in flight -/

/-- The completions that a service has queued and that have not been routed, oldest first. -/
def inFlight (f : Flow) (source : CompletionSource) : List (Owned Submission) :=
  f.polled.filter (·.event.source = source) ++ (f.services source).completions.map (·.owned)

structure Routed (f : Flow) : Prop where
  sources : ∀ source, ∀ item ∈ (f.services source).completions, item.event.source = source
  window : ∀ source,
    Consecutive (f.services source).nextOpId ((f.inFlight source).map (·.event.opId))
  room : ∀ source, (f.inFlight source).length ≤ (f.depths source).toNat
  routed : ∀ source, ∀ entry ∈ f.inFlight source, (f.routes.lookup entry.event.key).isSome
  issued : ∀ key, (f.routes.lookup key).isSome →
    ∃ entry ∈ f.inFlight key.source, entry.event.key = key

namespace Routed

theorem source_eq (hr : Routed f) {source : CompletionSource} {entry : Owned Submission}
    (hentry : entry ∈ f.inFlight source) : entry.event.source = source := by
  rcases List.mem_append.1 hentry with h | h
  · exact of_decide_eq_true (List.mem_filter.1 h).2
  · obtain ⟨item, hitem, rfl⟩ := List.mem_map.1 h
    exact hr.sources source item hitem

theorem ids_nodup (hr : Routed f) (source : CompletionSource) :
    ((f.inFlight source).map (·.event.opId)).Nodup := by
  refine (hr.window source).nodup ?_
  have hroom := hr.room source
  have hdepth := (f.depths source).toNat_lt
  rw [List.length_map]
  omega

/-- The key of the next operation is not in use. -/
theorem next_unrouted (hr : Routed f) {source : CompletionSource}
    (hroom : (f.inFlight source).length < (f.depths source).toNat) :
    f.routes.lookup ⟨source, (f.services source).nextOpId + 1⟩ = none := by
  by_contra hne
  have hsome := Option.ne_none_iff_isSome.1 hne
  obtain ⟨entry, hentry, hkey⟩ := hr.issued _ hsome
  have hnodup := ((hr.window source).snoc).nodup (by
    have hdepth := (f.depths source).toNat_lt
    simp only [List.length_append, List.length_map, List.length_singleton]
    omega)
  have hid : entry.event.opId = (f.services source).nextOpId + 1 :=
    congrArg RuntimeCompletionKey.opId hkey
  have hmem := List.mem_map_of_mem (f := (·.event.opId)) hentry
  exact (List.nodup_append.1 hnodup).2.2 _ hmem _ (List.mem_singleton_self _) hid

/-- The invariant depends on the services and their routes only. -/
theorem same (hr : Routed f) (hservices : f'.services = f.services) (hpolled : f'.polled = f.polled)
    (hdepths : f'.depths = f.depths) (hroutes : f'.routes = f.routes) : Routed f' := by
  have hflight : f'.inFlight = f.inFlight := by
    funext source
    rw [inFlight, inFlight, hservices, hpolled]
  refine ⟨?_, ?_, ?_, ?_, ?_⟩ <;> simp only [hservices, hflight, hdepths, hroutes]
  · exact hr.sources
  · exact hr.window
  · exact hr.room
  · exact hr.routed
  · exact hr.issued

/-- A poll moves completions from a service to the running command: they stay in flight. -/
theorem inFlight_poll (hr : Routed f) {source : CompletionSource}
    {taken rest : List (QueuedCompletion Submission)} (hpolled : f.polled = [])
    (htaken : (f.services source).completions = taken ++ rest)
    (hservices : f'.services =
      Function.update f.services source ⟨rest, (f.services source).nextOpId⟩)
    (hpolled' : f'.polled = taken.map (·.owned)) : f'.inFlight = f.inFlight := by
  have hsource : ∀ entry ∈ taken.map (·.owned), entry.event.source = source := by
    intro entry hentry
    obtain ⟨item, hitem, rfl⟩ := List.mem_map.1 hentry
    exact hr.sources source item (htaken ▸ List.mem_append_left _ hitem)
  funext other
  by_cases hother : other = source
  · subst hother
    have hall : (taken.map (·.owned)).filter (·.event.source = other) = taken.map (·.owned) :=
      List.filter_eq_self.2 fun entry hentry => decide_eq_true (hsource entry hentry)
    simp only [inFlight, hservices, hpolled', Function.update_self, hall, hpolled, htaken,
      List.filter_nil, List.nil_append, List.map_append]
  · have hnone : (taken.map (·.owned)).filter (·.event.source = other) = [] :=
      List.filter_eq_nil_iff.2 fun entry hentry h =>
        hother ((of_decide_eq_true h).symm.trans (hsource entry hentry))
    simp only [inFlight, hservices, hpolled', Function.update_of_ne hother, hnone, hpolled,
      List.filter_nil]

theorem poll (hr : Routed f) {source : CompletionSource}
    {taken rest : List (QueuedCompletion Submission)} (hpolled : f.polled = [])
    (htaken : (f.services source).completions = taken ++ rest)
    (hservices : f'.services =
      Function.update f.services source ⟨rest, (f.services source).nextOpId⟩)
    (hpolled' : f'.polled = taken.map (·.owned)) (hdepths : f'.depths = f.depths)
    (hroutes : f'.routes = f.routes) : Routed f' := by
  have hflight := hr.inFlight_poll hpolled htaken hservices hpolled'
  have hnext : ∀ other, (f'.services other).nextOpId = (f.services other).nextOpId := by
    intro other
    by_cases hother : other = source
    · subst hother
      rw [hservices, Function.update_self]
    · rw [hservices, Function.update_of_ne hother]
  refine ⟨fun other item hitem => ?_, ?_, ?_, ?_, ?_⟩
  · by_cases hother : other = source
    · subst hother
      rw [hservices, Function.update_self] at hitem
      exact hr.sources other item (htaken ▸ List.mem_append_right _ hitem)
    · rw [hservices, Function.update_of_ne hother] at hitem
      exact hr.sources other item hitem
  all_goals
    simp only [hflight, hnext, hdepths, hroutes]
  · exact hr.window
  · exact hr.room
  · exact hr.routed
  · exact hr.issued

/-- A completion that a service has just queued is the youngest in flight. -/
theorem inFlight_serve (hpolled : f.polled = []) (source : CompletionSource) (cq : CqHandle)
    (item : QueuedCompletion Submission) (rows : Finmap fun _ : String => UInt64) :
    (f.serve source cq item rows).inFlight =
      Function.update f.inFlight source (f.inFlight source ++ [item.owned]) := by
  funext other
  by_cases hne : other = source
  · subst hne
    simp [inFlight, Flow.serve, hpolled]
  · simp [inFlight, Flow.serve, hpolled, Function.update_of_ne hne]

theorem mem_serve (hpolled : f.polled = []) {source other : CompletionSource} {cq : CqHandle}
    {item : QueuedCompletion Submission} {rows : Finmap fun _ : String => UInt64}
    {entry : Owned Submission} (hentry : entry ∈ (f.serve source cq item rows).inFlight other) :
    entry ∈ f.inFlight other ∨ entry = item.owned := by
  rw [inFlight_serve hpolled] at hentry
  by_cases hne : other = source
  · subst hne
    rw [Function.update_self] at hentry
    exact (List.mem_append.1 hentry).imp_right List.mem_singleton.1
  · rw [Function.update_of_ne hne] at hentry
    exact .inl hentry

theorem serve_fresh (hr : Routed f) {source : CompletionSource}
    {item : QueuedCompletion Submission} (hpolled : f.polled = [])
    (hroom : (f.services source).completions.length < (f.depths source).toNat)
    (hkey : item.event.key = ⟨source, (f.services source).nextOpId + 1⟩) :
    f.routes.lookup item.event.key = none := by
  rw [hkey]
  refine hr.next_unrouted ?_
  simpa [inFlight, hpolled] using hroom

/-- A service queues a completion under a fresh key. -/
theorem serve (hr : Routed f) {source : CompletionSource} {item : QueuedCompletion Submission}
    (hpolled : f.polled = [])
    (hroom : (f.services source).completions.length < (f.depths source).toNat)
    (hkey : item.event.key = ⟨source, (f.services source).nextOpId + 1⟩) (cq : CqHandle)
    (rows : Finmap fun _ : String => UInt64) : Routed (f.serve source cq item rows) := by
  set f' := f.serve source cq item rows with hf'
  have hservices : f'.services = Function.update f.services source
      ⟨(f.services source).completions ++ [item], (f.services source).nextOpId + 1⟩ := rfl
  have hroutes : f'.routes = Finmap.insert item.event.key cq f.routes := rfl
  have hlength : (f.inFlight source).length = (f.services source).completions.length := by
    simp [inFlight, hpolled]
  have hfresh := hr.serve_fresh hpolled hroom hkey
  have hserved := inFlight_serve hpolled source cq item rows
  have hflight : f'.inFlight source = f.inFlight source ++ [item.owned] := by
    rw [hf', hserved, Function.update_self]
  have hother : ∀ other, other ≠ source → f'.inFlight other = f.inFlight other := by
    intro other hne
    rw [hf', hserved, Function.update_of_ne hne]
  have hkeep : ∀ key, (f.routes.lookup key).isSome → (f'.routes.lookup key).isSome := by
    intro key hsome
    obtain ⟨cq', hcq'⟩ := Option.isSome_iff_exists.1 hsome
    rw [hroutes, lookup_insert_of_none hfresh hcq']
    rfl
  have hsource : item.event.source = source := congrArg RuntimeCompletionKey.source hkey
  have hid : item.event.opId = (f.services source).nextOpId + 1 :=
    congrArg RuntimeCompletionKey.opId hkey
  refine ⟨fun other item' hitem' => ?_, fun other => ?_, fun other => ?_,
    fun other entry hentry => ?_, fun key hsome => ?_⟩
  · by_cases hne : other = source
    · subst hne
      rw [hservices, Function.update_self] at hitem'
      rcases List.mem_append.1 hitem' with h | h
      · exact hr.sources other item' h
      · rw [List.mem_singleton.1 h, hsource]
    · rw [hservices, Function.update_of_ne hne] at hitem'
      exact hr.sources other item' hitem'
  · by_cases hne : other = source
    · subst hne
      rw [hflight, hservices, Function.update_self, List.map_append]
      have hsnoc := (hr.window other).snoc
      rw [← hid] at hsnoc ⊢
      exact hsnoc
    · rw [hother other hne, hservices, Function.update_of_ne hne]
      exact hr.window other
  · by_cases hne : other = source
    · subst hne
      rw [hflight, List.length_append, List.length_singleton, hlength]
      exact hroom
    · rw [hother other hne]
      exact hr.room other
  · by_cases hne : other = source
    · subst hne
      rw [hflight] at hentry
      rcases List.mem_append.1 hentry with h | h
      · exact hkeep _ (hr.routed other entry h)
      · rw [List.mem_singleton.1 h, hroutes]
        exact Option.isSome_iff_exists.2 ⟨cq, Finmap.lookup_insert _⟩
    · rw [hother other hne] at hentry
      exact hkeep _ (hr.routed other entry hentry)
  · by_cases hk : key = item.event.key
    · refine ⟨item.owned, ?_, hk.symm⟩
      rw [hk, hkey, hflight]
      exact List.mem_append_right _ (List.mem_singleton_self _)
    · rw [hroutes, Finmap.lookup_insert_of_ne _ hk] at hsome
      obtain ⟨entry, hentry, hkey'⟩ := hr.issued key hsome
      refine ⟨entry, ?_, hkey'⟩
      by_cases hne : key.source = source
      · rw [hne] at hentry ⊢
        rw [hflight]
        exact List.mem_append_left _ hentry
      · rwa [hother _ hne]

/-- The completion that is routed next is the oldest in flight. -/
theorem inFlight_unroute {entry : Owned Submission} {rest : List (Owned Submission)}
    (hpolled : f.polled = entry :: rest) (hservices : f'.services = f.services)
    (hrest : f'.polled = rest) :
    f.inFlight = Function.update f'.inFlight entry.event.source
      (entry :: f'.inFlight entry.event.source) := by
  funext source
  by_cases hne : source = entry.event.source
  · subst hne
    simp [inFlight, hpolled, hservices, hrest]
  · simp [inFlight, hpolled, hservices, hrest, Ne.symm hne, Function.update_of_ne hne]

theorem mem_of_unroute {entry : Owned Submission} {rest : List (Owned Submission)}
    {source : CompletionSource} {entry' : Owned Submission} (hentry' : entry' ∈ f'.inFlight source)
    (hpolled : f.polled = entry :: rest) (hservices : f'.services = f.services)
    (hrest : f'.polled = rest) : entry' ∈ f.inFlight source := by
  rw [inFlight_unroute hpolled hservices hrest]
  by_cases hne : source = entry.event.source
  · subst hne
    rw [Function.update_self]
    exact List.mem_cons_of_mem _ hentry'
  · rwa [Function.update_of_ne hne]

/-- Routing the oldest completion of a command takes its key out of use. -/
theorem unroute (hr : Routed f) {entry : Owned Submission} {rest : List (Owned Submission)}
    (hpolled : f.polled = entry :: rest) (hservices : f'.services = f.services)
    (hdepths : f'.depths = f.depths) (hrest : f'.polled = rest)
    (hroutes : f'.routes = f.routes.erase entry.event.key) : Routed f' := by
  have hflight := inFlight_unroute hpolled hservices hrest
  have hsame : f.inFlight entry.event.source = entry :: f'.inFlight entry.event.source := by
    rw [hflight, Function.update_self]
  have hother : ∀ other, other ≠ entry.event.source → f.inFlight other = f'.inFlight other := by
    intro other hne
    rw [hflight, Function.update_of_ne hne]
  have hsub : ∀ source, ∀ entry' ∈ f'.inFlight source, entry' ∈ f.inFlight source :=
    fun source entry' hentry' => mem_of_unroute hentry' hpolled hservices hrest
  have hkeys : ∀ source, ∀ entry' ∈ f'.inFlight source, entry'.event.key ≠ entry.event.key := by
    intro source entry' hentry' hkey
    have hsource : source = entry.event.source :=
      (hr.source_eq (hsub source entry' hentry')).symm.trans
        (congrArg RuntimeCompletionKey.source hkey)
    subst hsource
    have hnodup := hr.ids_nodup entry.event.source
    rw [hsame, List.map_cons] at hnodup
    refine (List.nodup_cons.1 hnodup).1 (List.mem_map.2 ⟨entry', hentry', ?_⟩)
    exact congrArg RuntimeCompletionKey.opId hkey
  refine ⟨?_, fun source => ?_, fun source => ?_, fun source entry' hentry' => ?_,
    fun key hsome => ?_⟩
  · rw [hservices]
    exact hr.sources
  · have hwindow := hr.window source
    by_cases hne : source = entry.event.source
    · subst hne
      rw [hsame] at hwindow
      rw [hservices]
      exact hwindow.2
    · rw [← hother source hne, hservices]
      exact hwindow
  · have hroom := hr.room source
    by_cases hne : source = entry.event.source
    · subst hne
      rw [hsame, List.length_cons] at hroom
      rw [hdepths]
      omega
    · rw [← hother source hne, hdepths]
      exact hroom
  · rw [hroutes, Finmap.lookup_erase_ne (hkeys source entry' hentry')]
    exact hr.routed source entry' (hsub source entry' hentry')
  · have hkey : key ≠ entry.event.key := by
      rintro rfl
      rw [hroutes, Finmap.lookup_erase] at hsome
      cases hsome
    rw [hroutes, Finmap.lookup_erase_ne hkey] at hsome
    obtain ⟨entry', hentry', hkey'⟩ := hr.issued key hsome
    refine ⟨entry', ?_, hkey'⟩
    by_cases hne : key.source = entry.event.source
    · rw [hne] at hentry' ⊢
      rw [hsame] at hentry'
      rcases List.mem_cons.1 hentry' with rfl | h
      · exact absurd hkey'.symm hkey
      · exact h
    · rwa [← hother _ hne]

/-- Every move keeps the routes, as long as no completion is stranded. -/
theorem step (hr : Routed f) (hs : Step drops f f')
    (hlive : ∀ key cq, f.routes.lookup key = some cq → f.cqs.lookup cq ≠ none) : Routed f' := by
  cases hs with
  | served _ hpolled hroom _ hkey _ =>
    exact (hr.serve hpolled hroom hkey _ f.rows).same rfl rfl rfl rfl
  | poll hpolled htaken => exact hr.poll hpolled htaken rfl rfl rfl rfl
  | route hpolled _ _ => exact hr.unroute hpolled rfl rfl rfl rfl
  | @strandPolled entry rest hpolled hnone =>
    have hentry : entry ∈ f.inFlight entry.event.source := by
      simp [inFlight, hpolled]
    obtain ⟨cq, hcq⟩ := Option.isSome_iff_exists.1 (hr.routed _ entry hentry)
    rcases hnone with ⟨cq', hroute, hdead⟩ | hdead
    · exact absurd hdead (hlive _ _ hroute)
    · exact absurd (hdead cq) (hlive _ _ hcq)
  | _ => exact hr.same rfl rfl rfl rfl

end Routed

/-! ### Labels -/

/-- A submission may go to `cq`: the completion queue exists, and it is the one that the
submission's command queue is bound to. -/
def Proper (f : Flow) (cq : CqHandle) (sub : Submission) : Prop :=
  (f.cqOwner cq).isSome ∧ ∀ q, sub.queue = some q → f.boundCq q = some cq

theorem Proper.mono (hext : Extends f f') {cq : CqHandle} {sub : Submission}
    (h : f.Proper cq sub) : f'.Proper cq sub := by
  obtain ⟨hcq, hbound⟩ := h
  obtain ⟨owner, howner⟩ := Option.isSome_iff_exists.1 hcq
  exact ⟨Option.isSome_iff_exists.2 ⟨owner, hext.cqOwner _ _ howner⟩,
    fun q hq => hext.boundCq _ _ (hbound q hq)⟩

/-- Wherever a submission is, it is labelled with a completion queue that `P` allows. -/
structure Placed (P : CqHandle → Submission → Prop) (f : Flow) : Prop where
  batch : ∀ cq sub, (cq, sub) ∈ f.batch → P cq sub
  waiting : ∀ record ∈ f.waiting, P record.payload.payload.cq record.payload.payload.sub
  ready : ∀ record ∈ f.ready, P record.payload.payload.cq record.payload.payload.sub
  subject : ∀ cq sub, f.subject = some (cq, sub) → P cq sub
  failing : ∀ failure ∈ f.failing, P failure.cq failure.sub
  inFlight : ∀ source, ∀ entry ∈ f.inFlight source, ∀ cq,
    f.routes.lookup entry.event.key = some cq → P cq entry.owner
  pushes : ∀ cq entry, (cq, entry) ∈ f.history.pushes → P cq entry.owner
  routings : ∀ routing ∈ f.history.routings, ∃ cq, routing.bound = some cq ∧
    P cq routing.entry.owner

namespace Placed

variable {P P' : CqHandle → Submission → Prop}

theorem imp (h : Placed P f) (hP : ∀ cq sub, P cq sub → P' cq sub) : Placed P' f where
  batch cq sub hmem := hP _ _ (h.batch cq sub hmem)
  waiting record hmem := hP _ _ (h.waiting record hmem)
  ready record hmem := hP _ _ (h.ready record hmem)
  subject cq sub hmem := hP _ _ (h.subject cq sub hmem)
  failing failure hmem := hP _ _ (h.failing failure hmem)
  inFlight source entry hmem cq hroute := hP _ _ (h.inFlight source entry hmem cq hroute)
  pushes cq entry hmem := hP _ _ (h.pushes cq entry hmem)
  routings routing hmem :=
    let ⟨cq, hbound, hcq⟩ := h.routings routing hmem
    ⟨cq, hbound, hP _ _ hcq⟩

/-- A push of a submission that is labelled with the right queue. -/
theorem pushes_append (h : Placed P f) {cq : CqHandle} {entry : Owned Submission}
    (hentry : P cq entry.owner) :
    ∀ cq' entry', (cq', entry') ∈ f.history.pushes ++ [(cq, entry)] → P cq' entry'.owner := by
  intro cq' entry' hmem
  rcases List.mem_append.1 hmem with hmem | hmem
  · exact h.pushes cq' entry' hmem
  · obtain ⟨rfl, rfl⟩ := Prod.mk.inj (List.mem_singleton.1 hmem)
    exact hentry

theorem waiting_append (h : Placed P f) {record : UapiRecord} {cq : CqHandle} {sub : Submission}
    (hrecord : record.payload.payload = ⟨cq, sub⟩) (hsub : P cq sub) :
    ∀ record' ∈ f.waiting ++ [record],
      P record'.payload.payload.cq record'.payload.payload.sub := by
  intro record' hmem
  rcases List.mem_append.1 hmem with hmem | hmem
  · exact h.waiting record' hmem
  · rw [List.mem_singleton.1 hmem, hrecord]
    exact hsub

/-- The completion that is routed next has the route of its label. -/
theorem polled_route (h : Placed P f) (hr : Routed f) {entry : Owned Submission}
    {rest : List (Owned Submission)} (hpolled : f.polled = entry :: rest) :
    ∃ cq, f.routes.lookup entry.event.key = some cq ∧ P cq entry.owner := by
  have hentry : entry ∈ f.inFlight entry.event.source := by
    simp [Flow.inFlight, hpolled]
  obtain ⟨cq, hcq⟩ := Option.isSome_iff_exists.1 (hr.routed _ entry hentry)
  exact ⟨cq, hcq, h.inFlight _ entry hentry cq hcq⟩

/-! #### The moves -/

theorem take (h : Placed P f) {q : CmdQueueHandle} {st : CommandQueueState} {sub : Submission}
    {rest : List Submission} (hpending : st.pending = sub :: rest)
    (htake : ∀ sub ∈ st.pending, P st.cq sub) :
    Placed P { f with
      queues := Finmap.insert q { st with pending := rest } f.queues
      batch := f.batch ++ [(st.cq, sub)] } := by
  refine { h with batch := fun cq sub' hmem => ?_ }
  rcases List.mem_append.1 hmem with hmem | hmem
  · exact h.batch cq sub' hmem
  · obtain ⟨rfl, rfl⟩ := Prod.mk.inj (List.mem_singleton.1 hmem)
    exact htake _ (hpending ▸ List.mem_cons_self)

theorem stage (h : Placed P f) {cq : CqHandle} {sub : Submission}
    {rest : List (CqHandle × Submission)} {record : UapiRecord} (hbatch : f.batch = (cq, sub) :: rest)
    (hrecord : record.payload.payload = ⟨cq, sub⟩) :
    Placed P { f with batch := rest, waiting := f.waiting ++ [record] } :=
  { h with
    batch := fun _ _ hmem => h.batch _ _ (hbatch ▸ List.mem_cons_of_mem _ hmem)
    waiting := h.waiting_append hrecord (h.batch _ _ (hbatch ▸ List.mem_cons_self)) }

theorem pick (h : Placed P f) {record : UapiRecord} {rest : List UapiRecord}
    (hready : f.ready = record :: rest) :
    Placed P { f with
      ready := rest
      subject := some (record.payload.payload.cq, record.payload.payload.sub) } := by
  refine { h with
    ready := fun record' hmem => h.ready record' (hready ▸ List.mem_cons_of_mem _ hmem)
    subject := fun cq sub hsub => ?_ }
  obtain ⟨rfl, rfl⟩ := Prod.mk.inj (Option.some.inj hsub)
  exact h.ready record (hready ▸ List.mem_cons_self)

theorem enter (h : Placed P f) {cq : CqHandle} {sub : Submission} (hsub : P cq sub) :
    Placed P { f with tickets := f.tickets + 1, subject := some (cq, sub) } := by
  refine { h with subject := fun cq' sub' hsubject => ?_ }
  obtain ⟨rfl, rfl⟩ := Prod.mk.inj (Option.some.inj hsubject)
  exact hsub

/-- A route that is bound gets the label of the submission. -/
theorem served (h : Placed P f) (hr : Routed f) {cq : CqHandle} {sub : Submission}
    {source : CompletionSource} {item : QueuedCompletion Submission}
    (rows : Finmap fun _ : String => UInt64) (hsubject : f.subject = some (cq, sub))
    (hpolled : f.polled = [])
    (hroom : (f.services source).completions.length < (f.depths source).toNat)
    (howner : item.owner = sub)
    (hkey : item.event.key = ⟨source, (f.services source).nextOpId + 1⟩) :
    Placed P { f.serve source cq item rows with subject := none } := by
  refine { h with subject := fun cq sub hsub => (by cases hsub), inFlight := ?_ }
  intro other entry hentry cq' hroute
  have hroute : (Finmap.insert item.event.key cq f.routes).lookup entry.event.key = some cq' :=
    hroute
  have hentry : entry ∈ (f.serve source cq item rows).inFlight other := hentry
  rcases Routed.mem_serve hpolled hentry with hentry | rfl
  · rcases lookup_insert_cases hroute with ⟨hsame, _⟩ | ⟨_, hroute⟩
    · -- the new key was not in use
      have hsome := hr.routed other entry hentry
      rw [hsame, hr.serve_fresh hpolled hroom hkey] at hsome
      cases hsome
    · exact h.inFlight other entry hentry cq' hroute
  · have hcq : cq = cq' := Option.some.inj ((Finmap.lookup_insert _).symm.trans hroute)
    rw [← hcq, show item.owned.owner = sub from howner]
    exact h.subject cq sub hsubject

theorem answered (h : Placed P f) {cq : CqHandle} {sub : Submission} (st : CompletionQueueState)
    (event : CompletionEvent) (hsubject : f.subject = some (cq, sub)) :
    Placed P { f.push cq st ⟨event, sub⟩ with subject := none } :=
  { h with
    subject := fun _ _ hsub => (by cases hsub)
    pushes := h.pushes_append (h.subject _ _ hsubject) }

theorem requeue (h : Placed P f) {cq : CqHandle} {sub : Submission} {record : UapiRecord}
    (hsubject : f.subject = some (cq, sub)) (hrecord : record.payload.payload = ⟨cq, sub⟩) :
    Placed P { f with subject := none, waiting := f.waiting ++ [record] } :=
  { h with
    subject := fun _ _ hsub => (by cases hsub)
    waiting := h.waiting_append hrecord (h.subject _ _ hsubject) }

theorem giveUp (h : Placed P f) {cq : CqHandle} {sub : Submission} {failure : UapiRuntimeFailure}
    (hsubject : f.subject = some (cq, sub)) (hcq : failure.cq = cq) (hsub : failure.sub = sub) :
    Placed P { f with subject := none, failing := f.failing ++ [failure] } := by
  refine { h with
    subject := fun cq sub hsub => (by cases hsub)
    failing := fun failure hmem => ?_ }
  rcases List.mem_append.1 hmem with hmem | hmem
  · exact h.failing failure hmem
  · rw [List.mem_singleton.1 hmem, hcq, hsub]
    exact h.subject _ _ hsubject

theorem report (h : Placed P f) {failure : UapiRuntimeFailure} {rest : List UapiRuntimeFailure}
    (st : CompletionQueueState) (event : CompletionEvent) (hfailing : f.failing = failure :: rest) :
    Placed P { f.push failure.cq st ⟨event, failure.sub⟩ with failing := rest } :=
  { h with
    failing := fun _ hmem => h.failing _ (hfailing ▸ List.mem_cons_of_mem _ hmem)
    pushes := h.pushes_append (h.failing _ (hfailing ▸ List.mem_cons_self)) }

theorem poll (h : Placed P f) (hr : Routed f) {source : CompletionSource}
    {taken rest : List (QueuedCompletion Submission)} (hpolled : f.polled = [])
    (htaken : (f.services source).completions = taken ++ rest) :
    Placed P { f with
      services := Function.update f.services source ⟨rest, (f.services source).nextOpId⟩
      polled := taken.map (·.owned) } := by
  refine { h with inFlight := fun source entry hentry => h.inFlight source entry ?_ }
  rwa [hr.inFlight_poll hpolled htaken rfl rfl] at hentry

/-- A completion goes to the queue of its label, since it has a route. -/
theorem route (h : Placed P f) (hr : Routed f) {entry : Owned Submission}
    {rest : List (Owned Submission)} {cq : CqHandle} (st : CompletionQueueState)
    (hpolled : f.polled = entry :: rest) (hdest : f.Destination entry.event cq) :
    Placed P { (f.unroute entry).push cq st entry with polled := rest } := by
  obtain ⟨cq', hroute, hcq'⟩ := h.polled_route hr hpolled
  have hcqs : cq = cq' := by
    rcases hdest with hdest | hdest
    · exact Option.some.inj (hdest.symm.trans hroute)
    · rw [hdest] at hroute
      cases hroute
  subst hcqs
  refine { h with
    inFlight := fun source entry' hentry' cq' hroute' => ?_
    pushes := h.pushes_append hcq'
    routings := fun routing hmem => ?_ }
  · have hentry' : entry' ∈ f.inFlight source := Routed.mem_of_unroute hentry' hpolled rfl rfl
    exact h.inFlight source entry' hentry' cq' (lookup_of_erase hroute')
  · rcases List.mem_append.1 hmem with hmem | hmem
    · exact h.routings routing hmem
    · rw [List.mem_singleton.1 hmem]
      exact ⟨cq, hroute, hcq'⟩

/-- No completion is stranded: its label exists. -/
theorem not_stranded (h : Placed P f) (hr : Routed f) {entry : Owned Submission}
    {rest : List (Owned Submission)} (hpolled : f.polled = entry :: rest)
    (hlive : ∀ cq sub, P cq sub → f.cqs.lookup cq ≠ none) :
    ¬((∃ cq, f.routes.lookup entry.event.key = some cq ∧ f.cqs.lookup cq = none) ∨
      ∀ cq, f.cqs.lookup cq = none) := by
  obtain ⟨cq, hroute, hcq⟩ := h.polled_route hr hpolled
  rintro (⟨cq', hroute', hdead⟩ | hdead)
  · rw [hroute'] at hroute
    exact absurd (Option.some.inj hroute ▸ hdead) (hlive _ _ hcq)
  · exact absurd (hdead cq) (hlive _ _ hcq)

/-- Moves carry labels along; only `take` and `enter` make new ones. -/
theorem move (h : Placed P f) (hr : Routed f) (hs : Step drops f f')
    (htake : ∀ q st, f.queues.lookup q = some st → ∀ sub ∈ st.pending, P st.cq sub)
    (henter : ∀ cq st sub, f.cqs.lookup cq = some st → sub.queue = none →
      f'.tickets = f.tickets + 1 → f'.history = f.history → P cq sub)
    (hlive : ∀ cq sub, P cq sub → f.cqs.lookup cq ≠ none) : Placed P f' := by
  cases hs with
  | openCq owner => exact { h with }
  | openQueue depth hcq => exact { h with }
  | accept desc hq => exact { h with }
  | take hq hpending => exact h.take hpending (htake _ _ hq)
  | stage hbatch hrecord => exact h.stage hbatch hrecord
  | drop hdrops => exact { h with batch := fun cq sub hmem => (by cases hmem) }
  | gather hready =>
    exact { h with waiting := fun record hmem => (by cases hmem), ready := h.waiting }
  | pick hready hsubject => exact h.pick hready
  | enter desc hsubject hcq => exact h.enter (henter _ _ _ hcq rfl rfl rfl)
  | served hsubject hpolled hroom howner hkey hrows =>
    exact h.served hr _ hsubject hpolled hroom howner hkey
  | answered hsubject hcq hevent => exact h.answered _ _ hsubject
  | refuse hsubject => exact { h with }
  | requeue hsubject hrecord hrefused => exact h.requeue hsubject hrecord
  | giveUp hsubject hcq hsub => exact h.giveUp hsubject hcq hsub
  | forget hsubject hdirect => exact { h with subject := fun cq sub hsub => (by cases hsub) }
  | report hfailing hcq hevent => exact h.report _ _ hfailing
  | strandFailing hfailing hcq =>
    exact { h with failing := fun failure hmem => (by cases hmem) }
  | poll hpolled htaken => exact h.poll hr hpolled htaken
  | route hpolled hdest hcq => exact h.route hr _ hpolled hdest
  | strandPolled hpolled hnone => exact absurd hnone (h.not_stranded hr hpolled hlive)
  | handBack hcq htaken => exact { h with }

theorem step (h : Placed P f) (hr : Routed f) (hs : Step drops f f')
    (htake : ∀ q st, f.queues.lookup q = some st → ∀ sub ∈ st.pending, P st.cq sub)
    (henter : ∀ cq st sub, f.cqs.lookup cq = some st → sub.queue = none → P cq sub)
    (hlive : ∀ cq sub, P cq sub → f.cqs.lookup cq ≠ none) : Placed P f' :=
  h.move hr hs htake (fun cq st sub hcq hsub _ _ => henter cq st sub hcq hsub) hlive

end Placed

/-! ### History -/

structure Logged (f : Flow) : Prop where
  bindings : ∀ binding ∈ f.history.bindings, binding.overwritten = none
  events : ∀ cq st, f.cqs.lookup cq = some st → ∀ entry ∈ st.events,
    (cq, entry) ∈ f.history.pushes
  returns : ∀ r ∈ f.history.returns, (r.cq, r.entry) ∈ f.history.pushes ∧
    f.cqOwner r.cq = some r.owner

namespace Logged

theorem same (hl : Logged f) (hhistory : f'.history.bindings = f.history.bindings)
    (hpushes : f'.history.pushes = f.history.pushes)
    (hreturns : f'.history.returns = f.history.returns) (hcqs : f'.cqs = f.cqs) : Logged f' := by
  refine ⟨?_, ?_, ?_⟩
  · rw [hhistory]
    exact hl.bindings
  · rw [hcqs, hpushes]
    exact hl.events
  · rw [hreturns, hpushes]
    intro r hr
    rw [cqOwner, hcqs]
    exact hl.returns r hr

theorem push (hl : Logged f) {cq : CqHandle} {st : CompletionQueueState} {entry : Owned Submission}
    (hcq : f.cqs.lookup cq = some st) : Logged (f.push cq st entry) := by
  have hpush : ∀ x ∈ f.history.pushes, x ∈ (f.push cq st entry).history.pushes :=
    fun x hx => List.mem_append_left _ hx
  refine ⟨hl.bindings, fun cq' st' h entry' hentry' => ?_, fun r hr => ?_⟩
  · rcases lookup_insert_cases h with ⟨rfl, rfl⟩ | ⟨_, h⟩
    · rcases List.mem_append.1 hentry' with hentry' | hentry'
      · exact hpush _ (hl.events _ st hcq entry' hentry')
      · rw [List.mem_singleton.1 hentry']
        exact List.mem_append_right _ (List.mem_singleton_self _)
    · exact hpush _ (hl.events cq' st' h entry' hentry')
  · obtain ⟨hmem, howner⟩ := hl.returns r hr
    have hsame : ({ st with events := st.events ++ [entry] } : CompletionQueueState).owner =
        st.owner := rfl
    exact ⟨hpush _ hmem, (lookup_insert_map hcq (·.owner) hsame r.cq).trans howner⟩

theorem step (hl : Logged f) (hw : Wired f) (hr : Routed f) (hs : Step drops f f') :
    Logged f' := by
  have hext := (hw.step hs).1
  cases hs with
  | openCq owner =>
    refine ⟨hl.bindings, fun cq st h entry hentry => ?_, fun r hmem => ?_⟩
    · rcases lookup_insert_cases h with ⟨_, rfl⟩ | ⟨_, h⟩
      · cases hentry
      · exact hl.events cq st h entry hentry
    · obtain ⟨hpush, howner⟩ := hl.returns r hmem
      exact ⟨hpush, hext.cqOwner _ _ howner⟩
  | @served cq sub source item rows hsubject hpolled hroom howner hkey hrows =>
    refine ⟨fun binding hmem => ?_, hl.events, hl.returns⟩
    rcases List.mem_append.1 hmem with hmem | hmem
    · exact hl.bindings binding hmem
    · rw [List.mem_singleton.1 hmem]
      exact hr.serve_fresh hpolled hroom hkey
  | answered hsubject hcq hevent => exact (hl.push hcq).same rfl rfl rfl rfl
  | report hfailing hcq hevent => exact (hl.push hcq).same rfl rfl rfl rfl
  | @route entry rest cq st hpolled hdest hcq =>
    have hunroute : Logged (f.unroute entry) := hl.same rfl rfl rfl rfl
    exact (hunroute.push hcq).same rfl rfl rfl rfl
  | @handBack cq st taken rest hcq htaken =>
    have hsame : ({ st with events := rest } : CompletionQueueState).owner = st.owner := rfl
    refine ⟨hl.bindings, fun cq' st' h entry hentry => ?_, fun r hmem => ?_⟩
    · rcases lookup_insert_cases h with ⟨rfl, rfl⟩ | ⟨_, h⟩
      · exact hl.events _ st hcq entry (htaken ▸ List.mem_append_right _ hentry)
      · exact hl.events cq' st' h entry hentry
    · rcases List.mem_append.1 hmem with hmem | hmem
      · obtain ⟨hpush, howner⟩ := hl.returns r hmem
        exact ⟨hpush, hext.cqOwner _ _ howner⟩
      · obtain ⟨entry, hentry, rfl⟩ := List.mem_map.1 hmem
        refine ⟨hl.events cq st hcq entry (htaken ▸ List.mem_append_left _ hentry), ?_⟩
        exact (lookup_insert_map hcq (·.owner) hsame cq).trans (cqOwner_eq hcq)
  | _ => exact hl.same rfl rfl rfl rfl

end Logged

/-! ### The invariant -/

structure Isolated (f : Flow) : Prop where
  wired : Wired f
  routed : Routed f
  placed : Placed f.Proper f
  logged : Logged f

theorem Proper.live {cq : CqHandle} {sub : Submission} (h : f.Proper cq sub) :
    f.cqs.lookup cq ≠ none := by
  intro hnone
  have := h.1
  rw [cqOwner, hnone] at this
  cases this

namespace Isolated

/-- The completion queue that a route names exists. -/
theorem route_live (h : Isolated f) {key : RuntimeCompletionKey} {cq : CqHandle}
    (hroute : f.routes.lookup key = some cq) : f.cqs.lookup cq ≠ none := by
  obtain ⟨entry, hentry, hkey⟩ := h.routed.issued key (Option.isSome_iff_exists.2 ⟨cq, hroute⟩)
  exact (h.placed.inFlight _ entry hentry cq (hkey ▸ hroute)).live

/-- **Every move keeps the submissions isolated.** -/
theorem step (h : Isolated f) (hs : Step drops f f') : Isolated f' := by
  obtain ⟨hext, hwired⟩ := h.wired.step hs
  have hplaced : Placed f.Proper f' := by
    refine h.placed.step h.routed hs (fun q st hq sub hsub => ?_) (fun cq st sub hcq hsub => ?_)
      fun cq sub hproper => hproper.live
    · refine ⟨Option.isSome_iff_exists.2 ⟨_, h.wired.owners q st hq⟩, fun q' hq' => ?_⟩
      rw [h.wired.pending q st hq sub hsub] at hq'
      cases hq'
      exact boundCq_eq hq
    · refine ⟨Option.isSome_iff_exists.2 ⟨_, cqOwner_eq hcq⟩, ?_⟩
      intro q hq
      rw [hsub] at hq
      cases hq
  exact ⟨hwired, h.routed.step hs fun _ _ => h.route_live,
    hplaced.imp fun _ _ => Proper.mono hext, h.logged.step h.wired h.routed hs⟩

end Isolated

end Flow

namespace LocalGuestUapiSurface

open Flow (Isolated)

theorem initial_inFlight (config : Config) (source : CompletionSource) :
    (withProfilesAndRuntimePolicy config).flow.inFlight source = [] := by
  cases source <;> rfl

theorem initial_isolated (config : Config) :
    Isolated (withProfilesAndRuntimePolicy config).flow := by
  have hqueues : (withProfilesAndRuntimePolicy config).flow.queues = ∅ := rfl
  have hcqs : (withProfilesAndRuntimePolicy config).flow.cqs = ∅ := rfl
  have hroutes : (withProfilesAndRuntimePolicy config).flow.routes = ∅ := rfl
  refine ⟨⟨?_, ?_, ?_, ?_⟩, ⟨?_, ?_, ?_, ?_, ?_⟩, ⟨?_, ?_, ?_, ?_, ?_, ?_, ?_, ?_⟩, ⟨?_, ?_, ?_⟩⟩
  · simp [hcqs]
  · simp [hqueues]
  · simp [hqueues]
  · simp [hqueues]
  · intro source item hitem
    cases source <;> cases hitem
  · intro source
    rw [initial_inFlight]
    trivial
  · simp [initial_inFlight]
  · simp [initial_inFlight]
  · simp [hroutes]
  · exact fun cq sub h => (by cases h)
  · exact fun record h => (by cases h)
  · exact fun record h => (by cases h)
  · exact fun cq sub h => (by cases h)
  · exact fun failure h => (by cases h)
  · simp [initial_inFlight]
  · exact fun cq entry h => (by cases h)
  · exact fun routing h => (by cases h)
  · exact fun binding h => (by cases h)
  · simp [hcqs]
  · exact fun r h => (by cases h)

theorem run_isolated (config : Config) (cmds : List UapiCommand) :
    Isolated ((withProfilesAndRuntimePolicy config).run cmds).flow :=
  run_invariant (fun _ _ h hs => h.step hs) (initial_isolated config) cmds

/-- The keys of the operations in flight. -/
def inFlightKeys (s : LocalGuestUapiSurface) : List RuntimeCompletionKey :=
  (s.blockService.completions ++ s.shmemService.completions ++ s.dfsService.completions ++
    s.dbService.completions).map (·.event.key)

theorem flow_inFlight (s : LocalGuestUapiSurface) (source : CompletionSource) :
    s.flow.inFlight source = (s.services source).completions.map (·.owned) := rfl

theorem inFlightKeys_nodup {s : LocalGuestUapiSurface} (h : Isolated s.flow) :
    s.inFlightKeys.Nodup := by
  have hkeys : ∀ source, ((s.services source).completions.map (·.event.key)).Nodup := by
    intro source
    have hids := h.routed.ids_nodup source
    rw [flow_inFlight, List.map_map] at hids
    refine List.Nodup.of_map RuntimeCompletionKey.opId ?_
    rw [List.map_map]
    exact hids
  have hdisjoint : ∀ source source', source ≠ source' →
      ∀ key ∈ (s.services source).completions.map (·.event.key),
        key ∉ (s.services source').completions.map (·.event.key) := by
    intro source source' hne key hkey hkey'
    obtain ⟨item, hitem, rfl⟩ := List.mem_map.1 hkey
    obtain ⟨item', hitem', heq⟩ := List.mem_map.1 hkey'
    refine hne ?_
    rw [← h.routed.sources source item hitem, ← h.routed.sources source' item' hitem']
    exact (congrArg RuntimeCompletionKey.source heq).symm
  have hsplit : s.inFlightKeys =
      [CompletionSource.blockService, .shmemService, .dfsService, .dbService].flatMap
        fun source => (s.services source).completions.map (·.event.key) := by
    simp [inFlightKeys, services]
  rw [hsplit, List.nodup_flatMap]
  refine ⟨fun source _ => hkeys source, ?_⟩
  have hsources : [CompletionSource.blockService, .shmemService, .dfsService, .dbService].Nodup := by
    decide
  exact hsources.imp fun hne key => hdisjoint _ _ hne key

end LocalGuestUapiSurface

end LinquUb
