import LinquUb.Uapi.Conservation

/-!
# The order of effects

`line q` lists the submissions of the command queue `q` that have neither been served nor refused,
in the order in which they will be picked.

* `Ordered` : the line is in the order of tickets, and everything that has left it is older;
* `Effected` : completions come from effects, and the database answers in the order of effects;
* `effects_in_order` : **submissions of one queue take effect in the order in which they were
  enqueued, but one that a full service has refused can be overtaken**;
* `get_overtakes_put` : a refused put is overtaken by a later get of the same key.
-/

namespace LinquUb

namespace Flow

variable {f f' : Flow} {drops : Prop}

/-- The submission came through `q` and has not been refused. -/
def Waits (f : Flow) (q : CmdQueueHandle) (sub : Submission) : Prop :=
  sub.queue = some q ∧ sub ∉ f.history.refused

instance (f : Flow) (q : CmdQueueHandle) : DecidablePred (f.Waits q) :=
  fun _ => inferInstanceAs (Decidable (_ ∧ _))

/-- All submissions on their way to a service, the next one first; `q` is the command queue that is
looked at. -/
def way (f : Flow) (q : CmdQueueHandle) : List Submission :=
  f.subject.toList.map (·.2) ++ f.ready.map (·.payload.payload.sub) ++
    f.waiting.map (·.payload.payload.sub) ++ f.batch.map (·.2) ++ f.pendingOf q

def line (f : Flow) (q : CmdQueueHandle) : List Submission := (f.way q).filter (f.Waits q)

theorem mem_line {q : CmdQueueHandle} {sub : Submission} :
    sub ∈ f.line q ↔ sub ∈ f.way q ∧ f.Waits q sub := by
  simp [line, List.mem_filter]

/-- The order of the tickets: the line is sorted, what has left it is older, and tickets that have
not been given out are nowhere. -/
structure Ordered (f : Flow) : Prop where
  line : ∀ q, (f.line q).Pairwise fun x y => x.ticket < y.ticket
  served : ∀ q, ∀ x ∈ f.line q, ∀ entry ∈ f.history.effects, entry.owner.queue = some q →
    entry.owner.ticket < x.ticket
  refused : ∀ q, ∀ x ∈ f.line q, ∀ y ∈ f.history.refused, y.queue = some q → y.ticket < x.ticket
  effects : f.history.effects.Pairwise fun entry later => ∀ q, entry.owner.queue = some q →
    later.owner.queue = some q → later.owner.ticket ≤ entry.owner.ticket →
      later.owner ∈ f.history.refused
  accepted : f.history.accepted.Pairwise fun x y => x.ticket < y.ticket
  wayBounded : ∀ q, ∀ x ∈ f.way q, x.ticket < f.tickets
  effectsBounded : ∀ entry ∈ f.history.effects, entry.owner.ticket < f.tickets
  refusedBounded : ∀ x ∈ f.history.refused, x.ticket < f.tickets
  acceptedBounded : ∀ x ∈ f.history.accepted, x.ticket < f.tickets

namespace Ordered

/-- Leaving the line does no harm. -/
theorem shrink (h : Ordered f) (hline : ∀ q, (f'.line q).Sublist (f.line q))
    (hway : ∀ q, ∀ x ∈ f'.way q, ∃ q', x ∈ f.way q') (htickets : f'.tickets = f.tickets)
    (heffects : f'.history.effects = f.history.effects)
    (hrefused : f'.history.refused = f.history.refused)
    (haccepted : f'.history.accepted = f.history.accepted) : Ordered f' := by
  refine ⟨fun q => (h.line q).sublist (hline q),
    fun q x hx => heffects ▸ h.served q x ((hline q).subset hx),
    fun q x hx => hrefused ▸ h.refused q x ((hline q).subset hx), ?_, haccepted ▸ h.accepted,
    fun q x hx => ?_, ?_, ?_, ?_⟩
  · rw [heffects, hrefused]
    exact h.effects
  · obtain ⟨q', hx⟩ := hway q x hx
    exact htickets ▸ h.wayBounded q' x hx
  · rw [heffects, htickets]
    exact h.effectsBounded
  · rw [hrefused, htickets]
    exact h.refusedBounded
  · rw [haccepted, htickets]
    exact h.acceptedBounded

/-- The way shrinks and nothing new is refused. -/
theorem shrink_way (h : Ordered f) (hway : ∀ q, (f'.way q).Sublist (f.way q))
    (htickets : f'.tickets = f.tickets) (heffects : f'.history.effects = f.history.effects)
    (hrefused : f'.history.refused = f.history.refused)
    (haccepted : f'.history.accepted = f.history.accepted) : Ordered f' := by
  refine h.shrink (fun q => ?_) (fun q x hx => ⟨q, (hway q).subset hx⟩) htickets heffects hrefused
    haccepted
  have hwaits : f'.Waits q = f.Waits q := by
    funext sub
    simp only [Waits, hrefused]
  simp only [Flow.line, hwaits]
  exact (hway q).filter _

theorem same_way (h : Ordered f) (hway : ∀ q, f'.way q = f.way q) (htickets : f'.tickets = f.tickets)
    (heffects : f'.history.effects = f.history.effects)
    (hrefused : f'.history.refused = f.history.refused)
    (haccepted : f'.history.accepted = f.history.accepted) : Ordered f' :=
  h.shrink_way (fun q => hway q ▸ .refl _) htickets heffects hrefused haccepted

/-- The subject is the first in the line. -/
theorem line_subject {cq : CqHandle} {sub : Submission} {q : CmdQueueHandle}
    (hsubject : f.subject = some (cq, sub)) (hwaits : f.Waits q sub) :
    f.line q = sub :: ({ f with subject := none } : Flow).line q := by
  have hfilter : ({ f with subject := none } : Flow).Waits q = f.Waits q := rfl
  simp [Flow.line, way, hsubject, hwaits, hfilter, pendingOf]

/-- A submission that enters its command queue goes to the end of the line. -/
theorem accept (h : Ordered f) {q : CmdQueueHandle} {st : CommandQueueState}
    (desc : UapiDescriptor) (hq : f.queues.lookup q = some st) :
    Ordered { f with
      tickets := f.tickets + 1
      queues := Finmap.insert q
        { st with pending := st.pending ++ [⟨desc, f.tickets, some q⟩] } f.queues
      history := { f.history with
        accepted := f.history.accepted ++ [⟨desc, f.tickets, some q⟩] } } := by
  set sub : Submission := ⟨desc, f.tickets, some q⟩ with hsub
  set f' : Flow := { f with
    tickets := f.tickets + 1
    queues := Finmap.insert q { st with pending := st.pending ++ [sub] } f.queues
    history := { f.history with accepted := f.history.accepted ++ [sub] } } with hf'
  have hfresh : sub ∉ f.history.refused := by
    intro hmem
    exact Nat.lt_irrefl _ (h.refusedBounded sub hmem)
  have hway : f'.way q = f.way q ++ [sub] := by
    simp [way, pendingOf, hf', hq]
  have hother : ∀ q', q' ≠ q → f'.way q' = f.way q' := by
    intro q' hne
    simp [way, pendingOf, hf', Finmap.lookup_insert_of_ne _ hne]
  have hwaits : f'.Waits = f.Waits := rfl
  have hline : f'.line q = f.line q ++ [sub] := by
    have hsubWaits : f.Waits q sub := ⟨rfl, hfresh⟩
    simp [Flow.line, hway, hwaits, hsubWaits]
  have hlineOther : ∀ q', q' ≠ q → f'.line q' = f.line q' := by
    intro q' hne
    simp only [Flow.line, hother q' hne, hwaits]
  have hmem : ∀ q', ∀ x ∈ f'.line q', x ∈ f.line q' ∨ q' = q ∧ x = sub := by
    intro q' x hx
    by_cases hne : q' = q
    · subst hne
      rw [hline] at hx
      exact (List.mem_append.1 hx).imp_right fun hx => ⟨rfl, List.mem_singleton.1 hx⟩
    · exact .inl (hlineOther q' hne ▸ hx)
  refine ⟨fun q' => ?_, fun q' x hx entry hentry hqueue => ?_, fun q' x hx y hy hqueue => ?_,
    h.effects, ?_, fun q' x hx => ?_, fun entry hentry => Nat.lt_succ_of_lt (h.effectsBounded _ hentry),
    fun x hx => Nat.lt_succ_of_lt (h.refusedBounded x hx), fun x hx => ?_⟩
  · by_cases hne : q' = q
    · subst hne
      rw [hline, List.pairwise_append]
      refine ⟨h.line q', List.pairwise_singleton _ _, fun x hx y hy => ?_⟩
      rw [List.mem_singleton.1 hy]
      exact h.wayBounded q' x (mem_line.1 hx).1
    · rw [hlineOther q' hne]
      exact h.line q'
  · rcases hmem q' x hx with hx | ⟨_, rfl⟩
    · exact h.served q' x hx entry hentry hqueue
    · exact h.effectsBounded entry hentry
  · rcases hmem q' x hx with hx | ⟨_, rfl⟩
    · exact h.refused q' x hx y hy hqueue
    · exact h.refusedBounded y hy
  · rw [show f'.history.accepted = f.history.accepted ++ [sub] from rfl, List.pairwise_append]
    refine ⟨h.accepted, List.pairwise_singleton _ _, fun x hx y hy => ?_⟩
    rw [List.mem_singleton.1 hy]
    exact h.acceptedBounded x hx
  · by_cases hne : q' = q
    · subst hne
      rw [hway] at hx
      rcases List.mem_append.1 hx with hx | hx
      · exact Nat.lt_succ_of_lt (h.wayBounded q' x hx)
      · rw [List.mem_singleton.1 hx]
        exact Nat.lt_succ_self _
    · rw [hother q' hne] at hx
      exact Nat.lt_succ_of_lt (h.wayBounded q' x hx)
  · rcases List.mem_append.1 hx with hx | hx
    · exact Nat.lt_succ_of_lt (h.acceptedBounded x hx)
    · rw [List.mem_singleton.1 hx]
      exact Nat.lt_succ_self _

/-- Serving the subject: it was the first in the line, or has been refused before. -/
theorem serve (h : Ordered f) {cq : CqHandle} {sub : Submission} {source : CompletionSource}
    {item : QueuedCompletion Submission} {rows : Finmap fun _ : String => UInt64}
    (hsubject : f.subject = some (cq, sub)) (howner : item.owner = sub) :
    Ordered { f.serve source cq item rows with subject := none } := by
  set f' : Flow := { f.serve source cq item rows with subject := none } with hf'
  have heffects : f'.history.effects = f.history.effects ++ [item.owned] := rfl
  have hfirst : ∀ q, sub.queue = some q → sub ∉ f.history.refused →
      f.line q = sub :: f'.line q :=
    fun q hqueue hrefused => line_subject hsubject ⟨hqueue, hrefused⟩
  have hway : ∀ q, (f'.way q).Sublist (f.way q) := by
    intro q
    simp only [way, hf', Flow.serve, pendingOf, hsubject, Option.toList_none, List.map_nil,
      List.nil_append, Option.toList_some, List.map_cons, List.cons_append]
    exact List.sublist_cons_self _ _
  have hline : ∀ q, (f'.line q).Sublist (f.line q) := fun q => (hway q).filter _
  refine ⟨fun q => (h.line q).sublist (hline q), fun q x hx entry hentry hqueue => ?_,
    fun q x hx => h.refused q x ((hline q).subset hx), ?_, h.accepted,
    fun q x hx => h.wayBounded q x ((hway q).subset hx), fun entry hentry => ?_, h.refusedBounded,
    h.acceptedBounded⟩
  · rcases List.mem_append.1 hentry with hentry | hentry
    · exact h.served q x ((hline q).subset hx) entry hentry hqueue
    · rw [List.mem_singleton.1 hentry] at hqueue ⊢
      have hqueue : sub.queue = some q := howner ▸ hqueue
      rw [show item.owned.owner = sub from howner]
      by_cases hrefused : sub ∈ f.history.refused
      · exact h.refused q x ((hline q).subset hx) sub hrefused hqueue
      · have hsorted := h.line q
        rw [hfirst q hqueue hrefused] at hsorted
        exact List.rel_of_pairwise_cons hsorted hx
  · rw [heffects, List.pairwise_append]
    refine ⟨h.effects, List.pairwise_singleton _ _, fun entry hentry later hlater q hqueue hqueue'
      hle => ?_⟩
    rw [List.mem_singleton.1 hlater, show item.owned.owner = sub from howner] at hqueue' hle ⊢
    by_contra hrefused
    have hmem : sub ∈ f.line q := hfirst q hqueue' hrefused ▸ List.mem_cons_self
    exact Nat.lt_irrefl _ (Nat.lt_of_lt_of_le (h.served q sub hmem entry hentry hqueue) hle)
  · rcases List.mem_append.1 hentry with hentry | hentry
    · exact h.effectsBounded entry hentry
    · rw [List.mem_singleton.1 hentry, show item.owned.owner = sub from howner]
      refine h.wayBounded ⟨0⟩ sub ?_
      simp [way, hsubject]

/-- Refusing the subject takes it out of the line. -/
theorem refuse (h : Ordered f) {cq : CqHandle} {sub : Submission}
    (hsubject : f.subject = some (cq, sub)) :
    Ordered { f with history := { f.history with refused := f.history.refused ++ [sub] } } := by
  set f' : Flow :=
    { f with history := { f.history with refused := f.history.refused ++ [sub] } } with hf'
  have hrefused : ∀ x, x ∈ f'.history.refused ↔ x ∈ f.history.refused ∨ x = sub := by
    intro x
    rw [show f'.history.refused = f.history.refused ++ [sub] from rfl, List.mem_append,
      List.mem_singleton]
  have hway : f'.way = f.way := rfl
  have hline : ∀ q, (f'.line q).Sublist (f.line q) := by
    intro q
    refine List.monotone_filter_right _ fun x hx => ?_
    obtain ⟨hqueue, hnot⟩ := of_decide_eq_true hx
    exact decide_eq_true ⟨hqueue, fun hmem => hnot ((hrefused x).2 (.inl hmem))⟩
  have hsub : sub.ticket < f.tickets := by
    refine h.wayBounded ⟨0⟩ sub ?_
    simp [way, hsubject]
  refine ⟨fun q => (h.line q).sublist (hline q), fun q x hx => h.served q x ((hline q).subset hx),
    fun q x hx y hy hqueue => ?_, ?_, h.accepted, h.wayBounded, h.effectsBounded, fun x hx => ?_,
    h.acceptedBounded⟩
  · have hxline := (hline q).subset hx
    by_cases hold : y ∈ f.history.refused
    · exact h.refused q x hxline y hold hqueue
    · have heq : y = sub := ((hrefused y).1 hy).resolve_left hold
      subst heq
      have hfirst := line_subject hsubject ⟨hqueue, hold⟩
      have hne : x ≠ y := fun heq => (mem_line.1 hx).2.2 ((hrefused x).2 (.inr heq))
      have hsorted := h.line q
      rw [hfirst] at hxline hsorted
      exact List.rel_of_pairwise_cons hsorted ((List.mem_cons.1 hxline).resolve_left hne)
  · refine h.effects.imp fun himp q hqueue hqueue' hle => ?_
    exact (hrefused _).2 (.inl (himp q hqueue hqueue' hle))
  · rcases (hrefused x).1 hx with hx | rfl
    · exact h.refusedBounded x hx
    · exact hsub

/-- A doorbell takes the first of the pending submissions; other queues do not see it. -/
theorem take (h : Ordered f) (hw : Wired f) {q : CmdQueueHandle} {st : CommandQueueState}
    {sub : Submission} {rest : List Submission} (hq : f.queues.lookup q = some st)
    (hpending : st.pending = sub :: rest) :
    Ordered { f with
      queues := Finmap.insert q { st with pending := rest } f.queues
      batch := f.batch ++ [(st.cq, sub)] } := by
  set f' : Flow := { f with
    queues := Finmap.insert q { st with pending := rest } f.queues
    batch := f.batch ++ [(st.cq, sub)] } with hf'
  have hqueue : sub.queue = some q :=
    hw.pending q st hq sub (hpending ▸ List.mem_cons_self)
  have hway : f'.way q = f.way q := by
    simp [way, pendingOf, hf', hq, hpending]
  have hmem : sub ∈ f.way q := by
    simp [way, pendingOf, hq, hpending]
  refine h.shrink (fun q' => ?_) (fun q' x hx => ?_) rfl rfl rfl rfl
  · by_cases hne : q' = q
    · subst hne
      have hline : f'.line q' = f.line q' := congrArg (List.filter _) hway
      exact hline ▸ .refl _
    · have hnot : ¬f.Waits q' sub := fun hwaits =>
        hne (Option.some.inj (hwaits.1.symm.trans hqueue))
      have hway' : f'.way q' = f.subject.toList.map (·.2) ++ f.ready.map (·.payload.payload.sub) ++
          f.waiting.map (·.payload.payload.sub) ++ (f.batch.map (·.2) ++ [sub]) ++
          f.pendingOf q' := by
        simp [way, pendingOf, hf', Finmap.lookup_insert_of_ne _ hne]
      have hline : (f'.way q').filter (f.Waits q') = f.line q' := by
        rw [hway']
        simp [Flow.line, way, hnot]
      exact hline ▸ .refl _
  · by_cases hne : q' = q
    · subst hne
      exact ⟨q', hway ▸ hx⟩
    · have hx : x ∈ f.way q' ∨ x = sub := by
        simp only [way, pendingOf, hf', Finmap.lookup_insert_of_ne _ hne, List.map_append,
          List.map_singleton, List.mem_append, List.mem_singleton] at hx ⊢
        tauto
      rcases hx with hx | rfl
      · exact ⟨q', hx⟩
      · exact ⟨q, hmem⟩

/-- A direct submission is in nobody's line. -/
theorem enter (h : Ordered f) (cq : CqHandle) (desc : UapiDescriptor) (hsubject : f.subject = none) :
    Ordered { f with
      tickets := f.tickets + 1
      subject := some (cq, ⟨desc, f.tickets, none⟩) } := by
  set sub : Submission := ⟨desc, f.tickets, none⟩ with hsub
  set f' : Flow := { f with
    tickets := f.tickets + 1
    subject := some (cq, sub) } with hf'
  have hway : ∀ q, f'.way q = sub :: f.way q := by
    intro q
    simp [way, pendingOf, hf', hsubject]
  have hline : f'.line = f.line := by
    funext q
    have hnot : ¬f.Waits q sub := fun hwaits => (by cases hwaits.1)
    have hwaits : f'.Waits = f.Waits := rfl
    simp [Flow.line, hway, hwaits, hnot]
  refine ⟨hline ▸ h.line, hline ▸ h.served, hline ▸ h.refused, h.effects, h.accepted,
    fun q x hx => ?_, fun entry hentry => Nat.lt_succ_of_lt (h.effectsBounded _ hentry),
    fun x hx => Nat.lt_succ_of_lt (h.refusedBounded x hx),
    fun x hx => Nat.lt_succ_of_lt (h.acceptedBounded x hx)⟩
  rw [hway] at hx
  rcases List.mem_cons.1 hx with rfl | hx
  · exact Nat.lt_succ_self _
  · exact Nat.lt_succ_of_lt (h.wayBounded q x hx)

/-- A refused submission goes back to the runtime queue, but not to the line. -/
theorem requeue (h : Ordered f) {cq : CqHandle} {sub : Submission} {record : UapiRecord}
    (hsubject : f.subject = some (cq, sub)) (hrecord : record.payload.payload = ⟨cq, sub⟩)
    (hrefused : sub ∈ f.history.refused) :
    Ordered { f with subject := none, waiting := f.waiting ++ [record] } := by
  set f' : Flow := { f with subject := none, waiting := f.waiting ++ [record] } with hf'
  refine h.shrink (fun q => ?_) (fun q x hx => ⟨q, ?_⟩) rfl rfl rfl rfl
  · have hnot : ¬f.Waits q sub := fun hwaits => hwaits.2 hrefused
    have hline : (f'.way q).filter (f.Waits q) = f.line q := by
      simp [Flow.line, way, pendingOf, hf', hsubject, hrecord, hnot]
    exact hline ▸ .refl _
  · simp only [way, pendingOf, hf', hsubject, hrecord, Option.toList_none, Option.toList_some,
      List.map_nil, List.map_append, List.map_singleton, List.mem_append, List.mem_singleton] at hx ⊢
    tauto

theorem step (h : Ordered f) (hw : Wired f) (hs : Step drops f f') : Ordered f' := by
  cases hs with
  | openQueue depth hcq =>
    refine h.same_way (fun q => ?_) rfl rfl rfl rfl
    exact congrArg _ (pendingOf_openQueue hw rfl q)
  | accept desc hq => exact h.accept desc hq
  | take hq hpending => exact h.take hw hq hpending
  | stage hbatch hrecord =>
    refine h.same_way (fun q => ?_) rfl rfl rfl rfl
    simp [way, pendingOf, hbatch, hrecord]
  | drop hdrops =>
    refine h.shrink_way (fun q => ?_) rfl rfl rfl rfl
    simp only [way, pendingOf, List.map_nil, List.append_nil]
    exact List.Sublist.append (List.sublist_append_left _ _) (.refl _)
  | gather hready =>
    refine h.same_way (fun q => ?_) rfl rfl rfl rfl
    simp [way, pendingOf, hready]
  | pick hready hsubject =>
    refine h.same_way (fun q => ?_) rfl rfl rfl rfl
    simp [way, pendingOf, hready, hsubject]
  | enter desc hsubject hcq => exact h.enter _ desc hsubject
  | served hsubject hpolled hroom howner hkey hrows => exact h.serve hsubject howner
  | answered hsubject hcq hevent =>
    refine h.shrink_way (fun q => ?_) rfl rfl rfl rfl
    simp [way, pendingOf, Flow.push, hsubject]
  | refuse hsubject => exact h.refuse hsubject
  | requeue hsubject hrecord hrefused => exact h.requeue hsubject hrecord hrefused
  | giveUp hsubject hcq hsub =>
    refine h.shrink_way (fun q => ?_) rfl rfl rfl rfl
    simp [way, pendingOf, hsubject]
  | forget hsubject hdirect =>
    refine h.shrink_way (fun q => ?_) rfl rfl rfl rfl
    simp [way, pendingOf, hsubject]
  | _ => exact h.same_way (fun _ => rfl) rfl rfl rfl rfl

end Ordered

/-! ### Completions and effects -/

/-- Every completion that a service has made is an effect, and the database answers from the
effects before. -/
structure Effected (f : Flow) : Prop where
  services : ∀ source, ∀ item ∈ (f.services source).completions, item.owned ∈ f.history.effects
  polled : ∀ entry ∈ f.polled, entry ∈ f.history.effects
  pushes : ∀ cq entry, (cq, entry) ∈ f.history.pushes →
    entry ∈ f.history.effects ∨ Unserved entry.event
  stored : ∀ entry ∈ f.history.effects, ∀ req, entry.owner.desc = .dbPut req →
    entry.event.status = .success → (f.rows.lookup req.key).isSome
  misses : f.history.effects.Pairwise fun put get => ∀ putReq getReq,
    put.owner.desc = .dbPut putReq → put.event.status = .success →
    get.owner.desc = .dbGet getReq → get.event.status = .retryableFailure "db_missing_key" →
    putReq.key ≠ getReq.key

namespace Effected

/-- Pushing a completion that is an effect, or comes from no service. -/
theorem pushes_append (h : Effected f) {cq : CqHandle} {entry : Owned Submission}
    (hentry : entry ∈ f.history.effects ∨ Unserved entry.event) :
    ∀ cq' entry', (cq', entry') ∈ f.history.pushes ++ [(cq, entry)] →
      entry' ∈ f.history.effects ∨ Unserved entry'.event := by
  intro cq' entry' hmem
  rcases List.mem_append.1 hmem with hmem | hmem
  · exact h.pushes cq' entry' hmem
  · obtain ⟨_, rfl⟩ := Prod.mk.inj (List.mem_singleton.1 hmem)
    exact hentry

/-- A service answers: what it stored before is there, and what it misses was not stored. -/
theorem serve (h : Effected f) {source : CompletionSource} {item : QueuedCompletion Submission}
    {rows : Finmap fun _ : String => UInt64} (hrows : Serves f.rows rows item.owned)
    (cq : CqHandle) : Effected (f.serve source cq item rows) := by
  have hold : ∀ entry ∈ f.history.effects, entry ∈ f.history.effects ++ [item.owned] :=
    fun entry hentry => List.mem_append_left _ hentry
  refine ⟨fun other item' hitem' => ?_, fun entry hentry => hold _ (h.polled entry hentry),
    fun cq' entry hpush => (h.pushes cq' entry hpush).imp_left (hold _), ?_, ?_⟩
  · by_cases hne : other = source
    · subst hne
      simp only [Flow.serve, Function.update_self] at hitem'
      rcases List.mem_append.1 hitem' with hitem' | hitem'
      · exact hold _ (h.services other item' hitem')
      · rw [List.mem_singleton.1 hitem']
        exact List.mem_append_right _ (List.mem_singleton_self _)
    · simp only [Flow.serve, Function.update_of_ne hne] at hitem'
      exact hold _ (h.services other item' hitem')
  · intro entry hentry req hdesc hsuccess
    rcases List.mem_append.1 hentry with hentry | hentry
    · exact hrows.grows _ (h.stored entry hentry req hdesc hsuccess)
    · rw [List.mem_singleton.1 hentry] at hdesc hsuccess
      exact hrows.stores req hdesc hsuccess
  · show List.Pairwise _ (f.history.effects ++ [item.owned])
    rw [List.pairwise_append]
    refine ⟨h.misses, List.pairwise_singleton _ _, fun put hput get hget putReq getReq hputDesc
      hsuccess hgetDesc hmissing hkey => ?_⟩
    rw [List.mem_singleton.1 hget] at hgetDesc hmissing
    have hstored := h.stored put hput putReq hputDesc hsuccess
    rw [hkey, hrows.misses getReq hgetDesc hmissing] at hstored
    cases hstored

theorem step (h : Effected f) (hs : Step drops f f') : Effected f' := by
  cases hs with
  | served hsubject hpolled hroom howner hkey hrows => exact { h.serve hrows _ with }
  | answered hsubject hcq hevent => exact { h with pushes := h.pushes_append (.inr hevent) }
  | report hfailing hcq hevent => exact { h with pushes := h.pushes_append (.inr hevent) }
  | @poll source taken rest hpolled htaken =>
    refine { h with services := fun other item hitem => ?_, polled := fun entry hentry => ?_ }
    · by_cases hne : other = source
      · subst hne
        simp only [Function.update_self] at hitem
        exact h.services other item (htaken ▸ List.mem_append_right _ hitem)
      · simp only [Function.update_of_ne hne] at hitem
        exact h.services other item hitem
    · obtain ⟨item, hitem, rfl⟩ := List.mem_map.1 hentry
      exact h.services source item (htaken ▸ List.mem_append_left _ hitem)
  | @route entry rest cq st hpolled hdest hcq =>
    exact { h with
      polled := fun entry' hentry' => h.polled entry' (hpolled ▸ List.mem_cons_of_mem _ hentry')
      pushes := h.pushes_append (.inl (h.polled entry (hpolled ▸ List.mem_cons_self))) }
  | strandPolled hpolled hnone =>
    exact { h with polled := fun entry hentry => (by cases hentry) }
  | _ => exact { h with }

end Effected

end Flow

namespace LocalGuestUapiSurface

open Flow (Isolated Ordered Effected)

theorem initial_ordered (config : Config) :
    Ordered (withProfilesAndRuntimePolicy config).flow := by
  have hway : ∀ q, (withProfilesAndRuntimePolicy config).flow.way q = [] := fun _ => rfl
  have hline : ∀ q, (withProfilesAndRuntimePolicy config).flow.line q = [] := fun _ => rfl
  refine ⟨fun q => ?_, fun q x hx => ?_, fun q x hx => ?_, List.Pairwise.nil, List.Pairwise.nil,
    fun q x hx => ?_, fun entry h => (by cases h), fun x h => (by cases h),
    fun x h => (by cases h)⟩
  · rw [hline]
    exact List.Pairwise.nil
  · rw [hline] at hx
    cases hx
  · rw [hline] at hx
    cases hx
  · rw [hway] at hx
    cases hx

theorem initial_effected (config : Config) :
    Effected (withProfilesAndRuntimePolicy config).flow := by
  refine ⟨fun source item hitem => ?_, fun entry h => (by cases h), fun cq entry h => (by cases h),
    fun entry h => (by cases h), List.Pairwise.nil⟩
  cases source <;> cases hitem

theorem run_ordered (config : Config) (cmds : List UapiCommand) :
    Ordered ((withProfilesAndRuntimePolicy config).run cmds).flow := by
  have hstep : ∀ f f', Isolated f ∧ Ordered f → Flow.Step True f f' → Isolated f' ∧ Ordered f' :=
    fun _ _ ⟨hi, ho⟩ hs => ⟨hi.step hs, ho.step hi.wired hs⟩
  exact (run_invariant hstep ⟨initial_isolated config, initial_ordered config⟩ cmds).2

theorem run_effected (config : Config) (cmds : List UapiCommand) :
    Effected ((withProfilesAndRuntimePolicy config).run cmds).flow :=
  run_invariant (fun _ _ h hs => h.step hs) (initial_effected config) cmds

/-- **Submissions of one queue take effect in the order in which they were enqueued**, except that a
submission which its service has refused can be overtaken.  So a get misses a key that was put
before it on the same queue only if the put was refused. -/
theorem effects_in_order (config : Config) (cmds : List UapiCommand) :
    let s := (withProfilesAndRuntimePolicy config).run cmds
    s.history.accepted.Pairwise (fun x y => x.ticket < y.ticket) ∧
    s.history.effects.Pairwise (fun entry later => ∀ q, entry.owner.queue = some q →
      later.owner.queue = some q → later.owner.ticket < entry.owner.ticket →
        later.owner ∈ s.history.refused) ∧
    ∀ cq get, (cq, get) ∈ s.history.pushes → ∀ put ∈ s.history.effects, ∀ q putReq getReq,
      put.owner.queue = some q → get.owner.queue = some q →
      put.owner.desc = .dbPut putReq → get.owner.desc = .dbGet getReq →
      putReq.key = getReq.key → put.owner.ticket < get.owner.ticket →
      put.event.status = .success → get.event.status = .retryableFailure "db_missing_key" →
        put.owner ∈ s.history.refused := by
  intro s
  have ho : Ordered s.flow := run_ordered config cmds
  have he : Effected s.flow := run_effected config cmds
  refine ⟨ho.accepted, ho.effects.imp fun h q hqueue hqueue' hlt => h q hqueue hqueue'
    (Nat.le_of_lt hlt), ?_⟩
  intro cq get hpush put hput q putReq getReq hputQueue hgetQueue hputDesc hgetDesc hkey hlt
    hsuccess hmissing
  have hget : get ∈ s.history.effects :=
    (he.pushes cq get hpush).resolve_right fun hunserved => hunserved hmissing
  obtain ⟨i, hi, rfl⟩ := List.mem_iff_getElem.1 hput
  obtain ⟨j, hj, rfl⟩ := List.mem_iff_getElem.1 hget
  rcases Nat.lt_trichotomy i j with hij | rfl | hij
  · -- the put took effect first, so the get finds its row
    have hmiss := List.pairwise_iff_getElem.1 he.misses i j hi hj hij
    exact absurd hkey (hmiss putReq getReq hputDesc hsuccess hgetDesc hmissing)
  · exact absurd hlt (Nat.lt_irrefl _)
  · -- the get took effect first
    have hlate := List.pairwise_iff_getElem.1 ho.effects j i hj hi hij
    exact hlate q hgetQueue hputQueue (Nat.le_of_lt hlt)

/-- Two puts and a get of the key of the second one, rung with one doorbell. -/
def putPutGet : List UapiCommand :=
  [.registerCq 1, .createCmdQueue ⟨1⟩ 1 4, .enqueueCmd ⟨1⟩ 1 (.dbPut ⟨none, "a", 8⟩),
    .enqueueCmd ⟨1⟩ 1 (.dbPut ⟨none, "b", 8⟩), .enqueueCmd ⟨1⟩ 1 (.dbGet ⟨none, "b"⟩),
    .ringDoorbell ⟨1⟩ 1 none, .drainCq ⟨1⟩ 1]

/-- A database queue of depth 1, and a submission is tried three times. -/
def triedThrice : Config := { Config.sample 1 32 with runtimeMaxRetries := 2 }

/-- The second put is refused and goes to the end of the runtime queue; the get is served before it
and misses the key, and then the put takes effect. -/
theorem get_overtakes_put :
    (triedThrice.dbProfile.queueDepth = 1 ∧ triedThrice.runtimeMaxRetries = 2) ∧
    ((withProfilesAndRuntimePolicy triedThrice).run putPutGet).history.accepted =
      [⟨.dbPut ⟨none, "a", 8⟩, 0, some ⟨1⟩⟩, ⟨.dbPut ⟨none, "b", 8⟩, 1, some ⟨1⟩⟩,
        ⟨.dbGet ⟨none, "b"⟩, 2, some ⟨1⟩⟩] ∧
    ((withProfilesAndRuntimePolicy triedThrice).run putPutGet).history.effects.map
      (fun entry => (entry.owner, entry.event.status)) =
        [(⟨.dbPut ⟨none, "a", 8⟩, 0, some ⟨1⟩⟩, .success),
          (⟨.dbGet ⟨none, "b"⟩, 2, some ⟨1⟩⟩, .retryableFailure "db_missing_key"),
          (⟨.dbPut ⟨none, "b", 8⟩, 1, some ⟨1⟩⟩, .success)] ∧
    ((withProfilesAndRuntimePolicy triedThrice).run putPutGet).history.returns[1]?.map
      (fun r => (r.entry.owner, r.entry.event.status)) =
        some (⟨.dbGet ⟨none, "b"⟩, 2, some ⟨1⟩⟩, .retryableFailure "db_missing_key") :=
  ⟨⟨rfl, rfl⟩, by decide +kernel, by decide +kernel, by decide +kernel⟩

end LocalGuestUapiSurface

end LinquUb
