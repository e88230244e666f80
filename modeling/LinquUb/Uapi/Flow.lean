import LinquUb.Uapi.Surface
import LinquUb.LTS.Places
import LinquUb.LTS.Run

/-!
# The flow of submissions

What the surface is for, as a small-step system: a submission waits in its command queue, is staged
into the runtime queue, is picked by a drive, is served or refused by its service, and its
completion goes to a completion queue and from there to a guest.

A `Flow` holds the containers of the surface together with the submissions that a running command
has in its hands (`batch`, `ready`, `subject`, `failing`, `polled`).  `Step drops` is one move; the
move that loses a batch needs `drops`.  `Uapi/Simulation.lean` proves that every command of the
surface is a sequence of such moves.
-/

namespace LinquUb

/-- The containers, and what a running command holds. -/
structure Flow where
  queues : Finmap fun _ : CmdQueueHandle => CommandQueueState
  cqs : Finmap fun _ : CqHandle => CompletionQueueState
  services : CompletionSource → ServiceQueue Submission
  depths : CompletionSource → UInt64
  routes : Finmap fun _ : RuntimeCompletionKey => CqHandle
  rows : Finmap fun _ : String => UInt64
  waiting : List UapiRecord
  nextCq : ℕ
  nextCmdq : ℕ
  tickets : ℕ
  history : History
  /-- Submissions popped by a doorbell, with the completion queue they are bound to. -/
  batch : List (CqHandle × Submission)
  /-- Records drained from the runtime queue and not yet picked. -/
  ready : List UapiRecord
  /-- The submission that is being handed to its service. -/
  subject : Option (CqHandle × Submission)
  /-- Submissions given up by the runtime queue and not yet reported. -/
  failing : List UapiRuntimeFailure
  /-- Completions taken from a service and not yet routed. -/
  polled : List (Owned Submission)

namespace Flow

/-- What serving a submission may do to the rows of the database: rows are only added, a successful
put stores its key, and a get that misses found none. -/
structure Serves (rows rows' : Finmap fun _ : String => UInt64) (entry : Owned Submission) :
    Prop where
  grows : ∀ key, (rows.lookup key).isSome → (rows'.lookup key).isSome
  stores : ∀ req, entry.owner.desc = .dbPut req → entry.event.status = .success →
    (rows'.lookup req.key).isSome
  misses : ∀ req, entry.owner.desc = .dbGet req →
    entry.event.status = .retryableFailure "db_missing_key" → rows.lookup req.key = none

/-- Completions that no service produced. -/
def Unserved (event : CompletionEvent) : Prop :=
  event.status ≠ .retryableFailure "db_missing_key"

/-- The completion queue to which a completion goes: the one its route names, or any. -/
def Destination (f : Flow) (event : CompletionEvent) (cq : CqHandle) : Prop :=
  f.routes.lookup event.key = some cq ∨ f.routes.lookup event.key = none

/-- Add a completion at the end of a completion queue. -/
def push (f : Flow) (cq : CqHandle) (st : CompletionQueueState) (entry : Owned Submission) : Flow :=
  { f with
    cqs := Finmap.insert cq { st with events := st.events ++ [entry] } f.cqs
    history := { f.history with pushes := f.history.pushes ++ [(cq, entry)] } }

/-- Take the route of a completion out of the table. -/
def unroute (f : Flow) (entry : Owned Submission) : Flow :=
  { f with
    routes := f.routes.erase entry.event.key
    history := { f.history with
      routings := f.history.routings ++ [⟨entry, f.routes.lookup entry.event.key⟩] } }

/-- Queue a completion at a service and bind its route. -/
def serve (f : Flow) (source : CompletionSource) (cq : CqHandle) (item : QueuedCompletion Submission)
    (rows : Finmap fun _ : String => UInt64) : Flow :=
  { f with
    services := Function.update f.services source
      ⟨(f.services source).completions ++ [item], (f.services source).nextOpId + 1⟩
    routes := Finmap.insert item.event.key cq f.routes
    rows
    history := { f.history with
      effects := f.history.effects ++ [item.owned]
      bindings := f.history.bindings ++
        [⟨item.event.key, cq, f.routes.lookup item.event.key⟩] } }

/-- One move of the system. -/
inductive Step (drops : Prop) (f : Flow) : Flow → Prop
  | openCq (owner : EntityId) :
    Step drops f { f with
      nextCq := f.nextCq + 1
      cqs := Finmap.insert ⟨f.nextCq + 1⟩ ⟨owner, []⟩ f.cqs }
  | openQueue {cq : CqHandle} {st : CompletionQueueState} (depth : ℕ)
    (hcq : f.cqs.lookup cq = some st) :
    Step drops f { f with
      nextCmdq := f.nextCmdq + 1
      queues := Finmap.insert ⟨f.nextCmdq + 1⟩ ⟨cq, st.owner, depth, []⟩ f.queues }
  | accept {q : CmdQueueHandle} {st : CommandQueueState} (desc : UapiDescriptor)
    (hq : f.queues.lookup q = some st) :
    Step drops f { f with
      tickets := f.tickets + 1
      queues := Finmap.insert q
        { st with pending := st.pending ++ [⟨desc, f.tickets, some q⟩] } f.queues
      history := { f.history with
        accepted := f.history.accepted ++ [⟨desc, f.tickets, some q⟩] } }
  | take {q : CmdQueueHandle} {st : CommandQueueState} {sub : Submission} {rest : List Submission}
    (hq : f.queues.lookup q = some st) (hpending : st.pending = sub :: rest) :
    Step drops f { f with
      queues := Finmap.insert q { st with pending := rest } f.queues
      batch := f.batch ++ [(st.cq, sub)] }
  | stage {cq : CqHandle} {sub : Submission} {rest : List (CqHandle × Submission)}
    {record : UapiRecord} (hbatch : f.batch = (cq, sub) :: rest)
    (hrecord : record.payload.payload = ⟨cq, sub⟩) :
    Step drops f { f with batch := rest, waiting := f.waiting ++ [record] }
  | drop (hdrops : drops) :
    Step drops f { f with batch := [] }
  | gather (hready : f.ready = []) :
    Step drops f { f with waiting := [], ready := f.waiting }
  | pick {record : UapiRecord} {rest : List UapiRecord} (hready : f.ready = record :: rest)
    (hsubject : f.subject = none) :
    Step drops f { f with
      ready := rest
      subject := some (record.payload.payload.cq, record.payload.payload.sub) }
  | enter {cq : CqHandle} {st : CompletionQueueState} (desc : UapiDescriptor)
    (hsubject : f.subject = none) (hcq : f.cqs.lookup cq = some st) :
    Step drops f { f with
      tickets := f.tickets + 1
      subject := some (cq, ⟨desc, f.tickets, none⟩) }
  | served {cq : CqHandle} {sub : Submission} {source : CompletionSource}
    {item : QueuedCompletion Submission} {rows : Finmap fun _ : String => UInt64}
    (hsubject : f.subject = some (cq, sub)) (hpolled : f.polled = [])
    (hroom : (f.services source).completions.length < (f.depths source).toNat)
    (howner : item.owner = sub)
    (hkey : item.event.key = ⟨source, (f.services source).nextOpId + 1⟩)
    (hrows : Serves f.rows rows item.owned) :
    Step drops f { f.serve source cq item rows with subject := none }
  | answered {cq : CqHandle} {sub : Submission} {st : CompletionQueueState}
    {event : CompletionEvent} (hsubject : f.subject = some (cq, sub))
    (hcq : f.cqs.lookup cq = some st) (hevent : Unserved event) :
    Step drops f { f.push cq st ⟨event, sub⟩ with subject := none }
  | refuse {cq : CqHandle} {sub : Submission} (hsubject : f.subject = some (cq, sub)) :
    Step drops f { f with history := { f.history with refused := f.history.refused ++ [sub] } }
  | requeue {cq : CqHandle} {sub : Submission} {record : UapiRecord}
    (hsubject : f.subject = some (cq, sub)) (hrecord : record.payload.payload = ⟨cq, sub⟩)
    (hrefused : sub ∈ f.history.refused) :
    Step drops f { f with subject := none, waiting := f.waiting ++ [record] }
  | giveUp {cq : CqHandle} {sub : Submission} {failure : UapiRuntimeFailure}
    (hsubject : f.subject = some (cq, sub)) (hcq : failure.cq = cq) (hsub : failure.sub = sub) :
    Step drops f { f with subject := none, failing := f.failing ++ [failure] }
  | forget {cq : CqHandle} {sub : Submission} (hsubject : f.subject = some (cq, sub))
    (hdirect : sub.queue = none) :
    Step drops f { f with subject := none }
  | report {failure : UapiRuntimeFailure} {rest : List UapiRuntimeFailure}
    {st : CompletionQueueState} {event : CompletionEvent} (hfailing : f.failing = failure :: rest)
    (hcq : f.cqs.lookup failure.cq = some st) (hevent : Unserved event) :
    Step drops f { f.push failure.cq st ⟨event, failure.sub⟩ with failing := rest }
  | strandFailing {failure : UapiRuntimeFailure} {rest : List UapiRuntimeFailure}
    (hfailing : f.failing = failure :: rest) (hcq : f.cqs.lookup failure.cq = none) :
    Step drops f { f with failing := [] }
  | poll {source : CompletionSource} {taken rest : List (QueuedCompletion Submission)}
    (hpolled : f.polled = []) (htaken : (f.services source).completions = taken ++ rest) :
    Step drops f { f with
      services := Function.update f.services source ⟨rest, (f.services source).nextOpId⟩
      polled := taken.map (·.owned) }
  | route {entry : Owned Submission} {rest : List (Owned Submission)} {cq : CqHandle}
    {st : CompletionQueueState} (hpolled : f.polled = entry :: rest)
    (hdest : f.Destination entry.event cq) (hcq : f.cqs.lookup cq = some st) :
    Step drops f { (f.unroute entry).push cq st entry with polled := rest }
  | strandPolled {entry : Owned Submission} {rest : List (Owned Submission)}
    (hpolled : f.polled = entry :: rest)
    (hnone : (∃ cq, f.routes.lookup entry.event.key = some cq ∧ f.cqs.lookup cq = none) ∨
      ∀ cq, f.cqs.lookup cq = none) :
    Step drops f { f.unroute entry with polled := [] }
  | handBack {cq : CqHandle} {st : CompletionQueueState} {taken rest : List (Owned Submission)}
    (hcq : f.cqs.lookup cq = some st) (htaken : st.events = taken ++ rest) :
    Step drops f { f with
      cqs := Finmap.insert cq { st with events := rest } f.cqs
      history := { f.history with
        returns := f.history.returns ++ taken.map fun entry => ⟨cq, st.owner, entry⟩ } }

/-- Any number of moves. -/
abbrev Steps (drops : Prop) : Flow → Flow → Prop := Relation.ReflTransGen (Step drops)

/-- Writing an entry that is already there changes nothing. -/
theorem insert_eq_self {α β : Type} [DecidableEq α] {m : Finmap fun _ : α => β} {a : α} {b : β}
    (h : m.lookup a = some b) : Finmap.insert a b m = m := by
  refine Finmap.ext_lookup fun x => ?_
  by_cases hx : x = a
  · rw [hx, Finmap.lookup_insert, h]
  · rw [Finmap.lookup_insert_of_ne _ hx]

/-- Taking several submissions from the front of a command queue. -/
theorem take_steps {drops : Prop} {q : CmdQueueHandle} (xs rest : List Submission) (f : Flow)
    {st : CommandQueueState} (hq : f.queues.lookup q = some st) (hpending : st.pending = xs ++ rest) :
    Steps drops f { f with
      queues := Finmap.insert q { st with pending := rest } f.queues
      batch := f.batch ++ xs.map fun sub => (st.cq, sub) } := by
  induction xs generalizing f st with
  | nil =>
    have hself : { st with pending := rest } = st := by
      rw [← (show st.pending = rest from hpending)]
    rw [hself, insert_eq_self hq, List.map_nil, List.append_nil]
  | cons x xs ih =>
    have hstep := ih { f with
        queues := Finmap.insert q { st with pending := xs ++ rest } f.queues
        batch := f.batch ++ [(st.cq, x)] } (Finmap.lookup_insert _) rfl
    simp only [Finmap.insert_insert, List.append_assoc, List.singleton_append] at hstep
    exact .head (.take hq hpending) hstep

theorem Step.mono {drops drops' : Prop} (h : drops → drops') {f f' : Flow} (hs : Step drops f f') :
    Step drops' f f' := by
  cases hs
  case drop hd => exact .drop (h hd)
  all_goals constructor <;> assumption

theorem Steps.mono {drops drops' : Prop} (h : drops → drops') {f f' : Flow}
    (hs : Steps drops f f') : Steps drops' f f' := by
  induction hs with
  | refl => exact .refl
  | tail _ hlast ih => exact ih.tail (hlast.mono h)

end Flow

end LinquUb
