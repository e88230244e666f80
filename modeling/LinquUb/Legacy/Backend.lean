import LinquUb.LTS.Run
import LinquUb.Legacy.Endpoint

/-!
# The device over a backend with a state

`Endpoint` takes the answers of the backend as a parameter.  Here the backend has a state, which all
endpoints change: the calls go through the `opaque` pointer of `LinquUbBackendOps`.

* `Backend` : the functions that the device calls;
* `LinquUbState`, `LinquUbState.act` : all endpoints of the device over one backend;
* `Backend.Answered` : a function of the device computes what it computes from the answers that it
  got;
* `LinquUbState.endpoints_answered` : **every endpoint of a run behaves as over fixed answers**,
  whatever the others do in between.
-/

namespace LinquUb

open LTS

namespace Legacy

/-- The functions of a backend, on the state behind `opaque`. -/
structure Backend (β : Type) where
  submitSlot : UInt16 → List UInt8 → β → ℤ × β
  ringDoorbell : UInt16 → ℕ → β → ℤ × β
  pollCompletion : UInt16 → β → (ℤ × List UInt8) × β

namespace Backend

variable {β : Type} (backend : Backend β) (bus : DmaBus)

/-- The loop of `linqu_ub_kick` with its local copy of the ring; `n` slots of the batch are
left. -/
def submitSlots : ℕ → Endpoint → β → Ring → ℕ → Except ℤ (Ring × ℕ) × Endpoint × β
  | 0, s, b, ring, submitted => (.ok (ring, submitted), s, b)
  | n + 1, s, b, ring, submitted =>
    if ring.head = ring.tail then (.ok (ring, submitted), s, b)
    else
      match bus.read s.reads (ring.slotAddress ring.head) descBytes with
      | none => (.error (-1), { s with reads := s.reads + 1 }.setError .range, b)
      | some slot =>
        match backend.submitSlot s.endpointId slot b with
        | (rc, b) =>
          let s := { s with reads := s.reads + 1, submits := s.submits + 1 }
          if rc < 0 then (.error rc, s.setError .invalidDescriptor, b)
          else submitSlots n { s with submitted := s.submitted ++ [ring.head] } b (ring.moveHead 1)
            (submitted + 1)

/-- The loop of `linqu_ub_flush_cq`. -/
def pollSlots : ℕ → Endpoint → β → Except ℤ Unit × Endpoint × β
  | 0, s, b => (.ok (), s, b)
  | n + 1, s, b =>
    if (s.cq.tail + 1) % s.cq.depth = s.cq.head then (.ok (), s, b)
    else
      match backend.pollCompletion s.endpointId b with
      | ((rc, slot), b) =>
        if rc = 1 then (.ok (), { s with polls := s.polls + 1 }, b)
        else if rc < 0 then
          (.error rc, { s with polls := s.polls + 1 }.setError .invalidDescriptor, b)
        else if bus.write s.writes (s.cq.slotAddress s.cq.tail) descBytes then
          pollSlots n (s.deliver slot) b
        else
          (.error (-1), Endpoint.setError { s with
            polls := s.polls + 1
            taken := s.taken ++ [slot]
            writes := s.writes + 1 } .range, b)

def flushCq (s : Endpoint) (b : β) : ℤ × Endpoint × β :=
  match backend.pollSlots bus s.cq.depth s b with
  | (.error rc, s, b) => (rc, s, b)
  | (.ok (), s, b) =>
    if (s.cq.tail + 1) % s.cq.depth = s.cq.head then
      (0, { s with irqStatus := s.irqStatus ||| irqCqOverflow }, b)
    else (0, s, b)

def kick (batch : ℕ) (s : Endpoint) (b : β) : ℤ × Endpoint × β :=
  match backend.submitSlots bus batch s b s.cmdq 0 with
  | (.error rc, s, b) => (rc, s, b)
  | (.ok (ring, submitted), s, b) =>
    match backend.ringDoorbell s.endpointId submitted b with
    | (rc, b) =>
      let s := { s with rings := s.rings + 1 }
      if rc < 0 then (rc, s.setError .queueOverflow, b)
      else backend.flushCq bus { s with cmdq := ring } b

/-- A write to a register; only the doorbell calls the backend. -/
def epRegWrite (reg : Endpoint.Register) (value : UInt64) (s : Endpoint) (b : β) : Endpoint × β :=
  match reg with
  | .doorbell => (backend.kick bus (s.batchOf value) s b).2
  | reg => (s.epRegWrite bus ⟨none, none, none⟩ reg value, b)

end Backend

/-- The registers of all endpoints are reset; the backend is not told. -/
def Endpoint.reset (s : Endpoint) : Endpoint :=
  { s with toLinquUbEndpointState := (start s.endpointId).toLinquUbEndpointState }

/-- The device over a backend in the state `backend`. -/
structure LinquUbState (β : Type) where
  endpoints : List Endpoint
  backend : β

inductive DeviceAction
  /-- A write to a register of an endpoint. -/
  | write (endpointId : UInt16) (reg : Endpoint.Register) (value : UInt64)
  | reset
deriving DecidableEq, Repr

namespace LinquUbState

variable {β : Type}

/-- The device with `numEndpoints` endpoints, after its first reset. -/
def new (numEndpoints : ℕ) (backend : β) : LinquUbState β :=
  { endpoints := (List.range numEndpoints).map fun i => .start (i + 1).toUInt16, backend }

def getEndpoint (d : LinquUbState β) (endpointId : UInt16) : Option Endpoint :=
  if endpointId = 0 then none else d.endpoints[endpointId.toNat - 1]?

/-- Guest memory answers every endpoint by itself. -/
def act (backend : Backend β) (bus : UInt16 → DmaBus) (d : LinquUbState β) :
    DeviceAction → LinquUbState β
  | .write endpointId reg value =>
    match d.getEndpoint endpointId with
    | none => d
    | some s =>
      let (s, b) := backend.epRegWrite (bus endpointId) reg value s d.backend
      { endpoints := d.endpoints.set (endpointId.toNat - 1) s, backend := b }
  | .reset => { d with endpoints := d.endpoints.map .reset }

def run (backend : Backend β) (bus : UInt16 → DmaBus) (d : LinquUbState β)
    (actions : List DeviceAction) : LinquUbState β :=
  actions.foldl (act backend bus) d

end LinquUbState

/-! ### Answers that were given -/

/-- The answers to the calls that an endpoint has made. -/
structure Answers where
  submits : List ℤ
  rings : List ℤ
  polls : List (ℤ × List UInt8)

namespace Answers

variable (a : Answers)

def submitSlot (n : ℕ) (_ : UInt16) (_ : List UInt8) : ℤ := a.submits.getD n 0

def ringDoorbell (n : ℕ) (_ : UInt16) (_ : ℕ) : ℤ := a.rings.getD n 0

def pollCompletion (n : ℕ) (_ : UInt16) : ℤ × List UInt8 := a.polls.getD n (1, [])

/-- A backend that gives the same answers again. -/
def ops : LinquUbBackendOps where
  submitSlot := some a.submitSlot
  ringDoorbell := some a.ringDoorbell
  pollCompletion := some a.pollCompletion

/-- There is an answer for every call. -/
structure Counts (s : Endpoint) : Prop where
  submits : a.submits.length = s.submits
  rings : a.rings.length = s.rings
  polls : a.polls.length = s.polls

/-- The later answers begin with the earlier ones. -/
structure Before (a a' : Answers) : Prop where
  submits : a.submits <+: a'.submits
  rings : a.rings <+: a'.rings
  polls : a.polls <+: a'.polls

variable {a} {a' a'' : Answers}

theorem Before.refl (a : Answers) : Before a a :=
  ⟨List.prefix_refl _, List.prefix_refl _, List.prefix_refl _⟩

theorem Before.trans (h : Before a a') (h' : Before a' a'') : Before a a'' :=
  ⟨h.submits.trans h'.submits, h.rings.trans h'.rings, h.polls.trans h'.polls⟩

theorem getD_of_prefix {α : Type} {xs ys : List α} {x : α} (h : xs ++ [x] <+: ys) (default : α) :
    ys.getD xs.length default = x := by
  obtain ⟨rest, rfl⟩ := h
  simp

end Answers

namespace Backend

variable {β ρ : Type} (backend : Backend β) (bus : DmaBus)

/-- A function of the device computes from the answers `g` what it computes with the backend: from
those that it got, and from all that come later. -/
def Answered (f : Endpoint → β → ρ × Endpoint × β) (g : Answers → Endpoint → ρ × Endpoint) : Prop :=
  ∀ s b past, Answers.Counts past s → ∃ a, past.Before a ∧ a.Counts (f s b).2.1 ∧
    ∀ later, a.Before later → g later s = ((f s b).1, (f s b).2.1)

theorem submitSlots_answered (n : ℕ) (ring : Ring) (submitted : ℕ) :
    Answered (fun s b => backend.submitSlots bus n s b ring submitted)
      (fun a s => Endpoint.submitSlots bus a.submitSlot n s ring submitted) := by
  induction n generalizing ring submitted with
  | zero => exact fun s b past hpast => ⟨past, .refl past, hpast, fun _ _ => rfl⟩
  | succ n ih =>
    intro s b past hpast
    simp only [submitSlots, Endpoint.submitSlots]
    by_cases hempty : ring.head = ring.tail
    · simp only [hempty, if_true]
      exact ⟨past, .refl past, hpast, fun _ _ => trivial⟩
    simp only [hempty, if_false]
    cases hread : bus.read s.reads (ring.slotAddress ring.head) descBytes with
    | none => exact ⟨past, .refl past, ⟨hpast.submits, hpast.rings, hpast.polls⟩, fun _ _ => rfl⟩
    | some slot =>
      rcases hsubmit : backend.submitSlot s.endpointId slot b with ⟨rc, b'⟩
      simp only [hsubmit]
      let past' : Answers := { past with submits := past.submits ++ [rc] }
      have hbefore : past.Before past' :=
        ⟨List.prefix_append _ _, List.prefix_refl _, List.prefix_refl _⟩
      have hanswer : ∀ later : Answers, past'.Before later →
          later.submitSlot s.submits s.endpointId slot = rc := fun later hlater => by
        rw [Answers.submitSlot, ← hpast.submits, Answers.getD_of_prefix hlater.submits]
      have hcounts : ∀ s' : Endpoint, s'.submits = s.submits + 1 → s'.rings = s.rings →
          s'.polls = s.polls → past'.Counts s' := fun s' hsubmits hrings hpolls =>
        ⟨by rw [hsubmits, ← hpast.submits, List.length_append, List.length_singleton],
          hrings ▸ hpast.rings, hpolls ▸ hpast.polls⟩
      by_cases hrc : rc < 0
      · refine ⟨past', hbefore, ?_, fun later hlater => ?_⟩
        · simp only [hrc, if_true]
          exact hcounts _ rfl rfl rfl
        · simp only [hanswer later hlater, hrc, if_true]
      · simp only [hrc, if_false]
        obtain ⟨a, hle, ha, hall⟩ := ih (ring.moveHead 1) (submitted + 1)
          { s with reads := s.reads + 1, submits := s.submits + 1,
                   submitted := s.submitted ++ [ring.head] } b' past' (hcounts _ rfl rfl rfl)
        refine ⟨a, hbefore.trans hle, ha, fun later hlater => ?_⟩
        simp only [hanswer later (hle.trans hlater), hrc, if_false]
        exact hall later hlater

theorem pollSlots_answered (n : ℕ) :
    Answered (fun s b => backend.pollSlots bus n s b)
      (fun a s => Endpoint.pollSlots bus a.pollCompletion n s) := by
  induction n with
  | zero => exact fun s b past hpast => ⟨past, .refl past, hpast, fun _ _ => rfl⟩
  | succ n ih =>
    intro s b past hpast
    simp only [pollSlots, Endpoint.pollSlots]
    by_cases hfull : (s.cq.tail + 1) % s.cq.depth = s.cq.head
    · simp only [hfull, if_true]
      exact ⟨past, .refl past, hpast, fun _ _ => trivial⟩
    simp only [hfull, if_false]
    rcases hpoll : backend.pollCompletion s.endpointId b with ⟨⟨rc, slot⟩, b'⟩
    simp only [hpoll]
    let past' : Answers := { past with polls := past.polls ++ [(rc, slot)] }
    have hbefore : past.Before past' :=
      ⟨List.prefix_refl _, List.prefix_refl _, List.prefix_append _ _⟩
    have hanswer : ∀ later : Answers, past'.Before later →
        later.pollCompletion s.polls s.endpointId = (rc, slot) := fun later hlater => by
      rw [Answers.pollCompletion, ← hpast.polls, Answers.getD_of_prefix hlater.polls]
    have hcounts : ∀ s' : Endpoint, s'.submits = s.submits → s'.rings = s.rings →
        s'.polls = s.polls + 1 → past'.Counts s' := fun s' hsubmits hrings hpolls =>
      ⟨hsubmits ▸ hpast.submits, hrings ▸ hpast.rings,
        by rw [hpolls, ← hpast.polls, List.length_append, List.length_singleton]⟩
    by_cases hnone : rc = 1
    · refine ⟨past', hbefore, ?_, fun later hlater => ?_⟩
      · simp only [hnone, if_true]
        exact hcounts _ rfl rfl rfl
      · simp only [hanswer later hlater, hnone, if_true]
    by_cases hrc : rc < 0
    · refine ⟨past', hbefore, ?_, fun later hlater => ?_⟩
      · simp only [hnone, hrc, if_true, if_false]
        exact hcounts _ rfl rfl rfl
      · simp only [hanswer later hlater, hnone, hrc, if_true, if_false]
    by_cases hwrite : bus.write s.writes (s.cq.slotAddress s.cq.tail) descBytes = true
    · simp only [hnone, hrc, hwrite, if_true, if_false]
      obtain ⟨a, hle, ha, hall⟩ := ih (s.deliver slot) b' past' (hcounts _ rfl rfl rfl)
      refine ⟨a, hbefore.trans hle, ha, fun later hlater => ?_⟩
      simp only [hanswer later (hle.trans hlater), hnone, hrc, if_false]
      exact hall later hlater
    · refine ⟨past', hbefore, ?_, fun later hlater => ?_⟩
      · simp only [hnone, hrc, hwrite, if_false]
        exact hcounts _ rfl rfl rfl
      · simp only [hanswer later hlater, hnone, hrc, hwrite, if_false]
        rfl

theorem flushCq_answered :
    Answered (backend.flushCq bus) (fun a s => s.flushCq bus a.ops) := by
  intro s b past hpast
  obtain ⟨a, hle, ha, hall⟩ := pollSlots_answered backend bus s.cq.depth s b past hpast
  simp only [flushCq]
  rcases hpoll : backend.pollSlots bus s.cq.depth s b with ⟨rc | ⟨⟩, s', b'⟩ <;>
    simp only [hpoll] at ha hall ⊢
  · refine ⟨a, hle, ha, fun later hlater => ?_⟩
    simp only [Endpoint.flushCq, Answers.ops, hall later hlater]
  · by_cases hfull : (s'.cq.tail + 1) % s'.cq.depth = s'.cq.head <;>
      simp only [hfull, if_true, if_false]
    · refine ⟨a, hle, ⟨ha.submits, ha.rings, ha.polls⟩, fun later hlater => ?_⟩
      simp only [Endpoint.flushCq, Answers.ops, hall later hlater, hfull, if_true]
    · refine ⟨a, hle, ha, fun later hlater => ?_⟩
      simp only [Endpoint.flushCq, Answers.ops, hall later hlater, hfull, if_false]

theorem kick_answered (batch : ℕ) :
    Answered (backend.kick bus batch) (fun a s => s.kick bus a.ops batch) := by
  intro s b past hpast
  obtain ⟨a, hle, ha, hall⟩ := submitSlots_answered backend bus batch s.cmdq 0 s b past hpast
  simp only [kick]
  rcases hsubmit : backend.submitSlots bus batch s b s.cmdq 0 with
    ⟨rc | ⟨ring, submitted⟩, s', b'⟩ <;> simp only [hsubmit] at ha hall ⊢
  · refine ⟨a, hle, ha, fun later hlater => ?_⟩
    simp only [Endpoint.kick, Answers.ops, hall later hlater]
  rcases hring : backend.ringDoorbell s'.endpointId submitted b' with ⟨rc, b''⟩
  simp only [hring]
  let a' : Answers := { a with rings := a.rings ++ [rc] }
  have hbefore : a.Before a' := ⟨List.prefix_refl _, List.prefix_append _ _, List.prefix_refl _⟩
  have hanswer : ∀ later : Answers, a'.Before later →
      later.ringDoorbell s'.rings s'.endpointId submitted = rc := fun later hlater => by
    rw [Answers.ringDoorbell, ← ha.rings, Answers.getD_of_prefix hlater.rings]
  have hcounts : ∀ t : Endpoint, t.submits = s'.submits → t.rings = s'.rings + 1 →
      t.polls = s'.polls → a'.Counts t := fun t hsubmits hrings hpolls =>
    ⟨hsubmits ▸ ha.submits, by rw [hrings, ← ha.rings, List.length_append, List.length_singleton],
      hpolls ▸ ha.polls⟩
  by_cases hrc : rc < 0
  · refine ⟨a', hle.trans hbefore, ?_, fun later hlater => ?_⟩
    · simp only [hrc, if_true]
      exact hcounts _ rfl rfl rfl
    · simp only [Endpoint.kick, Answers.ops, hall later (hbefore.trans hlater),
        hanswer later hlater, hrc, if_true]
  · simp only [hrc, if_false]
    obtain ⟨a'', hle', ha'', hflush⟩ := flushCq_answered backend bus
      { s' with rings := s'.rings + 1, cmdq := ring } b'' a' (hcounts _ rfl rfl rfl)
    refine ⟨a'', (hle.trans hbefore).trans hle', ha'', fun later hlater => ?_⟩
    have hkick : s.kick bus later.ops batch =
        ({ s' with rings := s'.rings + 1, cmdq := ring } : Endpoint).flushCq bus later.ops := by
      simp only [Endpoint.kick, Answers.ops,
        hall later (hbefore.trans (hle'.trans hlater)), hanswer later (hle'.trans hlater), hrc,
        if_false]
    rw [hkick]
    exact hflush later hlater

/-- **A register write** has the answers of the calls that it made. -/
theorem epRegWrite_answered (reg : Endpoint.Register) (value : UInt64) {s : Endpoint} (b : β)
    {past : Answers} (hpast : past.Counts s) :
    ∃ a, past.Before a ∧ a.Counts (backend.epRegWrite bus reg value s b).1 ∧
      ∀ later, a.Before later →
        s.epRegWrite bus later.ops reg value = (backend.epRegWrite bus reg value s b).1 := by
  cases reg with
  | doorbell =>
    obtain ⟨a, hle, ha, hall⟩ := kick_answered backend bus (s.batchOf value) s b past hpast
    exact ⟨a, hle, ha, fun later hlater => congrArg Prod.snd (hall later hlater)⟩
  | cmdqTail | cqHead =>
    refine ⟨past, .refl past, ?_, fun later _ => rfl⟩
    simp only [epRegWrite, Endpoint.epRegWrite]
    split_ifs <;> exact ⟨hpast.submits, hpast.rings, hpast.polls⟩
  | _ => exact ⟨past, .refl past, ⟨hpast.submits, hpast.rings, hpast.polls⟩, fun later _ => rfl⟩

end Backend

/-! ### Runs of the device -/

/-- What an endpoint sees of the actions. -/
inductive EndpointAction
  | write (reg : Endpoint.Register) (value : UInt64)
  | reset
deriving DecidableEq, Repr

def Endpoint.act (bus : DmaBus) (ops : LinquUbBackendOps) (s : Endpoint) :
    EndpointAction → Option Endpoint
  | .write reg value => s.step bus ops (reg, value)
  | .reset => some s.reset

def DeviceAction.seenBy (endpointId : UInt16) : DeviceAction → Option EndpointAction
  | .write endpointId' reg value =>
    if endpointId' = endpointId then some (.write reg value) else none
  | .reset => some .reset

namespace LinquUbState

variable {β : Type} (backend : Backend β) (bus : UInt16 → DmaBus) {d : LinquUbState β}
  {endpointId endpointId' : UInt16} {s : Endpoint}

theorem getEndpoint_eq_some : d.getEndpoint endpointId = some s ↔
    endpointId ≠ 0 ∧ d.endpoints[endpointId.toNat - 1]? = some s := by
  unfold getEndpoint
  split_ifs with hzero <;> simp [hzero]

theorem getEndpoint_set (h : d.getEndpoint endpointId = some s) (t : Endpoint) (b : β) :
    ({ endpoints := d.endpoints.set (endpointId.toNat - 1) t, backend := b } :
      LinquUbState β).getEndpoint endpointId = some t := by
  obtain ⟨hzero, hs⟩ := getEndpoint_eq_some.1 h
  obtain ⟨hlt, -⟩ := List.getElem?_eq_some_iff.1 hs
  exact getEndpoint_eq_some.2 ⟨hzero, List.getElem?_set_self hlt⟩

theorem getEndpoint_set_other (hne : endpointId' ≠ endpointId) (hzero' : endpointId' ≠ 0)
    (t : Endpoint) (b : β) :
    ({ endpoints := d.endpoints.set (endpointId'.toNat - 1) t, backend := b } :
      LinquUbState β).getEndpoint endpointId = d.getEndpoint endpointId := by
  unfold getEndpoint
  split_ifs with hzero
  · rfl
  · have hindex : endpointId'.toNat - 1 ≠ endpointId.toNat - 1 := by
      intro heq
      have hpos : endpointId.toNat ≠ 0 := fun h => hzero (UInt16.toNat_inj.1 h)
      have hpos' : endpointId'.toNat ≠ 0 := fun h => hzero' (UInt16.toNat_inj.1 h)
      exact hne (UInt16.toNat_inj.1 (by omega))
    exact List.getElem?_set_ne hindex

/-- What an action does to an endpoint, which has `past` answers. -/
theorem act_answered (action : DeviceAction) (hs : d.getEndpoint endpointId = some s)
    {past : Answers} (hpast : past.Counts s) :
    ∃ t a, (d.act backend bus action).getEndpoint endpointId = some t ∧ past.Before a ∧
      a.Counts t ∧ ∀ later, a.Before later →
        LTS.run (Endpoint.act (bus endpointId) later.ops) s (action.seenBy endpointId).toList =
          some t := by
  cases action with
  | reset =>
    refine ⟨s.reset, past, ?_, .refl past, ⟨hpast.submits, hpast.rings, hpast.polls⟩,
      fun _ _ => rfl⟩
    obtain ⟨hzero, hs⟩ := getEndpoint_eq_some.1 hs
    refine getEndpoint_eq_some.2 ⟨hzero, ?_⟩
    simp only [act, List.getElem?_map, hs, Option.map_some]
  | write endpointId' reg value =>
    by_cases hsame : endpointId' = endpointId
    · subst hsame
      simp only [act, hs, DeviceAction.seenBy, if_true]
      obtain ⟨a, hle, ha, hall⟩ :=
        backend.epRegWrite_answered (bus endpointId') reg value d.backend hpast
      refine ⟨_, a, getEndpoint_set hs _ _, hle, ha, fun later hlater => ?_⟩
      exact congrArg some (hall later hlater)
    · -- another endpoint
      have hsame' : (d.act backend bus (.write endpointId' reg value)).getEndpoint endpointId =
          some s := by
        simp only [act]
        cases hother : d.getEndpoint endpointId' with
        | none => exact hs
        | some s' =>
          exact (getEndpoint_set_other hsame (getEndpoint_eq_some.1 hother).1 _ _).trans hs
      refine ⟨s, past, hsame', .refl past, hpast, fun _ _ => ?_⟩
      rw [DeviceAction.seenBy, if_neg hsame]
      rfl

theorem run_answered (actions : List DeviceAction) (hs : d.getEndpoint endpointId = some s)
    {past : Answers} (hpast : past.Counts s) :
    ∃ t a, (d.run backend bus actions).getEndpoint endpointId = some t ∧ past.Before a ∧
      a.Counts t ∧ ∀ later, a.Before later →
        LTS.run (Endpoint.act (bus endpointId) later.ops) s
          (actions.filterMap (·.seenBy endpointId)) = some t := by
  induction actions generalizing d s past with
  | nil => exact ⟨s, past, hs, .refl past, hpast, fun _ _ => rfl⟩
  | cons action actions ih =>
    obtain ⟨t, a, ht, hle, ha, hall⟩ := act_answered backend bus action hs hpast
    obtain ⟨u, a', hu, hle', ha', hall'⟩ := ih ht ha
    refine ⟨u, a', hu, hle.trans hle', ha', fun later hlater => ?_⟩
    have hfirst := hall later (hle'.trans hlater)
    rw [List.filterMap_cons]
    cases hseen : action.seenBy endpointId with
    | none =>
      rw [hseen] at hfirst
      obtain rfl : s = t := Option.some.inj hfirst
      exact hall' later hlater
    | some seen =>
      rw [hseen] at hfirst
      obtain ⟨t', hact, ht'⟩ := LTS.run_cons_eq_some.1 hfirst
      obtain rfl : t' = t := Option.some.inj ht'
      exact LTS.run_cons_eq_some.2 ⟨t', hact, hall' later hlater⟩

theorem new_getEndpoint (numEndpoints : ℕ) (b : β) (hpos : endpointId ≠ 0)
    (hle : endpointId.toNat ≤ numEndpoints) :
    (new numEndpoints b).getEndpoint endpointId = some (.start endpointId) := by
  have hnat : endpointId.toNat ≠ 0 := fun h => hpos (UInt16.toNat_inj.1 h)
  refine getEndpoint_eq_some.2 ⟨hpos, ?_⟩
  have hlt : endpointId.toNat - 1 < numEndpoints := by omega
  simp only [new, List.getElem?_map, List.getElem?_range hlt, Option.map_some]
  rw [Nat.sub_add_cancel (by omega)]
  simp

theorem act_length (action : DeviceAction) :
    (d.act backend bus action).endpoints.length = d.endpoints.length := by
  cases action with
  | reset => exact List.length_map _
  | write endpointId reg value =>
    simp only [act]
    cases d.getEndpoint endpointId with
    | none => rfl
    | some s => exact List.length_set

theorem run_length (actions : List DeviceAction) :
    (d.run backend bus actions).endpoints.length = d.endpoints.length := by
  induction actions generalizing d with
  | nil => rfl
  | cons action actions ih => exact ih.trans (act_length backend bus action)

/-- **Every endpoint behaves as over fixed answers.**  Whatever the state of the backend is and
whatever the guest does to the other endpoints in between, an endpoint comes to the state that it
would come to over a backend that answers by the number of the call. -/
theorem endpoints_answered (backend : Backend β) (bus : UInt16 → DmaBus) (numEndpoints : ℕ) (b : β)
    (actions : List DeviceAction) :
    let d := (new numEndpoints b).run backend bus actions
    d.endpoints.length = numEndpoints ∧
    ∀ endpointId s, d.getEndpoint endpointId = some s → ∃ ops,
      LTS.run (Endpoint.act (bus endpointId) ops) (.start endpointId)
        (actions.filterMap (·.seenBy endpointId)) = some s := by
  intro d
  have hlength : d.endpoints.length = numEndpoints :=
    (run_length backend bus actions).trans (by simp [new])
  refine ⟨hlength, fun endpointId s hs => ?_⟩
  obtain ⟨hpos, hindex⟩ := getEndpoint_eq_some.1 hs
  obtain ⟨hlt, -⟩ := List.getElem?_eq_some_iff.1 hindex
  have hstart := new_getEndpoint numEndpoints b hpos (by omega)
  have hcounts : (⟨[], [], []⟩ : Answers).Counts (.start endpointId) := ⟨rfl, rfl, rfl⟩
  obtain ⟨t, a, ht, -, -, hall⟩ := run_answered backend bus actions hstart hcounts
  obtain rfl : t = s := Option.some.inj (ht.symm.trans hs)
  exact ⟨a.ops, hall a (.refl a)⟩

end LinquUbState

end Legacy

end LinquUb
