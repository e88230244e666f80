import LinquUb.LTS.Metered
import LinquUb.Runtime.FromConfig
import LinquUb.Topology.WellFormed

/-!
# The arithmetic of a construction

`SimTopology::from_config` as a debug build runs it: every sum and every product of `u32` and `u64`
values is compared with the range of its type before it is made.

* `SimTopology.checkedFromConfig` makes the comparisons and otherwise does what
  `SimTopology.fromConfig` does (`SimTopology.fromConfig_of_checked`);
* `Build.Count` : how many objects there are, which determines all counters;
* `SimConfig.noOverflow_iff` : **an accepted configuration is built without an overflow exactly if
  its decoders, its entities and its routes can be numbered**.
-/

namespace LinquUb

inductive CheckedError
  | overflow
  | build (error : BuildError)
deriving DecidableEq

/-- The comparison of an exact result with its type of `w` bits. -/
def inRange (w exact : ℕ) : Except CheckedError Unit :=
  if exact < 2 ^ w then .ok () else .error .overflow

def Except.ofBuild {α : Type} : Except BuildError α → Except CheckedError α
  | .ok a => .ok a
  | .error err => .error (.build err)

namespace Build

variable (b : Build)

def checkedPushHost (hostIdx : UInt32) : Except CheckedError Build := do
  inRange 64 (b.nextNodeId.toNat + 1)
  return b.pushHost hostIdx

def checkedPushEntity (ubpuId ubcId : UInt32) : Except CheckedError Build := do
  inRange 32 (b.nextEntityId.toNat + 1)
  inRange 32 (b.nextEid.toNat + 1)
  return b.pushEntity ubpuId ubcId

/-- Each counter is compared with what it has become at the end. -/
def checkedPushUnit (hostIdx : UInt32) : Except CheckedError Build := do
  inRange 64 (b.nextNodeId.toNat + 4)
  inRange 32 (b.nextUbpuId.toNat + 1)
  inRange 32 (b.nextUbcId.toNat + 1)
  inRange 32 (b.nextDecoderId.toNat + 2)
  return b.pushUnit hostIdx

def checkedAddUbpu (entitiesPerUbpu : ℕ) (hostIdx : UInt32) : Except CheckedError Build := do
  (List.range entitiesPerUbpu).foldlM (fun b' _ => b'.checkedPushEntity b.nextUbpuId b.nextUbcId)
    (← b.checkedPushUnit hostIdx)

def checkedPushDomain (domainId : UInt32) (domain : UbDomainConfig) :
    Except CheckedError Build := do
  inRange 64 (b.nextNodeId.toNat + 1)
  return b.pushDomain domainId domain

/-- The memory unit of a domain with this first host. -/
def checkedPushUmmu (ubpusPerHost firstHost domainId : UInt32) : Except CheckedError Build := do
  inRange 32 (firstHost.toNat * ubpusPerHost.toNat)
  inRange 64 (b.nextNodeId.toNat + 1)
  inRange 32 (b.nextUmmuId.toNat + 1)
  return b.pushUmmu (firstHost * ubpusPerHost) domainId

/-- The sum `host_id as NodeId + 1` is never out of range. -/
def checkedAddRoutes (ubpusPerHost : UInt32) (domain : UbDomainConfig) (domainIdx : ℕ)
    (hostId : UInt32) (ubpuIndex : ℕ) : Except CheckedError Build := do
  inRange 32 (hostId.toNat * ubpusPerHost.toNat)
  inRange 32 (hostId.toNat * ubpusPerHost.toNat + ubpuIndex)
  inRange 64 (hostId.toUInt64.toNat + 1)
  inRange 32 (b.nextRouteId.toNat + 2)
  Except.ofBuild (b.addRoutes ubpusPerHost domain domainIdx hostId ubpuIndex)

def checkedAddDomain (ubpusPerHost : UInt32) (domain : UbDomainConfig) (domainIdx : ℕ) :
    Except CheckedError Build := do
  let b ← b.checkedPushDomain (.ofNat domainIdx) domain
  let firstHost ← Except.ofBuild (index domain.hosts 0)
  let b ← b.checkedPushUmmu ubpusPerHost firstHost (.ofNat domainIdx)
  domain.hosts.foldlM (fun b hostId => (List.range ubpusPerHost.toNat).foldlM
    (fun b ubpuIndex => b.checkedAddRoutes ubpusPerHost domain domainIdx hostId ubpuIndex) b) b

def checkedAddDomains (ubpusPerHost : UInt32) :
    List UbDomainConfig → ℕ → Build → Except CheckedError Build
  | [], _, b => .ok b
  | domain :: rest, domainIdx, b => do
    checkedAddDomains ubpusPerHost rest (domainIdx + 1)
      (← b.checkedAddDomain ubpusPerHost domain domainIdx)

def checkedUnits (topology : TopologyConfig) : Except CheckedError Build := do
  let hosts ← (List.range topology.hosts.toNat).foldlM
    (fun b host => b.checkedPushHost (.ofNat host)) start
  (List.range topology.hosts.toNat).foldlM (fun b host =>
    (List.range topology.ubpusPerHost.toNat).foldlM
      (fun b _ => b.checkedAddUbpu topology.entitiesPerUbpu.toNat (.ofNat host)) b) hosts

end Build

/-- The products are the capacities of the vectors. -/
def SimTopology.checkedFromConfig (config : ScenarioConfig) : Except CheckedError SimTopology := do
  match config.validate with
  | .error err => throw (.build (.config err))
  | .ok () =>
    let units := config.topology.hosts.toNat * config.topology.ubpusPerHost.toNat
    inRange 32 units
    inRange 32 (units * config.topology.entitiesPerUbpu.toNat)
    inRange 32 (units * 2)
    let b ← Build.checkedUnits config.topology
    let b ← b.checkedAddDomains config.topology.ubpusPerHost config.topology.ubDomains 0
    return b.toTopology

/-! ### Counts -/

namespace Build

/-- How many objects of each kind there are. -/
structure Count where
  hosts : ℕ
  units : ℕ
  entities : ℕ
  domains : ℕ
  ummus : ℕ
  routes : ℕ

namespace Count

variable (c : Count)

/-- A unit has its own node, the node of its controller and those of two decoders. -/
def nodes : ℕ := c.hosts + 4 * c.units + c.domains + c.ummus

/-- The next number of every kind is in the range of its counter. -/
structure Fits : Prop where
  nodes : c.nodes + 1 < 2 ^ 64
  decoders : 2 * c.units < 2 ^ 32
  entities : c.entities + 1 < 2 ^ 32
  ummus : c.ummus < 2 ^ 32
  routes : c.routes < 2 ^ 32

variable {c} {c' : Count}

/-- No count is above its counterpart. -/
structure Le (c c' : Count) : Prop where
  hosts : c.hosts ≤ c'.hosts
  units : c.units ≤ c'.units
  entities : c.entities ≤ c'.entities
  domains : c.domains ≤ c'.domains
  ummus : c.ummus ≤ c'.ummus
  routes : c.routes ≤ c'.routes

theorem Fits.mono (h : c'.Fits) (hle : c.Le c') : c.Fits := by
  obtain ⟨hnodes, hdecoders, hentities, hummus, hroutes⟩ := h
  obtain ⟨hhosts, hunits, hentities', hdomains, hummus', hroutes'⟩ := hle
  simp only [Count.nodes] at hnodes
  exact ⟨by simp only [Count.nodes]; omega, by omega, by omega, by omega, by omega⟩

/-- With `n` more domains, their memory units, and `r` more routes. -/
def more (c : Count) (n r : ℕ) : Count :=
  { c with domains := c.domains + n, ummus := c.ummus + n, routes := c.routes + r }

theorem more_more (n r n' r' : ℕ) : (c.more n r).more n' r' = c.more (n + n') (r + r') := by
  simp only [more, Nat.add_assoc]

theorem more_le {n n' r r' : ℕ} (hn : n ≤ n') (hr : r ≤ r') : (c.more n r).Le (c.more n' r') :=
  ⟨le_rfl, le_rfl, le_rfl, Nat.add_le_add_left hn _, Nat.add_le_add_left hn _,
    Nat.add_le_add_left hr _⟩

end Count

structure Counts (c : Count) (b : Build) : Prop where
  nodeId : b.nextNodeId.toNat = c.nodes + 1
  ubpuId : b.nextUbpuId.toNat = c.units
  ubcId : b.nextUbcId.toNat = c.units
  decoderId : b.nextDecoderId.toNat = 2 * c.units
  entityId : b.nextEntityId.toNat = c.entities
  eid : b.nextEid.toNat = c.entities + 1
  ummuId : b.nextUmmuId.toNat = c.ummus
  routeId : b.nextRouteId.toNat = c.routes
  ubpus : b.ubpus.length = c.units
  ubcs : b.ubcs.length = c.units
  domains : b.domains.length = c.domains

variable {b : Build} {c c' : Count}

theorem Counts.fits (h : Counts c b) : c.Fits where
  nodes := h.nodeId ▸ b.nextNodeId.toNat_lt
  decoders := h.decoderId ▸ b.nextDecoderId.toNat_lt
  entities := h.eid ▸ b.nextEid.toNat_lt
  ummus := h.ummuId ▸ b.nextUmmuId.toNat_lt
  routes := h.routeId ▸ b.nextRouteId.toNat_lt

/-- A step of the construction from one count to another. -/
abbrev Metered (f : Build → Except CheckedError Build) (c c' : Count) : Prop :=
  Meters Counts Count.Fits .overflow f c c'

theorem inRange_bind {α : Type} {w exact : ℕ} {rest : Except CheckedError α} :
    (inRange w exact >>= fun _ => rest) = if exact < 2 ^ w then rest else .error .overflow := by
  unfold inRange
  split_ifs <;> rfl

/-- A step that is made if its comparisons hold. -/
theorem metered_of_guard {f g : Build → Except CheckedError Build} (p : Build → Prop)
    [DecidablePred p] (hf : ∀ b, f b = if p b then g b else .error .overflow)
    (hp : ∀ b, Counts c b → (p b ↔ c'.Fits))
    (hg : ∀ b, Counts c b → c'.Fits → ∃ b', g b = .ok b' ∧ Counts c' b') : Metered f c c' := by
  intro b hb
  rw [hf]
  constructor
  · intro hfits
    rw [if_pos ((hp b hb).2 hfits)]
    exact hg b hb hfits
  · intro hnot
    exact if_neg fun h => hnot ((hp b hb).1 h)

/-! ### One object -/

theorem succ_toNat32 {x : UInt32} {n : ℕ} (hx : x.toNat = n) (hn : n + 1 < 2 ^ 32) :
    (x + 1).toNat = n + 1 := by
  rw [UInt32.toNat_add, hx]
  exact Nat.mod_eq_of_lt hn

theorem succ_toNat64 {x : UInt64} {n : ℕ} (hx : x.toNat = n) (hn : n + 1 < 2 ^ 64) :
    (x + 1).toNat = n + 1 := by
  rw [UInt64.toNat_add, hx]
  exact Nat.mod_eq_of_lt hn

/-- One more node, and nothing else that is numbered. -/
theorem Counts.fits_iff (hb : Counts c b) (hnodes : c'.nodes = c.nodes + 1)
    (hsame : c'.units = c.units ∧ c'.entities = c.entities ∧ c'.ummus = c.ummus ∧
      c'.routes = c.routes) : b.nextNodeId.toNat + 1 < 2 ^ 64 ↔ c'.Fits := by
  obtain ⟨hunits, hentities, hummus, hroutes⟩ := hsame
  have hfits := hb.fits
  rw [hb.nodeId, ← hnodes]
  constructor
  · exact fun h => ⟨h, hunits ▸ hfits.decoders, hentities ▸ hfits.entities, hummus ▸ hfits.ummus,
      hroutes ▸ hfits.routes⟩
  · exact fun h => h.nodes

theorem Counts.next_node (hb : Counts c b) (hnodes : c'.nodes = c.nodes + 1) (h : c'.Fits) :
    (b.nextNodeId + 1).toNat = c'.nodes + 1 := by
  have hfits := h.nodes
  rw [hnodes] at hfits ⊢
  exact succ_toNat64 hb.nodeId hfits

theorem metered_pushHost (hostIdx : UInt32) :
    Metered (fun b => b.checkedPushHost hostIdx) c { c with hosts := c.hosts + 1 } := by
  have hnodes : ({ c with hosts := c.hosts + 1 } : Count).nodes = c.nodes + 1 := by
    simp only [Count.nodes]
    omega
  refine metered_of_guard (fun b => b.nextNodeId.toNat + 1 < 2 ^ 64)
    (g := fun b => .ok (b.pushHost hostIdx)) (fun b => inRange_bind)
    (fun b hb => hb.fits_iff hnodes ⟨rfl, rfl, rfl, rfl⟩) (fun b hb h => ⟨_, rfl, ?_⟩)
  exact { hb with nodeId := hb.next_node hnodes h }

theorem metered_pushEntity (ubpuId ubcId : UInt32) :
    Metered (fun b => b.checkedPushEntity ubpuId ubcId) c
      { c with entities := c.entities + 1 } := by
  refine metered_of_guard
    (fun b => b.nextEntityId.toNat + 1 < 2 ^ 32 ∧ b.nextEid.toNat + 1 < 2 ^ 32)
    (g := fun b => .ok (b.pushEntity ubpuId ubcId)) (fun b => ?_) (fun b hb => ?_)
    (fun b hb h => ⟨_, rfl, ?_⟩)
  · simp only [checkedPushEntity, inRange_bind, ite_and]
    rfl
  · have hfits := hb.fits
    rw [hb.entityId, hb.eid]
    constructor
    · exact fun h => { hfits with entities := h.2 }
    · exact fun h => ⟨Nat.lt_of_succ_lt h.entities, h.entities⟩
  · have hentities := h.entities
    exact { hb with
      entityId := succ_toNat32 hb.entityId (Nat.lt_of_succ_lt hentities)
      eid := succ_toNat32 hb.eid hentities }

theorem metered_pushUnit (hostIdx : UInt32) :
    Metered (fun b => b.checkedPushUnit hostIdx) c { c with units := c.units + 1 } := by
  refine metered_of_guard
    (fun b => b.nextNodeId.toNat + 4 < 2 ^ 64 ∧ b.nextUbpuId.toNat + 1 < 2 ^ 32 ∧
      b.nextUbcId.toNat + 1 < 2 ^ 32 ∧ b.nextDecoderId.toNat + 2 < 2 ^ 32)
    (g := fun b => .ok (b.pushUnit hostIdx)) (fun b => ?_) (fun b hb => ?_)
    (fun b hb h => ⟨_, rfl, ?_⟩)
  · simp only [checkedPushUnit, inRange_bind, ite_and]
    rfl
  · have hfits := hb.fits
    rw [hb.nodeId, hb.ubpuId, hb.ubcId, hb.decoderId]
    constructor
    · rintro ⟨hnodes, -, -, hdecoders⟩
      simp only [Count.nodes] at hnodes
      exact { hfits with
        nodes := (by simp only [Count.nodes]; omega)
        decoders := (by show 2 * (c.units + 1) < 2 ^ 32; omega) }
    · rintro ⟨hnodes, hdecoders, -, -, -⟩
      simp only [Count.nodes] at hnodes hdecoders ⊢
      omega
  · obtain ⟨hnodes, hdecoders, -, -, -⟩ := h
    simp only [Count.nodes] at hnodes hdecoders
    have hnode₁ := succ_toNat64 hb.nodeId (by simp only [Count.nodes]; omega)
    have hnode₂ := succ_toNat64 hnode₁ (by simp only [Count.nodes]; omega)
    have hnode₃ := succ_toNat64 hnode₂ (by simp only [Count.nodes]; omega)
    have hnode₄ := succ_toNat64 hnode₃ (by simp only [Count.nodes]; omega)
    have hdecoder := succ_toNat32 hb.decoderId (by omega)
    exact { hb with
      nodeId := hnode₄.trans (by simp only [Count.nodes]; omega)
      ubpuId := succ_toNat32 hb.ubpuId (by omega)
      ubcId := succ_toNat32 hb.ubcId (by omega)
      decoderId := succ_toNat32 hdecoder (by omega)
      ubpus := by rw [Build.pushUnit, List.length_append, hb.ubpus]; rfl
      ubcs := by rw [Build.pushUnit, List.length_append, hb.ubcs]; rfl }

theorem metered_pushDomain (domainId : UInt32) (domain : UbDomainConfig) :
    Metered (fun b => b.checkedPushDomain domainId domain) c
      { c with domains := c.domains + 1 } := by
  have hnodes : ({ c with domains := c.domains + 1 } : Count).nodes = c.nodes + 1 := by
    simp only [Count.nodes]
    omega
  refine metered_of_guard (fun b => b.nextNodeId.toNat + 1 < 2 ^ 64)
    (g := fun b => .ok (b.pushDomain domainId domain)) (fun b => inRange_bind)
    (fun b hb => hb.fits_iff hnodes ⟨rfl, rfl, rfl, rfl⟩) (fun b hb h => ⟨_, rfl, ?_⟩)
  exact { hb with
    nodeId := hb.next_node hnodes h
    domains := by rw [Build.pushDomain, List.length_append, hb.domains]; rfl }

section

variable {hosts ubpusPerHost : UInt32} (hunits : c.units = hosts.toNat * ubpusPerHost.toNat)
include hunits

theorem metered_pushUmmu (hpositive : 0 < ubpusPerHost.toNat) {firstHost : UInt32}
    (hhost : firstHost < hosts) (domainId : UInt32) :
    Metered (fun b => b.checkedPushUmmu ubpusPerHost firstHost domainId) c
      { c with ummus := c.ummus + 1 } := by
  have hnodes : ({ c with ummus := c.ummus + 1 } : Count).nodes = c.nodes + 1 := by
    simp only [Count.nodes]
    omega
  have hunit := unit_lt hhost hpositive
  refine metered_of_guard (fun b => firstHost.toNat * ubpusPerHost.toNat < 2 ^ 32 ∧
      b.nextNodeId.toNat + 1 < 2 ^ 64 ∧ b.nextUmmuId.toNat + 1 < 2 ^ 32)
    (g := fun b => .ok (b.pushUmmu (firstHost * ubpusPerHost) domainId)) (fun b => ?_)
    (fun b hb => ?_) (fun b hb h => ⟨_, rfl, ?_⟩)
  · simp only [checkedPushUmmu, inRange_bind, ite_and]
    rfl
  · have hfits := hb.fits
    have hdecoders := hfits.decoders
    rw [hb.nodeId, hb.ummuId, ← hnodes]
    constructor
    · exact fun h => { hfits with nodes := h.2.1, ummus := h.2.2 }
    · exact fun h => ⟨by omega, h.nodes, h.ummus⟩
  · exact { hb with
      nodeId := hb.next_node hnodes h
      ummuId := succ_toNat32 hb.ummuId h.ummus }

theorem metered_addRoutes (domain : UbDomainConfig) {d : ℕ} (hdomains : c.domains = d + 1)
    {hostId : UInt32} (hhost : hostId < hosts) {i : ℕ} (hi : i < ubpusPerHost.toNat) :
    Metered (fun b => b.checkedAddRoutes ubpusPerHost domain d hostId i) c (c.more 0 2) := by
  have hunit := unit_lt hhost hi
  have hnode := hostId.toNat_lt
  refine metered_of_guard (fun b => hostId.toNat * ubpusPerHost.toNat < 2 ^ 32 ∧
      hostId.toNat * ubpusPerHost.toNat + i < 2 ^ 32 ∧ hostId.toUInt64.toNat + 1 < 2 ^ 64 ∧
      b.nextRouteId.toNat + 2 < 2 ^ 32)
    (g := fun b => Except.ofBuild (b.addRoutes ubpusPerHost domain d hostId i)) (fun b => ?_)
    (fun b hb => ?_) (fun b hb h => ?_)
  · simp only [checkedAddRoutes, inRange_bind, ite_and]
  · have hfits := hb.fits
    have hdecoders := hfits.decoders
    rw [hb.routeId, UInt32.toNat_toUInt64]
    constructor
    · exact fun h => { hfits with routes := h.2.2.2 }
    · exact fun h => ⟨by omega, by omega, by omega, h.routes⟩
  · have hdecoders : 2 * c.units < 2 ^ 32 := h.decoders
    have hroutes : c.routes + 2 < 2 ^ 32 := h.routes
    have hnumber := unit_toNat (Nat.lt_trans hunit (by omega))
    obtain ⟨simDomain, hdomain⟩ : ∃ simDomain, b.domains[d]? = some simDomain :=
      ⟨_, List.getElem?_eq_getElem (by rw [hb.domains]; omega)⟩
    obtain ⟨ubpu, hubpu⟩ : ∃ ubpu, b.ubpus[(hostId * ubpusPerHost + .ofNat i).toNat]? = some ubpu :=
      ⟨_, List.getElem?_eq_getElem (by rw [hnumber, hb.ubpus]; omega)⟩
    obtain ⟨ubc, hubc⟩ : ∃ ubc, b.ubcs[(hostId * ubpusPerHost + .ofNat i).toNat]? = some ubc :=
      ⟨_, List.getElem?_eq_getElem (by rw [hnumber, hb.ubcs]; omega)⟩
    have hroute := succ_toNat32 hb.routeId (by omega)
    exact ⟨_, congrArg Except.ofBuild (addRoutes_ok hdomain hubpu hubc),
      { hb with routeId := succ_toNat32 hroute hroutes }⟩

end

/-! ### The loops -/

/-- The count after the first `i` rounds is `count i`. -/
theorem metered_foldlM {α : Type} {f : Build → α → Except CheckedError Build} {l : List α}
    (count : ℕ → Count)
    (hstep : ∀ i a, l[i]? = some a → Metered (fun b => f b a) (count i) (count (i + 1)))
    (hle : ∀ i, (count i).Le (count (i + 1))) :
    Metered (fun b => l.foldlM f b) (count 0) (count l.length) :=
  Meters.foldlM count hstep (fun i h => h.mono (hle i)) fun _ _ hb => hb.fits

theorem metered_addUbpu (entitiesPerUbpu : ℕ) (hostIdx : UInt32) :
    Metered (fun b => b.checkedAddUbpu entitiesPerUbpu hostIdx) c
      { c with units := c.units + 1, entities := c.entities + entitiesPerUbpu } := by
  intro b hb
  have hentities := metered_foldlM (l := List.range entitiesPerUbpu)
    (f := fun b' _ => b'.checkedPushEntity b.nextUbpuId b.nextUbcId)
    (fun i => { c with units := c.units + 1, entities := c.entities + i })
    (fun _ _ _ => metered_pushEntity _ _)
    (fun i => ⟨le_rfl, le_rfl, Nat.le_succ _, le_rfl, le_rfl, le_rfl⟩)
  rw [List.length_range] at hentities
  exact (metered_pushUnit hostIdx).bind hentities
    (fun h => h.mono ⟨le_rfl, le_rfl, Nat.le_add_right _ _, le_rfl, le_rfl, le_rfl⟩) b hb

/-- The count behind the loops over the hosts, with `k` units. -/
def Count.ofUnits (hosts entitiesPerUbpu k : ℕ) : Count :=
  ⟨hosts, k, k * entitiesPerUbpu, 0, 0, 0⟩

theorem Count.ofUnits_le {hosts entitiesPerUbpu k k' : ℕ} (h : k ≤ k') :
    (Count.ofUnits hosts entitiesPerUbpu k).Le (Count.ofUnits hosts entitiesPerUbpu k') :=
  ⟨le_rfl, h, Nat.mul_le_mul_right _ h, le_rfl, le_rfl, le_rfl⟩

theorem start_counts (entitiesPerUbpu : ℕ) : Counts (Count.ofUnits 0 entitiesPerUbpu 0) start := by
  constructor <;> simp [Count.ofUnits, Count.nodes, start]

/-- The units of one more host. -/
theorem metered_hostUnits (hosts entitiesPerUbpu ubpusPerHost k : ℕ) (hostIdx : UInt32) :
    Metered (fun b => (List.range ubpusPerHost).foldlM
        (fun b _ => b.checkedAddUbpu entitiesPerUbpu hostIdx) b)
      (Count.ofUnits hosts entitiesPerUbpu k)
      (Count.ofUnits hosts entitiesPerUbpu (k + ubpusPerHost)) := by
  have hloop := metered_foldlM (l := List.range ubpusPerHost)
    (f := fun b _ => b.checkedAddUbpu entitiesPerUbpu hostIdx)
    (fun i => Count.ofUnits hosts entitiesPerUbpu (k + i)) (fun i _ _ => ?_)
    (fun i => Count.ofUnits_le (Nat.le_succ _))
  · rwa [List.length_range] at hloop
  · have hstep := metered_addUbpu (c := Count.ofUnits hosts entitiesPerUbpu (k + i)) entitiesPerUbpu
      hostIdx
    rwa [Count.ofUnits, ← Nat.succ_mul] at hstep

theorem metered_units (topology : TopologyConfig) :
    Metered (fun _ => checkedUnits topology) (Count.ofUnits 0 topology.entitiesPerUbpu.toNat 0)
      (Count.ofUnits topology.hosts.toNat topology.entitiesPerUbpu.toNat
        (topology.hosts.toNat * topology.ubpusPerHost.toNat)) := by
  have hhosts := metered_foldlM (l := List.range topology.hosts.toNat)
    (f := fun b host => b.checkedPushHost (.ofNat host))
    (fun i => Count.ofUnits i topology.entitiesPerUbpu.toNat 0) (fun i _ _ => metered_pushHost _)
    (fun i => ⟨Nat.le_succ i, le_rfl, le_rfl, le_rfl, le_rfl, le_rfl⟩)
  have hunits := metered_foldlM (l := List.range topology.hosts.toNat)
    (f := fun b host => (List.range topology.ubpusPerHost.toNat).foldlM
      (fun b _ => b.checkedAddUbpu topology.entitiesPerUbpu.toNat (.ofNat host)) b)
    (fun i => Count.ofUnits topology.hosts.toNat topology.entitiesPerUbpu.toNat
      (i * topology.ubpusPerHost.toNat))
    (fun i host _ => Nat.succ_mul i topology.ubpusPerHost.toNat ▸ metered_hostUnits _ _ _ _ _)
    (fun i => Count.ofUnits_le (Nat.mul_le_mul_right _ (Nat.le_succ i)))
  rw [List.length_range] at hhosts hunits
  rw [Nat.zero_mul] at hunits
  intro b _
  exact hhosts.bind hunits (fun h => h.mono (Count.ofUnits_le (Nat.zero_le _))) start
    (start_counts _)

section

variable {hosts ubpusPerHost : UInt32} {domain : UbDomainConfig} {d : ℕ}

/-- The routes of a host of a domain. -/
theorem metered_hostRoutes (domain : UbDomainConfig)
    (hunits : c.units = hosts.toNat * ubpusPerHost.toNat)
    (hdomains : c.domains = d + 1) {hostId : UInt32} (hhost : hostId < hosts) :
    Metered (fun b => (List.range ubpusPerHost.toNat).foldlM
        (fun b ubpuIndex => b.checkedAddRoutes ubpusPerHost domain d hostId ubpuIndex) b) c
      (c.more 0 (2 * ubpusPerHost.toNat)) := by
  have hloop := metered_foldlM (l := List.range ubpusPerHost.toNat)
    (f := fun b ubpuIndex => b.checkedAddRoutes ubpusPerHost domain d hostId ubpuIndex)
    (fun i => c.more 0 (2 * i)) (fun i ubpuIndex hindex => ?_)
    (fun i => Count.more_le le_rfl (Nat.mul_le_mul_left _ (Nat.le_succ i)))
  · rwa [List.length_range] at hloop
  · have hstep := metered_addRoutes (c := c.more 0 (2 * i)) hunits domain hdomains hhost
      (List.mem_range.1 (List.mem_of_getElem? hindex))
    rwa [Count.more_more, ← Nat.mul_succ] at hstep

theorem metered_addDomain (hunits : c.units = hosts.toNat * ubpusPerHost.toNat)
    (hdomains : c.domains = d) (hpositive : 0 < ubpusPerHost.toNat) (hne : domain.hosts ≠ [])
    (hhosts : ∀ hostId ∈ domain.hosts, hostId < hosts) :
    Metered (fun b => b.checkedAddDomain ubpusPerHost domain d) c
      (c.more 1 (2 * ubpusPerHost.toNat * domain.hosts.length)) := by
  obtain ⟨firstHost, rest, hfirst⟩ := List.exists_cons_of_ne_nil hne
  have hfirstHost : firstHost < hosts := hhosts firstHost (hfirst ▸ List.mem_cons_self)
  have hummu := metered_pushUmmu (c := { c with domains := c.domains + 1 }) hunits hpositive
    hfirstHost (.ofNat d)
  have hroutes := metered_foldlM (l := domain.hosts)
    (f := fun b hostId => (List.range ubpusPerHost.toNat).foldlM
      (fun b ubpuIndex => b.checkedAddRoutes ubpusPerHost domain d hostId ubpuIndex) b)
    (fun i => c.more 1 (2 * ubpusPerHost.toNat * i)) (fun i hostId hget => ?_)
    (fun i => Count.more_le le_rfl (Nat.mul_le_mul_left _ (Nat.le_succ i)))
  · have hindex : index domain.hosts 0 = .ok firstHost := index_ok (by rw [hfirst]; rfl)
    refine (metered_pushDomain (.ofNat d) domain).bind ?_ fun h => h.mono
      ⟨le_rfl, le_rfl, le_rfl, le_rfl, Nat.le_succ _, Nat.le_add_right _ _⟩
    simp only [hindex]
    exact hummu.bind hroutes fun h => h.mono
      ⟨le_rfl, le_rfl, le_rfl, le_rfl, le_rfl, Nat.le_add_right _ _⟩
  · have hhost := metered_hostRoutes (c := c.more 1 (2 * ubpusPerHost.toNat * i)) domain hunits
      (congrArg Nat.succ hdomains) (hhosts hostId (List.mem_of_getElem? hget))
    rwa [Count.more_more, ← Nat.mul_succ] at hhost

theorem metered_addDomains (topology : TopologyConfig)
    (hunits : c.units = topology.hosts.toNat * topology.ubpusPerHost.toNat)
    (hpositive : 0 < topology.ubpusPerHost.toNat) {domains : List UbDomainConfig}
    (hdomains : ∀ domain ∈ domains, domain.hosts ≠ [] ∧
      ∀ hostId ∈ domain.hosts, hostId < topology.hosts) :
    Metered (fun b => b.checkedAddDomains topology.ubpusPerHost domains c.domains) c
      (c.more domains.length (topology.routeCount domains)) := by
  induction domains generalizing c with
  | nil => exact meters_pure fun b hb => hb.fits
  | cons domain rest ih =>
    obtain ⟨hne, hin⟩ := hdomains domain List.mem_cons_self
    have hdomain := metered_addDomain hunits rfl hpositive hne hin
    have hrest := ih (c := c.more 1 (2 * topology.ubpusPerHost.toNat * domain.hosts.length)) hunits
      fun other hother => hdomains other (List.mem_cons_of_mem _ hother)
    have hroutes := topology.routeCount_cons domain rest
    rw [Count.more_more, Nat.add_comm 1, ← hroutes, ← List.length_cons] at hrest
    exact hdomain.bind hrest fun h => h.mono
      (Count.more_le (Nat.le_add_left _ _) (hroutes ▸ Nat.le_add_right _ _))

end

/-! ### The checked construction is the construction -/

theorem inRange_bind_ok {α : Type} {w exact : ℕ} {rest : Except CheckedError α} {a : α} :
    (inRange w exact >>= fun _ => rest) = .ok a ↔ exact < 2 ^ w ∧ rest = .ok a := by
  rw [inRange_bind]
  split_ifs with h
  · simp only [h, true_and]
  · simp only [h, false_and]

theorem ofBuild_ok {α : Type} {x : Except BuildError α} {a : α} :
    Except.ofBuild x = .ok a ↔ x = .ok a := by
  cases x <;> simp [Except.ofBuild]

theorem pushHost_of_checked {hostIdx : UInt32} {b' : Build}
    (h : b.checkedPushHost hostIdx = .ok b') : b.pushHost hostIdx = b' :=
  Except.ok.inj (inRange_bind_ok.1 h).2

theorem pushDomain_of_checked {domainId : UInt32} {domain : UbDomainConfig} {b' : Build}
    (h : b.checkedPushDomain domainId domain = .ok b') : b.pushDomain domainId domain = b' :=
  Except.ok.inj (inRange_bind_ok.1 h).2

theorem pushUmmu_of_checked {ubpusPerHost firstHost domainId : UInt32} {b' : Build}
    (h : b.checkedPushUmmu ubpusPerHost firstHost domainId = .ok b') :
    b.pushUmmu (firstHost * ubpusPerHost) domainId = b' := by
  obtain ⟨-, h⟩ := inRange_bind_ok.1 h
  obtain ⟨-, h⟩ := inRange_bind_ok.1 h
  exact Except.ok.inj (inRange_bind_ok.1 h).2

theorem addUbpu_of_checked {entitiesPerUbpu : ℕ} {hostIdx : UInt32} {b' : Build}
    (h : b.checkedAddUbpu entitiesPerUbpu hostIdx = .ok b') :
    b.addUbpu entitiesPerUbpu hostIdx = b' := by
  obtain ⟨b₁, hunit, hentities⟩ := except_bind_ok.1 h
  obtain ⟨-, hunit⟩ := inRange_bind_ok.1 hunit
  obtain ⟨-, hunit⟩ := inRange_bind_ok.1 hunit
  obtain ⟨-, hunit⟩ := inRange_bind_ok.1 hunit
  obtain ⟨-, hunit⟩ := inRange_bind_ok.1 hunit
  cases hunit
  have hfold := foldl_of_foldlM (g := fun b' _ => b'.pushEntity b.nextUbpuId b.nextUbcId)
    (fun s _ s' hs => ?_) hentities
  · rwa [List.foldl_const, List.length_range] at hfold
  · obtain ⟨-, hs⟩ := inRange_bind_ok.1 hs
    exact Except.ok.inj (inRange_bind_ok.1 hs).2

theorem units_of_checked {topology : TopologyConfig} (h : checkedUnits topology = .ok b) :
    units topology = b := by
  obtain ⟨b₁, hhosts, hunits⟩ := except_bind_ok.1 h
  have hfirst := foldl_of_foldlM (g := fun b host => b.pushHost (.ofNat host))
    (fun _ _ _ => pushHost_of_checked) hhosts
  have hsecond := foldl_of_foldlM (g := fun b host =>
    (fun b : Build => b.addUbpu topology.entitiesPerUbpu.toNat (.ofNat host))^[
      topology.ubpusPerHost.toNat] b) (fun s host s' hs => ?_) hunits
  · rw [units, hfirst]
    exact hsecond
  · have hloop := foldl_of_foldlM
      (g := fun b _ => b.addUbpu topology.entitiesPerUbpu.toNat (.ofNat host))
      (fun _ _ _ => addUbpu_of_checked) hs
    rwa [List.foldl_const, List.length_range] at hloop

theorem addRoutes_of_checked {ubpusPerHost hostId : UInt32} {domain : UbDomainConfig} {d i : ℕ}
    {b' : Build} (h : b.checkedAddRoutes ubpusPerHost domain d hostId i = .ok b') :
    b.addRoutes ubpusPerHost domain d hostId i = .ok b' := by
  obtain ⟨-, h⟩ := inRange_bind_ok.1 h
  obtain ⟨-, h⟩ := inRange_bind_ok.1 h
  obtain ⟨-, h⟩ := inRange_bind_ok.1 h
  obtain ⟨-, h⟩ := inRange_bind_ok.1 h
  exact ofBuild_ok.1 h

theorem addDomain_of_checked {ubpusPerHost : UInt32} {domain : UbDomainConfig} {d : ℕ} {b' : Build}
    (h : b.checkedAddDomain ubpusPerHost domain d = .ok b') :
    b.addDomain ubpusPerHost domain d = .ok b' := by
  obtain ⟨b₁, hdomain, h⟩ := except_bind_ok.1 h
  obtain ⟨firstHost, hfirst, h⟩ := except_bind_ok.1 h
  obtain ⟨b₂, hummu, hroutes⟩ := except_bind_ok.1 h
  have hfirst := ofBuild_ok.1 hfirst
  have hb₁ := pushDomain_of_checked hdomain
  have hb₂ := pushUmmu_of_checked hummu
  subst hb₁ hb₂
  rw [addDomain, hfirst]
  exact foldlM_agrees (fun _ _ _ hs => foldlM_agrees (fun _ _ _ => addRoutes_of_checked) hs) hroutes

theorem addDomains_of_checked {ubpusPerHost : UInt32} {domains : List UbDomainConfig} {d : ℕ}
    {b' : Build} (h : b.checkedAddDomains ubpusPerHost domains d = .ok b') :
    b.addDomains ubpusPerHost domains d = .ok b' := by
  induction domains generalizing b d with
  | nil =>
    cases h
    rfl
  | cons domain rest ih =>
    obtain ⟨b₁, hdomain, hrest⟩ := except_bind_ok.1 h
    rw [addDomains, addDomain_of_checked hdomain]
    exact ih hrest

end Build

/-! ### Accepted configurations -/

namespace SimTopology

variable {config : ScenarioConfig}

/-- Where no comparison fails, sums and products do not wrap around. -/
theorem fromConfig_of_checked {t : SimTopology} (h : checkedFromConfig config = .ok t) :
    fromConfig config = .ok t := by
  unfold checkedFromConfig at h
  unfold fromConfig
  cases hvalid : config.validate with
  | error err =>
    rw [hvalid] at h
    cases h
  | ok _ =>
    rw [hvalid] at h
    obtain ⟨-, h⟩ := Build.inRange_bind_ok.1 h
    obtain ⟨-, h⟩ := Build.inRange_bind_ok.1 h
    obtain ⟨-, h⟩ := Build.inRange_bind_ok.1 h
    obtain ⟨b₁, hunits, h⟩ := except_bind_ok.1 h
    obtain ⟨b, hdomains, h⟩ := except_bind_ok.1 h
    simp only [Build.units_of_checked hunits, Build.addDomains_of_checked hdomains]
    exact congrArg Except.ok (Except.ok.inj h)

end SimTopology

namespace TopologyConfig

/-- All decoders, entities and routes can be numbered; entities have a second number that starts at
one. -/
structure Fits (topology : TopologyConfig) : Prop where
  decoders : 2 * (topology.hosts.toNat * topology.ubpusPerHost.toNat) < 2 ^ 32
  entities : topology.hosts.toNat * topology.ubpusPerHost.toNat *
    topology.entitiesPerUbpu.toNat + 1 < 2 ^ 32
  routes : topology.routeCount topology.ubDomains < 2 ^ 32

/-- The count behind all loops. -/
def finalCount (topology : TopologyConfig) : Build.Count :=
  (Build.Count.ofUnits topology.hosts.toNat topology.entitiesPerUbpu.toNat
    (topology.hosts.toNat * topology.ubpusPerHost.toNat)).more topology.ubDomains.length
      (topology.routeCount topology.ubDomains)

/-- The other counters are smaller than those of the decoders and of the routes. -/
theorem finalCount_fits {topology : TopologyConfig} (hpositive : topology.ubpusPerHost ≠ 0)
    (hdomains : ∀ domain ∈ topology.ubDomains, domain.hosts ≠ []) :
    topology.finalCount.Fits ↔ topology.Fits := by
  have hcount := topology.length_le_routeCount hpositive hdomains
  have hhosts := topology.hosts.toNat_lt
  constructor
  · intro h
    have hroutes : 0 + topology.routeCount topology.ubDomains < 2 ^ 32 := h.routes
    rw [Nat.zero_add] at hroutes
    exact ⟨h.decoders, h.entities, hroutes⟩
  · rintro ⟨hdecoders, hentities, hroutes⟩
    constructor <;> simp only [finalCount, Build.Count.more, Build.Count.ofUnits, Build.Count.nodes]
    all_goals omega

end TopologyConfig

/-- The loops over the hosts and over the domains. -/
theorem Build.checkedLoops {config : ScenarioConfig} (hvalid : config.validate = .ok ()) :
    (config.topology.Fits → ∃ b, checkedUnits config.topology >>=
      checkedAddDomains config.topology.ubpusPerHost config.topology.ubDomains 0 = .ok b) ∧
    (¬ config.topology.Fits → checkedUnits config.topology >>=
      checkedAddDomains config.topology.ubpusPerHost config.topology.ubDomains 0 =
        .error .overflow) := by
  have hdomains := config.validate_domains hvalid
  have hubpus := config.validate_ubpus hvalid
  have hpositive : 0 < config.topology.ubpusPerHost.toNat :=
    Nat.pos_of_ne_zero fun hzero => hubpus (UInt32.toNat_inj.1 hzero)
  have hfits := config.topology.finalCount_fits hubpus fun domain hdomain =>
    (hdomains domain hdomain).1
  have hunits := metered_units config.topology
  have hrest := metered_addDomains config.topology (c := Count.ofUnits config.topology.hosts.toNat
    config.topology.entitiesPerUbpu.toNat _) rfl hpositive hdomains
  obtain ⟨hok, hstop⟩ := hunits.bind hrest (fun h => h.mono ⟨le_rfl, le_rfl, le_rfl,
    Nat.le_add_right _ _, Nat.le_add_right _ _, Nat.le_add_right _ _⟩) start (start_counts _)
  refine ⟨fun h => ?_, fun hnot => hstop (hfits.not.2 hnot)⟩
  obtain ⟨b, hb, -⟩ := hok (hfits.2 h)
  exact ⟨b, hb⟩

/-- **The checked construction** of an accepted configuration ends with a topology if the
configuration fits, and with an overflow if it does not. -/
theorem SimTopology.checkedFromConfig_metered {config : ScenarioConfig}
    (hvalid : config.validate = .ok ()) :
    (config.topology.Fits → ∃ t, checkedFromConfig config = .ok t) ∧
      (¬ config.topology.Fits → checkedFromConfig config = .error .overflow) := by
  obtain ⟨hok, hstop⟩ := Build.checkedLoops hvalid
  unfold checkedFromConfig
  rw [hvalid]
  simp only [Build.inRange_bind]
  constructor
  · intro h
    have hdecoders := h.decoders
    have hentities := h.entities
    obtain ⟨b, hb⟩ := hok h
    rw [if_pos (by omega), if_pos (by omega), if_pos (by omega), ← bind_assoc, hb]
    exact ⟨b.toTopology, rfl⟩
  · intro hnot
    split_ifs
    · rw [← bind_assoc, hstop hnot]
      rfl
    all_goals rfl

/-- The construction without comparisons makes the same topology, from exact sums and products. -/
theorem SimTopology.fromConfig_exact {config : ScenarioConfig} (hvalid : config.validate = .ok ())
    (hfits : config.topology.Fits) :
    ∃ t, checkedFromConfig config = .ok t ∧ fromConfig config = .ok t := by
  obtain ⟨t, ht⟩ := (checkedFromConfig_metered hvalid).1 hfits
  exact ⟨t, ht, fromConfig_of_checked ht⟩

/-- Neither construction computes a sum or a product that is out of the range of its type. -/
def SimConfig.NoOverflow (config : SimConfig) : Prop :=
  SimTopology.checkedFromConfig config.toScenarioConfig ≠ .error .overflow ∧
    LocalRuntimeEngine.fromConfig config ≠ none

theorem LocalRuntimeEngine.fromConfig_ne_none {config : SimConfig} :
    fromConfig config ≠ none ↔
      config.topology.hosts.toNat * config.topology.ubpusPerHost.toNat < 2 ^ 32 := by
  unfold fromConfig checkedMul32
  by_cases h : config.topology.hosts.toNat * config.topology.ubpusPerHost.toNat < 2 ^ 32
  · rw [if_pos h]
    exact ⟨fun _ => h, fun _ => Option.some_ne_none _⟩
  · rw [if_neg h]
    exact ⟨fun hsome => absurd rfl hsome, fun hlt => absurd hlt h⟩

/-- **An accepted configuration is built without an overflow** exactly if its decoders, its entities
and its routes can be numbered. -/
theorem SimConfig.noOverflow_iff (config : SimConfig)
    (hvalid : config.toScenarioConfig.validate = .ok ()) :
    config.NoOverflow ↔ config.topology.Fits := by
  obtain ⟨hok, hstop⟩ := SimTopology.checkedFromConfig_metered hvalid
  rw [NoOverflow, LocalRuntimeEngine.fromConfig_ne_none]
  constructor
  · rintro ⟨hne, -⟩
    by_contra hnot
    exact hne (hstop hnot)
  · intro h
    have hdecoders := h.decoders
    obtain ⟨t, ht⟩ := hok h
    exact ⟨by simp [ht], by omega⟩

/-- `n` hosts with `n` units each, and a domain of the first host. -/
def SimConfig.square (n : UInt32) : SimConfig :=
  { ScenarioConfig.twoHosts with
    topology :=
      { hosts := n, ubpusPerHost := n, entitiesPerUbpu := 1
        ubDomains := [⟨"first", [0]⟩] }
    chipBackendMode := "stub"
    dispatchLatencyUs := none
    l3FetchLatencyUs := none
    l4FetchLatencyUs := none
    hitWeight := .finite 0
    loadWeight := .finite 0
    capacityWeight := .finite 0 }

theorem SimConfig.noOverflow_iff_square :
    (SimConfig.square 3).validate = .ok () ∧ (SimConfig.square 3).NoOverflow := by
  have hvalid : (SimConfig.square 3).validate = .ok () := by decide +kernel
  have hfits : (SimConfig.square 3).topology.Fits := by
    constructor <;> decide +kernel
  exact ⟨hvalid, (noOverflow_iff (.square 3) hvalid).2 hfits⟩

/-- The product `65536 * 65536` is zero in a release build, and so is the capacity of the engine. -/
theorem SimConfig.square_overflows :
    (SimConfig.square 65536).validate = .ok () ∧ ¬ (SimConfig.square 65536).NoOverflow ∧
      SimTopology.checkedFromConfig (SimConfig.square 65536).toScenarioConfig = .error .overflow ∧
      LocalRuntimeEngine.fromConfig (.square 65536) = none ∧
      (SimConfig.square 65536).topology.hosts *
        (SimConfig.square 65536).topology.ubpusPerHost = 0 := by
  have hstop : SimTopology.checkedFromConfig (SimConfig.square 65536).toScenarioConfig =
      .error .overflow := by rfl
  exact ⟨by decide +kernel, fun h => h.1 hstop, hstop, by rfl, by decide +kernel⟩

end LinquUb
