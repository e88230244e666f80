import LinquUb.Topology.Build

/-!
# Topologies are well formed

What the loops of `SimTopology::from_config` keep.

* `Build.Allocated` : the node ids given out so far are `1, …, n`, each once;
* `Build.Units` : the objects of the first `k` units;
* `Build.Domains` : the objects of the first `d` domains and their routes;
* `SimTopology.fromConfig_wellFormed` : **the topology of a small accepted configuration is well
  formed**.
-/

namespace LinquUb

open SimTopology

/-- A property of positions and elements holds throughout the list. -/
def Listed {α : Type} (l : List α) (P : ℕ → α → Prop) : Prop := ∀ i x, l[i]? = some x → P i x

variable {α : Type} {l : List α} {P Q : ℕ → α → Prop}

theorem listed_nil : Listed [] P := fun _ _ h => (by cases h)

theorem Listed.snoc (h : Listed l P) {x : α} (hx : P l.length x) : Listed (l ++ [x]) P := by
  intro i y hy
  rw [List.getElem?_append] at hy
  split_ifs at hy with hi
  · exact h i y hy
  · obtain ⟨hlt, rfl⟩ := List.getElem?_eq_some_iff.1 hy
    have hzero : i = l.length := by
      rw [List.length_singleton] at hlt
      omega
    subst hzero
    simpa using hx

theorem Listed.imp (h : Listed l P) (hPQ : ∀ i x, P i x → Q i x) : Listed l Q :=
  fun i x hx => hPQ i x (h i x hx)

/-- Objects that are numbered by a counter carry their positions as ids. -/
theorem Listed.numbered {id : α → UInt32} (h : Listed l fun i x => id x = .ofNat i)
    (hlength : l.length < 2 ^ 32) : Numbered l id := by
  intro i x hx
  have hi : i < l.length := (List.getElem?_eq_some_iff.1 hx).1
  rw [h i x hx, UInt32.toNat_ofNat', Nat.mod_eq_of_lt (by omega)]

/-- A property that a function carries from one number to the next, over its iterations. -/
theorem iterate_invariant {β : Type} {P : ℕ → β → Prop} {f : β → β} {n : ℕ}
    (hstep : ∀ k b, k < n → P k b → P (k + 1) (f b)) {b : β} (hb : P 0 b) : P n (f^[n] b) := by
  have hle : ∀ k, k ≤ n → P k (f^[k] b) := by
    intro k
    induction k with
    | zero => exact fun _ => hb
    | succ k ih =>
      intro hk
      rw [Function.iterate_succ_apply']
      exact hstep k _ (by omega) (ih (by omega))
  exact hle n (Nat.le_refl n)

theorem foldl_range_invariant {β : Type} {P : ℕ → β → Prop} {f : β → ℕ → β} {n : ℕ}
    (hstep : ∀ k b, k < n → P k b → P (k + 1) (f b k)) {b : β} (hb : P 0 b) :
    P n ((List.range n).foldl f b) := by
  have hle : ∀ k, k ≤ n → P k ((List.range k).foldl f b) := by
    intro k
    induction k with
    | zero => exact fun _ => hb
    | succ k ih =>
      intro hk
      rw [List.range_succ, List.foldl_append]
      exact hstep k _ (by omega) (ih (by omega))
  exact hle n (Nat.le_refl n)

/-- A loop whose steps succeed and count up. -/
theorem foldlM_invariant {ε β : Type} {P : ℕ → β → Prop} {f : β → α → Except ε β} {c : ℕ}
    (hstep : ∀ n b a, a ∈ l → P n b → ∃ b', f b a = .ok b' ∧ P (n + c) b') {n : ℕ} {b : β}
    (hb : P n b) : ∃ b', l.foldlM f b = .ok b' ∧ P (n + c * l.length) b' := by
  induction l generalizing n b with
  | nil => exact ⟨b, rfl, hb⟩
  | cons a l ih =>
    obtain ⟨b₁, hf, hb₁⟩ := hstep n b a List.mem_cons_self hb
    obtain ⟨b', hrest, hb'⟩ := ih (fun n b a ha => hstep n b a (List.mem_cons_of_mem _ ha)) hb₁
    refine ⟨b', ?_, ?_⟩
    · rw [List.foldlM_cons, hf]
      exact hrest
    · rwa [List.length_cons, Nat.mul_succ, Nat.add_comm (c * l.length), ← Nat.add_assoc]

namespace Build

/-! ### Node ids -/

/-- The node ids `1, …, n`. -/
def firstNodes (n : ℕ) : List NodeId := (List.range n).map fun i => UInt64.ofNat (i + 1)

/-- The ids of `m` nodes that are created after the first `n`. -/
def nextNodes (n m : ℕ) : List NodeId := (List.range m).map fun i => UInt64.ofNat (n + i + 1)

theorem firstNodes_add (n m : ℕ) : firstNodes (n + m) = firstNodes n ++ nextNodes n m := by
  rw [firstNodes, List.range_add, List.map_append, List.map_map]
  rfl

structure Allocated (b : Build) (n : ℕ) : Prop where
  ids : b.toTopology.nodeIds.Perm (firstNodes n)
  next : b.nextNodeId = .ofNat (n + 1)

variable {b b' : Build} {n : ℕ}

theorem Allocated.extend (h : Allocated b n) (m : ℕ)
    (hids : b'.toTopology.nodeIds.Perm (b.toTopology.nodeIds ++ nextNodes n m))
    (hnext : b'.nextNodeId = .ofNat (n + m + 1)) : Allocated b' (n + m) := by
  refine ⟨hids.trans ?_, hnext⟩
  rw [firstNodes_add]
  exact h.ids.append_right _

theorem Allocated.nodup (h : Allocated b n) (hn : n < 2 ^ 64) : b.toTopology.nodeIds.Nodup := by
  refine h.ids.nodup_iff.2 (List.Nodup.map_on ?_ List.nodup_range)
  intro i hi j hj hij
  rw [List.mem_range] at hi hj
  have hnat := congrArg UInt64.toNat hij
  rw [UInt64.toNat_ofNat', UInt64.toNat_ofNat', Nat.mod_eq_of_lt (by omega),
    Nat.mod_eq_of_lt (by omega)] at hnat
  omega

theorem Allocated.nextNodes_one (h : Allocated b n) : nextNodes n 1 = [b.nextNodeId] := by
  rw [h.next]
  rfl

theorem Allocated.nextNodes_four (h : Allocated b n) : nextNodes n 4 =
    [b.nextNodeId, b.nextNodeId + 1, b.nextNodeId + 1 + 1, b.nextNodeId + 1 + 1 + 1] := by
  rw [h.next]
  simp only [← UInt64.ofNat_one, ← UInt64.ofNat_add]
  rfl

theorem Allocated.pushHost (h : Allocated b n) (host : UInt32) :
    Allocated (b.pushHost host) (n + 1) := by
  refine h.extend 1 (List.perm_iff_count.2 fun id => ?_) ?_
  · simp only [nodeIds, toTopology, Build.pushHost, h.nextNodes_one, List.map_append, List.map_cons,
      List.map_nil, List.count_append]
    omega
  · rw [Build.pushHost, h.next]
    exact (UInt64.ofNat_add _ _).symm

theorem Allocated.pushUnit (h : Allocated b n) (host : UInt32) :
    Allocated (b.pushUnit host) (n + 4) := by
  refine h.extend 4 (List.perm_iff_count.2 fun id => ?_) ?_
  · simp only [nodeIds, toTopology, Build.pushUnit, h.nextNodes_four, List.map_append, List.map_cons,
      List.map_nil, List.count_append, List.count_cons, List.count_nil]
    omega
  · rw [Build.pushUnit, h.next]
    simp only [← UInt64.ofNat_one, ← UInt64.ofNat_add]

theorem Allocated.pushDomain (h : Allocated b n) (domainId : UInt32) (domain : UbDomainConfig) :
    Allocated (b.pushDomain domainId domain) (n + 1) := by
  refine h.extend 1 (List.perm_iff_count.2 fun id => ?_) ?_
  · simp only [nodeIds, toTopology, Build.pushDomain, h.nextNodes_one, List.map_append,
      List.map_cons, List.map_nil, List.count_append]
    omega
  · rw [Build.pushDomain, h.next]
    exact (UInt64.ofNat_add _ _).symm

theorem Allocated.pushUmmu (h : Allocated b n) (ubcId domainId : UInt32) :
    Allocated (b.pushUmmu ubcId domainId) (n + 1) := by
  refine h.extend 1 (List.perm_iff_count.2 fun id => ?_) ?_
  · simp only [nodeIds, toTopology, Build.pushUmmu, h.nextNodes_one, List.map_append, List.map_cons,
      List.map_nil, List.count_append]
    omega
  · rw [Build.pushUmmu, h.next]
    exact (UInt64.ofNat_add _ _).symm

/-! ### Units -/

/-- The objects of `H` hosts, of `k` units with `U` of them on a host, and `e` entities. -/
structure Units (H U k e : ℕ) (b : Build) : Prop where
  allocated : Allocated b (H + 4 * k)
  hosts : Listed b.hosts fun i x => x.id = .ofNat i ∧ x.nodeId = .ofNat (i + 1)
  hostCount : b.hosts.length = H
  ubpus : Listed b.ubpus fun i x => x.id = .ofNat i ∧ x.hostId = .ofNat (i / U)
  ubpuCount : b.ubpus.length = k
  ubcs : Listed b.ubcs fun i x =>
    x.id = .ofNat i ∧ x.ubpuId = .ofNat i ∧ x.hostId = .ofNat (i / U)
  ubcCount : b.ubcs.length = k
  decoders : Listed b.decoders fun i x => x.id = .ofNat i
  decoderCount : b.decoders.length = 2 * k
  entities : Listed b.entities fun i x => x.id = .ofNat i
  entityCount : b.entities.length = e
  nextUbpuId : b.nextUbpuId = .ofNat k
  nextUbcId : b.nextUbcId = .ofNat k
  nextDecoderId : b.nextDecoderId = .ofNat (2 * k)
  nextEntityId : b.nextEntityId = .ofNat e
  domains : b.domains = [] ∧ b.ummus = [] ∧ b.nextUmmuId = 0
  routes : b.routes = [] ∧ b.nextRouteId = 0

variable {H U k e : ℕ}

theorem start_units (U : ℕ) : Units 0 U 0 0 start :=
  ⟨⟨.refl _, rfl⟩, listed_nil, rfl, listed_nil, rfl, listed_nil, rfl, listed_nil, rfl, listed_nil,
    rfl, rfl, rfl, rfl, rfl, ⟨rfl, rfl, rfl⟩, rfl, rfl⟩

theorem Units.pushHost (h : Units H U 0 e b) : Units (H + 1) U 0 e (b.pushHost (.ofNat H)) where
  allocated := h.allocated.pushHost _
  hosts := h.hosts.snoc ⟨by rw [h.hostCount], h.hostCount ▸ h.allocated.next⟩
  hostCount := by rw [Build.pushHost, List.length_append, h.hostCount]; rfl
  ubpus := h.ubpus
  ubpuCount := h.ubpuCount
  ubcs := h.ubcs
  ubcCount := h.ubcCount
  decoders := h.decoders
  decoderCount := h.decoderCount
  entities := h.entities
  entityCount := h.entityCount
  nextUbpuId := h.nextUbpuId
  nextUbcId := h.nextUbcId
  nextDecoderId := h.nextDecoderId
  nextEntityId := h.nextEntityId
  domains := h.domains
  routes := h.routes

theorem Units.pushEntity (h : Units H U k e b) (ubpuId ubcId : UInt32) :
    Units H U k (e + 1) (b.pushEntity ubpuId ubcId) where
  allocated := ⟨h.allocated.ids, h.allocated.next⟩
  hosts := h.hosts
  hostCount := h.hostCount
  ubpus := h.ubpus
  ubpuCount := h.ubpuCount
  ubcs := h.ubcs
  ubcCount := h.ubcCount
  decoders := h.decoders
  decoderCount := h.decoderCount
  entities := h.entities.snoc (h.entityCount ▸ h.nextEntityId)
  entityCount := by rw [Build.pushEntity, List.length_append, h.entityCount]; rfl
  nextUbpuId := h.nextUbpuId
  nextUbcId := h.nextUbcId
  nextDecoderId := h.nextDecoderId
  nextEntityId := by rw [Build.pushEntity, h.nextEntityId]; exact (UInt32.ofNat_add _ _).symm
  domains := h.domains
  routes := h.routes

/-- The unit behind the first `k` is on host `k / U`. -/
theorem Units.pushUnit (h : Units H U k e b) :
    Units H U (k + 1) e (b.pushUnit (.ofNat (k / U))) := by
  have hdecoder : b.nextDecoderId + 1 = .ofNat (2 * k + 1) := by
    rw [h.nextDecoderId]
    exact (UInt32.ofNat_add _ _).symm
  have hdecoders : Listed (b.decoders ++
      [⟨b.nextDecoderId, b.nextNodeId + 1 + 1, b.nextUbcId, .plToNode, .healthy⟩,
        ⟨b.nextDecoderId + 1, b.nextNodeId + 1 + 1 + 1, b.nextUbcId, .eidToEntity, .healthy⟩])
      fun i x => x.id = .ofNat i := by
    rw [List.append_cons]
    refine (h.decoders.snoc (h.decoderCount ▸ h.nextDecoderId)).snoc ?_
    rw [List.length_append, h.decoderCount]
    exact hdecoder
  exact {
    allocated := by
      have hunit := h.allocated.pushUnit (.ofNat (k / U))
      rwa [show H + 4 * k + 4 = H + 4 * (k + 1) by omega] at hunit
    hosts := h.hosts
    hostCount := h.hostCount
    ubpus := h.ubpus.snoc ⟨h.ubpuCount ▸ h.nextUbpuId, by rw [h.ubpuCount]⟩
    ubpuCount := by rw [Build.pushUnit, List.length_append, h.ubpuCount]; rfl
    ubcs := h.ubcs.snoc ⟨h.ubcCount ▸ h.nextUbcId, h.ubcCount ▸ h.nextUbpuId, by rw [h.ubcCount]⟩
    ubcCount := by rw [Build.pushUnit, List.length_append, h.ubcCount]; rfl
    decoders := hdecoders
    decoderCount := by
      rw [Build.pushUnit, List.length_append, h.decoderCount, List.length_cons,
        List.length_singleton]
      omega
    entities := h.entities
    entityCount := h.entityCount
    nextUbpuId := by rw [Build.pushUnit, h.nextUbpuId]; exact (UInt32.ofNat_add _ _).symm
    nextUbcId := by rw [Build.pushUnit, h.nextUbcId]; exact (UInt32.ofNat_add _ _).symm
    nextDecoderId := by rw [Build.pushUnit, hdecoder]; exact (UInt32.ofNat_add _ _).symm
    nextEntityId := h.nextEntityId
    domains := h.domains
    routes := h.routes }

theorem Units.addUbpu (h : Units H U k e b) (E : ℕ) :
    Units H U (k + 1) (e + E) (b.addUbpu E (.ofNat (k / U))) :=
  iterate_invariant (P := fun j b => Units H U (k + 1) (e + j) b)
    (fun _ _ _ hb => hb.pushEntity _ _) h.pushUnit

/-- **The two loops over the hosts** create all units, host by host. -/
theorem units_units (topology : TopologyConfig) :
    Units topology.hosts.toNat topology.ubpusPerHost.toNat
      (topology.hosts.toNat * topology.ubpusPerHost.toNat)
      (topology.hosts.toNat * topology.ubpusPerHost.toNat * topology.entitiesPerUbpu.toNat)
      (units topology) := by
  have hhosts := foldl_range_invariant (n := topology.hosts.toNat)
    (P := fun H b => Units H topology.ubpusPerHost.toNat 0 0 b) (fun H b _ hb => hb.pushHost)
    (start_units _)
  refine foldl_range_invariant (P := fun h b => Units topology.hosts.toNat
    topology.ubpusPerHost.toNat (h * topology.ubpusPerHost.toNat)
    (h * topology.ubpusPerHost.toNat * topology.entitiesPerUbpu.toNat) b)
    (fun h b _ hb => ?_) (by simpa using hhosts)
  have hhost := iterate_invariant (n := topology.ubpusPerHost.toNat)
    (f := fun b : Build => b.addUbpu topology.entitiesPerUbpu.toNat (.ofNat h))
    (P := fun j b => Units topology.hosts.toNat topology.ubpusPerHost.toNat
      (h * topology.ubpusPerHost.toNat + j)
      ((h * topology.ubpusPerHost.toNat + j) * topology.entitiesPerUbpu.toNat) b)
    (fun j b hj hb => ?_) (by simpa using hb)
  · simpa only [Nat.add_mul, Nat.one_mul] using hhost
  · have hdiv : (h * topology.ubpusPerHost.toNat + j) / topology.ubpusPerHost.toNat = h := by
      rw [Nat.mul_comm, Nat.mul_add_div (by omega), Nat.div_eq_of_lt hj, Nat.add_zero]
    have hunit := hb.addUbpu topology.entitiesPerUbpu.toNat
    rw [hdiv] at hunit
    simpa only [Nat.add_mul, Nat.one_mul, Nat.add_assoc] using hunit

/-! ### Domains -/

/-- The objects behind those of `base`: `d` domains, `u` memory units and `r` routes. -/
structure Domains (base : Build) (n d u r : ℕ) (b : Build) : Prop where
  same : b.hosts = base.hosts ∧ b.ubpus = base.ubpus ∧ b.ubcs = base.ubcs ∧
    b.decoders = base.decoders ∧ b.entities = base.entities
  allocated : Allocated b (n + d + u)
  domains : Listed b.domains fun i x => x.id = .ofNat i
  domainCount : b.domains.length = d
  ummus : Listed b.ummus fun i x => x.id = .ofNat i
  ummuCount : b.ummus.length = u
  nextUmmuId : b.nextUmmuId = .ofNat u
  routeIds : Listed b.routes fun i x => x.binding.id = .ofNat i
  routeCount : b.routes.length = r
  nextRouteId : b.nextRouteId = .ofNat r
  routes : ∀ route ∈ b.routes, b.toTopology.Wired route
  attached : ∀ ummu ∈ b.ummus, b.toTopology.Attached ummu

/-- More domains may come. -/
structure Grows (b b' : Build) : Prop where
  hosts : b.hosts ⊆ b'.hosts
  ubpus : b.ubpus ⊆ b'.ubpus
  ubcs : b.ubcs ⊆ b'.ubcs
  domains : b.domains ⊆ b'.domains

theorem Grows.wired (h : Grows b b') {route : SimRoute} (hroute : b.toTopology.Wired route) :
    b'.toTopology.Wired route := by
  constructor
  · intro hscope
    obtain ⟨ubpu, hubpu, ubc, hubc, domain, hdomain, hjoins⟩ := hroute.unit hscope
    exact ⟨ubpu, h.ubpus hubpu, ubc, h.ubcs hubc, domain, h.domains hdomain, hjoins⟩
  · intro hlevel
    obtain ⟨host, hhost, domain, hdomain, hjoins⟩ := hroute.domain hlevel
    exact ⟨host, h.hosts hhost, domain, h.domains hdomain, hjoins⟩

theorem Grows.attached (h : Grows b b') {ummu : SimUmmu} (hummu : b.toTopology.Attached ummu) :
    b'.toTopology.Attached ummu := by
  obtain ⟨domain, hdomain, ubc, hubc, hattached⟩ := hummu
  exact ⟨domain, h.domains hdomain, ubc, h.ubcs hubc, hattached⟩

variable {base : Build} {d u r : ℕ}

/-- Before the first domain. -/
theorem Units.noDomains (h : Units H U k e b) : Domains b (H + 4 * k) 0 0 0 b := by
  obtain ⟨hnoDomains, hnoUmmus, hummuId⟩ := h.domains
  obtain ⟨hnoRoutes, hrouteId⟩ := h.routes
  refine ⟨⟨rfl, rfl, rfl, rfl, rfl⟩, h.allocated, ?_, ?_, ?_, ?_, hummuId, ?_, ?_, hrouteId, ?_, ?_⟩
  · rw [hnoDomains]
    exact listed_nil
  · rw [hnoDomains]
    rfl
  · rw [hnoUmmus]
    exact listed_nil
  · rw [hnoUmmus]
    rfl
  · rw [hnoRoutes]
    exact listed_nil
  · rw [hnoRoutes]
    rfl
  · rw [hnoRoutes]
    exact fun _ h => (by cases h)
  · rw [hnoUmmus]
    exact fun _ h => (by cases h)

theorem Domains.pushDomain (h : Domains base n d d r b) (domain : UbDomainConfig) :
    Domains base n (d + 1) d r (b.pushDomain (.ofNat d) domain) := by
  have hgrows : Grows b (b.pushDomain (.ofNat d) domain) :=
    ⟨fun _ => id, fun _ => id, fun _ => id, List.subset_append_left _ _⟩
  exact {
    same := h.same
    allocated := by
      have hnode := h.allocated.pushDomain (.ofNat d) domain
      rwa [show n + d + d + 1 = n + (d + 1) + d by omega] at hnode
    domains := h.domains.snoc (by rw [h.domainCount])
    domainCount := by rw [Build.pushDomain, List.length_append, h.domainCount]; rfl
    ummus := h.ummus
    ummuCount := h.ummuCount
    nextUmmuId := h.nextUmmuId
    routeIds := h.routeIds
    routeCount := h.routeCount
    nextRouteId := h.nextRouteId
    routes := fun route hroute => hgrows.wired (h.routes route hroute)
    attached := fun ummu hummu => hgrows.attached (h.attached ummu hummu) }

theorem Domains.pushUmmu (h : Domains base n (d + 1) d r b) (ubcId : UInt32)
    (hattached : ∀ ummu : SimUmmu, ummu.ubcId = ubcId → ummu.domainId = .ofNat d →
      b.toTopology.Attached ummu) :
    Domains base n (d + 1) (d + 1) r (b.pushUmmu ubcId (.ofNat d)) := by
  have hgrows : Grows b (b.pushUmmu ubcId (.ofNat d)) :=
    ⟨fun _ => id, fun _ => id, fun _ => id, fun _ => id⟩
  exact {
    same := h.same
    allocated := h.allocated.pushUmmu ubcId (.ofNat d)
    domains := h.domains
    domainCount := h.domainCount
    ummus := h.ummus.snoc (h.ummuCount ▸ h.nextUmmuId)
    ummuCount := by rw [Build.pushUmmu, List.length_append, h.ummuCount]; rfl
    nextUmmuId := by rw [Build.pushUmmu, h.nextUmmuId]; exact (UInt32.ofNat_add _ _).symm
    routeIds := h.routeIds
    routeCount := h.routeCount
    nextRouteId := h.nextRouteId
    routes := fun route hroute => hgrows.wired (h.routes route hroute)
    attached := by
      intro ummu hummu
      rcases List.mem_append.1 hummu with hold | hnew
      · exact hgrows.attached (h.attached ummu hold)
      · obtain rfl := List.mem_singleton.1 hnew
        exact hgrows.attached (hattached _ rfl rfl) }

theorem Domains.pushRoute (h : Domains base n d u r b) {scope : RouteScope} {fromNode toNode : NodeId}
    {level : PlLevel} {domainId : UInt32}
    (hwired : ∀ id, b.toTopology.Wired ⟨⟨id, scope, fromNode, toNode, level⟩, domainId, .healthy⟩) :
    Domains base n d u (r + 1) (b.pushRoute scope fromNode toNode level domainId) := by
  have hgrows : Grows b (b.pushRoute scope fromNode toNode level domainId) :=
    ⟨fun _ => id, fun _ => id, fun _ => id, fun _ => id⟩
  exact {
    same := h.same
    allocated := ⟨h.allocated.ids, h.allocated.next⟩
    domains := h.domains
    domainCount := h.domainCount
    ummus := h.ummus
    ummuCount := h.ummuCount
    nextUmmuId := h.nextUmmuId
    routeIds := h.routeIds.snoc (h.routeCount ▸ h.nextRouteId)
    routeCount := by rw [Build.pushRoute, List.length_append, h.routeCount]; rfl
    nextRouteId := by rw [Build.pushRoute, h.nextRouteId]; exact (UInt32.ofNat_add _ _).symm
    routes := by
      intro route hroute
      rcases List.mem_append.1 hroute with hold | hnew
      · exact hgrows.wired (h.routes route hold)
      · obtain rfl := List.mem_singleton.1 hnew
        exact hgrows.wired (hwired _)
    attached := fun ummu hummu => hgrows.attached (h.attached ummu hummu) }

theorem index_ok {α : Type} {l : List α} {i : ℕ} {x : α} (h : l[i]? = some x) :
    index l i = .ok x := by
  rw [index, h]

/-- The number of a unit of a host is below the number of units. -/
theorem unit_lt {hosts ubpusPerHost hostId : UInt32} (hhost : hostId < hosts) {i : ℕ}
    (hi : i < ubpusPerHost.toNat) :
    hostId.toNat * ubpusPerHost.toNat + i < hosts.toNat * ubpusPerHost.toNat := by
  have hlt : hostId.toNat < hosts.toNat := UInt32.lt_iff_toNat_lt.1 hhost
  calc hostId.toNat * ubpusPerHost.toNat + i
      < hostId.toNat * ubpusPerHost.toNat + ubpusPerHost.toNat := by omega
    _ = (hostId.toNat + 1) * ubpusPerHost.toNat := by rw [Nat.add_mul, Nat.one_mul]
    _ ≤ hosts.toNat * ubpusPerHost.toNat := Nat.mul_le_mul_right _ hlt

theorem unit_eq (hostId ubpusPerHost : UInt32) (i : ℕ) :
    hostId * ubpusPerHost + .ofNat i = .ofNat (hostId.toNat * ubpusPerHost.toNat + i) := by
  rw [UInt32.ofNat_add, UInt32.ofNat_mul, UInt32.ofNat_toNat, UInt32.ofNat_toNat]

theorem unit_toNat {hostId ubpusPerHost : UInt32} {i : ℕ}
    (h : hostId.toNat * ubpusPerHost.toNat + i < 2 ^ 32) :
    (hostId * ubpusPerHost + .ofNat i).toNat = hostId.toNat * ubpusPerHost.toNat + i := by
  rw [unit_eq, UInt32.toNat_ofNat', Nat.mod_eq_of_lt h]

/-- The routes of a unit when all indices are in range. -/
theorem addRoutes_ok {ubpusPerHost hostId : UInt32} {domain : UbDomainConfig} {d i : ℕ}
    {simDomain : SimDomain} {ubpu : SimUbpu} {ubc : SimUbc} (hdomain : b.domains[d]? = some simDomain)
    (hubpu : b.ubpus[(hostId * ubpusPerHost + .ofNat i).toNat]? = some ubpu)
    (hubc : b.ubcs[(hostId * ubpusPerHost + .ofNat i).toNat]? = some ubc) :
    b.addRoutes ubpusPerHost domain d hostId i =
      .ok ((b.pushRoute (if domain.hosts.length = 1 then .hostLocal else .domainShared)
        (hostId.toUInt64 + 1) simDomain.nodeId .l4 (.ofNat d)).pushRoute .ubLocal ubpu.nodeId
          ubc.nodeId .l2 (.ofNat d)) := by
  simp only [Build.addRoutes, Build.pushRoute, index_ok hdomain, index_ok hubpu, index_ok hubc, bind,
    Except.bind]
  rfl

/-- The `i`-th unit of a host. -/
structure HasUnit (b : Build) (hostId : UInt32) (ubpuId : UInt32) (ubpu : SimUbpu) (ubc : SimUbc) :
    Prop where
  getUbpu : b.ubpus[ubpuId.toNat]? = some ubpu
  getUbc : b.ubcs[ubpuId.toNat]? = some ubc
  ids : ubpu.id = ubpuId ∧ ubc.id = ubpuId ∧ ubc.ubpuId = ubpuId
  onHost : ubpu.hostId = hostId ∧ ubc.hostId = hostId

/-- The computed index of a unit is in range, and leads to a unit of the host. -/
theorem Units.exists_unit {hosts ubpusPerHost : UInt32}
    (h : Units hosts.toNat ubpusPerHost.toNat (hosts.toNat * ubpusPerHost.toNat) e b)
    (hsmall : hosts.toNat * ubpusPerHost.toNat < 2 ^ 32) {hostId : UInt32} (hhost : hostId < hosts)
    {i : ℕ} (hi : i < ubpusPerHost.toNat) :
    ∃ ubpu ubc, HasUnit b hostId (hostId * ubpusPerHost + .ofNat i) ubpu ubc := by
  have hindex := unit_lt hhost hi
  have hid := unit_eq hostId ubpusPerHost i
  have hnat := unit_toNat (Nat.lt_trans hindex hsmall)
  have hdiv : (hostId.toNat * ubpusPerHost.toNat + i) / ubpusPerHost.toNat = hostId.toNat := by
    rw [Nat.mul_comm, Nat.mul_add_div (by omega), Nat.div_eq_of_lt hi, Nat.add_zero]
  obtain ⟨ubpu, hubpu⟩ : ∃ ubpu, b.ubpus[hostId.toNat * ubpusPerHost.toNat + i]? = some ubpu :=
    ⟨_, List.getElem?_eq_getElem (by rw [h.ubpuCount]; exact hindex)⟩
  obtain ⟨ubc, hubc⟩ : ∃ ubc, b.ubcs[hostId.toNat * ubpusPerHost.toNat + i]? = some ubc :=
    ⟨_, List.getElem?_eq_getElem (by rw [h.ubcCount]; exact hindex)⟩
  obtain ⟨hubpuId, hubpuHost⟩ := h.ubpus _ _ hubpu
  obtain ⟨hubcId, hubcUbpu, hubcHost⟩ := h.ubcs _ _ hubc
  rw [hdiv, UInt32.ofNat_toNat] at hubpuHost hubcHost
  rw [← hid] at hubpuId hubcId hubcUbpu
  rw [← hnat] at hubpu hubc
  exact ⟨ubpu, ubc, hubpu, hubc, ⟨hubpuId, hubcId, hubcUbpu⟩, hubpuHost, hubcHost⟩

theorem HasUnit.same {hostId ubpuId : UInt32} {ubpu : SimUbpu} {ubc : SimUbc}
    (h : HasUnit base hostId ubpuId ubpu ubc) (hubpus : b.ubpus = base.ubpus)
    (hubcs : b.ubcs = base.ubcs) : HasUnit b hostId ubpuId ubpu ubc :=
  ⟨hubpus ▸ h.getUbpu, hubcs ▸ h.getUbc, h.ids, h.onHost⟩

/-- The node of a host. -/
theorem Units.exists_host {H U : ℕ} (h : Units H U k e b) {hostId : UInt32}
    (hhost : hostId.toNat < H) :
    ∃ host ∈ b.hosts, host.id = hostId ∧ host.nodeId = hostId.toUInt64 + 1 := by
  obtain ⟨host, hget⟩ : ∃ host, b.hosts[hostId.toNat]? = some host :=
    ⟨_, List.getElem?_eq_getElem (by rw [h.hostCount]; exact hhost)⟩
  obtain ⟨hid, hnode⟩ := h.hosts _ _ hget
  have hcast : UInt64.ofNat hostId.toNat = hostId.toUInt64 := by
    have hlt := hostId.toNat_lt
    rw [← UInt64.toNat_inj, UInt32.toNat_toUInt64, UInt64.toNat_ofNat', Nat.mod_eq_of_lt (by omega)]
  refine ⟨_, List.mem_of_getElem? hget, hid.trans UInt32.ofNat_toNat, hnode.trans ?_⟩
  rw [UInt64.ofNat_add, hcast]
  rfl

/-- The current domain of the loop. -/
def Current (b : Build) (d : ℕ) (domain : UbDomainConfig) : Prop :=
  ∃ simDomain, b.domains[d]? = some simDomain ∧ simDomain.id = .ofNat d ∧
    simDomain.hosts = domain.hosts

section

variable {hosts ubpusPerHost : UInt32}
  (hbase : Units hosts.toNat ubpusPerHost.toNat (hosts.toNat * ubpusPerHost.toNat) e base)
  (hsmall : hosts.toNat * ubpusPerHost.toNat < 2 ^ 32)
include hbase hsmall

/-- The two routes of one unit. -/
theorem Domains.addRoutes {domain : UbDomainConfig} (h : Domains base n (d + 1) (d + 1) r b)
    (hcurrent : Current b d domain) {hostId : UInt32} (hmem : hostId ∈ domain.hosts)
    (hhost : hostId < hosts) {i : ℕ} (hi : i < ubpusPerHost.toNat) :
    ∃ b', b.addRoutes ubpusPerHost domain d hostId i = .ok b' ∧
      Domains base n (d + 1) (d + 1) (r + 2) b' ∧ Current b' d domain := by
  obtain ⟨simDomain, hget, hid, hhosts⟩ := hcurrent
  obtain ⟨hsameHosts, hsameUbpus, hsameUbcs, _, _⟩ := h.same
  obtain ⟨ubpu, ubc, hunit⟩ := hbase.exists_unit hsmall hhost hi
  obtain ⟨host, hhostMem, hhostId, hhostNode⟩ := hbase.exists_host (UInt32.lt_iff_toNat_lt.1 hhost)
  have hunit := hunit.same hsameUbpus hsameUbcs
  have hdomain : simDomain ∈ b.domains := List.mem_of_getElem? hget
  have hscope : ∀ scope : RouteScope, (scope = if domain.hosts.length = 1 then .hostLocal
      else .domainShared) → scope ≠ .ubLocal := by
    rintro scope rfl
    split_ifs <;> simp
  let scope : RouteScope := if domain.hosts.length = 1 then .hostLocal else .domainShared
  have hfirst : Domains base n (d + 1) (d + 1) (r + 1)
      (b.pushRoute scope (hostId.toUInt64 + 1) simDomain.nodeId .l4 (.ofNat d)) := by
    refine h.pushRoute fun id => ⟨fun hlocal => absurd hlocal (hscope scope rfl), fun _ => ?_⟩
    have hhostMem : host ∈ b.hosts := by
      rw [hsameHosts]
      exact hhostMem
    refine ⟨host, hhostMem, simDomain, hdomain, hhostNode.symm, rfl, hid, ?_⟩
    rw [hhostId, hhosts]
    exact hmem
  have hsecond : Domains base n (d + 1) (d + 1) (r + 2)
      ((b.pushRoute scope (hostId.toUInt64 + 1) simDomain.nodeId .l4 (.ofNat d)).pushRoute .ubLocal
        ubpu.nodeId ubc.nodeId .l2 (.ofNat d)) := by
    refine hfirst.pushRoute fun id => ⟨fun _ => ?_, fun hlevel => (by cases hlevel)⟩
    refine ⟨ubpu, List.mem_of_getElem? hunit.getUbpu, ubc, List.mem_of_getElem? hunit.getUbc,
      simDomain, hdomain, rfl, rfl, ?_, ?_, hid, ?_⟩
    · rw [hunit.ids.2.2, hunit.ids.1]
    · rw [hunit.onHost.1, hunit.onHost.2]
    · rw [hunit.onHost.1, hhosts]
      exact hmem
  exact ⟨_, addRoutes_ok hget hunit.getUbpu hunit.getUbc, hsecond, simDomain, hget, hid, hhosts⟩

/-- One domain: its object, its memory unit and its routes. -/
theorem Domains.addDomain (h : Domains base n d d r b) {domain : UbDomainConfig}
    (hne : domain.hosts ≠ []) (hhosts : ∀ hostId ∈ domain.hosts, hostId < hosts)
    (hubpus : ubpusPerHost ≠ 0) :
    ∃ b', b.addDomain ubpusPerHost domain d = .ok b' ∧
      Domains base n (d + 1) (d + 1) (r + 2 * ubpusPerHost.toNat * domain.hosts.length) b' := by
  let b₁ := b.pushDomain (.ofNat d) domain
  have h₁ : Domains base n (d + 1) d r b₁ := h.pushDomain domain
  have hcurrent : Current b₁ d domain := by
    refine ⟨⟨.ofNat d, b.nextNodeId, domain.id, domain.hosts, .healthy⟩, ?_, rfl, rfl⟩
    show (b.domains ++ [_])[d]? = _
    rw [List.getElem?_append_right (by rw [h.domainCount]), h.domainCount, Nat.sub_self]
    rfl
  obtain ⟨firstHost, rest, hfirst⟩ := List.exists_cons_of_ne_nil hne
  have hfirstHost : firstHost < hosts := hhosts firstHost (hfirst ▸ List.mem_cons_self)
  have hpositive : 0 < ubpusPerHost.toNat := by
    refine Nat.pos_of_ne_zero fun hzero => hubpus ?_
    rw [← UInt32.toNat_inj, hzero]
    rfl
  have h₂ : Domains base n (d + 1) (d + 1) r
      (b₁.pushUmmu (firstHost * ubpusPerHost) (.ofNat d)) := by
    refine h₁.pushUmmu _ fun ummu hubcId hdomainId => ?_
    obtain ⟨ubpu, ubc, hunit⟩ := hbase.exists_unit hsmall hfirstHost hpositive
    have hunit := hunit.same (b := b₁) h₁.same.2.1 h₁.same.2.2.1
    obtain ⟨simDomain, hget, hid, hdomainHosts⟩ := hcurrent
    refine ⟨simDomain, List.mem_of_getElem? hget, ubc, List.mem_of_getElem? hunit.getUbc,
      hid.trans hdomainId.symm, ?_, ?_⟩
    · rw [hunit.ids.2.1, hubcId]
      exact UInt32.add_zero _
    · rw [hdomainHosts, hfirst, List.head?_cons, hunit.onHost.2]
  -- the loops over the hosts and over their units
  obtain ⟨b', hloop, hb', _⟩ := foldlM_invariant (l := domain.hosts)
    (c := 2 * ubpusPerHost.toNat)
    (P := fun r b => Domains base n (d + 1) (d + 1) r b ∧ Current b d domain)
    (f := fun b hostId => (List.range ubpusPerHost.toNat).foldlM
      (fun b ubpuIndex => b.addRoutes ubpusPerHost domain d hostId ubpuIndex) b)
    (fun r b hostId hmem hb => by
      have hunits := foldlM_invariant (l := List.range ubpusPerHost.toNat) (c := 2)
        (P := fun r b => Domains base n (d + 1) (d + 1) r b ∧ Current b d domain)
        (f := fun b ubpuIndex => b.addRoutes ubpusPerHost domain d hostId ubpuIndex)
        (fun r b i hi hb => hb.1.addRoutes hbase hsmall hb.2 hmem (hhosts hostId hmem)
          (List.mem_range.1 hi)) hb
      rwa [List.length_range] at hunits) ⟨h₂, hcurrent⟩
  refine ⟨b', ?_, hb'⟩
  unfold Build.addDomain
  rw [index_ok (show domain.hosts[0]? = some firstHost by rw [hfirst]; rfl)]
  exact hloop

theorem Domains.addDomains {topology : TopologyConfig}
    (hubpus : topology.ubpusPerHost = ubpusPerHost) (hpositive : ubpusPerHost ≠ 0)
    {domains : List UbDomainConfig} (h : Domains base n d d r b)
    (hdomains : ∀ domain ∈ domains, domain.hosts ≠ [] ∧ ∀ hostId ∈ domain.hosts, hostId < hosts) :
    ∃ b', b.addDomains ubpusPerHost domains d = .ok b' ∧
      Domains base n (d + domains.length) (d + domains.length) (r + topology.routeCount domains) b' := by
  induction domains generalizing b d r with
  | nil => exact ⟨b, rfl, h⟩
  | cons domain rest ih =>
    obtain ⟨hne, hin⟩ := hdomains domain List.mem_cons_self
    obtain ⟨b₁, hstep, h₁⟩ := h.addDomain hbase hsmall hne hin hpositive
    obtain ⟨b', hrest, h'⟩ := ih h₁ fun other hother => hdomains other (List.mem_cons_of_mem _ hother)
    refine ⟨b', ?_, ?_⟩
    · rw [Build.addDomains, hstep]
      exact hrest
    · rw [List.length_cons, topology.routeCount_cons, hubpus, ← Nat.add_assoc r]
      rwa [show d + (rest.length + 1) = d + 1 + rest.length by omega]

end

/-- The topology is well formed if the ids of all objects fit. -/
theorem Domains.wellFormed (hbase : Units H U k e base) (h : Domains base n d u r b)
    (hnodes : n + d + u < 2 ^ 64) (hhosts : H < 2 ^ 32) (hunits : 2 * k < 2 ^ 32)
    (hentities : e < 2 ^ 32) (hdomains : d < 2 ^ 32) (hummus : u < 2 ^ 32) (hroutes : r < 2 ^ 32) :
    b.toTopology.WellFormed := by
  obtain ⟨hsameHosts, hsameUbpus, hsameUbcs, hsameDecoders, hsameEntities⟩ := h.same
  exact {
    nodeIds := h.allocated.nodup hnodes
    hosts := by
      show Numbered b.hosts _
      rw [hsameHosts]
      exact (hbase.hosts.imp fun _ _ h => h.1).numbered (by rwa [hbase.hostCount])
    ubpus := by
      show Numbered b.ubpus _
      rw [hsameUbpus]
      exact (hbase.ubpus.imp fun _ _ h => h.1).numbered (by rw [hbase.ubpuCount]; omega)
    ubcs := by
      show Numbered b.ubcs _
      rw [hsameUbcs]
      exact (hbase.ubcs.imp fun _ _ h => h.1).numbered (by rw [hbase.ubcCount]; omega)
    ummus := h.ummus.numbered (by rwa [h.ummuCount])
    entities := by
      show Numbered b.entities _
      rw [hsameEntities]
      exact hbase.entities.numbered (by rwa [hbase.entityCount])
    decoders := by
      show Numbered b.decoders _
      rw [hsameDecoders]
      exact hbase.decoders.numbered (by rwa [hbase.decoderCount])
    domains := h.domains.numbered (by rwa [h.domainCount])
    routeIds := h.routeIds.numbered (by rwa [h.routeCount])
    routes := h.routes
    attached := h.attached }

end Build

/-- Every domain has routes. -/
theorem TopologyConfig.length_le_routeCount (topology : TopologyConfig)
    (hpositive : topology.ubpusPerHost ≠ 0) {domains : List UbDomainConfig}
    (hdomains : ∀ domain ∈ domains, domain.hosts ≠ []) :
    domains.length ≤ topology.routeCount domains := by
  induction domains with
  | nil => exact Nat.le_refl 0
  | cons domain rest ih =>
    have hubpus : topology.ubpusPerHost.toNat ≠ 0 := fun hzero =>
      hpositive (UInt32.toNat_inj.1 hzero)
    have hhosts : domain.hosts.length ≠ 0 := fun hzero =>
      hdomains domain List.mem_cons_self (List.length_eq_zero_iff.1 hzero)
    have hterm : 1 ≤ 2 * topology.ubpusPerHost.toNat * domain.hosts.length :=
      Nat.one_le_iff_ne_zero.2 (Nat.mul_ne_zero (Nat.mul_ne_zero (by omega) hubpus) hhosts)
    have hrest := ih fun other hother => hdomains other (List.mem_cons_of_mem _ hother)
    rw [List.length_cons, topology.routeCount_cons]
    omega

/-- **The topology of an accepted configuration is well formed**, as long as there are fewer than
`2^31` objects of each kind: the construction never goes out of range and creates all objects, node
ids are distinct, ids are positions, and routes and memory units are wired as they should be. -/
theorem SimTopology.fromConfig_wellFormed (config : ScenarioConfig)
    (hvalid : config.validate = .ok ()) (hsmall : config.topology.Small) :
    ∃ t, fromConfig config = .ok t ∧ t.WellFormed ∧ t.Complete config.topology := by
  have hdomains := config.validate_domains hvalid
  have hpositive := config.validate_ubpus hvalid
  have hunits := Build.units_units config.topology
  have hdecoders := hsmall.decoders
  have hhosts := hsmall.hosts
  have hentities := hsmall.entities
  have hroutes := hsmall.routes
  have hcount := config.topology.length_le_routeCount hpositive fun domain hdomain =>
    (hdomains domain hdomain).1
  obtain ⟨b, hbuild, hb⟩ := hunits.noDomains.addDomains hunits (by omega) rfl hpositive hdomains
  rw [Nat.zero_add, Nat.zero_add] at hb
  refine ⟨b.toTopology, ?_, ?_, ?_⟩
  · rw [fromConfig, hvalid]
    simp only [hbuild]
    rfl
  · exact hb.wellFormed hunits (by omega) (by omega) (by omega) (by omega) (by omega) (by omega)
      (by omega)
  · obtain ⟨hsameHosts, hsameUbpus, hsameUbcs, hsameDecoders, hsameEntities⟩ := hb.same
    exact {
      hosts := (congrArg List.length hsameHosts).trans hunits.hostCount
      ubpus := (congrArg List.length hsameUbpus).trans hunits.ubpuCount
      ubcs := (congrArg List.length hsameUbcs).trans hunits.ubcCount
      decoders := (congrArg List.length hsameDecoders).trans hunits.decoderCount
      entities := (congrArg List.length hsameEntities).trans hunits.entityCount
      domains := hb.domainCount
      ummus := hb.ummuCount
      routes := hb.routeCount }

/-- Two hosts with two units each, in a domain of both and a domain of the second. -/
def ScenarioConfig.twoHosts : ScenarioConfig :=
  { name := "two hosts"
    durationUs := 1000
    topology :=
      { hosts := 2, ubpusPerHost := 2, entitiesPerUbpu := 2
        ubDomains := [⟨"both", [0, 1]⟩, ⟨"second", [1]⟩] }
    activeLevels := [2, 3]
    maxScopeDepth := 4
    levels := ⟨⟨8, .finite 1, .finite 0⟩, ⟨8, .finite 1, .finite 0⟩, ⟨8, .finite 1, .finite 0⟩⟩
    workload := .dualNodeCacheFill 1 }

theorem SimTopology.fromConfig_wellFormed_twoHosts :
    ScenarioConfig.twoHosts.validate = .ok () ∧ ScenarioConfig.twoHosts.topology.Small ∧
      ∃ t, fromConfig .twoHosts = .ok t ∧ t.WellFormed ∧
        t.Complete ScenarioConfig.twoHosts.topology := by
  have hvalid : ScenarioConfig.twoHosts.validate = .ok () := by decide +kernel
  have hsmall : ScenarioConfig.twoHosts.topology.Small := by
    constructor <;> decide +kernel
  exact ⟨hvalid, hsmall, fromConfig_wellFormed .twoHosts hvalid hsmall⟩

end LinquUb
