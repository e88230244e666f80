import Mathlib.Algebra.Order.Field.Rat
import Mathlib.Data.Rat.Lemmas

/-!
# Scenario configuration

The part of `sim-config` that `ScenarioConfig::validate` reads.

* `F64` is what comparisons can tell about an `f64`;
* `ScenarioConfig.validate` makes the checks of the source in their order;
* `ScenarioConfig.validate_domains` : the hosts of the domains of an accepted configuration.
-/

namespace LinquUb

/-- A floating-point number as comparisons see it. -/
inductive F64
  | nan | negInf | posInf
  | finite (value : ℚ)
deriving DecidableEq

/-- `a <= b`. -/
def F64.le : F64 → F64 → Bool
  | .nan, _ => false
  | _, .nan => false
  | .negInf, _ => true
  | _, .posInf => true
  | .finite a, .finite b => a ≤ b
  | _, _ => false

/-- `a > b`. -/
def F64.gt (a b : F64) : Bool := b.le a && !a.le b

/-- `(0.0..=1.0).contains(&value)`. -/
def F64.inUnit (value : F64) : Bool := F64.le (.finite 0) value && F64.le value (.finite 1)

/-- `char::is_whitespace`. -/
def isWhitespace (c : Char) : Bool :=
  (0x9 ≤ c.toNat && c.toNat ≤ 0xD) || c.toNat == 0x20 || c.toNat == 0x85 || c.toNat == 0xA0 ||
    c.toNat == 0x1680 || (0x2000 ≤ c.toNat && c.toNat ≤ 0x200A) || c.toNat == 0x2028 ||
    c.toNat == 0x2029 || c.toNat == 0x202F || c.toNat == 0x205F || c.toNat == 0x3000

/-- `value.trim().is_empty()`. -/
def isBlank (value : String) : Bool := value.toList.all isWhitespace

inductive ConfigError
  | emptyField (field : String)
  | nonPositive (field : String)
  | nonPositiveCapacity (field : String)
  | invalidWatermark (field : String) (value : F64)
  | watermarkOrder (field : String)
  | hostOutOfRange (hostId hosts : UInt32)
deriving DecidableEq

structure UbDomainConfig where
  id : String
  hosts : List UInt32
deriving DecidableEq, Repr

structure TopologyConfig where
  hosts : UInt32
  ubpusPerHost : UInt32
  entitiesPerUbpu : UInt32
  ubDomains : List UbDomainConfig
deriving DecidableEq, Repr

structure TierConfig where
  capacityBlocks : UInt64
  highWatermark : F64
  lowWatermark : F64
deriving DecidableEq

structure LevelsConfig where
  l2UbpuTier : TierConfig
  l3HostTier : TierConfig
  l4DomainTier : TierConfig
deriving DecidableEq

inductive WorkloadConfig
  | hotsetLoop (qps uniquePrefixes : UInt64) (blocksPerRequest : UInt32)
  | traceReplay (tracePath : String)
  | dualNodeShmemMailbox (rounds payloadBytes : UInt64)
  | dualNodeBlockCompute (rounds : UInt64)
  | dualNodeCacheFill (rounds : UInt64)
  | rustLlmMvp (profile : String) (qps uniquePrefixes : UInt64) (blocksPerRequest : UInt32)
deriving DecidableEq

/-- The fields that are validated. -/
structure ScenarioConfig where
  /-- `scenario.name` -/
  name : String
  /-- `scenario.duration_us` -/
  durationUs : UInt64
  topology : TopologyConfig
  /-- `ub_runtime.active_levels` -/
  activeLevels : List UInt8
  /-- `pypto.scope_runtime.max_scope_depth` -/
  maxScopeDepth : UInt32
  levels : LevelsConfig
  workload : WorkloadConfig
deriving DecidableEq

/-- Return the error if the condition holds. -/
def failIf (cond : Bool) (err : ConfigError) : Except ConfigError Unit :=
  if cond then .error err else .ok ()

def TierConfig.validate (self : TierConfig) (field : String) : Except ConfigError Unit := do
  failIf (self.capacityBlocks == 0) (.nonPositiveCapacity field)
  failIf (!self.highWatermark.inUnit) (.invalidWatermark field self.highWatermark)
  failIf (!self.lowWatermark.inUnit) (.invalidWatermark field self.lowWatermark)
  failIf (self.lowWatermark.gt self.highWatermark) (.watermarkOrder field)

/-- The checks that the hotset and the LLM workload share. -/
def validateRequests (qps uniquePrefixes : UInt64) (blocksPerRequest : UInt32) :
    Except ConfigError Unit := do
  failIf (qps == 0) (.nonPositive "workload.qps")
  failIf (uniquePrefixes == 0) (.nonPositive "workload.unique_prefixes")
  failIf (blocksPerRequest == 0) (.nonPositive "workload.blocks_per_request")

def WorkloadConfig.validate : WorkloadConfig → Except ConfigError Unit
  | .hotsetLoop qps uniquePrefixes blocksPerRequest =>
    validateRequests qps uniquePrefixes blocksPerRequest
  | .traceReplay tracePath => failIf (isBlank tracePath) (.emptyField "workload.trace_path")
  | .dualNodeShmemMailbox rounds payloadBytes => do
    failIf (rounds == 0) (.nonPositive "workload.rounds")
    failIf (payloadBytes == 0) (.nonPositive "workload.payload_bytes")
  | .dualNodeBlockCompute rounds => failIf (rounds == 0) (.nonPositive "workload.rounds")
  | .dualNodeCacheFill rounds => failIf (rounds == 0) (.nonPositive "workload.rounds")
  | .rustLlmMvp profile qps uniquePrefixes blocksPerRequest => do
    failIf (isBlank profile) (.emptyField "workload.profile")
    validateRequests qps uniquePrefixes blocksPerRequest

namespace TopologyConfig

/-- The loop over the hosts of a domain. -/
def validateHosts (self : TopologyConfig) : List UInt32 → Except ConfigError Unit
  | [] => .ok ()
  | hostId :: rest => do
    failIf (hostId ≥ self.hosts) (.hostOutOfRange hostId self.hosts)
    self.validateHosts rest

/-- The loop over the domains. -/
def validateDomains (self : TopologyConfig) : List UbDomainConfig → Except ConfigError Unit
  | [] => .ok ()
  | domain :: rest => do
    failIf domain.hosts.isEmpty (.emptyField "topology.ub_domains[].hosts")
    self.validateHosts domain.hosts
    self.validateDomains rest

end TopologyConfig

def ScenarioConfig.validate (self : ScenarioConfig) : Except ConfigError Unit := do
  failIf (isBlank self.name) (.emptyField "scenario.name")
  failIf (self.durationUs == 0) (.nonPositive "scenario.duration_us")
  failIf (self.topology.hosts == 0) (.nonPositive "topology.hosts")
  failIf (self.topology.ubpusPerHost == 0) (.nonPositive "topology.ubpus_per_host")
  failIf (self.topology.entitiesPerUbpu == 0) (.nonPositive "topology.entities_per_ubpu")
  failIf self.activeLevels.isEmpty (.emptyField "ub_runtime.active_levels")
  failIf (self.maxScopeDepth == 0) (.nonPositive "pypto.scope_runtime.max_scope_depth")
  self.topology.validateDomains self.topology.ubDomains
  self.levels.l2UbpuTier.validate "levels.l2_ubpu_tier"
  self.levels.l3HostTier.validate "levels.l3_host_tier"
  self.levels.l4DomainTier.validate "levels.l4_domain_tier"
  self.workload.validate

/-! ### What is accepted -/

theorem failIf_bind_ok {cond : Bool} {err : ConfigError} {rest : Except ConfigError Unit} :
    (failIf cond err >>= fun _ => rest) = .ok () ↔ cond = false ∧ rest = .ok () := by
  cases cond
  · exact ⟨fun h => ⟨rfl, h⟩, fun h => h.2⟩
  · exact ⟨fun h => (by cases h), fun h => (by cases h.1)⟩

theorem bind_ok {check rest : Except ConfigError Unit} :
    (check >>= fun _ => rest) = .ok () ↔ check = .ok () ∧ rest = .ok () := by
  cases check with
  | ok a => exact ⟨fun h => ⟨rfl, h⟩, fun h => h.2⟩
  | error e => exact ⟨fun h => (by cases h), fun h => (by cases h.1)⟩

namespace TopologyConfig

variable {self : TopologyConfig}

theorem validateHosts_ok {hosts : List UInt32} (h : self.validateHosts hosts = .ok ()) :
    ∀ hostId ∈ hosts, hostId < self.hosts := by
  induction hosts with
  | nil => exact fun _ hmem => (by cases hmem)
  | cons hostId rest ih =>
    obtain ⟨hhost, hrest⟩ := failIf_bind_ok.1 h
    rintro other (_ | ⟨_, hmem⟩)
    · exact UInt32.not_le.1 (of_decide_eq_false hhost)
    · exact ih hrest other hmem

theorem validateDomains_ok {domains : List UbDomainConfig}
    (h : self.validateDomains domains = .ok ()) :
    ∀ domain ∈ domains, domain.hosts ≠ [] ∧ ∀ hostId ∈ domain.hosts, hostId < self.hosts := by
  induction domains with
  | nil => exact fun _ hmem => (by cases hmem)
  | cons domain rest ih =>
    obtain ⟨hempty, hrest⟩ := failIf_bind_ok.1 h
    obtain ⟨hhosts, hrest⟩ := bind_ok.1 hrest
    rintro other (_ | ⟨_, hmem⟩)
    · refine ⟨fun hnil => ?_, validateHosts_ok hhosts⟩
      rw [hnil] at hempty
      cases hempty
    · exact ih hrest other hmem

end TopologyConfig

/-- Every domain of an accepted configuration has hosts, and they are hosts of the topology. -/
theorem ScenarioConfig.validate_domains {self : ScenarioConfig} (h : self.validate = .ok ()) :
    ∀ domain ∈ self.topology.ubDomains,
      domain.hosts ≠ [] ∧ ∀ hostId ∈ domain.hosts, hostId < self.topology.hosts := by
  unfold validate at h
  simp only [bind_ok] at h
  obtain ⟨_, _, _, _, _, _, _, hdomains, _⟩ := h
  exact TopologyConfig.validateDomains_ok hdomains

/-- An accepted configuration has UB processing units. -/
theorem ScenarioConfig.validate_ubpus {self : ScenarioConfig} (h : self.validate = .ok ()) :
    self.topology.ubpusPerHost ≠ 0 := by
  unfold validate at h
  simp only [bind_ok] at h
  obtain ⟨_, _, _, hubpus, _⟩ := h
  intro hzero
  rw [hzero] at hubpus
  cases hubpus

end LinquUb
