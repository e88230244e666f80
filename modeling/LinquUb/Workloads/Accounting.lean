import LinquUb.Topology.WellFormed
import LinquUb.Uapi.HashOrder
import LinquUb.Workloads.Ledger

/-!
# Accounting of the workloads

The counters of a report, the events of its trace and the block store are updated in different
places.  A `FifoSet.Cache` that makes the accesses of the workload links them.

* `Tracks` : the store, the counters and the trace belong to a cache;
* `Workload.workload_ensures` : at the end they belong to the cache that has made all accesses;
* `WorkloadConfig.accounted` : **the counters of the report agree with each other and with the
  summary**;
* `WorkloadConfig.conserved_iff` : **evictions are conserved exactly when the working set of the
  workload never outgrows the store**.
-/

namespace LinquUb

open Action

/-! ### Blocks that leave the store -/

theorem filter_not_mem_drop {α : Type} [DecidableEq α] {items : List α} (h : items.Nodup) (n : ℕ) :
    (items.filter fun a => a ∉ items.drop n) = items.take n := by
  have hparts : (items.take n ++ items.drop n).Nodup := by rwa [List.take_append_drop]
  have hdisjoint := List.disjoint_of_nodup_append hparts
  conv_lhs => rw [← List.take_append_drop n items, List.filter_append]
  rw [List.take_append_drop, List.filter_eq_self.2, List.filter_eq_nil_iff.2, List.append_nil]
  · intro a ha
    simp [ha]
  · intro a ha
    simpa using hdisjoint ha

theorem insert_perm_push (s : FifoSet BlockHash) (block : BlockHash) :
    (s.items.insert block).Perm (s.push block).items := by
  by_cases h : block ∈ s.items
  · rw [List.insert_of_mem h, FifoSet.push_of_mem h]
  · rw [List.insert_of_not_mem h, FifoSet.push_items_of_not_mem h]
    exact (List.perm_append_singleton _ _).symm

/-! ### The books of a cache -/

structure Tracks (capacity : ℕ) (t : Tracked) (c : FifoSet.Cache BlockHash) : Prop where
  store : InMemoryBlockStore.Simulates capacity c.resident t.store
  hits : t.books.hits = c.hits
  misses : t.books.misses = c.misses
  promotions : t.books.promotions = c.misses
  evictions : t.books.evictions = c.evicted.length
  blockWritebacks : t.books.blockWritebacks = c.evicted.length
  evicted : t.books.evicted = c.evicted
  writtenBack : t.writtenBack = c.evicted
  departed : t.departed.Perm (c.evicted ++ c.lost)

/-- A harness whose books are those of a cache. -/
structure InStep (capacity : ℕ) (c : FifoSet.Cache BlockHash) (h : Harness) : Prop where
  tracks : Tracks capacity h.tracked c
  runtime : h.runtime.completed = []
  settled : h.report.Settled

variable {capacity : ℕ} {c : FifoSet.Cache BlockHash} {h h' : Harness}

theorem InStep.quiet (hs : InStep capacity c h) (hq : Quiet h h') : InStep capacity c h' :=
  ⟨hq.tracked ▸ hs.tracks, hq.upkeep.runtime hs.runtime, hq.upkeep.settled hs.runtime hs.settled⟩

namespace Workload

variable {block : BlockHash}

theorem stageInsert_ensures (hsim : InMemoryBlockStore.Simulates capacity c.resident h.store) :
    Ensures (stageInsert block) h fun _ h' => ∃ store departed,
      h' = { h with store, departed := h.departed ++ departed } ∧
        InMemoryBlockStore.Simulates capacity (c.resident.insert capacity block) store ∧
        departed.Perm ((c.resident.push block).items.take
          ((c.resident.push block).excess capacity)) := by
  obtain ⟨store, hcall, hsim'⟩ := hsim.call (.stageInsert block)
  refine ensures_get_bind (ensures_orPanic_bind fun store' hstage => ?_)
  rw [InMemoryBlockStore.call, hstage] at hcall
  obtain ⟨-, rfl⟩ := Prod.mk.inj (Option.some.inj hcall)
  intro _ h' hexec
  cases hexec
  refine ⟨store', _, rfl, hsim', ?_⟩
  rw [departures, hsim.contents, hsim'.contents]
  refine ((insert_perm_push c.resident block).filter _).trans ?_
  exact .of_eq (filter_not_mem_drop (c.resident.push block).nodup _)

theorem evict_ensures (hsim : InMemoryBlockStore.Simulates capacity c.resident h.store)
    (maxBlocks : ℕ) :
    Ensures (evict maxBlocks) h fun evicted h' => evicted = c.resident.items.take maxBlocks ∧
      ∃ store, h' = { h with store, departed := h.departed ++ c.resident.items.take maxBlocks } ∧
        InMemoryBlockStore.Simulates capacity (c.resident.drop maxBlocks) store := by
  obtain ⟨store, hcall, hsim'⟩ := hsim.call (.evict maxBlocks)
  obtain ⟨hreply, rfl⟩ := Prod.mk.inj (Option.some.inj hcall)
  intro evicted h' hexec
  cases hexec
  refine ⟨InMemoryBlockStore.StoreReply.evicted.inj hreply, _, ?_, hsim'⟩
  rw [departures, hsim.contents, hsim'.contents]
  congr 2
  exact filter_not_mem_drop c.resident.nodup maxBlocks

theorem quiet_emit {event : TraceEvent} (hobserves : event.observes = false)
    (hevicted : event.evictedBlock = none) : Along Quiet (emit event) := by
  refine quiet_count fun report => ⟨?_, fun hsettled => ⟨?_, hsettled.fallback⟩⟩
  · simp [WorkloadRunReport.books, evictedBlocks, hevicted]
  · simp [observed, hobserves, hsettled.completions]

/-- The part of the harness that belongs to the store has changed by `f`. -/
structure Changed (f : Tracked → Tracked) (h h' : Harness) : Prop where
  tracked : h'.tracked = f h.tracked
  upkeep : Upkeep h h'

variable {f g : Tracked → Tracked} {h'' : Harness}

theorem Changed.trans (hf : Changed f h h') (hg : Changed g h' h'') :
    Changed (fun t => g (f t)) h h'' :=
  ⟨by rw [hg.tracked, hf.tracked], hf.upkeep.trans hg.upkeep⟩

theorem Changed.quiet (hf : Changed f h h') (hq : Quiet h' h'') : Changed f h h'' :=
  hf.trans (g := id) ⟨hq.tracked, hq.upkeep⟩

theorem Changed.after_quiet (hq : Quiet h h') (hf : Changed f h' h'') : Changed f h h'' :=
  Changed.trans (f := id) ⟨hq.tracked, hq.upkeep⟩ hf

theorem changed_count_bind {β : Type} {change : WorkloadRunReport → WorkloadRunReport}
    {k : PUnit → Workload β} {Q : β → Harness → Prop}
    (hchange : Changed f h { h with report := change h.report })
    (hk : ∀ h₁, Changed f h h₁ → Ensures (k ⟨⟩) h₁ Q) : Ensures (count change >>= k) h Q :=
  ensures_count_bind (hk _ hchange)

/-- A promotion entered the block and displaced what the store has no room for. -/
def Promoted (capacity : ℕ) (c : FifoSet.Cache BlockHash) (block : BlockHash) (h h' : Harness) :
    Prop :=
  ∃ store departed, Changed (fun t => { t with
      store
      books := { t.books with promotions := t.books.promotions + 1 }
      departed := t.departed ++ departed }) h h' ∧
    InMemoryBlockStore.Simulates capacity (c.resident.insert capacity block) store ∧
    departed.Perm ((c.resident.push block).items.take ((c.resident.push block).excess capacity))

theorem promote_ensures {between : Workload PUnit} (hbetween : Along Quiet between)
    (task : TaskKey) (planner : RecursiveRoutePlanner) (topology : SimTopology) (at_ promotedAt : ℕ)
    (hsim : InMemoryBlockStore.Simulates capacity c.resident h.store) :
    Ensures (promote task planner topology block at_ promotedAt between) h fun _ h' =>
      Promoted capacity c block h h' := by
  refine (quiet_lift _ h).bind fun decision h₁ hq₁ => ?_
  refine (quiet_emit rfl rfl h₁).bind fun _ h₂ hq₂ => (hbetween h₂).bind fun _ h₃ hq₃ => ?_
  have hq := quiet_trans _ _ _ (quiet_trans _ _ _ hq₁ hq₂) hq₃
  have hstore : h₃.store = h.store := congrArg Tracked.store hq.tracked
  rw [← hstore] at hsim
  refine (stageInsert_ensures hsim).bind ?_
  rintro _ _ ⟨store, departed, rfl, hsim', hdeparted⟩
  refine ensures_count_bind (ensures_get_bind ?_)
  have hrest : ∀ m : Workload PUnit, Along Quiet m → ∀ h₄, Changed (fun t => { t with
      store
      books := { t.books with promotions := t.books.promotions + 1 }
      departed := t.departed ++ departed }) h₃ h₄ →
      Ensures m h₄ fun _ h' => Promoted capacity c block h h' := fun m hm h₄ hc =>
    (hm h₄).mono fun _ h' hq' =>
      ⟨store, departed, (Changed.after_quiet hq hc).quiet hq', hsim', hdeparted⟩
  refine hrest _ ?_ _ ⟨rfl, id, fun _ hs => ⟨hs.completions, hs.fallback⟩⟩
  split
  · exact quiet_emit rfl rfl
  · exact along_pure quiet_refl _

/-! ### Hits and misses -/

section Requests

variable (l : Loop) (task : TaskKey)

theorem serveHit_ensures (isPrefix : Bool) (h : Harness) :
    Ensures (serveHit l task block isPrefix) h fun _ h' =>
      Changed (fun t => { t with books := { t.books with hits := t.books.hits + 1 } }) h h' := by
  refine changed_count_bind
    (f := fun t => { t with books := { t.books with hits := t.books.hits + 1 } })
    ⟨rfl, id, fun _ hs => ⟨hs.completions, hs.fallback⟩⟩ fun h₁ hc => ?_
  have hprefix : Along Quiet (onlyIf (isPrefix = true) do
      count fun report => { report with prefixHits := report.prefixHits + 1 }
      ifRustLlm (readPrefix l task block)) :=
    along_onlyIf quiet_refl (Quiet.bind (quiet_counter fun _ => ⟨rfl, rfl, rfl, rfl, rfl, rfl⟩)
      fun _ => quiet_ifRustLlm (quiet_readPrefix l task block))
  exact (Quiet.bind hprefix (fun _ => quiet_minimalStep l task) h₁).mono fun _ h' hq => hc.quiet hq

/-- A miss is counted, and the block is promoted. -/
def Missed (capacity : ℕ) (c : FifoSet.Cache BlockHash) (block : BlockHash) (h h' : Harness) :
    Prop :=
  ∃ store departed, Changed (fun t => { t with
      store
      books := { t.books with
        misses := t.books.misses + 1
        promotions := t.books.promotions + 1 }
      departed := t.departed ++ departed }) h h' ∧
    InMemoryBlockStore.Simulates capacity (c.resident.insert capacity block) store ∧
    departed.Perm ((c.resident.push block).items.take ((c.resident.push block).excess capacity))

theorem serveMiss_ensures (isPrefix usesDfs : Bool) (at_ : ℕ)
    (hsim : InMemoryBlockStore.Simulates capacity c.resident h.store) :
    Ensures (serveMiss l task block isPrefix usesDfs at_) h fun _ h' =>
      Missed capacity c block h h' := by
  refine changed_count_bind
    (f := fun t => { t with books := { t.books with misses := t.books.misses + 1 } })
    ⟨rfl, id, fun _ hs => ⟨hs.completions, hs.fallback⟩⟩ fun h₁ hc₁ => ?_
  refine Along.ensures_bind (along_onlyIf quiet_refl
    (quiet_counter fun _ => ⟨rfl, rfl, rfl, rfl, rfl, rfl⟩)) fun _ h₂ hq₂ => ?_
  have hc₂ := hc₁.quiet hq₂
  have hstore : h₂.store = h.store := congrArg Tracked.store hc₂.tracked
  refine (promote_ensures (along_pure quiet_refl _) _ _ _ _ _ (hstore ▸ hsim)).bind ?_
  rintro _ h₃ ⟨store, departed, hc₃, hsim', hdeparted⟩
  have hrest : Along Quiet (do
      fetch l task block usesDfs
      submitBlockWrite l.cq task block l.plan.underPressure
      onlyIf (l.plan.underPressure = false) do
        drainAndRecord l.cq "unexpected cq drain response"
      minimalStep l task) :=
    Quiet.bind (quiet_fetch l task block usesDfs) fun _ =>
      Quiet.bind (quiet_submitBlockWrite _ _ _ _) fun _ =>
        Quiet.bind (along_onlyIf quiet_refl (quiet_drainAndRecord _ _)) fun _ =>
          quiet_minimalStep l task
  exact (hrest h₃).mono fun _ h' hq =>
    ⟨store, departed, (hc₂.trans hc₃).quiet hq, hsim', hdeparted⟩

end Requests

end Workload

/-! ### Steps of the cache -/

open Workload

variable {block : BlockHash}

theorem InStep.hit (hs : InStep capacity c h) (hmem : block ∈ c.resident.items)
    (hc : Changed (fun t => { t with books := { t.books with hits := t.books.hits + 1 } }) h h') :
    InStep capacity (c.step capacity (.touch block)) h' := by
  refine ⟨?_, hc.upkeep.runtime hs.runtime, hc.upkeep.settled hs.runtime hs.settled⟩
  rw [hc.tracked, FifoSet.Cache.step_hit hmem]
  exact { hs.tracks with hits := congrArg (· + 1) hs.tracks.hits }

theorem InStep.missed (hs : InStep capacity c h) (hmem : block ∉ c.resident.items)
    (hm : Missed capacity c block h h') :
    InStep capacity (c.step capacity (.touch block)) h' := by
  obtain ⟨store, departed, hc, hsim, hdeparted⟩ := hm
  refine ⟨?_, hc.upkeep.runtime hs.runtime, hc.upkeep.settled hs.runtime hs.settled⟩
  have ht := hs.tracks
  rw [hc.tracked, FifoSet.Cache.step_miss hmem]
  refine { ht with
    store := hsim
    misses := congrArg (· + 1) ht.misses
    promotions := congrArg (· + 1) ht.promotions
    departed := ?_ }
  rw [← List.append_assoc]
  exact ht.departed.append hdeparted

theorem InStep.total (hs : InStep capacity c h) {b : Tracked → ℕ}
    (hc : Changed (fun t => { t with books := { t.books with blocksTotal := b t } }) h h') :
    InStep capacity c h' := by
  refine ⟨?_, hc.upkeep.runtime hs.runtime, hc.upkeep.settled hs.runtime hs.settled⟩
  rw [hc.tracked]
  exact { hs.tracks with }

theorem InStep.found_iff (hs : InStep capacity c h) :
    (h.store.lookup block).found = true ↔ block ∈ c.resident.items := by
  have hsim := hs.tracks.store
  rw [show h.store = h.tracked.store from rfl, hsim.joined.lookup_eq, hsim.contents]
  split_ifs with hmem
  · exact ⟨fun _ => hmem, fun _ => rfl⟩
  · exact ⟨fun hfound => (by cases hfound), fun hin => absurd hin hmem⟩

/-- Between two blocks of the request loop. -/
structure InLoop (capacity : ℕ) (plan : WorkloadPlan) (c : FifoSet.Cache BlockHash)
    (h : Harness) : Prop where
  inStep : InStep capacity c h
  kind : h.tracked.books.workloadKind = plan.workloadKind
  requests : h.tracked.books.hits + h.tracked.books.misses = h.tracked.books.blocksTotal

variable {plan : WorkloadPlan}

theorem InLoop.quiet (hl : InLoop capacity plan c h) (hq : Quiet h h') :
    InLoop capacity plan c h' :=
  ⟨hl.inStep.quiet hq, hq.tracked ▸ hl.kind, hq.tracked ▸ hl.requests⟩

/-- Every workload starts with an empty report. -/
theorem WorkloadConfig.baseReport_eq (workload : WorkloadConfig) : ∃ kind profile requests,
    workload.baseReport = baseWorkloadReport kind profile requests := by
  unfold WorkloadConfig.baseReport
  split
  · exact ⟨_, _, _, rfl⟩
  · exact ⟨_, _, _, rfl⟩
  · exact ⟨_, _, _, rfl⟩
  · split <;> exact ⟨_, _, _, rfl⟩

namespace Workload

theorem submitBlockWriteback_ensures (cq : CqHandle) (task : Option TaskKey) (h : Harness) :
    Ensures (submitBlockWriteback cq task block) h fun _ h' => Changed (fun t => { t with
      books := { t.books with blockWritebacks := t.books.blockWritebacks + 1 }
      writtenBack := t.writtenBack ++ [block] }) h h' := by
  refine changed_count_bind (f := fun t =>
      { t with books := { t.books with blockWritebacks := t.books.blockWritebacks + 1 } })
    ⟨rfl, id, fun _ hs => ⟨hs.completions, hs.fallback⟩⟩ fun h₁ hc => ?_
  refine (quiet_submitToBlocks _ _ _ _ _ _ h₁).bind fun _ h₂ hq => ensures_modify ?_
  refine (hc.quiet hq).trans (g := fun t => { t with writtenBack := t.writtenBack ++ [block] }) ?_
  exact ⟨rfl, id, fun _ hs => hs⟩

/-- What an eviction of the given blocks adds to the books. -/
def written (evicted : List BlockHash) (t : Tracked) : Tracked :=
  { t with
    books := { t.books with
      blockWritebacks := t.books.blockWritebacks + evicted.length
      evicted := t.books.evicted ++ evicted }
    writtenBack := t.writtenBack ++ evicted }

theorem written_snoc (evicted : List BlockHash) (block : BlockHash) (t : Tracked) :
    written (evicted ++ [block]) t = written [block] (written evicted t) := by
  simp [written, Nat.add_assoc]

theorem emitEvicted_ensures (at_ : SimTimestamp) (from_ : BlockPlacement) (h : Harness) :
    Ensures (emit (.blockEvicted at_ block from_)) h fun _ h' => Changed (fun t => { t with
      books := { t.books with evicted := t.books.evicted ++ [block] } }) h h' := by
  refine ensures_modify ⟨?_, id, fun _ hs => ⟨?_, hs.fallback⟩⟩
  · simp only [Harness.tracked, WorkloadRunReport.books, evictedBlocks_append]
    rfl
  · simp [observed, TraceEvent.observes, hs.completions]

/-- **An eviction** reports and writes back each block that it takes. -/
theorem evictBlocks_ensures (cq : CqHandle) (maxBlocks : ℕ) (task : Option TaskKey) (base : ℕ)
    (hs : InStep capacity c h) :
    Ensures (evictBlocks cq maxBlocks task base) h fun _ h' =>
      InStep capacity (c.step capacity (.evict maxBlocks)) h' ∧
        h'.tracked.books.workloadKind = h.tracked.books.workloadKind ∧
        h'.tracked.books.hits = h.tracked.books.hits ∧
        h'.tracked.books.misses = h.tracked.books.misses ∧
        h'.tracked.books.blocksTotal = h.tracked.books.blocksTotal := by
  have ht := hs.tracks
  refine (evict_ensures ht.store maxBlocks).bind ?_
  rintro evicted h₁ ⟨rfl, store, rfl, hsim⟩
  refine changed_count_bind (f := fun t => { t with books := { t.books with
      evictions := t.books.evictions + (c.resident.items.take maxBlocks).length } })
    ⟨rfl, id, fun _ hs => ⟨hs.completions, hs.fallback⟩⟩ fun h₂ hc₂ => ?_
  refine (ensures_forM (fun evicted h' => Changed (written evicted) h₂ h')
    (fun evicted block => evicted ++ [block]) (t := []) ?_ ⟨?_, id, fun _ => id⟩).mono ?_
  · intro evicted h₃ block _ hc₃
    refine (submitBlockWriteback_ensures cq task h₃).bind fun _ h₄ hc₄ => ensures_get_bind ?_
    refine (emitEvicted_ensures _ _ h₄).mono fun _ h₅ hc₅ => ?_
    have hc : Changed (written [block]) h₃ h₅ := hc₄.trans hc₅
    refine ⟨?_, (hc₃.trans hc).upkeep⟩
    rw [written_snoc, hc.tracked, hc₃.tracked]
  · simp [written]
  · intro _ h' hc₃
    rw [List.foldl_append_eq_append, List.nil_append, ← List.flatMap_def,
      List.flatMap_singleton'] at hc₃
    have hc := hc₂.trans hc₃
    refine ⟨⟨?_, hc.upkeep.runtime hs.runtime, hc.upkeep.settled hs.runtime
      ⟨hs.settled.completions, hs.settled.fallback⟩⟩, ?_⟩
    · rw [hc.tracked]
      exact { ht with
        store := hsim
        evictions := by
          rw [FifoSet.Cache.step, List.length_append, ← ht.evictions]
          rfl
        blockWritebacks := by
          rw [FifoSet.Cache.step, List.length_append, ← ht.blockWritebacks]
          rfl
        evicted := congrArg (· ++ _) ht.evicted
        writtenBack := congrArg (· ++ _) ht.writtenBack
        departed := by
          refine (ht.departed.append_right _).trans ?_
          simp only [FifoSet.Cache.step, List.append_assoc]
          exact List.perm_append_comm.append_left _ }
    · rw [hc.tracked]
      exact ⟨rfl, rfl, rfl, rfl⟩

/-! ### The request loop -/

/-- The body of the loop over the blocks makes the access. -/
theorem runBlock_ensures (l : Loop) (task : TaskKey) (requestIdx blockIdx : ℕ)
    (hl : InLoop capacity l.plan c h) :
    Ensures (runBlock l task requestIdx blockIdx) h fun _ h' =>
      InLoop capacity l.plan
        (c.step capacity (.touch (l.plan.blockAt requestIdx blockIdx))) h' := by
  refine changed_count_bind
    (f := fun t => { t with books := { t.books with blocksTotal := t.books.blocksTotal + 1 } })
    ⟨rfl, id, fun _ hs => ⟨hs.completions, hs.fallback⟩⟩ fun h₁ hc₁ => ensures_get_bind ?_
  have hs := hl.inStep.total hc₁
  have hkind : h₁.report.workloadKind = l.plan.workloadKind :=
    (congrArg (fun t => t.books.workloadKind) hc₁.tracked).trans hl.kind
  have hrequests : h₁.tracked.books.hits + h₁.tracked.books.misses + 1 =
      h₁.tracked.books.blocksTotal := by
    rw [hc₁.tracked]
    exact congrArg (· + 1) hl.requests
  simp only [hkind]
  split_ifs with hfound
  · refine (serveHit_ensures l task _ h₁).mono fun _ h' hc =>
      ⟨hs.hit (hs.found_iff.1 hfound) hc, ?_, ?_⟩
    · rw [hc.tracked]
      exact hkind
    · rw [hc.tracked]
      simp only
      omega
  · refine (serveMiss_ensures l task _ _ _ hs.tracks.store).mono fun _ h' hm =>
      ⟨hs.missed (fun hin => hfound (hs.found_iff.2 hin)) hm, ?_, ?_⟩
    · obtain ⟨_, _, hc, -⟩ := hm
      rw [hc.tracked]
      exact hkind
    · obtain ⟨_, _, hc, -⟩ := hm
      rw [hc.tracked]
      simp only
      omega

theorem runRequest_ensures (l : Loop) (requestIdx : ℕ) (hl : InLoop capacity l.plan c h) :
    Ensures (runRequest l requestIdx) h fun _ h' =>
      InLoop capacity l.plan (c.run capacity (l.plan.requestAccesses requestIdx)) h' := by
  refine (quiet_emit rfl rfl).ensures_bind fun _ h₁ hq₁ => ?_
  refine (ensures_forM (InLoop capacity l.plan)
    (fun c blockIdx => c.step capacity (.touch (l.plan.blockAt requestIdx blockIdx)))
    (fun c h blockIdx _ hl => runBlock_ensures l _ requestIdx blockIdx hl)
    (hl.quiet hq₁)).bind fun _ h₂ hl₂ => ?_
  have hrun : ∀ c : FifoSet.Cache BlockHash, c.run capacity (l.plan.requestAccesses requestIdx) =
      ((List.range l.plan.blocksPerRequest).foldl (fun c blockIdx =>
        c.step capacity (.touch (l.plan.blockAt requestIdx blockIdx))) c).step capacity
          (.evict l.plan.evictAfterRequest) := by
    intro c
    rw [FifoSet.Cache.run, WorkloadPlan.requestAccesses, List.foldl_append, List.foldl_map]
    rfl
  refine Ensures.bind (Q := fun _ => InLoop capacity l.plan
    (c.run capacity (l.plan.requestAccesses requestIdx))) ?_ fun _ h₃ hl₃ =>
      (quiet_drainAndRecord l.cq _ h₃).mono fun _ h' hq => hl₃.quiet hq
  rw [hrun]
  unfold onlyIf
  split_ifs with hevict
  · refine (evictBlocks_ensures l.cq _ _ _ hl₂.inStep).mono fun _ h' hs => ?_
    obtain ⟨hs, hkind, hhits, hmisses, htotal⟩ := hs
    exact ⟨hs, hkind.trans hl₂.kind, by rw [hhits, hmisses, htotal]; exact hl₂.requests⟩
  · -- evicting nothing changes nothing
    rw [Nat.eq_zero_of_not_pos hevict]
    refine ensures_pure ?_
    simpa only [FifoSet.Cache.step, List.take_zero, List.append_nil, FifoSet.drop_zero] using hl₂

/-- The checks of the setup and the handles that it returns. -/
theorem quiet_registerCq (responseErr : String) : Along Quiet (registerCq responseErr) := by
  refine Quiet.bind (quiet_execute _) fun response => ?_
  cases response with
  | cqRegistered cq => exact along_pure quiet_refl _
  | _ => exact quiet_invalid _

theorem quiet_createSegment (bytes : UInt64) (responseErr : String) :
    Along Quiet (createSegment bytes responseErr) := by
  refine Quiet.bind (quiet_execute _) fun response => ?_
  cases response with
  | segmentCreated segment => exact along_pure quiet_refl _
  | _ => exact quiet_invalid _

theorem quiet_createCmdQueue (cq : CqHandle) : Along Quiet (createCmdQueue cq) := by
  refine Quiet.bind (quiet_execute _) fun response => ?_
  cases response with
  | cmdQueueCreated cmdq => exact along_pure quiet_refl _
  | _ => exact quiet_invalid _

/-- The report that a workload returns. -/
structure Finished (report : WorkloadRunReport) (h : Harness) : Prop where
  final : h.report = report
  summary : report.summary = summarizeEvents report.events

theorem finish_ensures (hs : InStep capacity c h) : Ensures finish h fun report h' =>
    Finished report h' ∧ InStep capacity c h' ∧ h'.tracked.books = h.tracked.books := by
  refine ensures_count_bind (ensures_get_bind (ensures_pure ⟨⟨rfl, rfl⟩, ?_, rfl⟩))
  exact ⟨hs.tracks, hs.runtime, hs.settled.completions, hs.settled.fallback⟩

theorem requestLoop_ensures (plan : WorkloadPlan) (runner : DispatchRunner)
    (planner : RecursiveRoutePlanner) (topology : SimTopology) (hl : InLoop capacity plan c h) :
    Ensures (requestLoop plan runner planner topology) h fun report h' =>
      Finished report h' ∧
        InStep capacity (c.run capacity
          ((List.range plan.requestsTotal).flatMap plan.requestAccesses ++ [.evict 1])) h' ∧
        report.hits + report.misses = report.blocksTotal := by
  refine (quiet_registerCq _).ensures_bind fun cq h₁ hq₁ => ?_
  refine (quiet_createCmdQueue cq).ensures_bind fun cmdq h₂ hq₂ => ?_
  refine (quiet_createSegment _ _).ensures_bind fun prefixSegment h₃ hq₃ => ?_
  refine (ensures_forM (InLoop capacity plan)
    (fun c requestIdx => c.run capacity (plan.requestAccesses requestIdx))
    (fun c h requestIdx _ hl => runRequest_ensures
      { plan, runner, planner, topology, cq, cmdq, prefixSegment } requestIdx hl)
    (((hl.quiet hq₁).quiet hq₂).quiet hq₃)).bind fun _ h₄ hl₄ => ?_
  refine (evictBlocks_ensures cq 1 none plan.requestsTotal hl₄.inStep).bind fun _ h₅ hs₅ => ?_
  obtain ⟨hs₅, -, hhits, hmisses, htotal⟩ := hs₅
  refine (quiet_drainAndRecord cq _).ensures_bind fun _ h₆ hq₆ => ?_
  refine (finish_ensures (hs₅.quiet hq₆)).mono fun report h' hfinish => ?_
  obtain ⟨hfinished, hs', hbooks⟩ := hfinish
  refine ⟨hfinished, ?_, ?_⟩
  · rw [FifoSet.Cache.run, List.foldl_append, List.foldl_flatMap]
    exact hs'
  · have hrequests := hl₄.requests
    rw [← hhits, ← hmisses, ← htotal, ← hq₆.tracked, ← hbooks] at hrequests
    rw [← hfinished.final]
    exact hrequests

/-! ### Dual-node workloads -/

theorem quiet_requireDualNode (name chipBackendMode : String) (topology : SimTopology) :
    Along Quiet (requireDualNode name chipBackendMode topology) :=
  Quiet.bind (along_onlyIf quiet_refl (quiet_invalid _)) fun _ =>
    along_onlyIf quiet_refl (quiet_invalid _)

theorem quiet_unitOf (topology : SimTopology) (host : SimHost) (what : String) :
    Along Quiet (unitOf topology host what) := by
  unfold unitOf
  split
  · exact along_pure quiet_refl _
  · exact along_throw _

theorem quiet_shmemPut (cq : CqHandle) (req : ShmemPutReq) (responseErr drainErr : String) :
    Along Quiet (shmemPut cq req responseErr drainErr) :=
  Quiet.bind (quiet_submitted _ _) fun _ =>
    Quiet.bind (quiet_counter fun _ => ⟨rfl, rfl, rfl, rfl, rfl, rfl⟩) fun _ =>
      quiet_drainAndRecord _ _

theorem quiet_shmemGet (cq : CqHandle) (req : ShmemGetReq) (responseErr drainErr : String) :
    Along Quiet (shmemGet cq req responseErr drainErr) :=
  Quiet.bind (quiet_submitted _ _) fun _ =>
    Quiet.bind (quiet_counter fun _ => ⟨rfl, rfl, rfl, rfl, rfl, rfl⟩) fun _ =>
      quiet_drainAndRecord _ _

theorem quiet_mailboxRound (runner : DispatchRunner) (cq : CqHandle) (payloadBytes : UInt64)
    (payloadSegment ackSegment : SegmentHandle) (ubpu : SimUbpu) (round : ℕ) :
    Along Quiet (mailboxRound runner cq payloadBytes payloadSegment ackSegment ubpu round) := by
  refine Quiet.bind (quiet_emit rfl rfl) fun _ => Quiet.bind (quiet_emit rfl rfl) fun _ => ?_
  refine Quiet.bind (quiet_shmemPut _ _ _ _) fun _ => ?_
  refine Quiet.bind (quiet_shmemGet _ _ _ _) fun _ => ?_
  refine Quiet.bind (quiet_runOnChip _ _) fun _ => ?_
  exact Quiet.bind (quiet_shmemPut _ _ _ _) fun _ => quiet_shmemGet _ _ _ _

theorem mailbox_ensures (runner : DispatchRunner) (chipBackendMode : String)
    (topology : SimTopology) (rounds payloadBytes : UInt64) (hs : InStep capacity c h) :
    Ensures (runDualNodeShmemMailboxWorkload runner chipBackendMode topology rounds payloadBytes) h
      fun report h' => Finished report h' ∧ InStep capacity c h' := by
  refine (quiet_requireDualNode _ _ _).ensures_bind fun _ h₁ hq₁ => ?_
  refine (quiet_orPanic _).ensures_bind fun hostB h₂ hq₂ => ?_
  refine (quiet_unitOf _ _ _).ensures_bind fun ubpuB h₃ hq₃ => ?_
  refine (quiet_registerCq _).ensures_bind fun cq h₄ hq₄ => ?_
  refine (quiet_createSegment _ _).ensures_bind fun payloadSegment h₅ hq₅ => ?_
  refine (quiet_createSegment _ _).ensures_bind fun _ h₆ hq₆ => ?_
  refine (quiet_createSegment _ _).ensures_bind fun ackSegment h₇ hq₇ => ?_
  refine (along_forM quiet_refl quiet_trans fun round =>
    quiet_mailboxRound _ _ _ _ _ _ round).ensures_bind fun _ h₈ hq₈ => ?_
  have hs₄ := (((hs.quiet hq₁).quiet hq₂).quiet hq₃).quiet hq₄
  exact (finish_ensures ((((hs₄.quiet hq₅).quiet hq₆).quiet hq₇).quiet hq₈)).mono
    fun _ _ hfinish => ⟨hfinish.1, hfinish.2.1⟩

theorem blockComputeRound_ensures (runner : DispatchRunner) (cq : CqHandle) (ubpu : SimUbpu)
    (round : ℕ) (hs : InStep capacity c h) :
    Ensures (blockComputeRound runner cq ubpu round) h fun _ => InStep capacity c := by
  refine changed_count_bind
    (f := fun t => { t with books := { t.books with blocksTotal := t.books.blocksTotal + 1 } })
    ⟨rfl, id, fun _ hs => ⟨hs.completions, hs.fallback⟩⟩ fun h₁ hc₁ => ?_
  have hrest : Along Quiet (do
      emit (.taskCreated (.ofNat (round * 10)) (mailboxTask round 0))
      emit (.taskCreated (.ofNat (round * 10 + 1)) (mailboxTask round 1))
      submitBlockWrite cq (mailboxTask round 1) ⟨s!"w2-source-block-{round}"⟩ false
      drainAndRecord cq "unexpected cq drain response after block seed write"
      submitBlockRead cq (mailboxTask round 0) ⟨s!"w2-source-block-{round}"⟩ false
      drainAndRecord cq "unexpected cq drain response after block read"
      runOnChip runner (dispatchTo (mailboxTask round 0) "w2_block_transform"
        (simplerBackendSpec .hostVector .hostBuildGraph (some "w2_block_transform"))
        ubpu.nodeId ⟨.ofNat (30000 + round)⟩)
      submitBlockWrite cq (mailboxTask round 0) ⟨s!"w2-result-block-{round}"⟩ false
      drainAndRecord cq "unexpected cq drain response after result block write") := by
    refine Quiet.bind (quiet_emit rfl rfl) fun _ => Quiet.bind (quiet_emit rfl rfl) fun _ => ?_
    refine Quiet.bind (quiet_submitBlockWrite _ _ _ _) fun _ => ?_
    refine Quiet.bind (quiet_drainAndRecord _ _) fun _ => ?_
    refine Quiet.bind (quiet_submitBlockRead _ _ _ _) fun _ => ?_
    refine Quiet.bind (quiet_drainAndRecord _ _) fun _ => ?_
    refine Quiet.bind (quiet_runOnChip _ _) fun _ => ?_
    exact Quiet.bind (quiet_submitBlockWrite _ _ _ _) fun _ => quiet_drainAndRecord _ _
  exact (hrest h₁).mono fun _ _ hq => (hs.total hc₁).quiet hq

theorem blockCompute_ensures (runner : DispatchRunner) (chipBackendMode : String)
    (topology : SimTopology) (rounds : UInt64) (hs : InStep capacity c h) :
    Ensures (runDualNodeBlockComputeWorkload runner chipBackendMode topology rounds) h
      fun report h' => Finished report h' ∧ InStep capacity c h' := by
  refine (quiet_requireDualNode _ _ _).ensures_bind fun _ h₁ hq₁ => ?_
  refine (quiet_orPanic _).ensures_bind fun hostA h₂ hq₂ => ?_
  refine (quiet_unitOf _ _ _).ensures_bind fun ubpuA h₃ hq₃ => ?_
  refine (quiet_registerCq _).ensures_bind fun cq h₄ hq₄ => ?_
  refine (ensures_forM (fun _ : Unit => InStep capacity c) (fun _ _ => ())
    (fun _ h round _ hs => blockComputeRound_ensures runner cq ubpuA round hs) (t := ())
    ((((hs.quiet hq₁).quiet hq₂).quiet hq₃).quiet hq₄)).bind fun _ h₅ hs₅ => ?_
  exact (finish_ensures hs₅).mono fun _ _ hfinish => ⟨hfinish.1, hfinish.2.1⟩

theorem hitOrFill_ensures (planner : RecursiveRoutePlanner) (topology : SimTopology)
    (cq : CqHandle) (task : TaskKey) (round : ℕ) (hs : InStep capacity c h) :
    Ensures (hitOrFill planner topology cq task round) h fun _ =>
      InStep capacity (c.step capacity (.touch sharedBlock)) := by
  refine ensures_get_bind ?_
  split_ifs with hfound
  · exact ensures_modify (hs.hit (hs.found_iff.1 hfound)
      ⟨rfl, id, fun _ hs => ⟨hs.completions, hs.fallback⟩⟩)
  · refine changed_count_bind
      (f := fun t => { t with books := { t.books with misses := t.books.misses + 1 } })
      ⟨rfl, id, fun _ hs => ⟨hs.completions, hs.fallback⟩⟩ fun h₁ hc₁ => ?_
    have hstore : h₁.store = h.store := congrArg Tracked.store hc₁.tracked
    have hbetween : Along Quiet (do
        submitBlockRead cq task sharedBlock false
        drainAndRecord cq "unexpected cq drain response after remote fetch") :=
      Quiet.bind (quiet_submitBlockRead _ _ _ _) fun _ => quiet_drainAndRecord _ _
    have hsim : InMemoryBlockStore.Simulates capacity c.resident h₁.store := by
      rw [hstore]
      exact hs.tracks.store
    refine (promote_ensures hbetween _ _ _ _ _ hsim).mono ?_
    rintro _ h' ⟨store, departed, hc, hsim, hdeparted⟩
    exact hs.missed (fun hin => hfound (hs.found_iff.2 hin))
      ⟨store, departed, hc₁.trans hc, hsim, hdeparted⟩

theorem cacheFillRound_ensures (runner : DispatchRunner) (planner : RecursiveRoutePlanner)
    (topology : SimTopology) (cq : CqHandle) (ubpu : SimUbpu) (round : ℕ)
    (hs : InStep capacity c h) :
    Ensures (cacheFillRound runner planner topology cq ubpu round) h fun _ =>
      InStep capacity (c.step capacity (.touch sharedBlock)) := by
  refine changed_count_bind
    (f := fun t => { t with books := { t.books with blocksTotal := t.books.blocksTotal + 1 } })
    ⟨rfl, id, fun _ hs => ⟨hs.completions, hs.fallback⟩⟩ fun h₁ hc₁ => ?_
  refine (quiet_emit rfl rfl).ensures_bind fun _ h₂ hq₂ => ?_
  refine (hitOrFill_ensures planner topology cq _ round
    ((hs.total hc₁).quiet hq₂)).bind fun _ h₃ hs₃ => ?_
  exact (quiet_runOnChip _ _ h₃).mono fun _ _ hq => hs₃.quiet hq

theorem cacheFill_ensures (runner : DispatchRunner) (planner : RecursiveRoutePlanner)
    (chipBackendMode : String) (topology : SimTopology) (rounds : UInt64)
    (hs : InStep capacity c h) :
    Ensures (runDualNodeCacheFillWorkload runner planner chipBackendMode topology rounds) h
      fun report h' => Finished report h' ∧
        InStep capacity (c.run capacity (List.replicate rounds.toNat (.touch sharedBlock))) h' := by
  refine (quiet_requireDualNode _ _ _).ensures_bind fun _ h₁ hq₁ => ?_
  refine (quiet_orPanic _).ensures_bind fun hostA h₂ hq₂ => ?_
  refine (quiet_unitOf _ _ _).ensures_bind fun ubpuA h₃ hq₃ => ?_
  refine (quiet_registerCq _).ensures_bind fun cq h₄ hq₄ => ?_
  refine (quiet_submitBlockWrite _ _ _ _).ensures_bind fun _ h₅ hq₅ => ?_
  refine (quiet_drainAndRecord _ _).ensures_bind fun _ h₆ hq₆ => ?_
  have hs₄ := (((hs.quiet hq₁).quiet hq₂).quiet hq₃).quiet hq₄
  refine (ensures_forM (InStep capacity) (fun c _ => c.step capacity (.touch sharedBlock))
    (fun c h round _ hs => cacheFillRound_ensures runner planner topology cq ubpuA round hs)
    ((hs₄.quiet hq₅).quiet hq₆)).bind fun _ h₇ hs₇ => ?_
  refine (finish_ensures hs₇).mono fun report h' hfinish => ⟨hfinish.1, ?_⟩
  have hrun : c.run capacity (List.replicate rounds.toNat (.touch sharedBlock)) =
      (List.range rounds.toNat).foldl (fun c _ => c.step capacity (.touch sharedBlock)) c := by
    rw [FifoSet.Cache.run, ← List.length_range (n := rounds.toNat), ← List.map_const',
      List.foldl_map, List.length_range]
  rw [hrun]
  exact hfinish.2.1

/-! ### Whole runs -/

theorem start_inStep (env : Environment) (config : SimConfig) (topology : SimTopology)
    {runtime : LocalRuntimeEngine}
    (hruntime : LocalRuntimeEngine.fromConfig config = some runtime) :
    InStep config.levels.l2UbpuTier.capacityBlocks.toNat .empty
      (Harness.start env config topology runtime) := by
  obtain ⟨kind, profile, requests, hbase⟩ := config.workload.baseReport_eq
  have hcompleted : runtime.completed = [] := by
    simp only [LocalRuntimeEngine.fromConfig, Option.bind_eq_bind,
      Option.bind_eq_some_iff] at hruntime
    obtain ⟨units, -, hengine⟩ := hruntime
    cases hengine
    rfl
  refine ⟨?_, hcompleted, ?_⟩
  · simp only [Harness.tracked, Harness.start, hbase]
    exact ⟨InMemoryBlockStore.Simulates.start _, rfl, rfl, rfl, rfl, rfl, rfl, rfl, .rfl⟩
  · simp only [Harness.start, hbase]
    exact ⟨rfl, rfl⟩

/-- What a successful workload leaves behind. -/
structure Outcome (config : SimConfig) (report : WorkloadRunReport) (h : Harness) : Prop where
  finished : Finished report h
  inStep : InStep config.levels.l2UbpuTier.capacityBlocks.toNat
    (FifoSet.Cache.empty.run config.levels.l2UbpuTier.capacityBlocks.toNat
      config.workload.accesses) h
  requests : config.workload.plan.isSome = true → report.hits + report.misses = report.blocksTotal

theorem requestLoop_outcome {env : Environment} {config : SimConfig} {topology : SimTopology}
    {runtime : LocalRuntimeEngine} {plan : WorkloadPlan}
    (hruntime : LocalRuntimeEngine.fromConfig config = some runtime)
    (hreport : config.workload.baseReport =
      baseWorkloadReport plan.workloadKind plan.workloadProfile plan.requestsTotal)
    (haccesses : config.workload.accesses =
      (List.range plan.requestsTotal).flatMap plan.requestAccesses ++ [.evict 1]) :
    Ensures (requestLoop plan env.runner (.fromConfig config) topology)
      (Harness.start env config topology runtime) (Outcome config) := by
  have hloop : InLoop config.levels.l2UbpuTier.capacityBlocks.toNat plan .empty
      (Harness.start env config topology runtime) := by
    refine ⟨start_inStep env config topology hruntime, ?_, ?_⟩
    all_goals simp only [Harness.tracked, Harness.start, hreport]
    all_goals rfl
  refine (requestLoop_ensures plan _ _ topology hloop).mono fun report h' hend => ?_
  obtain ⟨hfinished, hs, hrequests⟩ := hend
  exact ⟨hfinished, haccesses ▸ hs, fun _ => hrequests⟩

/-- **Every workload makes its accesses**, and its books are those of the cache. -/
theorem workload_ensures {env : Environment} {config : SimConfig} {topology : SimTopology}
    {runtime : LocalRuntimeEngine}
    (hruntime : LocalRuntimeEngine.fromConfig config = some runtime) :
    Ensures (workload env config topology) (Harness.start env config topology runtime)
      (Outcome config) := by
  have hs := start_inStep env config topology hruntime
  have hnoPlan : config.workload.plan = none → config.workload.plan.isSome = true →
      ∀ report : WorkloadRunReport, report.hits + report.misses = report.blocksTotal := by
    intro hnone hsome
    rw [hnone] at hsome
    cases hsome
  unfold workload
  rcases hkind : config.workload with _ | _ | ⟨rounds, payloadBytes⟩ | rounds | rounds | _
  · exact requestLoop_outcome hruntime (by rw [hkind]; rfl) (by rw [hkind]; rfl)
  · exact requestLoop_outcome hruntime (by rw [hkind]; rfl) (by rw [hkind]; rfl)
  · refine (mailbox_ensures _ _ _ _ _ hs).mono fun report h' hend => ⟨hend.1, ?_, ?_⟩
    · rw [hkind]
      exact hend.2
    · exact fun hsome => hnoPlan (by rw [hkind]; rfl) hsome report
  · refine (blockCompute_ensures _ _ _ _ hs).mono fun report h' hend => ⟨hend.1, ?_, ?_⟩
    · rw [hkind]
      exact hend.2
    · exact fun hsome => hnoPlan (by rw [hkind]; rfl) hsome report
  · refine (cacheFill_ensures _ _ _ _ _ hs).mono fun report h' hend => ⟨hend.1, ?_, ?_⟩
    · rw [hkind]
      exact hend.2
    · exact fun hsome => hnoPlan (by rw [hkind]; rfl) hsome report
  · exact requestLoop_outcome hruntime (by rw [hkind]; rfl) (by rw [hkind]; rfl)

end Workload

theorem runMinimalWorkload_outcome {env : Environment} {config : SimConfig}
    {topology : SimTopology} {report : WorkloadRunReport}
    (hrun : runMinimalWorkload env config topology = .ok (report, h)) :
    Outcome config report h := by
  unfold runMinimalWorkload at hrun
  split at hrun
  · cases hrun
  · rename_i runtime hruntime
    split at hrun
    · rename_i hexec
      cases hrun
      exact workload_ensures hruntime _ _ hexec
    · cases hrun

/-! ### The guarantees -/

/-- The counters of a report agree. -/
structure WorkloadRunReport.Accounted (report : WorkloadRunReport) : Prop where
  requests : report.hits + report.misses = report.blocksTotal
  promotions : report.promotions = report.misses
  fallback : report.fallbackReads = report.dfsColdReads + report.dfsWarmReads
  evictions : report.evictions = report.summary.blocksEvicted
  writebacks : report.evictions = report.blockWritebacks
  completions : report.completions = report.summary.completionsTotal

/-- **Workload accounting.**  The report of every successful hotset, trace or LLM workload agrees
with itself and with the summary of its trace. -/
theorem WorkloadConfig.accounted (env : Environment) (config : SimConfig) (topology : SimTopology)
    (report : WorkloadRunReport) (h : Harness) (hkind : config.workload.plan.isSome = true)
    (hrun : runMinimalWorkload env config topology = .ok (report, h)) : report.Accounted := by
  have hout := runMinimalWorkload_outcome hrun
  have ht := hout.inStep.tracks
  have hsettled := hout.inStep.settled
  simp only [Harness.tracked, hout.finished.final] at ht hsettled
  refine ⟨hout.requests hkind, ht.promotions.trans ht.misses.symm, hsettled.fallback, ?_,
    ht.evictions.trans ht.blockWritebacks.symm, ?_⟩
  · rw [hout.finished.summary, summarizeEvents_blocksEvicted]
    exact ht.evictions.trans (congrArg List.length ht.evicted.symm)
  · rw [hout.finished.summary, summarizeEvents_completionsTotal]
    exact hsettled.completions

/-- One request for two blocks on two hosts, with room for `capacity` blocks on a unit. -/
def SimConfig.oneRequest (capacity : UInt64) : SimConfig :=
  { ScenarioConfig.twoHosts with
    workload := .hotsetLoop 1 2 2
    levels := ⟨⟨capacity, .finite 1, .finite 0⟩, ⟨8, .finite 1, .finite 0⟩,
      ⟨8, .finite 1, .finite 0⟩⟩
    chipBackendMode := "stub"
    dispatchLatencyUs := none
    l3FetchLatencyUs := none
    l4FetchLatencyUs := none
    hitWeight := .finite 0
    loadWeight := .finite 0
    capacityWeight := .finite 0 }

/-- Dispatches succeed, and the smallest completion queue is the default one. -/
def Environment.orderly : Environment := ⟨fun _ => .ok (), .ascending⟩

/-- The run of a configuration on its own topology. -/
def SimConfig.run (config : SimConfig) : Option (SimTopology × WorkloadRunReport × Harness) := do
  let topology ← (SimTopology.fromConfig config.toScenarioConfig).toOption
  let (report, h) ← (runMinimalWorkload .orderly config topology).toOption
  return (topology, report, h)

theorem SimConfig.exists_run (config : SimConfig) (p : WorkloadRunReport → Harness → Bool)
    (hrun : (config.run.any fun r => p r.2.1 r.2.2) = true) :
    ∃ topology report h, SimTopology.fromConfig config.toScenarioConfig = .ok topology ∧
      runMinimalWorkload .orderly config topology = .ok (report, h) ∧ p report h = true := by
  unfold SimConfig.run at hrun
  rcases htopology : SimTopology.fromConfig config.toScenarioConfig with _ | topology
  · rw [htopology] at hrun
    cases hrun
  rcases hreport : runMinimalWorkload .orderly config topology with _ | ⟨report, h⟩
  · simp only [htopology, Except.toOption, Option.bind_eq_bind, Option.bind_some, hreport] at hrun
    cases hrun
  · simp only [htopology, Except.toOption, Option.bind_eq_bind, Option.bind_some, hreport] at hrun
    exact ⟨topology, report, h, rfl, hreport, hrun⟩

/-- Two requests for three blocks, with room for two. -/
def SimConfig.twoRequests : SimConfig :=
  { SimConfig.oneRequest 2 with workload := .hotsetLoop 2 3 3 }

theorem WorkloadConfig.accounted_twoRequests :
    SimConfig.twoRequests.toScenarioConfig.validate = .ok () ∧ ∃ topology report h,
      SimTopology.fromConfig SimConfig.twoRequests.toScenarioConfig = .ok topology ∧
      runMinimalWorkload .orderly .twoRequests topology = .ok (report, h) ∧
      (report.blocksTotal, report.hits, report.misses, report.evictions) = (6, 2, 4, 1) ∧
      report.Accounted := by
  obtain ⟨topology, report, h, htopology, hrun, hcounts⟩ := SimConfig.exists_run .twoRequests
    (fun report _ => (report.blocksTotal, report.hits, report.misses, report.evictions) = (6, 2, 4, 1))
    (by decide +kernel)
  exact ⟨by decide +kernel, topology, report, h, htopology, hrun, of_decide_eq_true hcounts,
    accounted .orderly .twoRequests topology report h rfl hrun⟩

/-- Every block that left the store is counted, reported and written back. -/
structure Conserved (report : WorkloadRunReport) (h : Harness) : Prop where
  counted : report.evictions = h.departed.length
  reported : (evictedBlocks report.events).Perm h.departed
  writtenBack : h.writtenBack.Perm h.departed
  promotions : report.promotions = report.evictions + h.store.placements.length

/-- **Evictions are conserved** exactly when the blocks that the workload would keep in a store
without a bound always fit into the capacity of the store. -/
theorem WorkloadConfig.conserved_iff (env : Environment) (config : SimConfig)
    (topology : SimTopology) (report : WorkloadRunReport) (h : Harness)
    (hrun : runMinimalWorkload env config topology = .ok (report, h)) :
    Conserved report h ↔ FifoSet.empty.peak config.workload.accesses ≤
      config.levels.l2UbpuTier.capacityBlocks.toNat := by
  have hout := runMinimalWorkload_outcome hrun
  have ht := hout.inStep.tracks
  simp only [Harness.tracked, hout.finished.final] at ht
  have hlost := FifoSet.Cache.run_lost_eq_nil (c := .empty) rfl
    (Nat.zero_le config.levels.l2UbpuTier.capacityBlocks.toNat) config.workload.accesses
  have hbalanced := FifoSet.Cache.run_balanced (c := .empty) rfl
    config.levels.l2UbpuTier.capacityBlocks.toNat config.workload.accesses
  refine Iff.trans ?_ hlost
  constructor
  · intro hc
    have hlength := (ht.departed.length_eq.symm.trans hc.counted.symm).trans ht.evictions
    rw [List.length_append] at hlength
    exact List.length_eq_zero_iff.1 (by omega)
  · intro hnil
    have hdeparted := ht.departed
    rw [hnil, List.append_nil] at hdeparted
    refine ⟨ht.evictions.trans hdeparted.length_eq.symm, ?_, ?_, ?_⟩
    · exact (List.Perm.of_eq ht.evicted).trans hdeparted.symm
    · exact (List.Perm.of_eq ht.writtenBack).trans hdeparted.symm
    · have hplaced : h.store.placements.length = _ := ht.store.joined.length
      rw [ht.store.contents] at hplaced
      have hpromotions := ht.promotions
      have hevictions := ht.evictions
      simp only [WorkloadRunReport.books] at hpromotions hevictions
      rw [hpromotions, hevictions, hplaced, hbalanced, hnil, List.length_nil, Nat.add_zero]

theorem WorkloadConfig.conserved_roomForTwo :
    (SimConfig.oneRequest 2).toScenarioConfig.validate = .ok () ∧ ∃ topology report h,
      SimTopology.fromConfig (SimConfig.oneRequest 2).toScenarioConfig = .ok topology ∧
      runMinimalWorkload .orderly (.oneRequest 2) topology = .ok (report, h) ∧
      Conserved report h := by
  obtain ⟨topology, report, h, htopology, hrun, -⟩ := SimConfig.exists_run
    (.oneRequest 2) (fun _ _ => true) (by decide +kernel)
  exact ⟨by decide +kernel, topology, report, h, htopology, hrun,
    (conserved_iff .orderly (.oneRequest 2) topology report h hrun).2 (by decide +kernel)⟩

/-- In a store for one block, entering the second block drops the first one, which is neither
counted nor written back. -/
theorem WorkloadConfig.not_conserved_roomForOne :
    (SimConfig.oneRequest 1).toScenarioConfig.validate = .ok () ∧ ∃ topology report h,
      SimTopology.fromConfig (SimConfig.oneRequest 1).toScenarioConfig = .ok topology ∧
      runMinimalWorkload .orderly (.oneRequest 1) topology = .ok (report, h) ∧
      h.departed.length = 2 ∧ report.evictions = 1 ∧ ¬ Conserved report h := by
  obtain ⟨topology, report, h, htopology, hrun, hlost⟩ := SimConfig.exists_run
    (.oneRequest 1) (fun report h => h.departed.length == 2 && report.evictions == 1)
    (by decide +kernel)
  obtain ⟨hdeparted, hevictions⟩ := Bool.and_eq_true_iff.1 hlost
  refine ⟨by decide +kernel, topology, report, h, htopology, hrun, beq_iff_eq.1 hdeparted,
    beq_iff_eq.1 hevictions, fun hc => ?_⟩
  have hcounted := hc.counted
  rw [beq_iff_eq.1 hdeparted, beq_iff_eq.1 hevictions] at hcounted
  cases hcounted

end LinquUb
