import LinquUb.Config
import LinquUb.Core
import LinquUb.LTS.FifoSet
import LinquUb.LTS.Run
import Mathlib.Data.List.Perm.Basic

/-!
# The in-memory block store

`InMemoryBlockStore` of `sim-runtime`: a hash set of placements, a queue of the blocks in the order
of their insertion, and a capacity.  `stageInsert` and `evict` keep the two containers in step by
hand.

* `InMemoryBlockStore.Joined` : placements and order hold the same blocks, each once;
* `evict_spec`, `stageInsert_spec` : the two operations on a joined store;
* `replies_eq` : the store answers every sequence of calls as a bounded FIFO set does;
* `bounded_fifo` : **the store is a bounded FIFO set**.

The hash set is a list without duplicates in some iteration order; `lookup_perm` says that the order
does not show.
-/

namespace LinquUb

structure BlockPlacement where
  block : BlockHash
  level : PlLevel
  node : NodeId
deriving DecidableEq, Repr

structure LookupResult where
  found : Bool
  placement : Option BlockPlacement
deriving DecidableEq, Repr

structure InMemoryBlockStore where
  placements : List BlockPlacement
  insertionOrder : List BlockHash
  capacityBlocks : ℕ
  defaultLevel : PlLevel
  defaultNode : NodeId
deriving DecidableEq, Repr

namespace InMemoryBlockStore

def withCapacity (capacityBlocks : ℕ) : InMemoryBlockStore :=
  { placements := []
    insertionOrder := []
    capacityBlocks
    defaultLevel := .l2
    defaultNode := 0 }

/-- The capacity is `usize::MAX`. -/
def new : InMemoryBlockStore := withCapacity (2 ^ 64 - 1)

def fromConfig (config : ScenarioConfig) : InMemoryBlockStore :=
  withCapacity config.levels.l2UbpuTier.capacityBlocks.toNat

section Operations

variable (self : InMemoryBlockStore)

def lookup (block : BlockHash) : LookupResult :=
  let placement := self.placements.find? fun placement => placement.block == block
  { found := placement.isSome, placement }

/-- The placement of a block that is staged. -/
def placementOf (block : BlockHash) : BlockPlacement :=
  { block, level := self.defaultLevel, node := self.defaultNode }

/-- At most `maxBlocks` rounds, each of which pops the oldest block; it never fails. -/
def evict : ℕ → InMemoryBlockStore → List BlockHash × InMemoryBlockStore
  | 0, self => ([], self)
  | maxBlocks + 1, self =>
    match self.insertionOrder with
    | [] => ([], self)
    | block :: insertionOrder =>
      match self.placements.find? fun placement => placement.block == block with
      | some placement =>
        let (evicted, self') := evict maxBlocks
          { self with insertionOrder, placements := self.placements.erase placement }
        (block :: evicted, self')
      -- a block without a placement is popped all the same
      | none => evict maxBlocks { self with insertionOrder }

/-- The loop at the end of `stage_insert`; `none` if it still runs when the fuel is used up. -/
def trim : ℕ → InMemoryBlockStore → Option InMemoryBlockStore
  | 0, self => if self.placements.length > self.capacityBlocks then none else some self
  | fuel + 1, self =>
    if self.placements.length > self.capacityBlocks then trim fuel (evict 1 self).2 else some self

/-- Without the loop at the end. -/
def place (block : BlockHash) : InMemoryBlockStore :=
  if self.placementOf block ∈ self.placements then self
  else { self with
    placements := self.placementOf block :: self.placements
    insertionOrder := self.insertionOrder ++ [block] }

/-- It never fails; `none` would be a loop that does not end. -/
def stageInsert (block : BlockHash) : Option InMemoryBlockStore :=
  trim (self.place block).placements.length (self.place block)

end Operations

/-! ### The joint invariant -/

structure Joined (store : InMemoryBlockStore) : Prop where
  blocks : (store.placements.map (·.block)).Perm store.insertionOrder
  nodup : store.insertionOrder.Nodup
  /-- Everything is placed at the same level and node. -/
  homed : ∀ placement ∈ store.placements, placement = store.placementOf placement.block

/-- What the store holds, the oldest first. -/
def contents {self : InMemoryBlockStore} (h : self.Joined) : FifoSet BlockHash :=
  ⟨self.insertionOrder, h.nodup⟩

theorem withCapacity_joined (capacityBlocks : ℕ) : (withCapacity capacityBlocks).Joined where
  blocks := .rfl
  nodup := .nil
  homed placement h := by cases h

variable {self : InMemoryBlockStore} {block : BlockHash}

theorem Joined.mem_iff (h : self.Joined) :
    self.placementOf block ∈ self.placements ↔ block ∈ self.insertionOrder := by
  rw [← h.blocks.mem_iff, List.mem_map]
  constructor
  · exact fun hmem => ⟨_, hmem, rfl⟩
  · rintro ⟨placement, hmem, rfl⟩
    rw [← h.homed placement hmem]
    exact hmem

theorem Joined.length (h : self.Joined) :
    self.placements.length = self.insertionOrder.length := by
  rw [← h.blocks.length_eq, List.length_map]

theorem Joined.find_eq (h : self.Joined) (hmem : block ∈ self.insertionOrder) :
    self.placements.find? (fun placement => placement.block == block) =
      some (self.placementOf block) := by
  have hsome : (self.placements.find? fun placement => placement.block == block).isSome := by
    rw [List.find?_isSome]
    exact ⟨_, h.mem_iff.2 hmem, beq_self_eq_true block⟩
  obtain ⟨placement, hfind⟩ := Option.isSome_iff_exists.1 hsome
  have hblock : placement.block = block := by
    simpa using List.find?_some hfind
  rw [hfind, h.homed placement (List.mem_of_find?_eq_some hfind), hblock]

theorem Joined.find_eq_none (h : self.Joined) (hmem : block ∉ self.insertionOrder) :
    self.placements.find? (fun placement => placement.block == block) = none := by
  rw [List.find?_eq_none]
  intro placement hplacement hblock
  refine hmem (h.blocks.mem_iff.1 (List.mem_map.2 ⟨placement, hplacement, ?_⟩))
  exact eq_of_beq hblock

/-- What a lookup answers. -/
theorem Joined.lookup_eq (h : self.Joined) (block : BlockHash) :
    self.lookup block =
      if block ∈ self.insertionOrder then ⟨true, some (self.placementOf block)⟩
      else ⟨false, none⟩ := by
  split_ifs with hmem
  · rw [lookup, h.find_eq hmem]
    rfl
  · rw [lookup, h.find_eq_none hmem]
    rfl

/-- The iteration order of the hash set does not show in a lookup. -/
theorem lookup_perm (h : self.Joined) {placements : List BlockPlacement}
    (hperm : placements.Perm self.placements) (block : BlockHash) :
    { self with placements }.lookup block = self.lookup block := by
  have h' : { self with placements }.Joined :=
    ⟨(hperm.map _).trans h.blocks, h.nodup, fun p hp => h.homed p (hperm.subset hp)⟩
  rw [h.lookup_eq, h'.lookup_eq]
  rfl

/-! ### The operations -/

/-- The parts of a store that no operation changes. -/
structure SamePolicy (before after : InMemoryBlockStore) : Prop where
  capacity : after.capacityBlocks = before.capacityBlocks
  level : after.defaultLevel = before.defaultLevel
  node : after.defaultNode = before.defaultNode

theorem SamePolicy.trans {s t u : InMemoryBlockStore} (h : SamePolicy s t) (h' : SamePolicy t u) :
    SamePolicy s u :=
  ⟨h'.capacity.trans h.capacity, h'.level.trans h.level, h'.node.trans h.node⟩

/-- **An eviction** hands out the oldest blocks. -/
theorem evict_spec (h : self.Joined) (maxBlocks : ℕ) :
    ∃ self', evict maxBlocks self = (self.insertionOrder.take maxBlocks, self') ∧ self'.Joined ∧
      self'.insertionOrder = self.insertionOrder.drop maxBlocks ∧ self.SamePolicy self' := by
  induction maxBlocks generalizing self with
  | zero => exact ⟨self, rfl, h, rfl, rfl, rfl, rfl⟩
  | succ maxBlocks ih =>
    rcases horder : self.insertionOrder with _ | ⟨block, rest⟩
    · refine ⟨self, ?_, h, horder, rfl, rfl, rfl⟩
      rw [evict, horder]
      rfl
    · have hmem : block ∈ self.insertionOrder := by
        rw [horder]
        exact List.mem_cons_self
      have hnodup := h.nodup
      have hperm := List.perm_cons_erase (h.mem_iff.2 hmem)
      have hblocks :
          ((self.placements.erase (self.placementOf block)).map (·.block)).Perm rest := by
        have hall := (hperm.symm.map (·.block)).trans h.blocks
        rw [horder] at hall
        exact hall.cons_inv
      rw [horder] at hnodup
      have hpopped : { self with
          insertionOrder := rest
          placements := self.placements.erase (self.placementOf block) }.Joined :=
        ⟨hblocks, hnodup.of_cons, fun p hp => h.homed p (List.mem_of_mem_erase hp)⟩
      obtain ⟨self', hevict, hjoined, hdrop, hpolicy⟩ := ih hpopped
      refine ⟨self', ?_, hjoined, hdrop, hpolicy.capacity, hpolicy.level, hpolicy.node⟩
      simp only [evict, horder, h.find_eq hmem, hevict, List.take_succ_cons]

/-- The loop ends, and it has dropped the oldest blocks. -/
theorem trim_spec (h : self.Joined) {fuel : ℕ}
    (hfuel : self.insertionOrder.length - self.capacityBlocks ≤ fuel) :
    ∃ self', trim fuel self = some self' ∧ self'.Joined ∧ self.SamePolicy self' ∧
      self'.insertionOrder =
        self.insertionOrder.drop (self.insertionOrder.length - self.capacityBlocks) := by
  induction fuel generalizing self with
  | zero =>
    have hle : ¬self.placements.length > self.capacityBlocks := by
      rw [h.length]
      omega
    refine ⟨self, if_neg hle, h, ⟨rfl, rfl, rfl⟩, ?_⟩
    rw [Nat.le_zero.1 hfuel, List.drop_zero]
  | succ fuel ih =>
    by_cases hfull : self.placements.length > self.capacityBlocks
    · obtain ⟨self₁, hevict, hjoined, hdrop, hpolicy⟩ := evict_spec h 1
      rw [h.length] at hfull
      have hlength : self₁.insertionOrder.length = self.insertionOrder.length - 1 := by
        rw [hdrop, List.length_drop]
      obtain ⟨self', htrim, hjoined', hpolicy', hdrop'⟩ := ih hjoined
        (by rw [hlength, hpolicy.capacity]; omega)
      refine ⟨self', ?_, hjoined', hpolicy.trans hpolicy', ?_⟩
      · rw [trim, if_pos (h.length ▸ hfull), hevict]
        exact htrim
      · rw [hdrop', hlength, hdrop, hpolicy.capacity, List.drop_drop]
        congr 1
        omega
    · refine ⟨self, if_neg hfull, h, ⟨rfl, rfl, rfl⟩, ?_⟩
      rw [h.length] at hfull
      rw [Nat.sub_eq_zero_of_le (by omega), List.drop_zero]

theorem place_spec (h : self.Joined) (block : BlockHash) :
    (self.place block).Joined ∧ self.SamePolicy (self.place block) ∧
      (self.place block).insertionOrder = ((contents h).push block).items := by
  unfold place
  split_ifs with hmem
  · refine ⟨h, ⟨rfl, rfl, rfl⟩, ?_⟩
    rw [FifoSet.push_of_mem (h.mem_iff.1 hmem)]
    rfl
  · have hnew : block ∉ self.insertionOrder := fun hin => hmem (h.mem_iff.2 hin)
    have hpush := FifoSet.push_items_of_not_mem (s := contents h) hnew
    refine ⟨⟨?_, ?_, ?_⟩, ⟨rfl, rfl, rfl⟩, hpush.symm⟩
    · exact (h.blocks.cons block).trans (List.perm_append_singleton _ _).symm
    · exact hpush ▸ ((contents h).push block).nodup
    · rintro placement (_ | ⟨_, hplacement⟩)
      · rfl
      · exact h.homed placement hplacement

/-- **An insertion** ends, and it displaces the oldest blocks. -/
theorem stageInsert_spec (h : self.Joined) (block : BlockHash) :
    ∃ self', self.stageInsert block = some self' ∧ self'.Joined ∧ self.SamePolicy self' ∧
      self'.insertionOrder = ((contents h).insert self.capacityBlocks block).items := by
  obtain ⟨hjoined, hpolicy, horder⟩ := place_spec h block
  have hfuel : (self.place block).insertionOrder.length - (self.place block).capacityBlocks ≤
      (self.place block).placements.length := by
    rw [hjoined.length]
    omega
  obtain ⟨self', htrim, hjoined', hpolicy', hdrop⟩ := trim_spec hjoined hfuel
  refine ⟨self', htrim, hjoined', hpolicy.trans hpolicy', ?_⟩
  rw [hdrop, hpolicy.capacity, horder]
  rfl

/-! ### The store as a bounded FIFO set -/

inductive StoreCall
  | lookup (block : BlockHash)
  | stageInsert (block : BlockHash)
  | evict (maxBlocks : ℕ)
deriving DecidableEq

inductive StoreReply
  | looked (result : LookupResult)
  | staged
  | evicted (blocks : List BlockHash)
deriving DecidableEq

def call (self : InMemoryBlockStore) : StoreCall → Option (StoreReply × InMemoryBlockStore)
  | .lookup block => some (.looked (self.lookup block), self)
  | .stageInsert block => (self.stageInsert block).map (.staged, ·)
  | .evict maxBlocks => some (.evicted (evict maxBlocks self).1, (evict maxBlocks self).2)

/-- The store after a call. -/
def next (self : InMemoryBlockStore) (c : StoreCall) : Option InMemoryBlockStore :=
  (self.call c).map (·.2)

/-- The answers to calls in order. -/
def replies (self : InMemoryBlockStore) : List StoreCall → Option (List StoreReply)
  | [] => some []
  | c :: cs => do
    let (reply, self) ← self.call c
    return reply :: (← replies self cs)

/-- What the store is for: a set in insertion order that keeps the `capacity` youngest blocks. -/
def specCall (capacity : ℕ) (s : FifoSet BlockHash) : StoreCall → StoreReply × FifoSet BlockHash
  | .lookup block =>
    (.looked (if block ∈ s.items then ⟨true, some ⟨block, .l2, 0⟩⟩ else ⟨false, none⟩), s)
  | .stageInsert block => (.staged, s.insert capacity block)
  | .evict maxBlocks => (.evicted (s.items.take maxBlocks), s.drop maxBlocks)

def specReplies (capacity : ℕ) (s : FifoSet BlockHash) : List StoreCall → List StoreReply
  | [] => []
  | c :: cs => (specCall capacity s c).1 :: specReplies capacity (specCall capacity s c).2 cs

/-- A store that stands for a bounded FIFO set. -/
structure Simulates (capacity : ℕ) (s : FifoSet BlockHash) (store : InMemoryBlockStore) :
    Prop where
  joined : store.Joined
  policy : (withCapacity capacity).SamePolicy store
  contents : store.insertionOrder = s.items
  bounded : s.items.length ≤ capacity

variable {capacity : ℕ} {s : FifoSet BlockHash}

/-- A call answers as the set does and ends in a store that stands for the set afterwards. -/
theorem Simulates.call (h : Simulates capacity s self) (c : StoreCall) :
    ∃ self', self.call c = some ((specCall capacity s c).1, self') ∧
      Simulates capacity (specCall capacity s c).2 self' := by
  have hset : InMemoryBlockStore.contents h.joined = s := FifoSet.ext h.contents
  cases c with
  | lookup block =>
    refine ⟨self, ?_, h⟩
    simp only [InMemoryBlockStore.call, h.joined.lookup_eq, specCall, h.contents, placementOf,
      h.policy.level, h.policy.node]
    rfl
  | stageInsert block =>
    obtain ⟨self', hstage, hjoined, hpolicy, horder⟩ := stageInsert_spec h.joined block
    rw [hset, h.policy.capacity] at horder
    refine ⟨self', ?_, hjoined, h.policy.trans hpolicy, horder, FifoSet.length_insert_le⟩
    simp only [InMemoryBlockStore.call, hstage]
    rfl
  | evict maxBlocks =>
    obtain ⟨self', hevict, hjoined, hdrop, hpolicy⟩ := evict_spec h.joined maxBlocks
    rw [h.contents] at hdrop hevict
    refine ⟨self', ?_, hjoined, h.policy.trans hpolicy, hdrop, ?_⟩
    · simp only [InMemoryBlockStore.call, hevict]
      rfl
    · have := h.bounded
      simp only [specCall, FifoSet.drop, List.length_drop]
      omega

theorem Simulates.start (capacity : ℕ) : Simulates capacity .empty (withCapacity capacity) :=
  ⟨withCapacity_joined capacity, ⟨rfl, rfl, rfl⟩, rfl, Nat.zero_le _⟩

theorem Simulates.replies (h : Simulates capacity s self) (cs : List StoreCall) :
    self.replies cs = some (specReplies capacity s cs) := by
  induction cs generalizing self s with
  | nil => rfl
  | cons c cs ih =>
    obtain ⟨self', hcall, h'⟩ := h.call c
    simp only [InMemoryBlockStore.replies, hcall, Option.bind_eq_bind, Option.bind_some, ih h']
    rfl

/-- After calls, too, the store stands for a bounded FIFO set. -/
theorem Simulates.run (h : Simulates capacity s self) (cs : List StoreCall) :
    ∃ s' self', LTS.run next self cs = some self' ∧ Simulates capacity s' self' := by
  induction cs generalizing self s with
  | nil => exact ⟨s, self, rfl, h⟩
  | cons c cs ih =>
    obtain ⟨self₁, hcall, h₁⟩ := h.call c
    obtain ⟨s', self', hrun, h'⟩ := ih h₁
    refine ⟨s', self', LTS.run_cons_eq_some.2 ⟨self₁, ?_, hrun⟩, h'⟩
    rw [next, hcall]
    rfl

/-- What the store guarantees between two calls. -/
structure Sound (capacity : ℕ) (store : InMemoryBlockStore) : Prop where
  /-- Placements and order hold the same blocks, each once. -/
  joined : (store.placements.map (·.block)).Perm store.insertionOrder ∧
    (store.placements.map (·.block)).Nodup ∧ store.insertionOrder.Nodup
  /-- The loop of an insertion ends, within the capacity, and a new block stays if any can. -/
  stageInsert : ∀ block, ∃ after, store.stageInsert block = some after ∧
    after.placements.length ≤ capacity ∧
    (1 ≤ capacity → (store.lookup block).found = false → (after.lookup block).found = true)
  /-- An eviction hands out the oldest blocks and leaves the others in their order. -/
  evict : ∀ maxBlocks, (evict maxBlocks store).1 = store.insertionOrder.take maxBlocks ∧
    (evict maxBlocks store).1.length = min maxBlocks store.placements.length ∧
    (evict maxBlocks store).1 ++ (evict maxBlocks store).2.insertionOrder = store.insertionOrder

theorem Simulates.sound (h : Simulates capacity s self) : self.Sound capacity where
  joined := ⟨h.joined.blocks, h.joined.blocks.nodup_iff.2 h.joined.nodup, h.joined.nodup⟩
  stageInsert block := by
    obtain ⟨self', hstage, hjoined, hpolicy, horder⟩ := stageInsert_spec h.joined block
    rw [show self.capacityBlocks = capacity from h.policy.capacity] at horder
    refine ⟨self', hstage, ?_, fun hcapacity hnew => ?_⟩
    · rw [hjoined.length, horder]
      exact FifoSet.length_insert_le
    · have hmem : block ∉ self.insertionOrder := by
        intro hmem
        rw [h.joined.lookup_eq, if_pos hmem] at hnew
        cases hnew
      have hstays := FifoSet.mem_insert (s := InMemoryBlockStore.contents h.joined) hcapacity hmem
      rw [hjoined.lookup_eq, horder, if_pos hstays]
  evict maxBlocks := by
    obtain ⟨self', hevict, -, hdrop, -⟩ := evict_spec h.joined maxBlocks
    rw [hevict]
    refine ⟨rfl, ?_, ?_⟩
    · rw [List.length_take, h.joined.length]
    · rw [hdrop, List.take_append_drop]

/-- **The block store is a bounded FIFO set**, for every capacity and after every sequence of
calls, none of which runs forever. -/
theorem bounded_fifo (capacity : ℕ) (cs : List StoreCall) :
    (withCapacity capacity).replies cs = some (specReplies capacity .empty cs) ∧
      ∃ self, LTS.run next (withCapacity capacity) cs = some self ∧ self.Sound capacity := by
  obtain ⟨s, self, hrun, h⟩ := (Simulates.start capacity).run cs
  exact ⟨(Simulates.start capacity).replies cs, self, hrun, h.sound⟩

end InMemoryBlockStore

end LinquUb
