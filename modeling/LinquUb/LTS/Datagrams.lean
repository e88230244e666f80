import LinquUb.LTS.Run
import Mathlib.Data.List.Perm.Basic
import Mathlib.Logic.Function.Basic
import Mathlib.Tactic.SplitIfs

/-!
# A datagram network

Datagrams are in flight until they arrive at the socket of their destination, where they wait to be
read.  The network may deliver, drop or duplicate any datagram in flight.

* `Net.Carries` : a datagram is in flight or waits at a socket;
* `Net.act_carries` : the network carries only what was posted;
* `Net.Balanced` : every copy is in flight, at a socket, lost or read;
* `Net.Balanced.post`, `Net.Balanced.act`, `Net.Balanced.take` : **copies stay accounted for**.
-/

namespace LinquUb

/-- A message with its addresses. -/
structure Datagram (ι μ : Type) where
  src : ι
  dst : ι
  msg : μ
deriving DecidableEq

structure Net (ι μ : Type) where
  flight : List (Datagram ι μ)
  /-- What has arrived at a node, with its source. -/
  socket : ι → List (ι × μ)
  /-- Every copy there ever was. -/
  sent : List (Datagram ι μ)
  /-- The copies that were dropped. -/
  lost : List (Datagram ι μ)

/-- What the network does with the datagram at a position in flight. -/
inductive NetAction
  | deliver (k : ℕ)
  | drop (k : ℕ)
  | duplicate (k : ℕ)
deriving DecidableEq, Repr

namespace Net

variable {ι μ : Type} {net net' : Net ι μ} {d e : Datagram ι μ}

def empty : Net ι μ := { flight := [], socket := fun _ => [], sent := [], lost := [] }

def post (net : Net ι μ) (d : Datagram ι μ) : Net ι μ :=
  { net with flight := net.flight ++ [d], sent := net.sent ++ [d] }

/-! ### What the network carries -/

/-- The datagram is in flight or at the socket of its destination. -/
def Carries (net : Net ι μ) (d : Datagram ι μ) : Prop :=
  d ∈ net.flight ∨ (d.src, d.msg) ∈ net.socket d.dst

instance [DecidableEq ι] [DecidableEq μ] (net : Net ι μ) (d : Datagram ι μ) :
    Decidable (net.Carries d) :=
  inferInstanceAs (Decidable (_ ∨ _))

theorem not_carries_empty (d : Datagram ι μ) : ¬(empty : Net ι μ).Carries d := by
  rintro (h | h) <;> cases h

theorem carries_post : (net.post d).Carries e ↔ net.Carries e ∨ e = d := by
  simp only [Carries, post, List.mem_append, List.mem_singleton]
  tauto

/-- A message at a socket is carried. -/
theorem carries_head {i src : ι} {m : μ} {rest : List (ι × μ)} (h : net.socket i = (src, m) :: rest) :
    net.Carries ⟨src, i, m⟩ :=
  .inr (h ▸ List.mem_cons_self ..)

/-! ### Steps of the network -/

variable [DecidableEq ι]

/-- Node `i` has read the first message at its socket. -/
def take (net : Net ι μ) (i : ι) (rest : List (ι × μ)) : Net ι μ :=
  { net with socket := Function.update net.socket i rest }

def arrive (net : Net ι μ) (d : Datagram ι μ) : ι → List (ι × μ) :=
  Function.update net.socket d.dst (net.socket d.dst ++ [(d.src, d.msg)])

def act (net : Net ι μ) : NetAction → Option (Net ι μ)
  | .deliver k => net.flight[k]?.map fun d =>
    { net with
      flight := net.flight.eraseIdx k
      socket := net.arrive d }
  | .drop k => net.flight[k]?.map fun d =>
    { net with
      flight := net.flight.eraseIdx k
      lost := net.lost ++ [d] }
  | .duplicate k => net.flight[k]?.map fun d => net.post d

/-- A network that loses nothing, duplicates nothing and keeps the order between any two nodes. -/
def InOrder (net : Net ι μ) : NetAction → Prop
  | .deliver k => ∀ d ∈ net.flight[k]?, ∀ e ∈ net.flight.take k, ¬(e.src = d.src ∧ e.dst = d.dst)
  | .drop _ => False
  | .duplicate _ => False

instance (net : Net ι μ) : (a : NetAction) → Decidable (net.InOrder a)
  | .deliver k => inferInstanceAs (Decidable (∀ d ∈ net.flight[k]?, ∀ e ∈ net.flight.take k,
      ¬(e.src = d.src ∧ e.dst = d.dst)))
  | .drop _ => inferInstanceAs (Decidable False)
  | .duplicate _ => inferInstanceAs (Decidable False)

theorem take_carries {i : ι} {x : ι × μ} {rest : List (ι × μ)} (h : net.socket i = x :: rest)
    (he : (net.take i rest).Carries e) : net.Carries e := by
  rcases he with hflight | hsocket
  · exact .inl hflight
  · refine .inr ?_
    simp only [take, Function.update_apply] at hsocket
    split_ifs at hsocket with hi
    · rw [hi, h]
      exact List.mem_cons_of_mem _ hsocket
    · exact hsocket

/-- Node `i` opens a new socket. -/
def reopen (net : Net ι μ) (i : ι) : Net ι μ := net.take i []

theorem reopen_carries {i : ι} (he : (net.reopen i).Carries e) : net.Carries e := by
  rcases he with hflight | hsocket
  · exact .inl hflight
  · refine .inr ?_
    simp only [reopen, take, Function.update_apply] at hsocket
    split_ifs at hsocket with hi
    · cases hsocket
    · exact hsocket

theorem act_carries {a : NetAction} (h : net.act a = some net') (he : net'.Carries e) :
    net.Carries e := by
  cases a with
  | deliver k =>
    obtain ⟨d, hd, rfl⟩ := Option.map_eq_some_iff.1 h
    rcases he with hflight | hsocket
    · exact .inl (List.mem_of_mem_eraseIdx hflight)
    · simp only [arrive, Function.update_apply] at hsocket
      split_ifs at hsocket with hdst
      · rcases List.mem_append.1 hsocket with hold | hlast
        · exact .inr (hdst ▸ hold)
        · -- the datagram that arrives
          have heq : e = d := by
            obtain ⟨hsrc, hmsg⟩ := Prod.mk.injEq .. ▸ List.mem_singleton.1 hlast
            cases e
            cases d
            simp_all
          exact .inl (heq ▸ List.mem_of_getElem? hd)
      · exact .inr hsocket
  | drop k =>
    obtain ⟨d, _, rfl⟩ := Option.map_eq_some_iff.1 h
    exact he.imp List.mem_of_mem_eraseIdx id
  | duplicate k =>
    obtain ⟨d, hd, rfl⟩ := Option.map_eq_some_iff.1 h
    rcases carries_post.1 he with hold | rfl
    · exact hold
    · exact .inl (List.mem_of_getElem? hd)

/-! ### Counting copies -/

variable [DecidableEq μ]

/-- The number of copies in flight or at a socket. -/
def transit (net : Net ι μ) (d : Datagram ι μ) : ℕ :=
  net.flight.count d + (net.socket d.dst).count (d.src, d.msg)

theorem transit_pos : 0 < net.transit d ↔ net.Carries d := by
  rw [transit, Carries, Nat.add_pos_iff_pos_or_pos, List.count_pos_iff, List.count_pos_iff]

/-- Every copy is in transit, lost or read. -/
def Balanced (net : Net ι μ) (read : List (Datagram ι μ)) : Prop :=
  ∀ d, net.sent.count d = net.transit d + net.lost.count d + read.count d

variable {read : List (Datagram ι μ)}

theorem balanced_empty : (empty : Net ι μ).Balanced [] := fun _ => rfl

theorem Balanced.post (h : net.Balanced read) (d : Datagram ι μ) : (net.post d).Balanced read := by
  intro e
  have hold := h e
  simp only [Net.post, transit, List.count_append] at hold ⊢
  omega

/-- Two datagrams are the same if their destinations and their socket entries are. -/
theorem count_singleton (d e : Datagram ι μ) :
    [d].count e = if e.dst = d.dst then [(d.src, d.msg)].count (e.src, e.msg) else 0 := by
  obtain ⟨src, dst, msg⟩ := d
  obtain ⟨src', dst', msg'⟩ := e
  by_cases hdst : dst' = dst
  · subst hdst
    simp [List.count_singleton]
  · have hne : ¬dst = dst' := fun heq => hdst heq.symm
    simp [hdst, hne]

theorem Balanced.take (h : net.Balanced read) {i src : ι} {m : μ} {rest : List (ι × μ)}
    (hsocket : net.socket i = (src, m) :: rest) :
    (net.take i rest).Balanced (read ++ [⟨src, i, m⟩]) := by
  intro e
  have hold := h e
  have hone := count_singleton ⟨src, i, m⟩ e
  simp only [Net.take, transit, List.count_append, Function.update_apply] at hold hone ⊢
  split_ifs at hone ⊢ with hi
  · rw [hi, hsocket, ← List.singleton_append, List.count_append] at hold
    omega
  · omega

theorem count_eraseIdx {k : ℕ} {flight : List (Datagram ι μ)} (hd : flight[k]? = some d)
    (e : Datagram ι μ) : flight.count e = (flight.eraseIdx k).count e + [d].count e := by
  obtain ⟨hlt, rfl⟩ := List.getElem?_eq_some_iff.1 hd
  rw [← (List.getElem_cons_eraseIdx_perm hlt).count_eq e, List.count_cons, List.count_singleton]

theorem Balanced.act (h : net.Balanced read) {a : NetAction} (ha : net.act a = some net') :
    net'.Balanced read := by
  cases a with
  | deliver k =>
    obtain ⟨d, hd, rfl⟩ := Option.map_eq_some_iff.1 ha
    intro e
    have hold := h e
    have herase := count_eraseIdx hd e
    have hone := count_singleton d e
    simp only [transit, arrive, Function.update_apply] at hold ⊢
    split_ifs at hone ⊢ with hdst
    · rw [List.count_append, ← hdst]
      omega
    · omega
  | drop k =>
    obtain ⟨d, hd, rfl⟩ := Option.map_eq_some_iff.1 ha
    intro e
    have hold := h e
    have herase := count_eraseIdx hd e
    simp only [transit, List.count_append] at hold ⊢
    omega
  | duplicate k =>
    obtain ⟨d, _, rfl⟩ := Option.map_eq_some_iff.1 ha
    exact h.post d

end Net

end LinquUb
