import Mathlib.Tactic.Ring

/-!
# Reading bytes

A `Reader` takes a value from the front of a list of bytes, or fails.  `Reads r bytes a` says that
`r` takes exactly `bytes` and returns `a`, whatever follows; a format round-trips when its reader
reads what its writer wrote.

* `Reads.pure`, `Reads.bind`, `Reads.map` : reading is put together like the reader;
* `ofLeBytes_leBytes` : little-endian numbers;
* `reads_take` : **taking as many bytes as were written returns them**;
* `run_bind_ok`, `run_take_ok`, `run_le_ok` : what a reader that has succeeded has taken.
-/

namespace LinquUb

namespace Wire

/-- The `n` low bytes of a number, the least significant first. -/
def leBytes : ℕ → ℕ → List UInt8
  | 0, _ => []
  | n + 1, v => UInt8.ofNat v :: leBytes n (v / 256)

def ofLeBytes : List UInt8 → ℕ
  | [] => 0
  | b :: bytes => b.toNat + 256 * ofLeBytes bytes

@[simp] theorem leBytes_length (n v : ℕ) : (leBytes n v).length = n := by
  induction n generalizing v with
  | zero => rfl
  | succ n ih => simp [leBytes, ih]

theorem ofLeBytes_lt (bytes : List UInt8) : ofLeBytes bytes < 256 ^ bytes.length := by
  induction bytes with
  | nil => exact Nat.one_pos
  | cons b bytes ih =>
    have hb := b.toNat_lt
    rw [ofLeBytes, List.length_cons, Nat.pow_succ']
    omega

/-- Every list of bytes is the encoding of a number. -/
theorem leBytes_ofLeBytes (bytes : List UInt8) : leBytes bytes.length (ofLeBytes bytes) = bytes := by
  induction bytes with
  | nil => rfl
  | cons b bytes ih =>
    have hb := b.toNat_lt
    have hdiv : (b.toNat + 256 * ofLeBytes bytes) / 256 = ofLeBytes bytes := by omega
    have hbyte : UInt8.ofNat (b.toNat + 256 * ofLeBytes bytes) = b := by
      rw [← UInt8.toNat_inj, UInt8.toNat_ofNat']
      omega
    rw [List.length_cons, ofLeBytes, leBytes, hdiv, hbyte, ih]

theorem ofLeBytes_leBytes (n v : ℕ) : ofLeBytes (leBytes n v) = v % 256 ^ n := by
  induction n generalizing v with
  | zero => simp [leBytes, ofLeBytes, Nat.mod_one]
  | succ n ih =>
    have hbyte : (UInt8.ofNat v).toNat = v % 256 := UInt8.toNat_ofNat'
    rw [leBytes, ofLeBytes, ih, hbyte, Nat.pow_succ', Nat.mod_mul]

theorem ofLeBytes_append (xs ys : List UInt8) :
    ofLeBytes (xs ++ ys) = ofLeBytes xs + 256 ^ xs.length * ofLeBytes ys := by
  induction xs with
  | nil => simp [ofLeBytes]
  | cons x xs ih =>
    rw [List.cons_append, ofLeBytes, ofLeBytes, ih, List.length_cons, Nat.pow_succ']
    ring

/-- A reader of values at the front of some bytes. -/
abbrev Reader (α : Type) := StateT (List UInt8) (Except String) α

/-- The next `n` bytes. -/
def take (n : ℕ) (underflow : String) : Reader (List UInt8) := fun bytes =>
  if bytes.length < n then .error underflow else .ok (bytes.take n, bytes.drop n)

variable {α β : Type} {r : Reader α} {f : α → Reader β} {xs ys : List UInt8} {a : α} {b : β}

/-- The reader takes exactly these bytes and returns the value. -/
def Reads (r : Reader α) (bytes : List UInt8) (a : α) : Prop :=
  ∀ rest, r.run (bytes ++ rest) = .ok (a, rest)

theorem Reads.pure (a : α) : Reads (Pure.pure a) [] a := fun _ => rfl

theorem Reads.bind (hr : Reads r xs a) (hf : Reads (f a) ys b) : Reads (r >>= f) (xs ++ ys) b := by
  intro rest
  have hfirst := hr (ys ++ rest)
  rw [← List.append_assoc] at hfirst
  rw [StateT.run_bind, hfirst]
  exact hf rest

theorem Reads.map (hr : Reads r xs a) (g : α → β) : Reads (do return g (← r)) xs (g a) := by
  have hbind : Reads (r >>= fun a => Pure.pure (g a)) (xs ++ []) (g a) := hr.bind (Reads.pure (g a))
  rwa [List.append_nil] at hbind

/-- A check on the way, which reads nothing. -/
theorem Reads.lift {x : Except String α} (h : x = .ok a) : Reads (liftM x) [] a := by
  subst h
  exact Reads.pure a

theorem reads_take {n : ℕ} {bytes : List UInt8} (underflow : String) (h : bytes.length = n) :
    Reads (take n underflow) bytes bytes := by
  intro rest
  subst h
  show (if _ then _ else _) = _
  rw [if_neg (by simp), List.take_left, List.drop_left]

/-- A number that fits is read back. -/
theorem reads_le (n v : ℕ) (underflow : String) (g : ℕ → β) (hv : v < 256 ^ n) :
    Reads (do return g (ofLeBytes (← take n underflow))) (leBytes n v) (g v) := by
  have hread := (reads_take underflow (leBytes_length n v)).map fun bytes => g (ofLeBytes bytes)
  rwa [ofLeBytes_leBytes, Nat.mod_eq_of_lt hv] at hread

/-! ### What was read -/

/-- A sequence of readers succeeds if each of them does. -/
theorem run_bind_ok {bytes rest : List UInt8} :
    (r >>= f).run bytes = .ok (b, rest) ↔
      ∃ a mid, r.run bytes = .ok (a, mid) ∧ (f a).run mid = .ok (b, rest) := by
  rw [StateT.run_bind]
  constructor
  · intro h
    rcases hr : r.run bytes with e | ⟨a, mid⟩
    · rw [hr] at h
      cases h
    · rw [hr] at h
      exact ⟨a, mid, rfl, h⟩
  · rintro ⟨a, mid, hr, hf⟩
    rw [hr]
    exact hf

theorem run_pure_ok {a' : α} {bytes rest : List UInt8} :
    (pure a : Reader α).run bytes = .ok (a', rest) ↔ a = a' ∧ bytes = rest := by
  constructor
  · intro h
    cases h
    exact ⟨rfl, rfl⟩
  · rintro ⟨rfl, rfl⟩
    rfl

theorem run_take_ok {n : ℕ} {underflow : String} {bytes rest : List UInt8} {taken : List UInt8}
    (h : (take n underflow).run bytes = .ok (taken, rest)) :
    bytes = taken ++ rest ∧ taken.length = n := by
  have htake : (if bytes.length < n then .error underflow
      else .ok (bytes.take n, bytes.drop n) : Except String _) = .ok (taken, rest) := h
  split_ifs at htake with hshort
  cases htake
  exact ⟨(List.take_append_drop n bytes).symm, List.length_take_of_le (by omega)⟩

/-- The bytes of a number that was read are its encoding. -/
theorem run_le_ok {n : ℕ} {underflow : String} {g : ℕ → β} {bytes rest : List UInt8}
    (h : (do return g (ofLeBytes (← take n underflow)) : Reader β).run bytes = .ok (b, rest)) :
    ∃ v, v < 256 ^ n ∧ b = g v ∧ bytes = leBytes n v ++ rest := by
  obtain ⟨taken, mid, htake, hpure⟩ := run_bind_ok.1 h
  obtain ⟨rfl, rfl⟩ := run_pure_ok.1 hpure
  obtain ⟨rfl, rfl⟩ := run_take_ok htake
  exact ⟨ofLeBytes taken, ofLeBytes_lt taken, rfl, by rw [leBytes_ofLeBytes]⟩

end Wire

end LinquUb
