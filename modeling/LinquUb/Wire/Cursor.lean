import LinquUb.Wire.Reader

/-!
# Cursors

A cursor keeps the bytes and an offset into them.  Slices and indices are checked: one that is out
of range stops the program, which is kept apart from the errors that it returns.

* `Agrees m r` : the decoder `m` does on a cursor what the reader `r` does on the bytes behind the
  offset, and never goes out of range;
* `agrees_take`, `Agrees.bind` : decoders that are put together from `Cursor.take` agree with the
  readers that are put together in the same way.
-/

namespace LinquUb

namespace Wire

/-- Why a decoder stops. -/
inductive Stop
  | error (message : String)
  | outOfRange
deriving DecidableEq, Repr

structure Cursor where
  bytes : List UInt8
  offset : ℕ

abbrev Decoder (α : Type) := StateT Cursor (Except Stop) α

def Cursor.new (bytes : List UInt8) : Cursor := ⟨bytes, 0⟩

/-- `&bytes[start..stop]`. -/
def slice (bytes : List UInt8) (start stop : ℕ) : Except Stop (List UInt8) :=
  if start ≤ stop ∧ stop ≤ bytes.length then .ok ((bytes.drop start).take (stop - start))
  else .error .outOfRange

/-- `bytes[i]`. -/
def index (bytes : List UInt8) (i : ℕ) : Except Stop UInt8 :=
  match bytes[i]? with
  | some b => .ok b
  | none => .error .outOfRange

/-- `copy_from_slice` into an array of `n` bytes. -/
def copyFromSlice (n : ℕ) (bytes : List UInt8) : Except Stop (List UInt8) :=
  if bytes.length = n then .ok bytes else .error .outOfRange

/-- An error that the decoder returns. -/
def fail {α : Type} (message : String) : Decoder α := throw (.error message)

/-- Take the next `len` bytes. -/
def Cursor.take (underflow : String) (len : ℕ) : Decoder (List UInt8) := do
  let self ← get
  if self.offset + len > self.bytes.length then
    fail underflow
  else
    set { self with offset := self.offset + len }
    slice self.bytes self.offset (self.offset + len)

variable {α β : Type} {m : Decoder α} {r : Reader α} {f : α → Decoder β} {g : α → Reader β}

/-- The decoder returns what the reader returns and moves the offset as far, or fails with the same
message. -/
def Agrees (m : Decoder α) (r : Reader α) : Prop :=
  ∀ c : Cursor, c.offset ≤ c.bytes.length →
    (∃ a k, r.run (c.bytes.drop c.offset) = .ok (a, c.bytes.drop (c.offset + k)) ∧
        c.offset + k ≤ c.bytes.length ∧ m.run c = .ok (a, { c with offset := c.offset + k })) ∨
      ∃ message, r.run (c.bytes.drop c.offset) = .error message ∧
        m.run c = .error (.error message)

theorem agrees_pure (a : α) : Agrees (pure a) (pure a) := fun _ hc => .inl ⟨a, 0, rfl, hc, rfl⟩

theorem agrees_fail (message : String) : Agrees (fail message : Decoder α) (throw message) :=
  fun _ _ => .inr ⟨message, rfl, rfl⟩

theorem Agrees.bind (hm : Agrees m r) (hf : ∀ a, Agrees (f a) (g a)) :
    Agrees (m >>= f) (r >>= g) := by
  intro c hc
  rw [StateT.run_bind, StateT.run_bind]
  rcases hm c hc with ⟨a, k, hr, hk, hm⟩ | ⟨message, hr, hm⟩
  · rw [hr, hm]
    rcases hf a { c with offset := c.offset + k } hk with ⟨b, l, hg, hl, hf⟩ | ⟨message, hg, hf⟩
    · refine .inl ⟨b, k + l, ?_, by rw [← Nat.add_assoc]; exact hl, ?_⟩
      · rw [← Nat.add_assoc]
        exact hg
      · rw [← Nat.add_assoc]
        exact hf
    · exact .inr ⟨message, hg, hf⟩
  · exact .inr ⟨message, by rw [hr]; rfl, by rw [hm]; rfl⟩

/-- A slice that the cursor checks is in range. -/
theorem agrees_take (underflow : String) (len : ℕ) :
    Agrees (Cursor.take underflow len) (take len underflow) := by
  intro c hc
  have hreader : (take len underflow).run (c.bytes.drop c.offset) =
      if (c.bytes.drop c.offset).length < len then .error underflow
      else .ok ((c.bytes.drop c.offset).take len, (c.bytes.drop c.offset).drop len) := rfl
  have hdecoder : (Cursor.take underflow len).run c =
      if c.offset + len > c.bytes.length then .error (.error underflow)
      else (slice c.bytes c.offset (c.offset + len)).map
        fun taken => (taken, { c with offset := c.offset + len }) := by
    unfold Cursor.take
    by_cases h : c.offset + len > c.bytes.length
    · rw [if_pos h]
      show (StateT.run (if _ then _ else _) _) = _
      rw [if_pos h]
      rfl
    · rw [if_neg h]
      show (StateT.run (if _ then _ else _) _) = _
      rw [if_neg h]
      cases slice c.bytes c.offset (c.offset + len) <;> rfl
  rw [hreader, hdecoder, List.length_drop]
  by_cases h : c.offset + len > c.bytes.length
  · exact .inr ⟨underflow, if_pos (by omega), if_pos h⟩
  · refine .inl ⟨(c.bytes.drop c.offset).take len, len, ?_, by omega, ?_⟩
    · rw [if_neg (by omega), List.drop_drop]
    · rw [if_neg h, slice, if_pos (by omega), Nat.add_sub_cancel_left]
      rfl

end Wire

end LinquUb
