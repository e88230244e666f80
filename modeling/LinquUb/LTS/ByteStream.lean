import Mathlib.Data.List.Infix

/-!
# A reliable stream

One direction of a connection: what is written arrives in order and is read piece by piece, until
the writer has closed its end and everything is read.

* `ByteStream.read` : what a call that waits for the next element returns;
* `ByteStream.received_prefix` : **the reader has a prefix of what was written**;
* `ByteStream.Grows` : what any use of the stream keeps.
-/

namespace LinquUb

structure ByteStream (α : Type) where
  /-- What was written. -/
  sent : List α
  /-- How much of it was read. -/
  got : ℕ
  /-- The writer has closed its end. -/
  closed : Bool
  got_le : got ≤ sent.length
deriving DecidableEq

/-- The answer to a call that waits for the next element. -/
inductive ReadResult (α : Type)
  | item (a : α)
  | eof
deriving DecidableEq

namespace ByteStream

variable {α : Type} {b b' b'' : ByteStream α} {a : α} {chunk : List α}

def empty : ByteStream α := { sent := [], got := 0, closed := false, got_le := le_rfl }

/-- What was read. -/
def received (b : ByteStream α) : List α := b.sent.take b.got

def write (b : ByteStream α) (chunk : List α) : ByteStream α :=
  { b with
    sent := b.sent ++ chunk
    got_le := by simpa using Nat.le_add_right_of_le b.got_le }

def close (b : ByteStream α) : ByteStream α := { b with closed := true }

/-- `none` if the call does not return. -/
def read (b : ByteStream α) : Option (ReadResult α × ByteStream α) :=
  if h : b.got < b.sent.length then
    some (.item b.sent[b.got], { b with got := b.got + 1, got_le := h })
  else if b.closed then some (.eof, b)
  else none

@[simp] theorem write_received : (b.write chunk).received = b.received :=
  List.take_append_of_le_length b.got_le

theorem received_prefix (b : ByteStream α) : b.received <+: b.sent := List.take_prefix _ _

theorem read_item (h : b.read = some (.item a, b')) :
    b'.sent = b.sent ∧ b'.received = b.received ++ [a] := by
  unfold read at h
  split_ifs at h with hlt
  · cases h
    exact ⟨rfl, (List.take_append_getElem hlt).symm⟩
  · cases h

theorem read_eof (h : b.read = some (.eof, b')) : b' = b := by
  unfold read at h
  split_ifs at h with hlt <;> cases h
  rfl

theorem read_sent {r : ReadResult α} (h : b.read = some (r, b')) : b'.sent = b.sent := by
  cases r with
  | item a => exact (read_item h).1
  | eof => rw [read_eof h]

/-! ### Use of a stream -/

/-- More was written, more was read. -/
structure Grows (b b' : ByteStream α) : Prop where
  sent : b.sent <+: b'.sent
  received : b.received <+: b'.received

theorem Grows.refl (b : ByteStream α) : b.Grows b := ⟨List.prefix_rfl, List.prefix_rfl⟩

theorem grows_write (b : ByteStream α) (chunk : List α) : b.Grows (b.write chunk) :=
  ⟨List.prefix_append _ _, by rw [write_received]⟩

theorem grows_close (b : ByteStream α) : b.Grows b.close := ⟨List.prefix_rfl, List.prefix_rfl⟩

theorem grows_read {r : ReadResult α} (h : b.read = some (r, b')) : b.Grows b' := by
  cases r with
  | item a =>
    obtain ⟨hsent, hreceived⟩ := read_item h
    exact ⟨by rw [hsent], hreceived ▸ List.prefix_append _ _⟩
  | eof => exact read_eof h ▸ Grows.refl _

end ByteStream

end LinquUb
