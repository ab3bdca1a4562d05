import NyxNet.Lib.Bytes

/-!
# Growable buffers

`BytesMut` of the `bytes` crate: a handle on allocated memory.  Splitting the
content off leaves the handle with the memory behind it, so its capacity
shrinks by what was split.
-/

/-- How much the allocator gives for a request; never less than was asked. -/
structure Allocation where
  capacityFor : Nat → Nat
  enough : ∀ requested, requested ≤ capacityFor requested

/-- An allocator that gives just what is asked. -/
def Allocation.tight : Allocation := ⟨id, fun _ => Nat.le_refl _⟩

structure BytesMut where
  content : Bytes
  capacity : Nat
  fits : content.length ≤ capacity
  deriving DecidableEq, Repr

namespace BytesMut

variable (allocation : Allocation)

def withCapacity (capacity : Nat) : BytesMut where
  content := []
  capacity := allocation.capacityFor capacity
  fits := Nat.zero_le _

/-- `BytesMut::from(&[u8])`. -/
def ofSlice (content : Bytes) : BytesMut where
  content := content
  capacity := allocation.capacityFor content.length
  fits := allocation.enough _

/-- The content, and the handle that is left. -/
def split (buffer : BytesMut) : Bytes × BytesMut :=
  (buffer.content,
    { content := []
      capacity := buffer.capacity - buffer.content.length
      fits := Nat.zero_le _ })

/-- `extend_from_slice`: new memory only when the old one is too small. -/
def extendFromSlice (buffer : BytesMut) (slice : Bytes) : BytesMut :=
  if fits : buffer.content.length + slice.length ≤ buffer.capacity then
    { content := buffer.content ++ slice
      capacity := buffer.capacity
      fits := by simpa using fits }
  else
    ofSlice allocation (buffer.content ++ slice)

/-- Room that is left without new memory. -/
def room (buffer : BytesMut) : Nat := buffer.capacity - buffer.content.length

variable {allocation}

@[simp] theorem content_extendFromSlice (buffer : BytesMut) (slice : Bytes) :
    (buffer.extendFromSlice allocation slice).content =
      buffer.content ++ slice := by
  unfold extendFromSlice
  split <;> rfl

theorem capacity_extendFromSlice {buffer : BytesMut} {slice : Bytes}
    (fits : slice.length ≤ buffer.room) :
    (buffer.extendFromSlice allocation slice).capacity = buffer.capacity := by
  have whole := buffer.fits
  unfold room at fits
  unfold extendFromSlice
  rw [dif_pos (by omega)]

end BytesMut
