import Eeveetuber.Foundation.Layout

/-!
# Buffers of a fixed size

An encoder that lays out a packet by hand makes a buffer of zeros of the size it
will need, and stores each field at its offset. As long as the offsets follow one
another, what is stored is a prefix of the packet and the rest is zeros:
`Foundation.store_filled` for one store, and `Foundation.storeEach_filled` for a
loop that stores an array.
-/

namespace Foundation

/-- Bytes stored at an offset; what does not fit into the buffer is an error. -/
def store (offset : ℕ) (bs : Bytes) (buffer : Bytes) : Except String Bytes := do
  raiseIf (buffer.length < offset + bs.length) "offset is out of bounds"
  return buffer.take offset ++ bs ++ buffer.drop (offset + bs.length)

/-- So many bytes at an offset. -/
def fetch (offset width : ℕ) (buffer : Bytes) : Except String Bytes := do
  raiseIf (buffer.length < offset + width) "offset is out of bounds"
  return (buffer.drop offset).take width

/-- A loop that stores the items of an array of so many bytes each, from a base on. -/
def storeEach (width base : ℕ) (items : List Bytes) (buffer : Bytes) : Except String Bytes :=
  items.zipIdx.foldlM (fun buffer item => store (base + item.2 * width) item.1 buffer) buffer

/-- A buffer of which a prefix is done and so many bytes are left. -/
def filled (done : Bytes) (left : ℕ) : Bytes := done ++ List.replicate left 0

variable {done bs buffer : Bytes} {left offset width : ℕ}

@[simp] theorem length_filled : (filled done left).length = done.length + left := by
  rw [filled, List.length_append, List.length_replicate]

@[simp] theorem filled_zero : filled done 0 = done := List.append_nil done

theorem fetch_of_le (h : offset + width ≤ buffer.length) :
    fetch offset width buffer = .ok ((buffer.drop offset).take width) :=
  raiseIf_bind_eq_ok.mpr ⟨not_lt.mpr h, rfl⟩

/-- **The next bytes are stored.** -/
theorem store_filled (hoffset : offset = done.length) (h : bs.length ≤ left) :
    store offset bs (filled done left) = .ok (filled (done ++ bs) (left - bs.length)) := by
  subst hoffset
  refine raiseIf_bind_eq_ok.mpr ⟨?_, ?_⟩
  · rw [length_filled]
    omega
  · rw [filled, List.take_left, ← List.drop_drop, List.drop_left, List.drop_replicate]
    rfl

/-- The loop, from its `n`-th item on. -/
theorem foldlM_store_filled {base : ℕ} {items : List Bytes} (n : ℕ)
    (hwidth : ∀ item ∈ items, item.length = width) (hdone : done.length = base + n * width)
    (h : items.length * width ≤ left) :
    (items.zipIdx n).foldlM (fun buffer item => store (base + item.2 * width) item.1 buffer)
      (filled done left) = .ok (filled (done ++ items.flatten) (left - items.length * width)) := by
  induction items generalizing n done left with
  | nil => simp [pure, Except.pure]
  | cons item items ih =>
    have hitem : item.length = width := hwidth item List.mem_cons_self
    rw [List.length_cons, Nat.succ_mul] at h
    have hdone' : (done ++ item).length = base + (n + 1) * width := by
      rw [List.length_append, hdone, hitem, Nat.succ_mul, Nat.add_assoc]
    have hstore : store (base + n * width) item (filled done left) =
        .ok (filled (done ++ item) (left - item.length)) := store_filled hdone.symm (by omega)
    refine except_bind_eq_ok.mpr ⟨_, hstore, ?_⟩
    rw [ih (n + 1) (fun i hi => hwidth i (List.mem_cons_of_mem _ hi)) hdone' (by omega),
      List.flatten_cons, List.append_assoc, List.length_cons, Nat.succ_mul, hitem, Nat.sub_sub,
      Nat.add_comm width]

/-- **An array is stored.** -/
theorem storeEach_filled {items : List Bytes} (hoffset : offset = done.length)
    (hwidth : ∀ item ∈ items, item.length = width) (h : items.length * width ≤ left) :
    storeEach width offset items (filled done left) =
      .ok (filled (done ++ items.flatten) (left - items.length * width)) :=
  foldlM_store_filled 0 hwidth (by omega) h

end Foundation
