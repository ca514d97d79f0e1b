import Eeveetuber.Foundation.Layout

/-!
# Chunked files

A file in the Resource Interchange File Format is one chunk, of the identifier `RIFF`, which holds
the type of the file and then chunks. A chunk is an identifier of four bytes, the length of its data
in four bytes, the lowest first, and the data, which a byte that means nothing follows where its
length is odd.

`Foundation.Riff.readChunks_writeChunks`: chunks are read as they were written, whatever they are;
`Foundation.Riff.read_write` says so of whole files. A reader takes a file apart by this without
knowing what its chunks mean.
-/

namespace Foundation

/-- The bytes of some ASCII characters. -/
def ascii (s : String) : Bytes := s.toList.map fun c => UInt8.ofNat c.toNat

/-- A chunk: its identifier, and its data. -/
structure Chunk where
  identifier : Bytes
  data : Bytes
deriving DecidableEq

namespace Chunk

/-- The chunks that can be written. -/
structure Fits (c : Chunk) : Prop where
  identifier : c.identifier.length = 4
  data : c.data.length < 256 ^ 4

/-- A chunk in a file. -/
def write (c : Chunk) : Bytes :=
  c.identifier ++ littleEndian 4 c.data.length ++ c.data ++
    List.replicate (c.data.length % 2) 0

end Chunk

namespace Riff

/-- Chunks one after the other. -/
def writeChunks (cs : List Chunk) : Bytes := (cs.map Chunk.write).flatten

/-- The chunks that some bytes are; there are no more of them than the first argument. -/
def readChunks : ℕ → Bytes → Option (List Chunk)
  | 0, bs => if bs = [] then some [] else none
  | n + 1, bs =>
    if bs = [] then some []
    else
      let size := ofLittleEndian ((bs.drop 4).take 4)
      let body := bs.drop 8
      if body.length < size + size % 2 then none
      else (readChunks n (body.drop (size + size % 2))).map (⟨bs.take 4, body.take size⟩ :: ·)

/-- A file of the given type. -/
def write (form : Bytes) (cs : List Chunk) : Bytes :=
  Chunk.write ⟨ascii "RIFF", form ++ writeChunks cs⟩

/-- The type of a file, and its chunks. -/
def read (bs : Bytes) : Option (Bytes × List Chunk) :=
  match readChunks 1 bs with
  | some [⟨identifier, data⟩] =>
    if identifier = ascii "RIFF" then
      (readChunks data.length (data.drop 4)).map (data.take 4, ·)
    else none
  | _ => none

variable {c : Chunk} {cs : List Chunk} {n : ℕ} {form : Bytes}

/-- The first chunk is read, and the others are left. -/
theorem readChunks_write_append (h : c.Fits) (rest : Bytes) :
    readChunks (n + 1) (c.write ++ rest) = (readChunks n rest).map (c :: ·) := by
  obtain ⟨identifier, data⟩ := c
  obtain ⟨hid, hlt⟩ := h
  -- the size fits its four bytes, and is read back
  have hsize : ofLittleEndian (littleEndian 4 data.length) = data.length := by
    rw [ofLittleEndian_littleEndian, Nat.mod_eq_of_lt hlt]
  have hbytes : Chunk.write ⟨identifier, data⟩ ++ rest =
      identifier ++ (littleEndian 4 data.length ++
        (data ++ (List.replicate (data.length % 2) 0 ++ rest))) := by
    simp only [Chunk.write, List.append_assoc]
  have hdrop4 : (Chunk.write ⟨identifier, data⟩ ++ rest).drop 4 = littleEndian 4 data.length ++
      (data ++ (List.replicate (data.length % 2) 0 ++ rest)) := by
    rw [hbytes, ← hid, List.drop_left]
  have hdrop8 : (Chunk.write ⟨identifier, data⟩ ++ rest).drop 8 =
      data ++ (List.replicate (data.length % 2) 0 ++ rest) := by
    rw [show 8 = 4 + 4 from rfl, ← List.drop_drop, hdrop4]
    exact List.drop_left' length_littleEndian
  have htake : ((Chunk.write ⟨identifier, data⟩ ++ rest).drop 4).take 4 =
      littleEndian 4 data.length := by
    rw [hdrop4]
    exact List.take_left' length_littleEndian
  have hfirst : (Chunk.write ⟨identifier, data⟩ ++ rest).take 4 = identifier := by
    rw [hbytes]
    exact List.take_left' hid
  have hne : Chunk.write ⟨identifier, data⟩ ++ rest ≠ [] := by
    intro hnil
    rw [hnil] at hfirst
    rw [← hfirst] at hid
    cases hid
  have hlen : ¬(data ++ (List.replicate (data.length % 2) 0 ++ rest)).length <
      data.length + data.length % 2 := by
    simp only [List.length_append, List.length_replicate]
    omega
  -- what follows the padding is the rest
  have hrest : (data ++ (List.replicate (data.length % 2) 0 ++ rest)).drop
      (data.length + data.length % 2) = rest := by
    rw [← List.drop_drop, List.drop_left]
    exact List.drop_left' (List.length_replicate ..)
  rw [readChunks, if_neg hne]
  dsimp only
  rw [htake, hsize, hdrop8, if_neg hlen, hfirst, hrest, List.take_left]

/-- **What was written is read back.** -/
theorem readChunks_writeChunks (h : ∀ c ∈ cs, c.Fits) (hn : cs.length ≤ n) :
    readChunks n (writeChunks cs) = some cs := by
  induction cs generalizing n with
  | nil => cases n <;> rfl
  | cons c cs ih =>
    obtain ⟨n, rfl⟩ : ∃ m, n = m + 1 := ⟨n - 1, by rw [List.length_cons] at hn; omega⟩
    have hwrite : writeChunks (c :: cs) = c.write ++ writeChunks cs := rfl
    rw [hwrite, readChunks_write_append (h c (List.mem_cons_self ..)),
      ih (fun d hd => h d (List.mem_cons_of_mem _ hd)) (Nat.le_of_succ_le_succ hn)]
    rfl

theorem length_le_writeChunks (h : ∀ c ∈ cs, c.Fits) : cs.length ≤ (writeChunks cs).length := by
  induction cs with
  | nil => exact Nat.le_refl _
  | cons c cs ih =>
    have hid := (h c (List.mem_cons_self ..)).identifier
    have hrest := ih fun d hd => h d (List.mem_cons_of_mem _ hd)
    have hwrite : writeChunks (c :: cs) = c.write ++ writeChunks cs := rfl
    rw [hwrite, List.length_append, List.length_cons, Chunk.write]
    simp only [List.length_append]
    omega

/-- **Files are read back**: their type, and their chunks. -/
theorem read_write (hform : form.length = 4) (h : ∀ c ∈ cs, c.Fits)
    (hsize : 4 + (writeChunks cs).length < 256 ^ 4) : read (write form cs) = some (form, cs) := by
  have hfits : Chunk.Fits ⟨ascii "RIFF", form ++ writeChunks cs⟩ :=
    ⟨rfl, by rw [List.length_append, hform]; exact hsize⟩
  have hone : readChunks 1 (write form cs) =
      some [⟨ascii "RIFF", form ++ writeChunks cs⟩] := by
    have := readChunks_write_append (n := 0) hfits []
    rw [List.append_nil] at this
    exact this
  have hn : cs.length ≤ (form ++ writeChunks cs).length := by
    rw [List.length_append]
    exact (length_le_writeChunks h).trans (Nat.le_add_left _ _)
  rw [read, hone]
  dsimp only
  rw [if_pos rfl, List.drop_left' hform, List.take_left' hform, readChunks_writeChunks h hn]
  rfl

end Riff

end Foundation
