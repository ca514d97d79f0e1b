import Eeveetuber.Foundation.Riff
import Eeveetuber.Media.Pcm

/-!
# Utterances as WAV files

An utterance is uploaded as a WAV file, which is made in memory. The library that writes it,
`Eeveetuber.writeWave`, writes its header before it knows how much follows, and writes the lengths
once more where they were not right.

What a reader makes of such a file is `Eeveetuber.readWave`, which takes the chunks of the file
apart and relies on nothing the writer does. `Eeveetuber.encodeWav_reads_back`: **it gets the
utterance back**, its format and its samples, whenever the file can be written, which is whenever
its length fits the header.
-/

namespace Eeveetuber

open Foundation

/-- The text of `struct.error` for a number that does not fit its field of two bytes (`H`) or four
bytes (`L`). -/
def outOfRange (width n : ℕ) : String :=
  if 2 ^ 64 ≤ n then "argument out of range"
  else if width = 2 then "ushort format requires 0 <= number <= 65535"
  else "'L' format requires 0 <= number <= 4294967295"

/-- `struct.pack` of an unsigned integer, the lowest byte first. -/
def packUnsigned (width n : ℕ) : Except String Bytes := do
  raiseIf (¬n < 256 ^ width) (outOfRange width n)
  return littleEndian width n

/-- The header of a file with so many bytes of samples. -/
def waveHeader (channels sampleWidth frameRate dataLength : ℕ) : Except String Bytes := do
  let formLength ← packUnsigned 4 (36 + dataLength)
  let channelCount ← packUnsigned 2 channels
  let rate ← packUnsigned 4 frameRate
  let byteRate ← packUnsigned 4 (channels * frameRate * sampleWidth)
  let blockAlign ← packUnsigned 2 (channels * sampleWidth)
  let bits ← packUnsigned 2 (sampleWidth * 8)
  let length ← packUnsigned 4 dataLength
  return ascii "RIFF" ++ formLength ++ ascii "WAVE" ++ ascii "fmt " ++ littleEndian 4 16 ++
    littleEndian 2 1 ++ channelCount ++ rate ++ byteRate ++ blockAlign ++ bits ++ ascii "data" ++
    length

/-- `wave.open(buffer, "wb")`, `writeframes(data)` and `close()`. -/
def writeWave (channels sampleWidth frameRate : ℕ) (data : Bytes) : Except String Bytes := do
  let dataLength := data.length / (channels * sampleWidth) * channels * sampleWidth
  let header ← waveHeader channels sampleWidth frameRate dataLength
  if dataLength = data.length then return header ++ data
  -- the lengths in the header are those of what was written
  let header ← waveHeader channels sampleWidth frameRate data.length
  return header ++ data

/-- `utterance.pcm`. -/
def PcmUtterance.pcm (u : PcmUtterance) : Bytes := (u.frames.map (·.pcm)).flatten

/-- `_encode_wav`. -/
def encodeWav (u : PcmUtterance) : Except String Bytes :=
  writeWave u.format.channels 2 u.format.sampleRateHz u.pcm

/-! ### Reading -/

/-- What a WAV file is of. -/
structure WaveContents where
  channels : ℕ
  sampleWidth : ℕ
  frameRate : ℕ
  data : Bytes
deriving DecidableEq

/-- The format chunk of raw samples. -/
def readFormat (bs : Bytes) : Option (ℕ × ℕ × ℕ) :=
  let field (offset width : ℕ) : ℕ := ofLittleEndian ((bs.drop offset).take width)
  let channels := field 2 2
  let sampleWidth := field 14 2 / 8
  let frameRate := field 4 4
  if 16 ≤ bs.length ∧ field 0 2 = 1 ∧ field 12 2 = channels * sampleWidth ∧
      field 8 4 = frameRate * field 12 2 ∧ field 14 2 % 8 = 0
  then some (channels, sampleWidth, frameRate) else none

/-- A WAV file of raw samples, whatever other chunks it has. -/
def readWave (bs : Bytes) : Option WaveContents :=
  match Riff.read bs with
  | some (form, chunks) =>
    if form = ascii "WAVE" then do
      let format ← chunks.find? (·.identifier = ascii "fmt ")
      let data ← chunks.find? (·.identifier = ascii "data")
      let (channels, sampleWidth, frameRate) ← readFormat format.data
      return ⟨channels, sampleWidth, frameRate, data.data⟩
    else none
  | none => none

/-! ### What is written is read back -/

variable {channels sampleWidth frameRate n : ℕ} {data bs : Bytes}

theorem packUnsigned_of_lt {width : ℕ} (h : n < 256 ^ width) :
    packUnsigned width n = .ok (littleEndian width n) := by
  rw [packUnsigned, raiseIf_eq_ok.mpr (not_not.mpr h), ok_bind]
  rfl

theorem packUnsigned_of_le {width : ℕ} (h : 256 ^ width ≤ n) :
    packUnsigned width n = .error (outOfRange width n) := by
  rw [packUnsigned, raiseIf, if_pos (Nat.not_lt.mpr h)]
  rfl

/-- A format that fits the header. -/
structure FormatFits (channels sampleWidth frameRate : ℕ) : Prop where
  channels_lt : channels < 256 ^ 2
  frameRate_lt : frameRate < 256 ^ 4
  byteRate_lt : channels * frameRate * sampleWidth < 256 ^ 4
  blockAlign_lt : channels * sampleWidth < 256 ^ 2
  bits_lt : sampleWidth * 8 < 256 ^ 2

/-- The data of the format chunk. -/
def formatData (channels sampleWidth frameRate : ℕ) : Bytes :=
  littleEndian 2 1 ++ littleEndian 2 channels ++ littleEndian 4 frameRate ++
    littleEndian 4 (channels * frameRate * sampleWidth) ++
    littleEndian 2 (channels * sampleWidth) ++ littleEndian 2 (sampleWidth * 8)

theorem length_formatData : (formatData channels sampleWidth frameRate).length = 16 := by
  simp only [formatData, List.length_append, length_littleEndian]

/-- The header and the data are a file of two chunks. -/
theorem waveHeader_append (h : FormatFits channels sampleWidth frameRate)
    (hn : 36 + data.length < 256 ^ 4) (heven : data.length % 2 = 0) :
    ∃ header, waveHeader channels sampleWidth frameRate data.length = .ok header ∧
      header.length = 44 ∧ header ++ data = Riff.write (ascii "WAVE")
        [⟨ascii "fmt ", formatData channels sampleWidth frameRate⟩, ⟨ascii "data", data⟩] := by
  unfold waveHeader
  rw [packUnsigned_of_lt hn, packUnsigned_of_lt h.channels_lt, packUnsigned_of_lt h.frameRate_lt,
    packUnsigned_of_lt h.byteRate_lt, packUnsigned_of_lt h.blockAlign_lt,
    packUnsigned_of_lt h.bits_lt, packUnsigned_of_lt (show data.length < 256 ^ 4 by omega)]
  refine ⟨_, rfl, rfl, ?_⟩
  have hinner : (ascii "WAVE" ++ Riff.writeChunks
      [⟨ascii "fmt ", formatData channels sampleWidth frameRate⟩, ⟨ascii "data", data⟩]).length =
      36 + data.length := by
    simp only [Riff.writeChunks, Chunk.write, List.map_cons, List.map_nil, List.flatten_cons,
      List.flatten_nil, List.length_append, length_littleEndian, length_formatData,
      List.length_replicate, List.length_nil, heven]
    have hwave : (ascii "WAVE").length = 4 := rfl
    have hfmt : (ascii "fmt ").length = 4 := rfl
    have hdata : (ascii "data").length = 4 := rfl
    omega
  have hpad : (36 + data.length) % 2 = 0 := by omega
  rw [Riff.write, Chunk.write, hinner, hpad]
  simp only [Riff.writeChunks, Chunk.write, List.map_cons, List.map_nil, List.flatten_cons,
    List.flatten_nil, length_formatData, heven, List.replicate_zero, List.append_nil]
  simp only [formatData, List.append_assoc]
  rfl

/-- The format chunk is read back. -/
theorem readFormat_formatData (h : FormatFits channels sampleWidth frameRate) :
    readFormat (formatData channels sampleWidth frameRate) =
      some (channels, sampleWidth, frameRate) := by
  have htag : ((formatData channels sampleWidth frameRate).drop 0).take 2 = littleEndian 2 1 := rfl
  have hchannels : ((formatData channels sampleWidth frameRate).drop 2).take 2 =
    littleEndian 2 channels := rfl
  have hrate : ((formatData channels sampleWidth frameRate).drop 4).take 4 =
    littleEndian 4 frameRate := rfl
  have hbyteRate : ((formatData channels sampleWidth frameRate).drop 8).take 4 =
    littleEndian 4 (channels * frameRate * sampleWidth) := rfl
  have hblockAlign : ((formatData channels sampleWidth frameRate).drop 12).take 2 =
    littleEndian 2 (channels * sampleWidth) := rfl
  have hbits : ((formatData channels sampleWidth frameRate).drop 14).take 2 =
    littleEndian 2 (sampleWidth * 8) := rfl
  simp only [readFormat, htag, hchannels, hrate, hbyteRate, hblockAlign, hbits,
    ofLittleEndian_littleEndian, Nat.mod_eq_of_lt h.channels_lt, Nat.mod_eq_of_lt h.frameRate_lt,
    Nat.mod_eq_of_lt h.byteRate_lt, Nat.mod_eq_of_lt h.blockAlign_lt, Nat.mod_eq_of_lt h.bits_lt,
    Nat.mul_div_cancel sampleWidth (show 0 < 8 by decide)]
  rw [if_pos]
  refine ⟨by rw [length_formatData], ?_⟩
  simp only [true_and]
  exact ⟨by decide, by rw [Nat.mul_comm channels frameRate, Nat.mul_assoc], Nat.mul_mod_left _ _⟩

/-- **A file of raw samples is read back.** -/
theorem readWave_write (h : FormatFits channels sampleWidth frameRate)
    (hn : 36 + data.length < 256 ^ 4) (heven : data.length % 2 = 0) :
    readWave (Riff.write (ascii "WAVE")
      [⟨ascii "fmt ", formatData channels sampleWidth frameRate⟩, ⟨ascii "data", data⟩]) =
      some ⟨channels, sampleWidth, frameRate, data⟩ := by
  have hfits : ∀ c ∈ [(⟨ascii "fmt ", formatData channels sampleWidth frameRate⟩ : Chunk),
      ⟨ascii "data", data⟩], c.Fits := by
    intro c hc
    rcases List.mem_cons.mp hc with rfl | hc
    · exact ⟨rfl, by rw [length_formatData]; decide⟩
    · obtain rfl := List.mem_singleton.mp hc
      exact ⟨rfl, show data.length < 256 ^ 4 by omega⟩
  have hsize : 4 + (Riff.writeChunks [(⟨ascii "fmt ", formatData channels sampleWidth frameRate⟩ :
      Chunk), ⟨ascii "data", data⟩]).length < 256 ^ 4 := by
    simp only [Riff.writeChunks, Chunk.write, List.map_cons, List.map_nil, List.flatten_cons,
      List.flatten_nil, List.length_append, length_littleEndian, length_formatData,
      List.length_replicate, List.length_nil, heven]
    have hfmt : (ascii "fmt ").length = 4 := rfl
    have hdata : (ascii "data").length = 4 := rfl
    omega
  rw [readWave, Riff.read_write rfl hfits hsize]
  dsimp only
  rw [if_pos rfl]
  have hformat : [(⟨ascii "fmt ", formatData channels sampleWidth frameRate⟩ : Chunk),
      ⟨ascii "data", data⟩].find? (·.identifier = ascii "fmt ") =
      some ⟨ascii "fmt ", formatData channels sampleWidth frameRate⟩ := rfl
  have hdata : [(⟨ascii "fmt ", formatData channels sampleWidth frameRate⟩ : Chunk),
      ⟨ascii "data", data⟩].find? (·.identifier = ascii "data") = some ⟨ascii "data", data⟩ := rfl
  rw [hformat, hdata, Option.bind_eq_bind, Option.bind_some, Option.bind_eq_bind, Option.bind_some,
    readFormat_formatData h]
  rfl

/-! ### Utterances -/

/-- Every format of samples fits the header. -/
theorem PcmFormat.fits (f : PcmFormat) : FormatFits f.channels 2 f.sampleRateHz := by
  obtain ⟨hlow, hhigh⟩ := f.channels_mem
  obtain ⟨-, hrate⟩ := f.rate_mem
  refine ⟨by omega, by omega, ?_, by omega, by decide⟩
  calc f.channels * f.sampleRateHz * 2 ≤ 8 * 192000 * 2 :=
        Nat.mul_le_mul_right _ (Nat.mul_le_mul hhigh hrate)
    _ < 256 ^ 4 := by decide

/-- The frames that pass are of the format of the utterance. -/
theorem PcmUtteranceFields.format_of_checkFrames {u : PcmUtteranceFields}
    {previous : Option PcmFrame} {frames : List PcmFrame}
    (h : u.checkFrames previous frames = .ok ()) : ∀ f ∈ frames, f.format = u.format := by
  induction frames generalizing previous with
  | nil => exact fun f hf => by cases hf
  | cons frame rest ih =>
    have hthrow (e : String) (x : Unit → Except String Unit) :
        ((throw e : Except String Unit) >>= x) = .error e := rfl
    have hboth : frame.format = u.format ∧ u.checkFrames (some frame) rest = .ok () := by
      by_cases hs : frame.streamId = u.streamId
      · by_cases hf : frame.format = u.format
        · refine ⟨hf, ?_⟩
          cases previous with
          | none => simpa [checkFrames, hs, hf] using h
          | some p =>
            by_cases hseq : frame.sequence ≤ p.sequence
            · simp [checkFrames, hs, hf, hseq, hthrow] at h
            · by_cases hend : frame.capturedAtMonotonicNs < p.endMonotonicNs
              · simp [checkFrames, hs, hf, hseq, hend, hthrow] at h
              · simpa [checkFrames, hs, hf, hseq, hend] using h
        · simp [checkFrames, hs, hf, hthrow] at h
      · simp [checkFrames, hs, hthrow] at h
    intro f hf
    rcases List.mem_cons.mp hf with rfl | hf
    · exact hboth.1
    · exact ih hboth.2 f hf

theorem PcmUtterance.format_of_mem (u : PcmUtterance) : ∀ f ∈ u.frames, f.format = u.format := by
  have h := u.valid
  unfold PcmUtteranceFields.postInit at h
  split at h
  · obtain ⟨_, hframes, -⟩ := except_bind_eq_ok.mp h
    exact PcmUtteranceFields.format_of_checkFrames hframes
  · cases h

theorem PcmUtterance.length_pcm (u : PcmUtterance) : u.pcm.length = byteCount u.frames := by
  rw [pcm, List.length_flatten, List.map_map]
  rfl

/-- The frames of an utterance are whole. -/
theorem PcmUtterance.dvd_length_pcm (u : PcmUtterance) :
    u.format.channels * 2 ∣ u.pcm.length := by
  have hall : ∀ frames : List PcmFrame, (∀ f ∈ frames, f.format = u.format) →
      u.format.channels * 2 ∣ byteCount frames := by
    intro frames hframes
    induction frames with
    | nil => exact Nat.dvd_zero _
    | cons f frames ih =>
      rw [byteCount_cons]
      refine Nat.dvd_add ?_ (ih fun g hg => hframes g (List.mem_cons_of_mem _ hg))
      have hwhole := f.complete
      rw [hframes f (List.mem_cons_self ..)] at hwhole
      exact Nat.dvd_of_mod_eq_zero hwhole
  rw [u.length_pcm]
  exact hall u.frames u.format_of_mem

/-- Where there are whole sample frames, the first header is the right one. -/
theorem writeWave_of_dvd (h : channels * sampleWidth ∣ data.length) :
    writeWave channels sampleWidth frameRate data =
      (waveHeader channels sampleWidth frameRate data.length).map (· ++ data) := by
  have hlen : data.length / (channels * sampleWidth) * channels * sampleWidth = data.length := by
    rw [Nat.mul_assoc]
    exact Nat.div_mul_cancel h
  unfold writeWave
  rw [hlen]
  dsimp only
  cases waveHeader channels sampleWidth frameRate data.length with
  | ok header => exact if_pos rfl
  | error e => rfl

/-- **Uploads are read back.** An utterance is encoded if its length fits the header of a WAV file,
and what a reader makes of the file is the utterance's format and samples; otherwise an error is
raised. -/
theorem encodeWav_reads_back (u : PcmUtterance) :
    match encodeWav u with
    | .ok bytes => 36 + byteCount u.frames < 2 ^ 32 ∧ bytes.length = 44 + byteCount u.frames ∧
        readWave bytes = some ⟨u.format.channels, 2, u.format.sampleRateHz, u.pcm⟩
    | .error e => 2 ^ 32 ≤ 36 + byteCount u.frames ∧
        e = outOfRange 4 (36 + byteCount u.frames) := by
  have heven : u.pcm.length % 2 = 0 :=
    Nat.mod_eq_zero_of_dvd ((Nat.dvd_mul_left 2 u.format.channels).trans u.dvd_length_pcm)
  rw [encodeWav, writeWave_of_dvd u.dvd_length_pcm, ← u.length_pcm]
  by_cases hn : 36 + u.pcm.length < 256 ^ 4
  · obtain ⟨header, hheader, hlength, hfile⟩ := waveHeader_append u.format.fits hn heven
    rw [hheader]
    refine ⟨hn, ?_, ?_⟩
    · rw [List.length_append, hlength]
    · show readWave (header ++ u.pcm) = _
      rw [hfile]
      exact readWave_write u.format.fits hn heven
  · unfold waveHeader
    rw [packUnsigned_of_le (Nat.not_lt.mp hn)]
    exact ⟨Nat.not_lt.mp hn, rfl⟩

end Eeveetuber
