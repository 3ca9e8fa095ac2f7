import Jagles.ByteBuffers
import Jagles.GuardedRuns

set_option autoImplicit false
set_option linter.dupNamespace false

/-!
# Sound for the encoder in blocks (`HWMP4Encoder.writeAudioData`)

The sound of a recording comes in buffers of any size and goes to the encoder in blocks of
2048 bytes. A `put` that does not fit throws, which ends the call.
-/
namespace Jagles.AudioChunks
open ByteBuffers GuardedRuns

/-- The size of `mAudiobuffer`. -/
def blockSize : ℕ := 2048

/-- `encoderCore` tells whether there is one. `blocks` and `input` are what has gone to the
encoder and what has come in since the recording began, and `overflowed` records a `put` that
did not fit. -/
structure HWMP4Encoder where
  encoderCore : Bool
  mAudiobuffer : ByteBuffer UInt8 blockSize
  mAudioPosition : ℕ
  blocks : List (List UInt8)
  input : List UInt8
  overflowed : Bool

namespace HWMP4Encoder

def create : HWMP4Encoder := ⟨false, .allocate blockSize 0, 0, [], [], false⟩

/-- `StartRecord`, when the encoder can be created. -/
def startRecord (s : HWMP4Encoder) : HWMP4Encoder :=
  { s with encoderCore := true, blocks := [], input := [], overflowed := false }

/-- `mAudiobuffer.put(src)`, and what comes after it. -/
def putThen (src : List UInt8) (next : HWMP4Encoder → HWMP4Encoder) (s : HWMP4Encoder) :
    HWMP4Encoder :=
  match s.mAudiobuffer.put src with
  | some b => next { s with mAudiobuffer := b }
  | none => { s with overflowed := true }

/-- `mAudiobuffer.position(0)` -/
def restart (s : HWMP4Encoder) : HWMP4Encoder :=
  { s with mAudiobuffer := s.mAudiobuffer.restart }

/-- `sendAudioToEncoder(mAudiobuffer.array())` -/
def sendAudioToEncoder (s : HWMP4Encoder) : HWMP4Encoder :=
  { s with blocks := s.blocks ++ [s.mAudiobuffer.array] }

/-- The `len` bytes of a buffer from `off` on. -/
def slice (buffer : List UInt8) (off len : ℕ) : List UInt8 := (buffer.drop off).take len

/-- The loop over the blocks of a long buffer, of which `i` have been sent and `n` are left. -/
def sendBlocks (buffer : List UInt8) (next : HWMP4Encoder → HWMP4Encoder) :
    ℕ → ℕ → HWMP4Encoder → HWMP4Encoder
  | _, 0, s => next s
  | i, n + 1, s =>
    putThen (slice buffer (i * blockSize) blockSize)
      (fun s => sendBlocks buffer next (i + 1) n s.sendAudioToEncoder) s.restart

def writeAudioData (s : HWMP4Encoder) (buffer : List UInt8) : HWMP4Encoder :=
  if s.encoderCore then
    let s := { s with input := s.input ++ buffer }
    if buffer.length > blockSize then
      let count := buffer.length / blockSize
      sendBlocks buffer (fun s =>
        if buffer.length > count * blockSize then
          putThen (slice buffer ((count - 1) * blockSize) (buffer.length - (count - 1) * blockSize))
            (fun s => { s with mAudioPosition := buffer.length - (count - 1) * blockSize }) s
        else s) 0 count s
    else if buffer.length + s.mAudioPosition > blockSize then
      putThen (slice buffer 0 (blockSize - s.mAudioPosition)) (fun s =>
        putThen (slice buffer (blockSize - s.mAudioPosition)
            (buffer.length + s.mAudioPosition - blockSize))
          (fun s => { s with mAudioPosition := buffer.length + s.mAudioPosition - blockSize })
          s.sendAudioToEncoder.restart) s
    else
      putThen buffer (fun s => { s with mAudioPosition := s.mAudioPosition + buffer.length }) s
  else s

inductive Call
  | startRecord
  | writeAudioData (buffer : List UInt8)

def step (s : HWMP4Encoder) : Call → Option HWMP4Encoder
  | .startRecord => some s.startRecord
  | .writeAudioData buffer => some (s.writeAudioData buffer)

/-- The bytes still pending. -/
def pending (s : HWMP4Encoder) : List UInt8 := s.mAudiobuffer.array.take s.mAudioPosition

/-- No byte of the recording is lost or sent twice. -/
structure LosesNothing (s : HWMP4Encoder) : Prop where
  in_bounds : s.overflowed = false
  blocks : ∀ b ∈ s.blocks, b.length = blockSize
  kept : s.blocks.flatten ++ s.pending = s.input

/-- The condition on one call of a recording: a short buffer that is not empty finds the
position of `mAudiobuffer` behind what is pending, and a long buffer is of whole blocks and
finds nothing pending, or comes to the same bytes as if there were nothing. -/
def Keeps (s : HWMP4Encoder) : Call → Prop
  | .startRecord => s.mAudioPosition = 0
  | .writeAudioData buffer =>
    if buffer.length > blockSize then
      blockSize ∣ buffer.length ∧
        s.pending ++ buffer =
          buffer ++ (buffer.drop (buffer.length - blockSize)).take s.mAudioPosition
    else s.mAudiobuffer.position = s.mAudioPosition ∨ buffer = []

/-- Where the position of `mAudiobuffer` can be. -/
structure Positions (s : HWMP4Encoder) : Prop where
  pending_le : s.mAudioPosition ≤ blockSize
  position : s.mAudiobuffer.position = s.mAudioPosition ∨ s.mAudiobuffer.position = blockSize

/-! ## One `put` -/

section Puts
variable {s : HWMP4Encoder} {src : List UInt8} (next : HWMP4Encoder → HWMP4Encoder)

theorem putThen_fits (src : List UInt8) (h : s.mAudiobuffer.position + src.length ≤ blockSize) :
    ∃ c : ByteBuffer UInt8 blockSize, c.position = s.mAudiobuffer.position + src.length ∧
      c.written = s.mAudiobuffer.written ++ src ∧
      putThen src next s = next { s with mAudiobuffer := c } := by
  obtain ⟨c, hput, hposition, hwritten⟩ := ByteBuffer.exists_put h
  refine ⟨c, hposition, hwritten, ?_⟩
  simp only [putThen, hput]

theorem putThen_overflow (h : blockSize < s.mAudiobuffer.position + src.length) :
    putThen src next s = { s with overflowed := true } := by
  simp only [putThen, ByteBuffer.put_eq_none h]

end Puts

/-! ## The blocks of a long buffer -/

theorem length_slice {buffer : List UInt8} {off len : ℕ} (h : off + len ≤ buffer.length) :
    (slice buffer off len).length = len := by
  rw [slice, List.length_take, List.length_drop]
  omega

/-- The first `n` blocks of a buffer. -/
def chunks (buffer : List UInt8) (n : ℕ) : List (List UInt8) :=
  (List.range n).map fun i => slice buffer (i * blockSize) blockSize

theorem chunks_succ (buffer : List UInt8) (n : ℕ) :
    chunks buffer (n + 1) = chunks buffer n ++ [slice buffer (n * blockSize) blockSize] := by
  rw [chunks, List.range_succ, List.map_append]
  rfl

theorem flatten_chunks (buffer : List UInt8) (n : ℕ) :
    (chunks buffer n).flatten = buffer.take (n * blockSize) := by
  induction n with
  | zero => simp [chunks]
  | succ n ih =>
    rw [chunks_succ, List.flatten_append, ih, List.flatten_singleton, Nat.succ_mul, List.take_add,
      slice]

theorem length_of_mem_chunks {buffer : List UInt8} {n : ℕ} (h : n * blockSize ≤ buffer.length) :
    ∀ b ∈ chunks buffer n, b.length = blockSize := by
  intro b hb
  obtain ⟨i, hi, rfl⟩ := List.mem_map.mp hb
  have hle : (i + 1) * blockSize ≤ n * blockSize :=
    Nat.mul_le_mul_right _ (List.mem_range.mp hi)
  exact length_slice (by rw [← Nat.succ_mul]; exact hle.trans h)

/-- From block `i` on, when the blocks in front of it have been sent. -/
theorem sendBlocks_eq (buffer : List UInt8) (next : HWMP4Encoder → HWMP4Encoder) {i n : ℕ}
    (h : (i + n) * blockSize ≤ buffer.length) {s : HWMP4Encoder} (sent : List (List UInt8))
    (hsent : s.blocks = sent ++ chunks buffer i)
    (hlast : 0 < i → s.mAudiobuffer.position = blockSize ∧
      s.mAudiobuffer.array = slice buffer ((i - 1) * blockSize) blockSize) (hn : 0 < i + n) :
    ∃ c : ByteBuffer UInt8 blockSize, c.position = blockSize ∧
      c.array = slice buffer ((i + n - 1) * blockSize) blockSize ∧
      sendBlocks buffer next i n s =
        next { s with mAudiobuffer := c, blocks := sent ++ chunks buffer (i + n) } := by
  induction n generalizing i s with
  | zero =>
    obtain ⟨hposition, harray⟩ := hlast hn
    refine ⟨s.mAudiobuffer, hposition, harray, ?_⟩
    rw [sendBlocks, Nat.add_zero, ← hsent]
  | succ n ih =>
    have hblock : (i + 1) * blockSize ≤ buffer.length :=
      (Nat.mul_le_mul_right _ (by omega)).trans h
    have hlen : (slice buffer (i * blockSize) blockSize).length = blockSize :=
      length_slice (by rw [← Nat.succ_mul]; exact hblock)
    obtain ⟨c, hposition, hwritten, heq⟩ := putThen_fits (s := s.restart)
      (fun s => sendBlocks buffer next (i + 1) n s.sendAudioToEncoder)
      (slice buffer (i * blockSize) blockSize) (by
        rw [hlen, restart, ByteBuffer.restart_position, Nat.zero_add])
    have hfull : c.position = blockSize := by
      rw [hposition, hlen, restart, ByteBuffer.restart_position, Nat.zero_add]
    have harray : c.array = slice buffer (i * blockSize) blockSize := by
      rw [ByteBuffer.array_of_full hfull, hwritten]
      rfl
    have hcomm : i + 1 + n = i + (n + 1) := by omega
    obtain ⟨d, hd, hdarray, hrest⟩ := ih (i := i + 1)
      (s := sendAudioToEncoder { s.restart with mAudiobuffer := c }) (hcomm ▸ h)
      (by rw [chunks_succ, ← harray, ← List.append_assoc, ← hsent]; rfl)
      (fun _ => ⟨hfull, harray⟩) (by omega)
    rw [hcomm] at hdarray hrest
    refine ⟨d, hd, hdarray, ?_⟩
    rw [sendBlocks, heq, hrest]
    rfl

/-! ## One call -/

section Writes
variable {s : HWMP4Encoder} {buffer : List UInt8} (hcore : s.encoderCore = true)
include hcore

/-- A long buffer of whole blocks is sent; of any other a part is left that does not fit. -/
theorem write_long (hlong : blockSize < buffer.length) :
    ∃ c : ByteBuffer UInt8 blockSize, c.position = blockSize ∧
      c.array = slice buffer ((buffer.length / blockSize - 1) * blockSize) blockSize ∧
      s.writeAudioData buffer =
        { s with
          input := s.input ++ buffer
          mAudiobuffer := c
          blocks := s.blocks ++ chunks buffer (buffer.length / blockSize)
          overflowed := if blockSize ∣ buffer.length then s.overflowed else true } := by
  have hcount : 0 < buffer.length / blockSize := Nat.div_pos hlong.le (by decide)
  have hle : buffer.length / blockSize * blockSize ≤ buffer.length := Nat.div_mul_le_self ..
  obtain ⟨c, hposition, harray, heq⟩ := sendBlocks_eq buffer (fun s =>
    if buffer.length > buffer.length / blockSize * blockSize then
      putThen (slice buffer ((buffer.length / blockSize - 1) * blockSize)
          (buffer.length - (buffer.length / blockSize - 1) * blockSize))
        (fun s => { s with
          mAudioPosition := buffer.length - (buffer.length / blockSize - 1) * blockSize }) s
    else s) (i := 0) (n := buffer.length / blockSize) (by rwa [Nat.zero_add])
    (s := { s with input := s.input ++ buffer }) s.blocks (by simp [chunks])
    (fun h => absurd h (lt_irrefl 0)) (by omega)
  rw [Nat.zero_add] at harray heq
  refine ⟨c, hposition, harray, ?_⟩
  rw [writeAudioData, if_pos hcore]
  dsimp only
  rw [if_pos hlong, heq]
  by_cases hdvd : blockSize ∣ buffer.length
  · rw [if_neg (by rw [Nat.div_mul_cancel hdvd]; exact lt_irrefl _), if_pos hdvd]
  · have hrest : buffer.length / blockSize * blockSize < buffer.length :=
      lt_of_le_of_ne hle fun h => hdvd (Dvd.intro_left _ h)
    have hstart : (buffer.length / blockSize - 1) * blockSize < buffer.length :=
      (Nat.mul_le_mul_right _ (Nat.sub_le _ _)).trans_lt hrest
    rw [if_pos hrest, if_neg hdvd, putThen_overflow]
    rw [hposition, length_slice (by omega)]
    omega

/-- A short buffer that is split finds the position behind what is pending, or there is no
room. -/
theorem write_split (hp : s.Positions) (hshort : ¬ blockSize < buffer.length)
    (hsplit : blockSize < buffer.length + s.mAudioPosition) :
    if s.mAudiobuffer.position = s.mAudioPosition then
      ∃ c : ByteBuffer UInt8 blockSize,
        c.position = buffer.length + s.mAudioPosition - blockSize ∧
        c.written = buffer.drop (blockSize - s.mAudioPosition) ∧
        s.writeAudioData buffer =
          { s with
            input := s.input ++ buffer
            mAudiobuffer := c
            mAudioPosition := buffer.length + s.mAudioPosition - blockSize
            blocks := s.blocks ++ [s.pending ++ buffer.take (blockSize - s.mAudioPosition)] }
    else s.writeAudioData buffer =
      { s with input := s.input ++ buffer, overflowed := true } := by
  have hlen : (slice buffer 0 (blockSize - s.mAudioPosition)).length =
      blockSize - s.mAudioPosition := length_slice (by omega)
  have hle := hp.pending_le
  rw [writeAudioData, if_pos hcore]
  dsimp only
  rw [if_neg hshort, if_pos hsplit]
  split_ifs with hposition
  · obtain ⟨c, hc, hcwritten, hput⟩ := putThen_fits (s := { s with input := s.input ++ buffer })
      (fun s => putThen (slice buffer (blockSize - s.mAudioPosition)
            (buffer.length + s.mAudioPosition - blockSize))
          (fun s => { s with mAudioPosition := buffer.length + s.mAudioPosition - blockSize })
          s.sendAudioToEncoder.restart)
      (slice buffer 0 (blockSize - s.mAudioPosition)) (by rw [hlen, hposition]; omega)
    have hfull : c.position = blockSize := by
      rw [hc, hlen, hposition]
      omega
    have hlen' : (slice buffer (blockSize - s.mAudioPosition)
        (buffer.length + s.mAudioPosition - blockSize)).length =
        buffer.length + s.mAudioPosition - blockSize := length_slice (by omega)
    obtain ⟨d, hd, hdwritten, hput'⟩ := putThen_fits
      (s := (sendAudioToEncoder
        { s with mAudiobuffer := c, input := s.input ++ buffer }).restart)
      (fun s => { s with mAudioPosition := buffer.length + s.mAudioPosition - blockSize })
      (slice buffer (blockSize - s.mAudioPosition)
        (buffer.length + s.mAudioPosition - blockSize))
      (by rw [hlen', restart, ByteBuffer.restart_position]; omega)
    refine ⟨d, ?_, ?_, ?_⟩
    · rw [hd, hlen', restart, ByteBuffer.restart_position, Nat.zero_add]
    · rw [hdwritten, restart, ByteBuffer.restart_written, List.nil_append, slice,
        List.take_of_length_le]
      rw [List.length_drop]
      omega
    · have hblock : c.array = s.pending ++ buffer.take (blockSize - s.mAudioPosition) := by
        rw [ByteBuffer.array_of_full hfull, hcwritten, ByteBuffer.written, pending, hposition]
        rfl
      rw [hput]
      dsimp only
      rw [hput', ← hblock]
      rfl
  · have hend := hp.position.resolve_left hposition
    refine putThen_overflow _ ?_
    rw [hlen, hend]
    omega

/-- A short buffer that is kept finds the position behind what is pending, or is empty, or
there is no room. -/
theorem write_short (hp : s.Positions) (hshort : ¬ blockSize < buffer.length)
    (hkept : ¬ blockSize < buffer.length + s.mAudioPosition) :
    if s.mAudiobuffer.position = s.mAudioPosition ∨ buffer = [] then
      ∃ c : ByteBuffer UInt8 blockSize,
        c.position = s.mAudiobuffer.position + buffer.length ∧
        c.array.take (s.mAudioPosition + buffer.length) = s.pending ++ buffer ∧
        s.writeAudioData buffer =
          { s with
            input := s.input ++ buffer
            mAudiobuffer := c
            mAudioPosition := s.mAudioPosition + buffer.length }
    else s.writeAudioData buffer =
      { s with input := s.input ++ buffer, overflowed := true } := by
  rw [writeAudioData, if_pos hcore]
  dsimp only
  rw [if_neg hshort, if_neg hkept]
  split_ifs with hfits
  · have hroom : s.mAudiobuffer.position + buffer.length ≤ blockSize := by
      rcases hfits with h | rfl
      · omega
      · exact s.mAudiobuffer.position_le
    obtain ⟨c, hc, hcwritten, hput⟩ := putThen_fits (s := { s with input := s.input ++ buffer })
      (fun s => { s with mAudioPosition := s.mAudioPosition + buffer.length }) buffer hroom
    refine ⟨c, hc, ?_, hput⟩
    rcases hfits with h | rfl
    · rw [← h]
      rw [show s.mAudiobuffer.position + buffer.length = c.position from hc.symm]
      rw [pending, ← h]
      exact hcwritten
    · have hle : s.mAudioPosition ≤ s.mAudiobuffer.position := by
        rcases hp.position with h | h
        · exact h.ge
        · exact hp.pending_le.trans h.ge
      have htake := congrArg (List.take s.mAudioPosition) hcwritten
      rw [List.append_nil, ByteBuffer.written, ByteBuffer.written, List.take_take, List.take_take,
        hc, List.length_nil, Nat.add_zero, min_eq_left hle] at htake
      rw [List.append_nil, List.length_nil, Nat.add_zero]
      exact htake
  · rw [not_or] at hfits
    have hend := hp.position.resolve_left hfits.1
    have hpos := List.length_pos_of_ne_nil hfits.2
    exact putThen_overflow _ (by dsimp only; omega)

theorem write_positions (hp : s.Positions) : (s.writeAudioData buffer).Positions := by
  by_cases hlong : blockSize < buffer.length
  · obtain ⟨c, hc, -, heq⟩ := write_long hcore hlong
    rw [heq]
    exact ⟨hp.pending_le, .inr hc⟩
  · by_cases hsplit : blockSize < buffer.length + s.mAudioPosition
    · have h := write_split hcore hp hlong hsplit
      split_ifs at h
      · obtain ⟨c, hc, -, heq⟩ := h
        have hle := hp.pending_le
        rw [heq]
        exact ⟨by dsimp only; omega, .inl hc⟩
      · rw [h]
        exact ⟨hp.pending_le, hp.position⟩
    · have h := write_short hcore hp hlong hsplit
      split_ifs at h with hfits
      · obtain ⟨c, hc, -, heq⟩ := h
        rw [heq]
        refine ⟨by dsimp only; omega, ?_⟩
        rcases hfits with h | rfl
        · exact .inl (hc.trans (by rw [h]))
        · exact hp.position.imp hc.trans hc.trans
      · rw [h]
        exact ⟨hp.pending_le, hp.position⟩

/-- A long buffer must be of whole blocks, and must find nothing pending or come to the same
bytes. -/
theorem write_long_loses_iff (h : s.LosesNothing) (hlong : blockSize < buffer.length) :
    (s.writeAudioData buffer).LosesNothing ↔
      blockSize ∣ buffer.length ∧
        s.pending ++ buffer = buffer ++
          (buffer.drop (buffer.length - blockSize)).take s.mAudioPosition := by
  obtain ⟨c, -, harray, heq⟩ := write_long hcore hlong
  rw [heq]
  by_cases hdvd : blockSize ∣ buffer.length
  · have hcount : buffer.length / blockSize * blockSize = buffer.length :=
      Nat.div_mul_cancel hdvd
    have hlast : c.array = buffer.drop (buffer.length - blockSize) := by
      rw [harray, Nat.sub_mul, hcount, Nat.one_mul, slice, List.take_of_length_le]
      rw [List.length_drop]
      omega
    have hchunks : (chunks buffer (buffer.length / blockSize)).flatten = buffer := by
      rw [flatten_chunks, hcount, List.take_length]
    constructor
    · intro ht
      refine ⟨hdvd, ?_⟩
      have hkept := ht.kept
      rw [pending, List.flatten_append, hchunks, hlast, ← h.kept, List.append_assoc,
        List.append_assoc] at hkept
      exact (List.append_cancel_left hkept).symm
    · rintro ⟨-, hsame⟩
      refine ⟨by rw [if_pos hdvd]; exact h.in_bounds, fun b hb => ?_, ?_⟩
      · rcases List.mem_append.mp hb with hb | hb
        · exact h.blocks b hb
        · exact length_of_mem_chunks hcount.le b hb
      · rw [pending, List.flatten_append, hchunks, hlast, ← h.kept, List.append_assoc,
          List.append_assoc, hsame]
  · refine iff_of_false (fun ht => ?_) fun hk => hdvd hk.1
    have hover := ht.in_bounds
    rw [if_neg hdvd] at hover
    cases hover

/-- A short buffer that fills the block needs the position behind what is pending. -/
theorem write_split_loses_iff (hp : s.Positions) (h : s.LosesNothing)
    (hlong : ¬ blockSize < buffer.length)
    (hsplit : blockSize < buffer.length + s.mAudioPosition) :
    (s.writeAudioData buffer).LosesNothing ↔
      s.mAudiobuffer.position = s.mAudioPosition ∨ buffer = [] := by
  have hne : buffer ≠ [] := by
    rintro rfl
    exact hsplit.not_ge (by simpa using hp.pending_le)
  have hcases := write_split hcore hp hlong hsplit
  split_ifs at hcases with hposition
  · obtain ⟨c, hc, hcwritten, heq⟩ := hcases
    rw [heq]
    refine iff_of_true ⟨h.in_bounds, fun b hb => ?_, ?_⟩ (.inl hposition)
    · rcases List.mem_append.mp hb with hb | hb
      · exact h.blocks b hb
      · rw [List.mem_singleton.mp hb, List.length_append, pending, List.length_take,
          List.length_take, s.mAudiobuffer.length_array, min_eq_left hp.pending_le]
        have hle := hp.pending_le
        omega
    · have hpending : c.array.take (buffer.length + s.mAudioPosition - blockSize) =
          buffer.drop (blockSize - s.mAudioPosition) := by
        rw [← hc]
        exact hcwritten
      change (s.blocks ++ [s.pending ++ buffer.take (blockSize - s.mAudioPosition)]).flatten ++
        c.array.take (buffer.length + s.mAudioPosition - blockSize) = s.input ++ buffer
      rw [hpending, List.flatten_append, List.flatten_singleton, ← h.kept,
        List.append_assoc, List.append_assoc, List.append_assoc, List.take_append_drop]
  · rw [hcases]
    refine iff_of_false (fun ht => ?_) fun hk => hk.elim hposition hne
    cases ht.in_bounds

theorem write_short_loses_iff (hp : s.Positions) (h : s.LosesNothing)
    (hlong : ¬ blockSize < buffer.length)
    (hsplit : ¬ blockSize < buffer.length + s.mAudioPosition) :
    (s.writeAudioData buffer).LosesNothing ↔
      s.mAudiobuffer.position = s.mAudioPosition ∨ buffer = [] := by
  have hcases := write_short hcore hp hlong hsplit
  split_ifs at hcases with hfits
  · obtain ⟨c, -, hcpending, heq⟩ := hcases
    rw [heq]
    refine iff_of_true ⟨h.in_bounds, h.blocks, ?_⟩ hfits
    rw [pending, hcpending, ← h.kept, List.append_assoc]
  · rw [hcases]
    refine iff_of_false (fun ht => ?_) hfits
    cases ht.in_bounds

/-- A call loses nothing exactly when it meets the condition. -/
theorem writeAudioData_loses_iff (hp : s.Positions) (h : s.LosesNothing) :
    (s.writeAudioData buffer).LosesNothing ↔ s.Keeps (.writeAudioData buffer) := by
  by_cases hlong : blockSize < buffer.length
  · rw [Keeps, if_pos hlong]
    exact write_long_loses_iff hcore h hlong
  · rw [Keeps, if_neg hlong]
    by_cases hsplit : blockSize < buffer.length + s.mAudioPosition
    · exact write_split_loses_iff hcore hp h hlong hsplit
    · exact write_short_loses_iff hcore hp h hlong hsplit

end Writes

/-! ## A recording -/

theorem step_positions {s t : HWMP4Encoder} {c : Call} (hp : s.Positions)
    (h : s.step c = some t) : t.Positions := by
  cases c with
  | startRecord =>
    obtain rfl := Option.some.inj h
    exact ⟨hp.pending_le, hp.position⟩
  | writeAudioData buffer =>
    obtain rfl := Option.some.inj h
    by_cases hcore : s.encoderCore = true
    · exact write_positions hcore hp
    · rw [writeAudioData, if_neg hcore]
      exact hp

theorem run_positions {s : HWMP4Encoder} {cs : List Call}
    (h : Run step (fun _ _ => True) create cs s) : s.Positions :=
  h.invariant Positions (fun _ _ _ hp _ ht => step_positions hp ht)
    ⟨Nat.zero_le _, .inl rfl⟩

theorem step_encoderCore {s t : HWMP4Encoder} {c : Call} (hcore : s.encoderCore = true)
    (hp : s.Positions) (h : s.step c = some t) : t.encoderCore = true := by
  cases c with
  | startRecord =>
    obtain rfl := Option.some.inj h
    rfl
  | writeAudioData buffer =>
    obtain rfl := Option.some.inj h
    by_cases hlong : blockSize < buffer.length
    · obtain ⟨c, -, -, heq⟩ := write_long hcore hlong
      rw [heq]
      exact hcore
    · by_cases hsplit : blockSize < buffer.length + s.mAudioPosition
      · have h := write_split hcore hp hlong hsplit
        split_ifs at h
        · obtain ⟨c, -, -, heq⟩ := h
          rw [heq]
          exact hcore
        · rw [h]
          exact hcore
      · have h := write_short hcore hp hlong hsplit
        split_ifs at h
        · obtain ⟨c, -, -, heq⟩ := h
          rw [heq]
          exact hcore
        · rw [h]
          exact hcore

theorem startRecord_loses_iff {s : HWMP4Encoder} (hp : s.Positions) :
    s.startRecord.LosesNothing ↔ s.mAudioPosition = 0 := by
  constructor
  · intro h
    have hkept : s.mAudiobuffer.array.take s.mAudioPosition = [] := h.kept
    have hlen := congrArg List.length hkept
    rwa [List.length_take, s.mAudiobuffer.length_array, min_eq_left hp.pending_le] at hlen
  · intro h
    refine ⟨rfl, fun b hb => (nomatch hb), ?_⟩
    simp [startRecord, pending, h]

/-- The calls of one recording. -/
def writes (buffers : List (List UInt8)) : List Call := buffers.map .writeAudioData

/-- After any calls, the recording that begins loses nothing, before and after each of its
buffers, exactly when nothing is pending at its start and each call meets the condition. -/
theorem recording_loses_nothing_iff {s t : HWMP4Encoder} {earlier : List Call}
    {buffers : List (List UInt8)} (hs : Run step (fun _ _ => True) create earlier s)
    (h : Run step (fun _ _ => True) s.startRecord (writes buffers) t) :
    s.startRecord.LosesNothing ∧ Throughout step LosesNothing s.startRecord (writes buffers) t ↔
      s.mAudioPosition = 0 ∧ Run step Keeps s.startRecord (writes buffers) t := by
  have hp := run_positions hs
  rw [startRecord_loses_iff hp]
  refine and_congr_right fun hstart => ?_
  have hgood : s.startRecord.LosesNothing := (startRecord_loses_iff hp).mpr hstart
  refine Run.throughout_iff (I := fun u => u.Positions ∧ u.encoderCore = true) ?_ ?_ h
    ⟨⟨hp.pending_le, hp.position⟩, rfl⟩ hgood
  · rintro u c v ⟨hpos, hcore⟩ - hv
    exact ⟨step_positions hpos hv, step_encoderCore hcore hpos hv⟩
  · rintro u c v ⟨hpos, hcore⟩ hlossless - hv
    cases c with
    | startRecord =>
      obtain rfl := Option.some.inj hv
      exact startRecord_loses_iff hpos
    | writeAudioData buffer =>
      obtain rfl := Option.some.inj hv
      exact writeAudioData_loses_iff hcore hpos hlossless

/-- A buffer of more than one block that is not of whole blocks does not fit. -/
theorem writeAudioData_partial_block :
    ¬ (create.startRecord.writeAudioData (List.replicate 3000 0)).LosesNothing := by
  have hlen : (List.replicate 3000 (0 : UInt8)).length = 3000 := List.length_replicate
  have hp : create.startRecord.Positions := ⟨Nat.zero_le _, .inl rfl⟩
  rw [writeAudioData_loses_iff rfl hp ((startRecord_loses_iff hp).mpr rfl), Keeps, hlen,
    if_pos (by decide)]
  exact fun h => absurd h.1 (by decide)

/-- Two bytes, and a block that is completed by the second buffer. -/
theorem recording_loses_nothing_short :
    Throughout step LosesNothing create.startRecord (writes [[1, 2], List.replicate 2048 3])
      ((create.startRecord.writeAudioData [1, 2]).writeAudioData (List.replicate 2048 3)) := by
  have hs : Run step (fun _ _ => True) create [] create := .nil create
  have h : Run step (fun _ _ => True) create.startRecord (writes [[1, 2], List.replicate 2048 3])
      ((create.startRecord.writeAudioData [1, 2]).writeAudioData (List.replicate 2048 3)) :=
    .cons trivial rfl (.cons trivial rfl (.nil _))
  refine ((recording_loses_nothing_iff hs h).mpr ⟨rfl, .cons ?_ rfl (.cons ?_ rfl (.nil _))⟩).2
  · exact .inl rfl
  · rw [Keeps, if_neg (by rw [List.length_replicate]; decide)]
    exact .inl rfl

end HWMP4Encoder

end Jagles.AudioChunks
