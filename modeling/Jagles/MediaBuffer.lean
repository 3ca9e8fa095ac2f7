import Jagles.ByteMemory

set_option autoImplicit false
set_option linter.dupNamespace false

/-!
# The media ring buffer (`mediabuffer.c`)

The buffer is one byte array in which frames lie back to back, each behind a
48-byte header that links it to the frame before it and to the offset after it.
Offsets are taken relative to `_buf`; offsets at or above `bufsize` are memory
outside the allocation, and an `int` offset below zero appears here as its
unsigned value, at or above `2^31`. The build is 32-bit (`armeabi-v7a`), so
`size_t` sums are taken modulo `2^32` like every other `unsigned int`.
-/
namespace Jagles.MediaBuffer
open ByteMemory

def u32 (n : ℕ) : ℕ := n % 2 ^ 32

/-- One less, as an `unsigned int` counts down. -/
def pred32 (n : ℕ) : ℕ := u32 (n + 4294967295)

def i32 (z : ℤ) : ℤ := (z + 2 ^ 31) % 2 ^ 32 - 2 ^ 31

/-- `sizeof(_BUFHDR)`: four bytes of padding precede the 64-bit timestamp. -/
def hdrSize : ℕ := 48

def hdrFlag : ℕ := 0xffefface

def MB_FT_AUDIO : Int32 := 0
def MB_FT_IFRAME : Int32 := 1
def MB_FT_PFRAME : Int32 := 2

structure BufHdr where
  flag : ℕ
  buftype : ℕ
  buflen : ℕ
  timestamp : ℕ
  reallen : ℕ
  playtime : ℕ
  enc : List UInt8
  prevpos : ℕ
  nextpos : ℕ
  deriving DecidableEq

/-- The header that `(PBUFHDR)(p->_buf + a)` dereferences. -/
def hdrAt (m : Memory) (a : ℕ) : BufHdr where
  flag := loadLE m a 4
  buftype := loadLE m (a + 4) 4
  buflen := loadLE m (a + 8) 4
  timestamp := loadLE m (a + 16) 8
  reallen := loadLE m (a + 24) 4
  playtime := loadLE m (a + 28) 4
  enc := loadBytes m (a + 32) 8
  prevpos := loadLE m (a + 40) 4
  nextpos := loadLE m (a + 44) 4

/-- The arguments of one `WrtieBuffer` call. `pSize` is the length of `pBuf`,
and `enc` is `none` for a null `_enc`. -/
structure Frame where
  pBuf : List UInt8
  pType : Int32
  pTimestamp : UInt64
  pPlaytime : UInt32
  enc : Option (List UInt8)
  size_lt : pBuf.length < 2 ^ 32
  enc_nonzero : ∀ e ∈ enc, ∀ b ∈ e, b ≠ 0

def Frame.pSize (f : Frame) : ℕ := f.pBuf.length

/-- What one call reads from `clock_ms`, and the two float quotients it derives
from the counters. -/
structure Tick where
  start : ℕ
  now : ℕ
  last : ℕ
  fps : ℤ
  bitrate : ℤ

structure Ring where
  readpos : Fin 16 → ℕ
  writepos : ℕ
  lastwritepos : ℕ
  readcount : Fin 16 → ℕ
  writecount : ℕ
  readlock : Fin 16 → ℤ
  writelock : ℤ
  buf : Memory
  bufsize : ℕ
  overwriteread : Fin 16 → Bool
  isuse : Fin 16 → Bool
  fps : ℤ
  bitrate : ℤ
  lasttime : ℕ
  starttime : ℕ
  lastwritecount : ℤ
  bitwritecount : ℤ

def zeroed (buf : Memory) (bufsize : ℕ) (isuse : Fin 16 → Bool) : Ring where
  readpos := fun _ => 0
  writepos := 0
  lastwritepos := 0
  readcount := fun _ => 0
  writecount := 0
  readlock := fun _ => 0
  writelock := 0
  buf := buf
  bufsize := bufsize
  overwriteread := fun _ => false
  isuse := isuse
  fps := 0
  bitrate := 0
  lasttime := 0
  starttime := 0
  lastwritecount := 0
  bitwritecount := 0

/-- The byte array comes from `malloc` and holds whatever was there before. -/
def InitMediaBuffer (size : ℕ) (m : Memory) : Ring := zeroed m size fun _ => false

/-- The byte array is not cleared, and every overwrite flag is. -/
def ResetMediaBuffer (p : Ring) : Ring := zeroed p.buf p.bufsize p.isuse

def GetWriteCount (p : Ring) : ℕ := p.writecount

def GetReadCount (p : Ring) (index : Fin 16) : ℕ := p.readcount index

/-- The first free reader; it starts with its overwrite flag set. -/
def GetReadIndex (p : Ring) : Ring × Option (Fin 16) :=
  match (List.finRange 16).find? fun i => !p.isuse i with
  | some i =>
    ({ p with
        overwriteread := Function.update p.overwriteread i true
        isuse := Function.update p.isuse i true }, some i)
  | none => (p, none)

def ReleaseReader (p : Ring) (index : Fin 16) : Ring :=
  { p with isuse := Function.update p.isuse index false }

def unlockRead (p : Ring) (index : Fin 16) : Ring :=
  { p with readlock := Function.update p.readlock index 0 }

/-- What a successful `ReadBuffer` stores through its pointers; `buf` is the
offset of the first payload byte. -/
structure ReadOut where
  buf : ℕ
  pReadsize : ℕ
  pType : Int32
  pTimestamp : ℕ
  pPlaytime : ℕ
  enc : List UInt8
  deriving DecidableEq

inductive ReadResult where
  | success (out : ReadOut)
  | noBuffer
  | tooSmall
  deriving DecidableEq

inductive Search where
  | found (pos count : ℕ)
  | missing (count : ℕ)
  deriving DecidableEq

/-- The inner loop of `ReadBuffer`, from offset `pos` back along `_prevpos`;
`count` is the value of `_readcount`. It gives `none` when it runs out of fuel. -/
def keySearch (m : Memory) : ℕ → ℕ → ℕ → Option Search
  | 0, _, _ => none
  | fuel + 1, pos, count =>
    if 2 ^ 31 ≤ pos then some (.missing count)
    else
      let lhdr := hdrAt m pos
      if lhdr.buftype = MB_FT_IFRAME.toUInt32.toNat ∧ lhdr.flag = hdrFlag then
        some (.found pos count)
      else if pos = 0 ∧ lhdr.prevpos = 0 then some (.missing count)
      else keySearch m fuel lhdr.prevpos (pred32 count)

/-- A header without the flag sends the reader to offset zero. -/
def landing (m : Memory) (pos : ℕ) : ℕ := if (hdrAt m pos).flag ≠ hdrFlag then 0 else pos

def deliver (p : Ring) (index : Fin 16) (pos pReadsize : ℕ) : Ring × ReadResult :=
  let lreadpos := landing p.buf pos
  let lhdr := hdrAt p.buf lreadpos
  if pReadsize < lhdr.buflen then (p, .tooSmall)
  else
    ({ p with
        readcount := Function.update p.readcount index (u32 (p.readcount index + 1))
        readpos := Function.update p.readpos index lhdr.nextpos },
      .success
        { buf := lreadpos + hdrSize
          pReadsize := lhdr.reallen
          pType := (UInt32.ofNat lhdr.buftype).toInt32
          pTimestamp := lhdr.timestamp
          pPlaytime := lhdr.playtime
          enc := lhdr.enc.takeWhile (· ≠ 0) })

def searchStart (p : Ring) : ℕ := if 2 ^ 31 ≤ p.lastwritepos then 0 else p.lastwritepos

/-- The part of `ReadBuffer` between the lock and the unlock. It does not look at
the write position again. -/
def readLocked (fuel : ℕ) (p : Ring) (index : Fin 16) (pReadsize : ℕ) :
    Option (Ring × ReadResult) :=
  let p := { p with readlock := Function.update p.readlock index (p.readlock index + 1) }
  if p.overwriteread index then
    match keySearch p.buf fuel (searchStart p) (pred32 p.writecount) with
    | none => none
    | some (.missing count) =>
      some ({ p with readcount := Function.update p.readcount index count }, .noBuffer)
    | some (.found pos count) =>
      some (deliver
        { p with
          readcount := Function.update p.readcount index count
          overwriteread := Function.update p.overwriteread index false }
        index pos pReadsize)
  else some (deliver p index (p.readpos index) pReadsize)

/-- `ReadBuffer` for a valid handle and an index in `0..15`. -/
def ReadBuffer (fuel : ℕ) (p : Ring) (index : Fin 16) (pReadsize : ℕ) :
    Option (Ring × ReadResult) :=
  if p.readpos index = p.writepos then some (p, .noBuffer)
  else readLocked fuel p index pReadsize

/-- The test `WrtieBuffer` makes for each reader before it decides to wrap. -/
def overwrites (p : Ring) (n : ℕ) (i : Fin 16) : Bool :=
  p.writepos < p.readpos i && p.readpos i < u32 (p.writepos + hdrSize + n)

def wraps (p : Ring) (n : ℕ) : Bool :=
  p.bufsize < u32 (p.writepos + hdrSize) || p.bufsize < u32 (p.writepos + hdrSize + n)

def place (p : Ring) (n : ℕ) : ℕ := if wraps p n then 0 else p.writepos

def padded (n : ℕ) : ℕ := if n % 4 ≠ 0 then u32 ((n / 4 + 1) * 4) else n

/-- The eight bytes that `memset` and `strncpy(.., 5)` leave in `_enc`. -/
def encField (enc : Option (List UInt8)) : List UInt8 :=
  let e := (enc.getD []).take 5
  e ++ List.replicate (8 - e.length) 0

/-- Every store `WrtieBuffer` makes into the byte array, in its order. -/
def storeFrame (m : Memory) (a prevpos : ℕ) (f : Frame) : Memory :=
  let m := storeLE m a 4 hdrFlag
  let m := storeLE m (a + 4) 4 f.pType.toUInt32.toNat
  let m := storeLE m (a + 16) 8 f.pTimestamp.toNat
  let m := storeLE m (a + 28) 4 f.pPlaytime.toNat
  let m := storeLE m (a + 40) 4 prevpos
  let m := storeBytes m (a + 32) (encField f.enc)
  let m := storeBytes m (a + hdrSize) f.pBuf
  let m := storeLE m (a + 24) 4 f.pSize
  let m := storeLE m (a + 8) 4 (padded f.pSize)
  storeLE m (a + 44) 4 (u32 (a + hdrSize + padded f.pSize))

/-- The frame rate and bit rate, updated after the mutex is given back. -/
def meter (p : Ring) (t : Tick) : Ring :=
  if p.lasttime = 0 then { p with lasttime := t.now, lastwritecount := i32 p.writecount }
  else if 1000 < u32 (t.now + 2 ^ 64 - p.starttime) then
    { p with
      lasttime := t.last
      fps := t.fps
      lastwritecount := i32 p.writecount
      bitrate := t.bitrate }
  else p

/-- The part of `WrtieBuffer` between the lock and the unlock. -/
def storeLocked (p : Ring) (f : Frame) (t : Tick) : Ring :=
  let a := place p f.pSize
  { p with
    starttime := if p.starttime = 0 then t.start else p.starttime
    overwriteread := fun i => if overwrites p f.pSize i then true else p.overwriteread i
    buf := storeFrame p.buf a p.lastwritepos f
    lastwritepos := a
    writecount := u32 (p.writecount + 1)
    bitwritecount := i32 (p.bitwritecount + padded f.pSize)
    writepos := u32 (a + hdrSize + padded f.pSize)
    writelock := 0 }

def WrtieBuffer (p : Ring) (f : Frame) (t : Tick) : Ring := meter (storeLocked p f t) t

end Jagles.MediaBuffer
