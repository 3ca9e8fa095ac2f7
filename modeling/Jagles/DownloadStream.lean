import Jagles.Download

set_option autoImplicit false
set_option linter.dupNamespace false

/-!
# The stream of a download

What the device sends, as messages and as bytes, and what the thread finds of a message
in the pool.
-/
namespace Jagles.Download
open ByteMemory GuardedRuns

def be32 (v : UInt32) : List UInt8 := bytesBE 4 v.toNat

/-- `ST_JAFILELISTITEM`. -/
structure Item where
  file_type : UInt32
  file_size : UInt32
  opera_flag : UInt32
  suffix : { l : List UInt8 // l.length = 16 }
  fp : { l : List UInt8 // l.length = 256 }
  deriving DecidableEq

def Item.bytes (i : Item) : List UInt8 :=
  be32 i.file_type ++ be32 i.file_size ++ be32 i.opera_flag ++ i.suffix.1 ++ i.fp.1

inductive FrameType where
  | JA_DEV_FILE_TYPE_VIDEO_MP4
  | JA_DEV_FILE_TYPE_VIDEO_MOV
  | JA_DEV_FILE_TYPE_IMAGE_JPG
  | JA_DEV_FILE_TYPE_IMAGE_PNG
  deriving DecidableEq

def FrameType.number : FrameType → ℕ
  | .JA_DEV_FILE_TYPE_VIDEO_MP4 => Download.JA_DEV_FILE_TYPE_VIDEO_MP4
  | .JA_DEV_FILE_TYPE_VIDEO_MOV => Download.JA_DEV_FILE_TYPE_VIDEO_MOV
  | .JA_DEV_FILE_TYPE_IMAGE_JPG => Download.JA_DEV_FILE_TYPE_IMAGE_JPG
  | .JA_DEV_FILE_TYPE_IMAGE_PNG => Download.JA_DEV_FILE_TYPE_IMAGE_PNG

/-- `ST_JAFILEFRAME` with its data. -/
structure Frame where
  file_type : FrameType
  frame_type : UInt32
  end_ : UInt32
  opera_flag : UInt32
  payload : List UInt8
  deriving DecidableEq

def Frame.bytes (f : Frame) : List UInt8 :=
  be32 f.frame_type ++ bytesBE 4 f.payload.length ++ be32 f.end_ ++ be32 f.opera_flag ++ f.payload

inductive Message where
  | list (items : List Item)
  | frame (f : Frame)
  deriving DecidableEq

namespace Message

def file_type : Message → ℕ
  | .list _ => JA_DEV_FILE_TYPE_LIST
  | .frame f => f.file_type.number

def body : Message → List UInt8
  | .list items => items.flatMap Item.bytes
  | .frame f => f.bytes

def bytes (m : Message) : List UInt8 :=
  bytesBE 4 m.file_type ++ bytesBE 4 m.body.length ++ m.body

def terminates : Message → Bool
  | .list _ => true
  | .frame f => decide (f.end_ = 1)

def payload : Message → List UInt8
  | .list _ => []
  | .frame f => f.payload

end Message

def stream (ms : List Message) : List UInt8 := ms.flatMap Message.bytes

/-- The messages up to the first one that ends the download. -/
def upToFirst : List Message → List Message
  | [] => []
  | m :: ms => if m.terminates then [m] else m :: upToFirst ms

def payloads (ms : List Message) : List UInt8 := ms.flatMap Message.payload

def Item.report (i : Item) (last : Bool) : Report :=
  .OnDownloadList i.fp.1 (asInt i.file_size.toNat) i.suffix.1 (asInt i.file_type.toNat)
    (if last then 1 else 0)

def itemReports (items : List Item) : List Report :=
  items.mapIdx fun k i => i.report (decide (k + 1 = items.length))

def Frame.report (f : Frame) (pos : ℕ) : Report :=
  .OnDownloading (asInt f.opera_flag.toNat) (asInt f.payload.length) pos (asInt f.end_.toNat)

/-- A frame is reported with the bytes written so far; the last one is reported as
progress and as success. -/
def Message.reports (pos : ℕ) : Message → List Report
  | .list items => itemReports items
  | .frame f => if f.end_ = 1 then [f.report pos, f.report pos] else [f.report pos]

def reports : ℕ → List Message → List Report
  | _, [] => []
  | pos, m :: ms =>
    m.reports (pos + m.payload.length) ++ reports (pos + m.payload.length) ms

theorem FrameType.number_cases (t : FrameType) :
    t.number = Download.JA_DEV_FILE_TYPE_IMAGE_JPG ∨
      t.number = Download.JA_DEV_FILE_TYPE_IMAGE_PNG ∨
      t.number = Download.JA_DEV_FILE_TYPE_VIDEO_MOV ∨
      t.number = Download.JA_DEV_FILE_TYPE_VIDEO_MP4 := by
  cases t <;> decide

theorem Message.file_type_le (m : Message) : m.file_type ≤ 4 := by
  cases m with
  | list items => exact Nat.zero_le 4
  | frame f =>
    rw [Message.file_type]
    cases f.file_type <;> decide

section Lengths

@[simp] theorem be32_length (v : UInt32) : (be32 v).length = 4 := bytesBE_length 4 v.toNat

theorem Item.bytes_length (i : Item) : i.bytes.length = itemSize := by
  simp [Item.bytes, i.suffix.2, i.fp.2, itemSize]

theorem items_length (items : List Item) :
    (items.flatMap Item.bytes).length = itemSize * items.length := by
  induction items with
  | nil => rfl
  | cons i items ih =>
    rw [List.flatMap_cons, List.length_append, ih, i.bytes_length, List.length_cons,
      Nat.mul_succ, Nat.add_comm]

theorem Message.bytes_length (m : Message) : m.bytes.length = minLen + m.body.length := by
  simp only [Message.bytes, List.length_append, bytesBE_length, minLen]

end Lengths

section Lists

theorem stream_append (ms ms' : List Message) : stream (ms ++ ms') = stream ms ++ stream ms' :=
  List.flatMap_append

theorem payloads_append (ms ms' : List Message) :
    payloads (ms ++ ms') = payloads ms ++ payloads ms' := List.flatMap_append

theorem reports_append (pos : ℕ) (ms ms' : List Message) :
    reports pos (ms ++ ms') = reports pos ms ++ reports (pos + (payloads ms).length) ms' := by
  induction ms generalizing pos with
  | nil => simp [reports, payloads]
  | cons m ms ih =>
    simp only [List.cons_append, reports, ih, List.append_assoc]
    simp [payloads, Nat.add_assoc]

theorem upToFirst_append {done rest : List Message} (h : ∀ m ∈ done, m.terminates = false) :
    upToFirst (done ++ rest) = done ++ upToFirst rest := by
  induction done with
  | nil => rfl
  | cons m done ih =>
    have hm := h m List.mem_cons_self
    rw [List.cons_append, upToFirst, hm]
    simp [ih fun x hx => h x (List.mem_cons_of_mem _ hx)]

end Lists

section Loads
variable {m : Memory} {n a : ℕ}

theorem asInt_small {n : ℕ} (h : n < 2 ^ 31) : asInt n = n := by
  unfold asInt
  omega

theorem ntohl_eq {v : ℕ} (h : loadBytes m a 4 = bytesBE 4 v) (hv : v < 2 ^ 32) : ntohl m a = v :=
  loadBE_of_loadBytes (by omega) h

theorem ntohl_be32 {v : UInt32} (h : loadBytes m a 4 = be32 v) : ntohl m a = v.toNat :=
  ntohl_eq h v.toNat_lt

theorem listItem_at {i : Item} (h : loadBytes m a itemSize = i.bytes) (last : Bool) :
    ConnectManager.listItem m a (if last then 1 else 0) = i.report last := by
  have hparts : loadBytes m a (4 + 4 + 4 + 16 + 256) = be32 i.file_type ++ be32 i.file_size ++
      be32 i.opera_flag ++ i.suffix.1 ++ i.fp.1 := h
  simp only [loadBytes_add] at hparts
  obtain ⟨hparts, hfp⟩ := List.append_inj hparts (by simp [i.suffix.2])
  obtain ⟨hparts, hsuffix⟩ := List.append_inj hparts (by simp)
  obtain ⟨hparts, -⟩ := List.append_inj hparts (by simp)
  obtain ⟨htype, hsize⟩ := List.append_inj hparts (by simp)
  have hfp' : loadBytes m (a + 28) 256 = i.fp.1 := hfp
  have hsuffix' : loadBytes m (a + 12) 16 = i.suffix.1 := hsuffix
  rw [ConnectManager.listItem, ntohl_be32 htype, ntohl_be32 hsize, hsuffix', hfp']
  rfl

theorem frame_at {f : Frame} (h : loadBytes m a (16 + f.payload.length) = f.bytes)
    (hlen : f.payload.length < 2 ^ 32) :
    ntohl m (a + 4) = f.payload.length ∧ ntohl m (a + 8) = f.end_.toNat ∧
      ntohl m (a + 12) = f.opera_flag.toNat ∧
      loadBytes m (a + 16) f.payload.length = f.payload := by
  have hparts : loadBytes m a (4 + 4 + 4 + 4 + f.payload.length) = be32 f.frame_type ++
      bytesBE 4 f.payload.length ++ be32 f.end_ ++ be32 f.opera_flag ++ f.payload := h
  simp only [loadBytes_add] at hparts
  obtain ⟨hparts, hpayload⟩ := List.append_inj hparts (by simp)
  obtain ⟨hparts, hflag⟩ := List.append_inj hparts (by simp)
  obtain ⟨hparts, hend⟩ := List.append_inj hparts (by simp)
  obtain ⟨-, hsize⟩ := List.append_inj hparts (by simp)
  exact ⟨ntohl_eq hsize hlen, ntohl_be32 hend, ntohl_be32 hflag, hpayload⟩

/-- The header of a message of which the pool holds a part. -/
theorem header_at {msg : Message} {more rest : List UInt8}
    (h : loadBytes m 0 n ++ more = msg.bytes ++ rest) (hn : minLen ≤ n)
    (hlen : msg.body.length < 2 ^ 31) :
    ntohl m 0 = msg.file_type ∧ asInt (ntohl m 4) = msg.body.length := by
  obtain ⟨k, rfl⟩ := Nat.exists_eq_add_of_le hn
  have hhead : loadBytes m 0 (4 + 4) =
      bytesBE 4 msg.file_type ++ bytesBE 4 msg.body.length := by
    rw [loadBytes_add, Message.bytes, List.append_assoc, List.append_assoc] at h
    exact List.append_inj_left h (by simp)
  rw [loadBytes_add] at hhead
  obtain ⟨htype, hsize⟩ := List.append_inj hhead (by simp)
  constructor
  · exact ntohl_eq htype (lt_of_le_of_lt msg.file_type_le (by omega))
  · rw [ntohl_eq hsize (by omega)]
    exact asInt_small hlen

theorem body_at {msg : Message} {more : List UInt8} (h : loadBytes m 0 n = msg.bytes ++ more) :
    loadBytes m minLen msg.body.length = msg.body := by
  have hmid : loadBytes m 0 n =
      (bytesBE 4 msg.file_type ++ bytesBE 4 msg.body.length) ++ msg.body ++ more := h
  have hload := loadBytes_mid hmid
  simpa [minLen] using hload

end Loads

end Jagles.Download
