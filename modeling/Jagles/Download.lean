import Jagles.ByteMemory
import Jagles.GuardedRuns

set_option autoImplicit false
set_option linter.dupNamespace false

/-!
# File download (`ConnectManager::doDownloadThread`)

The device sends lists of files and frames of a file as one byte stream. The library's
callback puts the bytes into a pool, and the download thread takes whole messages out
of it. Both hold `mDownloadLock` while they work on the pool; the thread first looks
at the size of the pool without it.
-/
namespace Jagles.Download
open ByteMemory

def JA_DEV_FILE_TYPE_LIST : ℕ := 0
def JA_DEV_FILE_TYPE_VIDEO_MP4 : ℕ := 1
def JA_DEV_FILE_TYPE_VIDEO_MOV : ℕ := 2
def JA_DEV_FILE_TYPE_IMAGE_JPG : ℕ := 3
def JA_DEV_FILE_TYPE_IMAGE_PNG : ℕ := 4

def minLen : ℕ := 8

/-- `sizeof(ST_JAFILELISTITEM)`; the structures are packed. -/
def itemSize : ℕ := 284

def poolSize : ℕ := 1024 * 1024 * 2

def asInt (n : ℕ) : ℤ := ((n : ℤ) + 2 ^ 31) % 2 ^ 32 - 2 ^ 31

def ntohl (m : Memory) (a : ℕ) : ℕ := loadBE m a 4

inductive Report where
  | OnDownloadList (item_fp : List UInt8) (item_size : ℤ) (suffix : List UInt8) (item_type : ℤ)
      (flag : ℤ)
  | OnDownloading (flag fdsize pos end_ : ℤ)
  deriving DecidableEq

/-- Where the download thread is: before its look at the pool, before the lock, at the
condition of its loop, or at its end. -/
inductive Pc where
  | poll
  | locked
  | test
  | ended
  deriving DecidableEq

/-- `f` is what has been written to the file, if one is open. -/
structure ConnectManager where
  mDownloadDataPool : Memory
  mDownloadDataPoolSize : ℕ
  mIsDownloading : Bool
  f : Option (List UInt8)
  reports : List Report
  pc : Pc

def ConnectManager.start (f : Option (List UInt8)) : ConnectManager where
  mDownloadDataPool := fun _ => 0
  mDownloadDataPoolSize := 0
  mIsDownloading := true
  f := f
  reports := []
  pc := .poll

namespace ConnectManager

def doOnFileDownloadCallback (s : ConnectManager) (data : List UInt8) : ConnectManager :=
  if s.mIsDownloading then
    { s with
      mDownloadDataPool := storeBytes s.mDownloadDataPool s.mDownloadDataPoolSize data
      mDownloadDataPoolSize := s.mDownloadDataPoolSize + data.length }
  else s

def listItem (m : Memory) (a : ℕ) (flag : ℤ) : Report :=
  .OnDownloadList (loadBytes m (a + 28) 256) (asInt (ntohl m (a + 4))) (loadBytes m (a + 12) 16)
    (asInt (ntohl m a)) flag

/-- The case of a list. The count is a `size_t`. -/
def list (s : ConnectManager) (lDataSize : ℤ) : ConnectManager :=
  let n := (lDataSize % 2 ^ 32).toNat / itemSize
  { s with
    reports := s.reports ++ (List.range n).map fun i =>
      listItem s.mDownloadDataPool (minLen + itemSize * i) (if i < n - 1 then 0 else 1)
    mIsDownloading := false }

/-- The case of a frame. `short` is what the file takes of a frame that cannot be written;
`fwrite` does not count an item of size zero. Without an open file it has no result. -/
def frame (s : ConnectManager) (short : Option ℕ) : Option ConnectManager :=
  let ff := minLen
  let ffFileSize := ntohl s.mDownloadDataPool (ff + 4)
  let ffEnd := ntohl s.mDownloadDataPool (ff + 8)
  let flag := ntohl s.mDownloadDataPool (ff + 12)
  s.f.map fun written =>
    if ffFileSize ≠ 0 ∧ short = none then
      let written := written ++ loadBytes s.mDownloadDataPool (ff + 16) ffFileSize
      let report := Report.OnDownloading (asInt flag) (asInt ffFileSize) written.length (asInt ffEnd)
      { s with
        f := some written
        reports := s.reports ++ (if ffEnd = 1 then [report, report] else [report])
        mIsDownloading := decide (ffEnd ≠ 1) && s.mIsDownloading }
    else
      { s with
        f := some
          (written ++ loadBytes s.mDownloadDataPool (ff + 16) (min (short.getD 0) ffFileSize))
        mIsDownloading := false }

def message (s : ConnectManager) (lfileType : ℕ) (lDataSize : ℤ) (short : Option ℕ) :
    Option ConnectManager :=
  if lfileType = JA_DEV_FILE_TYPE_LIST then some (s.list lDataSize)
  else if lfileType = JA_DEV_FILE_TYPE_IMAGE_JPG ∨ lfileType = JA_DEV_FILE_TYPE_IMAGE_PNG ∨
      lfileType = JA_DEV_FILE_TYPE_VIDEO_MOV ∨ lfileType = JA_DEV_FILE_TYPE_VIDEO_MP4 then
    s.frame short
  else some s

def shift (s : ConnectManager) (mixLen : ℤ) : ConnectManager :=
  let moveSize := (s.mDownloadDataPoolSize - mixLen).toNat
  { s with
    mDownloadDataPool := storeBytes s.mDownloadDataPool 0
      (loadBytes s.mDownloadDataPool mixLen.toNat moveSize)
    mDownloadDataPoolSize := moveSize }

/-- What the thread does with the lock. -/
def locked (s : ConnectManager) (short : Option ℕ) : Option ConnectManager :=
  let lfileType := ntohl s.mDownloadDataPool 0
  let lDataSize := asInt (ntohl s.mDownloadDataPool 4)
  let mixLen := minLen + lDataSize
  if (s.mDownloadDataPoolSize : ℤ) < mixLen then some { s with pc := .test }
  else (s.message lfileType lDataSize short).map fun s => { s.shift mixLen with pc := .test }

/-- One step of the thread. After the loop the file is closed and the pool is empty. -/
def doDownloadThread (s : ConnectManager) (short : Option ℕ) : Option ConnectManager :=
  match s.pc with
  | .poll => some { s with pc := if s.mDownloadDataPoolSize < minLen then .test else .locked }
  | .locked => s.locked short
  | .test =>
    if s.mIsDownloading then some { s with pc := .poll }
    else some { s with pc := .ended, mDownloadDataPoolSize := 0 }
  | .ended => some s

end ConnectManager

inductive Act where
  | deliver (data : List UInt8)
  | thread (short : Option ℕ)
  deriving DecidableEq

def ConnectManager.step (s : ConnectManager) : Act → Option ConnectManager
  | .deliver data => some (s.doOnFileDownloadCallback data)
  | .thread short => s.doDownloadThread short

end Jagles.Download
