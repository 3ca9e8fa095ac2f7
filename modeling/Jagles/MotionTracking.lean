import Jagles.GuardedRuns
import Jagles.KeyedTable

set_option autoImplicit false
set_option linter.dupNamespace false

/-!
# Motion tracking (`GPUMotionTracking`)

`DetectTracking` finds the objects of a bitmap of 50 by 50 pixels, matches them with the
frames it tracks, and drops a frame that has gone without an object for too long. Each
tracked frame has a number of its own; `calls` collects the calls of `OnMotionTracking`.
Calling it while it is `NULL` gives `none`.
-/
namespace Jagles.MotionTracking
open KeyedTable GuardedRuns

/-- The white pixels, by column and row. -/
abbrev Bitmap := ℤ → ℤ → Bool

structure TrackingFrame where
  id : ℕ
  _l : ℤ
  _t : ℤ
  _r : ℤ
  _b : ℤ
  _area : ℤ
  _update : Bool
  _updatecount : ℤ
  _skipupdatecount : ℤ
  _index : ℤ
  deriving DecidableEq

namespace TrackingFrame

def create (id : ℕ) : TrackingFrame := ⟨id, 0, 0, 0, 0, 0, true, 0, 0, -1⟩

def contain (f : TrackingFrame) (x y : ℤ) : Bool :=
  decide (x ≥ f._l ∧ x ≤ f._r ∧ y ≥ f._t ∧ y ≤ f._b)

def intersect (f tf : TrackingFrame) : Bool :=
  f.contain tf._l tf._t || f.contain tf._l tf._b || f.contain tf._r tf._t || f.contain tf._r tf._b

def combine (f tf : TrackingFrame) : TrackingFrame :=
  { f with
    _l := min tf._l f._l
    _r := max tf._r f._r
    _t := min tf._t f._t
    _b := max tf._b f._b
    _update := true
    _updatecount := max tf._updatecount f._updatecount + 1
    _skipupdatecount := 0 }

def updatefrom (f tf : TrackingFrame) : TrackingFrame :=
  { f with
    _l := tf._l
    _t := tf._t
    _r := tf._r
    _b := tf._b
    _update := true
    _updatecount := f._updatecount + 1
    _skipupdatecount := 0
    _area := tf._area }

def resizeFrame (f : TrackingFrame) : TrackingFrame :=
  let cx := (f._l + f._r).tdiv 2
  let cy := (f._t + f._b).tdiv 2
  { f with
    _l := if cx - 5 > 0 then cx - 5 else 0
    _r := if cx + 5 > 49 then 49 else cx + 5
    _t := if cy - 5 > 0 then cy - 5 else 0
    _b := if cy + 5 > 49 then 49 else cy + 5 }

end TrackingFrame

/-- The values of `for (i = a; i < b; i++)`. -/
def loop (a b : ℤ) : List ℤ := (List.range (b - a).toNat).map fun k => a + k

section Objects
variable (mPixelsBuffer : Bitmap)

def getFrameArea (tf : TrackingFrame) : ℤ :=
  ((loop tf._l (tf._r + 1)).map fun x =>
    (((loop tf._t (tf._b + 1)).countP fun y => mPixelsBuffer x y : ℕ) : ℤ)).sum

/-- The area is counted anew. -/
def remeasure (tf : TrackingFrame) : TrackingFrame :=
  { tf with _area := getFrameArea mPixelsBuffer tf }

/-- The bounds of the white pixels in the ten columns around `x` and the ten rows from `y`. -/
def getFrame (x y : ℤ) : TrackingFrame :=
  let columns := loop (x - 5) (x + 5)
  let rows := loop y (if y + 10 > 50 then 50 else y + 10)
  let inColumn (i : ℤ) : Bool := rows.any fun j => mPixelsBuffer i j
  let inRow (i : ℤ) : Bool := columns.any fun j => mPixelsBuffer j i
  remeasure mPixelsBuffer { TrackingFrame.create 0 with
    _l := (columns.find? inColumn).getD (x - 5)
    _r := (columns.reverse.find? inColumn).getD (x + 4)
    _t := (rows.find? inRow).getD y
    _b := (rows.reverse.find? inRow).getD (if y + 10 > 49 then 49 else y + 10) }

def inFrame (x y : ℤ) (lst : List TrackingFrame) : Bool := lst.any fun f => f.contain x y

def intersectFrame (tf : TrackingFrame) (lst : List TrackingFrame) : Option ℕ :=
  lst.findIdx? fun f => f.intersect tf

def scan (lframelist : List TrackingFrame) (x y : ℤ) : List TrackingFrame :=
  if mPixelsBuffer x y && !inFrame x y lframelist then
    let tf := getFrame mPixelsBuffer x y
    match intersectFrame tf lframelist with
    | some lindex => lframelist.modify lindex fun f => remeasure mPixelsBuffer (f.combine tf)
    | none => lframelist ++ [tf]
  else lframelist

/-- `lframelist` after the loops over the bitmap. -/
def objects : List TrackingFrame :=
  (loop 0 50).foldl (fun lst y => (loop 5 45).foldl (fun lst x => scan mPixelsBuffer lst x y) lst) []

end Objects

/-- A call of `OnMotionTracking` for the frame `id`. -/
structure Call where
  id : ℕ
  l : ℤ
  t : ℤ
  r : ℤ
  b : ℤ
  index : ℤ
  scrnindex : ℤ
  del : Bool
  deriving DecidableEq

structure GPUMotionTracking where
  mObjectSize : ℤ
  mDropSecond : ℤ
  mTrackingFrame : List TrackingFrame
  created : ℕ
  calls : List Call

def GPUMotionTracking.create (mObjectSize mDropSecond : ℤ) : GPUMotionTracking :=
  ⟨mObjectSize, mDropSecond, [], 0, []⟩

/-- One bitmap with the screen it is for. The callback is `NULL` or answers the `n`-th call
that is made for the bitmap, depending on `del`. -/
structure Input where
  mPixelsBuffer : Bitmap
  scrnindex : ℤ
  OnMotionTracking : Option (Bool → ℕ → ℤ)

namespace GPUMotionTracking

def clearUpdates (s : GPUMotionTracking) : GPUMotionTracking :=
  { s with mTrackingFrame := s.mTrackingFrame.map fun f => { f with _update := false } }

/-- One object found in the bitmap, in the loop from the last to the first. -/
def matchObject (mPixelsBuffer : Bitmap) (s : GPUMotionTracking) (o : TrackingFrame) :
    GPUMotionTracking :=
  let o := o.resizeFrame
  if o._area ≥ s.mObjectSize then
    match intersectFrame o s.mTrackingFrame with
    | some lindex =>
      { s with mTrackingFrame := s.mTrackingFrame.modify lindex fun f =>
          remeasure mPixelsBuffer (f.updatefrom o) }
    | none =>
      { s with
        mTrackingFrame := s.mTrackingFrame ++
          [remeasure mPixelsBuffer ((TrackingFrame.create s.created).updatefrom o)]
        created := s.created + 1 }
  else s

end GPUMotionTracking

def call (f : TrackingFrame) (scrnindex : ℤ) (del : Bool) : Call :=
  ⟨f.id, f._l, f._t, f._r, f._b, f._index, scrnindex, del⟩

/-- One pass of the last loop: what is left of the frame and the call made, as the `n`-th
one for the bitmap. -/
def sweepFrame (mDropSecond : ℤ) (i : Input) (n : ℕ) (f : TrackingFrame) :
    Option (Option TrackingFrame × List Call) :=
  if f._update then
    match i.OnMotionTracking with
    | none => some (some f, [])
    | some answer =>
      let c := call f i.scrnindex false
      let f := { f with _index := answer false n }
      some (if f._index < 0 then none else some f, [c])
  else
    let f := { f with _skipupdatecount := f._skipupdatecount + 1 }
    if f._skipupdatecount > mDropSecond then
      match i.OnMotionTracking with
      | none => none
      | some _ => some (none, [call f i.scrnindex true])
    else some (some f, [])

/-- The last loop, from the last frame to the first. -/
def sweep (mDropSecond : ℤ) (i : Input) :
    List TrackingFrame → Option (List TrackingFrame × List Call)
  | [] => some ([], [])
  | f :: fs => do
    let (kept, calls) ← sweep mDropSecond i fs
    let (f, c) ← sweepFrame mDropSecond i calls.length f
    some (f.toList ++ kept, calls ++ c)

def detectTracking (s : GPUMotionTracking) (i : Input) : Option GPUMotionTracking := do
  let s := (objects i.mPixelsBuffer).reverse.foldl
    (GPUMotionTracking.matchObject i.mPixelsBuffer) s.clearUpdates
  let (kept, calls) ← sweep s.mDropSecond i s.mTrackingFrame
  some { s with mTrackingFrame := kept, calls := s.calls ++ calls }

/-- The frame that an object updates: the first one that contains a corner of it. -/
def updates (s : GPUMotionTracking) (o : TrackingFrame) : Option ℕ :=
  if o.resizeFrame._area ≥ s.mObjectSize then
    (s.mTrackingFrame.find? fun f => f.intersect o.resizeFrame).map TrackingFrame.id
  else none

/-- The frames that a list of objects updates, each object when its turn comes. -/
def updatedBy (mPixelsBuffer : Bitmap) : GPUMotionTracking → List TrackingFrame → List ℕ
  | _, [] => []
  | s, o :: os => (updates s o).toList ++ updatedBy mPixelsBuffer (s.matchObject mPixelsBuffer o) os

def updated (s : GPUMotionTracking) (i : Input) : List ℕ :=
  updatedBy i.mPixelsBuffer s.clearUpdates (objects i.mPixelsBuffer).reverse

/-- A callback that is set does not ask for an updated frame to be dropped. -/
def Keeps (i : Input) : Prop := ∀ answer, i.OnMotionTracking = some answer → ∀ n, 0 ≤ answer false n

def tracked (s : GPUMotionTracking) (id : ℕ) : Option TrackingFrame :=
  lookup TrackingFrame.id s.mTrackingFrame id

/-- The calls that report the removal of a frame. -/
def removals (s : GPUMotionTracking) (id : ℕ) : ℕ :=
  s.calls.countP fun c => decide (c.id = id ∧ c.del = true)

end Jagles.MotionTracking
