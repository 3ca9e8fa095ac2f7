import Jagles.DistortionTables
import Jagles.GuardedRuns

set_option autoImplicit false
set_option linter.dupNamespace false

/-!
# The meshes of distortion tables (`SphereStitch2`)

A surface keeps an entry for each table it was given, with the buffers of its mesh once
that has been drawn. The surface's own two buffers are those of the entry drawn last, and
`SetupBuffer` deletes them when it makes the mesh of another one.
-/
namespace Jagles.DistortionCache
open DistortionTables GuardedRuns

/-- The tables by their pointers, and the points of a mesh at an angle around the axis. -/
structure Geometry (F V C : Type) where
  table : ℕ → ℕ → DistortionNum F
  Evaluate : ℕ → F → V
  EvaluateCoord : ℕ → F → F → C

inductive Data (V C : Type) where
  | vertices (points : List V)
  | texture (points : List C)

/-- `DISTORTIONLIST`. -/
structure Entry (F : Type) where
  mdistortion : ℕ
  mdistortion_count : ℕ
  mdistortion_half_height : F
  vertexBuffer : ℕ
  TextureCoordBuffer : ℕ
  triangleIndexCount : ℕ

/-- What one call of `glDrawArrays` had: the table and the count of the entry, the contents of
the two buffers, and the number of vertices. -/
structure Drawn (V C : Type) where
  mdistortion : ℕ
  mdistortion_count : ℕ
  vertexData : Option (Data V C)
  textureData : Option (Data V C)
  triangleIndexCount : ℕ

/-- `buffers` are the buffer objects that exist, and `drawn` collects the draws. -/
structure SphereStitch2 (F V C : Type) where
  mdistortion : ℕ
  mdistortion_count : ℕ
  mdistortion_half_height : F
  vertexBuffer : ℕ
  TextureCoordBuffer : ℕ
  triangleIndexCount : ℕ
  mDistList : List (Entry F)
  buffers : ℕ → Option (Data V C)
  drawn : List (Drawn V C)

/-- A call, `DrawSelf` with the names that `glGenBuffers` gives when it is asked for them. -/
inductive Act (F : Type) where
  | SetDistortion (pdist dist_count : ℕ) (half : F)
  | DrawSelf (lvb CoordBuffer : ℕ)

section code

variable {F V C : Type} (G : Geometry F V C)

/-- The constructor does not set the table; there are no entries yet. -/
def start (mdistortion : ℕ) (half : F) (buffers : ℕ → Option (Data V C)) :
    SphereStitch2 F V C where
  mdistortion := mdistortion
  mdistortion_count := 0
  mdistortion_half_height := half
  vertexBuffer := 0
  TextureCoordBuffer := 0
  triangleIndexCount := 0
  mDistList := []
  buffers := buffers
  drawn := []

/-- The two triangles between two rings, for `i` from 3 to 360 in steps of 3. -/
def strip {α : Type} (point : ℕ → ℕ → α) (i j : ℕ) : List α :=
  [point i j, point (i - 3) j, point i (j - 1), point i (j - 1), point (i - 3) j,
    point (i - 3) (j - 1)]

def GenerateVertices {α : Type} (point : ℕ → ℕ → α) (mdistortion_count : ℕ) : List α :=
  (List.range' 1 (mdistortion_count - 1)).flatMap fun j =>
    (List.range' 3 120 3).flatMap fun i => strip point i j

def vertices (mdistortion mdistortion_count : ℕ) : Data V C :=
  .vertices (GenerateVertices (fun i j => G.Evaluate i (G.table mdistortion j).angle)
    mdistortion_count)

def texture (mdistortion mdistortion_count : ℕ) (half : F) : Data V C :=
  .texture (GenerateVertices
    (fun i j => G.EvaluateCoord i (G.table mdistortion j).half_height half) mdistortion_count)

def glDeleteBuffers (buffers : ℕ → Option (Data V C)) (name : ℕ) : ℕ → Option (Data V C) :=
  if name ≠ 0 then Function.update buffers name none else buffers

variable (s : SphereStitch2 F V C)

def GetCurrentDistortion (dist : ℕ) : Option ℕ :=
  s.mDistList.findIdx? fun e => decide (e.mdistortion = dist)

def SetupBuffer (lvb CoordBuffer : ℕ) : SphereStitch2 F V C :=
  let buffers := Function.update s.buffers lvb
    (some (vertices G s.mdistortion s.mdistortion_count))
  let buffers := Function.update buffers CoordBuffer
    (some (texture G s.mdistortion s.mdistortion_count s.mdistortion_half_height))
  { s with
    buffers := glDeleteBuffers (glDeleteBuffers buffers s.vertexBuffer) s.TextureCoordBuffer
    vertexBuffer := lvb
    TextureCoordBuffer := CoordBuffer
    triangleIndexCount := (s.mdistortion_count - 1) * 6 * 120 }

/-- `BaseScreen::DrawSelf` draws from the surface's own buffers. -/
def draw (e : Entry F) : SphereStitch2 F V C :=
  { s with
    drawn := s.drawn ++ [{
      mdistortion := s.mdistortion
      mdistortion_count := e.mdistortion_count
      vertexData := s.buffers s.vertexBuffer
      textureData := s.buffers s.TextureCoordBuffer
      triangleIndexCount := s.triangleIndexCount }] }

def build (lindex : ℕ) (dlist : Entry F) (lvb CoordBuffer : ℕ) : SphereStitch2 F V C :=
  let s := SetupBuffer G s lvb CoordBuffer
  { s with
    mDistList := s.mDistList.set lindex
      { dlist with
        TextureCoordBuffer := s.TextureCoordBuffer
        vertexBuffer := s.vertexBuffer
        triangleIndexCount := s.triangleIndexCount } }

def select (dlist : Entry F) : SphereStitch2 F V C :=
  { s with
    TextureCoordBuffer := dlist.TextureCoordBuffer
    vertexBuffer := dlist.vertexBuffer
    triangleIndexCount := dlist.triangleIndexCount }

def DrawSelf (lvb CoordBuffer : ℕ) : SphereStitch2 F V C :=
  match GetCurrentDistortion s s.mdistortion with
  | none => s
  | some lindex =>
    match s.mDistList[lindex]? with
    | none => s
    | some dlist =>
      if dlist.TextureCoordBuffer = 0 then draw (build G s lindex dlist lvb CoordBuffer) dlist
      else draw (select s dlist) dlist

def SetDistortion (pdist dist_count : ℕ) (half : F) : SphereStitch2 F V C :=
  if pdist = 0 then s
  else
    let s := { s with
      mdistortion := pdist
      mdistortion_count := dist_count
      mdistortion_half_height := half }
    match GetCurrentDistortion s pdist with
    | some _ => s
    | none => { s with mDistList := s.mDistList ++ [⟨pdist, dist_count, half, 0, 0, 0⟩] }

/-- The names that `glGenBuffers` gives are not in use. -/
def Fresh (lvb CoordBuffer : ℕ) : Prop :=
  lvb ≠ 0 ∧ CoordBuffer ≠ 0 ∧ lvb ≠ CoordBuffer ∧ (s.buffers lvb).isNone = true ∧
    (s.buffers CoordBuffer).isNone = true

instance (lvb CoordBuffer : ℕ) : Decidable (Fresh s lvb CoordBuffer) :=
  inferInstanceAs (Decidable (_ ∧ _))

/-- A table has a last angle, which `SetDistortion` reads. -/
def step : Act F → Option (SphereStitch2 F V C)
  | .SetDistortion pdist dist_count half =>
    if dist_count = 0 then none else some (SetDistortion s pdist dist_count half)
  | .DrawSelf lvb CoordBuffer =>
    if Fresh s lvb CoordBuffer then some (DrawSelf G s lvb CoordBuffer) else none

end code

variable {F V C : Type} {G : Geometry F V C} {s t : SphereStitch2 F V C}

/-- The two buffers exist and hold the mesh of the entry's table with its count. -/
structure Holds (G : Geometry F V C) (s : SphereStitch2 F V C) (e : Entry F) : Prop where
  vertexData : s.buffers e.vertexBuffer = some (vertices G e.mdistortion e.mdistortion_count)
  textureData : ∃ half, s.buffers e.TextureCoordBuffer =
    some (texture G e.mdistortion e.mdistortion_count half)
  count : e.triangleIndexCount = (e.mdistortion_count - 1) * 720

/-- The draw was of the whole mesh of its table. -/
structure DrawnRight (G : Geometry F V C) (d : Drawn V C) : Prop where
  vertexData : d.vertexData = some (vertices G d.mdistortion d.mdistortion_count)
  textureData : ∃ half, d.textureData = some (texture G d.mdistortion d.mdistortion_count half)
  count : d.triangleIndexCount = (d.mdistortion_count - 1) * 720

structure CacheRight (G : Geometry F V C) (s : SphereStitch2 F V C) : Prop where
  entries : ∀ e ∈ s.mDistList, e.vertexBuffer ≠ 0 ∨ e.TextureCoordBuffer ≠ 0 → Holds G s e
  drawn : ∀ d ∈ s.drawn, DrawnRight G d

/-- The entry that `DrawSelf` takes. -/
def current (s : SphereStitch2 F V C) : Option (Entry F) :=
  (GetCurrentDistortion s s.mdistortion).bind fun lindex => s.mDistList[lindex]?

/-- A draw that has to make a mesh finds the surface without buffers, and with the count that
the entry has. -/
def Meets (s : SphereStitch2 F V C) : Act F → Prop
  | .SetDistortion _ _ _ => True
  | .DrawSelf _ _ => ∀ e ∈ current s, e.TextureCoordBuffer = 0 →
      s.vertexBuffer = 0 ∧ s.mdistortion_count = e.mdistortion_count

instance (s : SphereStitch2 F V C) (a : Act F) : Decidable (Meets s a) :=
  match a with
  | .SetDistortion _ _ _ => isTrue trivial
  | .DrawSelf _ _ => inferInstanceAs (Decidable (∀ e ∈ current s, _))

/-- What the surface keeps in every run. -/
structure Sound (s : SphereStitch2 F V C) : Prop where
  zero : ∀ e ∈ s.mDistList, e.vertexBuffer = 0 ↔ e.TextureCoordBuffer = 0
  count : ∀ e ∈ s.mDistList, 0 < e.mdistortion_count
  counted : s.mDistList ≠ [] → 0 < s.mdistortion_count
  own : s.vertexBuffer = 0 ∧ s.TextureCoordBuffer = 0 ∨
    ∃ e ∈ s.mDistList, e.TextureCoordBuffer ≠ 0 ∧ e.vertexBuffer = s.vertexBuffer ∧
      e.TextureCoordBuffer = s.TextureCoordBuffer

theorem length_GenerateVertices {α : Type} (point : ℕ → ℕ → α) (n : ℕ) :
    (GenerateVertices point n).length = (n - 1) * 720 := by
  simp [GenerateVertices, strip]

/-- Meshes of one table with different counts have different lengths. -/
theorem vertices_inj {p n m : ℕ} (hn : 0 < n) (hm : 0 < m)
    (h : vertices G p n = vertices G p m) : n = m := by
  have hlen := congrArg List.length (Data.vertices.inj h)
  rw [length_GenerateVertices, length_GenerateVertices] at hlen
  omega

theorem current_some {e : Entry F} (h : current s = some e) :
    ∃ i, s.mDistList[i]? = some e ∧ e.mdistortion = s.mdistortion ∧
      GetCurrentDistortion s s.mdistortion = some i := by
  obtain ⟨i, hi, he⟩ := Option.bind_eq_some_iff.mp h
  obtain ⟨hlt, hfound, -⟩ := List.findIdx?_eq_some_iff_getElem.mp hi
  rw [List.getElem?_eq_getElem hlt, Option.some.injEq] at he
  subst he
  exact ⟨i, List.getElem?_eq_getElem hlt, of_decide_eq_true hfound, hi⟩

/-- `DrawSelf` does nothing, makes the mesh of its entry and draws it, or draws the one that
is there. -/
theorem DrawSelf_cases (G : Geometry F V C) (s : SphereStitch2 F V C) (lvb CoordBuffer : ℕ) :
    DrawSelf G s lvb CoordBuffer = s ∧ current s = none ∨
    ∃ i e, s.mDistList[i]? = some e ∧ e.mdistortion = s.mdistortion ∧ current s = some e ∧
      (e.TextureCoordBuffer = 0 ∧
          DrawSelf G s lvb CoordBuffer = draw (build G s i e lvb CoordBuffer) e ∨
        e.TextureCoordBuffer ≠ 0 ∧ DrawSelf G s lvb CoordBuffer = draw (select s e) e) := by
  cases h : current s with
  | none =>
    refine .inl ⟨?_, rfl⟩
    unfold DrawSelf
    split
    · rfl
    · rename_i i hi
      have hnone : s.mDistList[i]? = none := by simpa [current, hi] using h
      rw [hnone]
  | some e =>
    obtain ⟨i, hi, hp, hfound⟩ := current_some h
    refine .inr ⟨i, e, hi, hp, rfl, ?_⟩
    simp only [DrawSelf, hfound, hi]
    split_ifs with hzero
    · exact .inl ⟨hzero, rfl⟩
    · exact .inr ⟨hzero, rfl⟩

theorem SetDistortion_cases (s : SphereStitch2 F V C) (pdist dist_count : ℕ) (half : F) :
    SetDistortion s pdist dist_count half = s ∨
    ∃ new : List (Entry F), (∀ e ∈ new, e = ⟨pdist, dist_count, half, 0, 0, 0⟩) ∧
      SetDistortion s pdist dist_count half = { s with
        mdistortion := pdist
        mdistortion_count := dist_count
        mdistortion_half_height := half
        mDistList := s.mDistList ++ new } := by
  unfold SetDistortion
  split_ifs
  · exact .inl rfl
  · dsimp only
    split
    · exact .inr ⟨[], by simp, by simp⟩
    · exact .inr ⟨[⟨pdist, dist_count, half, 0, 0, 0⟩], by simp, rfl⟩

theorem mem_set_of_ne {l : List (Entry F)} {i : ℕ} {e e' d : Entry F} (hi : l[i]? = some e)
    (hd : d ∈ l) (hne : d ≠ e) : d ∈ l.set i e' := by
  obtain ⟨k, hk⟩ := List.mem_iff_getElem?.mp hd
  refine List.mem_iff_getElem?.mpr ⟨k, ?_⟩
  rw [List.getElem?_set_ne, hk]
  rintro rfl
  exact hne (Option.some.inj (hk.symm.trans hi))

theorem mem_set_self {l : List (Entry F)} {i : ℕ} {e e' : Entry F} (hi : l[i]? = some e) :
    e' ∈ l.set i e' := List.mem_set (List.getElem?_eq_some_iff.mp hi).1 e'

namespace Sound

theorem start (mdistortion : ℕ) (half : F) (buffers : ℕ → Option (Data V C)) :
    Sound (DistortionCache.start mdistortion half buffers) :=
  ⟨by simp [DistortionCache.start], by simp [DistortionCache.start],
    fun h => absurd rfl h, .inl ⟨rfl, rfl⟩⟩

theorem set (hs : Sound s) (pdist : ℕ) {dist_count : ℕ} (hcount : 0 < dist_count) (half : F) :
    Sound (SetDistortion s pdist dist_count half) := by
  rcases SetDistortion_cases s pdist dist_count half with heq | ⟨new, hnew, heq⟩
  · rw [heq]
    exact hs
  · rw [heq]
    refine ⟨fun e he => ?_, fun e he => ?_, fun _ => hcount, ?_⟩
    · rcases List.mem_append.mp he with hold | hadd
      · exact hs.zero e hold
      · rw [hnew e hadd]
    · rcases List.mem_append.mp he with hold | hadd
      · exact hs.count e hold
      · rwa [hnew e hadd]
    · rcases hs.own with hnone | ⟨e, he, hown⟩
      · exact .inl hnone
      · exact .inr ⟨e, List.mem_append_left _ he, hown⟩

theorem build (hs : Sound s) {i : ℕ} {e : Entry F} (hi : s.mDistList[i]? = some e)
    {lvb CoordBuffer : ℕ} (hfresh : Fresh s lvb CoordBuffer) :
    Sound (draw (DistortionCache.build G s i e lvb CoordBuffer) e) := by
  obtain ⟨hlvb, hcoord, -⟩ := hfresh
  refine ⟨fun d hd => ?_, fun d hd => ?_, fun hne => hs.counted ?_,
    .inr ⟨_, mem_set_self hi, hcoord, rfl, rfl⟩⟩
  · rcases List.mem_or_eq_of_mem_set hd with hold | rfl
    · exact hs.zero d hold
    · exact iff_of_false hlvb hcoord
  · rcases List.mem_or_eq_of_mem_set hd with hold | rfl
    · exact hs.count d hold
    · exact hs.count e (List.mem_of_getElem? hi)
  · exact List.ne_nil_of_mem (List.mem_of_getElem? hi)

theorem select (hs : Sound s) {e : Entry F} (he : e ∈ s.mDistList)
    (hbuilt : e.TextureCoordBuffer ≠ 0) : Sound (draw (DistortionCache.select s e) e) :=
  ⟨hs.zero, hs.count, hs.counted, .inr ⟨e, he, hbuilt, rfl, rfl⟩⟩

theorem after (hs : Sound s) {a : Act F} (h : step G s a = some t) : Sound t := by
  cases a with
  | SetDistortion pdist dist_count half =>
    simp only [step] at h
    split_ifs at h with hzero
    obtain rfl := Option.some.inj h
    exact hs.set pdist (Nat.pos_of_ne_zero hzero) half
  | DrawSelf lvb CoordBuffer =>
    simp only [step] at h
    split_ifs at h with hfresh
    obtain rfl := Option.some.inj h
    rcases DrawSelf_cases G s lvb CoordBuffer with
      ⟨heq, -⟩ | ⟨i, e, hi, -, -, ⟨-, heq⟩ | ⟨hbuilt, heq⟩⟩
    · rw [heq]
      exact hs
    · rw [heq]
      exact hs.build hi hfresh
    · rw [heq]
      exact hs.select (List.mem_of_getElem? hi) hbuilt

/-- The surface has both of its buffers or none. -/
theorem texture_zero (hs : Sound s) (h : s.vertexBuffer = 0) : s.TextureCoordBuffer = 0 := by
  rcases hs.own with hnone | ⟨e, he, hbuilt, hv, -⟩
  · exact hnone.2
  · exact absurd ((hs.zero e he).mp (hv.trans h)) hbuilt

end Sound

theorem glDeleteBuffers_self {buffers : ℕ → Option (Data V C)} {name : ℕ} (h : name ≠ 0) :
    glDeleteBuffers buffers name name = none := by
  rw [glDeleteBuffers, if_pos h, Function.update_self]

theorem glDeleteBuffers_none {buffers : ℕ → Option (Data V C)} {a : ℕ} (name : ℕ)
    (h : buffers a = none) : glDeleteBuffers buffers name a = none := by
  unfold glDeleteBuffers
  split_ifs
  · by_cases ha : a = name
    · rw [ha, Function.update_self]
    · rw [Function.update_of_ne ha, h]
  · exact h

theorem Holds.congr {e : Entry F} (h : Holds G s e) (hbuffers : t.buffers = s.buffers) :
    Holds G t e :=
  ⟨hbuffers ▸ h.vertexData, hbuffers ▸ h.textureData, h.count⟩

/-- A draw is right if the surface has the mesh of the entry. -/
theorem CacheRight.draw (h : CacheRight G s) {e : Entry F}
    (hpointer : e.mdistortion = s.mdistortion)
    (hv : s.buffers s.vertexBuffer = some (vertices G e.mdistortion e.mdistortion_count))
    (ht : ∃ half, s.buffers s.TextureCoordBuffer =
      some (texture G e.mdistortion e.mdistortion_count half))
    (hc : s.triangleIndexCount = (e.mdistortion_count - 1) * 720) :
    CacheRight G (draw s e) := by
  refine ⟨fun d hd hb => (h.entries d hd hb).congr rfl, fun d hd => ?_⟩
  rcases List.mem_append.mp hd with hold | hnew
  · exact h.drawn d hold
  · obtain rfl := List.mem_singleton.mp hnew
    rw [hpointer] at hv ht
    exact ⟨hv, ht, hc⟩

section Build
variable {i lvb CoordBuffer : ℕ} {e : Entry F}

/-- A surface without buffers deletes none. -/
theorem build_buffers (G : Geometry F V C) (i lvb CoordBuffer : ℕ) (e : Entry F)
    (hv : s.vertexBuffer = 0) (hc : s.TextureCoordBuffer = 0) :
    (build G s i e lvb CoordBuffer).buffers =
      Function.update (Function.update s.buffers lvb
        (some (vertices G s.mdistortion s.mdistortion_count))) CoordBuffer
          (some (texture G s.mdistortion s.mdistortion_count s.mdistortion_half_height)) := by
  simp [build, SetupBuffer, glDeleteBuffers, hv, hc]

theorem build_deletes (G : Geometry F V C) (i lvb CoordBuffer : ℕ) (e : Entry F)
    (hv : s.vertexBuffer ≠ 0) :
    (build G s i e lvb CoordBuffer).buffers s.vertexBuffer = none :=
  glDeleteBuffers_none _ (glDeleteBuffers_self hv)

/-- The mesh of an entry that is there stays while names not in use are taken. -/
theorem Holds.keep {d : Entry F} (h : Holds G s d) (hfresh : Fresh s lvb CoordBuffer)
    (hbuffers : t.buffers = Function.update (Function.update s.buffers lvb
      (some (vertices G s.mdistortion s.mdistortion_count))) CoordBuffer
        (some (texture G s.mdistortion s.mdistortion_count s.mdistortion_half_height))) :
    Holds G t d := by
  obtain ⟨-, -, -, hlvb, hcoord⟩ := hfresh
  have other : ∀ {name : ℕ} {data : Data V C}, s.buffers name = some data →
      t.buffers name = some data := by
    intro name data hname
    have hneLvb : name ≠ lvb := by
      rintro rfl
      simp [hname] at hlvb
    have hneCoord : name ≠ CoordBuffer := by
      rintro rfl
      simp [hname] at hcoord
    rw [hbuffers, Function.update_of_ne hneCoord, Function.update_of_ne hneLvb, hname]
  obtain ⟨half, htexture⟩ := h.textureData
  exact ⟨other h.vertexData, ⟨half, other htexture⟩, h.count⟩

/-- A mesh can be made without harm only for the first entry that is drawn. -/
theorem build_right_iff (hs : Sound s) (hp : CacheRight G s) (hi : s.mDistList[i]? = some e)
    (hpointer : e.mdistortion = s.mdistortion) (hzero : e.TextureCoordBuffer = 0)
    (hfresh : Fresh s lvb CoordBuffer) :
    CacheRight G (draw (build G s i e lvb CoordBuffer) e) ↔
      s.vertexBuffer = 0 ∧ s.mdistortion_count = e.mdistortion_count := by
  have he := List.mem_of_getElem? hi
  have hnames : lvb ≠ CoordBuffer := hfresh.2.2.1
  constructor
  · intro hright
    have hv : s.vertexBuffer = 0 := by
      by_contra hne
      rcases hs.own with ⟨hnone, -⟩ | ⟨d, hd, hbuilt, hown, -⟩
      · exact hne hnone
      · have hother : d ≠ e := by
          rintro rfl
          exact hbuilt hzero
        have hholds := hright.entries d (mem_set_of_ne hi hd hother) (.inr hbuilt)
        have hgone := build_deletes G i lvb CoordBuffer e hne
        exact absurd (hholds.vertexData.symm.trans (hown ▸ hgone)) (by simp)
    refine ⟨hv, ?_⟩
    have hholds := hright.entries _ (mem_set_self hi) (.inr hfresh.2.1)
    have hdata := hholds.vertexData
    change (build G s i e lvb CoordBuffer).buffers lvb = _ at hdata
    rw [build_buffers G i lvb CoordBuffer e hv (hs.texture_zero hv), Function.update_of_ne hnames,
      Function.update_self, Option.some.injEq, ← hpointer] at hdata
    exact vertices_inj (hs.counted (List.ne_nil_of_mem he)) (hs.count e he) hdata
  · rintro ⟨hv, hcount⟩
    have hbuffers := build_buffers G i lvb CoordBuffer e hv (hs.texture_zero hv)
    have hlvb : (build G s i e lvb CoordBuffer).buffers lvb =
        some (vertices G e.mdistortion e.mdistortion_count) := by
      rw [hbuffers, Function.update_of_ne hnames, Function.update_self, hpointer, hcount]
    have hcoord : (build G s i e lvb CoordBuffer).buffers CoordBuffer =
        some (texture G e.mdistortion e.mdistortion_count s.mdistortion_half_height) := by
      rw [hbuffers, Function.update_self, hpointer, hcount]
    have htriangles : (s.mdistortion_count - 1) * 6 * 120 = (e.mdistortion_count - 1) * 720 := by
      rw [hcount]
      ring
    have hentries : CacheRight G (build G s i e lvb CoordBuffer) := by
      refine ⟨fun d hd hbuilt => ?_, hp.drawn⟩
      rcases List.mem_or_eq_of_mem_set hd with hold | rfl
      · exact (hp.entries d hold hbuilt).keep hfresh hbuffers
      · exact ⟨hlvb, ⟨_, hcoord⟩, htriangles⟩
    exact hentries.draw hpointer hlvb ⟨_, hcoord⟩ htriangles

theorem select_right (hp : CacheRight G s) (he : e ∈ s.mDistList)
    (hpointer : e.mdistortion = s.mdistortion) (hbuilt : e.TextureCoordBuffer ≠ 0) :
    CacheRight G (draw (select s e) e) := by
  have hholds := hp.entries e he (.inr hbuilt)
  have hentries : CacheRight G (select s e) :=
    ⟨fun d hd hb => (hp.entries d hd hb).congr rfl, hp.drawn⟩
  exact hentries.draw hpointer hholds.vertexData hholds.textureData hholds.count

end Build

theorem SetDistortion_right (hp : CacheRight G s) (pdist dist_count : ℕ) (half : F) :
    CacheRight G (SetDistortion s pdist dist_count half) := by
  rcases SetDistortion_cases s pdist dist_count half with heq | ⟨new, hnew, heq⟩
  · rw [heq]
    exact hp
  · rw [heq]
    refine ⟨fun e he hbuilt => ?_, hp.drawn⟩
    rcases List.mem_append.mp he with hold | hadd
    · exact (hp.entries e hold hbuilt).congr rfl
    · rw [hnew e hadd] at hbuilt
      simp at hbuilt

theorem Sound.right_iff (hs : Sound s) (hp : CacheRight G s) {a : Act F}
    (h : step G s a = some t) : CacheRight G t ↔ Meets s a := by
  cases a with
  | SetDistortion pdist dist_count half =>
    simp only [step] at h
    split_ifs at h
    obtain rfl := Option.some.inj h
    exact iff_of_true (SetDistortion_right hp pdist dist_count half) trivial
  | DrawSelf lvb CoordBuffer =>
    simp only [step] at h
    split_ifs at h with hfresh
    obtain rfl := Option.some.inj h
    rcases DrawSelf_cases G s lvb CoordBuffer with
      ⟨heq, hnone⟩ | ⟨i, e, hi, hpointer, hcurrent, ⟨hzero, heq⟩ | ⟨hbuilt, heq⟩⟩
    · rw [heq]
      refine iff_of_true hp fun e he => ?_
      rw [hnone] at he
      cases he
    · rw [heq, build_right_iff hs hp hi hpointer hzero hfresh]
      constructor
      · intro hmeets d hd _
        rw [hcurrent] at hd
        obtain rfl := Option.some.inj hd
        exact hmeets
      · intro hmeets
        exact hmeets e hcurrent hzero
    · rw [heq]
      refine iff_of_true (select_right hp (List.mem_of_getElem? hi) hpointer hbuilt) ?_
      intro d hd hzero
      rw [hcurrent] at hd
      obtain rfl := Option.some.inj hd
      exact absurd hzero hbuilt

end Jagles.DistortionCache
