import Mathlib

set_option autoImplicit false
set_option linter.dupNamespace false

/-!
# The resampling of distortion tables (`SphereStitch::SetDistortion`)

A table gives half heights at angles; `mDistortion` has one for each degree. The angle
that is written next goes on from segment to segment, and nothing keeps it below the size
of the array.
-/
namespace Jagles.DistortionTables
open Float.Model

/-- The arithmetic of the numbers in a table, and its integers. -/
structure Arithmetic (F : Type) where
  ofInt : ℕ → F
  le : F → F → Bool
  lt : F → F → Bool
  add : F → F → F
  sub : F → F → F
  mul : F → F → F
  div : F → F → F

/-- `DISTORTION_NUM`. -/
structure DistortionNum (F : Type) where
  angle : F
  half_height : F

structure SphereStitch (F : Type) where
  mDistortion : Fin 115 → F
  mHalf_Height : F

section code

variable {F : Type} (A : Arithmetic F)

/-- The test of the inner loop. -/
def covers (lower upper : DistortionNum F) (angle : ℕ) : Bool :=
  A.le lower.angle (A.ofInt angle) && A.lt (A.ofInt angle) upper.angle

def sample (lower upper : DistortionNum F) (angle : ℕ) : F :=
  let llower := lower.half_height
  let lunit := A.div (A.sub upper.half_height lower.half_height) (A.sub upper.angle lower.angle)
  A.add llower (A.mul lunit (A.sub (A.ofInt angle) lower.angle))

/-- The inner loop; it gives `none` at a write behind the end of the array. -/
def fill (lower upper : DistortionNum F) (angle : ℕ) (mDistortion : Fin 115 → F) :
    Option (ℕ × (Fin 115 → F)) :=
  if covers A lower upper angle then
    if h : angle < 115 then
      fill lower upper (angle + 1)
        (Function.update mDistortion ⟨angle, h⟩ (sample A lower upper angle))
    else none
  else some (angle, mDistortion)
termination_by 115 - angle

/-- The outer loop, from the segment at the head of the list on. -/
def fillAll : List (DistortionNum F) → ℕ → (Fin 115 → F) → Option (ℕ × (Fin 115 → F))
  | lower :: upper :: rest, angle, mDistortion =>
    (fill A lower upper angle mDistortion).bind fun r => fillAll (upper :: rest) r.1 r.2
  | _, angle, mDistortion => some (angle, mDistortion)

def SetDistortion (pdist : List (DistortionNum F)) (half : F) : Option (SphereStitch F) :=
  (fillAll A pdist 1 fun _ => A.ofInt 0).map fun r => ⟨r.2, half⟩

end code

section bounds

variable {F : Type} {A : Arithmetic F} {lower upper : DistortionNum F}
  {table rest : List (DistortionNum F)} {angle : ℕ} {m : Fin 115 → F}

/-- The segment at an index of the table covers the angle. -/
def Covers (A : Arithmetic F) (table : List (DistortionNum F)) (i angle : ℕ) : Prop :=
  ∃ lower upper, table[i]? = some lower ∧ table[i + 1]? = some upper ∧
    covers A lower upper angle = true

/-- The angles from `angle` to 115 are covered by segments in the order of the table. -/
def Climbs (A : Arithmetic F) (table : List (DistortionNum F)) (angle : ℕ) : Prop :=
  ∃ segment : ℕ → ℕ, (∀ j k, angle ≤ j → j ≤ k → k ≤ 115 → segment j ≤ segment k) ∧
    ∀ j, angle ≤ j → j ≤ 115 → Covers A table (segment j) j

theorem covers_cons_iff (i : ℕ) :
    Covers A (lower :: table) (i + 1) angle ↔ Covers A table i angle := Iff.rfl

theorem covers_zero_iff :
    Covers A (lower :: upper :: rest) 0 angle ↔ covers A lower upper angle = true := by
  simp [Covers]

/-- The inner loop stops at the first angle outside of its segment, or at the end of the array
with that angle inside. -/
theorem fill_cases (A : Arithmetic F) (lower upper : DistortionNum F) (m : Fin 115 → F)
    (h : angle ≤ 115) :
    (∃ b m', fill A lower upper angle m = some (b, m') ∧ angle ≤ b ∧ b ≤ 115 ∧
      (∀ j, angle ≤ j → j < b → covers A lower upper j = true) ∧
      covers A lower upper b = false) ∨
    fill A lower upper angle m = none ∧
      ∀ j, angle ≤ j → j ≤ 115 → covers A lower upper j = true := by
  fun_induction fill A lower upper angle m with
  | case1 angle m hin hlt ih =>
    rcases ih (by omega) with ⟨b, m', hb, hle, hb115, hall, hout⟩ | ⟨hnone, hall⟩
    · refine .inl ⟨b, m', hb, by omega, hb115, fun j hj hjb => ?_, hout⟩
      rcases hj.eq_or_lt with rfl | hlt
      · exact hin
      · exact hall j hlt hjb
    · refine .inr ⟨hnone, fun j hj hj115 => ?_⟩
      rcases hj.eq_or_lt with rfl | hlt
      · exact hin
      · exact hall j hlt hj115
  | case2 angle m hin hge =>
    refine .inr ⟨rfl, fun j hj hj115 => ?_⟩
    obtain rfl : j = angle := by omega
    exact hin
  | case3 angle m hout =>
    exact .inl ⟨angle, m, rfl, le_rfl, h, fun j hj hlt => absurd hj (by omega), by simpa using hout⟩

/-- Behind the segment at the head the others have to go on. -/
theorem climbs_cons_iff {b : ℕ} (hb : angle ≤ b) (hb115 : b ≤ 115)
    (hall : ∀ j, angle ≤ j → j < b → covers A lower upper j = true)
    (hout : covers A lower upper b = false) :
    Climbs A (lower :: upper :: rest) angle ↔ Climbs A (upper :: rest) b := by
  constructor
  · rintro ⟨segment, hmono, hcov⟩
    have hpos : ∀ j, b ≤ j → j ≤ 115 → 0 < segment j := by
      intro j hj hj115
      refine Nat.pos_of_ne_zero fun hzero => ?_
      have hle := hmono b j hb hj hj115
      have hfirst := hcov b hb hb115
      rw [show segment b = 0 by omega, covers_zero_iff, hout] at hfirst
      cases hfirst
    refine ⟨fun j => segment j - 1, fun j k hj hjk hk => ?_, fun j hj hj115 => ?_⟩
    · exact Nat.sub_le_sub_right (hmono j k (hb.trans hj) hjk hk) 1
    · have hj' := hcov j (hb.trans hj) hj115
      obtain ⟨i, hi⟩ := Nat.exists_eq_add_one.mpr (hpos j hj hj115)
      rw [hi, covers_cons_iff] at hj'
      simpa [hi] using hj'
  · rintro ⟨segment, hmono, hcov⟩
    refine ⟨fun j => if j < b then 0 else segment j + 1, fun j k hj hjk hk => ?_,
      fun j hj hj115 => ?_⟩
    · dsimp only
      split_ifs with hjb hkb
      · exact le_rfl
      · exact Nat.zero_le _
      · omega
      · have hle := hmono j k (by omega) hjk hk
        omega
    · dsimp only
      split_ifs with hjb
      · exact covers_zero_iff.mpr (hall j hj hjb)
      · exact (covers_cons_iff _).mpr (hcov j (by omega) hj115)

theorem fillAll_eq_none_iff (h : angle ≤ 115) :
    fillAll A table angle m = none ↔ Climbs A table angle := by
  induction table generalizing angle m with
  | nil =>
    refine iff_of_false (by simp [fillAll]) ?_
    rintro ⟨segment, -, hcov⟩
    obtain ⟨p, q, hp, -⟩ := hcov angle le_rfl h
    simp at hp
  | cons lower table ih =>
    cases table with
    | nil =>
      refine iff_of_false (by simp [fillAll]) ?_
      rintro ⟨segment, -, hcov⟩
      obtain ⟨p, q, -, hq, -⟩ := hcov angle le_rfl h
      simp at hq
    | cons upper rest =>
      rw [fillAll]
      rcases fill_cases A lower upper m h with ⟨b, m', hb, hle, hb115, hall, hout⟩ | ⟨hnone, hall⟩
      · rw [hb, Option.bind_some, ih hb115, climbs_cons_iff hle hb115 hall hout]
      · rw [hnone, Option.bind_none]
        exact iff_of_true rfl ⟨fun _ => 0, fun _ _ _ _ _ => le_rfl,
          fun j hj hj115 => covers_zero_iff.mpr (hall j hj hj115)⟩

theorem fill_entry {b : ℕ} {m' : Fin 115 → F} (h : fill A lower upper angle m = some (b, m'))
    (a : Fin 115) :
    m' a = if angle ≤ a ∧ a < b then sample A lower upper a else m a := by
  fun_induction fill A lower upper angle m with
  | case1 angle m hin hlt ih =>
    rw [ih h]
    have hle : angle + 1 ≤ b := by
      rcases fill_cases A lower upper (Function.update m ⟨angle, hlt⟩ (sample A lower upper angle))
        (Nat.succ_le_of_lt hlt) with ⟨c, m₁, hc, hle, -⟩ | ⟨hnone, -⟩
      · rw [hc] at h
        obtain ⟨rfl, -⟩ := Prod.mk.inj (Option.some.inj h)
        exact hle
      · rw [hnone] at h
        cases h
    by_cases ha : a = ⟨angle, hlt⟩
    · subst ha
      rw [if_neg (by simp), if_pos ⟨le_rfl, hle⟩, Function.update_self]
    · have hne : (a : ℕ) ≠ angle := fun heq => ha (Fin.ext heq)
      rw [Function.update_of_ne ha]
      exact if_congr (by omega) rfl rfl
  | case2 angle m hin hge => cases h
  | case3 angle m hout =>
    obtain ⟨rfl, rfl⟩ := Prod.mk.inj (Option.some.inj h)
    rw [if_neg (by omega)]

end bounds

/-! ## Tables of rational numbers -/

def rational : Arithmetic ℚ where
  ofInt n := n
  le a b := decide (a ≤ b)
  lt a b := decide (a < b)
  add a b := a + b
  sub a b := a - b
  mul a b := a * b
  div a b := a / b

/-- The value is on the line through two neighbours in the table with the angle between them. -/
def Interpolates (table : List (DistortionNum ℚ)) (angle value : ℚ) : Prop :=
  ∃ i lower upper, table[i]? = some lower ∧ table[i + 1]? = some upper ∧
    lower.angle ≤ angle ∧ angle < upper.angle ∧
    value = AffineMap.lineMap lower.half_height upper.half_height
      ((angle - lower.angle) / (upper.angle - lower.angle))

structure Rising (table : List (DistortionNum ℚ)) (first last : DistortionNum ℚ) : Prop where
  head : table.head? = some first
  getLast : table.getLast? = some last
  increasing : table.Pairwise fun p q => p.angle < q.angle
  first_le : first.angle ≤ 1
  last_le : last.angle ≤ 115

section rational

variable {lower upper last : DistortionNum ℚ} {rest : List (DistortionNum ℚ)} {angle : ℕ}
  {m : Fin 115 → ℚ}

theorem covers_rational_iff (h : lower.angle ≤ angle) :
    covers rational lower upper angle = true ↔ (angle : ℚ) < upper.angle := by
  simp [covers, rational, h]

theorem sample_rational (a : ℕ) :
    sample rational lower upper a = AffineMap.lineMap lower.half_height upper.half_height
      ((a - lower.angle) / (upper.angle - lower.angle)) := by
  simp only [sample, rational, AffineMap.lineMap_apply_ring']
  ring

theorem angle_le_last (hs : (lower :: rest).Pairwise fun p q => p.angle < q.angle)
    (hlast : (lower :: rest).getLast? = some last) : lower.angle ≤ last.angle := by
  rcases List.mem_cons.mp (List.mem_of_getLast? hlast) with rfl | hmem
  · exact le_rfl
  · exact ((List.pairwise_cons.mp hs).1 last hmem).le

/-- A segment is filled up to the first degree that is not below its end. -/
theorem fill_rational (m : Fin 115 → ℚ) (h : angle ≤ 115) (hlower : lower.angle ≤ angle)
    (hupper : upper.angle ≤ 115) :
    ∃ b m', fill rational lower upper angle m = some (b, m') ∧ angle ≤ b ∧ b ≤ 115 ∧
      upper.angle ≤ b ∧ ∀ j : ℕ, angle ≤ j → j < b → (j : ℚ) < upper.angle := by
  have hmore : ∀ j : ℕ, angle ≤ j → lower.angle ≤ j := fun j hj =>
    hlower.trans (by exact_mod_cast hj)
  rcases fill_cases rational lower upper m h with ⟨b, m', hb, hle, hb115, hall, hout⟩ | ⟨-, hall⟩
  · refine ⟨b, m', hb, hle, hb115, ?_, fun j hj hjb => ?_⟩
    · by_contra hlt
      rw [(covers_rational_iff (hmore b hle)).mpr (not_le.mp hlt)] at hout
      cases hout
    · exact (covers_rational_iff (hmore j hj)).mp (hall j hj hjb)
  · have hlt := (covers_rational_iff (hmore 115 h)).mp (hall 115 h le_rfl)
    exact absurd hlt (not_lt.mpr hupper)

/-- From a degree that is not below its first angle on, a rising table is interpolated. -/
theorem fillAll_rational (m : Fin 115 → ℚ) (h : angle ≤ 115) (hlower : lower.angle ≤ angle)
    (hs : (lower :: rest).Pairwise fun p q => p.angle < q.angle)
    (hlast : (lower :: rest).getLast? = some last) (hle : last.angle ≤ 115) :
    ∃ b m', fillAll rational (lower :: rest) angle m = some (b, m') ∧
      (∀ a : Fin 115, angle ≤ a → ((a : ℕ) : ℚ) < last.angle →
        Interpolates (lower :: rest) a (m' a)) ∧
      ∀ a : Fin 115, (a : ℕ) < angle ∨ last.angle ≤ ((a : ℕ) : ℚ) → m' a = m a := by
  induction rest generalizing lower angle m with
  | nil =>
    obtain rfl : lower = last := by simpa using hlast
    refine ⟨angle, m, rfl, fun a ha hlt => ?_, fun a _ => rfl⟩
    have hcast : (angle : ℚ) ≤ (a : ℕ) := by exact_mod_cast ha
    exact absurd hlt (not_lt.mpr (hlower.trans hcast))
  | cons upper rest ih =>
    have hs' := (List.pairwise_cons.mp hs).2
    have hlast' : (upper :: rest).getLast? = some last := by simpa using hlast
    have hupper := angle_le_last hs' hlast'
    obtain ⟨b, m₁, hfill, hb, hb115, hend, hin⟩ := fill_rational m h hlower (hupper.trans hle)
    obtain ⟨c, m', hrest, hinter, hsame⟩ := ih m₁ hb115 hend hs' hlast'
    refine ⟨c, m', by rw [fillAll, hfill, Option.bind_some, hrest], fun a ha hlt => ?_,
      fun a ha => ?_⟩
    · rcases lt_or_ge (a : ℕ) b with hab | hab
      · refine ⟨0, lower, upper, rfl, rfl, hlower.trans (by exact_mod_cast ha), hin a ha hab, ?_⟩
        rw [hsame a (.inl hab), fill_entry hfill a, if_pos ⟨ha, hab⟩, sample_rational]
      · obtain ⟨i, p, q, hp, hq, hpq⟩ := hinter a hab hlt
        exact ⟨i + 1, p, q, hp, hq, hpq⟩
    · have hout : ¬ (angle ≤ (a : ℕ) ∧ (a : ℕ) < b) := by
        rintro ⟨hge, hlt⟩
        rcases ha with hlow | hhigh
        · omega
        · exact absurd ((hin a hge hlt).trans_le hupper) (not_lt.mpr hhigh)
      have hkeep : m' a = m₁ a := by
        refine hsame a ?_
        rcases ha with hlow | hhigh
        · exact .inl (by omega)
        · exact .inr hhigh
      rw [hkeep, fill_entry hfill a, if_neg hout]

end rational

/-- No write is out of bounds unless the angles up to 115 are covered in the order of the
table, and a rising table is interpolated. -/
theorem SetDistortion_spec {F : Type} (A : Arithmetic F) (pdist : List (DistortionNum F))
    (half : F) :
    ((SetDistortion A pdist half).isSome = true ↔ ¬ Climbs A pdist 1) ∧
    ∀ (table : List (DistortionNum ℚ)) (first last : DistortionNum ℚ) (height : ℚ),
      Rising table first last → ∃ s, SetDistortion rational table height = some s ∧
        ∀ a : Fin 115,
          (1 ≤ (a : ℕ) ∧ ((a : ℕ) : ℚ) < last.angle → Interpolates table a (s.mDistortion a)) ∧
          (¬ (1 ≤ (a : ℕ) ∧ ((a : ℕ) : ℚ) < last.angle) → s.mDistortion a = 0) := by
  constructor
  · rw [SetDistortion, Option.isSome_map, ← fillAll_eq_none_iff (by omega), ← ne_eq,
      Option.ne_none_iff_isSome]
  · intro table first last height h
    obtain ⟨rest, rfl⟩ : ∃ rest, table = first :: rest := List.head?_eq_some_iff.mp h.head
    obtain ⟨b, m, hm, hinter, hsame⟩ := fillAll_rational (fun _ => 0) (Nat.one_le_ofNat)
      (by exact_mod_cast h.first_le) h.increasing h.getLast h.last_le
    refine ⟨⟨m, height⟩, ?_, fun a => ⟨fun ha => hinter a ha.1 ha.2, fun ha => ?_⟩⟩
    · have hzero : (fun _ : Fin 115 => rational.ofInt 0) = fun _ => 0 := by simp [rational]
      rw [SetDistortion, hzero, hm, Option.map_some]
    · refine hsame a ?_
      rcases Nat.lt_or_ge (a : ℕ) 1 with hlow | hge
      · exact .inl hlow
      · exact .inr (not_lt.mp fun hlt => ha ⟨hge, hlt⟩)

theorem SetDistortion_three_angles : ∃ s,
    SetDistortion rational [⟨0, 0⟩, ⟨90, 45⟩, ⟨110, 65⟩] 65 = some s ∧
      Interpolates [⟨0, 0⟩, ⟨90, 45⟩, ⟨110, 65⟩] 100 (s.mDistortion 100) := by
  have h : Rising [⟨0, 0⟩, ⟨90, 45⟩, ⟨110, 65⟩] ⟨0, 0⟩ ⟨110, 65⟩ :=
    ⟨rfl, rfl, by simp; norm_num, by norm_num, by norm_num⟩
  obtain ⟨s, hs, hentries⟩ := (SetDistortion_spec rational [] 0).2 _ _ _ 65 h
  exact ⟨s, hs, (hentries 100).1 ⟨by decide, by norm_num⟩⟩

/-- The numbers of the code. -/
def binary32 : Arithmetic UnpackedFloat where
  ofInt n := UnpackedFloat.ofInt Format.binary32 n
  le := UnpackedFloat.le
  lt := UnpackedFloat.lt
  add := UnpackedFloat.add Format.binary32
  sub := UnpackedFloat.sub Format.binary32
  mul := UnpackedFloat.mul Format.binary32
  div := UnpackedFloat.div Format.binary32

/-- With the angles 0 and 200 the element behind the array is written. -/
theorem SetDistortion_out_of_bounds : SetDistortion binary32
    [⟨binary32.ofInt 0, binary32.ofInt 0⟩, ⟨binary32.ofInt 200, binary32.ofInt 1⟩]
    (binary32.ofInt 1) = none := by
  have hcovers : ∀ j < 116, covers binary32 ⟨binary32.ofInt 0, binary32.ofInt 0⟩
      ⟨binary32.ofInt 200, binary32.ofInt 1⟩ j = true := by decide +kernel
  rw [SetDistortion, Option.map_eq_none_iff, fillAll_eq_none_iff (by omega)]
  exact ⟨fun _ => 0, fun _ _ _ _ _ => le_rfl,
    fun j _ hj => covers_zero_iff.mpr (hcovers j (by omega))⟩

end Jagles.DistortionTables
