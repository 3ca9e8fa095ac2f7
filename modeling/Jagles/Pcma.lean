import Jagles.G711

set_option autoImplicit false
set_option linter.dupNamespace false

/-!
# The A-law tables of the phone

`G711Base` and `PCMA`, which code what the microphone hears.
-/
namespace Jagles.Pcma
open G711

/-- `_a2s`, of which `a2s` takes the low sixteen bits. -/
def a2sTable : List ℕ := [
  60032, 60288, 59520, 59776, 61056, 61312, 60544, 60800, 57984, 58240, 57472, 57728, 59008,
  59264, 58496, 58752, 62784, 62912, 62528, 62656, 63296, 63424, 63040, 63168, 61760, 61888,
  61504, 61632, 62272, 62400, 62016, 62144, 43520, 44544, 41472, 42496, 47616, 48640, 45568,
  46592, 35328, 36352, 33280, 34304, 39424, 40448, 37376, 38400, 54528, 55040, 53504, 54016,
  56576, 57088, 55552, 56064, 50432, 50944, 49408, 49920, 52480, 52992, 51456, 51968, 65192,
  65208, 65160, 65176, 65256, 65272, 65224, 65240, 65064, 65080, 65032, 65048, 65128, 65144,
  65096, 65112, 65448, 65464, 65416, 65432, 65512, 65528, 65480, 65496, 65320, 65336, 65288,
  65304, 65384, 65400, 65352, 65368, 64160, 64224, 64032, 64096, 64416, 64480, 64288, 64352,
  63648, 63712, 63520, 63584, 63904, 63968, 63776, 63840, 64848, 64880, 64784, 64816, 64976,
  65008, 64912, 64944, 64592, 64624, 64528, 64560, 64720, 64752, 64656, 64688, 5504, 5248, 6016,
  5760, 4480, 4224, 4992, 4736, 7552, 7296, 8064, 7808, 6528, 6272, 7040, 6784, 2752, 2624, 3008,
  2880, 2240, 2112, 2496, 2368, 3776, 3648, 4032, 3904, 3264, 3136, 3520, 3392, 22016, 20992,
  24064, 23040, 17920, 16896, 19968, 18944, 30208, 29184, 32256, 31232, 26112, 25088, 28160,
  27136, 11008, 10496, 12032, 11520, 8960, 8448, 9984, 9472, 15104, 14592, 16128, 15616, 13056,
  12544, 14080, 13568, 344, 328, 376, 360, 280, 264, 312, 296, 472, 456, 504, 488, 408, 392, 440,
  424, 88, 72, 120, 104, 24, 8, 56, 40, 216, 200, 248, 232, 152, 136, 184, 168, 1376, 1312, 1504,
  1440, 1120, 1056, 1248, 1184, 1888, 1824, 2016, 1952, 1632, 1568, 1760, 1696, 688, 656, 752,
  720, 560, 528, 624, 592, 944, 912, 1008, 976, 816, 784, 880, 848]

/-- The entries of `_s2a` as runs: each entry of a row stands as many times as the row says. -/
def s2aRows : List (ℕ × List UInt8) := [
  (1, [213, 212, 215, 214, 209, 208, 211, 210, 221, 220, 223, 222, 217, 216, 219, 218, 197, 196,
    199, 198, 193, 192, 195, 194, 205, 204, 207, 206, 201, 200, 203, 202]),
  (2, [245, 244, 247, 246, 241, 240, 243, 242, 253, 252, 255, 254, 249, 248, 251, 250]),
  (4, [229, 228, 231, 230, 225, 224, 227, 226, 237, 236, 239, 238, 233, 232, 235, 234]),
  (8, [149, 148, 151, 150, 145, 144, 147, 146, 157, 156, 159, 158, 153, 152, 155, 154]),
  (16, [133, 132, 135, 134, 129, 128, 131, 130, 141, 140, 143, 142, 137, 136, 139, 138]),
  (32, [181, 180, 183, 182, 177, 176, 179, 178, 189, 188, 191, 190, 185, 184, 187, 186]),
  (64, [165, 164, 167, 166, 161, 160, 163, 162, 173, 172, 175, 174, 169, 168, 171, 170, 42, 43,
    40, 41, 46, 47, 44, 45, 34, 35, 32, 33, 38, 39, 36, 37]),
  (32, [58, 59, 56, 57, 62, 63, 60, 61, 50, 51, 48, 49, 54, 55, 52, 53]),
  (16, [10, 11, 8, 9, 14, 15, 12, 13, 2, 3, 0, 1, 6, 7, 4, 5]),
  (8, [26, 27, 24, 25, 30, 31, 28, 29, 18, 19, 16, 17, 22, 23, 20, 21]),
  (4, [106, 107, 104, 105, 110, 111, 108, 109, 98, 99, 96, 97, 102, 103, 100, 101]),
  (2, [122, 123, 120, 121, 126, 127, 124, 125, 114, 115, 112, 113, 118, 119, 116, 117]),
  (1, [74, 75, 72, 73, 78, 79, 76, 77, 66, 67, 64, 65, 70, 71, 68, 69, 90, 91, 88, 89, 94, 95, 92,
    93, 82, 83, 80, 81, 86, 87, 84, 85])]

/-- The entry of the table at a position. -/
def entry : List (ℕ × List UInt8) → ℕ → UInt8
  | [], _ => 0
  | (times, row) :: rows, p =>
    if p < times * row.length then row.getD (p / times) 0 else entry rows (p - times * row.length)

/-- `_a2s` cast to `short`. -/
def a2s (i : ℕ) : ℤ := (a2sTable.getD i 0 : ℤ).bmod 65536

def s2a (i : ℕ) : UInt8 := entry s2aRows (i / 16)

/-- The loops of the two classes: a value for each of the first entries of an array. There is none
where the program would throw `ArrayIndexOutOfBoundsException`. -/
def fill {α : Type*} (value : ℕ → Option α) (out : List α) : ℕ → Option (List α)
  | 0 => some out
  | i + 1 => do
    let out ← fill value out i
    let x ← value i
    if i < out.length then some (out.set i x) else none

def alaw2linear (alaw : List UInt8) (lin : List ℤ) (frames : ℕ) : Option (List ℤ) :=
  fill (fun i => alaw[i]?.map fun a => a2s a.toNat) lin frames

def linear2alaw (lin : List ℤ) (offset : ℕ) (alaw : List UInt8) (frames : ℕ) :
    Option (List UInt8) :=
  fill (fun i => lin[i + offset]?.map fun x => s2a (x % 65536).toNat) alaw (frames / 2)

/-- `BytesTransUtil.getShort` of two bytes, in the order of the processor. -/
def getShort (bigEndian : Bool) (first second : UInt8) : ℤ :=
  if bigEndian then (256 * first.toNat + second.toNat : ℤ).bmod 65536
  else (256 * second.toNat + first.toNat : ℤ).bmod 65536

def bytes2Shorts (bigEndian : Bool) (buf : List UInt8) : List ℤ :=
  (List.range (buf.length / 2)).map fun i =>
    getShort bigEndian (buf.getD (2 * i) 0) (buf.getD (2 * i + 1) 0)

/-- What `recordThread` queues for the device after a read of the microphone. -/
def alawData (bigEndian : Bool) (pcm : List UInt8) (readSize : ℕ) : Option (List UInt8) :=
  linear2alaw (bytes2Shorts bigEndian pcm) 0 (List.replicate (readSize / 2) 0) readSize

theorem mul_add_lt {t j i n : ℕ} (hj : j < n) (hi : i < t) : t * j + i < t * n :=
  calc t * j + i < t * j + t := Nat.add_lt_add_left hi _
    _ = t * (j + 1) := (Nat.mul_succ t j).symm
    _ ≤ t * n := Nat.mul_le_mul_left t hj

/-- How many entries some rows stand for. -/
def size (rows : List (ℕ × List UInt8)) : ℕ := (rows.map fun row => row.1 * row.2.length).sum

/-- All entries of a run are the same. -/
theorem entry_run {j i : ℕ} (rows : List (ℕ × List UInt8)) :
    ∀ r, j < (rows.getD r (0, [])).2.length → i < (rows.getD r (0, [])).1 →
      entry rows (size (rows.take r) + ((rows.getD r (0, [])).1 * j + i)) =
        (rows.getD r (0, [])).2.getD j 0 := by
  induction rows with
  | nil => intro r hj hi; simp at hj
  | cons row rows ih =>
    obtain ⟨times, row⟩ := row
    intro r hj hi
    cases r with
    | zero =>
      change j < row.length at hj
      change i < times at hi
      change entry ((times, row) :: rows) (0 + (times * j + i)) = row.getD j 0
      have hquot : (times * j + i) / times = j := by
        rw [Nat.mul_add_div (by omega), Nat.div_eq_of_lt hi, Nat.add_zero]
      rw [Nat.zero_add, entry, if_pos (mul_add_lt hj hi), hquot]
    | succ r =>
      have hsize : size (((times, row) :: rows).take (r + 1)) =
          times * row.length + size (rows.take r) := by
        simp [size]
      rw [List.getD_cons_succ] at hj hi ⊢
      rw [hsize, entry, if_neg (by omega), Nat.add_assoc, Nat.add_sub_cancel_left]
      exact ih r hj hi

/-- Where a code of A-law without its sign stands in the table: the row, and the place in it. -/
def rowOf (k : ℕ) : ℕ := if k < 32 then 0 else k / 16 - 1

def columnOf (k : ℕ) : ℕ := if k < 32 then k else k % 16

theorem rowOf_lt {k : ℕ} (hk : k < 128) : rowOf k < 7 := by
  unfold rowOf
  split_ifs <;> omega

/-- The place from which an entry of a row stands in the table. -/
def start (r j : ℕ) : ℕ := size (s2aRows.take r) + (s2aRows.getD r (0, [])).1 * j

/-- The run of a code takes the sixteenths of its cell. -/
theorem run_positive : ∀ k < 128,
    columnOf k < (s2aRows.getD (rowOf k) (0, [])).2.length ∧
      G711.aLaw.bound k = 16 * start (rowOf k) (columnOf k) ∧
      G711.aLaw.bound (k + 1) =
        16 * (start (rowOf k) (columnOf k) + (s2aRows.getD (rowOf k) (0, [])).1 : ℕ) ∧
      (s2aRows.getD (rowOf k) (0, [])).2.getD (columnOf k) 0 = UInt8.ofNat k ^^^ 0xD5 := by
  decide +kernel

/-- The rows of the other half are the mirror images. -/
theorem row_mirror : ∀ r < 7,
    (s2aRows.getD (12 - r) (0, [])).1 = (s2aRows.getD r (0, [])).1 ∧
      (s2aRows.getD (12 - r) (0, [])).2 = (s2aRows.getD r (0, [])).2.reverse.map (· ^^^ 0x80) ∧
      size (s2aRows.take (12 - r)) + size (s2aRows.take (r + 1)) = 4096 := by
  decide

theorem size_take_succ (rows : List (ℕ × List UInt8)) (r : ℕ) : size (rows.take (r + 1)) =
    size (rows.take r) + (rows.getD r (0, [])).1 * (rows.getD r (0, [])).2.length := by
  unfold size
  rw [List.take_add_one, List.map_append, List.sum_append, List.getD_eq_getElem?_getD]
  cases rows[r]? with
  | none => rfl
  | some row => rfl

/-- As many places before the end of the table as a place is after its beginning. -/
theorem mirror_place {times n j i before after : ℕ} (hj : j < n) (hi : i < times)
    (hsize : after + (before + times * n) = 4096) : 4095 - (before + times * j + i) =
      after + (times * (n - 1 - j) + (times - 1 - i)) := by
  have hn : times * n = times * j + times + times * (n - 1 - j) := by
    rw [← Nat.mul_succ, ← Nat.mul_add]
    congr 1
    omega
  omega

theorem getD_mirror {row : List UInt8} {j : ℕ} (hj : j < row.length) :
    (row.reverse.map (· ^^^ 0x80)).getD (row.length - 1 - j) 0 = row.getD j 0 ^^^ 0x80 := by
  have hindex : row.length - 1 - (row.length - 1 - j) = j := by omega
  rw [List.getD_eq_getElem?_getD, List.getElem?_map, List.getElem?_reverse (by omega), hindex,
    List.getElem?_eq_getElem hj, List.getD_eq_getElem _ _ hj]
  rfl

/-- The code of each entry of the first half, as a place of the table. -/
theorem exists_run {p : ℕ} (hp : p < 2048) : ∃ k < 128, ∃ i,
    p = start (rowOf k) (columnOf k) + i ∧ i < (s2aRows.getD (rowOf k) (0, [])).1 ∧
      G711.linear2alaw (16 * p : ℕ) = UInt8.ofNat k ^^^ 0xD5 := by
  obtain ⟨k, hindex, hcode⟩ := G711.linear2alaw_positive (16 * p)
  have hcell := G711.aLaw_cell_of_index (by omega) hindex
  obtain ⟨-, hbound, hnext, -⟩ := run_positive k hindex.lt
  have hle := hcell.le
  have hlt := hcell.lt
  rw [hbound] at hle
  rw [hnext] at hlt
  exact ⟨k, hindex.lt, p - start (rowOf k) (columnOf k), by omega, by omega, hcode⟩

theorem entry_positive {p : ℕ} (hp : p < 2048) :
    entry s2aRows p = G711.linear2alaw (16 * p : ℕ) := by
  obtain ⟨k, hk, i, rfl, hi, hcode⟩ := exists_run hp
  obtain ⟨hcolumn, -, -, hentry⟩ := run_positive k hk
  rw [hcode, ← hentry, ← entry_run s2aRows _ hcolumn hi, start, Nat.add_assoc]

theorem entry_negative {p : ℕ} (hp : p < 2048) :
    entry s2aRows (4095 - p) = G711.linear2alaw (16 * p : ℕ) ^^^ 0x80 := by
  obtain ⟨k, hk, i, rfl, hi, hcode⟩ := exists_run hp
  obtain ⟨hcolumn, -, -, hentry⟩ := run_positive k hk
  obtain ⟨htimes, hrow, hsize⟩ := row_mirror (rowOf k) (rowOf_lt hk)
  rw [size_take_succ] at hsize
  have hrun := entry_run (j := (s2aRows.getD (rowOf k) (0, [])).2.length - 1 - columnOf k)
    (i := (s2aRows.getD (rowOf k) (0, [])).1 - 1 - i) s2aRows (12 - rowOf k)
    (by rw [hrow, List.length_map, List.length_reverse]; omega) (by rw [htimes]; omega)
  rw [htimes, hrow, getD_mirror hcolumn, hentry] at hrun
  rw [hcode, start, mirror_place hcolumn hi hsize, hrun]

theorem a2s_table : a2sTable.map (fun n : ℕ => (n : ℤ).bmod 65536) =
    (List.range 256).map fun n => G711.alaw2linear (UInt8.ofNat n) := by
  decide +kernel

theorem a2s_eq (a : UInt8) : a2s a.toNat = G711.alaw2linear a := by
  have hlt : a.toNat < 256 := a.toNat_lt
  have hentry : a2sTable[a.toNat]?.map (fun n : ℕ => (n : ℤ).bmod 65536) =
      some (G711.alaw2linear a) := by
    rw [← List.getElem?_map, a2s_table, List.getElem?_map, List.getElem?_range hlt,
      Option.map_some, UInt8.ofNat_toNat]
  unfold a2s
  rw [List.getD_eq_getElem?_getD]
  generalize a2sTable[a.toNat]? = value at hentry ⊢
  cases value with
  | none => cases hentry
  | some n => exact Option.some.inj hentry

theorem bound_sixteen (k : ℕ) : (16 : ℤ) ∣ G711.aLaw.bound k := by
  change (16 : ℤ) ∣ if k < 16 then 16 * (k : ℤ) else 16 * Quantisers.segmented 16 (k - 16)
  split_ifs
  · exact ⟨_, rfl⟩
  · exact ⟨_, rfl⟩

/-- The four lowest bits of a sample do not count: the cells begin at multiples of sixteen. -/
theorem linear2alaw_sixteenth (v : ℕ) :
    G711.linear2alaw (16 * (v / 16) : ℕ) = G711.linear2alaw v := by
  obtain ⟨j, hj, hcodej⟩ := G711.linear2alaw_positive (16 * (v / 16))
  obtain ⟨k, hk, hcodek⟩ := G711.linear2alaw_positive v
  have hindex : G711.aLaw.Index 128 k (16 * (v / 16) : ℕ) := by
    obtain ⟨c, hc⟩ := bound_sixteen k
    obtain ⟨d, hd⟩ := bound_sixteen (k + 1)
    refine ⟨hk.lt, ?_, fun h => ?_⟩
    · have hle := hk.le
      rw [hc] at hle ⊢
      omega
    · have hlt := hk.below h
      rw [hd] at hlt ⊢
      omega
  rw [hcodej, hcodek, hj.unique hindex]

/-- The phone codes a sample of zero or more as `G711.linear2alaw` does, and one below zero as its
mirror image, so that none of them wraps. -/
theorem s2a_eq {x : ℤ} (hlow : -32768 ≤ x) (hhigh : x < 32768) : s2a (x % 65536).toNat =
    if 0 ≤ x then G711.linear2alaw x else G711.linear2alaw (-1 - x) ^^^ 0x80 := by
  unfold s2a
  split_ifs with hx
  · obtain ⟨v, rfl⟩ : ∃ v : ℕ, x = v := ⟨x.toNat, by omega⟩
    have hposition : ((v : ℤ) % 65536).toNat / 16 = v / 16 := by omega
    rw [hposition, entry_positive (by omega), linear2alaw_sixteenth]
  · obtain ⟨v, rfl⟩ : ∃ v : ℕ, x = -1 - v := ⟨(-1 - x).toNat, by omega⟩
    have hposition : ((-1 - (v : ℤ)) % 65536).toNat / 16 = 4095 - v / 16 := by omega
    have hmagnitude : -1 - (-1 - (v : ℤ)) = v := by ring
    rw [hposition, hmagnitude, entry_negative (by omega), linear2alaw_sixteenth]

/-- Half a step, also below zero: the mirror image ends its cells one later. -/
theorem s2a_error {x : ℤ} (hlow : -32768 ≤ x) (hhigh : x < 32768) :
    2 * |G711.alaw2linear (s2a (x % 65536).toNat) - x| ≤ max 16 (|x| / 16) := by
  rw [s2a_eq hlow hhigh]
  split_ifs with hx
  · obtain ⟨v, rfl⟩ : ∃ v : ℕ, x = v := ⟨x.toNat, by omega⟩
    obtain ⟨k, hindex, hcode⟩ := G711.linear2alaw_positive v
    have herror := G711.aLaw_error (G711.aLaw_cell_of_index (by omega) hindex)
    rw [hcode, (G711.alaw2linear_code k hindex.lt).1, abs_of_nonneg hx]
    exact_mod_cast herror
  · obtain ⟨v, rfl⟩ : ∃ v : ℕ, x = -1 - v := ⟨(-1 - x).toNat, by omega⟩
    obtain ⟨k, hindex, hcode⟩ := G711.linear2alaw_positive v
    have hcell := G711.aLaw_cell_of_index (by omega) hindex
    have hwidth := G711.aLaw_width hcell
    obtain ⟨c, hc⟩ := bound_sixteen k
    obtain ⟨d, hd⟩ := bound_sixteen (k + 1)
    have hmagnitude : -1 - (-1 - (v : ℤ)) = v := by ring
    have hsign : UInt8.ofNat k ^^^ 0xD5 ^^^ 0x80 = UInt8.ofNat k ^^^ 0x55 := by
      rw [UInt8.xor_assoc]
      rfl
    have hmid : G711.aLaw.mid k = 8 * (c + d) := by
      unfold Quantisers.Quantiser.mid
      rw [hc, hd]
      omega
    have hle := hcell.le
    have hlt := hcell.lt
    rw [hc] at hle hwidth
    rw [hd] at hlt hwidth
    rw [hmagnitude, hcode, hsign, (G711.alaw2linear_code k hindex.lt).2, hmid,
      abs_of_neg (show -1 - (v : ℤ) < 0 by omega)]
    rcases abs_cases (-(8 * (c + d)) - (-1 - (v : ℤ))) with ⟨habs, -⟩ | ⟨habs, -⟩ <;>
      rw [habs] <;> omega

theorem fill_spec {α : Type*} (value : ℕ → Option α) (v : ℕ → α) {out : List α} {n : ℕ}
    (hn : n ≤ out.length) (hv : ∀ i < n, value i = some (v i)) :
    ∃ full, fill value out n = some full ∧ full.length = out.length ∧
      ∀ i < n, full[i]? = some (v i) := by
  induction n with
  | zero => exact ⟨out, rfl, rfl, by simp⟩
  | succ n ih =>
    obtain ⟨full, hfull, hlength, hentries⟩ := ih (by omega) fun i hi => hv i (by omega)
    refine ⟨full.set n (v n), ?_, by rw [List.length_set, hlength], fun i hi => ?_⟩
    · simp only [fill, hfull, hv n (by omega), Option.bind_eq_bind, Option.bind_some]
      rw [if_pos (by omega)]
    · rw [List.getElem?_set]
      split_ifs with h h'
      · rw [h]
      · omega
      · exact hentries i (by omega)

theorem getShort_bounds (bigEndian : Bool) (first second : UInt8) :
    -32768 ≤ getShort bigEndian first second ∧ getShort bigEndian first second < 32768 := by
  have hlow : ∀ n : ℤ, -(65536 / 2) ≤ n.bmod 65536 := fun n => Int.le_bmod (by decide)
  have hhigh : ∀ n : ℤ, n.bmod 65536 < (65536 + 1) / 2 := fun n => Int.bmod_lt (by decide)
  unfold getShort
  split_ifs
  · exact ⟨hlow _, hhigh _⟩
  · exact ⟨hlow _, hhigh _⟩

/-- Whatever is read of the microphone is coded without an exception, one code for each whole
sample, and heard within half a step of what was said, by the device as by the phone. -/
theorem voice_heard {bigEndian : Bool} {pcm : List UInt8} {readSize : ℕ}
    (h : readSize ≤ pcm.length) : ∃ alaw lin, alawData bigEndian pcm readSize = some alaw ∧
      alaw2linear alaw (List.replicate (readSize / 2) 0) (readSize / 2) = some lin ∧
      alaw.length = readSize / 2 ∧ lin = alaw.map G711.alaw2linear ∧
      ∀ i < readSize / 2, ∃ x y, (bytes2Shorts bigEndian pcm)[i]? = some x ∧ lin[i]? = some y ∧
        2 * |y - x| ≤ max 16 (|x| / 16) := by
  obtain ⟨sample, hbounds, hsample⟩ : ∃ sample : ℕ → ℤ,
      (∀ i, -32768 ≤ sample i ∧ sample i < 32768) ∧
        ∀ i < readSize / 2, (bytes2Shorts bigEndian pcm)[i]? = some (sample i) := by
    refine ⟨_, fun i => getShort_bounds bigEndian (pcm.getD (2 * i) 0) (pcm.getD (2 * i + 1) 0),
      fun i hi => ?_⟩
    have hrange : i < pcm.length / 2 := by omega
    simp only [bytes2Shorts, List.getElem?_map, List.getElem?_range hrange, Option.map_some]
  obtain ⟨alaw, halaw, hlength, hcodes⟩ := fill_spec
    (fun i => (bytes2Shorts bigEndian pcm)[i + 0]?.map fun x => s2a (x % 65536).toNat)
    (fun i => s2a (sample i % 65536).toNat)
    (show readSize / 2 ≤ (List.replicate (readSize / 2) (0 : UInt8)).length by simp)
    fun i hi => by rw [Nat.add_zero, hsample i hi, Option.map_some]
  rw [List.length_replicate] at hlength
  obtain ⟨lin, hlin, hlinLength, hvalues⟩ := fill_spec
    (fun i => alaw[i]?.map fun a => a2s a.toNat)
    (fun i => G711.alaw2linear (s2a (sample i % 65536).toNat))
    (show readSize / 2 ≤ (List.replicate (readSize / 2) (0 : ℤ)).length by simp)
    fun i hi => by rw [hcodes i hi, Option.map_some, a2s_eq]
  rw [List.length_replicate] at hlinLength
  refine ⟨alaw, lin, halaw, hlin, hlength, ?_, fun i hi => ⟨_, _, hsample i hi, hvalues i hi,
    s2a_error (hbounds i).1 (hbounds i).2⟩⟩
  refine List.ext_getElem? fun i => ?_
  rcases Nat.lt_or_ge i (readSize / 2) with hi | hi
  · rw [hvalues i hi, List.getElem?_map, hcodes i hi, Option.map_some]
  · rw [List.getElem?_eq_none (by omega), List.getElem?_eq_none (by simp; omega)]

/-- Three samples and an odd byte. -/
theorem voice_heard_short :
    (7 : ℕ) ≤ ([1, 0, 255, 255, 0, 128, 9] : List UInt8).length ∧
      alawData false [1, 0, 255, 255, 0, 128, 9] 7 = some [213, 85, 42] ∧
      ∃ alaw lin, alawData false [1, 0, 255, 255, 0, 128, 9] 7 = some alaw ∧
        alaw2linear alaw (List.replicate (7 / 2) 0) (7 / 2) = some lin ∧
        alaw.length = 7 / 2 ∧ lin = alaw.map G711.alaw2linear ∧
        ∀ i < 7 / 2, ∃ x y, (bytes2Shorts false [1, 0, 255, 255, 0, 128, 9])[i]? = some x ∧
          lin[i]? = some y ∧ 2 * |y - x| ≤ max 16 (|x| / 16) :=
  ⟨by decide, by decide, voice_heard (by decide)⟩

end Jagles.Pcma
