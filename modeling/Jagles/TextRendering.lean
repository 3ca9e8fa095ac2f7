import Jagles.AccessTraces
import Jagles.CStrings

set_option autoImplicit false
set_option linter.dupNamespace false

/-!
# Text in a bitmap (`JAText`)

The first 40 bytes of a text are drawn from left to right. A byte above `0xA0` starts a
character of two bytes, drawn 24 pixels wide; every other byte is 12 pixels wide. The
accesses of a run are the bytes of the text, those of the two font tables, and the pixels
stored, each with the cell of the character it belongs to.
-/
namespace Jagles.TextRendering
open AccessTraces Traced CStrings CString

/-- A character's place in the line of text. -/
structure Cell where
  left : ℕ
  width : ℕ
  deriving DecidableEq

inductive Place
  | text (i : ℕ)
  | asc (offset : ℤ)
  | hz (offset : ℤ)
  | pixel (cell : Cell) (x y : ℤ)
  deriving DecidableEq

/-- The pixels of a bitmap by their place in memory. -/
abbrev Bitmap := ℤ → UInt32

/-- The font tables that are loaded. -/
structure JAText where
  ascbuffer : Option (ℤ → UInt8)
  hzbuffer : Option (ℤ → UInt8)

def putpixels (cell : Cell) (x y : ℤ) (color : UInt32) (w h : ℕ) (buf : Bitmap) :
    Traced Place Bitmap :=
  if x < 0 || x > w || y < 0 || y > h then pure buf
  else write (.pixel cell x y) (Function.update buf (y * w + x) color)

/-- The 24 rows of a character of two bytes, which start at `hzpos`. -/
def putWide (hzbuffer : ℤ → UInt8) (hzpos : ℤ) (x : ℕ) (color : UInt32) (w h : ℕ)
    (buf : Bitmap) : Traced Place Bitmap :=
  (List.range 24).foldlM (fun buf (j : ℕ) => do
    let b0 ← read (.hz (hzpos + j * 3)) (hzbuffer (hzpos + j * 3))
    let b1 ← read (.hz (hzpos + j * 3 + 1)) (hzbuffer (hzpos + j * 3 + 1))
    let b2 ← read (.hz (hzpos + j * 3 + 2)) (hzbuffer (hzpos + j * 3 + 2))
    let lbuf := b0.toNat <<< 16 ||| b1.toNat <<< 8 ||| b2.toNat
    (List.range 24).foldlM (fun buf (m : ℕ) =>
      putpixels ⟨x, 24⟩ (x + m) j (if lbuf.testBit (23 - m) then color else 0x66666666) w h buf)
      buf) buf

/-- The 24 rows of a character of one byte, which start at `hzpos`. -/
def putNarrow (ascbuffer : ℤ → UInt8) (hzpos : ℤ) (x : ℕ) (color : UInt32) (w h : ℕ)
    (buf : Bitmap) : Traced Place Bitmap :=
  (List.range 24).foldlM (fun buf (j : ℕ) =>
    (List.range 12).foldlM (fun buf (m : ℕ) => do
      let offset : ℤ := hzpos + ((j * 12 + m) / 8 : ℕ)
      let b ← read (.asc offset) (ascbuffer offset)
      putpixels ⟨x, 12⟩ (x + m) j
        (if b.toNat.testBit (7 - (j * 12 + m) % 8) then color else 0x66666666) w h buf) buf) buf

/-- The byte starts a character of two bytes. -/
def isLead (c : UInt8) : Bool := c > 0xA0

/-- The table offset of a character of two bytes. -/
def hzposOf (c d : UInt8) : ℤ :=
  let q : ℤ := (c.toNat &&& 0x7f : ℕ) - 32
  let w : ℤ := (d.toNat &&& 0x7f : ℕ) - 32
  ((q - 1) * 94 + w - 1) * 72

/-- The loop of `PutText` from byte `i` and column `x`. -/
def putChars (ascbuffer hzbuffer : ℤ → UInt8) (pStr : CString) (llen : ℕ) (color : UInt32)
    (w h : ℕ) : ℕ → ℕ → ℕ → Bitmap → Traced Place Bitmap
  | 0, _, _, buf => pure buf
  | fuel + 1, i, x, buf =>
    if i < llen then do
      let c ← read (.text i) (pStr.charAt i)
      if isLead c then do
        let d ← read (.text (i + 1)) (pStr.charAt (i + 1))
        let buf ← putWide hzbuffer (hzposOf c d) x color w h buf
        putChars ascbuffer hzbuffer pStr llen color w h fuel (i + 2) (x + 24) buf
      else do
        let buf ← putNarrow ascbuffer (c.toNat * 36) x color w h buf
        putChars ascbuffer hzbuffer pStr llen color w h fuel (i + 1) (x + 12) buf
    else pure buf

namespace JAText

/-- `PutText`; `strlen` reads the text up to its terminator. -/
def putText (f : JAText) (pStr : CString) (color : UInt32) (w h : ℕ) (buf : Bitmap) :
    Traced Place Bitmap :=
  match f.ascbuffer, f.hzbuffer with
  | some ascbuffer, some hzbuffer => do
    let llen ← readAll ((List.range (pStr.strlen + 1)).map Place.text) (min pStr.strlen 40)
    putChars ascbuffer hzbuffer pStr llen color w h llen 0 0 buf
  | _, _ => pure buf

def genTextbuffer (f : JAText) (txt : Option CString) (color : UInt32) (w h : ℕ) :
    Traced Place (Option Bitmap) :=
  match txt with
  | none => pure none
  | some txt => do
    let txtbuf ← f.putText txt color w h fun _ => 0
    return some txtbuf

end JAText

/-! ## The characters of a text -/

inductive Glyph
  | narrow (c : UInt8)
  | wide (c d : UInt8)
  deriving DecidableEq

namespace Glyph

def width : Glyph → ℕ
  | narrow _ => 12
  | wide _ _ => 24

/-- The character is in its font table. -/
def InTable : Glyph → Prop
  | narrow _ => True
  | wide c d => 0 ≤ hzposOf c d ∧ hzposOf c d < 94 * 94 * 72

instance (g : Glyph) : Decidable g.InTable := by
  cases g <;> unfold InTable <;> infer_instance

end Glyph

/-- The characters that start in the first `n` bytes. -/
def glyphs : ℕ → List UInt8 → List Glyph
  | 0, _ => []
  | _ + 1, [] => []
  | _ + 1, [c] => [if isLead c then .wide c 0 else .narrow c]
  | n + 1, c :: d :: rest =>
    if isLead c then .wide c d :: glyphs (n - 1) rest else .narrow c :: glyphs n (d :: rest)

/-- The width of a line of characters. -/
def lineWidth (gs : List Glyph) : ℕ := (gs.map Glyph.width).sum

@[simp] theorem glyphs_zero (bytes : List UInt8) : glyphs 0 bytes = [] := by cases bytes <;> rfl

@[simp] theorem glyphs_nil (n : ℕ) : glyphs n [] = [] := by cases n <;> rfl

theorem glyphs_cons (n : ℕ) (c : UInt8) (rest : List UInt8) : glyphs (n + 1) (c :: rest) =
    if isLead c then .wide c (rest.headD 0) :: glyphs (n - 1) rest.tail
    else .narrow c :: glyphs n rest := by
  cases rest with
  | nil => cases h : isLead c <;> simp [glyphs, h]
  | cons d rest => rfl

/-! ## Where the accesses lie -/

/-- The bytes of a text of `n` bytes and its terminator, those of the font tables, and the
pixels of a bitmap that are in the cell of their character. -/
def Safe (n w h : ℕ) : Place → Prop
  | .text i => i ≤ n
  | .asc offset => 0 ≤ offset ∧ offset < 256 * 36
  | .hz offset => 0 ≤ offset ∧ offset < 94 * 94 * 72
  | .pixel cell x y => (0 ≤ x ∧ x < w ∧ 0 ≤ y ∧ y < h) ∧
      cell.left ≤ x ∧ x < cell.left + cell.width ∧ y < 24

/-- A cell at column `x` is in the bitmap, or clipped whole. -/
def Fits (x width w h : ℕ) : Prop := w < x ∨ (x + width ≤ w ∧ 24 ≤ h)

section Accesses
variable {n w h : ℕ}

theorem putpixels_within_iff {x width m j : ℕ} (hm : m < width) (hj : j < 24) (color : UInt32)
    (buf : Bitmap) :
    (putpixels ⟨x, width⟩ (x + m) j color w h buf).Within (Safe n w h) ↔
      (x + m ≤ w → j ≤ h → x + m < w ∧ j < h) := by
  unfold putpixels
  split
  · rename_i hclip
    simp only [Bool.or_eq_true, decide_eq_true_eq] at hclip
    rw [within_pure_iff, true_iff]
    omega
  · rename_i hclip
    simp only [Bool.or_eq_true, decide_eq_true_eq] at hclip
    rw [within_write_iff]
    simp only [Safe]
    omega

theorem pixels_iff_fits {x width : ℕ} (hwidth : 0 < width) :
    (∀ j < 24, ∀ m < width, x + m ≤ w → j ≤ h → x + m < w ∧ j < h) ↔ Fits x width w h := by
  constructor
  · intro hall
    by_contra hfits
    have hx : x ≤ w ∧ (w < x + width ∨ h < 24) := by
      unfold Fits at hfits
      omega
    obtain ⟨hx, hright | hbottom⟩ := hx
    · -- the column after the last one passes the clipping
      have := hall 0 (by decide) (w - x) (by omega) (by omega) (by omega)
      omega
    · have := hall h hbottom 0 hwidth (by omega) le_rfl
      omega
  · intro hfits j hj m hm
    unfold Fits at hfits
    omega

theorem putNarrow_within_iff (ascbuffer : ℤ → UInt8) (c : UInt8) (x : ℕ) (color : UInt32)
    (buf : Bitmap) :
    (putNarrow ascbuffer (c.toNat * 36) x color w h buf).Within (Safe n w h) ↔ Fits x 12 w h := by
  rw [← pixels_iff_fits (by decide)]
  have hc := c.toNat_lt
  unfold putNarrow
  rw [within_foldlM_iff (P := fun j => ∀ m < 12, x + m ≤ w → j ≤ h → x + m < w ∧ j < h)]
  · simp only [List.mem_range]
  · intro j hj buf
    have hj := List.mem_range.mp hj
    rw [within_foldlM_iff (P := fun m => x + m ≤ w → j ≤ h → x + m < w ∧ j < h)]
    · simp only [List.mem_range]
    · intro m hm buf
      have hm := List.mem_range.mp hm
      rw [within_bind_iff, within_read_iff, putpixels_within_iff hm hj]
      have hbyte : (j * 12 + m) / 8 < 36 := by omega
      refine and_iff_right ?_
      simp only [Safe]
      omega

theorem putWide_within_iff (hzbuffer : ℤ → UInt8) (c d : UInt8) (x : ℕ) (color : UInt32)
    (buf : Bitmap) :
    (putWide hzbuffer (hzposOf c d) x color w h buf).Within (Safe n w h) ↔
      (Glyph.wide c d).InTable ∧ Fits x 24 w h := by
  rw [← pixels_iff_fits (by decide)]
  obtain ⟨k, hk⟩ : ∃ k : ℤ, hzposOf c d = k * 72 := ⟨_, rfl⟩
  unfold putWide
  rw [within_foldlM_iff (P := fun j : ℕ =>
      (0 ≤ k * 72 + j * 3 ∧ k * 72 + j * 3 + 2 < 94 * 94 * 72) ∧
    ∀ m < 24, x + m ≤ w → j ≤ h → x + m < w ∧ j < h)]
  · simp only [List.mem_range, Glyph.InTable, hk]
    constructor
    · intro hall
      refine ⟨?_, fun j hj => (hall j hj).2⟩
      have hfirst := (hall 0 (by decide)).1
      omega
    · rintro ⟨htable, hall⟩ j hj
      exact ⟨by omega, hall j hj⟩
  · intro j hj buf
    have hj := List.mem_range.mp hj
    simp only [within_bind_iff, within_read_iff, hk]
    rw [within_foldlM_iff (P := fun m => x + m ≤ w → j ≤ h → x + m < w ∧ j < h)]
    · simp only [List.mem_range, Safe]
      constructor
      · rintro ⟨h0, h1, h2, hall⟩
        exact ⟨by omega, hall⟩
      · rintro ⟨htable, hall⟩
        exact ⟨by omega, by omega, by omega, hall⟩
    · intro m hm buf
      exact putpixels_within_iff (List.mem_range.mp hm) hj _ _

/-- A line from column `x` is in the bitmap, and its characters are in their tables. -/
def LineFits (gs : List Glyph) (x w h : ℕ) : Prop :=
  gs = [] ∨ (x + lineWidth gs ≤ w ∧ 24 ≤ h ∧ ∀ g ∈ gs, g.InTable)

theorem lineFits_cons {x : ℕ} (hx : x ≤ w) (g : Glyph) (gs : List Glyph) :
    LineFits (g :: gs) x w h ↔
      g.InTable ∧ Fits x g.width w h ∧ LineFits gs (x + g.width) w h := by
  have hwidth : lineWidth (g :: gs) = g.width + lineWidth gs := by simp [lineWidth]
  have hcell : Fits x g.width w h ↔ x + g.width ≤ w ∧ 24 ≤ h := by
    unfold Fits
    omega
  rw [hcell]
  unfold LineFits
  rw [hwidth, List.forall_mem_cons]
  constructor
  · rintro (hnil | ⟨hright, hbottom, htable, hrest⟩)
    · cases hnil
    · exact ⟨htable, ⟨by omega, hbottom⟩, .inr ⟨by omega, hbottom, hrest⟩⟩
  · rintro ⟨htable, ⟨hright, hbottom⟩, rfl | ⟨hline, _, hrest⟩⟩
    · exact .inr ⟨hright, hbottom, htable, fun g hg => nomatch hg⟩
    · exact .inr ⟨by omega, hbottom, htable, hrest⟩

/-- The loop has drawn the characters in front of byte `i` when it is at column `x`. -/
theorem putChars_within_iff (ascbuffer hzbuffer : ℤ → UInt8) (pStr : CString) {llen : ℕ}
    (hllen : llen ≤ pStr.strlen) (color : UInt32) {fuel i x : ℕ} (hfuel : llen ≤ i + fuel)
    (hx : x ≤ w) (buf : Bitmap) :
    (putChars ascbuffer hzbuffer pStr llen color w h fuel i x buf).Within
        (Safe pStr.strlen w h) ↔
      LineFits (glyphs (llen - i) (pStr.bytes.drop i)) x w h := by
  induction fuel generalizing i x buf with
  | zero =>
    rw [Nat.sub_eq_zero_of_le (show llen ≤ i from hfuel)]
    exact iff_of_true (within_pure _) (.inl (glyphs_zero _))
  | succ fuel ih =>
    unfold putChars
    by_cases hi : i < llen
    · have hlt : i < pStr.bytes.length := hi.trans_le hllen
      obtain ⟨n, hn⟩ : ∃ n, llen - i = n + 1 := ⟨llen - i - 1, by omega⟩
      have hc : pStr.charAt i = pStr.bytes[i] := by
        rw [CString.charAt, List.getD_eq_getElem?_getD, List.getElem?_eq_getElem hlt,
          Option.getD_some]
      have hd : pStr.charAt (i + 1) = (pStr.bytes.drop (i + 1)).headD 0 := by
        rw [CString.charAt, List.headD_eq_head?_getD, List.head?_drop, List.getD_eq_getElem?_getD]
      rw [if_pos hi, List.drop_eq_getElem_cons hlt, ← hc, hn, glyphs_cons, ← hd, List.tail_drop,
        within_bind_iff, within_read_iff]
      refine (and_iff_right (show i ≤ pStr.strlen by omega)).trans ?_
      rw [value_read]
      cases hlead : isLead (pStr.charAt i) with
      | true =>
        rw [if_pos rfl, if_pos rfl, within_bind_iff, within_read_iff, within_bind_iff,
          value_read, putWide_within_iff, lineFits_cons hx]
        refine (and_iff_right (show i + 1 ≤ pStr.strlen by omega)).trans ?_
        rw [and_assoc]
        refine and_congr_right fun _ => and_congr_right fun hfits => ?_
        have hright : x + 24 ≤ w := by
          unfold Fits at hfits
          omega
        rw [ih (by omega) hright, show llen - (i + 2) = n - 1 by omega]
        rfl
      | false =>
        rw [if_neg Bool.false_ne_true, if_neg Bool.false_ne_true, within_bind_iff,
          putNarrow_within_iff, lineFits_cons hx]
        refine Iff.trans ?_ (and_iff_right trivial).symm
        refine and_congr_right fun hfits => ?_
        have hright : x + 12 ≤ w := by
          unfold Fits at hfits
          omega
        rw [ih (by omega) hright, show llen - (i + 1) = n by omega]
        rfl
    · rw [if_neg hi, Nat.sub_eq_zero_of_le (not_lt.mp hi)]
      exact iff_of_true (within_pure _) (.inl (glyphs_zero _))

end Accesses

/-- The characters of a text that are drawn. -/
def drawn (txt : CString) : List Glyph := glyphs 40 txt.bytes

theorem drawn_eq_nil {txt : CString} : drawn txt = [] ↔ txt = empty := by
  rw [CString.ext_iff, drawn]
  cases txt.bytes with
  | nil => simp [CString.empty]
  | cons c rest =>
    rw [glyphs_cons]
    cases isLead c <;> simp [CString.empty]

/-- Only the bytes that are there count. -/
theorem glyphs_min (n : ℕ) (bytes : List UInt8) :
    glyphs (min bytes.length n) bytes = glyphs n bytes := by
  induction hlen : bytes.length using Nat.strong_induction_on generalizing n bytes with
  | _ len ih =>
    subst hlen
    match n, bytes with
    | 0, bytes => rw [Nat.min_zero]
    | n + 1, [] => rw [glyphs_nil, glyphs_nil]
    | n + 1, c :: rest =>
      rw [List.length_cons, Nat.succ_min_succ, glyphs_cons, glyphs_cons]
      have htail := ih rest.tail.length (by simp) (n - 1) rest.tail rfl
      have hrest := ih rest.length (by simp) n rest rfl
      have hlen : min rest.length n - 1 = min rest.tail.length (n - 1) := by
        rw [List.length_tail]
        omega
      rw [hlen, htail, hrest]

/-- `PutText` with both fonts. -/
theorem putText_within_iff (ascbuffer hzbuffer : ℤ → UInt8) (txt : CString) (color : UInt32)
    (w h : ℕ) (buf : Bitmap) :
    (JAText.putText ⟨some ascbuffer, some hzbuffer⟩ txt color w h buf).Within
        (Safe txt.strlen w h) ↔ LineFits (drawn txt) 0 w h := by
  unfold JAText.putText
  rw [within_bind_iff, within_readAll_iff, value_readAll,
    putChars_within_iff _ _ _ (min_le_left _ _) _ (by omega) w.zero_le]
  refine (and_iff_right ?_).trans ?_
  · intro place hplace
    obtain ⟨i, hi, rfl⟩ := List.mem_map.mp hplace
    exact Nat.le_of_lt_succ (List.mem_range.mp hi)
  · rw [Nat.sub_zero, List.drop_zero, CString.strlen, glyphs_min]
    rfl

theorem genTextbuffer_within (f : JAText) (txt : CString) (color : UInt32) (w h : ℕ)
    (region : Place → Prop) :
    (f.genTextbuffer (some txt) color w h).Within region ↔
      (f.putText txt color w h fun _ => 0).Within region := by
  unfold JAText.genTextbuffer
  exact within_bind_iff.trans (and_iff_left (within_pure _))

/-- A text is drawn inside its bitmap, each character inside its cell and from its font
table, exactly when there is nothing to draw or the line fits; it is never read past its
terminator. -/
theorem genTextbuffer_within_iff (f : JAText) (txt : CString) (color : UInt32) (w h : ℕ) :
    (f.genTextbuffer (some txt) color w h).Within (Safe txt.strlen w h) ↔
      f.ascbuffer = none ∨ f.hzbuffer = none ∨ txt = empty ∨
        (lineWidth (drawn txt) ≤ w ∧ 24 ≤ h ∧ ∀ g ∈ drawn txt, g.InTable) := by
  rw [genTextbuffer_within]
  rcases f with ⟨_ | ascbuffer, _ | hzbuffer⟩
  · exact iff_of_true (within_pure _) (.inl rfl)
  · exact iff_of_true (within_pure _) (.inl rfl)
  · exact iff_of_true (within_pure _) (.inr (.inl rfl))
  · rw [putText_within_iff, LineFits, drawn_eq_nil, Nat.zero_add]
    simp

/-- `"11111"`. -/
def ones : CString := repeated 5 49 (by decide)

/-- Five characters on a bitmap for four leave it. -/
theorem ones_leave_bitmap :
    ¬ (JAText.genTextbuffer ⟨some fun _ => 0, some fun _ => 0⟩ (some ones) 0xffffffff 48 24).Within
      (Safe ones.strlen 48 24) := by
  rw [genTextbuffer_within, putText_within_iff, LineFits]
  decide

end Jagles.TextRendering
