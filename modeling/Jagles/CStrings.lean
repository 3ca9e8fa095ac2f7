import Mathlib.Tactic

set_option autoImplicit false
set_option linter.dupNamespace false

/-!
# C strings

A C string is the bytes in front of its terminator. `strtok` is the call that is given a
string; what it leaves is the string that the next call with `NULL` goes on with, so that
calling it again and again gives the non-empty pieces between the delimiters, in order.
-/
namespace Jagles.CStrings

@[ext] structure CString where
  bytes : List UInt8
  nonzero : ∀ b ∈ bytes, b ≠ 0

namespace CString

instance : DecidableEq CString := fun s t =>
  decidable_of_iff (s.bytes = t.bytes) CString.ext_iff.symm

def empty : CString := ⟨[], by simp⟩

def strlen (s : CString) : ℕ := s.bytes.length

/-- The byte at an index up to the terminator. -/
def charAt (s : CString) (i : ℕ) : UInt8 := s.bytes.getD i 0

/-- `strchr(s, c) != NULL`, for a `c` that is not the terminator. -/
def strchr (s : CString) (c : UInt8) : Bool := s.bytes.contains c

/-- The same byte `n` times. -/
def repeated (n : ℕ) (c : UInt8) (hc : c ≠ 0) : CString :=
  ⟨List.replicate n c, fun _ hb => List.eq_of_mem_replicate hb ▸ hc⟩

/-- Bytes taken from a string. -/
def sub (s : CString) (bytes : List UInt8) (h : bytes ⊆ s.bytes) : CString :=
  ⟨bytes, fun b hb => s.nonzero b (h hb)⟩

/-- `s`, the byte `c`, then `t`. -/
def join (s : CString) (c : UInt8) (hc : c ≠ 0) (t : CString) : CString where
  bytes := s.bytes ++ c :: t.bytes
  nonzero := by
    intro b hb
    rcases List.mem_append.mp hb with hs | ht
    · exact s.nonzero b hs
    · rcases List.mem_cons.mp ht with rfl | ht
      · exact hc
      · exact t.nonzero b ht

end CString

/-- What stops a program on strings: a pointer that is `NULL`, a string that is too long for
the array it goes to. -/
inductive Fault
  | null
  | overflow
  deriving DecidableEq

/-- `strcpy` into an array of `size` bytes. -/
def strcpy (size : ℕ) (s : CString) : Except Fault CString :=
  if s.strlen < size then .ok s else .error .overflow

/-- The first non-empty piece in front of a delimiter, and what is behind that delimiter. -/
def firstPiece (delim : UInt8) (bytes : List UInt8) : List UInt8 :=
  (bytes.dropWhile (· == delim)).takeWhile (· != delim)

def afterPiece (delim : UInt8) (bytes : List UInt8) : List UInt8 :=
  ((bytes.dropWhile (· == delim)).dropWhile (· != delim)).tail

theorem firstPiece_subset (delim : UInt8) (bytes : List UInt8) :
    firstPiece delim bytes ⊆ bytes :=
  ((List.takeWhile_sublist _).trans (List.dropWhile_sublist _)).subset

theorem afterPiece_subset (delim : UInt8) (bytes : List UInt8) :
    afterPiece delim bytes ⊆ bytes :=
  ((List.tail_sublist _).trans
    ((List.dropWhile_sublist _).trans (List.dropWhile_sublist _))).subset

/-- `strtok(s, delim)` with a single delimiter: the token and what is left. -/
def CString.strtok (s : CString) (delim : UInt8) : Option (CString × CString) :=
  if s.bytes.dropWhile (· == delim) = [] then none
  else some
    (s.sub (firstPiece delim s.bytes) (firstPiece_subset delim s.bytes),
      s.sub (afterPiece delim s.bytes) (afterPiece_subset delim s.bytes))

open CString

def isSpace (c : UInt8) : Bool := c == 32 || 9 ≤ c && c ≤ 13

def isDigit (c : UInt8) : Bool := 48 ≤ c && c ≤ 57

/-- The number that the digits in front of the first other byte spell. -/
def digitsValue (value : ℕ) : List UInt8 → ℕ
  | [] => value
  | c :: cs => if isDigit c then digitsValue (10 * value + (c.toNat - 48)) cs else value

/-- `atoi`, for a number that fits an `int`. -/
def atoi (s : CString) : ℤ :=
  match s.bytes.dropWhile isSpace with
  | [] => 0
  | c :: cs =>
    if c = 45 then -(digitsValue 0 cs : ℤ)
    else if c = 43 then digitsValue 0 cs
    else digitsValue 0 (c :: cs)

/-- A number other than 0 as `%d` prints it. -/
def decimalBytes (n : ℕ) : List UInt8 := (Nat.digits 10 n).reverse.map fun d => UInt8.ofNat (48 + d)

@[simp] theorem strlen_repeated (n : ℕ) (c : UInt8) (hc : c ≠ 0) :
    (repeated n c hc).strlen = n := List.length_replicate

/-! ## Tokens -/

/-- The non-empty pieces between the delimiters. -/
def pieces (delim : UInt8) (bytes : List UInt8) : List (List UInt8) :=
  (bytes.splitOn delim).filter (· ≠ [])

section Pieces
variable {delim : UInt8}

@[simp] theorem pieces_nil : pieces delim [] = [] := by simp [pieces]

theorem pieces_delim (bytes : List UInt8) : pieces delim (delim :: bytes) = pieces delim bytes := by
  simp [pieces, List.splitOn_cons_eq_if_modifyHead]

/-- Delimiters in front are skipped. -/
theorem pieces_dropWhile (bytes : List UInt8) :
    pieces delim (bytes.dropWhile (· == delim)) = pieces delim bytes := by
  induction bytes with
  | nil => rfl
  | cons c bytes ih =>
    rw [List.dropWhile_cons]
    split
    · rename_i hc
      rw [ih, beq_iff_eq.mp hc, pieces_delim]
    · rfl

theorem pieces_word {word : List UInt8} (hne : word ≠ []) (hword : delim ∉ word) :
    pieces delim word = [word] := by
  rw [pieces, List.splitOn_eq_singleton hword]
  simp [hne]

theorem pieces_word_delim {word : List UInt8} (hne : word ≠ []) (hword : delim ∉ word)
    (rest : List UInt8) : pieces delim (word ++ delim :: rest) = word :: pieces delim rest := by
  rw [pieces, List.splitOn_append_cons_self_of_not_mem hword]
  simp [hne, pieces]

theorem not_mem_takeWhile_ne (bytes : List UInt8) : delim ∉ bytes.takeWhile (· != delim) := by
  intro hmem
  have hall := List.all_takeWhile (p := (· != delim)) (l := bytes)
  have := List.all_eq_true.mp hall delim hmem
  simp at this

/-- A string is delimiters, or its first piece stands in front of the others. -/
theorem pieces_eq (bytes : List UInt8) : pieces delim bytes =
    if bytes.dropWhile (· == delim) = [] then []
    else firstPiece delim bytes :: pieces delim (afterPiece delim bytes) := by
  rw [← pieces_dropWhile bytes]
  unfold firstPiece afterPiece
  have hhead := List.head?_dropWhile_not (· == delim) bytes
  generalize bytes.dropWhile (· == delim) = rest at hhead
  cases rest with
  | nil => simp
  | cons c rest =>
    have hc : (c != delim) = true := by simpa using hhead
    have hword : (c :: rest).takeWhile (· != delim) ≠ [] := by
      rw [List.takeWhile_cons, if_pos hc]
      exact List.cons_ne_nil _ _
    have hfree : delim ∉ (c :: rest).takeWhile (· != delim) := not_mem_takeWhile_ne (c :: rest)
    have hsplit := List.takeWhile_append_dropWhile (p := (· != delim)) (l := c :: rest)
    have hafter := List.head?_dropWhile_not (· != delim) (c :: rest)
    rw [if_neg (List.cons_ne_nil _ _)]
    generalize (c :: rest).takeWhile (· != delim) = word at hword hfree hsplit
    generalize (c :: rest).dropWhile (· != delim) = after at hsplit hafter
    rw [← hsplit]
    cases after with
    | nil => rw [List.append_nil, pieces_word hword hfree, List.tail_nil, pieces_nil]
    | cons d after =>
      have hd : d = delim := by simpa using hafter
      rw [hd, pieces_word_delim hword hfree, List.tail_cons]

theorem strcpy_eq_ok {size : ℕ} {s t : CString} :
    strcpy size s = .ok t ↔ s.strlen < size ∧ s = t := by
  unfold strcpy
  split <;> simp [*]

theorem pieces_append_delim {word : List UInt8} (hword : delim ∉ word) (rest : List UInt8) :
    pieces delim (word ++ delim :: rest) =
      if word = [] then pieces delim rest else word :: pieces delim rest := by
  split
  · rename_i h
    rw [h, List.nil_append, pieces_delim]
  · rename_i h
    exact pieces_word_delim h hword rest

theorem ne_nil_of_mem_pieces {bytes word : List UInt8} (h : word ∈ pieces delim bytes) :
    word ≠ [] := by
  simpa using (List.mem_filter.mp h).2

/-- The first piece is no longer than the string. -/
theorem length_le_of_pieces_eq_cons {bytes word : List UInt8} {words : List (List UInt8)}
    (h : pieces delim bytes = word :: words) : word.length ≤ bytes.length := by
  rw [pieces_eq] at h
  split at h
  · cases h
  · obtain ⟨rfl, _⟩ := List.cons.inj h
    exact ((List.takeWhile_sublist _).trans (List.dropWhile_sublist _)).length_le

theorem strtok_eq_none {s : CString} : s.strtok delim = none ↔ pieces delim s.bytes = [] := by
  rw [pieces_eq, CString.strtok]
  split <;> simp

/-- What `strtok` gives is the first piece, and the pieces of what it leaves are the others. -/
theorem strtok_eq_some {s t rest : CString} (h : s.strtok delim = some (t, rest)) :
    pieces delim s.bytes = t.bytes :: pieces delim rest.bytes := by
  unfold CString.strtok at h
  split at h
  · cases h
  · rename_i hrest
    obtain ⟨rfl, rfl⟩ := Prod.mk.inj (Option.some.inj h)
    rw [pieces_eq, if_neg hrest]
    rfl

theorem exists_strtok {s : CString} {word : List UInt8} {words : List (List UInt8)}
    (h : pieces delim s.bytes = word :: words) :
    ∃ t rest, s.strtok delim = some (t, rest) ∧ t.bytes = word ∧
      pieces delim rest.bytes = words := by
  cases hs : s.strtok delim with
  | none =>
    rw [strtok_eq_none.mp hs] at h
    cases h
  | some found =>
    obtain ⟨t, rest⟩ := found
    have hpieces := strtok_eq_some hs
    rw [h] at hpieces
    obtain ⟨hbytes, hwords⟩ := List.cons.inj hpieces
    exact ⟨t, rest, rfl, hbytes.symm, hwords.symm⟩

theorem not_mem_firstPiece (bytes : List UInt8) : delim ∉ firstPiece delim bytes :=
  not_mem_takeWhile_ne _

/-- A string is its first piece when it has no delimiter. -/
theorem headD_pieces_eq_self {bytes : List UInt8} :
    (pieces delim bytes).headD [] = bytes ↔ delim ∉ bytes := by
  constructor
  · intro h
    rw [pieces_eq] at h
    split at h
    · rw [← h]
      exact List.not_mem_nil
    · rw [← h]
      exact not_mem_firstPiece bytes
  · intro h
    by_cases hne : bytes = []
    · rw [hne, pieces_nil, List.headD_nil]
    · rw [pieces_word hne h, List.headD_cons]

end Pieces

/-! ## Numbers -/

theorem isDigit_ofNat {d : ℕ} (h : d < 10) :
    isDigit (UInt8.ofNat (48 + d)) = true ∧ (UInt8.ofNat (48 + d)).toNat - 48 = d := by
  interval_cases d <;> decide

theorem digitsValue_eq_foldl (value : ℕ) {cs : List UInt8} (h : ∀ c ∈ cs, isDigit c = true) :
    digitsValue value cs = cs.foldl (fun v c => 10 * v + (c.toNat - 48)) value := by
  induction cs generalizing value with
  | nil => rfl
  | cons c cs ih =>
    rw [digitsValue, if_pos (h c List.mem_cons_self), List.foldl_cons]
    exact ih _ fun d hd => h d (List.mem_cons_of_mem c hd)

theorem isDigit_decimalBytes (n : ℕ) : ∀ c ∈ decimalBytes n, isDigit c = true := by
  intro c hc
  obtain ⟨d, hd, rfl⟩ := List.mem_map.mp hc
  exact (isDigit_ofNat (Nat.digits_lt_base (by decide) (List.mem_reverse.mp hd))).1

theorem digitsValue_decimalBytes (n : ℕ) : digitsValue 0 (decimalBytes n) = n := by
  have hfold : ∀ ds : List ℕ, (∀ d ∈ ds, d < 10) →
      (ds.reverse.map fun d => UInt8.ofNat (48 + d)).foldl (fun v c => 10 * v + (c.toNat - 48)) 0 =
        Nat.ofDigits 10 ds := by
    intro ds hds
    induction ds with
    | nil => rfl
    | cons d ds ih =>
      obtain ⟨hd, hrest⟩ := List.forall_mem_cons.mp hds
      rw [List.reverse_cons, List.map_append, List.foldl_append, ih hrest, List.map_singleton,
        List.foldl_cons, List.foldl_nil, (isDigit_ofNat hd).2, Nat.ofDigits_cons]
      omega
  rw [digitsValue_eq_foldl 0 (isDigit_decimalBytes n), decimalBytes,
    hfold _ fun d hd => Nat.digits_lt_base (by decide) hd, Nat.ofDigits_digits]

theorem decimalBytes_ne_nil {n : ℕ} (h : n ≠ 0) : decimalBytes n ≠ [] := by
  simp only [decimalBytes, ne_eq, List.map_eq_nil_iff, List.reverse_eq_nil_iff]
  exact Nat.digits_ne_nil_iff_ne_zero.mpr h

/-- A digit is neither a blank nor a sign. -/
theorem isDigit_iff {c : UInt8} : isDigit c = true ↔ 48 ≤ c.toNat ∧ c.toNat ≤ 57 := by
  simp [isDigit, UInt8.le_iff_toNat_le]

theorem isSpace_of_isDigit {c : UInt8} (h : isDigit c = true) : isSpace c = false := by
  obtain ⟨hlow, _⟩ := isDigit_iff.mp h
  have hblank : c ≠ 32 := by
    rintro rfl
    exact absurd hlow (by decide)
  have hcontrol : ¬ c.toNat ≤ 13 := by omega
  simp [isSpace, hblank, UInt8.le_iff_toNat_le, hcontrol]

theorem ne_zero_of_isDigit {c : UInt8} (h : isDigit c = true) : c ≠ 0 := by
  rintro rfl
  exact absurd h (by decide)

/-- A number other than 0 as a string. -/
def decimal (n : ℕ) : CString :=
  ⟨decimalBytes n, fun c hc => ne_zero_of_isDigit (isDigit_decimalBytes n c hc)⟩

/-- A number is read back from its digits. -/
theorem atoi_decimalBytes {s : CString} {n : ℕ} (h : s.bytes = decimalBytes n) : atoi s = n := by
  have hdigits := isDigit_decimalBytes n
  have hvalue := digitsValue_decimalBytes n
  rw [← h] at hdigits hvalue
  unfold atoi
  cases hs : s.bytes with
  | nil =>
    rw [hs] at hvalue
    exact congrArg Nat.cast hvalue
  | cons c cs =>
    rw [hs] at hdigits hvalue
    have hc := hdigits c List.mem_cons_self
    have hlow := (isDigit_iff.mp hc).1
    have hminus : c ≠ 45 := by
      rintro rfl
      exact absurd hlow (by decide)
    have hplus : c ≠ 43 := by
      rintro rfl
      exact absurd hlow (by decide)
    rw [List.dropWhile_cons, if_neg (by simp [isSpace_of_isDigit hc])]
    dsimp only
    rw [if_neg hminus, if_neg hplus, hvalue]

end Jagles.CStrings
