import Jagles.Json

set_option autoImplicit false
set_option linter.dupNamespace false

/-!
# JSON text put together from pieces

A string concatenation has literal pieces and holes for strings, integers and truth values.
A template is read like JSON text, each hole being a leaf. If that succeeds, the text for
given values is read as the tree with these values at the leaves exactly when the strings
need no escaping.
-/
namespace Jagles.Json

/-! ## Values as text -/

def decimalNat (n : ℕ) : Text := if n = 0 then [48] else (Nat.digits 10 n).reverse.map (48 + ·)

def decimal (z : ℤ) : Text := if z < 0 then 45 :: decimalNat z.natAbs else decimalNat z.natAbs

def boolText (b : Bool) : Text := if b then text "true" else text "false"

/-- No quotation mark, no backslash and no control character. -/
def Plain (t : Text) : Prop := ∀ c ∈ t, 32 ≤ c ∧ c ≠ 34 ∧ c ≠ 92

instance (t : Text) : Decidable (Plain t) := inferInstanceAs (Decidable (∀ c ∈ t, _))

/-! ## Pieces -/

inductive Piece (S I B : Type) where
  | lit (s : String)
  | str (s : S)
  | int (z : I)
  | bool (b : B)

def strings {S I B : Type} (pieces : List (Piece S I B)) : List S :=
  pieces.filterMap fun
    | .str s => some s
    | _ => none

theorem mem_strings {S I B : Type} {pieces : List (Piece S I B)} {s : S} :
    s ∈ strings pieces ↔ .str s ∈ pieces := by
  simp only [strings, List.mem_filterMap]
  constructor
  · rintro ⟨x, hx, heq⟩
    cases x with
    | str t => exact Option.some.inj heq ▸ hx
    | lit t | int z | bool b => cases heq
  · exact fun h => ⟨_, h, rfl⟩

def Piece.text : Piece Text ℤ Bool → Text
  | .lit s => Json.text s
  | .str t => t
  | .int z => decimal z
  | .bool b => boolText b

def concat (pieces : List (Piece Text ℤ Bool)) : Text := pieces.flatMap Piece.text

theorem concat_append (xs ys : List (Piece Text ℤ Bool)) :
    concat (xs ++ ys) = concat xs ++ concat ys := List.flatMap_append

/-- A leaf, or a value that stands for one; `intText` is a string that holds an integer. -/
inductive Slot (S I B : Type) where
  | lit (l : Leaf)
  | str (s : S)
  | int (z : I)
  | bool (b : B)
  | intText (z : I)
  deriving DecidableEq

def Slot.leaf : Slot Text ℤ Bool → Leaf
  | .lit l => l
  | .str t => .str t
  | .int z => .num (decimal z)
  | .bool b => .bool b
  | .intText z => .str (decimal z)

/-- Holes are numbered. -/
structure Env where
  str : ℕ → Text
  int : ℕ → ℤ
  bool : ℕ → Bool

def Piece.fill (e : Env) : Piece ℕ ℕ ℕ → Piece Text ℤ Bool
  | .lit s => .lit s
  | .str i => .str (e.str i)
  | .int i => .int (e.int i)
  | .bool i => .bool (e.bool i)

def Slot.fill (e : Env) : Slot ℕ ℕ ℕ → Slot Text ℤ Bool
  | .lit l => .lit l
  | .str i => .str (e.str i)
  | .int i => .int (e.int i)
  | .bool i => .bool (e.bool i)
  | .intText i => .intText (e.int i)

/-! ## Reading a template -/

inductive Sym where
  | unit (c : ℕ)
  | str (i : ℕ)
  | int (i : ℕ)
  | bool (i : ℕ)

def Piece.symbols : Piece ℕ ℕ ℕ → List Sym
  | .lit s => (Json.text s).map .unit
  | .str i => [.str i]
  | .int i => [.int i]
  | .bool i => [.bool i]

/-- `quoted` and `bare` stand after a hole. -/
inductive TControl where
  | plain (p : Control)
  | quoted (x : Slot ℕ ℕ ℕ)
  | bare (x : Slot ℕ ℕ ℕ)
  deriving DecidableEq

def isTerminator (c : ℕ) : Bool := isSpace c || c = 44 || c = 125 || c = 93

abbrev TOutcome := TControl × Stack × List (Token (Slot ℕ ℕ ℕ))

def lift : Outcome → TOutcome
  | (p, st, o) => (.plain p, st, o.map (Token.map .lit))

/-- A string hole fills its string; the other holes may also stand for a value. -/
def tstep (p : TControl) (st : Stack) (s : Sym) : Option TOutcome :=
  match p, s with
  | .plain p, .unit c => (step p st c).map lift
  | .plain (.string false []), .str i => some (.quoted (.str i), st, [])
  | .plain (.string false []), .int i => some (.quoted (.intText i), st, [])
  | .plain .value, .int i => some (.bare (.int i), st, [])
  | .plain .value, .bool i => some (.bare (.bool i), st, [])
  | .quoted x, .unit 34 => some (.plain .comma, st, [.leaf x])
  | .bare x, .unit c =>
    if isTerminator c then
      (step .comma st c).map fun q => ((lift q).1, (lift q).2.1, .leaf x :: (lift q).2.2)
    else none
  | _, _ => none

def ttokens (p : TControl) (st : Stack) : List Sym → Option (List (Token (Slot ℕ ℕ ℕ)))
  | [] => if p = .plain .comma ∧ st = [] then some [] else none
  | s :: ss => (tstep p st s).bind fun (p', st', o) => (ttokens p' st' ss).map (o ++ ·)

/-- The template is read as the tree. -/
def Reads (pieces : List (Piece ℕ ℕ ℕ)) (t : Value (Slot ℕ ℕ ℕ)) : Prop :=
  ttokens (.plain .value) [] (pieces.flatMap Piece.symbols) = some t.tokens

instance (pieces : List (Piece ℕ ℕ ℕ)) (t : Value (Slot ℕ ℕ ℕ)) : Decidable (Reads pieces t) :=
  inferInstanceAs (Decidable (_ = _))

/-! ## Strings -/

theorem tokensFrom_plain {t : Text} (h : Plain t) (k : Bool) (acc : Text) (st : Stack) (r : Text) :
    tokensFrom (.string k acc) st (t ++ r) = tokensFrom (.string k (acc ++ t)) st r := by
  induction t generalizing acc with
  | nil => simp
  | cons c cs ih =>
    obtain ⟨hlow, hquote, hback⟩ := h c List.mem_cons_self
    have hstep : step (.string k acc) st c = some (.string k (acc ++ [c]), st, []) := by
      simp [step, hquote, hback, Nat.not_lt.mpr hlow]
    rw [List.cons_append, tokensFrom_silent hstep, ih (fun d hd => h d (List.mem_cons_of_mem _ hd)) (acc ++ [c])]
    simp

theorem tokensFrom_quote (acc : Text) (st : Stack) (r : Text) :
    tokensFrom (.string false acc) st (34 :: r) =
      (tokensFrom .comma st r).map (.leaf (.str acc) :: ·) := by
  simp [tokensFrom, step]

/-- What is read to get one unit of a string. -/
inductive Item : Text → ℕ → Prop where
  | plain (c : ℕ) (h : 32 ≤ c ∧ c ≠ 34 ∧ c ≠ 92) : Item [c] c
  | escaped (c d : ℕ) (h : escaped c = some d) : Item [92, c] d
  | unicode (hs : Text) (d : ℕ) (hlen : hs.length = 4) (h : ∀ c ∈ hs, c ≠ 34) :
      Item (92 :: 117 :: hs) d

/-- Units as they stand in a text, and the string they are read as. -/
inductive Items : Text → Text → Prop where
  | nil : Items [] []
  | cons {chunk raw v : Text} {d : ℕ} (h : Item chunk d) (tail : Items raw v) :
      Items (chunk ++ raw) (d :: v)

theorem Items.length_le {raw v : Text} (h : Items raw v) : v.length ≤ raw.length := by
  induction h with
  | nil => exact le_rfl
  | cons h tail ih => cases h <;> simp <;> omega

/-- Without escapes a string stands in the text as it is. -/
theorem Items.plain_of_length {raw v : Text} (h : Items raw v) (hlen : raw.length ≤ v.length) :
    raw = v ∧ Plain v := by
  induction h with
  | nil => exact ⟨rfl, fun c hc => by cases hc⟩
  | cons h tail ih =>
    have hle := tail.length_le
    cases h with
    | plain c hc =>
      obtain ⟨rfl, hv⟩ := ih (by simpa using hlen)
      exact ⟨rfl, fun d hd => (List.mem_cons.mp hd).elim (fun heq => heq ▸ hc) (hv d)⟩
    | escaped c d hd => simp at hlen; omega
    | unicode hs d hfour hc => simp at hlen; omega

/-- A quotation mark inside a string stands behind a backslash, so that it comes earlier in
the string than in the text. -/
theorem Items.quote {raw v : Text} (h : Items raw v) {p q : Text} (hraw : raw = p ++ 34 :: q) :
    ∃ p' q', v = p' ++ 34 :: q' ∧ p'.length < p.length := by
  induction h generalizing p with
  | nil => simp at hraw
  | @cons chunk raw v d h tail ih =>
    cases h with
    | plain c hc =>
      cases p with
      | nil =>
        obtain ⟨rfl, -⟩ := List.cons.inj hraw
        exact absurd rfl hc.2.1
      | cons x p =>
        obtain ⟨-, hrest⟩ := List.cons.inj hraw
        obtain ⟨p', q', rfl, hlt⟩ := ih hrest
        exact ⟨d :: p', q', rfl, by simpa using hlt⟩
    | escaped c d hd =>
      match p, hraw with
      | [], hraw => simp at hraw
      | [x], hraw =>
        obtain ⟨-, hrest⟩ := List.cons.inj hraw
        obtain ⟨rfl, -⟩ := List.cons.inj hrest
        obtain rfl : d = 34 := by simpa [Json.escaped] using hd.symm
        exact ⟨[], v, rfl, by simp⟩
      | x :: y :: p, hraw =>
        obtain ⟨-, hrest⟩ := List.cons.inj hraw
        obtain ⟨-, hrest⟩ := List.cons.inj hrest
        obtain ⟨p', q', rfl, hlt⟩ := ih hrest
        exact ⟨d :: p', q', rfl, by simp; omega⟩
    | unicode hs d hfour hc =>
      match p, hraw with
      | [], hraw => simp at hraw
      | [x], hraw => simp at hraw
      | x :: y :: p, hraw =>
        obtain ⟨-, hrest⟩ := List.cons.inj hraw
        obtain ⟨-, hrest⟩ := List.cons.inj hrest
        rcases List.append_eq_append_iff.mp hrest with ⟨m, rfl, hm⟩ | ⟨m, rfl, hm⟩
        · obtain ⟨p', q', rfl, hlt⟩ := ih hm
          exact ⟨d :: p', q', rfl, by simp; omega⟩
        · cases m with
          | nil =>
            obtain ⟨p', q', rfl, hlt⟩ := ih (p := []) hm.symm
            simp at hlt
          | cons z m =>
            obtain ⟨rfl, -⟩ := List.cons.inj hm
            exact absurd rfl (hc 34 (by simp))

theorem unicode_items {k : Bool} {acc : Text} {st : Stack} {t : Text} {n count : ℕ}
    {o : List (Token Leaf)} (hcount : count ≤ 3)
    (h : tokensFrom (.unicode k acc n count) st t = some o) :
    ∃ hs d r, t = hs ++ r ∧ hs.length = 4 - count ∧ (∀ c ∈ hs, c ≠ 34) ∧
      tokensFrom (.string k (acc ++ [d])) st r = some o := by
  induction t generalizing n count with
  | nil => cases st <;> simp [tokensFrom, finish] at h
  | cons c cs ih =>
    obtain ⟨q, hq, hrest⟩ := Option.bind_eq_some_iff.mp h
    obtain ⟨d, hd, hq⟩ := Option.map_eq_some_iff.mp hq
    have hne : c ≠ 34 := by
      rintro rfl
      simp [hexDigit, isDigit] at hd
    split at hq
    · rename_i hthree
      subst hq hthree
      exact ⟨[c], 16 * n + d, cs, rfl, rfl, by simpa using hne, by simpa using hrest⟩
    · rename_i hthree
      subst hq
      have hnext : tokensFrom (.unicode k acc (16 * n + d) (count + 1)) st cs = some o := by
        simpa using hrest
      obtain ⟨hs, d', r, rfl, hlen, hquote, htail⟩ := ih (by omega) hnext
      refine ⟨c :: hs, d', r, rfl, by simp; omega, ?_, htail⟩
      intro x hx
      exact (List.mem_cons.mp hx).elim (fun heq => heq ▸ hne) (hquote x)

/-- A string that is read stands in the text up to a quotation mark. -/
theorem string_items {acc : Text} {st : Stack} {t : Text} {o : List (Token Leaf)}
    (h : tokensFrom (.string false acc) st t = some o) :
    ∃ raw v r o', t = raw ++ 34 :: r ∧ Items raw v ∧ o = .leaf (.str (acc ++ v)) :: o' ∧
      tokensFrom .comma st r = some o' := by
  induction hn : t.length using Nat.strong_induction_on generalizing acc t with
  | _ n ih =>
  cases t with
  | nil => cases st <;> simp [tokensFrom, finish] at h
  | cons c cs =>
    by_cases hquote : c = 34
    · subst hquote
      rw [tokensFrom_quote] at h
      obtain ⟨o', ho', rfl⟩ := Option.map_eq_some_iff.mp h
      exact ⟨[], [], cs, o', rfl, .nil, by simp, ho'⟩
    · by_cases hback : c = 92
      · subst hback
        have hesc : tokensFrom (.escape false acc) st cs = some o := by
          simpa [tokensFrom, step] using h
        cases cs with
        | nil => cases st <;> simp [tokensFrom, finish] at hesc
        | cons e cs =>
          by_cases hu : e = 117
          · subst hu
            have huni : tokensFrom (.unicode false acc 0 0) st cs = some o := by
              simpa [tokensFrom, step] using hesc
            obtain ⟨hs, d, r, rfl, hlen, hne, hrest⟩ := unicode_items (by omega) huni
            obtain ⟨raw, v, r', o', rfl, hitems, ho, htail⟩ := ih _ (by simp [← hn]; omega) hrest rfl
            exact ⟨(92 :: 117 :: hs) ++ raw, d :: v, r', o', by simp,
              .cons (.unicode hs d hlen hne) hitems, by simpa using ho, htail⟩
          · obtain ⟨q, hq, hrest⟩ := Option.bind_eq_some_iff.mp hesc
            simp only [step, if_neg hu] at hq
            obtain ⟨d, hd, rfl⟩ := Option.map_eq_some_iff.mp hq
            have hnext : tokensFrom (.string false (acc ++ [d])) st cs = some o := by
              simpa using hrest
            obtain ⟨raw, v, r', o', rfl, hitems, ho, htail⟩ := ih _ (by simp [← hn]) hnext rfl
            exact ⟨[92, e] ++ raw, d :: v, r', o', rfl, .cons (.escaped e d hd) hitems,
              by simpa using ho, htail⟩
      · by_cases hlow : c < 32
        · simp [tokensFrom, step, hquote, hback, hlow] at h
        · have hnext : tokensFrom (.string false (acc ++ [c])) st cs = some o := by
            simpa [tokensFrom, step, hquote, hback, hlow] using h
          obtain ⟨raw, v, r', o', rfl, hitems, ho, htail⟩ := ih _ (by simp [← hn]) hnext rfl
          exact ⟨[c] ++ raw, c :: v, r', o', rfl,
            .cons (.plain c ⟨by omega, hquote, hback⟩) hitems, by simpa using ho, htail⟩

/-- A string that is read as it stands in the text needs no escaping. -/
theorem plain_of_items {t raw r r' : Text} (h : Items raw t) (htext : t ++ 34 :: r = raw ++ 34 :: r') :
    Plain t := by
  by_contra hplain
  have hlt : t.length < raw.length := by
    by_contra hle
    exact hplain (h.plain_of_length (by omega)).2
  obtain ⟨q, hq⟩ : ∃ q, raw = t ++ 34 :: q := by
    rcases List.append_eq_append_iff.mp htext with ⟨m, hm, htail⟩ | ⟨m, hm, -⟩
    · cases m with
      | nil =>
        rw [hm] at hlt
        simp at hlt
      | cons x m =>
        obtain ⟨rfl, -⟩ := List.cons.inj htail
        exact ⟨m, hm⟩
    · rw [hm] at hlt
      simp at hlt
  -- a quotation mark in the text has an earlier one in the string, which stands in the text
  have hnone : ∀ n (p q : Text), p.length = n → raw ≠ p ++ 34 :: q := by
    intro n
    induction n using Nat.strong_induction_on with
    | _ n ih =>
      intro p s hp hraw
      obtain ⟨p', q', ht, hshort⟩ := h.quote hraw
      refine ih p'.length (hp ▸ hshort) p' (q' ++ 34 :: q) rfl ?_
      rw [hq, ht]
      simp
  exact hnone t.length t q rfl hq

theorem tokensFrom_string {t : Text} {st : Stack} {r : Text} {o : List (Token Leaf)} :
    tokensFrom (.string false []) st (t ++ 34 :: r) = some (.leaf (.str t) :: o) ↔
      Plain t ∧ tokensFrom .comma st r = some o := by
  constructor
  · intro h
    obtain ⟨raw, v, r', o', htext, hitems, ho, htail⟩ := string_items h
    obtain ⟨hv, rfl⟩ := List.cons.inj ho
    obtain rfl : t = v := by simpa using hv
    have hplain := plain_of_items hitems htext
    refine ⟨hplain, ?_⟩
    rw [tokensFrom_plain hplain, List.nil_append, tokensFrom_quote] at h
    obtain ⟨o'', ho'', heq⟩ := Option.map_eq_some_iff.mp h
    obtain ⟨-, rfl⟩ := List.cons.inj heq
    exact ho''
  · rintro ⟨hplain, htail⟩
    rw [tokensFrom_plain hplain, List.nil_append, tokensFrom_quote, htail]
    rfl

/-! ## Numbers and words -/

theorem numberFrom_digits {p : NumberAt} (hp : p = .digits) (ds : Text)
    (h : ∀ c ∈ ds, isDigit c = true) : numberFrom p ds = true := by
  subst hp
  induction ds with
  | nil => rfl
  | cons c cs ih =>
    have hc := h c List.mem_cons_self
    simp only [numberFrom, NumberAt.next, if_pos hc, Option.any_some]
    exact ih fun d hd => h d (List.mem_cons_of_mem _ hd)

theorem isDigit_digit {d : ℕ} (h : d < 10) : isDigit (48 + d) = true := by
  simp [isDigit]
  omega

/-- A positive number has a first digit other than 0. -/
theorem decimalNat_cons {n : ℕ} (hn : n ≠ 0) :
    ∃ d ds, decimalNat n = (48 + d) :: ds ∧ 0 < d ∧ d < 10 ∧ ∀ c ∈ ds, isDigit c = true := by
  have hne : Nat.digits 10 n ≠ [] := Nat.digits_ne_nil_iff_ne_zero.mpr hn
  have hlast := Nat.getLast_digit_ne_zero 10 hn
  have hlt : ∀ d ∈ Nat.digits 10 n, d < 10 := fun d hd => Nat.digits_lt_base (by omega) hd
  refine ⟨(Nat.digits 10 n).getLast hne, ((Nat.digits 10 n).dropLast.reverse).map (48 + ·), ?_,
    by omega, hlt _ (List.getLast_mem hne), ?_⟩
  · simp only [decimalNat, if_neg hn]
    conv_lhs => rw [← List.dropLast_append_getLast hne]
    simp
  · intro c hc
    obtain ⟨d, hd, rfl⟩ := List.mem_map.mp hc
    exact isDigit_digit (hlt d (List.dropLast_subset _ (List.mem_reverse.mp hd)))

theorem numberFrom_decimalNat {p : NumberAt} (hp : p = .start ∨ p = .minus) (n : ℕ) :
    numberFrom p (decimalNat n) = true := by
  by_cases hn : n = 0
  · rcases hp with rfl | rfl <;> simp [decimalNat, hn, numberFrom, NumberAt.next, NumberAt.complete]
  · obtain ⟨d, ds, heq, hpos, hten, hds⟩ := decimalNat_cons hn
    have hnext : p.next (48 + d) = some .digits := by
      rcases hp with rfl | rfl
      · simp [NumberAt.next, isDigit_digit hten, hpos.ne', show 48 + d ≠ 45 by omega]
      · simp [NumberAt.next, isDigit_digit hten, hpos.ne']
    rw [heq]
    simp only [numberFrom, hnext, Option.any_some]
    exact numberFrom_digits rfl ds hds

theorem readNumber_decimal (z : ℤ) : readNumber (decimal z) = some (.num (decimal z)) := by
  have hnum : numberFrom .start (decimal z) = true := by
    unfold decimal
    split
    · simp only [numberFrom, NumberAt.next, if_true, Option.any_some]
      exact numberFrom_decimalNat (.inr rfl) _
    · exact numberFrom_decimalNat (.inl rfl) _
  simp [readNumber, hnum]

theorem isDigit_of_mem_decimalNat {n c : ℕ} (h : c ∈ decimalNat n) : isDigit c = true := by
  by_cases hn : n = 0
  · obtain rfl : c = 48 := by simpa [decimalNat, hn] using h
    rfl
  · obtain ⟨d, ds, heq, -, hten, hds⟩ := decimalNat_cons hn
    rw [heq] at h
    exact (List.mem_cons.mp h).elim (fun h => h ▸ isDigit_digit hten) (hds c)

theorem decimal_cons (z : ℤ) : ∃ c cs, decimal z = c :: cs ∧ (isDigit c = true ∨ c = 45) ∧
    ∀ d ∈ cs, isDigit d = true := by
  unfold decimal
  split
  · exact ⟨45, _, rfl, .inr rfl, fun d hd => isDigit_of_mem_decimalNat hd⟩
  · cases hd : decimalNat z.natAbs with
    | nil =>
      have hne : decimalNat z.natAbs ≠ [] := by
        unfold decimalNat
        split
        · simp
        · rename_i hz
          simpa [Nat.digits_ne_nil_iff_ne_zero] using hz
      exact absurd hd hne
    | cons c cs =>
      refine ⟨c, cs, rfl, .inl ?_, fun d h => ?_⟩
      · exact isDigit_of_mem_decimalNat (n := z.natAbs) (by rw [hd]; exact List.mem_cons_self)
      · exact isDigit_of_mem_decimalNat (n := z.natAbs) (by rw [hd]; exact List.mem_cons_of_mem _ h)

theorem bounds_of_isDigit {c : ℕ} (h : isDigit c = true) : 48 ≤ c ∧ c ≤ 57 := by
  simpa [isDigit] using h

theorem plain_decimal (z : ℤ) : Plain (decimal z) := by
  obtain ⟨c, cs, heq, hc, hcs⟩ := decimal_cons z
  rw [heq]
  intro d hd
  rcases List.mem_cons.mp hd with rfl | hd
  · rcases hc with hc | rfl
    · have hb := bounds_of_isDigit hc
      omega
    · omega
  · have hb := bounds_of_isDigit (hcs d hd)
    omega

theorem tokensFrom_number {ds : Text} (h : ∀ c ∈ ds, isDigit c = true) (acc : Text) (st : Stack)
    (r : Text) : tokensFrom (.number acc) st (ds ++ r) = tokensFrom (.number (acc ++ ds)) st r := by
  induction ds generalizing acc with
  | nil => simp
  | cons c cs ih =>
    have hstep : step (.number acc) st c = some (.number (acc ++ [c]), st, []) := by
      simp [step, isNumberUnit, h c List.mem_cons_self]
    rw [List.cons_append, tokensFrom_silent hstep, ih (fun d hd => h d (List.mem_cons_of_mem _ hd)) (acc ++ [c])]
    simp

theorem tokensFrom_endLeaf {p : Control} {l : Leaf} {st : Stack} {u : ℕ} {r : Text}
    (h : step p st u = endLeaf (some l) st u) :
    tokensFrom p st (u :: r) = (tokensFrom .comma st (u :: r)).map (.leaf l :: ·) := by
  simp only [tokensFrom, h, endLeaf]
  change _ = ((afterValue st u).bind _).map _
  cases afterValue st u with
  | none => rfl
  | some q => simp [Function.comp_def]

theorem not_unit_of_isTerminator {u : ℕ} (h : isTerminator u = true) :
    isNumberUnit u = false ∧ isLetter u = false := by
  simp only [isTerminator, isSpace, Bool.or_eq_true, decide_eq_true_eq] at h
  rcases h with (((((rfl | rfl) | rfl) | rfl) | rfl) | rfl) | rfl <;> exact ⟨rfl, rfl⟩

theorem tokensFrom_decimal (z : ℤ) (st : Stack) {u : ℕ} (hu : isTerminator u = true) (r : Text) :
    tokensFrom .value st (decimal z ++ u :: r) =
      (tokensFrom .comma st (u :: r)).map (.leaf (.num (decimal z)) :: ·) := by
  obtain ⟨c, cs, heq, hc, hcs⟩ := decimal_cons z
  have hbegin : step .value st c = some (.number [c], st, []) := by
    rcases hc with hc | rfl
    · have hb := bounds_of_isDigit hc
      simp [step, beginValue, isSpace, hc, show c ≠ 32 by omega, show c ≠ 9 by omega,
        show c ≠ 10 by omega, show c ≠ 13 by omega, show c ≠ 123 by omega, show c ≠ 91 by omega,
        show c ≠ 34 by omega]
    · rfl
  have hend : step (.number (decimal z)) st u = endLeaf (some (.num (decimal z))) st u := by
    simp only [step, (not_unit_of_isTerminator hu).1, Bool.false_eq_true, if_false,
      readNumber_decimal]
  calc tokensFrom .value st (decimal z ++ u :: r)
      = tokensFrom (.number [c]) st (cs ++ u :: r) := by
        rw [heq, List.cons_append, tokensFrom_silent hbegin]
    _ = tokensFrom (.number (decimal z)) st (u :: r) := by
        rw [tokensFrom_number hcs, heq]
        rfl
    _ = _ := tokensFrom_endLeaf hend

theorem tokensFrom_word {ls : Text} (h : ∀ c ∈ ls, isLetter c = true) (acc : Text) (st : Stack)
    (r : Text) : tokensFrom (.word acc) st (ls ++ r) = tokensFrom (.word (acc ++ ls)) st r := by
  induction ls generalizing acc with
  | nil => simp
  | cons c cs ih =>
    have hstep : step (.word acc) st c = some (.word (acc ++ [c]), st, []) := by
      simp [step, h c List.mem_cons_self]
    rw [List.cons_append, tokensFrom_silent hstep,
      ih (fun d hd => h d (List.mem_cons_of_mem _ hd)) (acc ++ [c])]
    simp

theorem boolText_cons (b : Bool) : ∃ c cs, boolText b = c :: cs ∧
    (∀ st, step .value st c = some (.word [c], st, [])) ∧ ∀ d ∈ cs, isLetter d = true := by
  cases b with
  | false => exact ⟨102, text "alse", by decide, fun _ => rfl, by decide⟩
  | true => exact ⟨116, text "rue", by decide, fun _ => rfl, by decide⟩

theorem readWord_boolText (b : Bool) : readWord (boolText b) = some (.bool b) := by
  cases b <;> decide

theorem tokensFrom_bool (b : Bool) (st : Stack) {u : ℕ} (hu : isTerminator u = true) (r : Text) :
    tokensFrom .value st (boolText b ++ u :: r) =
      (tokensFrom .comma st (u :: r)).map (.leaf (.bool b) :: ·) := by
  obtain ⟨c, cs, heq, hbegin, hcs⟩ := boolText_cons b
  have hend : step (.word (boolText b)) st u = endLeaf (some (.bool b)) st u := by
    simp only [step, (not_unit_of_isTerminator hu).2, Bool.false_eq_true, if_false,
      readWord_boolText]
  calc tokensFrom .value st (boolText b ++ u :: r)
      = tokensFrom (.word [c]) st (cs ++ u :: r) := by
        rw [heq, List.cons_append, tokensFrom_silent (hbegin st)]
    _ = tokensFrom (.word (boolText b)) st (u :: r) := by
        rw [tokensFrom_word hcs, heq]
        rfl
    _ = _ := tokensFrom_endLeaf hend

/-! ## Templates -/

def Sym.text (e : Env) : Sym → Text
  | .unit c => [c]
  | .str i => e.str i
  | .int i => decimal (e.int i)
  | .bool i => boolText (e.bool i)

def Slot.text : Slot Text ℤ Bool → Text
  | .lit _ => []
  | .str t => t
  | .int z => decimal z
  | .bool b => boolText b
  | .intText z => decimal z

/-- Where the reader was before the hole, if there is one. -/
def TControl.before : TControl → Control
  | .plain p => p
  | .quoted _ => .string false []
  | .bare _ => .value

/-- The text of the hole. -/
def TControl.hole (e : Env) : TControl → Text
  | .plain _ => []
  | .quoted x | .bare x => (x.fill e).text

/-- What may stand after a hole, and whether a string there needs no escaping. -/
def TControl.Fits (e : Env) : TControl → Prop
  | .plain _ => True
  | .quoted (.str i) => Plain (e.str i)
  | .quoted (.intText _) | .bare (.int _) | .bare (.bool _) => True
  | .quoted _ | .bare _ => False

def Slot.value (e : Env) (x : Slot ℕ ℕ ℕ) : Leaf := (x.fill e).leaf

theorem map_lift (e : Env) (o : List (Token Leaf)) :
    (o.map (Token.map (Slot.lit : Leaf → Slot ℕ ℕ ℕ))).map (Token.map (Slot.value e)) = o := by
  rw [List.map_map]
  conv_rhs => rw [← List.map_id o]
  refine List.map_congr_left fun x _ => ?_
  cases x <;> rfl

/-- The holes after which a template goes on. -/
def TControl.Proper : TControl → Prop
  | .plain _ | .quoted (.str _) | .quoted (.intText _) | .bare (.int _) | .bare (.bool _) => True
  | _ => False

theorem map_append_eq_some {α : Type} (xs : List α) {ys : List α} {o : Option (List α)} :
    o.map (xs ++ ·) = some (xs ++ ys) ↔ o = some ys := by
  constructor
  · intro h
    obtain ⟨zs, rfl, heq⟩ := Option.map_eq_some_iff.mp h
    rw [List.append_cancel_left heq]
  · rintro rfl
    rfl

/-- One unit of a template outside the holes. -/
theorem tokensFrom_unit (e : Env) {p q : Control} {st st' : Stack} {c : ℕ} {oq : List (Token Leaf)}
    (h : step p st c = some (q, st', oq)) {r : Text} {o : List (Token (Slot ℕ ℕ ℕ))} :
    tokensFrom p st (c :: r) = some ((oq.map (Token.map Slot.lit) ++ o).map (Token.map (Slot.value e))) ↔
      tokensFrom q st' r = some (o.map (Token.map (Slot.value e))) := by
  simp only [tokensFrom, h, Option.bind_some, List.map_append, map_lift]
  exact map_append_eq_some _

/-- A hole in a string, and its closing quotation mark. -/
theorem tokensFrom_quoted (e : Env) {x : Slot ℕ ℕ ℕ} (hx : (TControl.quoted x).Proper) {st : Stack}
    {r : Text} {o : List (Token Leaf)} :
    tokensFrom (.string false []) st ((x.fill e).text ++ 34 :: r) =
        some (.leaf (Slot.value e x) :: o) ↔
      (TControl.quoted x).Fits e ∧ tokensFrom .comma st r = some o := by
  cases x with
  | str i => exact tokensFrom_string
  | intText i =>
    refine tokensFrom_string.trans ⟨fun h => ⟨trivial, h.2⟩, fun h => ⟨plain_decimal _, h.2⟩⟩
  | lit l | int i | bool i => cases hx

theorem tokensFrom_bare (e : Env) {x : Slot ℕ ℕ ℕ} (hx : (TControl.bare x).Proper) {st : Stack}
    {u : ℕ} (hu : isTerminator u = true) {r : Text} :
    tokensFrom .value st ((x.fill e).text ++ u :: r) =
      (tokensFrom .comma st (u :: r)).map (.leaf (Slot.value e x) :: ·) := by
  cases x with
  | int i => exact tokensFrom_decimal (e.int i) st hu r
  | bool i => exact tokensFrom_bool (e.bool i) st hu r
  | lit l | str i | intText i => cases hx

theorem tokensFrom_template (e : Env) {p : TControl} {st : Stack} {ss : List Sym}
    {o : List (Token (Slot ℕ ℕ ℕ))} (hp : p.Proper) (h : ttokens p st ss = some o) :
    tokensFrom p.before st (p.hole e ++ ss.flatMap (Sym.text e)) =
        some (o.map (Token.map (Slot.value e))) ↔
      p.Fits e ∧ ∀ i, Sym.str i ∈ ss → Plain (e.str i) := by
  induction ss generalizing p st o with
  | nil =>
    simp only [ttokens, Option.ite_none_right_eq_some] at h
    obtain ⟨⟨rfl, rfl⟩, ho⟩ := h
    obtain rfl := Option.some.inj ho
    simp [TControl.before, TControl.hole, TControl.Fits, tokensFrom, finish]
  | cons s ss ih =>
    obtain ⟨⟨p', st', o1⟩, hstep, hrest⟩ := Option.bind_eq_some_iff.mp h
    obtain ⟨o2, ho2, rfl⟩ := Option.map_eq_some_iff.mp hrest
    unfold tstep at hstep
    split at hstep
    · rename_i q c
      obtain ⟨⟨q', st1, oq⟩, hq, hlift⟩ := Option.map_eq_some_iff.mp hstep
      cases hlift
      have hunit := tokensFrom_unit e hq (r := ss.flatMap (Sym.text e)) (o := o2)
      refine hunit.trans ((ih (p := .plain q') trivial ho2).trans ?_)
      simp [TControl.Fits]
    · rename_i i
      cases hstep
      refine (ih (p := .quoted (.str i)) trivial ho2).trans ?_
      simp only [TControl.Fits, List.mem_cons, true_and]
      exact ⟨fun hr j hj => hj.elim (fun heq => Sym.str.inj heq ▸ hr.1) (hr.2 j),
        fun hr => ⟨hr _ (.inl rfl), fun j hj => hr j (.inr hj)⟩⟩
    · rename_i i
      cases hstep
      refine (ih (p := .quoted (.intText i)) trivial ho2).trans ?_
      simp [TControl.Fits]
    · rename_i i
      cases hstep
      refine (ih (p := .bare (.int i)) trivial ho2).trans ?_
      simp [TControl.Fits]
    · rename_i i
      cases hstep
      refine (ih (p := .bare (.bool i)) trivial ho2).trans ?_
      simp [TControl.Fits]
    · rename_i x
      cases hstep
      refine (tokensFrom_quoted e hp (r := ss.flatMap (Sym.text e))).trans ?_
      refine (and_congr_right fun _ => ih (p := .plain .comma) trivial ho2).trans ?_
      simp [TControl.Fits]
    · rename_i x c
      split at hstep
      · rename_i hu
        obtain ⟨⟨q', st1, oq⟩, hq, hlift⟩ := Option.map_eq_some_iff.mp hstep
        cases hlift
        have hunit := tokensFrom_unit e hq (r := ss.flatMap (Sym.text e)) (o := o2)
        have hbare : tokensFrom .value st ((x.fill e).text ++ c :: ss.flatMap (Sym.text e)) =
            (tokensFrom .comma st (c :: ss.flatMap (Sym.text e))).map
              (.leaf (Slot.value e x) :: ·) :=
          tokensFrom_bare e hp hu
        have hfits : (TControl.bare x).Fits e := by
          cases x <;> trivial
        change tokensFrom .value st ((x.fill e).text ++ c :: ss.flatMap (Sym.text e)) = _ ↔ _
        rw [hbare]
        refine (map_append_eq_some [Token.leaf (Slot.value e x)]).trans ?_
        refine hunit.trans ((ih (p := .plain q') trivial ho2).trans ?_)
        exact ⟨fun hr => ⟨hfits, fun i hi => hr.2 i (by simpa using hi)⟩,
          fun hr => ⟨trivial, fun i hi => hr.2 i (List.mem_cons_of_mem _ hi)⟩⟩
      · cases hstep
    · cases hstep

theorem concat_fill (e : Env) (pieces : List (Piece ℕ ℕ ℕ)) :
    concat (pieces.map (Piece.fill e)) = (pieces.flatMap Piece.symbols).flatMap (Sym.text e) := by
  simp only [concat, List.flatMap_map, List.flatMap_assoc]
  refine List.flatMap_congr fun x _ => ?_
  cases x with
  | lit s => simp [Piece.fill, Piece.text, Piece.symbols, Sym.text, List.flatMap_map]
  | str i | int i | bool i => simp [Piece.fill, Piece.text, Piece.symbols, Sym.text]

theorem mem_symbols {pieces : List (Piece ℕ ℕ ℕ)} {i : ℕ} :
    Sym.str i ∈ pieces.flatMap Piece.symbols ↔ Piece.str i ∈ pieces := by
  constructor
  · intro h
    obtain ⟨x, hx, hi⟩ := List.mem_flatMap.mp h
    cases x with
    | lit s => simp [Piece.symbols] at hi
    | str j =>
      obtain rfl : i = j := by simpa [Piece.symbols] using hi
      exact hx
    | int j | bool j => simp [Piece.symbols] at hi
  · intro h
    exact List.mem_flatMap.mpr ⟨_, h, List.mem_singleton.mpr rfl⟩

/-- The text is read as the tree exactly when its strings need no escaping. -/
theorem parse_template {pieces : List (Piece ℕ ℕ ℕ)} {t : Value (Slot ℕ ℕ ℕ)} (h : Reads pieces t)
    (e : Env) :
    parse (concat (pieces.map (Piece.fill e))) = some ((t.map (Slot.fill e)).map Slot.leaf) ↔
      ∀ s ∈ strings (pieces.map (Piece.fill e)), Plain s := by
  have htemplate := tokensFrom_template e (p := .plain .value) trivial h
  rw [parse_eq_some, concat_fill, tokens_map, tokens_map, List.map_map]
  have hvalue : Token.map Slot.leaf ∘ Token.map (Slot.fill e) = Token.map (Slot.value e) := by
    funext x
    cases x <;> rfl
  rw [hvalue]
  refine htemplate.trans ⟨fun hr s hs => ?_, fun hr => ⟨trivial, fun i hi => ?_⟩⟩
  · obtain ⟨x, hx, heq⟩ := List.mem_map.mp (mem_strings.mp hs)
    cases x with
    | str i =>
      obtain rfl := Piece.str.inj heq
      exact hr.2 i (mem_symbols.mpr hx)
    | lit s | int i | bool i => cases heq
  · exact hr _ (mem_strings.mpr (List.mem_map.mpr ⟨_, mem_symbols.mp hi, rfl⟩))

end Jagles.Json
