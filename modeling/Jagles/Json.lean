import Mathlib.Tactic

set_option autoImplicit false
set_option linter.dupNamespace false

/-!
# JSON

A reader of JSON text (RFC 8259) over UTF-16 code units, one unit at a time. It gives the
tokens of the text, from which the tree is put together. Members keep their order.
-/
namespace Jagles.Json

abbrev Text := List ℕ

/-- For literals of ASCII characters, whose bytes are their code units. -/
def text (s : String) : Text := s.toUTF8.data.toList.map UInt8.toNat

/-! ## Trees and tokens -/

inductive Value (L : Type) where
  | leaf (l : L)
  | array (elements : List (Value L))
  | object (members : List (Text × Value L))

/-- A number is kept as its text. -/
inductive Leaf where
  | str (t : Text)
  | num (t : Text)
  | bool (b : Bool)
  | null
  deriving DecidableEq

inductive Token (L : Type) where
  | beginObject
  | endObject
  | beginArray
  | endArray
  | key (t : Text)
  | leaf (l : L)
  deriving DecidableEq

def Token.map {L L' : Type} (f : L → L') : Token L → Token L'
  | .beginObject => .beginObject
  | .endObject => .endObject
  | .beginArray => .beginArray
  | .endArray => .endArray
  | .key t => .key t
  | .leaf l => .leaf (f l)

mutual

def Value.tokens {L : Type} : Value L → List (Token L)
  | .leaf l => [.leaf l]
  | .array elements => .beginArray :: (elementTokens elements ++ [.endArray])
  | .object members => .beginObject :: (memberTokens members ++ [.endObject])

def elementTokens {L : Type} : List (Value L) → List (Token L)
  | [] => []
  | t :: rest => t.tokens ++ elementTokens rest

def memberTokens {L : Type} : List (Text × Value L) → List (Token L)
  | [] => []
  | (k, t) :: rest => .key k :: (t.tokens ++ memberTokens rest)

end

mutual

def Value.map {L L' : Type} (f : L → L') : Value L → Value L'
  | .leaf l => .leaf (f l)
  | .array elements => .array (mapElements f elements)
  | .object members => .object (mapMembers f members)

def mapElements {L L' : Type} (f : L → L') : List (Value L) → List (Value L')
  | [] => []
  | t :: rest => t.map f :: mapElements f rest

def mapMembers {L L' : Type} (f : L → L') : List (Text × Value L) → List (Text × Value L')
  | [] => []
  | (k, t) :: rest => (k, t.map f) :: mapMembers f rest

end

mutual

theorem tokens_map {L L' : Type} (f : L → L') (t : Value L) :
    (t.map f).tokens = t.tokens.map (Token.map f) := by
  cases t with
  | leaf l => rfl
  | array elements =>
    simp [Value.map, Value.tokens, Token.map, elementTokens_map f elements]
  | object members =>
    simp [Value.map, Value.tokens, Token.map, memberTokens_map f members]

theorem elementTokens_map {L L' : Type} (f : L → L') (elements : List (Value L)) :
    elementTokens (mapElements f elements) = (elementTokens elements).map (Token.map f) := by
  cases elements with
  | nil => rfl
  | cons t rest =>
    simp [mapElements, elementTokens, tokens_map f t, elementTokens_map f rest]

theorem memberTokens_map {L L' : Type} (f : L → L') (members : List (Text × Value L)) :
    memberTokens (mapMembers f members) = (memberTokens members).map (Token.map f) := by
  match members with
  | [] => rfl
  | (k, t) :: rest =>
    simp [mapMembers, memberTokens, Token.map, tokens_map f t, memberTokens_map f rest]

end

/-! ## Characters -/

def isSpace (c : ℕ) : Bool := c = 32 || c = 9 || c = 10 || c = 13

def isDigit (c : ℕ) : Bool := 48 ≤ c && c ≤ 57

def isNumberUnit (c : ℕ) : Bool := isDigit c || c = 45 || c = 43 || c = 46 || c = 101 || c = 69

def isLetter (c : ℕ) : Bool := 97 ≤ c && c ≤ 122

def hexDigit (c : ℕ) : Option ℕ :=
  if isDigit c then some (c - 48)
  else if 97 ≤ c ∧ c ≤ 102 then some (c - 87)
  else if 65 ≤ c ∧ c ≤ 70 then some (c - 55)
  else none

/-- What follows a backslash, other than `u`. -/
def escaped : ℕ → Option ℕ
  | 34 => some 34
  | 92 => some 92
  | 47 => some 47
  | 98 => some 8
  | 102 => some 12
  | 110 => some 10
  | 114 => some 13
  | 116 => some 9
  | _ => none

/-- Where a number is: at its start, after the minus, after a leading 0, in its digits, after
the point, in the fraction, after the `e`, after the sign of the exponent, in the exponent. -/
inductive NumberAt where
  | start
  | minus
  | zero
  | digits
  | point
  | fraction
  | exp
  | expSign
  | expDigits

def NumberAt.next : NumberAt → ℕ → Option NumberAt
  | .start, c =>
    if c = 45 then some .minus else if c = 48 then some .zero
    else if isDigit c then some .digits else none
  | .minus, c => if c = 48 then some .zero else if isDigit c then some .digits else none
  | .zero, c => if c = 46 then some .point else if c = 101 ∨ c = 69 then some .exp else none
  | .digits, c =>
    if isDigit c then some .digits else if c = 46 then some .point
    else if c = 101 ∨ c = 69 then some .exp else none
  | .point, c => if isDigit c then some .fraction else none
  | .fraction, c =>
    if isDigit c then some .fraction else if c = 101 ∨ c = 69 then some .exp else none
  | .exp, c =>
    if c = 43 ∨ c = 45 then some .expSign else if isDigit c then some .expDigits else none
  | .expSign, c | .expDigits, c => if isDigit c then some .expDigits else none

def NumberAt.complete : NumberAt → Bool
  | .zero | .digits | .fraction | .expDigits => true
  | _ => false

def numberFrom : NumberAt → Text → Bool
  | p, [] => p.complete
  | p, c :: cs => (p.next c).any fun p' => numberFrom p' cs

def readNumber (t : Text) : Option Leaf := if numberFrom .start t then some (.num t) else none

def readWord (t : Text) : Option Leaf :=
  if t = text "true" then some (.bool true)
  else if t = text "false" then some (.bool false)
  else if t = text "null" then some .null
  else none

/-! ## The reader -/

/-- What is expected or being read. `comma` stands after a value. -/
inductive Control where
  | value
  | firstValue
  | key
  | firstKey
  | colon
  | comma
  | string (isKey : Bool) (acc : Text)
  | escape (isKey : Bool) (acc : Text)
  | unicode (isKey : Bool) (acc : Text) (n count : ℕ)
  | number (acc : Text)
  | word (acc : Text)
  deriving DecidableEq

/-- The open objects (`true`) and arrays, innermost first. -/
abbrev Stack := List Bool

abbrev Outcome := Control × Stack × List (Token Leaf)

def beginValue (st : Stack) (c : ℕ) : Option Outcome :=
  if c = 123 then some (.firstKey, true :: st, [.beginObject])
  else if c = 91 then some (.firstValue, false :: st, [.beginArray])
  else if c = 34 then some (.string false [], st, [])
  else if isDigit c ∨ c = 45 then some (.number [c], st, [])
  else if isLetter c then some (.word [c], st, [])
  else none

def afterValue (st : Stack) (c : ℕ) : Option Outcome :=
  if isSpace c then some (.comma, st, [])
  else
    match st with
    | [] => none
    | true :: outer =>
      if c = 44 then some (.key, st, []) else if c = 125 then some (.comma, outer, [.endObject])
      else none
    | false :: outer =>
      if c = 44 then some (.value, st, []) else if c = 93 then some (.comma, outer, [.endArray])
      else none

/-- A leaf that ends where the next unit begins. -/
def endLeaf (l : Option Leaf) (st : Stack) (c : ℕ) : Option Outcome :=
  match l with
  | none => none
  | some l => (afterValue st c).map fun (p, st', o) => (p, st', .leaf l :: o)

def step (p : Control) (st : Stack) (c : ℕ) : Option Outcome :=
  match p with
  | .value => if isSpace c then some (.value, st, []) else beginValue st c
  | .firstValue =>
    if isSpace c then some (.firstValue, st, [])
    else if c = 93 then some (.comma, st.tail, [.endArray]) else beginValue st c
  | .key =>
    if isSpace c then some (.key, st, [])
    else if c = 34 then some (.string true [], st, []) else none
  | .firstKey =>
    if isSpace c then some (.firstKey, st, [])
    else if c = 125 then some (.comma, st.tail, [.endObject])
    else if c = 34 then some (.string true [], st, []) else none
  | .colon =>
    if isSpace c then some (.colon, st, []) else if c = 58 then some (.value, st, []) else none
  | .comma => afterValue st c
  | .string isKey acc =>
    if c = 34 then
      some (if isKey then (.colon, st, [.key acc]) else (.comma, st, [.leaf (.str acc)]))
    else if c = 92 then some (.escape isKey acc, st, [])
    else if c < 32 then none
    else some (.string isKey (acc ++ [c]), st, [])
  | .escape isKey acc =>
    if c = 117 then some (.unicode isKey acc 0 0, st, [])
    else (escaped c).map fun d => (.string isKey (acc ++ [d]), st, [])
  | .unicode isKey acc n count =>
    (hexDigit c).map fun d =>
      if count = 3 then (.string isKey (acc ++ [16 * n + d]), st, [])
      else (.unicode isKey acc (16 * n + d) (count + 1), st, [])
  | .number acc =>
    if isNumberUnit c then some (.number (acc ++ [c]), st, []) else endLeaf (readNumber acc) st c
  | .word acc =>
    if isLetter c then some (.word (acc ++ [c]), st, []) else endLeaf (readWord acc) st c

/-- The text may end after a value, with everything closed. -/
def finish (p : Control) : Stack → Option (List (Token Leaf))
  | _ :: _ => none
  | [] =>
    match p with
    | .comma => some []
    | .number acc => (readNumber acc).map fun l => [.leaf l]
    | .word acc => (readWord acc).map fun l => [.leaf l]
    | _ => none

def tokensFrom (p : Control) (st : Stack) : Text → Option (List (Token Leaf))
  | [] => finish p st
  | c :: cs => (step p st c).bind fun (p', st', o) => (tokensFrom p' st' cs).map (o ++ ·)

/-! ## The tree -/

/-- A container that is being read; `member` has a key whose value is still to come. -/
inductive Frame (L : Type) where
  | array (elements : List (Value L))
  | object (members : List (Text × Value L))
  | member (members : List (Text × Value L)) (k : Text)

inductive Building (L : Type) where
  | inside (frames : List (Frame L))
  | whole (t : Value L)

section build

variable {L : Type}

def place (t : Value L) : List (Frame L) → Option (Building L)
  | [] => some (.whole t)
  | .array elements :: outer => some (.inside (.array (elements ++ [t]) :: outer))
  | .member members k :: outer => some (.inside (.object (members ++ [(k, t)]) :: outer))
  | .object _ :: _ => none

def feed : Building L → Token L → Option (Building L)
  | .whole _, _ => none
  | .inside frames, .leaf l => place (.leaf l) frames
  | .inside frames, .beginArray => some (.inside (.array [] :: frames))
  | .inside frames, .beginObject => some (.inside (.object [] :: frames))
  | .inside (.array elements :: outer), .endArray => place (.array elements) outer
  | .inside (.object members :: outer), .endObject => place (.object members) outer
  | .inside (.object members :: outer), .key k => some (.inside (.member members k :: outer))
  | .inside _, _ => none

def feedAll : Building L → List (Token L) → Option (Building L)
  | b, [] => some b
  | b, x :: xs => (feed b x).bind fun b' => feedAll b' xs

def build (xs : List (Token L)) : Option (Value L) :=
  match feedAll (.inside []) xs with
  | some (.whole t) => some t
  | _ => none

end build

def parse (t : Text) : Option (Value Leaf) := (tokensFrom .value [] t).bind build

/-! ## Tokens and trees -/

section build

variable {L : Type}

theorem feedAll_append (b : Building L) (xs ys : List (Token L)) :
    feedAll b (xs ++ ys) = (feedAll b xs).bind fun b' => feedAll b' ys := by
  induction xs generalizing b with
  | nil => rfl
  | cons x xs ih =>
    simp only [List.cons_append, feedAll]
    cases feed b x with
    | none => rfl
    | some b' => exact ih b'

mutual

theorem feedAll_tokens (t : Value L) (frames : List (Frame L)) :
    feedAll (.inside frames) t.tokens = place t frames := by
  cases t with
  | leaf l =>
    simp only [Value.tokens, feedAll, feed]
    cases place (Value.leaf l) frames <;> rfl
  | array elements =>
    simp only [Value.tokens, feedAll, feed, Option.bind_some, feedAll_append,
      feedAll_elementTokens elements [] frames, List.nil_append]
    cases place (Value.array elements) frames <;> rfl
  | object members =>
    simp only [Value.tokens, feedAll, feed, Option.bind_some, feedAll_append,
      feedAll_memberTokens members [] frames, List.nil_append]
    cases place (Value.object members) frames <;> rfl

theorem feedAll_elementTokens (elements before : List (Value L)) (outer : List (Frame L)) :
    feedAll (.inside (.array before :: outer)) (elementTokens elements) =
      some (.inside (.array (before ++ elements) :: outer)) := by
  cases elements with
  | nil => simp [elementTokens, feedAll]
  | cons t rest =>
    simp only [elementTokens, feedAll_append, feedAll_tokens t, place, Option.bind_some,
      feedAll_elementTokens rest (before ++ [t]) outer, List.append_assoc, List.singleton_append]

theorem feedAll_memberTokens (members before : List (Text × Value L)) (outer : List (Frame L)) :
    feedAll (.inside (.object before :: outer)) (memberTokens members) =
      some (.inside (.object (before ++ members) :: outer)) := by
  match members with
  | [] => simp [memberTokens, feedAll]
  | (k, t) :: rest =>
    simp only [memberTokens, feedAll, feed, Option.bind_some, feedAll_append, feedAll_tokens t,
      place, feedAll_memberTokens rest (before ++ [(k, t)]) outer, List.append_assoc,
      List.singleton_append]

end

theorem build_tokens (t : Value L) : build t.tokens = some t := by
  simp only [build, feedAll_tokens, place]

def frameTokens : Frame L → List (Token L)
  | .array elements => .beginArray :: elementTokens elements
  | .object members => .beginObject :: memberTokens members
  | .member members k => .beginObject :: (memberTokens members ++ [.key k])

/-- The tokens that have been put into the open containers. -/
def framesTokens : List (Frame L) → List (Token L)
  | [] => []
  | f :: outer => framesTokens outer ++ frameTokens f

def Building.tokens : Building L → List (Token L)
  | .inside frames => framesTokens frames
  | .whole t => t.tokens

theorem elementTokens_append (xs ys : List (Value L)) :
    elementTokens (xs ++ ys) = elementTokens xs ++ elementTokens ys := by
  induction xs with
  | nil => rfl
  | cons x xs ih => simp only [List.cons_append, elementTokens, ih, List.append_assoc]

theorem memberTokens_append (xs ys : List (Text × Value L)) :
    memberTokens (xs ++ ys) = memberTokens xs ++ memberTokens ys := by
  induction xs with
  | nil => rfl
  | cons x xs ih => simp only [List.cons_append, memberTokens, ih, List.append_assoc]

/-- An object that is the last member of an object. -/
theorem tokens_object_object (members inner : List (Text × Value L)) (k : Text) :
    (Value.object (members ++ [(k, .object inner)])).tokens =
      .beginObject :: (memberTokens members ++ .key k :: .beginObject :: memberTokens inner) ++
        [.endObject, .endObject] := by
  simp [Value.tokens, memberTokens_append, memberTokens]

theorem place_tokens {t : Value L} {frames : List (Frame L)} {b : Building L}
    (h : place t frames = some b) : b.tokens = framesTokens frames ++ t.tokens := by
  match frames with
  | [] =>
    obtain rfl := Option.some.inj h
    rfl
  | .array elements :: outer =>
    obtain rfl := Option.some.inj h
    simp [Building.tokens, framesTokens, frameTokens, elementTokens_append, elementTokens]
  | .member members k :: outer =>
    obtain rfl := Option.some.inj h
    simp [Building.tokens, framesTokens, frameTokens, memberTokens_append, memberTokens]
  | .object members :: outer => cases h

theorem feed_tokens {b b' : Building L} {x : Token L} (h : feed b x = some b') :
    b'.tokens = b.tokens ++ [x] := by
  match b, x with
  | .whole _, _ => cases h
  | .inside frames, .leaf l => exact place_tokens h
  | .inside frames, .beginArray =>
    obtain rfl := Option.some.inj h
    rfl
  | .inside frames, .beginObject =>
    obtain rfl := Option.some.inj h
    rfl
  | .inside (.array elements :: outer), .endArray =>
    rw [place_tokens h]
    simp [Value.tokens, Building.tokens, framesTokens, frameTokens]
  | .inside (.object members :: outer), .endObject =>
    rw [place_tokens h]
    simp [Value.tokens, Building.tokens, framesTokens, frameTokens]
  | .inside (.object members :: outer), .key k =>
    obtain rfl := Option.some.inj h
    simp [Building.tokens, framesTokens, frameTokens]
  | .inside [], .endArray | .inside [], .endObject | .inside [], .key k => cases h
  | .inside (.array _ :: _), .endObject | .inside (.array _ :: _), .key k => cases h
  | .inside (.object _ :: _), .endArray => cases h
  | .inside (.member _ _ :: _), .endArray | .inside (.member _ _ :: _), .endObject
  | .inside (.member _ _ :: _), .key k => cases h

theorem tokens_of_feedAll {xs : List (Token L)} {b b' : Building L} (h : feedAll b xs = some b') :
    b'.tokens = b.tokens ++ xs := by
  induction xs generalizing b with
  | nil =>
    obtain rfl := Option.some.inj h
    exact (List.append_nil _).symm
  | cons x xs ih =>
    obtain ⟨c, hc, hrest⟩ := Option.bind_eq_some_iff.mp h
    rw [ih hrest, feed_tokens hc, List.append_assoc, List.singleton_append]

theorem build_eq_some {xs : List (Token L)} {t : Value L} : build xs = some t ↔ xs = t.tokens := by
  constructor
  · intro h
    unfold build at h
    split at h
    · rename_i t' ht'
      obtain rfl := Option.some.inj h
      exact (tokens_of_feedAll ht').symm
    · cases h
  · rintro rfl
    exact build_tokens t

end build

theorem parse_eq_some {t : Text} {j : Value Leaf} :
    parse t = some j ↔ tokensFrom .value [] t = some j.tokens := by
  constructor
  · intro h
    obtain ⟨xs, hxs, hj⟩ := Option.bind_eq_some_iff.mp h
    rw [hxs, build_eq_some.mp hj]
  · intro h
    rw [parse, h]
    exact build_tokens j

/-! ## Parts of a text -/

theorem tokensFrom_silent {p p' : Control} {st st' : Stack} {c : ℕ}
    (h : step p st c = some (p', st', [])) (r : Text) :
    tokensFrom p st (c :: r) = tokensFrom p' st' r := by
  simp [tokensFrom, h]

/-- The rest of a text is read from some place. -/
theorem tokensFrom_append {p : Control} {st : Stack} {t r : Text} {o : List (Token Leaf)}
    (h : tokensFrom p st (t ++ r) = some o) :
    ∃ p' st' o1 o2, tokensFrom p' st' r = some o2 ∧ o = o1 ++ o2 := by
  induction t generalizing p st o with
  | nil => exact ⟨p, st, [], o, h, rfl⟩
  | cons c cs ih =>
    obtain ⟨⟨q, st1, oc⟩, -, hrest⟩ := Option.bind_eq_some_iff.mp h
    obtain ⟨o', ho', rfl⟩ := Option.map_eq_some_iff.mp hrest
    obtain ⟨p', st', o1, o2, hr, rfl⟩ := ih ho'
    exact ⟨p', st', oc ++ o1, o2, hr, (List.append_assoc _ _ _).symm⟩

/-- A part that no place reads. -/
theorem parse_append_none {r : Text} (h : ∀ p st, tokensFrom p st r = none) (t : Text) :
    parse (t ++ r) = none := by
  rw [Option.eq_none_iff_forall_ne_some]
  intro j hj
  obtain ⟨p, st, -, o, hr, -⟩ := tokensFrom_append (parse_eq_some.mp hj)
  rw [h p st] at hr
  cases hr

theorem tokensFrom_spaces {p : Control} (hp : p = .value ∨ p = .key ∨ p = .colon ∨ p = .comma)
    (st : Stack) (n : ℕ) (r : Text) :
    tokensFrom p st (List.replicate n 32 ++ r) = tokensFrom p st r := by
  induction n with
  | zero => rfl
  | succ n ih =>
    have hstep : step p st 32 = some (p, st, []) := by
      rcases hp with rfl | rfl | rfl | rfl <;> rfl
    rw [List.replicate_succ, List.cons_append, tokensFrom_silent hstep, ih]

/-- A line break where spaces may stand. -/
theorem tokensFrom_newline {p : Control} (hp : p = .value ∨ p = .key ∨ p = .colon ∨ p = .comma)
    (st : Stack) (r : Text) : tokensFrom p st (10 :: r) = tokensFrom p st r := by
  refine tokensFrom_silent ?_ r
  rcases hp with rfl | rfl | rfl | rfl <;> rfl

theorem tokensFrom_string_newline (k : Bool) (acc : Text) (st : Stack) (r : Text) :
    tokensFrom (.string k acc) st (10 :: r) = none := rfl

theorem afterValue_comma {st : Stack} {q : Outcome} (h : afterValue st 44 = some q) :
    q.1 = .value ∨ q.1 = .key := by
  match st with
  | [] => cases h
  | true :: outer =>
    obtain rfl := Option.some.inj h
    exact .inr rfl
  | false :: outer =>
    obtain rfl := Option.some.inj h
    exact .inl rfl

theorem endLeaf_comma {l : Option Leaf} {st : Stack} {q : Outcome}
    (h : endLeaf l st 44 = some q) : q.1 = .value ∨ q.1 = .key := by
  cases l with
  | none => cases h
  | some l =>
    obtain ⟨⟨p, st', o⟩, hq, rfl⟩ := Option.map_eq_some_iff.mp h
    exact afterValue_comma (q := (p, st', o)) hq

/-- Another value or key is expected after a comma, unless it stands in a string. -/
theorem step_comma {p : Control} {st : Stack} {q : Outcome} (h : step p st 44 = some q) :
    q.1 = .value ∨ q.1 = .key ∨ ∃ k acc, q.1 = .string k acc := by
  have hclosed (hq : q.1 = .value ∨ q.1 = .key) :
      q.1 = .value ∨ q.1 = .key ∨ ∃ k acc, q.1 = .string k acc := hq.imp_right .inl
  cases p with
  | value | firstValue | key | firstKey | colon | escape | unicode => cases h
  | comma => exact hclosed (afterValue_comma h)
  | string k acc =>
    obtain rfl := Option.some.inj h
    exact .inr (.inr ⟨k, _, rfl⟩)
  | number acc | word acc => exact hclosed (endLeaf_comma h)

/-- A comma and a closing brace on the next line are in no JSON text. -/
theorem tokensFrom_comma_brace (p : Control) (st : Stack) (n : ℕ) (r : Text) :
    tokensFrom p st (44 :: 10 :: (List.replicate n 32 ++ 125 :: r)) = none := by
  rw [Option.eq_none_iff_forall_ne_some]
  intro o ho
  obtain ⟨⟨p', st', oc⟩, hq, hrest⟩ := Option.bind_eq_some_iff.mp ho
  obtain ⟨o', ho', -⟩ := Option.map_eq_some_iff.mp hrest
  rcases step_comma hq with rfl | rfl | ⟨k, acc, rfl⟩
  · rw [tokensFrom_newline (.inl rfl), tokensFrom_spaces (.inl rfl)] at ho'
    cases ho'
  · rw [tokensFrom_newline (.inr (.inl rfl)), tokensFrom_spaces (.inr (.inl rfl))] at ho'
    cases ho'
  · rw [tokensFrom_string_newline] at ho'
    cases ho'

/-- A quotation mark begins a string, ends a key, ends a value or is escaped. -/
theorem step_quote {p : Control} {st : Stack} {q : Outcome} (h : step p st 34 = some q) :
    (∃ k acc, q.1 = .string k acc) ∨ q.1 = .colon ∨
      ∃ v, q = (.comma, st, [.leaf (.str v)]) := by
  have hclosed {l : Option Leaf} (hl : endLeaf l st 34 = some q) : False := by
    cases l with
    | none => cases hl
    | some l => match st with
      | [] | true :: _ | false :: _ => cases hl
  cases p with
  | value | firstValue | key | firstKey =>
    obtain rfl := Option.some.inj h
    exact .inl ⟨_, _, rfl⟩
  | colon | unicode => cases h
  | comma => match st, h with
    | [], h | true :: _, h | false :: _, h => cases h
  | string k acc =>
    obtain rfl := Option.some.inj h
    cases k with
    | true => exact .inr (.inl rfl)
    | false => exact .inr (.inr ⟨acc, rfl⟩)
  | escape k acc =>
    obtain rfl := Option.some.inj h
    exact .inl ⟨k, _, rfl⟩
  | number acc | word acc => exact (hclosed h).elim

/-- A text that ends in a quotation mark, a line break and one closing brace. -/
theorem tokensFrom_quote_brace {p : Control} {st : Stack} {n : ℕ} {o : List (Token Leaf)}
    (h : tokensFrom p st (34 :: 10 :: (List.replicate n 32 ++ [125, 10])) = some o) :
    ∃ v, o = [.leaf (.str v), .endObject] := by
  obtain ⟨⟨p', st', oc⟩, hq, hrest⟩ := Option.bind_eq_some_iff.mp h
  obtain ⟨o', ho', rfl⟩ := Option.map_eq_some_iff.mp hrest
  rcases step_quote hq with ⟨k, acc, rfl⟩ | rfl | ⟨v, hv⟩
  · rw [tokensFrom_string_newline] at ho'
    cases ho'
  · rw [tokensFrom_newline (.inr (.inr (.inl rfl))),
      tokensFrom_spaces (.inr (.inr (.inl rfl)))] at ho'
    cases ho'
  · cases hv
    rw [tokensFrom_newline (.inr (.inr (.inr rfl))),
      tokensFrom_spaces (.inr (.inr (.inr rfl)))] at ho'
    match st, ho' with
    | [], ho' | false :: _, ho' => cases ho'
    | true :: [], ho' =>
      obtain rfl := Option.some.inj ho'
      exact ⟨v, rfl⟩
    | true :: _ :: _, ho' => cases ho'

end Jagles.Json
