import Jagles.LinkedCells

set_option autoImplicit false
set_option linter.dupNamespace false

/-!
# The linked list (`list.h`)

The members of `List<T>` with their loops over the items. A loop without a bound of its
own takes fuel. Following a null pointer stops a member with an error. `Sequence` says
what each member means for the sequence of the data.
-/
namespace Jagles
open LinkedCells

structure LinkedList (α : Type) where
  header : Option ℕ
  heap : Heap α

namespace LinkedList

inductive Stop where
  | nullPointer
  | danglingPointer
  | outOfFuel
  deriving DecidableEq

variable {α : Type}

def deref (h : Heap α) : Option ℕ → Except Stop (Cell α)
  | none => .error .nullPointer
  | some a =>
    match h.cell a with
    | some c => .ok c
    | none => .error .danglingPointer

def create : LinkedList α := ⟨none, .empty⟩

def isEmpty (l : LinkedList α) : Bool := l.header.isNone

def lengthLoop (h : Heap α) : ℕ → ℤ → Option ℕ → Except Stop ℤ
  | _, len, none => .ok len
  | 0, _, some _ => .error .outOfFuel
  | fuel + 1, len, some a => do
    let i ← deref h (some a)
    lengthLoop h fuel (len + 1) i.next

def length (fuel : ℕ) (l : LinkedList α) : Except Stop ℤ := lengthLoop l.heap fuel 0 l.header

/-- `for (i = 0; it && i < k; i++) it = it->next;` from `i` on, with `k - i` steps to go. -/
def walk (h : Heap α) : ℕ → ℤ → Option ℕ → Except Stop (Option ℕ × ℤ)
  | 0, i, it => .ok (it, i)
  | _ + 1, i, none => .ok (none, i)
  | n + 1, i, some a => do
    let c ← deref h (some a)
    walk h n (i + 1) c.next

/-- The datum at `k`, or `none` for the object that `new T` makes. -/
def «at» (l : LinkedList α) (k : ℤ) : Except Stop (Option α) :=
  if k < 0 then .ok none
  else if l.header = none then .ok none
  else do
    let (it, i) ← walk l.heap k.toNat 0 l.header
    if i ≠ k then .ok none
    else do
      let c ← deref l.heap it
      .ok (some c.data)

def searchLoop [DecidableEq α] (h : Heap α) (v : α) : ℕ → ℤ → Option ℕ → Except Stop ℤ
  | _, _, none => .ok (-1)
  | 0, _, some _ => .error .outOfFuel
  | fuel + 1, k, some a => do
    let i ← deref h (some a)
    if i.data = v then .ok k else searchLoop h v fuel (k + 1) i.next

def search [DecidableEq α] (fuel : ℕ) (l : LinkedList α) (v : α) : Except Stop ℤ :=
  searchLoop l.heap v fuel 0 l.header

/-- The pointers `prev` and `it` after the loop of `remove`, if it does not return. -/
def removeLoop (h : Heap α) : ℕ → Option ℕ → Option ℕ →
    Except Stop (Option (Option ℕ × Option ℕ))
  | 0, prev, it => .ok (some (prev, it))
  | _ + 1, _, none => .ok none
  | n + 1, _, some a => do
    let c ← deref h (some a)
    removeLoop h n (some a) c.next

def remove (l : LinkedList α) (k : ℤ) : Except Stop (LinkedList α) :=
  if k < 0 then .ok l
  else do
    match ← removeLoop l.heap k.toNat none l.header with
    | none => .ok l
    | some (prev, it) =>
      let c ← deref l.heap it
      match prev with
      | some a =>
        let p ← deref l.heap (some a)
        .ok { l with heap := (l.heap.set a { p with next := c.next }).free (it.getD 0) }
      | none => .ok { header := c.next, heap := l.heap.free (it.getD 0) }

/-- The item behind which `insert` puts the new one; `bound` is `k - i`, or `none` for
a negative `k`. -/
def insertLoop (h : Heap α) : ℕ → Option ℕ → ℕ → Except Stop ℕ
  | 0, _, _ => .error .outOfFuel
  | fuel + 1, bound, it => do
    let c ← deref h (some it)
    match c.next, bound with
    | none, _ => .ok it
    | some _, some 0 => .ok it
    | some a, some (n + 1) => insertLoop h fuel (some n) a
    | some a, none => insertLoop h fuel none a

/-- `t` is the address that `new Item` returns. -/
def insert (fuel : ℕ) (l : LinkedList α) (t : ℕ) (k : ℤ) (v : α) : Except Stop (LinkedList α) :=
  let h := l.heap.allocate t ⟨v, none⟩
  match l.header with
  | none => .ok ⟨some t, h⟩
  | some a => do
    let it ← insertLoop h fuel (if k < 0 then none else some k.toNat) a
    let c ← deref h (some it)
    .ok { l with heap := (h.set t ⟨v, c.next⟩).set it { c with next := some t } }

inductive Op (α : Type) where
  | isEmpty
  | length
  | «at» (k : ℤ)
  | search (v : α)
  | remove (k : ℤ)
  | insert (k : ℤ) (v : α)

inductive Answer (α : Type) where
  | bool (b : Bool)
  | int (n : ℤ)
  | item (x : Option α)
  | done
  deriving DecidableEq

/-- `new used` is the address that `new` returns when the addresses `used` are taken. -/
def step [DecidableEq α] (new : List ℕ → ℕ) (fuel : ℕ) (l : LinkedList α) :
    Op α → Except Stop (LinkedList α × Answer α)
  | .isEmpty => .ok (l, .bool l.isEmpty)
  | .length => return (l, .int (← l.length fuel))
  | .at k => return (l, .item (← l.at k))
  | .search v => return (l, .int (← l.search fuel v))
  | .remove k => return (← l.remove k, .done)
  | .insert k v => return (← l.insert fuel (new l.heap.used) k v, .done)

def run [DecidableEq α] (new : List ℕ → ℕ) (fuel : ℕ) :
    LinkedList α → List (Op α) → Except Stop (LinkedList α × List (Answer α))
  | l, [] => .ok (l, [])
  | l, op :: ops => do
    let (l, x) ← step new fuel l op
    let (l, xs) ← run new fuel l ops
    .ok (l, x :: xs)

namespace Sequence

def search [DecidableEq α] (xs : List α) (v : α) : ℤ :=
  match xs.idxOf? v with
  | some i => i
  | none => -1

/-- Right after position `min k (length - 1)`, and at the end for a negative `k`. -/
def insert (xs : List α) (k : ℤ) (v : α) : List α :=
  let n := if k < 0 then xs.length else min k.toNat (xs.length - 1) + 1
  xs.take n ++ v :: xs.drop n

def step [DecidableEq α] (xs : List α) : Op α → List α × Answer α
  | .isEmpty => (xs, .bool xs.isEmpty)
  | .length => (xs, .int xs.length)
  | .at k => (xs, .item (if k < 0 then none else xs[k.toNat]?))
  | .search v => (xs, .int (search xs v))
  | .remove k => (if k < 0 then xs else xs.eraseIdx k.toNat, .done)
  | .insert k v => (insert xs k v, .done)

def run [DecidableEq α] : List α → List (Op α) → List α × List (Answer α)
  | xs, [] => (xs, [])
  | xs, op :: ops =>
    let (xs, x) := step xs op
    let (xs, answers) := run xs ops
    (xs, x :: answers)

/-- The condition on one call: `at` and `remove` are not called with the length, except
`at` on an empty list. -/
def InRange (xs : List α) : Op α → Prop
  | .at k => xs = [] ∨ k ≠ xs.length
  | .remove k => k ≠ xs.length
  | _ => True

def AllInRange [DecidableEq α] : List α → List (Op α) → Prop
  | _, [] => True
  | xs, op :: ops => InRange xs op ∧ AllInRange (step xs op).1 ops

instance [DecidableEq α] (xs : List α) : (op : Op α) → Decidable (InRange xs op)
  | .at k => inferInstanceAs (Decidable (xs = [] ∨ k ≠ xs.length))
  | .remove k => inferInstanceAs (Decidable (k ≠ xs.length))
  | .isEmpty | .length | .search _ | .insert _ _ => isTrue trivial

instance [DecidableEq α] : (xs : List α) → (ops : List (Op α)) → Decidable (AllInRange xs ops)
  | _, [] => isTrue trivial
  | xs, op :: ops =>
    have := instDecidableAllInRange (step xs op).1 ops
    inferInstanceAs (Decidable (InRange xs op ∧ AllInRange (step xs op).1 ops))

end Sequence

end LinkedList
end Jagles
