import Mathlib.Tactic

set_option autoImplicit false
set_option linter.dupNamespace false

/-!
# Taking and giving back

A history of moves, the newest one first, in which one resource at a time may be held. A
second one must not be taken before the first is given back, nothing is given back that is not
held, and some moves need empty hands.
-/
namespace Jagles.HeldResources

inductive Move where
  | take
  | give
  | need
  | other
  deriving DecidableEq

/-- Whether the resource is held after a move, if the rules have been kept. -/
def follow : Move → Option Bool → Option Bool
  | .take, some false => some true
  | .give, some true => some false
  | .need, some false => some false
  | .other, b => b
  | _, _ => none

def held (moves : List Move) : Option Bool := moves.foldr follow (some false)

@[simp] theorem held_nil : held [] = some false := rfl

@[simp] theorem held_cons (m : Move) (moves : List Move) :
    held (m :: moves) = follow m (held moves) := rfl

theorem follow_none (m : Move) : follow m none = none := by cases m <;> rfl

theorem held_append_none {late early : List Move} (h : held early = none) :
    held (late ++ early) = none := by
  induction late with
  | nil => exact h
  | cons m late ih => rw [List.cons_append, held_cons, ih, follow_none]

/-- With something held, and nothing taken since, the hands are empty again after one move that
gives it back. -/
theorem held_since {moves early : List Move} {b : Bool} (h : held (moves ++ early) = some b)
    (hheld : held early = some true) (hnone : .take ∉ moves) :
    moves.count .give + b.toNat = 1 := by
  induction moves generalizing b with
  | nil =>
    obtain rfl : true = b := Option.some.inj (hheld.symm.trans h)
    rfl
  | cons m moves ih =>
    rw [List.cons_append, held_cons] at h
    have htail : .take ∉ moves := fun hm => hnone (List.mem_cons_of_mem _ hm)
    cases hmid : held (moves ++ early) with
    | none =>
      rw [hmid, follow_none] at h
      cases h
    | some c =>
      have hcount := ih hmid htail
      rw [hmid] at h
      cases m with
      | take => exact absurd List.mem_cons_self hnone
      | give =>
        cases c with
        | false => cases h
        | true =>
          obtain rfl : false = b := Option.some.inj h
          simpa [List.count_cons] using hcount
      | need =>
        cases c with
        | true => cases h
        | false =>
          obtain rfl : false = b := Option.some.inj h
          simpa [List.count_cons] using hcount
      | other =>
        obtain rfl : c = b := Option.some.inj h
        simpa [List.count_cons] using hcount

/-- What is taken is given back exactly once before the next move that takes or needs empty
hands. -/
theorem given_once {late moves early : List Move} {m : Move}
    (h : held (late ++ m :: moves ++ .take :: early) ≠ none) (hm : m = .take ∨ m = .need)
    (hnone : .take ∉ moves) : moves.count .give = 1 := by
  cases hheld : held (.take :: early) with
  | none => exact absurd (held_append_none hheld) h
  | some b =>
    have htaken : held (.take :: early) = some true := by
      rw [held_cons] at hheld ⊢
      cases hearly : held early with
      | none =>
        rw [hearly] at hheld
        cases hheld
      | some c =>
        cases c with
        | true =>
          rw [hearly] at hheld
          cases hheld
        | false => rfl
    cases hmid : held (moves ++ .take :: early) with
    | none =>
      refine absurd ?_ h
      rw [List.append_assoc]
      exact held_append_none (by rw [List.cons_append, held_cons, hmid, follow_none])
    | some c =>
      have hcount := held_since hmid htaken hnone
      cases c with
      | false => simpa using hcount
      | true =>
        refine absurd ?_ h
        rw [List.append_assoc]
        refine held_append_none ?_
        rw [List.cons_append, held_cons, hmid]
        rcases hm with rfl | rfl <;> rfl

end Jagles.HeldResources
