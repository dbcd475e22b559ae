import LeanLibp2p.Lib.Dialogue

/-!
# Reading from a sequence

A read function over a fixed sequence, which gives at least one of the bytes it is asked for as long
as there are any, and no more at the end. A program that only reads is run on it to its result.
-/

namespace LeanLibp2p.Lib

variable {β ε α γ : Type}

/-- How a read function splits a sequence. -/
structure Source (ε : Type) where
  /-- The bytes that a call gives, of those it is asked for and those that are left. -/
  size : (call len left : Nat) → Nat
  /-- What a call answers at the end: an error, or no bytes. -/
  ending : (call : Nat) → Option ε
  pos {call len left : Nat} : 0 < len → 0 < left → 0 < size call len left
  le_len {call len left : Nat} : size call len left ≤ len
  le_left {call len left : Nat} : size call len left ≤ left

namespace Source

/-- The answer to a call. -/
def answer (s : Source ε) (call len : Nat) (data : List β) : Except ε (List β) :=
  if data = [] then
    match s.ending call with
    | some e => .error e
    | none => .ok []
  else .ok (data.take (s.size call len data.length))

/-- The result of a program that only reads, the number of calls made by then and the bytes that are
    left. -/
def run (s : Source ε) : Proc β ε α → (call : Nat) → (data : List β) →
    Option (Except ε α × Nat × List β)
  | .ret a, call, data => some (.ok a, call, data)
  | .fail e, call, data => some (.error e, call, data)
  | .again, _, _ => none
  | .write _ _, _, _ => none
  | .read len k, call, data =>
    run s (k (s.answer call len data)) (call + 1) (data.drop (s.size call len data.length))

variable {s : Source ε} {p : Proc β ε α} {f : α → Proc β ε γ} {call calls : Nat}
  {data left : List β}

theorem run_bind_ok {a : α} (h : s.run p call data = some (.ok a, calls, left)) :
    s.run (p >>= f) call data = s.run (f a) calls left := by
  induction p generalizing call data with
  | ret b =>
    cases h
    rfl
  | fail e => cases h
  | again => cases h
  | write _ _ _ => cases h
  | read len k ih => exact ih _ h

theorem run_bind_error {e : ε} (h : s.run p call data = some (.error e, calls, left)) :
    s.run (p >>= f) call data = some (.error e, calls, left) := by
  induction p generalizing call data with
  | ret b => cases h
  | fail e' =>
    cases h
    rfl
  | again => cases h
  | write _ _ _ => cases h
  | read len k ih => exact ih _ h

end Source

end LeanLibp2p.Lib
