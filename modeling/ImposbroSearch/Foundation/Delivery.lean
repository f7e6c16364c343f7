import Mathlib.Tactic.Common

/-!
# One asynchronous delivery

A client library hands a record to a broker with `send`, which returns a future,
and waits for outstanding futures with `flush`. Either call may raise. What the
broker did with the record is known only to the future: `flush` returns normally
as soon as the future has completed, with a result or with an error.

A `Delivery` is the whole fate of one record pushed through `send(); flush()`
without looking at the future.
-/

namespace ImposbroSearch.Foundation

structure Delivery where
  sendRaises : Bool := false
  acknowledged : Bool := true
  flushRaises : Bool := false
  deriving DecidableEq, Repr

namespace Delivery

/-- `send(); flush()` ran to its end without an exception. -/
def returns (delivery : Delivery) : Bool :=
  !delivery.sendRaises && !delivery.flushRaises

/-- The broker has the record. -/
def accepted (delivery : Delivery) : Bool :=
  !delivery.sendRaises && delivery.acknowledged

/-- Nothing was raised, yet the broker does not have the record. -/
def silentlyLost (delivery : Delivery) : Bool :=
  delivery.returns && !delivery.acknowledged

theorem accepted_of_returns {delivery : Delivery} (returned : delivery.returns = true) :
    delivery.accepted = delivery.acknowledged := by
  simp only [returns, Bool.and_eq_true, Bool.not_eq_true'] at returned
  simp [accepted, returned.1]

/-- A normal return tells acceptance apart exactly up to silent loss. -/
theorem accepted_iff_of_returns {delivery : Delivery} (returned : delivery.returns = true) :
    delivery.accepted = true ↔ delivery.silentlyLost = false := by
  rw [accepted_of_returns returned, silentlyLost, returned, Bool.true_and, Bool.not_eq_false']

end Delivery

end ImposbroSearch.Foundation
