import MarketMaking.Error
import MarketMaking.Summary

/-!
# Recorders

Sinks for the records of steps.
-/

namespace MarketMaking

/-- A sink with states in `K`. Both operations may fail. -/
class Recorder (K : Type) (R : outParam Type) where
  /-- Take in the record of a step. -/
  record : K → StepRecord R → Except (Error R) Unit × K
  /-- Write out what has been taken in. -/
  flush : K → Except (Error R) Unit × K

/-- The text of the failure to write to a full device. -/
def noSpace : String := "No space left on device (os error 28)"

/-- Discards every record. -/
structure Discard (R : Type) where
  deriving Repr

instance {R : Type} : Recorder (Discard R) R where
  record k _ := (.ok (), k)
  flush k := (.ok (), k)

/-- Keeps every record in order. -/
structure Collected (R : Type) where
  rows : Array (StepRecord R)
  deriving Repr

instance {R : Type} : Recorder (Collected R) R where
  record k row := (.ok (), ⟨k.rows.push row⟩)
  flush k := (.ok (), k)

/-- A recorder in front of another one that refuses one of the records, or the flush, and counts
what the other one accepted and how often it was asked to flush. -/
structure Interrupted (K : Type) where
  inner : K
  /-- The number of records to pass on before one is refused. -/
  refuseAfter : Option Nat
  /-- Is the flush refused? -/
  refuseFlush : Bool
  accepted : Nat
  flushes : Nat

instance {K R : Type} [Recorder K R] : Recorder (Interrupted K) R where
  record k row :=
    if k.refuseAfter = some k.accepted then (.error (.io "recorder full"), k)
    else
      match Recorder.record k.inner row with
      | (.ok (), inner) => (.ok (), { k with inner, accepted := k.accepted + 1 })
      | (.error e, inner) => (.error e, { k with inner })
  flush k :=
    let k := { k with flushes := k.flushes + 1 }
    if k.refuseFlush then (.error (.io "flush failed"), k)
    else
      let (result, inner) := Recorder.flush k.inner
      (result, { k with inner })

end MarketMaking
