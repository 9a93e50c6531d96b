/-!
How a native call is consumed: its value is awaited, or a callback is registered for it.  A
connector action may support either way, both, or (which no registry accepts) neither.
-/

namespace Switchboard

/-- One way to consume a call. -/
inductive CallMode where
  | blocking
  | callback
deriving DecidableEq, Repr

def CallMode.name : CallMode → String
  | .blocking => "blocking"
  | .callback => "callback"

/-- The way of this name. -/
def CallMode.ofName? : String → Option CallMode
  | "blocking" => some .blocking
  | "callback" => some .callback
  | _ => none

theorem CallMode.ofName?_name (mode : CallMode) : CallMode.ofName? mode.name = some mode := by
  cases mode <;> rfl

/-- The ways that an action supports. -/
structure CallModes where
  blocking : Bool
  callback : Bool
deriving DecidableEq, Repr

namespace CallModes

def both : CallModes := ⟨true, true⟩
def blockingOnly : CallModes := ⟨true, false⟩
def callbackOnly : CallModes := ⟨false, true⟩
def none : CallModes := ⟨false, false⟩

/-- The ways of this name. -/
def ofName? : String → Option CallModes
  | "both" => some both
  | "blocking" => some blockingOnly
  | "callback" => some callbackOnly
  | "none" => some none
  | _ => Option.none

def supports (modes : CallModes) : CallMode → Bool
  | .blocking => modes.blocking
  | .callback => modes.callback

/-- No way at all. -/
def isEmpty (modes : CallModes) : Bool :=
  !modes.blocking && !modes.callback

theorem isEmpty_iff (modes : CallModes) :
    modes.isEmpty = true ↔ ∀ mode, modes.supports mode = false := by
  rcases modes with ⟨blocking, callback⟩
  constructor
  · intro h mode
    cases mode <;> simp_all [isEmpty, supports]
  · intro h
    have hb := h .blocking
    have hc := h .callback
    simp_all [isEmpty, supports]

end CallModes

end Switchboard
