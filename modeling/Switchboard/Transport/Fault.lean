import Switchboard.Decimal.Layout

/-!
Why a transport did not take a message.  Time limits are whole milliseconds.
-/

namespace Switchboard

/-- A length of time in milliseconds. -/
abbrev Millis := Nat

/-- The written form: the largest unit that leaves a whole part, with a fraction of seconds
written without trailing zeros. -/
def Millis.text (span : Millis) : String :=
  if span = 0 then "0ns"
  else if span < 1000 then s!"{span}ms"
  else
    let digits := Decimal.digitsOf (1000 + span % 1000)
    let fraction := ((digits.drop 1).reverse.dropWhile (· == '0')).reverse
    let point := if fraction.isEmpty then "" else "."
    s!"{span / 1000}{point}{String.ofList fraction}s"

example : Millis.text 1001 = "1.001s" := by decide +kernel
example : Millis.text 1500 = "1.5s" := by decide +kernel
example : Millis.text 60000 = "60s" := by decide +kernel

/-- The causes of a failed send. -/
inductive TransportFault where
  | connection (reason : String)
  | rejected (reason : String)
  | timeout (limit : Millis)
  | closed
  | unavailable (family : String)
  | panicked
deriving DecidableEq, Repr

/-- The wording of a cause. -/
def TransportFault.message : TransportFault → String
  | .connection reason => s!"connection failed: {reason}"
  | .rejected reason => s!"rejected by broker: {reason}"
  | .timeout limit => s!"timed out after {Millis.text limit}"
  | .closed => "transport is closed"
  | .unavailable family => s!"no transport registered for '{family}'"
  | .panicked => "transport task panicked"

end Switchboard
