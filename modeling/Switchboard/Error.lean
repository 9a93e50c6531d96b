import Switchboard.Config
import Switchboard.Expr.Reader
import Switchboard.Failure
import Switchboard.Registry

/-!
Everything that can go wrong outside native code, with its written form.
-/

namespace Switchboard

/-- Faults of the engine's own bookkeeping. -/
inductive EngineFault where
  | duplicateTransport (family : String)
  | duplicateConnector (name : String)
  | transportsLeftOpen (families : List String)
deriving DecidableEq, Repr

/-- The wording of a fault. -/
def EngineFault.message : EngineFault → String
  | .duplicateTransport family => s!"transport already registered: {family}"
  | .duplicateConnector name => s!"connector already declared: {name}"
  | .transportsLeftOpen families =>
      "transports failed to shut down: " ++ ", ".intercalate families

/-- Any error. -/
inductive Error where
  | registry (fault : RegistryFault)
  | failure (failure : Failure)
  | transport (fault : TransportFault)
  | config (fault : ConfigFault)
  | parse (error : ReadError)
  | engine (fault : EngineFault)
deriving DecidableEq, Repr

/-- The written form: what part went wrong, then the wording. -/
def Error.text : Error → String
  | .registry cause => "Registry error: " ++ cause.message
  | .failure cause => "Runtime failure: " ++ cause.text
  | .transport cause => "Transport error: " ++ cause.message
  | .config cause => "Config error: " ++ cause.message
  | .parse cause => "Parse error: " ++ cause.text
  | .engine cause => "Internal error: " ++ cause.message

end Switchboard
