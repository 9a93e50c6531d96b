import Switchboard.Jms
import Switchboard.Proofs.Admission

/-!
Faults that do not come from a transport.

Everything that can go wrong with a call before its request is on the way is a fault of the call
itself.  So a failed send can be told from a call that never got to the transport by its kind.
-/

namespace Switchboard

/-- A computation whose faults are not those of a send. -/
def Offline {A : Type} (result : Checked A) : Prop :=
  ∀ fault, result = .error fault → fault.kind ≠ .connectorExecutionFailure

namespace Offline

variable {A B : Type}

theorem ok (value : A) : Offline (.ok value) := by
  rintro fault ⟨⟩

theorem error {fault : Fault} (h : fault.kind ≠ .connectorExecutionFailure) :
    @Offline A (.error fault) := by
  rintro _ ⟨⟩
  exact h

theorem bind {first : Checked A} {next : A → Checked B} (hfirst : Offline first)
    (hnext : ∀ value, Offline (next value)) : Offline (first >>= next) := by
  cases first with
  | error fault => exact error (hfirst fault rfl)
  | ok value => exact hnext value

theorem map {result : Checked A} (h : Offline result) (change : A → B) :
    Offline (result.map change) := by
  cases result with
  | error fault => exact error (h fault rfl)
  | ok value => exact ok (change value)

theorem mismatch (value : Value) (expected : ValueType) :
    @Offline A (value.mismatch expected) :=
  error FaultKind.noConfusion

theorem asString (value : Value) : Offline value.asString := by
  cases value with
  | string text => exact ok text
  | _ => exact mismatch _ _

theorem asMessage (value : Value) : Offline value.asMessage := by
  cases value with
  | message id => exact ok id
  | _ => exact mismatch _ _

mutual

theorem toJson : ∀ value : Value, Offline value.toJson
  | .integer _ => ok _
  | .float _ => ok _
  | .boolean _ => ok _
  | .string _ => ok _
  | .map entries => by
      have hentries := entriesToJson entries
      simp only [Value.toJson]
      split
      · exact ok _
      · next fault heq => exact error (hentries fault heq)
  | .message _ => mismatch _ _
  | .connector _ => mismatch _ _

theorem entriesToJson : ∀ entries : List (String × Value), Offline (Value.entriesToJson entries)
  | [] => ok _
  | (_, value) :: rest => by
      have hvalue := toJson value
      have hrest := entriesToJson rest
      simp only [Value.entriesToJson]
      split
      · next fault heq => exact error (hvalue fault heq)
      · split
        · exact ok _
        · next fault heq => exact error (hrest fault heq)

end

/-! ## Admission -/

theorem checkMode (descriptor : Descriptor) (mode : CallMode) :
    Offline (descriptor.checkMode mode) := by
  simp only [Descriptor.checkMode]
  split
  · exact ok ()
  · split
    · exact ok ()
    · exact error FaultKind.noConfusion

theorem checkArity (descriptor : Descriptor) (arguments : List Value) :
    Offline (descriptor.checkArity arguments) := by
  simp only [Descriptor.checkArity]
  split
  · exact ok ()
  · exact error FaultKind.noConfusion

theorem checkTypes (function : String) (index : Nat) (params : List Param)
    (arguments : List Value) : Offline (Descriptor.checkTypes function index params arguments) := by
  induction params generalizing index arguments with
  | nil => exact ok ()
  | cons param params ih =>
      cases arguments with
      | nil => exact ok ()
      | cons argument arguments =>
          simp only [Descriptor.checkTypes]
          split
          · exact ih (index + 1) arguments
          · exact error FaultKind.noConfusion

theorem resolveTarget (contribution : Contribution) (name : String) (arguments : List Value) :
    Offline (contribution.resolveTarget name arguments) := by
  cases contribution with
  | function native => exact ok _
  | action native =>
      apply bind _ fun connector => ok _
      simp only [Action.resolveConnector]
      split
      · split
        · exact ok _
        · exact error FaultKind.noConfusion
      · exact error FaultKind.noConfusion
      · exact error FaultKind.noConfusion

/-- A call that is refused has not reached a transport. -/
theorem check (registry : Registry) (mode : CallMode) (name : String) (arguments : List Value) :
    Offline (registry.check mode name arguments) := by
  simp only [Registry.check]
  split
  · exact error FaultKind.noConfusion
  · apply bind (checkMode _ mode)
    intro _
    apply bind (resolveTarget _ name arguments)
    intro target
    apply bind (checkArity _ arguments)
    intro _
    apply bind (checkTypes name 0 _ arguments)
    intro _
    exact ok _

/-! ## `net.jms:send` -/

theorem body (message : Message) (kind : MessageKind) : Offline (Jms.body message kind) := by
  have hstring (kind : MessageKind) (bytesToo : Bool) :
      Offline (Jms.stringBody kind bytesToo message) := by
    unfold Jms.stringBody
    split
    · exact ok _
    · exact error FaultKind.noConfusion
    · exact ok _
    · dsimp only
      split
      · exact ok _
      · exact error FaultKind.noConfusion
  cases kind with
  | text => exact hstring .text false
  | bytes => exact hstring .bytes true
  | generic => exact ok _
  | map =>
      simp only [Jms.body, Jms.mapBody]
      split
      · exact ok _
      · exact error FaultKind.noConfusion
      · exact ok _
      · exact error FaultKind.noConfusion
  | object =>
      simp only [Jms.body, Jms.objectBody]
      split
      · exact map (toJson _) _
      · exact ok _

theorem validate (arguments : List Value) : Offline (Jms.validate arguments) := by
  have hdestination (destination : String) : Offline
      (if Text.isBlank destination then
        .error (.validationFailure Jms.action "destination name is empty")
      else .ok ()) := by
    split
    · exact error FaultKind.noConfusion
    · exact ok ()
  simp only [Jms.validate]
  split
  · exact bind (asString _) hdestination
  · exact hdestination ""

theorem prepare (store : Store) (arguments : List Value) :
    Offline (Jms.prepare store arguments) := by
  simp only [Jms.prepare]
  split
  · apply bind (asString _)
    intro destination
    apply bind (asString _)
    intro kind
    apply bind (asMessage _)
    intro id
    apply bind (body _ _)
    intro body
    exact ok _
  · exact error FaultKind.noConfusion

end Offline

end Switchboard
