import Switchboard.Proofs.Dispatch
import Switchboard.Proofs.Transports

/-!
Where panics come from.

Nothing panics by itself.  When no native code that is registered panics, and no transport panics on
a send, no evaluation does.  Whether a transport panics is one of its settings or lies in how a peer
answers, and neither is changed by a call, so it is enough to look at the transports once.
-/

namespace Switchboard

/-- A function that never panics. -/
def NativeFunction.Calm (native : NativeFunction) : Prop :=
  ∀ store context arguments, (native.run store context arguments).answer ≠ .error .panicked

/-- An action that does not panic before its request is on the way. -/
structure Action.CalmAtStart (native : Action) : Prop where
  validate : ∀ store arguments, (native.validate store arguments).answer ≠ .error .panicked
  prepare : ∀ store context arguments,
    (native.prepare store context arguments).answer ≠ .error .panicked

/-- An action that never panics. -/
structure Action.Calm (native : Action) : Prop extends native.CalmAtStart where
  complete : ∀ store reply, (native.complete store reply).answer ≠ .error .panicked

def Contribution.Calm : Contribution → Prop
  | .function native => native.Calm
  | .action native => native.Calm

/-- No native code that is registered panics. -/
def Registry.Calm (registry : Registry) : Prop :=
  ∀ entry ∈ registry.entries, entry.contribution.Calm

/-- A transport on which no send panics. -/
def Transport.Calm : Transport → Prop
  | .loopback transport => transport.panicking = false
  | .peer other => ∀ seen request, (other.answer seen request).ending ≠ .panicked

/-- A world in which no send panics on its transport. -/
def World.Calm (world : World) : Prop :=
  ∀ family transport, Entries.find? family world.transports = some transport → transport.Calm

/-- A flight whose end has not been foreseen to be a panic. -/
def Flight.Calm (flight : Flight) : Prop :=
  flight.foreseen ≠ some .panicked

/-- A launch that is not settled by a panic, nor will be. -/
def Launch.Calm : Launch → Prop
  | .settled ending => ending ≠ .panicked
  | .flying flight => flight.Calm

theorem Transport.Served.calm {before after : Transport} (hserved : before.Served after)
    (hcalm : before.Calm) : after.Calm := by
  cases hserved with
  | loopback hserved =>
      have hsetting := hserved.panicking
      exact hsetting.trans hcalm
  | peer _ hanswer =>
      intro seen request
      rw [hanswer]
      exact hcalm seen request

theorem World.Served.calm {world next : World} (hserved : world.Served next)
    (hcalm : world.Calm) : next.Calm := by
  intro family after hafter
  have hrel := hserved family
  rw [hafter] at hrel
  generalize hbefore : Entries.find? family world.transports = found at hrel
  cases hrel with
  | some htransport => exact htransport.calm (hcalm family _ hbefore)

namespace World

variable {world : World}

theorem comeThrough_ne_panicked (family : String) (transport : Loopback) (request : Request) :
    (world.comeThrough family transport request).1 ≠ .panicked := by
  simp only [comeThrough, Loopback.comeThrough]
  cases transport.fault with
  | none => exact SendEnd.noConfusion
  | some fault => exact SendEnd.noConfusion

theorem land_ne_panicked {flight : Flight} (hflight : flight.Calm) :
    (world.land flight).1 ≠ .panicked := by
  simp only [land]
  split
  · split
    · next hforeseen =>
      intro h
      exact hflight (hforeseen.trans (congrArg some h))
    · exact comeThrough_ne_panicked _ _ _
    · exact SendEnd.noConfusion
    · exact SendEnd.noConfusion
  · exact SendEnd.noConfusion

theorem takeOff_calm {flight : Flight} (hflight : flight.Calm) :
    (world.takeOff flight).1.Calm := by
  simp only [takeOff]
  split
  · exact land_ne_panicked hflight
  · exact hflight

theorem launch_calm (hworld : world.Calm) (limit : Millis) (family : String)
    (request : Request) : (world.launch limit family request).1.Calm := by
  simp only [launch]
  split
  · exact SendEnd.noConfusion
  · next transport htransport =>
    have hcalm : transport.panicking = false := hworld family _ (find?_of_transport htransport)
    simp only [Loopback.arrive]
    rw [hcalm]
    by_cases hclosed : transport.closed = true
    · rw [if_pos hclosed]
      exact SendEnd.noConfusion
    · rw [if_neg hclosed, if_neg Bool.false_ne_true]
      rcases transport.delay with _ | _ | delay
      · exact comeThrough_ne_panicked family _ request
      · exact comeThrough_ne_panicked family _ request
      · exact takeOff_calm (by rintro ⟨⟩)
  · next peer htransport =>
    have hcalm := hworld family _ (find?_of_transport htransport) peer.seen request
    split
    · exact hcalm
    · exact takeOff_calm fun h => hcalm (Option.some.inj h)

theorem sendAndWait_ne_panicked (hworld : world.Calm) (limit : Millis) (family : String)
    (request : Request) : (world.sendAndWait limit family request).1 ≠ .panicked := by
  have hlaunch := launch_calm hworld limit family request
  simp only [sendAndWait]
  split
  · next heq =>
    rw [heq] at hlaunch
    exact hlaunch
  · next heq =>
    rw [heq] at hlaunch
    exact land_ne_panicked hlaunch

theorem conclude_ne_panicked {native : Action} (hnative : native.Calm) (name : String)
    {ending : SendEnd} (hending : ending ≠ .panicked) :
    (world.conclude native name ending).1 ≠ .error .panicked := by
  cases ending with
  | reply reply => exact hnative.complete _ reply
  | fault fault => simp [conclude]
  | panicked => exact absurd rfl hending

theorem prepare_ne_panicked {native : Action} (hnative : native.CalmAtStart) (name : String)
    (connector : Connector) (context : Context) (arguments : List Value) :
    (world.prepare native name connector context arguments).1 ≠ .error .panicked := by
  have hprepare := hnative.prepare world.store context arguments
  intro h
  apply hprepare
  revert h
  change (Except.map _ (native.prepare world.store context arguments).answer = _) → _
  rcases (native.prepare world.store context arguments).answer with halt | request
  · exact id
  · intro h
    cases h

theorem runTarget_ne_panicked (hworld : world.Calm) {contribution : Contribution}
    (hcontribution : contribution.Calm) (limit : Millis) (name : String) (context : Context)
    (arguments : List Value) {target : Target}
    (htarget : contribution.resolveTarget name arguments = .ok target) :
    (world.runTarget limit name context arguments target).1 ≠ .error .panicked := by
  rcases Contribution.resolveTarget_eq_ok htarget with
    ⟨native, rfl, rfl⟩ | ⟨native, connector, rfl, rfl, -⟩
  · exact hcontribution _ context arguments
  · have hprepare : (world.prepare native name connector context arguments).1 ≠
        .error .panicked := prepare_ne_panicked hcontribution.toCalmAtStart name connector _ _
    have hafter := changes_prepare world native name connector context arguments
    simp only [runTarget, perform]
    split
    · next halt _ heq =>
      rw [heq] at hprepare
      rintro ⟨⟩
      exact hprepare rfl
    · next heq =>
      rw [heq] at hafter
      have hsend := sendAndWait_ne_panicked (hafter.served.calm hworld) limit connector.family
      exact conclude_ne_panicked hcontribution name (hsend _)

end World

namespace Outcome

variable {A B : Type}

/-- An outcome that is no panic, in a world in which no send panics. -/
structure Calm (outcome : Outcome A) : Prop where
  result : outcome.result ≠ .error .panicked
  world : outcome.world.Calm

theorem Calm.andThen {outcome : Outcome A} {next : A → Context → World → Outcome B}
    (houtcome : outcome.Calm)
    (hnext : ∀ value context (world : World), world.Calm → (next value context world).Calm) :
    (outcome.andThen next).Calm := by
  simp only [Outcome.andThen]
  rcases hresult : outcome.result with halt | value
  · refine ⟨?_, houtcome.world⟩
    rintro ⟨⟩
    exact houtcome.result hresult
  · exact hnext value outcome.context outcome.world houtcome.world

theorem calm_failAt (location : Option Location) (fault : Fault) (context : Context)
    {world : World} (hworld : world.Calm) :
    (failAt location fault context world : Outcome A).Calm :=
  ⟨by rintro ⟨⟩, hworld⟩

theorem calm_checkedAt (location : Option Location) (result : Checked A) (context : Context)
    {world : World} (hworld : world.Calm) :
    (checkedAt location result context world).Calm := by
  cases result with
  | ok value => exact ⟨by rintro ⟨⟩, hworld⟩
  | error fault => exact calm_failAt location fault context hworld

end Outcome

namespace Engine

variable {engine : Engine}

theorem calm_invoke (hregistry : engine.registry.Calm) (name : String) (arguments : List Value)
    (context : Context) {world : World} (hworld : world.Calm) :
    (engine.invoke name arguments context world).Calm := by
  refine ⟨?_, (engine.moves_invoke name arguments context world).served.calm hworld⟩
  rcases engine.invoke_cases name arguments context world with
    ⟨fault, world', -, hinvoke⟩ | ⟨entry, target, hadmits, hinvoke⟩
  · rw [hinvoke]
    rintro ⟨⟩
  · rw [hinvoke, Ne, Descriptor.handOver_eq_panicked_iff]
    have hentry : entry.contribution.Calm := hregistry entry hadmits.mem
    have hbegin : ((world.note (.invoked .blocking name arguments)).emit
        (.ofDispatch name context.location?)).Calm := hworld
    exact World.runTarget_ne_panicked hbegin hentry _ name context arguments hadmits.target

theorem calm_invokeAt (hregistry : engine.registry.Calm) (name : String)
    (arguments : List Value) (location : Option Location) (context : Context) {world : World}
    (hworld : world.Calm) :
    (engine.invokeAt name arguments location context world).Calm := by
  cases location with
  | none => exact calm_invoke hregistry name arguments context hworld
  | some location =>
      have hinvoke := calm_invoke hregistry name arguments (context.pushLocation location) hworld
      simp only [invokeAt, Outcome.leave]
      split
      · exact hinvoke
      · exact ⟨hinvoke.result, hinvoke.world⟩

mutual

theorem calm_evaluate (hregistry : engine.registry.Calm) :
    ∀ (expr : Expr) (context : Context) {world : World}, world.Calm →
      (engine.evaluate expr context world).Calm
  | .literal _, _, _, hworld => ⟨by rintro ⟨⟩, hworld⟩
  | .var _ location, _, _, hworld => Outcome.calm_checkedAt (some location) _ _ hworld
  | .binary _ left right location, context, _, hworld => by
      apply (calm_evaluate hregistry left context hworld).andThen
      intro value context world hworld
      apply (calm_evaluate hregistry right context hworld).andThen
      intro other context world hworld
      exact Outcome.calm_checkedAt (some location) _ _ hworld
  | .call function arguments location, context, _, hworld => by
      apply (calm_evaluateAll hregistry arguments context hworld).andThen
      intro values context world hworld
      apply (calm_invokeAt hregistry function values (some location) context hworld).andThen
      intro value context world hworld
      cases value with
      | some value => exact ⟨by rintro ⟨⟩, hworld⟩
      | none => exact Outcome.calm_failAt (some location) _ _ hworld

theorem calm_evaluateAll (hregistry : engine.registry.Calm) :
    ∀ (exprs : List Expr) (context : Context) {world : World}, world.Calm →
      (engine.evaluateAll exprs context world).Calm
  | [], _, _, hworld => ⟨by rintro ⟨⟩, hworld⟩
  | expr :: rest, context, _, hworld => by
      apply (calm_evaluate hregistry expr context hworld).andThen
      intro value context world hworld
      apply (calm_evaluateAll hregistry rest context hworld).andThen
      intro values context world hworld
      exact ⟨by rintro ⟨⟩, hworld⟩

end

end Engine

end Switchboard
