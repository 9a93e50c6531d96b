import Switchboard.Startup
import Switchboard.Proofs.Admission

/-!
What a new engine starts with.

Whatever was contributed is registered under its name once the registry is built, and later
contributions do not displace it.  Putting transports and connectors in place leaves nothing to do
and makes no callback fire.
-/

namespace Switchboard

theorem Except.mapError_eq_ok {E F A : Type} {result : Except E A} {change : E → F} {value : A}
    (h : result.mapError change = .ok value) : result = .ok value := by
  cases result with
  | error fault => cases h
  | ok found =>
      cases h
      rfl

namespace Registry

variable {registry built : Registry} {contribution : Contribution}

theorem register_eq_ok (h : registry.register contribution = .ok built) :
    ∃ descriptor, contribution.describe = .ok descriptor ∧
      registry.find? descriptor.name.text = none ∧
      built.entries = registry.entries ++ [⟨descriptor, contribution⟩] := by
  obtain ⟨descriptor, hdescribe, hregister⟩ := Except.bind_eq_ok.1 h
  refine ⟨descriptor, hdescribe, ?_⟩
  split at hregister
  · cases hregister
  · next hfree =>
    cases hregister
    refine ⟨?_, rfl⟩
    rcases hfound : registry.find? descriptor.name.text with _ | entry
    · rfl
    · refine absurd ?_ hfree
      simp only [contains]
      rw [hfound]
      rfl

/-- What is found stays to be found. -/
theorem find?_register {name : String} {entry : Entry} (hfound : registry.find? name = some entry)
    (h : registry.register contribution = .ok built) : built.find? name = some entry := by
  obtain ⟨descriptor, -, -, hentries⟩ := register_eq_ok h
  simp only [find?] at hfound ⊢
  rw [hentries, List.find?_append, hfound]
  rfl

/-- What was registered is found. -/
theorem find?_register_self {descriptor : Descriptor}
    (hdescribe : contribution.describe = .ok descriptor)
    (h : registry.register contribution = .ok built) :
    built.find? descriptor.name.text = some ⟨descriptor, contribution⟩ := by
  obtain ⟨found, hfound, hfree, hentries⟩ := register_eq_ok h
  obtain rfl := Except.ok.inj (hfound.symm.trans hdescribe)
  simp only [find?] at hfree ⊢
  rw [hentries, List.find?_append, hfree]
  simp [Entry.key]

theorem find?_registerAll {name : String} {entry : Entry} {contributions : List Contribution}
    (hfound : registry.find? name = some entry)
    (h : registry.registerAll contributions = .ok built) : built.find? name = some entry := by
  induction contributions generalizing registry with
  | nil =>
      cases h
      exact hfound
  | cons contribution rest ih =>
      obtain ⟨next, hnext, hrest⟩ := Except.bind_eq_ok.1 h
      exact ih (find?_register hfound hnext) hrest

/-- Whatever was contributed is found under its name. -/
theorem find?_of_mem {contributions : List Contribution} {descriptor : Descriptor}
    (hmem : contribution ∈ contributions) (hdescribe : contribution.describe = .ok descriptor)
    (h : registry.registerAll contributions = .ok built) :
    built.find? descriptor.name.text = some ⟨descriptor, contribution⟩ := by
  induction contributions generalizing registry with
  | nil => cases hmem
  | cons head rest ih =>
      obtain ⟨next, hnext, hrest⟩ := Except.bind_eq_ok.1 h
      rcases List.mem_cons.1 hmem with rfl | hmem
      · exact find?_registerAll (find?_register_self hdescribe hnext) hrest
      · exact ih hmem hrest

/-- Whatever is registered was contributed, and is described as it describes itself. -/
theorem mem_of_registerAll {contributions : List Contribution} {entry : Entry}
    (h : registry.registerAll contributions = .ok built) (hentry : entry ∈ built.entries) :
    entry ∈ registry.entries ∨ entry.contribution ∈ contributions ∧
      entry.contribution.describe = .ok entry.descriptor := by
  induction contributions generalizing registry with
  | nil =>
      cases h
      exact .inl hentry
  | cons head rest ih =>
      obtain ⟨next, hnext, hrest⟩ := Except.bind_eq_ok.1 h
      rcases ih hrest with hmem | ⟨hmem, hdescribe⟩
      · obtain ⟨descriptor, hdescribe, -, hentries⟩ := register_eq_ok hnext
        rw [hentries, List.mem_append, List.mem_singleton] at hmem
        rcases hmem with hmem | rfl
        · exact .inl hmem
        · exact .inr ⟨List.mem_cons_self, hdescribe⟩
      · exact .inr ⟨List.mem_cons_of_mem head hmem, hdescribe⟩

end Registry

/-! ## The world at the start -/

/-- Nothing is left to do and no callback has fired. -/
structure World.IsNew (world : World) : Prop where
  tasks : world.tasks = []
  deliveries : world.deliveries = []

namespace World

variable {world next : World}

/-- The family was free, and the transport serves it now. -/
theorem registerTransport_eq_ok {transport : Transport}
    (h : world.registerTransport transport = .ok next) :
    Entries.find? transport.protocol world.transports = none ∧
      next = { world with
        transports := Entries.bind transport.protocol transport world.transports } := by
  simp only [registerTransport] at h
  split at h
  · cases h
  · next hfree =>
    cases h
    exact ⟨hfree, rfl⟩

theorem IsNew.registerTransports (hnew : world.IsNew) {transports : List Transport}
    (h : world.registerTransports transports = .ok next) : next.IsNew := by
  induction transports generalizing world with
  | nil =>
      cases h
      exact hnew
  | cons transport rest ih =>
      obtain ⟨between, hbetween, hrest⟩ := Except.bind_eq_ok.1 h
      obtain ⟨-, rfl⟩ := registerTransport_eq_ok hbetween
      apply ih _ hrest
      exact ⟨hnew.tasks, hnew.deliveries⟩

theorem IsNew.declareAll (hnew : world.IsNew) (connectors : Entries ConnectorConfig) :
    (world.declareAll connectors).2.IsNew := by
  induction connectors generalizing world with
  | nil => exact hnew
  | cons connector rest ih =>
      simp only [World.declareAll]
      simp only [declare]
      rcases Entries.find? connector.1 world.connectors with _ | found
      · apply ih
        exact ⟨hnew.tasks, hnew.deliveries⟩
      · exact hnew

end World

namespace Blueprint

variable {blueprint : Blueprint} {engine : Engine} {world : World}

theorem isNew_of_furnish (h : blueprint.furnish = .ok world) : world.IsNew := by
  obtain ⟨furnished, htransports, hconnectors⟩ := Except.bind_eq_ok.1 h
  have hfurnished : furnished.IsNew := World.IsNew.registerTransports ⟨rfl, rfl⟩ htransports
  have hdeclared := hfurnished.declareAll blueprint.config.connectors.entries
  split at hconnectors
  · next heq =>
    cases hconnectors
    rw [heq] at hdeclared
    exact hdeclared
  · cases hconnectors

theorem build_eq_ok (h : blueprint.build = .ok (engine, world)) :
    Registry.build (Library.contributions ++ blueprint.contributions) = .ok engine.registry ∧
      blueprint.furnish = .ok world ∧ engine.operators = .standard := by
  simp only [build] at h
  split at h
  · cases h
  · next parts hcheck =>
    split at h
    · cases h
      obtain ⟨_, -, hparts⟩ := Except.bind_eq_ok.1 hcheck
      obtain ⟨registry, hregistry, hparts⟩ := Except.bind_eq_ok.1 hparts
      obtain ⟨furnished, hfurnish, hparts⟩ := Except.bind_eq_ok.1 hparts
      cases hparts
      exact ⟨Except.mapError_eq_ok hregistry, Except.mapError_eq_ok hfurnish, rfl⟩
    · cases h

/-- An engine that was built finds what the library contributes. -/
theorem find?_of_build (h : blueprint.build = .ok (engine, world)) {contribution : Contribution}
    (hmem : contribution ∈ Library.contributions) {descriptor : Descriptor}
    (hdescribe : contribution.describe = .ok descriptor) :
    engine.registry.find? descriptor.name.text = some ⟨descriptor, contribution⟩ :=
  Registry.find?_of_mem (List.mem_append_left _ hmem) hdescribe (build_eq_ok h).1

/-- An engine that was built has nothing to do. -/
theorem isNew_of_build (h : blueprint.build = .ok (engine, world)) : world.IsNew :=
  isNew_of_furnish (build_eq_ok h).2.1

end Blueprint

end Switchboard
