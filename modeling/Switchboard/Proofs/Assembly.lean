import Mathlib.Data.List.Forall2
import Switchboard.Proofs.ConfigText
import Switchboard.Proofs.Slots
import Switchboard.Proofs.Startup

/-!
Which engines can be put together.

A configuration that was read is acceptable, and then nothing is left to go wrong but the size of
the diagnostics buffer: the library can be registered, transports of distinct families do not get in
each other's way, and neither do the connectors, whose names are distinct because they are the names
of an object.  A fresh context binds these connectors and nothing else.

The size of the buffer is never looked at from above.  A configuration that asks for more slots than
there can be is acceptable too, and building its engine panics.
-/

namespace Switchboard

/-- The connector that is declared with these settings. -/
structure Connector.IsDeclared (connector : Connector) (name : String) (config : ConnectorConfig) :
    Prop where
  name : connector.name = name
  family : connector.family = config.family
  properties : connector.properties = config.properties

/-- What is declared under each name, entry by entry. -/
abbrev Declares (declared : Entries ConnectorConfig) (connectors : Entries Connector) : Prop :=
  List.Forall₂ (fun config connector =>
    connector.1 = config.1 ∧ connector.2.IsDeclared config.1 config.2) declared connectors

/-- Exactly these connectors are bound, each under its name. -/
structure Context.Binds (context : Context) (declared : Dict ConnectorConfig) : Prop where
  bound : ∀ name config, declared.find? name = some config →
    ∃ connector, context.get? name = some (.connector connector) ∧
      connector.IsDeclared name config
  unbound : ∀ name, declared.find? name = none → context.get? name = none

namespace World

/-! ## Transports and connectors -/

variable {world : World}

/-- A transport of a family that is free is registered. -/
theorem exists_registerTransport {transport : Transport}
    (hfree : Entries.find? transport.protocol world.transports = none) :
    ∃ next, world.registerTransport transport = .ok next ∧
      next.transports = Entries.bind transport.protocol transport world.transports ∧
      next.connectors = world.connectors := by
  simp only [registerTransport, hfree]
  exact ⟨_, rfl, rfl, rfl⟩

theorem exists_registerTransports {transports : List Transport}
    (hdistinct : (transports.map Transport.protocol).Nodup)
    (hfree : ∀ transport ∈ transports,
      Entries.find? transport.protocol world.transports = none) :
    ∃ next, world.registerTransports transports = .ok next ∧
      next.connectors = world.connectors := by
  induction transports generalizing world with
  | nil => exact ⟨world, rfl, rfl⟩
  | cons transport rest ih =>
      rw [List.map_cons, List.nodup_cons] at hdistinct
      obtain ⟨hhead, hrest⟩ := List.forall_mem_cons.1 hfree
      obtain ⟨between, hregister, htransports, hconnectors⟩ := exists_registerTransport hhead
      have hstill : ∀ other ∈ rest,
          Entries.find? other.protocol between.transports = none := by
        intro other hother
        have hne : transport.protocol ≠ other.protocol := by
          intro heq
          exact hdistinct.1 (heq ▸ List.mem_map_of_mem hother)
        rw [htransports, Entries.find?_bind, if_neg hne]
        exact hrest other hother
      obtain ⟨next, hnext, hkept⟩ := ih hdistinct.2 hstill
      refine ⟨next, ?_, hkept.trans hconnectors⟩
      simp only [registerTransports, hregister]
      exact hnext

/-- A connector under a name that is free is declared. -/
theorem exists_declare {name : String} (hfree : name ∉ Entries.names world.connectors)
    (config : ConnectorConfig) :
    ∃ connector next, world.declare name config.family config.properties = .ok (connector, next) ∧
      next.connectors = world.connectors ++ [(name, connector)] ∧
      connector.IsDeclared name config := by
  simp only [declare, Entries.find?_eq_none_iff.2 hfree]
  exact ⟨_, _, rfl, Entries.bind_of_not_mem _ hfree, ⟨rfl, rfl, rfl⟩⟩

/-- Connectors under distinct names that are free are all declared. -/
theorem exists_declareAll {declared : Entries ConnectorConfig}
    (hdistinct : (Entries.names declared).Nodup)
    (hfree : ∀ name ∈ Entries.names declared, name ∉ Entries.names world.connectors) :
    ∃ next connectors, world.declareAll declared = (.ok (), next) ∧
      next.connectors = world.connectors ++ connectors ∧ Declares declared connectors := by
  induction declared generalizing world with
  | nil => exact ⟨world, [], rfl, (List.append_nil _).symm, .nil⟩
  | cons entry rest ih =>
      obtain ⟨name, config⟩ := entry
      rw [Entries.names_cons, List.nodup_cons] at hdistinct
      obtain ⟨hhead, hrest⟩ := List.forall_mem_cons.1 hfree
      obtain ⟨connector, between, hdeclare, hconnectors, hdeclared⟩ := exists_declare hhead config
      have hstill : ∀ other ∈ Entries.names rest,
          other ∉ Entries.names between.connectors := by
        intro other hother hmem
        rw [hconnectors, Entries.names, List.map_append, List.mem_append] at hmem
        rcases hmem with hmem | hmem
        · exact hrest other hother hmem
        · rw [List.map_singleton, List.mem_singleton] at hmem
          exact hdistinct.1 (hmem ▸ hother)
      obtain ⟨next, connectors, hall, hadded, hdeclares⟩ := ih hdistinct.2 hstill
      refine ⟨next, (name, connector) :: connectors, ?_, ?_, .cons ⟨rfl, hdeclared⟩ hdeclares⟩
      · simp only [declareAll, hdeclare]
        exact hall
      · rw [hadded, hconnectors, List.append_assoc]
        rfl

end World

/-! ## A fresh context -/

namespace Context

variable {context : Context} {connectors : List Connector}

/-- The connectors, each bound under its name. -/
abbrev withConnectors (context : Context) (connectors : List Connector) : Context :=
  connectors.foldl (fun context connector => context.set connector.name (.connector connector))
    context

theorem get?_withConnectors_of_not_mem {name : String}
    (h : name ∉ connectors.map Connector.name) :
    (context.withConnectors connectors).get? name = context.get? name := by
  induction connectors generalizing context with
  | nil => rfl
  | cons connector rest ih =>
      rw [List.map_cons, List.mem_cons, not_or] at h
      rw [withConnectors, List.foldl_cons, ih h.2, get?_set, if_neg (Ne.symm h.1)]

theorem get?_withConnectors_of_mem (hdistinct : (connectors.map Connector.name).Nodup)
    {connector : Connector} (hmem : connector ∈ connectors) :
    (context.withConnectors connectors).get? connector.name = some (.connector connector) := by
  induction connectors generalizing context with
  | nil => cases hmem
  | cons head rest ih =>
      rw [List.map_cons, List.nodup_cons] at hdistinct
      rw [withConnectors, List.foldl_cons]
      rcases List.mem_cons.1 hmem with rfl | hmem
      · rw [get?_withConnectors_of_not_mem hdistinct.1, get?_set, if_pos rfl]
      · exact ih hdistinct.2 hmem

end Context

namespace Declares

variable {declared : Entries ConnectorConfig} {connectors : Entries Connector}

theorem names (h : Declares declared connectors) :
    (connectors.map Prod.snd).map Connector.name = Entries.names declared := by
  induction h with
  | nil => rfl
  | cons hhead _ ih =>
      rw [List.map_cons, List.map_cons, ih, hhead.2.name]
      rfl

theorem exists_mem (h : Declares declared connectors) {name : String} {config : ConnectorConfig}
    (hfound : Entries.find? name declared = some config) :
    ∃ connector ∈ connectors.map Prod.snd, connector.IsDeclared name config := by
  induction h with
  | nil => cases hfound
  | cons hhead _ ih =>
      rw [Entries.find?] at hfound
      split at hfound
      · next heq =>
        cases hfound
        exact ⟨_, List.mem_cons_self, heq ▸ hhead.2⟩
      · obtain ⟨connector, hmem, hdeclared⟩ := ih hfound
        exact ⟨connector, List.mem_cons_of_mem _ hmem, hdeclared⟩

end Declares

/-- A fresh context binds what was declared. -/
theorem World.newContext_binds {world : World} {declared : Dict ConnectorConfig}
    (h : Declares declared.entries world.connectors) : world.newContext.1.Binds declared := by
  have hperm : world.connectorsByName.Perm (world.connectors.map Prod.snd) :=
    (Entries.sorted_perm world.connectors).map Prod.snd
  have hnames : (world.connectorsByName.map Connector.name).Perm
      (Entries.names declared.entries) := by
    rw [← h.names]
    exact hperm.map Connector.name
  constructor
  · intro name config hfound
    obtain ⟨connector, hmem, hdeclared⟩ := h.exists_mem hfound
    refine ⟨connector, ?_, hdeclared⟩
    rw [← hdeclared.name]
    exact Context.get?_withConnectors_of_mem (hnames.nodup_iff.2 declared.distinct)
      (hperm.mem_iff.2 hmem)
  · intro name hnone
    have habsent : name ∉ world.connectorsByName.map Connector.name := by
      rw [hnames.mem_iff]
      exact Entries.find?_eq_none_iff.1 hnone
    exact Context.get?_withConnectors_of_not_mem habsent

/-! ## The engine -/

namespace Blueprint

variable {config : Config} {transports : List Transport}

theorem exists_furnish (config : Config)
    (hdistinct : (transports.map Transport.protocol).Nodup) (contributions : List Contribution) :
    ∃ world, furnish ⟨config, contributions, transports⟩ = .ok world ∧
      Declares config.connectors.entries world.connectors := by
  have hfree : ∀ transport ∈ transports, Entries.find? transport.protocol
      (World.start (.ofSlots config.diagnosticsBufferSize)).transports = none := fun _ _ => rfl
  obtain ⟨between, hregister, hnone⟩ := World.exists_registerTransports hdistinct hfree
  change between.connectors = [] at hnone
  have hunused : ∀ name ∈ Entries.names config.connectors.entries,
      name ∉ Entries.names between.connectors := by
    intro name _
    rw [hnone]
    exact List.not_mem_nil
  obtain ⟨world, connectors, hdeclare, hconnectors, hdeclares⟩ :=
    World.exists_declareAll config.connectors.distinct hunused
  rw [hnone, List.nil_append] at hconnectors
  refine ⟨world, ?_, hconnectors ▸ hdeclares⟩
  simp only [furnish, hregister, bind, Except.bind, hdeclare]

theorem exists_build_library : ∃ registry, Registry.build Library.contributions = .ok registry := by
  have hbuilds : (Registry.build Library.contributions).isOk = true := by decide +kernel
  rcases hbuild : Registry.build Library.contributions with fault | registry
  · rw [hbuild] at hbuilds
    cases hbuilds
  · exact ⟨registry, rfl⟩

/-- An acceptable blueprint passes every check. -/
theorem exists_check (hvalid : config.validate = .ok ())
    (hdistinct : (transports.map Transport.protocol).Nodup) :
    ∃ engine world, check ⟨config, [], transports⟩ = .ok (engine, world) ∧
      engine.config = config ∧ Declares config.connectors.entries world.connectors := by
  obtain ⟨registry, hregistry⟩ := exists_build_library
  obtain ⟨world, hfurnish, hdeclares⟩ := exists_furnish config hdistinct []
  refine ⟨⟨config, registry, .standard⟩, world, ?_, rfl, hdeclares⟩
  simp only [check, hvalid, List.append_nil, hregistry, hfurnish]
  rfl

theorem build_of_check {engine : Engine} {world : World}
    (h : check ⟨config, [], transports⟩ = .ok (engine, world)) :
    build ⟨config, [], transports⟩ =
      if Broadcast.fits config.diagnosticsBufferSize then .ok (engine, world)
      else .error .panicked := by
  simp only [build, h]

/-- Building an engine panics when its buffer cannot be had. -/
theorem build_of_maximalCapacity_lt (hvalid : config.validate = .ok ())
    (hdistinct : (transports.map Transport.protocol).Nodup)
    (hlarge : Broadcast.maximalCapacity < config.diagnosticsBufferSize) :
    build ⟨config, [], transports⟩ = .error .panicked := by
  obtain ⟨engine, world, hcheck, -, -⟩ := exists_check hvalid hdistinct
  rw [build_of_check hcheck, if_neg]
  rw [Broadcast.fits_iff]
  exact Nat.not_le.2 hlarge

/-- A configuration that was read from a text, with transports of distinct families, makes an engine
in whose fresh contexts exactly the configured connectors are bound, provided that the diagnostics
buffer can be had at all.  Where it cannot, nothing is reported: building the engine panics. -/
theorem configurations_that_were_read_build {source : String}
    (hread : Config.ofText source = .ok config)
    (hdistinct : (transports.map Transport.protocol).Nodup) :
    (config.diagnosticsBufferSize ≤ Broadcast.maximalCapacity →
      ∃ engine world, build ⟨config, [], transports⟩ = .ok (engine, world) ∧
        engine.config = config ∧ world.newContext.1.Binds config.connectors) ∧
    (Broadcast.maximalCapacity < config.diagnosticsBufferSize →
      build ⟨config, [], transports⟩ = .error .panicked) := by
  obtain ⟨-, hvalid⟩ := Config.fits_of_ofText hread
  refine ⟨?_, build_of_maximalCapacity_lt hvalid hdistinct⟩
  intro hsmall
  obtain ⟨engine, world, hcheck, hconfig, hdeclares⟩ := exists_check hvalid hdistinct
  refine ⟨engine, world, ?_, hconfig, World.newContext_binds hdeclares⟩
  rw [build_of_check hcheck, if_pos (Broadcast.fits_iff.2 hsmall)]

/-- Two connectors, of which one has properties. -/
def shop : Config :=
  ⟨3, 250, 0, (Dict.empty.bind "orders" ((ConnectorConfig.ofFamily "jms").withProperty "priority"
    "4")).bind "audit" (.ofFamily "mqtt")⟩

/-- The engine of a shop is built, whether or not its transports serve its connectors. -/
theorem configurations_that_were_read_build_shop :
    Config.ofText shop.text = .ok shop ∧
      (([.loopback (.ofProtocol "jms")] : List Transport).map Transport.protocol).Nodup ∧
      shop.diagnosticsBufferSize ≤ Broadcast.maximalCapacity ∧
      ∃ engine world, build ⟨shop, [], [.loopback (.ofProtocol "jms")]⟩ = .ok (engine, world) ∧
        engine.config = shop ∧ world.newContext.1.Binds shop.connectors := by
  have hread : Config.ofText shop.text = .ok shop :=
    Config.ofText_text ⟨by decide, by decide, by decide⟩ (by decide +kernel)
  have hdistinct : (([.loopback (.ofProtocol "jms")] : List Transport).map
      Transport.protocol).Nodup := by decide +kernel
  have hsmall : shop.diagnosticsBufferSize ≤ Broadcast.maximalCapacity := by decide
  exact ⟨hread, hdistinct, hsmall,
    (configurations_that_were_read_build hread hdistinct).1 hsmall⟩

/-- The largest number that can be written is read as the size of the buffer, and no engine can be
built. -/
theorem build_panics_with_largest_buffer :
    ∃ config,
      Config.ofText "\x7b\"diagnostics_buffer_size\":18446744073709551615\x7d" = .ok config ∧
      (ofConfig config).build = .error .panicked := by
  refine ⟨⟨UInt64.size - 1, 30000, 5000, Dict.empty⟩, ?_, ?_⟩
  · have hread :
        (Config.ofText "\x7b\"diagnostics_buffer_size\":18446744073709551615\x7d").toOption =
          some ⟨UInt64.size - 1, 30000, 5000, Dict.empty⟩ := by decide +kernel
    generalize Config.ofText _ = result at hread
    cases result with
    | error fault => cases hread
    | ok config => exact congrArg Except.ok (Option.some.inj hread)
  · exact build_of_maximalCapacity_lt rfl .nil (by decide)

end Blueprint

end Switchboard
