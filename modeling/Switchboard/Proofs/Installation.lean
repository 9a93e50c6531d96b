import Mathlib.Data.List.Induction
import Mathlib.Data.List.TakeWhile
import Mathlib.Data.String.Basic
import Switchboard.Proofs.Assembly
import Switchboard.Proofs.Envelopes
import Switchboard.Proofs.Equality
import Switchboard.Proofs.Transports

/-!
Who comes first stays.

Connectors are declared one by one or from a configuration, and transports are registered, as often
as anybody likes and in any order.  Each asks for entries under names, in turn, and is granted those
in front of the first name that is taken.  What has been granted is never replaced, so what is there
in the end can be told from what was asked for, and so can what the next one will come to.
-/

namespace Switchboard

/-- Something that is to be put in place. -/
inductive Installation where
  | declare (name family : String) (properties : Dict String)
  | register (transport : Transport)
  | configure (config : Config)

/-! ## Names that are taken -/

namespace Entries

variable {A : Type}

/-- The entries in front of the first one whose name is taken. -/
def untaken (taken : List String) (requested : Entries A) : Entries A :=
  requested.takeWhile fun entry => entry.1 ∉ taken

/-- The first name that is taken. -/
def firstTaken (taken : List String) (requested : Entries A) : Option String :=
  (names requested).find? fun name => name ∈ taken

/-- What has been granted once these have been asked for one after the other. -/
def granted (requests : List (Entries A)) : Entries A :=
  requests.foldl (fun entries requested => entries ++ untaken (names entries) requested) []

variable {taken : List String} {requested : Entries A} {name : String} {value : A}

theorem untaken_cons_of_mem (h : name ∈ taken) :
    untaken taken ((name, value) :: requested) = [] :=
  List.takeWhile_cons_of_neg (by simpa using h)

theorem untaken_cons_of_not_mem (h : name ∉ taken) :
    untaken taken ((name, value) :: requested) = (name, value) :: untaken taken requested :=
  List.takeWhile_cons_of_pos (by simpa using h)

theorem firstTaken_cons_of_mem (h : name ∈ taken) :
    firstTaken taken ((name, value) :: requested) = some name :=
  List.find?_cons_of_pos (by simpa using h)

theorem firstTaken_cons_of_not_mem (h : name ∉ taken) :
    firstTaken taken ((name, value) :: requested) = firstTaken taken requested :=
  List.find?_cons_of_neg (by simpa using h)

theorem firstTaken_eq_none_iff :
    firstTaken taken requested = none ↔ ∀ name ∈ names requested, name ∉ taken := by
  rw [firstTaken, List.find?_eq_none]
  simp only [decide_eq_true_eq]

/-- Where no name is taken, everything is granted. -/
theorem untaken_of_firstTaken_eq_none (h : firstTaken taken requested = none) :
    untaken taken requested = requested := by
  rw [firstTaken_eq_none_iff] at h
  refine List.takeWhile_eq_self_iff.2 fun entry hmem => ?_
  simpa using h entry.1 (List.mem_map_of_mem hmem)

theorem untaken_append_cons {before : Entries A} (behind : Entries A)
    (hbefore : ∀ name ∈ names before, name ∉ taken) (h : name ∈ taken) :
    untaken taken (before ++ (name, value) :: behind) = before := by
  induction before with
  | nil => exact untaken_cons_of_mem h
  | cons entry rest ih =>
      obtain ⟨hhead, hrest⟩ := List.forall_mem_cons.1 hbefore
      rw [List.cons_append, untaken_cons_of_not_mem hhead, ih hrest]

theorem firstTaken_append_cons {before : Entries A} (behind : Entries A)
    (hbefore : ∀ name ∈ names before, name ∉ taken) (h : name ∈ taken) :
    firstTaken taken (before ++ (name, value) :: behind) = some name := by
  induction before with
  | nil => exact firstTaken_cons_of_mem h
  | cons entry rest ih =>
      obtain ⟨hhead, hrest⟩ := List.forall_mem_cons.1 hbefore
      rw [List.cons_append, firstTaken_cons_of_not_mem hhead, ih hrest]

theorem names_untaken (taken : List String) (requested : Entries A) :
    names (untaken taken requested) = (names requested).takeWhile fun name => name ∉ taken := by
  induction requested with
  | nil => rfl
  | cons entry rest ih =>
      obtain ⟨name, value⟩ := entry
      by_cases h : name ∈ taken
      · rw [untaken_cons_of_mem h, names_cons, List.takeWhile_cons_of_neg (by simpa using h)]
        rfl
      · rw [untaken_cons_of_not_mem h, names_cons, names_cons,
          List.takeWhile_cons_of_pos (by simpa using h), ih]

theorem not_mem_of_mem_untaken (h : name ∈ names (untaken taken requested)) :
    name ∉ taken := by
  rw [names_untaken] at h
  simpa using List.mem_takeWhile_imp h

theorem granted_concat (requests : List (Entries A)) (requested : Entries A) :
    granted (requests ++ [requested]) =
      granted requests ++ untaken (names (granted requests)) requested :=
  List.foldl_concat ..

/-- No name is granted twice. -/
theorem nodup_names_granted {requests : List (Entries A)}
    (hdistinct : ∀ requested ∈ requests, (names requested).Nodup) :
    (names (granted requests)).Nodup := by
  induction requests using List.reverseRecOn with
  | nil => exact List.nodup_nil
  | append_singleton earlier last ih =>
      rw [List.forall_mem_append, List.forall_mem_singleton] at hdistinct
      have hlast : (names (untaken (names (granted earlier)) last)).Nodup := by
        rw [names_untaken]
        exact hdistinct.2.sublist (List.takeWhile_sublist _)
      rw [granted_concat, names, List.map_append]
      refine List.Nodup.append (ih hdistinct.1) hlast ?_
      intro name hbefore hnew
      exact not_mem_of_mem_untaken hnew hbefore

/-- Names that are distinct are in strictly increasing order once they are sorted. -/
theorem strictly_pairwise_sorted {entries : Entries A} (hdistinct : (names entries).Nodup) :
    (names (sorted entries)).Pairwise (· < ·) := by
  have hsorted : (names (sorted entries)).Nodup :=
    ((sorted_perm entries).map Prod.fst).nodup_iff.2 hdistinct
  exact ((pairwise_sorted entries).and hsorted).imp fun hle => lt_of_le_of_ne hle.1 hle.2

end Entries

namespace Installation

/-- The connectors that are to be declared, in order. -/
def connectors : Installation → Entries ConnectorConfig
  | declare name family properties => [(name, ⟨family, properties⟩)]
  | register _ => []
  | configure config => config.connectors.entries

/-- The transport that is to be registered, under its family. -/
def transports : Installation → Entries Transport
  | register transport => [(transport.protocol, transport)]
  | _ => []

theorem nodup_connectors (installation : Installation) :
    (Entries.names installation.connectors).Nodup := by
  cases installation with
  | declare name family properties => exact List.nodup_singleton _
  | register transport => exact List.nodup_nil
  | configure config => exact config.connectors.distinct

theorem nodup_transports (installation : Installation) :
    (Entries.names installation.transports).Nodup := by
  cases installation with
  | register transport => exact List.nodup_singleton _
  | declare | configure => exact List.nodup_nil

/-- What is declared once these have come one after the other. -/
def declared (installations : List Installation) : Entries ConnectorConfig :=
  Entries.granted (installations.map connectors)

/-- What is registered once these have come one after the other. -/
def registered (installations : List Installation) : Entries Transport :=
  Entries.granted (installations.map transports)

/-- An installation goes well unless there is something against it. -/
def outcome : Option EngineFault → Except EngineFault Unit
  | none => .ok ()
  | some fault => .error fault

/-- What is against an installation where these names and families are taken. -/
def refusal? (installation : Installation) (names families : List String) : Option EngineFault :=
  ((Entries.firstTaken names installation.connectors).map .duplicateConnector).or
    ((Entries.firstTaken families installation.transports).map .duplicateTransport)

variable (installations : List Installation)

theorem declared_concat (last : Installation) :
    declared (installations ++ [last]) =
      declared installations ++
        Entries.untaken (Entries.names (declared installations)) last.connectors := by
  rw [declared, List.map_append]
  exact Entries.granted_concat ..

theorem registered_concat (last : Installation) :
    registered (installations ++ [last]) =
      registered installations ++
        Entries.untaken (Entries.names (registered installations)) last.transports := by
  rw [registered, List.map_append]
  exact Entries.granted_concat ..

theorem nodup_names_declared : (Entries.names (declared installations)).Nodup := by
  apply Entries.nodup_names_granted
  simpa using fun installation _ => nodup_connectors installation

theorem nodup_names_registered : (Entries.names (registered installations)).Nodup := by
  apply Entries.nodup_names_granted
  simpa using fun installation _ => nodup_transports installation

end Installation

/-- The handles of connectors that are declared one after the other, from this serial number on. -/
def Connector.series (serial : Nat) : Entries ConnectorConfig → Entries Connector
  | [] => []
  | (name, config) :: rest =>
      (name, ⟨serial, name, config.family, config.properties⟩) :: series (serial + 1) rest

namespace Connector

variable (serial : Nat)

@[simp] theorem names_series (declared : Entries ConnectorConfig) :
    Entries.names (series serial declared) = Entries.names declared := by
  induction declared generalizing serial with
  | nil => rfl
  | cons entry rest ih => exact congrArg (entry.1 :: ·) (ih (serial + 1))

theorem series_append (declared added : Entries ConnectorConfig) :
    series serial (declared ++ added) =
      series serial declared ++ series (serial + declared.length) added := by
  induction declared generalizing serial with
  | nil => rfl
  | cons entry rest ih =>
      rw [List.cons_append, series, ih, series, List.length_cons, Nat.add_right_comm serial 1]
      rfl

/-- What is declared in a series is declared as it was asked for. -/
theorem declares_series (declared : Entries ConnectorConfig) :
    Declares declared (series serial declared) := by
  induction declared generalizing serial with
  | nil => exact .nil
  | cons entry rest ih => exact .cons ⟨rfl, rfl, rfl, rfl⟩ (ih (serial + 1))

/-- Each handle of a series has a serial number of its own. -/
theorem serials_series (declared : Entries ConnectorConfig) :
    (series serial declared).map (fun entry => entry.2.serial) =
      List.range' serial declared.length := by
  induction declared generalizing serial with
  | nil => rfl
  | cons entry rest ih => exact congrArg (serial :: ·) (ih (serial + 1))

end Connector

namespace World

/-- What an installation comes to, and the world after it. -/
def install (world : World) : Installation → Except EngineFault Unit × World
  | .declare name family properties =>
      match world.declare name family properties with
      | .ok (_, next) => (.ok (), next)
      | .error fault => (.error fault, world)
  | .register transport =>
      match world.registerTransport transport with
      | .ok next => (.ok (), next)
      | .error fault => (.error fault, world)
  | .configure config => world.declareAll config.connectors.entries

/-- The world after these installations, whatever each of them came to. -/
def installAll (world : World) (installations : List Installation) : World :=
  installations.foldl (fun world installation => (world.install installation).2) world

/-- The world in which these have been declared and registered besides. -/
def extended (world : World) (declared : Entries ConnectorConfig)
    (registered : Entries Transport) : World :=
  { world with
    connectors := world.connectors ++ Connector.series world.nextConnector declared
    nextConnector := world.nextConnector + declared.length
    transports := world.transports ++ registered }

variable (world : World)

theorem extended_nil : world.extended [] [] = world := by
  cases world
  simp [extended, Connector.series]

theorem extended_extended (declared added : Entries ConnectorConfig)
    (registered brought : Entries Transport) :
    (world.extended declared registered).extended added brought =
      world.extended (declared ++ added) (registered ++ brought) := by
  simp only [extended, Connector.series_append, List.length_append, List.append_assoc,
    Nat.add_assoc]

theorem names_extended (declared : Entries ConnectorConfig) (registered : Entries Transport) :
    Entries.names (world.extended declared registered).connectors =
      Entries.names world.connectors ++ Entries.names declared := by
  simp only [extended, Entries.names, List.map_append]
  exact congrArg (_ ++ ·) (Connector.names_series ..)

/-! ## One installation -/

variable {world}

theorem declare_of_mem {name : String} (htaken : name ∈ Entries.names world.connectors)
    (family : String) (properties : Dict String) :
    world.declare name family properties = .error (.duplicateConnector name) := by
  obtain ⟨connector, hfound⟩ := Entries.exists_find?_iff.2 htaken
  simp only [declare, hfound]

theorem declare_of_not_mem {name : String} (hfree : name ∉ Entries.names world.connectors)
    (family : String) (properties : Dict String) :
    world.declare name family properties =
      .ok (⟨world.nextConnector, name, family, properties⟩,
        world.extended [(name, ⟨family, properties⟩)] []) := by
  simp only [declare, Entries.find?_eq_none_iff.2 hfree, newConnector, extended, Connector.series,
    List.append_nil, List.length_singleton, Entries.bind_of_not_mem _ hfree]

theorem registerTransport_of_mem {transport : Transport}
    (htaken : transport.protocol ∈ Entries.names world.transports) :
    world.registerTransport transport = .error (.duplicateTransport transport.protocol) := by
  obtain ⟨found, hfound⟩ := Entries.exists_find?_iff.2 htaken
  simp only [registerTransport, hfound]

theorem registerTransport_of_not_mem {transport : Transport}
    (hfree : transport.protocol ∉ Entries.names world.transports) :
    world.registerTransport transport =
      .ok (world.extended [] [(transport.protocol, transport)]) := by
  simp only [registerTransport, Entries.find?_eq_none_iff.2 hfree, extended, Connector.series,
    List.append_nil, List.length_nil, Nat.add_zero, Entries.bind_of_not_mem _ hfree]

/-- Declaring connectors in turn goes on up to the first name that is taken.  Those declared on the
way take none of the names to come. -/
theorem declareAll_eq {requested : Entries ConnectorConfig}
    (hdistinct : (Entries.names requested).Nodup) {taken : List String}
    (htaken : ∀ name ∈ Entries.names requested,
      name ∈ Entries.names world.connectors ↔ name ∈ taken) :
    world.declareAll requested =
      (Installation.outcome ((Entries.firstTaken taken requested).map .duplicateConnector),
        world.extended (Entries.untaken taken requested) []) := by
  induction requested generalizing world with
  | nil =>
      have hnone := extended_nil world
      exact congrArg (Prod.mk _) hnone.symm
  | cons entry rest ih =>
      obtain ⟨name, config⟩ := entry
      obtain ⟨habsent, hrest⟩ := List.nodup_cons.1 hdistinct
      obtain ⟨hhead, htail⟩ := List.forall_mem_cons.1 htaken
      by_cases h : name ∈ taken
      · rw [Entries.firstTaken_cons_of_mem h, Entries.untaken_cons_of_mem h, extended_nil]
        simp only [declareAll, declare_of_mem (hhead.2 h)]
        rfl
      · have hstill : ∀ other ∈ Entries.names rest,
            other ∈ Entries.names (world.extended [(name, config)] []).connectors ↔
              other ∈ taken := by
          intro other hother
          have hne : other ≠ name := fun heq => habsent (heq ▸ hother)
          rw [names_extended, List.mem_append, htail other hother]
          simp [hne]
        have hfree : name ∉ Entries.names world.connectors := fun hmem => h (hhead.1 hmem)
        rw [Entries.firstTaken_cons_of_not_mem h, Entries.untaken_cons_of_not_mem h]
        simp only [declareAll, declare_of_not_mem hfree]
        rw [ih hrest hstill, extended_extended]
        rfl

theorem install_configure (world : World) (config : Config) :
    world.install (.configure config) =
      (Installation.outcome ((Entries.firstTaken (Entries.names world.connectors)
          config.connectors.entries).map .duplicateConnector),
        world.extended
          (Entries.untaken (Entries.names world.connectors) config.connectors.entries) []) :=
  declareAll_eq config.connectors.distinct fun _ _ => Iff.rfl

/-- One connector is declared as several are. -/
theorem install_declare (world : World) (name family : String) (properties : Dict String) :
    world.install (.declare name family properties) =
      world.declareAll [(name, ⟨family, properties⟩)] := by
  simp only [install, declareAll]
  rcases world.declare name family properties with fault | ⟨connector, next⟩ <;> rfl

theorem install_register (world : World) (transport : Transport) :
    world.install (.register transport) =
      (Installation.outcome ((Entries.firstTaken (Entries.names world.transports)
          [(transport.protocol, transport)]).map .duplicateTransport),
        world.extended [] (Entries.untaken (Entries.names world.transports)
          [(transport.protocol, transport)])) := by
  by_cases h : transport.protocol ∈ Entries.names world.transports
  · rw [Entries.firstTaken_cons_of_mem h, Entries.untaken_cons_of_mem h, extended_nil]
    simp only [install, registerTransport_of_mem h]
    rfl
  · rw [Entries.firstTaken_cons_of_not_mem h, Entries.untaken_cons_of_not_mem h]
    simp only [install, registerTransport_of_not_mem h]
    rfl

/-- What is asked for is granted up to the first name that is taken. -/
theorem install_eq (world : World) (installation : Installation) :
    world.install installation =
      (Installation.outcome (installation.refusal? (Entries.names world.connectors)
          (Entries.names world.transports)),
        world.extended
          (Entries.untaken (Entries.names world.connectors) installation.connectors)
          (Entries.untaken (Entries.names world.transports) installation.transports)) := by
  cases installation with
  | declare name family properties =>
      have hdeclares := declareAll_eq
        (Installation.nodup_connectors (.declare name family properties))
        fun name _ => (Iff.refl (name ∈ Entries.names world.connectors))
      rw [install_declare, Installation.refusal?]
      exact hdeclares.trans (congrArg (Installation.outcome · , _) Option.or_none.symm)
  | register transport => exact install_register world transport
  | configure config =>
      rw [install_configure, Installation.refusal?]
      exact congrArg (Installation.outcome · , _) Option.or_none.symm

/-! ## One after the other -/

variable (world)

theorem installAll_append (first more : List Installation) :
    world.installAll (first ++ more) = (world.installAll first).installAll more :=
  List.foldl_append ..

/-- Installations only ever add something. -/
theorem exists_installAll_eq_extended (installations : List Installation) :
    ∃ declared registered,
      world.installAll installations = world.extended declared registered := by
  induction installations generalizing world with
  | nil => exact ⟨[], [], world.extended_nil.symm⟩
  | cons installation rest ih =>
      rw [installAll, List.foldl_cons, install_eq, ← installAll]
      obtain ⟨declared, registered, hrest⟩ := ih _
      rw [hrest, extended_extended]
      exact ⟨_, _, rfl⟩

variable {world}

/-- In a world that starts without connectors and transports, there is in the end what has been
granted. -/
theorem installAll_eq (hconnectors : world.connectors = []) (htransports : world.transports = [])
    (installations : List Installation) :
    world.installAll installations =
      world.extended (Installation.declared installations)
        (Installation.registered installations) := by
  induction installations using List.reverseRecOn with
  | nil => exact world.extended_nil.symm
  | append_singleton earlier last ih =>
      have hnames : Entries.names (world.extended (Installation.declared earlier)
          (Installation.registered earlier)).connectors =
            Entries.names (Installation.declared earlier) := by
        rw [names_extended, hconnectors]
        rfl
      have hfamilies : (world.extended (Installation.declared earlier)
          (Installation.registered earlier)).transports = Installation.registered earlier := by
        rw [extended, htransports]
        rfl
      rw [installAll_append, ih, installAll, List.foldl_cons, List.foldl_nil, install_eq, hnames,
        hfamilies, extended_extended, Installation.declared_concat, Installation.registered_concat]

/-! ## What there is -/

/-- What can be looked up where these have been declared and registered. -/
structure Offers (world : World) (declared : Entries ConnectorConfig)
    (registered : Entries Transport) : Prop where
  handles : Declares declared world.connectors
  serials : (world.connectors.map fun entry => entry.2.serial).Nodup
  listed : world.connectorsByName.Perm (world.connectors.map Prod.snd)
  ascending : (world.connectorsByName.map Connector.name).Pairwise (· < ·)
  found : ∀ connector ∈ world.connectorsByName, world.connector connector.name = .ok connector
  unknown : ∀ name ∉ Entries.names declared,
    world.connector name = .error (.unknownConnector name)
  served : ∀ entry ∈ registered, world.transport entry.1 = .ok entry.2
  unavailable : ∀ family ∉ Entries.names registered,
    world.transport family = .error (.unavailable family)

/-- What the next installation comes to where these have been declared and registered. -/
structure Receives (world : World) (declared : Entries ConnectorConfig)
    (registered : Entries Transport) : Prop where
  declare_free : ∀ name ∉ Entries.names declared, ∀ family properties, ∃ connector next,
    world.declare name family properties = .ok (connector, next) ∧
      connector.IsDeclared name ⟨family, properties⟩ ∧ next.connector name = .ok connector
  declare_taken : ∀ name ∈ Entries.names declared, ∀ family properties,
    world.install (.declare name family properties) = (.error (.duplicateConnector name), world)
  register_free : ∀ transport : Transport, transport.protocol ∉ Entries.names registered →
    ∃ next, world.registerTransport transport = .ok next ∧
      next.transport transport.protocol = .ok transport
  register_taken : ∀ transport : Transport, transport.protocol ∈ Entries.names registered →
    world.install (.register transport) = (.error (.duplicateTransport transport.protocol), world)
  configure_free : ∀ config : Config,
    (∀ name ∈ config.connectors.names, name ∉ Entries.names declared) →
      world.install (.configure config) = (.ok (), world.extended config.connectors.entries [])
  configure_taken : ∀ (config : Config) before name settings behind,
    config.connectors.entries = before ++ (name, settings) :: behind →
    (∀ other ∈ Entries.names before, other ∉ Entries.names declared) →
    name ∈ Entries.names declared →
      world.install (.configure config) =
        (.error (.duplicateConnector name), world.extended before [])

/-- What can be looked up in one world can be looked up in the other. -/
structure StillFinds (world next : World) : Prop where
  connector : ∀ name connector, world.connector name = .ok connector →
    next.connector name = .ok connector
  transport : ∀ family transport, world.transport family = .ok transport →
    next.transport family = .ok transport

theorem connector_eq_ok_iff {name : String} {connector : Connector} :
    world.connector name = .ok connector ↔
      Entries.find? name world.connectors = some connector := by
  rw [World.connector]
  cases Entries.find? name world.connectors <;> simp

theorem stillFinds_extended (declared : Entries ConnectorConfig) (registered : Entries Transport) :
    world.StillFinds (world.extended declared registered) := by
  constructor
  · intro name connector hfound
    rw [connector_eq_ok_iff] at hfound ⊢
    rw [extended, Entries.find?_append, hfound, Option.some_or]
  · intro family transport hfound
    rw [transport_eq_ok_iff] at hfound ⊢
    rw [extended, Entries.find?_append, hfound, Option.some_or]

section

variable {declared : Entries ConnectorConfig} {registered : Entries Transport}

theorem offers {serial : Nat} (hconnectors : world.connectors = Connector.series serial declared)
    (htransports : world.transports = registered) (hdeclared : (Entries.names declared).Nodup)
    (hregistered : (Entries.names registered).Nodup) : world.Offers declared registered := by
  have hdeclares : Declares declared world.connectors :=
    hconnectors ▸ Connector.declares_series serial declared
  have hnames : Entries.names world.connectors = Entries.names declared :=
    hconnectors ▸ Connector.names_series serial declared
  have hlisted : world.connectorsByName.Perm (world.connectors.map Prod.snd) :=
    (Entries.sorted_perm world.connectors).map Prod.snd
  have hbears : ∀ entry ∈ world.connectors, entry.2.name = entry.1 := by
    have hmap : world.connectors.map (Connector.name ∘ Prod.snd) =
        world.connectors.map Prod.fst := by
      rw [← List.map_map]
      exact hdeclares.names.trans hnames.symm
    exact List.map_inj_left.1 hmap
  refine ⟨hdeclares, ?_, hlisted, ?_, ?_, ?_, ?_, ?_⟩
  · rw [hconnectors, Connector.serials_series]
    exact List.nodup_range'
  · have hbyName : world.connectorsByName.map Connector.name =
        Entries.names (Entries.sorted world.connectors) := by
      rw [connectorsByName, List.map_map]
      exact List.map_inj_left.2 fun entry hmem =>
        hbears entry ((Entries.sorted_perm world.connectors).mem_iff.1 hmem)
    rw [hbyName]
    exact Entries.strictly_pairwise_sorted (hnames ▸ hdeclared)
  · intro connector hmem
    obtain ⟨entry, hentry, rfl⟩ := List.mem_map.1 (hlisted.mem_iff.1 hmem)
    rw [connector_eq_ok_iff, hbears entry hentry]
    exact Entries.find?_of_mem (hnames ▸ hdeclared) hentry
  · intro name hname
    rw [World.connector, Entries.find?_eq_none_iff.2 (hnames ▸ hname)]
  · intro entry hmem
    rw [transport_eq_ok_iff, htransports]
    exact Entries.find?_of_mem hregistered hmem
  · intro family hfamily
    rw [World.transport, Entries.find?_eq_none_iff.2 (htransports ▸ hfamily)]

theorem receives (hnames : Entries.names world.connectors = Entries.names declared)
    (htransports : world.transports = registered) : world.Receives declared registered := by
  subst htransports
  constructor
  · intro name hfree family properties
    rw [← hnames] at hfree
    refine ⟨_, _, declare_of_not_mem hfree family properties, ⟨rfl, rfl, rfl⟩, ?_⟩
    rw [connector_eq_ok_iff, extended, Entries.find?_append, Entries.find?_eq_none_iff.2 hfree,
      Option.none_or, Connector.series, Entries.find?, if_pos rfl]
  · intro name htaken family properties
    simp only [install, declare_of_mem (hnames ▸ htaken)]
  · intro transport hfree
    refine ⟨_, registerTransport_of_not_mem hfree, ?_⟩
    rw [transport_eq_ok_iff, extended, Entries.find?_append, Entries.find?_eq_none_iff.2 hfree,
      Option.none_or, Entries.find?, if_pos rfl]
  · intro transport htaken
    simp only [install, registerTransport_of_mem htaken]
  · intro config hfree
    have hnone : Entries.firstTaken (Entries.names world.connectors) config.connectors.entries =
        none := Entries.firstTaken_eq_none_iff.2 (hnames ▸ hfree)
    rw [install_configure, hnone, Entries.untaken_of_firstTaken_eq_none hnone]
    rfl
  · intro config before name settings behind hentries hbefore htaken
    rw [← hnames] at hbefore htaken
    rw [install_configure, hentries, Entries.untaken_append_cons behind hbefore htaken,
      Entries.firstTaken_append_cons behind hbefore htaken]
    rfl

end

/-- Who comes first stays: after any installations whatever, what there is and what the next one
comes to is told by what has been granted, and whatever can be looked up can be looked up ever
after. -/
theorem first_come_stays (hconnectors : world.connectors = []) (htransports : world.transports = [])
    (first more : List Installation) :
    (world.installAll first).Offers (Installation.declared first)
        (Installation.registered first) ∧
      (world.installAll first).Receives (Installation.declared first)
        (Installation.registered first) ∧
      (world.installAll first).StillFinds (world.installAll (first ++ more)) := by
  have hseries : (world.installAll first).connectors =
      Connector.series world.nextConnector (Installation.declared first) := by
    rw [installAll_eq hconnectors htransports, extended, hconnectors]
    rfl
  have hregistered : (world.installAll first).transports = Installation.registered first := by
    rw [installAll_eq hconnectors htransports, extended, htransports]
    rfl
  refine ⟨offers hseries hregistered (Installation.nodup_names_declared first)
    (Installation.nodup_names_registered first), receives ?_ hregistered, ?_⟩
  · rw [hseries, Connector.names_series]
  · obtain ⟨declared, registered, hmore⟩ :=
      exists_installAll_eq_extended (world.installAll first) more
    rw [installAll_append, hmore]
    exact stillFinds_extended declared registered

/-- A configuration whose second name is taken when its turn comes: of its connectors only the first
is declared. -/
def overlapping : List Installation :=
  [.declare "orders" "jms" .empty,
    .configure ⟨1, 250, 0, ((Dict.empty.bind "audit" (.ofFamily "mqtt")).bind "orders"
      (.ofFamily "amqp")).bind "stock" (.ofFamily "jms")⟩,
    .register (.loopback (.ofProtocol "jms"))]

theorem first_come_stays_overlapping :
    let world := World.start (.ofSlots 1)
    world.connectors = [] ∧ world.transports = [] ∧
      Entries.names (Installation.declared overlapping) = ["orders", "audit"] ∧
      (world.installAll overlapping).Offers (Installation.declared overlapping)
        (Installation.registered overlapping) ∧
      (world.installAll overlapping).Receives (Installation.declared overlapping)
        (Installation.registered overlapping) ∧
      (world.installAll overlapping).StillFinds (world.installAll (overlapping ++ overlapping)) :=
  ⟨rfl, rfl, by decide +kernel, first_come_stays rfl rfl overlapping overlapping⟩

end World

end Switchboard
