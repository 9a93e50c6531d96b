import Switchboard.Config.Reader
import Switchboard.Proofs.Admission
import Switchboard.Proofs.Json.Written

/-!
Configurations are read back from their text.

The text names every setting, in the order in which the reader keeps them, so reading it fills an
empty draft setting by setting.  Only numbers below `2 ^ 64` can be read; an acceptable
configuration with such numbers comes back as it was, and whatever is read has such numbers.
-/

namespace Switchboard

open Json

theorem readField_none {A : Type} {value : Tape → Readable (A × Tape)} {found : A}
    {tape rest : Tape} (h : value tape = .ok (found, rest)) :
    readField value none (some ':' :: tape) = .ok (some found, rest) := by
  simp only [readField, readColon_cons, bind, Except.bind, h]

namespace ConnectorConfig

variable (connector : ConnectorConfig)

theorem readsEntry_family :
    ReadsEntry Draft.readEntry ⟨none, none⟩ "family" (.string connector.family)
      ⟨some connector.family, none⟩ := by
  intro rest _
  have hfield := readField_none (readString_quote connector.family rest)
  rw [chars]
  simp only [Draft.readEntry, ↓reduceIte, hfield]
  rfl

theorem readsEntry_properties (family : Option String) :
    ReadsEntry Draft.readEntry ⟨family, none⟩ "properties"
      (.object (connector.properties.entries.map fun pair => (pair.1, .string pair.2)))
      ⟨family, some connector.properties⟩ := by
  intro rest _
  have hvalue : ∀ pair ∈ connector.properties.entries, ∀ rest, Delimits rest →
      readString ((chars (.string pair.2)).map some ++ rest) = .ok (pair.2, rest) := by
    intro pair _ rest _
    rw [chars]
    exact readString_quote pair.2 rest
  have hfield := readField_none (readDict_object connector.properties hvalue rest)
  simp only [Draft.readEntry, String.reduceEq, ↓reduceIte, hfield]
  rfl

theorem read_toJson (rest : Tape) :
    read ((chars connector.toJson).map some ++ rest) = .ok (connector, rest) := by
  have hentries := readEntries_entryChars
    (.cons connector.readsEntry_family (.cons (connector.readsEntry_properties _) .nil)) rest
  rw [toJson, object_append, read, Tape.skipBlank_cons (by decide)]
  simp only [hentries]
  rfl

end ConnectorConfig

namespace Config

variable {config : Config}

/-- Every number of the configuration can be written in JSON and read back. -/
structure Fits (config : Config) : Prop where
  buffer : config.diagnosticsBufferSize < UInt64.size
  transport : config.transportTimeout < UInt64.size
  shutdown : config.shutdownTimeout < UInt64.size

theorem readField_natural {n : Nat} (hn : n < UInt64.size) {rest : Tape} (hrest : Delimits rest) :
    readField readNatural none (some ':' :: ((chars (.integer n)).map some ++ rest)) =
      .ok (some n, rest) := by
  apply readField_none
  rw [chars]
  exact readNatural_integerText hn hrest

theorem readsEntry_buffer (h : config.Fits) :
    ReadsEntry Draft.readEntry ⟨none, none, none, none⟩ "diagnostics_buffer_size"
      (.integer config.diagnosticsBufferSize)
      ⟨some config.diagnosticsBufferSize, none, none, none⟩ := by
  intro rest hrest
  simp only [Draft.readEntry, ↓reduceIte, readField_natural h.buffer hrest]
  rfl

theorem readsEntry_transport (h : config.Fits) (size : Option Nat) :
    ReadsEntry Draft.readEntry ⟨size, none, none, none⟩ "transport_timeout"
      (.integer config.transportTimeout) ⟨size, some config.transportTimeout, none, none⟩ := by
  intro rest hrest
  simp only [Draft.readEntry, String.reduceEq, ↓reduceIte, readField_natural h.transport hrest]
  rfl

theorem readsEntry_shutdown (h : config.Fits) (size : Option Nat) (sending : Option Millis) :
    ReadsEntry Draft.readEntry ⟨size, sending, none, none⟩ "shutdown_timeout"
      (.integer config.shutdownTimeout)
      ⟨size, sending, some config.shutdownTimeout, none⟩ := by
  intro rest hrest
  simp only [Draft.readEntry, String.reduceEq, ↓reduceIte, readField_natural h.shutdown hrest]
  rfl

theorem readsEntry_connectors (config : Config) (size : Option Nat) (sending closing : Option Millis) :
    ReadsEntry Draft.readEntry ⟨size, sending, closing, none⟩ "connectors"
      (.object (config.connectors.entries.map fun pair => (pair.1, pair.2.toJson)))
      ⟨size, sending, closing, some config.connectors⟩ := by
  intro rest _
  have hfield := readField_none (readDict_object config.connectors
    (fun pair _ rest _ => pair.2.read_toJson rest) rest)
  simp only [Draft.readEntry, String.reduceEq, ↓reduceIte, hfield]
  rfl

theorem read_toJson (h : config.Fits) (rest : Tape) :
    read ((chars config.toJson).map some ++ rest) = .ok (config, rest) := by
  have hentries := readEntries_entryChars (.cons (readsEntry_buffer h)
    (.cons (readsEntry_transport h _) (.cons (readsEntry_shutdown h _ _)
      (.cons (config.readsEntry_connectors _ _ _) .nil)))) rest
  rw [toJson, object_append, read, Tape.skipBlank_cons (by decide)]
  simp only [hentries]
  rfl

/-- A configuration that fits and is acceptable is read back from its text. -/
theorem ofText_text (h : config.Fits) (hvalid : config.validate = .ok ()) :
    ofText config.text = .ok config := by
  have hread : readWhole (Tape.ofText config.text) = .ok config := by
    have hconfig := read_toJson h []
    rw [List.append_nil] at hconfig
    simp only [readWhole, Tape.ofText, text, Json.text, String.toList_ofList, hconfig, bind,
      Except.bind]
    rfl
  simp only [ofText, ofTape, hread, hvalid]
  rfl

/-! ## What is read fits -/

end Config

theorem Except.map_eq_ok {E A B : Type} {change : A → B} {result : Except E A} {value : B} :
    result.map change = .ok value ↔ ∃ found, result = .ok found ∧ change found = value := by
  cases result with
  | error fault =>
      constructor
      · intro h
        cases h
      · rintro ⟨_, ⟨⟩, _⟩
  | ok found =>
      constructor
      · rintro ⟨⟩
        exact ⟨found, rfl, rfl⟩
      · rintro ⟨_, ⟨⟩, rfl⟩
        rfl

theorem absorb_le (digits : List Nat) {significand : Nat}
    (h : significand ≤ NumberText.significandLimit) :
    (NumberText.absorb significand digits).1 ≤ NumberText.significandLimit := by
  induction digits generalizing significand with
  | nil => exact h
  | cons digit digits ih =>
      rw [NumberText.absorb]
      split
      · next hmore => exact ih hmore
      · exact h

theorem natural?_lt {number : NumberText} {n : Nat} (h : number.natural? = some n) :
    n < UInt64.size := by
  have hle := absorb_le number.whole (Nat.zero_le NumberText.significandLimit)
  rw [NumberText.natural?] at h
  split at h
  · next hwhole _ _ =>
    cases h
    rw [hwhole] at hle
    exact Nat.lt_of_le_of_lt hle (by decide)
  · cases h

theorem readNatural_lt {tape rest : Tape} {n : Nat} (h : readNatural tape = .ok (n, rest)) :
    n < UInt64.size := by
  simp only [readNatural] at h
  split at h
  · split at h
    · obtain ⟨⟨number, behind⟩, -, h⟩ := Except.bind_eq_ok.1 h
      split at h
      · next hnatural =>
        cases h
        exact natural?_lt hnatural
      · cases h
    · cases h
  · cases h

/-- What holds of a state and is kept by every entry holds when all entries have been read. -/
theorem foldEntries_keeps {S : Type} {entry : S → String → Tape → Readable (S × Tape)}
    {Holds : S → Prop} (hentry : ∀ state name tape next rest, Holds state →
      entry state name tape = .ok (next, rest) → Holds next)
    {fuel : Nat} {isFirst : Bool} {start last : S} {tape rest : Tape} (hstart : Holds start)
    (h : foldEntries entry fuel isFirst start tape = .ok (last, rest)) : Holds last := by
  induction fuel generalizing isFirst start tape with
  | zero => cases h
  | succ fuel ih =>
      rw [foldEntries] at h
      split at h
      · cases h
      · cases h
        exact hstart
      · split at h
        · cases h
        · next hread => exact ih (hentry _ _ _ _ _ hstart hread) h

/-- What a field holds when it has been read was read by its reader. -/
theorem readField_eq_ok {A : Type} {value : Tape → Readable (A × Tape)} {known result : Option A}
    {tape rest : Tape} (h : readField value known tape = .ok (result, rest)) :
    ∃ found behind, result = some found ∧ value behind = .ok (found, rest) := by
  cases known with
  | some _ => cases h
  | none =>
      obtain ⟨behind, -, h⟩ := Except.bind_eq_ok.1 h
      obtain ⟨⟨found, left⟩, hvalue, h⟩ := Except.bind_eq_ok.1 h
      cases h
      exact ⟨found, behind, rfl, hvalue⟩

theorem readElement_eq_ok {A : Type} {isFirst : Bool} {value : Tape → Readable (A × Tape)}
    {result : Option A} {tape rest : Tape}
    (h : readElement isFirst value tape = .ok (result, rest)) :
    ∀ found ∈ result, ∃ behind, value behind = .ok (found, rest) := by
  have hpresent {tape : Tape}
      (h : (value tape).map (fun found => (some found.1, found.2)) = .ok (result, rest)) :
      ∀ found ∈ result, ∃ behind, value behind = .ok (found, rest) := by
    obtain ⟨⟨found, left⟩, hvalue, heq⟩ := Except.map_eq_ok.1 h
    cases heq
    rintro _ ⟨⟩
    exact ⟨tape, hvalue⟩
  simp only [readElement] at h
  split at h
  · cases h
  · cases h
    simp
  · split at h
    · exact hpresent h
    split at h
    · split at h
      · cases h
      · cases h
      · exact hpresent h
    · cases h

namespace Config

/-- The numbers that have been read can be written and read again. -/
structure Draft.Fits (draft : Draft) : Prop where
  buffer : ∀ n ∈ draft.diagnosticsBufferSize, n < UInt64.size
  transport : ∀ n ∈ draft.transportTimeout, n < UInt64.size
  shutdown : ∀ n ∈ draft.shutdownTimeout, n < UInt64.size

theorem Draft.Fits.finish {draft : Draft} (h : draft.Fits) : draft.finish.Fits := by
  have hget {known : Option Nat} {other : Nat} (hknown : ∀ n ∈ known, n < UInt64.size)
      (hother : other < UInt64.size) : known.getD other < UInt64.size := by
    cases known with
    | none => exact hother
    | some n => exact hknown n rfl
  exact ⟨hget h.buffer (by decide), hget h.transport (by decide), hget h.shutdown (by decide)⟩

theorem readField_natural_lt {known result : Option Nat} {tape rest : Tape}
    (h : readField readNatural known tape = .ok (result, rest)) :
    ∀ n ∈ result, n < UInt64.size := by
  obtain ⟨found, behind, rfl, hvalue⟩ := readField_eq_ok h
  intro n hn
  cases hn
  exact readNatural_lt hvalue

theorem Draft.Fits.readEntry {draft next : Draft} (h : draft.Fits) {name : String}
    {tape rest : Tape} (hread : draft.readEntry name tape = .ok (next, rest)) : next.Fits := by
  rw [Draft.readEntry] at hread
  split at hread
  · obtain ⟨⟨size, behind⟩, hfield, hread⟩ := Except.map_eq_ok.1 hread
    cases hread
    exact ⟨readField_natural_lt hfield, h.transport, h.shutdown⟩
  split at hread
  · obtain ⟨⟨limit, behind⟩, hfield, hread⟩ := Except.map_eq_ok.1 hread
    cases hread
    exact ⟨h.buffer, readField_natural_lt hfield, h.shutdown⟩
  split at hread
  · obtain ⟨⟨limit, behind⟩, hfield, hread⟩ := Except.map_eq_ok.1 hread
    cases hread
    exact ⟨h.buffer, h.transport, readField_natural_lt hfield⟩
  split at hread
  · obtain ⟨⟨connectors, behind⟩, -, hread⟩ := Except.map_eq_ok.1 hread
    cases hread
    exact ⟨h.buffer, h.transport, h.shutdown⟩
  · obtain ⟨behind, -, hread⟩ := Except.map_eq_ok.1 hread
    cases hread
    exact h

theorem fits_of_read {tape rest : Tape} (h : read tape = .ok (config, rest)) : config.Fits := by
  rw [read] at h
  split at h
  · obtain ⟨⟨draft, behind⟩, hentries, hdraft⟩ := Except.map_eq_ok.1 h
    cases hdraft
    have hstart : Draft.Fits ⟨none, none, none, none⟩ := ⟨by simp, by simp, by simp⟩
    exact (foldEntries_keeps (fun _ _ _ _ _ hfits => hfits.readEntry) hstart hentries).finish
  · obtain ⟨⟨size, _⟩, hsize, h⟩ := Except.bind_eq_ok.1 h
    obtain ⟨⟨sending, _⟩, hsending, h⟩ := Except.bind_eq_ok.1 h
    obtain ⟨⟨closing, _⟩, hclosing, h⟩ := Except.bind_eq_ok.1 h
    obtain ⟨⟨connectors, _⟩, -, h⟩ := Except.bind_eq_ok.1 h
    obtain ⟨_, -, h⟩ := Except.bind_eq_ok.1 h
    cases h
    have hlt {isFirst : Bool} {known : Option Nat} {tape rest : Tape}
        (hread : readElement isFirst readNatural tape = .ok (known, rest)) :
        ∀ n ∈ known, n < UInt64.size := by
      intro n hn
      obtain ⟨behind, hvalue⟩ := readElement_eq_ok hread n hn
      exact readNatural_lt hvalue
    exact Draft.Fits.finish ⟨hlt hsize, hlt hsending, hlt hclosing⟩
  · cases h

theorem fits_of_ofText {source : String} (h : ofText source = .ok config) :
    config.Fits ∧ config.validate = .ok () := by
  rw [ofText, ofTape] at h
  split at h
  · cases h
  · cases h
  · cases h
  · next found hread =>
    obtain ⟨⟨⟩, hvalid, rfl⟩ := Except.map_eq_ok.1 h
    obtain ⟨⟨read, rest⟩, hconfig, hwhole⟩ := Except.bind_eq_ok.1 hread
    obtain ⟨_, -, hwhole⟩ := Except.bind_eq_ok.1 hwhole
    cases hwhole
    exact ⟨fits_of_read hconfig, hvalid⟩

/-- A configuration is read back from its text when it is acceptable and its numbers fit.  Whatever
was read from some text is such a configuration. -/
theorem text_round_trips (config : Config) :
    (ofText config.text = .ok config ↔ config.validate = .ok () ∧ config.Fits) ∧
      ∀ source, ofText source = .ok config → ofText config.text = .ok config := by
  refine ⟨⟨fun h => (fits_of_ofText h).symm, fun h => ofText_text h.2 h.1⟩, ?_⟩
  intro source h
  obtain ⟨hfits, hvalid⟩ := fits_of_ofText h
  exact ofText_text hfits hvalid

example : (Config.mk 1 (UInt64.size - 1) 0
      (Dict.empty.bind "a\"\x01" ((ConnectorConfig.ofFamily "é").withProperty "\\" "\n"))).text =
    "\x7b\"diagnostics_buffer_size\":1,\"transport_timeout\":18446744073709551615," ++
      "\"shutdown_timeout\":0,\"connectors\":\x7b\"a\\\"\\u0001\":\x7b\"family\":\"é\"," ++
      "\"properties\":\x7b\"\\\\\":\"\\n\"\x7d\x7d\x7d\x7d" := by decide +kernel

end Config

end Switchboard
