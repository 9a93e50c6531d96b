import Mathlib.Data.List.Nodup
import Switchboard.Jms

/-!
Which envelopes `net.jms:send` builds.

A kind of message says what it can carry.  Where the message has it, the envelope carries it, and
otherwise the fault says what is missing.  An object carries JSON, which a value has exactly when no
message and no connector stands in it; the fault is about the first of them, reading depth first.
-/

namespace Switchboard

/-! ## What has a JSON form -/

namespace Value

/-- Messages and connectors are told apart by identity and have no JSON form. -/
inductive IsIdentity : Value → Prop
  | message (id : MessageId) : IsIdentity (.message id)
  | connector (handle : Connector) : IsIdentity (.connector handle)

/-- What stands in a value, at any depth. -/
inductive Contains : Value → Value → Prop
  | self (value : Value) : Contains value value
  | entry {entries : List (String × Value)} {name : String} {value inner : Value}
      (hentry : (name, value) ∈ entries) (hinner : Contains value inner) :
      Contains (.map entries) inner

/-- The first identity in a value, reading its entries in order and each of them in depth. -/
inductive MeetsFirst : Value → Value → Prop
  | self {value : Value} (hvalue : value.IsIdentity) : MeetsFirst value value
  | entry {before after : List (String × Value)} {name : String} {value first : Value}
      (hbefore : ∀ pair ∈ before, ∀ inner, pair.2.Contains inner → ¬ inner.IsIdentity)
      (hfirst : MeetsFirst value first) :
      MeetsFirst (.map (before ++ (name, value) :: after)) first

theorem MeetsFirst.contains {value first : Value} (h : value.MeetsFirst first) :
    value.Contains first := by
  induction h with
  | self _ => exact .self _
  | entry _ _ ih => exact .entry (List.mem_append_right _ List.mem_cons_self) ih

theorem MeetsFirst.isIdentity {value first : Value} (h : value.MeetsFirst first) :
    first.IsIdentity := by
  induction h with
  | self hvalue => exact hvalue
  | entry _ _ ih => exact ih

theorem MeetsFirst.head {entries : List (String × Value)} {name : String} {value first : Value}
    (h : value.MeetsFirst first) : (Value.map ((name, value) :: entries)).MeetsFirst first :=
  @MeetsFirst.entry [] entries name value first (by simp) h

/-- What is met first behind an entry without identities is met first. -/
theorem MeetsFirst.behind {entries : List (String × Value)} {name : String} {value first : Value}
    (hvalue : ∀ inner, value.Contains inner → ¬ inner.IsIdentity)
    (h : (Value.map entries).MeetsFirst first) :
    (Value.map ((name, value) :: entries)).MeetsFirst first := by
  cases h with
  | self hmap => cases hmap
  | @entry before after _ _ _ hbefore hfirst =>
      exact @MeetsFirst.entry ((name, value) :: before) after _ _ _
        (List.forall_mem_cons.2 ⟨hvalue, hbefore⟩) hfirst

mutual

/-- The JSON forms of a value.  The entries of a map are ordered by name. -/
inductive IsJson : Value → Json → Prop
  | integer (n : Int64) : IsJson (.integer n) (.integer n.toInt)
  | real {x : Float} (hfinite : x.isFinite = true) : IsJson (.float x) (.real x)
  | null {x : Float} (hfinite : x.isFinite = false) : IsJson (.float x) .null
  | boolean (b : Bool) : IsJson (.boolean b) (.boolean b)
  | string (text : String) : IsJson (.string text) (.string text)
  | map {entries : List (String × Value)} {members ordered : List (String × Json)}
      (hmembers : AreMembers entries members) (hperm : ordered.Perm members)
      (hordered : (Entries.names ordered).Pairwise (· ≤ ·)) :
      IsJson (.map entries) (.object ordered)

/-- The members that these entries become, in the order of the entries. -/
inductive AreMembers : List (String × Value) → List (String × Json) → Prop
  | nil : AreMembers [] []
  | cons {name : String} {value : Value} {json : Json} {entries : List (String × Value)}
      {members : List (String × Json)} (hvalue : IsJson value json)
      (hrest : AreMembers entries members) :
      AreMembers ((name, value) :: entries) ((name, json) :: members)

end

theorem AreMembers.exists_isJson {entries : List (String × Value)}
    {members : List (String × Json)} (h : AreMembers entries members) :
    ∀ pair ∈ entries, ∃ json, pair.2.IsJson json := by
  induction entries generalizing members with
  | nil => simp
  | cons head rest ih =>
      cases h with
      | cons hvalue hrest => exact List.forall_mem_cons.2 ⟨⟨_, hvalue⟩, ih hrest⟩

/-- A value with a JSON form contains no identity. -/
theorem IsJson.not_isIdentity {value inner : Value} {json : Json} (h : value.IsJson json)
    (hinner : value.Contains inner) : ¬ inner.IsIdentity := by
  -- The value shrinks along the containment while its JSON form shrinks with it.
  induction hinner generalizing json with
  | self value => cases h <;> rintro ⟨⟩
  | entry hentry _ ih =>
      cases h with
      | map hmembers _ _ =>
          obtain ⟨form, hform⟩ := hmembers.exists_isJson _ hentry
          exact ih hform

/-- How a conversion to JSON ends. -/
inductive Converts (value : Value) : Checked Json → Prop
  | ok {json : Json} (hjson : value.IsJson json) : Converts value (.ok json)
  | error {first : Value} (hfirst : value.MeetsFirst first) :
      Converts value (.error (.typeMismatch .map first.type))

/-- How the conversion of the entries of a map ends. -/
inductive ConvertsEntries (entries : List (String × Value)) :
    Checked (List (String × Json)) → Prop
  | ok {members : List (String × Json)} (hmembers : AreMembers entries members) :
      ConvertsEntries entries (.ok members)
  | error {first : Value} (hfirst : (Value.map entries).MeetsFirst first) :
      ConvertsEntries entries (.error (.typeMismatch .map first.type))

end Value

/-! ## Names in order -/

namespace Entries

variable {A : Type}

theorem pairwise_insertSorted (pair : String × A) {entries : Entries A}
    (h : (names entries).Pairwise (· ≤ ·)) :
    (names (insertSorted pair entries)).Pairwise (· ≤ ·) := by
  induction entries with
  | nil => exact List.pairwise_singleton _ _
  | cons head rest ih =>
      obtain ⟨hhead, hrest⟩ := List.pairwise_cons.1 h
      simp only [insertSorted]
      split
      · next hless =>
        refine List.pairwise_cons.2 ⟨?_, ih hrest⟩
        intro name hname
        rcases List.mem_cons.1 (((insertSorted_perm pair rest).map Prod.fst).mem_iff.1 hname) with
          rfl | hname
        · exact String.not_lt.1 (String.lt_asymm hless)
        · exact hhead name hname
      · next hless =>
        have hle : pair.1 ≤ head.1 := String.not_lt.1 hless
        refine List.pairwise_cons.2 ⟨?_, h⟩
        intro name hname
        rcases List.mem_cons.1 hname with rfl | hname
        · exact hle
        · exact String.le_trans hle (hhead name hname)

theorem pairwise_sorted (entries : Entries A) :
    (names (sorted entries)).Pairwise (· ≤ ·) := by
  induction entries with
  | nil => exact .nil
  | cons pair rest ih => exact pairwise_insertSorted pair ih

end Entries

/-! ## Conversion -/

namespace Value

theorem ConvertsEntries.cons {name : String} {value : Value} {json : Json}
    {entries : List (String × Value)} {ending : Checked (List (String × Json))}
    (hvalue : value.IsJson json) (h : ConvertsEntries entries ending) :
    ConvertsEntries ((name, value) :: entries)
      (ending.map fun members => (name, json) :: members) := by
  cases h with
  | ok hmembers => exact .ok (.cons hvalue hmembers)
  | error hfirst => exact .error (hfirst.behind fun _ => hvalue.not_isIdentity)

mutual

theorem converts_toJson : (value : Value) → value.Converts value.toJson
  | .integer n => .ok (.integer n)
  | .float x => by
      rw [toJson]
      apply Converts.ok
      cases hfinite : x.isFinite
      · exact .null hfinite
      · exact .real hfinite
  | .boolean b => .ok (.boolean b)
  | .string text => .ok (.string text)
  | .message id => .error (.self (.message id))
  | .connector handle => .error (.self (.connector handle))
  | .map entries => by
      have hentries := converts_entriesToJson entries
      rw [toJson]
      cases hconversion : entriesToJson entries with
      | ok members =>
          rw [hconversion] at hentries
          cases hentries with
          | ok hmembers =>
              exact .ok (.map hmembers (Entries.sorted_perm members)
                (Entries.pairwise_sorted members))
      | error fault =>
          rw [hconversion] at hentries
          cases hentries with
          | error hfirst => exact .error hfirst

theorem converts_entriesToJson :
    (entries : List (String × Value)) → ConvertsEntries entries (entriesToJson entries)
  | [] => by
      rw [entriesToJson]
      exact .ok .nil
  | (name, value) :: rest => by
      have hvalue := converts_toJson value
      have hrest := converts_entriesToJson rest
      rw [entriesToJson]
      cases hconversion : value.toJson with
      | error fault =>
          rw [hconversion] at hvalue
          cases hvalue with
          | error hfirst => exact .error (.head hfirst)
      | ok json =>
          rw [hconversion] at hvalue
          cases hvalue with
          | ok hjson =>
              have hall : ConvertsEntries ((name, value) :: rest) _ := hrest.cons hjson
              cases hentries : entriesToJson rest <;> rw [hentries] at hall <;> exact hall

end

end Value

namespace Jms

/-! ## What a kind of message carries -/

/-- Whether a message has what an envelope of this kind carries. -/
def IsSendable (message : Message) : MessageKind → Prop
  | .text =>
      (∃ text, message.payload = some (.string text)) ∨
        message.payload = none ∧ ∃ text, message.native = .text text
  | .bytes =>
      (∃ text, message.payload = some (.string text)) ∨
        message.payload = none ∧
          ((∃ text, message.native = .text text) ∨ ∃ data, message.native = .bytes data)
  | .map =>
      (∃ entries, message.payload = some (.map entries)) ∨
        message.payload = none ∧ ∃ entries, message.native = .map entries
  | .object =>
      ∀ payload, message.payload = some payload →
        ∀ inner, payload.Contains inner → ¬ inner.IsIdentity
  | .generic => True

/-- The body that an envelope of this kind has. -/
inductive Carries (message : Message) : MessageKind → EnvelopeBody → Prop
  | stringPayload {kind : MessageKind} {text : String} (hkind : kind = .text ∨ kind = .bytes)
      (hpayload : message.payload = some (.string text)) : Carries message kind (.text text)
  | nativeText {kind : MessageKind} {text : String} (hkind : kind = .text ∨ kind = .bytes)
      (hpayload : message.payload = none) (hnative : message.native = .text text) :
      Carries message kind (.text text)
  | nativeBytes {data : List UInt8} (hpayload : message.payload = none)
      (hnative : message.native = .bytes data) : Carries message .bytes (.native (.bytes data))
  | mapPayload {entries : List (String × Value)} {shown : Dict String}
      (hpayload : message.payload = some (.map entries))
      (hshown : shown.entries = entries.map fun (name, value) => (name, value.text)) :
      Carries message .map (.map shown)
  | nativeMap {entries : Dict String} (hpayload : message.payload = none)
      (hnative : message.native = .map entries) : Carries message .map (.map entries)
  | payloadJson {payload : Value} {json : Json} (hpayload : message.payload = some payload)
      (hjson : payload.IsJson json) : Carries message .object (.object json.text)
  | headersJson {json : Json} (hpayload : message.payload = none)
      (hjson : (Value.map (message.headers.entries.map fun (name, text) =>
        (name, .string text))).IsJson json) : Carries message .object (.object json.text)
  | native : Carries message .generic (.native message.native)

/-- What is wrong with a message that cannot be sent as this kind. -/
inductive Complains (message : Message) : MessageKind → Fault → Prop
  | stringPayload {kind : MessageKind} {payload : Value} (hkind : kind = .text ∨ kind = .bytes)
      (hpayload : message.payload = some payload) (hother : ∀ text, payload ≠ .string text) :
      Complains message kind (.payloadKindMismatch kind "a string payload must be set")
  | nativeText (hpayload : message.payload = none)
      (hother : ∀ text, message.native ≠ .text text) :
      Complains message .text (.payloadKindMismatch .text
        ("either a string payload must be set or a received text message passed, not " ++
          message.native.describe))
  | nativeBytes (hpayload : message.payload = none)
      (hother : ∀ text, message.native ≠ .text text)
      (hdata : ∀ data, message.native ≠ .bytes data) :
      Complains message .bytes (.payloadKindMismatch .bytes
        ("either a string payload must be set or a received text or bytes message passed, not " ++
          message.native.describe))
  | mapPayload {payload : Value} (hpayload : message.payload = some payload)
      (hother : ∀ entries, payload ≠ .map entries) :
      Complains message .map (.payloadKindMismatch .map "the map data must be set")
  | nativeMap (hpayload : message.payload = none)
      (hother : ∀ entries, message.native ≠ .map entries) :
      Complains message .map (.payloadKindMismatch .map
        ("either the map data must be set or a received map message passed, not " ++
          message.native.describe))
  | object {payload first : Value} (hpayload : message.payload = some payload)
      (hfirst : payload.MeetsFirst first) :
      Complains message .object (.typeMismatch .map first.type)

variable {message : Message} {kind : MessageKind}

theorem Carries.isSendable {body : EnvelopeBody} (h : Carries message kind body) :
    IsSendable message kind := by
  cases h with
  | stringPayload hkind hpayload =>
      rcases hkind with rfl | rfl <;> exact .inl ⟨_, hpayload⟩
  | nativeText hkind hpayload hnative =>
      rcases hkind with rfl | rfl
      · exact .inr ⟨hpayload, _, hnative⟩
      · exact .inr ⟨hpayload, .inl ⟨_, hnative⟩⟩
  | nativeBytes hpayload hnative => exact .inr ⟨hpayload, .inr ⟨_, hnative⟩⟩
  | mapPayload hpayload _ => exact .inl ⟨_, hpayload⟩
  | nativeMap hpayload hnative => exact .inr ⟨hpayload, _, hnative⟩
  | payloadJson hpayload hjson =>
      intro other hother inner hinner
      cases hpayload.symm.trans hother
      exact hjson.not_isIdentity hinner
  | headersJson hpayload _ =>
      intro other hother
      cases hpayload.symm.trans hother
  | native => trivial

theorem Complains.not_isSendable {fault : Fault} (h : Complains message kind fault) :
    ¬ IsSendable message kind := by
  intro hsendable
  cases h with
  | stringPayload hkind hpayload hother =>
      have hstring : ∀ text, message.payload ≠ some (.string text) := by
        intro text hstring
        exact hother text (Option.some.inj (hpayload.symm.trans hstring))
      have hset : message.payload ≠ none := by simp [hpayload]
      rcases hkind with rfl | rfl <;> rcases hsendable with ⟨text, h⟩ | ⟨h, -⟩
      · exact hstring text h
      · exact hset h
      · exact hstring text h
      · exact hset h
  | nativeText hpayload hother =>
      rcases hsendable with ⟨text, hstring⟩ | ⟨-, text, htext⟩
      · cases hpayload.symm.trans hstring
      · exact hother text htext
  | nativeBytes hpayload hother hdata =>
      rcases hsendable with ⟨text, hstring⟩ | ⟨-, ⟨text, htext⟩ | ⟨data, hbytes⟩⟩
      · cases hpayload.symm.trans hstring
      · exact hother text htext
      · exact hdata data hbytes
  | mapPayload hpayload hother =>
      rcases hsendable with ⟨entries, hmap⟩ | ⟨hnone, -⟩
      · cases hpayload.symm.trans hmap
        exact hother entries rfl
      · cases hpayload.symm.trans hnone
  | nativeMap hpayload hother =>
      rcases hsendable with ⟨entries, hmap⟩ | ⟨-, entries, hnative⟩
      · cases hpayload.symm.trans hmap
      · exact hother entries hnative
  | object hpayload hfirst =>
      exact hsendable _ hpayload _ hfirst.contains hfirst.isIdentity

/-! ## What `body` makes of it -/

/-- How the search for a body ends. -/
inductive Settles (message : Message) (kind : MessageKind) : Checked EnvelopeBody → Prop
  | ok {body : EnvelopeBody} (hbody : Carries message kind body) :
      Settles message kind (.ok body)
  | error {fault : Fault} (hfault : Complains message kind fault) :
      Settles message kind (.error fault)

variable (message : Message)

theorem settles_text : Settles message .text (stringBody .text false message) := by
  unfold stringBody
  split
  · next hpayload => exact .ok (.stringPayload (.inl rfl) hpayload)
  · next hother hpayload => exact .error (.stringPayload (.inl rfl) hpayload hother)
  · next hpayload hnative => exact .ok (.nativeText (.inl rfl) hpayload hnative)
  · next hpayload hother =>
      split
      · next hbytes => cases hbytes
      · next => exact .error (.nativeText hpayload hother)

theorem settles_bytes : Settles message .bytes (stringBody .bytes true message) := by
  unfold stringBody
  split
  · next hpayload => exact .ok (.stringPayload (.inr rfl) hpayload)
  · next hother hpayload => exact .error (.stringPayload (.inr rfl) hpayload hother)
  · next hpayload hnative => exact .ok (.nativeText (.inr rfl) hpayload hnative)
  · next hpayload hother =>
      split
      · next hnative _ => exact .ok (.nativeBytes hpayload hnative)
      · next hdata => exact .error (.nativeBytes hpayload hother fun data h => hdata data h rfl)

/-- A map shows its entries in their order when no name stands in it twice. -/
theorem ofPairs_shown {entries : Entries Value} (hdistinct : (Entries.names entries).Nodup) :
    (Dict.ofPairs (entries.map fun (name, value) => (name, value.text))).entries =
      entries.map fun (name, value) => (name, value.text) := by
  apply Dict.entries_ofPairs
  rw [Entries.names, List.map_map]
  exact hdistinct

theorem settles_map (hdistinct : ∀ entries, message.payload = some (.map entries) →
    (Entries.names entries).Nodup) : Settles message .map (mapBody message) := by
  unfold mapBody
  split
  · next entries hpayload =>
      exact .ok (.mapPayload hpayload (ofPairs_shown (hdistinct entries hpayload)))
  · next hother hpayload => exact .error (.mapPayload hpayload hother)
  · next hpayload hnative => exact .ok (.nativeMap hpayload hnative)
  · next hpayload hother => exact .error (.nativeMap hpayload hother)

theorem areMembers_headers (headers : Entries String) :
    Value.AreMembers (headers.map fun (name, text) => (name, .string text))
      (headers.map fun (name, text) => (name, .string text)) := by
  induction headers with
  | nil => exact .nil
  | cons _ _ ih => exact .cons (.string _) ih

theorem settles_object : Settles message .object (objectBody message) := by
  unfold objectBody
  split
  · next payload hpayload =>
      have hconverts := payload.converts_toJson
      cases hjson : payload.toJson with
      | ok json =>
          rw [hjson] at hconverts
          cases hconverts with
          | ok hjson => exact .ok (.payloadJson hpayload hjson)
      | error fault =>
          rw [hjson] at hconverts
          cases hconverts with
          | error hfirst => exact .error (.object hpayload hfirst)
  · next hpayload =>
      refine .ok (.headersJson hpayload (.map (areMembers_headers _) ?_ ?_))
      · exact Entries.sorted_perm _
      · exact Entries.pairwise_sorted _

theorem settles_body (hdistinct : ∀ entries, message.payload = some (.map entries) →
    (Entries.names entries).Nodup) (kind : MessageKind) :
    Settles message kind (body message kind) := by
  cases kind with
  | text => exact settles_text message
  | bytes => exact settles_bytes message
  | object => exact settles_object message
  | map => exact settles_map message hdistinct
  | generic => exact .ok .native

/-- A send of a message is prepared exactly when the message has what its kind carries.  The
envelope then carries it, with the headers of the message, and the properties are the name of the
kind and the destination; otherwise the fault says what is missing.  Nothing is written to the
store either way. -/
theorem send_prepares_what_kind_carries (store : Store) (context : Context) (connector : Value)
    (destination typeName : String) (id : MessageId)
    (hdistinct : ∀ entries, (store.read id).payload = some (.map entries) →
      (Entries.names entries).Nodup) :
    let message := store.read id
    let kind := MessageKind.ofName typeName
    let step := send.prepare store context
      [connector, .string destination, .string typeName, .message id]
    step.store = store ∧
      ((∃ request, step.answer = .ok request) ↔ IsSendable message kind) ∧
      (∀ request, step.answer = .ok request → ∃ body, Carries message kind body ∧
        request.envelope = ⟨kind, body, message.headers⟩ ∧
        request.properties.entries =
          [("JMS_MESSAGE_TYPE", kind.name), ("JMS_DESTINATION", destination)] ∧
        request.wantsReply = false) ∧
      ∀ halt, step.answer = .error halt →
        ∃ fault, halt = .failed fault ∧ Complains message kind fault := by
  intro message kind step
  have hanswer : step.answer = .ofChecked (request destination kind message) := rfl
  have hsettles := settles_body message hdistinct kind
  rw [hanswer, request]
  cases hbody : body message kind with
  | ok found =>
      rw [hbody] at hsettles
      cases hsettles with
      | ok hcarries =>
          refine ⟨rfl, ⟨fun _ => hcarries.isSendable, fun _ => ⟨_, rfl⟩⟩, ?_, ?_⟩
          · intro request hrequest
            cases hrequest
            exact ⟨found, hcarries, rfl, rfl, rfl⟩
          · intro halt hhalt
            cases hhalt
  | error fault =>
      rw [hbody] at hsettles
      cases hsettles with
      | error hcomplains =>
          refine ⟨rfl, ⟨?_, fun hsendable => absurd hsendable hcomplains.not_isSendable⟩, ?_, ?_⟩
          · rintro ⟨request, hrequest⟩
            cases hrequest
          · intro request hrequest
            cases hrequest
          · intro halt hhalt
            cases hhalt
            exact ⟨fault, rfl, hcomplains⟩

/-- A map with a map inside, sent as a map message by a name in other letters. -/
theorem send_prepares_what_kind_carries_nested :
    let payload := [("total", Value.integer 7), ("to", .map [("name", .string "Ada")])]
    let store := (Store.empty.create (.ofPayload (.map payload))).2
    (Entries.names payload).Nodup ∧
      ∃ request, (send.prepare store (.ofTrace "trace") [.connector ⟨0, "shop", "jms", .empty⟩,
        .string "orders", .string "mapMESSAGE", .message ⟨0⟩]).answer = .ok request := by
  intro payload store
  have hnames : (Entries.names payload).Nodup := by decide
  refine ⟨hnames, (send_prepares_what_kind_carries store _ _ "orders" "mapMESSAGE" ⟨0⟩ ?_).2.1.2 ?_⟩
  · intro entries hentries
    cases hentries
    exact hnames
  · have hkind : MessageKind.ofName "mapMESSAGE" = .map := by decide +kernel
    rw [hkind]
    exact .inl ⟨payload, rfl⟩

end Jms

end Switchboard
