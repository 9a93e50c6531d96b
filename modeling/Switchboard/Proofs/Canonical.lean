import Switchboard.Proofs.Equality
import Switchboard.Proofs.Json.Unique

/-!
The JSON of a payload stands for the payload.

Where no float, message or connector stands in a value, its JSON form loses nothing but the order of
the entries, which equality does not see either: two values have one JSON form exactly when they are
equal.  The text of the form says which form it is, so object messages have the same body exactly
when their payloads are equal.
-/

namespace Switchboard

namespace Entries

variable {A : Type} {left right : Entries A}

/-- Distinct names with the same values under them are the same entries in some order. -/
theorem perm_of_find?_eq (hleft : (names left).Nodup) (hright : (names right).Nodup)
    (h : ∀ name, find? name left = find? name right) : left.Perm right := by
  refine (List.perm_ext_iff_of_nodup hleft.of_map hright.of_map).2 ?_
  intro pair
  constructor
  · intro hpair
    exact mem_of_find? ((h pair.1).symm.trans (find?_of_mem hleft hpair))
  · intro hpair
    exact mem_of_find? ((h pair.1).trans (find?_of_mem hright hpair))

/-- There is one way to put entries of distinct names in order. -/
theorem eq_of_perm_of_ordered (hdistinct : (names left).Nodup)
    (hleft : (names left).Pairwise (· ≤ ·)) (hright : (names right).Pairwise (· ≤ ·))
    (h : left.Perm right) : left = right := by
  refine h.eq_of_pairwise ?_ (List.pairwise_map.1 hleft) (List.pairwise_map.1 hright)
  intro pair other hpair hother hle hge
  have hname : pair.1 = other.1 := String.le_antisymm hle hge
  have hfound := find?_of_mem hdistinct (h.mem_iff.2 hother)
  rw [← hname, find?_of_mem hdistinct hpair] at hfound
  exact Prod.ext hname (Option.some.inj hfound)

end Entries

namespace Value

/-- No float, message or connector stands in a value. -/
def IsPlain (value : Value) : Prop :=
  ∀ inner, value.Contains inner →
    inner.type ≠ .float ∧ inner.type ≠ .message ∧ inner.type ≠ .connector

variable {entries : List (String × Value)} {members : List (String × Json)}
  {first second : Value} {json other : Json}

theorem IsPlain.entry (h : (map entries).IsPlain) {pair : String × Value} (hpair : pair ∈ entries) :
    pair.2.IsPlain :=
  fun inner hinner => h inner (.entry hpair hinner)

theorem isPlain_map_iff : (map entries).IsPlain ↔ ∀ pair ∈ entries, pair.2.IsPlain := by
  constructor
  · intro h pair hpair
    exact h.entry hpair
  · intro h inner hinner
    rcases contains_map_iff.1 hinner with rfl | ⟨pair, hpair, hinner⟩
    · exact ⟨nofun, nofun, nofun⟩
    · exact h pair hpair inner hinner

/-! ## The members of a JSON form -/

theorem AreMembers.names (h : AreMembers entries members) :
    Entries.names members = Entries.names entries := by
  induction entries generalizing members with
  | nil =>
      cases h with
      | nil => rfl
  | cons pair rest ih =>
      cases h with
      | @cons name _ _ _ _ _ hrest => exact congrArg (name :: ·) (ih hrest)

theorem AreMembers.find? (h : AreMembers entries members) (name : String) :
    Option.Rel IsJson (Entries.find? name entries) (Entries.find? name members) := by
  induction entries generalizing members with
  | nil =>
      cases h with
      | nil => exact .none
  | cons pair rest ih =>
      cases h with
      | @cons key value json _ members hvalue hrest =>
          by_cases hname : key = name
          · rw [Entries.find?, Entries.find?, if_pos hname, if_pos hname]
            exact .some hvalue
          · rw [Entries.find?, Entries.find?, if_neg hname, if_neg hname]
            exact ih hrest

theorem AreMembers.exists_value (h : AreMembers entries members) {name : String}
    (hfound : Entries.find? name members = some json) :
    ∃ value, Entries.find? name entries = some value ∧ value.IsJson json := by
  have hrel := h.find? name
  rw [hfound] at hrel
  generalize Entries.find? name entries = found at hrel
  cases hrel with
  | some hvalue => exact ⟨_, rfl, hvalue⟩

theorem AreMembers.exists_json (h : AreMembers entries members) {name : String} {value : Value}
    (hfound : Entries.find? name entries = some value) :
    ∃ json, Entries.find? name members = some json ∧ value.IsJson json := by
  have hrel := h.find? name
  rw [hfound] at hrel
  generalize Entries.find? name members = found at hrel
  cases hrel with
  | some hvalue => exact ⟨_, rfl, hvalue⟩

/-- Members of maps that bind the same names to values with the same forms are the same members in
some order. -/
theorem AreMembers.perm {left right : List (String × Value)} {fields : List (String × Json)}
    (hmembers : AreMembers left members) (hfields : AreMembers right fields)
    (hleft : (Entries.names left).Nodup) (hright : (Entries.names right).Nodup)
    (hnames : ∀ name, name ∈ Entries.names left ↔ name ∈ Entries.names right)
    (hvalues : ∀ name value found form shape, Entries.find? name left = some value →
      Entries.find? name right = some found → value.IsJson form → found.IsJson shape →
        form = shape) : members.Perm fields := by
  apply Entries.perm_of_find?_eq (hmembers.names ▸ hleft) (hfields.names ▸ hright)
  intro name
  cases hbound : Entries.find? name left with
  | some value =>
      have hname := (hnames name).1 (Entries.mem_names (Entries.mem_of_find? hbound))
      obtain ⟨found, hfound⟩ := Entries.exists_find?_iff.2 hname
      obtain ⟨form, hform, hvalue⟩ := hmembers.exists_json hbound
      obtain ⟨shape, hshape, hthere⟩ := hfields.exists_json hfound
      rw [hform, hshape, hvalues name value found form shape hbound hfound hvalue hthere]
  | none =>
      have habsent := Entries.find?_eq_none_iff.1 hbound
      have hmissing : name ∉ Entries.names right := fun h => habsent ((hnames name).2 h)
      rw [Entries.find?_eq_none_iff.2 (hmembers.names ▸ habsent),
        Entries.find?_eq_none_iff.2 (hfields.names ▸ hmissing)]

/-! ## One form for equal values -/

theorem IsPlain.exists_json (h : first.IsPlain) :
    ∃ json, first.toJson = .ok json ∧ first.IsJson json := by
  have hconverts := first.converts_toJson
  cases hresult : first.toJson with
  | ok json =>
      rw [hresult] at hconverts
      cases hconverts with
      | ok hjson => exact ⟨json, rfl, hjson⟩
  | error fault =>
      rw [hresult] at hconverts
      cases hconverts with
      | error hfirst =>
          obtain ⟨-, hmessage, hconnector⟩ := h _ hfirst.contains
          cases hfirst.isIdentity with
          | message id => exact absurd rfl hmessage
          | connector handle => exact absurd rfl hconnector

theorem IsJson.isExact (hplain : first.IsPlain) (hwell : first.WellFormed)
    (h : first.IsJson json) : json.IsExact := by
  induction first using nested generalizing json with
  | integer n =>
      cases h with
      | integer => exact .integer _
  | float x => exact absurd rfl (hplain _ (.self _)).1
  | boolean b =>
      cases h with
      | boolean => exact .boolean b
  | string text =>
      cases h with
      | string => exact .string text
  | map entries ih =>
      obtain ⟨hnames, hentries⟩ := wellFormed_map_iff.1 hwell
      cases h with
      | map hmembers hperm _ =>
          refine .object ?_
          intro pair hpair
          have hfound := Entries.find?_of_mem (hmembers.names ▸ hnames) (hperm.mem_iff.1 hpair)
          obtain ⟨value, hvalue, hjson⟩ := hmembers.exists_value hfound
          have hentry := Entries.mem_of_find? hvalue
          exact ih _ hentry (hplain.entry hentry) (hentries _ hentry) hjson
  | message id => cases h
  | connector handle => cases h

/-- Equal values have one JSON form. -/
theorem IsJson.eq_of_equals (hequals : Equals first second) (hplain : first.IsPlain)
    (hfirst : first.WellFormed) (hsecond : second.WellFormed) (hjson : first.IsJson json)
    (hother : second.IsJson other) : json = other := by
  induction hequals generalizing json other with
  | integer n =>
      cases hjson
      cases hother
      rfl
  | float h => exact absurd rfl (hplain _ (.self _)).1
  | boolean b =>
      cases hjson
      cases hother
      rfl
  | string text =>
      cases hjson
      cases hother
      rfl
  | @map left right hnames _ ih =>
      obtain ⟨hleft, hentries⟩ := wellFormed_map_iff.1 hfirst
      obtain ⟨hright, hothers⟩ := wellFormed_map_iff.1 hsecond
      cases hjson with
      | @map _ members ordered hmembers hperm hordered =>
      cases hother with
      | @map _ fields row hfields hrow hrowed =>
          have hdistinct : (Entries.names members).Nodup := hmembers.names ▸ hleft
          have hsame : members.Perm fields := by
            apply hmembers.perm hfields hleft hright hnames
            intro name value found form shape hbound hfound hvalue hthere
            have hentry := Entries.mem_of_find? hbound
            exact ih name value found hbound hfound (hplain.entry hentry) (hentries _ hentry)
              (hothers _ (Entries.mem_of_find? hfound)) hvalue hthere
          -- Both rows are ordered by name, and no name comes twice.
          have hall : ordered.Perm row := (hperm.trans hsame).trans hrow.symm
          have honce : (Entries.names ordered).Nodup :=
            (hperm.map Prod.fst).nodup_iff.2 hdistinct
          exact congrArg Json.object (Entries.eq_of_perm_of_ordered honce hordered hrowed hall)
  | message id => cases hjson
  | connector h => cases hjson

/-- Values with one JSON form are equal. -/
theorem IsJson.equals (hplain : first.IsPlain) (hfirst : first.WellFormed)
    (hsecond : second.WellFormed) (hjson : first.IsJson json) (hother : second.IsJson json) :
    Equals first second := by
  induction first using nested generalizing second json with
  | integer n =>
      cases hjson with
      | integer =>
          -- Only the form is shared, so the number of the second value has to be found in it.
          generalize hform : Json.integer n.toInt = form at hother
          cases hother with
          | integer m => exact Int64.toInt_inj.1 (Json.integer.inj hform) ▸ .integer n
          | _ => cases hform
  | float x => exact absurd rfl (hplain _ (.self _)).1
  | boolean b =>
      cases hjson
      cases hother
      exact .boolean b
  | string text =>
      cases hjson
      cases hother
      exact .string text
  | map left ih =>
      obtain ⟨hleft, hentries⟩ := wellFormed_map_iff.1 hfirst
      cases hjson with
      | @map _ members _ hmembers hperm _ =>
      cases hother with
      | @map right fields _ hfields hrow _ =>
          obtain ⟨hright, hothers⟩ := wellFormed_map_iff.1 hsecond
          have hsame : members.Perm fields := hperm.symm.trans hrow
          refine .map ?_ ?_
          · intro name
            rw [← hmembers.names, ← hfields.names]
            exact (hsame.map Prod.fst).mem_iff
          · intro name value found hvalue hfound
            obtain ⟨form, hform, hthis⟩ := hmembers.exists_json hvalue
            obtain ⟨shape, hshape, hthat⟩ := hfields.exists_json hfound
            rw [Entries.find?_eq_of_perm (hmembers.names ▸ hleft) hsame, hshape] at hform
            obtain rfl := Option.some.inj hform
            have hentry := Entries.mem_of_find? hvalue
            exact ih _ hentry (hplain.entry hentry) (hentries _ hentry)
              (hothers _ (Entries.mem_of_find? hfound)) hthis hthat
  | message id => cases hjson
  | connector handle => cases hjson

end Value

namespace Jms

variable {message other : Message} {payload content : Value}

theorem body_object (hpayload : message.payload = some payload) {json : Json}
    (hjson : payload.toJson = .ok json) : body message .object = .ok (.object json.text) := by
  simp only [body, objectBody, hpayload, hjson]
  rfl

/-- An object message has a body whenever no float, message or connector stands in its payload, and
two of them have the same bytes exactly when their payloads are equal, whatever else the messages
hold.  So the order of the entries of a map never shows. -/
theorem object_bodies_are_canonical (hpayload : message.payload = some payload)
    (hcontent : other.payload = some content) (hwell : payload.WellFormed)
    (hformed : content.WellFormed) (hplain : payload.IsPlain) (hbare : content.IsPlain) :
    ∃ text word, body message .object = .ok (.object text) ∧
      body other .object = .ok (.object word) ∧
      (text.toUTF8 = word.toUTF8 ↔ payload.same content = true) ∧
      (payload.Reorders content → text.toUTF8 = word.toUTF8) := by
  obtain ⟨json, hresult, hjson⟩ := hplain.exists_json
  obtain ⟨form, hother, hform⟩ := hbare.exists_json
  have hbytes : json.text.toUTF8 = form.text.toUTF8 ↔ payload.Equals content := by
    rw [String.toUTF8, String.toUTF8, String.toByteArray_inj,
      (hjson.isExact hplain hwell).text_inj (hform.isExact hbare hformed)]
    constructor
    · rintro rfl
      exact hjson.equals hplain hwell hformed hform
    · intro hequals
      exact hjson.eq_of_equals hequals hplain hwell hformed hform
  refine ⟨json.text, form.text, body_object hpayload hresult, body_object hcontent hother, ?_, ?_⟩
  · rw [hbytes, Value.same_iff hwell hformed]
  · intro hreorders
    have hself : payload.Equals payload := by
      refine (Value.Equals.self_iff hwell).2 ?_
      intro x hx
      exact absurd rfl (hplain _ hx).1
    exact hbytes.2 (hreorders.equals hwell hself)

/-- A table and the names of its guests, with quotes and a line feed in them. -/
def guests : Value :=
  .ofPairs [("\"table\"", .integer 7),
    ("names", .ofPairs [("a", .string "Ada\n"), ("b", .string "")])]

/-- The same table and guests, in another order. -/
def turnedGuests : Value :=
  .ofPairs [("names", .ofPairs [("b", .string ""), ("a", .string "Ada\n")]),
    ("\"table\"", .integer 7)]

/-- The guests have the same body in both orders. -/
theorem object_bodies_are_canonical_of_guests :
    guests.WellFormed ∧ turnedGuests.WellFormed ∧ guests.IsPlain ∧ turnedGuests.IsPlain ∧
      ∃ text word, body (.ofPayload guests) .object = .ok (.object text) ∧
        body (.ofPayload turnedGuests) .object = .ok (.object word) ∧
        text.toUTF8 = word.toUTF8 := by
  have hinteger (n : Int64) : (Value.integer n).IsPlain := by
    rintro _ ⟨⟩
    exact ⟨nofun, nofun, nofun⟩
  have hstring (text : String) : (Value.string text).IsPlain := by
    rintro _ ⟨⟩
    exact ⟨nofun, nofun, nofun⟩
  have hnames : (Value.ofPairs [("a", .string "Ada\n"), ("b", .string "")]).WellFormed :=
    Value.wellFormed_ofPairs (by simp [Value.wellFormed_of_ne_map])
  have hwell : guests.WellFormed :=
    Value.wellFormed_ofPairs (by simp [Value.wellFormed_of_ne_map, hnames])
  have hreorders : guests.Reorders turnedGuests := by
    have hturned : Value.Reorders (.map [("a", .string "Ada\n"), ("b", .string "")])
        (.map [("b", .string ""), ("a", .string "Ada\n")]) := .here (.swap _ _ _)
    have hinside := @Value.Reorders.inside [("\"table\"", .integer 7)] [] "names" _ _ hturned
    exact hinside.trans (.here (.swap _ _ _))
  have hplain : guests.IsPlain := by
    change Value.IsPlain (.map [_, ("names", .map [_, _])])
    simp only [Value.isPlain_map_iff, List.forall_mem_cons]
    exact ⟨hinteger 7, ⟨hstring _, hstring _, List.forall_mem_nil _⟩, List.forall_mem_nil _⟩
  have hbare : turnedGuests.IsPlain := by
    change Value.IsPlain (.map [("names", .map [_, _]), _])
    simp only [Value.isPlain_map_iff, List.forall_mem_cons]
    exact ⟨⟨hstring _, hstring _, List.forall_mem_nil _⟩, hinteger 7, List.forall_mem_nil _⟩
  have hturned := hreorders.wellFormed hwell
  obtain ⟨text, word, htext, hword, -, hbytes⟩ :=
    @object_bodies_are_canonical (.ofPayload guests) (.ofPayload turnedGuests) _ _ rfl rfl hwell
      hturned hplain hbare
  exact ⟨hwell, hturned, hplain, hbare, text, word, htext, hword, hbytes hreorders⟩

end Jms

end Switchboard
