import Mathlib.Data.List.Basic
import Mathlib.Data.List.Induction
import Switchboard.Message
import Switchboard.Proofs.Histories

/-!
The headers of a message are one ordered map.

The headers of a message are what the history of the calls on it says.  A header is there when the
latest call about it did not remove it, it has the value that it was given since it came in, and the
headers stand in the order in which they came in.  All three are told by what began something and
what ended it.
-/

namespace Switchboard

/-! ## Calls on messages -/

/-- A call of one of the functions that work on the headers or the payload of a message.  Every name
under which a program reaches a message stands for the same identity. -/
inductive MessageCall where
  | addHeader (id : MessageId) (name value : String)
  | setHeader (id : MessageId) (name value : String)
  | removeHeader (id : MessageId) (name : String)
  | getHeader (id : MessageId) (name : String)
  | setStringPayload (id : MessageId) (text : String)
  | setMapPayload (id : MessageId) (entries : List (String × Value))

namespace MessageCall

/-- The name of the function in its package. -/
def name : MessageCall → String
  | addHeader .. => "addHeader"
  | setHeader .. => "setHeader"
  | removeHeader .. => "removeHeader"
  | getHeader .. => "getHeader"
  | setStringPayload .. => "setStringPayload"
  | setMapPayload .. => "setMapPayload"

/-- The qualified name of the function. -/
def function (call : MessageCall) : String :=
  "lang.message:" ++ call.name

def arguments : MessageCall → List Value
  | addHeader id name value => [.message id, .string name, .string value]
  | setHeader id name value => [.message id, .string name, .string value]
  | removeHeader id name => [.message id, .string name]
  | getHeader id name => [.message id, .string name]
  | setStringPayload id text => [.message id, .string text]
  | setMapPayload id entries => [.message id, .map entries]

/-- The message that the call is given. -/
def target : MessageCall → MessageId
  | addHeader id _ _ => id
  | setHeader id _ _ => id
  | removeHeader id _ => id
  | getHeader id _ => id
  | setStringPayload id _ => id
  | setMapPayload id _ => id

/-- What the call makes of this message. -/
def change : MessageCall → Message → Message
  | addHeader _ name value, message =>
      if (message.header? name).isSome then message else message.setHeader name value
  | setHeader _ name value, message => message.setHeader name value
  | removeHeader _ name, message => message.removeHeader name
  | getHeader _ _, message => message
  | setStringPayload _ text, message => message.setPayload (.string text)
  | setMapPayload _ entries, message => message.setPayload (.map entries)

/-- What the call answers when the message is this one. -/
def answer : MessageCall → Message → Option Value
  | getHeader _ name, message => some (.string ((message.header? name).getD ""))
  | _, _ => none

/-- Whether the call may give the message a header of this name. -/
def Binds (id : MessageId) (name : String) (call : MessageCall) : Prop :=
  ∃ value, call = .addHeader id name value ∨ call = .setHeader id name value

/-- Whether the call removes the header. -/
def Removes (id : MessageId) (name : String) (call : MessageCall) : Prop :=
  call = .removeHeader id name

/-- Whether the call is about the header and may change it. -/
def Touches (id : MessageId) (name : String) (call : MessageCall) : Prop :=
  call.Binds id name ∨ call.Removes id name

/-- Whether the call makes the header forget its value. -/
def Overwrites (id : MessageId) (name : String) (call : MessageCall) : Prop :=
  (∃ value, call = .setHeader id name value) ∨ call.Removes id name

variable {call : MessageCall} {id : MessageId} {name : String}

theorem Overwrites.touches (h : call.Overwrites id name) : call.Touches id name := by
  rcases h with ⟨value, rfl⟩ | h
  · exact .inl ⟨value, .inr rfl⟩
  · exact .inr h

theorem Binds.not_removes (h : call.Binds id name) : ¬ call.Removes id name := by
  obtain ⟨value, rfl | rfl⟩ := h <;> rintro ⟨⟩

end MessageCall

/-! ## What a history says about a header -/

namespace Message

/-- The header is there: the latest call about it did not remove it, or there was no such call and
the message had it from the start. -/
def HasHeader (first : Message) (id : MessageId) (name : String) : List MessageCall → Prop :=
  Since (name ∈ first.headers.names) (fun _ call => call.Binds id name)
    (MessageCall.Touches id name)

/-- The value of the header: the latest one that was set, or the one with which it was added, or the
one from the start. -/
def HasValue (first : Message) (id : MessageId) (name value : String) :
    List MessageCall → Prop :=
  Since (first.header? name = some value)
    (fun before call => call = .setHeader id name value ∨
      call = .addHeader id name value ∧ ¬ first.HasHeader id name before)
    (MessageCall.Overwrites id name)

/-- The moment at which the header came in, as it was absent before and has not been removed since.
The headers from the start came in one after the other before the first call. -/
def Entered (first : Message) (id : MessageId) (name : String) (moment : Nat) :
    List MessageCall → Prop :=
  Since (first.headers.names[moment]? = some name)
    (fun before call => call.Binds id name ∧ ¬ first.HasHeader id name before ∧
      moment = first.headers.names.length + before.length)
    (MessageCall.Removes id name)

variable {first : Message} {id : MessageId} {name : String} {moment : Nat}
  {calls : List MessageCall} {call : MessageCall}

theorem hasHeader_concat_iff : first.HasHeader id name (calls ++ [call]) ↔
    call.Binds id name ∨ first.HasHeader id name calls ∧ ¬ call.Touches id name :=
  Since.concat_iff

theorem Entered.concat (h : first.Entered id name moment calls) (hkept : ¬ call.Removes id name) :
    first.Entered id name moment (calls ++ [call]) :=
  Since.concat_iff.2 (.inr ⟨h, hkept⟩)

theorem Entered.lt (h : first.Entered id name moment calls) :
    moment < first.headers.names.length + calls.length := by
  cases h with
  | start hplace _ =>
      have hlt := (List.getElem?_eq_some_iff.1 hplace).1
      omega
  | event hbegins _ =>
      obtain ⟨-, -, rfl⟩ := hbegins
      simp

/-- A header is there exactly when it came in at some moment. -/
theorem exists_entered_iff :
    (∃ moment, first.Entered id name moment calls) ↔ first.HasHeader id name calls := by
  induction calls using List.reverseRecOn with
  | nil =>
      simp only [Entered, HasHeader, Since.nil_iff]
      exact List.mem_iff_getElem?.symm
  | append_singleton calls call ih =>
      simp only [hasHeader_concat_iff, ← ih]
      constructor
      · rintro ⟨moment, h⟩
        rcases Since.concat_iff.1 h with ⟨hbinds, -, -⟩ | ⟨hentered, hkept⟩
        · exact .inl hbinds
        · by_cases hbinds : call.Binds id name
          · exact .inl hbinds
          · exact .inr ⟨⟨moment, hentered⟩, fun h => h.elim hbinds hkept⟩
      · rintro (hbinds | ⟨⟨moment, hentered⟩, hquiet⟩)
        -- A header that is bound while it is there keeps the moment at which it came in.
        · by_cases hpresent : first.HasHeader id name calls
          · obtain ⟨moment, hentered⟩ := ih.2 hpresent
            exact ⟨moment, hentered.concat hbinds.not_removes⟩
          · exact ⟨_, Since.concat_iff.2 (.inl ⟨hbinds, hpresent, rfl⟩)⟩
        · exact ⟨moment, hentered.concat fun hremoves => hquiet (.inr hremoves)⟩

theorem Entered.unique {other : Nat} (h : first.Entered id name moment calls)
    (hother : first.Entered id name other calls) : moment = other := by
  induction calls using List.reverseRecOn with
  | nil =>
      rw [Entered, Since.nil_iff] at h hother
      have hlt := (List.getElem?_eq_some_iff.1 h).1
      exact (List.getElem?_inj hlt first.headers.distinct).1 (h.trans hother.symm)
  | append_singleton calls call ih =>
      rcases Since.concat_iff.1 h with ⟨-, habsent, rfl⟩ | ⟨h, -⟩ <;>
        rcases Since.concat_iff.1 hother with ⟨-, habsent', rfl⟩ | ⟨hother, -⟩
      · rfl
      · exact absurd (exists_entered_iff.1 ⟨_, hother⟩) habsent
      · exact absurd (exists_entered_iff.1 ⟨_, h⟩) habsent'
      · exact ih h hother

/-- The headers of a message are what the history of the calls on it says. -/
structure Follows (first : Message) (id : MessageId) (calls : List MessageCall)
    (message : Message) : Prop where
  value : ∀ name value, message.header? name = some value ↔ first.HasValue id name value calls
  present : ∀ name, name ∈ message.headers.names ↔ first.HasHeader id name calls
  order : message.headers.names.Pairwise fun left right => ∃ m n,
    first.Entered id left m calls ∧ first.Entered id right n calls ∧ m < n

/-! ## One call -/

@[simp] theorem header?_setHeader (message : Message) (name value other : String) :
    (message.setHeader name value).header? other =
      if name = other then some value else message.header? other :=
  Dict.find?_bind message.headers name other value

@[simp] theorem header?_removeHeader (message : Message) (name other : String) :
    (message.removeHeader name).header? other =
      if name = other then none else message.header? other :=
  Dict.find?_drop message.headers name other

@[simp] theorem header?_setPayload (message : Message) (payload : Value) (name : String) :
    (message.setPayload payload).header? name = message.header? name := rfl

theorem header?_eq_none_iff {message : Message} :
    message.header? name = none ↔ name ∉ message.headers.names :=
  Entries.find?_eq_none_iff

theorem mem_names_iff {message : Message} :
    name ∈ message.headers.names ↔ ∃ value, message.header? name = some value := by
  rw [← Option.isSome_iff_exists, ← Option.ne_none_iff_isSome, ne_eq, header?_eq_none_iff, not_not]

end Message

namespace MessageCall

variable {call : MessageCall} {id : MessageId} {message : Message} {name value : String}

/-- What the call makes of the message `id`: something only when it is given this message. -/
def changeOf (call : MessageCall) (id : MessageId) (message : Message) : Message :=
  if id = call.target then call.change message else message

/-- After a call a header has a value when the call set it, or added it where it was absent, or when
the header had the value already and was not overwritten. -/
theorem header?_changeOf_iff : (call.changeOf id message).header? name = some value ↔
    (call = .setHeader id name value ∨
      call = .addHeader id name value ∧ message.header? name = none) ∨
    message.header? name = some value ∧ ¬ call.Overwrites id name := by
  by_cases hid : id = call.target
  · subst hid
    rw [changeOf, if_pos rfl]
    cases call with
    | addHeader id key text =>
        by_cases hkey : key = name
        · subst hkey
          cases hfound : message.header? key <;> simp [change, target, hfound, Overwrites, Removes]
        · cases hfound : message.header? key <;> simp [change, hfound, hkey, Overwrites, Removes]
    | setHeader id key text =>
        by_cases hkey : key = name <;> simp_all [change, target, Overwrites, Removes]
    | removeHeader id key =>
        by_cases hkey : key = name <;> simp_all [change, target, Overwrites, Removes]
    | getHeader id key => simp [change, Overwrites, Removes]
    | setStringPayload id text => simp [change, Overwrites, Removes]
    | setMapPayload id entries => simp [change, Overwrites, Removes]
  · have hset : call ≠ .setHeader id name value := by
      rintro rfl
      exact hid rfl
    have hadd : call ≠ .addHeader id name value := by
      rintro rfl
      exact hid rfl
    have hkept : ¬ call.Overwrites id name := by
      rintro (⟨text, rfl⟩ | rfl) <;> exact hid rfl
    rw [changeOf, if_neg hid]
    simp [hset, hadd, hkept]

/-- After a call a header is there when the call binds it, or when it was there and the call is not
about it. -/
theorem mem_names_changeOf_iff : name ∈ (call.changeOf id message).headers.names ↔
    call.Binds id name ∨ name ∈ message.headers.names ∧ ¬ call.Touches id name := by
  simp only [Message.mem_names_iff, header?_changeOf_iff]
  constructor
  · rintro ⟨value, (rfl | ⟨rfl, -⟩) | ⟨hvalue, hkept⟩⟩
    · exact .inl ⟨value, .inr rfl⟩
    · exact .inl ⟨value, .inl rfl⟩
    · by_cases hbinds : call.Binds id name
      · exact .inl hbinds
      · exact .inr ⟨⟨value, hvalue⟩, fun h => h.elim hbinds fun hremoves => hkept (.inr hremoves)⟩
  · rintro (⟨value, rfl | rfl⟩ | ⟨⟨value, hvalue⟩, hquiet⟩)
    · cases hfound : message.header? name with
      | none => exact ⟨value, .inl (.inr ⟨rfl, rfl⟩)⟩
      | some found => exact ⟨found, .inr ⟨rfl, by rintro (⟨_, ⟨⟩⟩ | ⟨⟨⟩⟩)⟩⟩
    · exact ⟨value, .inl (.inl rfl)⟩
    · exact ⟨value, .inr ⟨hvalue, fun h => hquiet h.touches⟩⟩

theorem names_setHeader {key text : String} : (message.setHeader key text).headers.names =
    if key ∈ message.headers.names then message.headers.names
    else message.headers.names ++ [key] :=
  message.headers.names_bind key text

/-- A call keeps the headers in their order, but for those it removes, or it brings one in behind
them all. -/
theorem names_changeOf : (call.changeOf id message).headers.names.Sublist message.headers.names ∨
    ∃ name, call.Binds id name ∧ name ∉ message.headers.names ∧
      (call.changeOf id message).headers.names = message.headers.names ++ [name] := by
  by_cases hid : id = call.target
  · subst hid
    rw [changeOf, if_pos rfl]
    cases call with
    | addHeader id key text =>
        by_cases hkey : key ∈ message.headers.names
        · left
          rw [change, if_pos (Option.isSome_iff_exists.2 (Message.mem_names_iff.1 hkey))]
        · right
          refine ⟨key, ⟨text, .inl rfl⟩, hkey, ?_⟩
          rw [change, Message.header?_eq_none_iff.2 hkey]
          exact names_setHeader.trans (if_neg hkey)
    | setHeader id key text =>
        by_cases hkey : key ∈ message.headers.names
        · left
          rw [change, names_setHeader, if_pos hkey]
        · right
          exact ⟨key, ⟨text, .inr rfl⟩, hkey, names_setHeader.trans (if_neg hkey)⟩
    | removeHeader id key => exact .inl (Entries.sublist_names_drop key message.headers.entries)
    | getHeader id key => exact .inl (.refl _)
    | setStringPayload id text => exact .inl (.refl _)
    | setMapPayload id entries => exact .inl (.refl _)
  · rw [changeOf, if_neg hid]
    exact .inl (.refl _)

end MessageCall

namespace Message.Follows

variable {first message : Message} {id : MessageId} {calls : List MessageCall}

theorem nil (message : Message) (id : MessageId) : message.Follows id [] message where
  value name value := Since.nil_iff.symm
  present name := Since.nil_iff.symm
  order := by
    rw [List.pairwise_iff_getElem]
    intro m n hm hn hlt
    refine ⟨m, n, Since.nil_iff.2 ?_, Since.nil_iff.2 ?_, hlt⟩
    · exact List.getElem?_eq_getElem hm
    · exact List.getElem?_eq_getElem hn

/-- One more call, and the headers are what the longer history says. -/
theorem step (h : first.Follows id calls message) (call : MessageCall) :
    first.Follows id (calls ++ [call]) (call.changeOf id message) where
  value name value := by
    have habsent : message.header? name = none ↔ ¬ first.HasHeader id name calls := by
      rw [← h.present, header?_eq_none_iff]
    rw [MessageCall.header?_changeOf_iff, habsent, h.value, HasValue, Since.concat_iff]
  present name := by
    rw [MessageCall.mem_names_changeOf_iff, h.present, hasHeader_concat_iff]
  order := by
    have hkept {name : String} {moment : Nat}
        (hmem : name ∈ (call.changeOf id message).headers.names)
        (hentered : first.Entered id name moment calls) :
        first.Entered id name moment (calls ++ [call]) := by
      apply hentered.concat
      rcases MessageCall.mem_names_changeOf_iff.1 hmem with hbinds | ⟨-, hquiet⟩
      · exact hbinds.not_removes
      · exact fun hremoves => hquiet (.inr hremoves)
    rcases MessageCall.names_changeOf with hsublist | ⟨name, hbinds, habsent, hnames⟩
    · refine (h.order.sublist hsublist).imp_of_mem ?_
      rintro left right hleft hright ⟨m, n, hm, hn, hlt⟩
      exact ⟨m, n, hkept hleft hm, hkept hright hn, hlt⟩
    · rw [hnames] at hkept ⊢
      refine List.pairwise_append.2 ⟨h.order.imp_of_mem ?_, List.pairwise_singleton _ _, ?_⟩
      · rintro left right hleft hright ⟨m, n, hm, hn, hlt⟩
        exact ⟨m, n, hkept (List.mem_append_left _ hleft) hm,
          hkept (List.mem_append_left _ hright) hn, hlt⟩
      · intro left hleft right hright
        obtain rfl := List.mem_singleton.1 hright
        obtain ⟨m, hm⟩ := exists_entered_iff.2 ((h.present left).1 hleft)
        have hnew : ¬ first.HasHeader id right calls := fun h' => habsent ((h.present right).2 h')
        exact ⟨m, _, hkept (List.mem_append_left _ hleft) hm,
          Since.concat_iff.2 (.inl ⟨hbinds, hnew, rfl⟩), hm.lt⟩

end Message.Follows

end Switchboard
