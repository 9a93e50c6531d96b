import Mathlib.Logic.ExistsUnique
import Switchboard.Proofs.Dispatch
import Switchboard.Proofs.Headers
import Switchboard.Proofs.Library

/-!
Calls on messages keep to the law of the headers.

Each of the functions is found in every engine that was built, takes its arguments, and changes the
message that it is given and no other.  So after any calls, from whichever contexts and through
whichever names they reach their messages, the headers of each message are what the history says.
-/

namespace Switchboard

namespace Store

variable {store : Store} {id : MessageId} {change other : Message → Message}

theorem update_congr (h : change (store.read id) = other (store.read id)) :
    store.update id change = store.update id other := by
  rw [update, h, update]

theorem update_eq_self (h : change (store.read id) = store.read id) :
    store.update id change = store := by
  have hmessages : (fun asked => if asked = id then store.read id else store.messages asked) =
      store.messages := by
    funext asked
    split
    · next heq => rw [heq, read]
    · rfl
  rw [update, h, write, hmessages]

end Store

namespace MessageCall

/-- The body that the function is registered with. -/
def body : MessageCall → LibraryBody
  | addHeader .. => Library.Messages.addHeader
  | setHeader .. => Library.Messages.setHeader
  | removeHeader .. => Library.Messages.removeHeader
  | getHeader .. => Library.Messages.getHeader
  | setStringPayload .. => Library.Messages.setPayload
  | setMapPayload .. => Library.Messages.setPayload

theorem body_eq (call : MessageCall) (store : Store) :
    call.body store call.arguments =
      .ok (call.answer (store.read call.target), store.update call.target call.change) := by
  cases call with
  | addHeader id name value =>
      have hid : Arguments.message (arguments (.addHeader id name value)) 0 = .ok id := rfl
      have hname : Arguments.string (arguments (.addHeader id name value)) 1 = .ok name := rfl
      have hvalue : Arguments.string (arguments (.addHeader id name value)) 2 = .ok value := rfl
      simp only [body, Library.Messages.addHeader, hid, hname, hvalue, bind, Except.bind]
      cases hfound : (store.read id).header? name with
      | some found =>
          have hself : change (.addHeader id name value) (store.read id) = store.read id := by
            rw [change, hfound]
            rfl
          rw [target, Store.update_eq_self hself]
          rfl
      | none =>
          have hset : change (.addHeader id name value) (store.read id) =
              (store.read id).setHeader name value := by
            rw [change, hfound]
            rfl
          rw [target, @Store.update_congr _ _ _ (fun message => message.setHeader name value) hset]
          rfl
  | setHeader id name value => rfl
  | removeHeader id name => rfl
  | getHeader id name =>
      rw [target, @Store.update_eq_self store id (change (.getHeader id name)) rfl]
      rfl
  | setStringPayload id text => rfl
  | setMapPayload id entries => rfl

/-- What a call may do to the store: change the headers or the payload of its message. -/
structure Confined (call : MessageCall) (before after : Store) : Prop where
  others : ∀ id, id ≠ call.target → after.read id = before.read id
  origin : (after.read call.target).origin = (before.read call.target).origin
  native : (after.read call.target).native = (before.read call.target).native
  one : (after.read call.target).headers = (before.read call.target).headers ∨
    (after.read call.target).payload = (before.read call.target).payload
  next : after.next = before.next
  memory : after.memory = before.memory
  asked : ∀ id name, call = .getHeader id name → after = before

theorem exists_change (call : MessageCall) (message : Message) :
    ∃ headers payload, call.change message = { message with headers, payload } ∧
      (headers = message.headers ∨ payload = message.payload) := by
  cases call with
  | addHeader id name value =>
      rw [change]
      split
      · exact ⟨_, _, rfl, .inl rfl⟩
      · exact ⟨_, _, rfl, .inr rfl⟩
  | setHeader id name value => exact ⟨_, _, rfl, .inr rfl⟩
  | removeHeader id name => exact ⟨_, _, rfl, .inr rfl⟩
  | getHeader id name => exact ⟨_, _, rfl, .inl rfl⟩
  | setStringPayload id text => exact ⟨_, _, rfl, .inl rfl⟩
  | setMapPayload id entries => exact ⟨_, _, rfl, .inl rfl⟩

theorem confined (call : MessageCall) (store : Store) :
    call.Confined store (store.update call.target call.change) := by
  obtain ⟨headers, payload, hchange, hone⟩ := call.exists_change (store.read call.target)
  have hread : (store.update call.target call.change).read call.target =
      { store.read call.target with headers, payload } := by
    rw [Store.read_update, if_pos rfl, hchange]
  constructor
  case others =>
    intro id hother
    rw [Store.read_update, if_neg hother]
  case origin => rw [hread]
  case native => rw [hread]
  case one => rwa [hread]
  case next => rfl
  case memory => rfl
  case asked =>
    rintro id name rfl
    exact Store.update_eq_self rfl

/-- The parameters that the function declares. -/
def params : MessageCall → List Param
  | addHeader .. => [⟨"message", .message⟩, ⟨"key", .string⟩, ⟨"value", .string⟩]
  | setHeader .. => [⟨"message", .message⟩, ⟨"key", .string⟩, ⟨"value", .string⟩]
  | removeHeader .. => [⟨"message", .message⟩, ⟨"key", .string⟩]
  | getHeader .. => [⟨"message", .message⟩, ⟨"key", .string⟩]
  | setStringPayload .. => [⟨"message", .message⟩, ⟨"payload", .string⟩]
  | setMapPayload .. => [⟨"message", .message⟩, ⟨"payload", .map⟩]

/-- The result that the function declares. -/
def returns : MessageCall → Option ValueType
  | getHeader .. => some .string
  | _ => none

theorem types_arguments (call : MessageCall) :
    call.arguments.map Value.type = call.params.map Param.type := by
  cases call <;> rfl

theorem type_answer (call : MessageCall) (message : Message) :
    (call.answer message).map Value.type = call.returns := by
  cases call <;> rfl

/-- What the library contributes for the call. -/
def contribution (call : MessageCall) : Contribution :=
  call.body.contribution "lang.message" call.name
    (call.params.map fun param => (param.name, param.type.name)) (call.returns.map ValueType.name)

def descriptor (call : MessageCall) : Descriptor :=
  ⟨⟨"lang.message", call.name⟩, call.params, call.returns, true, .function⟩

theorem contribution_mem (call : MessageCall) : call.contribution ∈ Library.contributions := by
  apply List.mem_append_left
  apply List.mem_append_left
  apply List.mem_append_left
  cases call <;>
    simp [contribution, body, name, params, returns, Library.Messages.contributions,
      Library.Messages.package, ValueType.name]

theorem describe_contribution (call : MessageCall) :
    call.contribution.describe = .ok call.descriptor := by
  have hname : (QualifiedName.mk "lang.message" call.name).isWellFormed = true := by
    cases call <;> simp only [name] <;> decide +kernel
  simp only [contribution, LibraryBody.contribution, LibraryBody.toFunction, Contribution.describe,
    Contribution.spec, NativeSpec.qualifiedName, hname, Contribution.resolveParams_names,
    Contribution.resolveReturns_name]
  rfl

end MessageCall

namespace Engine

variable {engine : Engine}

/-- The calls one after the other, each in a context of its own. -/
def callAll (engine : Engine) (world : World) (calls : List (Context × MessageCall)) : World :=
  calls.foldl
    (fun world (context, call) => (engine.invoke call.function call.arguments context world).world)
    world

theorem callAll_concat (world : World) (calls : List (Context × MessageCall)) (context : Context)
    (call : MessageCall) : engine.callAll world (calls ++ [(context, call)]) =
      (engine.invoke call.function call.arguments context (engine.callAll world calls)).world := by
  simp [callAll]

/-- A function that is found and answers as it declares is called: its answer is handed over, and
the store is as it left it. -/
theorem invoke_function {name : String} {descriptor : Descriptor} {native : NativeFunction}
    {arguments : List Value} {context after : Context} {world : World} {value : Option Value}
    {left : Store} (hfound : engine.registry.find? name = some ⟨descriptor, .function native⟩)
    (hkind : descriptor.kind = .function)
    (htypes : arguments.map Value.type = descriptor.params.map Param.type)
    (hrun : native.run world.store context arguments = ⟨.ok value, after, left⟩)
    (hreturns : ∀ found, value = some found → descriptor.returns = some found.type) :
    (engine.invoke name arguments context world).result = .ok value ∧
      (engine.invoke name arguments context world).context = after ∧
      (engine.invoke name arguments context world).world.store = left := by
  have hmode : descriptor.checkMode .blocking = .ok () := by
    simp only [Descriptor.checkMode, hkind]
  have hcheck := Registry.check_eq_ok_iff.2 ⟨_, ⟨hfound, hmode, rfl, htypes⟩, rfl⟩
  have hreturn : descriptor.checkReturn value = .ok value :=
    Descriptor.checkReturn_eq_ok_iff.2 ⟨rfl, hreturns⟩
  have hstart : (((world.note (.invoked .blocking name arguments)).emit
      (.ofDispatch name context.location?)).note (.executed name arguments)).store =
        world.store := rfl
  simp only [invoke, hcheck, World.runTarget, World.execute, hstart, hrun, Descriptor.handOver,
    hreturn]
  exact ⟨trivial, trivial, rfl⟩

variable {blueprint : Blueprint} {start : World}

/-- A call on a message answers by what the message holds, and changes this message only. -/
theorem invoke_messageCall (hbuild : blueprint.build = .ok (engine, start)) (call : MessageCall)
    (context : Context) (world : World) :
    (engine.invoke call.function call.arguments context world).result =
        .ok (call.answer (world.store.read call.target)) ∧
      (engine.invoke call.function call.arguments context world).context = context ∧
      (engine.invoke call.function call.arguments context world).world.store =
        world.store.update call.target call.change := by
  have hfound := Blueprint.find?_of_build hbuild call.contribution_mem call.describe_contribution
  refine invoke_function hfound rfl call.types_arguments ?_ ?_
  · simp only [LibraryBody.toFunction, call.body_eq]
  · intro found hanswer
    have htype := call.type_answer (world.store.read call.target)
    rw [hanswer] at htype
    exact htype.symm

/-- After any calls on messages, the headers of each message are what the history says, and its
origin and body are as they were. -/
theorem callAll_follows (hbuild : blueprint.build = .ok (engine, start)) (world : World)
    (calls : List (Context × MessageCall)) (id : MessageId) :
    (world.store.read id).Follows id (calls.map Prod.snd)
      ((engine.callAll world calls).store.read id) := by
  induction calls using List.reverseRecOn with
  | nil => exact .nil _ _
  | append_singleton calls call ih =>
      obtain ⟨context, call⟩ := call
      obtain ⟨-, -, hstore⟩ := invoke_messageCall hbuild call context (engine.callAll world calls)
      have hread : (engine.callAll world (calls ++ [(context, call)])).store.read id =
          call.changeOf id ((engine.callAll world calls).store.read id) := by
        rw [callAll_concat, hstore, Store.read_update, MessageCall.changeOf]
        split
        · next heq => rw [heq]
        · rfl
      rw [hread, List.map_append, List.map_singleton]
      exact ih.step call

/-- Headers are one ordered map under any calls on messages, by any names a program reaches them:
each is there, and has the value, that the calls on its message say, and they stand in the order in
which they came in.  The next call always succeeds, and changes nothing but the headers or the
payload of the message that it is given. -/
theorem message_headers_follow_history (hbuild : blueprint.build = .ok (engine, start))
    (world : World) (calls : List (Context × MessageCall)) :
    let history := calls.map Prod.snd
    let after := engine.callAll world calls
    (∀ id,
      let first := world.store.read id
      let headers := (after.store.read id).headers
      headers.names.Nodup ∧
        (∀ name, name ∈ headers.names ↔ first.HasHeader id name history) ∧
        (∀ name value, headers.find? name = some value ↔ first.HasValue id name value history) ∧
        (∀ name ∈ headers.names, ∃! moment, first.Entered id name moment history) ∧
        (headers.names.Pairwise fun left right => ∃ m n,
          first.Entered id left m history ∧ first.Entered id right n history ∧ m < n) ∧
        ∀ context name,
          let result := (engine.invoke "lang.message:getHeader" [.message id, .string name] context
            after).result
          (∀ value, first.HasValue id name value history →
            result = .ok (some (.string value))) ∧
          (¬ first.HasHeader id name history → result = .ok (some (.string "")))) ∧
    ∀ (context : Context) (call : MessageCall),
      let outcome := engine.invoke call.function call.arguments context after
      (∃ answer, outcome.result = .ok answer) ∧ outcome.context = context ∧
        call.Confined after.store outcome.world.store := by
  intro history after
  constructor
  · intro id first headers
    have hfollows := callAll_follows hbuild world calls id
    refine ⟨headers.distinct, hfollows.present, hfollows.value, ?_, hfollows.order, ?_⟩
    · intro name hname
      obtain ⟨moment, hentered⟩ := Message.exists_entered_iff.2 ((hfollows.present name).1 hname)
      exact ⟨moment, hentered, fun _ hother => hother.unique hentered⟩
    · intro context name result
      have hresult : result = .ok (some (.string ((headers.find? name).getD ""))) :=
        (invoke_messageCall hbuild (.getHeader id name) context after).1
      constructor
      · intro value hvalue
        have hfound : headers.find? name = some value := (hfollows.value name value).2 hvalue
        rw [hresult, hfound]
        rfl
      · intro habsent
        have hfound : headers.find? name = none := by
          rw [← hfollows.present] at habsent
          exact Message.header?_eq_none_iff.2 habsent
        rw [hresult, hfound]
        rfl
  · intro context call outcome
    obtain ⟨hresult, hcontext, hstore⟩ := invoke_messageCall hbuild call context after
    refine ⟨⟨_, hresult⟩, hcontext, ?_⟩
    rw [hstore]
    exact call.confined after.store

/-- A header that is removed and added again has the value with which it was added. -/
theorem message_headers_follow_history_readded :
    ∃ engine start, (Blueprint.ofConfig .default).build = .ok (engine, start) ∧
      ((engine.callAll start [(.ofTrace "s", .setHeader ⟨0⟩ "a" "1"),
        (.ofTrace "t", .removeHeader ⟨0⟩ "a"), (.ofTrace "s", .addHeader ⟨0⟩ "a" "2")]).store.read
          ⟨0⟩).headers.find? "a" = some "2" := by
  have hbuilds : (Blueprint.ofConfig .default).build.isOk = true := by decide +kernel
  cases hbuild : (Blueprint.ofConfig .default).build with
  | error halt =>
      rw [hbuild] at hbuilds
      cases hbuilds
  | ok parts =>
      refine ⟨parts.1, parts.2, rfl, ?_⟩
      refine (((message_headers_follow_history hbuild parts.2 _).1 ⟨0⟩).2.2.1 "a" "2").2 ?_
      refine @Since.event MessageCall _ _ _ [.setHeader ⟨0⟩ "a" "1", .removeHeader ⟨0⟩ "a"] [] _
        (.inr ⟨rfl, ?_⟩) (by simp)
      intro hheader
      rcases (@Message.hasHeader_concat_iff _ _ _ [_] _).1 hheader with
        ⟨_, h | h⟩ | ⟨-, hquiet⟩
      · cases h
      · cases h
      · exact hquiet (.inr rfl)

end Engine

end Switchboard
