import Switchboard.Proofs.Dispatch

/-!
Expressions as rows of nodes.

The nodes of an expression, every one behind its operands, make a program in reverse Polish
notation: a literal or a variable puts a value on a stack, an operator or a call takes the values of
its operands from there and puts its own in their place.  Evaluating the expression is running this
program.  The nodes are visited one after the other, each in the context and the world that the one
before it has left, and the first node that comes to no value ends it.
-/

namespace Switchboard

namespace Expr

mutual

/-- The nodes of an expression, every one behind its operands, from left to right. -/
def postorder : Expr → List Expr
  | .literal value => [.literal value]
  | .var name location => [.var name location]
  | .binary op left right location =>
      left.postorder ++ (right.postorder ++ [.binary op left right location])
  | .call function arguments location =>
      postorderAll arguments ++ [.call function arguments location]

/-- The nodes of expressions, one expression after the other. -/
def postorderAll : List Expr → List Expr
  | [] => []
  | expr :: rest => expr.postorder ++ postorderAll rest

end

/-- The expressions whose values a node works on. -/
def operands : Expr → List Expr
  | .literal _ => []
  | .var _ _ => []
  | .binary _ left right _ => [left, right]
  | .call _ arguments _ => arguments

def isCall : Expr → Bool
  | .call _ _ _ => true
  | _ => false

/-- The calls in an expression, every one behind the calls in its arguments. -/
def calls (expr : Expr) : List Expr :=
  expr.postorder.filter isCall

end Expr

/-- A node whose turn it is, with the values of its operands. -/
structure Visit where
  node : Expr
  operands : List Value

/-- A call that stands in an expression has to have a value. -/
def Outcome.needed (function : String) (location : Location) (outcome : Outcome (Option Value)) :
    Outcome Value :=
  outcome.andThen fun value context world =>
    match value with
    | some value => ⟨.ok value, context, world⟩
    | none => .failAt (some location) (.noValue function) context world

namespace Engine

/-- What a node comes to in this context and world, once the values of its operands are known. -/
inductive Evaluates (engine : Engine) : Visit → Context → World → Outcome Value → Prop
  | literal (value : Literal) (context : Context) (world : World) :
      Evaluates engine ⟨.literal value, []⟩ context world
        ⟨.ok (.ofLiteral value), context, world⟩
  | var (name : String) (location : Location) (context : Context) (world : World) :
      Evaluates engine ⟨.var name location, []⟩ context world
        (.checkedAt (some location) (context.get name) context world)
  | binary (op : Operator) (left right : Expr) (location : Location) (first second : Value)
      (context : Context) (world : World) :
      Evaluates engine ⟨.binary op left right location, [first, second]⟩ context world
        (.checkedAt (some location) (engine.operators.apply op first second) context world)
  | call (function : String) (arguments : List Expr) (location : Location) (values : List Value)
      (context : Context) (world : World) :
      Evaluates engine ⟨.call function arguments location, values⟩ context world
        ((engine.invokeAt function values (some location) context world).needed function location)

/-- From this context and world on, nodes have been visited one after the other, and these values
are on the stack, the last one first.  A visit takes the values of its operands from the stack and
puts its own value there. -/
inductive Visits (engine : Engine) (context : Context) (world : World) :
    List Visit → List Value → Context → World → Prop
  | start : Visits engine context world [] [] context world
  | next {visits : List Visit} {visit : Visit} {stack : List Value} {value : Value}
      {here there : Context} {now later : World}
      (hvisits : Visits engine context world visits (visit.operands.reverse ++ stack) here now)
      (hoperands : visit.operands.length = visit.node.operands.length)
      (hvalue : engine.Evaluates visit here now ⟨.ok value, there, later⟩) :
      Visits engine context world (visits ++ [visit]) (value :: stack) there later

/-- After these visits some nodes are visited too, in this order.  Either each of them has a value,
and in the end the stack shows what they came to together; or one of them has none, and nothing
happens after its visit. -/
inductive Follows {A : Type} (engine : Engine) (context : Context) (world : World)
    (visits : List Visit) (nodes : List Expr) (stack : A → List Value) :
    List Visit → Outcome A → Prop
  | whole {more : List Visit} {value : A} {here : Context} {now : World}
      (hnodes : more.map Visit.node = nodes)
      (hvisits : engine.Visits context world (visits ++ more) (stack value) here now) :
      Follows engine context world visits nodes stack more ⟨.ok value, here, now⟩
  | stopped {more : List Visit} {last : Visit} {after : List Expr} {below : List Value}
      {halt : Halt Failure} {here there : Context} {now later : World}
      (hnodes : nodes = more.map Visit.node ++ last.node :: after)
      (hvisits : engine.Visits context world (visits ++ more) (last.operands.reverse ++ below)
        here now)
      (hoperands : last.operands.length = last.node.operands.length)
      (hhalt : engine.Evaluates last here now ⟨.error halt, there, later⟩) :
      Follows engine context world visits nodes stack (more ++ [last]) ⟨.error halt, there, later⟩

/-- Evaluating an expression has come to this outcome by visiting these nodes of it. -/
def Traverses (engine : Engine) (context : Context) (world : World) (expr : Expr)
    (visits : List Visit) (outcome : Outcome Value) : Prop :=
  engine.Follows context world [] expr.postorder (fun value => [value]) visits outcome

variable {engine : Engine} {start : Context} {origin : World} {visits : List Visit}

/-- What is visited begins the row of nodes. -/
theorem Follows.nodes_prefix {A : Type} {nodes : List Expr} {stack : A → List Value}
    {more : List Visit} {outcome : Outcome A}
    (hfollows : engine.Follows start origin visits nodes stack more outcome) :
    more.map Visit.node <+: nodes := by
  cases hfollows with
  | whole hnodes _ => exact hnodes ▸ List.prefix_rfl
  | @stopped before last after _ _ _ _ _ _ hnodes _ _ _ =>
      refine ⟨after, ?_⟩
      rw [hnodes, List.map_append, List.append_assoc]
      rfl

/-! ## Going on -/

theorem follows_visit {visit : Visit} {stack : List Value} {here : Context} {now : World}
    {outcome : Outcome Value}
    (hvisits : engine.Visits start origin visits (visit.operands.reverse ++ stack) here now)
    (hoperands : visit.operands.length = visit.node.operands.length)
    (hvisit : engine.Evaluates visit here now outcome) :
    engine.Follows start origin visits [visit.node] (fun value => value :: stack) [visit]
      outcome := by
  rcases outcome with ⟨halt | value, there, later⟩
  · have hhere : engine.Visits start origin (visits ++ []) (visit.operands.reverse ++ stack)
        here now := by
      rw [List.append_nil]
      exact hvisits
    have hnodes : [visit.node] = [].map Visit.node ++ visit.node :: [] := rfl
    exact .stopped hnodes hhere hoperands hvisit
  · exact .whole rfl (hvisits.next hoperands hvisit)

theorem Follows.andThen {A B : Type} {nodes rest : List Expr} {stack : A → List Value}
    {left : B → List Value} {more : List Visit} {outcome : Outcome A}
    {next : A → Context → World → Outcome B}
    (houtcome : engine.Follows start origin visits nodes stack more outcome)
    (hnext : ∀ value here now, outcome = ⟨.ok value, here, now⟩ →
      engine.Visits start origin (visits ++ more) (stack value) here now →
        ∃ others, engine.Follows start origin (visits ++ more) rest left others
          (next value here now)) :
    ∃ all, engine.Follows start origin visits (nodes ++ rest) left all (outcome.andThen next) := by
  cases houtcome with
  | @whole _ value here now hnodes hvisits =>
      obtain ⟨others, hothers⟩ := hnext value here now rfl hvisits
      refine ⟨more ++ others, ?_⟩
      simp only [Outcome.andThen]
      generalize next value here now = ending at hothers ⊢
      subst hnodes
      cases hothers with
      | whole hrest hall =>
          rw [List.append_assoc] at hall
          exact .whole (by rw [List.map_append, hrest]) hall
      | @stopped before last after _ _ _ _ _ _ hrest hall hoperands hhalt =>
          have hnodes : more.map Visit.node ++ rest =
              (more ++ before).map Visit.node ++ last.node :: after := by
            rw [hrest, List.map_append, List.append_assoc]
          rw [List.append_assoc] at hall
          rw [← List.append_assoc]
          exact .stopped hnodes hall hoperands hhalt
  | @stopped more last after _ _ _ _ _ _ hnodes hvisits hoperands hhalt =>
      have hall : nodes ++ rest = more.map Visit.node ++ last.node :: (after ++ rest) := by
        rw [hnodes, List.append_assoc, List.cons_append]
      exact ⟨_, .stopped hall hvisits hoperands hhalt⟩

theorem Follows.map {A B : Type} {nodes : List Expr} {stack : A → List Value}
    {left : B → List Value} {more : List Visit} {outcome : Outcome A} {change : A → B}
    (houtcome : engine.Follows start origin visits nodes stack more outcome)
    (hchange : ∀ value, left (change value) = stack value) :
    engine.Follows start origin visits nodes left more (outcome.map change) := by
  cases houtcome with
  | whole hnodes hvisits =>
      rw [← hchange] at hvisits
      exact .whole hnodes hvisits
  | stopped hnodes hvisits hoperands hhalt => exact .stopped hnodes hvisits hoperands hhalt

/-! ## Evaluating is visiting -/

theorem length_evaluateAll {exprs : List Expr} {context : Context} {world : World}
    {values : List Value} (h : (engine.evaluateAll exprs context world).result = .ok values) :
    values.length = exprs.length := by
  induction exprs generalizing context world values with
  | nil =>
      obtain rfl : [] = values := Except.ok.inj h
      rfl
  | cons expr rest ih =>
      simp only [evaluateAll] at h
      obtain ⟨value, -, houtcome⟩ := Outcome.andThen_eq_ok h
      rw [houtcome] at h
      obtain ⟨others, hothers, houtcome⟩ := Outcome.andThen_eq_ok h
      simp only [Outcome.map] at h
      rw [houtcome] at h
      obtain rfl : value :: others = values := Except.ok.inj h
      rw [List.length_cons, List.length_cons, ih hothers]

mutual

/-- Evaluating an expression after other nodes visits the nodes of the expression. -/
theorem follows_evaluate (engine : Engine) : ∀ (expr : Expr) {visits : List Visit}
    {stack : List Value} {context : Context} {world : World},
    engine.Visits start origin visits stack context world →
      ∃ more, engine.Follows start origin visits expr.postorder (fun value => value :: stack) more
        (engine.evaluate expr context world)
  | .literal value, _, _, context, world, hvisits =>
      ⟨_, follows_visit hvisits rfl (.literal value context world)⟩
  | .var name location, _, _, context, world, hvisits =>
      ⟨_, follows_visit hvisits rfl (.var name location context world)⟩
  | .binary op left right location, _, _, _, _, hvisits => by
      obtain ⟨more, hleft⟩ := follows_evaluate engine left hvisits
      apply hleft.andThen
      intro first context world _ hfirst
      obtain ⟨others, hright⟩ := follows_evaluate engine right hfirst
      apply hright.andThen
      intro second context world _ hsecond
      exact ⟨_, follows_visit hsecond rfl
        (.binary op left right location first second context world)⟩
  | .call function arguments location, _, _, _, _, hvisits => by
      obtain ⟨more, harguments⟩ := follows_evaluateAll engine arguments hvisits
      apply harguments.andThen
      intro values context world houtcome hvalues
      exact ⟨_, follows_visit hvalues (length_evaluateAll (congrArg Outcome.result houtcome))
        (.call function arguments location values context world)⟩

/-- Evaluating expressions leaves their values on the stack. -/
theorem follows_evaluateAll (engine : Engine) : ∀ (exprs : List Expr) {visits : List Visit}
    {stack : List Value} {context : Context} {world : World},
    engine.Visits start origin visits stack context world →
      ∃ more, engine.Follows start origin visits (Expr.postorderAll exprs)
        (fun values => values.reverse ++ stack) more (engine.evaluateAll exprs context world)
  | [], visits, _, _, _, hvisits => by
      rw [← List.append_nil visits] at hvisits
      exact ⟨[], .whole rfl hvisits⟩
  | expr :: rest, _, stack, _, _, hvisits => by
      obtain ⟨more, hexpr⟩ := follows_evaluate engine expr hvisits
      apply hexpr.andThen
      intro value context world _ hvalue
      obtain ⟨others, hrest⟩ := follows_evaluateAll engine rest hvalue
      refine ⟨others, hrest.map ?_⟩
      intro values
      rw [List.reverse_cons, List.append_assoc]
      rfl

end

/-- Evaluating an expression visits its nodes in post-order, and stops at the first one that has no
value. -/
theorem traverses_evaluate (engine : Engine) (expr : Expr) (context : Context) (world : World) :
    ∃ visits, engine.Traverses context world expr visits (engine.evaluate expr context world) :=
  follows_evaluate engine expr .start

end Engine

end Switchboard
