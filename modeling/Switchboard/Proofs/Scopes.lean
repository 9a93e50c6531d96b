import Mathlib.Data.List.Infix
import Switchboard.Context

/-!
Scopes of variables.

What is done between entering a scope and leaving it again is gone afterwards, as long as scopes are
entered and left in pairs meanwhile, because the scopes around it are out of reach.  And a name that
is bound keeps its value until it is bound again or its scope is left.  The outermost scope cannot
be left, so what is bound there stays however often that is asked for.

The scopes of a context are a stack that is never empty.  An operation that has to do with the top
of the stack does not look at what is below, and both statements come down to this.
-/

namespace Switchboard.Context

/-- What can be done to a context. -/
inductive Operation where
  | set (name : String) (value : Value)
  | pushScope
  | popScope
  | pushLocation (location : Location)
  | popLocation
  | setCompletion (completion : Completion)
  | clearCompletion

namespace Operation

def apply (context : Context) : Operation → Context
  | set name value => context.set name value
  | pushScope => context.pushScope
  | popScope => context.popScope
  | pushLocation location => context.pushLocation location
  | popLocation => context.popLocation
  | setCompletion completion => context.setCompletion completion
  | clearCompletion => context.clearCompletion

def isPush : Operation → Bool
  | pushScope => true
  | _ => false

def isPop : Operation → Bool
  | popScope => true
  | _ => false

/-- What an operation does to a stack of scopes, the innermost first: a name is bound in the first
one, if there is one, and the last one is not taken off. -/
def onScopes : Operation → List (Entries Value) → List (Entries Value)
  | set name value, scope :: rest => Entries.bind name value scope :: rest
  | pushScope, scopes => [] :: scopes
  | popScope, _ :: next :: rest => next :: rest
  | _, scopes => scopes

end Operation

/-- One operation after the other. -/
def run (context : Context) (operations : List Operation) : Context :=
  operations.foldl Operation.apply context

/-- The scopes, from the inside out. -/
def scopes (context : Context) : List (Entries Value) :=
  context.scope :: context.outer

/-- How many scopes there are around the innermost one. -/
def depth (context : Context) : Nat :=
  context.outer.length

/-- How often a scope is entered. -/
def pushes (operations : List Operation) : Nat :=
  operations.countP Operation.isPush

/-- How often leaving a scope is asked for. -/
def pops (operations : List Operation) : Nat :=
  operations.countP Operation.isPop

/-- Scopes are entered and left in pairs. -/
structure Balanced (operations : List Operation) : Prop where
  prefixes : ∀ first, first <+: operations → pops first ≤ pushes first
  total : pops operations = pushes operations

/-- The operation leaves the scope that has so many others around it. -/
def Operation.Leaves (operation : Operation) (depth : Nat) (context : Context) : Prop :=
  operation = .popScope ∧ context.depth = depth ∧ depth ≠ 0

/-! ## One operation -/

section Scopes

variable {operation : Operation} {own outer : List (Entries Value)} {name : String}
  {value : Value}

/-- A context holds its scopes as such a stack. -/
theorem scopes_apply (operation : Operation) (context : Context) :
    (operation.apply context).scopes = operation.onScopes context.scopes := by
  cases operation with
  | popScope =>
      cases houter : context.outer with
      | nil => simp [Operation.apply, Operation.onScopes, popScope, scopes, houter]
      | cons next rest => simp [Operation.apply, Operation.onScopes, popScope, scopes, houter]
  | _ => rfl

/-- The scopes around the chosen ones are left alone, unless the last of those is taken off. -/
theorem onScopes_append (hown : own ≠ [])
    (hstays : operation.isPop = true → 2 ≤ own.length ∨ outer = []) :
    operation.onScopes (own ++ outer) = operation.onScopes own ++ outer := by
  cases own with
  | nil => exact absurd rfl hown
  | cons scope rest =>
      cases operation with
      | popScope =>
          cases rest with
          | nil =>
              rcases hstays rfl with hlength | rfl
              · simp at hlength
              · rfl
          | cons next more => rfl
      | _ => rfl

theorem length_onScopes (hown : own ≠ []) (hstays : operation.isPop = true → 2 ≤ own.length) :
    (operation.onScopes own).length + pops [operation] = own.length + pushes [operation] := by
  cases own with
  | nil => exact absurd rfl hown
  | cons scope rest =>
      cases operation with
      | popScope =>
          cases rest with
          | nil => exact absurd (hstays rfl) (by simp)
          | cons next more => rfl
      | _ => rfl

/-- Of these scopes the outermost binds the name to the value, and the others do not bind it. -/
inductive Carries (name : String) (value : Value) : List (Entries Value) → Prop
  | here {scope : Entries Value} (hfind : Entries.find? name scope = some value) :
      Carries name value [scope]
  | inside {scope : Entries Value} {rest : List (Entries Value)}
      (hfind : Entries.find? name scope = none) (hrest : Carries name value rest) :
      Carries name value (scope :: rest)

theorem Carries.ne_nil (h : Carries name value own) : own ≠ [] := by
  cases h <;> exact List.cons_ne_nil _ _

theorem Carries.lookup (h : Carries name value own) (outer : List (Entries Value)) :
    lookup name (own ++ outer) = some value := by
  induction h with
  | here hfind => simp [Context.lookup, hfind]
  | inside hfind _ ih => simp [Context.lookup, hfind, ih]

/-- A binding is kept by every operation that does not bind the name again. -/
theorem Carries.onScopes (h : Carries name value own)
    (hother : ∀ other, operation ≠ .set name other) :
    Carries name value (operation.onScopes own) := by
  cases operation with
  | set target other =>
      have hne : target ≠ name := by
        rintro rfl
        exact hother other rfl
      cases h with
      | here hfind => exact .here (by rw [Entries.find?_bind, if_neg hne, hfind])
      | inside hfind hrest =>
          exact .inside (by rw [Entries.find?_bind, if_neg hne, hfind]) hrest
  | pushScope => exact .inside rfl h
  | popScope =>
      cases h with
      | here hfind => exact .here hfind
      | inside hfind hrest =>
          cases hrest with
          | here hnext => exact .here hnext
          | inside hnext hmore => exact .inside hnext hmore
  | _ =>
      cases own <;> exact h

end Scopes

/-! ## Sequences of operations -/

section Run

variable {context other : Context} {operations : List Operation}
  {own outer : List (Entries Value)} {name : String} {value : Value}

theorem run_append (context : Context) (first second : List Operation) :
    context.run (first ++ second) = (context.run first).run second :=
  List.foldl_append

theorem get_of_scopes (h : context.scopes = other.scopes) (name : String) :
    context.get name = other.get name := by
  have hlookup : context.get? name = other.get? name := congrArg (lookup name) h
  simp only [get]
  rw [hlookup]

/-- While no more scopes are left than were entered, the scopes around the chosen ones are left
alone. -/
theorem run_scopes (hscopes : context.scopes = own ++ outer) (hown : own ≠ [])
    (hprefixes : ∀ first, first <+: operations → pops first ≤ pushes first) :
    ∃ left, (context.run operations).scopes = left ++ outer ∧
      left.length + pops operations = own.length + pushes operations := by
  induction operations using List.reverseRecOn with
  | nil => exact ⟨own, hscopes, rfl⟩
  | append_singleton operations operation ih =>
      obtain ⟨left, hleft, hlength⟩ := ih fun first hfirst =>
        hprefixes first (hfirst.trans (List.prefix_append _ _))
      have hbefore := hprefixes operations (List.prefix_append _ _)
      have hafter := hprefixes _ (List.prefix_refl _)
      have hpositive := List.length_pos_of_ne_nil hown
      have hpops : pops (operations ++ [operation]) = pops operations + pops [operation] :=
        List.countP_append
      have hpushes :
          pushes (operations ++ [operation]) = pushes operations + pushes [operation] :=
        List.countP_append
      have hne : left ≠ [] := List.ne_nil_of_length_pos (by omega)
      have hstays : operation.isPop = true → 2 ≤ left.length := by
        intro hpop
        cases operation with
        | popScope =>
            have hone : pops [.popScope] = 1 := rfl
            have hnone : pushes [.popScope] = 0 := rfl
            omega
        | _ => cases hpop
      have hchanged := length_onScopes hne hstays
      refine ⟨operation.onScopes left, ?_, by omega⟩
      rw [run_append]
      change (operation.apply (context.run operations)).scopes = _
      rw [scopes_apply, hleft, onScopes_append hne fun hpop => .inl (hstays hpop)]

/-- What is done in a scope is gone when the scope is left. -/
theorem run_balanced (hbalanced : Balanced operations) (context : Context) :
    (context.run (.pushScope :: operations ++ [.popScope])).scopes = context.scopes := by
  obtain ⟨left, hleft, hlength⟩ := @run_scopes context.pushScope operations [[]] context.scopes
    rfl (List.cons_ne_nil _ _) hbalanced.prefixes
  rw [hbalanced.total, Nat.add_right_cancel_iff] at hlength
  obtain ⟨scope, rfl⟩ := List.length_eq_one_iff.1 hlength
  rw [run_append]
  change (Operation.popScope.apply (context.pushScope.run operations)).scopes = _
  rw [scopes_apply, hleft]
  rfl

/-- A binding lasts while the name is not bound again and its scope is not left. -/
theorem run_carries (hscopes : context.scopes = own ++ outer) (hcarries : Carries name value own)
    (hother : ∀ other, .set name other ∉ operations)
    (hstays : ∀ first operation rest, operations = first ++ operation :: rest →
      ¬ operation.Leaves outer.length (context.run first)) :
    ∃ left, (context.run operations).scopes = left ++ outer ∧ Carries name value left := by
  induction operations using List.reverseRecOn with
  | nil => exact ⟨own, hscopes, hcarries⟩
  | append_singleton operations operation ih =>
      obtain ⟨left, hleft, hkept⟩ := ih
        (fun other hmem => hother other (List.mem_append_left _ hmem))
        (fun first operation' rest hsplit =>
          hstays first operation' (rest ++ [operation]) (by simp [hsplit]))
      have hlast := hstays operations operation [] rfl
      have hne := hkept.ne_nil
      have hframe : operation.onScopes (left ++ outer) = operation.onScopes left ++ outer := by
        apply onScopes_append hne
        intro hpop
        cases operation with
        | popScope =>
            by_cases hlength : 2 ≤ left.length
            · exact .inl hlength
            · right
              have hpositive := List.length_pos_of_ne_nil hne
              have hdepth : (context.run operations).scopes.length =
                  (context.run operations).depth + 1 := rfl
              rw [hleft, List.length_append] at hdepth
              by_contra houter
              exact hlast ⟨rfl, by omega, fun hzero => houter (List.length_eq_zero_iff.1 hzero)⟩
        | _ => cases hpop
      refine ⟨operation.onScopes left, ?_, hkept.onScopes ?_⟩
      · rw [run_append]
        change (operation.apply (context.run operations)).scopes = _
        rw [scopes_apply, hleft, hframe]
      · rintro other rfl
        exact hother other (List.mem_append_right _ (List.mem_singleton_self _))

end Run

/-- Whatever has been done to a context, entering a scope and leaving it again, with operations in
between that enter and leave scopes in pairs, gives back the value that every name had.  And a name
that is bound has its value from then on, until it is bound again or the scope is left in which it
was bound; leaving the outermost one changes nothing. -/
theorem scopes_nest_and_bindings_last (context : Context) :
    (∀ operations, Balanced operations → ∀ name,
      (context.run (.pushScope :: operations ++ [.popScope])).get name = context.get name) ∧
    ∀ before name value after, (∀ other, .set name other ∉ after) →
      (∀ first operation rest, after = first ++ operation :: rest →
        ¬ operation.Leaves (context.run before).depth
          (context.run (before ++ .set name value :: first))) →
      (context.run (before ++ .set name value :: after)).get name = .ok value := by
  constructor
  · intro operations hbalanced name
    exact get_of_scopes (run_balanced hbalanced context) name
  · intro before name value after hother hstays
    have hbound : Carries name value
        [Entries.bind name value (context.run before).scope] :=
      .here (by rw [Entries.find?_bind, if_pos rfl])
    obtain ⟨left, hleft, hkept⟩ := @run_carries ((context.run before).set name value) after _
      (context.run before).outer name value rfl hbound hother (by
        intro first operation rest hsplit
        have hnot := hstays first operation rest hsplit
        rw [run_append] at hnot
        exact hnot)
    have hget : (context.run (before ++ .set name value :: after)).get? name = some value := by
      rw [run_append]
      have hlookup := hkept.lookup (context.run before).outer
      rw [← hleft] at hlookup
      exact hlookup
    simp only [get]
    rw [hget]

/-- What hides a binding of `x` for the length of a scope. -/
def shadowing : List Operation :=
  [.set "x" (.string "inner"), .pushScope, .set "y" (.string "innermost"), .popScope]

/-- A binding is hidden for the length of a scope only, and a name that is bound in a scope, after
an attempt to leave the outermost one, is still bound after another scope was entered and left. -/
theorem scopes_nest_and_bindings_last_of_shadowing :
    (((ofTrace "t").set "x" (.string "outer")).run
      (.pushScope :: shadowing ++ [.popScope])).get "x" = .ok (.string "outer") ∧
    ((ofTrace "t").run ([.popScope, .pushScope] ++ .set "x" (.string "kept") ::
      [.pushScope, .popScope])).get "x" = .ok (.string "kept") := by
  have hbalanced : Balanced shadowing := by
    refine ⟨?_, rfl⟩
    intro first hfirst
    have hinits : ∀ first ∈ shadowing.inits, pops first ≤ pushes first := by decide
    exact hinits first ((List.mem_inits first shadowing).2 hfirst)
  constructor
  · exact (scopes_nest_and_bindings_last _).1 shadowing hbalanced "x"
  · apply (scopes_nest_and_bindings_last (ofTrace "t")).2 [.popScope, .pushScope]
    · intro other hmem
      simp at hmem
    · intro first operation rest hsplit hleaves
      obtain ⟨rfl, hdepth, -⟩ := hleaves
      rcases first with _ | ⟨entered, _ | ⟨left, first⟩⟩
      · cases hsplit
      · obtain ⟨rfl, -⟩ := List.cons.inj hsplit
        cases hdepth
      · simp at hsplit

end Switchboard.Context
