import Switchboard.Library.Strings
import Switchboard.Proofs.Grammar.Errors
import Switchboard.Proofs.Registration

/-!
Calls of registered contributions.

Texts that are read by themselves are read the same between parentheses and commas, so a name in
front of them makes a call.  The names that can stand there include all that are registered, and
each of them is looked up as it was written.
-/

namespace Switchboard

namespace Grammar

/-! ## The text of a call -/

/-- The text that calls `name` with these argument texts. -/
def callText (name : String) (arguments : List String) : String :=
  name ++ "(" ++ ",".intercalate arguments ++ ")"

/-- The text is an expression that means `tree`. -/
def Means (text : String) (tree : Tree) : Prop :=
  Expression text.toList tree

/-- What is read from the text alone, with some name for its file. -/
def IsReadAs (text : String) (expr : Expr) : Prop :=
  ∃ file, Expr.read text file = .ok expr

/-- An expression stays one in front of whatever does not go on with its last name. -/
theorem Expression.derives {text : List Char} {tree : Tree} (h : Expression text tree)
    {rest : List Char} (hrest : NameEnds rest) : Derives levels (text ++ rest) rest tree := by
  obtain ⟨word, rfl, hword⟩ := h.exchange
  rw [List.append_nil]
  exact hword rest hrest

theorem items_intercalate {first : String} {others : List String} {tree : Tree} {trees : List Tree}
    (hfirst : Means first tree) (hothers : List.Forall₂ Means others trees) {rest : List Char}
    (hrest : NameEnds rest) :
    Items ((",".intercalate (first :: others)).toList ++ rest) rest tree trees := by
  induction hothers generalizing first tree with
  | nil =>
      rw [String.intercalate_singleton]
      exact .one (Expression.derives hfirst hrest)
  | @cons second next others trees hsecond _ ih =>
      have hcomma : NameEnds (',' :: ((",".intercalate (second :: others)).toList ++ rest)) :=
        nameEnds_cons (by decide) _
      have hitems := Items.more (Expression.derives hfirst hcomma) (ih hsecond)
      simpa using hitems

theorem arguments_intercalate {texts : List String} {trees : List Tree}
    (h : List.Forall₂ Means texts trees) {rest : List Char} (hrest : NameEnds rest) :
    Arguments ((",".intercalate texts).toList ++ rest) rest trees := by
  cases h with
  | nil =>
      rw [String.intercalate_nil]
      exact .none
  | cons hfirst hothers => exact .some (items_intercalate hfirst hothers hrest)

theorem derives_primary {tiers : List (List Operator)} {text rest : List Char} {tree : Tree}
    (h : Primary text rest tree) : Derives tiers text rest tree := by
  induction tiers with
  | nil => exact .atom isBlank_nil h isBlank_nil rfl
  | cons _ _ ih => exact .operand ih

/-- A name in front of arguments means a call of that name with what the arguments mean. -/
theorem means_callText {name : String} (hname : IsQualifiedName name.toList) {texts : List String}
    {trees : List Tree} (h : List.Forall₂ Means texts trees) :
    Means (callText name texts) (.call name trees) := by
  have harguments := arguments_intercalate h (nameEnds_cons (c := ')') (by decide) [])
  have hcall : Derives levels _ _ _ :=
    derives_primary (Primary.call hname isBlank_nil harguments isBlank_nil rfl)
  rw [String.ofList_toList] at hcall
  simpa [Means, Expression, callText] using hcall

theorem means_of_isReadAs {texts : List String} {exprs : List Expr}
    (h : List.Forall₂ IsReadAs texts exprs) : List.Forall₂ Means texts (Expr.bareAll exprs) := by
  induction h with
  | nil => exact .nil
  | cons hhead _ ih =>
      obtain ⟨file, hread⟩ := hhead
      exact .cons (expression_of_read hread) ih

/-- Texts that are read by themselves are read as the arguments of a call. -/
theorem exists_read_callText {name : String} (hname : IsQualifiedName name.toList)
    {texts : List String} {exprs : List Expr} (h : List.Forall₂ IsReadAs texts exprs)
    (file : String) :
    ∃ arguments location,
      Expr.read (callText name texts) file = .ok (.call name arguments location) ∧
        Expr.bareAll arguments = Expr.bareAll exprs := by
  obtain ⟨expr, hread, hbare⟩ :=
    exists_read_of_expression file (means_callText hname (means_of_isReadAs h))
  cases expr with
  | call function arguments location =>
      rw [Expr.bare] at hbare
      obtain ⟨rfl, harguments⟩ := Tree.call.inj hbare
      exact ⟨arguments, location, hread, harguments⟩
  | literal | var | binary =>
      rw [Expr.bare] at hbare
      cases hbare

/-! ## The names of calls -/

theorem Written.exists_place {source : SourceText} {text rest : List Char} {nodes : List Expr}
    (h : Written source text rest nodes) : ∀ node ∈ nodes, ∃ place, WrittenAt node place := by
  induction h with
  | nil _ => simp
  | cons _ _ hword _ _ _ ih => exact List.forall_mem_cons.2 ⟨⟨_, hword⟩, ih⟩

/-- Wherever a call stands in what is read, its name is one by which an expression calls. -/
theorem exists_isCallable_of_call {text file : String} {expr : Expr}
    (h : Expr.read text file = .ok expr) {function : String} {arguments : List Expr}
    {location : Location} (hcall : .call function arguments location ∈ expr.inOrder) :
    ∃ name : QualifiedName, name.IsCallable ∧ name.text = function := by
  have hwritten := (Reader.read_eq_ok_iff.1 h).written
  obtain ⟨place, hplace⟩ := Written.exists_place hwritten _ hcall
  cases hplace with
  | call hname _ => exact QualifiedName.exists_of_isQualifiedName hname

end Grammar

namespace Registry

open Grammar

variable {contributions : List Contribution} {registry : Registry}

/-- What is registered can be called. -/
theorem isCallable_of_build (h : build contributions = .ok registry) {entry : Entry}
    (hentry : entry ∈ registry.entries) : entry.descriptor.name.IsCallable := by
  rcases mem_of_registerAll h hentry with hempty | ⟨-, hdescribe⟩
  · cases hempty
  · obtain ⟨hvalid, hdescribed⟩ := Contribution.valid_of_describe hdescribe
    rw [hdescribed.name]
    exact hvalid.name.isCallable

/-- A registered name in front of texts that are read by themselves is read as a call of what is
registered under it, with what they were read as.  Keys tell entries apart and are split into the
names that they stand for, and so is the name of every call that is read. -/
theorem names_are_read_and_found (hbuild : build contributions = .ok registry) :
    (registry.entries.map Entry.key).Nodup ∧
    (∀ entry ∈ registry.entries,
      QualifiedName.ofText entry.key = .ok entry.descriptor.name ∧
      registry.find? entry.key = some entry ∧
      ∀ (texts : List String) (exprs : List Expr) (file : String),
        List.Forall₂ IsReadAs texts exprs →
          ∃ arguments location,
            Expr.read (callText entry.descriptor.name.text texts) file =
              .ok (.call entry.key arguments location) ∧
            Expr.bareAll arguments = Expr.bareAll exprs) ∧
    ∀ (text file : String) (expr : Expr), Expr.read text file = .ok expr →
      ∀ function arguments location, .call function arguments location ∈ expr.inOrder →
        ∃ name, QualifiedName.ofText function = .ok name ∧ name.text = function := by
  have hkeys := (build_eq_ok_iff.1 hbuild).2
  refine ⟨hkeys, ?_, ?_⟩
  · intro entry hentry
    have hcallable := isCallable_of_build hbuild hentry
    refine ⟨?_, (find?_eq_some_iff hkeys).2 ⟨hentry, rfl⟩, ?_⟩
    · rw [QualifiedName.ofText, Entry.key, hcallable.ofText?_text]
    · intro texts exprs file hread
      exact exists_read_callText hcallable.isQualifiedName hread file
  · intro text file expr hread function arguments location hcall
    obtain ⟨name, hcallable, rfl⟩ := exists_isCallable_of_call hread hcall
    exact ⟨name, by rw [QualifiedName.ofText, hcallable.ofText?_text], rfl⟩

/-- A comma inside a string separates no arguments. -/
theorem names_are_read_and_found_for_strings :
    ∃ registry, build Library.Strings.contributions = .ok registry ∧
      ∃ entry arguments location, registry.find? "lang.string:contains" = some entry ∧
        Expr.read "lang.string:contains(\"a,b\",x)" "main" =
          .ok (.call "lang.string:contains" arguments location) ∧
        Expr.bareAll arguments = [.literal (.string "a,b"), .var "x"] := by
  have hbuilt : (build Library.Strings.contributions).toOption.map
      (fun registry => registry.entries.map Entry.key) =
        some ["lang.string:length", "lang.string:toUpperCase", "lang.string:contains"] := by
    decide +kernel
  have hread : List.Forall₂ IsReadAs ["\"a,b\"", "x"]
      [.literal (.string "a,b"), .var "x" ⟨"main", 1, 1⟩] :=
    .cons ⟨"main", by rfl⟩ (.cons ⟨"main", by rfl⟩ .nil)
  rcases hbuild : build Library.Strings.contributions with fault | registry
  · rw [hbuild] at hbuilt
    cases hbuilt
  · rw [hbuild] at hbuilt
    have hkeys : registry.entries.map Entry.key =
        ["lang.string:length", "lang.string:toUpperCase", "lang.string:contains"] :=
      Option.some.inj hbuilt
    have hmem : "lang.string:contains" ∈ registry.entries.map Entry.key := by
      rw [hkeys]
      decide
    obtain ⟨entry, hentry, hkey⟩ := List.mem_map.1 hmem
    obtain ⟨-, hentries, -⟩ := names_are_read_and_found hbuild
    obtain ⟨-, hfind, hcalls⟩ := hentries entry hentry
    obtain ⟨arguments, location, hcall, hbare⟩ := hcalls _ _ "main" hread
    rw [show entry.descriptor.name.text = "lang.string:contains" from hkey] at hcall
    rw [hkey] at hfind hcall
    exact ⟨registry, rfl, entry, arguments, location, hfind, hcall, hbare⟩

end Registry

end Switchboard
