import Switchboard.Proofs.Grammar.Readings

/-!
Where the nodes of an expression are written.

A place is the rest of the text that begins there, and how many characters stand before it is its
offset.  Reading goes forward, so the nodes of an expression in the order in which they are written
have offsets that increase: what is carried through the reader is that all nodes so far were written
between the place where it began and the place that it has reached.
-/

namespace Switchboard

namespace Expr

mutual

/-- The nodes with a location, in the order in which their words are written: the left operand, the
operator, the right operand; the name of a call, its arguments. -/
def inOrder : Expr → List Expr
  | .literal _ => []
  | .var name location => [.var name location]
  | .binary op left right location =>
      left.inOrder ++ .binary op left right location :: right.inOrder
  | .call function arguments location =>
      .call function arguments location :: inOrderAll arguments

/-- The nodes with a location of several expressions, one expression behind the other. -/
def inOrderAll : List Expr → List Expr
  | [] => []
  | expr :: rest => expr.inOrder ++ inOrderAll rest

end

end Expr

namespace Grammar

open Switchboard.Expr

/-! ## Lines and columns -/

/-- Line and column behind these characters.  A line feed begins a line, and every other character
takes one column. -/
def position (before : List Char) : Nat × Nat :=
  before.foldl (fun place c => if c = '\n' then (place.1 + 1, 1) else (place.1, place.2 + 1)) (1, 1)

theorem position_concat (before : List Char) (c : Char) :
    position (before ++ [c]) = if c = '\n' then ((position before).1 + 1, 1)
      else ((position before).1, (position before).2 + 1) := by
  rw [position, List.foldl_append]
  rfl

/-- The count of line feeds, and the characters since the last of them. -/
theorem position_eq (before : List Char) :
    position before =
      (before.count '\n' + 1, (before.reverse.takeWhile (· != '\n')).length + 1) := by
  induction before using List.reverseRecOn with
  | nil => rfl
  | append_singleton before c ih =>
      rw [position_concat, ih, List.count_append, List.reverse_append]
      split
      · next hc => simp [hc]
      · next hc => simp [hc]

theorem position_le (before : List Char) :
    (position before).1 ≤ before.length + 1 ∧ (position before).2 ≤ before.length + 1 := by
  induction before using List.reverseRecOn with
  | nil => exact ⟨Nat.le_refl _, Nat.le_refl _⟩
  | append_singleton before c ih =>
      rw [position_concat, List.length_append, List.length_singleton]
      split
      · exact ⟨by simpa using ih.1, by simp⟩
      · exact ⟨Nat.le_succ_of_le ih.1, by simpa using ih.2⟩

/-- A place is located by what stands before it. -/
theorem locate_eq (source : SourceText) (place : List Char) :
    source.locate place =
      ⟨source.file, (position (source.before place)).1, (position (source.before place)).2⟩ := by
  rw [position_eq]
  rfl

/-! ## Words in their places -/

/-- What a node is located by stands here: all of a name, or the longest symbol. -/
inductive WrittenAt : Expr → List Char → Prop
  | var {name rest : List Char} {location : Location} (hname : IsName name)
      (hrest : NameEnds rest) : WrittenAt (.var (String.ofList name) location) (name ++ rest)
  | binary {op : Operator} {left right : Expr} {location : Location} {place : List Char}
      (hsymbol : op.symbol.toList <+: place)
      (hlongest : ∀ other : Operator, other.symbol.toList <+: place →
        other.symbol.length ≤ op.symbol.length) :
      WrittenAt (.binary op left right location) place
  | call {name rest : List Char} {arguments : List Expr} {location : Location}
      (hname : IsQualifiedName name) (hrest : NameEnds rest) :
      WrittenAt (.call (String.ofList name) arguments location) (name ++ rest)

/-- One symbol is the beginning of another only when an equals sign makes it longer. -/
theorem symbol_prefix {op other : Operator} (h : op.symbol.toList <+: other.symbol.toList) :
    other.symbol.length ≤ op.symbol.length ∨
      other.symbol.toList = op.symbol.toList ++ ['='] := by
  revert h
  cases op <;> cases other <;> decide

theorem symbol_longest {op other : Operator} {behind : List Char}
    (hbehind : Stops (· == '=') behind) (h : other.symbol.toList <+: op.symbol.toList ++ behind) :
    other.symbol.length ≤ op.symbol.length := by
  rcases Nat.le_total other.symbol.length op.symbol.length with hle | hle
  · exact hle
  · have hlength : op.symbol.toList.length ≤ other.symbol.toList.length := by
      rwa [String.length_toList, String.length_toList]
    have hbegin : op.symbol.toList <+: other.symbol.toList :=
      List.prefix_of_prefix_length_le (List.prefix_append _ _) h hlength
    rcases symbol_prefix hbegin with hle | hlonger
    · exact hle
    · rw [hlonger, List.prefix_append_right_inj] at h
      obtain ⟨more, rfl⟩ := h
      exact absurd rfl hbehind.ne

theorem written_of_operator? {tier : Tier} {op : Operator} {text behind : List Char}
    (h : operator? tier text = some (op, behind)) (hbehind : Stops (· == '=') behind)
    (left right : Expr) (location : Location) :
    WrittenAt (.binary op left right location) text := by
  obtain ⟨-, rfl⟩ := operator?_sound h
  exact .binary (List.prefix_append _ _) fun _ => symbol_longest hbehind

theorem WrittenAt.ne_nil {node : Expr} {place : List Char} (h : WrittenAt node place) :
    place ≠ [] := by
  cases h with
  | @var name _ _ hname _ =>
      cases name with
      | nil => exact absurd hname id
      | cons c name => simp
  | @binary op _ _ _ _ hsymbol _ =>
      obtain ⟨c, more, hcons, -⟩ := symbol_eq_cons op
      rintro rfl
      rw [hcons] at hsymbol
      simp at hsymbol
  | call hname _ =>
      obtain ⟨c, more, rfl, -⟩ := hname.exists_head
      simp

/-! ## Nodes between two places -/

/-- These nodes are written one behind the other between the places `text` and `rest`, each where it
is located. -/
inductive Written (source : SourceText) : List Char → List Char → List Expr → Prop
  | nil {text rest : List Char} (hrest : rest <:+ text) : Written source text rest []
  | cons {text place behind rest : List Char} {node : Expr} {nodes : List Expr}
      (hplace : place <:+ text) (hlocation : node.location? = some (source.locate place))
      (hword : WrittenAt node place) (hbehind : behind <:+ place)
      (hlength : behind.length < place.length) (hnodes : Written source behind rest nodes) :
      Written source text rest (node :: nodes)

variable {source : SourceText}

theorem Written.widen {text wider rest : List Char} {nodes : List Expr} (h : text <:+ wider)
    (hnodes : Written source text rest nodes) : Written source wider rest nodes := by
  cases hnodes with
  | nil hrest => exact .nil (hrest.trans h)
  | cons hplace hlocation hword hbehind hlength hnodes =>
      exact .cons (hplace.trans h) hlocation hword hbehind hlength hnodes

theorem Written.append {text between rest : List Char} {first second : List Expr}
    (hfirst : Written source text between first) (hsecond : Written source between rest second) :
    Written source text rest (first ++ second) := by
  induction hfirst with
  | nil hbetween => exact hsecond.widen hbetween
  | cons hplace hlocation hword hbehind hlength _ ih =>
      exact .cons hplace hlocation hword hbehind hlength (ih hsecond)

/-- Nothing is written between the end of the nodes and what follows. -/
theorem Written.stretch {text between rest : List Char} {nodes : List Expr}
    (hnodes : Written source text between nodes) (h : rest <:+ between) :
    Written source text rest nodes := by
  have hall := hnodes.append (.nil h)
  rwa [List.append_nil] at hall

/-! ## What the reader records -/

theorem CallOpens.written {start name inside : List Char} (h : CallOpens start name inside)
    (arguments : List Expr) (location : Location) :
    WrittenAt (.call (String.ofList name) arguments location) start := by
  obtain ⟨after, hname, hafter⟩ := h
  obtain ⟨hqualified, rfl⟩ := qualifiedName?_sound hname
  exact .call hqualified (nameEnds_of_opening hafter)

theorem written_ofName {start name rest : List Char} (h : name? start = some (name, rest)) :
    Written source start rest (ofName source start name).inOrder := by
  obtain ⟨hname, rfl, hends⟩ := name?_sound h
  have hrest : rest <:+ name ++ rest := List.suffix_append _ _
  have hpos : 0 < name.length := by
    cases name with
    | nil => exact absurd hname id
    | cons c name => exact Nat.succ_pos _
  simp only [ofName]
  split
  · exact .nil hrest
  · split
    · exact .nil hrest
    · refine .cons (List.suffix_refl _) rfl (.var hname hends) hrest ?_ (.nil (List.suffix_refl _))
      rw [List.length_append]
      omega

namespace Reader

mutual

theorem Chain.written {tiers : List Tier} {text : List Char} {outcome : Reading Expr} :
    Chain source tiers text outcome →
      outcome.Holds fun expr rest => Written source text rest expr.inOrder
  | .atom hatom => hatom.written
  | .links hleft hlinks => hlinks.written hleft.written
  | .miss _ => trivial
  | .broken _ => trivial

theorem Links.written {tier : Tier} {tighter : List Tier} {left : Expr} {start text : List Char}
    {outcome : Reading Expr} :
    Links source tier tighter left text outcome → Written source start text left.inOrder →
      outcome.Holds fun expr rest => Written source start rest expr.inOrder
  | .done _, hleft => hleft
  | .link hop hright hmore, hleft =>
      hmore.written <| hleft.append <|
        .cons (List.suffix_refl _) rfl (written_of_operator? hop hright.derives.stops_equal _ _ _)
          (operator?_suffix hop) (length_of_operator? hop) hright.written
  | .miss _ _, _ => trivial
  | .broken _ _, _ => trivial

theorem Atom.written {text : List Char} {outcome : Reading Expr} :
    Atom source text outcome →
      outcome.Holds fun expr rest => Written source text rest expr.inOrder
  | .group hstart hinside =>
      (hinside.written.widen (suffix_of_skipBlank hstart)).stretch
        ((skipBlank_suffix _).trans (List.suffix_cons _ _))
  | .string hstart hbody => 
      .nil (show Atom source text (.ok _ _) from .string hstart hbody).suffix
  | .number hstart hnumber => 
      .nil (show Atom source text (.ok _ _) from .number hstart hnumber).suffix
  | .call hstart _ hopens hinside hbehind => by
      have hlt := hopens.length_lt
      refine .cons (hstart ▸ skipBlank_suffix text) rfl (hopens.written _ _) hopens.suffix
        (by omega) ?_
      exact hinside.written.stretch ((skipBlank_suffix _).trans (suffix_of_skipBlank hbehind))
  | .name hstart _ _ hname =>
      ((written_ofName hname).widen (hstart ▸ skipBlank_suffix text)).stretch (skipBlank_suffix _)
  | .unclosed _ _ _ => trivial
  | .hollow _ _ => trivial
  | .broken _ _ => trivial
  | .unquoted _ _ _ => trivial
  | .uncalled _ _ _ _ _ => trivial
  | .argument _ _ _ _ => trivial
  | .nothing _ _ _ _ _ => trivial

theorem Listing.written {text : List Char} {outcome : Reading (List Expr)} :
    Listing source text outcome →
      outcome.Holds fun exprs rest => Written source text rest (inOrderAll exprs)
  | .none _ => .nil (List.suffix_refl _)
  | .some hfirst hothers => hfirst.written.append hothers.written
  | .first _ => trivial
  | .others _ _ => trivial

theorem More.written {text : List Char} {outcome : Reading (List Expr)} :
    More source text outcome →
      outcome.Holds fun exprs rest => Written source text rest (inOrderAll exprs)
  | .done _ => .nil (List.suffix_refl _)
  | .lone _ => .nil (List.suffix_refl _)
  | .more hnext hothers =>
      Written.widen (List.suffix_cons _ _) (hnext.written.append hothers.written)
  | .next _ => trivial
  | .others _ _ => trivial

end

end Reader

/-! ## Offsets -/

/-- The node is written at this offset and is located there.  Its line and its column are no more
than the text has characters. -/
structure LocatedAt (source file : String) (node : Expr) (offset : Nat) : Prop where
  inside : offset < source.length
  location : node.location? = some ⟨file, (position (source.toList.take offset)).1,
    (position (source.toList.take offset)).2⟩
  word : WrittenAt node (source.toList.drop offset)
  fits : ∀ location ∈ node.location?,
    location.line ≤ source.length ∧ location.column ≤ source.length

variable {text file : String}

theorem locatedAt {place : List Char} {node : Expr} (hplace : place <:+ text.toList)
    (hlocation : node.location? = some (SourceText.locate ⟨file, text.toList⟩ place))
    (hword : WrittenAt node place) : LocatedAt text file node (text.length - place.length) := by
  have hle := hplace.length_le
  have hpos := List.length_pos_of_ne_nil hword.ne_nil
  rw [String.length_toList] at hle
  rw [locate_eq, SourceText.before, String.length_toList] at hlocation
  refine ⟨by omega, hlocation, ?_, ?_⟩
  · rwa [← String.length_toList, ← List.suffix_iff_eq_drop.1 hplace]
  · intro location hmem
    obtain rfl := Option.some.inj (hlocation.symm.trans hmem)
    have hbound := position_le (text.toList.take (text.length - place.length))
    rw [List.length_take, String.length_toList] at hbound
    exact ⟨hbound.1.trans (by omega), hbound.2.trans (by omega)⟩

theorem Written.exists_offsets {start rest : List Char} {nodes : List Expr}
    (h : Written ⟨file, text.toList⟩ start rest nodes) (hstart : start <:+ text.toList) :
    ∃ offsets : List Nat, List.Forall₂ (LocatedAt text file) nodes offsets ∧
      offsets.Pairwise (· < ·) ∧ ∀ offset ∈ offsets, text.length - start.length ≤ offset := by
  induction h with
  | nil _ => exact ⟨[], .nil, .nil, by simp⟩
  | @cons start place behind rest node nodes hplace hlocation hword hbehind hlength _ ih =>
      have hinside := hplace.trans hstart
      obtain ⟨offsets, hall, hincreasing, hlow⟩ := ih (hbehind.trans hinside)
      have hle := hplace.length_le
      have hbound := hinside.length_le
      rw [String.length_toList] at hbound
      refine ⟨(text.length - place.length) :: offsets,
        .cons (locatedAt hinside hlocation hword) hall, .cons ?_ hincreasing, ?_⟩
      · intro offset hoffset
        have hlater := hlow offset hoffset
        omega
      · rintro offset (_ | ⟨_, hoffset⟩)
        · omega
        · have hlater := hlow offset hoffset
          omega

/-- Every node of an expression that is read is located where its operator or name stands, and in
the order in which they are written the offsets increase. -/
theorem recorded_locations_are_exact {expr : Expr} (h : Expr.read text file = .ok expr) :
    ∃ offsets : List Nat, List.Forall₂ (LocatedAt text file) expr.inOrder offsets ∧
      offsets.Pairwise (· < ·) := by
  have hchain := Reader.read_eq_ok_iff.1 h
  obtain ⟨offsets, hall, hincreasing, -⟩ := hchain.written.exists_offsets (List.suffix_refl _)
  exact ⟨offsets, hall, hincreasing⟩

/-- A line feed inside a string begins a line, and a character takes one column however many bytes
it has. -/
theorem recorded_locations_behind_broken_string :
    ∃ expr, Expr.read "\"é\n\" != pkg.sub:name(a, 1 <\n b)" "main" = .ok expr ∧
      expr.inOrder.filterMap Expr.location? = [⟨"main", 2, 3⟩, ⟨"main", 2, 6⟩, ⟨"main", 2, 19⟩,
        ⟨"main", 2, 24⟩, ⟨"main", 3, 2⟩] ∧
      ∃ offsets : List Nat,
        List.Forall₂ (LocatedAt "\"é\n\" != pkg.sub:name(a, 1 <\n b)" "main") expr.inOrder offsets ∧
          offsets.Pairwise (· < ·) := by
  have hread : (Expr.read "\"é\n\" != pkg.sub:name(a, 1 <\n b)" "main").toOption.map
      (fun expr => expr.inOrder.filterMap Expr.location?) = some [⟨"main", 2, 3⟩, ⟨"main", 2, 6⟩,
        ⟨"main", 2, 19⟩, ⟨"main", 2, 24⟩, ⟨"main", 3, 2⟩] := by
    decide +kernel
  generalize hresult : Expr.read "\"é\n\" != pkg.sub:name(a, 1 <\n b)" "main" = result at hread ⊢
  cases result with
  | error _ => exact absurd hread (by simp [Except.toOption])
  | ok expr => exact ⟨expr, rfl, Option.some.inj hread, recorded_locations_are_exact hresult⟩

end Grammar

end Switchboard
