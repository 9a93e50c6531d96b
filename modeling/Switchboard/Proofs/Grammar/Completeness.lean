import Switchboard.Proofs.Grammar.Soundness

/-!
What the reader finds.

A derivation may stop where it likes, the reader goes on as long as it can.  The two meet when what
stands behind an expression could not prolong its last word and begins with no operator that binds
as tightly.  Then the reader ends where the derivation ends, up to separators.

A chain is derived from its end and read from its beginning.  `Joins` is the meeting point: after
some links the reader has the tree of the derivation in hand, and goes on behind it.
-/

namespace Switchboard

namespace Grammar

open Switchboard.Expr

/-! ## Where words end and expressions begin -/

theorem numberEnds_of_stops {rest : List Char} (h : Stops prolongs rest) : NumberEnds rest := by
  have hpart : ∀ c ∈ rest.head?, Expr.isNamePart c = false ∧ c ≠ '.' := by
    intro c hc
    have hprolongs := h c hc
    simp only [prolongs, Bool.or_eq_false_iff, beq_eq_false_iff_ne] at hprolongs
    exact hprolongs.1
  refine ⟨?_, ?_, ?_⟩
  · intro c hc
    have hno := (hpart c hc).1
    simp only [Expr.isNamePart, Char.isAlphanum, Bool.or_eq_false_iff] at hno
    exact hno.1.2
  · intro c hc
    simpa using (hpart c hc).2
  · intro c hc
    have hno := (hpart c hc).1
    simp only [Bool.or_eq_false_iff, beq_eq_false_iff_ne]
    constructor <;> rintro rfl <;> exact absurd hno (by decide)

theorem nameEnds_of_stops {rest : List Char} (h : Stops prolongs rest) : NameEnds rest := by
  intro c hc
  have hprolongs := h c hc
  simp only [prolongs, Bool.or_eq_false_iff] at hprolongs
  exact hprolongs.1.1

/-- Separators prolong nothing. -/
theorem stops_append {after rest : List Char} (hafter : IsBlank after)
    (hrest : Stops prolongs rest) : Stops prolongs (after ++ rest) := by
  cases after with
  | nil => exact hrest
  | cons c after =>
      refine stops_cons.2 ?_
      rcases hafter c List.mem_cons_self with rfl | rfl | rfl | rfl <;> decide

/-- The characters with which a group, a literal, a call or a name begins. -/
def opens (c : Char) : Bool :=
  c.isDigit || isNameStart c || c == '-' || c == '(' || c == '"'

theorem not_isSeparator_of_opens {c : Char} (h : opens c = true) :
    Text.isSeparator c = false := by
  rw [Bool.eq_false_iff]
  intro hseparator
  rcases isSeparator_iff.1 hseparator with rfl | rfl | rfl | rfl <;> exact absurd h (by decide)

theorem opens_of_isDigits (negative : Bool) {digits : List Char} (h : IsDigits digits)
    (rest : List Char) :
    ∃ c more, sign negative ++ (digits ++ rest) = c :: more ∧ opens c = true := by
  cases negative with
  | true => exact ⟨'-', _, rfl, by decide⟩
  | false =>
      cases digits with
      | nil => exact absurd rfl h.1
      | cons c digits =>
          refine ⟨c, _, rfl, ?_⟩
          simp [opens, h.2 c List.mem_cons_self]

theorem opens_of_isNameStart {c : Char} (h : isNameStart c = true) : opens c = true := by
  simp [opens, h]

theorem IsQualifiedName.exists_head {word : List Char} (h : IsQualifiedName word) :
    ∃ c more, word = c :: more ∧ isNameStart c = true := by
  cases h with
  | @intro package name hpackage hname =>
      have hcolon : Stops (fun c => Expr.isNamePart c || c == '.') (':' :: name) :=
        stops_cons.2 (by decide)
      obtain ⟨c, tail, rfl, hc, -⟩ := hpackage.exists_tail hcolon
      exact ⟨c, _, rfl, hc⟩

theorem Primary.exists_head {text rest : List Char} {tree : Tree} (h : Primary text rest tree) :
    ∃ c more, text = c :: more ∧ opens c = true := by
  cases h with
  | group _ => exact ⟨'(', _, rfl, by decide⟩
  | float hword =>
      cases hword with
      | intro negative hwhole _ _ =>
          simpa using opens_of_isDigits negative hwhole _
  | integer hword =>
      cases hword with
      | intro negative hdigits _ _ =>
          simpa using opens_of_isDigits negative hdigits rest
  | string _ => exact ⟨'"', _, rfl, by decide⟩
  | call hname _ _ _ _ =>
      obtain ⟨c, more, rfl, hc⟩ := hname.exists_head
      exact ⟨c, _, rfl, opens_of_isNameStart hc⟩
  | @name name _ hname _ =>
      cases name with
      | nil => exact absurd hname id
      | cons c name => exact ⟨c, _, rfl, opens_of_isNameStart hname.1⟩

/-- An expression begins with a separator or with a character that opens an atom. -/
theorem Derives.exists_head {tiers : List (List Operator)} {text rest : List Char} {tree : Tree} :
    Derives tiers text rest tree →
      ∃ c more, text = c :: more ∧ (Text.isSeparator c = true ∨ opens c = true)
  | @Derives.atom before _ _ _ _ _ hbefore hprimary _ _ => by
      obtain ⟨c, more, rfl, hc⟩ := hprimary.exists_head
      cases before with
      | nil => exact ⟨c, more, rfl, Or.inr hc⟩
      | cons d before =>
          exact ⟨d, _, rfl, Or.inl (isSeparator_iff.2 (hbefore d List.mem_cons_self))⟩
  | .operand h => h.exists_head
  | .link _ h _ => h.exists_head

theorem Derives.stops_equal {tiers : List (List Operator)} {text rest : List Char} {tree : Tree}
    (h : Derives tiers text rest tree) : Stops (· == '=') text := by
  obtain ⟨c, more, rfl, hc⟩ := h.exists_head
  refine stops_cons.2 ?_
  rw [beq_eq_false_iff_ne]
  rintro rfl
  rcases hc with hc | hc <;> exact absurd hc (by decide)

theorem IsFloat.ne_nil {word : List Char} {x : Float} (h : IsFloat word x) : word ≠ [] := by
  cases h
  simp

theorem IsInteger.ne_nil {word : List Char} {n : Int64} (h : IsInteger word n) : word ≠ [] := by
  cases h with
  | intro _ hdigits _ _ => simp [hdigits.1]

mutual

/-- Something is used up by an expression. -/
theorem Derives.length_lt {tiers : List (List Operator)} {text rest : List Char} {tree : Tree} :
    Derives tiers text rest tree → rest.length < text.length
  | .atom _ hprimary _ hbehind => by
      have hlt := hprimary.length_lt
      rw [hbehind, List.length_append] at hlt
      rw [List.length_append]
      omega
  | .operand h => h.length_lt
  | .link _ hleft hright => by
      have hlt := hleft.length_lt
      have hmore := hright.length_lt
      rw [List.length_append] at hlt
      omega

theorem Primary.length_lt {text rest : List Char} {tree : Tree} :
    Primary text rest tree → rest.length < text.length
  | .group h => by
      have hlt := h.length_lt
      simp only [List.length_cons] at hlt ⊢
      omega
  | .float h => by
      have hpos := List.length_pos_of_ne_nil h.ne_nil
      rw [List.length_append]
      omega
  | .integer h => by
      have hpos := List.length_pos_of_ne_nil h.ne_nil
      rw [List.length_append]
      omega
  | .string h => by
      simp only [List.length_cons, List.length_append]
      omega
  | .call _ _ harguments _ hbehind => by
      have hle := harguments.length_le
      rw [hbehind] at hle
      simp only [List.length_cons, List.length_append] at hle ⊢
      omega
  | @Primary.name name _ hname _ => by
      cases name with
      | nil => exact absurd hname id
      | cons c name =>
          simp only [List.length_append, List.length_cons]
          omega

theorem Arguments.length_le {text rest : List Char} {trees : List Tree} :
    Arguments text rest trees → rest.length ≤ text.length
  | .none => Nat.le_refl _
  | .some h => Nat.le_of_lt h.length_lt

theorem Items.length_lt {text rest : List Char} {first : Tree} {others : List Tree} :
    Items text rest first others → rest.length < text.length
  | .one h => h.length_lt
  | .more hfirst hothers => by
      have hlt := hfirst.length_lt
      have hmore := hothers.length_lt
      rw [List.length_cons] at hlt
      omega

end

/-! ## One step of the reader -/

variable (source : SourceText) {fuel : Nat}

theorem readAtom_group {text inside rest : List Char} {expr : Expr}
    (hstart : skipBlank text = '(' :: inside)
    (hread : readChain source fuel tiers inside = .ok expr (')' :: rest)) :
    readAtom source (fuel + 1) text = .ok expr (skipBlank rest) := by
  simp only [readAtom, hstart, hread]

theorem readAtom_string {text inside body rest : List Char}
    (hstart : skipBlank text = '"' :: inside) (hread : stringBody inside = (body, '"' :: rest)) :
    readAtom source (fuel + 1) text =
      .ok (.literal (.string (String.ofList body))) (skipBlank rest) := by
  simp only [readAtom, hstart, hread]

theorem readAtom_number {text start rest : List Char} {value : Literal}
    (hstart : skipBlank text = start) (hread : number? start = some (value, rest)) :
    readAtom source (fuel + 1) text = .ok (.literal value) (skipBlank rest) := by
  have hopen : ∀ c, c = '(' ∨ c = '"' → ∀ inside, start ≠ c :: inside := by
    rintro c hc inside rfl
    have hnone : number? (c :: inside) = none := by
      apply number?_eq_none <;> rcases hc with rfl | rfl <;> exact stops_cons.2 (by decide)
    rw [hnone] at hread
    exact absurd hread (by simp)
  simp only [readAtom, hstart]
  split
  · exact absurd rfl (hopen _ (Or.inl rfl) _)
  · exact absurd rfl (hopen _ (Or.inr rfl) _)
  · simp only [hread]

theorem readAtom_call {text start name after inside behind rest : List Char} {exprs : List Expr}
    (hstart : skipBlank text = start) (hnumber : number? start = none)
    (hname : qualifiedName? start = some (name, after)) (hafter : skipBlank after = '(' :: inside)
    (hread : readArguments source fuel inside = .ok exprs behind)
    (hbehind : skipBlank behind = ')' :: rest) :
    readAtom source (fuel + 1) text =
      .ok (.call (String.ofList name) exprs (source.locate start)) (skipBlank rest) := by
  simp only [readAtom, hstart]
  split
  · exact absurd hname (by simp [qualifiedName?, show isNameStart '(' = false by decide])
  · exact absurd hname (by simp [qualifiedName?, show isNameStart '"' = false by decide])
  · simp only [hnumber, hname, Option.map_some, hafter, hread, hbehind]

theorem readAtom_name {text start name rest : List Char}
    (hstart : skipBlank text = start) (hnumber : number? start = none)
    (hqualified : qualifiedName? start = none) (hname : name? start = some (name, rest)) :
    readAtom source (fuel + 1) text = .ok (ofName source start name) (skipBlank rest) := by
  simp only [readAtom, hstart]
  split
  · exact absurd hname (by simp [name?, show isNameStart '(' = false by decide])
  · exact absurd hname (by simp [name?, show isNameStart '"' = false by decide])
  · simp only [hnumber, hqualified, Option.map_none, hname]

/-- No expression begins with a closing parenthesis. -/
theorem readAtom_closing {text rest : List Char} (hstart : skipBlank text = ')' :: rest) :
    ∃ left, readAtom source fuel text = .miss left := by
  cases fuel with
  | zero => exact ⟨text, rfl⟩
  | succ fuel =>
      have hnumber : number? (')' :: rest) = none :=
        number?_eq_none (stops_cons.2 (by decide)) (stops_cons.2 (by decide))
      have hstarts : isNameStart ')' = false := by decide
      exact ⟨')' :: rest, by simp [readAtom, hstart, hnumber, qualifiedName?, name?, hstarts]⟩

theorem readChain_closing {tiers : List Tier} {text rest : List Char}
    (hstart : skipBlank text = ')' :: rest) :
    ∃ left, readChain source fuel tiers text = .miss left := by
  induction tiers generalizing fuel with
  | nil =>
      cases fuel with
      | zero => exact ⟨text, rfl⟩
      | succ fuel =>
          rw [readChain]
          exact readAtom_closing source hstart
  | cons tier tighter ih =>
      cases fuel with
      | zero => exact ⟨text, rfl⟩
      | succ fuel =>
          obtain ⟨left, hleft⟩ := @ih fuel
          exact ⟨left, by simp [readChain, hleft]⟩

/-! ## Derivations and readings -/

/-- Enough steps lead from `text` to `rest` and to an expression that is `tree`. -/
def Reads (tiers : List Tier) (text rest : List Char) (tree : Tree) : Prop :=
  ∀ fuel, 8 * text.length + 2 + tiers.length ≤ fuel →
    ∃ expr, readChain source fuel tiers text = .ok expr (skipBlank rest) ∧ expr.bare = tree

/-- Enough steps lead from `text` to the links of the chain that begin at `rest`, with an expression
in hand that is `tree`, and leave enough steps for those links. -/
def Joins (tier : Tier) (tighter : List Tier) (text rest : List Char) (tree : Tree) : Prop :=
  ∀ fuel, 8 * text.length + 3 + tighter.length ≤ fuel →
    ∃ expr steps, readChain source fuel (tier :: tighter) text =
        readLinks source steps tier tighter expr (skipBlank rest) ∧
      expr.bare = tree ∧ 8 * rest.length + 2 + tighter.length ≤ steps

variable {source}

theorem Reads.joins {tier : Tier} {tighter : List Tier} {text rest : List Char} {tree : Tree}
    (h : Reads source tighter text rest tree) (hlength : rest.length < text.length) :
    Joins source tier tighter text rest tree := by
  intro fuel hfuel
  obtain ⟨steps, rfl⟩ : ∃ steps, fuel = steps + 1 := ⟨fuel - 1, by omega⟩
  obtain ⟨expr, hread, hbare⟩ := h steps (by omega)
  refine ⟨expr, steps, ?_, hbare, by omega⟩
  simp only [readChain, hread]

theorem skipBlank_symbol (op : Operator) (behind : List Char) :
    skipBlank (op.symbol.toList ++ behind) = op.symbol.toList ++ behind := by
  obtain ⟨c, more, hsymbol, -, hseparator⟩ := symbol_eq_cons op
  apply skipBlank_of_stops
  rw [hsymbol]
  exact stops_cons.2 hseparator

theorem Joins.link {tier : Tier} {tighter : List Tier} {op : Operator}
    {text behind rest : List Char} {left right : Tree} (htier : tier ∈ levels) (hop : op ∈ tier)
    (hleft : Joins source tier tighter text (op.symbol.toList ++ behind) left)
    (hright : Reads source tighter behind rest right) (hbehind : Stops (· == '=') behind)
    (hlength : rest.length < behind.length) :
    Joins source tier tighter text rest (.binary op left right) := by
  intro fuel hfuel
  obtain ⟨first, steps, hread, hfirst, hsteps⟩ := hleft fuel hfuel
  obtain ⟨c, more, hsymbol, -⟩ := symbol_eq_cons op
  rw [List.length_append, hsymbol, List.length_cons] at hsteps
  obtain ⟨fewer, rfl⟩ : ∃ fewer, steps = fewer + 1 := ⟨steps - 1, by omega⟩
  obtain ⟨second, hsecond, hbare⟩ := hright fewer (by omega)
  refine ⟨.binary op first second (source.locate (op.symbol.toList ++ behind)), fewer, ?_, ?_,
    by omega⟩
  · rw [hread, skipBlank_symbol, readLinks, operator?_append htier hop hbehind]
    simp only [hsecond, Reading.committed]
  · rw [bare, hfirst, hbare]

theorem Joins.reads {tier : Tier} {tighter : List Tier} {text rest : List Char} {tree : Tree}
    (h : Joins source tier tighter text rest tree)
    (hend : operator? tier (skipBlank rest) = none) :
    Reads source (tier :: tighter) text rest tree := by
  intro fuel hfuel
  rw [List.length_cons] at hfuel
  obtain ⟨expr, steps, hread, hbare, hsteps⟩ := h fuel (by omega)
  obtain ⟨fewer, rfl⟩ : ∃ fewer, steps = fewer + 1 := ⟨steps - 1, by omega⟩
  refine ⟨expr, ?_, hbare⟩
  rw [hread, readLinks, hend]

/-! ## Every derivation is read -/

/-- What stands behind an expression prolongs no word, and begins with no operator of these
tiers. -/
structure Ends (tiers : List Tier) (rest : List Char) : Prop where
  word : Stops prolongs rest
  operators : ∀ tier ∈ tiers, operator? tier (skipBlank rest) = none

theorem Ends.tighter {tier : Tier} {tighter : List Tier} {rest : List Char}
    (h : Ends (tier :: tighter) rest) : Ends tighter rest :=
  ⟨h.word, fun other hother => h.operators other (List.mem_cons_of_mem tier hother)⟩

/-- Nothing goes on behind a closing parenthesis or a comma. -/
theorem ends_levels {c : Char} (hc : c = ')' ∨ c = ',') (rest : List Char) :
    Ends levels (c :: rest) := by
  have hseparator : Text.isSeparator c = false := by
    rcases hc with rfl | rfl <;> decide
  refine ⟨?_, ?_⟩
  · refine stops_cons.2 ?_
    rcases hc with rfl | rfl <;> decide
  · have hbegins : ∀ tier ∈ levels, begins tier ')' = false ∧ begins tier ',' = false := by
      decide
    intro tier htier
    rw [skipBlank_of_stops (stops_cons.2 hseparator)]
    apply operator?_eq_none
    refine stops_cons.2 ?_
    rcases hc with rfl | rfl
    · exact (hbegins tier htier).1
    · exact (hbegins tier htier).2

/-- Operands end where an operator of their chain follows. -/
theorem ends_symbol {tier : Tier} {tighter : List Tier} (htiers : tier :: tighter <:+ levels)
    {op : Operator} (hop : op ∈ tier) (behind : List Char) :
    Ends tighter (op.symbol.toList ++ behind) := by
  refine ⟨?_, ?_⟩
  · obtain ⟨c, more, hsymbol, hprolongs, -⟩ := symbol_eq_cons op
    rw [hsymbol]
    exact stops_cons.2 hprolongs
  · intro other hother
    rw [skipBlank_symbol]
    exact operator?_eq_none (begins_tighter htiers hop hother behind)

/-- Separators may come first. -/
theorem Ends.append {tiers : List Tier} {after rest : List Char} (hafter : IsBlank after)
    (h : Ends tiers rest) : Ends tiers (after ++ rest) := by
  refine ⟨stops_append hafter h.word, ?_⟩
  intro tier htier
  rw [skipBlank_append hafter]
  exact h.operators tier htier

theorem Primary.skipBlank_append {before text rest : List Char} {tree : Tree}
    (hbefore : IsBlank before) (h : Primary text rest tree) :
    skipBlank (before ++ text) = text := by
  obtain ⟨c, more, rfl, hc⟩ := h.exists_head
  rw [Grammar.skipBlank_append hbefore]
  exact skipBlank_of_stops (stops_cons.2 (not_isSeparator_of_opens hc))

theorem not_isDigit_of_isNameStart {c : Char} (hc : isNameStart c = true) :
    c.isDigit = false := by
  rw [Bool.eq_false_iff]
  intro hdigit
  have hstart : isNameStart c =
      (decide (c.val ≥ 'A'.val ∧ c.val ≤ 'Z'.val) ||
        decide (c.val ≥ 'a'.val) && decide (c.val ≤ 'z'.val) || c == '_') := rfl
  rw [hstart] at hc
  simp only [Char.isDigit, Bool.or_eq_true, Bool.and_eq_true, decide_eq_true_eq, beq_iff_eq,
    UInt32.le_iff_toNat_le, ge_iff_le] at hc hdigit
  have hnine : '9'.val.toNat = 57 := rfl
  have hupper : 'A'.val.toNat = 65 := rfl
  have hlower : 'a'.val.toNat = 97 := rfl
  rcases hc with (hc | hc) | rfl
  · omega
  · omega
  · exact absurd hdigit.2 (by decide)

/-- What begins like a name is no number. -/
theorem number?_name {c : Char} (hc : isNameStart c = true) (more : List Char) :
    number? (c :: more) = none := by
  apply number?_eq_none
  · refine stops_cons.2 ?_
    rw [beq_eq_false_iff_ne]
    rintro rfl
    exact absurd hc (by decide)
  · exact stops_cons.2 (not_isDigit_of_isNameStart hc)

mutual

theorem Derives.reads {tiers : List (List Operator)} {text rest : List Char} {tree : Tree} :
    Derives tiers text rest tree → tiers <:+ levels → Ends tiers rest →
      Reads source tiers text rest tree
  | .atom hbefore hprimary hafter hbehind, _, hends => by
      intro fuel hfuel
      rw [List.length_append, List.length_nil] at hfuel
      obtain ⟨fewer, rfl⟩ : ∃ fewer, fuel = fewer + 2 := ⟨fuel - 2, by omega⟩
      have hstops := stops_append hafter hends.word
      rw [← hbehind] at hstops
      obtain ⟨expr, hread, hbare⟩ :=
        hprimary.reads (hprimary.skipBlank_append hbefore) hstops fewer (by omega)
      refine ⟨expr, ?_, hbare⟩
      rw [readChain, hread, hbehind, skipBlank_append hafter]
  | .operand h, htiers, hends =>
      ((h.reads ((List.suffix_cons _ _).trans htiers) hends.tighter).joins h.length_lt).reads
        (hends.operators _ List.mem_cons_self)
  | .link hop hleft hright, htiers, hends =>
      ((hleft.joins rfl htiers (ends_symbol htiers hop _)).link (htiers.subset List.mem_cons_self)
        hop (hright.reads ((List.suffix_cons _ _).trans htiers) hends.tighter) hright.stops_equal
        hright.length_lt).reads (hends.operators _ List.mem_cons_self)

theorem Derives.joins {tier : Tier} {tighter tiers : List Tier} {text rest : List Char}
    {tree : Tree} :
    Derives tiers text rest tree → tiers = tier :: tighter → tier :: tighter <:+ levels →
      Ends tighter rest → Joins source tier tighter text rest tree
  | .operand h, heq, htiers, hends => by
      obtain ⟨rfl, rfl⟩ := List.cons.inj heq
      exact (h.reads ((List.suffix_cons _ _).trans htiers) hends).joins h.length_lt
  | .link hop hleft hright, heq, htiers, hends => by
      obtain ⟨rfl, rfl⟩ := List.cons.inj heq
      exact (hleft.joins rfl htiers (ends_symbol htiers hop _)).link
        (htiers.subset List.mem_cons_self) hop
        (hright.reads ((List.suffix_cons _ _).trans htiers) hends) hright.stops_equal
        hright.length_lt

theorem Primary.reads {whole text rest : List Char} {tree : Tree} :
    Primary text rest tree → skipBlank whole = text → Stops prolongs rest →
      ∀ fuel, 8 * text.length ≤ fuel →
        ∃ expr, readAtom source (fuel + 1) whole = .ok expr (skipBlank rest) ∧ expr.bare = tree
  | .group h, hstart, _ => by
      intro fuel hfuel
      rw [List.length_cons] at hfuel
      obtain ⟨expr, hread, hbare⟩ := h.reads (List.suffix_refl _) (ends_levels (Or.inl rfl) _) fuel
        (by change _ + 2 + 5 ≤ _; omega)
      exact ⟨expr, readAtom_group source hstart hread, hbare⟩
  | .float hword, hstart, hstops => by
      intro fuel _
      exact ⟨_, readAtom_number source hstart (number?_float hword (numberEnds_of_stops hstops)),
        rfl⟩
  | .integer hword, hstart, hstops => by
      intro fuel _
      exact ⟨_, readAtom_number source hstart (number?_integer hword (numberEnds_of_stops hstops)),
        rfl⟩
  | .string hword, hstart, _ => by
      intro fuel _
      exact ⟨_, readAtom_string source hstart (stringBody_append hword), rfl⟩
  | @Primary.call name before inside behind after rest _ hname hblank harguments hafter hbehind,
      hstart, hstops => by
      intro fuel hfuel
      obtain ⟨c, more, rfl, hc⟩ := hname.exists_head
      simp only [List.length_append, List.length_cons] at hfuel
      obtain ⟨fewer, rfl⟩ : ∃ fewer, fuel = fewer + 1 := ⟨fuel - 1, by omega⟩
      have hclosing : skipBlank behind = ')' :: rest := by
        rw [hbehind, skipBlank_append hafter]
        exact skipBlank_of_stops (stops_cons.2 (by decide))
      have hends : Ends levels behind := by
        rw [hbehind]
        exact (ends_levels (Or.inl rfl) rest).append hafter
      obtain ⟨exprs, left, hread, hleft, hbare⟩ :=
        harguments.reads hends hclosing fewer (by omega)
      have hopening : skipBlank (before ++ '(' :: inside) = '(' :: inside := by
        rw [skipBlank_append hblank]
        exact skipBlank_of_stops (stops_cons.2 (by decide))
      have hlast : Stops prolongs (before ++ '(' :: inside) :=
        stops_append hblank (stops_cons.2 (by decide))
      have hqualified := qualifiedName?_append hname (nameEnds_of_stops hlast)
      rw [List.append_assoc] at hstart
      have hnumber := number?_name hc (more ++ (before ++ '(' :: inside))
      refine ⟨_, readAtom_call source hstart hnumber hqualified hopening hread hleft, ?_⟩
      rw [bare, hbare]
  | @Primary.name name _ hname hends, hstart, hstops => by
      intro fuel _
      have hnumber : number? (name ++ rest) = none := by
        cases name with
        | nil => exact absurd hname id
        | cons c name => exact number?_name hname.1 _
      exact ⟨_, readAtom_name source hstart hnumber (qualifiedName?_name hname hstops)
        (name?_append hname hends), bare_ofName _ _ _⟩

theorem Arguments.reads {text rest closing : List Char} {trees : List Tree} :
    Arguments text rest trees → Ends levels rest → skipBlank rest = ')' :: closing →
      ∀ fuel, 8 * text.length + 7 ≤ fuel →
        ∃ exprs left, readArguments source (fuel + 1) text = .ok exprs left ∧
          skipBlank left = ')' :: closing ∧ bareAll exprs = trees
  | .none, _, hclosing => by
      intro fuel _
      obtain ⟨left, hread⟩ := @readChain_closing source fuel tiers _ _ hclosing
      exact ⟨[], text, by simp only [readArguments, hread], hclosing, rfl⟩
  | .some h, hends, hclosing => by
      intro fuel hfuel
      obtain ⟨expr, mid, exprs, hfirst, hothers, hbare, hall⟩ := h.reads hends hclosing fuel hfuel
      refine ⟨expr :: exprs, ')' :: closing, ?_, ?_, ?_⟩
      · simp only [readArguments, hfirst, hothers]
      · exact skipBlank_of_stops (stops_cons.2 (by decide))
      · rw [bareAll, hbare, hall]

theorem Items.reads {text rest closing : List Char} {first : Tree} {others : List Tree} :
    Items text rest first others → Ends levels rest → skipBlank rest = ')' :: closing →
      ∀ fuel, 8 * text.length + 7 ≤ fuel →
        ∃ expr mid exprs, readChain source fuel tiers text = .ok expr mid ∧
          readMoreArguments source fuel mid = .ok exprs (')' :: closing) ∧
          expr.bare = first ∧ bareAll exprs = others
  | .one h, hends, hclosing => by
      intro fuel hfuel
      obtain ⟨expr, hread, hbare⟩ := h.reads (List.suffix_refl _) hends fuel hfuel
      obtain ⟨fewer, rfl⟩ : ∃ fewer, fuel = fewer + 1 := ⟨fuel - 1, by omega⟩
      refine ⟨expr, ')' :: closing, [], ?_, rfl, hbare, rfl⟩
      rw [← hclosing]
      exact hread
  | .more hfirst hothers, hends, hclosing => by
      intro fuel hfuel
      have hlt := hfirst.length_lt
      rw [List.length_cons] at hlt
      obtain ⟨fewer, rfl⟩ : ∃ fewer, fuel = fewer + 1 := ⟨fuel - 1, by omega⟩
      obtain ⟨expr, hread, hbare⟩ :=
        hfirst.reads (List.suffix_refl _) (ends_levels (Or.inr rfl) _) (fewer + 1) hfuel
      obtain ⟨next, mid, exprs, hnext, hmore, hsame, hall⟩ :=
        hothers.reads hends hclosing fewer (by omega)
      refine ⟨expr, _, next :: exprs, hread, ?_, hbare, ?_⟩
      · rw [skipBlank_of_stops (stops_cons.2 (by decide))]
        simp only [readMoreArguments, hnext, hmore]
      · rw [bareAll, hsame, hall]

end

/-- A text that derives a tree is read, and what is read is that tree. -/
theorem exists_read_of_expression {source : String} (file : String) {tree : Tree}
    (h : Expression source.toList tree) :
    ∃ expr, Expr.read source file = .ok expr ∧ expr.bare = tree := by
  have hends : Ends levels [] := by
    refine ⟨stops_nil _, ?_⟩
    intro tier _
    exact operator?_eq_none (stops_nil _)
  obtain ⟨expr, hread, hbare⟩ := @Derives.reads ⟨file, source.toList⟩ _ _ _ _ h
    (List.suffix_refl _) hends (readingSteps source.toList) (by
      change _ + 2 + 5 ≤ _
      rw [readingSteps]
      omega)
  have htext : readChain ⟨file, source.toList⟩ (readingSteps source.toList) tiers source.toList =
      .ok expr [] := hread
  exact ⟨expr, by simp only [Expr.read, htext], hbare⟩

/-- The reader accepts a text exactly when the grammar derives a tree from it, and then what is read
is that tree. -/
theorem read_eq_ok_iff_expression (source file : String) (tree : Tree) :
    (∃ expr, Expr.read source file = .ok expr ∧ expr.bare = tree) ↔
      Expression source.toList tree := by
  constructor
  · rintro ⟨expr, hread, rfl⟩
    exact expression_of_read hread
  · intro h
    exact exists_read_of_expression file h

end Grammar

end Switchboard
