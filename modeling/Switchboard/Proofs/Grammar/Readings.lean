import Switchboard.Proofs.Grammar.Completeness

/-!
Readings without a count of steps.

The reader counts its steps down so that it ends.  It never runs out of them, and then the count
does not matter: what a reading comes to is described here by rules that do not count, one for each
way in which the reader goes on or gives up.  The reader follows these rules, and a text has only
one outcome by them.
-/

namespace Switchboard

/-- Where the reading ended or went wrong. -/
def Reading.rest {A : Type} : Reading A → List Char
  | .ok _ rest => rest
  | .miss rest => rest
  | .broken _ rest => rest

/-- What is read, if anything is, and what is left behind it satisfy `P`. -/
def Reading.Holds {A : Type} (P : A → List Char → Prop) : Reading A → Prop
  | .ok value rest => P value rest
  | .miss _ => True
  | .broken _ _ => True

namespace Grammar

open Switchboard.Expr

/-- A qualified name stands here, and behind it a list of arguments opens. -/
def CallOpens (start name inside : List Char) : Prop :=
  ∃ after, qualifiedName? start = some (name, after) ∧ skipBlank after = '(' :: inside

/-- The reader looks for the name and the parenthesis at once. -/
theorem callOpens_iff {start name inside : List Char} :
    ((qualifiedName? start).map fun (name, rest) => (name, skipBlank rest)) =
      some (name, '(' :: inside) ↔ CallOpens start name inside := by
  simp [CallOpens, Option.map_eq_some_iff]

theorem nameEnds_of_opening {after inside : List Char} (h : skipBlank after = '(' :: inside) :
    NameEnds after := by
  obtain ⟨blank, hblank, hafter⟩ := exists_skipBlank after
  rw [hafter, h]
  exact nameEnds_of_stops (stops_append hblank (stops_cons.2 (by decide)))

theorem stops_of_ne {c : Char} {rest : List Char} (h : ∀ more, rest ≠ c :: more) :
    Stops (· == c) rest := by
  cases rest with
  | nil => exact stops_nil _
  | cons d rest =>
      refine stops_cons.2 ?_
      rw [beq_eq_false_iff_ne]
      rintro rfl
      exact h rest rfl

theorem Stops.ne {c : Char} {rest more : List Char} (h : Stops (· == c) rest) :
    rest ≠ c :: more := by
  rintro rfl
  simp [stops_cons] at h

theorem length_skipBlank_le (text : List Char) : (skipBlank text).length ≤ text.length := by
  obtain ⟨before, -, htext⟩ := exists_skipBlank text
  have hlength := congrArg List.length htext
  rw [List.length_append] at hlength
  omega

theorem skipBlank_suffix (text : List Char) : skipBlank text <:+ text :=
  List.dropWhile_suffix _

theorem operator?_suffix {tier : Tier} {text behind : List Char} {op : Operator}
    (h : operator? tier text = some (op, behind)) : behind <:+ text := by
  obtain ⟨-, rfl⟩ := operator?_sound h
  exact List.suffix_append _ _

theorem stringBody_suffix (text : List Char) : (stringBody text).2 <:+ text := by
  obtain ⟨word, -, htext⟩ := stringBody_sound text
  exact ⟨word, htext.symm⟩

theorem number?_suffix {text rest : List Char} {value : Literal}
    (h : number? text = some (value, rest)) : rest <:+ text := by
  obtain ⟨word, rfl, -⟩ := number?_sound h
  exact List.suffix_append _ _

theorem name?_suffix {text name rest : List Char} (h : name? text = some (name, rest)) :
    rest <:+ text := by
  obtain ⟨-, rfl, -⟩ := name?_sound h
  exact List.suffix_append _ _

/-- What follows the first character is behind the start. -/
theorem suffix_of_skipBlank {c : Char} {text inside : List Char}
    (h : skipBlank text = c :: inside) : inside <:+ text :=
  (List.suffix_cons c inside).trans (h ▸ skipBlank_suffix text)

theorem CallOpens.suffix {start name inside : List Char} (h : CallOpens start name inside) :
    inside <:+ start := by
  obtain ⟨after, hname, hafter⟩ := h
  obtain ⟨-, rfl⟩ := qualifiedName?_sound hname
  exact (suffix_of_skipBlank hafter).trans (List.suffix_append _ _)

theorem length_of_skipBlank {c : Char} {text inside : List Char}
    (h : skipBlank text = c :: inside) : inside.length < text.length := by
  have hle := length_skipBlank_le text
  rw [h, List.length_cons] at hle
  omega

theorem length_of_operator? {tier : Tier} {text behind : List Char} {op : Operator}
    (h : operator? tier text = some (op, behind)) : behind.length < text.length := by
  obtain ⟨-, rfl⟩ := operator?_sound h
  obtain ⟨c, more, hsymbol, -⟩ := symbol_eq_cons op
  rw [List.length_append, hsymbol, List.length_cons]
  omega

theorem CallOpens.length_lt {start name inside : List Char} (h : CallOpens start name inside) :
    inside.length + 1 < start.length := by
  obtain ⟨after, hname, hafter⟩ := h
  obtain ⟨hqualified, rfl⟩ := qualifiedName?_sound hname
  obtain ⟨c, more, rfl, -⟩ := hqualified.exists_head
  have hle := length_skipBlank_le after
  rw [hafter, List.length_cons] at hle
  rw [List.length_append, List.length_cons]
  omega

theorem CallOpens.exists_head {start name inside : List Char} (h : CallOpens start name inside) :
    ∃ c more, start = c :: more ∧ isNameStart c = true := by
  obtain ⟨after, hname, -⟩ := h
  obtain ⟨hqualified, rfl⟩ := qualifiedName?_sound hname
  obtain ⟨c, more, rfl, hc⟩ := hqualified.exists_head
  exact ⟨c, _, rfl, hc⟩

theorem exists_head_of_name? {start name rest : List Char}
    (h : name? start = some (name, rest)) : ∃ c more, start = c :: more ∧ isNameStart c = true := by
  obtain ⟨hname, rfl, -⟩ := name?_sound h
  cases name with
  | nil => exact absurd hname id
  | cons c name => exact ⟨c, _, rfl, hname.1⟩

/-- What begins like a name begins neither a group nor a string. -/
theorem stops_of_isNameStart {c d : Char} (hc : isNameStart c = true) (hd : d = '(' ∨ d = '"')
    (more : List Char) : Stops (· == d) (c :: more) := by
  refine stops_cons.2 ?_
  rw [beq_eq_false_iff_ne]
  rintro rfl
  rcases hd with rfl | rfl <;> exact absurd hc (by decide)

theorem name?_ne_none {c : Char} (hc : isNameStart c = true) (more : List Char) :
    name? (c :: more) ≠ none := by
  simp [name?, hc]

section

variable (source : SourceText) {fuel : Nat}

theorem readAtom_unclosed {text start name inside behind : List Char} {exprs : List Expr}
    (hstart : skipBlank text = start) (hnumber : number? start = none)
    (h : CallOpens start name inside)
    (hread : readArguments source fuel inside = .ok exprs behind)
    (hbehind : Stops (· == ')') (skipBlank behind)) :
    readAtom source (fuel + 1) text = .broken .closingParenthesis (skipBlank behind) := by
  obtain ⟨c, more, rfl, hc⟩ := h.exists_head
  obtain ⟨after, hname, hafter⟩ := h
  simp only [readAtom, hstart]
  split
  · next heq => exact absurd heq (stops_of_isNameStart hc (Or.inl rfl) more).ne
  · next heq => exact absurd heq (stops_of_isNameStart hc (Or.inr rfl) more).ne
  · simp only [hnumber, hname, Option.map_some, hafter, hread]
    split
    · next heq => exact absurd heq hbehind.ne
    · rfl

theorem readAtom_argument {text start name inside rest : List Char} {expected : Expectation}
    (hstart : skipBlank text = start) (hnumber : number? start = none)
    (h : CallOpens start name inside)
    (hread : readArguments source fuel inside = .broken expected rest) :
    readAtom source (fuel + 1) text = .broken expected rest := by
  obtain ⟨c, more, rfl, hc⟩ := h.exists_head
  obtain ⟨after, hname, hafter⟩ := h
  simp only [readAtom, hstart]
  split
  · next heq => exact absurd heq (stops_of_isNameStart hc (Or.inl rfl) more).ne
  · next heq => exact absurd heq (stops_of_isNameStart hc (Or.inr rfl) more).ne
  · simp only [hnumber, hname, Option.map_some, hafter, hread]

theorem readAtom_uncalled {text start : List Char} (hstart : skipBlank text = start)
    (hgroup : Stops (· == '(') start) (hstring : Stops (· == '"') start)
    (hnumber : number? start = none) (hcall : ∀ name inside, ¬ CallOpens start name inside) :
    readAtom source (fuel + 1) text =
      match name? start with
      | some (name, rest) => .ok (ofName source start name) (skipBlank rest)
      | none => .miss start := by
  simp only [readAtom, hstart]
  split
  · exact absurd rfl hgroup.ne
  · exact absurd rfl hstring.ne
  · simp only [hnumber]
    split
    · next name inside hopens => exact absurd (callOpens_iff.1 hopens) (hcall name inside)
    · rfl

end

namespace Reader

mutual

/-- A chain of operands comes to this outcome. -/
inductive Chain (source : SourceText) : List Tier → List Char → Reading Expr → Prop
  | atom {text : List Char} {outcome : Reading Expr} (hatom : Atom source text outcome) :
      Chain source [] text outcome
  | links {tier : Tier} {tighter : List Tier} {text rest : List Char} {left : Expr}
      {outcome : Reading Expr} (hleft : Chain source tighter text (.ok left rest))
      (hlinks : Links source tier tighter left rest outcome) :
      Chain source (tier :: tighter) text outcome
  | miss {tier : Tier} {tighter : List Tier} {text rest : List Char}
      (hmiss : Chain source tighter text (.miss rest)) :
      Chain source (tier :: tighter) text (.miss rest)
  | broken {tier : Tier} {tighter : List Tier} {text rest : List Char} {expected : Expectation}
      (hbroken : Chain source tighter text (.broken expected rest)) :
      Chain source (tier :: tighter) text (.broken expected rest)

/-- The rest of a chain, behind the operands that make `left`. -/
inductive Links (source : SourceText) :
    Tier → List Tier → Expr → List Char → Reading Expr → Prop
  | done {tier : Tier} {tighter : List Tier} {left : Expr} {text : List Char}
      (hnone : operator? tier text = none) : Links source tier tighter left text (.ok left text)
  | link {tier : Tier} {tighter : List Tier} {left right : Expr} {op : Operator}
      {text behind rest : List Char} {outcome : Reading Expr}
      (hop : operator? tier text = some (op, behind))
      (hright : Chain source tighter behind (.ok right rest))
      (hmore : Links source tier tighter (.binary op left right (source.locate text)) rest
        outcome) :
      Links source tier tighter left text outcome
  | miss {tier : Tier} {tighter : List Tier} {left : Expr} {op : Operator}
      {text behind rest : List Char} (hop : operator? tier text = some (op, behind))
      (hmiss : Chain source tighter behind (.miss rest)) :
      Links source tier tighter left text (.broken .expression rest)
  | broken {tier : Tier} {tighter : List Tier} {left : Expr} {op : Operator}
      {text behind rest : List Char} {expected : Expectation}
      (hop : operator? tier text = some (op, behind))
      (hbroken : Chain source tighter behind (.broken expected rest)) :
      Links source tier tighter left text (.broken expected rest)

/-- An atom, with the separators around it. -/
inductive Atom (source : SourceText) : List Char → Reading Expr → Prop
  | group {text inside rest : List Char} {expr : Expr} (hstart : skipBlank text = '(' :: inside)
      (hinside : Chain source tiers inside (.ok expr (')' :: rest))) :
      Atom source text (.ok expr (skipBlank rest))
  | unclosed {text inside rest : List Char} {expr : Expr}
      (hstart : skipBlank text = '(' :: inside)
      (hinside : Chain source tiers inside (.ok expr rest)) (hrest : Stops (· == ')') rest) :
      Atom source text (.broken .closingParenthesis rest)
  | hollow {text inside rest : List Char} (hstart : skipBlank text = '(' :: inside)
      (hinside : Chain source tiers inside (.miss rest)) : Atom source text (.miss ('(' :: inside))
  | broken {text inside rest : List Char} {expected : Expectation}
      (hstart : skipBlank text = '(' :: inside)
      (hinside : Chain source tiers inside (.broken expected rest)) :
      Atom source text (.broken expected rest)
  | string {text inside body rest : List Char} (hstart : skipBlank text = '"' :: inside)
      (hbody : stringBody inside = (body, '"' :: rest)) :
      Atom source text (.ok (.literal (.string (String.ofList body))) (skipBlank rest))
  | unquoted {text inside body rest : List Char} (hstart : skipBlank text = '"' :: inside)
      (hbody : stringBody inside = (body, rest)) (hrest : Stops (· == '"') rest) :
      Atom source text (.broken .closingQuote rest)
  | number {text start rest : List Char} {value : Literal} (hstart : skipBlank text = start)
      (hnumber : number? start = some (value, rest)) :
      Atom source text (.ok (.literal value) (skipBlank rest))
  | call {text start name inside behind rest : List Char} {arguments : List Expr}
      (hstart : skipBlank text = start) (hnumber : number? start = none)
      (hopens : CallOpens start name inside)
      (hinside : Listing source inside (.ok arguments behind))
      (hbehind : skipBlank behind = ')' :: rest) :
      Atom source text
        (.ok (.call (String.ofList name) arguments (source.locate start)) (skipBlank rest))
  | uncalled {text start name inside behind : List Char} {arguments : List Expr}
      (hstart : skipBlank text = start) (hnumber : number? start = none)
      (hopens : CallOpens start name inside)
      (hinside : Listing source inside (.ok arguments behind))
      (hbehind : Stops (· == ')') (skipBlank behind)) :
      Atom source text (.broken .closingParenthesis (skipBlank behind))
  | argument {text start name inside rest : List Char} {expected : Expectation}
      (hstart : skipBlank text = start) (hnumber : number? start = none)
      (hopens : CallOpens start name inside)
      (hinside : Listing source inside (.broken expected rest)) :
      Atom source text (.broken expected rest)
  | name {text start name rest : List Char} (hstart : skipBlank text = start)
      (hnumber : number? start = none) (hcall : ∀ name inside, ¬ CallOpens start name inside)
      (hname : name? start = some (name, rest)) :
      Atom source text (.ok (ofName source start name) (skipBlank rest))
  | nothing {text start : List Char} (hstart : skipBlank text = start)
      (hgroup : Stops (· == '(') start) (hstring : Stops (· == '"') start)
      (hnumber : number? start = none) (hname : name? start = none) :
      Atom source text (.miss start)

/-- Arguments, or none.  This never misses. -/
inductive Listing (source : SourceText) : List Char → Reading (List Expr) → Prop
  | none {text rest : List Char} (hmiss : Chain source tiers text (.miss rest)) :
      Listing source text (.ok [] text)
  | some {text rest behind : List Char} {first : Expr} {others : List Expr}
      (hfirst : Chain source tiers text (.ok first rest))
      (hothers : More source rest (.ok others behind)) :
      Listing source text (.ok (first :: others) behind)
  | first {text rest : List Char} {expected : Expectation}
      (hbroken : Chain source tiers text (.broken expected rest)) :
      Listing source text (.broken expected rest)
  | others {text rest behind : List Char} {first : Expr} {expected : Expectation}
      (hfirst : Chain source tiers text (.ok first rest))
      (hbroken : More source rest (.broken expected behind)) :
      Listing source text (.broken expected behind)

/-- Further arguments.  A comma that no expression follows is left alone. -/
inductive More (source : SourceText) : List Char → Reading (List Expr) → Prop
  | done {text : List Char} (hcomma : Stops (· == ',') text) : More source text (.ok [] text)
  | lone {behind rest : List Char} (hmiss : Chain source tiers behind (.miss rest)) :
      More source (',' :: behind) (.ok [] (',' :: behind))
  | more {behind rest after : List Char} {next : Expr} {others : List Expr}
      (hnext : Chain source tiers behind (.ok next rest))
      (hothers : More source rest (.ok others after)) :
      More source (',' :: behind) (.ok (next :: others) after)
  | next {behind rest : List Char} {expected : Expectation}
      (hbroken : Chain source tiers behind (.broken expected rest)) :
      More source (',' :: behind) (.broken expected rest)
  | others {behind rest after : List Char} {next : Expr} {expected : Expectation}
      (hnext : Chain source tiers behind (.ok next rest))
      (hbroken : More source rest (.broken expected after)) :
      More source (',' :: behind) (.broken expected after)

end

variable {source : SourceText}

/-! ## What is left of the text -/

mutual

theorem Chain.suffix {tiers : List Tier} {text : List Char} {outcome : Reading Expr} :
    Chain source tiers text outcome → outcome.rest <:+ text
  | .atom hatom => hatom.suffix
  | .links hleft hlinks => hlinks.suffix.trans hleft.suffix
  | .miss hmiss => hmiss.suffix
  | .broken hbroken => hbroken.suffix

theorem Links.suffix {tier : Tier} {tighter : List Tier} {left : Expr} {text : List Char}
    {outcome : Reading Expr} : Links source tier tighter left text outcome → outcome.rest <:+ text
  | .done _ => List.suffix_refl _
  | .link hop hright hmore => hmore.suffix.trans (hright.suffix.trans (operator?_suffix hop))
  | .miss hop hmiss => hmiss.suffix.trans (operator?_suffix hop)
  | .broken hop hbroken => hbroken.suffix.trans (operator?_suffix hop)

theorem Atom.suffix {text : List Char} {outcome : Reading Expr} :
    Atom source text outcome → outcome.rest <:+ text
  | .group hstart hinside =>
      (skipBlank_suffix _).trans <| (List.suffix_cons _ _).trans <|
        hinside.suffix.trans (suffix_of_skipBlank hstart)
  | .unclosed hstart hinside _ => hinside.suffix.trans (suffix_of_skipBlank hstart)
  | .hollow hstart _ => hstart ▸ skipBlank_suffix text
  | .broken hstart hinside => hinside.suffix.trans (suffix_of_skipBlank hstart)
  | @Atom.string _ _ inside _ _ hstart hbody =>
      (skipBlank_suffix _).trans <| (List.suffix_cons _ _).trans <|
        (hbody ▸ stringBody_suffix inside).trans (suffix_of_skipBlank hstart)
  | @Atom.unquoted _ _ inside _ _ hstart hbody _ =>
      (hbody ▸ stringBody_suffix inside).trans (suffix_of_skipBlank hstart)
  | .number hstart hnumber =>
      (skipBlank_suffix _).trans <| (number?_suffix hnumber).trans (hstart ▸ skipBlank_suffix text)
  | .call hstart _ hopens hinside hbehind =>
      (skipBlank_suffix _).trans <| (suffix_of_skipBlank hbehind).trans <|
        hinside.suffix.trans <| hopens.suffix.trans (hstart ▸ skipBlank_suffix text)
  | .uncalled hstart _ hopens hinside _ =>
      (skipBlank_suffix _).trans <| hinside.suffix.trans <|
        hopens.suffix.trans (hstart ▸ skipBlank_suffix text)
  | .argument hstart _ hopens hinside =>
      hinside.suffix.trans <| hopens.suffix.trans (hstart ▸ skipBlank_suffix text)
  | .name hstart _ _ hname =>
      (skipBlank_suffix _).trans <| (name?_suffix hname).trans (hstart ▸ skipBlank_suffix text)
  | .nothing hstart _ _ _ _ => hstart ▸ skipBlank_suffix text

theorem Listing.suffix {text : List Char} {outcome : Reading (List Expr)} :
    Listing source text outcome → outcome.rest <:+ text
  | .none _ => List.suffix_refl _
  | .some hfirst hothers => hothers.suffix.trans hfirst.suffix
  | .first hbroken => hbroken.suffix
  | .others hfirst hbroken => hbroken.suffix.trans hfirst.suffix

theorem More.suffix {text : List Char} {outcome : Reading (List Expr)} :
    More source text outcome → outcome.rest <:+ text
  | .done _ => List.suffix_refl _
  | .lone _ => List.suffix_refl _
  | .more hnext hothers =>
      hothers.suffix.trans <| hnext.suffix.trans (List.suffix_cons _ _)
  | .next hbroken => hbroken.suffix.trans (List.suffix_cons _ _)
  | .others hnext hbroken =>
      hbroken.suffix.trans <| hnext.suffix.trans (List.suffix_cons _ _)

end

/-! ## The reader follows the rules -/

variable (source) in
/-- With so many steps the reader follows the rules. -/
structure FollowsAt (fuel : Nat) : Prop where
  chain : ∀ (tiers : List Tier) (text : List Char), 8 * text.length + 2 + tiers.length ≤ fuel →
    Chain source tiers text (readChain source fuel tiers text)
  links : ∀ (tier : Tier) (tighter : List Tier) (left : Expr) (text : List Char),
    8 * text.length + 2 + tighter.length ≤ fuel →
      Links source tier tighter left text (readLinks source fuel tier tighter left text)
  atom : ∀ (text : List Char), 8 * text.length + 1 ≤ fuel →
    Atom source text (readAtom source fuel text)
  listing : ∀ (text : List Char), 8 * text.length + 8 ≤ fuel →
    Listing source text (readArguments source fuel text)
  more : ∀ (text : List Char), 8 * text.length + 1 ≤ fuel →
    More source text (readMoreArguments source fuel text)

variable {fuel : Nat}

theorem FollowsAt.chain_succ (ih : FollowsAt source fuel) (tiers : List Tier) (text : List Char)
    (hfuel : 8 * text.length + 2 + tiers.length ≤ fuel + 1) :
    Chain source tiers text (readChain source (fuel + 1) tiers text) := by
  cases tiers with
  | nil =>
      rw [List.length_nil] at hfuel
      exact .atom (ih.atom _ (by omega))
  | cons tier tighter =>
      rw [List.length_cons] at hfuel
      have hfirst := ih.chain tighter text (by omega)
      rw [readChain]
      rcases hread : readChain source fuel tighter text with left | rest | expected
      · have hlt := ((soundAt source fuel).chain hread).length_lt
        rw [hread] at hfirst
        exact .links hfirst (ih.links _ _ _ _ (by omega))
      · rw [hread] at hfirst
        exact .miss hfirst
      · rw [hread] at hfirst
        exact .broken hfirst

theorem FollowsAt.links_succ (ih : FollowsAt source fuel) (tier : Tier) (tighter : List Tier)
    (left : Expr) (text : List Char)
    (hfuel : 8 * text.length + 2 + tighter.length ≤ fuel + 1) :
    Links source tier tighter left text (readLinks source (fuel + 1) tier tighter left text) := by
  rw [readLinks]
  rcases hop : operator? tier text with _ | ⟨op, behind⟩
  · exact .done hop
  · have hbehind := length_of_operator? hop
    have hright := ih.chain tighter behind (by omega)
    dsimp only
    rcases hread : readChain source fuel tighter behind with right | rest | expected
    · have hlt := ((soundAt source fuel).chain hread).length_lt
      rw [hread] at hright
      exact .link hop hright (ih.links _ _ _ _ (by omega))
    · rw [hread] at hright
      exact .miss hop hright
    · rw [hread] at hright
      exact .broken hop hright

theorem FollowsAt.atom_succ (ih : FollowsAt source fuel) (text : List Char)
    (hfuel : 8 * text.length + 1 ≤ fuel + 1) :
    Atom source text (readAtom source (fuel + 1) text) := by
  have hle := length_skipBlank_le text
  simp only [readAtom]
  generalize hstart : skipBlank text = start at hle
  split
  · next inside =>
    rw [List.length_cons] at hle
    have hinside := ih.chain tiers inside (by change _ + 2 + 5 ≤ _; omega)
    split
    · next expr rest hread =>
      rw [hread] at hinside
      exact .group hstart hinside
    · next expr rest hclosing hread =>
      rw [hread] at hinside
      exact .unclosed hstart hinside (stops_of_ne hclosing)
    · next rest hread =>
      rw [hread] at hinside
      exact .hollow hstart hinside
    · next expected rest hread =>
      rw [hread] at hinside
      exact .broken hstart hinside
  · next inside =>
    split
    · next body rest hbody => exact .string hstart hbody
    · next body rest hquote hbody =>
      exact .unquoted hstart hbody (stops_of_ne hquote)
  · next hgroup hstring =>
    split
    · next value rest hnumber => exact .number hstart hnumber
    · next hnumber =>
      split
      · next name inside hopens =>
        have hcall := callOpens_iff.1 hopens
        have hlt := hcall.length_lt
        have hinside := ih.listing inside (by omega)
        split
        · next arguments behind hread =>
          rw [hread] at hinside
          split
          · next rest hbehind => exact .call hstart hnumber hcall hinside hbehind
          · next rest hclosing =>
            exact .uncalled hstart hnumber hcall hinside (stops_of_ne hclosing)
        · next rest hread =>
          rw [hread] at hinside
          cases hinside
        · next expected rest hread =>
          rw [hread] at hinside
          exact .argument hstart hnumber hcall hinside
      · next hopens =>
        have hcall : ∀ name inside, ¬ CallOpens start name inside :=
          fun name inside hcall => hopens name inside (callOpens_iff.2 hcall)
        split
        · next name rest hname => exact .name hstart hnumber hcall hname
        · next hname =>
          exact .nothing hstart (stops_of_ne hgroup) (stops_of_ne hstring) hnumber hname

theorem FollowsAt.listing_succ (ih : FollowsAt source fuel) (text : List Char)
    (hfuel : 8 * text.length + 8 ≤ fuel + 1) :
    Listing source text (readArguments source (fuel + 1) text) := by
  have hfirst := ih.chain tiers text (by change _ + 2 + 5 ≤ _; omega)
  rw [readArguments]
  rcases hread : readChain source fuel tiers text with ⟨first, rest⟩ | rest | ⟨expected, rest⟩
  · have hlt := ((soundAt source fuel).chain hread).length_lt
    have hothers := ih.more rest (by omega)
    rw [hread] at hfirst
    dsimp only
    rcases hmore : readMoreArguments source fuel rest with
      ⟨others, behind⟩ | behind | ⟨expected, behind⟩
    · rw [hmore] at hothers
      exact .some hfirst hothers
    · rw [hmore] at hothers
      cases hothers
    · rw [hmore] at hothers
      exact .others hfirst hothers
  · rw [hread] at hfirst
    exact .none hfirst
  · rw [hread] at hfirst
    exact .first hfirst

theorem FollowsAt.more_succ (ih : FollowsAt source fuel) (text : List Char)
    (hfuel : 8 * text.length + 1 ≤ fuel + 1) :
    More source text (readMoreArguments source (fuel + 1) text) := by
  simp only [readMoreArguments]
  split
  · next behind =>
    rw [List.length_cons] at hfuel
    have hnext := ih.chain tiers behind (by change _ + 2 + 5 ≤ _; omega)
    rcases hread : readChain source fuel tiers behind with ⟨next, rest⟩ | rest | ⟨expected, rest⟩
    · have hlt := ((soundAt source fuel).chain hread).length_lt
      have hothers := ih.more rest (by omega)
      rw [hread] at hnext
      dsimp only
      rcases hmore : readMoreArguments source fuel rest with
        ⟨others, after⟩ | after | ⟨expected, after⟩
      · rw [hmore] at hothers
        exact .more hnext hothers
      · rw [hmore] at hothers
        cases hothers
      · rw [hmore] at hothers
        exact .others hnext hothers
    · rw [hread] at hnext
      exact .lone hnext
    · rw [hread] at hnext
      exact .next hnext
  · next hcomma => exact .done (stops_of_ne hcomma)

theorem followsAt (source : SourceText) (fuel : Nat) : FollowsAt source fuel := by
  induction fuel with
  | zero =>
      refine ⟨?_, ?_, ?_, ?_, ?_⟩ <;> intros <;> omega
  | succ fuel ih =>
      exact ⟨ih.chain_succ, ih.links_succ, ih.atom_succ, ih.listing_succ, ih.more_succ⟩

/-! ## The rules leave no choice -/

mutual

/-- With enough steps the reader comes to the outcome that the rules give. -/
theorem Chain.eq {tiers : List Tier} {text : List Char} {outcome : Reading Expr} :
    Chain source tiers text outcome → ∀ fuel, 8 * text.length + 2 + tiers.length ≤ fuel →
      readChain source fuel tiers text = outcome
  | .atom hatom, fuel, hfuel => by
      obtain ⟨steps, rfl⟩ : ∃ steps, fuel = steps + 2 := ⟨fuel - 2, by omega⟩
      rw [readChain]
      exact hatom.eq steps (by omega)
  | .links hleft hlinks, fuel, hfuel => by
      obtain ⟨steps, rfl⟩ : ∃ steps, fuel = steps + 1 := ⟨fuel - 1, by omega⟩
      rw [List.length_cons] at hfuel
      have hread := hleft.eq steps (by omega)
      have hlt := ((soundAt source steps).chain hread).length_lt
      rw [readChain, hread]
      exact hlinks.eq steps (by omega)
  | .miss hmiss, fuel, hfuel => by
      obtain ⟨steps, rfl⟩ : ∃ steps, fuel = steps + 1 := ⟨fuel - 1, by omega⟩
      rw [List.length_cons] at hfuel
      rw [readChain, hmiss.eq steps (by omega)]
  | .broken hbroken, fuel, hfuel => by
      obtain ⟨steps, rfl⟩ : ∃ steps, fuel = steps + 1 := ⟨fuel - 1, by omega⟩
      rw [List.length_cons] at hfuel
      rw [readChain, hbroken.eq steps (by omega)]

theorem Links.eq {tier : Tier} {tighter : List Tier} {left : Expr} {text : List Char}
    {outcome : Reading Expr} :
    Links source tier tighter left text outcome →
      ∀ fuel, 8 * text.length + 2 + tighter.length ≤ fuel →
        readLinks source fuel tier tighter left text = outcome
  | .done hnone, fuel, hfuel => by
      obtain ⟨steps, rfl⟩ : ∃ steps, fuel = steps + 1 := ⟨fuel - 1, by omega⟩
      rw [readLinks, hnone]
  | .link hop hright hmore, fuel, hfuel => by
      obtain ⟨steps, rfl⟩ : ∃ steps, fuel = steps + 1 := ⟨fuel - 1, by omega⟩
      have hbehind := length_of_operator? hop
      have hread := hright.eq steps (by omega)
      have hlt := ((soundAt source steps).chain hread).length_lt
      simp only [readLinks, hop, hread, Reading.committed]
      exact hmore.eq steps (by omega)
  | .miss hop hmiss, fuel, hfuel => by
      obtain ⟨steps, rfl⟩ : ∃ steps, fuel = steps + 1 := ⟨fuel - 1, by omega⟩
      have hbehind := length_of_operator? hop
      simp only [readLinks, hop, hmiss.eq steps (by omega), Reading.committed]
  | .broken hop hbroken, fuel, hfuel => by
      obtain ⟨steps, rfl⟩ : ∃ steps, fuel = steps + 1 := ⟨fuel - 1, by omega⟩
      have hbehind := length_of_operator? hop
      simp only [readLinks, hop, hbroken.eq steps (by omega), Reading.committed]

theorem Atom.eq {text : List Char} {outcome : Reading Expr} :
    Atom source text outcome → ∀ fuel, 8 * text.length ≤ fuel →
      readAtom source (fuel + 1) text = outcome
  | .group hstart hinside, fuel, hfuel => by
      have hlength := length_of_skipBlank hstart
      exact readAtom_group source hstart (hinside.eq fuel (by change _ + 2 + 5 ≤ _; omega))
  | .unclosed hstart hinside hrest, fuel, hfuel => by
      have hlength := length_of_skipBlank hstart
      have hread := hinside.eq fuel (by change _ + 2 + 5 ≤ _; omega)
      simp only [readAtom, hstart, hread]
      split
      · next heq => exact absurd (Reading.ok.inj heq).2 hrest.ne
      · next heq => rw [(Reading.ok.inj heq).2]
      · next heq => cases heq
      · next heq => cases heq
  | .hollow hstart hinside, fuel, hfuel => by
      have hlength := length_of_skipBlank hstart
      simp only [readAtom, hstart, hinside.eq fuel (by change _ + 2 + 5 ≤ _; omega)]
  | .broken hstart hinside, fuel, hfuel => by
      have hlength := length_of_skipBlank hstart
      simp only [readAtom, hstart, hinside.eq fuel (by change _ + 2 + 5 ≤ _; omega)]
  | .string hstart hbody, _, _ => readAtom_string source hstart hbody
  | .unquoted hstart hbody hrest, _, _ => by
      simp only [readAtom, hstart, hbody]
      split
      · next heq => exact absurd (Prod.mk.inj heq).2 hrest.ne
      · next heq => rw [(Prod.mk.inj heq).2]
  | .number hstart hnumber, _, _ => readAtom_number source hstart hnumber
  | .call hstart hnumber hopens hinside hbehind, fuel, hfuel => by
      have hlt := hopens.length_lt
      have hle := length_skipBlank_le text
      obtain ⟨after, hname, hafter⟩ := hopens
      rw [hstart] at hle
      obtain ⟨steps, rfl⟩ : ∃ steps, fuel = steps + 1 := ⟨fuel - 1, by omega⟩
      exact readAtom_call source hstart hnumber hname hafter (hinside.eq steps (by omega)) hbehind
  | .uncalled hstart hnumber hopens hinside hbehind, fuel, hfuel => by
      have hlt := hopens.length_lt
      have hle := length_skipBlank_le text
      rw [hstart] at hle
      obtain ⟨steps, rfl⟩ : ∃ steps, fuel = steps + 1 := ⟨fuel - 1, by omega⟩
      exact readAtom_unclosed source hstart hnumber hopens (hinside.eq steps (by omega)) hbehind
  | .argument hstart hnumber hopens hinside, fuel, hfuel => by
      have hlt := hopens.length_lt
      have hle := length_skipBlank_le text
      rw [hstart] at hle
      obtain ⟨steps, rfl⟩ : ∃ steps, fuel = steps + 1 := ⟨fuel - 1, by omega⟩
      exact readAtom_argument source hstart hnumber hopens (hinside.eq steps (by omega))
  | .name hstart hnumber hcall hname, _, _ => by
      obtain ⟨c, more, rfl, hc⟩ := exists_head_of_name? hname
      rw [readAtom_uncalled source hstart (stops_of_isNameStart hc (Or.inl rfl) more)
        (stops_of_isNameStart hc (Or.inr rfl) more) hnumber hcall, hname]
  | .nothing hstart hgroup hstring hnumber hname, _, _ => by
      rw [readAtom_uncalled source hstart hgroup hstring hnumber ?_, hname]
      intro name inside hopens
      obtain ⟨c, more, rfl, hc⟩ := hopens.exists_head
      exact name?_ne_none hc more hname

theorem Listing.eq {text : List Char} {outcome : Reading (List Expr)} :
    Listing source text outcome → ∀ fuel, 8 * text.length + 7 ≤ fuel →
      readArguments source (fuel + 1) text = outcome
  | .none hmiss, fuel, hfuel => by
      simp only [readArguments, hmiss.eq fuel (by change _ + 2 + 5 ≤ _; omega)]
  | .some hfirst hothers, fuel, hfuel => by
      have hread := hfirst.eq fuel (by change _ + 2 + 5 ≤ _; omega)
      have hlt := ((soundAt source fuel).chain hread).length_lt
      obtain ⟨steps, rfl⟩ : ∃ steps, fuel = steps + 1 := ⟨fuel - 1, by omega⟩
      simp only [readArguments, hread, hothers.eq steps (by omega)]
  | .first hbroken, fuel, hfuel => by
      simp only [readArguments, hbroken.eq fuel (by change _ + 2 + 5 ≤ _; omega)]
  | .others hfirst hbroken, fuel, hfuel => by
      have hread := hfirst.eq fuel (by change _ + 2 + 5 ≤ _; omega)
      have hlt := ((soundAt source fuel).chain hread).length_lt
      obtain ⟨steps, rfl⟩ : ∃ steps, fuel = steps + 1 := ⟨fuel - 1, by omega⟩
      simp only [readArguments, hread, hbroken.eq steps (by omega)]

theorem More.eq {text : List Char} {outcome : Reading (List Expr)} :
    More source text outcome → ∀ fuel, 8 * text.length ≤ fuel →
      readMoreArguments source (fuel + 1) text = outcome
  | .done hcomma, fuel, hfuel => by
      simp only [readMoreArguments]
      split
      · exact absurd rfl hcomma.ne
      · rfl
  | .lone hmiss, fuel, hfuel => by
      rw [List.length_cons] at hfuel
      simp only [readMoreArguments, hmiss.eq fuel (by change _ + 2 + 5 ≤ _; omega)]
  | .more hnext hothers, fuel, hfuel => by
      rw [List.length_cons] at hfuel
      have hread := hnext.eq fuel (by change _ + 2 + 5 ≤ _; omega)
      have hlt := ((soundAt source fuel).chain hread).length_lt
      obtain ⟨steps, rfl⟩ : ∃ steps, fuel = steps + 1 := ⟨fuel - 1, by omega⟩
      rw [readMoreArguments]
      simp only [hread, hothers.eq steps (by omega)]
  | .next hbroken, fuel, hfuel => by
      rw [List.length_cons] at hfuel
      simp only [readMoreArguments, hbroken.eq fuel (by change _ + 2 + 5 ≤ _; omega)]
  | .others hnext hbroken, fuel, hfuel => by
      rw [List.length_cons] at hfuel
      have hread := hnext.eq fuel (by change _ + 2 + 5 ≤ _; omega)
      have hlt := ((soundAt source fuel).chain hread).length_lt
      obtain ⟨steps, rfl⟩ : ∃ steps, fuel = steps + 1 := ⟨fuel - 1, by omega⟩
      rw [readMoreArguments]
      simp only [hread, hbroken.eq steps (by omega)]

end

/-- The reader follows the rules on all of a text. -/
theorem chain_readChain (source : SourceText) :
    Chain source tiers source.chars
      (readChain source (readingSteps source.chars) tiers source.chars) :=
  (followsAt source _).chain _ _ (by change _ + 2 + 5 ≤ _; rw [readingSteps]; omega)

/-- There is no other outcome by the rules. -/
theorem Chain.readChain_eq {outcome : Reading Expr}
    (h : Chain source tiers source.chars outcome) :
    readChain source (readingSteps source.chars) tiers source.chars = outcome :=
  h.eq _ (by change _ + 2 + 5 ≤ _; rw [readingSteps]; omega)

theorem Chain.unique {outcome other : Reading Expr} (h : Chain source tiers source.chars outcome)
    (hother : Chain source tiers source.chars other) : outcome = other :=
  h.readChain_eq.symm.trans hother.readChain_eq

/-- A text is read when by the rules nothing is left of it. -/
theorem read_eq_ok_iff {text file : String} {expr : Expr} :
    Expr.read text file = .ok expr ↔
      Chain ⟨file, text.toList⟩ tiers text.toList (.ok expr []) := by
  constructor
  · intro h
    have hchain := chain_readChain ⟨file, text.toList⟩
    simp only [Expr.read] at h
    split at h
    · next hread =>
      obtain rfl := Except.ok.inj h
      rwa [hread] at hchain
    · simp at h
    · simp at h
    · simp at h
  · intro h
    have hread := h.readChain_eq
    simp only [Expr.read, hread]

/-! ## The rules and the grammar -/

theorem Chain.derives {tiers : List Tier} {text rest : List Char} {expr : Expr}
    (h : Chain source tiers text (.ok expr rest)) : Derives tiers text rest expr.bare :=
  (soundAt source _).chain (h.eq _ (Nat.le_refl _))

theorem Listing.arguments {text rest : List Char} {exprs : List Expr}
    (h : Listing source text (.ok exprs rest)) : Arguments text rest (bareAll exprs) :=
  (soundAt source _).arguments (h.eq _ (Nat.le_refl _))

end Reader

end Grammar

end Switchboard
