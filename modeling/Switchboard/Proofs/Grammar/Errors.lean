import Switchboard.Proofs.Grammar.Locations
import Switchboard.Proofs.Grammar.Truncation

/-!
Where an error points.

What the reader has used up when it gives up can always be completed: a missing operand is put in,
an open string or group is closed.  And only when the error is about trailing input is nothing
missing.
-/

namespace Switchboard

namespace Grammar

open Switchboard.Expr

/-! ## What follows an expression can be exchanged -/

theorem isBlank_nil : IsBlank [] := by
  simp [IsBlank]

theorem nameEnds_nil : NameEnds [] :=
  stops_nil _

theorem nameEnds_append {after rest : List Char} (hafter : IsBlank after) (hrest : NameEnds rest) :
    NameEnds (after ++ rest) := by
  cases after with
  | nil => exact hrest
  | cons c after =>
      refine stops_cons.2 ?_
      rcases hafter c List.mem_cons_self with rfl | rfl | rfl | rfl <;> decide

theorem nameEnds_symbol (op : Operator) (behind : List Char) :
    NameEnds (op.symbol.toList ++ behind) := by
  obtain ⟨c, more, hsymbol, hprolongs, -⟩ := symbol_eq_cons op
  rw [hsymbol]
  exact nameEnds_of_stops (stops_cons.2 hprolongs)

theorem nameEnds_cons {c : Char} (hc : prolongs c = false) (rest : List Char) :
    NameEnds (c :: rest) :=
  nameEnds_of_stops (stops_cons.2 hc)

mutual

/-- An expression is derived whatever stands behind it, unless that goes on with its last name. -/
theorem Derives.exchange {tiers : List (List Operator)} {text rest : List Char} {tree : Tree} :
    Derives tiers text rest tree → ∃ word, text = word ++ rest ∧
      ∀ other, NameEnds other → Derives tiers (word ++ other) other tree
  | @Derives.atom before _ _ after _ _ hbefore hprimary hafter hbehind => by
      obtain ⟨word, rfl, hword⟩ := hprimary.exchange
      refine ⟨before ++ word ++ after, by rw [hbehind]; simp, fun other hother => ?_⟩
      have hderives := Derives.atom hbefore (hword _ (nameEnds_append hafter hother)) hafter rfl
      simpa using hderives
  | .operand h => by
      obtain ⟨word, htext, hword⟩ := h.exchange
      exact ⟨word, htext, fun other hother => .operand (hword other hother)⟩
  | @Derives.link _ _ op _ _ _ _ _ hop hleft hright => by
      obtain ⟨before, rfl, hbefore⟩ := hleft.exchange
      obtain ⟨word, rfl, hword⟩ := hright.exchange
      refine ⟨before ++ (op.symbol.toList ++ word), by simp, fun other hother => ?_⟩
      have hfirst := hbefore _ (nameEnds_symbol op (word ++ other))
      have hderives := Derives.link hop hfirst (hword other hother)
      simpa using hderives

theorem Primary.exchange {text rest : List Char} {tree : Tree} :
    Primary text rest tree → ∃ word, text = word ++ rest ∧
      ∀ other, NameEnds other → Primary (word ++ other) other tree
  | .group h => by
      obtain ⟨word, rfl, hword⟩ := h.exchange
      refine ⟨'(' :: word ++ [')'], by simp, fun other _ => ?_⟩
      have hprimary := Primary.group (hword _ (nameEnds_cons (by decide) other))
      simpa using hprimary
  | .float hword => ⟨_, rfl, fun _ _ => .float hword⟩
  | .integer hword => ⟨_, rfl, fun _ _ => .integer hword⟩
  | @Primary.string word _ _ hword => by
      refine ⟨'"' :: word ++ ['"'], by simp, fun other _ => ?_⟩
      have hprimary : Primary ('"' :: word ++ '"' :: other) other _ := .string hword
      simpa using hprimary
  | @Primary.call name before _ _ after _ _ hname hbefore harguments hafter hbehind => by
      obtain ⟨word, rfl, hword⟩ := harguments.exchange
      refine ⟨name ++ before ++ '(' :: word ++ after ++ [')'], by rw [hbehind]; simp,
        fun other _ => ?_⟩
      have hclosing := nameEnds_append hafter (nameEnds_cons (c := ')') (by decide) other)
      have hprimary := Primary.call hname hbefore (hword _ hclosing) hafter rfl
      simpa using hprimary
  | .name hname _ => ⟨_, rfl, fun _ hother => .name hname hother⟩

theorem Arguments.exchange {text rest : List Char} {trees : List Tree} :
    Arguments text rest trees → ∃ word, text = word ++ rest ∧
      ∀ other, NameEnds other → Arguments (word ++ other) other trees
  | .none => ⟨[], rfl, fun _ _ => .none⟩
  | .some h => by
      obtain ⟨word, htext, hword⟩ := h.exchange
      exact ⟨word, htext, fun other hother => .some (hword other hother)⟩

theorem Items.exchange {text rest : List Char} {first : Tree} {others : List Tree} :
    Items text rest first others → ∃ word, text = word ++ rest ∧
      ∀ other, NameEnds other → Items (word ++ other) other first others
  | .one h => by
      obtain ⟨word, htext, hword⟩ := h.exchange
      exact ⟨word, htext, fun other hother => .one (hword other hother)⟩
  | .more hfirst hothers => by
      obtain ⟨before, rfl, hbefore⟩ := hfirst.exchange
      obtain ⟨word, rfl, hword⟩ := hothers.exchange
      refine ⟨before ++ ',' :: word, by simp, fun other hother => ?_⟩
      have hitems := Items.more (hbefore _ (nameEnds_cons (by decide) (word ++ other)))
        (hword other hother)
      simpa using hitems

end

/-! ## What was used up can be completed -/

/-- All of the text is an expression of these levels. -/
def Derivable (tiers : List (List Operator)) (text : List Char) : Prop :=
  ∃ tree, Derives tiers text [] tree

/-- All of the text is a list of arguments and separators behind it. -/
def Listable (text : List Char) : Prop :=
  ∃ trees blank, IsBlank blank ∧ Arguments text blank trees

/-- All of the text is a list of at least one argument. -/
def Itemizable (text : List Char) : Prop :=
  ∃ first others, Items text [] first others

/-- What stands between the places `text` and `rest` can be completed to something of this kind. -/
def Completable (kind : List Char → Prop) (text rest : List Char) : Prop :=
  ∃ word more, text = word ++ rest ∧ kind (word ++ more)

theorem Completable.imp {kind other : List Char → Prop} {text rest : List Char}
    (h : Completable kind text rest) (himp : ∀ text, kind text → other text) :
    Completable other text rest := by
  obtain ⟨word, more, htext, hkind⟩ := h
  exact ⟨word, more, htext, himp _ hkind⟩

theorem Derives.completable {tiers : List (List Operator)} {text rest : List Char} {tree : Tree}
    (h : Derives tiers text rest tree) : Completable (Derivable tiers) text rest := by
  obtain ⟨word, htext, hword⟩ := h.exchange
  exact ⟨word, [], htext, tree, hword [] nameEnds_nil⟩

theorem Arguments.completable {text rest : List Char} {trees : List Tree}
    (h : Arguments text rest trees) : Completable Listable text (skipBlank rest) := by
  obtain ⟨word, htext, hword⟩ := h.exchange
  obtain ⟨blank, hblank, hrest⟩ := exists_skipBlank rest
  have harguments := hword (blank ++ []) (nameEnds_append hblank nameEnds_nil)
  rw [List.append_nil] at harguments
  refine ⟨word ++ blank, [], by rw [htext, List.append_assoc, ← hrest], trees, blank, hblank, ?_⟩
  rwa [List.append_nil]

theorem derivable_zero {blank : List Char} (hblank : IsBlank blank)
    (tiers : List (List Operator)) : Derivable tiers (blank ++ ['0']) := by
  have hdigits : IsDigits ['0'] := by
    refine ⟨by simp, ?_⟩
    intro c hc
    rw [List.mem_singleton.1 hc]
    decide
  induction tiers with
  | nil =>
      have hprimary : Primary (sign false ++ ['0'] ++ []) [] _ :=
        .integer (.intro false hdigits (by decide) (by decide))
      exact ⟨_, .atom hblank hprimary isBlank_nil rfl⟩
  | cons tier tighter ih =>
      obtain ⟨tree, hderives⟩ := ih
      exact ⟨tree, .operand hderives⟩

/-- Where an operand is missing, any number will do. -/
theorem completable_blank (text : List Char) (tiers : List (List Operator)) :
    Completable (Derivable tiers) text (skipBlank text) := by
  obtain ⟨blank, hblank, htext⟩ := exists_skipBlank text
  exact ⟨blank, ['0'], htext, derivable_zero hblank tiers⟩

theorem completable_link {level : List Operator} {tighter : List (List Operator)} {op : Operator}
    {start behind rest : List Char} {left : Tree} (hop : op ∈ level)
    (hleft : Derives (level :: tighter) start (op.symbol.toList ++ behind) left)
    (hright : Completable (Derivable tighter) behind rest) :
    Completable (Derivable (level :: tighter)) start rest := by
  obtain ⟨before, rfl, hbefore⟩ := hleft.exchange
  obtain ⟨word, more, rfl, tree, hderives⟩ := hright
  refine ⟨before ++ (op.symbol.toList ++ word), more, by simp, .binary op left tree, ?_⟩
  have hlink := Derives.link hop (hbefore _ (nameEnds_symbol op (word ++ more))) hderives
  simpa using hlink

theorem completable_more {start behind rest : List Char} {first : Tree}
    (hfirst : Derives levels start (',' :: behind) first)
    (hothers : Completable Itemizable behind rest) : Completable Itemizable start rest := by
  obtain ⟨before, rfl, hbefore⟩ := hfirst.exchange
  obtain ⟨word, more, rfl, next, others, hitems⟩ := hothers
  refine ⟨before ++ ',' :: word, more, by simp, first, next :: others, ?_⟩
  have hmore := Items.more (hbefore _ (nameEnds_cons (by decide) (word ++ more))) hitems
  simpa using hmore

/-- What stands behind separators is completed with what is an atom. -/
theorem completable_primary {text start word more rest : List Char} {tree : Tree}
    (htext : skipBlank text = start) (hstart : start = word ++ rest)
    (hprimary : Primary (word ++ more) [] tree) : Completable (Derivable []) text rest := by
  obtain ⟨blank, hblank, hsplit⟩ := exists_skipBlank text
  refine ⟨blank ++ word, more, by rw [hsplit, htext, hstart]; simp, tree, ?_⟩
  have hderives := Derives.atom hblank hprimary isBlank_nil rfl
  simpa using hderives

theorem completable_group {text inside rest : List Char} (hstart : skipBlank text = '(' :: inside)
    (hinside : Completable (Derivable levels) inside rest) :
    Completable (Derivable []) text rest := by
  obtain ⟨word, more, hword, tree, hderives⟩ := hinside
  obtain ⟨whole, hwhole, hexchange⟩ := hderives.exchange
  rw [List.append_nil] at hwhole
  have hclosed := Primary.group (hexchange [')'] (nameEnds_cons (by decide) []))
  rw [← hwhole, List.append_assoc, ← List.cons_append] at hclosed
  exact completable_primary hstart (by rw [hword]; rfl) hclosed

theorem completable_string {text inside body rest : List Char}
    (hstart : skipBlank text = '"' :: inside) (hbody : stringBody inside = (body, rest)) :
    Completable (Derivable []) text rest := by
  obtain ⟨word, hword, hinside⟩ := stringBody_sound inside
  rw [hbody] at hword hinside
  have hclosed : Primary ('"' :: word ++ ['"']) [] _ := .string hword
  exact completable_primary hstart (by rw [hinside]; rfl) hclosed

theorem completable_call {text start name inside rest : List Char}
    (hstart : skipBlank text = start) (hopens : CallOpens start name inside)
    (hinside : Completable Listable inside rest) : Completable (Derivable []) text rest := by
  obtain ⟨after, hname, hafter⟩ := hopens
  obtain ⟨hqualified, rfl⟩ := qualifiedName?_sound hname
  obtain ⟨blank, hblank, hbehind⟩ := exists_skipBlank after
  obtain ⟨word, more, rfl, trees, last, hlast, harguments⟩ := hinside
  obtain ⟨whole, hwhole, hexchange⟩ := harguments.exchange
  have hends := nameEnds_append hlast (nameEnds_cons (c := ')') (by decide) [])
  have hclosed := Primary.call hqualified hblank (hexchange _ hends) hlast rfl
  have hword : name ++ blank ++ '(' :: (whole ++ (last ++ [')'])) =
      (name ++ blank ++ '(' :: word) ++ (more ++ [')']) := by
    rw [← List.append_assoc whole, ← hwhole]
    simp
  rw [hword] at hclosed
  exact completable_primary hstart (by rw [hbehind, hafter]; simp) hclosed

namespace Reader

variable {source : SourceText}

mutual

/-- Where an expression breaks, something else than the end of the text was wanted, and what was
used up can be completed. -/
theorem Chain.completable {tiers : List Tier} {text : List Char} {outcome : Reading Expr} :
    Chain source tiers text outcome → ∀ expected rest, outcome = .broken expected rest →
      expected ≠ .endOfInput ∧ Completable (Derivable tiers) text rest
  | .atom hatom, expected, rest, hbad => hatom.completable expected rest hbad
  | .links hleft hlinks, expected, rest, hbad =>
      hlinks.completable text expected rest (.operand hleft.derives) hbad
  | .broken hbroken, expected, rest, hbad => by
      obtain ⟨rfl, rfl⟩ := Reading.broken.inj hbad
      obtain ⟨hwanted, hbegun⟩ := hbroken.completable _ _ rfl
      exact ⟨hwanted, hbegun.imp fun _ ⟨tree, hderives⟩ => ⟨tree, .operand hderives⟩⟩
  | .miss _, _, _, hbad => by cases hbad

theorem Links.completable {tier : Tier} {tighter : List Tier} {left : Expr} {text : List Char}
    {outcome : Reading Expr} :
    Links source tier tighter left text outcome →
      ∀ start expected rest, Derives (tier :: tighter) start text left.bare →
        outcome = .broken expected rest →
        expected ≠ .endOfInput ∧ Completable (Derivable (tier :: tighter)) start rest
  | .link hop hright hmore, start, expected, rest, hleft, hbad => by
      obtain ⟨hmem, htext⟩ := operator?_sound hop
      rw [htext] at hleft
      exact hmore.completable start expected rest (.link hmem hleft hright.derives) hbad
  | .miss hop hmiss, start, expected, rest, hleft, hbad => by
      obtain ⟨rfl, rfl⟩ := Reading.broken.inj hbad
      obtain ⟨hmem, htext⟩ := operator?_sound hop
      rw [htext] at hleft
      refine ⟨by decide, completable_link hmem hleft ?_⟩
      rw [hmiss.rest_of_miss _ rfl]
      exact completable_blank _ _
  | .broken hop hbroken, start, expected, rest, hleft, hbad => by
      obtain ⟨rfl, rfl⟩ := Reading.broken.inj hbad
      obtain ⟨hmem, htext⟩ := operator?_sound hop
      rw [htext] at hleft
      obtain ⟨hwanted, hbegun⟩ := hbroken.completable _ _ rfl
      exact ⟨hwanted, completable_link hmem hleft hbegun⟩
  | .done _, _, _, _, _, hbad => by cases hbad

theorem Atom.completable {text : List Char} {outcome : Reading Expr} :
    Atom source text outcome → ∀ expected rest, outcome = .broken expected rest →
      expected ≠ .endOfInput ∧ Completable (Derivable []) text rest
  | .unclosed hstart hinside _, expected, rest, hbad => by
      obtain ⟨rfl, rfl⟩ := Reading.broken.inj hbad
      exact ⟨by decide, completable_group hstart hinside.derives.completable⟩
  | .broken hstart hinside, expected, rest, hbad => by
      obtain ⟨hwanted, hbegun⟩ := hinside.completable expected rest hbad
      exact ⟨hwanted, completable_group hstart hbegun⟩
  | .unquoted hstart hbody _, expected, rest, hbad => by
      obtain ⟨rfl, rfl⟩ := Reading.broken.inj hbad
      exact ⟨by decide, completable_string hstart hbody⟩
  | .uncalled hstart _ hopens hinside _, expected, rest, hbad => by
      obtain ⟨rfl, rfl⟩ := Reading.broken.inj hbad
      exact ⟨by decide, completable_call hstart hopens hinside.arguments.completable⟩
  | .argument hstart _ hopens hinside, expected, rest, hbad => by
      obtain ⟨rfl, rfl⟩ := Reading.broken.inj hbad
      obtain ⟨hwanted, hbegun⟩ := hinside.completable _ _ rfl
      exact ⟨hwanted, completable_call hstart hopens hbegun⟩
  | .group _ _, _, _, hbad => by cases hbad
  | .hollow _ _, _, _, hbad => by cases hbad
  | .string _ _, _, _, hbad => by cases hbad
  | .number _ _, _, _, hbad => by cases hbad
  | .call _ _ _ _ _, _, _, hbad => by cases hbad
  | .name _ _ _ _, _, _, hbad => by cases hbad
  | .nothing _ _ _ _ _, _, _, hbad => by cases hbad

theorem Listing.completable {text : List Char} {outcome : Reading (List Expr)} :
    Listing source text outcome → ∀ expected rest, outcome = .broken expected rest →
      expected ≠ .endOfInput ∧ Completable Listable text rest
  | .first hbroken, expected, rest, hbad => by
      obtain ⟨rfl, rfl⟩ := Reading.broken.inj hbad
      obtain ⟨hwanted, hbegun⟩ := hbroken.completable _ _ rfl
      exact ⟨hwanted, hbegun.imp fun _ ⟨tree, hderives⟩ =>
        ⟨[tree], [], isBlank_nil, .some (.one hderives)⟩⟩
  | .others hfirst hbroken, expected, rest, hbad => by
      obtain ⟨rfl, rfl⟩ := Reading.broken.inj hbad
      obtain ⟨hwanted, hbegun⟩ := hbroken.completable text _ _ _ hfirst.derives rfl
      exact ⟨hwanted, hbegun.imp fun _ ⟨first, others, hitems⟩ =>
        ⟨first :: others, [], isBlank_nil, .some hitems⟩⟩
  | .none _, _, _, hbad => by cases hbad
  | .some _ _, _, _, hbad => by cases hbad

theorem More.completable {text : List Char} {outcome : Reading (List Expr)} :
    More source text outcome →
      ∀ start expected rest first, Derives levels start text first →
        outcome = .broken expected rest →
        expected ≠ .endOfInput ∧ Completable Itemizable start rest
  | .next hbroken, start, expected, rest, first, hfirst, hbad => by
      obtain ⟨rfl, rfl⟩ := Reading.broken.inj hbad
      obtain ⟨hwanted, hbegun⟩ := hbroken.completable _ _ rfl
      exact ⟨hwanted, completable_more hfirst
        (hbegun.imp fun _ ⟨tree, hderives⟩ => ⟨tree, [], .one hderives⟩)⟩
  | .others hnext hbroken, start, expected, rest, first, hfirst, hbad => by
      obtain ⟨rfl, rfl⟩ := Reading.broken.inj hbad
      obtain ⟨hwanted, hbegun⟩ := hbroken.completable _ _ _ _ hnext.derives rfl
      exact ⟨hwanted, completable_more hfirst hbegun⟩
  | .done _, _, _, _, _, _, hbad => by cases hbad
  | .lone _, _, _, _, _, _, hbad => by cases hbad
  | .more _ _, _, _, _, _, _, hbad => by cases hbad

end

end Reader

/-! ## Errors -/

/-- An error points at this offset of a text: behind what can be completed to an expression.  It is
about trailing input exactly when that is an expression already, and then it is the one that the
reader had built. -/
structure PointsAt (text file : String) (error : ReadError) (offset : Nat) : Prop where
  inside : offset ≤ text.length
  place : (error.line, error.column) = position (text.toList.take offset)
  viable : ∃ more expr,
    Expr.read (String.ofList (text.toList.take offset ++ more)) file = .ok expr
  trailing : error.message = "unexpected trailing input" ↔
    ∃ expr, Expr.read (String.ofList (text.toList.take offset)) file = .ok expr
  built : ∀ expr, Expr.read (String.ofList (text.toList.take offset)) file = .ok expr →
    readChain ⟨file, text.toList⟩ (readingSteps text.toList) tiers text.toList =
      .ok expr (text.toList.drop offset)
  wording : error.message ≠ "unexpected trailing input" →
    error.message ∈
      ["expected expression", "expected closing parenthesis", "expected closing quote"]

theorem message_eq_trailing_iff {error : ReadError} :
    error.message = "unexpected trailing input" ↔ error.expected = .endOfInput := by
  rw [ReadError.message]
  cases error.expected <;> decide

theorem message_mem_of_ne {error : ReadError} (h : error.message ≠ "unexpected trailing input") :
    error.message ∈
      ["expected expression", "expected closing parenthesis", "expected closing quote"] := by
  revert h
  rw [ReadError.message]
  cases error.expected <;> decide

theorem position_before (file : String) (kept rest : List Char) :
    (SourceText.lineAt ⟨file, kept ++ rest⟩ rest, SourceText.columnAt ⟨file, kept ++ rest⟩ rest) =
      position kept := by
  have hbefore : SourceText.before ⟨file, kept ++ rest⟩ rest = kept := by
    simp [SourceText.before]
  rw [position_eq, SourceText.lineAt, SourceText.columnAt, hbefore]

variable {text file : String} {error : ReadError}

/-- What the reader came to when it was not all of the text. -/
theorem exists_chain_of_error (h : Expr.read text file = .error error) :
    ∃ rest, (error.line, error.column) = (SourceText.lineAt ⟨file, text.toList⟩ rest,
        SourceText.columnAt ⟨file, text.toList⟩ rest) ∧
      ((∃ expr, error.expected = .endOfInput ∧
          Reader.Chain ⟨file, text.toList⟩ tiers text.toList (.ok expr rest)) ∨
        (error.expected = .expression ∧
          Reader.Chain ⟨file, text.toList⟩ tiers text.toList (.miss rest)) ∨
        Reader.Chain ⟨file, text.toList⟩ tiers text.toList (.broken error.expected rest)) := by
  have hchain := Reader.chain_readChain ⟨file, text.toList⟩
  simp only [Expr.read] at h
  split at h
  · simp at h
  · next expr rest _ hread =>
    obtain rfl := Except.error.inj h
    rw [hread] at hchain
    exact ⟨rest, rfl, Or.inl ⟨expr, rfl, hchain⟩⟩
  · next rest hread =>
    obtain rfl := Except.error.inj h
    rw [hread] at hchain
    exact ⟨rest, rfl, Or.inr (Or.inl ⟨rfl, hchain⟩)⟩
  · next expected rest hread =>
    obtain rfl := Except.error.inj h
    rw [hread] at hchain
    exact ⟨rest, rfl, Or.inr (Or.inr hchain)⟩

theorem read_ofList_iff {kept : List Char} {expr : Expr} :
    Expr.read (String.ofList kept) file = .ok expr ↔
      Reader.Chain ⟨file, kept⟩ tiers kept (.ok expr []) := by
  rw [Reader.read_eq_ok_iff, String.toList_ofList]

theorem exists_read_of_derivable {kept : List Char} (file : String) (h : Derivable levels kept) :
    ∃ expr, Expr.read (String.ofList kept) file = .ok expr := by
  obtain ⟨tree, hderives⟩ := h
  have hexpression : Expression (String.ofList kept).toList tree := by
    rw [String.toList_ofList]
    exact hderives
  obtain ⟨expr, hread, -⟩ := exists_read_of_expression file hexpression
  exact ⟨expr, hread⟩

/-- Behind an expression that was read there is only trailing input. -/
theorem pointsAt_of_ok {kept rest : List Char} {expr : Expr} (htext : text.toList = kept ++ rest)
    (hplace : (error.line, error.column) = position kept) (hexpected : error.expected = .endOfInput)
    (hchain : Reader.Chain ⟨file, text.toList⟩ tiers text.toList (.ok expr rest)) :
    PointsAt text file error kept.length := by
  have hfull := hchain.readChain_eq
  rw [htext] at hchain
  have hkept := hchain.keeps kept expr [] rfl rfl
  have hread := read_ofList_iff.2 hkept
  have htake : text.toList.take kept.length = kept := by rw [htext, List.take_left]
  have hdrop : text.toList.drop kept.length = rest := by rw [htext, List.drop_left]
  have hlength := congrArg List.length htext
  rw [String.length_toList, List.length_append] at hlength
  refine ⟨by omega, by rw [htake, hplace], ?_, ?_, ?_, message_mem_of_ne⟩
  · exact ⟨[], expr, by rwa [htake, List.append_nil]⟩
  · rw [htake]
    exact ⟨fun _ => ⟨expr, hread⟩, fun _ => message_eq_trailing_iff.2 hexpected⟩
  · rw [htake, hdrop]
    intro other hother
    obtain rfl := Except.ok.inj (hread.symm.trans hother)
    exact hfull

/-- Where the reader gave up, the text before is no expression yet. -/
theorem pointsAt_of_failed {kept rest : List Char} {outcome : Reading Expr}
    (htext : text.toList = kept ++ rest) (hplace : (error.line, error.column) = position kept)
    (hexpected : error.expected ≠ .endOfInput)
    (hbegun : Completable (Derivable levels) text.toList rest)
    (hkept : Reader.Chain ⟨file, kept⟩ tiers kept outcome)
    (hfailed : ∀ expr rest, outcome ≠ .ok expr rest) : PointsAt text file error kept.length := by
  have hunread (expr : Expr) : Expr.read (String.ofList kept) file ≠ .ok expr := fun hread =>
    hfailed expr [] (hkept.unique (read_ofList_iff.1 hread))
  have htake : text.toList.take kept.length = kept := by rw [htext, List.take_left]
  have hlength := congrArg List.length htext
  rw [String.length_toList, List.length_append] at hlength
  refine ⟨by omega, by rw [htake, hplace], ?_, ?_, ?_, message_mem_of_ne⟩
  · obtain ⟨word, more, hword, hderivable⟩ := hbegun
    obtain rfl : kept = word := List.append_cancel_right (htext.symm.trans hword)
    rw [htake]
    exact ⟨more, exists_read_of_derivable file hderivable⟩
  · rw [htake, message_eq_trailing_iff]
    exact ⟨fun htrailing => absurd htrailing hexpected,
      fun ⟨expr, hread⟩ => absurd hread (hunread expr)⟩
  · rw [htake]
    exact fun expr hread => absurd hread (hunread expr)

/-- An error points behind a beginning of the text that can be completed to an expression, and is
about trailing input exactly when nothing is missing there. -/
theorem errors_point_at_viable_prefix (h : Expr.read text file = .error error) :
    ∃ offset, PointsAt text file error offset := by
  obtain ⟨rest, hplace, hcases⟩ := exists_chain_of_error h
  have hsuffix : rest <:+ text.toList := by
    rcases hcases with ⟨expr, -, hchain⟩ | ⟨-, hchain⟩ | hchain
    · exact hchain.suffix
    · exact hchain.suffix
    · exact hchain.suffix
  -- all that is said about the offset is said about the text kept before it
  obtain ⟨kept, hkept⟩ := hsuffix
  have htext := hkept.symm
  rw [htext, position_before] at hplace
  refine ⟨kept.length, ?_⟩
  rcases hcases with ⟨expr, hexpected, hchain⟩ | ⟨hexpected, hchain⟩ | hchain
  · exact pointsAt_of_ok htext hplace hexpected hchain
  · obtain rfl := hchain.rest_of_miss rest rfl
    have hall : skipBlank (kept ++ skipBlank text.toList) = [] ++ skipBlank text.toList := by
      rw [hkept, List.nil_append]
    have hblank : skipBlank kept = [] := skipBlank_cut hall
    exact pointsAt_of_failed htext hplace (by rw [hexpected]; decide) (completable_blank _ _)
      (.miss_of_closes (closes_of_blank hblank) _) (by simp)
  · obtain ⟨hwanted, hbegun⟩ := hchain.completable _ _ rfl
    rw [htext] at hchain
    exact pointsAt_of_failed htext hplace hwanted hbegun (hchain.breaks kept _ rfl rfl) (by simp)

/-- Two numbers in the last argument of a call, behind a string that goes over two lines. -/
theorem errors_point_at_viable_prefix_of_call :
    ∃ error, Expr.read "m:f(1, (\"é\n\" + x) == 2 3)" "main" = .error error ∧
      error = ⟨2, 13, .closingParenthesis⟩ ∧
      ∃ offset, PointsAt "m:f(1, (\"é\n\" + x) == 2 3)" "main" error offset := by
  have hread : (match Expr.read "m:f(1, (\"é\n\" + x) == 2 3)" "main" with
      | .ok _ => none
      | .error error => some error) = some ⟨2, 13, .closingParenthesis⟩ := by
    decide +kernel
  generalize hresult : Expr.read "m:f(1, (\"é\n\" + x) == 2 3)" "main" = result at hread ⊢
  cases result with
  | ok _ => exact absurd hread (by simp)
  | error error => exact ⟨error, rfl, Option.some.inj hread, errors_point_at_viable_prefix hresult⟩

end Grammar

end Switchboard
