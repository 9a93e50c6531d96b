import Switchboard.Proofs.Grammar.Readings

/-!
Reading a text that was cut off.

The reader looks no further than the place where it ends or goes wrong: cut the text off there, or
anywhere behind, and it comes to the same outcome.  Words may well have become longer or shorter had
something else followed, but cutting takes away only what the reader did not take.

`chars ++ gone` is the whole text and `chars` what is left of it.  Places in the whole text that are
kept have the form `text ++ gone`.
-/

namespace Switchboard

namespace Grammar

open Switchboard.Expr

variable {chars gone : List Char} {file : String}

/-! ## Words -/

theorem Stops.of_append {p : Char → Bool} {rest : List Char} (h : Stops p (rest ++ gone)) :
    Stops p rest := by
  cases rest with
  | nil => exact stops_nil p
  | cons c rest => exact stops_cons.2 (stops_cons.1 h)

theorem skipBlank_cut {text rest : List Char} (h : skipBlank (text ++ gone) = rest ++ gone) :
    skipBlank text = rest := by
  obtain ⟨blank, hblank, htext⟩ := exists_skipBlank (text ++ gone)
  rw [h, ← List.append_assoc, List.append_cancel_right_eq] at htext
  have hstops : Stops Text.isSeparator (skipBlank (text ++ gone)) :=
    (span_sound (List.span_eq_takeWhile_dropWhile _ _)).2.2
  rw [h] at hstops
  rw [htext, skipBlank_append hblank, skipBlank_of_stops hstops.of_append]

/-- Behind a sign or a digit it does not matter to the sign what follows. -/
theorem minus_append {text : List Char} (h : text ≠ []) (more : List Char) :
    minus (text ++ more) = ((minus text).1, (minus text).2 ++ more) := by
  cases text with
  | nil => exact absurd rfl h
  | cons c text =>
      rw [List.cons_append]
      by_cases hc : c = '-'
      · subst hc
        rfl
      · simp [minus, hc]

theorem plusOrMinus_append {text : List Char} (h : text ≠ []) (more : List Char) :
    plusOrMinus (text ++ more) = ((plusOrMinus text).1, (plusOrMinus text).2 ++ more) := by
  cases text with
  | nil => exact absurd rfl h
  | cons c text =>
      rw [List.cons_append]
      by_cases hminus : c = '-'
      · subst hminus
        rfl
      · by_cases hplus : c = '+'
        · subst hplus
          rfl
        · simp [plusOrMinus, hminus, hplus]

theorem plusOrMinus_suffix (text : List Char) : (plusOrMinus text).2 <:+ text := by
  simp only [plusOrMinus]
  split
  · exact List.suffix_cons _ _
  · exact List.suffix_cons _ _
  · exact List.suffix_refl _

theorem digits?_stops {text digits rest : List Char} (h : digits? text = some (digits, rest)) :
    Stops Char.isDigit rest := by
  rw [digits?] at h
  split at h
  · simp at h
  · exact (span_sound (Option.some.inj h)).2.2

theorem digits?_cut {text digits rest : List Char}
    (h : digits? (text ++ gone) = some (digits, rest ++ gone)) :
    digits? text = some (digits, rest) := by
  obtain ⟨hdigits, htext⟩ := digits?_sound h
  rw [← List.append_assoc, List.append_cancel_right_eq] at htext
  rw [htext]
  exact digits?_append hdigits (digits?_stops h).of_append

/-- Digits that something ends are read, whatever follows. -/
theorem digits?_extend {text digits rest : List Char} {c : Char}
    (h : digits? text = some (digits, c :: rest)) (more : List Char) :
    digits? (text ++ more) = some (digits, c :: rest ++ more) := by
  obtain ⟨hdigits, rfl⟩ := digits?_sound h
  rw [List.append_assoc]
  exact digits?_append hdigits (stops_cons.2 (stops_cons.1 (digits?_stops h)))

theorem digits?_ne_none {text digits rest : List Char} (h : digits? text = some (digits, rest))
    (more : List Char) : digits? (text ++ more) ≠ none := by
  obtain ⟨⟨hne, hdigits⟩, rfl⟩ := digits?_sound h
  cases digits with
  | nil => exact absurd rfl hne
  | cons c digits =>
      have hc := hdigits c List.mem_cons_self
      rw [digits?]
      split
      · next heq => simp [hc] at heq
      · simp

theorem exponent_suffix (text : List Char) : (exponent text).2 <:+ text := by
  obtain ⟨word, -, htext⟩ := exponent_sound text
  exact ⟨word, htext.symm⟩

theorem exponent_cut {text rest : List Char} {power : Int}
    (h : exponent (text ++ gone) = (power, rest ++ gone)) : exponent text = (power, rest) := by
  cases text with
  | nil =>
      obtain ⟨word, hword, hcut⟩ := exponent_sound gone
      rw [List.nil_append] at h
      rw [h] at hword hcut
      have hlength := congrArg List.length hcut
      simp only [List.length_append] at hlength
      obtain rfl := List.eq_nil_of_length_eq_zero (show rest.length = 0 by omega)
      obtain rfl := List.eq_nil_of_length_eq_zero (show word.length = 0 by omega)
      cases hword
      rfl
  | cons e behind =>
      simp only [List.cons_append, exponent] at h ⊢
      split at h
      · next hmark =>
        rw [if_pos hmark]
        have hsplit (hne : behind ≠ []) := plusOrMinus_append hne gone
        split at h
        · next digits after hdigits =>
          obtain ⟨rfl, rfl⟩ := Prod.mk.inj h
          have hne : behind ≠ [] := by
            rintro rfl
            obtain ⟨hword, htext⟩ := digits?_sound hdigits
            have hle := (plusOrMinus_suffix gone).length_le
            have hpos := List.length_pos_of_ne_nil hword.1
            rw [List.nil_append] at htext
            rw [htext, List.length_append, List.length_append] at hle
            omega
          rw [hsplit hne] at hdigits ⊢
          rw [digits?_cut hdigits]
        · next hnone =>
          rw [← List.cons_append, Prod.mk.injEq, List.append_cancel_right_eq] at h
          obtain ⟨rfl, rfl⟩ := h
          split
          · next digits after hdigits =>
            have hne : behind ≠ [] := by
              rintro rfl
              simp [plusOrMinus, digits?] at hdigits
            rw [hsplit hne] at hnone
            exact absurd hnone (digits?_ne_none hdigits gone)
          · rfl
      · next hmark =>
        rw [if_neg hmark]
        rw [← List.cons_append, Prod.mk.injEq, List.append_cancel_right_eq] at h
        obtain ⟨rfl, rfl⟩ := h
        rfl

theorem floatLiteral?_eq_some_iff {text rest : List Char} {value : Literal} :
    floatLiteral? text = some (value, rest) ↔
      ∃ whole behind fraction left, digits? (minus text).2 = some (whole, '.' :: behind) ∧
        digits? behind = some (fraction, left) ∧ rest = (exponent left).2 ∧
        value = .float (floatOf (minus text).1 whole fraction (exponent left).1) := by
  constructor
  · intro h
    simp only [floatLiteral?, Option.bind_eq_bind, Option.bind_eq_some_iff, Prod.exists] at h
    obtain ⟨whole, behind, hwhole, h⟩ := h
    split at h
    · next after =>
      simp only [Option.bind_eq_some_iff, Prod.exists] at h
      obtain ⟨fraction, left, hfraction, h⟩ := h
      simp only [Option.some.injEq, Prod.mk.injEq] at h
      obtain ⟨rfl, rfl⟩ := h
      exact ⟨whole, after, fraction, left, hwhole, hfraction, rfl, rfl⟩
    · simp at h
  · rintro ⟨whole, behind, fraction, left, hwhole, hfraction, rfl, rfl⟩
    simp [floatLiteral?, hwhole, hfraction, floatOf]

theorem integerLiteral?_eq_some_iff {text rest : List Char} {value : Literal} :
    integerLiteral? text = some (value, rest) ↔
      ∃ digits, digits? (minus text).2 = some (digits, rest) ∧
        (-2 ^ 63 ≤ integerOf (minus text).1 digits ∧ integerOf (minus text).1 digits < 2 ^ 63) ∧
        value = .integer (Int64.ofInt (integerOf (minus text).1 digits)) := by
  constructor
  · intro h
    simp only [integerLiteral?, Option.bind_eq_bind, Option.bind_eq_some_iff, Prod.exists] at h
    obtain ⟨digits, behind, hdigits, h⟩ := h
    change (if -2 ^ 63 ≤ integerOf (minus text).1 digits ∧ integerOf (minus text).1 digits < 2 ^ 63
      then some (Literal.integer (Int64.ofInt (integerOf (minus text).1 digits)), behind)
      else none) = some (value, rest) at h
    split at h
    · next hrange =>
      simp only [Option.some.injEq, Prod.mk.injEq] at h
      obtain ⟨rfl, rfl⟩ := h
      exact ⟨digits, hdigits, hrange, rfl⟩
    · simp at h
  · rintro ⟨digits, hdigits, hrange, rfl⟩
    simp only [integerLiteral?, hdigits, Option.bind_eq_bind, Option.bind_some]
    exact if_pos hrange

theorem floatLiteral?_cut {text rest : List Char} {value : Literal} (hne : text ≠ [])
    (h : floatLiteral? (text ++ gone) = some (value, rest ++ gone)) :
    floatLiteral? text = some (value, rest) := by
  rw [floatLiteral?_eq_some_iff, minus_append hne] at h
  obtain ⟨whole, behind, fraction, left, hwhole, hfraction, hrest, rfl⟩ := h
  obtain ⟨kept, rfl⟩ : gone <:+ left :=
    (List.suffix_append rest gone).trans (hrest ▸ exponent_suffix left)
  obtain ⟨inner, rfl⟩ : gone <:+ behind := by
    rw [(digits?_sound hfraction).2]
    exact (List.suffix_append kept gone).trans (List.suffix_append _ _)
  have hexponent : exponent kept = ((exponent (kept ++ gone)).1, rest) :=
    exponent_cut (Prod.ext rfl hrest.symm)
  rw [floatLiteral?_eq_some_iff]
  exact ⟨whole, inner, fraction, kept, digits?_cut hwhole, digits?_cut hfraction, by rw [hexponent],
    by rw [hexponent]⟩

/-- What begins with a float begins with one however it goes on, if perhaps with a longer one. -/
theorem floatLiteral?_ne_none {text : List Char} (h : floatLiteral? text ≠ none)
    (more : List Char) : floatLiteral? (text ++ more) ≠ none := by
  obtain ⟨⟨value, rest⟩, hsome⟩ := Option.ne_none_iff_exists'.1 h
  rw [floatLiteral?_eq_some_iff] at hsome
  obtain ⟨whole, behind, fraction, left, hwhole, hfraction, -, -⟩ := hsome
  have hne : text ≠ [] := by
    rintro rfl
    simp [minus, digits?] at hwhole
  obtain ⟨⟨longer, after⟩, hlonger⟩ :=
    Option.ne_none_iff_exists'.1 (digits?_ne_none hfraction more)
  refine Option.ne_none_iff_exists'.2 ⟨_, floatLiteral?_eq_some_iff.2
    ⟨whole, behind ++ more, longer, after, ?_, hlonger, rfl, rfl⟩⟩
  rw [minus_append hne]
  exact digits?_extend hwhole more

theorem number?_length_lt {text rest : List Char} {value : Literal}
    (h : number? text = some (value, rest)) : rest.length < text.length := by
  obtain ⟨word, rfl, ⟨x, hword, -⟩ | ⟨n, hword, -⟩⟩ := number?_sound h
  · have hpos := List.length_pos_of_ne_nil hword.ne_nil
    rw [List.length_append]
    omega
  · have hpos := List.length_pos_of_ne_nil hword.ne_nil
    rw [List.length_append]
    omega

theorem number?_cut {text rest : List Char} {value : Literal}
    (h : number? (text ++ gone) = some (value, rest ++ gone)) :
    number? text = some (value, rest) := by
  have hne : text ≠ [] := by
    rintro rfl
    have hlt := number?_length_lt h
    rw [List.length_append, List.nil_append] at hlt
    omega
  rw [number?, Option.orElse_eq_orElse, Option.orElse_eq_or, Option.or_eq_some_iff] at h ⊢
  rcases h with hfloat | ⟨hnone, hinteger⟩
  · exact Or.inl (floatLiteral?_cut hne hfloat)
  · refine Or.inr ⟨?_, ?_⟩
    -- cutting makes no float: it would have been one all along
    · by_contra hsome
      exact floatLiteral?_ne_none hsome gone hnone
    · rw [integerLiteral?_eq_some_iff, minus_append hne] at hinteger
      obtain ⟨digits, hdigits, hrange, rfl⟩ := hinteger
      exact integerLiteral?_eq_some_iff.2 ⟨digits, digits?_cut hdigits, hrange, rfl⟩

theorem stringBody_word {word meant : List Char} (hword : IsStringBody word meant)
    (rest : List Char) :
    stringBody (word ++ rest) = (meant ++ (stringBody rest).1, (stringBody rest).2) := by
  induction hword with
  | nil => rfl
  | plain hbackslash hquote _ ih => simp [stringBody, hbackslash, hquote, ih]
  | escape hc _ ih => simp [stringBody, unescape?_eq_some_iff.2 hc, ih]

/-- Where a string body stops it stops too when less follows. -/
theorem stringBody_stop {rest : List Char} (h : stringBody (rest ++ gone) = ([], rest ++ gone)) :
    stringBody rest = ([], rest) := by
  rcases rest with _ | ⟨c, _ | ⟨d, rest⟩⟩
  · rfl
  · by_cases hc : c = '\\' ∨ c = '"'
    · rcases hc with rfl | rfl <;> simp [stringBody]
    · obtain ⟨hbackslash, hquote⟩ := not_or.1 hc
      simp [stringBody, hbackslash, hquote] at h
  · by_cases hc : c = '\\'
    · subst hc
      cases hmeant : unescape? d with
      | some meant => simp [stringBody, hmeant] at h
      | none => simp [stringBody, hmeant]
    · by_cases hquote : c = '"'
      · subst hquote
        simp [stringBody]
      · simp [stringBody, hc, hquote] at h

theorem stringBody_cut {text body rest : List Char}
    (h : stringBody (text ++ gone) = (body, rest ++ gone)) : stringBody text = (body, rest) := by
  obtain ⟨word, hword, htext⟩ := stringBody_sound (text ++ gone)
  rw [h, ← List.append_assoc, List.append_cancel_right_eq] at htext
  rw [h] at hword
  subst htext
  rw [List.append_assoc, stringBody_word hword, Prod.mk.injEq, List.append_right_eq_self] at h
  rw [stringBody_word hword, stringBody_stop (Prod.ext h.1 h.2), List.append_nil]

theorem name?_cut {text name rest : List Char}
    (h : name? (text ++ gone) = some (name, rest ++ gone)) : name? text = some (name, rest) := by
  obtain ⟨hname, htext, hends⟩ := name?_sound h
  rw [← List.append_assoc, List.append_cancel_right_eq] at htext
  rw [htext]
  exact name?_append hname (Stops.of_append hends)

theorem CallOpens.of_append {start name inside : List Char}
    (h : CallOpens (start ++ gone) name (inside ++ gone)) : CallOpens start name inside := by
  obtain ⟨after, hname, hafter⟩ := h
  obtain ⟨left, rfl⟩ : gone <:+ after :=
    (List.suffix_append inside gone).trans (suffix_of_skipBlank hafter)
  obtain ⟨hqualified, htext⟩ := qualifiedName?_sound hname
  rw [← List.append_assoc, List.append_cancel_right_eq] at htext
  have hleft : skipBlank left = '(' :: inside := skipBlank_cut hafter
  refine ⟨left, ?_, hleft⟩
  rw [htext]
  exact qualifiedName?_append hqualified (nameEnds_of_opening hleft)

theorem CallOpens.number?_eq_none {start name inside : List Char}
    (h : CallOpens start name inside) : number? start = none := by
  obtain ⟨c, more, rfl, hc⟩ := h.exists_head
  exact number?_name hc more

/-- A call that opens does so whatever follows. -/
theorem CallOpens.extend {start name inside : List Char} (h : CallOpens start name inside)
    (more : List Char) : CallOpens (start ++ more) name (inside ++ more) := by
  obtain ⟨after, hname, hafter⟩ := h
  obtain ⟨hqualified, rfl⟩ := qualifiedName?_sound hname
  obtain ⟨blank, hblank, hblanks⟩ := exists_skipBlank after
  have hopening : skipBlank (after ++ more) = '(' :: (inside ++ more) := by
    rw [hblanks, hafter, List.append_assoc, skipBlank_append hblank]
    exact skipBlank_of_stops (stops_cons.2 (by decide))
  refine ⟨after ++ more, ?_, hopening⟩
  rw [List.append_assoc]
  exact qualifiedName?_append hqualified (nameEnds_of_opening hopening)

theorem operator?_eq_none_iff {tier : Tier} {text : List Char} :
    operator? tier text = none ↔ ∀ op ∈ tier, ¬ op.symbol.toList <+: text := by
  rw [operator?]
  constructor
  · intro h op hop hbegin
    split at h
    · simp at h
    · next hnone =>
      exact List.find?_eq_none.1 hnone op hop (List.isPrefixOf_iff_prefix.2 hbegin)
  · intro h
    have hnone : (tier.find? fun op => op.symbol.toList.isPrefixOf text) = none := by
      rw [List.find?_eq_none]
      intro op hop hbegin
      exact h op hop (List.isPrefixOf_iff_prefix.1 hbegin)
    rw [hnone]

/-- The operator that is read is the first of its tier whose symbol stands here. -/
theorem operator?_eq_some_iff {tier : Tier} {op : Operator} {text behind : List Char} :
    operator? tier text = some (op, behind) ↔ text = op.symbol.toList ++ behind ∧
      ∃ before after, tier = before ++ op :: after ∧
        ∀ other ∈ before, ¬ other.symbol.toList <+: text := by
  constructor
  · intro h
    refine ⟨(operator?_sound h).2, ?_⟩
    rw [operator?] at h
    split at h
    · next found hfound =>
      simp only [Option.some.injEq, Prod.mk.injEq] at h
      obtain ⟨rfl, -⟩ := h
      obtain ⟨-, before, after, htier, hbefore⟩ := List.find?_eq_some_iff_append.1 hfound
      refine ⟨before, after, htier, fun other hother hbegin => ?_⟩
      have hno := hbefore other hother
      rw [List.isPrefixOf_iff_prefix.2 hbegin] at hno
      exact absurd hno (by decide)
    · simp at h
  · rintro ⟨rfl, before, after, htier, hbefore⟩
    have hfound : (tier.find? fun found =>
        found.symbol.toList.isPrefixOf (op.symbol.toList ++ behind)) = some op := by
      refine List.find?_eq_some_iff_append.2 ⟨?_, before, after, htier, fun other hother => ?_⟩
      · exact List.isPrefixOf_iff_prefix.2 (List.prefix_append _ _)
      · rw [Bool.not_eq_true', Bool.eq_false_iff]
        exact fun hbegin => hbefore other hother (List.isPrefixOf_iff_prefix.1 hbegin)
    simp only [operator?, hfound]
    rw [← String.length_toList, List.drop_left]

theorem operator?_cut_none {tier : Tier} {text : List Char}
    (h : operator? tier (text ++ gone) = none) : operator? tier text = none := by
  rw [operator?_eq_none_iff] at h ⊢
  exact fun op hop hbegin => h op hop (hbegin.trans (List.prefix_append _ _))

theorem operator?_cut {tier : Tier} {op : Operator} {text behind : List Char}
    (h : operator? tier (text ++ gone) = some (op, behind ++ gone)) :
    operator? tier text = some (op, behind) := by
  rw [operator?_eq_some_iff] at h ⊢
  obtain ⟨htext, before, after, htier, hbefore⟩ := h
  rw [← List.append_assoc, List.append_cancel_right_eq] at htext
  exact ⟨htext, before, after, htier,
    fun other hother hbegin => hbefore other hother (hbegin.trans (List.prefix_append _ _))⟩

/-! ## Places -/

/-- What stands before a place that is kept is kept. -/
theorem exists_kept {text left : List Char} (rest : List Char) (hsuffix : left <:+ text)
    (hleft : left = rest ++ gone) : ∃ kept, text = kept ++ gone := by
  subst hleft
  obtain ⟨kept, hkept⟩ := (List.suffix_append rest gone).trans hsuffix
  exact ⟨kept, hkept.symm⟩

theorem locate_cut (text : List Char) :
    SourceText.locate ⟨file, chars ++ gone⟩ (text ++ gone) =
      SourceText.locate ⟨file, chars⟩ text := by
  have hbefore : SourceText.before ⟨file, chars ++ gone⟩ (text ++ gone) =
      SourceText.before ⟨file, chars⟩ text := by
    simp only [SourceText.before, List.length_append, Nat.add_sub_add_right]
    rw [List.take_append_of_le_length (Nat.sub_le _ _)]
  simp only [SourceText.locate, SourceText.lineAt, SourceText.columnAt, hbefore]

theorem ofName_cut (start name : List Char) :
    ofName ⟨file, chars ++ gone⟩ (start ++ gone) name = ofName ⟨file, chars⟩ start name := by
  simp only [ofName, locate_cut]

/-! ## Nothing more to read -/

/-- Behind separators nothing follows but a closing parenthesis.  A list of arguments ends where no
other argument was found, and in a text that is cut off there might be one: of a number that is too
large a beginning is left that is not.  So it is asked that the list cannot go on. -/
def Closes (rest : List Char) : Prop :=
  Stops (· != ')') (skipBlank rest)

theorem closes_of_skipBlank {rest closing : List Char} (h : skipBlank rest = ')' :: closing) :
    Closes rest := by
  rw [Closes, h]
  exact stops_cons.2 (by decide)

theorem closes_of_blank {rest : List Char} (h : skipBlank rest = []) : Closes rest := by
  rw [Closes, h]
  exact stops_nil _

theorem not_closes_comma (rest : List Char) : ¬ Closes (',' :: rest) := by
  intro h
  rw [Closes, skipBlank_of_stops (stops_cons.2 (by decide)), stops_cons] at h
  exact absurd h (by decide)

namespace Reader

theorem Atom.miss_of_closes {source : SourceText} {text : List Char} (h : Closes text) :
    Atom source text (.miss (skipBlank text)) := by
  have hother {p : Char → Bool} (hp : p ')' = false) : Stops p (skipBlank text) := by
    intro c hc
    have hclosing := h c hc
    rw [bne_eq_false_iff_eq] at hclosing
    rwa [hclosing]
  have hname : name? (skipBlank text) = none := by
    have hstops := hother (p := isNameStart) (by decide)
    generalize skipBlank text = start at hstops
    cases start with
    | nil => rfl
    | cons c start => simp [name?, stops_cons.1 hstops]
  exact .nothing rfl (hother (by decide)) (hother (by decide))
    (number?_eq_none (hother (by decide)) (hother (by decide))) hname

theorem Chain.miss_of_closes {source : SourceText} {text : List Char} (h : Closes text)
    (tiers : List Tier) : Chain source tiers text (.miss (skipBlank text)) := by
  induction tiers with
  | nil => exact .atom (.miss_of_closes h)
  | cons tier tighter ih => exact .miss ih

mutual

/-- A reading that misses uses up nothing but separators. -/
theorem Chain.rest_of_miss {source : SourceText} {tiers : List Tier} {text : List Char}
    {outcome : Reading Expr} : Chain source tiers text outcome →
      ∀ rest, outcome = .miss rest → rest = skipBlank text
  | .atom hatom, rest, h => hatom.rest_of_miss rest h
  | .links _ hlinks, rest, h => absurd h (hlinks.ne_miss rest)
  | .miss hmiss, rest, h => hmiss.rest_of_miss rest h
  | .broken _, _, h => by cases h

theorem Links.ne_miss {source : SourceText} {tier : Tier} {tighter : List Tier} {left : Expr}
    {text : List Char} {outcome : Reading Expr} :
    Links source tier tighter left text outcome → ∀ rest, outcome ≠ .miss rest
  | .done _, _, h => by cases h
  | .link _ _ hmore, rest, h => hmore.ne_miss rest h
  | .miss _ _, _, h => by cases h
  | .broken _ _, _, h => by cases h

theorem Atom.rest_of_miss {source : SourceText} {text : List Char} {outcome : Reading Expr} :
    Atom source text outcome → ∀ rest, outcome = .miss rest → rest = skipBlank text
  | .hollow hstart _, rest, h => by
      rw [hstart]
      exact (Reading.miss.inj h).symm
  | .nothing hstart _ _ _ _, rest, h => by
      rw [hstart]
      exact (Reading.miss.inj h).symm
  | .group _ _, _, h => by cases h
  | .unclosed _ _ _, _, h => by cases h
  | .broken _ _, _, h => by cases h
  | .string _ _, _, h => by cases h
  | .unquoted _ _ _, _, h => by cases h
  | .number _ _, _, h => by cases h
  | .call _ _ _ _ _, _, h => by cases h
  | .uncalled _ _ _ _ _, _, h => by cases h
  | .argument _ _ _ _, _, h => by cases h
  | .name _ _ _ _, _, h => by cases h

end

/-! ## What is read -/

mutual

/-- An expression is read in the same way when the text is cut off behind it. -/
theorem Chain.keeps {tiers : List Tier} {text : List Char} {outcome : Reading Expr} :
    Chain ⟨file, chars ++ gone⟩ tiers text outcome →
      ∀ kept expr rest, text = kept ++ gone → outcome = .ok expr (rest ++ gone) →
        Chain ⟨file, chars⟩ tiers kept (.ok expr rest)
  | .atom hatom, kept, expr, rest, htext, hok => .atom (hatom.keeps kept expr rest htext hok)
  | .links hleft hlinks, kept, expr, rest, htext, hok => by
      obtain ⟨between, hbetween⟩ := exists_kept _ hlinks.suffix (congrArg Reading.rest hok)
      exact .links (hleft.keeps kept _ between htext (by rw [hbetween]))
        (hlinks.keeps between expr rest hbetween hok)
  | .miss _, _, _, _, _, hok => by cases hok
  | .broken _, _, _, _, _, hok => by cases hok

theorem Links.keeps {tier : Tier} {tighter : List Tier} {left : Expr} {text : List Char}
    {outcome : Reading Expr} :
    Links ⟨file, chars ++ gone⟩ tier tighter left text outcome →
      ∀ kept expr rest, text = kept ++ gone → outcome = .ok expr (rest ++ gone) →
        Links ⟨file, chars⟩ tier tighter left kept (.ok expr rest)
  | .done hnone, kept, expr, rest, htext, hok => by
      obtain ⟨rfl, hrest⟩ := Reading.ok.inj hok
      obtain rfl : kept = rest := List.append_cancel_right (htext.symm.trans hrest)
      rw [htext] at hnone
      exact .done (operator?_cut_none hnone)
  | .link hop hright hmore, kept, expr, rest, htext, hok => by
      obtain ⟨between, hbetween⟩ := exists_kept _ hmore.suffix (congrArg Reading.rest hok)
      obtain ⟨inner, hinner⟩ := exists_kept _ hright.suffix hbetween
      have hlinks := hmore.keeps between expr rest hbetween hok
      rw [htext, locate_cut] at hlinks
      rw [htext, hinner] at hop
      exact .link (operator?_cut hop) (hright.keeps inner _ between hinner (by rw [hbetween]))
        hlinks
  | .miss _ _, _, _, _, _, hok => by cases hok
  | .broken _ _, _, _, _, _, hok => by cases hok

theorem Atom.keeps {text : List Char} {outcome : Reading Expr} :
    Atom ⟨file, chars ++ gone⟩ text outcome →
      ∀ kept expr rest, text = kept ++ gone → outcome = .ok expr (rest ++ gone) →
        Atom ⟨file, chars⟩ kept (.ok expr rest)
  | .group hstart hinside, kept, expr, rest, htext, hok => by
      obtain ⟨rfl, hrest⟩ := Reading.ok.inj hok
      obtain ⟨left, hleft⟩ := exists_kept _ (skipBlank_suffix _) hrest
      have hclosing : _ = ')' :: left ++ gone := congrArg (List.cons ')') hleft
      obtain ⟨inner, hinner⟩ := exists_kept _ hinside.suffix hclosing
      rw [htext, hinner] at hstart
      rw [hleft] at hrest
      rw [← skipBlank_cut hrest]
      exact .group (skipBlank_cut hstart)
        (hinside.keeps inner _ (')' :: left) hinner (by rw [hclosing]))
  | .string hstart hbody, kept, expr, rest, htext, hok => by
      obtain ⟨rfl, hrest⟩ := Reading.ok.inj hok
      obtain ⟨left, hleft⟩ := exists_kept _ (skipBlank_suffix _) hrest
      obtain ⟨inner, hinner⟩ := exists_kept ('"' :: left) (stringBody_suffix _)
        (by rw [hbody, hleft]; rfl)
      rw [htext, hinner] at hstart
      rw [hinner, hleft] at hbody
      rw [hleft] at hrest
      rw [← skipBlank_cut hrest]
      exact .string (skipBlank_cut hstart) (stringBody_cut hbody)
  | .number hstart hnumber, kept, expr, rest, htext, hok => by
      obtain ⟨rfl, hrest⟩ := Reading.ok.inj hok
      obtain ⟨left, hleft⟩ := exists_kept _ (skipBlank_suffix _) hrest
      obtain ⟨start, rfl⟩ := exists_kept _ (number?_suffix hnumber) hleft
      rw [htext] at hstart
      rw [hleft] at hnumber hrest
      rw [← skipBlank_cut hrest]
      exact .number (skipBlank_cut hstart) (number?_cut hnumber)
  | .call hstart hnumber hopens hinside hbehind, kept, expr, rest, htext, hok => by
      obtain ⟨rfl, hrest⟩ := Reading.ok.inj hok
      obtain ⟨left, hleft⟩ := exists_kept _ (skipBlank_suffix _) hrest
      rw [hleft] at hbehind hrest
      obtain ⟨between, hbetween⟩ := exists_kept (')' :: left) (skipBlank_suffix _) hbehind
      obtain ⟨inner, hinner⟩ := exists_kept _ hinside.suffix hbetween
      obtain ⟨start, rfl⟩ := exists_kept _ hopens.suffix hinner
      rw [hinner] at hopens
      rw [hbetween] at hbehind
      rw [htext] at hstart
      have hclosing : skipBlank between = ')' :: left := skipBlank_cut hbehind
      rw [← skipBlank_cut hrest, locate_cut]
      exact .call (skipBlank_cut hstart) hopens.of_append.number?_eq_none hopens.of_append
        (hinside.keeps inner _ between hinner (by rw [hbetween]) (closes_of_skipBlank hclosing))
        hclosing
  | .name hstart hnumber hcall hname, kept, expr, rest, htext, hok => by
      obtain ⟨rfl, hrest⟩ := Reading.ok.inj hok
      obtain ⟨left, hleft⟩ := exists_kept _ (skipBlank_suffix _) hrest
      obtain ⟨start, rfl⟩ := exists_kept _ (name?_suffix hname) hleft
      rw [htext] at hstart
      rw [hleft] at hname hrest
      rw [← skipBlank_cut hrest, ofName_cut]
      obtain ⟨c, more, hhead, hc⟩ := exists_head_of_name? (name?_cut hname)
      exact .name (skipBlank_cut hstart) (hhead ▸ number?_name hc more)
        (fun name inside hopens => hcall _ _ (hopens.extend gone)) (name?_cut hname)
  | .unclosed _ _ _, _, _, _, _, hok => by cases hok
  | .hollow _ _, _, _, _, _, hok => by cases hok
  | .broken _ _, _, _, _, _, hok => by cases hok
  | .unquoted _ _ _, _, _, _, _, hok => by cases hok
  | .uncalled _ _ _ _ _, _, _, _, _, hok => by cases hok
  | .argument _ _ _ _, _, _, _, _, hok => by cases hok
  | .nothing _ _ _ _ _, _, _, _, _, hok => by cases hok

/-- A list of arguments is read in the same way when nothing else than its end can follow. -/
theorem Listing.keeps {text : List Char} {outcome : Reading (List Expr)} :
    Listing ⟨file, chars ++ gone⟩ text outcome →
      ∀ kept exprs rest, text = kept ++ gone → outcome = .ok exprs (rest ++ gone) → Closes rest →
        Listing ⟨file, chars⟩ kept (.ok exprs rest)
  | .none _, kept, exprs, rest, htext, hok, hcloses => by
      obtain ⟨rfl, hrest⟩ := Reading.ok.inj hok
      obtain rfl : kept = rest := List.append_cancel_right (htext.symm.trans hrest)
      exact .none (.miss_of_closes hcloses _)
  | .some hfirst hothers, kept, exprs, rest, htext, hok, hcloses => by
      obtain ⟨rfl, hrest⟩ := Reading.ok.inj hok
      obtain ⟨between, hbetween⟩ := exists_kept _ hothers.suffix hrest
      exact .some (hfirst.keeps kept _ between htext (by rw [hbetween]))
        (hothers.keeps between _ rest hbetween (by rw [hrest]) hcloses)
  | .first _, _, _, _, _, hok, _ => by cases hok
  | .others _ _, _, _, _, _, hok, _ => by cases hok

theorem More.keeps {text : List Char} {outcome : Reading (List Expr)} :
    More ⟨file, chars ++ gone⟩ text outcome →
      ∀ kept exprs rest, text = kept ++ gone → outcome = .ok exprs (rest ++ gone) → Closes rest →
        More ⟨file, chars⟩ kept (.ok exprs rest)
  | .done hcomma, kept, exprs, rest, htext, hok, hcloses => by
      obtain ⟨rfl, hrest⟩ := Reading.ok.inj hok
      obtain rfl : kept = rest := List.append_cancel_right (htext.symm.trans hrest)
      rw [htext] at hcomma
      exact .done hcomma.of_append
  | .lone _, kept, exprs, rest, htext, hok, hcloses => by
      obtain ⟨rfl, hrest⟩ := Reading.ok.inj hok
      obtain rfl : kept = rest := List.append_cancel_right (htext.symm.trans hrest)
      cases kept with
      | nil => exact .done (stops_nil _)
      | cons c kept =>
          obtain ⟨rfl, -⟩ := List.cons.inj htext
          exact absurd hcloses (not_closes_comma kept)
  | .more hnext hothers, kept, exprs, rest, htext, hok, hcloses => by
      obtain ⟨rfl, hrest⟩ := Reading.ok.inj hok
      obtain ⟨between, hbetween⟩ := exists_kept _ hothers.suffix hrest
      obtain ⟨inner, hinner⟩ := exists_kept _ hnext.suffix hbetween
      obtain rfl : kept = ',' :: inner :=
        List.append_cancel_right (htext.symm.trans (congrArg (List.cons ',') hinner))
      exact .more (hnext.keeps inner _ between hinner (by rw [hbetween]))
        (hothers.keeps between _ rest hbetween (by rw [hrest]) hcloses)
  | .next _, _, _, _, _, hok, _ => by cases hok
  | .others _ _, _, _, _, _, hok, _ => by cases hok

end

/-! ## What breaks -/

mutual

/-- Cut off where it went wrong, a text goes wrong in the same way at its end. -/
theorem Chain.breaks {tiers : List Tier} {text : List Char} {outcome : Reading Expr} :
    Chain ⟨file, chars ++ gone⟩ tiers text outcome →
      ∀ kept expected, text = kept ++ gone → outcome = .broken expected gone →
        Chain ⟨file, chars⟩ tiers kept (.broken expected [])
  | .atom hatom, kept, expected, htext, hbad => .atom (hatom.breaks kept expected htext hbad)
  | .links hleft hlinks, kept, expected, htext, hbad => by
      obtain ⟨between, hbetween⟩ :=
        exists_kept [] hlinks.suffix (congrArg Reading.rest hbad)
      exact .links (hleft.keeps kept _ between htext (by rw [hbetween]))
        (hlinks.breaks between expected hbetween hbad)
  | .broken hbroken, kept, expected, htext, hbad =>
      .broken (hbroken.breaks kept expected htext hbad)
  | .miss _, _, _, _, hbad => by cases hbad

theorem Links.breaks {tier : Tier} {tighter : List Tier} {left : Expr} {text : List Char}
    {outcome : Reading Expr} :
    Links ⟨file, chars ++ gone⟩ tier tighter left text outcome →
      ∀ kept expected, text = kept ++ gone → outcome = .broken expected gone →
        Links ⟨file, chars⟩ tier tighter left kept (.broken expected [])
  | .link hop hright hmore, kept, expected, htext, hbad => by
      obtain ⟨between, hbetween⟩ :=
        exists_kept [] hmore.suffix (congrArg Reading.rest hbad)
      obtain ⟨inner, hinner⟩ := exists_kept _ hright.suffix hbetween
      have hlinks := hmore.breaks between expected hbetween hbad
      rw [htext, locate_cut] at hlinks
      rw [htext, hinner] at hop
      exact .link (operator?_cut hop) (hright.keeps inner _ between hinner (by rw [hbetween]))
        hlinks
  | .miss hop hmiss, kept, expected, htext, hbad => by
      obtain ⟨rfl, hrest⟩ := Reading.broken.inj hbad
      obtain ⟨inner, hinner⟩ := exists_kept [] hmiss.suffix hrest
      have hblank : skipBlank inner = [] :=
        skipBlank_cut (by rw [← hinner, ← hmiss.rest_of_miss _ rfl, hrest, List.nil_append])
      rw [htext, hinner] at hop
      exact .miss (operator?_cut hop) (hblank ▸ .miss_of_closes (closes_of_blank hblank) _)
  | .broken hop hbroken, kept, expected, htext, hbad => by
      obtain ⟨inner, hinner⟩ :=
        exists_kept [] hbroken.suffix (congrArg Reading.rest hbad)
      rw [htext, hinner] at hop
      exact .broken (operator?_cut hop) (hbroken.breaks inner expected hinner hbad)
  | .done _, _, _, _, hbad => by cases hbad

theorem Atom.breaks {text : List Char} {outcome : Reading Expr} :
    Atom ⟨file, chars ++ gone⟩ text outcome →
      ∀ kept expected, text = kept ++ gone → outcome = .broken expected gone →
        Atom ⟨file, chars⟩ kept (.broken expected [])
  | .unclosed hstart hinside _, kept, expected, htext, hbad => by
      obtain ⟨rfl, hrest⟩ := Reading.broken.inj hbad
      obtain ⟨inner, hinner⟩ := exists_kept [] hinside.suffix hrest
      rw [htext, hinner] at hstart
      exact .unclosed (skipBlank_cut hstart)
        (hinside.keeps inner _ [] hinner (by rw [hrest, List.nil_append])) (stops_nil _)
  | .broken hstart hinside, kept, expected, htext, hbad => by
      obtain ⟨inner, hinner⟩ :=
        exists_kept [] hinside.suffix (congrArg Reading.rest hbad)
      rw [htext, hinner] at hstart
      exact .broken (skipBlank_cut hstart) (hinside.breaks inner expected hinner hbad)
  | .unquoted hstart hbody _, kept, expected, htext, hbad => by
      obtain ⟨rfl, hrest⟩ := Reading.broken.inj hbad
      obtain ⟨inner, hinner⟩ := exists_kept [] (stringBody_suffix _)
        (by rw [hbody, hrest, List.nil_append])
      rw [htext, hinner] at hstart
      rw [hinner, hrest] at hbody
      exact .unquoted (skipBlank_cut hstart) (stringBody_cut hbody) (stops_nil _)
  | .uncalled hstart _ hopens hinside _, kept, expected, htext, hbad => by
      obtain ⟨rfl, hrest⟩ := Reading.broken.inj hbad
      obtain ⟨between, hbetween⟩ := exists_kept [] (skipBlank_suffix _) hrest
      obtain ⟨inner, hinner⟩ := exists_kept _ hinside.suffix hbetween
      obtain ⟨start, rfl⟩ := exists_kept _ hopens.suffix hinner
      rw [hinner] at hopens
      rw [hbetween] at hrest
      rw [htext] at hstart
      have hblank : skipBlank between = [] := skipBlank_cut hrest
      rw [← hblank]
      exact .uncalled (skipBlank_cut hstart) hopens.of_append.number?_eq_none hopens.of_append
        (hinside.keeps inner _ between hinner (by rw [hbetween]) (closes_of_blank hblank))
        (hblank ▸ stops_nil _)
  | .argument hstart _ hopens hinside, kept, expected, htext, hbad => by
      obtain ⟨rfl, hrest⟩ := Reading.broken.inj hbad
      obtain ⟨inner, hinner⟩ := exists_kept [] hinside.suffix hrest
      obtain ⟨start, rfl⟩ := exists_kept _ hopens.suffix hinner
      rw [hinner] at hopens
      rw [htext] at hstart
      exact .argument (skipBlank_cut hstart) hopens.of_append.number?_eq_none hopens.of_append
        (hinside.breaks inner _ hinner (by rw [hrest]))
  | .group _ _, _, _, _, hbad => by cases hbad
  | .hollow _ _, _, _, _, hbad => by cases hbad
  | .string _ _, _, _, _, hbad => by cases hbad
  | .number _ _, _, _, _, hbad => by cases hbad
  | .call _ _ _ _ _, _, _, _, hbad => by cases hbad
  | .name _ _ _ _, _, _, _, hbad => by cases hbad
  | .nothing _ _ _ _ _, _, _, _, hbad => by cases hbad

theorem Listing.breaks {text : List Char} {outcome : Reading (List Expr)} :
    Listing ⟨file, chars ++ gone⟩ text outcome →
      ∀ kept expected, text = kept ++ gone → outcome = .broken expected gone →
        Listing ⟨file, chars⟩ kept (.broken expected [])
  | .first hbroken, kept, expected, htext, hbad => by
      obtain ⟨rfl, hrest⟩ := Reading.broken.inj hbad
      exact .first (hbroken.breaks kept _ htext (by rw [hrest]))
  | .others hfirst hbroken, kept, expected, htext, hbad => by
      obtain ⟨between, hbetween⟩ :=
        exists_kept [] hbroken.suffix (congrArg Reading.rest hbad)
      exact .others (hfirst.keeps kept _ between htext (by rw [hbetween]))
        (hbroken.breaks between expected hbetween hbad)
  | .none _, _, _, _, hbad => by cases hbad
  | .some _ _, _, _, _, hbad => by cases hbad

theorem More.breaks {text : List Char} {outcome : Reading (List Expr)} :
    More ⟨file, chars ++ gone⟩ text outcome →
      ∀ kept expected, text = kept ++ gone → outcome = .broken expected gone →
        More ⟨file, chars⟩ kept (.broken expected [])
  | .next hbroken, kept, expected, htext, hbad => by
      obtain ⟨rfl, hrest⟩ := Reading.broken.inj hbad
      obtain ⟨inner, hinner⟩ := exists_kept [] hbroken.suffix hrest
      obtain rfl : kept = ',' :: inner :=
        List.append_cancel_right (htext.symm.trans (congrArg (List.cons ',') hinner))
      exact .next (hbroken.breaks inner _ hinner (by rw [hrest]))
  | .others hnext hbroken, kept, expected, htext, hbad => by
      obtain ⟨between, hbetween⟩ :=
        exists_kept [] hbroken.suffix (congrArg Reading.rest hbad)
      obtain ⟨inner, hinner⟩ := exists_kept _ hnext.suffix hbetween
      obtain rfl : kept = ',' :: inner :=
        List.append_cancel_right (htext.symm.trans (congrArg (List.cons ',') hinner))
      exact .others (hnext.keeps inner _ between hinner (by rw [hbetween]))
        (hbroken.breaks between expected hbetween hbad)
  | .done _, _, _, _, hbad => by cases hbad
  | .lone _, _, _, _, hbad => by cases hbad
  | .more _ _, _, _, _, hbad => by cases hbad

end

end Reader

end Grammar

end Switchboard
