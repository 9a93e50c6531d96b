import Mathlib.Data.List.Infix
import Mathlib.Data.List.TakeDrop
import Mathlib.Data.List.TakeWhile
import Switchboard.Proofs.Grammar

/-!
Reading words.

Each reader of a word is greedy: it takes as much as it can.  Two facts are stated of each.  What it
takes is a word of the grammar; and a word of the grammar is taken as it stands, when what comes
behind it could not be taken too.
-/

namespace Switchboard

namespace Grammar

open Switchboard.Expr

/-- The next character, if there is one, does not satisfy `p`. -/
def Stops (p : Char → Bool) (rest : List Char) : Prop :=
  ∀ c ∈ rest.head?, p c = false

theorem stops_nil (p : Char → Bool) : Stops p [] := by
  intro c hc
  simp at hc

theorem stops_cons {p : Char → Bool} {c : Char} {rest : List Char} :
    Stops p (c :: rest) ↔ p c = false := by
  simp [Stops]

theorem span_append {p : Char → Bool} {word rest : List Char}
    (hword : ∀ c ∈ word, p c = true) (hrest : Stops p rest) :
    (word ++ rest).span p = (word, rest) := by
  have htake : rest.takeWhile p = [] := by
    cases rest with
    | nil => rfl
    | cons c rest => simp [stops_cons.1 hrest]
  have hdrop : rest.dropWhile p = rest := by
    cases rest with
    | nil => rfl
    | cons c rest => simp [stops_cons.1 hrest]
  rw [List.span_eq_takeWhile_dropWhile, List.takeWhile_append_of_pos hword,
    List.dropWhile_append_of_pos hword, htake, hdrop, List.append_nil]

theorem span_sound {p : Char → Bool} {text word rest : List Char}
    (h : text.span p = (word, rest)) :
    text = word ++ rest ∧ (∀ c ∈ word, p c = true) ∧ Stops p rest := by
  rw [List.span_eq_takeWhile_dropWhile, Prod.mk.injEq] at h
  obtain ⟨rfl, rfl⟩ := h
  refine ⟨List.takeWhile_append_dropWhile.symm, ?_, ?_⟩
  · intro c hc
    exact List.mem_takeWhile_imp hc
  · intro c hc
    have hhead := List.head?_dropWhile_not p text
    rw [Option.mem_def.1 hc] at hhead
    exact hhead

/-! ## Separators -/

theorem isSeparator_iff {c : Char} :
    Text.isSeparator c = true ↔ c = ' ' ∨ c = '\t' ∨ c = '\r' ∨ c = '\n' := by
  simp only [Text.isSeparator, Bool.or_eq_true, beq_iff_eq]
  tauto

theorem skipBlank_append {before rest : List Char} (h : IsBlank before) :
    skipBlank (before ++ rest) = skipBlank rest := by
  apply List.dropWhile_append_of_pos
  intro c hc
  exact isSeparator_iff.2 (h c hc)

/-- What is skipped is blank. -/
theorem exists_skipBlank (text : List Char) :
    ∃ before, IsBlank before ∧ text = before ++ skipBlank text := by
  refine ⟨text.takeWhile Text.isSeparator, ?_, List.takeWhile_append_dropWhile.symm⟩
  intro c hc
  exact isSeparator_iff.1 (List.mem_takeWhile_imp hc)

theorem skipBlank_of_stops {rest : List Char} (h : Stops Text.isSeparator rest) :
    skipBlank rest = rest := by
  cases rest with
  | nil => rfl
  | cons c rest => simp [skipBlank, stops_cons.1 h]

/-! ## Numbers -/

theorem digits?_sound {text word rest : List Char} (h : digits? text = some (word, rest)) :
    IsDigits word ∧ text = word ++ rest := by
  rw [digits?] at h
  split at h
  · simp at h
  · next found hne =>
    have hspan : text.span Char.isDigit = (word, rest) := Option.some.inj h
    obtain ⟨htext, hword, -⟩ := span_sound hspan
    refine ⟨⟨?_, hword⟩, htext⟩
    rintro rfl
    exact hne rest hspan

theorem digits?_append {word rest : List Char} (hword : IsDigits word)
    (hrest : Stops Char.isDigit rest) : digits? (word ++ rest) = some (word, rest) := by
  rw [digits?, span_append hword.2 hrest]
  split
  · next heq =>
    rw [Prod.mk.injEq] at heq
    exact absurd heq.1 hword.1
  · rfl

theorem digits?_eq_none {rest : List Char} (h : Stops Char.isDigit rest) :
    digits? rest = none := by
  have hspan := @span_append Char.isDigit [] rest (by simp) h
  rw [List.nil_append] at hspan
  rw [digits?, hspan]

theorem IsDigits.stops {p : Char → Bool} {word : List Char} (h : IsDigits word)
    (hp : ∀ c : Char, c.isDigit = true → p c = false) (rest : List Char) :
    Stops p (word ++ rest) := by
  obtain ⟨hne, hword⟩ := h
  cases word with
  | nil => exact absurd rfl hne
  | cons c word => exact stops_cons.2 (hp c (hword c List.mem_cons_self))

theorem minus_sound (text : List Char) : text = sign (minus text).1 ++ (minus text).2 := by
  simp only [minus]
  split <;> rfl

theorem minus_sign (negative : Bool) {text : List Char} (h : Stops (· == '-') text) :
    minus (sign negative ++ text) = (negative, text) := by
  cases negative with
  | true => rfl
  | false =>
      cases text with
      | nil => rfl
      | cons c text =>
          have hc : c ≠ '-' := by simpa using stops_cons.1 h
          simp only [sign, Bool.false_eq_true, if_false, List.nil_append, minus]
          split
          · next heq => exact absurd (List.cons.inj heq).1 hc
          · rfl

theorem minus_digits (negative : Bool) {digits : List Char} (h : IsDigits digits)
    (rest : List Char) :
    minus (sign negative ++ (digits ++ rest)) = (negative, digits ++ rest) := by
  apply minus_sign
  apply h.stops
  intro c hc
  simp only [beq_eq_false_iff_ne]
  rintro rfl
  simp at hc

theorem plusOrMinus_digits {digits : List Char} (h : IsDigits digits) (rest : List Char) :
    plusOrMinus (digits ++ rest) = (false, digits ++ rest) := by
  have hstops : Stops (fun c => c == '-' || c == '+') (digits ++ rest) := by
    apply h.stops
    intro c hc
    simp only [Bool.or_eq_false_iff, beq_eq_false_iff_ne]
    constructor <;> rintro rfl <;> simp at hc
  generalize digits ++ rest = text at hstops
  simp only [plusOrMinus]
  split
  · simp [stops_cons] at hstops
  · simp [stops_cons] at hstops
  · rfl

theorem isExponentMark_iff {e : Char} :
    (e == 'e' || e == 'E') = true ↔ e = 'e' ∨ e = 'E' := by
  simp

theorem exponent_sound (text : List Char) :
    ∃ word, IsExponent word (exponent text).1 ∧ text = word ++ (exponent text).2 := by
  simp only [exponent]
  split
  · exact ⟨[], .absent, rfl⟩
  · next e behind =>
    split
    · next hmark =>
      have he := isExponentMark_iff.1 hmark
      split
      · next digits rest hdigits =>
        obtain ⟨hword, hbehind⟩ := digits?_sound hdigits
        simp only [plusOrMinus] at hbehind ⊢
        split at hbehind
        · next unsigned =>
          exact ⟨_, .minus he hword, congrArg (fun more => e :: '-' :: more) hbehind⟩
        · next unsigned =>
          exact ⟨_, .plus he hword, congrArg (fun more => e :: '+' :: more) hbehind⟩
        · exact ⟨_, .unsigned he hword, congrArg (fun more => e :: more) hbehind⟩
      · exact ⟨[], .absent, rfl⟩
    · exact ⟨[], .absent, rfl⟩

/-- What may stand behind a number: nothing that would make it longer. -/
structure NumberEnds (rest : List Char) : Prop where
  digit : Stops Char.isDigit rest
  point : Stops (· == '.') rest
  mark : Stops (fun e => e == 'e' || e == 'E') rest

theorem exponent_append {word rest : List Char} {power : Int} (hword : IsExponent word power)
    (hrest : NumberEnds rest) : exponent (word ++ rest) = (power, rest) := by
  cases hword with
  | absent =>
      cases rest with
      | nil => rfl
      | cons c rest =>
          have hc := stops_cons.1 hrest.mark
          simp [exponent, hc]
  | unsigned he hdigits =>
      simp [exponent, isExponentMark_iff.2 he, plusOrMinus_digits hdigits,
        digits?_append hdigits hrest.digit]
  | plus he hdigits =>
      simp [exponent, isExponentMark_iff.2 he, plusOrMinus, digits?_append hdigits hrest.digit]
  | minus he hdigits =>
      simp [exponent, isExponentMark_iff.2 he, plusOrMinus, digits?_append hdigits hrest.digit]

/-- Digits end where an exponent or the end of the number follows. -/
theorem IsExponent.stops_digit {word rest : List Char} {power : Int}
    (hword : IsExponent word power) (hrest : NumberEnds rest) :
    Stops Char.isDigit (word ++ rest) := by
  have hmark : ∀ {e : Char} {more : List Char}, e = 'e' ∨ e = 'E' →
      Stops Char.isDigit (e :: more) := by
    rintro e more (rfl | rfl) <;> exact stops_cons.2 (by decide)
  cases hword with
  | absent => exact hrest.digit
  | unsigned he _ => exact hmark he
  | plus he _ => exact hmark he
  | minus he _ => exact hmark he

theorem floatLiteral?_sound {text rest : List Char} {value : Literal}
    (h : floatLiteral? text = some (value, rest)) :
    ∃ word x, IsFloat word x ∧ value = .float x ∧ text = word ++ rest := by
  have htext := minus_sound text
  simp only [floatLiteral?, Option.bind_eq_bind, Option.bind_eq_some_iff, Prod.exists] at h
  obtain ⟨whole, behind, hread, h⟩ := h
  obtain ⟨hwhole, hbehind⟩ := digits?_sound hread
  split at h
  · next after =>
    simp only [Option.bind_eq_some_iff, Prod.exists] at h
    obtain ⟨fraction, left, hread, h⟩ := h
    obtain ⟨hfraction, rfl⟩ := digits?_sound hread
    obtain ⟨word, hword, hleft⟩ := exponent_sound left
    simp only [Option.some.injEq, Prod.mk.injEq] at h
    obtain ⟨rfl, rfl⟩ := h
    refine ⟨_, _, .intro (minus text).1 hwhole hfraction hword, rfl, ?_⟩
    rw [hbehind, hleft] at htext
    simpa using htext
  · simp at h

theorem floatLiteral?_append {word rest : List Char} {x : Float} (hword : IsFloat word x)
    (hrest : NumberEnds rest) :
    floatLiteral? (word ++ rest) = some (.float x, rest) := by
  cases hword with
  | @intro negative whole fraction tail power hwhole hfraction htail =>
      have hpoint : Stops Char.isDigit ('.' :: (fraction ++ (tail ++ rest))) :=
        stops_cons.2 (by decide)
      simp [floatLiteral?, minus_digits negative hwhole, digits?_append hwhole hpoint,
        digits?_append hfraction (htail.stops_digit hrest), exponent_append htail hrest, floatOf]

theorem integerLiteral?_sound {text rest : List Char} {value : Literal}
    (h : integerLiteral? text = some (value, rest)) :
    ∃ word n, IsInteger word n ∧ value = .integer n ∧ text = word ++ rest := by
  have htext := minus_sound text
  simp only [integerLiteral?, Option.bind_eq_bind, Option.bind_eq_some_iff, Prod.exists] at h
  obtain ⟨digits, behind, hdigits, h⟩ := h
  obtain ⟨hdigits, hbehind⟩ := digits?_sound hdigits
  change (if -2 ^ 63 ≤ integerOf (minus text).1 digits ∧ integerOf (minus text).1 digits < 2 ^ 63
    then some (Literal.integer (Int64.ofInt (integerOf (minus text).1 digits)), behind)
    else none) = some (value, rest) at h
  split at h
  · next hrange =>
    simp only [Option.some.injEq, Prod.mk.injEq] at h
    obtain ⟨rfl, rfl⟩ := h
    refine ⟨_, _, .intro (minus text).1 hdigits hrange.1 hrange.2, rfl, ?_⟩
    rw [hbehind] at htext
    simpa using htext
  · simp at h

theorem integerLiteral?_append {word rest : List Char} {n : Int64} (hword : IsInteger word n)
    (hrest : NumberEnds rest) :
    integerLiteral? (word ++ rest) = some (.integer n, rest) := by
  cases hword with
  | @intro negative digits hdigits hlow hhigh =>
      rw [List.append_assoc]
      simp only [integerLiteral?, minus_digits negative hdigits,
        digits?_append hdigits hrest.digit, Option.bind_eq_bind, Option.bind_some]
      exact if_pos ⟨hlow, hhigh⟩

/-- An integer is no float: no point follows its digits. -/
theorem floatLiteral?_integer {word rest : List Char} {n : Int64} (hword : IsInteger word n)
    (hrest : NumberEnds rest) : floatLiteral? (word ++ rest) = none := by
  cases hword with
  | @intro negative digits hdigits hlow hhigh =>
      rw [List.append_assoc]
      simp only [floatLiteral?, minus_digits negative hdigits,
        digits?_append hdigits hrest.digit, Option.bind_eq_bind, Option.bind_some]
      split
      · exact absurd (stops_cons.1 hrest.point) (by decide)
      · rfl

theorem number?_sound {text rest : List Char} {value : Literal}
    (h : number? text = some (value, rest)) :
    ∃ word, text = word ++ rest ∧
      ((∃ x, IsFloat word x ∧ value = .float x) ∨ ∃ n, IsInteger word n ∧ value = .integer n) := by
  rw [number?, Option.orElse_eq_orElse, Option.orElse_eq_or, Option.or_eq_some_iff] at h
  rcases h with h | ⟨-, h⟩
  · obtain ⟨word, x, hword, hvalue, htext⟩ := floatLiteral?_sound h
    exact ⟨word, htext, Or.inl ⟨x, hword, hvalue⟩⟩
  · obtain ⟨word, n, hword, hvalue, htext⟩ := integerLiteral?_sound h
    exact ⟨word, htext, Or.inr ⟨n, hword, hvalue⟩⟩

theorem number?_float {word rest : List Char} {x : Float} (hword : IsFloat word x)
    (hrest : NumberEnds rest) : number? (word ++ rest) = some (.float x, rest) := by
  simp [number?, floatLiteral?_append hword hrest]

theorem number?_integer {word rest : List Char} {n : Int64} (hword : IsInteger word n)
    (hrest : NumberEnds rest) : number? (word ++ rest) = some (.integer n, rest) := by
  simp [number?, floatLiteral?_integer hword hrest, integerLiteral?_append hword hrest]

/-- A number begins with a minus sign or a digit. -/
theorem number?_eq_none {text : List Char} (hminus : Stops (· == '-') text)
    (hdigit : Stops Char.isDigit text) : number? text = none := by
  have hread : minus text = (false, text) := minus_sign false hminus
  simp [number?, floatLiteral?, integerLiteral?, hread, digits?_eq_none hdigit]

/-! ## Strings -/

theorem unescape?_eq_some_iff {c m : Char} : unescape? c = some m ↔ (c, m) ∈ escapes := by
  simp only [unescape?, escapes, beq_iff_eq, List.mem_cons, Prod.mk.injEq, List.not_mem_nil,
    or_false]
  split
  · next hc =>
    subst hc
    simp [eq_comm]
  · split
    · next hc =>
      subst hc
      simp [eq_comm]
    · split
      · next hc =>
        subst hc
        simp [eq_comm]
      · split
        · next hc =>
          subst hc
          simp [eq_comm]
        · simp_all

theorem stringBody_sound (text : List Char) :
    ∃ word, IsStringBody word (stringBody text).1 ∧ text = word ++ (stringBody text).2 := by
  fun_induction stringBody text with
  | case1 => exact ⟨[], .nil, rfl⟩
  | case2 c rest meant hc body left hbody ih =>
      obtain ⟨word, hword, hrest⟩ := ih
      rw [hbody] at hword hrest
      exact ⟨_, .escape (unescape?_eq_some_iff.1 hc) hword,
        congrArg (fun more => '\\' :: c :: more) hrest⟩
  | case3 c rest hc => exact ⟨[], .nil, rfl⟩
  | case4 c rest hlone hc => exact ⟨[], .nil, rfl⟩
  | case5 c rest hlone hc body left hbody ih =>
      obtain ⟨word, hword, hrest⟩ := ih
      rw [hbody] at hword hrest
      simp only [Bool.or_eq_true, beq_iff_eq, not_or] at hc
      exact ⟨_, .plain hc.1 hc.2 hword, congrArg (fun more => c :: more) hrest⟩

theorem stringBody_append {word meant rest : List Char} (hword : IsStringBody word meant) :
    stringBody (word ++ '"' :: rest) = (meant, '"' :: rest) := by
  induction hword with
  | nil => simp [stringBody]
  | plain hbackslash hquote _ ih => simp [stringBody, hbackslash, hquote, ih]
  | escape hc _ ih => simp [stringBody, unescape?_eq_some_iff.2 hc, ih]

/-! ## Names -/

theorem name?_sound {text word rest : List Char} (h : name? text = some (word, rest)) :
    IsName word ∧ text = word ++ rest ∧ NameEnds rest := by
  simp only [name?] at h
  split at h
  · next c behind =>
    split at h
    · next hstart =>
      obtain ⟨hbehind, hpart, hrest⟩ := span_sound (Prod.ext rfl rfl : behind.span isNamePart = _)
      simp only [Option.some.injEq, Prod.mk.injEq] at h
      obtain ⟨rfl, rfl⟩ := h
      exact ⟨⟨hstart, hpart⟩, congrArg (List.cons c) hbehind, hrest⟩
    · simp at h
  · simp at h

theorem name?_append {word rest : List Char} (hword : IsName word) (hrest : NameEnds rest) :
    name? (word ++ rest) = some (word, rest) := by
  cases word with
  | nil => exact absurd hword id
  | cons c word =>
      simp only [List.cons_append, name?, hword.1, span_append hword.2 hrest, if_true]

theorem IsName.append_part {word : List Char} {c : Char} (hword : IsName word)
    (hc : Expr.isNamePart c = true) : IsName (word ++ [c]) := by
  cases word with
  | nil => exact absurd hword id
  | cons d word =>
      refine ⟨hword.1, ?_⟩
      intro e he
      rcases List.mem_append.1 he with he | he
      · exact hword.2 e he
      · rw [List.mem_singleton.1 he]
        exact hc

theorem IsPackage.append_part {word : List Char} {c : Char} (hword : IsPackage word)
    (hc : Expr.isNamePart c = true) : IsPackage (word ++ [c]) := by
  induction hword with
  | name hname => exact .name (hname.append_part hc)
  | point hname _ ih =>
      rw [List.append_assoc, List.cons_append]
      exact .point hname ih

theorem IsPackage.append_point {word : List Char} {c : Char} (hword : IsPackage word)
    (hc : isNameStart c = true) : IsPackage (word ++ ['.', c]) := by
  induction hword with
  | name hname => exact .point hname (.name ⟨hc, by simp⟩)
  | point hname _ ih =>
      rw [List.append_assoc, List.cons_append]
      exact .point hname ih

theorem packageTail_sound (text : List Char) :
    text = (packageTail text).1 ++ (packageTail text).2 ∧
      ∀ word, IsPackage word → IsPackage (word ++ (packageTail text).1) := by
  fun_induction packageTail text with
  | case1 => exact ⟨rfl, fun word hword => by simpa using hword⟩
  | case2 c rest hc tail left hread ih =>
      rw [hread] at ih
      refine ⟨congrArg (fun more => '.' :: c :: more) ih.1, ?_⟩
      intro word hword
      simpa using ih.2 _ (hword.append_point hc)
  | case3 c rest hc => exact ⟨rfl, fun word hword => by simpa using hword⟩
  | case4 c rest hpoint hc tail left hread ih =>
      rw [hread] at ih
      refine ⟨congrArg (List.cons c) ih.1, ?_⟩
      intro word hword
      simpa using ih.2 _ (hword.append_part hc)
  | case5 c rest hpoint hc => exact ⟨rfl, fun word hword => by simpa using hword⟩

theorem packageTail_part {c : Char} (hc : Expr.isNamePart c = true) (text : List Char) :
    packageTail (c :: text) = (c :: (packageTail text).1, (packageTail text).2) := by
  have hpoint : c ≠ '.' := by
    rintro rfl
    exact absurd hc (by decide)
  simp [packageTail, hpoint, hc]

theorem packageTail_parts {word : List Char} (hword : ∀ c ∈ word, Expr.isNamePart c = true)
    (text : List Char) :
    packageTail (word ++ text) = (word ++ (packageTail text).1, (packageTail text).2) := by
  induction word with
  | nil => rfl
  | cons c word ih =>
      rw [List.cons_append, packageTail_part (hword c List.mem_cons_self),
        ih fun d hd => hword d (List.mem_cons_of_mem c hd)]
      rfl

/-- A character that could prolong a name, a number or the package of a call. -/
def prolongs (c : Char) : Bool :=
  Expr.isNamePart c || c == '.' || c == ':'

theorem packageTail_of_stops {rest : List Char}
    (h : Stops (fun c => Expr.isNamePart c || c == '.') rest) : packageTail rest = ([], rest) := by
  cases rest with
  | nil => rfl
  | cons c rest =>
      have hc := stops_cons.1 h
      simp only [Bool.or_eq_false_iff, beq_eq_false_iff_ne] at hc
      simp [packageTail, hc.1, hc.2]

/-- A package is its first letter and what the reader takes behind it. -/
theorem IsPackage.exists_tail {word rest : List Char} (hword : IsPackage word)
    (hrest : Stops (fun c => Expr.isNamePart c || c == '.') rest) :
    ∃ c tail, word = c :: tail ∧ isNameStart c = true ∧
      packageTail (tail ++ rest) = (tail, rest) := by
  induction hword with
  | @name word hname =>
      cases word with
      | nil => exact absurd hname id
      | cons c tail =>
          refine ⟨c, tail, rfl, hname.1, ?_⟩
          rw [packageTail_parts hname.2, packageTail_of_stops hrest, List.append_nil]
  | @point word more hname _ ih =>
      obtain ⟨d, tail, rfl, hd, htail⟩ := ih
      cases word with
      | nil => exact absurd hname id
      | cons c word =>
          refine ⟨c, word ++ '.' :: d :: tail, rfl, hname.1, ?_⟩
          have hpoint : packageTail ('.' :: d :: tail ++ rest) = ('.' :: d :: tail, rest) := by
            simp [packageTail, hd, htail]
          rw [List.append_assoc, packageTail_parts hname.2, hpoint]

theorem qualifiedName?_sound {text word rest : List Char}
    (h : qualifiedName? text = some (word, rest)) :
    IsQualifiedName word ∧ text = word ++ rest := by
  simp only [qualifiedName?] at h
  split at h
  · next c behind =>
    split at h
    · next hstart =>
      obtain ⟨hbehind, hpackage⟩ := packageTail_sound behind
      split at h
      · next tail colon hread =>
        simp only [hread] at hbehind hpackage
        simp only [Option.map_eq_some_iff, Prod.exists, Prod.mk.injEq] at h
        obtain ⟨name, left, hlast, rfl, rfl⟩ := h
        obtain ⟨hname, rfl, -⟩ := name?_sound hlast
        have hfirst : IsPackage ([c] ++ tail) := hpackage [c] (.name ⟨hstart, by simp⟩)
        refine ⟨.intro hfirst hname, ?_⟩
        simp [hbehind]
      · simp at h
    · simp at h
  · simp at h

theorem qualifiedName?_append {word rest : List Char} (hword : IsQualifiedName word)
    (hrest : NameEnds rest) : qualifiedName? (word ++ rest) = some (word, rest) := by
  cases hword with
  | @intro package name hpackage hname =>
      have hcolon : Stops (fun c => Expr.isNamePart c || c == '.') (':' :: (name ++ rest)) :=
        stops_cons.2 (by decide)
      obtain ⟨c, tail, rfl, hc, htail⟩ := hpackage.exists_tail hcolon
      simp [qualifiedName?, hc, htail, name?_append hname hrest]

/-- A name that no colon follows is no qualified name. -/
theorem qualifiedName?_name {word rest : List Char} (hword : IsName word)
    (hrest : Stops prolongs rest) : qualifiedName? (word ++ rest) = none := by
  have hpoint : Stops (fun c => Expr.isNamePart c || c == '.') rest := by
    intro c hc
    have hprolongs := hrest c hc
    rw [prolongs, Bool.or_eq_false_iff] at hprolongs
    exact hprolongs.1
  obtain ⟨c, tail, rfl, hc, htail⟩ := (IsPackage.name hword).exists_tail hpoint
  simp only [List.cons_append, qualifiedName?, hc, htail, if_true]
  split
  · next heq =>
    rw [(Prod.mk.inj heq).2] at hrest
    exact absurd (stops_cons.1 hrest) (by decide)
  · rfl

/-! ## Operators -/

/-- The first characters of the operators of a level. -/
def begins (level : List Operator) (c : Char) : Bool :=
  level.any fun op => op.symbol.toList.head? == some c

/-- A symbol is not empty, and its first character prolongs no word. -/
theorem symbol_eq_cons (op : Operator) :
    ∃ c more, op.symbol.toList = c :: more ∧ prolongs c = false ∧
      Text.isSeparator c = false := by
  cases op <;> exact ⟨_, _, rfl, by decide, by decide⟩

theorem operator?_sound {level : List Operator} {text behind : List Char} {op : Operator}
    (h : operator? level text = some (op, behind)) :
    op ∈ level ∧ text = op.symbol.toList ++ behind := by
  rw [operator?] at h
  split at h
  · next found hfound =>
    simp only [Option.some.injEq, Prod.mk.injEq] at h
    obtain ⟨rfl, rfl⟩ := h
    have hbegin := List.find?_some hfound
    obtain ⟨more, rfl⟩ := List.isPrefixOf_iff_prefix.1 hbegin
    refine ⟨List.mem_of_find?_eq_some hfound, ?_⟩
    rw [← String.length_toList, List.drop_left]
  · simp at h

theorem operator?_eq_none {level : List Operator} {text : List Char}
    (h : Stops (begins level) text) : operator? level text = none := by
  have hfind : (level.find? fun op => op.symbol.toList.isPrefixOf text) = none := by
    rw [List.find?_eq_none]
    intro op hop hbegin
    obtain ⟨c, more, hsymbol, -⟩ := symbol_eq_cons op
    obtain ⟨rest, rfl⟩ := List.isPrefixOf_iff_prefix.1 hbegin
    rw [hsymbol, List.cons_append, stops_cons, begins, List.any_eq_false] at h
    exact h op hop (by simp [hsymbol])
  rw [operator?, hfind]

/-- An operator is read as it is written, when what follows could not belong to its symbol. -/
theorem operator?_append {level : List Operator} (hlevel : level ∈ levels) {op : Operator}
    (hop : op ∈ level) {behind : List Char} (hbehind : Stops (· == '=') behind) :
    operator? level (op.symbol.toList ++ behind) = some (op, behind) := by
  have hlonger : List.isPrefixOf ['='] behind = false := by
    cases behind with
    | nil => rfl
    | cons c behind =>
        have hc := stops_cons.1 hbehind
        simp only [beq_eq_false_iff_ne] at hc
        simp [List.isPrefixOf, Ne.symm hc]
  have hfind : (level.find? fun found => found.symbol.toList.isPrefixOf
      (op.symbol.toList ++ behind)) = some op := by
    simp only [levels, List.mem_cons, List.not_mem_nil, or_false] at hlevel
    rcases hlevel with rfl | rfl | rfl | rfl | rfl <;> cases op <;>
      simp [Operator.symbol, List.isPrefixOf, hlonger] at hop ⊢
  simp only [operator?, hfind]
  rw [← String.length_toList, List.drop_left]

/-- Operators of different levels begin with different characters. -/
theorem begins_tighter {level : List Operator} {tighter : List (List Operator)}
    (hlevels : level :: tighter <:+ levels) {op : Operator} (hop : op ∈ level)
    {other : List Operator} (hother : other ∈ tighter) (behind : List Char) :
    Stops (begins other) (op.symbol.toList ++ behind) := by
  have hdisjoint : ∀ tiers ∈ levels.tails, ∀ level ∈ tiers.head?, ∀ op ∈ level,
      ∀ other ∈ tiers.tail, op.symbol.toList.head?.any (begins other) = false := by
    decide
  obtain ⟨c, more, hsymbol, -⟩ := symbol_eq_cons op
  rw [hsymbol, List.cons_append, stops_cons]
  have htails : level :: tighter ∈ levels.tails := (List.mem_tails _ _).2 hlevels
  have hbegins := hdisjoint (level :: tighter) htails level rfl op hop other hother
  rw [hsymbol] at hbegins
  exact hbegins

end Grammar

end Switchboard
