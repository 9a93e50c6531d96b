import Switchboard.Json
import Switchboard.Json.Reader

/-!
Written JSON is read back.

Each reader takes what its writer wrote from the front of a tape and leaves what stands behind it.
Strings and objects end by themselves; a number is ended by the comma or the closing brace that
stands behind every value of an object.
-/

namespace Switchboard.Json

theorem Tape.skipBlank_cons {c : Char} (hc : Text.isSeparator c = false) (rest : Tape) :
    Tape.skipBlank (some c :: rest) = some c :: rest := by
  simp [Tape.skipBlank, hc]

/-! ## Strings -/

/-- Put a character in front of the contents that were read. -/
def prepend (c : Char) (outcome : Readable (Tape × Tape)) : Readable (Tape × Tape) :=
  outcome.map fun (contents, rest) => (some c :: contents, rest)

theorem stringContents_silent {state next : StringState} {place : Option Char}
    (h : state.step true place = .ok (.on next none)) (tape : Tape) :
    stringContents true state (place :: tape) = stringContents true next tape := by
  simp only [stringContents, h]
  cases stringContents true next tape with
  | error fault => rfl
  | ok found => rfl

theorem stringContents_found {state : StringState} {place : Option Char} {c : Char}
    (h : state.step true place = .ok (.on .plain (some (some c)))) (tape : Tape) :
    stringContents true state (place :: tape) = prepend c (stringContents true .plain tape) := by
  rw [stringContents, h]
  rfl

theorem step_backslash :
    StringState.plain.step true (some '\\') = .ok (.on .escape none) :=
  rfl

theorem step_u :
    StringState.escape.step true (some 'u') = .ok (.on (.digits 4 (some 0) none) none) :=
  rfl

theorem stringContents_letter {letter c : Char} (hletter : letter ≠ 'u')
    (h : escaped? letter = some c) (tape : Tape) :
    stringContents true .plain (some '\\' :: some letter :: tape) =
      prepend c (stringContents true .plain tape) := by
  have hstep : StringState.escape.step true (some letter) = .ok (.on .plain (some (some c))) := by
    simp only [StringState.step, if_neg hletter, h]
  rw [stringContents_silent step_backslash, stringContents_found hstep]

theorem hexValue?_hexDigit : ∀ n < 16, hexValue? (hexDigit n) = some n := by
  decide

theorem utf8Size_hexDigit : ∀ n < 16, (hexDigit n).utf8Size = 1 := by
  decide

theorem step_digit {left number n : Nat} (hn : n < 16) (hleft : 1 < left) :
    (StringState.digits left (some number) none).step true (some (hexDigit n)) =
      .ok (.on (.digits (left - 1) (some (number * 16 + n)) none) none) := by
  simp [StringState.step, utf8Size_hexDigit n hn, hexValue?_hexDigit n hn, hleft]

theorem step_last_digit {number n : Nat} (hn : n < 16) (hsmall : number * 16 + n < 0x20) :
    (StringState.digits 1 (some number) none).step true (some (hexDigit n)) =
      .ok (.on .plain (some (some (Char.ofNat (number * 16 + n))))) := by
  have hhigh : ¬ (0xd800 ≤ number * 16 + n ∧ number * 16 + n ≤ 0xdbff) := by omega
  have hlow : ¬ (0xdc00 ≤ number * 16 + n ∧ number * 16 + n ≤ 0xdfff) := by omega
  simp [StringState.step, utf8Size_hexDigit n hn, hexValue?_hexDigit n hn,
    StringState.afterNumber, hhigh, hlow]

theorem stringContents_control {c : Char} (h : c.toNat < 0x20) (tape : Tape) :
    stringContents true .plain (['\\', 'u', '0', '0', hexDigit (c.toNat / 16),
        hexDigit (c.toNat % 16)].map some ++ tape) =
      prepend c (stringContents true .plain tape) := by
  have hvalue : c.toNat / 16 * 16 + c.toNat % 16 = c.toNat := by omega
  have hzero : '0' = hexDigit 0 := rfl
  have hlast : (StringState.digits 1 (some (c.toNat / 16)) none).step true
      (some (hexDigit (c.toNat % 16))) = .ok (.on .plain (some (some c))) := by
    rw [step_last_digit (by omega) (by omega), hvalue, Char.ofNat_toNat]
  simp only [List.map_cons, List.map_nil, List.cons_append, List.nil_append]
  rw [stringContents_silent step_backslash, stringContents_silent step_u, hzero,
    stringContents_silent (step_digit (by omega) (by omega)),
    stringContents_silent (step_digit (by omega) (by omega)),
    stringContents_silent (step_digit (by omega) (by omega)), stringContents_found]
  simpa using hlast

theorem stringContents_escapeChar (c : Char) (tape : Tape) :
    stringContents true .plain ((escapeChar c).map some ++ tape) =
      prepend c (stringContents true .plain tape) := by
  simp only [escapeChar, beq_iff_eq]
  -- Seven characters are escaped by a letter of their own.
  iterate 7
    split
    · next hc =>
      subst hc
      exact stringContents_letter (by decide) rfl tape
  split
  · next hc => exact stringContents_control hc tape
  · next hquote hback _ _ _ _ _ hcontrol =>
    have hstep : StringState.plain.step true (some c) = .ok (.on .plain (some (some c))) := by
      simp only [StringState.step, if_neg hquote, if_neg hback, if_neg hcontrol]
    exact stringContents_found hstep tape

theorem stringContents_escaped (text : List Char) (rest : Tape) :
    stringContents true .plain ((text.flatMap escapeChar).map some ++ some '"' :: rest) =
      .ok (text.map some, rest) := by
  induction text with
  | nil => rfl
  | cons c text ih =>
      rw [List.flatMap_cons, List.map_append, List.append_assoc, stringContents_escapeChar, ih]
      rfl

theorem Tape.text?_ofText (text : String) : Tape.text? (Tape.ofText text) = some text := by
  have hplaces (word : List Char) : (word.map some).mapM id = some word := by
    induction word with
    | nil => rfl
    | cons c word ih =>
        rw [List.map_cons, List.mapM_cons, ih]
        rfl
  rw [Tape.text?, Tape.ofText, hplaces, Option.map_some, String.ofList_toList]

/-- A quoted string is read as the string, behind its opening quote. -/
theorem readQuoted_escaped (text : String) (rest : Tape) :
    readQuoted ((text.toList.flatMap escapeChar).map some ++ some '"' :: rest) =
      .ok (text, rest) := by
  have htext : Tape.text? (text.toList.map some) = some text := Tape.text?_ofText text
  simp only [readQuoted, stringContents_escaped, bind, Except.bind, htext]

theorem quote_append (text : List Char) (rest : Tape) :
    (quote text).map some ++ rest =
      some '"' :: ((text.flatMap escapeChar).map some ++ some '"' :: rest) := by
  simp [quote]

theorem readString_quote (text : String) (rest : Tape) :
    readString ((quote text.toList).map some ++ rest) = .ok (text, rest) := by
  rw [quote_append, readString, Tape.skipBlank_cons (by decide)]
  exact readQuoted_escaped text rest

/-! ## Numbers -/

/-- The digits of a number, without a zero in front. -/
inductive IsDecimal : Nat → List Nat → Prop
  | digit {d : Nat} (hd : d < 10) : IsDecimal d [d]
  | more {n d : Nat} {digits : List Nat} (hn : 0 < n) (hd : d < 10) (h : IsDecimal n digits) :
      IsDecimal (n * 10 + d) (digits ++ [d])

theorem exists_isDecimal (n : Nat) :
    ∃ digits, IsDecimal n digits ∧ Decimal.digitsOf n = digits.map Nat.digitChar := by
  induction n using Nat.strongRecOn with
  | ind n ih =>
      rw [Decimal.digitsOf, Nat.toDigits_eq_if (by decide)]
      split
      · next hsmall => exact ⟨[n], .digit hsmall, rfl⟩
      · next hlarge =>
        obtain ⟨digits, hdigits, htext⟩ := ih (n / 10) (by omega)
        refine ⟨digits ++ [n % 10], ?_, ?_⟩
        · have hmore := IsDecimal.more (by omega) (Nat.mod_lt n (by decide)) hdigits
          rwa [Nat.div_add_mod' n 10] at hmore
        · rw [Decimal.digitsOf] at htext
          rw [htext, List.map_append]
          rfl

variable {n : Nat} {digits : List Nat}

theorem IsDecimal.lt_ten (h : IsDecimal n digits) : ∀ d ∈ digits, d < 10 := by
  induction h with
  | digit hd => simpa using hd
  | more _ hd _ ih =>
      intro e he
      rcases List.mem_append.1 he with he | he
      · exact ih e he
      · rwa [List.mem_singleton.1 he]

theorem IsDecimal.exists_cons (h : IsDecimal n digits) :
    ∃ d rest, digits = d :: rest ∧ (0 < n → 0 < d) ∧ (n = 0 → rest = []) := by
  induction h with
  | digit hd => exact ⟨_, [], rfl, id, fun _ => rfl⟩
  | more hn _ _ ih =>
      obtain ⟨d, rest, rfl, hpos, -⟩ := ih
      exact ⟨d, _, rfl, fun _ => hpos hn, by omega⟩

theorem IsDecimal.absorb (h : IsDecimal n digits) (hn : n ≤ NumberText.significandLimit)
    (more : List Nat) :
    NumberText.absorb 0 (digits ++ more) = NumberText.absorb n more := by
  induction h generalizing more with
  | digit hd =>
      rw [List.singleton_append, NumberText.absorb, Nat.zero_mul, Nat.zero_add, if_pos hn]
  | more _ hd _ ih =>
      rw [List.append_assoc, ih (by omega), List.singleton_append, NumberText.absorb, if_pos hn]

/-- A comma or a closing brace comes next. -/
def Delimits (rest : Tape) : Prop :=
  ∃ c more, (c = ',' ∨ c = '\x7d') ∧ rest = some c :: more

theorem digit?_digitChar {d : Nat} (hd : d < 10) : digit? (some (Nat.digitChar d)) = some d := by
  simp only [digit?, Nat.isDigit_digitChar, hd, decide_true, ↓reduceIte]
  exact congrArg some (Nat.toNat_digitChar_sub_48_of_lt_ten hd)

theorem spanDigits_digits (h : ∀ d ∈ digits, d < 10) {rest : Tape} (hrest : Delimits rest) :
    spanDigits ((digits.map Nat.digitChar).map some ++ rest) = (digits, rest) := by
  induction digits with
  | nil =>
      obtain ⟨c, more, rfl | rfl, rfl⟩ := hrest
      · rfl
      · rfl
  | cons d digits ih =>
      obtain ⟨hd, hdigits⟩ := List.forall_mem_cons.1 h
      simp only [List.map_cons, List.cons_append, spanDigits, digit?_digitChar hd, ih hdigits]

theorem readWhole_digits (h : IsDecimal n digits) {rest : Tape} (hrest : Delimits rest) :
    readWhole .endsEarly ((digits.map Nat.digitChar).map some ++ rest) = .ok (digits, rest) := by
  obtain ⟨d, others, rfl, hpos, hzero⟩ := h.exists_cons
  have hread : readDigits .endsEarly (((d :: others).map Nat.digitChar).map some ++ rest) =
      .ok (d :: others, rest) := by
    simp only [readDigits, spanDigits_digits h.lt_ten hrest]
  rw [readWhole, hread]
  rcases Nat.eq_zero_or_pos n with hn | hn
  · rw [hzero hn]
    split
    · next heq => cases heq
    · rfl
  · have hd := hpos hn
    split
    · next heq =>
      cases heq
      omega
    · rfl

/-- Digits without sign, fraction and exponent. -/
theorem readNumberText_digits (h : IsDecimal n digits) {rest : Tape} (hrest : Delimits rest) :
    readNumberText .endsEarly ((digits.map Nat.digitChar).map some ++ rest) =
      .ok (⟨false, digits, none, none⟩, rest) := by
  have hwhole := readWhole_digits h hrest
  obtain ⟨d, others, rfl, -⟩ := h.exists_cons
  have hminus : Nat.digitChar d ≠ '-' := Nat.digitChar_ne '-' (by decide)
  have hfraction : readFraction .endsEarly rest = .ok (none, rest) := by
    obtain ⟨c, more, rfl | rfl, rfl⟩ := hrest
    · rfl
    · rfl
  have hexponent : readExponent .endsEarly rest = .ok (none, rest) := by
    obtain ⟨c, more, rfl | rfl, rfl⟩ := hrest
    · rfl
    · rfl
  rw [readNumberText]
  · simp only [hwhole, bind, Except.bind, hfraction, hexponent]
  · intro rest heq
    simp only [List.map_cons, List.cons_append, List.cons.injEq, Option.some.injEq] at heq
    exact hminus heq.1

/-- Below the limit no digit of a number counts only by its place. -/
theorem IsDecimal.absorb_eq (h : IsDecimal n digits) (hn : n < UInt64.size) :
    NumberText.absorb 0 digits = (n, []) := by
  have hlimit : n ≤ NumberText.significandLimit := by
    change n ≤ UInt64.size - 1
    omega
  have habsorb := h.absorb hlimit []
  rwa [List.append_nil] at habsorb

theorem readNumber_digits (h : IsDecimal n digits) (hn : n < UInt64.size) {rest : Tape}
    (hrest : Delimits rest) :
    readNumber ((digits.map Nat.digitChar).map some ++ rest) =
      .ok (⟨false, digits, none, none⟩, rest) := by
  have hscaled : NumberText.scaled ⟨false, digits, none, none⟩ = (n, 0) := by
    simp only [NumberText.scaled, h.absorb_eq hn]
    rfl
  have hfloat : NumberText.isPastFloats n 0 = false := by
    simp [NumberText.isPastFloats]
  rw [readNumber, readNumberText_digits h hrest]
  simp only [bind, Except.bind, hscaled, hfloat]
  rfl

/-- A natural number below the limit is read from its digits. -/
theorem readNatural_integerText (hn : n < UInt64.size) {rest : Tape} (hrest : Delimits rest) :
    readNatural ((Decimal.integerText n).map some ++ rest) = .ok (n, rest) := by
  obtain ⟨digits, hdecimal, htext⟩ := exists_isDecimal n
  have hnatural : NumberText.natural? ⟨false, digits, none, none⟩ = some n := by
    simp only [NumberText.natural?, hdecimal.absorb_eq hn]
  have hnumber := readNumber_digits hdecimal hn hrest
  obtain ⟨d, others, rfl, -⟩ := hdecimal.exists_cons
  have hd : (Nat.digitChar d).isDigit = true := by
    rw [Nat.isDigit_digitChar]
    exact decide_eq_true (hdecimal.lt_ten d List.mem_cons_self)
  have hblank : Text.isSeparator (Nat.digitChar d) = false := by
    simp [Text.isSeparator, Nat.digitChar_ne]
  have hchars : Decimal.integerText n = (d :: others).map Nat.digitChar := htext
  rw [hchars]
  simp only [List.map_cons, List.cons_append] at hnumber ⊢
  simp only [readNatural, Tape.skipBlank_cons hblank, hd, or_true, ↓reduceIte, hnumber, bind,
    Except.bind, hnatural]

/-! ## Objects -/

/-- The entries behind the first one, each behind its comma. -/
def furtherChars (pairs : List (String × Json)) : List Char :=
  pairs.flatMap fun pair => ',' :: (quote pair.1.toList ++ ':' :: chars pair.2)

theorem entryChars_cons (name : String) (value : Json) (pairs : List (String × Json)) :
    entryChars ((name, value) :: pairs) =
      quote name.toList ++ ':' :: (chars value ++ furtherChars pairs) := by
  induction pairs generalizing name value with
  | nil => simp [entryChars, furtherChars]
  | cons pair pairs ih =>
      rw [entryChars, ih]
      · simp [furtherChars]
      · simp

theorem length_le_furtherChars (pairs : List (String × Json)) :
    pairs.length ≤ (furtherChars pairs).length := by
  induction pairs with
  | nil => exact Nat.le_refl _
  | cons pair pairs ih =>
      rw [furtherChars] at ih ⊢
      rw [List.flatMap_cons, List.length_append, List.length_cons, List.length_cons]
      omega

theorem delimits_further (pairs : List (String × Json)) (rest : Tape) :
    Delimits ((furtherChars pairs).map some ++ some '\x7d' :: rest) := by
  cases pairs with
  | nil => exact ⟨'\x7d', rest, .inr rfl, rfl⟩
  | cons pair pairs => exact ⟨',', _, .inl rfl, rfl⟩

theorem nextName_first (name : String) (tape : Tape) :
    nextName true ((quote name.toList).map some ++ tape) = .ok (some name, tape) := by
  rw [quote_append, nextName, Tape.skipBlank_cons (by decide)]
  simp only [↓reduceIte, readQuoted_escaped]
  rfl

theorem nextName_further (name : String) (tape : Tape) :
    nextName false (some ',' :: ((quote name.toList).map some ++ tape)) =
      .ok (some name, tape) := by
  rw [quote_append, nextName, Tape.skipBlank_cons (by decide)]
  simp only [Bool.false_eq_true, ↓reduceIte]
  rw [Tape.skipBlank_cons (by decide)]
  simp only [readQuoted_escaped]
  rfl

section Entries

variable {S : Type} {entry : S → String → Tape → Readable (S × Tape)} {start last : S}
  {pairs : List (String × Json)}

/-- Reading the written value behind this name takes one state to the other. -/
def ReadsEntry (entry : S → String → Tape → Readable (S × Tape)) (state : S) (name : String)
    (value : Json) (next : S) : Prop :=
  ∀ rest, Delimits rest →
    entry state name (some ':' :: ((chars value).map some ++ rest)) = .ok (next, rest)

/-- Reading these entries one by one takes one state to the other. -/
inductive Absorbs (entry : S → String → Tape → Readable (S × Tape)) :
    S → List (String × Json) → S → Prop
  | nil {state : S} : Absorbs entry state [] state
  | cons {state next last : S} {name : String} {value : Json} {pairs : List (String × Json)}
      (hentry : ReadsEntry entry state name value next)
      (hpairs : Absorbs entry next pairs last) :
      Absorbs entry state ((name, value) :: pairs) last

theorem foldEntries_further (h : Absorbs entry start pairs last) (rest : Tape) {fuel : Nat}
    (hfuel : pairs.length < fuel) :
    foldEntries entry fuel false start ((furtherChars pairs).map some ++ some '\x7d' :: rest) =
      .ok (last, rest) := by
  induction h generalizing fuel with
  | nil =>
      obtain ⟨fewer, rfl⟩ : ∃ fewer, fuel = fewer + 1 := ⟨fuel - 1, by omega⟩
      rfl
  | @cons _ next _ name value pairs hentry _ ih =>
      rw [List.length_cons] at hfuel
      obtain ⟨fewer, rfl⟩ : ∃ fewer, fuel = fewer + 1 := ⟨fuel - 1, by omega⟩
      have htape : (furtherChars ((name, value) :: pairs)).map some ++ some '\x7d' :: rest =
          some ',' :: ((quote name.toList).map some ++ some ':' :: ((chars value).map some ++
            ((furtherChars pairs).map some ++ some '\x7d' :: rest))) := by
        simp [furtherChars]
      rw [htape, foldEntries, nextName_further]
      simp only [hentry _ (delimits_further pairs rest)]
      exact ih (by omega)

/-- The entries of an object are read behind its opening brace. -/
theorem readEntries_entryChars (h : Absorbs entry start pairs last) (rest : Tape) :
    readEntries entry start ((entryChars pairs).map some ++ some '\x7d' :: rest) =
      .ok (last, rest) := by
  cases h with
  | nil => rfl
  | @cons _ next _ name value pairs hentry hpairs =>
      have htape : (entryChars ((name, value) :: pairs)).map some ++ some '\x7d' :: rest =
          (quote name.toList).map some ++ some ':' :: ((chars value).map some ++
            ((furtherChars pairs).map some ++ some '\x7d' :: rest)) := by
        simp [entryChars_cons]
      have hfuel := length_le_furtherChars pairs
      rw [htape, readEntries, foldEntries, nextName_first]
      simp only [hentry _ (delimits_further pairs rest)]
      apply foldEntries_further hpairs
      simp only [List.length_append, List.length_cons, List.length_map]
      omega

end Entries

theorem object_append (pairs : List (String × Json)) (rest : Tape) :
    (chars (.object pairs)).map some ++ rest =
      some '\x7b' :: ((entryChars pairs).map some ++ some '\x7d' :: rest) := by
  simp [chars]

theorem readColon_cons (tape : Tape) : readColon (some ':' :: tape) = .ok tape := by
  rw [readColon, Tape.skipBlank_cons (by decide)]
  rfl

/-! ## Dictionaries -/

section Dict

variable {A : Type} {value : Tape → Readable (A × Tape)} {write : A → Json}

/-- What `readDict` does with an entry. -/
def bindEntry (value : Tape → Readable (A × Tape)) (dict : Dict A) (name : String) (tape : Tape) :
    Readable (Dict A × Tape) := do
  let rest ← readColon tape
  let (found, rest) ← value rest
  .ok (dict.bind name found, rest)

theorem absorbs_bindEntry {after : Entries A} (known dict : Dict A)
    (hdict : dict.entries = known.entries ++ after)
    (hvalue : ∀ pair ∈ after, ∀ rest, Delimits rest →
      value ((chars (write pair.2)).map some ++ rest) = .ok (pair.2, rest)) :
    Absorbs (bindEntry value) known (after.map fun pair => (pair.1, write pair.2)) dict := by
  induction after generalizing known with
  | nil =>
      have hsame : known = dict := Dict.ext (by rw [hdict, List.append_nil])
      rw [hsame]
      exact .nil
  | cons pair after ih =>
      obtain ⟨hpair, hafter⟩ := List.forall_mem_cons.1 hvalue
      have hfresh : pair.1 ∉ known.entries.names := by
        have hdistinct := dict.distinct
        rw [hdict, Entries.names, List.map_append, List.nodup_append] at hdistinct
        intro hmem
        exact hdistinct.2.2 _ hmem _ (List.mem_map_of_mem List.mem_cons_self) rfl
      have hentries : (known.bind pair.1 pair.2).entries = known.entries ++ [pair] :=
        Entries.bind_of_not_mem _ hfresh
      have hrest := ih (known.bind pair.1 pair.2) (by simp [hentries, hdict]) hafter
      refine .cons ?_ hrest
      intro rest hdelimits
      simp only [bindEntry, readColon_cons, bind, Except.bind, hpair rest hdelimits]

/-- A dictionary is read back from its values, in its order. -/
theorem readDict_object (dict : Dict A)
    (hvalue : ∀ pair ∈ dict.entries, ∀ rest, Delimits rest →
      value ((chars (write pair.2)).map some ++ rest) = .ok (pair.2, rest)) (rest : Tape) :
    readDict value ((chars (.object (dict.entries.map fun pair => (pair.1, write pair.2)))).map some
      ++ rest) = .ok (dict, rest) := by
  have habsorbs := absorbs_bindEntry Dict.empty dict rfl hvalue
  rw [object_append, readDict, Tape.skipBlank_cons (by decide)]
  exact readEntries_entryChars habsorbs rest

end Dict

end Switchboard.Json
