import Switchboard.Proofs.Json.Written

/-!
Written JSON says which value it is.

The first character tells the kind of a value, and what stands behind it where the value ends: words
have their length, strings their closing quote, objects their closing brace, and a number goes on as
long as there are digits.  So two values that hold no float have the same text only when they are
the same value.
-/

namespace Switchboard.Json

/-- No float stands in a value. -/
inductive IsExact : Json → Prop
  | null : IsExact .null
  | boolean (b : Bool) : IsExact (.boolean b)
  | integer (n : Int) : IsExact (.integer n)
  | string (text : String) : IsExact (.string text)
  | object {pairs : List (String × Json)} (h : ∀ pair ∈ pairs, IsExact pair.2) :
      IsExact (.object pairs)

/-- What a first character can begin. -/
inductive Lead where
  | null
  | truth
  | number
  | text
  | object
deriving DecidableEq

/-- The kind of a value. -/
def lead : Json → Lead
  | .null => .null
  | .boolean _ => .truth
  | .integer _ => .number
  | .real _ => .number
  | .string _ => .text
  | .object _ => .object

/-- The kind of value that begins so. -/
def Lead.ofChar (c : Char) : Lead :=
  if c = 'n' then .null
  else if c = 't' ∨ c = 'f' then .truth
  else if c = '"' then .text
  else if c = '\x7b' then .object
  else .number

variable {json other : Json} {pairs others : List (String × Json)} {s t : Tape}

/-! ## Numbers -/

theorem IsDecimal.eq_foldl {n : Nat} {digits : List Nat} (h : IsDecimal n digits) :
    n = digits.foldl (fun number d => number * 10 + d) 0 := by
  induction h with
  | @digit d _ => exact (Nat.zero_add d).symm
  | more _ _ _ ih => rw [List.foldl_append, ← ih, List.foldl_cons, List.foldl_nil]

/-- Digits in front of a delimiter say which number they are. -/
theorem digitsOf_append_inj {m n : Nat} (hs : Delimits s) (ht : Delimits t)
    (h : (Decimal.digitsOf m).map some ++ s = (Decimal.digitsOf n).map some ++ t) :
    m = n ∧ s = t := by
  obtain ⟨digits, hdigits, htext⟩ := exists_isDecimal m
  obtain ⟨figures, hfigures, hother⟩ := exists_isDecimal n
  have hread := spanDigits_digits hdigits.lt_ten hs
  rw [← htext, h, hother, spanDigits_digits hfigures.lt_ten ht] at hread
  obtain ⟨rfl, rfl⟩ := Prod.mk.inj hread
  exact ⟨hdigits.eq_foldl.trans hfigures.eq_foldl.symm, rfl⟩

theorem exists_head_digitsOf (n : Nat) :
    ∃ d < 10, ∃ rest, Decimal.digitsOf n = Nat.digitChar d :: rest := by
  obtain ⟨digits, hdigits, htext⟩ := exists_isDecimal n
  obtain ⟨d, rest, rfl, -, -⟩ := hdigits.exists_cons
  exact ⟨d, hdigits.lt_ten d List.mem_cons_self, _, htext⟩

theorem digitsOf_append_ne_minus (n : Nat) (s rest : Tape) :
    (Decimal.digitsOf n).map some ++ s ≠ some '-' :: rest := by
  obtain ⟨d, -, digits, htext⟩ := exists_head_digitsOf n
  rw [htext]
  intro h
  exact Nat.digitChar_ne '-' (by decide) (Option.some.inj (List.cons.inj h).1)

theorem integerText_append_inj {m n : Int} (hs : Delimits s) (ht : Delimits t)
    (h : (Decimal.integerText m).map some ++ s = (Decimal.integerText n).map some ++ t) :
    m = n ∧ s = t := by
  cases m with
  | ofNat m =>
      cases n with
      | ofNat n =>
          obtain ⟨hnumber, hrest⟩ := digitsOf_append_inj hs ht h
          exact ⟨congrArg Int.ofNat hnumber, hrest⟩
      | negSucc n => exact absurd h (digitsOf_append_ne_minus m s _)
  | negSucc m =>
      cases n with
      | ofNat n => exact absurd h.symm (digitsOf_append_ne_minus n t _)
      | negSucc n =>
          obtain ⟨hnumber, hrest⟩ := digitsOf_append_inj hs ht (List.cons.inj h).2
          exact ⟨congrArg Int.negSucc (Nat.succ.inj hnumber), hrest⟩

/-! ## The first character -/

theorem ofChar_digitChar : ∀ d < 10, Lead.ofChar (Nat.digitChar d) = .number := by
  decide

theorem IsExact.exists_head (h : json.IsExact) :
    ∃ c rest, json.chars = c :: rest ∧ Lead.ofChar c = json.lead := by
  cases h with
  | null => exact ⟨'n', _, rfl, rfl⟩
  | boolean b =>
      cases b with
      | false => exact ⟨'f', _, rfl, rfl⟩
      | true => exact ⟨'t', _, rfl, rfl⟩
  | integer n =>
      cases n with
      | ofNat n =>
          obtain ⟨d, hd, rest, htext⟩ := exists_head_digitsOf n
          exact ⟨Nat.digitChar d, rest, htext, ofChar_digitChar d hd⟩
      | negSucc n => exact ⟨'-', _, rfl, rfl⟩
  | string text => exact ⟨'"', _, rfl, rfl⟩
  | object h => exact ⟨'\x7b', _, rfl, rfl⟩

theorem IsExact.lead_eq (hjson : json.IsExact) (hother : other.IsExact)
    (h : json.chars.map some ++ s = other.chars.map some ++ t) : json.lead = other.lead := by
  obtain ⟨c, rest, hchars, hlead⟩ := hjson.exists_head
  obtain ⟨d, more, hmore, hkind⟩ := hother.exists_head
  rw [hchars, hmore] at h
  rw [← hlead, ← hkind, Option.some.inj (List.cons.inj h).1]

/-! ## Strings and entries -/

theorem quote_append_inj {text word : String}
    (h : (quote text.toList).map some ++ s = (quote word.toList).map some ++ t) :
    text = word ∧ s = t := by
  have hread := readString_quote text s
  rw [h, readString_quote word t] at hread
  exact Prod.mk.inj (Except.ok.inj hread).symm

/-- In front of a delimiter no other value has the text of this one. -/
def IsUnique (json : Json) : Prop :=
  ∀ {other : Json} {s t : Tape}, other.IsExact → Delimits s → Delimits t →
    json.chars.map some ++ s = other.chars.map some ++ t → json = other ∧ s = t

theorem entry_append_inj {pair entry : String × Json} (hpair : pair.2.IsUnique)
    (hentry : entry.2.IsExact) (hs : Delimits s) (ht : Delimits t)
    (h : (quote pair.1.toList).map some ++ some ':' :: (pair.2.chars.map some ++ s) =
      (quote entry.1.toList).map some ++ some ':' :: (entry.2.chars.map some ++ t)) :
    pair = entry ∧ s = t := by
  obtain ⟨hname, hrest⟩ := quote_append_inj h
  obtain ⟨hvalue, hrest⟩ := hpair hentry hs ht (List.cons.inj hrest).2
  exact ⟨Prod.ext hname hvalue, hrest⟩

theorem furtherChars_append_inj (hpairs : ∀ pair ∈ pairs, pair.2.IsUnique)
    (hothers : ∀ pair ∈ others, pair.2.IsExact)
    (h : (furtherChars pairs).map some ++ some '\x7d' :: s =
      (furtherChars others).map some ++ some '\x7d' :: t) : pairs = others ∧ s = t := by
  induction pairs generalizing others with
  | nil =>
      cases others with
      | nil => exact ⟨rfl, (List.cons.inj h).2⟩
      | cons entry others => simp [furtherChars] at h
  | cons pair pairs ih =>
      cases others with
      | nil => simp [furtherChars] at h
      | cons entry others =>
          obtain ⟨hpair, hrow⟩ := List.forall_mem_cons.1 hpairs
          obtain ⟨hentry, hcolumn⟩ := List.forall_mem_cons.1 hothers
          have htail : (quote pair.1.toList).map some ++ some ':' :: (pair.2.chars.map some ++
                ((furtherChars pairs).map some ++ some '\x7d' :: s)) =
              (quote entry.1.toList).map some ++ some ':' :: (entry.2.chars.map some ++
                ((furtherChars others).map some ++ some '\x7d' :: t)) := by
            simpa [furtherChars] using h
          obtain ⟨rfl, hmore⟩ := entry_append_inj hpair hentry (delimits_further pairs s)
            (delimits_further others t) htail
          obtain ⟨rfl, hend⟩ := ih hrow hcolumn hmore
          exact ⟨rfl, hend⟩

theorem furtherChars_cons (pair : String × Json) (pairs : List (String × Json)) :
    furtherChars (pair :: pairs) = ',' :: entryChars (pair :: pairs) := by
  rw [entryChars_cons]
  simp [furtherChars]

theorem entryChars_append_inj (hpairs : ∀ pair ∈ pairs, pair.2.IsUnique)
    (hothers : ∀ pair ∈ others, pair.2.IsExact)
    (h : (entryChars pairs).map some ++ some '\x7d' :: s =
      (entryChars others).map some ++ some '\x7d' :: t) : pairs = others ∧ s = t := by
  cases pairs with
  | nil =>
      cases others with
      | nil => exact ⟨rfl, (List.cons.inj h).2⟩
      | cons entry others =>
          rw [entryChars_cons, quote] at h
          exact absurd (Option.some.inj (List.cons.inj h).1) (by decide)
  | cons pair pairs =>
      cases others with
      | nil =>
          rw [entryChars_cons, quote] at h
          exact absurd (Option.some.inj (List.cons.inj h).1) (by decide)
      | cons entry others =>
          apply furtherChars_append_inj hpairs hothers
          rw [furtherChars_cons, furtherChars_cons]
          exact congrArg (some ',' :: ·) h

/-- No other value without floats has the text of a value without floats. -/
theorem IsExact.isUnique (h : json.IsExact) : json.IsUnique := by
  induction h with
  | null =>
      intro other s t hother hs ht h
      have hlead := IsExact.null.lead_eq hother h
      cases hother with
      | null => exact ⟨rfl, List.append_cancel_left h⟩
      | _ => cases hlead
  | boolean b =>
      intro other s t hother hs ht h
      have hlead := (IsExact.boolean b).lead_eq hother h
      cases hother with
      | boolean c =>
          have hsame : b = c := by
            cases b with
            | false =>
                cases c with
                | false => rfl
                | true => exact absurd (Option.some.inj (List.cons.inj h).1) (by decide)
            | true =>
                cases c with
                | false => exact absurd (Option.some.inj (List.cons.inj h).1) (by decide)
                | true => rfl
          subst hsame
          exact ⟨rfl, List.append_cancel_left h⟩
      | _ => cases hlead
  | integer n =>
      intro other s t hother hs ht h
      have hlead := (IsExact.integer n).lead_eq hother h
      cases hother with
      | integer m =>
          obtain ⟨rfl, hrest⟩ := integerText_append_inj hs ht h
          exact ⟨rfl, hrest⟩
      | _ => cases hlead
  | string text =>
      intro other s t hother hs ht h
      have hlead := (IsExact.string text).lead_eq hother h
      cases hother with
      | string word =>
          obtain ⟨rfl, hrest⟩ := quote_append_inj h
          exact ⟨rfl, hrest⟩
      | _ => cases hlead
  | object hpairs ih =>
      intro other s t hother hs ht h
      have hlead := (IsExact.object hpairs).lead_eq hother h
      cases hother with
      | object hothers =>
          rw [object_append, object_append] at h
          obtain ⟨rfl, hrest⟩ := entryChars_append_inj ih hothers (List.cons.inj h).2
          exact ⟨rfl, hrest⟩
      | _ => cases hlead

/-- Two values without floats have the same text only when they are the same. -/
theorem IsExact.text_inj (hjson : json.IsExact) (hother : other.IsExact) :
    json.text = other.text ↔ json = other := by
  refine ⟨fun h => ?_, congrArg text⟩
  have hchars : json.chars = other.chars := String.ofList_injective h
  have hends : Delimits [some '\x7d'] := ⟨'\x7d', [], .inr rfl, rfl⟩
  exact (hjson.isUnique hother hends hends (by rw [hchars])).1

end Switchboard.Json
