import Mathlib.Data.String.Basic
import Switchboard.Proofs.Typing

/-!
Comparisons.

Six operators compare integers and strings, and each of them goes its own way about it.  All the
same they fit together: each says of the keys of two values what its name says, where the key of an
integer is the number and the key of a string is the string, and keys are in a total order.

Strings are ordered by the code points of their characters.  Their bytes are in the same order: a
character that is written with more bytes begins with a greater one, and among those of one length
the bits of the code point are spread over the bytes from the highest on.
-/

namespace Switchboard

/-! ## The bytes of a text -/

namespace Text

/-- The bytes that a character is written with, by its code point: the first one tells how many
there are and holds the highest bits, and the others hold six bits each. -/
inductive Encodes : Nat → List UInt8 → Prop
  | one {n : Nat} (hmax : n < 0x80) : Encodes n [UInt8.ofNat n]
  | two {n : Nat} (hmin : 0x80 ≤ n) (hmax : n < 0x800) :
      Encodes n [UInt8.ofNat (n / 64 + 192), UInt8.ofNat (n % 64 + 128)]
  | three {n : Nat} (hmin : 0x800 ≤ n) (hmax : n < 0x10000) :
      Encodes n [UInt8.ofNat (n / 64 / 64 + 224), UInt8.ofNat (n / 64 % 64 + 128),
        UInt8.ofNat (n % 64 + 128)]
  | four {n : Nat} (hmin : 0x10000 ≤ n) (hmax : n < 0x110000) :
      Encodes n [UInt8.ofNat (n / 64 / 64 / 64 + 240), UInt8.ofNat (n / 64 / 64 % 64 + 128),
        UInt8.ofNat (n / 64 % 64 + 128), UInt8.ofNat (n % 64 + 128)]

theorem encodes_utf8EncodeChar (c : Char) : Encodes c.toNat (String.utf8EncodeChar c) := by
  have hvalid : c.toNat < 0xd800 ∨ 0xdfff < c.toNat ∧ c.toNat < 0x110000 := c.valid
  have hbytes : String.utf8EncodeChar c =
      if c.toNat ≤ 0x7f then [UInt8.ofNat c.toNat]
      else if c.toNat ≤ 0x7ff then
        [UInt8.ofNat (c.toNat / 64 % 32 + 192), UInt8.ofNat (c.toNat % 64 + 128)]
      else if c.toNat ≤ 0xffff then
        [UInt8.ofNat (c.toNat / 4096 % 16 + 224), UInt8.ofNat (c.toNat / 64 % 64 + 128),
          UInt8.ofNat (c.toNat % 64 + 128)]
      else
        [UInt8.ofNat (c.toNat / 262144 % 8 + 240), UInt8.ofNat (c.toNat / 4096 % 64 + 128),
          UInt8.ofNat (c.toNat / 64 % 64 + 128), UInt8.ofNat (c.toNat % 64 + 128)] := rfl
  rw [hbytes]
  generalize c.toNat = n at hvalid
  split_ifs with hone htwo hthree
  · exact .one (by omega)
  · have hlead : n / 64 % 32 = n / 64 := by omega
    rw [hlead]
    exact .two (by omega) (by omega)
  · have hlead : n / 4096 % 16 = n / 64 / 64 := by omega
    rw [hlead]
    exact .three (by omega) (by omega)
  · have hlead : n / 262144 % 8 = n / 64 / 64 / 64 := by omega
    have hnext : n / 4096 % 64 = n / 64 / 64 % 64 := by omega
    rw [hlead, hnext]
    exact .four (by omega) (by omega)

theorem byte_cons_lt_iff {m n : Nat} (hm : m < 256) (hn : n < 256) {xs ys : List UInt8} :
    UInt8.ofNat m :: xs < UInt8.ofNat n :: ys ↔ m < n ∨ m = n ∧ xs < ys := by
  rw [List.cons_lt_cons_iff, UInt8.lt_iff_toNat_lt, ← UInt8.toNat_inj, UInt8.toNat_ofNat',
    UInt8.toNat_ofNat', Nat.mod_eq_of_lt hm, Nat.mod_eq_of_lt hn]

/-- The smaller of two characters has the smaller bytes, whatever comes behind them. -/
theorem Encodes.lt {m n : Nat} {xs ys : List UInt8} (hm : Encodes m xs) (hn : Encodes n ys)
    (h : m < n) (behind after : List UInt8) : xs ++ behind < ys ++ after := by
  cases hm <;> cases hn <;> simp only [List.cons_append, List.nil_append] <;>
    rw [byte_cons_lt_iff (by omega) (by omega)]
  -- Characters of different lengths are told apart by their first bytes.
  all_goals try (left; omega)
  all_goals rw [byte_cons_lt_iff (by omega) (by omega)]
  · omega
  · rw [byte_cons_lt_iff (by omega) (by omega)]
    omega
  · rw [byte_cons_lt_iff (by omega) (by omega), byte_cons_lt_iff (by omega) (by omega)]
    omega

theorem Encodes.nil_lt {n : Nat} {xs : List UInt8} (h : Encodes n xs) (behind : List UInt8) :
    [] < xs ++ behind := by
  cases h <;> exact List.nil_lt_cons _ _

theorem encode_lt {s t : List Char} (h : s < t) :
    s.flatMap String.utf8EncodeChar < t.flatMap String.utf8EncodeChar := by
  induction s generalizing t with
  | nil =>
      cases t with
      | nil => exact absurd h (List.not_lt_nil _)
      | cons d t =>
          rw [List.flatMap_cons]
          exact (encodes_utf8EncodeChar d).nil_lt _
  | cons c s ih =>
      cases t with
      | nil => exact absurd h (List.not_lt_nil _)
      | cons d t =>
          rw [List.flatMap_cons, List.flatMap_cons]
          rcases List.cons_lt_cons_iff.1 h with hhead | ⟨rfl, htail⟩
          · exact (encodes_utf8EncodeChar c).lt (encodes_utf8EncodeChar d) hhead _ _
          · exact List.append_left_lt (ih htail)

theorem toUTF8_eq (text : String) :
    text.toUTF8.data.toList = text.toList.flatMap String.utf8EncodeChar := by
  rw [String.toUTF8_eq_toByteArray, ← String.utf8Encode_toList]
  exact List.toList_data_toByteArray

/-- Texts are in the order of their bytes. -/
theorem toUTF8_lt_iff {s t : String} : s.toUTF8.data.toList < t.toUTF8.data.toList ↔ s < t := by
  have hlt {s t : String} (h : s < t) : s.toUTF8.data.toList < t.toUTF8.data.toList := by
    rw [toUTF8_eq, toUTF8_eq]
    exact encode_lt (String.lt_iff_toList_lt.1 h)
  constructor
  · intro h
    rcases lt_trichotomy s t with hless | rfl | hless
    · exact hless
    · exact absurd h (List.lt_irrefl _)
    · exact absurd h (List.lt_asymm (hlt hless))
  · exact hlt

/-- Texts are in the order of their code points. -/
theorem codePoints_lt_iff {s t : String} :
    s.toList.map Char.toNat < t.toList.map Char.toNat ↔ s < t := by
  rw [String.lt_iff_toList_lt]
  generalize s.toList = s
  generalize t.toList = t
  induction s generalizing t with
  | nil => cases t <;> simp
  | cons c s ih =>
      cases t with
      | nil => simp
      | cons d t =>
          rw [List.map_cons, List.map_cons, List.cons_lt_cons_iff, List.cons_lt_cons_iff, ih,
            Char.toNat_inj]
          rfl

theorem lt_append {rest : String} (hrest : rest ≠ "") (s : String) : s < s ++ rest := by
  rw [String.lt_iff_toList_lt, String.toList_append]
  cases htail : rest.toList with
  | nil => exact absurd (String.toList_eq_nil_iff.1 htail) hrest
  | cons c tail =>
      have hless : s.toList ++ [] < s.toList ++ c :: tail :=
        List.append_left_lt (List.nil_lt_cons c tail)
      rw [List.append_nil] at hless
      exact hless

end Text

/-! ## Operators -/

namespace OperatorTable

/-- The operation comes to `true`. -/
def Holds (table : OperatorTable) (op : Operator) (x y : Value) : Prop :=
  table.apply op x y = .ok (.boolean true)

/-- The comparisons of a table put the values of a type in a total order. -/
structure Orders (table : OperatorTable) (type : ValueType) : Prop where
  decides : ∀ x y, x.type = type → y.type = type → ∀ op, Typing.isComparison op = true →
    ∃ answer, table.apply op x y = .ok (.boolean answer)
  /-- One of the three holds, and only one. -/
  trichotomy : ∀ x y, x.type = type → y.type = type →
    (table.Holds .lessThan x y ∧ ¬ table.Holds .equal x y ∧ ¬ table.Holds .lessThan y x) ∨
    (¬ table.Holds .lessThan x y ∧ table.Holds .equal x y ∧ ¬ table.Holds .lessThan y x) ∨
    (¬ table.Holds .lessThan x y ∧ ¬ table.Holds .equal x y ∧ table.Holds .lessThan y x)
  transitive : ∀ x y z, x.type = type → y.type = type → z.type = type →
    table.Holds .lessThan x y → table.Holds .lessThan y z → table.Holds .lessThan x z
  lessThanEqual : ∀ x y, x.type = type → y.type = type →
    (table.Holds .lessThanEqual x y ↔ ¬ table.Holds .lessThan y x)
  greaterThan : ∀ x y, x.type = type → y.type = type →
    table.apply .greaterThan x y = table.apply .lessThan y x
  greaterThanEqual : ∀ x y, x.type = type → y.type = type →
    table.apply .greaterThanEqual x y = table.apply .lessThanEqual y x
  notEqual : ∀ x y, x.type = type → y.type = type →
    (table.Holds .notEqual x y ↔ ¬ table.Holds .equal x y)
  equal : ∀ x y, x.type = type → y.type = type → (table.Holds .equal x y ↔ x.same y = true)

/-- Two values are compared by their keys. -/
structure Compares {K : Type} [LinearOrder K] (table : OperatorTable) (x y : Value) (a b : K) :
    Prop where
  lessThan : table.apply .lessThan x y = .ok (.boolean (decide (a < b)))
  lessThanEqual : table.apply .lessThanEqual x y = .ok (.boolean (decide (a ≤ b)))
  greaterThan : table.apply .greaterThan x y = .ok (.boolean (decide (b < a)))
  greaterThanEqual : table.apply .greaterThanEqual x y = .ok (.boolean (decide (b ≤ a)))
  equal : table.apply .equal x y = .ok (.boolean (decide (a = b)))
  notEqual : table.apply .notEqual x y = .ok (.boolean (decide (a ≠ b)))
  same : x.same y = decide (a = b)

section Keys

variable {K : Type} [LinearOrder K] {table : OperatorTable}

theorem holds_iff {op : Operator} {x y : Value} {p : Prop} [Decidable p]
    (h : table.apply op x y = .ok (.boolean (decide p))) : table.Holds op x y ↔ p := by
  simp [Holds, h]

/-- Comparing by keys in a total order makes a total order, in which the six operators fit
together. -/
theorem orders_of_compares {type : ValueType} (key : Value → K)
    (hcompares : ∀ x y, x.type = type → y.type = type → table.Compares x y (key x) (key y)) :
    table.Orders type where
  decides x y hx hy op hop := by
    have h := hcompares x y hx hy
    cases op with
    | equal => exact ⟨_, h.equal⟩
    | notEqual => exact ⟨_, h.notEqual⟩
    | lessThan => exact ⟨_, h.lessThan⟩
    | greaterThan => exact ⟨_, h.greaterThan⟩
    | lessThanEqual => exact ⟨_, h.lessThanEqual⟩
    | greaterThanEqual => exact ⟨_, h.greaterThanEqual⟩
    | _ => cases hop
  trichotomy x y hx hy := by
    rw [holds_iff (hcompares x y hx hy).lessThan, holds_iff (hcompares x y hx hy).equal,
      holds_iff (hcompares y x hy hx).lessThan]
    rcases lt_trichotomy (key x) (key y) with hless | heq | hless
    · exact .inl ⟨hless, hless.ne, hless.asymm⟩
    · exact .inr (.inl ⟨heq.not_lt, heq, heq.not_gt⟩)
    · exact .inr (.inr ⟨hless.asymm, hless.ne', hless⟩)
  transitive x y z hx hy hz := by
    rw [holds_iff (hcompares x y hx hy).lessThan, holds_iff (hcompares y z hy hz).lessThan,
      holds_iff (hcompares x z hx hz).lessThan]
    exact lt_trans
  lessThanEqual x y hx hy := by
    rw [holds_iff (hcompares x y hx hy).lessThanEqual, holds_iff (hcompares y x hy hx).lessThan]
    exact not_lt.symm
  greaterThan x y hx hy :=
    (hcompares x y hx hy).greaterThan.trans (hcompares y x hy hx).lessThan.symm
  greaterThanEqual x y hx hy :=
    (hcompares x y hx hy).greaterThanEqual.trans (hcompares y x hy hx).lessThanEqual.symm
  notEqual x y hx hy := by
    rw [holds_iff (hcompares x y hx hy).notEqual, holds_iff (hcompares x y hx hy).equal]
  equal x y hx hy := by
    rw [holds_iff (hcompares x y hx hy).equal, (hcompares x y hx hy).same, decide_eq_true_iff]

end Keys

theorem compares_integers (a b : Int64) :
    standard.Compares (.integer a) (.integer b) a.toInt b.toInt where
  lessThan := by
    rw [decide_eq_decide.2 Int64.lt_iff_toInt_lt.symm]
    rfl
  lessThanEqual := by
    rw [decide_eq_decide.2 Int64.le_iff_toInt_le.symm]
    rfl
  greaterThan := by
    rw [decide_eq_decide.2 Int64.lt_iff_toInt_lt.symm]
    rfl
  greaterThanEqual := by
    rw [decide_eq_decide.2 Int64.le_iff_toInt_le.symm]
    rfl
  equal := by
    rw [decide_eq_decide.2 Int64.toInt_inj]
    rfl
  notEqual := by
    rw [decide_eq_decide.2 (not_congr Int64.toInt_inj), decide_not]
    rfl
  same := by
    rw [decide_eq_decide.2 Int64.toInt_inj]
    rfl

theorem compares_strings (s t : String) : standard.Compares (.string s) (.string t) s t where
  lessThan := rfl
  lessThanEqual := by
    rw [← decide_eq_decide.2 not_lt, decide_not]
    rfl
  greaterThan := rfl
  greaterThanEqual := by
    rw [← decide_eq_decide.2 not_lt, decide_not]
    rfl
  equal := rfl
  notEqual := by
    rw [decide_not]
    rfl
  same := rfl

/-- The number in a value. -/
def integerKey : Value → Int
  | .integer n => n.toInt
  | _ => 0

/-- The text in a value. -/
def stringKey : Value → String
  | .string text => text
  | _ => ""

theorem orders_integers : standard.Orders .integer := by
  apply orders_of_compares integerKey
  intro x y hx hy
  cases x with
  | integer a =>
      cases y with
      | integer b => exact compares_integers a b
      | _ => cases hy
  | _ => cases hx

theorem orders_strings : standard.Orders .string := by
  apply orders_of_compares stringKey
  intro x y hx hy
  cases x with
  | string s =>
      cases y with
      | string t => exact compares_strings s t
      | _ => cases hy
  | _ => cases hx

/-- With the standard table the comparisons put integers in a total order, and strings as well.  On
integers it is the order of the numbers.  On strings it is the lexicographic order of the code
points, which is that of the bytes, and a text comes before everything that it is continued to. -/
theorem comparisons_are_total_orders :
    (standard.Orders .integer ∧ ∀ a b : Int64,
      (standard.Holds .lessThan (.integer a) (.integer b) ↔ a.toInt < b.toInt)) ∧
    standard.Orders .string ∧
    (∀ s t : String,
      (standard.Holds .lessThan (.string s) (.string t) ↔
        s.toList.map Char.toNat < t.toList.map Char.toNat) ∧
      (standard.Holds .lessThan (.string s) (.string t) ↔
        s.toUTF8.data.toList < t.toUTF8.data.toList)) ∧
    ∀ s rest : String, rest ≠ "" → standard.Holds .lessThan (.string s) (.string (s ++ rest)) := by
  refine ⟨⟨orders_integers, ?_⟩, orders_strings, ?_, ?_⟩
  · intro a b
    exact holds_iff (compares_integers a b).lessThan
  · intro s t
    rw [holds_iff (compares_strings s t).lessThan, Text.codePoints_lt_iff, Text.toUTF8_lt_iff]
    exact ⟨.rfl, .rfl⟩
  · intro s rest hrest
    rw [holds_iff (compares_strings s (s ++ rest)).lessThan]
    exact Text.lt_append hrest s

/-- An emoji comes after a sign of the basic plane, and a text after its beginning. -/
theorem comparisons_are_total_orders_of_emoji :
    standard.Holds .lessThan (.string "｡") (.string "😀") ∧
      standard.Holds .lessThan (.string "｡") (.string ("｡" ++ "😀")) := by
  obtain ⟨-, -, hless, hrest⟩ := comparisons_are_total_orders
  refine ⟨(hless "｡" "😀").1.2 ?_, hrest "｡" "😀" (by decide)⟩
  decide +kernel

end OperatorTable

end Switchboard
