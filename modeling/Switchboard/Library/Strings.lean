import Switchboard.Library.Basic
import Switchboard.Text.UpperCase

/-!
`lang.string`: functions of strings.
-/

namespace Switchboard.Library.Strings

def package : String := "lang.string"

/-- The number of characters. -/
def length : LibraryBody := fun store arguments => do
  let text ← Arguments.string arguments 0
  return (some (.integer (Int64.ofNat text.length)), store)

/-- Every character in upper case. -/
def toUpperCase : LibraryBody := fun store arguments => do
  let text ← Arguments.string arguments 0
  return (some (.string (Text.upperCase text)), store)

/-- Whether `needle` stands somewhere in `text`. -/
def occurs (needle : List Char) : List Char → Bool
  | [] => needle.isEmpty
  | c :: rest => needle.isPrefixOf (c :: rest) || occurs needle rest

/-- Whether the second string occurs in the first. -/
def contains : LibraryBody := fun store arguments => do
  let text ← Arguments.string arguments 0
  let needle ← Arguments.string arguments 1
  return (some (.boolean (occurs needle.toList text.toList)), store)

/-- The functions of the package. -/
def contributions : List Contribution :=
  [length.contribution package "length" [("s", "string")] (some "int"),
    toUpperCase.contribution package "toUpperCase" [("s", "string")] (some "string"),
    contains.contribution package "contains" [("s", "string"), ("needle", "string")]
      (some "boolean")]

theorem occurs_iff {needle text : List Char} :
    occurs needle text = true ↔ ∃ before after, text = before ++ needle ++ after := by
  induction text with
  | nil => simp [occurs]
  | cons c rest ih =>
      simp only [occurs, Bool.or_eq_true, List.isPrefixOf_iff_prefix, ih]
      constructor
      · rintro (⟨after, h⟩ | ⟨before, after, h⟩)
        · exact ⟨[], after, by simp [h]⟩
        · exact ⟨c :: before, after, by simp [h]⟩
      · rintro ⟨before, after, h⟩
        cases before with
        | nil => exact .inl ⟨after, by simpa using h.symm⟩
        | cons d before =>
            simp only [List.cons_append, List.cons.injEq] at h
            exact .inr ⟨before, after, h.2⟩

end Switchboard.Library.Strings
