import Switchboard.Registry
import Switchboard.Proofs.Grammar.Words

/-!
Qualified names.

Three rules say what a qualified name is: the patterns that a contribution follows, the words by
which an expression calls, and the split at the first colon.  Each of the first two allows no colon
in a package, so the split gives back what was joined, and a name of either kind is its text.  The
patterns are the narrower of the two: whatever can be contributed can be called.
-/

namespace Switchboard

/-! ## No colon before the colon -/

theorem Grammar.IsName.ne_colon {word : List Char} (h : IsName word) : ':' ∉ word := by
  intro hmem
  cases word with
  | nil => exact h
  | cons c rest =>
      rcases List.mem_cons.1 hmem with rfl | hmem
      · exact absurd h.1 (by decide)
      · exact absurd (h.2 _ hmem) (by decide)

theorem Grammar.IsPackage.ne_colon {word : List Char} (h : IsPackage word) : ':' ∉ word := by
  induction h with
  | name hname => exact hname.ne_colon
  | point hname _ ih =>
      intro hmem
      rw [List.mem_append, List.mem_cons] at hmem
      rcases hmem with hmem | hpoint | hmem
      · exact hname.ne_colon hmem
      · exact absurd hpoint (by decide)
      · exact ih hmem

theorem Grammar.IsName.ne_nil {word : List Char} (h : IsName word) : word ≠ [] := by
  rintro rfl
  exact h

theorem Grammar.IsPackage.ne_nil {word : List Char} (h : IsPackage word) : word ≠ [] := by
  cases h with
  | name hname => exact hname.ne_nil
  | point _ _ => simp

namespace QualifiedName

open Grammar

/-! ## The split at the first colon -/

theorem splitColon_append {package : List Char} (h : ':' ∉ package) (name : List Char) :
    splitColon (package ++ ':' :: name) = some (package, name) := by
  induction package with
  | nil => simp [splitColon]
  | cons c package ih =>
      rw [List.mem_cons, not_or] at h
      have hc : c ≠ ':' := fun heq => h.1 heq.symm
      rw [List.cons_append, splitColon, if_neg hc, ih h.2]
      rfl

/-- Both parts are words by which an expression calls. -/
structure IsCallable (name : QualifiedName) : Prop where
  package : IsPackage name.package.toList
  name : IsName name.name.toList

theorem IsCallable.ofText?_text {name : QualifiedName} (h : name.IsCallable) :
    ofText? name.text = some name := by
  have hsplit : splitColon name.text.toList = some (name.package.toList, name.name.toList) := by
    rw [QualifiedName.text]
    simpa using splitColon_append h.package.ne_colon name.name.toList
  rw [ofText?, hsplit]
  simp [h.package.ne_nil, h.name.ne_nil]

theorem IsCallable.isQualifiedName {name : QualifiedName} (h : name.IsCallable) :
    IsQualifiedName name.text.toList := by
  rw [QualifiedName.text]
  simpa using IsQualifiedName.intro h.package h.name

/-- A word by which an expression calls is split into the parts that it joins. -/
theorem exists_of_isQualifiedName {word : List Char} (h : IsQualifiedName word) :
    ∃ name : QualifiedName, name.IsCallable ∧ name.text = String.ofList word := by
  cases h with
  | @intro package name hpackage hname =>
      refine ⟨⟨String.ofList package, String.ofList name⟩, ⟨by simpa using hpackage,
        by simpa using hname⟩, ?_⟩
      rw [← String.toList_inj]
      simp [QualifiedName.text]

/-- Names that can be called are told apart by their texts. -/
theorem IsCallable.text_injective {left right : QualifiedName} (hleft : left.IsCallable)
    (hright : right.IsCallable) (h : left.text = right.text) : left = right := by
  have hsplit := hleft.ofText?_text
  rw [h, hright.ofText?_text] at hsplit
  exact (Option.some.inj hsplit).symm

/-! ## The patterns of contributions -/

/-- A lower-case letter, then lower-case letters, digits and underscores. -/
def IsPackageWord : List Char → Prop
  | [] => False
  | c :: rest => isWordStart c = true ∧ ∀ d ∈ rest, isWordPart d = true

/-- Such words joined by points. -/
inductive IsPackagePattern : List Char → Prop
  | word {word : List Char} : IsPackageWord word → IsPackagePattern word
  | point {word more : List Char} :
      IsPackageWord word → IsPackagePattern more → IsPackagePattern (word ++ '.' :: more)

/-- Both parts follow the patterns of contributions. -/
structure FollowsPatterns (name : QualifiedName) : Prop where
  package : IsPackagePattern name.package.toList
  name : IsName name.name.toList

theorem IsPackageWord.append_part {word : List Char} {c : Char} (h : IsPackageWord word)
    (hc : isWordPart c = true) : IsPackageWord (word ++ [c]) := by
  cases word with
  | nil => exact absurd h id
  | cons d word =>
      refine ⟨h.1, ?_⟩
      intro e he
      rcases List.mem_append.1 he with he | he
      · exact h.2 e he
      · rw [List.mem_singleton.1 he]
        exact hc

/-- What is accepted behind the first letter of a word goes on with the word. -/
theorem IsPackageWord.append_tail {word rest : List Char} (hword : IsPackageWord word)
    (h : isPackageTail rest = true) : IsPackagePattern (word ++ rest) := by
  fun_induction isPackageTail rest generalizing word with
  | case1 =>
      rw [List.append_nil]
      exact .word hword
  | case2 c rest ih =>
      rw [Bool.and_eq_true] at h
      have hnext : IsPackageWord [c] := ⟨h.1, by simp⟩
      exact .point hword (ih hnext h.2)
  | case3 c rest _ ih =>
      rw [Bool.and_eq_true] at h
      have hmore := ih (hword.append_part h.1) h.2
      rwa [List.append_assoc] at hmore

theorem isPackageTail_parts {part : List Char} (h : ∀ c ∈ part, isWordPart c = true)
    (rest : List Char) : isPackageTail (part ++ rest) = isPackageTail rest := by
  induction part with
  | nil => rfl
  | cons c part ih =>
      have hc := h c List.mem_cons_self
      have hpoint : c ≠ '.' := by
        rintro rfl
        exact absurd hc (by decide)
      rw [List.cons_append, isPackageTail, hc, Bool.true_and,
        ih fun d hd => h d (List.mem_cons_of_mem c hd)]
      intro d more heq _
      exact hpoint heq

theorem isPackage_iff (text : List Char) : isPackage text = true ↔ IsPackagePattern text := by
  constructor
  · intro h
    cases text with
    | nil => cases h
    | cons c rest =>
        rw [isPackage, Bool.and_eq_true] at h
        have hword : IsPackageWord [c] := ⟨h.1, by simp⟩
        exact hword.append_tail h.2
  · intro h
    induction h with
    | @word word hword =>
        cases word with
        | nil => exact absurd hword id
        | cons c rest =>
            have htail := isPackageTail_parts hword.2 []
            rw [List.append_nil] at htail
            rw [isPackage, hword.1, htail]
            rfl
    | @point word more hword _ ih =>
        cases word with
        | nil => exact absurd hword id
        | cons c rest =>
            cases more with
            | nil => cases ih
            | cons d more =>
                rw [List.cons_append, isPackage, hword.1, isPackageTail_parts hword.2]
                exact ih

theorem isName_iff (text : List Char) : isName text = true ↔ IsName text := by
  cases text with
  | nil => simp [isName, IsName]
  | cons c rest =>
      rw [isName, Bool.and_eq_true, List.all_eq_true]
      rfl

theorem isWellFormed_iff (name : QualifiedName) :
    name.isWellFormed = true ↔ name.FollowsPatterns := by
  rw [isWellFormed, Bool.and_eq_true, isPackage_iff, isName_iff]
  exact ⟨fun h => ⟨h.1, h.2⟩, fun h => ⟨h.package, h.name⟩⟩

/-- A word of a package is a name in lower case. -/
theorem IsPackageWord.isName {word : List Char} (h : IsPackageWord word) : IsName word := by
  cases word with
  | nil => exact h
  | cons c rest =>
      have hletter {d : Char} (hlower : d.isLower = true) : d.isAlpha = true := by
        change (d.isUpper || d.isLower) = true
        rw [hlower, Bool.or_true]
      refine ⟨?_, ?_⟩
      · have hstart := hletter h.1
        rw [Expr.isNameStart, hstart, Bool.true_or]
      · intro d hd
        have hpart := h.2 d hd
        simp only [isWordPart, Bool.or_eq_true] at hpart
        change ((d.isAlpha || d.isDigit) || d == '_') = true
        simp only [Bool.or_eq_true]
        rcases hpart with (hlower | hdigit) | hunderscore
        · exact .inl (.inl (hletter hlower))
        · exact .inl (.inr hdigit)
        · exact .inr hunderscore

theorem IsPackagePattern.isPackage {text : List Char} (h : IsPackagePattern text) :
    IsPackage text := by
  induction h with
  | word hword => exact .name hword.isName
  | point hword _ ih => exact .point hword.isName ih

/-- What can be contributed can be called. -/
theorem FollowsPatterns.isCallable {name : QualifiedName} (h : name.FollowsPatterns) :
    name.IsCallable :=
  ⟨h.package.isPackage, h.name⟩

end QualifiedName

end Switchboard
