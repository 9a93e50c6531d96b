import Mathlib.Data.List.Basic
import Switchboard.Envelope

/-!
Unions of named values.

A union keeps the names of the left side where they are and puts those that only the right side has
behind them, in the order of the right side; the values are those of the right side as far as it has
any.  Bindings of distinct names are determined by the order of their names and by what is found
under each, and this makes a monoid of the unions.
-/

namespace Switchboard

universe u

variable {A : Type u}

/-! ## Lists of pairs -/

namespace Entries

/-- The pairs of `entries`, with the values of `added` where that has the name too. -/
def overridden (added entries : Entries A) : Entries A :=
  entries.map fun pair => (pair.1, (find? pair.1 added).getD pair.2)

/-- The pairs of `added` whose names are not among these. -/
def beyond (names : List String) (added : Entries A) : Entries A :=
  added.filter fun pair => pair.1 ∉ names

theorem names_overridden (added entries : Entries A) :
    names (overridden added entries) = names entries := by
  simp [names, overridden]

theorem names_append (first second : Entries A) :
    names (first ++ second) = names first ++ names second :=
  List.map_append

theorem names_beyond (taken : List String) (added : Entries A) :
    names (beyond taken added) = (names added).filter fun name => name ∉ taken := by
  simp only [names, beyond, List.filter_map]
  rfl

theorem overridden_append (added first second : Entries A) :
    overridden added (first ++ second) = overridden added first ++ overridden added second :=
  List.map_append

/-- Nothing is overridden by other names. -/
theorem overridden_eq_self {added entries : Entries A}
    (hother : ∀ own ∈ entries, own.1 ∉ names added) : overridden added entries = entries := by
  conv_rhs => rw [← List.map_id entries]
  apply List.map_congr_left
  intro own hown
  simp [find?_eq_none_iff.2 (hother own hown)]

/-- A first pair whose name is not bound again behind it may be taken on its own. -/
theorem overridden_cons {pair : String × A} {rest : Entries A} (habsent : pair.1 ∉ names rest)
    (entries : Entries A) :
    overridden (pair :: rest) entries = overridden rest (overridden [pair] entries) := by
  simp only [overridden, List.map_map]
  apply List.map_congr_left
  intro own _
  by_cases h : pair.1 = own.1
  · have hnone : find? own.1 rest = none := find?_eq_none_iff.2 (h ▸ habsent)
    simp [find?, h, hnone]
  · simp [find?, h]

/-- A binding puts the value in the place of the name, or behind the others. -/
theorem bind_eq (pair : String × A) {entries : Entries A} (distinct : (names entries).Nodup) :
    bind pair.1 pair.2 entries = overridden [pair] entries ++ beyond (names entries) [pair] := by
  induction entries with
  | nil => rfl
  | cons own rest ih =>
      obtain ⟨habsent, hrest⟩ := List.nodup_cons.1 distinct
      by_cases h : own.1 = pair.1
      · have hkept : overridden [pair] rest = rest := by
          apply overridden_eq_self
          intro other hother hmem
          apply habsent
          rw [h, ← List.mem_singleton.1 hmem]
          exact List.mem_map_of_mem hother
        have hfirst : overridden [pair] (own :: rest) = (own.1, pair.2) :: rest := by
          conv_rhs => rw [← hkept]
          simp [overridden, find?, h]
        rw [bind, if_pos h, hfirst]
        simp [beyond, h]
      · have hne : pair.1 ≠ own.1 := fun heq => h heq.symm
        have hbeyond : beyond (names (own :: rest)) [pair] = beyond (names rest) [pair] := by
          simp [beyond, List.filter_cons, hne]
        rw [bind, if_neg h, ih hrest, hbeyond]
        simp [overridden, find?, hne]

/-- What all the bindings together do to the values and to the order. -/
theorem bindAll_eq {entries added : Entries A} (distinct : (names entries).Nodup)
    (hadded : (names added).Nodup) :
    bindAll entries added = overridden added entries ++ beyond (names entries) added := by
  induction added generalizing entries with
  | nil =>
      rw [overridden_eq_self fun _ _ => List.not_mem_nil]
      exact (List.append_nil entries).symm
  | cons pair rest ih =>
      obtain ⟨habsent, hrest⟩ := List.nodup_cons.1 hadded
      have hkept : overridden rest (beyond (names entries) [pair]) =
          beyond (names entries) [pair] := by
        apply overridden_eq_self
        intro own hown
        rw [List.mem_singleton.1 (List.mem_of_mem_filter hown)]
        exact habsent
      have hbeyond : beyond (names (bind pair.1 pair.2 entries)) rest =
          beyond (names entries) rest := by
        apply List.filter_congr
        intro other hother
        have hne : other.1 ≠ pair.1 := fun h => habsent (h ▸ List.mem_map_of_mem hother)
        rw [names_bind]
        split
        · rfl
        · simp [hne]
      calc bindAll entries (pair :: rest)
          = bindAll (bind pair.1 pair.2 entries) rest := rfl
        _ = overridden rest (bind pair.1 pair.2 entries) ++ beyond (names entries) rest := by
            rw [ih (nodup_names_bind pair.1 pair.2 distinct) hrest, hbeyond]
        _ = overridden (pair :: rest) entries ++
              (beyond (names entries) [pair] ++ beyond (names entries) rest) := by
            rw [bind_eq pair distinct, overridden_append, hkept, ← overridden_cons habsent,
              List.append_assoc]
        _ = overridden (pair :: rest) entries ++ beyond (names entries) (pair :: rest) := by
            rw [beyond, beyond, ← List.filter_append]
            rfl

theorem find?_bindAll (name : String) (entries : Entries A) {added : Entries A}
    (hadded : (names added).Nodup) :
    find? name (bindAll entries added) = (find? name added).or (find? name entries) := by
  induction added generalizing entries with
  | nil => rfl
  | cons pair rest ih =>
      obtain ⟨habsent, hrest⟩ := List.nodup_cons.1 hadded
      have hbound := ih (bind pair.1 pair.2 entries) hrest
      rw [find?_bind] at hbound
      change find? name (bindAll (bind pair.1 pair.2 entries) rest) = _
      rw [hbound]
      by_cases h : pair.1 = name
      · have hnone : find? name rest = none := find?_eq_none_iff.2 (h ▸ habsent)
        simp [find?, h, hnone]
      · simp [find?, h]

/-- The order of the names and what is found under them is all there is. -/
theorem ext_find? {left right : Entries A} (hnames : names left = names right)
    (distinct : (names left).Nodup) (hfind : ∀ name, find? name left = find? name right) :
    left = right := by
  induction left generalizing right with
  | nil => exact (List.map_eq_nil_iff.1 hnames.symm).symm
  | cons pair rest ih =>
      cases right with
      | nil => cases hnames
      | cons other others =>
          obtain ⟨hname, hothers⟩ : pair.1 = other.1 ∧ names rest = names others :=
            List.cons.inj hnames
          obtain ⟨habsent, hrest⟩ := List.nodup_cons.1 distinct
          have hvalue : pair.2 = other.2 := by
            have hfirst := hfind pair.1
            simpa [find?, hname] using hfirst
          have htail : rest = others := by
            apply ih hothers hrest
            intro name
            by_cases h : pair.1 = name
            · have hleft : find? name rest = none := find?_eq_none_iff.2 (h ▸ habsent)
              have hright : find? name others = none := by
                rw [find?_eq_none_iff, ← hothers, ← h]
                exact habsent
              rw [hleft, hright]
            · have hother : other.1 ≠ name := hname ▸ h
              have hbehind := hfind name
              simpa [find?, h, hother] using hbehind
          rw [htail, Prod.ext hname hvalue]

end Entries

/-! ## Bindings of distinct names -/

namespace Dict

variable (first second third : Dict A)

theorem ext_find? {left right : Dict A} (hnames : left.names = right.names)
    (hfind : ∀ name, left.find? name = right.find? name) : left = right :=
  Dict.ext (Entries.ext_find? hnames left.distinct hfind)

theorem entries_union :
    (first.union second).entries = Entries.overridden second.entries first.entries ++
      Entries.beyond first.names second.entries :=
  Entries.bindAll_eq first.distinct second.distinct

theorem names_union :
    (first.union second).names =
      first.names ++ second.names.filter fun name => name ∉ first.names := by
  rw [names, entries_union, Entries.names_append, Entries.names_overridden, Entries.names_beyond]
  rfl

@[simp] theorem find?_union (name : String) :
    (first.union second).find? name = (second.find? name).or (first.find? name) :=
  Entries.find?_bindAll name first.entries second.distinct

theorem union_assoc :
    (first.union second).union third = first.union (second.union third) := by
  apply ext_find?
  · simp only [names_union, List.filter_append, List.filter_filter, List.append_assoc]
    congr 2
    apply List.filter_congr
    intro name _
    by_cases hfirst : name ∈ first.names <;> simp [hfirst]
  · intro name
    simp only [find?_union, Option.or_assoc]

theorem union_self : first.union first = first := by
  apply ext_find?
  · rw [names_union]
    simp
  · intro name
    rw [find?_union, Option.or_self]

theorem union_empty : first.union empty = first :=
  rfl

theorem empty_union : empty.union first = first := by
  apply ext_find?
  · rw [names_union]
    exact List.filter_eq_self.2 fun _ _ => rfl
  · intro name
    rw [find?_union]
    exact Option.or_none

end Dict

end Switchboard
