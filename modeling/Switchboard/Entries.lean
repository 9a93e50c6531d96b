/-!
Named values in the order in which their names were first bound.

Headers, connector properties and map values all behave the same way: binding a name again keeps
its place and takes the new value, and removing a name leaves the order of the others alone.
`Entries` holds the operations on plain lists of pairs, because map values nest and must stay an
inductive type; `Dict` is such a list together with the fact that no name is bound twice.  The
small lemmas below say what each operation does to the look-up and to the names.
-/

namespace Switchboard

universe u

variable {A : Type u}

/-- Name and value pairs, oldest binding first. -/
abbrev Entries (A : Type u) := List (String × A)

namespace Entries

/-- The value bound to `name`. -/
def find? (name : String) : Entries A → Option A
  | [] => none
  | (key, value) :: rest => if key = name then some value else find? name rest

/-- Bind `name`: in place when it is bound already, at the end otherwise. -/
def bind (name : String) (value : A) : Entries A → Entries A
  | [] => [(name, value)]
  | (key, old) :: rest =>
      if key = name then (key, value) :: rest
      else (key, old) :: bind name value rest

/-- Remove the binding of `name`, keeping the order of the others. -/
def drop (name : String) : Entries A → Entries A
  | [] => []
  | (key, value) :: rest =>
      if key = name then rest else (key, value) :: drop name rest

/-- The names in order. -/
def names (entries : Entries A) : List String :=
  entries.map Prod.fst

/-- Bind every pair of `added` in turn. -/
def bindAll (entries added : Entries A) : Entries A :=
  added.foldl (fun acc pair => bind pair.1 pair.2 acc) entries

/-- Put a pair before the first one whose name is not smaller. -/
def insertSorted (pair : String × A) : Entries A → Entries A
  | [] => [pair]
  | head :: rest =>
      if head.1 < pair.1 then head :: insertSorted pair rest else pair :: head :: rest

/-- The same pairs in increasing order of their names, which is the order of the characters and so
also of the bytes of the names. -/
def sorted (entries : Entries A) : Entries A :=
  entries.foldr insertSorted []

@[simp] theorem names_nil : names ([] : Entries A) = [] := rfl

@[simp] theorem names_cons (pair : String × A) (rest : Entries A) :
    names (pair :: rest) = pair.1 :: names rest := rfl

theorem find?_eq_none_iff {name : String} {entries : Entries A} :
    find? name entries = none ↔ name ∉ names entries := by
  induction entries with
  | nil => simp [find?]
  | cons pair rest ih =>
      rcases pair with ⟨key, value⟩
      by_cases h : key = name
      · simp [find?, h]
      · have h' : ¬ name = key := fun e => h e.symm
        simp [find?, h, h', ih]

theorem find?_bind (name other : String) (value : A) (entries : Entries A) :
    find? other (bind name value entries) =
      if name = other then some value else find? other entries := by
  induction entries with
  | nil => simp [bind, find?]
  | cons pair rest ih =>
      rcases pair with ⟨key, old⟩
      by_cases h : key = name
      · subst h
        by_cases ho : key = other <;> simp [bind, find?, ho]
      · by_cases ho : key = other
        · subst ho
          have hn : ¬ name = key := fun e => h e.symm
          simp [bind, find?, h, hn]
        · simp [bind, find?, h, ho, ih]

/-- The names after a binding: unchanged when the name was there, one more at the end otherwise. -/
theorem names_bind (name : String) (value : A) (entries : Entries A) :
    names (bind name value entries) =
      if name ∈ names entries then names entries else names entries ++ [name] := by
  induction entries with
  | nil => simp [bind]
  | cons pair rest ih =>
      rcases pair with ⟨key, old⟩
      by_cases h : key = name
      · simp [bind, h]
      · have h' : ¬ name = key := fun e => h e.symm
        simp only [bind, h, ↓reduceIte, names_cons, ih, List.mem_cons, h', false_or]
        split <;> simp

theorem bind_of_not_mem {name : String} {entries : Entries A} (value : A)
    (h : name ∉ names entries) : bind name value entries = entries ++ [(name, value)] := by
  induction entries with
  | nil => rfl
  | cons pair rest ih =>
      rw [names_cons, List.mem_cons, not_or] at h
      rw [bind, if_neg fun heq => h.1 heq.symm, ih h.2]
      rfl

/-- Binding the entries of a list keeps them all when no name stands in it twice. -/
theorem bindAll_append {entries added : Entries A} (distinct : (names (entries ++ added)).Nodup) :
    bindAll entries added = entries ++ added := by
  induction added generalizing entries with
  | nil => exact (List.append_nil entries).symm
  | cons pair rest ih =>
      have habsent : pair.1 ∉ names entries := by
        rw [names, List.map_append, List.nodup_append] at distinct
        exact fun hmem => distinct.2.2 _ hmem _ List.mem_cons_self rfl
      have hbind : bind pair.1 pair.2 entries = entries ++ [pair] := bind_of_not_mem pair.2 habsent
      rw [bindAll, List.foldl_cons, hbind, ← bindAll, ih (by simpa using distinct)]
      simp

theorem nodup_names_bind (name : String) (value : A) {entries : Entries A}
    (distinct : (names entries).Nodup) : (names (bind name value entries)).Nodup := by
  rw [names_bind]
  split
  · exact distinct
  · rename_i absent
    rw [List.nodup_append]
    refine ⟨distinct, by simp, ?_⟩
    intro old hold new hnew
    simp only [List.mem_singleton] at hnew
    subst hnew
    exact fun e => absent (e ▸ hold)

theorem sublist_names_drop (name : String) (entries : Entries A) :
    (names (drop name entries)).Sublist (names entries) := by
  induction entries with
  | nil => simp [drop]
  | cons pair rest ih =>
      rcases pair with ⟨key, value⟩
      by_cases h : key = name
      · simp [drop, h]
      · simpa [drop, h] using ih

theorem nodup_names_drop (name : String) {entries : Entries A}
    (distinct : (names entries).Nodup) : (names (drop name entries)).Nodup :=
  distinct.sublist (sublist_names_drop name entries)

theorem find?_drop (name other : String) {entries : Entries A}
    (distinct : (names entries).Nodup) :
    find? other (drop name entries) = if name = other then none else find? other entries := by
  induction entries with
  | nil => simp [drop, find?]
  | cons pair rest ih =>
      rcases pair with ⟨key, value⟩
      simp only [names_cons, List.nodup_cons] at distinct
      by_cases h : key = name
      · subst h
        by_cases ho : key = other
        · subst ho
          simpa [drop] using find?_eq_none_iff.2 distinct.1
        · simp [drop, find?, ho]
      · by_cases ho : key = other
        · subst ho
          have hn : ¬ name = key := fun e => h e.symm
          simp [drop, find?, h, hn]
        · simp [drop, find?, h, ho, ih distinct.2]

theorem nodup_names_bindAll {entries : Entries A} (distinct : (names entries).Nodup)
    (added : Entries A) : (names (bindAll entries added)).Nodup := by
  induction added generalizing entries with
  | nil => exact distinct
  | cons pair rest ih => exact ih (nodup_names_bind pair.1 pair.2 distinct)

theorem insertSorted_perm (pair : String × A) (entries : Entries A) :
    (insertSorted pair entries).Perm (pair :: entries) := by
  induction entries with
  | nil => exact .refl _
  | cons head rest ih =>
      simp only [insertSorted]
      split
      · exact (ih.cons head).trans (.swap pair head rest)
      · exact .refl _

theorem sorted_perm (entries : Entries A) : (sorted entries).Perm entries := by
  induction entries with
  | nil => exact .refl _
  | cons pair rest ih => exact (insertSorted_perm pair _).trans (ih.cons pair)

example : sorted [("b", 1), ("a", 2)] = [("a", 2), ("b", 1)] := by decide

end Entries

/-- Bindings of distinct names, oldest first. -/
structure Dict (A : Type u) where
  entries : Entries A
  distinct : (Entries.names entries).Nodup

namespace Dict

instance [DecidableEq A] : DecidableEq (Dict A) := fun left right =>
  if h : left.entries = right.entries then
    isTrue (by cases left; cases right; simp_all)
  else isFalse fun e => h (congrArg Dict.entries e)

@[ext] theorem ext {left right : Dict A} (h : left.entries = right.entries) : left = right := by
  cases left; cases right; simp_all

/-- No binding at all. -/
def empty : Dict A := ⟨[], by simp⟩

instance : Inhabited (Dict A) := ⟨empty⟩

/-- The value bound to `name`. -/
def find? (dict : Dict A) (name : String) : Option A :=
  Entries.find? name dict.entries

/-- Bind `name`, in place when it is bound already. -/
def bind (dict : Dict A) (name : String) (value : A) : Dict A :=
  ⟨Entries.bind name value dict.entries, Entries.nodup_names_bind name value dict.distinct⟩

/-- Remove the binding of `name`. -/
def drop (dict : Dict A) (name : String) : Dict A :=
  ⟨Entries.drop name dict.entries, Entries.nodup_names_drop name dict.distinct⟩

/-- Bind every pair in turn: a repeated name keeps its first place and takes the last value. -/
def ofPairs (pairs : Entries A) : Dict A :=
  ⟨Entries.bindAll [] pairs, Entries.nodup_names_bindAll (by simp) pairs⟩

/-- The bindings of `dict`, overridden and extended by those of `added`. -/
def union (dict added : Dict A) : Dict A :=
  ⟨Entries.bindAll dict.entries added.entries,
    Entries.nodup_names_bindAll dict.distinct added.entries⟩

/-- The names in order. -/
def names (dict : Dict A) : List String :=
  Entries.names dict.entries

/-- Number of bindings. -/
def size (dict : Dict A) : Nat :=
  dict.entries.length

@[simp] theorem find?_bind (dict : Dict A) (name other : String) (value : A) :
    (dict.bind name value).find? other = if name = other then some value else dict.find? other :=
  Entries.find?_bind name other value dict.entries

@[simp] theorem find?_drop (dict : Dict A) (name other : String) :
    (dict.drop name).find? other = if name = other then none else dict.find? other :=
  Entries.find?_drop name other dict.distinct

theorem names_bind (dict : Dict A) (name : String) (value : A) :
    (dict.bind name value).names =
      if name ∈ dict.names then dict.names else dict.names ++ [name] :=
  Entries.names_bind name value dict.entries

theorem entries_ofPairs {pairs : Entries A} (distinct : (Entries.names pairs).Nodup) :
    (ofPairs pairs).entries = pairs :=
  Entries.bindAll_append (by simpa using distinct)

example : (ofPairs [("a", 1), ("b", 2), ("a", 3)]).entries = [("a", 3), ("b", 2)] := by decide

example : ((ofPairs [("a", 1), ("b", 2)]).drop "a").entries = [("b", 2)] := by decide

end Dict

end Switchboard
