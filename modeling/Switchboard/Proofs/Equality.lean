import Mathlib.Data.List.Perm.Subperm
import Switchboard.Proofs.Envelopes
import Switchboard.Proofs.Floats
import Switchboard.World

/-!
Equality of values.

`same` looks at maps from one side: as many entries, and an equal value on the right for every entry
on the left.  Where no name is bound twice this comes to the same names with equal values, and from
there on equality is a relation with one rule for each kind of value.  It is symmetric and
transitive, it does not see the order of entries, and a value differs from itself exactly when a
float in it is no number.
-/

namespace Switchboard

/-! ## Entries of distinct names -/

namespace Entries

variable {A : Type} {name : String} {value : A} {entries : Entries A}

theorem mem_of_find? (h : find? name entries = some value) : (name, value) ∈ entries := by
  induction entries with
  | nil => cases h
  | cons pair rest ih =>
      by_cases hname : pair.1 = name
      · rw [find?, if_pos hname] at h
        obtain rfl := Option.some.inj h
        rw [← hname]
        exact List.mem_cons_self
      · rw [find?, if_neg hname] at h
        exact List.mem_cons_of_mem pair (ih h)

theorem mem_names (h : (name, value) ∈ entries) : name ∈ names entries :=
  List.mem_map_of_mem h

theorem find?_of_mem (distinct : (names entries).Nodup) (h : (name, value) ∈ entries) :
    find? name entries = some value := by
  induction entries with
  | nil => cases h
  | cons pair rest ih =>
      obtain ⟨habsent, hrest⟩ := List.nodup_cons.1 distinct
      rcases List.mem_cons.1 h with rfl | h
      · rw [find?, if_pos rfl]
      · have hname : pair.1 ≠ name := fun heq => habsent (heq ▸ mem_names h)
        rw [find?, if_neg hname, ih hrest h]

theorem exists_find?_iff : (∃ value, find? name entries = some value) ↔ name ∈ names entries := by
  rw [← not_iff_not, ← find?_eq_none_iff, Option.eq_none_iff_forall_ne_some]
  push Not
  rfl

/-- The order of entries does not matter to a look-up. -/
theorem find?_eq_of_perm {left right : Entries A} (distinct : (names left).Nodup)
    (h : left.Perm right) : find? name left = find? name right := by
  have hright : (names right).Nodup := (h.map Prod.fst).nodup_iff.1 distinct
  cases hfound : find? name left with
  | none =>
      symm
      rw [find?_eq_none_iff] at hfound ⊢
      exact fun hmem => hfound ((h.map Prod.fst).mem_iff.2 hmem)
  | some value => exact (find?_of_mem hright (h.mem_iff.1 (mem_of_find? hfound))).symm

/-- A look-up does not see what is added behind. -/
theorem find?_append (name : String) (entries added : Entries A) :
    find? name (entries ++ added) = (find? name entries).or (find? name added) := by
  induction entries with
  | nil => rfl
  | cons pair rest ih =>
      by_cases hname : pair.1 = name
      · rw [List.cons_append, find?, find?, if_pos hname, if_pos hname, Option.some_or]
      · rw [List.cons_append, find?, find?, if_neg hname, if_neg hname, ih]

theorem mem_bind {pair : String × A} (h : pair ∈ bind name value entries) :
    pair = (name, value) ∨ pair ∈ entries := by
  induction entries with
  | nil => exact .inl (List.mem_singleton.1 h)
  | cons head rest ih =>
      by_cases hname : head.1 = name
      · rw [bind, if_pos hname] at h
        rcases List.mem_cons.1 h with rfl | h
        · exact .inl (by rw [hname])
        · exact .inr (List.mem_cons_of_mem head h)
      · rw [bind, if_neg hname] at h
        rcases List.mem_cons.1 h with rfl | h
        · exact .inr List.mem_cons_self
        · exact (ih h).imp_right (List.mem_cons_of_mem head)

theorem mem_bindAll {added : Entries A} {pair : String × A} (h : pair ∈ bindAll entries added) :
    pair ∈ entries ∨ pair ∈ added := by
  induction added generalizing entries with
  | nil => exact .inl h
  | cons head rest ih =>
      rcases ih h with h | h
      · rcases mem_bind h with rfl | h
        · exact .inr List.mem_cons_self
        · exact .inl h
      · exact .inr (List.mem_cons_of_mem head h)

end Entries

namespace Value

/-! ## Nested values -/

mutual

/-- What holds of every value that is no map, and of a map once it holds of the values in it, holds
of all values. -/
@[elab_as_elim]
theorem nested {motive : Value → Prop} (integer : ∀ n, motive (.integer n))
    (float : ∀ x, motive (.float x)) (boolean : ∀ b, motive (.boolean b))
    (string : ∀ text, motive (.string text))
    (map : ∀ entries, (∀ pair ∈ entries, motive pair.2) → motive (.map entries))
    (message : ∀ id, motive (.message id)) (connector : ∀ handle, motive (.connector handle)) :
    ∀ value, motive value
  | .integer n => integer n
  | .float x => float x
  | .boolean b => boolean b
  | .string text => string text
  | .map entries =>
      map entries (nestedIn integer float boolean string map message connector entries)
  | .message id => message id
  | .connector handle => connector handle

theorem nestedIn {motive : Value → Prop} (integer : ∀ n, motive (.integer n))
    (float : ∀ x, motive (.float x)) (boolean : ∀ b, motive (.boolean b))
    (string : ∀ text, motive (.string text))
    (map : ∀ entries, (∀ pair ∈ entries, motive pair.2) → motive (.map entries))
    (message : ∀ id, motive (.message id)) (connector : ∀ handle, motive (.connector handle)) :
    ∀ entries : List (String × Value), ∀ pair ∈ entries, motive pair.2
  | [] => List.forall_mem_nil _
  | (_, value) :: rest => List.forall_mem_cons.2
      ⟨nested integer float boolean string map message connector value,
        nestedIn integer float boolean string map message connector rest⟩

end

theorem contains_map_iff {entries : List (String × Value)} {inner : Value} :
    (map entries).Contains inner ↔
      inner = map entries ∨ ∃ pair ∈ entries, pair.2.Contains inner := by
  constructor
  · intro h
    cases h with
    | self => exact .inl rfl
    | entry hentry hinner => exact .inr ⟨_, hentry, hinner⟩
  · rintro (rfl | ⟨pair, hentry, hinner⟩)
    · exact .self _
    · exact .entry hentry hinner

/-- In no map of a value is a name bound twice.  Maps are made by binding names, so this is how all
values of a program are. -/
def WellFormed (value : Value) : Prop :=
  ∀ entries, value.Contains (.map entries) → (Entries.names entries).Nodup

theorem wellFormed_map_iff {entries : List (String × Value)} :
    (map entries).WellFormed ↔
      (Entries.names entries).Nodup ∧ ∀ pair ∈ entries, pair.2.WellFormed := by
  constructor
  · intro h
    exact ⟨h entries (.self _), fun pair hpair inner hinner => h inner (.entry hpair hinner)⟩
  · rintro ⟨hnames, hentries⟩ inner hinner
    rcases contains_map_iff.1 hinner with heq | ⟨pair, hpair, hinner⟩
    · cases heq
      exact hnames
    · exact hentries pair hpair inner hinner

theorem wellFormed_of_ne_map {value : Value} (h : ∀ entries, value ≠ .map entries) :
    value.WellFormed := by
  intro inner hinner
  cases hinner with
  | self => exact absurd rfl (h inner)
  | entry => exact absurd rfl (h _)

/-- What the pairs of a map are made of decides. -/
theorem wellFormed_ofPairs {pairs : Entries Value} (h : ∀ pair ∈ pairs, pair.2.WellFormed) :
    (ofPairs pairs).WellFormed := by
  have hnone : (Entries.names ([] : Entries Value)).Nodup := List.nodup_nil
  refine wellFormed_map_iff.2 ⟨Entries.nodup_names_bindAll hnone pairs, ?_⟩
  intro pair hpair
  rcases Entries.mem_bindAll hpair with hpair | hpair
  · cases hpair
  · exact h pair hpair

/-! ## One rule for each kind of value -/

/-- Numbers, truth values and strings are equal by what they are, maps by their names and the values
under them, messages and connectors by identity. -/
inductive Equals : Value → Value → Prop
  | integer (n : Int64) : Equals (.integer n) (.integer n)
  | float {x y : Float} (h : (x == y) = true) : Equals (.float x) (.float y)
  | boolean (b : Bool) : Equals (.boolean b) (.boolean b)
  | string (text : String) : Equals (.string text) (.string text)
  | map {left right : List (String × Value)}
      (hnames : ∀ name, name ∈ Entries.names left ↔ name ∈ Entries.names right)
      (hvalues : ∀ name first second, Entries.find? name left = some first →
        Entries.find? name right = some second → Equals first second) :
      Equals (.map left) (.map right)
  | message (id : MessageId) : Equals (.message id) (.message id)
  | connector {first second : Connector} (h : first.serial = second.serial) :
      Equals (.connector first) (.connector second)

namespace Equals

variable {first second third : Value}

theorem symm (h : Equals first second) : Equals second first := by
  induction h with
  | integer n => exact .integer n
  | float h => exact .float (FloatEquality.symm h)
  | boolean b => exact .boolean b
  | string text => exact .string text
  | map hnames _ ih =>
      refine .map (fun name => (hnames name).symm) ?_
      intro name value other hvalue hother
      exact ih name other value hother hvalue
  | message id => exact .message id
  | connector h => exact .connector h.symm

theorem trans (hfirst : Equals first second) (hsecond : Equals second third) :
    Equals first third := by
  induction hfirst generalizing third with
  | integer n => exact hsecond
  | float h =>
      cases hsecond with
      | float hnext => exact .float (FloatEquality.trans h hnext)
  | boolean b => exact hsecond
  | string text => exact hsecond
  | map hnames _ ih =>
      cases hsecond with
      | map hnext hvalues =>
          refine .map (fun name => (hnames name).trans (hnext name)) ?_
          intro name value other hvalue hother
          -- The name is bound in the middle too.
          have hbound := (hnames name).1 (Entries.mem_names (Entries.mem_of_find? hvalue))
          obtain ⟨between, hbetween⟩ := Entries.exists_find?_iff.2 hbound
          exact ih name value between hvalue hbetween
            (hvalues name between other hbetween hother)
  | message id => exact hsecond
  | connector h =>
      cases hsecond with
      | connector hnext => exact .connector (h.trans hnext)

theorem type_eq (h : Equals first second) : first.type = second.type := by
  cases h <;> rfl

end Equals

/-! ## The check from one side -/

theorem within_iff {left right : List (String × Value)} :
    within left right = true ↔ ∀ pair ∈ left, ∃ other,
      Entries.find? pair.1 right = some other ∧ pair.2.same other = true := by
  induction left with
  | nil => exact iff_of_true rfl (List.forall_mem_nil _)
  | cons pair rest ih =>
      rw [within, Bool.and_eq_true, ih, List.forall_mem_cons]
      refine and_congr_left' ?_
      cases Entries.find? pair.1 right with
      | none => simp
      | some other => simp

theorem same_map_iff {left right : List (String × Value)}
    (hleft : (Entries.names left).Nodup) (hright : (Entries.names right).Nodup) :
    same (.map left) (.map right) = true ↔
      (∀ name, name ∈ Entries.names left ↔ name ∈ Entries.names right) ∧
      ∀ name first second, Entries.find? name left = some first →
        Entries.find? name right = some second → first.same second = true := by
  have hsame : same (.map left) (.map right) = true ↔
      left.length = right.length ∧ within left right = true := by
    rw [same, Bool.and_eq_true, beq_iff_eq]
  rw [hsame, within_iff]
  constructor
  · rintro ⟨hlength, hwithin⟩
    have hsubset : Entries.names left ⊆ Entries.names right := by
      intro name hname
      obtain ⟨pair, hpair, rfl⟩ := List.mem_map.1 hname
      obtain ⟨other, hother, -⟩ := hwithin pair hpair
      exact Entries.mem_names (Entries.mem_of_find? hother)
    -- Distinct names that are as many as the others and among them are all of them.
    have hperm : (Entries.names left).Perm (Entries.names right) :=
      (hleft.subperm hsubset).perm_of_length_le (by simp [Entries.names, hlength])
    refine ⟨fun name => hperm.mem_iff, ?_⟩
    intro name first second hfirst hsecond
    obtain ⟨other, hother, hequal⟩ := hwithin _ (Entries.mem_of_find? hfirst)
    obtain rfl := Option.some.inj (hsecond.symm.trans hother)
    exact hequal
  · rintro ⟨hnames, hvalues⟩
    have hperm := (List.perm_ext_iff_of_nodup hleft hright).2 hnames
    refine ⟨by simpa [Entries.names] using hperm.length_eq, ?_⟩
    intro pair hpair
    have hbound := (hnames pair.1).1 (Entries.mem_names hpair)
    obtain ⟨other, hother⟩ := Entries.exists_find?_iff.2 hbound
    exact ⟨other, hother, hvalues pair.1 pair.2 other (Entries.find?_of_mem hleft hpair) hother⟩

theorem equals_of_same {first second : Value} (hfirst : first.WellFormed)
    (hsecond : second.WellFormed) (h : first.same second = true) : Equals first second := by
  induction first using nested generalizing second with
  | integer m =>
      cases second with
      | integer n => exact LawfulBEq.eq_of_beq h ▸ .integer m
      | _ => exact absurd h Bool.false_ne_true
  | float x =>
      cases second with
      | float y => exact .float h
      | _ => exact absurd h Bool.false_ne_true
  | boolean a =>
      cases second with
      | boolean b => exact LawfulBEq.eq_of_beq h ▸ .boolean a
      | _ => exact absurd h Bool.false_ne_true
  | string text =>
      cases second with
      | string other => exact LawfulBEq.eq_of_beq h ▸ .string text
      | _ => exact absurd h Bool.false_ne_true
  | map left ih =>
      cases second with
      | map right =>
          obtain ⟨hleft, hentries⟩ := wellFormed_map_iff.1 hfirst
          obtain ⟨hright, hothers⟩ := wellFormed_map_iff.1 hsecond
          obtain ⟨hnames, hvalues⟩ := (same_map_iff hleft hright).1 h
          refine .map hnames ?_
          intro name value other hvalue hother
          have hmem := Entries.mem_of_find? hvalue
          exact ih _ hmem (hentries _ hmem) (hothers _ (Entries.mem_of_find? hother))
            (hvalues name value other hvalue hother)
      | _ => exact absurd h Bool.false_ne_true
  | message id =>
      cases second with
      | message other => exact LawfulBEq.eq_of_beq h ▸ .message id
      | _ => exact absurd h Bool.false_ne_true
  | connector handle =>
      cases second with
      | connector other => exact .connector (LawfulBEq.eq_of_beq h)
      | _ => exact absurd h Bool.false_ne_true

theorem Equals.same {first second : Value} (h : Equals first second) (hfirst : first.WellFormed)
    (hsecond : second.WellFormed) : first.same second = true := by
  induction h with
  | integer n => exact BEq.rfl
  | float h => exact h
  | boolean b => exact BEq.rfl
  | string text => exact BEq.rfl
  | map hnames _ ih =>
      obtain ⟨hleft, hentries⟩ := wellFormed_map_iff.1 hfirst
      obtain ⟨hright, hothers⟩ := wellFormed_map_iff.1 hsecond
      refine (same_map_iff hleft hright).2 ⟨hnames, ?_⟩
      intro name value other hvalue hother
      exact ih name value other hvalue hother (hentries _ (Entries.mem_of_find? hvalue))
        (hothers _ (Entries.mem_of_find? hother))
  | message id => exact BEq.rfl
  | connector h => exact beq_iff_eq.2 h

theorem same_iff {first second : Value} (hfirst : first.WellFormed)
    (hsecond : second.WellFormed) : first.same second = true ↔ Equals first second :=
  ⟨equals_of_same hfirst hsecond, fun h => h.same hfirst hsecond⟩

/-- A value equals itself unless a float in it is no number. -/
theorem Equals.self_iff {value : Value} (h : value.WellFormed) :
    Equals value value ↔ ∀ x, value.Contains (.float x) → x.isNaN = false := by
  induction value using nested with
  | integer n => exact iff_of_true (.integer n) (by rintro _ ⟨⟩)
  | float x =>
      constructor
      · intro hself y hy
        cases hself with
        | float hself =>
            cases hy with
            | self => exact FloatEquality.self_iff.1 hself
      · intro hnumbers
        exact .float (FloatEquality.self_iff.2 (hnumbers x (.self _)))
  | boolean b => exact iff_of_true (.boolean b) (by rintro _ ⟨⟩)
  | string text => exact iff_of_true (.string text) (by rintro _ ⟨⟩)
  | map entries ih =>
      obtain ⟨hnames, hentries⟩ := wellFormed_map_iff.1 h
      constructor
      · intro hself x hx
        cases hself with
        | map _ hvalues =>
            cases hx with
            | @entry _ name value _ hentry hinner =>
                have hfound := Entries.find?_of_mem hnames hentry
                exact (ih _ hentry (hentries _ hentry)).1 (hvalues name value value hfound hfound)
                  x hinner
      · intro hnumbers
        refine .map (fun _ => Iff.rfl) ?_
        intro name value other hvalue hother
        obtain rfl := Option.some.inj (hvalue.symm.trans hother)
        have hentry := Entries.mem_of_find? hvalue
        exact (ih _ hentry (hentries _ hentry)).2 fun x hx => hnumbers x (.entry hentry hx)
  | message id => exact iff_of_true (.message id) (by rintro _ ⟨⟩)
  | connector handle => exact iff_of_true (.connector rfl) (by rintro _ ⟨⟩)

/-! ## The order of entries -/

/-- The entries of maps in another order, at any depth. -/
inductive Reorders : Value → Value → Prop
  | here {left right : List (String × Value)} (h : left.Perm right) :
      Reorders (.map left) (.map right)
  | inside {before after : List (String × Value)} {name : String} {first second : Value}
      (h : Reorders first second) :
      Reorders (.map (before ++ (name, first) :: after)) (.map (before ++ (name, second) :: after))
  | trans {first second third : Value} (hfirst : Reorders first second)
      (hsecond : Reorders second third) : Reorders first third

namespace Reorders

variable {first second other : Value}

theorem symm (h : Reorders first second) : Reorders second first := by
  induction h with
  | here h => exact .here h.symm
  | inside _ ih => exact .inside ih
  | trans _ _ hfirst hsecond => exact .trans hsecond hfirst

theorem wellFormed (h : Reorders first second) (hfirst : first.WellFormed) :
    second.WellFormed := by
  induction h with
  | here h =>
      obtain ⟨hnames, hentries⟩ := wellFormed_map_iff.1 hfirst
      exact wellFormed_map_iff.2 ⟨(h.map Prod.fst).nodup_iff.1 hnames,
        fun pair hpair => hentries pair (h.mem_iff.2 hpair)⟩
  | @inside before after name _ _ _ ih =>
      obtain ⟨hnames, hentries⟩ := wellFormed_map_iff.1 hfirst
      obtain ⟨hbefore, hvalue, hafter⟩ : (∀ pair ∈ before, pair.2.WellFormed) ∧
          _ ∧ ∀ pair ∈ after, pair.2.WellFormed := by
        simpa only [List.forall_mem_append, List.forall_mem_cons] using hentries
      refine wellFormed_map_iff.2 ⟨by simpa [Entries.names] using hnames, ?_⟩
      simpa only [List.forall_mem_append, List.forall_mem_cons] using ⟨hbefore, ih hvalue, hafter⟩
  | trans _ _ hsecond hthird => exact hthird (hsecond hfirst)

/-- What equals a value equals it in any order. -/
theorem equals (h : Reorders first second) (hfirst : first.WellFormed)
    (hequal : Equals other first) : Equals other second := by
  induction h generalizing other with
  | here h =>
      obtain ⟨hdistinct, -⟩ := wellFormed_map_iff.1 hfirst
      cases hequal with
      | map hnames hvalues =>
          refine .map (fun name => (hnames name).trans (h.map Prod.fst).mem_iff) ?_
          intro name value found hvalue hfound
          rw [← Entries.find?_eq_of_perm hdistinct h] at hfound
          exact hvalues name value found hvalue hfound
  | @inside before after name inner _ _ ih =>
      have hinner : inner.WellFormed :=
        (wellFormed_map_iff.1 hfirst).2 (name, inner) (by simp)
      cases hequal with
      | map hnames hvalues =>
          refine .map (fun key => (hnames key).trans (by simp [Entries.names])) ?_
          intro key value found hvalue hfound
          have hbelow := hvalues key value
          rw [Entries.find?_append, Entries.find?] at hfound hbelow
          cases hbefore : Entries.find? key before with
          | some earlier =>
              rw [hbefore] at hfound hbelow
              exact hbelow found hvalue hfound
          | none =>
              rw [hbefore] at hfound hbelow
              by_cases hname : name = key
              · rw [if_pos hname] at hfound hbelow
                obtain rfl := Option.some.inj hfound
                exact ih hinner (hbelow inner hvalue rfl)
              · rw [if_neg hname] at hfound hbelow
                exact hbelow found hvalue hfound
  | trans hsecond _ hfirstly hsecondly =>
      exact hsecondly (hsecond.wellFormed hfirst) (hfirstly hfirst hequal)

theorem equals_iff (h : Reorders first second) (hfirst : first.WellFormed) :
    Equals other first ↔ Equals other second :=
  ⟨h.equals hfirst, h.symm.equals (h.wellFormed hfirst)⟩

end Reorders

/-! ## Equality as a whole -/

theorem same_comm {first second : Value} (hfirst : first.WellFormed)
    (hsecond : second.WellFormed) : first.same second = second.same first := by
  rw [Bool.eq_iff_iff, same_iff hfirst hsecond, same_iff hsecond hfirst]
  exact ⟨Equals.symm, Equals.symm⟩

theorem Reorders.same_right {first second other : Value} (h : first.Reorders second)
    (hfirst : first.WellFormed) (hother : other.WellFormed) :
    other.same first = other.same second := by
  rw [Bool.eq_iff_iff, same_iff hother hfirst, same_iff hother (h.wellFormed hfirst)]
  exact h.equals_iff hfirst

/-- Another message with the contents of a message is another message. -/
theorem same_twin_message (store : Store) {id : MessageId} (hid : id.serial < store.next) :
    same (.message id) (.message (store.create (store.read id)).1) = false := by
  refine beq_eq_false_iff_ne.2 ?_
  intro heq
  exact Nat.ne_of_lt hid (congrArg MessageId.serial heq)

/-- Another connector of the name, family and properties of a connector is another connector. -/
theorem same_twin_connector (world : World) {handle : Connector}
    (hhandle : handle.serial < world.nextConnector) :
    same (.connector handle)
      (.connector (world.newConnector handle.name handle.family handle.properties).1) = false :=
  beq_eq_false_iff_ne.2 (Nat.ne_of_lt hhandle)

/-- Equality of values is symmetric and transitive, and a value equals itself exactly when every
float in it is a number.  Maps are equal exactly when they bind the same names to equal values, so
the order of entries, at any depth, makes no difference to what a value equals.  Values of different
types are never equal.  Messages and connectors are equal exactly when they are the same one:
equality does not read the store, and a twin that is made with the same contents is not equal to
what it was made after. -/
theorem equality_is_partial_equivalence :
    (∀ first second : Value, first.WellFormed → second.WellFormed →
      first.same second = second.same first) ∧
    (∀ first second third : Value, first.WellFormed → second.WellFormed → third.WellFormed →
      first.same second = true → second.same third = true → first.same third = true) ∧
    (∀ value : Value, value.WellFormed →
      (value.same value = true ↔ ∀ x, value.Contains (.float x) → x.isNaN = false)) ∧
    (∀ left right : Entries Value, (map left).WellFormed → (map right).WellFormed →
      (same (.map left) (.map right) = true ↔
        (∀ name, name ∈ Entries.names left ↔ name ∈ Entries.names right) ∧
        ∀ name first second, Entries.find? name left = some first →
          Entries.find? name right = some second → first.same second = true)) ∧
    (∀ first second : Value, first.Reorders second → first.WellFormed →
      second.WellFormed ∧ ∀ other, other.WellFormed →
        first.same other = second.same other ∧ other.same first = other.same second) ∧
    (∀ first second : Value, first.WellFormed → second.WellFormed → first.same second = true →
      first.type = second.type) ∧
    (∀ first second, same (.message first) (.message second) = true ↔ first = second) ∧
    (∀ (store : Store) (id : MessageId), id.serial < store.next →
      ∃ twin later, store.create (store.read id) = (twin, later) ∧
        later.read twin = later.read id ∧ same (.message id) (.message twin) = false) ∧
    (∀ first second : Connector, same (.connector first) (.connector second) = true ↔
      first.serial = second.serial) ∧
    ∀ (world : World) (handle : Connector), handle.serial < world.nextConnector →
      ∃ twin later, world.newConnector handle.name handle.family handle.properties =
          (twin, later) ∧
        twin = { handle with serial := twin.serial } ∧
        same (.connector handle) (.connector twin) = false := by
  refine ⟨?_, ?_, ?_, ?_, ?_, ?_, ?_, ?_, ?_, ?_⟩
  · intro first second hfirst hsecond
    exact same_comm hfirst hsecond
  · intro first second third hfirst hsecond hthird hleft hright
    have hequals := (equals_of_same hfirst hsecond hleft).trans
      (equals_of_same hsecond hthird hright)
    exact hequals.same hfirst hthird
  · intro value hvalue
    exact (same_iff hvalue hvalue).trans (Equals.self_iff hvalue)
  · intro left right hleft hright
    exact same_map_iff (wellFormed_map_iff.1 hleft).1 (wellFormed_map_iff.1 hright).1
  · intro first second h hfirst
    have hsecond := h.wellFormed hfirst
    refine ⟨hsecond, fun other hother => ⟨?_, h.same_right hfirst hother⟩⟩
    rw [same_comm hfirst hother, same_comm hsecond hother]
    exact h.same_right hfirst hother
  · intro first second hfirst hsecond h
    exact (equals_of_same hfirst hsecond h).type_eq
  · intro first second
    exact beq_iff_eq
  · intro store id hid
    refine ⟨(store.create (store.read id)).1, (store.create (store.read id)).2, rfl, ?_,
      same_twin_message store hid⟩
    rw [Store.read_create, Store.read_create, if_pos rfl]
    split
    · rfl
    · rfl
  · intro first second
    exact beq_iff_eq
  · intro world handle hhandle
    exact ⟨_, _, rfl, rfl, same_twin_connector world hhandle⟩

/-- An order, with a note about where it goes. -/
def order : Value :=
  ofPairs [("id", .integer 7), ("to", ofPairs [("name", .string "Ada"), ("by", .message ⟨0⟩)])]

/-- The same order, turned around inside and outside. -/
def turnedOrder : Value :=
  ofPairs [("to", ofPairs [("by", .message ⟨0⟩), ("name", .string "Ada")]), ("id", .integer 7)]

/-- An order equals itself and the order turned around, and not one for another message of the same
contents. -/
theorem equality_is_partial_equivalence_of_order :
    order.WellFormed ∧ turnedOrder.WellFormed ∧ order.Reorders turnedOrder ∧
      order.same turnedOrder = true ∧ turnedOrder.same order = true ∧
      (∀ x, order.Contains (.float x) → x.isNaN = false) ∧ order.type = turnedOrder.type ∧
      ∃ twin, same (.message ⟨0⟩) (.message twin) = false := by
  obtain ⟨hcomm, -, hself, -, horder, htype, -, htwin, -, -⟩ := equality_is_partial_equivalence
  have hwell : order.WellFormed := by
    have hnote : (ofPairs [("name", .string "Ada"), ("by", .message ⟨0⟩)]).WellFormed :=
      wellFormed_ofPairs (by simp [wellFormed_of_ne_map])
    exact wellFormed_ofPairs (by simp [wellFormed_of_ne_map, hnote])
  have hreorders : order.Reorders turnedOrder := by
    have hnote : Reorders (.map [("name", .string "Ada"), ("by", .message ⟨0⟩)])
        (.map [("by", .message ⟨0⟩), ("name", .string "Ada")]) := .here (.swap _ _ _)
    have hinside := @Reorders.inside [("id", .integer 7)] [] "to" _ _ hnote
    exact hinside.trans (.here (.swap _ _ _))
  have hreflexive : order.same order = true := by decide
  obtain ⟨hturned, hsame⟩ := horder order turnedOrder hreorders hwell
  have hequal : order.same turnedOrder = true := (hsame order hwell).2 ▸ hreflexive
  obtain ⟨twin, later, -, -, htwin⟩ := htwin (Store.empty.create .blank).2 ⟨0⟩ (by decide)
  exact ⟨hwell, hturned, hreorders, hequal, hcomm order turnedOrder hwell hturned ▸ hequal,
    (hself order hwell).1 hreflexive, htype order turnedOrder hwell hturned hequal, twin, htwin⟩

end Value

end Switchboard
