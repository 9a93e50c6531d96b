import Mathlib.Data.List.Nodup
import Mathlib.Data.List.Perm.Basic
import Switchboard.Proofs.Contributions
import Switchboard.Proofs.Objections

/-!
Which contributions make a registry.

A registry is built when every contribution is valid and no two have one name.  Neither depends on
their order, so a registry that is built is built from every permutation too, with the same entry
under every name and the same listing.  What does depend on the order is the fault: it is that of
the first contribution that is not valid or repeats a name.
-/

namespace Switchboard

/-! ## The order of names -/

namespace QualifiedName

/-- By package, then by name. -/
def Before (left right : QualifiedName) : Prop :=
  left.package < right.package ∨ left.package = right.package ∧ left.name < right.name

variable {left between right : QualifiedName}

theorem less_iff : left.less right = true ↔ left.Before right := by
  simp [less, Before]

theorem Before.irrefl (name : QualifiedName) : ¬ name.Before name := by
  rintro (h | ⟨-, h⟩)
  · exact String.lt_irrefl _ h
  · exact String.lt_irrefl _ h

theorem Before.trans (hleft : left.Before between) (hright : between.Before right) :
    left.Before right := by
  rcases hleft with hpackage | ⟨hpackage, hname⟩
  · rcases hright with hmore | ⟨hsame, -⟩
    · exact .inl (String.lt_trans hpackage hmore)
    · exact .inl (hsame ▸ hpackage)
  · rcases hright with hmore | ⟨hsame, hmore⟩
    · exact .inl (hpackage ▸ hmore)
    · exact .inr ⟨hpackage.trans hsame, String.lt_trans hname hmore⟩

theorem before_or_before (h : left ≠ right) : left.Before right ∨ right.Before left := by
  have hlt {first second : String} (hne : first ≠ second) : first < second ∨ second < first := by
    by_cases hfirst : first < second
    · exact .inl hfirst
    · by_cases hsecond : second < first
      · exact .inr hsecond
      · exact absurd (String.le_antisymm (String.not_lt.1 hsecond) (String.not_lt.1 hfirst)) hne
  rcases left with ⟨package, name⟩
  rcases right with ⟨otherPackage, otherName⟩
  by_cases hpackage : package = otherPackage
  · subst hpackage
    rcases hlt (fun hname => h (congrArg _ hname) : name ≠ otherName) with hname | hname
    · exact .inl (.inr ⟨rfl, hname⟩)
    · exact .inr (.inr ⟨rfl, hname⟩)
  · rcases hlt hpackage with hless | hless
    · exact .inl (.inl hless)
    · exact .inr (.inl hless)

end QualifiedName

namespace Registry

open QualifiedName

/-! ## The listing -/

theorem insertSorted_perm (descriptor : Descriptor) (descriptors : List Descriptor) :
    (insertSorted descriptor descriptors).Perm (descriptor :: descriptors) := by
  induction descriptors with
  | nil => exact .refl _
  | cons head rest ih =>
      simp only [insertSorted]
      split
      · exact (ih.cons head).trans (.swap descriptor head rest)
      · exact .refl _

theorem foldr_insertSorted_perm (descriptors : List Descriptor) :
    (descriptors.foldr insertSorted []).Perm descriptors := by
  induction descriptors with
  | nil => exact .refl _
  | cons head rest ih => exact (insertSorted_perm head _).trans (ih.cons head)

/-- Descriptors in increasing order of their names. -/
abbrev Ascending (descriptors : List Descriptor) : Prop :=
  descriptors.Pairwise fun left right => left.name.Before right.name

theorem ascending_insertSorted {descriptor : Descriptor} {descriptors : List Descriptor}
    (hfresh : ∀ other ∈ descriptors, other.name ≠ descriptor.name)
    (h : Ascending descriptors) : Ascending (insertSorted descriptor descriptors) := by
  induction descriptors with
  | nil => exact List.pairwise_singleton _ _
  | cons head rest ih =>
      obtain ⟨hhead, hrest⟩ := List.pairwise_cons.1 h
      simp only [insertSorted]
      split
      · next hless =>
        have hbefore := less_iff.1 hless
        refine List.pairwise_cons.2 ⟨?_, ih (fun other hother =>
          hfresh other (List.mem_cons_of_mem head hother)) hrest⟩
        intro other hother
        rcases List.mem_cons.1 ((insertSorted_perm descriptor rest).mem_iff.1 hother) with
          rfl | hother
        · exact hbefore
        · exact hhead other hother
      · next hless =>
        have hbefore : descriptor.name.Before head.name :=
          (before_or_before (hfresh head List.mem_cons_self)).resolve_left fun hbefore =>
            hless (less_iff.2 hbefore)
        refine List.pairwise_cons.2 ⟨?_, h⟩
        intro other hother
        rcases List.mem_cons.1 hother with rfl | hother
        · exact hbefore
        · exact hbefore.trans (hhead other hother)

theorem ascending_foldr {descriptors : List Descriptor}
    (h : (descriptors.map Descriptor.name).Nodup) :
    Ascending (descriptors.foldr insertSorted []) := by
  induction descriptors with
  | nil => exact .nil
  | cons head rest ih =>
      rw [List.map_cons, List.nodup_cons] at h
      apply ascending_insertSorted _ (ih h.2)
      intro other hother heq
      apply h.1
      rw [← heq]
      exact List.mem_map_of_mem ((foldr_insertSorted_perm rest).mem_iff.1 hother)

/-- An increasing listing is determined by what is listed. -/
theorem Ascending.eq_of_perm {left right : List Descriptor} (hleft : Ascending left)
    (hright : Ascending right) (hperm : left.Perm right) : left = right := by
  refine hperm.eq_of_pairwise ?_ hleft hright
  intro first second _ _ hbefore hafter
  exact absurd (hbefore.trans hafter) (Before.irrefl _)

/-! ## Entries and contributions -/

/-- The entry that a contribution is registered with. -/
structure Registers (contribution : Contribution) (entry : Entry) : Prop where
  holds : entry.contribution = contribution
  describe : contribution.describe = .ok entry.descriptor

theorem Registers.name {contribution : Contribution} {entry : Entry}
    (h : Registers contribution entry) : entry.descriptor.name = contribution.qualifiedName :=
  (Contribution.valid_of_describe h.describe).2.name

theorem names_of_registers {contributions : List Contribution} {entries : List Entry}
    (h : List.Forall₂ Registers contributions entries) :
    entries.map (fun entry => entry.descriptor.name) =
      contributions.map Contribution.qualifiedName := by
  induction h with
  | nil => rfl
  | cons hhead _ ih => rw [List.map_cons, List.map_cons, hhead.name, ih]

theorem valid_of_registers {contributions : List Contribution} {entries : List Entry}
    (h : List.Forall₂ Registers contributions entries) :
    ∀ contribution ∈ contributions, contribution.Valid := by
  induction h with
  | nil => simp
  | cons hhead _ ih =>
      exact List.forall_mem_cons.2 ⟨(Contribution.valid_of_describe hhead.describe).1, ih⟩

theorem exists_registers {contributions : List Contribution}
    (h : ∀ contribution ∈ contributions, contribution.Valid) :
    ∃ entries, List.Forall₂ Registers contributions entries := by
  induction contributions with
  | nil => exact ⟨[], .nil⟩
  | cons head rest ih =>
      obtain ⟨hhead, hrest⟩ := List.forall_mem_cons.1 h
      obtain ⟨descriptor, hdescribe, -⟩ := Contribution.exists_describe_of_valid hhead
      obtain ⟨entries, hentries⟩ := ih hrest
      exact ⟨⟨descriptor, head⟩ :: entries, .cons ⟨rfl, hdescribe⟩ hentries⟩

/-- Names that follow the patterns are distinct exactly when their texts are. -/
theorem nodup_keys_iff {contributions : List Contribution} {entries : List Entry}
    (h : List.Forall₂ Registers contributions entries) :
    (entries.map Entry.key).Nodup ↔
      (contributions.map Contribution.qualifiedName).Nodup := by
  have hkeys : entries.map Entry.key =
      (contributions.map Contribution.qualifiedName).map QualifiedName.text := by
    rw [← names_of_registers h, List.map_map]
    rfl
  rw [hkeys]
  constructor
  · exact List.Nodup.of_map _
  · intro hnames
    refine hnames.map_on ?_
    intro left hleft right hright htext
    obtain ⟨first, hfirst, rfl⟩ := List.mem_map.1 hleft
    obtain ⟨second, hsecond, rfl⟩ := List.mem_map.1 hright
    exact (valid_of_registers h first hfirst).name.isCallable.text_injective
      (valid_of_registers h second hsecond).name.isCallable htext

/-! ## One contribution after the other -/

variable {registry built : Registry} {contribution : Contribution} {fault : RegistryFault}

theorem find?_eq_none_iff {name : String} :
    registry.find? name = none ↔ name ∉ registry.entries.map Entry.key := by
  rw [find?, List.find?_eq_none]
  simp [List.mem_map]

theorem register_eq_ok_iff :
    registry.register contribution = .ok built ↔
      ∃ entry, Registers contribution entry ∧ entry.key ∉ registry.entries.map Entry.key ∧
        built = ⟨registry.entries ++ [entry]⟩ := by
  constructor
  · intro h
    obtain ⟨descriptor, hdescribe, hfree, hentries⟩ := register_eq_ok h
    refine ⟨⟨descriptor, contribution⟩, ⟨rfl, hdescribe⟩, find?_eq_none_iff.1 hfree, ?_⟩
    rw [← hentries]
  · rintro ⟨entry, hregisters, hfree, rfl⟩
    have hnone : registry.contains entry.key = false := by
      rw [contains, find?_eq_none_iff.2 hfree]
      rfl
    simp only [register, hregisters.describe]
    change (if registry.contains entry.key = true then _ else _) = _
    rw [hnone, ← hregisters.holds]
    rfl

/-- What is wrong with a contribution where these others are registered. -/
theorem register_eq_error_iff :
    registry.register contribution = .error fault ↔
      contribution.FirstFault fault ∨
        contribution.Valid ∧
          contribution.qualifiedName.text ∈ registry.entries.map Entry.key ∧
          fault = .duplicateName contribution.qualifiedName.text := by
  rcases hdescribe : contribution.describe with refusal | descriptor
  · have hfirst := Contribution.describe_eq_error_iff.1 hdescribe
    have hregister : registry.register contribution = .error refusal := by
      simp only [register, hdescribe]
      rfl
    rw [hregister]
    constructor
    · rintro ⟨⟩
      exact .inl hfirst
    · rintro (hfault | ⟨hvalid, -⟩)
      · rw [Contribution.describe_of_firstFault hfault] at hdescribe
        cases hdescribe
        rfl
      · obtain ⟨_, hok, -⟩ := Contribution.exists_describe_of_valid hvalid
        cases hdescribe.symm.trans hok
  · obtain ⟨hvalid, hdescribed⟩ := Contribution.valid_of_describe hdescribe
    have hname := hdescribed.name
    have hregister : registry.register contribution =
        if registry.contains contribution.qualifiedName.text = true then
          .error (.duplicateName contribution.qualifiedName.text)
        else .ok ⟨registry.entries ++ [⟨descriptor, contribution⟩]⟩ := by
      rw [← hname]
      simp only [register, hdescribe]
      rfl
    have hcontains : registry.contains contribution.qualifiedName.text = true ↔
        contribution.qualifiedName.text ∈ registry.entries.map Entry.key := by
      rw [contains, Option.isSome_iff_ne_none, ne_eq, find?_eq_none_iff, not_not]
    rw [hregister]
    constructor
    · intro h
      split at h
      · next hrepeated =>
        cases h
        exact .inr ⟨hvalid, hcontains.1 hrepeated, rfl⟩
      · cases h
    · rintro (hfault | ⟨-, hrepeated, rfl⟩)
      · cases hdescribe.symm.trans (Contribution.describe_of_firstFault hfault)
      · rw [if_pos (hcontains.2 hrepeated)]

/-! ## All contributions -/

variable {contributions other : List Contribution}

theorem registerAll_eq_ok_iff (hdistinct : (registry.entries.map Entry.key).Nodup) :
    registry.registerAll contributions = .ok built ↔
      ∃ entries, List.Forall₂ Registers contributions entries ∧
        built = ⟨registry.entries ++ entries⟩ ∧ (built.entries.map Entry.key).Nodup := by
  induction contributions generalizing registry with
  | nil =>
      constructor
      · rintro ⟨⟩
        exact ⟨[], .nil, by rw [List.append_nil], hdistinct⟩
      · rintro ⟨_, ⟨⟩, rfl, -⟩
        rw [List.append_nil]
        rfl
  | cons head rest ih =>
      rw [registerAll, Except.bind_eq_ok]
      constructor
      · rintro ⟨next, hnext, hrest⟩
        obtain ⟨entry, hregisters, hfree, rfl⟩ := register_eq_ok_iff.1 hnext
        have hstill : ((registry.entries ++ [entry]).map Entry.key).Nodup := by
          rw [List.map_append, List.map_singleton, List.nodup_append_comm]
          exact List.nodup_cons.2 ⟨hfree, hdistinct⟩
        obtain ⟨entries, hall, hbuilt, hkeys⟩ := (ih hstill).1 hrest
        refine ⟨entry :: entries, .cons hregisters hall, ?_, hkeys⟩
        rw [hbuilt, List.append_assoc]
        rfl
      · rintro ⟨_, hall, rfl, hkeys⟩
        cases hall with
        | @cons _ entry _ entries hregisters hall =>
            have hsplit : registry.entries ++ entry :: entries =
                registry.entries ++ [entry] ++ entries := by
              rw [List.append_assoc]
              rfl
            have hstill : ((registry.entries ++ [entry]).map Entry.key).Nodup := by
              refine hkeys.sublist (List.Sublist.map _ ?_)
              rw [hsplit]
              exact List.sublist_append_left _ _
            have hfree : entry.key ∉ registry.entries.map Entry.key := by
              rw [List.map_append, List.map_singleton, List.nodup_append_comm] at hstill
              exact (List.nodup_cons.1 hstill).1
            refine ⟨_, register_eq_ok_iff.2 ⟨entry, hregisters, hfree, rfl⟩, (ih hstill).2 ?_⟩
            rw [hsplit] at hkeys ⊢
            exact ⟨entries, hall, rfl, hkeys⟩

theorem build_eq_ok_iff :
    build contributions = .ok registry ↔
      List.Forall₂ Registers contributions registry.entries ∧
        (registry.entries.map Entry.key).Nodup := by
  rw [build, registerAll_eq_ok_iff (show (empty.entries.map Entry.key).Nodup from .nil)]
  constructor
  · rintro ⟨entries, hall, rfl, hkeys⟩
    exact ⟨hall, hkeys⟩
  · rintro ⟨hall, hkeys⟩
    exact ⟨registry.entries, hall, rfl, hkeys⟩

/-- The building ends with a fault at some contribution, and what stands before it is
registered. -/
theorem registerAll_eq_error_iff :
    registry.registerAll contributions = .error fault ↔
      ∃ before contribution after between, contributions = before ++ contribution :: after ∧
        registry.registerAll before = .ok between ∧
        between.register contribution = .error fault := by
  induction contributions generalizing registry with
  | nil =>
      constructor
      · rintro ⟨⟩
      · rintro ⟨_ | _, _, _, _, ⟨⟩, _⟩
  | cons head rest ih =>
      rcases hhead : registry.register head with refusal | next
      · have hall : registry.registerAll (head :: rest) = .error refusal := by
          rw [registerAll, hhead]
          rfl
        rw [hall]
        constructor
        · rintro ⟨⟩
          exact ⟨[], head, rest, registry, rfl, rfl, hhead⟩
        · rintro ⟨before, contribution, after, between, hsplit, hbefore, hfault⟩
          cases before with
          | nil =>
              cases hsplit
              cases hbefore
              exact hhead.symm.trans hfault
          | cons first before =>
              cases hsplit
              rw [registerAll, hhead] at hbefore
              cases hbefore
      · have hall (more : List Contribution) :
            registry.registerAll (head :: more) = next.registerAll more := by
          rw [registerAll, hhead]
          rfl
        rw [hall, ih]
        constructor
        · rintro ⟨before, contribution, after, between, rfl, hbefore, hfault⟩
          exact ⟨head :: before, contribution, after, between, rfl, (hall before).trans hbefore,
            hfault⟩
        · rintro ⟨before, contribution, after, between, hsplit, hbefore, hfault⟩
          cases before with
          | nil =>
              cases hsplit
              cases hbefore
              cases hhead.symm.trans hfault
          | cons first before =>
              cases hsplit
              exact ⟨before, contribution, after, between, rfl, (hall before).symm.trans hbefore,
                hfault⟩

/-- Every contribution is valid, and no two have one name. -/
structure Registrable (contributions : List Contribution) : Prop where
  valid : ∀ contribution ∈ contributions, contribution.Valid
  distinct : (contributions.map Contribution.qualifiedName).Nodup

theorem Registrable.of_perm (h : Registrable contributions) (hperm : other.Perm contributions) :
    Registrable other :=
  ⟨fun contribution hmem => h.valid contribution (hperm.mem_iff.1 hmem),
    (hperm.map Contribution.qualifiedName).nodup_iff.2 h.distinct⟩

theorem exists_build_iff :
    (∃ registry, build contributions = .ok registry) ↔ Registrable contributions := by
  constructor
  · rintro ⟨registry, h⟩
    obtain ⟨hall, hkeys⟩ := build_eq_ok_iff.1 h
    exact ⟨valid_of_registers hall, (nodup_keys_iff hall).1 hkeys⟩
  · intro h
    obtain ⟨entries, hall⟩ := exists_registers h.valid
    exact ⟨⟨entries⟩, build_eq_ok_iff.2 ⟨hall, (nodup_keys_iff hall).2 h.distinct⟩⟩

/-- What is wrong with a contribution behind these others. -/
inductive Rejected (before : List Contribution) (contribution : Contribution) :
    RegistryFault → Prop
  | faulty {fault : RegistryFault} (hfault : contribution.FirstFault fault) :
      Rejected before contribution fault
  | repeated (hvalid : contribution.Valid)
      (hmem : contribution.qualifiedName ∈ before.map Contribution.qualifiedName) :
      Rejected before contribution (.duplicateName contribution.qualifiedName.text)

/-- Behind registered contributions a contribution is turned away for what is wrong with it. -/
theorem register_eq_error_iff_rejected (h : build contributions = .ok registry) :
    registry.register contribution = .error fault ↔ Rejected contributions contribution fault := by
  obtain ⟨hall, -⟩ := build_eq_ok_iff.1 h
  have hvalid := valid_of_registers hall
  have hkeys : registry.entries.map Entry.key =
      (contributions.map Contribution.qualifiedName).map QualifiedName.text := by
    rw [← names_of_registers hall, List.map_map]
    rfl
  rw [register_eq_error_iff, hkeys]
  constructor
  · rintro (hfault | ⟨hown, hmem, rfl⟩)
    · exact .faulty hfault
    · obtain ⟨name, hname, htext⟩ := List.mem_map.1 hmem
      obtain ⟨earlier, hearlier, rfl⟩ := List.mem_map.1 hname
      have hsame := (hvalid earlier hearlier).name.isCallable.text_injective hown.name.isCallable
        htext
      exact .repeated hown (hsame ▸ hname)
  · rintro (hfault | ⟨hown, hmem⟩)
    · exact .inl hfault
    · exact .inr ⟨hown, List.mem_map_of_mem hmem, rfl⟩

theorem build_eq_error_iff :
    build contributions = .error fault ↔
      ∃ before contribution after, contributions = before ++ contribution :: after ∧
        Registrable before ∧ Rejected before contribution fault := by
  rw [build, registerAll_eq_error_iff]
  constructor
  · rintro ⟨before, contribution, after, between, hsplit, hbefore, hfault⟩
    exact ⟨before, contribution, after, hsplit, exists_build_iff.1 ⟨between, hbefore⟩,
      (register_eq_error_iff_rejected hbefore).1 hfault⟩
  · rintro ⟨before, contribution, after, hsplit, hbefore, hrejected⟩
    obtain ⟨between, hbetween⟩ := exists_build_iff.2 hbefore
    exact ⟨before, contribution, after, between, hsplit, hbetween,
      (register_eq_error_iff_rejected hbetween).2 hrejected⟩

/-! ## Permutations -/

theorem find?_eq_some_iff (hkeys : (registry.entries.map Entry.key).Nodup) {name : String}
    {entry : Entry} :
    registry.find? name = some entry ↔ entry ∈ registry.entries ∧ entry.key = name := by
  rw [find?]
  constructor
  · intro h
    exact ⟨List.mem_of_find?_eq_some h, name_of_find? h⟩
  · rintro ⟨hmem, rfl⟩
    rcases hfound : registry.entries.find? fun other => other.key == entry.key with _ | found
    · exact absurd (List.find?_eq_none.1 hfound entry hmem) (by simp)
    · have hsame := List.inj_on_of_nodup_map hkeys (List.mem_of_find?_eq_some hfound) hmem
        (name_of_find? hfound)
      exact hfound.trans (congrArg some hsame)

/-- What a built registry lists. -/
theorem descriptors_of_build (h : build contributions = .ok registry) :
    Ascending registry.descriptors ∧ ∃ descriptors,
      List.Forall₂ Contribution.DescribedBy contributions descriptors ∧
        registry.descriptors.Perm descriptors := by
  obtain ⟨hall, hkeys⟩ := build_eq_ok_iff.1 h
  refine ⟨ascending_foldr ?_, registry.entries.map Entry.descriptor, ?_,
    foldr_insertSorted_perm _⟩
  · rw [List.map_map]
    change (registry.entries.map fun entry => entry.descriptor.name).Nodup
    rw [names_of_registers hall]
    exact (nodup_keys_iff hall).1 hkeys
  · rw [List.forall₂_map_right_iff]
    exact hall.imp fun _ _ hregisters => (Contribution.valid_of_describe hregisters.describe).2

/-- The entries of a permutation are a permutation of the entries, which are found under the same
names and listed in the same order. -/
theorem exists_build_perm (h : build contributions = .ok registry)
    (hperm : other.Perm contributions) :
    ∃ built, build other = .ok built ∧ (∀ name, built.find? name = registry.find? name) ∧
      built.descriptors = registry.descriptors := by
  obtain ⟨hall, hkeys⟩ := build_eq_ok_iff.1 h
  obtain ⟨entries, hother, hentries⟩ := List.perm_comp_forall₂ hperm hall
  have hdistinct : (entries.map Entry.key).Nodup := (hentries.map Entry.key).nodup_iff.2 hkeys
  have hbuilt : build other = .ok ⟨entries⟩ := build_eq_ok_iff.2 ⟨hother, hdistinct⟩
  refine ⟨⟨entries⟩, hbuilt, ?_, ?_⟩
  · intro name
    apply Option.ext
    intro entry
    rw [find?_eq_some_iff hkeys, find?_eq_some_iff hdistinct, hentries.mem_iff]
  · apply (descriptors_of_build hbuilt).1.eq_of_perm (descriptors_of_build h).1
    exact (foldr_insertSorted_perm _).trans
      ((hentries.map Entry.descriptor).trans (foldr_insertSorted_perm _).symm)

/-- Whether a registry is built does not depend on the order of the contributions, and neither do
its entries and its listing, which has one descriptor for each contribution.  A fault is that of
the first contribution that is not valid or repeats a name before it. -/
theorem building_ignores_order (contributions : List Contribution) :
    ((∃ registry, build contributions = .ok registry) ↔ Registrable contributions) ∧
    (∀ registry, build contributions = .ok registry →
      Ascending registry.descriptors ∧
      (∃ descriptors, List.Forall₂ Contribution.DescribedBy contributions descriptors ∧
        registry.descriptors.Perm descriptors) ∧
      ∀ other, other.Perm contributions → ∃ built, build other = .ok built ∧
        (∀ name, built.find? name = registry.find? name) ∧
        built.descriptors = registry.descriptors) ∧
    ∀ fault,
      (build contributions = .error fault ↔
        ∃ before contribution after, contributions = before ++ contribution :: after ∧
          Registrable before ∧ Rejected before contribution fault) ∧
      (build contributions = .error fault →
        ∀ other, other.Perm contributions → ∃ different, build other = .error different) := by
  refine ⟨exists_build_iff, ?_, fun fault => ⟨build_eq_error_iff, ?_⟩⟩
  · intro registry h
    obtain ⟨hascending, hlisted⟩ := descriptors_of_build h
    exact ⟨hascending, hlisted, fun other hperm => exists_build_perm h hperm⟩
  · intro h other hperm
    rcases hbuild : build other with different | built
    · exact ⟨different, rfl⟩
    · have hregistrable := (exists_build_iff.1 ⟨built, hbuild⟩).of_perm hperm.symm
      obtain ⟨registry, hok⟩ := exists_build_iff.2 hregistrable
      cases h.symm.trans hok

end Registry

end Switchboard
