/-!
Histories.

A history grows at its end.  What it says about the present is mostly that something began and that
nothing has ended it since, which one more event begins, ends or leaves as it was.
-/

namespace Switchboard

variable {A : Type}

/-- An element of a list that has one more element at its end is this one, or an earlier one. -/
theorem append_singleton_eq_append_cons_iff {history before after : List A} {latest event : A} :
    history ++ [latest] = before ++ event :: after ↔
      (history = before ∧ latest = event ∧ after = []) ∨
        ∃ middle, history = before ++ event :: middle ∧ after = middle ++ [latest] := by
  constructor
  · intro h
    rcases List.eq_nil_or_concat after with rfl | ⟨middle, last, rfl⟩
    · obtain ⟨hbefore, hlatest⟩ := List.append_inj' h rfl
      exact .inl ⟨hbefore, List.singleton_inj.1 hlatest, rfl⟩
    · rw [List.concat_eq_append, ← List.cons_append, ← List.append_assoc] at h
      obtain ⟨hhistory, hlatest⟩ := List.append_inj' h rfl
      rw [List.concat_eq_append, List.singleton_inj.1 hlatest]
      exact .inr ⟨middle, hhistory, rfl⟩
  · rintro (⟨rfl, rfl, rfl⟩ | ⟨middle, rfl, rfl⟩)
    · rfl
    · rw [List.append_assoc, List.cons_append]

/-- It was so at the start, or an event began it, and no event has ended it since. -/
inductive Since (starts : Prop) (begins : List A → A → Prop) (ends : A → Prop) : List A → Prop
  | start {history : List A} (hstarts : starts) (hlasts : ∀ event ∈ history, ¬ ends event) :
      Since starts begins ends history
  | event {before after : List A} {event : A} (hbegins : begins before event)
      (hlasts : ∀ later ∈ after, ¬ ends later) : Since starts begins ends (before ++ event :: after)

namespace Since

variable {starts : Prop} {begins : List A → A → Prop} {ends : A → Prop} {history : List A}
  {latest : A}

theorem nil_iff : Since starts begins ends [] ↔ starts := by
  constructor
  · intro h
    generalize hhistory : ([] : List A) = history at h
    cases h with
    | start hstarts _ => exact hstarts
    | event _ _ => simp at hhistory
  · exact fun hstarts => .start hstarts (by simp)

/-- One more event begins it, or leaves it as it was unless it ends it. -/
theorem concat_iff : Since starts begins ends (history ++ [latest]) ↔
    begins history latest ∨ Since starts begins ends history ∧ ¬ ends latest := by
  constructor
  · intro h
    generalize hall : history ++ [latest] = all at h
    cases h with
    | start hstarts hlasts =>
        subst hall
        rw [List.forall_mem_append, List.forall_mem_singleton] at hlasts
        exact .inr ⟨.start hstarts hlasts.1, hlasts.2⟩
    | event hbegins hlasts =>
        rcases append_singleton_eq_append_cons_iff.1 hall with
          ⟨rfl, rfl, rfl⟩ | ⟨middle, rfl, rfl⟩
        · exact .inl hbegins
        · rw [List.forall_mem_append, List.forall_mem_singleton] at hlasts
          exact .inr ⟨.event hbegins hlasts.1, hlasts.2⟩
  · rintro (hbegins | ⟨h, hlasts⟩)
    · exact .event hbegins (by simp)
    · cases h with
      | start hstarts hkept =>
          exact .start hstarts
            (List.forall_mem_append.2 ⟨hkept, List.forall_mem_singleton.2 hlasts⟩)
      | event hbegins hkept =>
          rw [List.append_assoc, List.cons_append]
          exact .event hbegins
            (List.forall_mem_append.2 ⟨hkept, List.forall_mem_singleton.2 hlasts⟩)

end Since

end Switchboard
