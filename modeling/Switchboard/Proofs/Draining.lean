import Switchboard.Proofs.Receivers

/-!
What it means to be told nothing.

Asking without waiting is answered by nothing when there is nothing to read, and when the receiver
was overtaken: when more records are outstanding for it than there are slots.  Then records wait for
it all the same, and whoever stops at the first nothing leaves them behind.  It takes one more look,
and what is read from there on is everything that is kept.  A receiver that is not overtaken reads
everything that waits for it before it is told nothing.
-/

namespace Switchboard.Broadcast

variable {A : Type}

/-- The records that are kept and that a receiver has not come to. -/
def waiting (broadcast : Broadcast A) (receiver : String) : List A :=
  broadcast.keptFrom ((Entries.find? receiver broadcast.receivers).getD broadcast.next)

/-- More records are outstanding for a receiver than there are slots. -/
def IsOvertaken (broadcast : Broadcast A) (receiver : String) : Prop :=
  ∃ place, Entries.find? receiver broadcast.receivers = some place ∧
    place + broadcast.capacity < broadcast.next

/-- Asking without waiting, again and again, up to the first time that it is answered by nothing. -/
abbrev drain (broadcast : Broadcast A) (receiver : String) (times : Nat) : List A :=
  readOn (fun broadcast => broadcast.tryReceive receiver) times broadcast

/-- A receiver that was overtaken is told nothing once, though everything that is kept waits for it,
and then it reads all of that. -/
structure Misleads (broadcast : Broadcast A) (receiver : String) : Prop where
  nothing : (broadcast.tryReceive receiver).1 = .nothing
  waits : broadcast.waiting receiver = broadcast.kept
  some : broadcast.kept ≠ []
  recovers : ∀ times, broadcast.kept.length ≤ times →
    (broadcast.tryReceive receiver).2.drain receiver times = broadcast.kept

namespace Logs

variable {broadcast : Broadcast A} {log : List A} {receiver : String} {place : Nat}
  (hlogs : broadcast.Logs log)
  (hstands : Entries.find? receiver broadcast.receivers = some place)

include hlogs hstands

theorem waiting :
    broadcast.waiting receiver = log.drop (max place (log.length - broadcast.capacity)) := by
  rw [Broadcast.waiting, hstands, Option.getD_some, hlogs.keptFrom]

theorem isOvertaken_iff :
    broadcast.IsOvertaken receiver ↔ place + broadcast.capacity < log.length := by
  rw [← hlogs.next]
  constructor
  · rintro ⟨other, hother, hbehind⟩
    obtain rfl := Option.some.inj (hstands.symm.trans hother)
    exact hbehind
  · intro hbehind
    exact ⟨place, hstands, hbehind⟩

/-- A gap is answered by nothing, and the receiver comes to the oldest record that is kept. -/
theorem tryReceive_of_isOvertaken (hovertaken : broadcast.IsOvertaken receiver) :
    broadcast.tryReceive receiver =
      (.nothing, broadcast.moveTo receiver (log.length - broadcast.capacity)) := by
  rw [hlogs.isOvertaken_iff hstands] at hovertaken
  have hlagged : place < log.length - broadcast.capacity := by omega
  simp only [tryReceive, poll, hstands, Option.getD_some, hlogs.oldest, if_pos hlagged]

/-- Asking is answered by nothing behind a gap, and where nothing waits. -/
theorem tryReceive_eq_nothing_iff :
    (broadcast.tryReceive receiver).1 = .nothing ↔
      broadcast.waiting receiver = [] ∨ broadcast.IsOvertaken receiver := by
  by_cases hovertaken : broadcast.IsOvertaken receiver
  · have hnothing := hlogs.tryReceive_of_isOvertaken hstands hovertaken
    exact iff_of_true (congrArg Prod.fst hnothing) (.inr hovertaken)
  · rw [or_iff_left hovertaken]
    rw [hlogs.isOvertaken_iff hstands] at hovertaken
    have hnear : ¬ place < log.length - broadcast.capacity := by omega
    simp only [tryReceive, poll, Broadcast.waiting, hstands, Option.getD_some, hlogs.oldest,
      if_neg hnear]
    cases broadcast.keptFrom place with
    | nil => cases broadcast.closed <;> exact iff_of_true rfl rfl
    | cons record later => exact iff_of_false (by simp) (List.cons_ne_nil record later)

/-- Who is not overtaken reads all that waits. -/
theorem drain_eq (hwithin : place ≤ log.length) (hnear : ¬ broadcast.IsOvertaken receiver)
    {times : Nat} (htimes : (broadcast.waiting receiver).length ≤ times) :
    broadcast.drain receiver times = broadcast.waiting receiver := by
  rw [hlogs.isOvertaken_iff hstands, Nat.not_lt] at hnear
  have hplace : max place (log.length - broadcast.capacity) = place := by omega
  rw [hlogs.waiting hstands, hplace] at htimes ⊢
  rw [List.length_drop] at htimes
  exact Asks.tryReceive.readOn_eq (fun _ => true) hlogs hstands hwithin hnear (by omega)

theorem misleads (hcapacity : 1 ≤ broadcast.capacity)
    (hovertaken : broadcast.IsOvertaken receiver) : broadcast.Misleads receiver := by
  have hbehind := (hlogs.isOvertaken_iff hstands).1 hovertaken
  have hnothing := hlogs.tryReceive_of_isOvertaken hstands hovertaken
  have hmoves := moves_moveTo broadcast receiver (log.length - broadcast.capacity)
  have hmoved := hlogs.moves hmoves
  have hwaiting := hmoved.waiting hmoves.stands
  rw [hmoves.capacity, Nat.max_self, ← hlogs.kept] at hwaiting
  constructor
  · rw [hnothing]
  · rw [hlogs.waiting hstands, hlogs.kept, Nat.max_eq_right (by omega)]
  · rw [hlogs.kept, Ne, List.drop_eq_nil_iff]
    omega
  · intro times htimes
    rw [hnothing, ← hwaiting]
    refine hmoved.drain_eq hmoves.stands (Nat.sub_le ..) ?_ (hwaiting ▸ htimes)
    rw [hmoved.isOvertaken_iff hmoves.stands, hmoves.capacity]
    omega

end Logs

/-- To be told nothing means that nothing waits, unless the receiver was overtaken.  What waits for
a receiver comes behind what it was told and is the end of what it heard and of what is kept.  A
receiver that is not overtaken reads all of it before it is told nothing, and one for which there
never were more records outstanding than slots is not overtaken.  One that was overtaken is told
nothing although everything that is kept waits for it. -/
theorem nothing_waits_unless_overtaken {slots : Nat} {history : List (Happening Diagnostic)}
    {broadcast : Broadcast Diagnostic} (hrun : Run Diagnostic.isFailure slots history broadcast)
    {before later : List (Happening Diagnostic)} {receiver : String}
    (hbegan : history = before ++ .began receiver .everything :: later) :
    (broadcast.waiting receiver <:+ broadcast.kept ∧
      broadcast.waiting receiver <:+ heard later ∧
      (told receiver later ++ broadcast.waiting receiver).Sublist (heard later)) ∧
    ((broadcast.tryReceive receiver).1 = .nothing ↔
      broadcast.waiting receiver = [] ∨ broadcast.IsOvertaken receiver) ∧
    (¬ broadcast.IsOvertaken receiver → ∀ times, (broadcast.waiting receiver).length ≤ times →
      broadcast.drain receiver times = broadcast.waiting receiver) ∧
    ((∀ early, early <+: later →
        (outstanding Diagnostic.isFailure .everything receiver early).length ≤ roundUp slots) →
      ¬ broadcast.IsOvertaken receiver) ∧
    (broadcast.IsOvertaken receiver → broadcast.Misleads receiver) := by
  obtain ⟨log, hlogs, hcapacity, htracked⟩ := hrun.tracked
  obtain ⟨start, place, htracks⟩ := htracked before receiver .everything later hbegan
  have hstands := htracks.stands
  have hwaiting := hlogs.waiting hstands
  have hbehind : broadcast.waiting receiver <:+ log.drop place := by
    rw [hwaiting]
    exact List.drop_suffix_drop_left log (Nat.le_max_left ..)
  refine ⟨⟨?_, ?_, ?_⟩, hlogs.tryReceive_eq_nothing_iff hstands, ?_, ?_, ?_⟩
  · exact List.drop_suffix ..
  · rw [htracks.heard]
    exact hbehind.trans (List.drop_suffix_drop_left log htracks.forward)
  · have hheard : heard later = stretch log start place ++ log.drop place := by
      rw [htracks.heard, ← stretch_length, ← stretch_length,
        stretch_append htracks.forward htracks.within]
    rw [hheard]
    exact htracks.told.append hbehind.sublist
  · intro hnear times htimes
    exact hlogs.drain_eq hstands htracks.within hnear htimes
  · intro hnear
    rw [← hcapacity] at hnear
    have hlength := hnear later List.prefix_rfl
    rw [(htracks.exact hnear).1, List.length_drop] at hlength
    rw [hlogs.isOvertaken_iff hstands]
    omega
  · have hslots := max_le_roundUp slots
    exact hlogs.misleads hstands (by omega)

/-- A receiver of a broadcast with two slots was overtaken by the first of three records, reads on,
and is told the other two. -/
theorem nothing_waits_unless_overtaken_by_one :
    let record (name : String) := Diagnostic.ofDispatch name none
    ∃ broadcast, Run Diagnostic.isFailure 2 [.began "reader" .everything, .sent (record "f"),
        .sent (record "g"), .sent (record "h")] broadcast ∧
      broadcast.IsOvertaken "reader" ∧ broadcast.Misleads "reader" ∧
      broadcast.kept = [record "g", record "h"] := by
  intro record
  have hbegan : Run Diagnostic.isFailure 2 [.began "reader" .everything] _ :=
    .subscribe .everything .start rfl fun _ h => nomatch h
  have hrun := ((hbegan.send (record "f") rfl).send (record "g") rfl).send (record "h") rfl
  have hmisleads := (@nothing_waits_unless_overtaken _ _ _ hrun [] _ "reader" rfl).2.2.2.2
  exact ⟨_, hrun, ⟨0, rfl, by decide⟩, hmisleads ⟨0, rfl, by decide⟩, rfl⟩

/-- A receiver of a broadcast with one slot is told nothing while the second of two records waits
for it. -/
theorem told_nothing_while_record_waits :
    let record (name : String) := Diagnostic.ofDispatch name none
    ∃ broadcast, Run Diagnostic.isFailure 1 [.began "reader" .everything, .sent (record "f"),
        .sent (record "g")] broadcast ∧
      (broadcast.tryReceive "reader").1 = .nothing ∧
      broadcast.waiting "reader" = [record "g"] := by
  intro record
  have hbegan : Run Diagnostic.isFailure 1 [.began "reader" .everything] _ :=
    .subscribe .everything .start rfl fun _ h => nomatch h
  exact ⟨_, (hbegan.send (record "f") rfl).send (record "g") rfl, rfl, rfl⟩

end Switchboard.Broadcast
