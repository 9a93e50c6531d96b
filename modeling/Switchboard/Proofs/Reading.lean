import Mathlib.Data.List.Basic
import Mathlib.Data.List.TakeWhile
import Switchboard.Diagnostic.Broadcast

/-!
What one look at a broadcast takes from it.

The records that were numbered are the log of a broadcast, and what is kept is the end of its log.
A receiver stands at a place in the log and only moves forward.  What it is told comes from the
stretch that it moves over.  As long as it is behind by no more records than there are slots, it
moves over nothing that it is after without being told.
-/

namespace Switchboard.Broadcast

variable {A : Type}

/-! ## Receivers -/

/-- What a receiver is after: every record, or only those that are wanted. -/
inductive Interest where
  | everything
  | selected
deriving DecidableEq

namespace Interest

variable (wanted : A → Bool)

/-- Those of these records that a receiver is after, in their order. -/
def select : Interest → List A → List A
  | everything, records => records
  | selected, records => records.filter wanted

/-- What is outstanding once a receiver with these records outstanding has asked for the next one.
-/
def rest : Interest → List A → List A
  | everything, records => records.tail
  | selected, records => (records.dropWhile fun record => !wanted record).tail

theorem select_append (interest : Interest) (front back : List A) :
    interest.select wanted (front ++ back) =
      interest.select wanted front ++ interest.select wanted back := by
  cases interest
  · rfl
  · exact List.filter_append ..

theorem select_nil (interest : Interest) : interest.select wanted [] = [] := by
  cases interest <;> rfl

/-- What stands in front of the first record that is wanted is not selected. -/
theorem exists_passed {wanted : A → Bool} {records later : List A} {record : A}
    (h : (records.dropWhile fun record => !wanted record) = record :: later) :
    ∃ front, records = (front ++ [record]) ++ later ∧
      selected.select wanted (front ++ [record]) = [record] := by
  have hsplit := List.takeWhile_append_dropWhile (p := fun record => !wanted record) (l := records)
  have hhead := List.head?_dropWhile_not (fun record => !wanted record) records
  rw [h] at hsplit hhead
  refine ⟨_, hsplit.symm.trans (List.append_cons ..), ?_⟩
  have hfront : (records.takeWhile fun record => !wanted record).filter wanted = [] := by
    rw [List.filter_eq_nil_iff]
    intro other hother
    simpa using List.mem_takeWhile_imp hother
  have hrecord : wanted record = true := by simpa using hhead
  rw [select, List.filter_append, hfront, List.nil_append, List.filter_cons_of_pos hrecord,
    List.filter_nil]

end Interest

/-- The record that was received, if any. -/
def Received.toList : Received A → List A
  | .record found => [found]
  | .nothing => []
  | .pending => []

/-- The ways in which a receiver asks for the next record. -/
inductive Asks (wanted : A → Bool) (receiver : String) :
    Interest → (Broadcast A → Received A × Broadcast A) → Prop
  | tryReceive : Asks wanted receiver .everything fun broadcast => broadcast.tryReceive receiver
  | receive : Asks wanted receiver .everything fun broadcast => broadcast.receive receiver
  | next : Asks wanted receiver .selected fun broadcast => broadcast.receiveWhere wanted receiver

/-- What a call that waits does between two looks, while others go on: a receiver that fell behind
starts anew, and a stream passes over a gap or over a record that it is not after. -/
inductive Skips (wanted : A → Bool) (receiver : String) :
    Interest → Broadcast A → Broadcast A → Prop
  | anew {broadcast : Broadcast A} {missed : Nat}
      (hlagged : (broadcast.poll receiver).1 = .lagged missed) :
      Skips wanted receiver .everything broadcast (broadcast.moveTo receiver broadcast.next)
  | past {broadcast : Broadcast A}
      (hother : ∀ record, (broadcast.poll receiver).1 = .record record → wanted record = false) :
      Skips wanted receiver .selected broadcast (broadcast.poll receiver).2

/-- Between these broadcasts one receiver came to a place, and nothing else changed. -/
structure Moves (receiver : String) (place : Nat) (before after : Broadcast A) : Prop where
  capacity : after.capacity = before.capacity
  kept : after.kept = before.kept
  next : after.next = before.next
  closed : after.closed = before.closed
  stands : Entries.find? receiver after.receivers = some place
  others : ∀ other, other ≠ receiver →
    Entries.find? other after.receivers = Entries.find? other before.receivers

theorem moves_moveTo (broadcast : Broadcast A) (receiver : String) (place : Nat) :
    Moves receiver place broadcast (broadcast.moveTo receiver place) where
  capacity := rfl
  kept := rfl
  next := rfl
  closed := rfl
  stands := by rw [moveTo, Entries.find?_bind, if_pos rfl]
  others other hother := by rw [moveTo, Entries.find?_bind, if_neg hother.symm]

theorem moves_self {broadcast : Broadcast A} {receiver : String} {place : Nat}
    (hstands : Entries.find? receiver broadcast.receivers = some place) :
    Moves receiver place broadcast broadcast :=
  ⟨rfl, rfl, rfl, rfl, hstands, fun _ _ => rfl⟩

theorem Moves.trans {before between after : Broadcast A} {receiver : String} {place reached : Nat}
    (h : Moves receiver place before between) (hnext : Moves receiver reached between after) :
    Moves receiver reached before after where
  capacity := hnext.capacity.trans h.capacity
  kept := hnext.kept.trans h.kept
  next := hnext.next.trans h.next
  closed := hnext.closed.trans h.closed
  stands := hnext.stands
  others other hother := (hnext.others other hother).trans (h.others other hother)

/-! ## Logs -/

/-- The records between two places. -/
def stretch (log : List A) (start stop : Nat) : List A :=
  (log.drop start).take (stop - start)

section Stretch

variable {log : List A} {start middle stop : Nat}

theorem stretch_append (hstart : start ≤ middle) (hstop : middle ≤ stop) :
    stretch log start middle ++ stretch log middle stop = stretch log start stop := by
  have hsum : stop - start = (middle - start) + (stop - middle) := by omega
  have hplace : start + (middle - start) = middle := by omega
  rw [stretch, stretch, stretch, hsum, List.take_add, List.drop_drop, hplace]

theorem stretch_self : stretch log start start = [] := by
  rw [stretch, Nat.sub_self, List.take_zero]

theorem stretch_length : stretch log start log.length = log.drop start :=
  List.take_of_length_le (Nat.le_of_eq List.length_drop)

theorem stretch_concat (record : A) (hstart : start ≤ stop) (hstop : stop ≤ log.length) :
    stretch (log ++ [record]) start stop = stretch log start stop := by
  rw [stretch, List.drop_append_of_le_length (by omega),
    List.take_append_of_le_length (by rw [List.length_drop]; omega), stretch]

/-- Where the log goes on with some records and then with others. -/
theorem stretch_of_drop {front back : List A} (h : log.drop start = front ++ back) :
    stretch log start (start + front.length) = front ∧
      log.drop (start + front.length) = back := by
  constructor
  · rw [stretch, h, Nat.add_sub_cancel_left, List.take_left]
  · rw [← List.drop_drop, h, List.drop_left]

end Stretch

/-- The numbered records of a broadcast: the last of them are kept. -/
structure Logs (broadcast : Broadcast A) (log : List A) : Prop where
  next : broadcast.next = log.length
  kept : broadcast.kept = log.drop (log.length - broadcast.capacity)

namespace Logs

variable {broadcast after : Broadcast A} {log : List A} {receiver : String} {place : Nat}

theorem oldest (h : broadcast.Logs log) : broadcast.oldest = log.length - broadcast.capacity := by
  rw [Broadcast.oldest, h.next, h.kept, List.length_drop]
  omega

theorem keptFrom (h : broadcast.Logs log) (place : Nat) :
    broadcast.keptFrom place = log.drop (max place (log.length - broadcast.capacity)) := by
  rw [Broadcast.keptFrom, h.oldest, h.kept, List.drop_drop]
  congr 1
  omega

theorem moves (h : broadcast.Logs log) (hmoves : Moves receiver place broadcast after) :
    after.Logs log where
  next := hmoves.next.trans h.next
  kept := by rw [hmoves.kept, h.kept, hmoves.capacity]

/-- What a look finds: a gap, the record at the place of the receiver, or the end of the log. -/
theorem poll_cases (h : broadcast.Logs log)
    (hstands : Entries.find? receiver broadcast.receivers = some place) :
    (place + broadcast.capacity < log.length ∧ ∃ missed, broadcast.poll receiver =
        (.lagged missed, broadcast.moveTo receiver (log.length - broadcast.capacity))) ∨
      (∃ record later, log.drop place = record :: later ∧
        broadcast.poll receiver = (.record record, broadcast.moveTo receiver (place + 1))) ∨
      (log.length ≤ place ∧ broadcast.poll receiver =
        (if broadcast.closed then .closed else .empty, broadcast)) := by
  simp only [poll, hstands, Option.getD_some, h.oldest]
  by_cases hlagged : place < log.length - broadcast.capacity
  · left
    rw [if_pos hlagged]
    exact ⟨by omega, _, rfl⟩
  · right
    have hplace : max place (log.length - broadcast.capacity) = place := by omega
    rw [if_neg hlagged, h.keptFrom, hplace]
    cases hdrop : log.drop place with
    | nil => exact .inr ⟨List.drop_eq_nil_iff.1 hdrop, rfl⟩
    | cons record later => exact .inl ⟨record, later, rfl, rfl⟩

end Logs

/-! ## Steps forward -/

/-- A step from one place to another on which these records were told.  What is left outstanding
matters only as long as nothing was overwritten. -/
structure Advances (wanted : A → Bool) (interest : Interest) (leaves : List A → List A)
    (capacity : Nat) (log : List A) (place : Nat) (told : List A) (reached : Nat) : Prop where
  forward : place ≤ reached
  within : reached ≤ log.length
  returns : told.Sublist (interest.select wanted (stretch log place reached))
  exact : log.length ≤ place + capacity →
    told = interest.select wanted (stretch log place reached) ∧
      log.drop reached = leaves (log.drop place)

section Advances

variable {wanted : A → Bool} {interest : Interest} {leaves : List A → List A} {capacity : Nat}
  {log : List A} {place reached : Nat}

theorem advances_gap (hlagged : place + capacity < log.length) (hforward : place ≤ reached)
    (hwithin : reached ≤ log.length) :
    Advances wanted interest leaves capacity log place [] reached where
  forward := hforward
  within := hwithin
  returns := List.nil_sublist _
  exact hnear := by omega

theorem advances_record {record : A} {later : List A} (hdrop : log.drop place = record :: later)
    (hleaves : leaves (record :: later) = later) :
    Advances wanted interest leaves capacity log place (interest.select wanted [record])
      (place + 1) := by
  obtain ⟨hstretch, hrest⟩ := @stretch_of_drop _ log place [record] later hdrop
  have hlength := congrArg List.length hdrop
  rw [List.length_drop, List.length_cons] at hlength
  rw [List.length_singleton] at hstretch hrest
  constructor
  · omega
  · omega
  · rw [hstretch]
  · intro _
    rw [hstretch, hrest, hdrop, hleaves]
    exact ⟨rfl, rfl⟩

theorem advances_end (hend : log.length ≤ place) (hwithin : place ≤ log.length)
    (hleaves : leaves [] = []) : Advances wanted interest leaves capacity log place [] place where
  forward := Nat.le_refl _
  within := hwithin
  returns := List.nil_sublist _
  exact _ := by
    rw [stretch_self, interest.select_nil, List.drop_eq_nil_iff.2 hend, hleaves]
    exact ⟨rfl, rfl⟩

/-- A step over records that are not wanted to one that is. -/
theorem advances_over {later : List A} {record : A} {oldest : Nat} (hplace : place ≤ oldest)
    (hnear : log.length ≤ place + capacity → oldest = place)
    (hdrop : ((log.drop oldest).dropWhile fun record => !wanted record) = record :: later) :
    Advances wanted .selected (Interest.selected.rest wanted) capacity log place [record]
      (log.length - later.length) := by
  obtain ⟨front, hsplit, hselect⟩ := Interest.exists_passed hdrop
  obtain ⟨hstretch, hrest⟩ := stretch_of_drop hsplit
  have hlength := congrArg List.length hsplit
  simp only [List.length_drop, List.length_append, List.length_singleton] at hlength
  have hreached : log.length - later.length = oldest + (front ++ [record]).length := by
    rw [List.length_append, List.length_singleton]
    omega
  rw [hreached]
  constructor
  case forward => omega
  case within => omega
  case returns =>
    -- Behind a gap the step goes over what was overwritten as well, so this is no equality.
    rw [← stretch_append hplace (Nat.le_add_right ..), Interest.select_append, hstretch, hselect]
    exact List.sublist_append_right ..
  case exact =>
    intro h
    obtain rfl := hnear h
    rw [hstretch, hselect, hrest, Interest.rest, hdrop]
    exact ⟨rfl, rfl⟩

/-- A step over records none of which is wanted, to the end of the log. -/
theorem advances_over_all {oldest : Nat} (hwithin : place ≤ log.length)
    (hnear : log.length ≤ place + capacity → oldest = place)
    (hdrop : ((log.drop oldest).dropWhile fun record => !wanted record) = []) :
    Advances wanted .selected (Interest.selected.rest wanted) capacity log place [] log.length where
  forward := hwithin
  within := Nat.le_refl _
  returns := List.nil_sublist _
  exact h := by
    obtain rfl := hnear h
    have hnone : (log.drop oldest).filter wanted = [] := by
      rw [List.filter_eq_nil_iff]
      simpa using List.dropWhile_eq_nil_iff.1 hdrop
    rw [stretch_length, List.drop_length, Interest.select, Interest.rest, hdrop, hnone]
    exact ⟨rfl, rfl⟩

end Advances

/-! ## Asking -/

section Asking

variable {wanted : A → Bool} {receiver : String} {interest : Interest}
  {broadcast after : Broadcast A} {ask : Broadcast A → Received A × Broadcast A} {log : List A}
  {place : Nat}

/-- What asking at a place comes to: the receiver moves forward, and unless something was
overwritten it is told the next record that it is after, or it stands at the end of the log. -/
def Goes (wanted : A → Bool) (interest : Interest) (receiver : String) (before : Broadcast A)
    (log : List A) (place : Nat) (answer : Received A × Broadcast A) : Prop :=
  ∃ reached, Moves receiver reached before answer.2 ∧
    Advances wanted interest (interest.rest wanted) before.capacity log place answer.1.toList
      reached ∧
    (log.length ≤ place + before.capacity → answer.1.toList = [] → reached = log.length)

theorem goes_gap {reached : Nat} {answer : Received A} (hanswer : answer.toList = [])
    (hmoves : Moves receiver reached broadcast after)
    (hlagged : place + broadcast.capacity < log.length) (hforward : place ≤ reached)
    (hreached : reached ≤ log.length) :
    Goes wanted .everything receiver broadcast log place (answer, after) := by
  refine ⟨reached, hmoves, ?_, by omega⟩
  rw [hanswer]
  exact advances_gap hlagged hforward hreached

theorem goes_record {record : A} {later : List A} (hdrop : log.drop place = record :: later) :
    Goes wanted .everything receiver broadcast log place
      (.record record, broadcast.moveTo receiver (place + 1)) := by
  refine ⟨place + 1, moves_moveTo .., advances_record hdrop rfl, ?_⟩
  intro _ hnone
  cases hnone

theorem goes_end {answer : Received A} (hanswer : answer.toList = [])
    (hstands : Entries.find? receiver broadcast.receivers = some place)
    (hwithin : place ≤ log.length) (hend : log.length ≤ place) :
    Goes wanted .everything receiver broadcast log place (answer, broadcast) := by
  refine ⟨place, moves_self hstands, ?_, by omega⟩
  rw [hanswer]
  exact advances_end hend hwithin rfl

variable (wanted) (hlogs : broadcast.Logs log)
  (hstands : Entries.find? receiver broadcast.receivers = some place)
  (hwithin : place ≤ log.length)

include hlogs hstands hwithin

theorem tryReceive_goes :
    Goes wanted .everything receiver broadcast log place (broadcast.tryReceive receiver) := by
  rcases hlogs.poll_cases hstands with
    ⟨hlagged, missed, hpoll⟩ | ⟨record, later, hdrop, hpoll⟩ | ⟨hend, hpoll⟩
  · simp only [tryReceive, hpoll]
    exact goes_gap rfl (moves_moveTo ..) hlagged (by omega) (by omega)
  · simp only [tryReceive, hpoll]
    exact goes_record hdrop
  · cases hclosed : broadcast.closed <;>
      simp only [tryReceive, hpoll, hclosed, if_true, Bool.false_eq_true, if_false] <;>
      exact goes_end rfl hstands hwithin hend

theorem receive_goes :
    Goes wanted .everything receiver broadcast log place (broadcast.receive receiver) := by
  rcases hlogs.poll_cases hstands with
    ⟨hlagged, missed, hpoll⟩ | ⟨record, later, hdrop, hpoll⟩ | ⟨hend, hpoll⟩
  · have hnext : broadcast.next = log.length := hlogs.next
    have hmoves := (moves_moveTo broadcast receiver (log.length - broadcast.capacity)).trans
      (moves_moveTo _ receiver broadcast.next)
    simp only [receive, hpoll]
    refine goes_gap ?_ hmoves hlagged (by omega) (by omega)
    split <;> rfl
  · simp only [receive, hpoll]
    exact goes_record hdrop
  · cases hclosed : broadcast.closed <;>
      simp only [receive, hpoll, hclosed, if_true, Bool.false_eq_true, if_false] <;>
      exact goes_end rfl hstands hwithin hend

theorem receiveWhere_goes :
    Goes wanted .selected receiver broadcast log place
      (broadcast.receiveWhere wanted receiver) := by
  obtain ⟨oldest, holdest⟩ : ∃ oldest, oldest = max place (log.length - broadcast.capacity) :=
    ⟨_, rfl⟩
  have hkept : broadcast.keptFrom place = log.drop oldest := holdest ▸ hlogs.keptFrom place
  have hnear : log.length ≤ place + broadcast.capacity → oldest = place := by omega
  simp only [receiveWhere, hstands, Option.getD_some, hkept, hlogs.next]
  cases hdrop : (log.drop oldest).dropWhile fun record => !wanted record with
  | nil =>
      have hanswer : (if broadcast.closed then Received.nothing else .pending : Received A).toList =
          [] := by
        split <;> rfl
      refine ⟨log.length, moves_moveTo .., ?_, fun _ _ => rfl⟩
      rw [hanswer]
      exact advances_over_all hwithin hnear hdrop
  | cons record later =>
      refine ⟨log.length - later.length, moves_moveTo .., ?_, fun _ h => nomatch h⟩
      exact advances_over (by omega) hnear hdrop

/-- A receiver that asks goes forward, however it asks. -/
theorem Asks.goes (hask : Asks wanted receiver interest ask) :
    Goes wanted interest receiver broadcast log place (ask broadcast) := by
  cases hask with
  | tryReceive => exact tryReceive_goes wanted hlogs hstands hwithin
  | receive => exact receive_goes wanted hlogs hstands hwithin
  | next => exact receiveWhere_goes wanted hlogs hstands hwithin

/-- What happens between two looks tells nothing, and passes over one record at most unless
something was overwritten. -/
theorem Skips.advances (hskip : Skips wanted receiver interest broadcast after) :
    ∃ reached, Moves receiver reached broadcast after ∧
      Advances wanted interest List.tail broadcast.capacity log place [] reached := by
  cases hskip with
  | anew hlagged =>
      rcases hlogs.poll_cases hstands with
        ⟨hbehind, missed, hpoll⟩ | ⟨record, later, hdrop, hpoll⟩ | ⟨hend, hpoll⟩
      · have hnext := hlogs.next
        exact ⟨_, moves_moveTo .., advances_gap hbehind (by omega) (by omega)⟩
      · rw [hpoll] at hlagged
        cases hlagged
      · rw [hpoll] at hlagged
        split at hlagged <;> cases hlagged
  | past hother =>
      rcases hlogs.poll_cases hstands with
        ⟨hbehind, missed, hpoll⟩ | ⟨record, later, hdrop, hpoll⟩ | ⟨hend, hpoll⟩
      · rw [hpoll]
        exact ⟨_, moves_moveTo .., advances_gap hbehind (by omega) (by omega)⟩
      · have hunwanted := hother record (by rw [hpoll])
        have htold : Interest.selected.select wanted [record] = [] := by
          rw [Interest.select, List.filter_cons_of_neg (by simp [hunwanted]), List.filter_nil]
        rw [hpoll, ← htold]
        exact ⟨_, moves_moveTo .., advances_record hdrop rfl⟩
      · rw [hpoll]
        exact ⟨_, moves_self hstands, advances_end hend hwithin rfl⟩

/-- What a receiver is told when it goes on asking, up to the first time that it is told nothing. -/
def readOn (ask : Broadcast A → Received A × Broadcast A) : Nat → Broadcast A → List A
  | 0, _ => []
  | times + 1, broadcast =>
      match ask broadcast with
      | (.record found, broadcast) => found :: readOn ask times broadcast
      | _ => []

/-- A receiver that is not behind by more records than there are slots reads all that it is after.
-/
theorem Asks.readOn_eq (hask : Asks wanted receiver interest ask)
    (hnear : log.length ≤ place + broadcast.capacity) {times : Nat}
    (htimes : log.length ≤ place + times) :
    readOn ask times broadcast = interest.select wanted (log.drop place) := by
  induction times generalizing broadcast place with
  | zero =>
      rw [Nat.add_zero] at htimes
      rw [readOn, List.drop_eq_nil_iff.2 htimes, Interest.select_nil]
  | succ times ih =>
      obtain ⟨reached, hmoves, hadvances, hlast⟩ := hask.goes wanted hlogs hstands hwithin
      obtain ⟨htold, -⟩ := hadvances.exact hnear
      have hforward := hadvances.forward
      have hwhole : interest.select wanted (log.drop place) = (ask broadcast).1.toList ++
          interest.select wanted (log.drop reached) := by
        rw [htold, ← Interest.select_append, ← stretch_length, ← stretch_length,
          stretch_append hforward hadvances.within]
      rw [readOn, hwhole]
      rcases hanswer : ask broadcast with ⟨answer, after⟩
      rw [hanswer] at hmoves hlast htold
      -- To be told nothing means to stand at the end, so asking stops only where nothing is left.
      cases answer with
      | record found =>
          have hmoved : place ≠ reached := by
            rintro rfl
            rw [stretch_self, Interest.select_nil] at htold
            cases htold
          have hcapacity : after.capacity = broadcast.capacity := hmoves.capacity
          exact congrArg (found :: ·) (ih (hlogs.moves hmoves) hmoves.stands hadvances.within
            (by omega) (by omega))
      | nothing =>
          rw [hlast hnear rfl, List.drop_length, Interest.select_nil]
          rfl
      | pending =>
          rw [hlast hnear rfl, List.drop_length, Interest.select_nil]
          rfl

end Asking

end Switchboard.Broadcast
