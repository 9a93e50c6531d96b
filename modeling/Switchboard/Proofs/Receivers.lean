import Mathlib.Data.List.Basic
import Switchboard.Diagnostic
import Switchboard.Proofs.Histories
import Switchboard.Proofs.Reading
import Switchboard.Proofs.Slots

/-!
Receivers of a broadcast neither invent nor repeat nor reorder records.

Any number of receivers begin to listen, ask in their own ways and at their own pace, and records
are sent and the sender goes away in between.  The history of what happened says what each receiver
heard, what it was told, and what is outstanding.  What it was told is a part of what it heard, in
order, and nothing is missing as long as no more was outstanding than there are slots.
-/

namespace Switchboard.Broadcast

variable {A : Type}

/-! ## What happens -/

/-- What happens to a broadcast. -/
inductive Happening (A : Type) where
  | began (receiver : String) (interest : Interest)
  | sent (record : A)
  | asked (receiver : String) (answer : Received A)
  /-- A call of this receiver went on, and waits or looks again. -/
  | skipped (receiver : String)
  | closed

namespace Happening

/-- The record that is sent, if any. -/
def sends : Happening A → List A
  | sent record => [record]
  | _ => []

/-- The record that a receiver is told, if any. -/
def tells (receiver : String) : Happening A → List A
  | asked asking answer => if asking = receiver then answer.toList else []
  | _ => []

/-- What becomes of the records outstanding for a receiver. -/
def outstanding (wanted : A → Bool) (interest : Interest) (receiver : String) (records : List A) :
    Happening A → List A
  | sent record => records ++ [record]
  | asked asking _ => if asking = receiver then interest.rest wanted records else records
  | skipped asking => if asking = receiver then records.tail else records
  | _ => records

/-- A happening that sends nothing, starts no receiver and concerns one receiver at most. -/
structure IsOf (wanted : A → Bool) (receiver : String) (happening : Happening A) : Prop where
  new : ∀ other interest, happening ≠ .began other interest
  sends : happening.sends = []
  tells : ∀ other, other ≠ receiver → happening.tells other = []
  outstanding : ∀ other, other ≠ receiver → ∀ interest records,
    happening.outstanding wanted interest other records = records

variable (wanted : A → Bool) (receiver : String)

theorem isOf_asked (answer : Received A) : (asked receiver answer).IsOf wanted receiver where
  new _ _ h := nomatch h
  sends := rfl
  tells _ hother := if_neg hother.symm
  outstanding _ hother _ _ := if_neg hother.symm

theorem isOf_skipped : (skipped receiver : Happening A).IsOf wanted receiver where
  new _ _ h := nomatch h
  sends := rfl
  tells _ _ := rfl
  outstanding _ hother _ _ := if_neg hother.symm

end Happening

/-- The records that were sent. -/
def heard (later : List (Happening A)) : List A :=
  later.flatMap Happening.sends

/-- The records that a receiver was told. -/
def told (receiver : String) (later : List (Happening A)) : List A :=
  later.flatMap (Happening.tells receiver)

/-- The records that are outstanding for a receiver when this happened since it began to listen. -/
def outstanding (wanted : A → Bool) (interest : Interest) (receiver : String)
    (later : List (Happening A)) : List A :=
  later.foldl (Happening.outstanding wanted interest receiver) []

/-- What can happen to a broadcast with so many slots, and what becomes of it.  Every receiver has a
name of its own, and asks in the ways of its interest. -/
inductive Run (wanted : A → Bool) (slots : Nat) : List (Happening A) → Broadcast A → Prop
  | start : Run wanted slots [] (.ofSlots slots)
  | subscribe {history : List (Happening A)} {broadcast : Broadcast A} {receiver : String}
      (interest : Interest) (h : Run wanted slots history broadcast)
      (hopen : broadcast.closed = false) (hfresh : ∀ other, .began receiver other ∉ history) :
      Run wanted slots (history ++ [.began receiver interest]) (broadcast.subscribe receiver)
  | send {history : List (Happening A)} {broadcast : Broadcast A} (record : A)
      (h : Run wanted slots history broadcast) (hopen : broadcast.closed = false) :
      Run wanted slots (history ++ [.sent record]) (broadcast.send record)
  | ask {history : List (Happening A)} {broadcast : Broadcast A} {receiver : String}
      {interest : Interest} {ask : Broadcast A → Received A × Broadcast A}
      (h : Run wanted slots history broadcast) (hbegan : .began receiver interest ∈ history)
      (hask : Asks wanted receiver interest ask) :
      Run wanted slots (history ++ [.asked receiver (ask broadcast).1]) (ask broadcast).2
  | skip {history : List (Happening A)} {broadcast after : Broadcast A} {receiver : String}
      {interest : Interest} (h : Run wanted slots history broadcast)
      (hbegan : .began receiver interest ∈ history)
      (hskip : Skips wanted receiver interest broadcast after) :
      Run wanted slots (history ++ [.skipped receiver]) after
  | close {history : List (Happening A)} {broadcast : Broadcast A}
      (h : Run wanted slots history broadcast) :
      Run wanted slots (history ++ [.closed]) broadcast.close

/-! ## One receiver -/

section Receiver

variable {wanted : A → Bool} {receiver : String} {interest : Interest}
  {broadcast after : Broadcast A} {later : List (Happening A)} {log : List A}

/-- How a receiver that began before all this happened stands to the log. -/
structure Tracks (wanted : A → Bool) (receiver : String) (interest : Interest)
    (later : List (Happening A)) (broadcast : Broadcast A) (log : List A) (start place : Nat) :
    Prop where
  stands : Entries.find? receiver broadcast.receivers = some place
  forward : start ≤ place
  within : place ≤ log.length
  heard : heard later = log.drop start
  told : (told receiver later).Sublist (interest.select wanted (stretch log start place))
  exact : (∀ early, early <+: later →
      (outstanding wanted interest receiver early).length ≤ broadcast.capacity) →
    outstanding wanted interest receiver later = log.drop place ∧
      Broadcast.told receiver later = interest.select wanted (stretch log start place)

theorem heard_concat (happening : Happening A) :
    heard (later ++ [happening]) = heard later ++ happening.sends := by
  rw [heard, List.flatMap_append, ← heard, List.flatMap_singleton]

theorem told_concat (happening : Happening A) :
    told receiver (later ++ [happening]) = told receiver later ++ happening.tells receiver := by
  rw [told, List.flatMap_append, ← told, List.flatMap_singleton]

theorem outstanding_concat (happening : Happening A) :
    outstanding wanted interest receiver (later ++ [happening]) =
      happening.outstanding wanted interest receiver
        (outstanding wanted interest receiver later) := by
  rw [outstanding, List.foldl_append, ← outstanding, List.foldl_cons, List.foldl_nil]

namespace Tracks

variable {start place : Nat}

/-- A receiver begins at the end of the log. -/
theorem begin (hlogs : broadcast.Logs log) :
    Tracks wanted receiver interest [] (broadcast.subscribe receiver) log log.length
      log.length where
  stands := by rw [subscribe, Entries.find?_bind, if_pos rfl, hlogs.next]
  forward := Nat.le_refl _
  within := Nat.le_refl _
  heard := List.drop_length.symm
  told := List.nil_sublist _
  exact _ := by
    rw [stretch_self, Interest.select_nil, List.drop_length]
    exact ⟨rfl, rfl⟩

theorem exact_before (h : Tracks wanted receiver interest later broadcast log start place)
    {happening : Happening A} (hcapacity : after.capacity = broadcast.capacity)
    (hnear : ∀ early, early <+: later ++ [happening] →
      (outstanding wanted interest receiver early).length ≤ after.capacity) :
    outstanding wanted interest receiver later = log.drop place ∧
      Broadcast.told receiver later = interest.select wanted (stretch log start place) ∧
      log.length ≤ place + broadcast.capacity := by
  rw [hcapacity] at hnear
  obtain ⟨houtstanding, htold⟩ := h.exact fun early hearly =>
    hnear early (hearly.trans (List.prefix_append ..))
  have hlength := hnear later (List.prefix_append ..)
  rw [houtstanding, List.length_drop] at hlength
  exact ⟨houtstanding, htold, by omega⟩

/-- What does not concern a receiver leaves it where it is. -/
theorem aside (h : Tracks wanted receiver interest later broadcast log start place)
    {happening : Happening A} (hsends : happening.sends = [])
    (htells : happening.tells receiver = [])
    (hrecords : ∀ records, happening.outstanding wanted interest receiver records = records)
    (hcapacity : after.capacity = broadcast.capacity)
    (hstands : Entries.find? receiver after.receivers =
      Entries.find? receiver broadcast.receivers) :
    Tracks wanted receiver interest (later ++ [happening]) after log start place where
  stands := hstands.trans h.stands
  forward := h.forward
  within := h.within
  heard := by rw [heard_concat, hsends, List.append_nil, h.heard]
  told := by
    rw [told_concat, htells, List.append_nil]
    exact h.told
  exact hnear := by
    obtain ⟨houtstanding, htold, -⟩ := h.exact_before hcapacity hnear
    rw [outstanding_concat, told_concat, hrecords, htells, List.append_nil]
    exact ⟨houtstanding, htold⟩

/-- A record that is sent is heard, and is outstanding. -/
theorem send (h : Tracks wanted receiver interest later broadcast log start place) (record : A)
    (hcapacity : after.capacity = broadcast.capacity)
    (hreceivers : after.receivers = broadcast.receivers) :
    Tracks wanted receiver interest (later ++ [.sent record]) after (log ++ [record]) start
      place := by
  have hstretch := stretch_concat record h.forward h.within
  have hstart := Nat.le_trans h.forward h.within
  have htells : (Happening.sent record).tells receiver = [] := rfl
  constructor
  case stands => rw [hreceivers, h.stands]
  case forward => exact h.forward
  case within =>
    rw [List.length_append]
    exact Nat.le_add_right_of_le h.within
  case heard =>
    rw [heard_concat, h.heard, List.drop_append_of_le_length hstart]
    rfl
  case told =>
    rw [told_concat, htells, List.append_nil, hstretch]
    exact h.told
  case exact =>
    intro hnear
    obtain ⟨houtstanding, htold, -⟩ := h.exact_before hcapacity hnear
    rw [outstanding_concat, told_concat, houtstanding, htells, List.append_nil, hstretch,
      List.drop_append_of_le_length h.within]
    exact ⟨rfl, htold⟩

/-- A receiver that goes forward is told of what it goes over. -/
theorem advance (h : Tracks wanted receiver interest later broadcast log start place)
    {happening : Happening A} {leaves : List A → List A} {reached : Nat}
    (hsends : happening.sends = [])
    (hrecords : ∀ records, happening.outstanding wanted interest receiver records = leaves records)
    (hmoves : Moves receiver reached broadcast after)
    (hadvances : Advances wanted interest leaves broadcast.capacity log place
      (happening.tells receiver) reached) :
    Tracks wanted receiver interest (later ++ [happening]) after log start reached := by
  have hselect : interest.select wanted (stretch log start reached) =
      interest.select wanted (stretch log start place) ++
        interest.select wanted (stretch log place reached) := by
    rw [← Interest.select_append, stretch_append h.forward hadvances.forward]
  constructor
  case stands => exact hmoves.stands
  case forward => exact Nat.le_trans h.forward hadvances.forward
  case within => exact hadvances.within
  case heard => rw [heard_concat, hsends, List.append_nil, h.heard]
  case told =>
    rw [told_concat, hselect]
    exact h.told.append hadvances.returns
  case exact =>
    intro hnear
    obtain ⟨houtstanding, htold, hbehind⟩ := h.exact_before hmoves.capacity hnear
    obtain ⟨hreturned, hrest⟩ := hadvances.exact hbehind
    rw [outstanding_concat, told_concat, hselect, houtstanding, htold, hrecords, ← hreturned, hrest]
    exact ⟨rfl, rfl⟩

end Tracks

end Receiver

/-! ## All receivers -/

section Receivers

variable {wanted : A → Bool} {slots : Nat} {history : List (Happening A)}
  {broadcast after : Broadcast A} {log : List A}

/-- Every receiver that began to listen stands somewhere. -/
def Tracked (wanted : A → Bool) (history : List (Happening A)) (broadcast : Broadcast A)
    (log : List A) : Prop :=
  ∀ before receiver interest later, history = before ++ .began receiver interest :: later →
    ∃ start place, Tracks wanted receiver interest later broadcast log start place

/-- One more happening starts a receiver or goes on for those that are there. -/
theorem Tracked.concat (h : Tracked wanted history broadcast log) {happening : Happening A}
    {longer : List A}
    (hnew : ∀ receiver interest, happening = .began receiver interest →
      ∃ start place, Tracks wanted receiver interest [] after longer start place)
    (hold : ∀ receiver interest later start place, .began receiver interest ∈ history →
      Tracks wanted receiver interest later broadcast log start place →
      ∃ start place, Tracks wanted receiver interest (later ++ [happening]) after longer start
        place) :
    Tracked wanted (history ++ [happening]) after longer := by
  intro before receiver interest later hsplit
  rcases append_singleton_eq_append_cons_iff.1 hsplit with
    ⟨-, hbegan, rfl⟩ | ⟨middle, hhistory, rfl⟩
  · exact hnew receiver interest hbegan
  · obtain ⟨start, place, htracks⟩ := h before receiver interest middle hhistory
    have hmem : .began receiver interest ∈ history := by
      rw [hhistory]
      exact List.mem_append_right _ List.mem_cons_self
    exact hold receiver interest middle start place hmem htracks

theorem Tracked.stands (h : Tracked wanted history broadcast log) {receiver : String}
    {interest : Interest} (hbegan : .began receiver interest ∈ history) :
    ∃ place, Entries.find? receiver broadcast.receivers = some place ∧ place ≤ log.length := by
  obtain ⟨before, later, hhistory⟩ := List.append_of_mem hbegan
  obtain ⟨start, place, htracks⟩ := h before receiver interest later hhistory
  exact ⟨place, htracks.stands, htracks.within⟩

/-- While one receiver goes forward the others stay where they are. -/
theorem Tracked.turn (h : Tracked wanted history broadcast log) {happening : Happening A}
    {receiver : String} {interest : Interest} {place reached : Nat} {leaves : List A → List A}
    (hof : happening.IsOf wanted receiver)
    (hunique : ∀ other, .began receiver other ∈ history → other = interest)
    (hrecords : ∀ records,
      happening.outstanding wanted interest receiver records = leaves records)
    (hstands : Entries.find? receiver broadcast.receivers = some place)
    (hmoves : Moves receiver reached broadcast after)
    (hadvances : Advances wanted interest leaves broadcast.capacity log place
      (happening.tells receiver) reached) :
    Tracked wanted (history ++ [happening]) after log := by
  apply h.concat
  · intro other interest hbegan
    exact absurd hbegan (hof.new other interest)
  · intro other listening later start standing hmem htracks
    by_cases hother : other = receiver
    · subst hother
      -- Names are used once, so the receiver that goes forward is the one that is followed.
      obtain rfl := hunique listening hmem
      obtain rfl := Option.some.inj (htracks.stands.symm.trans hstands)
      exact ⟨start, reached, htracks.advance hof.sends hrecords hmoves hadvances⟩
    · exact ⟨start, standing, htracks.aside hof.sends (hof.tells other hother)
        (hof.outstanding other hother listening) hmoves.capacity (hmoves.others other hother)⟩

theorem Tracked.subscribe (h : Tracked wanted history broadcast log) (hlogs : broadcast.Logs log)
    {receiver : String} (interest : Interest)
    (hfresh : ∀ other, .began receiver other ∉ history) :
    Tracked wanted (history ++ [.began receiver interest]) (broadcast.subscribe receiver) log := by
  apply h.concat
  · rintro _ _ ⟨⟩
    exact ⟨log.length, log.length, .begin hlogs⟩
  · intro other listening later start place hmem htracks
    have hother : receiver ≠ other := by
      rintro rfl
      exact hfresh listening hmem
    refine ⟨start, place, htracks.aside rfl rfl (fun _ => rfl) rfl ?_⟩
    rw [Broadcast.subscribe, Entries.find?_bind, if_neg hother]

/-- As long as nobody listens nobody has to be told. -/
theorem Tracked.unheard (h : Tracked wanted history broadcast log) (record : A)
    (hreceivers : broadcast.receivers = []) :
    Tracked wanted (history ++ [.sent record]) broadcast log := by
  refine h.concat (fun _ _ h => nomatch h) ?_
  intro other listening later start place _ htracks
  have hstands := htracks.stands
  rw [hreceivers] at hstands
  cases hstands

theorem Tracked.send (h : Tracked wanted history broadcast log) (record : A)
    (hcapacity : after.capacity = broadcast.capacity)
    (hreceivers : after.receivers = broadcast.receivers) :
    Tracked wanted (history ++ [.sent record]) after (log ++ [record]) := by
  refine h.concat (fun _ _ h => nomatch h) ?_
  intro other listening later start place _ htracks
  exact ⟨start, place, htracks.send record hcapacity hreceivers⟩

theorem Tracked.close (h : Tracked wanted history broadcast log) :
    Tracked wanted (history ++ [.closed]) broadcast.close log := by
  refine h.concat (fun _ _ h => nomatch h) ?_
  intro other listening later start place _ htracks
  exact ⟨start, place, htracks.aside rfl rfl (fun _ => rfl) rfl rfl⟩

/-- A record that nobody listens for is dropped. -/
theorem send_of_unheard (record : A) (hunheard : broadcast.receivers.isEmpty = true) :
    broadcast.send record = broadcast := by
  rw [send, hunheard]
  rfl

/-- A record that somebody listens for is kept, and the oldest are dropped when there are more than
slots. -/
theorem send_of_heard (record : A) (hheard : broadcast.receivers.isEmpty = false)
    (hopen : broadcast.closed = false) : broadcast.send record =
      { broadcast with
        kept := (broadcast.kept ++ [record]).drop
          ((broadcast.kept ++ [record]).length - broadcast.capacity)
        next := broadcast.next + 1 } := by
  rw [send, hheard, hopen]
  rfl

namespace Logs

theorem subscribe (h : broadcast.Logs log) (receiver : String) :
    (broadcast.subscribe receiver).Logs log :=
  ⟨h.next, h.kept⟩

theorem close (h : broadcast.Logs log) : broadcast.close.Logs log :=
  ⟨h.next, h.kept⟩

/-- What is kept stays the end of the log when a record is sent. -/
theorem send (h : broadcast.Logs log) (record : A) (hheard : broadcast.receivers.isEmpty = false)
    (hopen : broadcast.closed = false) : (broadcast.send record).Logs (log ++ [record]) := by
  have hkept : broadcast.kept ++ [record] =
      (log ++ [record]).drop (log.length - broadcast.capacity) := by
    rw [h.kept, List.drop_append_of_le_length (by omega)]
  rw [send_of_heard record hheard hopen]
  constructor
  case next => simp [h.next]
  case kept =>
    have hplace : log.length - broadcast.capacity +
        (log.length + 1 - (log.length - broadcast.capacity) - broadcast.capacity) =
          log.length + 1 - broadcast.capacity := by omega
    rw [hkept, List.drop_drop, List.length_drop, List.length_append, List.length_singleton, hplace]

end Logs

namespace Run

/-- A receiver has one interest. -/
theorem unique (h : Run wanted slots history broadcast) {receiver : String}
    {interest other : Interest} (hbegan : .began receiver interest ∈ history)
    (hother : .began receiver other ∈ history) : other = interest := by
  induction h with
  | start => cases hbegan
  | subscribe listening _ _ hfresh ih =>
      rw [List.mem_append, List.mem_singleton] at hbegan hother
      rcases hbegan with hbegan | hbegan <;> rcases hother with hother | hother
      · exact ih hbegan hother
      · obtain ⟨rfl, -⟩ := Happening.began.inj hother
        exact absurd hbegan (hfresh interest)
      · obtain ⟨rfl, -⟩ := Happening.began.inj hbegan
        exact absurd hother (hfresh other)
      · exact (Happening.began.inj hother).2.trans (Happening.began.inj hbegan).2.symm
  | send _ _ _ ih => exact ih (by simpa using hbegan) (by simpa using hother)
  | ask _ _ _ ih => exact ih (by simpa using hbegan) (by simpa using hother)
  | skip _ _ _ ih => exact ih (by simpa using hbegan) (by simpa using hother)
  | close _ ih => exact ih (by simpa using hbegan) (by simpa using hother)

/-- Whatever happened, there is a log, and every receiver stands somewhere in it. -/
theorem tracked (h : Run wanted slots history broadcast) :
    ∃ log, broadcast.Logs log ∧ broadcast.capacity = roundUp slots ∧
      Tracked wanted history broadcast log := by
  induction h with
  | start =>
      refine ⟨[], ⟨rfl, List.drop_nil.symm⟩, rfl, ?_⟩
      intro before receiver interest later hhistory
      simp at hhistory
  | subscribe interest _ _ hfresh ih =>
      obtain ⟨log, hlogs, hcapacity, htracked⟩ := ih
      exact ⟨log, hlogs.subscribe _, hcapacity, htracked.subscribe hlogs interest hfresh⟩
  | @send _ broadcast record _ hopen ih =>
      obtain ⟨log, hlogs, hcapacity, htracked⟩ := ih
      -- A record nobody listens for is not numbered, so the log grows only in the other case.
      cases hheard : broadcast.receivers.isEmpty with
      | true =>
          rw [send_of_unheard record hheard]
          exact ⟨log, hlogs, hcapacity, htracked.unheard record (List.isEmpty_iff.1 hheard)⟩
      | false =>
          refine ⟨log ++ [record], hlogs.send record hheard hopen, ?_⟩
          rw [send_of_heard record hheard hopen]
          exact ⟨hcapacity, htracked.send record rfl rfl⟩
  | ask h hbegan hask ih =>
      obtain ⟨log, hlogs, hcapacity, htracked⟩ := ih
      obtain ⟨place, hstands, hwithin⟩ := htracked.stands hbegan
      obtain ⟨reached, hmoves, hadvances, -⟩ := hask.goes wanted hlogs hstands hwithin
      refine ⟨log, hlogs.moves hmoves, hmoves.capacity.trans hcapacity, ?_⟩
      refine htracked.turn (Happening.isOf_asked ..) (fun _ => h.unique hbegan)
        (fun _ => if_pos rfl) hstands hmoves ?_
      rwa [Happening.tells, if_pos rfl]
  | skip h hbegan hskip ih =>
      obtain ⟨log, hlogs, hcapacity, htracked⟩ := ih
      obtain ⟨place, hstands, hwithin⟩ := htracked.stands hbegan
      obtain ⟨reached, hmoves, hadvances⟩ := hskip.advances wanted hlogs hstands hwithin
      refine ⟨log, hlogs.moves hmoves, hmoves.capacity.trans hcapacity, ?_⟩
      exact htracked.turn (Happening.isOf_skipped ..) (fun _ => h.unique hbegan)
        (fun _ => if_pos rfl) hstands hmoves hadvances
  | close _ ih =>
      obtain ⟨log, hlogs, hcapacity, htracked⟩ := ih
      exact ⟨log, hlogs.close, hcapacity, htracked.close⟩

end Run

end Receivers

/-- Whatever happens to the records of an engine, in whatever order, what a receiver was told is a
part of what was sent since it began to listen, in the same order and each record once, and a stream
of failures was told of failures only.  As long as there were never more records outstanding for it
than there are slots, nothing is missing: going on asking, it is told the rest, also when the sender
is gone.  There are as many slots as asked for, but one at least, rounded up to a power of two. -/
theorem receivers_are_told_what_was_sent {slots : Nat} {history : List (Happening Diagnostic)}
    {broadcast : Broadcast Diagnostic} (hrun : Run Diagnostic.isFailure slots history broadcast)
    {before later : List (Happening Diagnostic)} {receiver : String} {interest : Interest}
    (hbegan : history = before ++ .began receiver interest :: later) :
    (max slots 1 ≤ roundUp slots ∧ (∃ exponent, roundUp slots = 2 ^ exponent) ∧
      ∀ exponent, max slots 1 ≤ 2 ^ exponent → roundUp slots ≤ 2 ^ exponent) ∧
    (told receiver later).Sublist (interest.select Diagnostic.isFailure (heard later)) ∧
    ((∀ early, early <+: later →
        (outstanding Diagnostic.isFailure interest receiver early).length ≤ roundUp slots) →
      ∀ ask, Asks Diagnostic.isFailure receiver interest ask → ∀ times,
        (outstanding Diagnostic.isFailure interest receiver later).length ≤ times →
          told receiver later ++ readOn ask times broadcast =
            interest.select Diagnostic.isFailure (heard later)) := by
  obtain ⟨log, hlogs, hcapacity, htracked⟩ := hrun.tracked
  obtain ⟨start, place, htracks⟩ := htracked before receiver interest later hbegan
  have hselect : interest.select Diagnostic.isFailure (heard later) =
      interest.select Diagnostic.isFailure (stretch log start place) ++
        interest.select Diagnostic.isFailure (log.drop place) := by
    rw [htracks.heard, ← Interest.select_append, ← stretch_length, ← stretch_length,
      stretch_append htracks.forward htracks.within]
  refine ⟨⟨max_le_roundUp slots, exists_roundUp_eq_two_pow slots, ?_⟩, ?_, ?_⟩
  · intro exponent hexponent
    exact roundUp_le_two_pow_iff.2 (Nat.le_trans (Nat.le_max_left ..) hexponent)
  · rw [hselect]
    exact htracks.told.trans (List.sublist_append_left ..)
  · intro hnear ask hask times htimes
    rw [← hcapacity] at hnear
    obtain ⟨houtstanding, htold⟩ := htracks.exact hnear
    have hbehind := hnear later (List.prefix_rfl)
    rw [houtstanding, List.length_drop] at hbehind htimes
    rw [hselect, htold, hask.readOn_eq Diagnostic.isFailure hlogs htracks.stands htracks.within
      (by omega) (by omega)]

/-- A stream that begins before a dispatch and a failure, and then asks. -/
theorem receivers_are_told_what_was_sent_to_stream :
    let dispatch := Diagnostic.ofDispatch "f" none
    let failure := Diagnostic.ofFailure (.ofFault (.unknownFunction "g"))
    ∃ broadcast, Run Diagnostic.isFailure 3
        [.began "stream" .selected, .sent dispatch, .sent failure] broadcast ∧
      readOn (fun broadcast => broadcast.receiveWhere Diagnostic.isFailure "stream") 2 broadcast =
        [failure] := by
  intro dispatch failure
  have hbegan : Run Diagnostic.isFailure 3 [.began "stream" .selected] _ :=
    .subscribe .selected .start rfl fun _ h => nomatch h
  have hrun := (hbegan.send dispatch rfl).send failure rfl
  have hnear : ∀ early, early <+: [.sent dispatch, .sent failure] →
      (outstanding Diagnostic.isFailure .selected "stream" early).length ≤ roundUp 3 := by
    intro early hearly
    rcases List.prefix_cons_iff.1 hearly with rfl | ⟨second, rfl, hsecond⟩
    · decide
    · rcases List.prefix_cons_iff.1 hsecond with rfl | ⟨third, rfl, hthird⟩
      · decide
      · obtain rfl := List.prefix_nil.1 hthird
        decide
  refine ⟨_, hrun, ?_⟩
  exact (@receivers_are_told_what_was_sent _ _ _ hrun [] [.sent dispatch, .sent failure] "stream"
    .selected rfl).2.2 hnear _ .next 2 (Nat.le_refl _)

end Switchboard.Broadcast
