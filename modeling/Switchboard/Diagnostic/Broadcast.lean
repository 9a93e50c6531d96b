import Switchboard.Entries

/-!
A bounded broadcast of records to receivers that read at their own pace.

Records are numbered in the order of sending, and the last `capacity` of them are kept.  A receiver
is the number of the next record it wants.  While nobody listens, records are dropped and not even
numbered.  A receiver that wants a record no longer kept is told once how many it missed, and then
goes on with the oldest one kept.
-/

namespace Switchboard

/-- A broadcast of records of type `A`. -/
structure Broadcast (A : Type) where
  capacity : Nat
  /-- The records still kept, oldest first. -/
  kept : List A
  /-- Number of the next record to be sent. -/
  next : Nat
  /-- Each receiver's next record. -/
  receivers : Entries Nat
  /-- Whether the sender is gone. -/
  closed : Bool

namespace Broadcast

variable {A : Type}

/-- The least power of two that is at least `n`. -/
def roundUp (n : Nat) : Nat :=
  if n ≤ 1 then 1 else Nat.pow 2 ((n - 1).log2 + 1)

/-- A broadcast with at least this many slots, and at least one. -/
def ofSlots (slots : Nat) : Broadcast A :=
  ⟨roundUp slots, [], 0, [], false⟩

/-- The most slots that can be asked for: half of the largest number of 64 bits. -/
def requestLimit : Nat := (Nat.pow 2 64 - 1) / 2

/-- The most bytes that one allocation can take: the largest signed number of 64 bits. -/
def allocationLimit : Nat := Nat.pow 2 63 - 1

/-- The bytes of a slot.  Its lock, its number and the count of those who still want it take 8 each.
A diagnostic takes 96: the location 32, the name and the message 24 each, the time 12, the kind and
the level 1 each, and 2 to fill up. -/
def slotBytes : Nat := 3 * 8 + 96

/-- Whether so many slots can be asked for and be allocated in one piece.  No broadcast can be had
otherwise. -/
def fits (slots : Nat) : Bool :=
  slots ≤ requestLimit && roundUp slots * slotBytes ≤ allocationLimit

/-- Listen from the next record on. -/
def subscribe (broadcast : Broadcast A) (receiver : String) : Broadcast A :=
  { broadcast with receivers := Entries.bind receiver broadcast.next broadcast.receivers }

/-- Send a record to everyone who listens. -/
def send (broadcast : Broadcast A) (record : A) : Broadcast A :=
  if broadcast.receivers.isEmpty || broadcast.closed then broadcast
  else
    let kept := broadcast.kept ++ [record]
    { broadcast with
      kept := kept.drop (kept.length - broadcast.capacity)
      next := broadcast.next + 1 }

/-- The sender goes away; what is kept can still be read. -/
def close (broadcast : Broadcast A) : Broadcast A :=
  { broadcast with closed := true }

/-- Number of the oldest record kept. -/
def oldest (broadcast : Broadcast A) : Nat :=
  broadcast.next - broadcast.kept.length

/-- The records kept from this number on. -/
def keptFrom (broadcast : Broadcast A) (position : Nat) : List A :=
  broadcast.kept.drop (position - broadcast.oldest)

/-- What a receiver finds when it looks. -/
inductive Poll (A : Type) where
  | record (record : A)
  | empty
  | closed
  | lagged (missed : Nat)

/-- Move a receiver to a position. -/
def moveTo (broadcast : Broadcast A) (receiver : String) (position : Nat) : Broadcast A :=
  { broadcast with receivers := Entries.bind receiver position broadcast.receivers }

/-- The next record for a receiver; an unknown receiver listens from now on. -/
def poll (broadcast : Broadcast A) (receiver : String) : Poll A × Broadcast A :=
  let position := (Entries.find? receiver broadcast.receivers).getD broadcast.next
  if position < broadcast.oldest then
    (.lagged (broadcast.oldest - position), broadcast.moveTo receiver broadcast.oldest)
  else
    match broadcast.keptFrom position with
    | record :: _ => (.record record, broadcast.moveTo receiver (position + 1))
    | [] => (if broadcast.closed then .closed else .empty, broadcast)

/-- The outcome of asking for the next record. -/
inductive Received (A : Type) where
  | record (record : A)
  /-- Nothing now, or nothing ever again. -/
  | nothing
  /-- The answer would have to be waited for. -/
  | pending

/-- Ask without waiting.  To have fallen behind is answered by nothing. -/
def tryReceive (broadcast : Broadcast A) (receiver : String) : Received A × Broadcast A :=
  match broadcast.poll receiver with
  | (.record record, broadcast) => (.record record, broadcast)
  | (_, broadcast) => (.nothing, broadcast)

/-- Ask and wait.  A receiver that fell behind starts anew with the next record to be sent. -/
def receive (broadcast : Broadcast A) (receiver : String) : Received A × Broadcast A :=
  match broadcast.poll receiver with
  | (.record record, broadcast) => (.record record, broadcast)
  | (.empty, broadcast) => (.pending, broadcast)
  | (.closed, broadcast) => (.nothing, broadcast)
  | (.lagged _, broadcast) =>
      (if broadcast.closed then .nothing else .pending,
        broadcast.moveTo receiver broadcast.next)

/-- Ask and wait for the next record that `wanted` accepts, skipping all others and every gap. -/
def receiveWhere (broadcast : Broadcast A) (wanted : A → Bool) (receiver : String) :
    Received A × Broadcast A :=
  let position := (Entries.find? receiver broadcast.receivers).getD broadcast.next
  match (broadcast.keptFrom position).dropWhile fun record => !wanted record with
  | record :: later => (.record record, broadcast.moveTo receiver (broadcast.next - later.length))
  | [] =>
      (if broadcast.closed then .nothing else .pending,
        broadcast.moveTo receiver broadcast.next)

example : (List.map roundUp [0, 1, 2, 3, 4, 5, 8, 9]) = [1, 1, 2, 4, 4, 8, 8, 16] := by decide

end Broadcast

end Switchboard
