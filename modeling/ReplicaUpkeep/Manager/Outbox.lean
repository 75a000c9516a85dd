import ReplicaUpkeep.Directive

/-!
# The outbox

Directives wait here, in order, for the dispatcher that carries them out.  The outbox holds a bounded
number of them; what does not fit, or is sent when nobody listens any more, is dropped and not kept
for later.
-/

namespace ReplicaUpkeep

/-- Directives that wait to be taken. -/
structure Outbox where
  /-- How many directives may wait. -/
  capacity : Nat
  /-- The directives, the oldest first. -/
  waiting : List Directive
  /-- Does anybody listen? -/
  listening : Bool
  deriving DecidableEq, Repr

namespace Outbox

/-- The empty outbox for a number of directives, which is at least one. -/
def ofCapacity (n : Nat) : Outbox where
  capacity := max n 1
  waiting := []
  listening := true

/-- Will the next directive be accepted? -/
def accepts (o : Outbox) : Bool :=
  o.listening && o.waiting.length < o.capacity

/-- Send a directive.  Tells whether it was accepted; otherwise it is dropped. -/
def send (o : Outbox) (d : Directive) : Bool × Outbox :=
  if o.accepts then (true, { o with waiting := o.waiting ++ [d] }) else (false, o)

/-- How many more directives will be accepted. -/
def room (o : Outbox) : Nat :=
  if o.listening then o.capacity - o.waiting.length else 0

/-- Send directives in turn, giving those that were accepted: as many of the first as there is room
for. -/
def sendAll (ds : List Directive) (o : Outbox) : List Directive × Outbox :=
  let accepted := ds.take o.room
  (accepted, { o with waiting := o.waiting ++ accepted })

/-- The next directive is accepted exactly if there is room for one. -/
theorem accepts_iff_room (o : Outbox) : o.accepts = true ↔ 0 < o.room := by
  cases h : o.listening
  · simp [accepts, room, h]
  · simp only [accepts, room, h, Bool.true_and, decide_eq_true_eq, if_true]
    omega

/-- A directive that is accepted takes one place. -/
theorem room_send (o : Outbox) (d : Directive) : (o.send d).2.room = o.room - 1 := by
  cases hl : o.listening
  · simp [send, accepts, room, hl]
  · by_cases hc : o.waiting.length < o.capacity
    · simp only [send, accepts, room, hl, hc, Bool.true_and, decide_true, if_true,
        List.length_append, List.length_singleton]
      omega
    · simp only [send, accepts, room, hl, hc, Bool.true_and, decide_false, Bool.false_eq_true,
        if_false, if_true]
      omega

@[simp]
theorem sendAll_nil (o : Outbox) : sendAll [] o = ([], o) := by
  simp [sendAll]

/-- Where the next directive is not accepted, none behind it is. -/
theorem sendAll_of_not_accepts {o : Outbox} (h : ¬ o.accepts = true) (ds : List Directive) :
    sendAll ds o = ([], o) := by
  have hnone : o.room = 0 := Nat.eq_zero_of_not_pos (mt o.accepts_iff_room.2 h)
  simp [sendAll, hnone]

/-- To send directives in turn is to send the first and then the others. -/
theorem sendAll_cons (o : Outbox) (d : Directive) (rest : List Directive) :
    sendAll (d :: rest) o =
      ((if (o.send d).1 then [d] else []) ++ (sendAll rest (o.send d).2).1,
        (sendAll rest (o.send d).2).2) := by
  by_cases h : o.accepts = true
  · have hroom := o.room_send d
    obtain ⟨n, hn⟩ : ∃ n, o.room = n + 1 :=
      ⟨o.room - 1, by have := (o.accepts_iff_room).1 h; omega⟩
    have hnext : (o.send d).2.room = n := by omega
    simp only [sendAll, hn, hnext, List.take_succ_cons]
    simp [send, h]
  · have hsame : o.send d = (false, o) := if_neg h
    rw [hsame, sendAll_of_not_accepts h, sendAll_of_not_accepts h]
    rfl

/-- Directives that are sent take a place each, as long as there is room. -/
theorem room_sendAll (o : Outbox) (ds : List Directive) :
    (sendAll ds o).2.room = o.room - ds.length := by
  cases hl : o.listening
  · simp [sendAll, room, hl]
  · simp only [sendAll, room, hl, if_true, List.length_append, List.length_take]
    omega

/-- To send two lists is to send the first and then the second. -/
theorem sendAll_append (o : Outbox) (ds es : List Directive) :
    sendAll (ds ++ es) o =
      ((sendAll ds o).1 ++ (sendAll es (sendAll ds o).2).1, (sendAll es (sendAll ds o).2).2) := by
  have hroom := o.room_sendAll ds
  simp only [sendAll] at hroom
  simp only [sendAll, hroom, List.take_append, List.append_assoc]

/-- Take up to a number of directives, the oldest first. -/
def take (o : Outbox) (n : Nat) : List Directive × Outbox :=
  (o.waiting.take n, { o with waiting := o.waiting.drop n })

/-- Stop listening; what waits is lost. -/
def hangUp (o : Outbox) : Outbox :=
  { o with waiting := [], listening := false }

end Outbox

end ReplicaUpkeep
