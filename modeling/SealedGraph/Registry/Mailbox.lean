import SealedGraph.Registry.Operation

/-!
# The mailbox of the registry

One worker owns the table and takes messages from a mailbox of limited size, in the order in which
they came in. Any number of callers put messages in; one who finds no room waits for it, and one who
has waited too long goes away with an error, while a message that is already in the mailbox stays
there. A message to shut down closes the mailbox: what is still in it is dropped, and its callers
and all later ones are told that the registry is closed.

An event is one step of one of the parties; a history is any list of events.
-/

namespace SealedGraph.Registry

/-- A message to the worker. -/
inductive Message
  | operation {k : Kind} (op : Operation k)
  | shutdown
  deriving Repr

/-- Whether the caller of a message waits until it is dealt with. -/
def Message.isAwaited : Message → Bool
  | .operation op => op.isAwaited
  | .shutdown => true

/-- What a caller learns. -/
inductive Reply
  | flag (b : Bool)
  | count (n : Nat)
  | done
  deriving DecidableEq, Repr

/-- The reply with the answer of an operation. -/
def Reply.of : (k : Kind) → k.Value → Reply
  | .flag, b => .flag b
  | .count, n => .count n
  | .done, () => .done

/-- The number of a call, counted from zero. -/
abbrev Ticket := Nat

/-- A message with the call that it belongs to. -/
structure Letter where
  ticket : Ticket
  message : Message
  deriving Repr

/-- The worker, its mailbox and its callers. -/
structure Mailbox where
  settings : Settings
  table : Table
  /-- the messages in the mailbox, the oldest first -/
  queue : List Letter
  /-- the messages of callers who wait for room, the one who came first in front -/
  waiting : List Letter
  /-- what each call came to; `none` while the caller waits -/
  calls : List (Option (Except Error Reply))
  closed : Bool

/-- A step of one of the parties. -/
inductive Event
  /-- a new caller with a message -/
  | call (message : Message)
  /-- the first caller who waits for room finds it -/
  | enter
  /-- a caller who waits for room finds it before those who came earlier -/
  | overtake (ticket : Ticket)
  /-- a caller has waited too long -/
  | expire (ticket : Ticket)
  /-- the worker takes the oldest message, at a time -/
  | take (now : Nat)
  deriving Repr

namespace Mailbox

/-- A mailbox and a worker that have just been set up. -/
def new (settings : Settings) : Mailbox := ⟨settings, settings.table, [], [], [], false⟩

/-- The number of messages that the mailbox holds at most. -/
def capacity (m : Mailbox) : Nat := max 1 m.settings.capacity

/-- Whether there is room for a message. -/
def hasRoom (m : Mailbox) : Bool := m.queue.length < m.capacity

/-- Whether a caller is still waiting for what the call comes to. -/
def isPending (m : Mailbox) (ticket : Ticket) : Bool :=
  match m.calls[ticket]? with
  | some none => true
  | _ => false

/-- What a call came to. -/
def outcome? (m : Mailbox) (ticket : Ticket) : Option (Except Error Reply) :=
  (m.calls[ticket]?).join

/-- Tells a caller what the call came to, unless the caller has gone away. -/
def answer (m : Mailbox) (ticket : Ticket) (outcome : Except Error Reply) : Mailbox :=
  if m.isPending ticket then { m with calls := m.calls.set ticket (some outcome) } else m

/-- Puts a message into the mailbox; callers who do not wait for an answer have one then. -/
def accept (m : Mailbox) (letter : Letter) : Mailbox :=
  let m := { m with queue := m.queue ++ [letter] }
  if letter.message.isAwaited then m else m.answer letter.ticket (.ok .done)

/-- Tells the callers of some messages that the registry is closed. -/
def refuse (m : Mailbox) (letters : List Letter) : Mailbox :=
  letters.foldl (fun m l => m.answer l.ticket (.error .closed)) m

/-- A new caller with a message. -/
def call (m : Mailbox) (message : Message) : Mailbox :=
  let letter : Letter := ⟨m.calls.length, message⟩
  let m := { m with calls := m.calls ++ [none] }
  if m.closed then m.answer letter.ticket (.error .closed)
  else if m.hasRoom && m.waiting.isEmpty then m.accept letter
  else { m with waiting := m.waiting ++ [letter] }

/-- The first caller who waits for room finds it. -/
def enter (m : Mailbox) : Mailbox :=
  match m.waiting with
  | letter :: rest => if m.hasRoom then { m with waiting := rest }.accept letter else m
  | [] => m

/-- A caller who waits for room finds it, no matter who else waits. -/
def overtake (m : Mailbox) (ticket : Ticket) : Mailbox :=
  match m.waiting.find? fun l => l.ticket = ticket with
  | some letter =>
    if m.hasRoom then
      { m with waiting := m.waiting.filter fun l => l.ticket ≠ ticket }.accept letter
    else m
  | none => m

/-- A caller has waited too long, and takes back a message that is not in the mailbox yet. -/
def expire (m : Mailbox) (ticket : Ticket) : Mailbox :=
  { m with waiting := m.waiting.filter fun l => l.ticket ≠ ticket }.answer ticket
    (.error (.timeout m.settings.timeout))

/-- The worker takes the oldest message. -/
def take (m : Mailbox) (now : Nat) : Mailbox :=
  match m.queue with
  | [] => m
  | ⟨ticket, @Message.operation k op⟩ :: queue =>
    let (value, table) := op.apply now m.table
    { m with queue := queue, table := table }.answer ticket (.ok (.of k value))
  | ⟨ticket, .shutdown⟩ :: queue =>
    let dropped := queue ++ m.waiting
    ({ m with queue := [], waiting := [], closed := true }.answer ticket (.ok .done)).refuse dropped

/-- The state after an event. -/
def step (m : Mailbox) : Event → Mailbox
  | .call message => m.call message
  | .enter => m.enter
  | .overtake ticket => m.overtake ticket
  | .expire ticket => m.expire ticket
  | .take now => m.take now

/-- The state after a history. -/
def run (m : Mailbox) (events : List Event) : Mailbox := events.foldl step m

end Mailbox

end SealedGraph.Registry
