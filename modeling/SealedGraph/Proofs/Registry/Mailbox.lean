import SealedGraph.Proofs.Registry.Arrival

/-!
# The mailbox is linearizable

A history is a list of events in any order. It leaves three lists behind: the messages of the calls
(`asked`), the letters that came into the mailbox (`arrived`), and those that the worker took, each
with its time (`taken`). Each event is made of the moves of `Reaches` (`Reaches.step`), so that the
invariants of that relation hold after every history (`reaches_run`). What is still to come follows
from the state alone: a letter in the mailbox is taken in its turn (`mem_takes`), and a mailbox that
is shut stays as it is (`Shut.run_eq`).
-/

namespace SealedGraph.Registry

/-- Whether the worker takes a letter. -/
def Event.isTake : Event → Bool
  | .take _ => true
  | _ => false

namespace Mailbox

variable {settings : Settings} {m : Mailbox} {t : Ticket}

/-! ### Histories -/

/-- The messages that an event brings to the callers. -/
def asks : Event → List Message
  | .call message => [message]
  | _ => []

/-- The letters that an event puts into the mailbox. -/
def admits (m : Mailbox) (e : Event) : List Letter := (m.step e).queue.drop m.queue.length

/-- The letters that the worker takes at an event. -/
def takes (m : Mailbox) : Event → List Delivery
  | .take now => (m.queue.take 1).map (Delivery.mk now)
  | _ => []

/-- What the events of a history give, one after the other. -/
def trace {α : Type} (f : Mailbox → Event → List α) (m : Mailbox) : List Event → List α
  | [] => []
  | e :: events => f m e ++ trace f (m.step e) events

/-- The messages of the calls of a history. -/
def asked (events : List Event) : List Message := events.flatMap asks

/-- The letters that came into the mailbox, in the order in which they came. -/
def arrived (settings : Settings) (events : List Event) : List Letter :=
  trace admits (new settings) events

/-- The letters that the worker took, in the order in which it took them. -/
def taken (settings : Settings) (events : List Event) : List Delivery :=
  trace takes (new settings) events

theorem trace_append {α : Type} (f : Mailbox → Event → List α) (m : Mailbox)
    (events more : List Event) :
    trace f m (events ++ more) = trace f m events ++ trace f (m.run events) more := by
  induction events generalizing m with
  | nil => rfl
  | cons e events ih =>
    rw [List.cons_append, trace, trace, ih, List.append_assoc]
    rfl

theorem taken_append (settings : Settings) (events more : List Event) :
    taken settings (events ++ more) =
      taken settings events ++ trace takes ((new settings).run events) more :=
  trace_append ..

/-! ### Every history is made of moves -/

namespace Reaches

variable {C : List Message} {A : List Letter} {D : List Delivery}

theorem of_accept {l : Letter} (h : Reaches settings C A D m) (hl : l ∈ m.waiting)
    (hroom : m.hasRoom = true) : Reaches settings C (A ++ [l]) D
      ({ m with waiting := m.waiting.filter fun l' => l'.ticket ≠ l.ticket }.accept l) := by
  obtain ⟨calls, haccept, htold⟩ :=
    accept_eq { m with waiting := m.waiting.filter fun l' => l'.ticket ≠ l.ticket } l
  rw [haccept]
  exact h.enters hl (of_decide_eq_true hroom) htold

end Reaches

theorem call_of_closed (message : Message) (h : m.closed = true) :
    m.call message = { m with calls := m.calls ++ [some (.error .closed)] } := by
  unfold call answer isPending
  simp [h]

theorem call_of_hasRoom (message : Message) (hopen : m.closed = false) (hroom : m.hasRoom = true)
    (hw : m.waiting = []) : m.call message =
      { m with calls := m.calls ++ [none], waiting := [] }.accept ⟨m.calls.length, message⟩ := by
  have hm : { m with calls := m.calls ++ [none], waiting := [] } =
      { m with calls := m.calls ++ [none] } := by rw [← hw]
  have hif : (m.hasRoom && m.waiting.isEmpty) = true := by rw [hroom, hw]; rfl
  unfold call
  rw [hm]
  exact (if_neg (by simp [hopen])).trans (if_pos hif)

theorem call_of_not_hasRoom (message : Message) (hopen : m.closed = false)
    (h : ¬ (m.hasRoom = true ∧ m.waiting = [])) : m.call message =
      { m with
        calls := m.calls ++ [none]
        waiting := m.waiting ++ [⟨m.calls.length, message⟩] } := by
  have hif : ¬ (m.hasRoom && m.waiting.isEmpty) = true := by simpa using h
  unfold call
  exact (if_neg (by simp [hopen])).trans (if_neg hif)

theorem queue_accept (m : Mailbox) (l : Letter) : (m.accept l).queue = m.queue ++ [l] := by
  obtain ⟨calls, haccept, -⟩ := m.accept_eq l
  rw [haccept]

/-- The first caller who waits for room finds it as one who overtakes others does. -/
theorem enter_eq_overtake {l : Letter} {rest : List Letter} (hw : m.waiting = l :: rest)
    (hn : (m.waiting.map (·.ticket)).Nodup) : m.enter = m.overtake l.ticket := by
  have hrest : m.waiting.filter (fun l' => l'.ticket ≠ l.ticket) = rest := by
    rw [hw, List.map_cons, List.nodup_cons] at hn
    rw [hw, List.filter_cons_of_neg (by simp), List.filter_eq_self]
    intro l' hl'
    exact decide_eq_true fun he => hn.1 (he ▸ List.mem_map_of_mem hl')
  have hfind : m.waiting.find? (fun l' => l'.ticket = l.ticket) = some l := by
    rw [hw]
    simp
  unfold overtake
  rw [hfind, hrest]
  unfold enter
  rw [hw]

theorem Reaches.overtake {C A D} (h : Reaches settings C A D m) (ticket : Ticket) :
    Reaches settings C (A ++ (m.overtake ticket).queue.drop m.queue.length) D
      (m.overtake ticket) := by
  unfold Mailbox.overtake
  split
  next l hfind =>
    obtain rfl : l.ticket = ticket := by simpa using List.find?_some hfind
    split
    next hroom =>
      rw [queue_accept, List.drop_left]
      exact h.of_accept (List.mem_of_find?_eq_some hfind) hroom
    next => simpa using h
  next => simpa using h

theorem Reaches.call {C A D} (h : Reaches settings C A D m) (message : Message) :
    Reaches settings (C ++ [message]) (A ++ (m.call message).queue.drop m.queue.length) D
      (m.call message) := by
  cases hclosed : m.closed with
  | true =>
    rw [call_of_closed message hclosed, List.drop_length, List.append_nil]
    exact h.refused message hclosed
  | false =>
    have hwaits := h.waits message hclosed
    by_cases hroom : m.hasRoom = true ∧ m.waiting = []
    · rw [call_of_hasRoom message hclosed hroom.1 hroom.2, queue_accept, List.drop_left]
      -- A caller who finds room at once might as well have waited for it first.
      simpa [hroom.2] using hwaits.of_accept (List.mem_append_right _ (List.mem_singleton_self _))
        hroom.1
    · rw [call_of_not_hasRoom message hclosed hroom, List.drop_length, List.append_nil]
      exact hwaits

theorem Reaches.take {C A D} (h : Reaches settings C A D m) (now : Nat) :
    Reaches settings C (A ++ (m.take now).queue.drop m.queue.length)
      (D ++ m.takes (.take now)) (m.take now) := by
  rcases hqueue : m.queue with _ | ⟨⟨t, message⟩, queue⟩
  · have htake : m.take now = m := by
      unfold Mailbox.take
      rw [hqueue]
    rw [htake, takes, hqueue]
    simpa using h
  · rw [takes, hqueue]
    cases message with
    | operation op =>
      obtain ⟨calls, htake, htold⟩ := take_operation_eq now hqueue
      rw [htake, List.drop_eq_nil_of_le (by simp), List.append_nil]
      exact h.operates now hqueue htold
    | shutdown =>
      obtain ⟨calls, htake, htold⟩ := take_shutdown_eq now hqueue
      rw [htake, List.drop_nil, List.append_nil]
      exact h.shuts now hqueue htold

theorem Reaches.expire {C A D} (h : Reaches settings C A D m) (ticket : Ticket) :
    Reaches settings C (A ++ (m.expire ticket).queue.drop m.queue.length) D (m.expire ticket) := by
  obtain ⟨calls, hexpire, htold⟩ := m.expire_eq ticket
  rw [hexpire, List.drop_length, List.append_nil]
  exact h.expires htold

theorem Reaches.enter {C A D} (h : Reaches settings C A D m) :
    Reaches settings C (A ++ m.enter.queue.drop m.queue.length) D m.enter := by
  rcases hw : m.waiting with _ | ⟨l, rest⟩
  · have henter : m.enter = m := by
      unfold Mailbox.enter
      rw [hw]
    simpa [henter] using h
  · have hn := h.tickets.nodup
    rw [List.map_append, List.nodup_append] at hn
    rw [enter_eq_overtake hw hn.2.1]
    exact h.overtake l.ticket

theorem Reaches.step {C A D} (h : Reaches settings C A D m) (e : Event) :
    Reaches settings (C ++ asks e) (A ++ m.admits e) (D ++ m.takes e) (m.step e) := by
  have hC := List.append_nil C
  have hD := List.append_nil D
  cases e with
  | call message => exact hD.symm ▸ h.call message
  | enter => exact hC.symm ▸ hD.symm ▸ h.enter
  | overtake ticket => exact hC.symm ▸ hD.symm ▸ h.overtake ticket
  | expire ticket => exact hC.symm ▸ hD.symm ▸ h.expire ticket
  | take now => exact hC.symm ▸ h.take now

/-- **Every state of a history is reached.** -/
theorem Reaches.run {C A D} (h : Reaches settings C A D m) (events : List Event) :
    Reaches settings (C ++ asked events) (A ++ trace admits m events) (D ++ trace takes m events)
      (m.run events) := by
  induction events generalizing C A D m with
  | nil => simpa [asked, trace, Mailbox.run] using h
  | cons e events ih =>
    have hrest := ih (h.step e)
    rw [List.append_assoc, List.append_assoc, List.append_assoc] at hrest
    exact hrest

theorem reaches_run (settings : Settings) (events : List Event) :
    Reaches settings (asked events) (arrived settings events) (taken settings events)
      ((new settings).run events) :=
  Reaches.new.run events

/-! ### What is still to come -/

theorem queue_prefix_step {e : Event} (he : e.isTake = false) : m.queue <+: (m.step e).queue := by
  cases e with
  | call message =>
    rw [Mailbox.step]
    cases hclosed : m.closed with
    | true =>
      have hcall := call_of_closed message hclosed
      exact hcall ▸ List.prefix_rfl
    | false =>
      by_cases hroom : m.hasRoom = true ∧ m.waiting = []
      · rw [call_of_hasRoom message hclosed hroom.1 hroom.2, queue_accept]
        exact List.prefix_append _ _
      · have hcall := call_of_not_hasRoom message hclosed hroom
        exact hcall ▸ List.prefix_rfl
  | enter =>
    rw [Mailbox.step]
    unfold enter
    split
    · split
      · rw [queue_accept]
        exact List.prefix_append _ _
      · exact List.prefix_rfl
    · exact List.prefix_rfl
  | overtake ticket =>
    rw [Mailbox.step]
    unfold overtake
    split
    · split
      · rw [queue_accept]
        exact List.prefix_append _ _
      · exact List.prefix_rfl
    · exact List.prefix_rfl
  | expire ticket =>
    obtain ⟨calls, hexpire, -⟩ := m.expire_eq ticket
    rw [Mailbox.step]
    exact hexpire ▸ List.prefix_rfl
  | take now => cases he

/-- **A letter in the mailbox is taken** once the worker has taken those in front of it, none of
which is a shutdown, whatever the callers do meanwhile. -/
theorem mem_takes {l : Letter} {more : List Event} {before after : List Letter}
    (hqueue : m.queue = before ++ l :: after) (hb : ∀ b ∈ before, b.message ≠ .shutdown)
    (hmore : before.length < (more.filter Event.isTake).length) :
    l ∈ (trace takes m more).map Delivery.letter := by
  induction more generalizing m before after with
  | nil => exact absurd hmore (Nat.not_lt_zero _)
  | cons e more ih =>
    rw [trace, List.map_append, List.mem_append]
    cases he : e.isTake with
    | false =>
      obtain ⟨rest, hrest⟩ := queue_prefix_step (m := m) he
      rw [hqueue, List.append_assoc, List.cons_append] at hrest
      rw [List.filter_cons_of_neg (by simp [he])] at hmore
      exact .inr (ih hrest.symm hb hmore)
    | true =>
      rw [List.filter_cons_of_pos he, List.length_cons] at hmore
      obtain ⟨now, rfl⟩ : ∃ now, e = .take now := by
        cases e with
        | take now => exact ⟨now, rfl⟩
        | _ => cases he
      cases before with
      | nil =>
        left
        simp [takes, hqueue]
      | cons b before =>
        obtain ⟨t, message⟩ := b
        cases message with
        | shutdown => exact absurd rfl (hb _ List.mem_cons_self)
        | operation op =>
          obtain ⟨calls, htake, -⟩ := take_operation_eq now hqueue
          rw [Mailbox.step, htake]
          exact .inr (ih rfl (fun b hmem => hb b (List.mem_cons_of_mem _ hmem))
            (Nat.lt_of_succ_lt_succ hmore))

/-- A mailbox that is closed, and all of whose callers know what their calls came to. -/
structure Shut (m : Mailbox) : Prop where
  closed : m.closed = true
  queue : m.queue = []
  waiting : m.waiting = []
  settled : ∀ t : Ticket, m.calls[t]? ≠ some none

namespace Shut

theorem step_eq (h : Shut m) (e : Event) : m.step e =
    { m with calls := m.calls ++ (asks e).map fun _ => some (.error .closed) } := by
  have hidle : m = { m with calls := m.calls ++ [] } := by rw [List.append_nil]
  cases e with
  | call message => exact call_of_closed message h.closed
  | enter =>
    have henter : m.enter = m := by
      unfold enter
      rw [h.waiting]
    exact henter.trans hidle
  | overtake ticket =>
    have hovertake : m.overtake ticket = m := by
      unfold overtake
      rw [h.waiting]
      rfl
    exact hovertake.trans hidle
  | expire ticket =>
    have hexpire : m.expire ticket = m := by
      have hnot : m.isPending ticket ≠ true := fun hp => h.settled ticket (isPending_iff.1 hp)
      have hw : { m with waiting := m.waiting.filter fun l => l.ticket ≠ ticket } = m := by
        rw [h.waiting, List.filter_nil, ← h.waiting]
      rw [expire, hw, answer, if_neg hnot]
    exact hexpire.trans hidle
  | take now =>
    have htake : m.take now = m := by
      unfold take
      rw [h.queue]
    exact htake.trans hidle

theorem step (h : Shut m) (e : Event) : Shut (m.step e) := by
  rw [h.step_eq e]
  refine ⟨h.closed, h.queue, h.waiting, fun t ht => ?_⟩
  rcases Nat.lt_or_ge t m.calls.length with hlt | hge
  · rw [List.getElem?_append_left hlt] at ht
    exact h.settled t ht
  · rw [List.getElem?_append_right hge, List.getElem?_map] at ht
    obtain ⟨-, -, e⟩ := Option.map_eq_some_iff.1 ht
    cases e

/-- **Nothing happens any more** but that new callers are told that the registry is closed. -/
theorem run_eq (h : Shut m) (more : List Event) : m.run more =
    { m with calls := m.calls ++ (asked more).map fun _ => some (.error .closed) } := by
  induction more generalizing m with
  | nil => simp [asked, Mailbox.run]
  | cons e more ih =>
    have hrun := ih (h.step e)
    rw [h.step_eq e, List.append_assoc, ← List.map_append] at hrun
    exact (congrArg (Mailbox.run · more) (h.step_eq e)).trans hrun

end Shut

namespace Reaches

variable {C : List Message} {A : List Letter} {D : List Delivery} {l : Letter}

theorem isOpen_of_pending (h : Reaches settings C A D m) (ht : m.calls[t]? = some none) :
    m.closed = false := by
  obtain ⟨l, hl, -⟩ := h.pending_mem ht
  by_contra hclosed
  obtain ⟨hq, hw⟩ := h.flow.empty (by simpa using hclosed)
  rw [hq, hw] at hl
  cases hl

theorem shut (h : Reaches settings C A D m) (hclosed : m.closed = true) : Shut m where
  closed := hclosed
  queue := (h.flow.empty hclosed).1
  waiting := (h.flow.empty hclosed).2
  settled t ht := by
    rw [h.isOpen_of_pending ht] at hclosed
    cases hclosed

theorem taken_prefix (h : Reaches settings C A D m) : D.map Delivery.letter <+: A :=
  (List.prefix_append _ _).trans h.flow.order

theorem nodup_arrived (h : Reaches settings C A D m) : (A.map (·.ticket)).Nodup :=
  h.tickets.nodup.sublist ((List.sublist_append_left _ _).map _)

theorem nodup_taken (h : Reaches settings C A D m) : (D.map (·.letter.ticket)).Nodup := by
  have hsub := h.taken_prefix.sublist.map Letter.ticket
  rw [List.map_map] at hsub
  exact h.nodup_arrived.sublist hsub

theorem not_taken_of_behind {before after : List Letter} (h : Reaches settings C A D m)
    (hA : A = before ++ ⟨t, .shutdown⟩ :: after) (hl : l ∈ after) :
    l ∉ D.map Delivery.letter := by
  intro hmem
  have hfront : l ∈ before ++ [⟨t, .shutdown⟩] := by
    have hpre : before ++ [⟨t, .shutdown⟩] <+: A := ⟨after, by rw [hA, List.append_assoc]; rfl⟩
    rcases List.prefix_or_prefix_of_prefix h.taken_prefix hpre with hshort | ⟨rest, hrest⟩
    · exact hshort.subset hmem
    · -- The shutdown is taken, and then nothing else is.
      rw [List.append_assoc, List.singleton_append] at hrest
      obtain ⟨D₁, D₂, rfl, rfl, hD₂⟩ := List.map_eq_append_iff.1 hrest.symm
      obtain ⟨d, D₃, rfl, hd, -⟩ := List.map_eq_cons_iff.1 hD₂
      obtain ⟨rfl, -⟩ := h.flow.last D₁ d D₃ rfl (by rw [hd])
      rwa [List.map_append, List.map_singleton, hd] at hmem
  have hn := h.nodup_arrived
  rw [hA, ← List.singleton_append, ← List.append_assoc, List.map_append, List.nodup_append] at hn
  exact hn.2.2 _ (List.mem_map_of_mem hfront) _ (List.mem_map_of_mem hl) rfl

end Reaches

/-- Until the mailbox closes, the caller may still wait. Then the caller is told that it is closed,
or has been told that the time is over, but gets no answer. -/
def Unanswered (settings : Settings) (m : Mailbox) (t : Ticket) : Prop :=
  (m.isPending t = true ∧ m.closed = false) ∨ m.outcome? t = some (.error .closed) ∨
    m.outcome? t = some (.error (.timeout settings.timeout))

theorem Reaches.unanswered {C A D} {l : Letter} (h : Reaches settings C A D m)
    (hl : C[l.ticket]? = some l.message) (htaken : l ∉ D.map Delivery.letter)
    (haw : l ∈ A → l.message.isAwaited = true) : Unanswered settings m l.ticket := by
  have hlt : l.ticket < m.calls.length := by
    rw [h.tickets.length]
    exact (List.getElem?_eq_some_iff.1 hl).1
  rcases hc : m.calls[l.ticket]? with _ | _ | o
  · exact absurd (List.getElem?_eq_none_iff.1 hc) (Nat.not_le_of_lt hlt)
  · exact .inl ⟨isPending_iff.2 hc, h.isOpen_of_pending hc⟩
  · refine .inr ?_
    rw [outcome?_eq_some_iff, outcome?_eq_some_iff, hc]
    cases h.due hl hc with
    | accepted hA hno =>
      rw [haw hA] at hno
      cases hno
    | replied hD _ => exact absurd (by simp [hD]) htaken
    | closed => exact .inl rfl
    | timeout => exact .inr rfl

/-- What can be said of a history and of the mailbox after it. Letters are taken in the order in
which they arrived, and a reply is what the message gives after exactly those that arrived before.
A letter is taken at most once, and it is taken if the worker gets to it before a shutdown, whether
or not its caller still waits. When a shutdown is acknowledged, the mailbox is closed for good.
Behind a shutdown nobody gets an answer, but a caller who does not wait for one may have been told
before that the message has come in. -/
structure Linearizable (settings : Settings) (events : List Event) (m : Mailbox) : Prop where
  bounded : m.queue.length ≤ max 1 settings.capacity
  table : m.table = tableAfter settings (taken settings events)
  order : (taken settings events).map Delivery.letter <+: arrived settings events
  genuine : ∀ l ∈ arrived settings events, (asked events)[l.ticket]? = some l.message
  once : ((arrived settings events).map (·.ticket)).Nodup ∧
    ((taken settings events).map (·.letter.ticket)).Nodup
  replies : ∀ l r, (asked events)[l.ticket]? = some l.message → l.message.isAwaited = true →
    m.outcome? l.ticket = some (.ok r) → ∃ before now after,
      taken settings events = before ++ ⟨now, l⟩ :: after ∧
      r = l.message.reply now (tableAfter settings before)
  kept : m.closed = false →
    arrived settings events = (taken settings events).map Delivery.letter ++ m.queue
  reached : ∀ before l after more, m.queue = before ++ l :: after →
    (∀ b ∈ before, b.message ≠ .shutdown) → before.length < (more.filter Event.isTake).length →
    l ∈ (taken settings (events ++ more)).map Delivery.letter ∧
    ((taken settings (events ++ more)).map (·.letter.ticket)).count l.ticket = 1
  acknowledged : ∀ t r, (asked events)[t]? = some .shutdown → m.outcome? t = some (.ok r) →
    m.closed = true ∧ ∀ more, m.run more =
      { m with calls := m.calls ++ (asked more).map fun _ => some (.error .closed) }
  behind : ∀ before t after l, arrived settings events = before ++ ⟨t, .shutdown⟩ :: after →
    l ∈ after → l ∉ (taken settings events).map Delivery.letter ∧
      (l.message.isAwaited = true → Unanswered settings m l.ticket) ∧
      (l.message.isAwaited = false → m.outcome? l.ticket = some (.ok .done))
  outside : ∀ l, (asked events)[l.ticket]? = some l.message → l ∉ arrived settings events →
    Unanswered settings m l.ticket

/-- **The mailbox is linearizable in the order of arrival**, for any number of callers and whatever
they, the worker and the clock do. -/
theorem linearizable (settings : Settings) (events : List Event) :
    Linearizable settings events ((new settings).run events) := by
  have h := reaches_run settings events
  constructor
  case bounded =>
    have hle := h.bounded
    rwa [capacity, h.settings_eq] at hle
  case table => exact h.table_eq
  case order => exact h.taken_prefix
  case genuine => exact fun l hl => h.tickets.labelled l (List.mem_append_left _ hl)
  case once => exact ⟨h.nodup_arrived, h.nodup_taken⟩
  case replies =>
    intro l r hl haw ho
    cases h.due hl (outcome?_eq_some_iff.1 ho) with
    | accepted _ hno =>
      rw [haw] at hno
      cases hno
    | replied hD _ => exact ⟨_, _, _, hD, rfl⟩
  case kept => exact h.flow.kept
  case reached =>
    intro before l after more hqueue hb hmore
    have hmem : l ∈ (taken settings (events ++ more)).map Delivery.letter := by
      rw [taken_append, List.map_append, List.mem_append]
      exact .inr (mem_takes hqueue hb hmore)
    refine ⟨hmem, List.count_eq_one_of_mem (reaches_run settings (events ++ more)).nodup_taken ?_⟩
    obtain ⟨d, hd, rfl⟩ := List.mem_map.1 hmem
    exact List.mem_map_of_mem hd
  case acknowledged =>
    intro t r hl ho
    have hdue := h.due (l := ⟨t, .shutdown⟩) hl (outcome?_eq_some_iff.1 ho)
    have hclosed : ((new settings).run events).closed = true := by
      cases hdue with
      | accepted _ hno => cases hno
      | replied hD _ => exact (h.flow.last _ _ _ hD rfl).2
    exact ⟨hclosed, (h.shut hclosed).run_eq⟩
  case behind =>
    intro before t after l hA hl
    have hmem : l ∈ arrived settings events := by
      rw [hA]
      exact List.mem_append_right _ (List.mem_cons_of_mem _ hl)
    have htaken := h.not_taken_of_behind hA hl
    have hasked := h.tickets.labelled l (List.mem_append_left _ hmem)
    refine ⟨htaken, ?_, ?_⟩
    · intro haw
      exact h.unanswered hasked htaken fun _ => haw
    · intro hno
      exact outcome?_eq_some_iff.2 (h.told_of_mem hmem hno)
  case outside =>
    intro l hl hno
    have htaken : l ∉ (taken settings events).map Delivery.letter :=
      fun hmem => hno (h.taken_prefix.subset hmem)
    exact h.unanswered hl htaken fun hmem => absurd hmem hno

/-- A session that is to be entered behind a shutdown: its caller has been told that all is well. -/
theorem told_behind_shutdown :
    let events : List Event :=
      [.call .shutdown, .call (.operation (.addSession "0x1" "s1")), .take 0]
    let m := (new .default).run events
    arrived .default events = [⟨0, .shutdown⟩, ⟨1, .operation (.addSession "0x1" "s1")⟩] ∧
      m.closed = true ∧ m.outcome? 1 = some (.ok .done) ∧ ¬ Unanswered .default m 1 := by
  intro events m
  have hdone : m.outcome? 1 = some (.ok .done) := rfl
  refine ⟨rfl, rfl, hdone, ?_⟩
  rintro (⟨hp, -⟩ | h | h)
  · cases hp
  · rw [hdone] at h
    cases h
  · rw [hdone] at h
    cases h

end Mailbox

end SealedGraph.Registry
