import SealedGraph.Registry.Mailbox
import Mathlib.Data.List.Nodup

/-!
# Letters in the order of arrival

What the callers of a mailbox and its worker do, as a relation. `Reaches settings C A D m` holds of
a mailbox that they get to from a new one, with the messages of the calls, the letters that came
into the mailbox, and the letters that the worker took, each with its time. Whoever finds no room
waits for it first and comes in later, so that a call that finds room at once is two moves.

Everything that is known about the states is an induction on this relation:

* `Reaches.flow`: until the mailbox closes, what arrived is what was taken and then what is in the
  mailbox, and a shutdown is the last letter that is taken;
* `Reaches.tickets`: no two letters are of one call;
* `Reaches.pending_mem` and `Reaches.due`: who waits has a letter on its way, and who does not wait
  any more was told something for a reason.
-/

namespace SealedGraph.Registry

/-! ### What the worker does with a message -/

/-- The table after a message. -/
def Message.apply (now : Nat) : Message → Table → Table
  | .operation op, t => (op.apply now t).2
  | .shutdown, t => t

/-- The worker's reply to a message. -/
def Message.reply (now : Nat) : Message → Table → Reply
  | @Message.operation k op, t => .of k (op.apply now t).1
  | .shutdown, _ => .done

/-- A letter that the worker takes, and the time. -/
structure Delivery where
  now : Nat
  letter : Letter

/-- The messages of some letters applied one after the other. -/
def tableAfter (settings : Settings) (taken : List Delivery) : Table :=
  taken.foldl (fun t d => d.letter.message.apply d.now t) settings.table

theorem tableAfter_concat (settings : Settings) (taken : List Delivery) (d : Delivery) :
    tableAfter settings (taken ++ [d]) =
      d.letter.message.apply d.now (tableAfter settings taken) := by
  simp [tableAfter]

namespace Mailbox

variable {settings : Settings} {m : Mailbox} {t : Ticket} {o : Except Error Reply}

/-! ### What callers are told -/

theorem isPending_iff : m.isPending t = true ↔ m.calls[t]? = some none := by
  unfold isPending
  rcases m.calls[t]? with _ | _ | _ <;> simp

theorem outcome?_eq_some_iff : m.outcome? t = some o ↔ m.calls[t]? = some (some o) := by
  unfold outcome?
  rcases m.calls[t]? with _ | _ | _ <;> simp

/-- Each caller who waits is told what `f` says, or nothing. -/
def Told (f : Ticket → Option (Except Error Reply))
    (calls calls' : List (Option (Except Error Reply))) : Prop :=
  ∀ t : Ticket, calls'[t]? = calls[t]?.map (·.or (f t))

namespace Told

variable {f g : Ticket → Option (Except Error Reply)}
  {calls calls' calls'' : List (Option (Except Error Reply))}

theorem settled_iff (h : Told f calls calls') : calls'[t]? = some (some o) ↔
    calls[t]? = some (some o) ∨ calls[t]? = some none ∧ f t = some o := by
  rw [h t]
  rcases calls[t]? with _ | _ | _ <;> simp

theorem pending_iff (h : Told f calls calls') :
    calls'[t]? = some none ↔ calls[t]? = some none ∧ f t = none := by
  rw [h t]
  rcases calls[t]? with _ | _ | _ <;> simp

theorem length_eq (h : Told f calls calls') : calls'.length = calls.length := by
  have hle (t : Nat) : calls'.length ≤ t ↔ calls.length ≤ t := by
    rw [← List.getElem?_eq_none_iff, ← List.getElem?_eq_none_iff, h t, Option.map_eq_none_iff]
  exact Nat.le_antisymm ((hle _).2 (Nat.le_refl _)) ((hle _).1 (Nat.le_refl _))

theorem trans (h : Told f calls calls') (h' : Told g calls' calls'') :
    Told (fun t => (f t).or (g t)) calls calls'' := by
  intro t
  rw [h' t, h t, Option.map_map]
  congr 1
  funext c
  exact Option.or_assoc

end Told

theorem told_nothing (calls : List (Option (Except Error Reply))) :
    Told (fun _ => none) calls calls := by
  intro t
  simp

theorem answer_eq (m : Mailbox) (t : Ticket) (o : Except Error Reply) :
    ∃ calls, m.answer t o = { m with calls := calls } ∧
      Told (fun u => if u = t then some o else none) m.calls calls := by
  unfold answer
  split
  next hp =>
    refine ⟨_, rfl, fun u => ?_⟩
    rw [isPending_iff] at hp
    by_cases hu : u = t
    · subst hu
      have hlt : u < m.calls.length := (List.getElem?_eq_some_iff.1 hp).1
      rw [List.getElem?_set_self hlt, hp]
      simp
    · simp [hu, List.getElem?_set_ne (Ne.symm hu)]
  next hp =>
    refine ⟨_, rfl, fun u => ?_⟩
    rw [isPending_iff] at hp
    by_cases hu : u = t
    · subst hu
      rcases hc : m.calls[u]? with _ | _ | _ <;> simp_all
    · simp [hu]

theorem refuse_eq (m : Mailbox) (letters : List Letter) :
    ∃ calls, m.refuse letters = { m with calls := calls } ∧
      Told (fun u => if u ∈ letters.map (·.ticket) then some (.error .closed) else none)
        m.calls calls := by
  induction letters generalizing m with
  | nil => exact ⟨_, rfl, told_nothing _⟩
  | cons l letters ih =>
    obtain ⟨calls, hanswer, htold⟩ := m.answer_eq l.ticket (.error .closed)
    obtain ⟨calls', hrefuse, htold'⟩ := ih { m with calls := calls }
    refine ⟨calls', ?_, ?_⟩
    · rw [refuse, List.foldl_cons, hanswer]
      exact hrefuse
    · convert htold.trans htold' using 2 with u
      by_cases hu : u = l.ticket <;> simp [hu]

theorem accept_eq (m : Mailbox) (l : Letter) :
    ∃ calls, m.accept l = { m with queue := m.queue ++ [l], calls := calls } ∧
      Told (fun u => if u = l.ticket ∧ l.message.isAwaited = false then some (.ok .done) else none)
        m.calls calls := by
  unfold accept
  cases ha : l.message.isAwaited with
  | true => exact ⟨_, rfl, by simpa using told_nothing _⟩
  | false => simpa using answer_eq { m with queue := m.queue ++ [l] } l.ticket (.ok .done)

theorem expire_eq (m : Mailbox) (ticket : Ticket) :
    ∃ calls, m.expire ticket =
        { m with waiting := m.waiting.filter fun l => l.ticket ≠ ticket, calls := calls } ∧
      Told (fun u => if u = ticket then some (.error (.timeout m.settings.timeout)) else none)
        m.calls calls :=
  answer_eq { m with waiting := m.waiting.filter fun l => l.ticket ≠ ticket } ticket _

theorem take_operation_eq {k : Kind} {op : Operation k} {queue : List Letter} (now : Nat)
    (h : m.queue = ⟨t, .operation op⟩ :: queue) :
    ∃ calls, m.take now =
        { m with queue := queue, table := (op.apply now m.table).2, calls := calls } ∧
      Told (fun u => if u = t then some (.ok (.of k (op.apply now m.table).1)) else none)
        m.calls calls := by
  unfold take
  rw [h]
  exact answer_eq { m with queue := queue, table := (op.apply now m.table).2 } t _

theorem take_shutdown_eq {queue : List Letter} (now : Nat) (h : m.queue = ⟨t, .shutdown⟩ :: queue) :
    ∃ calls, m.take now =
        { m with queue := [], waiting := [], closed := true, calls := calls } ∧
      Told (fun u => if u = t then some (.ok .done)
        else if u ∈ (queue ++ m.waiting).map (·.ticket) then some (.error .closed) else none)
        m.calls calls := by
  unfold take
  rw [h]
  obtain ⟨calls, hanswer, htold⟩ :=
    answer_eq { m with queue := [], waiting := [], closed := true } t (.ok .done)
  obtain ⟨calls', hrefuse, htold'⟩ := refuse_eq
    { m with queue := [], waiting := [], closed := true, calls := calls } (queue ++ m.waiting)
  refine ⟨calls', ?_, ?_⟩
  · rw [← hrefuse, ← hanswer]
  · convert htold.trans htold' using 2 with u
    by_cases hu : u = t <;> simp [hu]

/-! ### What can happen -/

/-- The states of a mailbox, with the messages of the calls so far, the letters that have arrived
and those that have been taken. -/
inductive Reaches (settings : Settings) :
    List Message → List Letter → List Delivery → Mailbox → Prop
  | new : Reaches settings [] [] [] (new settings)
  | waits {C A D m} (message : Message) (h : Reaches settings C A D m) (hopen : m.closed = false) :
      Reaches settings (C ++ [message]) A D
        { m with
          calls := m.calls ++ [none]
          waiting := m.waiting ++ [⟨m.calls.length, message⟩] }
  | refused {C A D m} (message : Message) (h : Reaches settings C A D m)
      (hclosed : m.closed = true) :
      Reaches settings (C ++ [message]) A D
        { m with calls := m.calls ++ [some (.error .closed)] }
  | enters {C A D m} {l : Letter} {calls} (h : Reaches settings C A D m) (hl : l ∈ m.waiting)
      (hroom : m.queue.length < m.capacity)
      (htold : Told (fun u => if u = l.ticket ∧ l.message.isAwaited = false then some (.ok .done)
        else none) m.calls calls) :
      Reaches settings C (A ++ [l]) D
        { m with
          queue := m.queue ++ [l]
          waiting := m.waiting.filter fun l' => l'.ticket ≠ l.ticket
          calls := calls }
  | expires {C A D m} {t : Ticket} {calls} (h : Reaches settings C A D m)
      (htold : Told (fun u => if u = t then some (.error (.timeout m.settings.timeout)) else none)
        m.calls calls) :
      Reaches settings C A D
        { m with waiting := m.waiting.filter fun l => l.ticket ≠ t, calls := calls }
  | operates {C A D m} {t : Ticket} {k : Kind} {op : Operation k} {queue calls} (now : Nat)
      (h : Reaches settings C A D m) (hqueue : m.queue = ⟨t, .operation op⟩ :: queue)
      (htold : Told (fun u => if u = t then some (.ok (.of k (op.apply now m.table).1)) else none)
        m.calls calls) :
      Reaches settings C A (D ++ [⟨now, t, .operation op⟩])
        { m with queue := queue, table := (op.apply now m.table).2, calls := calls }
  | shuts {C A D m} {t : Ticket} {queue calls} (now : Nat) (h : Reaches settings C A D m)
      (hqueue : m.queue = ⟨t, .shutdown⟩ :: queue)
      (htold : Told (fun u => if u = t then some (.ok .done)
        else if u ∈ (queue ++ m.waiting).map (·.ticket) then some (.error .closed) else none)
        m.calls calls) :
      Reaches settings C A (D ++ [⟨now, t, .shutdown⟩])
        { m with queue := [], waiting := [], closed := true, calls := calls }

namespace Reaches

variable {C : List Message} {A : List Letter} {D : List Delivery}

theorem settings_eq (h : Reaches settings C A D m) : m.settings = settings := by
  induction h with
  | new => rfl
  | waits _ _ _ ih | refused _ _ _ ih | enters _ _ _ _ ih | expires _ _ ih | operates _ _ _ _ ih
  | shuts _ _ _ _ ih => exact ih

theorem bounded (h : Reaches settings C A D m) : m.queue.length ≤ m.capacity := by
  induction h with
  | new => exact Nat.zero_le _
  | waits _ _ _ ih | refused _ _ _ ih | expires _ _ ih => exact ih
  | enters _ _ hroom =>
    rw [List.length_append, List.length_singleton]
    exact hroom
  | operates now _ hqueue _ ih =>
    rw [hqueue, List.length_cons] at ih
    exact Nat.le_of_succ_le ih
  | shuts => exact Nat.zero_le _

theorem table_eq (h : Reaches settings C A D m) : m.table = tableAfter settings D := by
  induction h with
  | new => rfl
  | waits _ _ _ ih | refused _ _ _ ih | enters _ _ _ _ ih | expires _ _ ih => exact ih
  | operates now _ _ _ ih =>
    rw [tableAfter_concat, ← ih]
    rfl
  | shuts now _ _ _ ih =>
    rw [tableAfter_concat, ← ih]
    rfl

end Reaches

/-! ### The flow of the letters -/

/-- Where the letters that arrived are. -/
structure Flow (A : List Letter) (D : List Delivery) (m : Mailbox) : Prop where
  order : D.map Delivery.letter ++ m.queue <+: A
  kept : m.closed = false → A = D.map Delivery.letter ++ m.queue
  empty : m.closed = true → m.queue = [] ∧ m.waiting = []
  last : ∀ before d after, D = before ++ d :: after → d.letter.message = .shutdown →
    after = [] ∧ m.closed = true

namespace Flow

variable {A : List Letter} {D : List Delivery} {l : Letter} {queue : List Letter}

theorem isOpen_of_waiting (h : Flow A D m) (hl : l ∈ m.waiting) : m.closed = false := by
  by_contra hclosed
  rw [(h.empty (by simpa using hclosed)).2] at hl
  cases hl

theorem isOpen_of_queue (h : Flow A D m) (hqueue : m.queue = l :: queue) : m.closed = false := by
  by_contra hclosed
  rw [(h.empty (by simpa using hclosed)).1] at hqueue
  cases hqueue

theorem no_shutdown (h : Flow A D m) (hopen : m.closed = false) {d : Delivery} (hd : d ∈ D) :
    d.letter.message ≠ .shutdown := by
  intro hs
  obtain ⟨before, after, e⟩ := List.append_of_mem hd
  rw [(h.last before d after e hs).2] at hopen
  cases hopen

/-- The letter taken next is the only one that can be a shutdown. -/
theorem last_concat (h : Flow A D m) (hopen : m.closed = false) {x d : Delivery}
    {before after : List Delivery} (e : D ++ [x] = before ++ d :: after)
    (hs : d.letter.message = .shutdown) : after = [] ∧ d = x := by
  rcases List.eq_nil_or_concat after with rfl | ⟨after, b, rfl⟩
  · exact ⟨rfl, ((List.append_inj' e rfl).2 |> List.head_eq_of_cons_eq).symm⟩
  · have hD : D = before ++ d :: after := by
      rw [List.concat_eq_append, ← List.cons_append, ← List.append_assoc] at e
      exact (List.append_inj' e rfl).1
    exact absurd hs (h.no_shutdown hopen (by simp [hD]))

end Flow

theorem Reaches.flow {C A D} (h : Reaches settings C A D m) : Flow A D m := by
  induction h with
  | new => exact ⟨List.prefix_rfl, fun _ => rfl, nofun, by simp⟩
  | waits message h hopen ih =>
    refine ⟨ih.order, ih.kept, fun hclosed => ?_, ih.last⟩
    rw [hopen] at hclosed
    cases hclosed
  | refused message h hclosed ih => exact ⟨ih.order, ih.kept, ih.empty, ih.last⟩
  | @enters C A D m l calls h hl hroom htold ih =>
    have hopen := ih.isOpen_of_waiting hl
    have hkept : A ++ [l] = D.map Delivery.letter ++ (m.queue ++ [l]) := by
      rw [ih.kept hopen, List.append_assoc]
    refine ⟨hkept ▸ List.prefix_rfl, fun _ => hkept, fun hclosed => ?_, ih.last⟩
    rw [hopen] at hclosed
    cases hclosed
  | expires h htold ih =>
    refine ⟨ih.order, ih.kept, fun hclosed => ?_, ih.last⟩
    rw [(ih.empty hclosed).2]
    exact ⟨(ih.empty hclosed).1, rfl⟩
  | @operates C A D m t k op queue calls now h hqueue htold ih =>
    have hopen := ih.isOpen_of_queue hqueue
    have hkept : A = List.map Delivery.letter (D ++ [⟨now, t, .operation op⟩]) ++ queue := by
      rw [ih.kept hopen, hqueue, List.map_append, List.append_assoc]
      rfl
    refine ⟨hkept ▸ List.prefix_rfl, fun _ => hkept, fun hclosed => ?_, ?_⟩
    · rw [hopen] at hclosed
      cases hclosed
    · intro before d after e hs
      obtain ⟨-, rfl⟩ := ih.last_concat hopen e hs
      cases hs
  | shuts now h hqueue htold ih =>
    have hopen := ih.isOpen_of_queue hqueue
    refine ⟨?_, nofun, fun _ => ⟨rfl, rfl⟩, ?_⟩
    · rw [ih.kept hopen, hqueue, List.map_append, List.append_nil]
      exact List.prefix_append_right_inj _ |>.2 (List.prefix_append _ _)
    · intro before d after e hs
      exact ⟨(ih.last_concat hopen e hs).1, rfl⟩

/-! ### Whose letter is whose -/

/-- A letter carries the message of its call, and no two letters are of one call. -/
structure Tickets (C : List Message) (A : List Letter) (m : Mailbox) : Prop where
  length : m.calls.length = C.length
  labelled : ∀ l ∈ A ++ m.waiting, C[l.ticket]? = some l.message
  nodup : ((A ++ m.waiting).map (·.ticket)).Nodup

namespace Tickets

variable {C : List Message} {A : List Letter} {m' : Mailbox} {l : Letter}

theorem lt_length (h : Tickets C A m) (hl : l ∈ A ++ m.waiting) : l.ticket < C.length :=
  (List.getElem?_eq_some_iff.1 (h.labelled l hl)).1

theorem message_of_concat {message message' : Message} {c : Option (Except Error Reply)}
    (h : Tickets C A m) (hl : (C ++ [message])[t]? = some message') (hc : m.calls[t]? = some c) :
    C[t]? = some message' := by
  have hlt := (List.getElem?_eq_some_iff.1 hc).1
  rw [h.length] at hlt
  rwa [List.getElem?_append_left hlt] at hl

/-- Fewer callers may wait later. -/
theorem mono (h : Tickets C A m) (hcalls : m'.calls.length = m.calls.length)
    (hsub : m'.waiting.Sublist m.waiting) : Tickets C A m' where
  length := hcalls.trans h.length
  labelled l hl := h.labelled l ((hsub.append_left A).mem hl)
  nodup := h.nodup.sublist ((hsub.append_left A).map _)

/-- The callers who wait when a new one joins them. -/
theorem call (h : Tickets C A m) (message : Message) (hcalls : m'.calls.length = m.calls.length + 1)
    (hwait : m'.waiting.Sublist (m.waiting ++ [⟨m.calls.length, message⟩])) :
    Tickets (C ++ [message]) A m' where
  length := by rw [hcalls, h.length, List.length_append, List.length_singleton]
  labelled l hl := by
    have hl' := (hwait.append_left A).mem hl
    rw [← List.append_assoc, List.mem_append, List.mem_singleton] at hl'
    rcases hl' with hold | rfl
    · rw [List.getElem?_append_left (h.lt_length hold)]
      exact h.labelled l hold
    · simp [h.length]
  nodup := by
    refine List.Nodup.sublist ((hwait.append_left A).map _) ?_
    rw [← List.append_assoc, List.map_append, List.nodup_append]
    refine ⟨h.nodup, List.nodup_singleton _, fun t ht u hu => ?_⟩
    obtain ⟨l, hl, rfl⟩ := List.mem_map.1 ht
    rw [List.mem_singleton.1 hu, h.length]
    exact Nat.ne_of_lt (h.lt_length hl)

/-- One of the callers who wait comes in. -/
theorem enter (h : Tickets C A m) (hl : l ∈ m.waiting)
    (hcalls : m'.calls.length = m.calls.length)
    (hwait : m'.waiting = m.waiting.filter fun l' => l'.ticket ≠ l.ticket) :
    Tickets C (A ++ [l]) m' where
  length := hcalls.trans h.length
  labelled l' hl' := by
    refine h.labelled l' ?_
    rw [hwait] at hl'
    simp only [List.mem_append, List.mem_singleton, List.mem_filter] at hl' ⊢
    rcases hl' with (ha | rfl) | hw
    · exact .inl ha
    · exact .inr hl
    · exact .inr hw.1
  nodup := by
    obtain ⟨hA, hW, hne⟩ := List.nodup_append.1 (List.map_append ▸ h.nodup)
    have hticket := List.mem_map_of_mem (f := Letter.ticket) hl
    rw [hwait, List.map_append, List.map_append, List.nodup_append, List.nodup_append]
    refine ⟨⟨hA, List.nodup_singleton _, ?_⟩, hW.sublist (List.filter_sublist.map _), ?_⟩
    · intro t ht u hu
      rw [List.mem_singleton.1 hu]
      exact hne t ht _ hticket
    · intro t ht u hu
      obtain ⟨l', hl', rfl⟩ := List.mem_map.1 hu
      rcases List.mem_append.1 ht with ht | ht
      · exact hne t ht _ (List.mem_map_of_mem (List.mem_of_mem_filter hl'))
      · have hother := List.of_mem_filter hl'
        rw [List.mem_singleton.1 ht]
        exact Ne.symm (of_decide_eq_true hother)

end Tickets

theorem Reaches.tickets {C A D} (h : Reaches settings C A D m) : Tickets C A m := by
  induction h with
  | new => exact ⟨rfl, nofun, .nil⟩
  | waits message h hopen ih => exact ih.call message (by simp) (List.Sublist.refl _)
  | refused message h hclosed ih =>
    exact ih.call message (by simp) (List.sublist_append_left _ _)
  | enters h hl hroom htold ih => exact ih.enter hl htold.length_eq rfl
  | expires h htold ih => exact ih.mono htold.length_eq List.filter_sublist
  | operates now h hqueue htold ih => exact ih.mono htold.length_eq (List.Sublist.refl _)
  | shuts now h hqueue htold ih => exact ih.mono htold.length_eq (List.nil_sublist _)

/-! ### What a call comes to -/

theorem eq_of_ticket {C : List Message} {l l' : Letter}
    (h : C[l.ticket]? = some l.message) (h' : C[l'.ticket]? = some l'.message)
    (e : l.ticket = l'.ticket) : l = l' := by
  obtain ⟨t, message⟩ := l
  obtain ⟨t', message'⟩ := l'
  obtain rfl : t = t' := e
  obtain rfl : message = message' := Option.some.inj (h.symm.trans h')
  rfl

/-- What the outcome of the call with a letter is due to. -/
inductive Due (settings : Settings) (A : List Letter) (D : List Delivery) (closed : Prop)
    (l : Letter) : Except Error Reply → Prop
  | accepted (hl : l ∈ A) (hno : l.message.isAwaited = false) :
      Due settings A D closed l (.ok .done)
  | replied {before now after} (h : D = before ++ ⟨now, l⟩ :: after)
      (haw : l.message.isAwaited = true) :
      Due settings A D closed l (.ok (l.message.reply now (tableAfter settings before)))
  | closed (h : closed) : Due settings A D closed l (.error .closed)
  | timeout : Due settings A D closed l (.error (.timeout settings.timeout))

theorem Due.mono {A A' D D' : List _} {c c' : Prop} {l : Letter} (h : Due settings A D c l o)
    (hA : A <+: A') (hD : D <+: D') (hc : c → c') : Due settings A' D' c' l o := by
  cases h with
  | accepted hl hno => exact .accepted (hA.subset hl) hno
  | replied h haw =>
    obtain ⟨rest, rfl⟩ := hD
    rw [h, List.append_assoc]
    exact .replied rfl haw
  | closed h => exact .closed (hc h)
  | timeout => exact .timeout

theorem getElem?_concat_eq_some {α : Type} {xs : List α} {x y : α} {i : Nat} :
    (xs ++ [x])[i]? = some y ↔ xs[i]? = some y ∨ i = xs.length ∧ x = y := by
  rcases Nat.lt_trichotomy i xs.length with hi | rfl | hi
  · rw [List.getElem?_append_left hi]
    simp [Nat.ne_of_lt hi]
  · simp
  · have hnone : (xs ++ [x])[i]? = none := by
      rw [List.getElem?_eq_none_iff, List.length_append, List.length_singleton]
      exact hi
    rw [hnone, List.getElem?_eq_none (Nat.le_of_lt hi)]
    simp [Nat.ne_of_gt hi]

namespace Reaches

variable {C : List Message} {A : List Letter} {D : List Delivery} {l : Letter}

theorem head_mem {queue : List Letter} (h : Reaches settings C A D m)
    (hqueue : m.queue = l :: queue) : l ∈ A := by
  refine h.flow.order.subset ?_
  rw [hqueue]
  simp

/-- The letter in front of the mailbox is not one that waits for room. -/
theorem head_ne {queue : List Letter} {l' : Letter} (h : Reaches settings C A D m)
    (hqueue : m.queue = l :: queue) (hl : l' ∈ m.waiting) : l'.ticket ≠ l.ticket := by
  have hn := h.tickets.nodup
  rw [List.map_append, List.nodup_append] at hn
  exact (hn.2.2 _ (List.mem_map_of_mem (h.head_mem hqueue)) _ (List.mem_map_of_mem hl)).symm

theorem waiting_pending (h : Reaches settings C A D m) (hl : l ∈ m.waiting) :
    m.calls[l.ticket]? = some none := by
  induction h with
  | new => cases hl
  | waits message h hopen ih =>
    rw [getElem?_concat_eq_some]
    rcases List.mem_append.1 hl with hl | hl
    · exact .inl (ih hl)
    · rw [List.mem_singleton.1 hl]
      exact .inr ⟨rfl, rfl⟩
  | refused message h hclosed ih => exact getElem?_concat_eq_some.2 (.inl (ih hl))
  | enters h hl' hroom htold ih =>
    have hne := List.of_mem_filter hl
    refine htold.pending_iff.2 ⟨ih (List.mem_of_mem_filter hl), if_neg fun hc => ?_⟩
    exact of_decide_eq_true hne hc.1
  | expires h htold ih =>
    have hne := List.of_mem_filter hl
    exact htold.pending_iff.2 ⟨ih (List.mem_of_mem_filter hl), if_neg (of_decide_eq_true hne)⟩
  | operates now h hqueue htold ih =>
    exact htold.pending_iff.2 ⟨ih hl, if_neg (h.head_ne hqueue hl)⟩
  | shuts => cases hl

theorem pending_mem (h : Reaches settings C A D m) (ht : m.calls[t]? = some none) :
    ∃ l ∈ m.queue ++ m.waiting, l.ticket = t := by
  induction h with
  | new => cases ht
  | waits message h hopen ih =>
    rcases getElem?_concat_eq_some.1 ht with ht | ⟨rfl, -⟩
    · obtain ⟨l, hl, rfl⟩ := ih ht
      exact ⟨l, by rw [← List.append_assoc]; exact List.mem_append_left _ hl, rfl⟩
    · exact ⟨_, List.mem_append_right _ (List.mem_append_right _ (List.mem_singleton_self _)), rfl⟩
  | refused message h hclosed ih =>
    rcases getElem?_concat_eq_some.1 ht with ht | ⟨-, e⟩
    · exact ih ht
    · cases e
  | @enters C A D m l calls h hl hroom htold ih =>
    obtain ⟨l', hl', rfl⟩ := ih (htold.pending_iff.1 ht).1
    by_cases he : l'.ticket = l.ticket
    · exact ⟨l, by simp, he.symm⟩
    · refine ⟨l', ?_, rfl⟩
      simp only [List.mem_append, List.mem_filter, List.mem_singleton] at hl' ⊢
      rcases hl' with hq | hw
      · exact .inl (.inl hq)
      · exact .inr ⟨hw, decide_eq_true he⟩
  | @expires C A D m u calls h htold ih =>
    obtain ⟨ht, hnone⟩ := htold.pending_iff.1 ht
    obtain ⟨l, hl, rfl⟩ := ih ht
    refine ⟨l, ?_, rfl⟩
    have hne : l.ticket ≠ u := fun he => by simp [he] at hnone
    simp only [List.mem_append, List.mem_filter] at hl ⊢
    exact hl.imp_right fun hw => ⟨hw, decide_eq_true hne⟩
  | @operates C A D m u k op queue calls now h hqueue htold ih =>
    obtain ⟨ht, hnone⟩ := htold.pending_iff.1 ht
    obtain ⟨l, hl, rfl⟩ := ih ht
    refine ⟨l, ?_, rfl⟩
    rw [hqueue, List.cons_append] at hl
    rcases List.mem_cons.1 hl with rfl | hl
    · simp at hnone
    · exact hl
  | @shuts C A D m u queue calls now h hqueue htold ih =>
    obtain ⟨ht, hnone⟩ := htold.pending_iff.1 ht
    obtain ⟨l, hl, rfl⟩ := ih ht
    rw [hqueue, List.cons_append] at hl
    rcases List.mem_cons.1 hl with rfl | hl
    · simp at hnone
    · have hmem := List.mem_map_of_mem (f := Letter.ticket) hl
      rw [if_pos hmem] at hnone
      split at hnone <;> cases hnone

/-- Whoever does not wait for an answer has one when the letter has come in. -/
theorem told_of_mem (h : Reaches settings C A D m) (hl : l ∈ A)
    (hno : l.message.isAwaited = false) : m.calls[l.ticket]? = some (some (.ok .done)) := by
  induction h with
  | new => cases hl
  | waits message h hopen ih => exact getElem?_concat_eq_some.2 (.inl (ih hl))
  | refused message h hclosed ih => exact getElem?_concat_eq_some.2 (.inl (ih hl))
  | enters h hl' hroom htold ih =>
    rw [htold.settled_iff]
    rcases List.mem_append.1 hl with hl | hl
    · exact .inl (ih hl)
    · obtain rfl := List.mem_singleton.1 hl
      exact .inr ⟨h.waiting_pending hl', if_pos ⟨rfl, hno⟩⟩
  | expires h htold ih | operates _ h _ htold ih | shuts _ h _ htold ih =>
    exact htold.settled_iff.2 (.inl (ih hl))

theorem due (h : Reaches settings C A D m) (hl : C[l.ticket]? = some l.message)
    (ho : m.calls[l.ticket]? = some (some o)) : Due settings A D (m.closed = true) l o := by
  induction h with
  | new => cases ho
  | waits message h hopen ih =>
    rcases getElem?_concat_eq_some.1 ho with ho | ⟨-, e⟩
    · exact ih (h.tickets.message_of_concat hl ho) ho
    · cases e
  | refused message h hclosed ih =>
    rcases getElem?_concat_eq_some.1 ho with ho | ⟨-, e⟩
    · exact ih (h.tickets.message_of_concat hl ho) ho
    · obtain rfl := Option.some.inj e
      exact .closed hclosed
  | @enters C A D m l' calls h hl' hroom htold ih =>
    rcases htold.settled_iff.1 ho with ho | ⟨-, hf⟩
    · exact (ih hl ho).mono (List.prefix_append ..) List.prefix_rfl id
    · obtain ⟨⟨he, hno⟩, hdone⟩ := Option.ite_none_right_eq_some.1 hf
      obtain rfl := Option.some.inj hdone
      have hlabel := h.tickets.labelled l' (List.mem_append_right _ hl')
      obtain rfl := eq_of_ticket hl hlabel he
      exact .accepted (by simp) hno
  | expires h htold ih =>
    rcases htold.settled_iff.1 ho with ho | ⟨-, hf⟩
    · exact ih hl ho
    · obtain ⟨-, hf⟩ := Option.ite_none_right_eq_some.1 hf
      obtain rfl := Option.some.inj hf
      rw [h.settings_eq]
      exact .timeout
  | @operates C A D m u k op queue calls now h hqueue htold ih =>
    rcases htold.settled_iff.1 ho with ho | ⟨hp, hf⟩
    · exact (ih hl ho).mono List.prefix_rfl (List.prefix_append ..) id
    · obtain ⟨he, hreply⟩ := Option.ite_none_right_eq_some.1 hf
      obtain rfl := Option.some.inj hreply
      obtain rfl := eq_of_ticket hl
        (h.tickets.labelled _ (List.mem_append_left _ (h.head_mem hqueue))) he
      -- A caller who does not wait for an answer would have one already.
      have haw : (Message.operation op).isAwaited = true := by
        by_contra hno
        rw [h.told_of_mem (h.head_mem hqueue) (by simpa using hno)] at hp
        cases hp
      rw [h.table_eq]
      exact .replied rfl haw
  | @shuts C A D m u queue calls now h hqueue htold ih =>
    rcases htold.settled_iff.1 ho with ho | ⟨hp, hf⟩
    · exact (ih hl ho).mono List.prefix_rfl (List.prefix_append ..) fun _ => rfl
    · split at hf
      next he =>
        obtain rfl := eq_of_ticket hl
          (h.tickets.labelled _ (List.mem_append_left _ (h.head_mem hqueue))) he
        obtain rfl := Option.some.inj hf
        exact .replied rfl rfl
      next =>
        obtain ⟨-, hf⟩ := Option.ite_none_right_eq_some.1 hf
        obtain rfl := Option.some.inj hf
        exact .closed rfl

end Reaches

end Mailbox

end SealedGraph.Registry
