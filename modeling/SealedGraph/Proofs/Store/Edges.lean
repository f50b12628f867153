import Mathlib.Data.List.Perm.Lattice
import SealedGraph.Proofs.Store.Action
import SealedGraph.Proofs.Store.Reach

/-!
# Links are made and cut as sets

An operation on edges treats its links one after the other, and a link may come up more than once.
What is left of that order is the order in which new children stand.

* `foldl_addTo`: what is added to a list in turn stands behind it, each once.
* `find?_foldl_modify`: one record after any links in turn were made, or cut, as a function of the
  links that start from it.
* `linksAdded_addEdges`, `linksRemoved_removeEdges`: the whole store, when nothing is refused.
* `edges_exact`: when an operation on edges is refused and what it does otherwise; cutting new links
  brings back what was there, and the given lists count as sets.
-/

namespace SealedGraph

namespace Store

/-! ### Lists that are added to in turn -/

theorem distinct_congr {seen seen' : List String} (h : ∀ x, x ∈ seen ↔ x ∈ seen')
    (xs : List String) : distinct seen xs = distinct seen' xs := by
  induction xs generalizing seen seen' with
  | nil => rfl
  | cons x xs ih =>
    have hc : seen.contains x = seen'.contains x := by
      rw [Bool.eq_iff_iff, List.contains_iff_mem, List.contains_iff_mem, h]
    have hcons : ∀ y, y ∈ x :: seen ↔ y ∈ x :: seen' := by simp [h]
    unfold distinct
    rw [hc, ih h, ih hcons]

theorem nodup_distinct (seen xs : List String) : (distinct seen xs).Nodup := by
  induction xs generalizing seen with
  | nil => exact List.nodup_nil
  | cons x xs ih =>
    unfold distinct
    split
    · exact ih seen
    · refine List.nodup_cons.2 ⟨fun hx => ?_, ih _⟩
      exact (mem_distinct.1 hx).2 (by simp)

theorem addTo_append_distinct (x : String) (l xs : List String) :
    Registry.addTo x l ++ distinct (Registry.addTo x l) xs = l ++ distinct l (x :: xs) := by
  unfold Registry.addTo
  by_cases hx : l.contains x = true
  · rw [if_pos hx, distinct, if_pos hx]
  · have hsame : ∀ y, y ∈ l ++ [x] ↔ y ∈ x :: l := by simp [or_comm]
    rw [if_neg hx, distinct, if_neg hx, distinct_congr hsame, List.append_assoc]
    rfl

/-- **What is added in turn** stands behind the rest, each once. -/
theorem foldl_addTo (xs l : List String) :
    xs.foldl (fun l x => Registry.addTo x l) l = l ++ distinct l xs := by
  induction xs generalizing l with
  | nil => simp [distinct]
  | cons x xs ih => rw [List.foldl_cons, ih, addTo_append_distinct]

/-- The targets of the links that start from a node. -/
def targets (links : List (String × String)) (source : String) : List String :=
  (links.filter fun e => e.1 = source).map Prod.snd

theorem mem_targets {links : List (String × String)} {source target : String} :
    target ∈ targets links source ↔ (source, target) ∈ links := by
  simp [targets]

theorem targets_cons_self (e : String × String) (links : List (String × String)) :
    targets (e :: links) e.1 = e.2 :: targets links e.1 := by
  simp [targets]

theorem targets_cons_of_ne {e : String × String} {source : String} (h : source ≠ e.1)
    (links : List (String × String)) : targets (e :: links) source = targets links source := by
  simp [targets, Ne.symm h]

end Store

open Store

/-! ### One record -/

namespace Record

/-- The record of a node that was linked to some targets. -/
def linkedTo (now : Timestamp) (targets : List String) (r : Record) : Record :=
  { r with
    children := r.children ++ distinct r.children targets
    modified := if targets = [] then r.modified else now }

/-- The record of a node that was cut off from some targets. -/
def cutFrom (now : Timestamp) (targets : List String) (r : Record) : Record :=
  { r with
    children := r.children.filter (· ∉ targets)
    modified := if ∃ c ∈ r.children, c ∈ targets then now else r.modified }

variable (now : Timestamp) (target : String) (targets : List String) (r : Record)

theorem linkedTo_nil : linkedTo now [] = id := by
  funext r
  simp [linkedTo, distinct]

theorem cutFrom_nil : cutFrom now [] = id := by
  funext r
  simp [cutFrom]

theorem linkedTo_singleton :
    r.linkedTo now [target] =
      { r with children := Registry.addTo target r.children, modified := now } := by
  have hone := addTo_append_distinct target r.children []
  simp only [distinct, List.append_nil] at hone
  simp [linkedTo, distinct, hone]

theorem linkedTo_cons :
    (r.linkedTo now [target]).linkedTo now targets = r.linkedTo now (target :: targets) := by
  rw [linkedTo_singleton]
  simp only [linkedTo, addTo_append_distinct, reduceCtorEq, if_false, ite_self]

theorem cutFrom_singleton :
    r.cutFrom now [target] =
      if r.children.contains target then
        { r with children := r.children.filter (· ≠ target), modified := now }
      else r := by
  by_cases h : target ∈ r.children
  · simp [cutFrom, h]
  · have hall : r.children.filter (fun c => ! decide (c = target)) = r.children := by
      rw [List.filter_eq_self]
      intro c hc
      have : c ≠ target := fun e => h (e ▸ hc)
      simp [this]
    simp [cutFrom, h, hall]

theorem cutFrom_cons :
    (r.cutFrom now [target]).cutFrom now targets = r.cutFrom now (target :: targets) := by
  have hcut : (∃ c ∈ r.children, c ∈ target :: targets) ↔
      (∃ c ∈ r.children.filter (· ∉ [target]), c ∈ targets) ∨ ∃ c ∈ r.children, c ∈ [target] := by
    constructor
    · rintro ⟨c, hc, hm⟩
      by_cases e : c = target
      · exact .inr ⟨c, hc, by simp [e]⟩
      · exact .inl ⟨c, by simp [hc, e], by simpa [e] using hm⟩
    · rintro (⟨c, hc, hm⟩ | ⟨c, hc, hm⟩)
      · exact ⟨c, (List.mem_filter.1 hc).1, List.mem_cons_of_mem _ hm⟩
      · exact ⟨c, hc, by simp [List.mem_singleton.1 hm]⟩
  have hfilter : ∀ c, (decide (c ∉ targets) && decide (c ∉ [target])) =
      decide (c ∉ target :: targets) := by
    intro c
    simp [Bool.and_comm]
  unfold cutFrom
  simp only [hcut, List.filter_filter, hfilter, ite_or]

end Record

namespace Store

/-! ### Links in turn -/

section Turn

variable (now : Timestamp) (links : List (String × String)) (s : Store) (uid : String)

/-- **Any changes in turn**, each made to the record that its link starts from, change a record by
the links that start from it, if the changes for some targets come to that for all of them. -/
theorem find?_foldl_modify {change : List String → Record → Record} (hnil : change [] = id)
    (hcons : ∀ target targets r, change targets (change [target] r) = change (target :: targets) r)
    {step : Store → String × String → Store}
    (hstep : ∀ s e, (step s e).nodes = s.nodes.modify e.1 (change [e.2])) :
    (links.foldl step s).nodes.find? uid =
      (s.nodes.find? uid).map (change (targets links uid)) := by
  induction links generalizing s with
  | nil => simp [targets, hnil]
  | cons e es ih =>
    rw [List.foldl_cons, ih, hstep, Index.find?_modify]
    by_cases he : uid = e.1
    · subst he
      rw [if_pos rfl, Option.map_map, targets_cons_self]
      congr 1
      funext r
      exact hcons e.2 (targets es e.1) r
    · rw [if_neg he, targets_cons_of_ne he]

theorem find?_foldl_link :
    (links.foldl (fun s e => s.link now e.1 e.2) s).nodes.find? uid =
      (s.nodes.find? uid).map (Record.linkedTo now (targets links uid)) := by
  refine find?_foldl_modify links s uid (Record.linkedTo_nil now) (Record.linkedTo_cons now)
    fun s e => ?_
  rw [funext (Record.linkedTo_singleton now e.2)]
  rfl

theorem find?_foldl_unlink :
    (links.foldl (fun s e => s.unlink now e.1 e.2) s).nodes.find? uid =
      (s.nodes.find? uid).map (Record.cutFrom now (targets links uid)) := by
  refine find?_foldl_modify links s uid (Record.cutFrom_nil now) (Record.cutFrom_cons now)
    fun s e => ?_
  rw [funext (Record.cutFrom_singleton now e.2)]
  rfl

end Turn

/-! ### The whole store -/

/-- The link from one node to another is one that an operation on edges is about. -/
def Between (subjects incoming outgoing : List String) (x y : String) : Prop :=
  x ∈ incoming ∧ y ∈ subjects ∨ x ∈ subjects ∧ y ∈ outgoing

instance (subjects incoming outgoing : List String) (x y : String) :
    Decidable (Between subjects incoming outgoing x y) := inferInstanceAs (Decidable (_ ∨ _))

/-- The same nodes are there, and nothing but their records can be different. -/
structure SameElsewhere (s t : Store) : Prop where
  lastUid : t.lastUid = s.lastUid
  accounts : t.accounts = s.accounts
  usernames : t.usernames = s.usernames
  hasNode : ∀ uid, t.hasNode uid = s.hasNode uid

/-- Links were added and nothing else was done: new children stand behind those that a node had,
each once, and a node counts as modified if it is a source. -/
structure LinksAdded (now : Timestamp) (subjects incoming outgoing : List String) (s t : Store) :
    Prop extends SameElsewhere s t where
  node : ∀ {uid r}, s.nodes.find? uid = some r → ∃ new modified,
    t.nodes.find? uid = some { r with children := r.children ++ new, modified := modified } ∧
    new.Nodup ∧ (∀ c, c ∈ new ↔ Between subjects incoming outgoing uid c ∧ c ∉ r.children) ∧
    ((∃ c, Between subjects incoming outgoing uid c) ∧ modified = now ∨
      (∀ c, ¬ Between subjects incoming outgoing uid c) ∧ modified = r.modified)
  links : ∀ {x y}, t.Links x y ↔ s.Links x y ∨ Between subjects incoming outgoing x y

/-- Links were removed and nothing else was done: the other children of a node stand as they stood,
and a node counts as modified if it lost one. -/
structure LinksRemoved (now : Timestamp) (subjects incoming outgoing : List String) (s t : Store) :
    Prop extends SameElsewhere s t where
  node : ∀ {uid r}, s.nodes.find? uid = some r → ∃ modified,
    t.nodes.find? uid = some { r with
      children := r.children.filter (¬ Between subjects incoming outgoing uid ·)
      modified := modified } ∧
    ((∃ c ∈ r.children, Between subjects incoming outgoing uid c) ∧ modified = now ∨
      (∀ c ∈ r.children, ¬ Between subjects incoming outgoing uid c) ∧ modified = r.modified)
  links : ∀ {x y}, t.Links x y ↔ s.Links x y ∧ ¬ Between subjects incoming outgoing x y

section Edges

variable {now : Timestamp} {subjects incoming outgoing : List String} {s : Store}

theorem mem_targets_edges {uid c : String} :
    c ∈ targets (edges subjects incoming outgoing) uid ↔
      Between subjects incoming outgoing uid c := by
  rw [mem_targets, mem_edges]
  rfl

theorem SameElsewhere.refl (s : Store) : SameElsewhere s s := ⟨rfl, rfl, rfl, fun _ => rfl⟩

theorem SameElsewhere.symm {t : Store} (h : SameElsewhere s t) : SameElsewhere t s :=
  ⟨h.lastUid.symm, h.accounts.symm, h.usernames.symm, fun uid => (h.hasNode uid).symm⟩

theorem SameElsewhere.trans {t u : Store} (h : SameElsewhere s t) (h' : SameElsewhere t u) :
    SameElsewhere s u where
  lastUid := h'.lastUid.trans h.lastUid
  accounts := h'.accounts.trans h.accounts
  usernames := h'.usernames.trans h.usernames
  hasNode uid := (h'.hasNode uid).trans (h.hasNode uid)

theorem Alters.sameElsewhere {W : String → Prop} {E : String → String → Prop} {t : Store}
    (h : Alters W E s t) : SameElsewhere s t where
  lastUid := h.lastUid
  accounts := h.accounts
  usernames := h.usernames
  hasNode uid := by
    unfold hasNode Index.contains
    cases hr : s.nodes.find? uid with
    | none => rw [h.noNode hr]
    | some r =>
      obtain ⟨r', hr', -⟩ := h.node hr
      rw [hr']
      rfl

theorem classOf_requireNodes {uids : List String} {e : StoreError}
    (h : s.requireNodes uids = .error e) : e.classOf = .notFound := by
  fun_induction requireNodes s uids with
  | case1 => cases h
  | case2 _ _ _ ih => exact ih h
  | case3 =>
    cases h
    rfl

/-- **Edges are refused or added**: refused as not found unless all the nodes are there, and as
invalid then if a subject is also named as a neighbour. -/
theorem addEdges_cases (s : Store) (now : Timestamp) (subjects incoming outgoing : List String) :
    (∃ e, s.addEdges now subjects incoming outgoing = (.error e, s) ∧ e.classOf = .notFound ∧
      ¬ ∀ n ∈ subjects ++ incoming ++ outgoing, s.hasNode n = true) ∨
    (∃ e, s.addEdges now subjects incoming outgoing = (.error e, s) ∧ e.classOf = .invalid ∧
      (∀ n ∈ subjects ++ incoming ++ outgoing, s.hasNode n = true) ∧
      ¬ ∀ x ∈ subjects, x ∉ incoming ∧ x ∉ outgoing) ∨
    s.addEdges now subjects incoming outgoing =
        (.ok (), (edges subjects incoming outgoing).foldl (fun s e => s.link now e.1 e.2) s) ∧
      (∀ n ∈ subjects ++ incoming ++ outgoing, s.hasNode n = true) ∧
      ∀ x ∈ subjects, x ∉ incoming ∧ x ∉ outgoing := by
  unfold addEdges
  have hiff : s.requireNodes (subjects ++ incoming ++ outgoing) = .ok () ↔
      ∀ n ∈ subjects ++ incoming ++ outgoing, s.hasNode n = true := requireNodes_eq_ok_iff
  split
  · rename_i e he
    exact .inl ⟨e, rfl, classOf_requireNodes he, fun h => by rw [hiff.2 h] at he; cases he⟩
  · rename_i hreq
    split
    · rename_i uid hself
      refine .inr (.inl ⟨_, rfl, rfl, hiff.1 hreq, fun h => ?_⟩)
      have hboth := List.find?_some hself
      simp [h uid (List.mem_of_find?_eq_some hself)] at hboth
    · rename_i hself
      exact .inr (.inr ⟨rfl, hiff.1 hreq, by simpa [List.find?_eq_none] using hself⟩)

/-- **Edges are refused or removed.** -/
theorem removeEdges_cases (s : Store) (now : Timestamp)
    (subjects incoming outgoing : List String) :
    (∃ e, s.removeEdges now subjects incoming outgoing = (.error e, s) ∧ e.classOf = .notFound ∧
      ¬ ∀ n ∈ subjects ++ incoming ++ outgoing, s.hasNode n = true) ∨
    s.removeEdges now subjects incoming outgoing =
        (.ok (), (edges subjects incoming outgoing).foldl (fun s e => s.unlink now e.1 e.2) s) ∧
      ∀ n ∈ subjects ++ incoming ++ outgoing, s.hasNode n = true := by
  unfold removeEdges
  have hiff : s.requireNodes (subjects ++ incoming ++ outgoing) = .ok () ↔
      ∀ n ∈ subjects ++ incoming ++ outgoing, s.hasNode n = true := requireNodes_eq_ok_iff
  split
  · rename_i e he
    exact .inl ⟨e, rfl, classOf_requireNodes he, fun h => by rw [hiff.2 h] at he; cases he⟩
  · rename_i hreq
    exact .inr ⟨rfl, hiff.1 hreq⟩

/-- **The outcome of adding edges**, but for the node that an error names. -/
theorem outcome_addEdges (s : Store) (now : Timestamp) (subjects incoming outgoing : List String) :
    (s.addEdges now subjects incoming outgoing).1.mapError StoreError.classOf =
      if ∀ n ∈ subjects ++ incoming ++ outgoing, s.hasNode n = true then
        if ∀ x ∈ subjects, x ∉ incoming ∧ x ∉ outgoing then .ok () else .error .invalid
      else .error .notFound := by
  rcases addEdges_cases s now subjects incoming outgoing with ⟨e, he, hc, hno⟩ |
    ⟨e, he, hc, hyes, hno⟩ | ⟨he, hyes, hyes'⟩
  · rw [he, if_neg hno, ← hc]
    rfl
  · rw [he, if_pos hyes, if_neg hno, ← hc]
    rfl
  · rw [he, if_pos hyes, if_pos hyes']
    rfl

/-- **The outcome of removing edges**, but for the node that an error names. -/
theorem outcome_removeEdges (s : Store) (now : Timestamp)
    (subjects incoming outgoing : List String) :
    (s.removeEdges now subjects incoming outgoing).1.mapError StoreError.classOf =
      if ∀ n ∈ subjects ++ incoming ++ outgoing, s.hasNode n = true then .ok ()
      else .error .notFound := by
  rcases removeEdges_cases s now subjects incoming outgoing with ⟨e, he, hc, hno⟩ | ⟨he, hyes⟩
  · rw [he, if_neg hno, ← hc]
    rfl
  · rw [he, if_pos hyes]
    rfl

theorem addEdges_eq_ok_iff :
    (s.addEdges now subjects incoming outgoing).1 = .ok () ↔
      (∀ n ∈ subjects ++ incoming ++ outgoing, s.hasNode n = true) ∧
        ∀ x ∈ subjects, x ∉ incoming ∧ x ∉ outgoing := by
  rcases addEdges_cases s now subjects incoming outgoing with ⟨e, he, -, hno⟩ |
    ⟨e, he, -, -, hno⟩ | ⟨he, hyes⟩
  · simp only [he, reduceCtorEq, false_iff]
    exact fun h => hno h.1
  · simp only [he, reduceCtorEq, false_iff]
    exact fun h => hno h.2
  · simp only [he, true_iff]
    exact hyes

theorem removeEdges_eq_ok_iff :
    (s.removeEdges now subjects incoming outgoing).1 = .ok () ↔
      ∀ n ∈ subjects ++ incoming ++ outgoing, s.hasNode n = true := by
  rcases removeEdges_cases s now subjects incoming outgoing with ⟨e, he, -, hno⟩ | ⟨he, hyes⟩
  · simp only [he, reduceCtorEq, false_iff]
    exact hno
  · simp only [he, true_iff]
    exact hyes

theorem addEdges_of_ne_ok (h : (s.addEdges now subjects incoming outgoing).1 ≠ .ok ()) :
    (s.addEdges now subjects incoming outgoing).2 = s := by
  rcases addEdges_cases s now subjects incoming outgoing with ⟨e, he, -⟩ | ⟨e, he, -⟩ | ⟨he, -⟩
  · rw [he]
  · rw [he]
  · rw [he] at h
    exact absurd rfl h

theorem removeEdges_of_ne_ok (h : (s.removeEdges now subjects incoming outgoing).1 ≠ .ok ()) :
    (s.removeEdges now subjects incoming outgoing).2 = s := by
  rcases removeEdges_cases s now subjects incoming outgoing with ⟨e, he, -⟩ | ⟨he, -⟩
  · rw [he]
  · rw [he] at h
    exact absurd rfl h

/-- The two nodes of a link that the operation is about are among those that were named. -/
theorem Between.mem {x y : String} (h : Between subjects incoming outgoing x y) :
    x ∈ subjects ++ incoming ++ outgoing ∧ y ∈ subjects ++ incoming ++ outgoing := by
  rcases h with ⟨hx, hy⟩ | ⟨hx, hy⟩
  · simp [hx, hy]
  · simp [hx, hy]

/-- **Edges that are not refused** are added as a set. -/
theorem linksAdded_addEdges
    (h : (s.addEdges now subjects incoming outgoing).1 = .ok ()) :
    LinksAdded now subjects incoming outgoing s (s.addEdges now subjects incoming outgoing).2 := by
  have helse :=
    (alters_addEdges (W := fun _ => False) now subjects incoming outgoing s).sameElsewhere
  obtain ⟨hthere, -⟩ := addEdges_eq_ok_iff.1 h
  have hfind : ∀ uid, (s.addEdges now subjects incoming outgoing).2.nodes.find? uid =
      (s.nodes.find? uid).map
        (Record.linkedTo now (targets (edges subjects incoming outgoing) uid)) := by
    intro uid
    rcases addEdges_cases s now subjects incoming outgoing with ⟨e, he, -⟩ | ⟨e, he, -⟩ | ⟨he, -⟩
    · rw [he] at h
      cases h
    · rw [he] at h
      cases h
    · rw [he]
      exact find?_foldl_link now _ s uid
  refine ⟨helse, fun {uid r} hr => ?_, fun {x y} => ?_⟩
  · refine ⟨distinct r.children (targets (edges subjects incoming outgoing) uid),
      if targets (edges subjects incoming outgoing) uid = [] then r.modified else now,
      by rw [hfind, hr]; rfl, nodup_distinct _ _, fun c => by rw [mem_distinct, mem_targets_edges],
      ?_⟩
    by_cases hnil : targets (edges subjects incoming outgoing) uid = []
    · refine .inr ⟨fun c hc => ?_, if_pos hnil⟩
      rw [← mem_targets_edges, hnil] at hc
      cases hc
    · obtain ⟨c, hc⟩ := List.exists_mem_of_ne_nil _ hnil
      exact .inl ⟨⟨c, mem_targets_edges.1 hc⟩, if_neg hnil⟩
  · unfold Links
    rw [hfind]
    cases hr : s.nodes.find? x with
    | none =>
      simp only [Option.map_none, reduceCtorEq, false_and, exists_false, false_or, false_iff]
      intro hb
      obtain ⟨r, hr'⟩ := Index.contains_iff.1 (hthere x hb.mem.1)
      rw [hr] at hr'
      cases hr'
    | some r =>
      simp only [Option.map_some, Option.some.injEq, exists_eq_left', Record.linkedTo,
        List.mem_append, mem_distinct, mem_targets_edges]
      tauto

/-- **Edges that are not refused** are removed as a set. -/
theorem linksRemoved_removeEdges
    (h : (s.removeEdges now subjects incoming outgoing).1 = .ok ()) :
    LinksRemoved now subjects incoming outgoing s
      (s.removeEdges now subjects incoming outgoing).2 := by
  have helse :=
    (alters_removeEdges (W := fun _ => False) now subjects incoming outgoing s).sameElsewhere
  have hfind : ∀ uid, (s.removeEdges now subjects incoming outgoing).2.nodes.find? uid =
      (s.nodes.find? uid).map
        (Record.cutFrom now (targets (edges subjects incoming outgoing) uid)) := by
    intro uid
    rcases removeEdges_cases s now subjects incoming outgoing with ⟨e, he, -⟩ | ⟨he, -⟩
    · rw [he] at h
      cases h
    · rw [he]
      exact find?_foldl_unlink now _ s uid
  refine ⟨helse, fun {uid r} hr => ?_, fun {x y} => ?_⟩
  · have hcut : r.cutFrom now (targets (edges subjects incoming outgoing) uid) = { r with
        children := r.children.filter (¬ Between subjects incoming outgoing uid ·)
        modified := if ∃ c ∈ r.children, Between subjects incoming outgoing uid c then now
          else r.modified } := by
      simp only [Record.cutFrom, mem_targets_edges]
    refine ⟨_, by rw [hfind, hr, Option.map_some, hcut], ?_⟩
    by_cases hc : ∃ c ∈ r.children, Between subjects incoming outgoing uid c
    · exact .inl ⟨hc, if_pos hc⟩
    · exact .inr ⟨by simpa using hc, if_neg hc⟩
  · unfold Links
    rw [hfind]
    cases hr : s.nodes.find? x with
    | none => simp
    | some r => simp [Record.cutFrom, mem_targets_edges]

/-! ### There and back -/

/-- A store again, but for the times at which nodes were modified. -/
structure Restored (s t : Store) : Prop extends SameElsewhere s t where
  node : ∀ {uid r}, s.nodes.find? uid = some r →
    ∃ modified, t.nodes.find? uid = some { r with modified := modified }

/-- Cutting all of the links that were made leaves the children of before, if none of the links was
there. -/
theorem LinksAdded.restored {t u : Store} {later : Timestamp}
    (added : LinksAdded now subjects incoming outgoing s t)
    (removed : LinksRemoved later subjects incoming outgoing t u)
    (new : ∀ x y, Between subjects incoming outgoing x y → ¬ s.Links x y) : Restored s u where
  toSameElsewhere := added.toSameElsewhere.trans removed.toSameElsewhere
  node {uid r} hr := by
    obtain ⟨fresh, modified, ht, -, hfresh, -⟩ := added.node hr
    obtain ⟨modified', hu, -⟩ := removed.node ht
    have hold : r.children.filter (¬ Between subjects incoming outgoing uid ·) = r.children := by
      rw [List.filter_eq_self]
      intro c hc
      have := fun hb => new uid c hb ⟨r, hr, hc⟩
      simpa using this
    have hgone : fresh.filter (¬ Between subjects incoming outgoing uid ·) = [] := by
      rw [List.filter_eq_nil_iff]
      intro c hc
      simpa using ((hfresh c).1 hc).1
    refine ⟨modified', hu.trans ?_⟩
    rw [List.filter_append, hold, hgone, List.append_nil]

/-- **New links that are cut again** leave nothing behind. -/
theorem removeEdges_addEdges (h : (s.addEdges now subjects incoming outgoing).1 = .ok ())
    (new : ∀ x y, Between subjects incoming outgoing x y → ¬ s.Links x y) (later : Timestamp) :
    (((s.addEdges now subjects incoming outgoing).2.removeEdges later subjects incoming
        outgoing).1 = .ok ()) ∧
      Restored s ((s.addEdges now subjects incoming outgoing).2.removeEdges later subjects incoming
        outgoing).2 := by
  have added := linksAdded_addEdges h
  have hok : ((s.addEdges now subjects incoming outgoing).2.removeEdges later subjects incoming
      outgoing).1 = .ok () := by
    refine removeEdges_eq_ok_iff.2 fun n hn => ?_
    rw [added.hasNode]
    exact (addEdges_eq_ok_iff.1 h).1 n hn
  exact ⟨hok, added.restored (linksRemoved_removeEdges hok) new⟩

/-! ### The lists count as sets -/

/-- Two outcomes are the same, but for the node that an error names. -/
def SameOutcome (a b : Except StoreError Unit) : Prop :=
  a.mapError StoreError.classOf = b.mapError StoreError.classOf

theorem SameOutcome.eq_ok_iff {a b : Except StoreError Unit} (h : SameOutcome a b) :
    a = .ok () ↔ b = .ok () := by
  unfold SameOutcome at h
  cases a <;> cases b <;> simp_all [Except.mapError]

/-- Two stores are the same, but for the order in which children stand behind those of before. -/
structure SameButOrder (s t t' : Store) : Prop extends SameElsewhere t t' where
  node : ∀ {uid r}, s.nodes.find? uid = some r → ∃ new new' modified,
    t.nodes.find? uid = some { r with children := r.children ++ new, modified := modified } ∧
    t'.nodes.find? uid = some { r with children := r.children ++ new', modified := modified } ∧
    new.Perm new'

/-- Two stores are the same. -/
structure SameRecords (t t' : Store) : Prop extends SameElsewhere t t' where
  node : ∀ uid, t'.nodes.find? uid = t.nodes.find? uid

theorem SameButOrder.refl (s : Store) : SameButOrder s s s where
  toSameElsewhere := .refl s
  node {uid r} hr := ⟨[], [], r.modified, by simpa using hr, by simpa using hr, .refl _⟩

theorem SameRecords.refl (s : Store) : SameRecords s s where
  toSameElsewhere := .refl s
  node _ := rfl

/-- The time of a modification is settled by whether there was one. -/
theorem eq_of_either {p q : Prop} {old m m' : Timestamp} (hpq : p → ¬ q)
    (h : p ∧ m = now ∨ q ∧ m = old) (h' : p ∧ m' = now ∨ q ∧ m' = old) : m' = m := by
  rcases h with ⟨hp, rfl⟩ | ⟨hq, rfl⟩
  · rcases h' with ⟨-, rfl⟩ | ⟨hq, -⟩
    · rfl
    · exact absurd hq (hpq hp)
  · rcases h' with ⟨hp, -⟩ | ⟨-, rfl⟩
    · exact absurd hq (hpq hp)
    · rfl

section Sets

variable {subjects' incoming' outgoing' : List String} (hS : ∀ x, x ∈ subjects ↔ x ∈ subjects')
  (hI : ∀ x, x ∈ incoming ↔ x ∈ incoming') (hO : ∀ x, x ∈ outgoing ↔ x ∈ outgoing')

include hS hI hO

theorem between_congr (x y : String) :
    Between subjects incoming outgoing x y ↔ Between subjects' incoming' outgoing' x y := by
  unfold Between
  rw [hS, hS, hI, hO]

theorem forall_mem_congr {P : String → Prop} :
    (∀ n ∈ subjects ++ incoming ++ outgoing, P n) ↔
      ∀ n ∈ subjects' ++ incoming' ++ outgoing', P n := by
  simp only [List.mem_append, hS, hI, hO]

theorem sameOutcome_addEdges (s : Store) (now : Timestamp) :
    SameOutcome (s.addEdges now subjects incoming outgoing).1
      (s.addEdges now subjects' incoming' outgoing').1 := by
  have hapart : (∀ x ∈ subjects, x ∉ incoming ∧ x ∉ outgoing) ↔
      ∀ x ∈ subjects', x ∉ incoming' ∧ x ∉ outgoing' := by
    simp only [hS, hI, hO]
  unfold SameOutcome
  rw [outcome_addEdges, outcome_addEdges]
  exact if_congr (forall_mem_congr hS hI hO) (if_congr hapart rfl rfl) rfl

theorem sameOutcome_removeEdges (s : Store) (now : Timestamp) :
    SameOutcome (s.removeEdges now subjects incoming outgoing).1
      (s.removeEdges now subjects' incoming' outgoing').1 := by
  unfold SameOutcome
  rw [outcome_removeEdges, outcome_removeEdges]
  exact if_congr (forall_mem_congr hS hI hO) rfl rfl

/-- **What is added does not depend on the order** or on how often it is named, but for the places
of new children. -/
theorem LinksAdded.sameButOrder {t t' : Store}
    (h : LinksAdded now subjects incoming outgoing s t)
    (h' : LinksAdded now subjects' incoming' outgoing' s t') : SameButOrder s t t' where
  toSameElsewhere := h.toSameElsewhere.symm.trans h'.toSameElsewhere
  node {uid r} hr := by
    obtain ⟨new, modified, ht, hnd, hnew, hm⟩ := h.node hr
    obtain ⟨new', modified', ht', hnd', hnew', hm'⟩ := h'.node hr
    simp only [← between_congr hS hI hO] at hnew' hm'
    have hsame : modified' = modified := eq_of_either (fun ⟨c, hc⟩ hno => hno c hc) hm hm'
    rw [hsame] at ht'
    refine ⟨new, new', modified, ht, ht', (List.perm_ext_iff_of_nodup hnd hnd').2 fun c => ?_⟩
    rw [hnew, hnew']

/-- **What is removed does not depend on the order** or on how often it is named. -/
theorem LinksRemoved.sameRecords {t t' : Store}
    (h : LinksRemoved now subjects incoming outgoing s t)
    (h' : LinksRemoved now subjects' incoming' outgoing' s t') : SameRecords t t' where
  toSameElsewhere := h.toSameElsewhere.symm.trans h'.toSameElsewhere
  node uid := by
    cases hr : s.nodes.find? uid with
    | none =>
      have hno : s.hasNode uid = false := Index.contains_eq_false_iff.2 hr
      rw [Index.contains_eq_false_iff.1 ((h.hasNode uid).trans hno),
        Index.contains_eq_false_iff.1 ((h'.hasNode uid).trans hno)]
    | some r =>
      obtain ⟨modified, ht, hm⟩ := h.node hr
      obtain ⟨modified', ht', hm'⟩ := h'.node hr
      simp only [← between_congr hS hI hO] at ht' hm'
      have hsame : modified' = modified :=
        eq_of_either (fun ⟨c, hc, hb⟩ hno => hno c hc hb) hm hm'
      rw [ht, ht', hsame]

theorem sameButOrder_addEdges (s : Store) (now : Timestamp) :
    SameButOrder s (s.addEdges now subjects incoming outgoing).2
      (s.addEdges now subjects' incoming' outgoing').2 := by
  have hsame := sameOutcome_addEdges hS hI hO s now
  by_cases h : (s.addEdges now subjects incoming outgoing).1 = .ok ()
  · exact (linksAdded_addEdges h).sameButOrder hS hI hO
      (linksAdded_addEdges (hsame.eq_ok_iff.1 h))
  · have h' := fun e => h (hsame.eq_ok_iff.2 e)
    rw [addEdges_of_ne_ok h, addEdges_of_ne_ok h']
    exact .refl s

theorem sameRecords_removeEdges (s : Store) (now : Timestamp) :
    SameRecords (s.removeEdges now subjects incoming outgoing).2
      (s.removeEdges now subjects' incoming' outgoing').2 := by
  have hsame := sameOutcome_removeEdges hS hI hO s now
  by_cases h : (s.removeEdges now subjects incoming outgoing).1 = .ok ()
  · exact (linksRemoved_removeEdges h).sameRecords hS hI hO
      (linksRemoved_removeEdges (hsame.eq_ok_iff.1 h))
  · have h' := fun e => h (hsame.eq_ok_iff.2 e)
    rw [removeEdges_of_ne_ok h, removeEdges_of_ne_ok h']
    exact .refl s

end Sets

end Edges

/-- **Operations on edges are exact.** Links are added if all the nodes are there and no subject is
named as a neighbour too, and removed if all the nodes are there. What is linked then is what was
linked before, with the links that the operation is about or without them; the children that a node
keeps stand as they stood, and nothing else is different but the times at which sources were
modified. Therefore links that are new leave nothing behind when they are cut again, and a node
may be named in any place and any number of times. -/
theorem edges_exact (s : Store) (now : Timestamp) (subjects incoming outgoing : List String) :
    ((s.addEdges now subjects incoming outgoing).1 = .ok () ↔
      (∀ n ∈ subjects ++ incoming ++ outgoing, s.hasNode n = true) ∧
        ∀ x ∈ subjects, x ∉ incoming ∧ x ∉ outgoing) ∧
    ((s.removeEdges now subjects incoming outgoing).1 = .ok () ↔
      ∀ n ∈ subjects ++ incoming ++ outgoing, s.hasNode n = true) ∧
    ((s.addEdges now subjects incoming outgoing).1 = .ok () →
      LinksAdded now subjects incoming outgoing s
          (s.addEdges now subjects incoming outgoing).2 ∧
        ((∀ x y, Between subjects incoming outgoing x y → ¬ s.Links x y) → ∀ later,
          ((s.addEdges now subjects incoming outgoing).2.removeEdges later subjects incoming
              outgoing).1 = .ok () ∧
            Restored s ((s.addEdges now subjects incoming outgoing).2.removeEdges later subjects
              incoming outgoing).2)) ∧
    ((s.removeEdges now subjects incoming outgoing).1 = .ok () →
      LinksRemoved now subjects incoming outgoing s
        (s.removeEdges now subjects incoming outgoing).2) ∧
    ∀ subjects' incoming' outgoing', (∀ x, x ∈ subjects ↔ x ∈ subjects') →
      (∀ x, x ∈ incoming ↔ x ∈ incoming') → (∀ x, x ∈ outgoing ↔ x ∈ outgoing') →
      SameOutcome (s.addEdges now subjects incoming outgoing).1
          (s.addEdges now subjects' incoming' outgoing').1 ∧
        SameButOrder s (s.addEdges now subjects incoming outgoing).2
          (s.addEdges now subjects' incoming' outgoing').2 ∧
        SameOutcome (s.removeEdges now subjects incoming outgoing).1
          (s.removeEdges now subjects' incoming' outgoing').1 ∧
        SameRecords (s.removeEdges now subjects incoming outgoing).2
          (s.removeEdges now subjects' incoming' outgoing').2 := by
  refine ⟨addEdges_eq_ok_iff, removeEdges_eq_ok_iff, fun h => ⟨linksAdded_addEdges h, ?_⟩,
    linksRemoved_removeEdges, fun subjects' incoming' outgoing' hS hI hO => ?_⟩
  · exact fun new later => removeEdges_addEdges h new later
  · exact ⟨sameOutcome_addEdges hS hI hO s now, sameButOrder_addEdges hS hI hO s now,
      sameOutcome_removeEdges hS hI hO s now, sameRecords_removeEdges hS hI hO s now⟩

namespace Crossed

/-- Three nodes, none of which links to any. -/
def store : Store :=
  after [.createAccount ⟨"ann", "", "user", none⟩,
    .create default 0 [] "0x1" none [draft "$a" [], draft "$b" [], draft "$c" []]]

theorem not_links (x y : String) : ¬ store.Links x y := by
  rintro ⟨r, hr, hy⟩
  have hall : ∀ e ∈ store.nodes.entries, e.2.children = [] := by decide +kernel
  rw [hall _ (Index.mem_of_find? hr)] at hy
  cases hy

end Crossed

open Crossed in
/-- A node is named twice, and another one on both sides of it. -/
theorem edges_exact_crossed :
    (store.addEdges default ["0x2", "0x2"] ["0x3"] ["0x4", "0x3"]).1 = .ok () ∧
    LinksAdded default ["0x2", "0x2"] ["0x3"] ["0x4", "0x3"] store
      (store.addEdges default ["0x2", "0x2"] ["0x3"] ["0x4", "0x3"]).2 ∧
    Restored store ((store.addEdges default ["0x2", "0x2"] ["0x3"] ["0x4", "0x3"]).2.removeEdges
      default ["0x2", "0x2"] ["0x3"] ["0x4", "0x3"]).2 ∧
    LinksRemoved default ["0x2", "0x2"] ["0x3"] ["0x4", "0x3"] store
      (store.removeEdges default ["0x2", "0x2"] ["0x3"] ["0x4", "0x3"]).2 ∧
    SameButOrder store (store.addEdges default ["0x2", "0x2"] ["0x3"] ["0x4", "0x3"]).2
      (store.addEdges default ["0x2"] ["0x3"] ["0x3", "0x4"]).2 := by
  obtain ⟨hadd, hremove, hadded, hremoved, hsets⟩ :=
    edges_exact store default ["0x2", "0x2"] ["0x3"] ["0x4", "0x3"]
  have hthere : ∀ n ∈ ["0x2", "0x2"] ++ ["0x3"] ++ ["0x4", "0x3"], store.hasNode n = true := by
    decide +kernel
  have hok := hadd.2 ⟨hthere, by decide⟩
  obtain ⟨added, back⟩ := hadded hok
  refine ⟨hok, added, (back (fun x y _ => not_links x y) default).2,
    hremoved (hremove.2 hthere), ?_⟩
  exact (hsets ["0x2"] ["0x3"] ["0x3", "0x4"] (by simp) (by simp) (by simp [or_comm])).2.1

end Store

end SealedGraph
