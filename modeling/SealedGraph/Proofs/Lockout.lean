import Mathlib.Data.List.DropRight
import SealedGraph.Proofs.Http.Names

/-!
# Whose failures lock a name

Failures are counted under a name, and a name may come to another account. An account that a change
of accounts gives a name to finds nothing under it, since the change clears it. An account that is
made with a name finds whatever was left there by those who had the name before.

* `countSince`: how often something happened since a count was last reset.
* `failureCount_le_standing`: no more failures count than there were since the name was last
  cleared.
* `standing_le`: those are failures of the account that has the name, or were left behind before it
  was made.
* `lockout_earned_or_left`: what that says of logins that are refused, and what a change of accounts
  clears.
* `lockout_inherited`: a new account that is locked out without any failure of its own.
-/

namespace SealedGraph

open Attempt
open Registry (Link Operation Part Table)

/-! ### One entry for a name -/

namespace Registry

theorem Link.Told.nodup_failures {parts : List Part} {l l' : Link} (h : Told parts l l')
    (hn : l.table.failures.keys.Nodup) : l'.table.failures.keys.Nodup := by
  induction h with
  | nothing => exact hn
  | @call l' _ k now op hop ih =>
    rcases table_call l' now op with ht | ht
    · rw [ht]
      exact ih
    · rw [ht]
      exact op.nodup_failures now ih

end Registry

/-! ### What is cleared -/

section Cleared

variable {m : Moment} {u : String} {s : Server} (now : Nat)

theorem failureCount_forgetFailures (hr : s.registry.isResponsive = true) :
    (((Cleanup.forgetFailures u).perform m).run s).2.failureCount u now = 0 := by
  obtain ⟨l, hl, ht, -⟩ := Service.call_of_isResponsive hr m (.resetFailures u)
  unfold Cleanup.perform
  simp only
  rw [hl]
  show l.table.failureCount u now = 0
  rw [ht]
  exact Table.failureCount_resetFailures.trans (if_pos rfl)

/-- **What is to be forgotten is forgotten**, whatever else the registry is told. -/
theorem failureCount_tell_of_mem (hr : s.registry.isResponsive = true) {todo : List Cleanup}
    (h : Cleanup.forgetFailures u ∈ todo) : ((tell m todo).run s).2.failureCount u now = 0 := by
  induction todo generalizing s with
  | nil => cases h
  | cons c cs ih =>
    obtain ⟨t, ht, hrt, -⟩ := active_cleanup m c hr
    unfold tell
    rw [run_bind_ok ht]
    by_cases hcs : Cleanup.forgetFailures u ∈ cs
    · exact ih hrt hcs
    · obtain rfl := (List.mem_cons.1 h).resolve_right hcs
      have hzero := failureCount_forgetFailures (m := m) (u := u) now hr
      rw [ht] at hzero
      rw [failureCount_tell (m := m) now hrt hcs]
      exact hzero

/-- **A change of accounts that succeeds** clears the failures with every name that it answers. -/
theorem failureCount_of_changed (hr : s.registry.isResponsive = true) {updates : List AccountUpdate}
    {users : List User} {t : Server} (h : (updateAccounts m updates).run s = (.ok users, t))
    {user : User} (huser : user ∈ users) (hname : user.username = some u) :
    t.failureCount u now = 0 := by
  unfold updateAccounts at h
  obtain ⟨users', s', hstore, h⟩ := run_bind_eq_ok h
  have hr' : s'.registry.isResponsive = true := by
    rw [Service.run_onStore] at hstore
    split at hstore
    · cases hstore
      exact hr
    · cases hstore
  obtain ⟨_, t', htell, h⟩ := run_bind_eq_ok h
  obtain ⟨rfl, rfl⟩ := run_pure_eq_ok h
  have hforget : Cleanup.forgetFailures u ∈ cleanups (credentialChanges updates) users :=
    mem_cleanups_forgetFailures.2 ⟨user, huser, hname⟩
  have hzero := failureCount_tell_of_mem (m := m) now hr' hforget
  rw [htell] at hzero
  exact hzero

end Cleared

namespace Http

/-! ### Counts that are reset -/

namespace Exchange

variable (x : Exchange)

/-- A login with the name of the account that failed on the password. -/
def fails (uid : String) : Bool :=
  match x.outcome with
  | .login r (.error .invalidLogin) => x.before.store.usernames.find? r.username = some uid
  | _ => false

/-- What wipes the slate of an account clean: it is made, a login with its name succeeds, or it is
changed. -/
def renews (uid : String) : Bool :=
  match x.outcome with
  | .login r (.ok _) => x.before.store.usernames.find? r.username = some uid
  | _ => x.made?.any (·.uid = uid) || x.changed.any (·.uid = uid)

/-- What clears the failures with a name: a login with it succeeds, or a change of accounts answers
one that has it. -/
def clears (u : String) : Bool :=
  match x.outcome with
  | .login r (.ok _) => r.username = u
  | _ => x.changed.any (·.username = some u)

variable {x}

theorem clears_iff {u : String} : x.clears u = true ↔ x.Admits u ∨ x.Pardons u := by
  rw [pardons_iff]
  unfold clears Admits
  split
  · rename_i r issued ho
    have hchanged : x.changed = [] :=
      changed_eq_nil fun c request users h => by rw [ho] at h; cases h
    simp only [hchanged, ho, Outcome.login.injEq, Except.ok.injEq, decide_eq_true_eq]
    simp
  · rename_i hno
    rw [List.any_eq_true]
    constructor
    · rintro ⟨user, huser, hname⟩
      exact .inr ⟨user, huser, of_decide_eq_true hname⟩
    · rintro (⟨r, issued, ho, -⟩ | ⟨user, huser, hname⟩)
      · exact absurd ho (hno r issued)
      · exact ⟨user, huser, decide_eq_true hname⟩

theorem clears_of_mem_changed {u : String} {user : User} (huser : user ∈ x.changed)
    (hname : user.username = some u) : x.clears u = true :=
  clears_iff.2 (.inr (pardons_iff.2 ⟨user, huser, hname⟩))

theorem fails_of_misses {u uid : String} (h : x.misses u = true)
    (hu : x.before.store.usernames.find? u = some uid) : x.fails uid = true := by
  obtain ⟨⟨r, ho, rfl⟩, -⟩ := misses_iff.1 h
  unfold fails
  rw [ho]
  exact decide_eq_true hu

end Exchange

/-- How often something happened since the count was last reset. -/
def countSince (reset event : Exchange → Bool) (xs : List Exchange) : Nat :=
  (xs.rtakeWhile fun x => !reset x).countP event

theorem countSince_concat (reset event : Exchange → Bool) (xs : List Exchange) (x : Exchange) :
    countSince reset event (xs ++ [x]) =
      if reset x then 0 else countSince reset event xs + (if event x then 1 else 0) := by
  unfold countSince
  rw [List.rtakeWhile_concat]
  cases reset x with
  | true => rfl
  | false => simp [List.countP_append, List.countP_singleton]

theorem countSince_le {reset event event' : Exchange → Bool} {xs : List Exchange}
    (h : ∀ x ∈ xs, event x = true → event' x = true) :
    countSince reset event xs ≤ countSince reset event' xs :=
  List.countP_mono_left fun x hx => h x ((List.rtakeWhile_suffix _ _).subset hx)

/-- The failures with a name since it was last cleared. -/
def standing (s : Server) (u : String) (visits : List Visit) : Nat :=
  countSince (·.clears u) (·.misses u) (transcript s visits)

/-- The failures of an account since it was made, got in, or was changed, whichever came last. -/
def ownFailures (s : Server) (uid : String) (visits : List Visit) : Nat :=
  countSince (·.renews uid) (·.fails uid) (transcript s visits)

/-- The failures with a name, since it was last cleared, that were made before there was the
account. -/
def leftBehind (s : Server) (u uid : String) (visits : List Visit) : Nat :=
  countSince (·.clears u) (fun x => x.misses u && !x.before.store.hasAccount uid)
    (transcript s visits)

/-! ### What counts is standing -/

section Step

variable {s : Server} {v : Visit} {u : String}

/-- **A name that is cleared** has no failures. -/
theorem failureCount_of_clears (hr : s.registry.isResponsive = true)
    (h : (exchange s v).clears u = true) (now : Nat) :
    (serve v.moment v.request s).2.failureCount u now = 0 := by
  rcases Exchange.clears_iff.1 h with ⟨r, issued, ho, rfl⟩ | hpardons
  · obtain ⟨-, hway⟩ := way_of_outcome ((outcome_exchange s v).symm.trans ho)
    rw [hway.failureCount_of_isOk now rfl, if_pos rfl]
  · obtain ⟨c, request, users, ho, user, huser, hname⟩ := hpardons
    obtain ⟨s', ha, -, -, -, hp⟩ := of_exchange_call ho
    have hauth := Service.asks_authenticate v.moment v.request.credentials s
    rw [ha] at hauth
    obtain ⟨updates, -, hp⟩ := Service.of_bound_bind_eq_ok hp
    obtain ⟨users', t, hupdate, hp⟩ := run_bind_eq_ok hp
    obtain ⟨e, rfl⟩ := run_pure_eq_ok hp
    obtain rfl := Answer.users.inj e
    obtain ⟨user', huser', rfl⟩ := List.mem_map.1 huser
    exact failureCount_of_changed now (hauth.isResponsive hr) hupdate huser' hname

/-- **No request adds more than one failure** to a name, and none but a failure with it adds one. -/
theorem failureCount_serve_le (hr : s.registry.isResponsive = true)
    (hn : s.registry.table.failures.keys.Nodup) (hclears : (exchange s v).clears u = false)
    {n : Nat} (hle : ∀ now, s.failureCount u now ≤ n) (now : Nat) :
    (serve v.moment v.request s).2.failureCount u now ≤
      n + (if (exchange s v).misses u then 1 else 0) := by
  rw [← Bool.not_eq_true, Exchange.clears_iff, not_or] at hclears
  obtain ⟨hadmits, hpardons⟩ := hclears
  cases hmisses : (exchange s v).misses u with
  | true =>
    obtain ⟨-, hcount, hne⟩ := failureCount_of_misses hmisses
    have hnoted : (s.registry.table.noted u v.moment.instant).failureCount u now ≤
        s.registry.table.failureCount u v.moment.instant + 1 :=
      Table.failureCount_noted_le hne hn
    have hbefore : s.registry.table.failureCount u v.moment.instant ≤ n := hle v.moment.instant
    rw [hcount, if_pos rfl]
    omega
  | false =>
    rw [if_neg Bool.false_ne_true, Nat.add_zero]
    refine Nat.le_trans ?_ (hle now)
    rcases hx : (exchange s v).outcome with response | ⟨r, outcome⟩ | ⟨c, call, outcome⟩
    · have htold := told_serve v.moment v.request s
      rw [← outcome_exchange, hx] at htold
      exact Nat.le_of_eq (failureCount_of_told now htold (by simp [Outcome.writes]))
    · rcases failureCount_of_login hr hx hadmits hmisses now with h | h
      · exact Nat.le_of_eq h
      · rw [h]
        exact Table.failureCount_prune_le hn
    · exact Nat.le_of_eq (failureCount_of_call hr hx hpardons)

end Step

section Run

variable {s : Server} {u uid : String}

theorem nodup_failures_run (hn : s.registry.table.failures.keys.Nodup) (visits : List Visit) :
    (run s visits).registry.table.failures.keys.Nodup := by
  induction visits using List.reverseRecOn with
  | nil => exact hn
  | append_singleton vs v ih =>
    rw [run_concat]
    exact (told_serve _ _ _).nodup_failures ih

theorem standing_concat (visits : List Visit) (v : Visit) : standing s u (visits ++ [v]) =
    if (exchange (run s visits) v).clears u then 0
    else standing s u visits + (if (exchange (run s visits) v).misses u then 1 else 0) := by
  unfold standing
  rw [transcript_concat, countSince_concat]

theorem ownFailures_concat (visits : List Visit) (v : Visit) : ownFailures s uid (visits ++ [v]) =
    if (exchange (run s visits) v).renews uid then 0
    else ownFailures s uid visits + (if (exchange (run s visits) v).fails uid then 1 else 0) := by
  unfold ownFailures
  rw [transcript_concat, countSince_concat]

theorem leftBehind_concat (visits : List Visit) (v : Visit) : leftBehind s u uid (visits ++ [v]) =
    if (exchange (run s visits) v).clears u then 0
    else leftBehind s u uid visits +
      (if (exchange (run s visits) v).misses u && !(run s visits).store.hasAccount uid then 1
        else 0) := by
  unfold leftBehind
  rw [transcript_concat, countSince_concat]
  rfl

/-- **No more failures count with a name** than there were since it was last cleared. -/
theorem failureCount_le_standing (hr : s.registry.isResponsive = true)
    (hnone : s.registry.table.failures = ∅) (visits : List Visit) (now : Nat) :
    (run s visits).failureCount u now ≤ standing s u visits := by
  have hn : s.registry.table.failures.keys.Nodup := by
    rw [hnone]
    exact List.nodup_nil
  induction visits using List.reverseRecOn generalizing now with
  | nil =>
    have hfind : s.registry.table.failures.find? u = none := by
      rw [hnone]
      rfl
    exact Nat.le_of_eq (Table.failureCount_of_find?_eq_none hfind)
  | append_singleton vs v ih =>
    have hrun := responsive_run hr vs
    rw [run_concat, standing_concat]
    cases hclears : (exchange (run s vs) v).clears u with
    | true => exact Nat.le_of_eq (failureCount_of_clears hrun hclears now)
    | false =>
      rw [if_neg Bool.false_ne_true]
      exact failureCount_serve_le hrun (nodup_failures_run hn vs) hclears ih now

end Run

/-! ### Who failed -/

section Holder

variable {s : Server} {u uid : String}

/-- **An account that has a name** after a request had it before, or is new, or was changed, and the
answer says so. -/
theorem holder_cases (hr : s.registry.isResponsive = true) (hs : s.store.Sound) {v : Visit}
    (h : (serve v.moment v.request s).2.store.nameOf uid = some u) :
    s.store.nameOf uid = some u ∧ uid ∉ (exchange s v).changed.map User.uid ∨
      s.store.hasAccount uid = false ∨ (exchange s v).clears u = true := by
  rcases nameOf_serve hr hs uid (v := v) with ⟨user, huser, -, hname⟩ | ⟨hno, hsame⟩
  · exact .inr (.inr (Exchange.clears_of_mem_changed huser (hname.trans h)))
  · cases ha : s.store.hasAccount uid with
    | true => exact .inl ⟨(hsame ha).symm.trans h, hno⟩
    | false => exact .inr (.inl rfl)

/-- **An account that had a name and keeps it** is not renewed without the name being cleared. -/
theorem renews_eq_false (hw : s.store.WellNamed) {v : Visit} (hname : s.store.nameOf uid = some u)
    (hno : uid ∉ (exchange s v).changed.map User.uid) (hclears : (exchange s v).clears u = false) :
    (exchange s v).renews uid = false := by
  unfold Exchange.renews
  split
  · rename_i r issued ho
    rw [decide_eq_false_iff_not]
    intro hfind
    have hother := (hw.named r.username uid).1 hfind
    rw [hname] at hother
    rw [← Bool.not_eq_true, Exchange.clears_iff, not_or] at hclears
    exact hclears.1 ⟨r, issued, ho, (Option.some.inj hother).symm⟩
  · rw [Bool.or_eq_false_iff]
    constructor
    · rw [← Bool.not_eq_true, Option.any_eq_true]
      rintro ⟨user, hmade, he⟩
      have hnew := hasAccount_of_made? hw.sound hmade
      rw [of_decide_eq_true he, Store.hasAccount_of_nameOf hname] at hnew
      cases hnew
    · rw [← Bool.not_eq_true, List.any_eq_true]
      rintro ⟨user, huser, he⟩
      exact hno (List.mem_map.2 ⟨user, huser, of_decide_eq_true he⟩)

/-- An account that is not there now was not there before. -/
theorem hasAccount_before (hs : s.store.Sound) {visits : List Visit}
    (h : (run s visits).store.hasAccount uid = false) {x : Exchange}
    (hx : x ∈ transcript s visits) : x.before.store.hasAccount uid = false := by
  obtain ⟨pre, post, e⟩ := List.append_of_mem hx
  obtain ⟨before, w, after, rfl, -, rfl, -⟩ := eq_append_of_transcript e
  rw [← Bool.not_eq_true] at h ⊢
  intro ha
  rw [run_append] at h
  exact h ((extends_run (sound_run hs before) (w :: after)).account ha)

/-- As long as there is no account, all failures with a name are left behind for it. -/
theorem standing_le_leftBehind (hs : s.store.Sound) {visits : List Visit}
    (h : (run s visits).store.hasAccount uid = false) :
    standing s u visits ≤ leftBehind s u uid visits := by
  refine countSince_le fun x hx hmisses => ?_
  rw [hmisses, hasAccount_before hs h hx]
  rfl

/-- **The failures with a name** are those of the account that has it, or were left behind before
the account was made. -/
theorem standing_le (hr : s.registry.isResponsive = true) (hw : s.store.WellNamed)
    (visits : List Visit) (h : (run s visits).store.nameOf uid = some u) :
    standing s u visits ≤ ownFailures s uid visits + leftBehind s u uid visits := by
  induction visits using List.reverseRecOn with
  | nil => exact Nat.zero_le _
  | append_singleton vs v ih =>
    have hrun := responsive_run hr vs
    have hwrun := wellNamed_run hw vs
    rw [run_concat] at h
    rw [standing_concat, ownFailures_concat, leftBehind_concat]
    cases hclears : (exchange (run s vs) v).clears u with
    | true => exact Nat.zero_le _
    | false =>
      rw [if_neg Bool.false_ne_true, if_neg Bool.false_ne_true]
      rcases holder_cases hrun hwrun.sound h with ⟨hname, hno⟩ | hnew | hyes
      · -- Whoever fails with the name of the account fails as the account.
        have hone : (if (exchange (run s vs) v).misses u then 1 else 0) ≤
            if (exchange (run s vs) v).fails uid then 1 else 0 := by
          cases hmisses : (exchange (run s vs) v).misses u with
          | true =>
            have hfind : (exchange (run s vs) v).before.store.usernames.find? u = some uid :=
              (hwrun.named u uid).2 hname
            rw [Exchange.fails_of_misses hmisses hfind]
          | false => exact Nat.zero_le _
        have := ih hname
        rw [renews_eq_false hwrun hname hno hclears, if_neg Bool.false_ne_true]
        omega
      · -- There was no account yet, at any time before.
        have hleft : standing s u vs ≤ leftBehind s u uid vs :=
          standing_le_leftBehind hw.sound hnew
        rw [hnew, Bool.not_false, Bool.and_true]
        omega
      · rw [hclears] at hyes
        cases hyes

end Holder

/-! ### Lockouts -/

/-- A login for a name that is locked is refused. -/
theorem throttled_of_locks {s : Server} {v : Visit} {r : LoginRequest}
    (hsub : v.request.Submits r) (hvalid : r.validate = .ok ())
    (hr : s.registry.isResponsive = true) (hlocks : s.Locks r.username v.moment.instant) :
    (exchange s v).outcome = .login r (.error .throttled) := by
  obtain ⟨r', -, hrefused, -⟩ := refuses_of_locks hr
    (tries_exchange_iff.2 ⟨r, hsub, hvalid, rfl⟩) hlocks
  rw [outcome_exchange, hrefused]
  rw [serve_of_submits hsub, hvalid] at hrefused
  rw [(Outcome.login.inj hrefused).1]

theorem leftBehind_eq_zero {s : Server} {u uid : String} {visits : List Visit}
    (h : ∀ x ∈ transcript s visits, x.misses u = true → x.before.store.hasAccount uid = true) :
    leftBehind s u uid visits = 0 := by
  refine List.countP_eq_zero.2 fun x hx hleft => ?_
  obtain ⟨hmisses, hno⟩ := Bool.and_eq_true_iff.1 hleft
  rw [h x ((List.rtakeWhile_suffix _ _).subset hx) hmisses] at hno
  cases hno

/-- The name that an account has after it was changed is one that was cleared. -/
theorem clears_of_changed {s : Server} {v : Visit} {u : String}
    (hr : s.registry.isResponsive = true) (hs : s.store.Sound) {user : User}
    (huser : user ∈ (exchange s v).changed)
    (hname : (serve v.moment v.request s).2.store.nameOf user.uid = some u) :
    (exchange s v).clears u = true := by
  rcases nameOf_serve hr hs user.uid (v := v) with ⟨user', huser', -, hname'⟩ | ⟨hno, -⟩
  · exact Exchange.clears_of_mem_changed huser' (hname'.trans hname)
  · exact absurd (List.mem_map_of_mem huser) hno

/-- **A lockout is earned, or was left behind.** A login is refused only if, since its name was last
cleared, as many logins with the name failed on the password as the limit says. If an account has
the name, these are failures of its own since it was made, got in or was changed, and those that
came before it was made; so as long as nobody failed with its name before, it has earned the lockout
alone. A change of accounts clears all failures with the names that the accounts have after it, and
no others. -/
theorem lockout_earned_or_left {s : Server} (hr : s.registry.isResponsive = true)
    (hw : s.store.WellNamed) (hnone : s.registry.table.failures = ∅) (visits : List Visit)
    (v : Visit) :
    (∀ r, (exchange (run s visits) v).outcome = .login r (.error .throttled) →
      s.maxFailures ≠ 0 ∧ s.maxFailures ≤ standing s r.username visits ∧
      ∀ uid, (run s visits).store.usernames.find? r.username = some uid →
        s.maxFailures ≤ ownFailures s uid visits + leftBehind s r.username uid visits ∧
        ((∀ x ∈ transcript s visits, x.misses r.username = true →
            x.before.store.hasAccount uid = true) →
          s.maxFailures ≤ ownFailures s uid visits)) ∧
    ((exchange (run s visits) v).changed ≠ [] → ∀ u now,
      ((∃ user ∈ (exchange (run s visits) v).changed,
          (run s (visits ++ [v])).store.nameOf user.uid = some u) →
        (run s (visits ++ [v])).failureCount u now = 0) ∧
      ((∀ user ∈ (exchange (run s visits) v).changed, user.username ≠ some u) →
        (run s (visits ++ [v])).failureCount u now = (run s visits).failureCount u now)) := by
  have hrun := responsive_run hr visits
  have hwrun := wellNamed_run hw visits
  refine ⟨fun r ho => ?_, fun hchanged u now => ?_⟩
  · obtain ⟨-, hway⟩ := way_of_outcome ((outcome_exchange _ v).symm.trans ho)
    have hlocked : (run s visits).Locks r.username v.moment.instant := by
      generalize (serve v.moment v.request (run s visits)).2 = t at hway
      cases hway with
      | throttled l locked _ => exact locked
    obtain ⟨hmax, hcount⟩ := hlocked
    rw [fixed_run s visits fixed_maxFailures] at hmax hcount
    have hstanding : s.maxFailures ≤ standing s r.username visits :=
      Nat.le_trans hcount (failureCount_le_standing hr hnone visits v.moment.instant)
    refine ⟨hmax, hstanding, fun uid hfind => ?_⟩
    have hle := standing_le hr hw visits ((hwrun.named r.username uid).1 hfind)
    refine ⟨Nat.le_trans hstanding hle, fun hnobody => ?_⟩
    rw [leftBehind_eq_zero hnobody] at hle
    exact Nat.le_trans hstanding hle
  · rw [run_concat]
    constructor
    · rintro ⟨user, huser, hname⟩
      exact failureCount_of_clears hrun (clears_of_changed hrun hwrun.sound huser hname) now
    · intro hno
      obtain ⟨c, request, users, ho⟩ := Exchange.outcome_of_changed hchanged
      refine failureCount_of_call hrun ho fun hpardons => ?_
      obtain ⟨user, huser, hname⟩ := Exchange.pardons_iff.1 hpardons
      exact hno user huser hname

/-! ### A name that changes hands -/

namespace Successor

theorem secret_ne_nil : ([7] : List UInt8) ≠ [] := List.cons_ne_nil 7 []

/-- A server with an administrator, of whom a session is active, and a user, that lets nobody fail
twice within a second. -/
def server : Server where
  gate := ⟨⟨[7], secret_ne_nil⟩, 3600⟩
  maxFailures := 1
  store := .withAccounts [⟨"root", "secret", "sys", none⟩, ⟨"ann", "hidden", "user", none⟩]
  registry := .responsive ((Registry.Table.empty 1000).addSession "0x1" "s")
  metrics := .empty

/-- A request with a body, at the start. -/
def visit (credentials : Option String) (method : Method) (target body : String) : Visit where
  moment := ⟨⟨0, 0⟩, 0, "t", "g"⟩
  request := ⟨method, target, credentials, some "application/json", body⟩

def login (body : String) : Visit := visit none .post "/auth/login" body

/-- A request of the administrator. -/
def order (method : Method) (target body : String) : Visit :=
  visit (some "Bearer MHgxLnN5cy5zLjA.dOc06BIVSSgo8K-F7u1tmJ_cgwcLaJLzgerfZbDS0dk") method target
    body

/-- The user fails on the password. -/
def slip : Visit := login "\x7b\"username\":\"ann\",\"password\":\"hiden\"\x7d"

/-- The user tries again. -/
def retry : Visit := login "\x7b\"username\":\"ann\",\"password\":\"hidden\"\x7d"

/-- The user gets another name. -/
def rename : Visit :=
  order .patch "/admin/users" "\x7b\"users\":[\x7b\"uid\":\"0x2\",\"un\":\"bob\"\x7d]\x7d"

/-- Somebody else gets an account with the old name. -/
def creation : Visit :=
  order .put "/admin/user"
    "\x7b\"username\":\"ann\",\"password\":\"sesame\",\"role\":\"user\"\x7d"

/-- The new user logs in for the first time, with the right password. -/
def entrance : Visit := login "\x7b\"username\":\"ann\",\"password\":\"sesame\"\x7d"

theorem submits_logins :
    retry.request.Submits ⟨"ann", "hidden"⟩ ∧ entrance.request.Submits ⟨"ann", "sesame"⟩ :=
  ⟨⟨by decide, rfl, by decide +kernel⟩, ⟨by decide, rfl, by decide +kernel⟩⟩

/-- The failure locks the name of the user, who had it all along and is then renamed. -/
theorem locks_retry :
    (run server [slip]).Locks "ann" 0 ∧
      (run server [slip]).store.usernames.find? "ann" = some "0x2" ∧
      (∀ x ∈ transcript server [slip], x.misses "ann" = true →
        x.before.store.hasAccount "0x2" = true) ∧
      (∃ user ∈ (exchange (run server [slip]) rename).changed, user.uid = "0x2") ∧
      (run server ([slip] ++ [rename])).store.nameOf "0x2" = some "bob" := by
  decide +kernel

theorem throttled_retry :
    (exchange (run server [slip]) retry).outcome = .login ⟨"ann", "hidden"⟩ (.error .throttled) :=
  throttled_of_locks submits_logins.1 (by decide) (responsive_run rfl _) locks_retry.1

/-- What has happened when the new user comes. -/
def history : List Visit := [slip, rename, creation]

theorem locks_entrance :
    (run server history).Locks "ann" 0 ∧
      (run server history).store.usernames.find? "ann" = some "0x3" ∧
      ownFailures server "0x3" history = 0 ∧ leftBehind server "ann" "0x3" history = 1 := by
  decide +kernel

end Successor

/-- A user has earned a lockout with one failure, and is rid of it once renamed, under the new
name. -/
theorem lockout_earned_or_left_one_failure :
    1 ≤ ownFailures Successor.server "0x2" [Successor.slip] ∧
    (run Successor.server ([Successor.slip] ++ [Successor.rename])).failureCount "bob" 0 = 0 := by
  have hw : Successor.server.store.WellNamed := Store.wellNamed_withAccounts _
  obtain ⟨hlogin, -⟩ := lockout_earned_or_left rfl hw rfl [Successor.slip] Successor.retry
  obtain ⟨-, hchange⟩ := lockout_earned_or_left rfl hw rfl [Successor.slip] Successor.rename
  obtain ⟨-, hfind, hkept, ⟨user, huser, huid⟩, hname⟩ := Successor.locks_retry
  refine ⟨?_, ?_⟩
  · obtain ⟨-, -, hholder⟩ := hlogin _ Successor.throttled_retry
    exact (hholder "0x2" hfind).2 hkept
  · refine (hchange (List.ne_nil_of_mem huser) "bob" 0).1 ⟨user, huser, ?_⟩
    rw [huid]
    exact hname

/-- **A new account inherits a lockout** from another that had its name before: its first login is
refused, with the right password, though no login with its name has failed since it was made. -/
theorem lockout_inherited :
    Successor.server.maxFailures = 1 ∧
      (exchange (run Successor.server Successor.history) Successor.entrance).outcome =
        .login ⟨"ann", "sesame"⟩ (.error .throttled) ∧
      (run Successor.server Successor.history).store.usernames.find? "ann" = some "0x3" ∧
      ownFailures Successor.server "0x3" Successor.history = 0 ∧
      leftBehind Successor.server "ann" "0x3" Successor.history = 1 := by
  obtain ⟨hlocks, hrest⟩ := Successor.locks_entrance
  exact ⟨rfl, throttled_of_locks Successor.submits_logins.2 (by decide) (responsive_run rfl _)
    hlocks, hrest⟩

end Http

end SealedGraph
