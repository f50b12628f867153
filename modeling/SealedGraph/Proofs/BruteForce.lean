import SealedGraph.Proofs.Http.Logins

/-!
# Brute force is bounded

Whoever guesses at the password of one account gets as many guesses as the limit says, and then none
until a window has passed. What is counted for a name is not lost in the meantime: failures with
other names drop only what has expired, and only a success or an administrator clears a name.

* `Siege`: a stretch of requests in which nothing gives the failures with a name up.
* `Bounded`: the count is what was counted, and it does not pass the limit. `Bounded.of_misses` and
  `Bounded.of_not_misses` keep this for one request, `Siege.bounded` for a siege.
* `brute_force_bounded`: the guesses are as many as the limit says at most, and everything after
  them is refused, whatever the password, and leaves the server as it is.
-/

namespace SealedGraph.Http

/-! ### What is counted -/

/-- The last of some requests that was a failure with a name. -/
def lastMiss? (s : Server) (u : String) (visits : List Visit) : Option Exchange :=
  (transcript s visits).reverse.find? (·.misses u)

/-- The failures with a name that count at the start, and those during some requests. -/
def counted (s : Server) (u : String) (start : Nat) (visits : List Visit) : Nat :=
  s.failureCount u start + (transcript s visits).countP (·.misses u)

/-- The last failure with the name that was counted is less than a window ago. If there was none
during the requests, what the server started with still counts. -/
def Recent (s : Server) (u : String) (visits : List Visit) (now : Nat) : Prop :=
  match lastMiss? s u visits with
  | some x => now < x.visit.moment.instant + s.registry.table.window
  | none => s.failureCount u now ≠ 0

/-- A stretch of requests, from a time on, in which nobody gets in with the name, no account that
has it is changed by an administrator, and every login with the name comes within a window of the
last failure that was counted. -/
structure Siege (s : Server) (u : String) (start : Nat) (visits : List Visit) : Prop where
  clock : Ticks start visits
  unbroken : ∀ x ∈ transcript s visits, ¬ x.Admits u ∧ ¬ x.Pardons u
  recent : ∀ before v after, visits = before ++ v :: after →
    (exchange (run s before) v).Tries u → counted s u start before ≠ 0 →
    Recent s u before v.moment.instant

section Concat

variable {s : Server} {u : String} {start now : Nat} {visits : List Visit} {v : Visit}

theorem counted_concat : counted s u start (visits ++ [v]) =
    counted s u start visits +
      (if (exchange (run s visits) v).misses u = true then 1 else 0) := by
  unfold counted
  rw [transcript_concat, List.countP_append, List.countP_singleton, Nat.add_assoc]

theorem recent_concat (h : (exchange (run s visits) v).misses u = false) :
    Recent s u (visits ++ [v]) now ↔ Recent s u visits now := by
  unfold Recent lastMiss?
  rw [transcript_concat, List.reverse_append, List.reverse_singleton, List.singleton_append,
    List.find?_cons_of_neg (by simp [h])]

theorem recent_concat_of_misses (h : (exchange (run s visits) v).misses u = true) :
    Recent s u (visits ++ [v]) now ↔ now < v.moment.instant + s.registry.table.window := by
  unfold Recent lastMiss?
  rw [transcript_concat, List.reverse_append, List.reverse_singleton, List.singleton_append,
    List.find?_cons_of_pos (by simp [h])]
  rfl

theorem Siege.of_concat (h : Siege s u start (visits ++ [v])) : Siege s u start visits where
  clock := (ticks_concat.1 h.clock).1
  unbroken x hx := h.unbroken x (by rw [transcript_concat]; exact List.mem_append_left _ hx)
  recent before w after e := h.recent before w (after ++ [v]) (by rw [e]; simp)

end Concat

/-! ### What is kept -/

section Kept

variable {s : Server} {u : String} {start : Nat} {visits : List Visit}

/-- What is true during a siege: the limit is not passed, and as long as the last failure is recent,
the registry knows of all that were counted, up to the limit. -/
structure Bounded (s : Server) (u : String) (start : Nat) (visits : List Visit) : Prop where
  bound : counted s u start visits ≤ max s.maxFailures (s.failureCount u start)
  kept : ∀ now, start ≤ now → (∀ w ∈ visits, w.moment.instant ≤ now) → Recent s u visits now →
    min (counted s u start visits) s.maxFailures ≤ (run s visits).failureCount u now

theorem locks_run_iff {now : Nat} : (run s visits).Locks u now ↔
    s.maxFailures ≠ 0 ∧ s.maxFailures ≤ (run s visits).failureCount u now := by
  unfold Server.Locks
  rw [fixed_run s visits fixed_maxFailures]

/-- **One failure more** was below the limit, and is known from then on. -/
theorem Bounded.of_misses {v : Visit} (hb : Bounded s u start visits) (hmax : s.maxFailures ≠ 0)
    (hword : s.maxFailures ≤ Registry.maxCount) (hticks : Ticks start (visits ++ [v]))
    (hmiss : (exchange (run s visits) v).misses u = true)
    (hrecent : counted s u start visits ≠ 0 → Recent s u visits v.moment.instant) :
    Bounded s u start (visits ++ [v]) := by
  obtain ⟨hbound, hkept⟩ := hb
  obtain ⟨-, hstart, hvs⟩ := ticks_concat.1 hticks
  obtain ⟨hopen, hcount, hne⟩ := failureCount_of_misses hmiss
  rw [locks_run_iff] at hopen
  -- The password was looked at, so what was counted is below the limit, and still known.
  have hknown : counted s u start visits < s.maxFailures ∧
      counted s u start visits ≤ (run s visits).failureCount u v.moment.instant := by
    by_cases hzero : counted s u start visits = 0
    · omega
    · have := hkept v.moment.instant hstart hvs (hrecent hzero)
      omega
  have hc : counted s u start (visits ++ [v]) = counted s u start visits + 1 := by
    rw [counted_concat, if_pos hmiss]
  refine ⟨by omega, fun now _ hle hrecent => ?_⟩
  rw [recent_concat_of_misses hmiss, ← window_run s visits] at hrecent
  have hnoted := Registry.Table.le_failureCount_noted hne (hle v (by simp)) hrecent
  rw [run_concat, hcount, hc]
  refine Nat.le_trans (Nat.le_min.2 ⟨?_, ?_⟩) hnoted
  · exact Nat.le_trans (Nat.min_le_left _ _) (Nat.succ_le_succ hknown.2)
  · exact Nat.le_trans (Nat.min_le_right _ _) hword

/-- **Everything else** counts nothing, and gives nothing up. -/
theorem Bounded.of_not_misses {v : Visit} (hb : Bounded s u start visits)
    (hr : s.registry.isResponsive = true)
    (hadmits : ¬ (exchange (run s visits) v).Admits u)
    (hpardons : ¬ (exchange (run s visits) v).Pardons u)
    (hmiss : (exchange (run s visits) v).misses u = false) :
    Bounded s u start (visits ++ [v]) := by
  obtain ⟨hbound, hkept⟩ := hb
  have hc : counted s u start (visits ++ [v]) = counted s u start visits := by
    rw [counted_concat, hmiss, if_neg Bool.false_ne_true, Nat.add_zero]
  refine ⟨by rw [hc]; exact hbound, fun now hnow hle hrecent => ?_⟩
  rw [recent_concat hmiss] at hrecent
  have hthen := hkept now hnow (fun w hw => hle w (List.mem_append_left _ hw)) hrecent
  rw [hc, run_concat]
  exact Nat.le_trans hthen
    (le_failureCount_serve (responsive_run hr visits) hadmits hpardons hmiss (hle v (by simp)))

/-- **During a siege nothing is lost.** -/
theorem Siege.bounded (hr : s.registry.isResponsive = true) (hmax : s.maxFailures ≠ 0)
    (hword : s.maxFailures ≤ Registry.maxCount) (h : Siege s u start visits) :
    Bounded s u start visits := by
  induction visits using List.reverseRecOn with
  | nil =>
    refine ⟨Nat.le_max_right _ _, fun now hnow _ hrecent => Nat.le_trans (Nat.min_le_left _ _) ?_⟩
    exact Nat.le_of_eq (Registry.Table.failureCount_eq_of_ne_zero hnow hrecent)
  | append_singleton vs v ih =>
    have hb := ih h.of_concat
    obtain ⟨hadmits, hpardons⟩ := h.unbroken (exchange (run s vs) v) (by simp [transcript_concat])
    cases hmiss : (exchange (run s vs) v).misses u with
    | true =>
      have htries : (exchange (run s vs) v).Tries u := by
        obtain ⟨⟨r, ho, hu⟩, -⟩ := Exchange.misses_iff.1 hmiss
        exact ⟨r, _, ho, hu⟩
      exact hb.of_misses hmax hword h.clock hmiss (h.recent vs v [] rfl htries)
    | false => exact hb.of_not_misses hr hadmits hpardons hmiss

end Kept

/-- **Brute force is bounded.** During a siege no more logins with the name of an account fail on
the password than the limit says, those included that count from before. Every other login with the
name, as long as there is such an account, is refused and leaves the server as it is. And once the
limit is reached, the next login with the name is refused too, whatever its password, if it comes
within a window of the last failure. -/
theorem brute_force_bounded {s : Server} (hr : s.registry.isResponsive = true)
    (hmax : s.maxFailures ≠ 0) (hword : s.maxFailures ≤ Registry.maxCount) {u : String}
    {start : Nat} {visits : List Visit} (h : Siege s u start visits) :
    (transcript s visits).countP (·.misses u) ≤ s.maxFailures - s.failureCount u start ∧
      (∀ x ∈ transcript s visits, x.Tries u → x.before.store.isKnown u = true →
        x.misses u = true ∨ ∃ r, r.username = u ∧ Refuses x.before x.visit r) ∧
      ∀ v, Ticks start (visits ++ [v]) → (exchange (run s visits) v).Tries u →
        s.maxFailures ≤ counted s u start visits → Recent s u visits v.moment.instant →
        ∃ r, r.username = u ∧ Refuses (run s visits) v r := by
  obtain ⟨hbound, hkept⟩ := h.bounded hr hmax hword
  refine ⟨?_, fun x hx htries hknown => ?_, fun v hticks htries hreached hrecent => ?_⟩
  · unfold counted at hbound
    omega
  · obtain ⟨hadmits, -⟩ := h.unbroken x hx
    obtain ⟨pre, post, e⟩ := List.append_of_mem hx
    obtain ⟨before, w, -, -, -, rfl, -⟩ := eq_append_of_transcript e
    exact (admits_or_misses_or_refuses (responsive_run hr before) htries hknown).resolve_left
      hadmits
  · obtain ⟨-, hstart, hvs⟩ := ticks_concat.1 hticks
    have hcount := hkept v.moment.instant hstart hvs hrecent
    rw [Nat.min_eq_right hreached] at hcount
    exact refuses_of_locks (responsive_run hr visits) htries (locks_run_iff.2 ⟨hmax, hcount⟩)

/-! ### One guess -/

namespace OneGuess

/-- A server with two accounts that lets nobody guess twice within a second. -/
def server : Server where
  gate := ⟨⟨[5], List.cons_ne_nil 5 []⟩, 3600⟩
  maxFailures := 1
  store := .withAccounts [⟨"ann", "secret", "user", none⟩, ⟨"bob", "hidden", "user", none⟩]
  registry := .responsive (.empty 1000)
  metrics := .empty

/-- A login at a time. -/
def attempt (instant : Nat) (body : String) : Visit where
  moment := ⟨⟨0, 0⟩, instant, "s", "g"⟩
  request := ⟨.post, "/auth/login", none, some "application/json", body⟩

/-- A guess at the password of the one. -/
def guess : Visit := attempt 0 "\x7b\"username\":\"ann\",\"password\":\"sesame\"\x7d"

/-- A failure of the other. -/
def slip : Visit := attempt 500 "\x7b\"username\":\"bob\",\"password\":\"hiden\"\x7d"

/-- The right password, but too soon. -/
def right : Visit := attempt 900 "\x7b\"username\":\"ann\",\"password\":\"secret\"\x7d"

theorem misses_guess : (exchange server guess).misses "ann" = true := by decide +kernel

theorem misses_slip :
    (exchange (run server [guess]) slip).misses "bob" = true ∧
      (exchange (run server [guess]) slip).misses "ann" = false := by
  decide +kernel

theorem submits_right : right.request.Submits ⟨"ann", "secret"⟩ where
  resource := by decide
  method := rfl
  body := by decide +kernel

theorem siege : Siege server "ann" 0 [guess, slip] where
  clock := by decide
  unbroken x hx := by
    have hfails : ∃ r, x.outcome = .login r (.error .invalidLogin) := by
      rcases List.mem_pair.1 hx with rfl | rfl
      · obtain ⟨⟨r, ho, -⟩, -⟩ := Exchange.misses_iff.1 misses_guess
        exact ⟨r, ho⟩
      · obtain ⟨⟨r, ho, -⟩, -⟩ := Exchange.misses_iff.1 misses_slip.1
        exact ⟨r, ho⟩
    obtain ⟨r, ho⟩ := hfails
    unfold Exchange.Admits Exchange.Pardons
    rw [ho]
    constructor
    · rintro ⟨_, _, e, -⟩
      cases e
    · rintro ⟨_, _, _, e, -⟩
      cases e
  recent before v after e htries hcounted := by
    -- Only the first request is a login with the name, and nothing counts before it.
    cases before with
    | nil => exact absurd (by decide) hcounted
    | cons w before =>
      obtain ⟨rfl, hrest⟩ := List.cons.inj e
      cases before with
      | nil =>
        obtain ⟨rfl, -⟩ := List.cons.inj hrest
        obtain ⟨⟨r, ho, hbob⟩, -⟩ := Exchange.misses_iff.1 misses_slip.1
        obtain ⟨r', _, ho', hann⟩ := htries
        rw [ho] at ho'
        obtain ⟨rfl, -⟩ := Outcome.login.inj ho'
        rw [hbob] at hann
        exact absurd hann (by decide)
      | cons w before => simp at hrest

theorem recent_right : Recent server "ann" [guess, slip] 900 := by
  have hmiss : (exchange (run server []) guess).misses "ann" = true := by
    rw [show run server [] = server from rfl]
    exact misses_guess
  have hguess : Recent server "ann" ([] ++ [guess]) 900 :=
    (recent_concat_of_misses hmiss).2 (by decide)
  have hslip : Recent server "ann" ([guess] ++ [slip]) 900 :=
    (recent_concat misses_slip.2).2 hguess
  exact hslip

end OneGuess

/-- After one guess the right password is refused, for a second. -/
theorem brute_force_bounded_one_guess :
    (transcript OneGuess.server [OneGuess.guess, OneGuess.slip]).countP (·.misses "ann") ≤ 1 ∧
      ∃ r, r.username = "ann" ∧
        Refuses (run OneGuess.server [OneGuess.guess, OneGuess.slip]) OneGuess.right r := by
  obtain ⟨hle, -, hnext⟩ := brute_force_bounded rfl (by decide) (by decide) OneGuess.siege
  exact ⟨hle, hnext OneGuess.right (by decide)
    (tries_exchange_iff.2 ⟨_, OneGuess.submits_right, by decide, rfl⟩) (by decide +kernel)
    OneGuess.recent_right⟩

end SealedGraph.Http
