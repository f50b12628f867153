import SealedGraph.Proofs.Http.Mediation
import SealedGraph.Proofs.Text.Decimal

/-!
# Whom a token lets in

A token is looked at in a fixed order: whether it was sealed here, how old it is, whether the
registry answers, and whether the registry has the session. The first of these that goes wrong is
what the bearer is told, and nobody is let in when one of them does.

* `SessionDescriptor.WrittenIn`: what a payload says, without a word about how it is read.
* `Gate.Vouches`: the claims that a token was sealed for.
* `Gate.maxAge_le_age_iff`: neither the bound nor the difference of two times can overflow.
* `Gate.Verdict`: what comes of a token, one case for each way.
* `Gate.validate_exact`: the whole of it, for every token, clock, lifetime and registry.
-/

namespace SealedGraph

/-! ### Payloads -/

theorem payloadOf_four (a b c d : String) :
    payloadOf [a, b, c, d] = a ++ "." ++ b ++ "." ++ c ++ "." ++ d := by
  apply String.toList_injective
  simp [payloadOf, Text.join, fieldSeparator]

namespace SessionDescriptor

variable {d : SessionDescriptor} {payload : String}

/-- A payload says these claims: four fields between dots, of which the first and the third are not
empty and the last is a number that fits a signed word. -/
def WrittenIn (d : SessionDescriptor) (payload : String) : Prop :=
  ∃ stamp, payload = d.uid ++ "." ++ d.role ++ "." ++ d.session ++ "." ++ stamp ∧
    (∀ f ∈ [d.uid, d.role, d.session, stamp], IsField f) ∧ d.uid ≠ "" ∧ d.session ≠ "" ∧
    Text.Denotes stamp.toList d.timestamp.toInt

/-- **The claims of a payload** are those that it says. -/
theorem parse?_eq_some_iff : parse? payload = some d ↔ d.WrittenIn payload := by
  unfold parse? WrittenIn
  constructor
  · intro h
    split at h
    · rename_i uid role session stamp hf
      obtain ⟨hp, hfields⟩ := (payloadFields_eq_iff (by simp)).1 hf
      split at h
      · cases h
      · rename_i hne
        obtain ⟨t, ht, rfl⟩ := Option.map_eq_some_iff.1 h
        rw [Bool.or_eq_true, not_or, String.isEmpty_iff, String.isEmpty_iff] at hne
        exact ⟨stamp, hp.trans (payloadOf_four _ _ _ _), hfields, hne.1, hne.2,
          Text.readInt64_eq_some_iff.1 ht⟩
    · cases h
  · rintro ⟨stamp, hp, hfields, hu, hs, ht⟩
    rw [← payloadOf_four] at hp
    rw [(payloadFields_eq_iff (by simp)).2 ⟨hp, hfields⟩]
    simp [hu, hs, Text.readInt64_eq_some_iff.2 ht]

end SessionDescriptor

namespace Gate

variable {g : Gate} {token : String} {now : Int64} {l : Registry.Link}

/-- The token is the one that was sealed with the master secret for a payload with these claims. -/
def Vouches (g : Gate) (token : String) (d : SessionDescriptor) : Prop :=
  ∃ payload, payload ≠ "" ∧ token = Envelope.sign g.master.bytes payload ∧ d.WrittenIn payload

theorem vouches_iff {d : SessionDescriptor} :
    g.Vouches token d ↔ SessionDescriptor.unpack g.master.bytes token = .ok d := by
  rw [SessionDescriptor.unpack_eq_ok_iff]
  simp only [SessionDescriptor.parse?_eq_some_iff]
  rfl

/-- **A token has one set of claims**. -/
theorem Vouches.unique {d d' : SessionDescriptor} (h : g.Vouches token d)
    (h' : g.Vouches token d') : d = d' := by
  rw [vouches_iff] at h h'
  rw [h] at h'
  exact Except.ok.inj h'

/-- A session has lasted for as long as it may, or for as long as a signed word can count. -/
def Outlived (g : Gate) (d : SessionDescriptor) (now : Int64) : Prop :=
  min (g.ttl : Int) Int64.maxValue.toInt ≤ now.toInt - d.timestamp.toInt

/-- **Saturation does not matter**: the bound on the age is between the values at which the
difference of two times is cut off. -/
theorem maxAge_le_age_iff {d : SessionDescriptor} : g.maxAge ≤ d.age now ↔ g.Outlived d now := by
  have hlast : Int64.maxValue.toInt = 2 ^ 63 - 1 := by decide
  have hmax : Text.maxSigned 64 = 2 ^ 63 - 1 := rfl
  have hmin : Text.minSigned 64 = -2 ^ 63 := rfl
  unfold maxAge SessionDescriptor.age Outlived
  rw [hlast, hmax, hmin]
  omega

/-! ### The ways of a token -/

section Validate

variable (g : Gate) (token : String) (now : Int64) (instant : Nat) (l : Registry.Link)

theorem validate_of_not_vouches (h : ∀ d, ¬ g.Vouches token d) :
    g.validate token now instant l = (.error .unauthenticated, l) := by
  unfold validate
  cases hu : SessionDescriptor.unpack g.master.bytes token with
  | error e => rfl
  | ok d => exact absurd (vouches_iff.2 hu) (h d)

variable {d : SessionDescriptor}

/-- A token that is too old takes its session away, if the registry lets it. -/
theorem validate_of_outlived (h : g.Vouches token d) (old : g.Outlived d now) :
    g.validate token now instant l =
      (.error .expired, (l.call instant (.deleteSession d.uid d.session)).2) := by
  unfold validate
  rw [vouches_iff.1 h]
  exact if_pos (maxAge_le_age_iff.2 old)

/-- A token that is young enough leaves the registry alone, and it depends on that who is let in. -/
theorem validate_of_young (h : g.Vouches token d) (young : ¬ g.Outlived d now) :
    ∃ l', g.validate token now instant l =
        (match l.nextFate with
          | .failed e _ => .error (.unavailable e)
          | .answered =>
            if l.table.hasSession d.uid d.session then .ok (g.caller d.uid d.role d.session)
            else .error .revoked, l') ∧
      l'.closed = l.closed ∧ l'.table = l.table := by
  obtain ⟨l', hl, hclosed, htable⟩ := l.call_hasSession instant d.uid d.session
  refine ⟨l', ?_, hclosed, htable⟩
  unfold validate
  rw [vouches_iff.1 h]
  simp only [if_neg (mt maxAge_le_age_iff.1 young), hl]
  cases l.nextFate with
  | failed e done => rfl
  | answered => cases l.table.hasSession d.uid d.session <;> rfl

end Validate

/-- What comes of a token. -/
inductive Verdict (g : Gate) (token : String) (now : Int64) (l : Registry.Link) :
    Except AccessError Caller → Prop
  | unauthenticated (h : ∀ d, ¬ g.Vouches token d) : Verdict g token now l (.error .unauthenticated)
  | expired {d : SessionDescriptor} (h : g.Vouches token d) (old : g.Outlived d now) :
    Verdict g token now l (.error .expired)
  | unavailable {d : SessionDescriptor} (h : g.Vouches token d) (young : ¬ g.Outlived d now)
    {e : Registry.Error} {done : Bool} (fails : l.nextFate = .failed e done) :
    Verdict g token now l (.error (.unavailable e))
  | revoked {d : SessionDescriptor} (h : g.Vouches token d) (young : ¬ g.Outlived d now)
    (answers : l.nextFate = .answered) (gone : l.table.hasSession d.uid d.session = false) :
    Verdict g token now l (.error .revoked)
  | admitted {d : SessionDescriptor} (h : g.Vouches token d) (young : ¬ g.Outlived d now)
    (answers : l.nextFate = .answered) (there : l.table.hasSession d.uid d.session = true) :
    Verdict g token now l (.ok (g.caller d.uid d.role d.session))

/-- **There is one verdict on a token**, and it is given. -/
theorem validate_eq_iff {r : Except AccessError Caller} {instant : Nat} :
    (g.validate token now instant l).1 = r ↔ Verdict g token now l r := by
  constructor
  · rintro rfl
    by_cases vouched : ∃ d, g.Vouches token d
    · obtain ⟨d, h⟩ := vouched
      by_cases old : g.Outlived d now
      · rw [validate_of_outlived g token now instant l h old]
        exact .expired h old
      · obtain ⟨l', hl, -⟩ := validate_of_young g token now instant l h old
        rw [hl]
        cases fate : l.nextFate with
        | failed e done => exact .unavailable h old fate
        | answered =>
          cases hs : l.table.hasSession d.uid d.session with
          | false => exact .revoked h old fate hs
          | true => exact .admitted h old fate hs
    · have h : ∀ d, ¬ g.Vouches token d := not_exists.1 vouched
      rw [validate_of_not_vouches g token now instant l h]
      exact .unauthenticated h
  · intro verdict
    cases verdict with
    | unauthenticated h => rw [validate_of_not_vouches g token now instant l h]
    | expired h old => rw [validate_of_outlived g token now instant l h old]
    | unavailable h young fails =>
      obtain ⟨l', hl, -⟩ := validate_of_young g token now instant l h young
      rw [hl, fails]
    | revoked h young answers gone =>
      obtain ⟨l', hl, -⟩ := validate_of_young g token now instant l h young
      rw [hl, answers, gone]
      rfl
    | admitted h young answers there =>
      obtain ⟨l', hl, -⟩ := validate_of_young g token now instant l h young
      rw [hl, answers, there]
      rfl

/-- **What a token does to the registry**: nothing, unless it is too old; then its session can
go. -/
theorem registry_validate (g : Gate) (token : String) (now : Int64) (instant : Nat)
    (l : Registry.Link) :
    (g.validate token now instant l).2.closed = l.closed ∧
      ((g.validate token now instant l).2.table = l.table ∨
        ∃ d, g.Vouches token d ∧ g.Outlived d now ∧
          l.table.LosesAtMost d.uid d.session (g.validate token now instant l).2.table) := by
  by_cases vouched : ∃ d, g.Vouches token d
  · obtain ⟨d, h⟩ := vouched
    by_cases old : g.Outlived d now
    · rw [validate_of_outlived g token now instant l h old]
      refine ⟨l.closed_call _ _, ?_⟩
      rcases l.table_call instant (.deleteSession d.uid d.session) with same | less
      · exact .inl same
      · refine .inr ⟨d, h, old, ?_⟩
        rw [less]
        exact l.table.losesAtMost_deleteSession d.uid d.session
    · obtain ⟨l', hl, hclosed, htable⟩ := validate_of_young g token now instant l h old
      rw [hl]
      exact ⟨hclosed, .inl htable⟩
  · rw [validate_of_not_vouches g token now instant l (not_exists.1 vouched)]
    exact ⟨rfl, .inl rfl⟩

/-- **Validation is exact**, for every token, clock, lifetime, master secret and registry. A token
has one set of claims at most. Who comes without is unauthenticated; otherwise, whose session has
outlived its time is expired, whatever the registry says; otherwise the registry is asked, and if
that fails it is unavailable; otherwise, whose session it does not have is revoked; and everyone
else is the caller with the very claims and with the key of that uid and role. The registry is as it
was, but that it can lose the session that is expired. -/
theorem validate_exact (g : Gate) (token : String) (now : Int64) (instant : Nat)
    (l : Registry.Link) :
    (∀ d d', g.Vouches token d → g.Vouches token d' → d = d') ∧
    ((g.validate token now instant l).1 = .error .unauthenticated ↔ ∀ d, ¬ g.Vouches token d) ∧
    ((g.validate token now instant l).1 = .error .expired ↔
      ∃ d, g.Vouches token d ∧ g.Outlived d now) ∧
    (∀ e, (g.validate token now instant l).1 = .error (.unavailable e) ↔
      ∃ d, g.Vouches token d ∧ ¬ g.Outlived d now ∧ ∃ done, l.nextFate = .failed e done) ∧
    ((g.validate token now instant l).1 = .error .revoked ↔
      ∃ d, g.Vouches token d ∧ ¬ g.Outlived d now ∧ l.nextFate = .answered ∧
        l.table.hasSession d.uid d.session = false) ∧
    (∀ c, (g.validate token now instant l).1 = .ok c ↔
      ∃ d, g.Vouches token d ∧ ¬ g.Outlived d now ∧ l.nextFate = .answered ∧
        l.table.hasSession d.uid d.session = true ∧
        c = ⟨d.uid, d.role, d.session, .derive g.master d.uid d.role⟩) ∧
    (g.validate token now instant l).2.closed = l.closed ∧
    ((g.validate token now instant l).2.table = l.table ∨
      ∃ d, g.Vouches token d ∧ g.Outlived d now ∧
        l.table.LosesAtMost d.uid d.session (g.validate token now instant l).2.table) := by
  refine ⟨fun d d' h h' => h.unique h', ?_, ?_, fun e => ?_, ?_, fun c => ?_,
    registry_validate g token now instant l⟩
  · rw [validate_eq_iff]
    exact ⟨fun | .unauthenticated h => h, .unauthenticated⟩
  · rw [validate_eq_iff]
    exact ⟨fun | .expired h old => ⟨_, h, old⟩, fun ⟨_, h, old⟩ => .expired h old⟩
  · rw [validate_eq_iff]
    exact ⟨fun | .unavailable h young fails => ⟨_, h, young, _, fails⟩,
      fun ⟨_, h, young, _, fails⟩ => .unavailable h young fails⟩
  · rw [validate_eq_iff]
    exact ⟨fun | .revoked h young answers gone => ⟨_, h, young, answers, gone⟩,
      fun ⟨_, h, young, answers, gone⟩ => .revoked h young answers gone⟩
  · rw [validate_eq_iff]
    constructor
    · rintro ⟨⟩
      rename_i h young answers there
      exact ⟨_, h, young, answers, there, rfl⟩
    · rintro ⟨d, h, young, answers, there, rfl⟩
      exact .admitted h young answers there

end Gate

end SealedGraph
