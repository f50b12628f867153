import SealedGraph.Envelope

/-!
# Tokens and the payloads they were signed for

* `Base64Url.decode_eq_some_iff`: a text is read as some bytes iff it is their text.
* `openSegments_eq_some_iff`: two segments hold a payload iff the first is its body and the second
  the tag of that body.
* `verify_exact`: a token is accepted iff it is, letter by letter, the one token of a payload that
  is not empty; whatever else comes in is refused with the one error.
* `payload_eq_of_sign_eq`: a token has one payload, whatever keys it is thought to be signed with.
-/

namespace SealedGraph

namespace Base64Url

/-! ### The alphabet -/

/-- A character of the alphabet: a letter or digit of ASCII, `-` or `_`. -/
def IsSymbol (c : Char) : Prop := ∃ n < 64, c = symbol n

theorem isSymbol_of_mem_encode {bs : List UInt8} {c : Char} (h : c ∈ encode bs) : IsSymbol c := by
  fun_induction encode bs with
  | case1 => simp at h
  | case2 a =>
    have := a.toNat_lt
    simp only [List.mem_cons, List.not_mem_nil, or_false] at h
    rcases h with rfl | rfl
    · exact ⟨_, by omega, rfl⟩
    · exact ⟨_, by omega, rfl⟩
  | case3 a b =>
    have := a.toNat_lt
    have := b.toNat_lt
    simp only [List.mem_cons, List.not_mem_nil, or_false] at h
    rcases h with rfl | rfl | rfl
    · exact ⟨_, by omega, rfl⟩
    · exact ⟨_, by omega, rfl⟩
    · exact ⟨_, by omega, rfl⟩
  | case4 a b c' rest ih =>
    have := a.toNat_lt
    have := b.toNat_lt
    have := c'.toNat_lt
    simp only [List.mem_cons] at h
    rcases h with rfl | rfl | rfl | rfl | h
    · exact ⟨_, by omega, rfl⟩
    · exact ⟨_, by omega, rfl⟩
    · exact ⟨_, by omega, rfl⟩
    · exact ⟨_, by omega, rfl⟩
    · exact ih h

theorem dot_not_mem_encode (bs : List UInt8) : '.' ∉ encode bs := by
  intro h
  obtain ⟨n, hn, e⟩ := isSymbol_of_mem_encode h
  exact symbol_ne_dot n hn e.symm

/-! ### Reading back -/

/-- **The reader takes exactly what the writer gives.** -/
theorem decode_eq_some_iff {cs : List Char} {bs : List UInt8} :
    decode cs = some bs ↔ cs = encode bs := by
  constructor
  · exact eq_encode_of_decode
  · rintro rfl
    exact decode_encode bs

theorem encode_injective {bs bs' : List UInt8} (h : encode bs = encode bs') : bs = bs' := by
  have := decode_encode bs'
  rw [← h, decode_encode] at this
  exact Option.some.inj this

end Base64Url

theorem bytesOf_injective {s t : String} (h : bytesOf s = bytesOf t) : s = t := by
  have hs : stringOf? (bytesOf s) = some t := stringOf?_eq_some_iff.2 h
  rw [stringOf?_eq_some_iff.2 rfl] at hs
  exact Option.some.inj hs

namespace Envelope

variable {key : List UInt8}

/-! ### The two segments -/

theorem toList_sign (key : List UInt8) (p : String) :
    (sign key p).toList = body p ++ separator :: Base64Url.encode (tag key (body p)) := by
  simp only [sign, String.toList_ofList]

theorem split_sign (key : List UInt8) (p : String) :
    Text.split separator (sign key p).toList = [body p, Base64Url.encode (tag key (body p))] := by
  have hb : separator ∉ body p := Base64Url.dot_not_mem_encode _
  have ht : separator ∉ Base64Url.encode (tag key (body p)) := Base64Url.dot_not_mem_encode _
  rw [toList_sign, Text.split_append_sep hb, Text.split_of_not_mem ht]

theorem eq_ofList_of_split {cs a b : List Char} (h : Text.split separator cs = [a, b]) :
    cs = a ++ separator :: b := by
  have := @Text.join_split separator cs
  rw [h] at this
  exact this.symm

theorem body_injective {p q : String} (h : body p = body q) : p = q :=
  bytesOf_injective (Base64Url.encode_injective h)

/-- **Two segments hold a payload** iff it is not empty, the first segment is its body and the
second is the tag of that body. -/
theorem openSegments_eq_some_iff {b mac : List Char} {p : String} :
    openSegments key b mac = some p ↔
      p ≠ "" ∧ b = body p ∧ mac = Base64Url.encode (tag key b) := by
  unfold openSegments
  simp only [Option.bind_eq_bind, Option.bind_eq_some_iff, Base64Url.decode_eq_some_iff]
  constructor
  · rintro ⟨t, rfl, h⟩
    split at h
    · rename_i ht
      simp only [Option.bind_eq_some_iff, Base64Url.decode_eq_some_iff] at h
      obtain ⟨bs, rfl, q, hq, h⟩ := h
      obtain rfl := stringOf?_eq_some_iff.1 hq
      split at h
      · cases h
      · rename_i hne
        cases h
        exact ⟨fun e => hne (by rw [e]; rfl), rfl, by rw [ht]⟩
    · cases h
  · rintro ⟨hne, rfl, rfl⟩
    refine ⟨_, rfl, ?_⟩
    rw [if_pos rfl, body, Base64Url.decode_encode]
    simp only [Option.bind_some, stringOf?_eq_some_iff.2 rfl]
    rw [if_neg]
    simpa using hne

/-! ### Acceptance -/

theorem eq_sign_of_verify {token p : String} (h : verify key token = .ok p) :
    p ≠ "" ∧ token = sign key p := by
  unfold verify at h
  split at h
  · rename_i b mac hs
    split at h
    · rename_i q hq
      cases h
      obtain ⟨hne, rfl, rfl⟩ := openSegments_eq_some_iff.1 hq
      refine ⟨hne, ?_⟩
      rw [← String.toList_inj, toList_sign]
      exact eq_ofList_of_split hs
    · cases h
  · cases h

theorem verify_sign {p : String} (h : p ≠ "") : verify key (sign key p) = .ok p := by
  have ho : openSegments key (body p) (Base64Url.encode (tag key (body p))) = some p :=
    openSegments_eq_some_iff.2 ⟨h, rfl, rfl⟩
  unfold verify
  rw [split_sign]
  simp only [ho]

/-- **A token has one payload**, even if it was signed with another key than it is read with. -/
theorem payload_eq_of_sign_eq {key' : List UInt8} {p q : String} (h : sign key p = sign key' q) :
    p = q := by
  have hs :
      Text.split separator (sign key p).toList = Text.split separator (sign key' q).toList := by
    rw [h]
  rw [split_sign, split_sign] at hs
  exact body_injective (List.cons.inj hs).1

/-- **Verification accepts exactly the signed tokens.** A payload comes out of a token iff it is not
empty and the token is the very text that signing the payload gives; every other token is refused,
and always with the same error. -/
theorem verify_exact (key : List UInt8) (token : String) :
    (∀ p, verify key token = .ok p ↔ p ≠ "" ∧ token = sign key p) ∧
      ((¬ ∃ p, p ≠ "" ∧ token = sign key p) → verify key token = .error .invalid) := by
  refine ⟨fun p => ⟨eq_sign_of_verify, ?_⟩, fun h => ?_⟩
  · rintro ⟨hp, rfl⟩
    exact verify_sign hp
  · cases hv : verify key token with
    | error e => rfl
    | ok p => exact absurd ⟨p, eq_sign_of_verify hv⟩ h

end Envelope

end SealedGraph
