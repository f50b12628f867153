import SealedGraph.Json.Doc
import SealedGraph.Json.Value
import SealedGraph.Proofs.Text.Digits

/-!
# Texts of values, read back

The text of a value without numbers is scanned and built into the document of that value, with
nothing left over. In a string every character comes back, whether it was escaped or not.

* `scan_quoted`: a string between quotes is one token.
* `Value.doc`: the document of a value.
* `build_text`: the text of a value is taken up where a value may stand, and what follows is read.
* `build_render`: a whole text.
-/

namespace SealedGraph.Json

/-! ### Strings -/

namespace Token

theorem scan_cons {state state' : State} {c : Char} {cs : List Char} {tokens : List Token}
    (h : step state c = (tokens, some state')) :
    scan state (c :: cs) = tokens ++ scan state' cs := by
  rw [scan, h]

/-- No character is one half of a pair. -/
theorem not_isHigh_or_isLow (c : Char) : isHigh c.toNat = false ∧ isLow c.toNat = false := by
  have h : c.toNat < 0xD800 ∨ 0xDFFF < c.toNat ∧ c.toNat < 0x110000 := c.valid
  unfold isHigh isLow
  simp only [Bool.and_eq_false_iff, decide_eq_false_iff_not]
  omega

theorem charsOfCodes_map_toNat (cs : List Char) : charsOfCodes (cs.map Char.toNat) = some cs := by
  induction cs with
  | nil => rfl
  | cons c cs ih =>
    obtain ⟨hhigh, hlow⟩ := not_isHigh_or_isLow c
    cases cs with
    | nil => simp [charsOfCodes, hhigh, hlow, Char.ofNat_toNat]
    | cons d cs =>
      rw [List.map_cons] at ih
      rw [List.map_cons, List.map_cons, charsOfCodes, ih]
      simp [hhigh, hlow, Char.ofNat_toNat]

/-- A character with a short escape. -/
theorem scan_short {codes : List Nat} {c : Char} {code : Nat} (hu : c ≠ 'u')
    (h : escapeCode? c = some code) (cs : List Char) :
    scan (.string codes) ('\\' :: c :: cs) = scan (.string (code :: codes)) cs := by
  have hopen : step (.string codes) '\\' = ([], some (.escape codes)) := rfl
  have hclose : step (.escape codes) c = ([], some (.string (code :: codes))) := by
    rw [step, if_neg hu, h]
    rfl
  rw [scan_cons hopen, scan_cons hclose]
  rfl

/-- A character with four digits. -/
theorem scan_digits {codes : List Nat} {n : Nat} (h : n < 256) (cs : List Char) :
    scan (.string codes)
        ('\\' :: 'u' :: '0' :: '0' :: Text.hexDigit (n / 16) :: Text.hexDigit (n % 16) :: cs) =
      scan (.string (n :: codes)) cs := by
  have hhigh := Text.hexDigit?_hexDigit (n / 16) (by omega)
  have hlow := Text.hexDigit?_hexDigit (n % 16) (by omega)
  have hn : n / 16 * 16 + n % 16 = n := Nat.div_add_mod' n 16
  have hthird : step (.hex codes 2 0) (Text.hexDigit (n / 16)) =
      ([], some (.hex codes 1 (n / 16))) := by
    simp [step, hhigh]
  have hlast : step (.hex codes 1 (n / 16)) (Text.hexDigit (n % 16)) =
      ([], some (.string (n :: codes))) := by
    simp [step, hlow, hn]
  have hopen : scan (.string codes) ('\\' :: 'u' :: '0' :: '0' :: Text.hexDigit (n / 16) ::
      Text.hexDigit (n % 16) :: cs) =
        scan (.hex codes 2 0) (Text.hexDigit (n / 16) :: Text.hexDigit (n % 16) :: cs) := rfl
  rw [hopen, scan_cons hthird, List.nil_append, scan_cons hlast, List.nil_append]

/-- **A character comes back** from its text in a string. -/
theorem scan_escapeChar (codes : List Nat) (c : Char) (cs : List Char) :
    scan (.string codes) (Value.escapeChar c ++ cs) = scan (.string (c.toNat :: codes)) cs := by
  unfold Value.escapeChar
  -- the characters that have a short escape
  iterate 7
    split
    · rename_i h
      rw [h]
      exact scan_short (by decide) rfl cs
  split
  · exact scan_digits (by omega) cs
  · rename_i hquote hback _ _ _ _ _ hcontrol
    have h : step (.string codes) c = ([], some (.string (c.toNat :: codes))) := by
      rw [step, if_neg hquote, if_neg hback, if_neg hcontrol]
    exact scan_cons h

theorem scan_flatMap_escapeChar (codes : List Nat) (cs rest : List Char) :
    scan (.string codes) (cs.flatMap Value.escapeChar ++ rest) =
      scan (.string ((cs.map Char.toNat).reverse ++ codes)) rest := by
  induction cs generalizing codes with
  | nil => rfl
  | cons c cs ih =>
    rw [List.flatMap_cons, List.append_assoc, scan_escapeChar, ih, List.map_cons,
      List.reverse_cons, List.append_assoc, List.singleton_append]

/-- **A string between quotes is one token.** -/
theorem scan_quoted (s : String) (rest : List Char) :
    scan .between (Value.quoted s ++ rest) = .string (some s) :: scan .between rest := by
  have hopen : step .between '"' = ([], some (.string [])) := rfl
  have hclose : step (.string ((s.toList.map Char.toNat).reverse ++ [])) '"' =
      ([.string (some s)], some .between) := by
    rw [step, if_pos rfl, ofCodes, List.append_nil, List.reverse_reverse, charsOfCodes_map_toNat,
      Option.map_some, String.ofList_toList]
  unfold Value.quoted
  rw [List.append_assoc, List.cons_append, scan_cons hopen, List.nil_append,
    scan_flatMap_escapeChar, List.singleton_append, scan_cons hclose, List.singleton_append]

end Token

/-! ### Documents -/

namespace Value

mutual

/-- Whether there is no number anywhere in a value. -/
def isNumberless : Value → Bool
  | .number _ => false
  | .array items => areNumberless items
  | .object members => membersNumberless members
  | _ => true

/-- Whether there is no number anywhere in these values. -/
def areNumberless : List Value → Bool
  | [] => true
  | v :: vs => isNumberless v && areNumberless vs

/-- Whether there is no number anywhere in these members. -/
def membersNumberless : List (String × Value) → Bool
  | [] => true
  | (_, v) :: ms => isNumberless v && membersNumberless ms

end

mutual

/-- The document of a value. -/
def doc : Value → Doc
  | .null => .null
  | .bool b => .bool b
  | .number n => .number (some n)
  | .string s => .string (some s)
  | .array items => .array (docs items)
  | .object members => .object (memberDocs members)

/-- The documents of values. -/
def docs : List Value → List Doc
  | [] => []
  | v :: vs => doc v :: docs vs

/-- The members of the document of an object. -/
def memberDocs : List (String × Value) → List (Option String × Doc)
  | [] => []
  | (k, v) :: ms => (some k, doc v) :: memberDocs ms

end

end Value

namespace Doc

open Token Value

/-- Where the first item of an array may stand, anything but the end is read as in any array. -/
theorem build_firstItem {frames : List Frame} {t : Token} {ts : List Token}
    (h : t ≠ .closeArray) :
    build frames .firstItem (t :: ts) = build (.array [] :: frames) .value (t :: ts) := by
  have hstep : step frames .firstItem t = step (.array [] :: frames) .value t := by
    cases t with
    | closeArray => exact absurd rfl h
    | _ => rfl
  rw [build, build, hstep]
  rfl

/-- No value begins with the end of an array. -/
theorem exists_token {v : Value} (h : v.isNumberless = true) (rest : List Char) :
    ∃ t ts, scan .between (text v ++ rest) = t :: ts ∧ t ≠ .closeArray := by
  cases v with
  | null => exact ⟨.null, _, rfl, nofun⟩
  | bool b =>
    cases b with
    | true => exact ⟨.bool true, _, rfl, nofun⟩
    | false => exact ⟨.bool false, _, rfl, nofun⟩
  | number n => cases h
  | string s => exact ⟨_, _, scan_quoted s rest, nofun⟩
  | array items => exact ⟨.openArray, _, rfl, nofun⟩
  | object members => exact ⟨.openObject, _, rfl, nofun⟩

/-- A key, where one may stand: its colon comes next. -/
theorem build_key {place : Place} {before : List (Option String × Doc)}
    (hplace : ∀ frames s, step frames place (.string s) = some (.colon before s, frames))
    (frames : List Frame) (k : String) (rest : List Char) :
    build frames place (scan .between (quoted k ++ ':' :: rest)) =
      build (.object before (some k) :: frames) .value (scan .between rest) := by
  have hcolon : scan .between (':' :: rest) = .colon :: scan .between rest := rfl
  rw [scan_quoted, hcolon, build, hplace]
  rfl

mutual

/-- **The text of a value is taken up** where a value may stand, and what follows is read on. -/
theorem build_text : ∀ (v : Value), v.isNumberless = true → ∀ (frames : List Frame)
    (rest : List Char), build frames .value (scan .between (text v ++ rest)) =
      build frames (.after v.doc) (scan .between rest)
  | .null, _, _, _ => rfl
  | .bool true, _, _, _ => rfl
  | .bool false, _, _, _ => rfl
  | .string s, _, frames, rest => by
    rw [text, scan_quoted]
    rfl
  | .array [], _, _, _ => rfl
  | .array (v :: vs), h, frames, rest => by
    have hfirst : build frames .firstItem (scan .between (itemsText (v :: vs) ++ ']' :: rest)) =
        build (.array [] :: frames) .value
          (scan .between (itemsText (v :: vs) ++ ']' :: rest)) := by
      have hv : v.isNumberless = true := (Bool.and_eq_true_iff.1 h).1
      obtain ⟨after, hafter⟩ : ∃ after, itemsText (v :: vs) ++ ']' :: rest = text v ++ after := by
        cases vs with
        | nil => exact ⟨_, rfl⟩
        | cons w vs => exact ⟨_, List.append_assoc _ _ _⟩
      obtain ⟨t, ts, hts, ht⟩ := exists_token hv after
      rw [hafter, hts]
      exact build_firstItem ht
    have hopen : build frames .value (scan .between (text (.array (v :: vs)) ++ rest)) =
        build frames .firstItem (scan .between (itemsText (v :: vs) ++ ']' :: rest)) := by
      rw [text, List.append_assoc]
      rfl
    rw [hopen, hfirst, build_items (v :: vs) (List.cons_ne_nil v vs) h]
    rfl
  | .object [], _, _, _ => rfl
  | .object ((k, v) :: ms), h, frames, rest => by
    have hopen : build frames .value (scan .between (text (.object ((k, v) :: ms)) ++ rest)) =
        build frames .firstKey (scan .between (membersText ((k, v) :: ms) ++ '}' :: rest)) := by
      rw [text, List.append_assoc]
      rfl
    rw [hopen, build_members ((k, v) :: ms) (List.cons_ne_nil _ ms) h .firstKey []
      fun _ _ => rfl]
    rfl

/-- The items of an array, from one of them on. -/
theorem build_items : ∀ (vs : List Value), vs ≠ [] → areNumberless vs = true →
    ∀ (before : List Doc) (frames : List Frame) (rest : List Char),
      build (.array before :: frames) .value (scan .between (itemsText vs ++ ']' :: rest)) =
        build frames (.after (.array (before.reverse ++ docs vs))) (scan .between rest)
  | [], hne, _, _, _, _ => absurd rfl hne
  | [v], _, h, before, frames, rest => by
    have hclose : scan .between (']' :: rest) = .closeArray :: scan .between rest := rfl
    have hv : v.isNumberless = true := (Bool.and_eq_true_iff.1 h).1
    rw [itemsText, build_text v hv, hclose, build, step, List.reverse_cons]
    rfl
  | v :: w :: vs, _, h, before, frames, rest => by
    obtain ⟨hv, hvs⟩ := Bool.and_eq_true_iff.1 h
    have hcomma : ∀ cs, scan .between (',' :: cs) = .comma :: scan .between cs := fun _ => rfl
    have hnext := build_items (w :: vs) (List.cons_ne_nil w vs) hvs (v.doc :: before) frames rest
    rw [List.reverse_cons, List.append_assoc] at hnext
    rw [itemsText, List.append_assoc, build_text v hv, List.cons_append, hcomma, build, step]
    exact hnext

/-- The members of an object, from one of them on. -/
theorem build_members : ∀ (ms : List (String × Value)), ms ≠ [] → membersNumberless ms = true →
    ∀ (place : Place) (before : List (Option String × Doc)),
      (∀ frames s, step frames place (.string s) = some (.colon before s, frames)) →
    ∀ (frames : List Frame) (rest : List Char),
      build frames place (scan .between (membersText ms ++ '}' :: rest)) =
        build frames (.after (.object (before.reverse ++ memberDocs ms))) (scan .between rest)
  | [], hne, _, _, _, _, _, _ => absurd rfl hne
  | [(k, v)], _, h, place, before, hplace, frames, rest => by
    have hclose : scan .between ('}' :: rest) = .closeObject :: scan .between rest := rfl
    have hv : v.isNumberless = true := (Bool.and_eq_true_iff.1 h).1
    rw [membersText, List.append_assoc, List.cons_append, build_key hplace, build_text v hv,
      hclose, build, step, List.reverse_cons]
    rfl
  | (k, v) :: m :: ms, _, h, place, before, hplace, frames, rest => by
    obtain ⟨hv, hms⟩ := Bool.and_eq_true_iff.1 h
    have hcomma : ∀ cs, scan .between (',' :: cs) = .comma :: scan .between cs := fun _ => rfl
    have hnext := build_members (m :: ms) (List.cons_ne_nil m ms) hms
      (.key ((some k, v.doc) :: before)) _ (fun _ _ => rfl) frames rest
    rw [List.reverse_cons, List.append_assoc] at hnext
    rw [membersText, List.append_assoc, List.append_assoc, List.cons_append, build_key hplace,
      build_text v hv, List.cons_append, hcomma, build, step]
    exact hnext

end

/-- **A whole text** of a value is the document of that value, and nothing behind it. -/
theorem build_render {v : Value} (h : v.isNumberless = true) :
    build [] .value (Token.ofText v.render.toList) = (v.doc, false) := by
  have hbuild := build_text v h [] []
  rw [List.append_nil] at hbuild
  unfold Token.ofText Value.render
  rw [String.toList_ofList, hbuild]
  rfl

end Doc

end SealedGraph.Json
