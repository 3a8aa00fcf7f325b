import FlagScript.Proofs.Grammar.Soundness
import FlagScript.Proofs.Source.Literal

/-!
# Words that are printed as they are read

`Word.Spelled` says of a word what the printer relies on: names of upper-case name characters,
integers and finite floats without a sign, no empty unquoted text. The lexer finds no other words
but floats that are infinite (`spelled_of_word?`), and the literals among them are cut off as tokens
of their class (`cutsOff_literalSource`). A word is `Printable` if it reads back as well
(`cut_literalSource`), which not every float does.
-/

namespace FlagScript

/-- Whether a float literal is read back as it was, once printed; other words always are. -/
def Word.ReadsBack : Word → Prop
  | literal _ (.float x) => Token.number (Value.floatText x).toList = .ok (.float x)
  | _ => True

instance (w : Word) : Decidable w.ReadsBack :=
  match w with
  | .literal _ (.float x) =>
    inferInstanceAs (Decidable (Token.number (Value.floatText x).toList = .ok (.float x)))
  | .literal _ (.int _) | .literal _ (.text _) | .literal _ (.bool _) | .mark _ | .name _ =>
    isTrue trivial

/-- A number that is neither infinite nor `nan`. -/
def Binary64.IsFinite : Binary64 → Prop
  | .nan => False
  | .signed _ m => m ≠ .infinity

/-- A decimal has the sign that is given for it. -/
theorem Binary64.exists_ofDecimal (negative : Bool) (n : Nat) (e : Int) :
    ∃ m, ofDecimal negative n e = .signed negative m := by
  unfold ofDecimal ofRatio
  split
  · exact ⟨_, rfl⟩
  split
  · exact ⟨_, rfl⟩
  split <;> exact ⟨_, rfl⟩

instance (x : Binary64) : Decidable x.IsFinite :=
  match x with
  | .nan => isFalse id
  | .signed _ m => inferInstanceAs (Decidable (m ≠ .infinity))

/-- Whether a float literal is finite; other words always are. -/
def Word.IsFinite : Word → Prop
  | literal _ (.float x) => x.IsFinite
  | _ => True

instance (w : Word) : Decidable w.IsFinite :=
  match w with
  | .literal _ (.float x) => inferInstanceAs (Decidable x.IsFinite)
  | .literal _ (.int _) | .literal _ (.text _) | .literal _ (.bool _) | .mark _ | .name _ =>
    isTrue trivial

inductive Word.Spelled : Word → Prop where
  | mark {kind : TokenClass} (h : kind.isMark = true) : Spelled (.mark kind)
  | name {name : String} (h : Token.IsName name) : Spelled (.name name)
  | int {i : Int64} (h : 0 ≤ i.toInt) : Spelled (.literal .number (.int i))
  | float {m : Magnitude} (h : m ≠ .infinity) :
      Spelled (.literal .number (.float (.signed false m)))
  | bool (b : Bool) : Spelled (.literal .boolean (.bool b))
  | quotedText (s : String) : Spelled (.literal .quotedText (.text s))
  | text {s : String} (h : s ≠ "") : Spelled (.literal .text (.text s))

inductive Word.Printable : Word → Prop where
  | mark (kind : TokenClass) : Printable (.mark kind)
  | name {name : String} (h : Token.IsName name) : Printable (.name name)
  | int {i : Int64} (h : 0 ≤ i.toInt) : Printable (.literal .number (.int i))
  | float {m : Magnitude} (h : (Word.literal .number (.float (.signed false m))).ReadsBack) :
      Printable (.literal .number (.float (.signed false m)))
  | bool (b : Bool) : Printable (.literal .boolean (.bool b))
  | quotedText (s : String) : Printable (.literal .quotedText (.text s))
  | text {s : String} (h : s ≠ "") : Printable (.literal .text (.text s))

namespace Word

variable {w : Word}

/-- Infinity and `nan` are printed as words that are no numbers. -/
theorem ReadsBack.isFinite (h : w.ReadsBack) : w.IsFinite := by
  unfold ReadsBack at h
  split at h
  next x =>
    cases x with
    | nan => exact absurd h (by decide +kernel)
    | signed negative m =>
      rintro rfl
      cases negative <;> exact absurd h (by decide +kernel)
  next hother =>
    unfold IsFinite
    split
    next => exact absurd rfl (hother _ _)
    next => trivial

theorem Spelled.printable (h : w.Spelled) (hback : w.ReadsBack) : w.Printable := by
  cases h with
  | mark _ => exact .mark _
  | name hname => exact .name hname
  | int hi => exact .int hi
  | float _ => exact .float hback
  | bool b => exact .bool b
  | quotedText s => exact .quotedText s
  | text hs => exact .text hs

theorem Printable.spelled (h : w.Printable) (hmark : ∀ k, w = .mark k → k.isMark = true) :
    w.Spelled := by
  cases h with
  | mark kind => exact .mark (hmark kind rfl)
  | name hname => exact .name hname
  | int hi => exact .int hi
  | float hback => exact .float hback.isFinite
  | bool b => exact .bool b
  | quotedText s => exact .quotedText s
  | text hs => exact .text hs

end Word

namespace Token

variable {rest : List Char}

/-! ## From words to source -/

/-- A literal is cut off in front of a boundary as it was printed. -/
theorem cut_literalSource {v : Value} {quoted : Bool}
    (h : (Word.literal (v.tokenKind quoted) v).Printable) (hrest : Boundary rest) :
    Cut (v.literalSource quoted).toList rest (.literal (v.tokenKind quoted) v) := by
  cases v with
  | int i =>
    cases h with
    | int hi => exact cut_int hi hrest
  | float x =>
    cases h with
    | float hx => exact cut_float hx hrest
  | bool b => exact cut_bool b hrest
  | text s =>
    cases quoted with
    | true => exact cut_quotedText s
    | false =>
      cases h with
      | text hs =>
        have hempty : s.isEmpty = false := by simpa using hs
        rw [Value.literalSource, hempty]
        exact cut_text hs hrest

/-- The same for the class alone. -/
theorem cutsOff_literalSource {v : Value} {quoted : Bool}
    (h : (Word.literal (v.tokenKind quoted) v).Spelled) (hrest : Boundary rest) :
    CutsOff (v.tokenKind quoted, (v.literalSource quoted).toList) rest := by
  cases v with
  | float x =>
    cases h with
    | float hm => exact cutsOff_float hm hrest
  | int _ | bool _ | text _ => exact (cut_literalSource (h.printable trivial) hrest).cutsOff

/-! ## From source to words -/

variable {t : Token} {w : Word}

theorem integer?_nonneg {cs : List Char} {i : Int64} (h : integer? cs = some i) :
    0 ≤ i.toInt := by
  have hfits : ∀ n, (if n < integerEnd then some (Int64.ofNat n) else none) = some i →
      0 ≤ i.toInt := by
    intro n hn
    split at hn
    next hlt =>
      cases hn
      have hend : integerEnd = 2 ^ 63 := rfl
      rw [Int64.toInt_ofNat_of_lt (by omega)]
      exact Int.natCast_nonneg n
    next => cases hn
  unfold integer? at h
  obtain ⟨base, _, h⟩ := Option.bind_eq_some_iff.1 h
  simp only at h
  -- with no exponent, with a negative one and with another
  split at h
  all_goals
    obtain ⟨n, _, hn⟩ := Option.bind_eq_some_iff.1 h
    exact hfits n hn

/-- A number without a minus sign in front of it is not negative. -/
theorem binary64?_unsigned {cs : List Char} {x : Binary64} (hcs : cs.head? ≠ some '-')
    (h : Decimal.binary64? cs = some x) : x = .nan ∨ ∃ m, x = .signed false m := by
  have hsign : (Decimal.sign cs).1 = false := by
    unfold Decimal.sign
    split
    next => exact absurd rfl hcs
    next => rfl
    next => rfl
  unfold Decimal.binary64? at h
  simp only [hsign] at h
  split at h
  next d _ =>
    cases h
    exact .inr (Binary64.exists_ofDecimal false d.digits d.exponent)
  next =>
    unfold Decimal.named? at h
    simp only at h
    split at h
    · cases h; exact .inl rfl
    split at h
    · cases h; exact .inr ⟨_, rfl⟩
    · cases h

theorem scan_eq_some_number {c : Char} {cs : List Char} {n : Nat}
    (h : scan c cs = some (.number, n)) : c ≠ '-' := by
  rintro rfl
  unfold scan at h
  split at h <;> simp_all

theorem isLiteral_scanLiteral (cs : List Char) : (scanLiteral cs).1.isLiteral = true := by
  unfold scanLiteral
  simp only
  split
  · rfl
  · split <;> rfl

theorem scan_eq_some_identifier {c : Char} {cs : List Char} {n : Nat}
    (h : scan c cs = some (.identifier, n)) :
    cs.takeWhile isNameChar ≠ [] ∧ cs.take n = cs.takeWhile isNameChar := by
  unfold scan at h
  split at h
  any_goals cases h
  · -- a name
    split at h
    next => cases h
    next hn =>
      cases h
      exact ⟨fun hnil => hn (List.length_eq_zero_iff.2 hnil),
        (List.prefix_iff_eq_take.1 (List.takeWhile_prefix _)).symm⟩
  · -- quoted text
    obtain ⟨_, _, h⟩ := Option.map_eq_some_iff.1 h
    cases h
  · -- a literal
    split at h
    next => cases h
    next kind k hlit =>
      cases h
      have hkind := isLiteral_scanLiteral (c :: cs)
      rw [hlit] at hkind
      cases hkind

theorem spelled_number {v : Value} (ht : Scanned t.form) (hk : t.kind = .number)
    (hv : number t.lexeme = .ok v) (hfin : (Word.literal .number v).IsFinite) :
    (Word.literal .number v).Spelled := by
  obtain ⟨c, cs, n, _, hscan, hlexeme⟩ := ht
  -- a sign is a token of its own, so the number has none
  have hc : t.lexeme.head? ≠ some '-' := by
    intro hminus
    have hhead : t.lexeme.head? = some c := congrArg List.head? hlexeme
    rw [hhead] at hminus
    rw [show t.form.1 = .number from hk] at hscan
    exact scan_eq_some_number hscan (Option.some.inj hminus)
  unfold number at hv
  split at hv
  · split at hv
    next x hx =>
      cases hv
      rcases binary64?_unsigned hc hx with rfl | ⟨m, rfl⟩
      · cases hfin
      · exact .float hfin
    next => cases hv
  · split at hv
    next i hi =>
      cases hv
      exact .int (integer?_nonneg hi)
    next => cases hv

theorem unescape_ne_nil {cs : List Char} (h : cs ≠ []) : unescape cs ≠ [] := by
  unfold unescape
  split
  next => exact absurd rfl h
  all_goals exact List.cons_ne_nil _ _

theorem spelled_literal {v : Value} {quoted : Bool} (ht : Scanned t.form)
    (hk : t.kind.isLiteral = true) (hv : t.literal = .ok (.literal v quoted))
    (hfin : (Word.literal t.kind v).IsFinite) : (Word.literal t.kind v).Spelled := by
  unfold literal at hv
  split at hv
  next hkind =>
    rw [hkind] at hfin ⊢
    cases hnumber : number t.lexeme with
    | error cause => rw [hnumber] at hv; cases hv
    | ok v' =>
      rw [hnumber] at hv
      cases hv
      exact spelled_number ht hkind hnumber hfin
  next hkind =>
    rw [hkind]
    split at hv
    next b _ => cases hv; exact .bool b
    next => cases hv
  next hkind =>
    rw [hkind]
    cases hv
    exact .quotedText _
  next h₁ h₂ h₃ =>
    -- the one class of literals that is left
    have hkind : t.kind = .text := by
      cases hkind : t.kind <;> simp_all [TokenClass.isLiteral]
    rw [hkind]
    cases hv
    obtain ⟨c, cs, n, _, _, hlexeme⟩ := ht
    refine .text ?_
    rw [show t.lexeme = c :: cs.take n from hlexeme, ne_eq, String.ofList_eq_empty_iff]
    exact unescape_ne_nil (List.cons_ne_nil _ _)

theorem isName_name (ht : Scanned t.form) (hk : t.kind = .identifier) : IsName t.name := by
  obtain ⟨c, cs, n, _, hscan, hlexeme⟩ := ht
  rw [show t.form.1 = .identifier from hk] at hscan
  obtain ⟨hne, htake⟩ := scan_eq_some_identifier hscan
  have hdrop : t.lexeme.drop 1 = cs.takeWhile isNameChar := by
    rw [show t.lexeme = c :: cs.take n from hlexeme, List.drop_succ_cons, List.drop_zero, htake]
  rw [name, hdrop]
  exact isName_upper hne (List.all_eq_true.1 List.all_takeWhile)

/-- Whatever the lexer finds is spelled as the printer does it, if it is not an infinite float. -/
theorem spelled_of_word? (ht : Scanned t.form) (hw : t.word? = some w) (hfin : w.IsFinite) :
    w.Spelled := by
  by_cases hid : t.kind = .identifier
  · rw [word?_of_identifier hid] at hw
    cases hw
    exact .name (isName_name ht hid)
  · by_cases hlit : t.kind.isLiteral = true
    · obtain ⟨v, hv, rfl⟩ := (word?_eq_some_iff_of_literal hlit).1 hw
      exact spelled_literal ht hlit hv hfin
    · have hmark : t.kind.isMark = true := by simp [TokenClass.isMark, hid, hlit]
      rw [word?_of_mark rfl hmark] at hw
      cases hw
      exact .mark hmark

end Token

namespace Script

/-- A word of a script that was read is spelled so, if it is not an infinite float. -/
theorem spelled_of_parse {source : String} {script : Script} {w : Word}
    (h : parse source = .ok script) (hw : w ∈ script.words) (hfin : w.IsFinite) : w.Spelled := by
  obtain ⟨ts, ps, hlex, _, hps, hes⟩ := parse_eq_ok_iff.1 h
  obtain ⟨hwords, _⟩ := Phrase.statements_spells hps hes
  obtain ⟨t, ht, htw⟩ : ∃ t ∈ ts, t.word? = some w := by
    have hmem : some w ∈ ts.map Token.word? := by
      rw [← hwords]
      exact List.mem_map_of_mem hw
    simpa using hmem
  have hscanned := Token.scanned_of_lexes (Token.lexes_of_lex hlex) t.form
    (List.mem_map_of_mem ht)
  exact Token.spelled_of_word? hscanned htw hfin

/-- A word of a script that was read is printable, if it reads back. -/
theorem printable_of_parse {source : String} {script : Script} {w : Word}
    (h : parse source = .ok script) (hw : w ∈ script.words) (hback : w.ReadsBack) :
    w.Printable :=
  (spelled_of_parse h hw hback.isFinite).printable hback

end Script

end FlagScript
