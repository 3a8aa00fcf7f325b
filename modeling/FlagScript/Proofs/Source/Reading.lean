import FlagScript.Proofs.Grammar.Spelling
import FlagScript.Proofs.Source.Scan
import FlagScript.Proofs.Token.Stream
import Mathlib.Data.List.TakeWhile

/-!
# Source that reads as words

`Cut cs rest w`: in front of `rest` the characters `cs` are cut off as one token, which says the
word `w`; `CutsOff` tells its class only. `Reads cs ws`: cutting all of `cs` gives tokens that say
the words `ws`. Whatever is printed is put together from cuts, with layout between some of them.
-/

namespace FlagScript

namespace Token

/-! ## Cuts -/

/-- What the lexer cuts off in front of `rest`. -/
structure Cut (cs rest : List Char) (w : Word) : Prop where
  isToken : ∃ c ds kind, cs = c :: ds ∧ Text.isLayout c = false ∧
    scan c (ds ++ rest) = some (kind, ds.length) ∧ word? ⟨kind, c :: ds, .start⟩ = some w

/-- The same of a token by its class and its characters. -/
structure CutsOff (f : TokenClass × List Char) (rest : List Char) : Prop where
  isToken : ∃ c ds, f.2 = c :: ds ∧ Text.isLayout c = false ∧
    scan c (ds ++ rest) = some (f.1, ds.length)

/-- The words of the tokens that characters are cut into. -/
def Reads (cs : List Char) (ws : List Word) : Prop :=
  ∃ fs, Lexes cs fs ∧ fs.map (fun f => word? ⟨f.1, f.2, .start⟩) = ws.map some

variable {cs rest : List Char} {w : Word} {ws : List Word}

theorem Cut.word?_eq (h : Cut cs rest w) : word? ⟨w.kind, cs, .start⟩ = some w := by
  obtain ⟨c, ds, kind, rfl, -, -, hw⟩ := h.isToken
  rwa [kind_of_word? hw]

theorem Cut.cutsOff (h : Cut cs rest w) : CutsOff (w.kind, cs) rest := by
  obtain ⟨c, ds, kind, rfl, hc, hscan, hw⟩ := h.isToken
  rw [kind_of_word? hw]
  exact ⟨c, ds, rfl, hc, hscan⟩

theorem CutsOff.lexes {f : TokenClass × List Char} {fs : List (TokenClass × List Char)}
    (h : CutsOff f rest) (hrest : Lexes rest fs) : Lexes (f.2 ++ rest) (f :: fs) := by
  obtain ⟨kind, cs⟩ := f
  obtain ⟨c, ds, rfl, hc, hscan⟩ := h.isToken
  exact lexes_append hc hscan hrest

/-- What a token says does not depend on its place. -/
theorem word?_form (t : Token) : word? ⟨t.form.1, t.form.2, .start⟩ = t.word? := rfl

theorem Reads.lex (h : Reads cs ws) : ∃ ts, lex cs = .ok ts ∧ ts.map word? = ws.map some := by
  obtain ⟨fs, hlex, hfs⟩ := h
  obtain ⟨ts, hts, rfl⟩ := lex_of_lexes hlex
  refine ⟨ts, hts, ?_⟩
  rw [← hfs, List.map_map]
  exact List.map_congr_left fun t _ => (word?_form t).symm

/-! ## Operators and punctuation -/

theorem cut_of_mark {c : Char} {ds : List Char} {k : TokenClass} (hc : Text.isLayout c = false)
    (hscan : scan c (ds ++ rest) = some (k, ds.length)) (hk : k.isMark = true) :
    Cut (c :: ds) rest (.mark k) :=
  ⟨c, ds, k, rfl, hc, hscan, word?_of_mark rfl hk⟩

theorem cut_leftParen : Cut ['('] rest (.mark .leftParen) := cut_of_mark (by decide) rfl rfl

theorem cut_rightParen : Cut [')'] rest (.mark .rightParen) := cut_of_mark (by decide) rfl rfl

theorem cut_comma : Cut [','] rest (.mark .comma) := cut_of_mark (by decide) rfl rfl

/-- An operator between two operands, with a blank behind it. -/
theorem cut_binaryOp (op : BinaryOp) : Cut op.symbol.toList (' ' :: rest) (.mark op.kind) := by
  cases op <;> exact cut_of_mark (by decide) rfl rfl

theorem cut_assignOp (op : AssignOp) : Cut op.symbol.toList (' ' :: rest) (.mark op.kind) := by
  cases op <;> exact cut_of_mark (by decide) rfl rfl

theorem cut_stepOp {op : AssignOp} (hop : op.takesValue = false) :
    Cut op.symbol.toList rest (.mark op.kind) := by
  cases op <;> first | exact cut_of_mark (by decide) rfl rfl | cases hop

/-- A prefix operator, unless it would read as a longer one. -/
theorem cut_unaryOp (op : UnaryOp) (hset : rest.head? ≠ some '=')
    (hneg : op = .neg → rest.head? ≠ some '-') : Cut op.symbol.toList rest (.mark op.kind) := by
  cases op with
  | neg =>
    show Cut ['-'] rest (.mark .minus)
    refine cut_of_mark (by decide) ?_ rfl
    have hminus := hneg rfl
    rw [List.nil_append]
    unfold scan
    split <;> simp_all
  | not =>
    show Cut ['!'] rest (.mark .not)
    refine cut_of_mark (by decide) ?_ rfl
    rw [List.nil_append]
    unfold scan
    split <;> simp_all

/-! ## Names -/

/-- A name as a source may have it: not empty, and of name characters in any letter case. -/
structure IsSpelling (name : String) : Prop where
  nonempty : name.toList ≠ []
  chars : ∀ c ∈ name.toList, isNameChar c = true

/-- A name in any letter case says the name in upper case. -/
theorem cut_spelling {name : String} (h : IsSpelling name)
    (hrest : ∀ c ∈ rest.head?, isNameChar c = false) :
    Cut ('$' :: name.toList) rest (.name (Text.upper name)) := by
  refine ⟨'$', name.toList, .identifier, rfl, by decide, ?_, ?_⟩
  · have hall : name.toList.takeWhile isNameChar = name.toList :=
      List.takeWhile_eq_self_iff.2 h.chars
    obtain ⟨c, cs, hcons⟩ := List.exists_cons_of_ne_nil h.nonempty
    simp only [scan, takeWhile_append_of_head hrest, hall]
    rw [hcons]
    rfl
  · rw [word?_of_identifier rfl, Token.name, List.drop_succ_cons, List.drop_zero,
      String.ofList_toList]

/-- A name as the parser knows it: not empty, of name characters, and in upper case. -/
structure IsName (name : String) : Prop where
  nonempty : name.toList ≠ []
  chars : ∀ c ∈ name.toList, isNameChar c = true
  upper : Text.upper name = name

theorem cut_name {name : String} (h : IsName name)
    (hrest : ∀ c ∈ rest.head?, isNameChar c = false) :
    Cut ('$' :: name.toList) rest (.name name) := by
  have hcut := cut_spelling ⟨h.nonempty, h.chars⟩ hrest
  rwa [h.upper] at hcut

/-- Names are ASCII. -/
theorem toNat_lt_of_isNameChar {c : Char} (h : isNameChar c = true) : c.toNat < 128 := by
  change (((decide (c.val ≥ 'A'.val ∧ c.val ≤ 'Z'.val) ||
    (decide (c.val ≥ 'a'.val) && decide (c.val ≤ 'z'.val))) ||
    (decide (c.val ≥ '0'.val) && decide (c.val ≤ '9'.val))) || c == '_') = true at h
  simp only [Bool.or_eq_true, Bool.and_eq_true, decide_eq_true_eq, beq_iff_eq, ge_iff_le,
    UInt32.le_iff_toNat_le] at h
  rcases h with ((⟨_, h⟩ | ⟨_, h⟩) | ⟨_, h⟩) | rfl
  · exact Nat.lt_of_le_of_lt h (by decide)
  · exact Nat.lt_of_le_of_lt h (by decide)
  · exact Nat.lt_of_le_of_lt h (by decide)
  · decide

/-- There are few enough characters of names to look at each. -/
theorem of_isNameChar {P : Char → Prop}
    (hall : ∀ n : Fin 128, isNameChar (Char.ofNat n) = true → P (Char.ofNat n)) {c : Char}
    (h : isNameChar c = true) : P c := by
  have hc := hall ⟨c.toNat, toNat_lt_of_isNameChar h⟩
  simp only [Char.ofNat_toNat] at hc
  exact hc h

/-- The upper-case form of a name character is one, and in upper case. -/
theorem upperChar_of_isNameChar {c : Char} (h : isNameChar c = true) :
    Text.upperChar c = [c.toUpper] ∧ isNameChar c.toUpper = true ∧
      c.toUpper.toUpper = c.toUpper :=
  of_isNameChar (P := fun c => Text.upperChar c = [c.toUpper] ∧ isNameChar c.toUpper = true ∧
    c.toUpper.toUpper = c.toUpper) (by decide) h

theorem upper_of_nameChars {cs : List Char} (h : ∀ c ∈ cs, isNameChar c = true) :
    Text.upper (String.ofList cs) = String.ofList (cs.map Char.toUpper) := by
  rw [Text.upper, String.toList_ofList]
  congr 1
  induction cs with
  | nil => rfl
  | cons c cs ih =>
    rw [List.flatMap_cons, (upperChar_of_isNameChar (h c (by simp))).1,
      ih fun d hd => h d (by simp [hd]), List.map_cons]
    rfl

/-- The lexer cuts off names that the parser knows in upper case. -/
theorem isName_upper {cs : List Char} (hcs : cs ≠ []) (h : ∀ c ∈ cs, isNameChar c = true) :
    IsName (Text.upper (String.ofList cs)) := by
  have hchars : ∀ c ∈ cs.map Char.toUpper, isNameChar c = true := by
    intro c hc
    obtain ⟨d, hd, rfl⟩ := List.mem_map.1 hc
    exact (upperChar_of_isNameChar (h d hd)).2.1
  rw [upper_of_nameChars h]
  refine ⟨by simpa using hcs, by simpa using hchars, ?_⟩
  rw [upper_of_nameChars hchars, List.map_map]
  congr 1
  exact List.map_congr_left fun c hc => (upperChar_of_isNameChar (h c hc)).2.2

end Token

end FlagScript
