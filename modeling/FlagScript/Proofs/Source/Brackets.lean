import FlagScript.Proofs.Source.Ends
import Mathlib.Data.List.Chain
import Mathlib.Data.List.Infix

/-!
# Brackets in a printed script

Two closing brackets in a row end a directive, so the condition that stands in it must neither hold
nor begin them. Nothing but the texts of a script can bring them about: escapes neither put brackets
together nor part them, and between two words stands something else (`enclosed_source_iff`). Nor
does a printed script have more closing brackets than any source that is read as this script
(`count_source_le`).
-/

namespace FlagScript

/-! ## Characters with no two closing brackets in a row -/

/-- Brackets behind these characters are the first two in a row. -/
structure Enclosed (cs : List Char) : Prop where
  inside : ¬[']', ']'] <:+: cs
  last : cs.getLast? ≠ some ']'

namespace Text

/-- No two closing brackets stand in a row. -/
def BracketsApart (cs : List Char) : Prop := cs.IsChain fun a b => ¬(a = ']' ∧ b = ']')

variable {cs ds : List Char} {c : Char}

theorem bracketsApart_iff : BracketsApart cs ↔ ¬[']', ']'] <:+: cs := by
  rw [BracketsApart, List.isChain_iff_forall_rel_of_append_cons_cons]
  constructor
  · rintro h ⟨before, behind, hcs⟩
    have hsplit : cs = before ++ ']' :: ']' :: behind := by rw [← hcs]; simp
    exact h hsplit ⟨rfl, rfl⟩
  · rintro h a b before behind rfl ⟨rfl, rfl⟩
    exact h ⟨before, behind, by simp⟩

theorem bracketsApart_cons_iff :
    BracketsApart (c :: cs) ↔ (c = ']' → cs.head? ≠ some ']') ∧ BracketsApart cs := by
  rw [BracketsApart, List.isChain_cons]
  constructor
  · rintro ⟨hhead, htail⟩
    exact ⟨fun hc hcs => hhead ']' hcs ⟨hc, rfl⟩, htail⟩
  · rintro ⟨hhead, htail⟩
    refine ⟨?_, htail⟩
    rintro d hd ⟨hc, rfl⟩
    exact hhead hc hd

theorem bracketsApart_cons_of_ne (hc : c ≠ ']') : BracketsApart (c :: cs) ↔ BracketsApart cs := by
  simp [bracketsApart_cons_iff, hc]

/-- Behind another character nothing goes on that stood in front of it. -/
theorem bracketsApart_append_cons (hc : c ≠ ']') :
    BracketsApart (cs ++ c :: ds) ↔ BracketsApart cs ∧ BracketsApart ds := by
  have hbehind : BracketsApart (c :: ds) ↔ BracketsApart ds := bracketsApart_cons_of_ne hc
  rw [BracketsApart, List.isChain_append]
  constructor
  · rintro ⟨hcs, hds, -⟩
    exact ⟨hcs, hbehind.1 hds⟩
  · rintro ⟨hcs, hds⟩
    refine ⟨hcs, hbehind.2 hds, ?_⟩
    rintro b _ a ha ⟨_, rfl⟩
    cases ha
    exact hc rfl

theorem bracketsApart_of_forall (h : ∀ c ∈ cs, c ≠ ']') : BracketsApart cs := by
  rw [bracketsApart_iff]
  exact fun hheld => h ']' (hheld.mem (by simp)) rfl

end Text

/-! ## Texts -/

namespace Value

/-- Backslashes are put in front of some characters, but of no bracket. -/
inductive Escapes : List Char → List Char → Prop where
  | nil : Escapes [] []
  | char {cs ds : List Char} (c : Char) (h : Escapes cs ds) : Escapes (c :: cs) (c :: ds)
  | escape {cs ds : List Char} {c : Char} (hc : c ≠ ']') (h : Escapes cs ds) :
      Escapes (c :: cs) ('\\' :: c :: ds)

theorem escapes_escapeFrom (last : Nat) : ∀ (cs : List Char) (i : Nat),
    Escapes cs (escapeFrom last i cs)
  | [], _ => .nil
  | c :: cs, i => by
    have hcs := escapes_escapeFrom last cs (i + 1)
    rw [escapeFrom_cons]
    split
    next hc =>
      refine .escape ?_ hcs
      rintro rfl
      cases hc
    next => exact .char c hcs

theorem escapes_quoteEscape : ∀ cs : List Char, Escapes cs (cs.flatMap quoteEscape)
  | [] => .nil
  | c :: cs => by
    have hcs := escapes_quoteEscape cs
    rw [List.flatMap_cons, quoteEscape]
    split
    next hc =>
      refine .escape ?_ hcs
      rintro rfl
      cases hc
    next => exact .char c hcs

namespace Escapes

variable {cs ds : List Char}

theorem head_iff (h : Escapes cs ds) : ds.head? = some ']' ↔ cs.head? = some ']' := by
  cases h with
  | nil => rfl
  | char c _ => rfl
  | escape hc _ => simp [hc]

/-- Escapes neither put brackets together nor part them. -/
theorem bracketsApart_iff (h : Escapes cs ds) : Text.BracketsApart ds ↔ Text.BracketsApart cs := by
  induction h with
  | nil => rfl
  | char c h ih => simp only [Text.bracketsApart_cons_iff, ne_eq, h.head_iff, ih]
  | escape hc _ ih =>
    rw [Text.bracketsApart_cons_of_ne (by decide), Text.bracketsApart_cons_of_ne hc,
      Text.bracketsApart_cons_of_ne hc, ih]

theorem count_eq (h : Escapes cs ds) : ds.count ']' = cs.count ']' := by
  induction h with
  | nil => rfl
  | char c _ ih => rw [List.count_cons, List.count_cons, ih]
  | escape hc _ ih => simp [hc, ih]

end Escapes

/-- In unquoted text one backslash may stand in front of all. -/
theorem unquoted_eq (cs : List Char) : ∃ ds, Escapes cs ds ∧ (unquoted cs = ds ∨
    unquoted cs = '\\' :: ds) := by
  refine ⟨escape cs, escapes_escapeFrom _ cs 0, ?_⟩
  unfold unquoted
  split
  · exact .inr rfl
  · exact .inl rfl

end Value

/-! ## Words -/

namespace Word

/-- The text of a word that is one, quoted or not. -/
def text? : Word → Option String
  | literal _ (.text s) => some s
  | _ => none

/-- If the word is a text, it holds no two closing brackets in a row. -/
def BracketsApart (w : Word) : Prop := ∀ s ∈ w.text?, ¬[']', ']'] <:+: s.toList

/-- How many closing brackets the word holds if it is a text. -/
def brackets (w : Word) : Nat := w.text?.elim 0 fun s => s.toList.count ']'

variable {w : Word}

/-- A printed text is its quotes or a backslash in front, and escapes within. -/
theorem form_of_text? {s : String} (h : w.Spelled) (hs : w.text? = some s) :
    ∃ ds, Value.Escapes s.toList ds ∧
      (w.form.2 = ds ∨ w.form.2 = '\\' :: ds ∨ w.form.2 = '@' :: ds ++ ['@']) := by
  cases h with
  | quotedText s' =>
    cases hs
    exact ⟨_, Value.escapes_quoteEscape s.toList, .inr (.inr (form_quotedText s))⟩
  | text hne =>
    cases hs
    obtain ⟨ds, hescapes, hds⟩ := Value.unquoted_eq s.toList
    rw [← form_text hne] at hds
    exact ⟨ds, hescapes, hds.imp id .inl⟩
  | mark _ | name _ | int _ | float _ | bool _ => cases hs

theorem ne_bracket_of_mem_form (h : w.Spelled) (hnone : w.text? = none) :
    ∀ c ∈ w.form.2, c ≠ ']' := by
  have hother : ∀ kind s, w ≠ .literal kind (.text s) := by
    rintro kind s rfl
    cases hnone
  exact fun c hc => (Text.isSolid_iff.1 (isSolid_of_mem_form h hother c hc)).2

theorem bracketsApart_form (h : w.Spelled) : Text.BracketsApart w.form.2 ↔ w.BracketsApart := by
  cases hs : w.text? with
  | none =>
    have hform := Text.bracketsApart_of_forall (ne_bracket_of_mem_form h hs)
    simp [BracketsApart, hs, hform]
  | some s =>
    obtain ⟨ds, hescapes, hds⟩ := form_of_text? h hs
    have hsame : w.BracketsApart ↔ Text.BracketsApart s.toList := by
      simp [BracketsApart, hs, Text.bracketsApart_iff]
    rw [hsame, ← hescapes.bracketsApart_iff]
    rcases hds with hds | hds | hds
    · rw [hds]
    · rw [hds, Text.bracketsApart_cons_of_ne (by decide)]
    · rw [hds, List.cons_append, Text.bracketsApart_cons_of_ne (by decide),
        Text.bracketsApart_append_cons (by decide), and_iff_left .nil]

theorem count_form (h : w.Spelled) : w.form.2.count ']' = w.brackets := by
  cases hs : w.text? with
  | none =>
    have hform : ']' ∉ w.form.2 := fun hmem => ne_bracket_of_mem_form h hs ']' hmem rfl
    rw [List.count_eq_zero.2 hform, brackets, hs]
    rfl
  | some s =>
    obtain ⟨ds, hescapes, hds⟩ := form_of_text? h hs
    have hcount : w.brackets = ds.count ']' := by
      rw [brackets, hs, hescapes.count_eq]
      rfl
    rcases hds with hds | hds | hds <;> simp [hds, hcount]

end Word

/-! ## Expressions -/

theorem BinaryOp.ne_bracket (op : BinaryOp) : ∀ c ∈ op.symbol.toList, c ≠ ']' := by
  have hall : op.symbol.toList.all (· != ']') = true := by cases op <;> rfl
  simpa using hall

theorem AssignOp.ne_bracket (op : AssignOp) : ∀ c ∈ op.symbol.toList, c ≠ ']' := by
  have hall : op.symbol.toList.all (· != ']') = true := by cases op <;> rfl
  simpa using hall

theorem Token.IsName.ne_bracket {name : String} (h : IsName name) : ∀ c ∈ name.toList, c ≠ ']' :=
  fun c hc => (Text.isSolid_iff.1 (Text.isSolid_of_isNameChar (h.chars c hc))).2

namespace Word

@[simp]
theorem bracketsApart_mark (kind : TokenClass) : (mark kind).BracketsApart := nofun

@[simp]
theorem bracketsApart_name (name : String) : (Word.name name).BracketsApart := nofun

end Word

namespace Expr

open Text (bracketsApart_of_forall bracketsApart_cons_of_ne bracketsApart_append_cons)

mutual

/-- Between two words of an expression something is printed that is no bracket. -/
theorem bracketsApart_source : ∀ e : Expr, (∀ w ∈ e.words, w.Spelled) →
    (Text.BracketsApart e.source.toList ↔ ∀ w ∈ e.words, w.BracketsApart)
  | .literal v quoted, hs => by
    have hform := Word.bracketsApart_form (hs (.literal (v.tokenKind quoted) v) (by simp [words]))
    rw [Word.form_literal] at hform
    simpa [source, words] using hform
  | .flag name, hs => by
    have hname := (hs (.name name) (by simp [words])).isName.ne_bracket
    simp [source, words, bracketsApart_cons_of_ne, bracketsApart_of_forall hname]
  | .step name op, hs => by
    have hname := (hs (.name name) (by simp [words])).isName.ne_bracket
    have hstep := bracketsApart_of_forall (List.forall_mem_append.2 ⟨hname, op.ne_bracket⟩)
    simp [source, words, bracketsApart_cons_of_ne, hstep]
  | .assign name op value, hs => by
    have hname := (hs (.name name) (by simp [words])).isName.ne_bracket
    have hvalue := bracketsApart_source value fun w hw => hs w (by simp [words, hw])
    simp [source, words, bracketsApart_cons_of_ne, bracketsApart_append_cons,
      bracketsApart_of_forall hname, bracketsApart_of_forall op.ne_bracket, hvalue]
  | .call name args, hs => by
    have hname := (hs (.name name) (by simp [words])).isName.ne_bracket
    have hargs := bracketsApart_sources args fun w hw => hs w (by simp [words, hw])
    have hend : Text.BracketsApart [] := .nil
    simp [source, words, bracketsApart_cons_of_ne, bracketsApart_append_cons,
      bracketsApart_of_forall hname, hargs, hend, or_imp, forall_and]
  | .group inner, hs => by
    have hinner := bracketsApart_source inner fun w hw => hs w (by simp [words, hw])
    have hend : Text.BracketsApart [] := .nil
    simp [source, words, bracketsApart_cons_of_ne, bracketsApart_append_cons, hinner, hend, or_imp,
      forall_and]
  | .binary op left right, hs => by
    have hleft := bracketsApart_source left fun w hw => hs w (by simp [words, hw])
    have hright := bracketsApart_source right fun w hw => hs w (by simp [words, hw])
    simp [source, words, bracketsApart_append_cons, bracketsApart_of_forall op.ne_bracket, hleft,
      hright, or_imp, forall_and]
  | .unary op operand, hs => by
    have hoperand := bracketsApart_source operand fun w hw => hs w (by simp [words, hw])
    cases op <;> rw [source] <;> split <;>
      simp [UnaryOp.symbol, words, bracketsApart_cons_of_ne, hoperand]

theorem bracketsApart_sources : ∀ es : List Expr, (∀ w ∈ argumentWords es, w.Spelled) →
    (Text.BracketsApart (joinWith ", " (sources es)).toList ↔
      ∀ w ∈ argumentWords es, w.BracketsApart)
  | [], _ => by
    have hend : Text.BracketsApart [] := .nil
    simp [sources, joinWith, argumentWords, hend]
  | [e], hs => bracketsApart_source e hs
  | e :: e' :: es, hs => by
    have he := bracketsApart_source e fun w hw => hs w (by simp [argumentWords, hw])
    have hmore := bracketsApart_sources (e' :: es) fun w hw => hs w (by simp [argumentWords, hw])
    rw [sources] at hmore
    simp [sources, joinWith, argumentWords, bracketsApart_cons_of_ne, bracketsApart_append_cons, he,
      hmore, or_imp, forall_and]

end

end Expr

/-! ## Scripts -/

namespace Script

theorem bracketsApart_source : ∀ script : Script, (∀ w ∈ script.words, w.Spelled) →
    (Text.BracketsApart script.source.toList ↔ ∀ w ∈ script.words, w.BracketsApart)
  | [], _ => by
    have hend : Text.BracketsApart [] := .nil
    simp [source, Expr.joinWith, words, hend]
  | [e], hs => by
    have he := e.bracketsApart_source fun w hw => hs w (by simp [words, hw])
    simpa [source, Expr.joinWith, words] using he
  | e :: e' :: es, hs => by
    have hwords : words (e :: e' :: es) = e.words ++ words (e' :: es) := rfl
    rw [hwords, List.forall_mem_append] at hs ⊢
    have he := e.bracketsApart_source hs.1
    have hmore := bracketsApart_source (e' :: es) hs.2
    rw [source_cons_cons, Text.bracketsApart_append_cons (by decide), he, hmore]

/-- No text of a condition ends the directive that the condition is printed in: none holds the
brackets, and unquoted text at its end does not begin them. -/
structure Enclosable (script : Script) : Prop where
  inside : ∀ w ∈ script.words, ∀ s ∈ w.text?, ¬[']', ']'] <:+: s.toList
  last : ∀ w ∈ script.words.getLast?, w.kind = .text →
    ∀ s ∈ w.text?, s.toList.getLast? ≠ some ']'

instance (script : Script) : Decidable script.Enclosable :=
  decidable_of_iff
    ((∀ w ∈ script.words, ∀ s ∈ w.text?, ¬[']', ']'] <:+: s.toList) ∧
      ∀ w ∈ script.words.getLast?, w.kind = .text → ∀ s ∈ w.text?, s.toList.getLast? ≠ some ']')
    ⟨fun h => ⟨h.1, h.2⟩, fun h => ⟨h.inside, h.last⟩⟩

/-- Only unquoted text at the end of a script puts a bracket at the end of its source. -/
theorem getLast_source_iff {script : Script} (hs : ∀ w ∈ script.words, w.Spelled) :
    script.source.toList.getLast? = some ']' ↔ ∃ w ∈ script.words.getLast?, w.kind = .text ∧
      ∃ s ∈ w.text?, s.toList.getLast? = some ']' := by
  cases script with
  | nil => simp [source, Expr.joinWith, words]
  | cons e es =>
    obtain ⟨ws, w, hwords, cs, hcs⟩ := suffix_source e es
    have hw : w.Spelled := hs w (by rw [hwords]; simp)
    rw [← hcs, List.getLast?_append_of_ne_nil _ hw.form_ne_nil, hwords, List.getLast?_concat]
    simp only [Option.mem_some_iff, exists_eq_left']
    constructor
    · intro hbracket
      rcases Word.getLast_form hw hbracket with hsolid | ⟨s, rfl, hend⟩
      · exact absurd hsolid (by decide)
      · exact ⟨rfl, s, rfl, hend⟩
    · rintro ⟨hkind, s, htext, hend⟩
      cases hw with
      | @text s' hne =>
        obtain rfl : s' = s := Option.some.inj htext
        have hnil : s'.toList ≠ [] := by simpa using hne
        rw [Word.form_text hne, ← Token.getLast_unescape, Value.unescape_unquoted hnil, hend]
      | quotedText _ => cases hkind
      | mark _ | name _ | int _ | float _ | bool _ => cases htext

/-- Texts alone decide whether a printed condition ends where its directive does. -/
theorem enclosed_source_iff {script : Script} (hs : ∀ w ∈ script.words, w.Spelled) :
    Enclosed script.source.toList ↔ script.Enclosable := by
  have hinside := bracketsApart_source script hs
  rw [Text.bracketsApart_iff] at hinside
  have hlast := not_congr (getLast_source_iff hs)
  constructor
  · intro h
    refine ⟨hinside.1 h.inside, fun w hw hkind s hstext hend => ?_⟩
    exact hlast.1 h.last ⟨w, hw, hkind, s, hstext, hend⟩
  · intro h
    refine ⟨hinside.2 h.inside, hlast.2 ?_⟩
    rintro ⟨w, hw, hkind, s, hstext, hend⟩
    exact h.last w hw hkind s hstext hend

end Script

/-! ## Counting brackets -/

namespace Token

/-- A character that is no layout stands in the lexemes as often as in the source. -/
theorem Lexes.count_eq {d : Char} (hd : Text.isLayout d = false) {cs : List Char}
    {fs : List (TokenClass × List Char)} (h : Lexes cs fs) :
    cs.count d = (fs.flatMap Prod.snd).count d := by
  induction h with
  | nil => rfl
  | @layout c cs fs hc _ ih =>
    have hne : c ≠ d := by
      rintro rfl
      rw [hc] at hd
      cases hd
    rw [List.count_cons_of_ne hne, ih]
  | @token c cs fs kind n _ _ _ ih =>
    rw [List.flatMap_cons, List.count_append, ← ih, ← List.count_append, List.cons_append,
      List.take_append_drop]

theorem unescape_sublist (cs : List Char) : (unescape cs).Sublist cs := by
  fun_induction unescape cs with
  | case1 => exact .slnil
  | case2 => exact .refl _
  | case3 c cs ih => exact .cons _ (.cons_cons c ih)
  | case4 c cs _ _ ih => exact .cons_cons c ih

/-- The text of a literal is what its token is, less quotes and backslashes. -/
theorem text_sublist_of_literal {t : Token} {s : String} {quoted : Bool}
    (h : t.literal = .ok (.literal (.text s) quoted)) : s.toList.Sublist t.lexeme := by
  unfold literal at h
  split at h
  next =>
    -- no number is a text
    cases hnumber : number t.lexeme with
    | error cause => rw [hnumber] at h; cases h
    | ok v =>
      rw [hnumber] at h
      cases h
      unfold number at hnumber
      split at hnumber <;> split at hnumber <;> cases hnumber
  next => split at h <;> cases h
  next =>
    cases h
    rw [String.toList_ofList, unquote]
    exact (unescape_sublist _).trans ((List.dropLast_sublist _).trans (List.drop_sublist _ _))
  next =>
    cases h
    rw [String.toList_ofList]
    exact unescape_sublist _

/-- What a token says has no brackets but its own. -/
theorem brackets_le {t : Token} {w : Word} (h : t.word? = some w) :
    w.brackets ≤ t.lexeme.count ']' := by
  cases hs : w.text? with
  | none => simp [Word.brackets, hs]
  | some s =>
    have hsub : s.toList.Sublist t.lexeme := by
      unfold word? at h
      split at h
      next => cases h; cases hs
      next =>
        split at h
        next =>
          split at h
          next v quoted hliteral =>
            cases h
            obtain rfl : v = .text s := by cases v <;> cases hs; rfl
            exact text_sublist_of_literal hliteral
          next => cases h
        next => cases h; cases hs
    have hcount := hsub.count_le ']'
    rwa [Word.brackets, hs]

theorem count_forms_le : ∀ {ts : List Token} {ws : List Word},
    ts.map word? = ws.map some → (∀ w ∈ ws, w.Spelled) →
      ((ws.map Word.form).flatMap Prod.snd).count ']' ≤ ((ts.map form).flatMap Prod.snd).count ']'
  | [], [], _, _ => Nat.le_refl _
  | t :: ts, w :: ws, h, hs => by
    rw [List.map_cons, List.map_cons, List.cons.injEq] at h
    rw [List.forall_mem_cons] at hs
    have hw : w.form.2.count ']' ≤ t.lexeme.count ']' := by
      rw [Word.count_form hs.1]
      exact brackets_le h.1
    have hws := count_forms_le h.2 hs.2
    rw [List.map_cons, List.map_cons, List.flatMap_cons, List.flatMap_cons, List.count_append,
      List.count_append]
    exact Nat.add_le_add hw hws

end Token

namespace Script

/-- A script is printed with no more brackets than it was read with. -/
theorem count_source_le {source : String} {script : Script} (h : parse source = .ok script)
    (hs : ∀ w ∈ script.words, w.Spelled) :
    script.source.toList.count ']' ≤ source.toList.count ']' := by
  obtain ⟨ts, ps, hlex, _, hps, hes⟩ := parse_eq_ok_iff.1 h
  obtain ⟨hwords, _⟩ := Phrase.statements_spells hps hes
  rw [(lexes_source script (fits_of_parse h) hs).count_eq (by decide),
    (Token.lexes_of_lex hlex).count_eq (by decide)]
  exact Token.count_forms_le hwords.symm hs

theorem count_conditionSource_le {source : String} {script : Script}
    (h : parseCondition source = .ok script) (hs : ∀ w ∈ script.words, w.Spelled) :
    script.source.toList.count ']' ≤ source.toList.count ']' := by
  unfold parseCondition at h
  split at h
  next =>
    cases h
    exact Nat.zero_le _
  next => exact count_source_le h hs

end Script

end FlagScript
