import FlagScript.Proofs.Source.RoundTrip
import Mathlib.Data.List.DropRight

/-!
# The ends of a printed script

A source begins with the printed form of its first word and ends with that of its last one. No form
begins with a blank, and the last one ends with none if the script was read from a source without
blanks at its ends: so neither is anything lost of a printed condition when its blanks are dropped
(`trim_source`).
-/

namespace FlagScript

/-! ## Texts without blanks at their ends -/

namespace Text

variable {cs : List Char} {c : Char}

theorem trim_eq_rdropWhile (cs : List Char) :
    trim cs = (cs.dropWhile isBlank).rdropWhile isBlank := rfl

theorem trim_sublist (cs : List Char) : (trim cs).Sublist cs :=
  (List.rdropWhile_prefix _ _).sublist.trans (List.dropWhile_sublist _)

theorem isBlank_head_trim (hc : c ∈ (trim cs).head?) : isBlank c = false := by
  have hfront : trim cs <+: cs.dropWhile isBlank := List.rdropWhile_prefix _ _
  obtain ⟨ds, hds⟩ := hfront
  have hhead := List.head?_dropWhile_not isBlank cs
  rw [← hds, List.head?_append, hc] at hhead
  simpa using hhead

theorem isBlank_getLast_trim (hc : c ∈ (trim cs).getLast?) : isBlank c = false := by
  obtain ⟨hne, hlast⟩ := List.mem_getLast?_eq_getLast hc
  have hnot := List.rdropWhile_last_not isBlank (cs.dropWhile isBlank) hne
  rw [hlast]
  exact Bool.eq_false_of_not_eq_true hnot

/-- Nothing is dropped of a text exactly if no blank is at its ends. -/
theorem trim_eq_self_iff :
    trim cs = cs ↔ (∀ c ∈ cs.head?, isBlank c = false) ∧ ∀ c ∈ cs.getLast?, isBlank c = false := by
  constructor
  · intro h
    rw [← h]
    exact ⟨fun _ => isBlank_head_trim, fun _ => isBlank_getLast_trim⟩
  · rintro ⟨hhead, hlast⟩
    have hdrop : cs.dropWhile isBlank = cs := by
      cases cs with
      | nil => rfl
      | cons c cs => exact List.dropWhile_cons_of_neg (by simpa using hhead c rfl)
    rw [trim_eq_rdropWhile, hdrop, List.rdropWhile_eq_self_iff]
    intro hne
    simpa using hlast _ (List.getLast?_eq_some_getLast hne)

theorem trim_trim (cs : List Char) : trim (trim cs) = trim cs :=
  trim_eq_self_iff.2 ⟨fun _ => isBlank_head_trim, fun _ => isBlank_getLast_trim⟩

theorem trim_cons_of_isBlank (h : isBlank c = true) (cs : List Char) :
    trim (c :: cs) = trim cs := by
  rw [trim, trim, List.dropWhile_cons_of_pos h]

/-- Layout is blank. -/
theorem isLayout_of_isBlank (h : isBlank c = false) : isLayout c = false := by
  cases hc : isLayout c with
  | false => rfl
  | true =>
    simp only [isLayout, Bool.or_eq_true, beq_iff_eq] at hc
    rcases hc with ((rfl | rfl) | rfl) | rfl <;> exact absurd h (by decide)

end Text

/-! ## Forms of words -/

/-- Neither blank nor the bracket with which directives end. -/
def Text.isSolid (c : Char) : Bool := !isBlank c && c != ']'

theorem Text.isSolid_iff {c : Char} : isSolid c = true ↔ isBlank c = false ∧ c ≠ ']' := by
  simp [isSolid]

theorem Text.isSolid_of_isNameChar {c : Char} (h : Token.isNameChar c = true) :
    isSolid c = true := by
  have hascii := Token.toNat_lt_of_isNameChar h
  have hall : ∀ n : Fin 128, Token.isNameChar (Char.ofNat n) = true →
      isSolid (Char.ofNat n) = true := by decide
  have hc := hall ⟨c.toNat, hascii⟩
  simp only [Char.ofNat_toNat] at hc
  exact hc h

theorem Text.isSolid_of_isDigit {c : Char} (h : c.isDigit = true) : isSolid c = true := by
  refine isSolid_of_isNameChar ?_
  simp [Token.isNameChar, Char.isAlphanum, h]

/-- A blank at the beginning of unquoted text has a backslash. -/
theorem Value.isBlank_head_unquoted {cs : List Char} (hcs : cs ≠ []) :
    ∀ c ∈ (unquoted cs).head?, Text.isBlank c = false := by
  obtain ⟨d, ds, rfl⟩ := List.exists_cons_of_ne_nil hcs
  rw [unquoted]
  split
  next =>
    intro c hc
    cases hc
    decide
  next =>
    -- a blank at an end of the text is among the characters that get a backslash
    rw [escape, escapeFrom_cons]
    split
    next =>
      intro c hc
      cases hc
      decide
    next hraw =>
      intro c hc
      cases hc
      simp only [getsBackslash, Bool.or_eq_true, Bool.and_eq_true, beq_self_eq_true, true_or,
        and_true, not_or, Bool.not_eq_true] at hraw
      exact hraw.1.1.2

/-- Taking out backslashes leaves the last character, which has none in front or is one itself. -/
theorem Token.getLast_unescape (cs : List Char) : (unescape cs).getLast? = cs.getLast? := by
  fun_induction unescape cs with
  | case1 => rfl
  | case2 => rfl
  | case3 c cs ih => simp [List.getLast?_cons, ih]
  | case4 c cs _ _ ih => simp [List.getLast?_cons, ih]

namespace Word

variable {w : Word}

theorem form_int {i : Int64} (hi : 0 ≤ i.toInt) :
    (literal .number (.int i)).form.2 = Decimal.digitsOf i.toInt.natAbs := by
  have hsource : (Value.int i).literalSource false = (Value.int i).toText := rfl
  have hform := congrArg Prod.snd (form_literal (.int i) false)
  rwa [hsource, Value.toText, String.toList_ofList, Decimal.ofInt, if_neg (by omega)] at hform

theorem form_float {m : Magnitude} (hm : m ≠ .infinity) :
    (literal .number (.float (.signed false m))).form.2 = Decimal.places 9 m := by
  have hsource : (Value.float (.signed false m)).literalSource false =
      Value.floatText (.signed false m) := rfl
  have hform := congrArg Prod.snd (form_literal (.float (.signed false m)) false)
  rwa [hsource, Value.floatText, String.toList_ofList, if_neg Bool.false_ne_true, List.nil_append,
    if_neg hm] at hform

theorem form_quotedText (s : String) :
    (literal .quotedText (.text s)).form.2 =
      '@' :: s.toList.flatMap Value.quoteEscape ++ ['@'] := by
  have hform := congrArg Prod.snd (form_literal (.text s) true)
  rwa [Value.literalSource, Bool.true_or, if_pos rfl, Value.quoted, String.toList_ofList,
    Value.toText] at hform

theorem form_text {s : String} (hs : s ≠ "") :
    (literal .text (.text s)).form.2 = Value.unquoted s.toList := by
  have hform := congrArg Prod.snd (form_literal (.text s) false)
  have hempty : s.isEmpty = false := by simpa using hs
  rwa [Value.literalSource, hempty, if_neg (by simp), Value.toList_unquotedSource,
    Value.toText] at hform

/-- Blanks and closing brackets stand in printed texts only. -/
theorem isSolid_of_mem_form (h : w.Spelled) (htext : ∀ kind s, w ≠ .literal kind (.text s)) :
    ∀ c ∈ w.form.2, Text.isSolid c = true := by
  cases h with
  | @mark kind _ =>
    have hall : (mark kind).form.2.all Text.isSolid = true := by cases kind <;> rfl
    exact List.all_eq_true.1 hall
  | @name name hname =>
    rw [form_name, List.forall_mem_cons]
    exact ⟨by decide, fun c hc => Text.isSolid_of_isNameChar (hname.chars c hc)⟩
  | @int i hi =>
    rw [form_int hi]
    exact fun c hc => Text.isSolid_of_isDigit (Decimal.isDigit_of_mem_digitsOf c hc)
  | @float m hm =>
    obtain ⟨fs, zeros, hplaces, -, hlow⟩ := Decimal.places_eq m (show 0 < 9 by decide)
    have hfs := Decimal.isDigit_of_places hlow
    rw [form_float hm, hplaces, List.forall_mem_append, List.forall_mem_cons]
    exact ⟨fun c hc => Text.isSolid_of_isDigit (Decimal.isDigit_of_mem_digitsOf c hc), by decide,
      fun c hc => Text.isSolid_of_isDigit (hfs c hc)⟩
  | bool b =>
    have hall : (literal .boolean (.bool b)).form.2.all Text.isSolid = true := by cases b <;> rfl
    exact List.all_eq_true.1 hall
  | quotedText s => exact absurd rfl (htext _ s)
  | @text s _ => exact absurd rfl (htext _ s)

/-- A word is never printed with a blank in front. -/
theorem isBlank_head_form (h : w.Spelled) : ∀ c ∈ w.form.2.head?, Text.isBlank c = false := by
  by_cases htext : ∀ kind s, w ≠ .literal kind (.text s)
  · exact fun c hc => (Text.isSolid_iff.1 (isSolid_of_mem_form h htext c (List.mem_of_head? hc))).1
  cases h with
  | quotedText s =>
    rw [form_quotedText]
    intro c hc
    cases hc
    decide
  | @text s hs =>
    rw [form_text hs]
    exact Value.isBlank_head_unquoted (by simpa using hs)
  | mark _ | name _ | int _ | float _ | bool _ => exact absurd (by simp) htext

/-- A word is printed with the end of its text at its end, or with neither a blank nor a bracket. -/
theorem getLast_form (h : w.Spelled) {c : Char} (hc : c ∈ w.form.2.getLast?) :
    Text.isSolid c = true ∨ ∃ s, w = .literal .text (.text s) ∧ c ∈ s.toList.getLast? := by
  by_cases hother : ∀ kind s, w ≠ .literal kind (.text s)
  · exact .inl (isSolid_of_mem_form h hother c (List.mem_of_getLast? hc))
  cases h with
  | quotedText s =>
    rw [form_quotedText, List.getLast?_concat] at hc
    cases hc
    exact .inl (by decide)
  | @text s hs =>
    have hcs : s.toList ≠ [] := by simpa using hs
    rw [form_text hs, ← Token.getLast_unescape, Value.unescape_unquoted hcs] at hc
    exact .inr ⟨s, rfl, hc⟩
  | mark _ | name _ | int _ | float _ | bool _ => exact absurd (by simp) hother

theorem Spelled.form_ne_nil (h : w.Spelled) : w.form.2 ≠ [] := by
  have hliteral : ∀ (v : Value) (quoted : Bool), (literal (v.tokenKind quoted) v).Spelled →
      (literal (v.tokenKind quoted) v).form.2 ≠ [] := by
    intro v quoted hv
    obtain ⟨c, ds, hcons, -, -⟩ := (Token.cutsOff_literalSource hv .nil).isToken
    rw [form_literal, hcons]
    exact List.cons_ne_nil _ _
  cases h with
  | @mark kind hkind =>
    cases kind <;> first | exact List.cons_ne_nil _ _ | cases hkind
  | name _ => exact List.cons_ne_nil _ _
  | int hi => exact hliteral (.int _) false (.int hi)
  | float hm => exact hliteral (.float _) false (.float hm)
  | bool b => exact hliteral (.bool b) false (.bool b)
  | quotedText s => exact hliteral (.text s) true (.quotedText s)
  | text hs => exact hliteral (.text _) false (.text hs)

end Word

/-! ## First and last word of a source -/

/-- Only layout is cut into no tokens. -/
theorem Token.Lexes.isLayout {cs : List Char} (h : Lexes cs []) :
    ∀ c ∈ cs, Text.isLayout c = true := by
  generalize hfs : ([] : List (TokenClass × List Char)) = fs at h
  induction h with
  | nil => simp
  | layout hc _ ih => exact List.forall_mem_cons.2 ⟨hc, ih hfs⟩
  | token => cases hfs

/-- A source without layout at its end ends with its last token. -/
theorem Token.Lexes.suffix {cs : List Char} {fs : List (TokenClass × List Char)}
    {f : TokenClass × List Char} (h : Lexes cs fs)
    (hlast : ∀ c ∈ cs.getLast?, Text.isLayout c = false) (hf : fs.getLast? = some f) :
    f.2 <:+ cs := by
  induction h with
  | nil => cases hf
  | @layout c cs fs hc hrest ih =>
    have hcs : cs ≠ [] := by
      rintro rfl
      rw [hlast c rfl] at hc
      cases hc
    have hback := ih (by rwa [List.getLast?_cons_of_ne_nil hcs] at hlast) hf
    exact hback.trans (List.suffix_cons c cs)
  | @token c cs fs kind n hc hscan hrest ih =>
    have hbehind : cs.drop n <:+ c :: cs := (List.drop_suffix n cs).trans (List.suffix_cons c cs)
    by_cases hdrop : cs.drop n = []
    · -- nothing stands behind the last token
      rw [hdrop] at hrest
      cases hrest
      cases hf
      have htake : cs.take n = cs := List.take_of_length_le (List.drop_eq_nil_iff.1 hdrop)
      show c :: cs.take n <:+ c :: cs
      exact ⟨[], congrArg (c :: ·) htake⟩
    · obtain ⟨ds, hds⟩ := hbehind
      rw [← hds, List.getLast?_append_of_ne_nil _ hdrop] at hlast
      cases fs with
      | nil =>
        -- only layout would be left
        have hmem := hrest.isLayout _ (List.getLast_mem hdrop)
        rw [hlast _ (List.getLast?_eq_some_getLast hdrop)] at hmem
        cases hmem
      | cons g fs =>
        rw [List.getLast?_cons_cons] at hf
        exact (ih hlast hf).trans ⟨ds, hds⟩

namespace Expr

/-- An expression is printed with the form of its first word in front. -/
theorem prefix_source (e : Expr) :
    ∃ w ws, e.words = w :: ws ∧ w.form.2 <+: e.source.toList := by
  cases e with
  | literal v quoted => exact ⟨_, _, rfl, by rw [Word.form_literal]; exact List.prefix_rfl⟩
  | flag name => exact ⟨_, _, rfl, by simp [source]⟩
  | assign name op value => exact ⟨_, _, rfl, by simp [source]⟩
  | step name op => exact ⟨_, _, rfl, by simp [source]⟩
  | call name args => exact ⟨_, _, rfl, by simp [source]⟩
  | group inner => exact ⟨_, _, rfl, by simp [source]⟩
  | binary op left right =>
    obtain ⟨w, ws, hwords, hw⟩ := prefix_source left
    refine ⟨w, ws ++ .mark op.kind :: right.words, by rw [words, hwords, List.cons_append], ?_⟩
    rw [source]
    simp only [String.toList_append, List.append_assoc]
    exact hw.trans (List.prefix_append _ _)
  | unary op operand =>
    refine ⟨_, _, rfl, ?_⟩
    rw [Word.form_unaryOp, source]
    split <;> simp

/-- It is printed with the form of its last word at the end. -/
theorem suffix_source : ∀ e : Expr, ∃ ws w, e.words = ws ++ [w] ∧ w.form.2 <:+ e.source.toList
  | .literal v quoted => ⟨[], _, rfl, by rw [Word.form_literal]; exact List.suffix_rfl⟩
  | .flag name => ⟨[], _, rfl, by simp [source]⟩
  | .step name op => ⟨[_], _, rfl, by simp [source]⟩
  | .assign name op value => by
    obtain ⟨ws, w, hwords, hw⟩ := suffix_source value
    refine ⟨.name name :: .mark op.kind :: ws, w, by rw [words, hwords]; rfl, ?_⟩
    rw [source, String.toList_append]
    exact hw.trans (List.suffix_append _ _)
  | .call name args => by
    refine ⟨.name name :: .mark .leftParen :: argumentWords args, _, rfl, ?_⟩
    rw [source, String.toList_append]
    exact List.suffix_append _ _
  | .group inner => ⟨.mark .leftParen :: inner.words, _, rfl, by simp [source]⟩
  | .binary op left right => by
    obtain ⟨ws, w, hwords, hw⟩ := suffix_source right
    refine ⟨left.words ++ .mark op.kind :: ws, w, by rw [words, hwords]; simp, ?_⟩
    rw [source, String.toList_append]
    exact hw.trans (List.suffix_append _ _)
  | .unary op operand => by
    obtain ⟨ws, w, hwords, hw⟩ := suffix_source operand
    refine ⟨.mark op.kind :: ws, w, by rw [words, hwords]; rfl, ?_⟩
    rw [source]
    split <;> rw [String.toList_append] <;> exact hw.trans (List.suffix_append _ _)

end Expr

namespace Script

theorem source_cons_cons (e e' : Expr) (es : List Expr) :
    (source (e :: e' :: es)).toList = e.source.toList ++ '\n' :: (source (e' :: es)).toList := by
  simp [source, Expr.joinWith]

/-- A script is printed with the form of its first word in front. -/
theorem prefix_source (e : Expr) (es : Script) :
    ∃ w ws, words (e :: es) = w :: ws ∧ w.form.2 <+: (source (e :: es)).toList := by
  obtain ⟨w, ws, hwords, hw⟩ := e.prefix_source
  refine ⟨w, ws ++ words es, by rw [words, List.flatMap_cons, hwords]; rfl, hw.trans ?_⟩
  cases es with
  | nil => exact List.prefix_rfl
  | cons e' es => rw [source_cons_cons]; exact List.prefix_append _ _

/-- It is printed with the form of its last word at the end. -/
theorem suffix_source : ∀ (e : Expr) (es : Script),
    ∃ ws w, words (e :: es) = ws ++ [w] ∧ w.form.2 <:+ (source (e :: es)).toList
  | e, [] => by
    obtain ⟨ws, w, hwords, hw⟩ := e.suffix_source
    exact ⟨ws, w, by rw [words, List.flatMap_singleton, hwords], hw⟩
  | e, e' :: es => by
    obtain ⟨ws, w, hwords, hw⟩ := suffix_source e' es
    refine ⟨e.words ++ ws, w, ?_, ?_⟩
    · show e.words ++ words (e' :: es) = _
      rw [hwords, List.append_assoc]
    · rw [source_cons_cons]
      exact hw.trans ((List.suffix_cons _ _).trans (List.suffix_append _ _))

/-- The last word of a script that was read is a text only if its source ends as the text does. -/
theorem getLast_of_words {source : String} {script : Script} {ws : List Word} {s : String}
    (h : parse source = .ok script) (hwords : script.words = ws ++ [.literal .text (.text s)])
    (hlast : ∀ c ∈ source.toList.getLast?, Text.isLayout c = false) :
    s.toList.getLast? = source.toList.getLast? := by
  obtain ⟨ts, ps, hlex, _, hps, hes⟩ := parse_eq_ok_iff.1 h
  obtain ⟨hspells, _⟩ := Phrase.statements_spells hps hes
  -- the last token says the word, and stands at the end of the source
  obtain ⟨us, t, rfl, -, htw⟩ : ∃ us t, ts = us ++ [t] ∧ ws.map some = us.map Token.word? ∧
      t.word? = some (.literal .text (.text s)) := by
    rw [hwords, List.map_append] at hspells
    obtain ⟨us, vs, rfl, hus, hvs⟩ := List.map_eq_append_iff.1 hspells.symm
    obtain ⟨t, rfl, ht⟩ := List.map_eq_singleton_iff.1 hvs
    exact ⟨us, t, rfl, hus.symm, ht⟩
  have hlexes := Token.lexes_of_lex hlex
  have hback : t.form.2 <:+ source.toList := hlexes.suffix hlast (by simp)
  obtain ⟨ds, hds⟩ := hback
  have hne : t.form.2 ≠ [] := by
    obtain ⟨c, cs, n, -, -, hlexeme⟩ := Token.scanned_of_lexes hlexes t.form (by simp)
    rw [hlexeme]
    exact List.cons_ne_nil _ _
  have hkind : t.kind = .text := (Token.kind_of_word? htw).symm
  have hs : s.toList = Token.unescape t.lexeme := by
    obtain ⟨v, hv, hw⟩ := (Token.word?_eq_some_iff_of_literal (by rw [hkind]; rfl)).1 htw
    obtain rfl : v = .text s := (Word.literal.inj hw).2.symm
    rw [Token.literal, hkind] at hv
    cases hv
    rw [String.toList_ofList]
  rw [hs, Token.getLast_unescape, ← hds, List.getLast?_append_of_ne_nil _ hne]
  rfl

/-- Nothing is lost of a printed script when blanks at its ends are dropped, if it was read from a
source that has none there. -/
theorem trim_source {source : String} {script : Script} (h : parse source = .ok script)
    (htrim : Text.trim source.toList = source.toList) (hfin : ∀ w ∈ script.words, w.IsFinite) :
    Text.trim script.source.toList = script.source.toList := by
  cases script with
  | nil => rfl
  | cons e es =>
    have hspelled := fun w hw => spelled_of_parse h hw (hfin w hw)
    obtain ⟨-, hlast⟩ := Text.trim_eq_self_iff.1 htrim
    refine Text.trim_eq_self_iff.2 ⟨?_, ?_⟩
    · -- whatever the source was, no word is printed with a blank in front
      obtain ⟨w, ws, hwords, cs, hcs⟩ := prefix_source e es
      have hw : w.Spelled := hspelled w (by rw [hwords]; exact List.mem_cons_self)
      intro c hc
      rw [← hcs, List.head?_append_of_ne_nil _ hw.form_ne_nil] at hc
      exact Word.isBlank_head_form hw c hc
    · obtain ⟨ws, w, hwords, cs, hcs⟩ := suffix_source e es
      have hw : w.Spelled := hspelled w (by rw [hwords]; simp)
      intro c hc
      rw [← hcs, List.getLast?_append_of_ne_nil _ hw.form_ne_nil] at hc
      rcases Word.getLast_form hw hc with hsolid | ⟨s, rfl, hs⟩
      · exact (Text.isSolid_iff.1 hsolid).1
      · -- a blank at the end of the text stood at the end of the source that was read
        rw [getLast_of_words h hwords fun c hc => Text.isLayout_of_isBlank (hlast c hc)] at hs
        exact hlast c hs

/-! ## Conditions -/

theorem spelled_of_parseCondition {source : String} {script : Script}
    (h : parseCondition source = .ok script) (hback : ∀ w ∈ script.words, w.ReadsBack) :
    ∀ w ∈ script.words, w.Spelled := by
  unfold parseCondition at h
  split at h
  next => cases h; simp [words]
  next => exact fun w hw => spelled_of_parse h hw (hback w hw).isFinite

/-- A condition that was read, less the blanks at its ends, is read again from its own source, which
has no blanks there either. -/
theorem parseCondition_source {source : String} {script : Script}
    (h : parseCondition source = .ok script) (htrim : Text.trim source.toList = source.toList)
    (hback : ∀ w ∈ script.words, w.ReadsBack) :
    parseCondition script.source = .ok script ∧
      Text.trim script.source.toList = script.source.toList := by
  unfold parseCondition at h
  split at h
  next =>
    cases h
    exact ⟨by decide +kernel, rfl⟩
  next =>
    have hread := parse_of_reads h (reads_source_of_parse h hback)
    have hsame := trim_source h htrim fun w hw => (hback w hw).isFinite
    refine ⟨?_, hsame⟩
    -- the blank condition is the only one without a source, and no script is read from none
    have hne : script.source ≠ "" := by
      intro hempty
      have hnone : (parse "").isOk = false := by decide +kernel
      rw [← hempty, hread] at hnone
      cases hnone
    rw [parseCondition, hsame, if_neg (by simpa using hne), hread]

end Script

end FlagScript
