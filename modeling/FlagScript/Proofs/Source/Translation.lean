import FlagScript.Proofs.Grammar.Apart
import FlagScript.Proofs.Run.OperatorCalls
import FlagScript.Proofs.Source.Plain
import FlagScript.Script.Translate

/-!
# Translated scripts

A script that was read is written with calls in place of its operators, and read again as those
calls: they are plain (`plain_toCalls`), and what is printed of them says their words. But an
operator nests its operands in a call, so a long chain of operators comes out too deep to be read;
and a float is printed with nine places, so it may come out as another one.
-/

namespace FlagScript

namespace Expr

/-! ## Calls that are checked -/

mutual

/-- Every call fits its function, and only text is quoted. -/
def Checked : Expr → Prop
  | literal v quoted => quoted = true → ∃ s, v = .text s
  | flag _ | step _ _ => True
  | assign _ _ value => Checked value
  | call name args =>
    (∃ b, Builtin.find? name = some b ∧ b.accepts args.length = true) ∧ AllChecked args
  | group inner => Checked inner
  | binary _ left right => Checked left ∧ Checked right
  | unary _ operand => Checked operand

def AllChecked : List Expr → Prop
  | [] => True
  | e :: es => Checked e ∧ AllChecked es

end

end Expr

namespace Phrase

mutual

theorem checked_of_meaning : ∀ {p : Phrase} {depth : Nat} {e : Expr}, p.meaning depth = .ok e →
    e.Checked
  | .literal _, _, _, h => by
    rw [meaning, faultAt_eq_ok_iff] at h
    obtain ⟨v, quoted, rfl, hv⟩ := Token.eq_literal_of_eq_ok h
    exact hv
  | .flag _, _, _, h => by
    cases h
    trivial
  | .step _ _, _, _, h => by
    cases h
    trivial
  | .assign _ _ _ _, _, _, h => by
    obtain ⟨_, v, hv, rfl⟩ := meaning_assign_eq_ok_iff.1 h
    have hvalue : v.Checked := checked_of_meaning hv
    exact hvalue
  | .call _ _ _, _, _, h => by
    obtain ⟨_, xs, hxs, hfits, rfl⟩ := meaning_call_eq_ok_iff.1 h
    exact ⟨hfits, allChecked_of_meanings hxs⟩
  | .group _ _, _, _, h => by
    obtain ⟨_, x, hx, rfl⟩ := meaning_group_eq_ok_iff.1 h
    have hinner : x.Checked := checked_of_meaning hx
    exact hinner
  | .binary _ _ _ _, _, _, h => by
    obtain ⟨_, x, y, hx, hy, rfl⟩ := meaning_binary_eq_ok_iff.1 h
    exact ⟨checked_of_meaning hx, checked_of_meaning hy⟩
  | .unary _ _ _, _, _, h => by
    obtain ⟨_, x, hx, rfl⟩ := meaning_unary_eq_ok_iff.1 h
    have hoperand : x.Checked := checked_of_meaning hx
    exact hoperand

theorem allChecked_of_meanings : ∀ {ps : List Phrase} {depth : Nat} {es : List Expr},
    meanings depth ps = .ok es → Expr.AllChecked es
  | [], _, _, h => by
    cases h
    trivial
  | _ :: _, _, _, h => by
    obtain ⟨x, xs, hx, hxs, rfl⟩ := meanings_cons_eq_ok_iff.1 h
    exact ⟨checked_of_meaning hx, allChecked_of_meanings hxs⟩

end

end Phrase

namespace Expr

theorem allToCalls_eq_map (es : List Expr) : allToCalls es = es.map toCalls := by
  induction es with
  | nil => rfl
  | cons e es ih => rw [allToCalls, ih, List.map_cons]

theorem allChecked_iff {es : List Expr} : AllChecked es ↔ ∀ e ∈ es, e.Checked := by
  induction es with
  | nil => simp [AllChecked]
  | cons e es ih => simp [AllChecked, ih]

/-! ## Operators become plain calls -/

theorem plain_callOf {b : Builtin} {args : List Expr} (hb : b.accepts args.length = true)
    (hargs : AllPlain args) : (callOf b args).Plain :=
  ⟨⟨b, Interpreter.find?_name b, hb⟩, hargs⟩

mutual

theorem plain_toCalls : ∀ {e : Expr}, e.Fits → e.Checked → e.toCalls.Plain
  | .literal _ _, _, h => h
  | .flag _, _, _ => trivial
  | .group inner, hf, h => plain_toCalls (e := inner) hf h
  | .call name args, hf, h => by
    rw [toCalls]
    refine ⟨?_, allPlain_allToCalls hf h.2⟩
    rw [allToCalls_eq_map, List.length_map]
    exact h.1
  | .unary op operand, hf, h => by
    rw [toCalls]
    refine plain_callOf ?_ ⟨plain_toCalls hf.2 h, trivial⟩
    cases op <;> rfl
  | .binary op left right, hf, h => by
    obtain ⟨_, _, hfl, hfr⟩ := hf
    have hcall : (callOf op.call.1 [toCalls left, toCalls right]).Plain := by
      refine plain_callOf ?_ ⟨plain_toCalls hfl h.1, plain_toCalls hfr h.2, trivial⟩
      cases op <;> rfl
    rw [toCalls]
    -- some comparisons are the negation of another one
    split
    · exact plain_callOf rfl ⟨hcall, trivial⟩
    · exact hcall
  | .step name op, hf, _ => by
    have haccepts : op.takesValue = false → op.call.accepts 1 = true := by cases op <;> decide
    rw [toCalls]
    exact plain_callOf (haccepts hf) ⟨by simp [Plain], trivial⟩
  | .assign name op value, hf, h => by
    rw [toCalls]
    refine plain_callOf ?_ ⟨by simp [Plain], plain_toCalls hf.2 h, trivial⟩
    cases op <;> rfl

theorem allPlain_allToCalls : ∀ {es : List Expr}, AllFit es → AllChecked es →
    AllPlain (allToCalls es)
  | [], _, _ => trivial
  | _ :: _, hf, h => ⟨plain_toCalls hf.1 h.1, allPlain_allToCalls hf.2 h.2⟩

end

mutual

theorem fits_of_plain : ∀ {e : Expr}, e.Plain → e.Fits
  | .literal _ _, _ => trivial
  | .flag _, _ => trivial
  | .group inner, h => fits_of_plain (e := inner) h
  | .call _ _, h => allFit_of_allPlain h.2
  | .assign _ _ _, h => h.elim
  | .step _ _, h => h.elim
  | .binary _ _ _, h => h.elim
  | .unary _ _, h => h.elim

theorem allFit_of_allPlain : ∀ {es : List Expr}, AllPlain es → AllFit es
  | [], _ => trivial
  | _ :: _, h => ⟨fits_of_plain h.1, allFit_of_allPlain h.2⟩

end

/-! ## What is printed -/

theorem isName_name (b : Builtin) : Token.IsName b.name := by
  have hchars : b.name.toList.all Token.isNameChar = true := by cases b <;> decide +kernel
  refine ⟨?_, List.all_eq_true.1 hchars, ?_⟩
  · cases b <;> decide +kernel
  · cases b <;> decide +kernel

theorem printable_callOf {b : Builtin} {args : List Expr}
    (h : ∀ w ∈ argumentWords args, w.Printable) : ∀ w ∈ (callOf b args).words, w.Printable := by
  rw [callOf, words]
  simp only [List.forall_mem_cons, List.forall_mem_append]
  exact ⟨.name (isName_name b), .mark _, h, .mark _, by simp⟩

/-- The name of a flag becomes a text. -/
theorem printable_text_of_name {name : String} (h : (Word.name name).Printable) :
    ∀ w ∈ (literal (.text name) false).words, w.Printable := by
  have hne : name ≠ "" := by
    rintro rfl
    exact h.isName.nonempty rfl
  rw [words, List.forall_mem_singleton]
  exact .text hne

theorem printable_pair {x y : Expr} (hx : ∀ w ∈ x.words, w.Printable)
    (hy : ∀ w ∈ y.words, w.Printable) : ∀ w ∈ argumentWords [x, y], w.Printable := by
  rw [argumentWords, List.forall_mem_append, List.forall_mem_cons]
  exact ⟨hx, .mark _, hy⟩

mutual

theorem printable_toCalls : ∀ {e : Expr}, (∀ w ∈ e.words, w.Printable) →
    ∀ w ∈ e.toCalls.words, w.Printable
  | .literal _ _, h => h
  | .flag _, h => h
  | .group inner, h => by
    simp only [words, List.forall_mem_cons, List.forall_mem_append] at h
    have hinner := printable_toCalls h.2.1
    simp only [toCalls, words, List.forall_mem_cons, List.forall_mem_append]
    exact ⟨h.1, hinner, h.2.2⟩
  | .call name args, h => by
    simp only [words, List.forall_mem_cons, List.forall_mem_append] at h
    have hargs := printable_allToCalls h.2.2.1
    simp only [toCalls, words, List.forall_mem_cons, List.forall_mem_append]
    exact ⟨h.1, h.2.1, hargs, h.2.2.2⟩
  | .unary op operand, h => by
    rw [words, List.forall_mem_cons] at h
    rw [toCalls]
    exact printable_callOf (printable_toCalls h.2)
  | .binary op left right, h => by
    rw [words, List.forall_mem_append, List.forall_mem_cons] at h
    have hcall : ∀ w ∈ (callOf op.call.1 [toCalls left, toCalls right]).words, w.Printable :=
      printable_callOf (printable_pair (printable_toCalls h.1) (printable_toCalls h.2.2))
    rw [toCalls]
    split
    · exact printable_callOf hcall
    · exact hcall
  | .step name op, h => by
    rw [words, List.forall_mem_cons] at h
    rw [toCalls]
    exact printable_callOf (printable_text_of_name h.1)
  | .assign name op value, h => by
    rw [words, List.forall_mem_cons, List.forall_mem_cons] at h
    rw [toCalls]
    exact printable_callOf (printable_pair (printable_text_of_name h.1) (printable_toCalls h.2.2))

theorem printable_allToCalls : ∀ {es : List Expr}, (∀ w ∈ argumentWords es, w.Printable) →
    ∀ w ∈ argumentWords (allToCalls es), w.Printable
  | [], _ => by simp [allToCalls, argumentWords]
  | [_], h => printable_toCalls h
  | _ :: _ :: _, h => by
    rw [argumentWords, List.forall_mem_append, List.forall_mem_cons] at h
    have hmore := printable_allToCalls h.2.2
    rw [allToCalls, allToCalls, argumentWords, List.forall_mem_append, List.forall_mem_cons]
    rw [allToCalls] at hmore
    exact ⟨printable_toCalls h.1, h.2.1, hmore⟩

end

/-! ## One statement behind the other -/

theorem isFlag_toCalls (e : Expr) :
    e.toCalls.isFlag = e.isFlag ∧ e.toCalls.isGroup = e.isGroup := by
  cases e with
  | binary op left right =>
    rw [toCalls]
    split <;> exact ⟨rfl, rfl⟩
  | literal | flag | group | call | unary | step | assign => exact ⟨rfl, rfl⟩

theorem KeepsApart.toCalls {e e' : Expr} (h : e.KeepsApart e') :
    e.toCalls.KeepsApart e'.toCalls := by
  intro hflag
  rw [(isFlag_toCalls e).1] at hflag
  rw [(isFlag_toCalls e').2]
  exact h hflag

end Expr

namespace Phrase

theorem Forms.isFlag_eq {p : Phrase} {e : Expr} (h : Forms p e) : p.isFlag = e.isFlag := by
  cases h <;> rfl

theorem Forms.isGroup_eq {p : Phrase} {e : Expr} (h : Forms p e) : p.isGroup = e.isGroup := by
  cases h <;> rfl

/-- Statements stand one behind the other as their phrases do. -/
theorem FormsAll.isChain : ∀ {ps : List Phrase} {es : List Expr}, FormsAll ps es →
    ps.IsChain KeepsApart → es.IsChain Expr.KeepsApart
  | [], _, h, _ => by
    cases h
    exact .nil
  | p :: ps, _, h, hchain => by
    obtain _ | ⟨hp, hps⟩ := h
    obtain ⟨hhead, htail⟩ := List.isChain_cons.1 hchain
    refine List.isChain_cons.2 ⟨fun e' he' hflag => ?_, hps.isChain htail⟩
    cases hps with
    | nil => cases he'
    | cons hq _ =>
      cases he'
      rw [← hp.isFlag_eq] at hflag
      rw [← hq.isGroup_eq]
      exact hhead _ rfl hflag

end Phrase

/-! ## Scripts -/

namespace Script

/-- What is read means statements that fit, are checked and stand apart. -/
theorem statements_of_parse {source : String} {script : Script} (h : parse source = .ok script) :
    script ≠ [] ∧ (∀ e ∈ script, e.Fits ∧ e.Checked) ∧ script.IsChain Expr.KeepsApart := by
  obtain ⟨ts, ps, _, _, hps, hes⟩ := parse_eq_ok_iff.1 h
  have hfits := Expr.allFit_iff.1 (Phrase.statements_spells hps hes).2
  have hchecked := Expr.allChecked_iff.1 (Phrase.allChecked_of_meanings hes)
  have hforms := Phrase.formsAll_of_meanings hes
  refine ⟨?_, fun e he => ⟨hfits e he, hchecked e he⟩,
    hforms.isChain (Phrase.isChain_of_statements hps)⟩
  rintro rfl
  cases hforms
  exact Phrase.furtherStatements_ne_nil hps rfl

theorem printable_map_toCalls {script : Script} (h : ∀ w ∈ script.words, w.Printable) :
    ∀ w ∈ words (script.map Expr.toCalls), w.Printable := by
  intro w hw
  obtain ⟨_, he', hwe⟩ := List.mem_flatMap.1 hw
  obtain ⟨e, he, rfl⟩ := List.mem_map.1 he'
  exact Expr.printable_toCalls (fun x hx => h x (List.mem_flatMap.2 ⟨e, he, hx⟩)) w hwe

theorem translate_of_parse {source : String} {script : Script} (h : parse source = .ok script) :
    translate source = .ok (Script.source (script.map Expr.toCalls)) := by
  rw [translate, h, ← Expr.allToCalls_eq_map]
  rfl

/-- If the floats of a script are read back, what is written of it with calls is read as those calls
as long as they nest within the limit, and refused otherwise. -/
theorem parse_source_toCalls {source : String} {script : Script} (h : parse source = .ok script)
    (hback : ∀ w ∈ script.words, w.ReadsBack) :
    ((∀ e ∈ script, e.toCalls.nesting ≤ maxNesting) →
      parse (Script.source (script.map Expr.toCalls)) = .ok (script.map Expr.toCalls)) ∧
    (¬ (∀ e ∈ script, e.toCalls.nesting ≤ maxNesting) →
      ∃ p, parse (Script.source (script.map Expr.toCalls)) = .error (.tooDeep p maxNesting)) := by
  obtain ⟨hne, hstatements, hchain⟩ := statements_of_parse h
  have hplain : ∀ e ∈ script.map Expr.toCalls, e.Plain := by
    rw [List.forall_mem_map]
    exact fun e he => Expr.plain_toCalls (hstatements e he).1 (hstatements e he).2
  have hapart : (script.map Expr.toCalls).IsChain Expr.KeepsApart :=
    (List.isChain_map _).2 (hchain.imp fun _ _ hkeeps => hkeeps.toCalls)
  have hprintable : ∀ w ∈ words (script.map Expr.toCalls), w.Printable :=
    printable_map_toCalls fun w hw => printable_of_parse h hw (hback w hw)
  obtain ⟨us, hus, hwords⟩ :=
    (reads_source _ (fun e he => Expr.fits_of_plain (hplain e he)) hprintable).lex
  have hread := parse_of_words hus hwords (by simpa using hne) hplain hapart
  rwa [List.forall_mem_map] at hread

/-- A script that was read is translated. If its floats are printed as numbers that are read back,
the translation is read as the statements with calls in place of their operators, and runs as the
script does, as long as the calls nest within the limit; otherwise it is refused. -/
theorem parse_translate {source : String} {script : Script} (h : parse source = .ok script) :
    ∃ translated, translate source = .ok translated ∧
      ((∀ w ∈ script.words, w.ReadsBack) →
        ((∀ e ∈ script, e.toCalls.nesting ≤ maxNesting) →
          parse translated = .ok (script.map Expr.toCalls) ∧
          ∀ (W : Type) [World W] (s : Interpreter W), s.eval translated = s.eval source ∧
            s.execCalls (script.map Expr.toCalls) = s.execCalls script) ∧
        (¬ (∀ e ∈ script, e.toCalls.nesting ≤ maxNesting) →
          ∃ p, parse translated = .error (.tooDeep p maxNesting))) := by
  refine ⟨_, translate_of_parse h, fun hback => ?_⟩
  obtain ⟨haccept, hrefuse⟩ := parse_source_toCalls h hback
  refine ⟨fun hnesting => ⟨haccept hnesting, fun W _ s => ⟨?_, ?_⟩⟩, hrefuse⟩
  · simp only [Interpreter.eval, Interpreter.parse, haccept hnesting, h, Except.mapError,
      Except.map, Interpreter.exec, s.execFrom_toCalls .zero (regular_of_parse h)]
  · exact s.execCalls_toCalls (regular_of_parse h)

/-- A float, a negated comparison, signs and texts that need a backslash, in a world that
refuses. -/
theorem parse_translate_of_move :
    ∃ script translated, parse "$n = 0.5 $n <= 1 - -2 && !$MOVE(\\1, x\\ )" = .ok script ∧
      translated = "$SET(N, 0.5)\n" ++
        "$AND($NOT($FLAG_GREATER_THAN($N, $SUB(1, $NEG(2)))), $NOT($MOVE(\\1, x\\ )))" ∧
      translate "$n = 0.5 $n <= 1 - -2 && !$MOVE(\\1, x\\ )" = .ok translated ∧
      parse translated = .ok (script.map Expr.toCalls) ∧
      let s : Interpreter ModeratedWorld := { world := { refuses := true } }
      s.eval translated = s.eval "$n = 0.5 $n <= 1 - -2 && !$MOVE(\\1, x\\ )" := by
  have hparse : parse "$n = 0.5 $n <= 1 - -2 && !$MOVE(\\1, x\\ )" = .ok
      [.assign "N" .set (.literal (.float (.ofDecimal false 5 (-1))) false),
        .binary .and (.binary .lessOrEqual (.flag "N") (.binary .sub (.literal (.int 1) false)
          (.unary .neg (.literal (.int 2) false)))) (.unary .not (.call "MOVE"
            [.literal (.text "1") false, .literal (.text "x ") false]))] := by decide +kernel
  obtain ⟨translated, htranslate, hread⟩ := parse_translate hparse
  obtain ⟨hscript, hrun⟩ := (hread (by decide +kernel)).1 (by decide +kernel)
  have htext : translated = "$SET(N, 0.5)\n" ++
      "$AND($NOT($FLAG_GREATER_THAN($N, $SUB(1, $NEG(2)))), $NOT($MOVE(\\1, x\\ )))" := by
    have heq := (translate_of_parse hparse).symm.trans htranslate
    rw [← Except.ok.inj heq]
    decide +kernel
  exact ⟨_, translated, hparse, htext, htranslate, hscript,
    (hrun ModeratedWorld { world := { refuses := true } }).1⟩

/-- A script is translated, but the translation is not read as its calls and answers otherwise. -/
def LosesMeaning (source : String) : Prop :=
  ∃ script translated, parse source = .ok script ∧ translate source = .ok translated ∧
    parse translated ≠ .ok (script.map Expr.toCalls) ∧
    let s : Interpreter MemoryWorld := { world := {} }
    (s.eval translated).map Prod.fst ≠ (s.eval source).map Prod.fst

theorem losesMeaning_of_nesting {source : String}
    (h : ∃ script, parse source = .ok script ∧ (∀ w ∈ script.words, w.ReadsBack) ∧
      ¬ ∀ e ∈ script, e.toCalls.nesting ≤ maxNesting) : LosesMeaning source := by
  obtain ⟨script, hscript, hback, hdeep⟩ := h
  obtain ⟨p, hrefused⟩ := (parse_source_toCalls hscript hback).2 hdeep
  refine ⟨script, _, hscript, translate_of_parse hscript, by simp [hrefused], ?_⟩
  simp [Interpreter.eval, Interpreter.parse, hrefused, hscript, Except.mapError, Except.map]

/-- Signs as many as the limit allows, in front of a step that becomes a call too, and a float with
more than nine places. -/
theorem parse_translate_loses :
    LosesMeaning (String.ofList (List.replicate 64 '!' ++ "$a++".toList)) ∧
      LosesMeaning "1.0000000001" := by
  constructor
  · exact losesMeaning_of_nesting (by decide +kernel)
  · obtain ⟨script, hscript, hlost⟩ : ∃ script, parse "1.0000000001" = .ok script ∧
        let translated := Script.source (script.map Expr.toCalls)
        let s : Interpreter MemoryWorld := { world := {} }
        parse translated ≠ .ok (script.map Expr.toCalls) ∧
          (s.eval translated).map Prod.fst ≠ (s.eval "1.0000000001").map Prod.fst := by
      decide +kernel
    exact ⟨script, _, hscript, translate_of_parse hscript, hlost⟩

end Script

end FlagScript
