import FlagScript.Proofs.Run.Names
import FlagScript.Proofs.Source.Statement
import FlagScript.Proofs.Template.Prose

/-!
# One entry for a name

In whatever letter case a name is written, there is one flag of that name. `SharesEntry` says how
each way to ask for the flag or to change it comes to the entry under the name in upper case. Of the
entries of an interpreter that came about by requests no other differs from it in letter case only
(`Reachable.sharesEntry`).
-/

namespace FlagScript

open Token (IsSpelling Reads)

/-! ## Names as text -/

/-- Name characters stand for themselves in every kind of text. -/
theorem plain_of_isNameChar {c : Char} (h : Token.isNameChar c = true) :
    Value.quoteEscape c = [c] ∧ ∀ last i, Value.getsBackslash last i c = false := by
  have hc : Value.quoteEscape c = [c] ∧ Value.isSensitive c = false ∧ Text.isBlank c = false ∧
      c ≠ '\n' ∧ c ≠ '\r' :=
    Token.of_isNameChar (P := fun c => Value.quoteEscape c = [c] ∧ Value.isSensitive c = false ∧
      Text.isBlank c = false ∧ c ≠ '\n' ∧ c ≠ '\r') (by decide) h
  obtain ⟨hquote, hsensitive, hblank, hn, hr⟩ := hc
  exact ⟨hquote, fun last i => by simp [Value.getsBackslash, hsensitive, hblank, hn, hr]⟩

theorem escapeFrom_of_nameChars (last : Nat) : ∀ (i : Nat) {cs : List Char},
    (∀ c ∈ cs, Token.isNameChar c = true) → Value.escapeFrom last i cs = cs
  | _, [], _ => rfl
  | i, c :: cs, h => by
    rw [List.forall_mem_cons] at h
    rw [Value.escapeFrom_cons, (plain_of_isNameChar h.1).2, if_neg Bool.false_ne_true,
      escapeFrom_of_nameChars last (i + 1) h.2]

theorem quoted_of_nameChars {cs : List Char} (h : ∀ c ∈ cs, Token.isNameChar c = true) :
    cs.flatMap Value.quoteEscape = cs := by
  induction cs with
  | nil => rfl
  | cons c cs ih =>
    rw [List.forall_mem_cons] at h
    rw [List.flatMap_cons, (plain_of_isNameChar h.1).1, ih h.2, List.singleton_append]

/-- An argument gives a name as quoted text, or bare where that does not read as a number or a truth
value. -/
inductive Gives (name : String) : String → Prop where
  | quoted : Gives name ("@" ++ name ++ "@")
  | bare (h : readsAsOtherLiteral name.toList = false) : Gives name name

theorem Gives.exists_source {name arg : String} (h : Gives name arg) (hname : IsSpelling name) :
    ∃ quoted, (Expr.literal (.text name) quoted).source = arg := by
  cases h with
  | quoted =>
    refine ⟨true, String.toList_inj.1 ?_⟩
    have hsource : (Expr.literal (.text name) true).source = (Value.text name).quoted := by
      rw [Expr.source, Value.literalSource, Bool.true_or, if_pos rfl]
    rw [hsource, Value.quoted, String.toList_ofList, Value.toText,
      quoted_of_nameChars hname.chars, String.toList_append, String.toList_append]
    rfl
  | bare h =>
    refine ⟨false, String.toList_inj.1 ?_⟩
    have hempty : name.isEmpty = false := by
      rw [← Bool.not_eq_true, String.isEmpty_iff]
      rintro rfl
      exact hname.nonempty rfl
    rw [Expr.source, Value.literalSource, hempty, Bool.or_false, if_neg Bool.false_ne_true,
      Value.toList_unquotedSource, Value.toText, Value.unquoted, Value.escape,
      escapeFrom_of_nameChars _ _ hname.chars, h, if_neg Bool.false_ne_true]

/-! ## Statements with a name -/

namespace Interpreter

variable {W : Type} [World W]

/-- What a script answers and leaves behind whose one statement comes to `r`. -/
def remember (r : Value × Interpreter W) : Value × Interpreter W := (r.1, { r.2 with last := r.1 })

variable {s : Interpreter W} {name : String}

theorem eval_of_parse {source : String} {e : Expr} (h : Script.parse source = .ok [e]) :
    s.eval source = .ok (remember (s.evalExpr e)) :=
  eval_eq_ok_iff.2 ⟨[e], h, rfl⟩

theorem eval_flag (hname : IsSpelling name) :
    s.eval ("$" ++ name) = .ok (remember (s.flags.read (Text.upper name), s)) := by
  have hreads : Reads ("$" ++ name).toList (Expr.flag (Text.upper name)).words := by
    have hcut := (Token.cut_spelling hname (by simp)).reads .nil
    simpa [Expr.words] using hcut
  have hplain : (Expr.flag (Text.upper name)).Plain := by
    rw [Expr.Plain]
    trivial
  exact eval_of_parse (Script.parse_plain hplain (Nat.zero_le _) hreads)

theorem eval_step (hname : IsSpelling name) (op : AssignOp) (hop : op.takesValue = false) :
    s.eval ("$" ++ name ++ op.symbol) = .ok (remember (s.assign (Text.upper name) op none)) := by
  have hreads : Reads ("$" ++ name ++ op.symbol).toList
      (Expr.step (Text.upper name) op).words := by
    have hend := Token.head_assignOp op []
    have hop := (Token.cut_stepOp hop).reads .nil
    have hcut := (Token.cut_spelling hname hend).reads hop
    simpa [Expr.words] using hcut
  exact eval_of_parse (Script.parse_step hop hreads)

theorem eval_assign (hname : IsSpelling name) (op : AssignOp) {v : Value} {quoted : Bool}
    (hop : op.takesValue = true) (hv : (Expr.literal v quoted).Plain)
    (hp : ∀ w ∈ (Expr.literal v quoted).words, w.Printable) :
    s.eval ("$" ++ name ++ " " ++ op.symbol ++ " " ++ v.literalSource quoted) =
      .ok (remember (s.assign (Text.upper name) op (some v))) := by
  have hreads : Reads ("$" ++ name ++ " " ++ op.symbol ++ " " ++ v.literalSource quoted).toList
      (Expr.assign (Text.upper name) op (.literal v quoted)).words := by
    have hvalue := (Script.reads_plain hv hp).blank
    have hop := ((Token.cut_assignOp op).reads hvalue).blank
    have hcut := (Token.cut_spelling hname (by simp; decide)).reads hop
    simpa [Expr.words, Expr.source] using hcut
  exact eval_of_parse (Script.parse_assign hop hv hreads)

theorem eval_call {b : Builtin} {args : List Expr} (hb : b.accepts args.length = true)
    (hplain : Expr.AllPlain args) (hp : ∀ w ∈ Expr.argumentWords args, w.Printable)
    (hnesting : Expr.nestingOfAll args < maxNesting) :
    s.eval (Expr.callOf b args).source =
      .ok (remember ((s.evalArgs args).2.runBuiltin b (s.evalArgs args).1)) := by
  have hcall : (Expr.callOf b args).Plain := by
    rw [Expr.callOf, Expr.Plain]
    exact ⟨⟨b, find?_name b, hb⟩, hplain⟩
  have hreads := Script.reads_plain hcall (Expr.printable_callOf hp)
  have hdeep : (Expr.callOf b args).nesting ≤ maxNesting := by
    rw [Expr.callOf, Expr.nesting]
    omega
  rw [eval_of_parse (Script.parse_plain hcall hdeep hreads), evalExpr_callOf]

/-- A name that is given as text is a literal that reads back. -/
theorem printable_text (hname : IsSpelling name) (quoted : Bool) :
    ∀ w ∈ (Expr.literal (.text name) quoted).words, w.Printable := by
  have hne : name ≠ "" := by
    rintro rfl
    exact hname.nonempty rfl
  rw [Expr.words, List.forall_mem_singleton]
  cases quoted with
  | true => exact .quotedText name
  | false => exact .text hne

theorem eval_call_one {b : Builtin} {arg : String} (hb : b.accepts 1 = true)
    (hname : IsSpelling name) (harg : Gives name arg) :
    s.eval ("$" ++ b.name ++ "(" ++ arg ++ ")") = .ok (remember (s.runBuiltin b [.text name])) := by
  obtain ⟨quoted, rfl⟩ := harg.exists_source hname
  have hplain : Expr.AllPlain [.literal (.text name) quoted] :=
    ⟨Expr.plain_text name quoted, trivial⟩
  have hnesting : Expr.nestingOfAll [.literal (.text name) quoted] < maxNesting := by
    rw [Expr.nestingOfAll, Expr.nesting, Expr.nestingOfAll]
    decide
  have hcall := eval_call (s := s) hb hplain (printable_text hname quoted) hnesting
  rw [evalArgs_cons, evalExpr, evalArgs_nil] at hcall
  rw [← hcall, Expr.callOf]
  simp only [Expr.source, Expr.sources, Expr.joinWith]

theorem eval_call_two {b : Builtin} {arg : String} {e : Expr} (hb : b.accepts 2 = true)
    (hname : IsSpelling name) (harg : Gives name arg) (he : e.Plain)
    (hp : ∀ w ∈ e.words, w.Printable) (hnesting : e.nesting < maxNesting) :
    s.eval ("$" ++ b.name ++ "(" ++ arg ++ ", " ++ e.source ++ ")") =
      .ok (remember ((s.evalExpr e).2.runBuiltin b [.text name, (s.evalExpr e).1])) := by
  obtain ⟨quoted, rfl⟩ := harg.exists_source hname
  have hplain : Expr.AllPlain [.literal (.text name) quoted, e] :=
    ⟨Expr.plain_text name quoted, he, trivial⟩
  have hdeep : Expr.nestingOfAll [.literal (.text name) quoted, e] < maxNesting := by
    simpa [Expr.nestingOfAll, Expr.nesting] using hnesting
  have hprintable := Expr.printable_pair (printable_text hname quoted) hp
  have hcall := eval_call (s := s) hb hplain hprintable hdeep
  rw [evalArgs_cons, evalExpr, evalArgs_cons, evalArgs_nil] at hcall
  rw [← hcall, Expr.callOf]
  simp only [Expr.source, Expr.sources, Expr.joinWith, String.append_assoc]

/-! ## The entry of a name -/

/-- How a name comes to the entry under a key, in an interpreter. A flag that is not set counts as
zero, and what is put under the key replaces the entry and nothing else. -/
structure SharesEntry (s : Interpreter W) (name key : String) : Prop where
  /-- No flag has the name in yet another letter case. -/
  only : ∀ other ∈ s.flags, Text.upper other = key → other = key
  entry : ∀ v, s.put key v = { s with flags := s.flags.insert key v }
  asked : s.flag? name = s.flags[key]?
  shown : s.flagText name = (s.flags[key]?.map Value.toText).getD ""
  read : s.eval ("$" ++ name) = .ok (remember (s.flags[key]?.getD .zero, s))
  expanded : ∀ front behind : String, Template.IsProse front → Template.IsProse behind →
    (∀ c ∈ behind.toList.head?, Token.isNameChar c = false) →
      s.expand (front ++ "$" ++ name ++ behind) =
        (.ok (front ++ (s.flags[key]?.map Value.toText).getD "" ++ behind), s)
  stepped :
    let up := (s.flags[key]?.getD .zero).add (.int 1)
    let down := (s.flags[key]?.getD .zero).sub (.int 1)
    s.eval ("$" ++ name ++ "++") = .ok (remember (up, s.put key up)) ∧
      s.eval ("$" ++ name ++ "--") = .ok (remember (down, s.put key down))
  assigned : ∀ (v : Value) (quoted : Bool), (Expr.literal v quoted).Plain →
    (∀ w ∈ (Expr.literal v quoted).words, w.Printable) →
      let more := (s.flags[key]?.getD .zero).add v
      let less := (s.flags[key]?.getD .zero).sub v
      s.eval ("$" ++ name ++ " = " ++ v.literalSource quoted) = .ok (remember (v, s.put key v)) ∧
        s.eval ("$" ++ name ++ " += " ++ v.literalSource quoted) =
          .ok (remember (more, s.put key more)) ∧
        s.eval ("$" ++ name ++ " -= " ++ v.literalSource quoted) =
          .ok (remember (less, s.put key less))
  /-- Whatever value has the name as its text, in some letter case, the functions change this
  entry. -/
  changed : ∀ v w : Value, Text.upper v.toText = key →
    let current := s.flags[key]?.getD .zero
    s.runBuiltin .toggle [v] = (current.not, s.put key current.not) ∧
    s.runBuiltin .inc [v, w] = (current.add w, s.put key (current.add w)) ∧
    s.runBuiltin .set [v, w] = (w, s.put key w)
  toggled : ∀ arg, Gives name arg →
    let v := (s.flags[key]?.getD .zero).not
    s.eval ("$TOGGLE(" ++ arg ++ ")") = .ok (remember (v, s.put key v))
  increased : ∀ arg, Gives name arg →
    let v := (s.flags[key]?.getD .zero).add (.int 1)
    s.eval ("$INC(" ++ arg ++ ")") = .ok (remember (v, s.put key v))
  set : ∀ arg (e : Expr), Gives name arg → e.Plain → (∀ w ∈ e.words, w.Printable) →
    e.nesting < maxNesting →
      s.eval ("$SET(" ++ arg ++ ", " ++ e.source ++ ")") =
        .ok (remember ((s.evalExpr e).1, (s.evalExpr e).2.put key (s.evalExpr e).1))

theorem Normal.shared (h : s.Normal) (hname : IsSpelling name) :
    SharesEntry s name (Text.upper name) where
  only other hother hkey := (h.flags other hother).symm.trans hkey
  entry _ := rfl
  asked := rfl
  shown := rfl
  read := eval_flag hname
  expanded front behind hfront hbehind hend := by
    have hread := Template.parse_flag hfront hname hbehind hend
    -- the name of a block is put in upper case once more
    have htext : s.flagText (Text.upper name) =
        (s.flags[Text.upper name]?.map Value.toText).getD "" := by
      rw [flagText, flag?, Text.upper_upper]
    rw [expand, parseTemplate_eq_ok_iff.2 hread, expandParsed,
      Template.expandTemplate_flagInProse, htext]
  stepped := ⟨eval_step hname .increment rfl, eval_step hname .decrement rfl⟩
  assigned v quoted hv hp := by
    have hset := eval_assign (s := s) hname .set rfl hv hp
    have hmore := eval_assign (s := s) hname .incrementBy rfl hv hp
    have hless := eval_assign (s := s) hname .decrementBy rfl hv hp
    simp only [AssignOp.symbol, String.append_assoc, String.reduceAppend] at hset hmore hless ⊢
    exact ⟨hset, hmore, hless⟩
  changed v w hv := by
    rw [← hv]
    exact ⟨rfl, rfl, rfl⟩
  toggled arg harg := eval_call_one (b := .toggle) rfl hname harg
  increased arg harg := eval_call_one (b := .inc) rfl hname harg
  set arg e harg he hp hnesting := eval_call_two (b := .set) rfl hname harg he hp hnesting

/-- All names are in upper case in every interpreter that came about by requests; so however a name
is written, all ways to use it come to one entry. -/
theorem Reachable.sharesEntry (h : Reachable s) :
    (∀ key ∈ s.flags, Text.upper key = key) ∧ (∀ key ∈ s.initial, Text.upper key = key) ∧
      ∀ name, IsSpelling name → SharesEntry s name (Text.upper name) :=
  ⟨h.normal.flags, h.normal.initial, fun _ => h.normal.shared⟩

/-- After a flag was set by a function that was given its name. -/
theorem sharesEntry_door :
    let s : Interpreter MemoryWorld :=
      (withFlags {} [("door", .bool true)]).perform (.eval "$SET(@dOOr@, 2)")
    s.flags.toList = [("DOOR", .int 2)] ∧ s.initial.toList = [("DOOR", .bool true)] ∧
      SharesEntry s "Door" "DOOR" := by
  intro s
  have hreachable : Reachable s := .perform (.withFlags _ _) _
  have hspelling : IsSpelling "Door" := ⟨by decide, List.all_eq_true.1 (by decide)⟩
  have hdoor := hreachable.sharesEntry.2.2 "Door" hspelling
  rw [show Text.upper "Door" = "DOOR" from by decide +kernel] at hdoor
  exact ⟨by decide +kernel, by decide +kernel, hdoor⟩

end Interpreter

end FlagScript
