import FlagScript.Proofs.Grammar.Refusal
import FlagScript.Proofs.Grammar.Soundness
import FlagScript.Proofs.Source.Printable
import FlagScript.Proofs.Token.Decode

/-!
# Tokens that errors point at

An error of a source that falls into tokens is placed at one of them, at the one that it is about: a
call at the name of its function, a number at itself, and an expression that lies too deep at the
operator or the parenthesis behind which it does (`Script.parse_points_at_token`).
-/

namespace FlagScript

/-- Whether an operand stands behind a token of this class: it is an operator between two operands
or in front of one, or assigns a value. -/
def TokenClass.takesOperand (k : TokenClass) : Bool :=
  k.binaryOp?.isSome || k.unaryOp?.isSome || k.assignOp?.isSome

/-- What the token has to do with a fault. -/
inductive Fault.About (t : Token) : Fault → Prop where
  | unknownFunction (ht : t.kind = .identifier) : About t (.unknownFunction t.name)
  | argumentCount {b : Builtin} (ht : t.kind = .identifier) (hb : b.name = t.name) (count : Nat) :
      About t (.argumentCount b count)
  | outOfRange (ht : t.kind = .number) : About t (.numberOutOfRange (String.ofList t.lexeme))

/-- An error at the place of a token that it is about. -/
inductive Error.PointsAt (t : Token) : Error → Prop where
  | fault {f : Fault} (h : f.About t) : PointsAt t (.fault t.position f)
  | tooDeep (h : t.kind.takesOperand = true ∨ t.kind = .leftParen) :
      PointsAt t (.tooDeep t.position maxDepth)

theorem BinaryOp.takesOperand_kind (op : BinaryOp) : op.kind.takesOperand = true := by
  cases op <;> rfl

theorem UnaryOp.takesOperand_kind (op : UnaryOp) : op.kind.takesOperand = true := by
  cases op <;> rfl

theorem AssignOp.takesOperand_kind {op : AssignOp} (h : op.takesValue = true) :
    op.kind.takesOperand = true := by
  cases op <;> first | rfl | cases h

/-- A function that is found has the name that it was looked for. -/
theorem Builtin.name_of_find? {name : String} {b : Builtin} (hname : Token.IsName name)
    (h : find? name = some b) : b.name = name := by
  unfold find? at h
  split at h
  next cs hcs =>
    -- a name does not begin with the mark of names
    have hdollar := hname.chars '$' (by rw [hcs]; exact List.mem_cons_self)
    exact absurd hdollar (by decide)
  next =>
    have hfound := List.find?_some h
    rw [beq_iff_eq, hname.upper] at hfound
    exact hfound

/-- The message of a fault in a call names the function as the token does. -/
theorem Fault.About.message {t : Token} {f : Fault} (h : f.About t) (ht : t.kind = .identifier) :
    ∃ tail, f.message = "$" ++ t.name ++ "() " ++ tail := by
  cases h with
  | unknownFunction _ =>
    simp only [Fault.message, String.append_assoc]
    exact ⟨"is not a defined function", rfl⟩
  | argumentCount _ hb count =>
    simp only [Fault.message, Builtin.countMessage, ← hb, String.append_assoc]
    exact ⟨_, rfl⟩
  | outOfRange hnumber =>
    rw [ht] at hnumber
    cases hnumber

namespace Phrase

variable {source : List Char} {ts : List Token} {q : Phrase} {e : Error}

theorem checkCall_about {id : Token} {count : Nat} {f : Fault} (hid : id.kind = .identifier)
    (hname : Token.IsName id.name) (h : checkCall id count = .error f) : f.About id := by
  unfold checkCall at h
  split at h
  next =>
    cases h
    exact .unknownFunction hid
  next b hb =>
    split at h
    next => cases h
    next =>
      cases h
      exact .argumentCount hid (Builtin.name_of_find? hname hb) count

/-- Whatever a node is refused for, one of its tokens is at the place of the error. -/
theorem Refuses.pointsAt (h : q.Refuses e) (hlex : Token.lex source = .ok ts)
    (hq : WrittenWithin ts q) : ∃ t ∈ ts, e.PointsAt t := by
  obtain ⟨n, us, hus, hsub⟩ := hq
  -- how a node is written says which of its tokens the place was taken from
  cases h with
  | @literal t f hf =>
    obtain ⟨_⟩ := hus
    have ht : t ∈ ts := hsub List.mem_cons_self
    obtain ⟨hkind, -, -, rfl⟩ := Token.literal_error (Token.lexeme_of_lex hlex t ht) hf
    exact ⟨t, ht, .fault (.outOfRange hkind)⟩
  | @call id parenAt args f hf =>
    obtain _ | _ | _ | _ | ⟨hid, _, _, _⟩ := hus
    have ht : id ∈ ts := hsub List.mem_cons_self
    -- a name in upper case is found under itself, so the function has the name of the token
    have hscanned := Token.scanned_of_lexes (Token.lexes_of_lex hlex) _ (List.mem_map_of_mem ht)
    exact ⟨id, ht, .fault (checkCall_about hid (Token.isName_name hscanned hid) hf)⟩
  | arguments id parenAt args =>
    obtain _ | _ | _ | _ | ⟨_, hu, _, _⟩ := hus
    exact ⟨_, hsub (List.mem_cons_of_mem _ List.mem_cons_self), .tooDeep (.inr hu)⟩
  | group parenAt inner =>
    obtain _ | _ | _ | ⟨ht, _, _⟩ := hus
    exact ⟨_, hsub List.mem_cons_self, .tooDeep (.inr ht)⟩
  | assign id op opAt value =>
    obtain _ | _ | _ | _ | _ | _ | _ | ⟨_, _, hu, hop, _⟩ := hus
    refine ⟨_, hsub (List.mem_cons_of_mem _ List.mem_cons_self), .tooDeep (.inl ?_)⟩
    rw [hu, AssignOp.takesOperand_kind hop]
  | unary op opAt operand =>
    obtain _ | _ | _ | _ | _ | ⟨ht, _⟩ := hus
    refine ⟨_, hsub List.mem_cons_self, .tooDeep (.inl ?_)⟩
    rw [ht, op.takesOperand_kind]
  | binary op opAt left right =>
    obtain _ | _ | _ | _ | _ | _ | ⟨_, _, _, ht, _⟩ := hus
    refine ⟨_, hsub (List.mem_append_right _ List.mem_cons_self), .tooDeep (.inl ?_)⟩
    rw [ht, op.takesOperand_kind]

end Phrase

theorem Nesting.mem_of_findTooDeep {t : Token} {ts : List Token} (s : Nesting)
    (h : s.findTooDeep ts = some t) : t ∈ ts := by
  induction ts generalizing s with
  | nil => cases h
  | cons u ts ih =>
    rw [findTooDeep] at h
    split at h
    · cases h
      exact List.mem_cons_self
    · exact List.mem_cons_of_mem _ (ih _ h)

namespace Script

/-- A fault is placed at a token of the source: at the name of a function that there is not or that
takes another number of arguments, which is the name in the message, or at a number that is out of
range. What lies too deep is placed at a token as well, and if the nodes of expressions were counted
at an operator or an opening parenthesis. -/
theorem parse_points_at_token (source : String) :
    (∀ p f, parse source = .error (.fault p f) → ∃ ts, Token.lex source.toList = .ok ts ∧
      ∃ t ∈ ts, t.position = p ∧ f.About t ∧
        (t.kind = .identifier → ∃ tail, f.message = "$" ++ t.name ++ "() " ++ tail)) ∧
    ∀ p limit, parse source = .error (.tooDeep p limit) → ∃ ts, Token.lex source.toList = .ok ts ∧
      ∃ t ∈ ts, t.position = p ∧ (limit = 64 ∨
        limit = 256 ∧ (t.kind.takesOperand = true ∨ t.kind = .leftParen)) := by
  -- an error of a meaning is traced back through the node that is refused
  have hpoints : ∀ {ts : List Token} {ps : List Phrase} {e : Error},
      Token.lex source.toList = .ok ts → Phrase.statements ts = .ok ps →
        Phrase.meanings 1 ps = .error e → ∃ t ∈ ts, e.PointsAt t := by
    intro ts ps e hlex hps he
    obtain ⟨q, hq, hrefuses⟩ := Phrase.meanings_error ps he
    exact hrefuses.pointsAt hlex ((Phrase.statements_written hps).of_mem_parts hq)
  constructor
  · intro p f h
    rcases parse_eq_error h with ⟨_, _, _, he⟩ | ⟨ts, hlex, ⟨_, _, he⟩ | ⟨ps, hps, he⟩⟩
    · cases he
    · cases he
    · obtain ⟨t, ht, ⟨habout⟩⟩ := hpoints hlex hps he
      exact ⟨ts, hlex, t, ht, rfl, habout, habout.message⟩
  · intro p limit h
    rcases parse_eq_error h with ⟨_, _, _, he⟩ | ⟨ts, hlex, ⟨t, ht, he⟩ | ⟨ps, hps, he⟩⟩
    · cases he
    · cases he
      exact ⟨ts, hlex, t, Nesting.mem_of_findTooDeep _ ht, rfl, .inl rfl⟩
    · obtain ⟨t, ht, hkind⟩ := hpoints hlex hps he
      obtain _ | ⟨hkind⟩ := hkind
      exact ⟨ts, hlex, t, ht, rfl, .inr ⟨rfl, hkind⟩⟩

/-- A function on the second line that there is not, and a chain with one operator too many. -/
theorem parse_points_at_token_of_both_kinds :
    (parse "1 +\n $foo(2)" = .error (.fault ⟨2, 2⟩ (.unknownFunction "FOO")) ∧
      ∃ ts, Token.lex "1 +\n $foo(2)".toList = .ok ts ∧ ∃ t ∈ ts, t.position = ⟨2, 2⟩ ∧
        (Fault.unknownFunction "FOO").About t ∧ (t.kind = .identifier →
          ∃ tail, (Fault.unknownFunction "FOO").message = "$" ++ t.name ++ "() " ++ tail)) ∧
    ∃ source, source = String.ofList ('1' :: (List.replicate 256 ['-', '1']).flatten) ∧
      parse source = .error (.tooDeep ⟨1, 512⟩ 256) ∧
      ∃ ts, Token.lex source.toList = .ok ts ∧ ∃ t ∈ ts, t.position = ⟨1, 512⟩ ∧
        (256 = 64 ∨ 256 = 256 ∧ (t.kind.takesOperand = true ∨ t.kind = .leftParen)) := by
  have hfault : parse "1 +\n $foo(2)" = .error (.fault ⟨2, 2⟩ (.unknownFunction "FOO")) := by
    decide +kernel
  have hdeep : parse (String.ofList ('1' :: (List.replicate 256 ['-', '1']).flatten)) =
      .error (.tooDeep ⟨1, 512⟩ 256) := by
    -- the characters are not to be encoded and decoded again
    rw [parse, String.toList_ofList]
    decide +kernel
  exact ⟨⟨hfault, (parse_points_at_token _).1 _ _ hfault⟩,
    _, rfl, hdeep, (parse_points_at_token _).2 _ _ hdeep⟩

end Script

end FlagScript
