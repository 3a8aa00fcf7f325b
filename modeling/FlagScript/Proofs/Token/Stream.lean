import FlagScript.Token.Lexer

/-!
# Token streams

`Token.Lexes cs fs`: cutting the characters `cs` gives tokens of the forms `fs`, wherever they
begin. It says one step at a time what `lexFrom` does with its positions and its list of tokens
done, and both directions between them are proved here.
-/

namespace FlagScript

namespace Token

/-- A token apart from its place. -/
def form (t : Token) : TokenClass × List Char := (t.kind, t.lexeme)

inductive Lexes : List Char → List (TokenClass × List Char) → Prop where
  | nil : Lexes [] []
  | layout {c : Char} {cs : List Char} {fs : List (TokenClass × List Char)}
      (hc : Text.isLayout c = true) (rest : Lexes cs fs) : Lexes (c :: cs) fs
  | token {c : Char} {cs : List Char} {fs : List (TokenClass × List Char)} {kind : TokenClass}
      {n : Nat} (hc : Text.isLayout c = false) (hscan : scan c cs = some (kind, n))
      (rest : Lexes (cs.drop n) fs) : Lexes (c :: cs) ((kind, c :: cs.take n) :: fs)

theorem lexes_of_lexFrom {done ts : List Token} {p : Position} {cs : List Char}
    (h : lexFrom done p cs = .ok ts) :
    ∃ new, ts = done.reverse ++ new ∧ Lexes cs (new.map form) := by
  -- one case for the end, layout, a place where nothing begins, and a token
  fun_induction lexFrom done p cs with
  | case1 done p =>
    cases h
    exact ⟨[], by simp, .nil⟩
  | case2 done p c cs hc ih =>
    obtain ⟨new, rfl, hnew⟩ := ih h
    exact ⟨new, rfl, .layout hc hnew⟩
  | case3 => cases h
  | case4 done p c cs hc kind n hscan ih =>
    obtain ⟨new, rfl, hnew⟩ := ih h
    refine ⟨⟨kind, c :: cs.take n, p⟩ :: new, by simp, ?_⟩
    exact .token (by simpa using hc) hscan hnew

theorem lexFrom_of_lexes {cs : List Char} {fs : List (TokenClass × List Char)}
    (h : Lexes cs fs) (done : List Token) (p : Position) :
    ∃ new, lexFrom done p cs = .ok (done.reverse ++ new) ∧ new.map form = fs := by
  induction h generalizing done p with
  | nil => exact ⟨[], by simp [lexFrom], rfl⟩
  | @layout c cs _ hc _ ih =>
    obtain ⟨new, hnew, hform⟩ := ih done (p.after c)
    refine ⟨new, ?_, hform⟩
    rw [lexFrom, if_pos hc, hnew]
  | @token c cs _ kind n hc hscan _ ih =>
    obtain ⟨new, hnew, hform⟩ :=
      ih (⟨kind, c :: cs.take n, p⟩ :: done) ((p.after c).advance (cs.take n))
    refine ⟨⟨kind, c :: cs.take n, p⟩ :: new, ?_, by simp [form, hform]⟩
    rw [lexFrom, if_neg (by simp [hc]), hscan]
    simpa using hnew

theorem lexes_of_lex {cs : List Char} {ts : List Token} (h : lex cs = .ok ts) :
    Lexes cs (ts.map form) := by
  obtain ⟨new, hts, hnew⟩ := lexes_of_lexFrom h
  rw [hts]
  simpa using hnew

theorem lex_of_lexes {cs : List Char} {fs : List (TokenClass × List Char)} (h : Lexes cs fs) :
    ∃ ts, lex cs = .ok ts ∧ ts.map form = fs := by
  obtain ⟨ts, hts, hform⟩ := lexFrom_of_lexes h [] .start
  exact ⟨ts, by simpa [lex] using hts, hform⟩

/-- A class and a lexeme that the lexer finds somewhere. -/
def Scanned (f : TokenClass × List Char) : Prop :=
  ∃ c cs n, Text.isLayout c = false ∧ scan c cs = some (f.1, n) ∧ f.2 = c :: cs.take n

theorem scanned_of_lexes {cs : List Char} {fs : List (TokenClass × List Char)}
    (h : Lexes cs fs) : ∀ f ∈ fs, Scanned f := by
  induction h with
  | nil => simp
  | layout _ _ ih => exact ih
  | @token c cs fs kind n hc hscan _ ih =>
    intro f hf
    rcases List.mem_cons.1 hf with rfl | hf
    · exact ⟨c, cs, n, hc, hscan, rfl⟩
    · exact ih f hf

/-- A token is found again in front of any text that does not change how it is scanned. -/
theorem lexes_append {c : Char} {cs rest : List Char} {kind : TokenClass}
    {fs : List (TokenClass × List Char)} (hc : Text.isLayout c = false)
    (hscan : scan c (cs ++ rest) = some (kind, cs.length)) (h : Lexes rest fs) :
    Lexes (c :: cs ++ rest) ((kind, c :: cs) :: fs) := by
  have hlex : Lexes (c :: (cs ++ rest)) ((kind, c :: (cs ++ rest).take cs.length) :: fs) :=
    .token hc hscan (by rwa [List.drop_left])
  rwa [List.take_left] at hlex

end Token

end FlagScript
