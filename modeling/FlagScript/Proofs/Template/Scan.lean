import FlagScript.Proofs.Template.Directive

/-!
# Scanning a template

`Scans p cs items` goes through a source from left to right, by the rules alone: a backslash makes
the next character text, a `$` in front of name characters is a flag, `$[[` begins a directive, and
everything else is text. Every source can be scanned (`exists_scans`), and its pieces are the items
with their text gathered (`cut_of_scans`).
-/

namespace FlagScript

namespace Template

/-! ## The scan -/

/-- What is met on the way through a source. -/
inductive Item where
  | char (c : Char)
  | flag (name : List Char)
  | directive (position : Position) (d : Directive)
  /-- Begins like a directive but is none. -/
  | malformed (position : Position)

/-- The items of a source that goes on at `p`. Behind a malformed directive nothing is looked at. -/
inductive Scans : Position → List Char → List Item → Prop where
  | nil {p : Position} : Scans p [] []
  | escape {p : Position} {c : Char} {cs : List Char} {xs : List Item}
      (h : Scans ((p.after '\\').after c) cs xs) : Scans p ('\\' :: c :: cs) (.char c :: xs)
  | backslash {p : Position} : Scans p ['\\'] [.char '\\']
  | flag {p : Position} {name rest cs : List Char} {xs : List Item} (hcs : cs = name ++ rest)
      (hne : name ≠ []) (hname : ∀ c ∈ name, Token.isNameChar c = true)
      (hend : ∀ c ∈ rest.head?, Token.isNameChar c = false)
      (h : Scans (p.advance ('$' :: name)) rest xs) : Scans p ('$' :: cs) (.flag name :: xs)
  | directive {p : Position} {d : Directive} {ds rest cs : List Char} {xs : List Item}
      (hcs : cs = ds ++ rest) (hd : d.Written ds)
      (h : Scans (p.advance ('$' :: '[' :: '[' :: ds)) rest xs) :
      Scans p ('$' :: '[' :: '[' :: cs) (.directive p d :: xs)
  | malformed {p : Position} {cs : List Char}
      (hnone : ∀ (d : Directive) (ds : List Char), d.Written ds → ¬ds <+: cs) :
      Scans p ('$' :: '[' :: '[' :: cs) [.malformed p]
  | char {p : Position} {c : Char} {cs : List Char} {xs : List Item} (hc : c ≠ '\\')
      (hdollar : c = '$' → (∀ d ∈ cs.head?, Token.isNameChar d = false) ∧ ¬['[', '['] <+: cs)
      (h : Scans (p.after c) cs xs) : Scans p (c :: cs) (.char c :: xs)


/-! ## Every source can be scanned -/

variable {p : Position} {cs : List Char} {items xs ys : List Item}

theorem exists_scans (p : Position) (cs : List Char) : ∃ items, Scans p cs items := by
  -- the cases in which the text is cut are those in which it scans
  fun_induction cutFrom [] [] p cs with
  | case1 => exact ⟨[], .nil⟩
  | case2 => exact ⟨_, .backslash⟩
  | case3 done text p c cs ih =>
    obtain ⟨items, h⟩ := ih
    exact ⟨_, .escape h⟩
  | case4 done text p cs hnone =>
    refine ⟨_, .malformed fun d ds hds hprefix => ?_⟩
    obtain ⟨rest, rfl⟩ := hprefix
    rw [directive?_append hds rest] at hnone
    cases hnone
  | case5 done text p cs d n hd ih =>
    obtain ⟨items, h⟩ := ih
    obtain ⟨ds, rest, rfl, hds, rfl⟩ := written_of_directive? hd
    rw [List.take_left, List.drop_left] at h
    exact ⟨_, .directive rfl hds h⟩
  | case6 done text p cs hbrackets name hname ih =>
    obtain ⟨items, h⟩ := ih
    refine ⟨_, .char (by decide) (fun _ => ⟨fun d hd => ?_, ?_⟩) h⟩
    · obtain ⟨cs, rfl⟩ := List.head?_eq_some_iff.1 hd
      by_contra hchar
      simp [name, hchar] at hname
    · rintro ⟨rest, rfl⟩
      exact hbrackets rest rfl
  | case7 done text p cs _ name hname ih =>
    obtain ⟨items, h⟩ := ih
    have hcs : cs = name ++ cs.drop name.length :=
      ((List.prefix_iff_eq_append.1 (List.takeWhile_prefix _)).symm)
    refine ⟨_, .flag hcs (by simpa using hname) ?_ ?_ h⟩
    · exact List.all_eq_true.1 List.all_takeWhile
    · intro c hc
      have hdrop : cs.drop name.length = cs.dropWhile Token.isNameChar :=
        List.append_cancel_left (hcs.symm.trans List.takeWhile_append_dropWhile.symm)
      have hnot := List.head?_dropWhile_not Token.isNameChar cs
      rw [← hdrop, hc] at hnot
      simpa using hnot
  | case8 done text p c cs hnil hescape hbrackets hdollar ih =>
    obtain ⟨items, h⟩ := ih
    refine ⟨_, .char ?_ (fun hc => absurd hc hdollar) h⟩
    rintro rfl
    cases cs with
    | nil => exact hnil rfl rfl
    | cons c cs => exact hescape c cs rfl rfl

/-! ## The pieces of what was scanned -/

/-- A character joins the text in front of which it stands. -/
def addChar (c : Char) : List Piece → List Piece
  | .text cs :: pieces => .text (c :: cs) :: pieces
  | pieces => .text [c] :: pieces

/-- Items with what is text gathered. -/
def gather : List Item → List Piece
  | [] => []
  | .char c :: xs => addChar c (gather xs)
  | .flag name :: xs => .flag (Text.upper (String.ofList name)) :: gather xs
  | .directive p d :: xs => .directive p d :: gather xs
  | .malformed p :: xs => .malformed p :: gather xs

/-- No text goes on here. -/
def TextEnds (xs : List Item) : Prop := ∀ c, xs.head? ≠ some (.char c)

theorem addChar_of_textEnds (c : Char) (h : TextEnds xs) :
    addChar c (gather xs) = .text [c] :: gather xs := by
  cases xs with
  | nil => rfl
  | cons x xs =>
    cases x with
    | char d => exact absurd rfl (h d)
    | flag name => rfl
    | directive p d => rfl
    | malformed p => rfl

/-- A run of text is one piece. -/
theorem gather_text (h : TextEnds xs) (hcs : cs ≠ []) :
    gather (cs.map .char ++ xs) = .text cs :: gather xs := by
  induction cs with
  | nil => exact absurd rfl hcs
  | cons c cs ih =>
    rw [List.map_cons, List.cons_append, gather]
    cases cs with
    | nil => exact addChar_of_textEnds c h
    | cons d cs => rw [ih (by simp), addChar]

theorem gather_behind_text {done : List Piece} {text : List Char} (h : TextEnds xs) :
    done.reverse ++ gather (text.reverse.map .char ++ xs) =
      (addText text done).reverse ++ gather xs := by
  unfold addText
  split
  next hempty => rw [List.isEmpty_iff.1 hempty, List.reverse_nil, List.map_nil, List.nil_append]
  next hne =>
    rw [gather_text h (by simpa using hne), List.reverse_cons, List.append_assoc,
      List.singleton_append]

/-- A `$` that begins nothing is text. -/
theorem cutFrom_dollar {done : List Piece} {text : List Char}
    (hname : ∀ c ∈ cs.head?, Token.isNameChar c = false) (hbrackets : ¬['[', '['] <+: cs) :
    cutFrom done text p ('$' :: cs) = cutFrom done ('$' :: text) (p.after '$') cs := by
  have hempty : cs.takeWhile Token.isNameChar = [] := by
    cases cs with
    | nil => rfl
    | cons c cs => exact List.takeWhile_cons_of_neg (by simp [hname c rfl])
  rw [cutFrom.eq_def]
  split
  next h => cases h
  next h => cases h
  next h => cases h
  next cs' h =>
    cases h
    exact absurd (List.prefix_append _ _) hbrackets
  next cs' _ h =>
    cases h
    simp only [hempty, List.isEmpty_nil, if_true]
  next c cs' _ _ hc h =>
    cases h
    exact absurd rfl hc

/-- Cutting a source gathers what scanning it meets. -/
theorem cutFrom_of_scans (h : Scans p cs items) (done : List Piece) (text : List Char) :
    cutFrom done text p cs = done.reverse ++ gather (text.reverse.map .char ++ items) := by
  -- a character joins the text read so far; anything else is behind that text
  have hchar : ∀ (c : Char) (text : List Char) (xs : List Item),
      (c :: text).reverse.map Item.char ++ xs = text.reverse.map .char ++ .char c :: xs := by simp
  induction h generalizing done text with
  | nil =>
    rw [cutFrom_nil, gather_behind_text (by simp [TextEnds]), gather, List.append_nil]
  | escape _ ih => rw [cutFrom_escape, ih, hchar]
  | backslash =>
    rw [cutFrom, ← hchar, gather_behind_text (by simp [TextEnds]), gather, List.append_nil]
  | @flag p name rest cs xs hcs hne hname hend _ ih =>
    have htake : cs.takeWhile Token.isNameChar = name := by
      rw [hcs, List.takeWhile_append_of_pos hname]
      cases rest with
      | nil => simp
      | cons c rest => simp [hend c rfl]
    have hends : TextEnds (.flag name :: xs) := by simp [TextEnds]
    rw [cutFrom_name htake hne, hcs, List.drop_left, ih, gather_behind_text hends,
      List.reverse_cons, List.append_assoc]
    rfl
  | @directive p d ds rest cs xs hcs hd _ ih =>
    have hcut : directive? cs = some (d, ds.length) := by rw [hcs, directive?_append hd rest]
    have hends : TextEnds (.directive p d :: xs) := by simp [TextEnds]
    rw [cutFrom_directive hcut, hcs, List.take_left, List.drop_left, ih, gather_behind_text hends,
      List.reverse_cons, List.append_assoc]
    rfl
  | @malformed p cs hnone =>
    have hcut : directive? cs = none := by
      rw [Option.eq_none_iff_forall_not_mem]
      rintro ⟨d, n⟩ hd
      obtain ⟨ds, rest, rfl, hds, _⟩ := written_of_directive? hd
      exact hnone d ds hds (List.prefix_append _ _)
    rw [cutFrom, hcut, gather_behind_text (by simp [TextEnds]), List.reverse_cons]
    rfl
  | @char p c cs xs hc hdollar _ ih =>
    rw [← hchar, ← ih]
    by_cases hflag : c = '$'
    · subst hflag
      exact cutFrom_dollar (hdollar rfl).1 (hdollar rfl).2
    · exact cutFrom_char hc hflag

theorem cut_of_scans {source : List Char} (h : Scans .start source items) :
    cut source = gather items := cutFrom_of_scans h [] []

end Template

end FlagScript
