import FlagScript.Proofs.Float.Places
import FlagScript.Proofs.Source.Statement
import FlagScript.Proofs.Token.Decode

/-!
# Literals that stand alone

A literal that is printed by itself is one token, and as a script it is one statement. Text is read
back whatever characters it has, quoted or not. Floats are read back as the numbers that are nearest
to their nine places (`Token.number_floatText`), so those that are a number of nine places
themselves come back; infinity is printed as a word, which is text.
-/

namespace FlagScript

open Token (Cut Lexeme number decimal power placesBehind)

namespace Token

variable {kind : TokenClass} {cs : List Char} {m : Magnitude}

/-- What is cut off in front of nothing is the only token. -/
theorem lex_of_cutsOff (h : CutsOff (kind, cs) []) : lex cs = .ok [⟨kind, cs, .start⟩] := by
  obtain ⟨c, ds, hcons, hc, hscan⟩ := h.isToken
  obtain rfl : cs = c :: ds := hcons
  rw [List.append_nil] at hscan
  rw [lex, lexFrom, if_neg (by rw [hc]; decide), hscan]
  -- all characters are taken, and nothing is left to read
  simp only [List.take_length, List.drop_length]
  rw [lexFrom]
  rfl

/-- What is printed of a float is read as the number nearest to its nine places. -/
theorem number_floatText (hfinite : m ≠ .infinity) :
    number (Value.floatText (.signed false m)).toList =
      .ok (.float (Binary64.signed false m).ninePlaces) := by
  obtain ⟨fraction, zeros, hplaces, -, hlow⟩ := Decimal.places_eq m (show 0 < 9 by decide)
  have htext : (Value.floatText (.signed false m)).toList =
      Decimal.digitsOf (Decimal.inPlaces 9 m / 10 ^ 9) ++ '.' :: fraction := by
    rw [Value.floatText, String.toList_ofList, if_neg Bool.false_ne_true, List.nil_append,
      if_neg hfinite, hplaces]
  have hpointed : Pointed (Decimal.digitsOf (Decimal.inPlaces 9 m / 10 ^ 9)) fraction :=
    ⟨Decimal.isDigit_of_mem_digitsOf, Decimal.isDigit_of_places hlow,
      .inl (Decimal.digitsOf_ne_nil _)⟩
  -- printed floats have no exponent
  have hlexeme := Lexeme.number hpointed.mantissa .none
  obtain ⟨hdigits, hbehind⟩ := hpointed.spans .none
  rw [List.append_nil] at hlexeme hdigits hbehind
  rw [htext, number_of_point hlexeme (by simp), decimal, hdigits, hbehind,
    power_mantissa hpointed.mantissa, Binary64.ofDecimal_pointed false hlow]
  rfl

end Token

/-- The floats that are read back are those nearest to a number of nine places. -/
theorem Word.readsBack_float_iff {m : Magnitude} :
    (Word.literal .number (.float (.signed false m))).ReadsBack ↔
      m ≠ .infinity ∧ ∃ k, Binary64.signed false m = .ofRatio false k (10 ^ 9) := by
  constructor
  · intro hback
    have hfinite : m ≠ .infinity := hback.isFinite
    have hnumber : number (Value.floatText (.signed false m)).toList =
        .ok (.float (.signed false m)) := hback
    rw [Token.number_floatText hfinite] at hnumber
    refine ⟨hfinite, (Binary64.ninePlaces_eq_iff false hfinite).1 ?_⟩
    injection hnumber with hvalue
    injection hvalue
  · rintro ⟨hfinite, hplaces⟩
    show number (Value.floatText (.signed false m)).toList = .ok (.float (.signed false m))
    rw [Token.number_floatText hfinite, (Binary64.ninePlaces_eq_iff false hfinite).2 hplaces]

namespace Script

variable {source : String} {v : Value} {quoted : Bool}

/-- A source that is a single token, and as a script a single statement. -/
structure ReadsAlone (source : String) (kind : TokenClass) (e : Expr) : Prop where
  lex_eq : Token.lex source.toList = .ok [⟨kind, source.toList, .start⟩]
  parse_eq : parse source = .ok [e]

theorem readsAlone_of_cut (hplain : (Expr.literal v quoted).Plain)
    (h : Cut source.toList [] (.literal (v.tokenKind quoted) v)) :
    ReadsAlone source (v.tokenKind quoted) (.literal v quoted) := by
  constructor
  · exact Token.lex_of_cutsOff h.cutsOff
  · have hreads := h.reads .nil
    rw [List.append_nil] at hreads
    exact parse_plain hplain (Nat.zero_le _) hreads

theorem readsAlone_text {s : String} (hs : s ≠ "") :
    ReadsAlone (Value.text s).unquotedSource .text (.literal (.text s) false) :=
  readsAlone_of_cut (Expr.plain_text s false) (Token.cut_text hs .nil)

/-- Every text can be written: one that is not empty as unquoted text, and every one as quoted text,
whatever blanks, line ends, marks and backslashes are in it, and if it looks like a number too. -/
theorem text_reads_alone (s : String) :
    (s ≠ "" →
      ReadsAlone (Expr.literal (.text s) false).source .text (.literal (.text s) false)) ∧
    ReadsAlone (Expr.literal (.text s) true).source .quotedText (.literal (.text s) true) := by
  constructor
  · intro hs
    have hempty : s.isEmpty = false := by simpa using hs
    rw [Expr.source, Value.literalSource, hempty]
    exact readsAlone_text hs
  · rw [Expr.source, Value.literalSource]
    exact readsAlone_of_cut (Expr.plain_text s true) (Token.cut_quotedText s)

/-- A text that looks like a number, and one of a blank alone. -/
theorem text_reads_alone_of_number :
    ("1e5" ≠ "" ∧ (Expr.literal (.text "1e5") false).source = "\\1e5" ∧
      ReadsAlone "\\1e5" .text (.literal (.text "1e5") false)) ∧
    (" " ≠ "" ∧ (Expr.literal (.text " ") false).source = "\\ " ∧
      ReadsAlone "\\ " .text (.literal (.text " ") false)) := by
  have hnumber : (Expr.literal (.text "1e5") false).source = "\\1e5" := by decide +kernel
  have hblank : (Expr.literal (.text " ") false).source = "\\ " := by decide +kernel
  have hnumberReads := (text_reads_alone "1e5").1 (by decide)
  have hblankReads := (text_reads_alone " ").1 (by decide)
  rw [hnumber] at hnumberReads
  rw [hblank] at hblankReads
  exact ⟨⟨by decide, hnumber, hnumberReads⟩, by decide, hblank, hblankReads⟩

/-! ## Numbers with a point -/

/-- A finite float is printed as a number, and read back as the one nearest to its nine places. -/
theorem readsAlone_float {m : Magnitude} (hfinite : m ≠ .infinity) :
    ReadsAlone (Value.floatText (.signed false m)) .number
      (.literal (.float (Binary64.signed false m).ninePlaces) false) := by
  have hcut := Token.cutsOff_float hfinite .nil
  exact readsAlone_of_cut (v := .float _) (Expr.plain_unquoted _)
    (hcut.cut_number (Token.number_floatText hfinite))

/-- Infinity is printed as a word. -/
theorem readsAlone_infinity :
    ReadsAlone (Value.floatText .infinity) .text (.literal (.text "inf") false) := by
  have hsource : (Value.text "inf").unquotedSource = Value.floatText .infinity := by decide +kernel
  rw [← hsource]
  exact readsAlone_text (by decide)

/-- Every number with a point is read as a float. If that is finite, what is printed of it is one
number again, and is read back as it exactly if it is the nearest to some number of nine places, as
it is if no more than nine places were written. What is printed of infinity is no number. -/
theorem decimal_reads_alone {l : List Char} (h : Lexeme .number l) (hpoint : '.' ∈ l) :
    number l = .ok (.float (decimal l)) ∧
      ((decimal l).IsFinite →
        ReadsAlone (Expr.literal (.float (decimal l)) false).source .number
            (.literal (.float (decimal l).ninePlaces) false) ∧
          ((decimal l).ninePlaces = decimal l ↔
            ∃ k, decimal l = Binary64.ofRatio false k (10 ^ 9)) ∧
          (placesBehind l ≤ power l + 9 → (decimal l).ninePlaces = decimal l)) ∧
      (¬(decimal l).IsFinite →
        ReadsAlone (Expr.literal (.float (decimal l)) false).source .text
          (.literal (.text "inf") false)) := by
  refine ⟨Token.number_of_point h hpoint, ?_⟩
  obtain ⟨m, hm⟩ := Binary64.exists_ofDecimal false (Token.digits l) (power l - placesBehind l)
  have hdecimal : decimal l = .signed false m := hm
  have hsource : (Expr.literal (.float (decimal l)) false).source =
      Value.floatText (.signed false m) := by rw [hdecimal]; rfl
  rw [hsource]
  constructor
  · intro hfinite
    rw [hdecimal] at hfinite
    have hiff := Binary64.ninePlaces_eq_iff false hfinite
    rw [← hdecimal] at hiff
    refine ⟨by rw [hdecimal]; exact readsAlone_float hfinite, hiff, fun hplaces => ?_⟩
    -- no more than nine places are written, so what is written is a number of nine places itself
    apply hiff.2
    apply Binary64.exists_ofRatio_of_places (by omega)
    rw [hm]
    intro heq
    exact hfinite (Binary64.signed.inj heq).2
  · intro hinfinite
    rw [hdecimal] at hinfinite
    obtain rfl : m = .infinity := not_not.1 hinfinite
    exact readsAlone_infinity

/-- A number of ten places with an exponent that leaves nine, and one beyond the format. -/
theorem decimal_reads_alone_of_exponent :
    (Lexeme .number "1.0000000025e1".toList ∧ '.' ∈ "1.0000000025e1".toList ∧
      (decimal "1.0000000025e1".toList).IsFinite ∧
      (placesBehind "1.0000000025e1".toList : Int) ≤ power "1.0000000025e1".toList + 9 ∧
      ReadsAlone "10.000000025" .number
        (.literal (.float (decimal "1.0000000025e1".toList)) false)) ∧
    (Lexeme .number ".1e400".toList ∧ '.' ∈ ".1e400".toList ∧
      ¬(decimal ".1e400".toList).IsFinite ∧
      ReadsAlone "inf" .text (.literal (.text "inf") false)) := by
  have hdigits : ∀ ds : List Char, ds ≠ [] → ds.all Char.isDigit = true → Token.IsDigits ds :=
    fun ds hne hall => ⟨hne, List.all_eq_true.1 hall⟩
  constructor
  · have hl : Lexeme .number "1.0000000025e1".toList :=
      .number (.pointed (hdigits ['1'] (by decide) (by decide))
        (hdigits "0000000025".toList (by decide) (by decide)).digits)
        (.plain (.inl rfl) (hdigits ['1'] (by decide) (by decide)))
    have hfinite : (decimal "1.0000000025e1".toList).IsFinite := by decide +kernel
    have hplaces : (placesBehind "1.0000000025e1".toList : Int) ≤
        power "1.0000000025e1".toList + 9 := by decide +kernel
    have hsource : (Expr.literal (.float (decimal "1.0000000025e1".toList)) false).source =
        "10.000000025" := by decide +kernel
    obtain ⟨hreads, -, hsame⟩ := (decimal_reads_alone hl (by decide)).2.1 hfinite
    rw [hsame hplaces, hsource] at hreads
    exact ⟨hl, by decide, hfinite, hplaces, hreads⟩
  · have hl : Lexeme .number ".1e400".toList :=
      .number (.fraction (hdigits ['1'] (by decide) (by decide)))
        (.plain (.inl rfl) (hdigits "400".toList (by decide) (by decide)))
    have hinfinite : ¬(decimal ".1e400".toList).IsFinite := by decide +kernel
    have hsource : (Expr.literal (.float (decimal ".1e400".toList)) false).source = "inf" := by
      decide +kernel
    have hreads := (decimal_reads_alone hl (by decide)).2.2 hinfinite
    rw [hsource] at hreads
    exact ⟨hl, by decide, hinfinite, hreads⟩

/-- The tenth place is lost, and so is a number that is beyond the format. -/
theorem decimal_lost :
    (number "1.0000000001".toList = .ok (.float (decimal "1.0000000001".toList)) ∧
      (Expr.literal (.float (decimal "1.0000000001".toList)) false).source = "1.0" ∧
      parse "1.0" = .ok [.literal (.float (.ofInt 1)) false] ∧
      decimal "1.0000000001".toList ≠ .ofInt 1) ∧
    (number "1.0e400".toList = .ok (.float .infinity) ∧
      (Expr.literal (.float .infinity) false).source = "inf" ∧
      Token.lex "inf".toList = .ok [⟨.text, "inf".toList, .start⟩]) ∧
    ¬ ∀ (l : List Char) (x : Binary64), Lexeme .number l → '.' ∈ l → number l = .ok (.float x) →
      ReadsAlone (Expr.literal (.float x) false).source .number (.literal (.float x) false) := by
  have hnumber : number "1.0000000001".toList =
      .ok (.float (decimal "1.0000000001".toList)) := by decide +kernel
  have hsource : (Expr.literal (.float (decimal "1.0000000001".toList)) false).source = "1.0" := by
    decide +kernel
  have hparse : parse "1.0" = .ok [.literal (.float (.ofInt 1)) false] := by decide +kernel
  have hne : decimal "1.0000000001".toList ≠ .ofInt 1 := by decide +kernel
  refine ⟨⟨hnumber, hsource, hparse, hne⟩, by decide +kernel, fun hall => ?_⟩
  have hone : Token.IsDigits ['1'] := ⟨by decide, List.all_eq_true.1 (by decide)⟩
  have htenth : ∀ c ∈ "0000000001".toList, c.isDigit = true := List.all_eq_true.1 (by decide)
  have hl : Lexeme .number "1.0000000001".toList := .number (.pointed hone htenth) .none
  have hreads := (hall _ _ hl (by decide) hnumber).parse_eq
  rw [hsource, hparse] at hreads
  injection hreads with hscript
  injection hscript with hliteral
  injection hliteral with hvalue
  injection hvalue with hsame
  exact hne hsame.symm

end Script

end FlagScript
