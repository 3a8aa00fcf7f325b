import FlagScript.Proofs.Peg.Grammar

/-!
# From tokens to characters

What a form makes of the tokens of a text, it makes of the characters of the text as well
(`Runs.transfer`). The tokens reach to the end of the text or up to something that begins no token,
and `HasTokens` says which. So the grammar can be studied on tokens, where nothing is left to be
said about layout and lexemes, and the rule for the tokens of a source finds what the lexer finds
(`runs_tokens_iff`).
-/

namespace FlagScript

open ParseTree (leaf)
open Outcome

/-! ## Tokens among characters -/

/-- The tokens from a place on, to the end of the text if they are complete, or else up to something
that begins no token. -/
inductive HasTokens : Bool → Cursor → List Token → Prop where
  | finish (p : Position) : HasTokens true ⟨p, []⟩ []
  | stuck {p : Position} {c : Char} {cs : List Char} (hc : Text.isLayout c = false)
      (hscan : Token.scan c cs = none) : HasTokens false ⟨p, c :: cs⟩ []
  | layout {b : Bool} {p : Position} {c : Char} {cs : List Char} {ts : List Token}
      (hc : Text.isLayout c = true) (h : HasTokens b ⟨p.after c, cs⟩ ts) :
      HasTokens b ⟨p, c :: cs⟩ ts
  | token {b : Bool} {p : Position} {c : Char} {cs : List Char} {k : TokenClass} {n : Nat}
      {ts : List Token} (hc : Text.isLayout c = false) (hscan : Token.scan c cs = some (k, n))
      (h : HasTokens b (Cursor.advance ⟨p, c :: cs⟩ (n + 1)) ts) :
      HasTokens b ⟨p, c :: cs⟩ (⟨k, c :: cs.take n, p⟩ :: ts)

theorem hasTokens_of_lexFrom (done : List Token) (p : Position) (cs : List Char) :
    (∀ us, Token.lexFrom done p cs = .ok us →
        ∃ ts, us = done.reverse ++ ts ∧ HasTokens true ⟨p, cs⟩ ts) ∧
      ∀ q, Token.lexFrom done p cs = .error q → ∃ ts, HasTokens false ⟨p, cs⟩ ts := by
  fun_induction Token.lexFrom done p cs with
  | case1 done p =>
    refine ⟨fun us h => ?_, fun q h => ?_⟩
    · cases h
      exact ⟨[], (List.append_nil _).symm, .finish p⟩
    · cases h
  | case2 done p c cs hc ih =>
    refine ⟨fun us h => ?_, fun q h => ?_⟩
    · obtain ⟨ts, hus, hts⟩ := ih.1 us h
      exact ⟨ts, hus, .layout hc hts⟩
    · obtain ⟨ts, hts⟩ := ih.2 q h
      exact ⟨ts, .layout hc hts⟩
  | case3 done p c cs hc hscan =>
    refine ⟨fun us h => ?_, fun q _ => ⟨[], .stuck (by simpa using hc) hscan⟩⟩
    cases h
  | case4 done p c cs hc k n hscan ih =>
    have hlayout : Text.isLayout c = false := by simpa using hc
    refine ⟨fun us h => ?_, fun q h => ?_⟩
    · obtain ⟨ts, hus, hts⟩ := ih.1 us h
      refine ⟨⟨k, c :: cs.take n, p⟩ :: ts, ?_, .token hlayout hscan hts⟩
      rw [hus, List.reverse_cons, List.append_assoc, List.singleton_append]
    · obtain ⟨ts, hts⟩ := ih.2 q h
      exact ⟨_, .token hlayout hscan hts⟩

theorem hasTokens_of_lex {source : List Char} {ts : List Token} (h : Token.lex source = .ok ts) :
    HasTokens true ⟨.start, source⟩ ts := by
  obtain ⟨us, hts, hus⟩ := (hasTokens_of_lexFrom [] .start source).1 ts h
  rw [List.reverse_nil, List.nil_append] at hts
  rwa [hts]

theorem exists_hasTokens_of_lex_error {source : List Char} {p : Position}
    (h : Token.lex source = .error p) : ∃ ts, HasTokens false ⟨.start, source⟩ ts :=
  (hasTokens_of_lexFrom [] .start source).2 p h

/-- No layout stands in front. -/
def Cursor.Ready (c : Cursor) : Prop := ∀ d ∈ c.rest.head?, Text.isLayout d = false

theorem advance_zero (c : Cursor) : c.advance 0 = c := rfl

variable {b : Bool} {c : Cursor} {t : Token} {ts : List Token}

theorem HasTokens.skip (h : HasTokens b c ts) :
    HasTokens b (charInput.skip c) ts ∧ (charInput.skip c).Ready := by
  have hstay : ∀ {c : Cursor}, c.Ready → charInput.skip c = c := by
    intro c hc
    have hnone : (c.rest.takeWhile Text.isLayout).length = 0 := by
      cases hrest : c.rest with
      | nil => rfl
      | cons d ds => rw [List.takeWhile_cons_of_neg (by simp [hc d (by rw [hrest]; rfl)])]; rfl
    show c.advance _ = c
    rw [hnone, advance_zero]
  have hready : ∀ {p : Position} {d : Char} {ds : List Char}, Text.isLayout d = false →
      Cursor.Ready ⟨p, d :: ds⟩ := by
    rintro p d ds hd e ⟨⟩
    exact hd
  induction h with
  | finish p =>
    have hc : Cursor.Ready ⟨p, []⟩ := fun d hd => nomatch hd
    rw [hstay hc]
    exact ⟨.finish p, hc⟩
  | stuck hc hscan =>
    rw [hstay (hready hc)]
    exact ⟨.stuck hc hscan, hready hc⟩
  | @layout b p d ds ts hc _ ih =>
    have hskip : charInput.skip ⟨p, d :: ds⟩ = charInput.skip ⟨p.after d, ds⟩ := by
      show Cursor.advance _ _ = Cursor.advance _ _
      rw [List.takeWhile_cons_of_pos hc]
      rfl
    rwa [hskip]
  | token hc hscan h =>
    rw [hstay (hready hc)]
    exact ⟨.token hc hscan h, hready hc⟩

/-- The first token is found where no layout stands in front. -/
theorem HasTokens.takes (h : HasTokens b c (t :: ts)) (hc : c.Ready) :
    ∃ c', charInput.Takes t.kind c t c' ∧ HasTokens b c' ts := by
  cases h with
  | layout hlayout _ =>
    rw [hc _ rfl] at hlayout
    cases hlayout
  | token hlayout hscan h => exact ⟨_, ⟨_, Token.matches_of_scan hlayout hscan, rfl, rfl⟩, h⟩

/-- No other token is found there. -/
theorem HasTokens.misses {k : TokenClass} (h : HasTokens b c ts) (hc : c.Ready)
    (hts : (tokenInput b).Misses k ts) : charInput.Misses k c := by
  cases h with
  | finish p => exact Token.matches_nil k
  | stuck hlayout hscan =>
    refine Token.matches_none_of_scan hlayout fun j n h => ?_
    rw [hscan] at h
    cases h
  | layout hlayout _ =>
    rw [hc _ rfl] at hlayout
    cases hlayout
  | token hlayout hscan _ =>
    refine Token.matches_none_of_scan hlayout fun j n h => ?_
    rw [hscan] at h
    cases h
    exact hts _ rfl

theorem HasTokens.atEnd (h : HasTokens b c ts) (hc : c.Ready) :
    charInput.AtEnd c ↔ (tokenInput b).AtEnd ts := by
  cases h with
  | finish p => exact ⟨fun _ => ⟨rfl, rfl⟩, fun _ => rfl⟩
  | stuck _ _ => exact ⟨nofun, nofun⟩
  | layout hlayout _ =>
    rw [hc _ rfl] at hlayout
    cases hlayout
  | token _ _ _ => exact ⟨nofun, nofun⟩

/-! ## Runs over tokens and over characters -/

/-- The same is made of a text as of its tokens, and the tokens that are left are those of the text
that is left. -/
def Mirrors (b : Bool) (e : Form) (c : Cursor) : Outcome (List Token) → Prop
  | failed => Runs charInput e c failed
  | took trees ts => ∃ c', Runs charInput e c (took trees c') ∧ HasTokens b c' ts

/-- What a form makes of tokens, it makes of their text, if no layout stands in front or the form
looks behind it first. -/
theorem Runs.transfer {e : Form} {o : Outcome (List Token)} (h : Runs (tokenInput b) e ts o)
    (hts : HasTokens b c ts) (hc : (∀ a, e ≠ .further a) → c.Ready) : Mirrors b e c o := by
  induction h generalizing c with
  | empty ts => exact ⟨c, .empty c, hts⟩
  | never ts => exact .never c
  | token h =>
    obtain ⟨rfl, rfl⟩ := h
    obtain ⟨c', hc', hrest⟩ := hts.takes (hc fun _ => nofun)
    exact ⟨c', .token hc', hrest⟩
  | noToken h => exact .noToken (hts.misses (hc fun _ => nofun) h)
  | node _ ih =>
    obtain ⟨c', hrun, hrest⟩ := ih hts fun _ => hc fun _ => nofun
    exact ⟨c', .node hrun, hrest⟩
  | noNode _ ih => exact .noNode (ih hts fun _ => hc fun _ => nofun)
  | seq _ _ iha ihb =>
    obtain ⟨c', ha, hrest⟩ := iha hts fun _ => hc fun _ => nofun
    obtain ⟨c'', hb, hrest'⟩ := ihb hrest.skip.1 fun _ => hrest.skip.2
    exact ⟨c'', .seq ha hb, hrest'⟩
  | seqNotFirst _ iha => exact .seqNotFirst (iha hts fun _ => hc fun _ => nofun)
  | seqNotSecond _ _ iha ihb =>
    obtain ⟨c', ha, hrest⟩ := iha hts fun _ => hc fun _ => nofun
    exact .seqNotSecond ha (ihb hrest.skip.1 fun _ => hrest.skip.2)
  | choiceFirst _ iha =>
    obtain ⟨c', ha, hrest⟩ := iha hts fun _ => hc fun _ => nofun
    exact ⟨c', .choiceFirst ha, hrest⟩
  | @choiceSecond _ _ _ o _ _ iha ihb =>
    have ha := iha hts fun _ => hc fun _ => nofun
    have hb := ihb hts fun _ => hc fun _ => nofun
    cases o with
    | failed => exact .choiceSecond ha hb
    | took trees us =>
      obtain ⟨c', hb, hrest⟩ := hb
      exact ⟨c', .choiceSecond ha hb, hrest⟩
  | option _ ih =>
    obtain ⟨c', hrun, hrest⟩ := ih hts fun _ => hc fun _ => nofun
    exact ⟨c', .option hrun, hrest⟩
  | optionNone _ ih => exact ⟨c, .optionNone (ih hts fun _ => hc fun _ => nofun), hts⟩
  | star _ _ ih ihmore =>
    obtain ⟨c', hrun, hrest⟩ := ih hts fun _ => hc fun _ => nofun
    -- what follows looks behind layout itself
    obtain ⟨c'', hmore, hrest'⟩ := ihmore hrest fun hne => absurd rfl (hne _)
    exact ⟨c'', .star hrun hmore, hrest'⟩
  | starNone _ ih => exact ⟨c, .starNone (ih hts fun _ => hc fun _ => nofun), hts⟩
  | further _ _ ih ihmore =>
    obtain ⟨c', hrun, hrest⟩ := ih hts.skip.1 fun _ => hts.skip.2
    obtain ⟨c'', hmore, hrest'⟩ := ihmore hrest fun hne => absurd rfl (hne _)
    exact ⟨c'', .further hrun hmore, hrest'⟩
  | furtherNone _ ih => exact ⟨c, .furtherNone (ih hts.skip.1 fun _ => hts.skip.2), hts⟩
  | finish h => exact ⟨c, .finish ((hts.atEnd (hc fun _ => nofun)).2 h), hts⟩
  | noFinish h => exact .noFinish fun hend => h ((hts.atEnd (hc fun _ => nofun)).1 hend)

/-- At the start of a text there may be layout. -/
theorem Runs.transfer_start {e : Form} {o : Outcome (List Token)}
    (h : Runs (tokenInput b) (.seq .empty e) ts o) (hts : HasTokens b c ts) :
    Mirrors b (.seq .empty e) c o := by
  cases h with
  | seqNotFirst ha => cases ha
  | seq ha hb =>
    cases ha
    obtain ⟨c', hrun, hrest⟩ := hb.transfer hts.skip.1 fun _ => hts.skip.2
    exact ⟨c', .seq (.empty c) hrun, hrest⟩
  | seqNotSecond ha hb =>
    cases ha
    exact .seqNotSecond (.empty c) (hb.transfer hts.skip.1 fun _ => hts.skip.2)

/-! ## Tokens -/

/-- No class stands in front of another one that it could be taken for. -/
def InOrder (kinds : List TokenClass) : Prop := kinds.Pairwise fun j k => k.fits j = false

instance : DecidablePred InOrder := fun kinds =>
  inferInstanceAs (Decidable (kinds.Pairwise fun j k => k.fits j = false))

/-- Of classes in order, a token is taken for its own. -/
theorem runs_oneOf {kinds : List TokenClass} (horder : InOrder kinds) (h : t.kind ∈ kinds) :
    Runs (tokenInput b) (.oneOf kinds) (t :: ts) (took [leaf t] ts) := by
  induction kinds with
  | nil => cases h
  | cons k kinds ih =>
    obtain ⟨hk, horder⟩ := List.pairwise_cons.1 horder
    rcases List.mem_cons.1 h with rfl | hmem
    · exact .choiceFirst (.token ⟨rfl, rfl⟩)
    · have hmisses : (tokenInput b).Misses k (t :: ts) := by
        rintro u ⟨⟩
        exact hk t.kind hmem
      exact .choiceSecond (.noToken hmisses) (ih horder hmem)

theorem runs_oneOf_failed {kinds : List TokenClass}
    (h : ∀ k ∈ kinds, (tokenInput b).Misses k ts) :
    Runs (tokenInput b) (.oneOf kinds) ts failed := by
  induction kinds with
  | nil => exact .never ts
  | cons k kinds ih =>
    obtain ⟨hk, hkinds⟩ := List.forall_mem_cons.1 h
    exact .choiceSecond (.noToken hk) (ih hkinds)

/-- Every token is of some class, and text is the last one to be tried. -/
theorem runs_oneOf_all (t : Token) (ts : List Token) :
    Runs (tokenInput b) (.oneOf TokenClass.all) (t :: ts) (took [leaf t] ts) := by
  have hall : ∀ k ∈ TokenClass.table, k ∈ TokenClass.all := by decide
  exact runs_oneOf (by decide) (hall t.kind (Token.mem_table t.kind))

theorem runs_further_tokens (ts : List Token) :
    Runs (tokenInput b) (.further (.oneOf TokenClass.all)) ts (took (ts.map leaf) []) := by
  induction ts with
  | nil =>
    have hnone : Runs (tokenInput b) (.oneOf TokenClass.all) [] failed :=
      runs_oneOf_failed fun k _ t ht => nomatch ht
    exact .furtherNone hnone
  | cons t ts ih => exact .further (runs_oneOf_all t ts) ih

/-- Where layout is nothing, it does not matter whether it may stand in front of the first. -/
theorem Runs.star_of_further {a : Form} {o : Outcome (List Token)}
    (h : Runs (tokenInput b) (.further a) ts o) : Runs (tokenInput b) (.star a) ts o := by
  cases h with
  | further h hmore => exact .star h hmore
  | furtherNone h => exact .starNone h

theorem runs_tokens (ts : List Token) :
    Runs (tokenInput b) Form.tokens ts (if b then took (ts.map leaf) [] else failed) := by
  have hstar := (runs_further_tokens (b := b) ts).star_of_further
  cases b with
  | false => exact .seqNotSecond (.empty ts) (.seqNotSecond hstar (.noFinish nofun))
  | true =>
    have hrun : Runs (tokenInput true) Form.tokens ts (took ([] ++ (ts.map leaf ++ [])) []) :=
      .seq (.empty ts) (.seq hstar (.finish ⟨rfl, rfl⟩))
    simpa using hrun

theorem leaf_injective : Function.Injective leaf := fun _ _ h => by cases h; rfl

/-- The rule for the tokens of a source takes all of it just where the lexer finds its tokens, and
they are the same. -/
theorem runs_tokens_iff (source : List Char) (ts : List Token) :
    (∃ c, Runs charInput Form.tokens ⟨.start, source⟩ (took (ts.map leaf) c)) ↔
      Token.lex source = .ok ts := by
  constructor
  · rintro ⟨c, hrun⟩
    cases hlex : Token.lex source with
    | error p =>
      obtain ⟨us, hus⟩ := exists_hasTokens_of_lex_error hlex
      have hfailed : Runs charInput Form.tokens ⟨.start, source⟩ failed :=
        (runs_tokens us).transfer_start hus
      cases hfailed.unique hrun
    | ok us =>
      obtain ⟨c', hrun', -⟩ := (runs_tokens us).transfer_start (hasTokens_of_lex hlex)
      have hsame := (Outcome.took.inj (hrun'.unique hrun)).1
      rw [List.map_injective_iff.2 leaf_injective hsame]
  · intro hlex
    obtain ⟨c, hrun, -⟩ := (runs_tokens ts).transfer_start (hasTokens_of_lex hlex)
    exact ⟨c, hrun⟩

end FlagScript
