import FlagScript.Proofs.Position
import FlagScript.Token.Lexer

/-!
# What tokens cover

The lexer cuts a source into tokens and layout and drops the layout alone. `Covers front cs placed`
goes along with it through what is left of a source, `cs`, and keeps what was passed, `front`: it
tells how many characters stand in front of a token, and so the place at which it has to stand. So
every token is the piece of the source at its own place, tokens do not overlap, and only blanks and
line ends stand outside of them (`lex_covers`).
-/

namespace FlagScript

namespace Token

/-- A token is the piece of a source behind its first `i` characters, and is placed there. -/
structure StandsAt (source : List Char) (i : Nat) (t : Token) : Prop where
  nonempty : t.lexeme ≠ []
  piece : t.lexeme <+: source.drop i
  place : t.position = .behind (source.take i)

/-- A character stands in none of the tokens, of which each is given with the number of characters
in front of it. -/
def Outside (placed : List (Nat × Token)) (k : Nat) : Prop :=
  ∀ x ∈ placed, k < x.1 ∨ x.1 + x.2.lexeme.length ≤ k

/-- Tokens that lie one behind the other in `cs`, behind the text `front` of the same source, with
nothing but layout around them. -/
inductive Covers : List Char → List Char → List (Nat × Token) → Prop where
  | nil {front : List Char} : Covers front [] []
  | layout {front cs : List Char} {c : Char} {placed : List (Nat × Token)}
      (hc : Text.isLayout c = true) (h : Covers (front ++ [c]) cs placed) :
      Covers front (c :: cs) placed
  | token {front l rest : List Char} {placed : List (Nat × Token)} (kind : TokenClass)
      (hl : l ≠ []) (h : Covers (front ++ l) rest placed) :
      Covers front (l ++ rest) ((front.length, ⟨kind, l, .behind front⟩) :: placed)

/-! ## The lexer -/

variable {front cs : List Char} {placed : List (Nat × Token)} {t : Token} {i : Nat}

theorem covers_of_lexFrom {done ts : List Token} {p : Position} (hp : p = .behind front)
    (h : lexFrom done p cs = .ok ts) :
    ∃ placed, ts = done.reverse ++ placed.map Prod.snd ∧ Covers front cs placed := by
  -- one case for the end, layout, a place where nothing begins, and a token
  fun_induction lexFrom done p cs generalizing front with
  | case1 done p =>
    cases h
    exact ⟨[], by simp, .nil⟩
  | case2 done p c cs hc ih =>
    obtain ⟨placed, hts, hcovers⟩ := ih (Position.advance_of_eq_behind hp [c]) h
    exact ⟨placed, hts, .layout hc hcovers⟩
  | case3 => cases h
  | case4 done p c cs hc kind n hscan ih =>
    have hadvance : (p.after c).advance (cs.take n) = .behind (front ++ c :: cs.take n) :=
      Position.advance_of_eq_behind hp (c :: cs.take n)
    obtain ⟨placed, hts, hcovers⟩ := ih hadvance h
    have hcovers' := Covers.token kind (List.cons_ne_nil c _) hcovers
    rw [List.cons_append, List.take_append_drop] at hcovers'
    exact ⟨_, by simpa [hp] using hts, hcovers'⟩

/-! ## What is covered -/

namespace StandsAt

variable {source : List Char}

/-- A token takes room, so something stands where it begins. -/
theorem lt_length (h : t.StandsAt source i) : i < source.length := by
  by_contra hi
  have hdrop : source.drop i = [] := List.drop_eq_nil_of_le (by omega)
  exact h.nonempty (List.prefix_nil.1 (hdrop ▸ h.piece))

/-- What begins further behind is placed further behind. -/
theorem position_lt {u : Token} {j : Nat} (ht : t.StandsAt source i) (hu : u.StandsAt source j)
    (hij : i < j) : t.position < u.position := by
  have hj := hu.lt_length
  have htake : source.take j = source.take i ++ (source.take j).drop i := by
    have hfront : source.take i = (source.take j).take i := by
      rw [List.take_take, Nat.min_eq_left (Nat.le_of_lt hij)]
    rw [hfront, List.take_append_drop]
  have hne : (source.take j).drop i ≠ [] := by
    intro hnil
    have hlen := List.drop_eq_nil_iff.1 hnil
    rw [List.length_take] at hlen
    omega
  rw [ht.place, hu.place, htake]
  exact Position.behind_lt_behind hne

end StandsAt

namespace Covers

theorem length_le (h : Covers front cs placed) : ∀ x ∈ placed, front.length ≤ x.1 := by
  induction h with
  | nil => simp
  | layout _ _ ih =>
    intro x hx
    have hle := ih x hx
    rw [List.length_append] at hle
    omega
  | token _ _ _ ih =>
    intro x hx
    rcases List.mem_cons.1 hx with rfl | hx
    · exact Nat.le_refl _
    · have hle := ih x hx
      rw [List.length_append] at hle
      omega

theorem standsAt (h : Covers front cs placed) : ∀ x ∈ placed, x.2.StandsAt (front ++ cs) x.1 := by
  induction h with
  | nil => simp
  | @layout front cs c _ _ _ ih =>
    rw [List.append_cons]
    exact ih
  | @token front l rest placed kind hl _ ih =>
    rw [List.forall_mem_cons]
    constructor
    · refine ⟨hl, ?_, ?_⟩
      · rw [List.drop_left]
        exact List.prefix_append l rest
      · rw [List.take_left]
    · rw [← List.append_assoc]
      exact ih

/-- Every token ends before the next one begins. -/
theorem apart (h : Covers front cs placed) :
    placed.Pairwise fun x y => x.1 + x.2.lexeme.length ≤ y.1 := by
  induction h with
  | nil => exact .nil
  | layout _ _ ih => exact ih
  | token _ _ h ih =>
    refine List.pairwise_cons.2 ⟨fun y hy => ?_, ih⟩
    have hle := h.length_le y hy
    rwa [List.length_append] at hle

/-- A character behind `front` that stands in no token is layout. -/
theorem isLayout_of_outside (h : Covers front cs placed) {k : Nat} {c : Char}
    (hk : front.length ≤ k) (hc : (front ++ cs)[k]? = some c) (houtside : Outside placed k) :
    Text.isLayout c = true := by
  induction h with
  | nil =>
    rw [List.append_nil, List.getElem?_eq_none hk] at hc
    cases hc
  | @layout front cs d _ hd _ ih =>
    rw [List.append_cons] at hc
    -- the character is the one that is passed here, or one behind it
    rcases Nat.eq_or_lt_of_le hk with rfl | hk
    · simp at hc
      rwa [← hc]
    · exact ih (by rw [List.length_append]; exact hk) hc houtside
  | @token front l rest placed kind _ _ ih =>
    obtain ⟨hfirst, hrest⟩ := List.forall_mem_cons.1 houtside
    have hbehind : front.length + l.length ≤ k := hfirst.resolve_left (Nat.not_lt.2 hk)
    rw [← List.append_assoc] at hc
    exact ih (by rwa [List.length_append]) hc hrest

end Covers

theorem eq_of_isLayout {c : Char} (h : Text.isLayout c = true) :
    c = ' ' ∨ c = '\t' ∨ c = '\r' ∨ c = '\n' := by
  simpa [Text.isLayout, or_assoc] using h

/-- Cutting a source into tokens loses nothing. The tokens stand at places that increase, each is
the piece of the source that stands at its place, and none reaches into the next one. What stands
outside of all of them is a space, a tab or a character of a line end. -/
theorem lex_covers {source : List Char} {ts : List Token} (h : lex source = .ok ts) :
    (ts.map Token.position).Pairwise (· < ·) ∧
      ∃ placed : List (Nat × Token), placed.map Prod.snd = ts ∧
        (∀ x ∈ placed, x.2.StandsAt source x.1) ∧
        (placed.Pairwise fun x y => x.1 + x.2.lexeme.length ≤ y.1) ∧
        ∀ k c, source[k]? = some c → Outside placed k →
          c = ' ' ∨ c = '\t' ∨ c = '\r' ∨ c = '\n' := by
  have hstart : Position.start = .behind [] := rfl
  obtain ⟨placed, hts, hcovers⟩ := covers_of_lexFrom hstart h
  obtain rfl : ts = placed.map Prod.snd := hts
  have hstands := hcovers.standsAt
  rw [List.nil_append] at hstands
  constructor
  · rw [List.map_map, List.pairwise_map]
    refine hcovers.apart.imp_of_mem fun {x y} hx hy hxy => ?_
    have hpos := List.length_pos_iff.2 (hstands x hx).nonempty
    exact (hstands x hx).position_lt (hstands y hy) (by omega)
  · refine ⟨placed, rfl, hstands, hcovers.apart, fun k c hc houtside => ?_⟩
    exact eq_of_isLayout (hcovers.isLayout_of_outside (Nat.zero_le k) hc houtside)

/-- Line ends within quoted text and behind a backslash. -/
theorem lex_covers_of_lines :
    let source := "\t@a\nb@ + x\\\ny".toList
    let ts : List Token := [⟨.quotedText, ['@', 'a', '\n', 'b', '@'], ⟨1, 2⟩⟩,
      ⟨.plus, ['+'], ⟨2, 4⟩⟩, ⟨.text, ['x', '\\', '\n', 'y'], ⟨2, 6⟩⟩]
    lex source = .ok ts ∧ (ts.map Token.position).Pairwise (· < ·) ∧
      ∃ placed : List (Nat × Token), placed.map Prod.snd = ts ∧
        (∀ x ∈ placed, x.2.StandsAt source x.1) ∧
        (placed.Pairwise fun x y => x.1 + x.2.lexeme.length ≤ y.1) ∧
        ∀ k c, source[k]? = some c → Outside placed k →
          c = ' ' ∨ c = '\t' ∨ c = '\r' ∨ c = '\n' := by
  intro source ts
  have h : lex source = .ok ts := by decide +kernel
  exact ⟨h, lex_covers h⟩

end Token

end FlagScript
