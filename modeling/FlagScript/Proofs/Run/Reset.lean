import FlagScript.Proofs.Run.Names

/-!
# What a reset restores

The flags that a reset restores are kept apart from those that scripts and templates work on:
nothing but `setInitial` writes them (`initial_use`), no template either that was built by hand with
conditions that change flags. So whatever an interpreter was used for, a reset gives it the flags
and the last value with which it started, in the world as it is then (`reset_useAll`).
-/

namespace FlagScript

variable {W : Type} [World W]

/-! ## Running scripts -/

namespace Interpreter

/-- Functions write flags and the world, and answer values. -/
theorem initial_runBuiltin (s : Interpreter W) (b : Builtin) (args : List Value) :
    (s.runBuiltin b args).2.initial = s.initial := by
  cases b <;> rfl

theorem initial_runCall (s : Interpreter W) (name : String) (args : List Value) :
    (s.runCall name args).2.initial = s.initial := by
  unfold runCall
  cases Builtin.find? name with
  | some b => exact s.initial_runBuiltin b args
  | none => rfl

mutual

/-- Evaluation leaves what a reset restores. -/
theorem initial_evalExpr : ∀ (s : Interpreter W) (e : Expr),
    (s.evalExpr e).2.initial = s.initial
  | _, .literal _ _ | _, .flag _ | _, .step _ _ => rfl
  | s, .assign _ _ value => initial_evalExpr s value
  | s, .group inner => initial_evalExpr s inner
  | s, .unary _ operand => initial_evalExpr s operand
  | s, .binary _ left right => by
    rw [← initial_evalExpr s left]
    exact initial_evalExpr _ right
  | s, .call name args => by
    rw [evalExpr_call, initial_runCall, initial_evalArgs s args]

theorem initial_evalArgs : ∀ (s : Interpreter W) (es : List Expr),
    (s.evalArgs es).2.initial = s.initial
  | _, [] => rfl
  | s, e :: es => by
    rw [← initial_evalExpr s e]
    exact initial_evalArgs _ es

end

theorem initial_exec (s : Interpreter W) (script : Script) :
    (s.exec script).2.initial = s.initial := by
  have hfrom : ∀ (result : Value) (s : Interpreter W),
      (s.execFrom result script).2.initial = s.initial := by
    induction script with
    | nil => exact fun _ _ => rfl
    | cons e es ih =>
      intro result s
      rw [execFrom, ih]
      exact s.initial_evalExpr e
  exact hfrom .zero s

end Interpreter

/-! ## Expanding templates -/

namespace Template

theorem initial_holds (s : Interpreter W) (p : Position) (c : Condition) :
    (holds s p c).2.initial = s.initial := by
  cases c with
  | parsed script => exact s.initial_exec script
  | raw source =>
    rw [holds]
    split
    next => rfl
    next script _ => exact s.initial_exec script

mutual

/-- Expanding leaves what a reset restores, also if conditions have effects or fail. -/
theorem initial_expandBlock : ∀ (s : Interpreter W) (b : Block),
    (expandBlock s b).2.initial = s.initial
  | _, .text _ | _, .flag _ => rfl
  | s, .branch first more otherwise => by
    have hfirst := initial_expandClause s first
    -- whatever shows, all conditions that ran were those of clauses in front of it
    rw [expandBlock_branch]
    split
    next s₁ heq =>
      rw [heq] at hfirst
      have hmore := initial_expandClauses s₁ more
      split
      next s₂ heq =>
        rw [heq] at hmore
        cases otherwise with
        | none => exact hmore.trans hfirst
        | some blocks =>
          exact (initial_expandFrom s₂ none [] blocks).trans (hmore.trans hfirst)
      next heq => rw [heq] at hmore; exact hmore.trans hfirst
      next heq => rw [heq] at hmore; exact hmore.trans hfirst
    next heq => rw [heq] at hfirst; exact hfirst
    next heq => rw [heq] at hfirst; exact hfirst

theorem initial_expandClause : ∀ (s : Interpreter W) (c : Clause),
    (expandClause s c).2.initial = s.initial
  | s, .mk p condition content => by
    have hholds := initial_holds s p condition
    rw [expandClause_mk]
    split
    next heq => rw [heq] at hholds; exact hholds
    next heq => rw [heq] at hholds; exact hholds
    next s₁ heq =>
      rw [heq] at hholds
      have hcontent := initial_expandFrom s₁ none [] content
      split
      next heq => rw [heq] at hcontent; exact hcontent.trans hholds
      next heq => rw [heq] at hcontent; exact hcontent.trans hholds

theorem initial_expandClauses : ∀ (s : Interpreter W) (cs : List Clause),
    (expandClauses s cs).2.initial = s.initial
  | _, [] => rfl
  | s, c :: cs => by
    have hclause := initial_expandClause s c
    rw [expandClauses_cons]
    split
    next s₁ heq =>
      rw [heq] at hclause
      exact (initial_expandClauses s₁ cs).trans hclause
    next => exact hclause

theorem initial_expandFrom : ∀ (s : Interpreter W) (previous : Option Block) (out : List Char)
    (bs : List Block), (expandFrom s previous out bs).2.initial = s.initial
  | _, _, _, [] => rfl
  | s, previous, out, b :: bs => by
    have hblock := initial_expandBlock s b
    rw [expandFrom_cons]
    split
    next heq => rw [heq] at hblock; exact hblock
    next s₁ heq =>
      rw [heq] at hblock
      exact (initial_expandFrom s₁ _ _ bs).trans hblock

end

end Template

namespace Interpreter

theorem initial_expandTemplate (s : Interpreter W) (t : Template) :
    (s.expandTemplate t).2.initial = s.initial := by
  have hblocks := Template.initial_expandFrom s none [] t
  rw [expandTemplate]
  split
  next heq => rw [heq] at hblocks; exact hblocks
  next heq => rw [heq] at hblocks; exact hblocks

/-! ## Using an interpreter -/

/-- What an interpreter can be used for, besides changing what a reset restores. Scripts and
templates may have been read elsewhere or built by hand. -/
inductive Use where
  | eval (source : String)
  | exec (script : Script)
  | expand (source : String)
  | expandTemplate (t : Template)
  | setFlag (name : String) (v : Value)
  | addFlag (name text : String)
  | setFile (file : Option String)
  | reset

/-- The interpreter behind a use, be it successful or not. -/
def use (s : Interpreter W) : Use → Interpreter W
  | .eval source => s.perform (.eval source)
  | .exec script => (s.exec script).2
  | .expand source => s.perform (.expand source)
  | .expandTemplate t => (s.expandTemplate t).2
  | .setFlag name v => s.perform (.setFlag name v)
  | .addFlag name text => s.perform (.addFlag name text)
  | .setFile file => s.setFile file
  | .reset => s.perform .reset

/-- The interpreter behind uses, one after the other. -/
def useAll (s : Interpreter W) (uses : List Use) : Interpreter W := uses.foldl use s

theorem initial_eval (s : Interpreter W) (source : String) :
    (s.perform (.eval source)).initial = s.initial := by
  rw [perform]
  split
  next s' heval =>
    obtain ⟨script, -, hexec⟩ := eval_eq_ok_iff.1 heval
    have hinitial := s.initial_exec script
    rwa [hexec] at hinitial
  next => rfl

theorem initial_addFlag (s : Interpreter W) (name text : String) :
    (s.perform (.addFlag name text)).initial = s.initial := by
  rw [perform]
  split
  next s' hadd =>
    obtain ⟨name', -, rfl⟩ := addFlag_eq_ok_iff.1 hadd
    rfl
  next => rfl

/-- No use changes what a reset restores. -/
theorem initial_use (s : Interpreter W) (u : Use) : (s.use u).initial = s.initial := by
  cases u with
  | eval source => exact s.initial_eval source
  | exec script => exact s.initial_exec script
  | expand source => rw [use, perform, expand_frame]
  | expandTemplate t => exact s.initial_expandTemplate t
  | setFlag name v => rfl
  | addFlag name text => exact s.initial_addFlag name text
  | setFile file => rfl
  | reset => rfl

theorem initial_useAll (s : Interpreter W) (uses : List Use) :
    (s.useAll uses).initial = s.initial := by
  induction uses generalizing s with
  | nil => rfl
  | cons u uses ih => rw [useAll, List.foldl_cons, ← useAll, ih, initial_use]

omit [World W] in
/-- A reset makes an interpreter what it would be if it started with the entries that it was last
told to restore, apart from its world and file. -/
theorem reset_of_initial {s : Interpreter W} {entries : List (String × Value)}
    (h : s.initial = .ofEntries entries) (world : W) :
    s.reset = { withFlags world entries with world := s.world, file := s.file } := by
  rw [reset, h]
  rfl

/-- Whatever an interpreter was used for since it started, a reset gives it the flags and the last
value with which it started, which are those of its entries and zero, and keeps the world and the
file. Other entries to be restored change no flag and no last value at once; but the resets behind
restore them, whatever the interpreter was used for in between, and whatever state it was in. -/
theorem reset_useAll :
    (∀ (world : W) (entries : List (String × Value)) (uses : List Use),
      let started := withFlags world entries
      let s := started.useAll uses
      s.reset = { started with world := s.world, file := s.file } ∧
        s.reset.flags = .ofEntries entries ∧ s.reset.last = .zero) ∧
    ∀ (s : Interpreter W) (entries : List (String × Value)),
      (s.setInitial entries).flags = s.flags ∧ (s.setInitial entries).last = s.last ∧
      ∀ uses : List Use,
        let s' := (s.setInitial entries).useAll uses
        s'.reset = { withFlags s.world entries with world := s'.world, file := s'.file } ∧
          s'.reset.flags = .ofEntries entries ∧ s'.reset.last = .zero := by
  constructor
  · intro world entries uses started s
    have hinitial : s.initial = .ofEntries entries := started.initial_useAll uses
    exact ⟨reset_of_initial hinitial world, hinitial, rfl⟩
  · intro s entries
    refine ⟨rfl, rfl, fun uses => ?_⟩
    intro s'
    have hinitial : s'.initial = .ofEntries entries := (s.setInitial entries).initial_useAll uses
    exact ⟨reset_of_initial hinitial s.world, hinitial, rfl⟩

/-- Flags that are counted, made under a computed label and set from outside, a source that cannot
be read, and a template that was built by hand with a condition that sets a flag. -/
example :
    let s : Interpreter MemoryWorld := (withFlags {} [("lamp", .bool true)]).useAll
      [.eval "$LAMP = off $INC(@a b@) $MOVE(key, hall)", .eval "$X = (", .setFile (some "intro"),
        .expandTemplate [.branch ⟨.start, .parsed [.step "N" .increment], []⟩ [] none],
        .addFlag "bad-name" "1", .setFlag "coins" (.int 7)]
    s.flags.toList = [("A B", .int 1), ("COINS", .int 7), ("LAMP", .bool false), ("N", .int 1)] ∧
      s.reset.flags.toList = [("LAMP", .bool true)] ∧ s.reset.file = some "intro" ∧
      s.reset.world.locations.toList = [("KEY", "HALL")] := by
  decide +kernel

end Interpreter

end FlagScript
