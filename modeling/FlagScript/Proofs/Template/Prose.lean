import FlagScript.Proofs.Template.Acceptance
import FlagScript.Proofs.Template.Frame

/-!
# A flag among prose

Text of a template in which every character stands for itself is one block. A flag with such text
on both sides is replaced by the text of its value, and the prose stays as it is.
-/

namespace FlagScript

open Token (IsSpelling)

namespace Template

/-- Text of a template in which every character stands for itself. -/
def IsProse (text : String) : Prop := ∀ c ∈ text.toList, c ≠ '\\' ∧ c ≠ '$'

theorem scans_prose {cs rest : List Char} {xs : List Item} (h : ∀ c ∈ cs, c ≠ '\\' ∧ c ≠ '$')
    (hrest : ∀ p, Scans p rest xs) (p : Position) : Scans p (cs ++ rest) (cs.map .char ++ xs) := by
  induction cs generalizing p with
  | nil => exact hrest p
  | cons c cs ih =>
    rw [List.forall_mem_cons] at h
    exact .char h.1.1 (fun hc => absurd hc h.1.2) (ih h.2 _)

/-- The pieces of a text, none if it is empty. -/
def prosePieces (cs : List Char) : List Piece := if cs = [] then [] else [.text cs]

def proseBlocks (cs : List Char) : List Block := if cs = [] then [] else [.text (.ofText cs)]

theorem reverse_proseBlocks (cs : List Char) : (proseBlocks cs).reverse = proseBlocks cs := by
  rw [proseBlocks]
  split <;> rfl

theorem gather_prose {cs : List Char} {xs : List Item} (h : TextEnds xs) :
    gather (cs.map .char ++ xs) = prosePieces cs ++ gather xs := by
  rw [prosePieces]
  split
  next hcs => rw [hcs]; rfl
  next hcs => exact gather_text h hcs

theorem readFrom_prose {source cs : List Char} {r : Reading} {pieces : List Piece} :
    readFrom source r (prosePieces cs ++ pieces) =
      readFrom source { r with blocks := proseBlocks cs ++ r.blocks } pieces := by
  rw [prosePieces, proseBlocks]
  split
  next => rfl
  next => rfl

theorem prepareBlocks_prose {cs : List Char} {bs bs' : List Block}
    (h : prepareBlocks bs = .ok bs') :
    prepareBlocks (proseBlocks cs ++ bs) = .ok (proseBlocks cs ++ bs') := by
  rw [proseBlocks]
  split
  next => exact h
  next =>
    rw [List.singleton_append, prepareBlocks, prepareBlock, h]
    rfl

/-- A flag with prose around it. -/
def flagInProse (front name behind : String) : Template :=
  proseBlocks front.toList ++ .flag name :: (proseBlocks behind.toList ++ [])

theorem parse_flag {front name behind : String} (hfront : IsProse front) (hname : IsSpelling name)
    (hbehind : IsProse behind) (hend : ∀ c ∈ behind.toList.head?, Token.isNameChar c = false) :
    parse (front ++ "$" ++ name ++ behind) = .ok (flagInProse front (Text.upper name) behind) := by
  have htail : ∀ p, Scans p behind.toList (behind.toList.map .char ++ []) := fun p => by
    simpa using scans_prose hbehind (fun _ => .nil) p
  have hscans : Scans .start (front ++ "$" ++ name ++ behind).toList
      (front.toList.map .char ++ .flag name.toList :: (behind.toList.map .char ++ [])) := by
    have hsource : (front ++ "$" ++ name ++ behind).toList =
        front.toList ++ '$' :: (name.toList ++ behind.toList) := by simp
    rw [hsource]
    exact scans_prose hfront (fun p => .flag rfl hname.nonempty hname.chars hend (htail _)) .start
  have hread : parseLazy (front ++ "$" ++ name ++ behind) =
      .ok (flagInProse front (Text.upper name) behind) := by
    rw [parseLazy, cut_of_scans hscans, gather_prose (by simp [TextEnds]), gather,
      gather_prose (by simp [TextEnds]), String.ofList_toList, readFrom_prose, readFrom,
      readFrom_prose, gather, readFrom]
    simp [Reading.push, flagInProse, reverse_proseBlocks]
  -- there are no conditions to read, so the blocks stay as they are
  have hprepare : prepareBlocks (flagInProse front (Text.upper name) behind) =
      .ok (flagInProse front (Text.upper name) behind) := by
    apply prepareBlocks_prose
    rw [prepareBlocks, prepareBlock, prepareBlocks_prose (by rw [prepareBlocks])]
    rfl
  rw [parse, hread]
  exact hprepare

variable {W : Type} [World W]

theorem expandFrom_prose (s : Interpreter W) (previous : Option Block) (out cs : List Char)
    (bs : List Block) : ∃ previous', expandFrom s previous out (proseBlocks cs ++ bs) =
      expandFrom s previous' (cs.reverse ++ out) bs := by
  rw [proseBlocks]
  split
  next hcs => exact ⟨previous, by rw [hcs]; rfl⟩
  next =>
    have hblock : expandBlock s (.text (.ofText cs)) = (.ok (String.ofList cs).toList.reverse, s) :=
      rfl
    rw [String.toList_ofList] at hblock
    refine ⟨some (.text (.ofText cs)), ?_⟩
    rw [List.singleton_append, expandFrom_cons, hblock]
    rfl

/-- The flag is replaced by its text. -/
theorem expandTemplate_flagInProse (s : Interpreter W) (front name behind : String) :
    s.expandTemplate (flagInProse front name behind) =
      (.ok (front ++ s.flagText name ++ behind), s) := by
  have hflag : expandBlock s (.flag name) = (.ok (s.flagText name).toList.reverse, s) := rfl
  obtain ⟨previous, hfront⟩ := expandFrom_prose s none [] front.toList
    (.flag name :: (proseBlocks behind.toList ++ []))
  obtain ⟨_, hbehind⟩ := expandFrom_prose s (some (.flag name))
    ((s.flagText name).toList.reverse ++ (front.toList.reverse ++ [])) behind.toList []
  rw [Interpreter.expandTemplate, flagInProse, hfront, expandFrom_cons, hflag]
  simp only [Bool.false_eq_true, if_false, hbehind, expandFrom]
  simp [String.ofList_append, String.append_assoc]

end Template

end FlagScript
