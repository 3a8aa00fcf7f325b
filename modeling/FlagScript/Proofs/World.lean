import FlagScript.Proofs.Run.WorldCall

/-!
# The world that remembers

A world that remembers keeps what the player carries apart from what was moved elsewhere. A move
takes an item out of the one and puts it into the other, so no item is in two places
(`Apart.moveTo`), and it is where its last move took it (`whereabouts_happenAll`). What was shown is
handed out once and in order (`handed_happenAll`).
-/

namespace FlagScript

namespace MemoryWorld

/-! ## What can happen to a world -/

/-- A call of the world, or what was shown being taken away. -/
inductive Event where
  | call (c : WorldCall)
  | takeOutput

/-- The texts that an event hands out, and the world behind it. -/
def happen (w : MemoryWorld) : Event → List String × MemoryWorld
  | .call c => ([], (c.run w).2)
  | .takeOutput => w.takeOutput

/-- The texts that events hand out, and the world behind them. -/
def happenAll (w : MemoryWorld) : List Event → List String × MemoryWorld
  | [] => ([], w)
  | e :: es =>
    let (texts, w) := w.happen e
    let (further, w) := happenAll w es
    (texts ++ further, w)

namespace Event

/-- Where an event moves the item of this label, if it does. -/
def destination? (label : String) : Event → Option String
  | .call (.move item place) => if item = label then some place else none
  | _ => none

/-- The text that an event shows, if it does. -/
def text? : Event → Option String
  | .call (.output text) => some text
  | _ => none

end Event

/-- Where events move the item of this label, first to last. -/
def destinations (label : String) (es : List Event) : List String :=
  es.filterMap (Event.destination? label)

/-- The texts that events show, first to last. -/
def texts (es : List Event) : List String := es.filterMap Event.text?

variable {w : MemoryWorld} {label : String}

theorem happenAll_cons (w : MemoryWorld) (e : Event) (es : List Event) :
    w.happenAll (e :: es) =
      ((w.happen e).1 ++ ((w.happen e).2.happenAll es).1, ((w.happen e).2.happenAll es).2) := rfl

/-! ## Items -/

theorem mem_insert_inventory {s : Std.ExtTreeSet String} {key : String} :
    key ∈ s.insert label ↔ label = key ∨ key ∈ s := by
  rw [Std.ExtTreeSet.mem_insert, Std.LawfulEqCmp.compare_eq_iff_eq]

theorem mem_erase_inventory {s : Std.ExtTreeSet String} {key : String} :
    key ∈ s.erase label ↔ label ≠ key ∧ key ∈ s := by
  rw [Std.ExtTreeSet.mem_erase, ne_eq, Std.LawfulEqCmp.compare_eq_iff_eq]

/-- No item is with the player and in a place. -/
def Apart (w : MemoryWorld) : Prop := ∀ label ∈ w.inventory, label ∉ w.locations

theorem apart_withInventory (items : List String) : (withInventory items).Apart :=
  fun _ _ => Std.ExtTreeMap.not_mem_empty

theorem Apart.moveTo (h : w.Apart) (label place : String) : (w.moveTo label place).Apart := by
  intro key hkey
  rw [MemoryWorld.moveTo] at hkey ⊢
  split at hkey
  -- the player takes the item, which leaves its place
  next hplace =>
    rw [if_pos hplace, Std.ExtTreeMap.mem_erase, ne_eq, Std.LawfulEqCmp.compare_eq_iff_eq]
    rw [mem_insert_inventory] at hkey
    rintro ⟨hne, hlocated⟩
    exact hkey.elim hne fun hcarried => h key hcarried hlocated
  -- the item goes to a place, and the player no longer has it
  next hplace =>
    rw [if_neg hplace, Std.ExtTreeMap.mem_insert, Std.LawfulEqCmp.compare_eq_iff_eq]
    rw [mem_erase_inventory] at hkey
    rintro (heq | hlocated)
    · exact hkey.1 heq
    · exact h key hkey.2 hlocated

theorem Apart.happen (h : w.Apart) (e : Event) : (w.happen e).2.Apart := by
  cases e with
  | call c =>
    cases c with
    | inInventory label => exact h
    | move label place => exact h.moveTo label place
    | output text => exact h
  | takeOutput => exact h

theorem Apart.happenAll (h : w.Apart) (es : List Event) : (w.happenAll es).2.Apart := by
  induction es generalizing w with
  | nil => exact h
  | cons e es ih => exact ih (h.happen e)

/-! ## Where items are -/

/-- Where the item of exactly this label is, if that is known. -/
def whereabouts (w : MemoryWorld) (label : String) : Option String :=
  if label ∈ w.inventory then some inventoryPlace else w.locations[label]?

theorem locationOf_eq (w : MemoryWorld) (label : String) :
    w.locationOf label = w.whereabouts (Text.upper label) := rfl

theorem whereabouts_withInventory (items : List String) (label : String) :
    (withInventory items).whereabouts label =
      if label ∈ items.map Text.upper then some inventoryPlace else none := by
  have hmem : label ∈ (withInventory items).inventory ↔ label ∈ items.map Text.upper := by
    rw [withInventory, Std.ExtTreeSet.mem_ofList, List.contains_iff_mem]
  rw [whereabouts, withInventory]
  simp only [← hmem]
  rfl

theorem whereabouts_moveTo (w : MemoryWorld) (item place label : String) :
    (w.moveTo item place).whereabouts label =
      if item = label then some place else w.whereabouts label := by
  rw [MemoryWorld.moveTo]
  split
  next hplace =>
    simp only [whereabouts, mem_insert_inventory, Std.ExtTreeMap.getElem?_erase,
      Std.LawfulEqCmp.compare_eq_iff_eq]
    by_cases hitem : item = label
    · simp [hitem, hplace]
    · simp [hitem]
  next hplace =>
    simp only [whereabouts, mem_erase_inventory, Std.ExtTreeMap.getElem?_insert,
      Std.LawfulEqCmp.compare_eq_iff_eq]
    by_cases hitem : item = label
    · simp [hitem]
    · simp [hitem]

/-- An event that moves the item puts it where it says, and others leave it where it is. -/
theorem whereabouts_happen (w : MemoryWorld) (e : Event) (label : String) :
    (w.happen e).2.whereabouts label = (e.destination? label).or (w.whereabouts label) := by
  cases e with
  | call c =>
    cases c with
    | inInventory item => rfl
    | move item place =>
      refine (whereabouts_moveTo w item place label).trans ?_
      rw [Event.destination?]
      split <;> rfl
    | output text => rfl
  | takeOutput => rfl

/-- An item is where its last move took it, or where it was if it was not moved. -/
theorem whereabouts_happenAll (w : MemoryWorld) (es : List Event) (label : String) :
    (w.happenAll es).2.whereabouts label =
      (destinations label es).getLast?.or (w.whereabouts label) := by
  induction es generalizing w with
  | nil => rfl
  | cons e es ih =>
    rw [happenAll_cons, ih, whereabouts_happen, ← Option.or_assoc]
    congr 1
    -- the first move counts only if no later one does
    rw [destinations, destinations, List.filterMap_cons]
    cases e.destination? label with
    | none => exact Option.or_none
    | some place =>
      dsimp only
      rw [List.getLast?_cons]
      cases (es.filterMap (Event.destination? label)).getLast? <;> rfl

/-! ## What is shown -/

theorem handed_happen (w : MemoryWorld) (e : Event) :
    (w.happen e).1 ++ (w.happen e).2.shown.toList = w.shown.toList ++ e.text?.toList := by
  cases e with
  | call c =>
    cases c with
    | inInventory label => exact (List.append_nil _).symm
    | move label place =>
      show (w.moveTo label place).shown.toList = w.shown.toList ++ []
      rw [MemoryWorld.moveTo, List.append_nil]
      split <;> rfl
    | output text => exact Array.toList_push
  | takeOutput => rfl

/-- What is handed out, and then what is still there, is what was there and then what was shown. -/
theorem handed_happenAll (w : MemoryWorld) (es : List Event) :
    (w.happenAll es).1 ++ (w.happenAll es).2.shown.toList = w.shown.toList ++ texts es := by
  induction es generalizing w with
  | nil => exact (List.append_nil _).symm
  | cons e es ih =>
    rw [happenAll_cons, List.append_assoc, ih, ← List.append_assoc, handed_happen,
      List.append_assoc, texts, texts, List.filterMap_cons]
    cases e.text? <;> rfl

/-- Whatever happens to a world in which the player carried some items: no item is with the player
and in a place; an item whose label is in upper case is where its last move took it, and if it was
never moved, it is with the player if it was so at the start, and otherwise its place is not known;
and the texts that were handed out, and then those that are still there, are the texts that were
shown, in their order. -/
theorem happenAll_withInventory (items : List String) (es : List Event) :
    let handed := ((withInventory items).happenAll es).1
    let w := ((withInventory items).happenAll es).2
    (∀ label, ¬(label ∈ w.inventory ∧ label ∈ w.locations)) ∧
    (∀ label, Text.upper label = label →
      w.locationOf label = (destinations label es).getLast?.or
        (if label ∈ items.map Text.upper then some inventoryPlace else none)) ∧
    handed ++ w.shown.toList = texts es := by
  have hapart := (apart_withInventory items).happenAll es
  refine ⟨fun label h => hapart label h.1 h.2, fun label hlabel => ?_, ?_⟩
  · rw [locationOf_eq, hlabel, whereabouts_happenAll, whereabouts_withInventory]
  · exact handed_happenAll (withInventory items) es

/-- Items that are moved in and out, one of them in two letter cases, with texts taken in between.
-/
theorem happenAll_withInventory_of_lamp :
    let es : List Event := [.call (.move "LAMP" "CELLAR"), .call (.output "one"), .takeOutput,
      .call (.move "lamp" "HALL"), .call (.move "LAMP" inventoryPlace), .call (.output "two"),
      .call (.move "KEY" "HALL"), .call (.inInventory "KEY"), .call (.output "three")]
    let w := ((withInventory ["Lamp", "rope", "key"]).happenAll es).2
    Text.upper "LAMP" = "LAMP" ∧ w.locationOf "LAMP" = some inventoryPlace ∧
      w.locationOf "KEY" = some "HALL" ∧ w.locationOf "ROPE" = some inventoryPlace ∧
      w.locationOf "CAT" = none ∧ w.shown.toList = ["two", "three"] := by
  intro es w
  have hplaces := (happenAll_withInventory ["Lamp", "rope", "key"] es).2.1
  have hlamp : Text.upper "LAMP" = "LAMP" := by decide +kernel
  refine ⟨hlamp, ?_, ?_, ?_, ?_, by decide +kernel⟩
  · rw [hplaces "LAMP" hlamp]
    decide +kernel
  · rw [hplaces "KEY" (by decide +kernel)]
    decide +kernel
  · rw [hplaces "ROPE" (by decide +kernel)]
    decide +kernel
  · rw [hplaces "CAT" (by decide +kernel)]
    decide +kernel

end MemoryWorld

end FlagScript
