import Std.Data.ExtTreeMap
import Std.Data.ExtTreeSet
import FlagScript.Text.Upper

/-!
# Worlds

The game in which a script runs. A script reaches it only by three calls, with labels in upper case,
and each call answers whether it succeeded.
-/

namespace FlagScript

/-- How a script reaches a game: every call hands the game back. So a game can take note of all that
it is asked, though the answer may be all that the script is after. -/
class Game (W : Type) where
  /-- Whether the player carries the item of this label. -/
  inInventory : W → String → Bool × W
  /-- Moves an item or a character to a place. -/
  move : W → (label place : String) → Bool × W
  /-- Shows text to the player. -/
  output : W → String → Bool × W

/-- What a script can ask of a game that stays the same when it is asked what the player carries. -/
class World (W : Type) where
  /-- Whether the player carries the item of this label. -/
  inInventory : W → String → Bool
  /-- Moves an item or a character to a place. -/
  move : W → (label place : String) → Bool × W
  /-- Shows text to the player. -/
  output : W → String → Bool × W

instance {W : Type} [World W] : Game W where
  inInventory w label := (World.inInventory w label, w)
  move := World.move
  output := World.output

/-- A game that only remembers: what the player carries, where everything else was moved to, and
what was shown, in order. -/
structure MemoryWorld where
  inventory : Std.ExtTreeSet String := ∅
  locations : Std.ExtTreeMap String String := ∅
  shown : Array String := #[]

namespace MemoryWorld

/-- The place of what the player carries. -/
def inventoryPlace : String := "@INVEN"

/-- A world in which the player carries the given items. -/
def withInventory (items : List String) : MemoryWorld where
  inventory := Std.ExtTreeSet.ofList (items.map Text.upper)

/-- Where an item is, if that is known. -/
def locationOf (w : MemoryWorld) (label : String) : Option String :=
  let label := Text.upper label
  if w.inventory.contains label then some inventoryPlace else w.locations[label]?

def moveTo (w : MemoryWorld) (label place : String) : MemoryWorld :=
  if place = inventoryPlace then
    { w with locations := w.locations.erase label, inventory := w.inventory.insert label }
  else { w with
    inventory := w.inventory.erase label, locations := w.locations.insert label place }

def display (w : MemoryWorld) (text : String) : MemoryWorld := { w with shown := w.shown.push text }

/-- Takes what was shown so far away. -/
def takeOutput (w : MemoryWorld) : List String × MemoryWorld :=
  (w.shown.toList, { w with shown := #[] })

instance : World MemoryWorld where
  inInventory w label := w.inventory.contains label
  move w label place := (true, w.moveTo label place)
  output w text := (true, w.display text)

end MemoryWorld

/-- A remembering world that can be told to refuse: it then changes nothing and answers that no call
succeeded, but still says what the player carries. -/
structure ModeratedWorld where
  memory : MemoryWorld := {}
  refuses : Bool := false

instance : World ModeratedWorld where
  inInventory w label := World.inInventory w.memory label
  move w label place :=
    if w.refuses then (false, w)
    else ((World.move w.memory label place).1,
      { w with memory := (World.move w.memory label place).2 })
  output w text :=
    if w.refuses then (false, w)
    else ((World.output w.memory text).1, { w with memory := (World.output w.memory text).2 })

end FlagScript
