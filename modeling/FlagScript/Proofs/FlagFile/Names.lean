import FlagScript.Proofs.FlagFile.RoundTrip
import FlagScript.Proofs.Run.Snapshot
import FlagScript.Proofs.Text.Bytes

/-!
# Names in a table of flags

A table is gone through by name, in the order of bytes. Of the names that are the same in upper case
the last one gives the flag its value; and if some are not allowed, the first one of them is refused
(`parse_names`).
-/

namespace FlagScript.FlagFile

variable {table : Table} {name : String}

/-- The first name of a table for which something holds, in the order of bytes. -/
structure IsFirst (table : Table) (P : String → Prop) (name : String) : Prop where
  mem : name ∈ table
  holds : P name
  le : ∀ other ∈ table, P other → Text.bytes name ≤ Text.bytes other

/-- The last name of a table for which something holds. -/
structure IsLast (table : Table) (P : String → Prop) (name : String) : Prop where
  mem : name ∈ table
  holds : P name
  le : ∀ other ∈ table, P other → Text.bytes other ≤ Text.bytes name

/-! ## What is found first -/

/-- What is found stands in front of all else for which the same holds. -/
theorem eq_or_rel_of_find?_eq_some {α : Type} {R : α → α → Prop} {p : α → Bool} {xs : List α}
    {a b : α} (hxs : xs.Pairwise R) (h : xs.find? p = some a) (hb : b ∈ xs) (hp : p b = true) :
    b = a ∨ R a b := by
  obtain ⟨_, front, back, rfl, hfront⟩ := List.find?_eq_some_iff_append.1 h
  rcases List.mem_append.1 hb with hb | hb
  · exact absurd hp (by simpa using hfront b hb)
  · rcases List.mem_cons.1 hb with rfl | hb
    · exact .inl rfl
    · exact .inr (List.rel_of_pairwise_cons (List.pairwise_append.1 hxs).2.1 hb)

theorem pairwise_toList (table : Table) : table.toList.Pairwise fun e e' => e.1 < e'.1 :=
  Std.ExtTreeMap.ordered_keys_toList.imp fun h => compare_lt_iff_lt.1 h

theorem exists_mem_toList (h : name ∈ table) : ∃ v, (name, v) ∈ table.toList := by
  obtain ⟨e, he, rfl⟩ := List.mem_map.1 (Flags.mem_names_iff.2 h)
  exact ⟨e.2, he⟩

variable {P : String → Prop} [DecidablePred P] {e : String × Value}

/-- What is found on the way through a table is a name for which the property holds, and any other
such name comes later on the way. -/
theorem eq_or_rel_of_mem {R : String → String → Prop} {way : List (String × Value)}
    (hway : way.Perm table.toList) (hR : way.Pairwise fun e e' => R e.1 e'.1)
    (h : way.find? (fun e => P e.1) = some e) :
    e.1 ∈ table ∧ P e.1 ∧ ∀ other ∈ table, P other → other = e.1 ∨ R e.1 other := by
  have hmem := hway.mem_iff.1 (List.mem_of_find?_eq_some h)
  refine ⟨Flags.mem_of_mem_toList hmem, by simpa using List.find?_some h, ?_⟩
  intro other hother hP
  obtain ⟨v, hv⟩ := exists_mem_toList hother
  have hrel := eq_or_rel_of_find?_eq_some hR h (hway.mem_iff.2 hv) (by simpa using hP)
  exact hrel.imp (congrArg Prod.fst) id

theorem isFirst_of_find?_eq_some (h : table.toList.find? (fun e => P e.1) = some e) :
    IsFirst table P e.1 := by
  obtain ⟨hmem, hP, hrel⟩ := eq_or_rel_of_mem (.refl _) (pairwise_toList table) h
  refine ⟨hmem, hP, fun other hother hother' => Text.bytes_le_iff.2 ?_⟩
  rcases hrel other hother hother' with rfl | hlt
  · exact le_refl _
  · exact hlt.le

theorem isLast_of_find?_eq_some (h : table.toList.reverse.find? (fun e => P e.1) = some e) :
    IsLast table P e.1 := by
  have hback : table.toList.reverse.Pairwise fun e e' => e'.1 < e.1 :=
    List.pairwise_reverse.2 (pairwise_toList table)
  obtain ⟨hmem, hP, hrel⟩ :=
    eq_or_rel_of_mem (R := fun n n' => n' < n) (List.reverse_perm _) hback h
  refine ⟨hmem, hP, fun other hother hother' => Text.bytes_le_iff.2 ?_⟩
  rcases hrel other hother hother' with rfl | hlt
  · exact le_refl _
  · exact hlt.le

/-! ## The flags of a table -/

theorem ofTable_eq (table : Table) :
    ofTable table =
      match table.toList.find? fun e => ¬Flags.IsAllowed (Text.upper e.1) with
      | some e => .error (.flagName (Text.upper e.1))
      | none => .ok (.ofEntries table.toList) := addAll_eq ∅ table.toList

theorem mem_ofEntries_toList_iff :
    name ∈ Flags.ofEntries table.toList ↔ ∃ given ∈ table, Text.upper given = name := by
  rw [Flags.mem_ofEntries_iff]
  constructor
  · rintro ⟨e, he, hname⟩
    exact ⟨e.1, Flags.mem_of_mem_toList he, hname⟩
  · rintro ⟨given, hgiven, hname⟩
    obtain ⟨v, hv⟩ := exists_mem_toList hgiven
    exact ⟨(given, v), hv, hname⟩

/-- A flag has the value that the table gives under the last name which is the flag's in upper
case. -/
theorem exists_isLast (h : name ∈ Flags.ofEntries table.toList) :
    ∃ given, IsLast table (Text.upper · = name) given ∧
      (Flags.ofEntries table.toList)[name]? = table[given]? := by
  rw [Std.ExtTreeMap.mem_iff_isSome_getElem?, Flags.getElem?_ofEntries, Option.isSome_map] at h
  obtain ⟨e, hfind⟩ := Option.isSome_iff_exists.1 h
  have hmem := List.mem_reverse.1 (List.mem_of_find?_eq_some hfind)
  refine ⟨e.1, isLast_of_find?_eq_some hfind, ?_⟩
  rw [Flags.getElem?_ofEntries, hfind, Std.ExtTreeMap.mem_toList_iff_getElem?_eq_some.1 hmem]
  rfl

/-- A text that holds a table is read as flags exactly if all names in the table are allowed in
upper case. Then the flags are named as these are, and each has the value under the last name, in
the order of bytes, that is its own in upper case. Otherwise the first name in that order that is
not allowed is refused. -/
theorem parse_names {source : String} (h : readTable? source = some table) :
    ((∃ flags, parse source = .ok flags) ↔ ∀ given ∈ table, Flags.IsAllowed (Text.upper given)) ∧
      (∀ flags, parse source = .ok flags →
        (∀ name, name ∈ flags ↔ ∃ given ∈ table, Text.upper given = name) ∧
          ∀ name ∈ flags, ∃ given,
            IsLast table (Text.upper · = name) given ∧ flags[name]? = table[given]?) ∧
      ((¬∃ flags, parse source = .ok flags) → ∃ given,
        IsFirst table (fun given => ¬Flags.IsAllowed (Text.upper given)) given ∧
          parse source = .error (.flagName (.flagName (Text.upper given)))) := by
  have hparse : parse source = (ofTable table).mapError .flagName := by rw [parse, h]
  rw [hparse, ofTable_eq]
  cases hfind : table.toList.find? fun e => ¬Flags.IsAllowed (Text.upper e.1) with
  | none =>
    -- no name is refused, so all entries are added
    have hallowed : ∀ given ∈ table, Flags.IsAllowed (Text.upper given) := by
      intro given hgiven
      obtain ⟨v, hv⟩ := exists_mem_toList hgiven
      simpa using List.find?_eq_none.1 hfind _ hv
    refine ⟨iff_of_true ⟨_, rfl⟩ hallowed, ?_, fun hnot => absurd ⟨_, rfl⟩ hnot⟩
    rintro flags ⟨⟩
    exact ⟨fun name => mem_ofEntries_toList_iff, fun name hname => exists_isLast hname⟩
  | some e =>
    -- the search goes through the names in their order, so what it finds comes first
    have hfirst := isFirst_of_find?_eq_some
      (P := fun given => ¬Flags.IsAllowed (Text.upper given)) hfind
    refine ⟨iff_of_false (by rintro ⟨_, ⟨⟩⟩) ?_, nofun, fun _ => ⟨e.1, hfirst, rfl⟩⟩
    exact fun hallowed => hfirst.holds (hallowed e.1 hfirst.mem)

/-- Three names of one flag, of which the last one is no ASCII; and two names that are refused, of
which the later one in the order of bytes stands first in the text. -/
theorem parse_names_of_collision :
    (let source := "[flags]\nss = 1\n\"ß\" = \"last\"\nSS = 3\n"
      ∃ table flags, readTable? source = some table ∧
        table.toList.map Prod.fst = ["SS", "ss", "ß"] ∧ parse source = .ok flags ∧
        ∃ given, IsLast table (Text.upper · = "SS") given ∧ flags["SS"]? = table[given]?) ∧
    (let source := "[flags]\n\"é\" = 1\nok = 2\n\"a b\" = 3\n"
      ∃ table, readTable? source = some table ∧
        table.toList.map Prod.fst = ["a b", "ok", "é"] ∧
        ∃ given, IsFirst table (fun given => ¬Flags.IsAllowed (Text.upper given)) given ∧
          parse source = .error (.flagName (.flagName (Text.upper given)))) := by
  have hnames : ∀ {table : Table} {names : List String}, table.toList.map Prod.fst = names →
      ∀ given, given ∈ table ↔ given ∈ names := by
    rintro table names rfl given
    exact Flags.mem_names_iff.symm
  constructor
  · intro source
    obtain ⟨table, htable, hkeys⟩ : ∃ table, readTable? source = some table ∧
        table.toList.map Prod.fst = ["SS", "ss", "ß"] :=
      Option.map_eq_some_iff.1 (by decide +kernel)
    obtain ⟨hok, hflags, -⟩ := parse_names htable
    obtain ⟨flags, hparse⟩ := hok.2 (by
      simp only [hnames hkeys]
      decide +kernel)
    have hname : "SS" ∈ flags :=
      ((hflags flags hparse).1 "SS").2 ⟨"SS", (hnames hkeys _).2 (by decide), by decide +kernel⟩
    exact ⟨table, flags, htable, hkeys, hparse, (hflags flags hparse).2 "SS" hname⟩
  · intro source
    obtain ⟨table, htable, hkeys⟩ : ∃ table, readTable? source = some table ∧
        table.toList.map Prod.fst = ["a b", "ok", "é"] :=
      Option.map_eq_some_iff.1 (by decide +kernel)
    obtain ⟨hok, -, hrefused⟩ := parse_names htable
    refine ⟨table, htable, hkeys, hrefused fun hsome => ?_⟩
    have hallowed := hok.1 hsome "a b" ((hnames hkeys _).2 (by decide))
    exact absurd hallowed (by decide +kernel)

end FlagScript.FlagFile
