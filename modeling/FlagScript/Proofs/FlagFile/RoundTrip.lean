import FlagScript.Proofs.FlagFile.Table
import FlagScript.Proofs.Toml.Float
import FlagScript.Proofs.Toml.Quoted
import Mathlib.Data.List.Induction

/-!
# Documents of flags read back

What is written of flags is a document of one table, with one line for each flag. Reading goes
through these lines one by one, and has the table back at the end (`readTable?_render`): whatever
the names are and whatever the flags hold.
-/

namespace FlagScript.FlagFile

open Toml

variable {name : String} {v : Value} {rest : List Char}

/-! ## Values -/

theorem endsWord_newline (rest : List Char) : EndsWord ('\n' :: rest) := by
  intro c hc
  obtain rfl := Option.some.inj hc
  decide

/-- A quoted text begins with its mark. -/
theorem write_eq_cons (style : QuoteStyle) (cs : List Char) :
    ∃ more, style.write cs = style.mark :: more := by
  obtain ⟨escapes, long⟩ := style
  cases long <;> exact ⟨_, rfl⟩

/-- What begins with a mark is read as a text. -/
theorem node?_quoted {style : QuoteStyle} {cs text : List Char} (depth : Nat)
    (hread : readText? (style.mark :: cs) = some (text, rest)) :
    node? depth (style.mark :: cs) = some (.value (.text (String.ofList text)), rest) := by
  obtain ⟨escapes, long⟩ := style
  cases escapes with
  | true =>
    show node? depth ('"' :: cs) = _
    rw [node?, show readText? ('"' :: cs) = some (text, rest) from hread]
    rfl
  | false =>
    show node? depth ('\x27' :: cs) = _
    rw [node?, show readText? ('\x27' :: cs) = some (text, rest) from hread]
    rfl

theorem writeValue_bool (b : Bool) : writeValue (.bool b) = truthWord b := by
  cases b <;> rfl

theorem node?_writeValue (depth : Nat) (v : Value) (rest : List Char) :
    node? depth (writeValue v ++ '\n' :: rest) = some (.value v, '\n' :: rest) := by
  have hends := endsWord_newline rest
  cases v with
  | int i => exact node?_int depth i hends
  | float x => exact node?_float depth x hends
  | bool b =>
    rw [writeValue_bool]
    exact node?_bool depth b hends
  | text s =>
    have hfits := fits_forText s.toList
    show node? depth ((QuoteStyle.forText s.toList).write s.toList ++ '\n' :: rest) = _
    generalize QuoteStyle.forText s.toList = style at hfits ⊢
    have hrest : ('\n' :: rest).head? ≠ some style.mark := by
      obtain ⟨escapes, long⟩ := style
      cases escapes <;> simp [QuoteStyle.mark]
    have hread := readText?_write hfits hrest
    obtain ⟨cs, hcs⟩ := write_eq_cons style s.toList
    rw [hcs, List.cons_append] at hread ⊢
    rw [node?_quoted depth hread, String.ofList_toList]

/-- A value is written as a word or in quotes. -/
theorem writeValue_cases (v : Value) :
    IsWord (writeValue v) ∨
      ∃ (style : QuoteStyle) (cs : List Char), writeValue v = style.write cs := by
  cases v with
  | int i => exact .inl (isWord_ofInt _)
  | float x => exact .inl (isWord_writeFloat x)
  | bool b =>
    rw [writeValue_bool]
    exact .inl (isWord_truthWord b)
  | text s => exact .inr ⟨_, _, rfl⟩

theorem skipBlanks_cons {c : Char} (hc : Text.isInlineBlank c = false) (cs : List Char) :
    skipBlanks (c :: cs) = c :: cs :=
  List.dropWhile_cons_of_neg (by rw [hc]; decide)

/-- No blank stands in front of a value. -/
theorem skipBlanks_writeValue (v : Value) (rest : List Char) :
    skipBlanks (writeValue v ++ rest) = writeValue v ++ rest := by
  have hhead : ∃ c cs, writeValue v = c :: cs ∧ Text.isInlineBlank c = false := by
    rcases writeValue_cases v with hword | ⟨style, cs, heq⟩
    · obtain ⟨c, cs, hcons⟩ := List.exists_cons_of_ne_nil hword.nonempty
      have hc := hword.chars c (by rw [hcons]; exact List.mem_cons_self)
      refine ⟨c, cs, hcons, ?_⟩
      rw [Text.isInlineBlank, Bool.or_eq_false_iff, beq_eq_false_iff_ne, beq_eq_false_iff_ne]
      constructor <;> (rintro rfl; exact absurd hc (by decide))
    · obtain ⟨more, hmore⟩ := write_eq_cons style cs
      refine ⟨_, more, heq.trans hmore, ?_⟩
      unfold QuoteStyle.mark
      split <;> decide
  obtain ⟨c, cs, heq, hc⟩ := hhead
  rw [heq, List.cons_append, skipBlanks_cons hc]

/-! ## Keys -/

/-- A key stands as it is if all its characters are those of keys, and else in quotes. -/
theorem writeKey_cases (name : String) :
    (name.toList ≠ [] ∧ (∀ c ∈ name.toList, isBareKeyChar c = true) ∧
        writeKey name = name.toList) ∨
      writeKey name = (QuoteStyle.forKey name.toList).write name.toList := by
  unfold writeKey
  simp only
  split
  next hbare =>
    rw [Bool.and_eq_true, Bool.not_eq_true', List.isEmpty_eq_false_iff, List.all_eq_true] at hbare
    exact .inl ⟨hbare.1, hbare.2, rfl⟩
  next => exact .inr rfl

/-- Characters that a key may begin with, unlike layout, comments and headers. -/
def StartsKey (c : Char) : Prop := isBareKeyChar c = true ∨ c = '"' ∨ c = '\x27'

instance (c : Char) : Decidable (StartsKey c) :=
  inferInstanceAs (Decidable (isBareKeyChar c = true ∨ c = '"' ∨ c = '\x27'))

theorem StartsKey.ne {c d : Char} (h : StartsKey c) (hd : ¬StartsKey d) : c ≠ d := by
  intro heq
  apply hd
  rwa [← heq]

theorem exists_writeKey_eq_cons (name : String) :
    ∃ c cs, writeKey name = c :: cs ∧ StartsKey c := by
  rcases writeKey_cases name with ⟨hne, hbare, heq⟩ | heq
  · obtain ⟨c, cs, hcons⟩ := List.exists_cons_of_ne_nil hne
    refine ⟨c, cs, heq.trans hcons, .inl (hbare c ?_)⟩
    rw [hcons]
    exact List.mem_cons_self
  · obtain ⟨more, hmore⟩ := write_eq_cons (QuoteStyle.forKey name.toList) name.toList
    refine ⟨_, more, heq.trans hmore, .inr ?_⟩
    unfold QuoteStyle.mark
    split <;> simp

theorem StartsKey.isInlineBlank {c : Char} (h : StartsKey c) : Text.isInlineBlank c = false := by
  rw [Text.isInlineBlank, Bool.or_eq_false_iff, beq_eq_false_iff_ne, beq_eq_false_iff_ne]
  exact ⟨h.ne (by decide), h.ne (by decide)⟩

/-- No blank stands in front of a key. -/
theorem skipBlanks_writeKey (name : String) (rest : List Char) :
    skipBlanks (writeKey name ++ rest) = writeKey name ++ rest := by
  obtain ⟨c, cs, heq, hc⟩ := exists_writeKey_eq_cons name
  rw [heq, List.cons_append, skipBlanks_cons hc.isInlineBlank]

theorem key?_writeKey (name : String) (rest : List Char) :
    key? (writeKey name ++ ' ' :: '=' :: rest) = some (name, '=' :: rest) := by
  have hafter : skipBlanks (' ' :: '=' :: rest) = '=' :: rest := rfl
  unfold key?
  simp only [skipBlanks_writeKey]
  -- a bare key ends at the blank behind it, a quoted one at its mark
  rcases writeKey_cases name with ⟨hne, hbare, heq⟩ | heq
  · have htake : (name.toList ++ ' ' :: '=' :: rest).takeWhile isBareKeyChar = name.toList := by
      rw [List.takeWhile_append_of_pos hbare]
      exact List.append_nil _
    have hdrop : (name.toList ++ ' ' :: '=' :: rest).dropWhile isBareKeyChar =
        ' ' :: '=' :: rest := List.dropWhile_append_of_pos hbare
    rw [heq, htake, hdrop, hafter, if_neg (by simpa using hne), String.ofList_toList]
  · obtain ⟨hfits, hlong⟩ := fits_forKey name.toList
    rw [heq]
    generalize QuoteStyle.forKey name.toList = style at hfits hlong
    have hmark : isBareKeyChar style.mark = false ∧ ' ' ≠ style.mark := by
      unfold QuoteStyle.mark
      split <;> decide
    have hrest : (' ' :: '=' :: rest).head? ≠ some style.mark := by simpa using hmark.2
    have hread := readLine?_write hfits hlong hrest
    obtain ⟨more, hmore⟩ := write_eq_cons style name.toList
    have htake : (style.write name.toList ++ ' ' :: '=' :: rest).takeWhile isBareKeyChar = [] := by
      rw [hmore, List.cons_append]
      exact List.takeWhile_cons_of_neg (by simp [hmark.1])
    rw [htake, hread]
    simp only [List.isEmpty_nil, if_true, Option.map_some, hafter, String.ofList_toList]

/-! ## Lines -/

theorem writeLine_append (name : String) (v : Value) (rest : List Char) :
    writeLine name v ++ rest =
      writeKey name ++ ' ' :: '=' :: ' ' :: (writeValue v ++ '\n' :: rest) := by
  simp [writeLine]

/-- An entry is read as the value under its name. -/
theorem pair?_writeLine (depth : Nat) (name : String) (v : Value) (rest : List Char) :
    pair? (node? depth) (writeLine name v ++ rest) =
      some ((⟨[], name⟩, .value v), '\n' :: rest) := by
  have hpath : path? (writeLine name v ++ rest) =
      some (⟨[], name⟩, '=' :: ' ' :: (writeValue v ++ '\n' :: rest)) := by
    rw [writeLine_append]
    show keys? (78 + 1) _ = _
    rw [keys?, key?_writeKey]
    rfl
  have hskip : skipBlanks (' ' :: (writeValue v ++ '\n' :: rest)) = writeValue v ++ '\n' :: rest :=
    skipBlanks_writeValue v _
  rw [pair?, hpath]
  simp only [hskip, node?_writeValue]
  rfl

/-- The line of an entry is neither layout nor a header. -/
theorem line?_writeLine (name : String) (v : Value) (rest : List Char) :
    line? (writeLine name v ++ rest) = some (.entry ⟨[], name⟩ (.value v), '\n' :: rest) := by
  have hpair := pair?_writeLine (Toml.maxNesting - 1) name v rest
  obtain ⟨c, cs, heq, hc⟩ := exists_writeKey_eq_cons name
  rw [writeLine_append, heq, List.cons_append] at hpair ⊢
  have hne : c ≠ '[' := hc.ne (by decide)
  unfold line?
  split
  next heq => exact absurd (List.cons.inj heq).1 hne
  next heq => exact absurd (List.cons.inj heq).1 hne
  next => rw [hpair]; rfl

theorem skipLayout_writeLine (name : String) (v : Value) (rest : List Char) :
    skipLayout false (writeLine name v ++ rest) = writeLine name v ++ rest := by
  obtain ⟨c, cs, heq, hc⟩ := exists_writeKey_eq_cons name
  rw [writeLine_append, heq, List.cons_append, skipLayout.eq_def]
  split
  next heq => cases heq
  next heq => exact absurd (List.cons.inj heq).1 (hc.ne (by decide))
  next heq => exact absurd (List.cons.inj heq).1 (hc.ne (by decide))
  next heq =>
    obtain ⟨rfl, rfl⟩ := List.cons.inj heq
    simp [hc.ne (d := '#') (by decide), hc.isInlineBlank]

/-! ## The document -/

/-- The table of flags while lines are read, with the entries so far. -/
def documentOf (entries : List (String × Value)) : Document where
  entries := [(tableName, .table .header (entries.map fun e => (e.1, .value e.2)))]
  current := [tableName]

theorem alter?_new (key : String) (change : Option Node → Option Node) (es : Entries)
    (h : ∀ e ∈ es, e.1 ≠ key) :
    es.alter? key change = (change none).map fun node => es ++ [(key, node)] := by
  induction es with
  | nil => rfl
  | cons e es ih =>
    rw [List.forall_mem_cons] at h
    rw [Entries.alter?, if_neg h.1, ih h.2]
    cases change none <;> rfl

/-- An entry under a new name joins the table. -/
theorem add?_entry {entries : List (String × Value)} (v : Value)
    (h : ∀ e ∈ entries, e.1 ≠ name) :
    (documentOf entries).add? (.entry ⟨[], name⟩ (.value v)) =
      some (documentOf (entries ++ [(name, v)])) := by
  have hnew : ∀ e ∈ entries.map fun e => (e.1, Node.value e.2), e.1 ≠ name := by
    intro e he
    obtain ⟨e', he', rfl⟩ := List.mem_map.1 he
    exact h e' he'
  have hadd : Entries.add? name (.value v) (entries.map fun e => (e.1, Node.value e.2)) =
      some ((entries ++ [(name, v)]).map fun e => (e.1, Node.value e.2)) := by
    rw [Entries.add?, alter?_new _ _ _ hnew, List.map_append]
    rfl
  unfold documentOf
  simp only [Document.add?, Entries.within?, Entries.alter?, if_true, Entries.addDotted?, hadd,
    Option.map_some]

/-- One line is read after the layout in front of it, and goes on at its end. -/
theorem readFrom?_line {d d' : Document} {line : Line} {cs t : List Char} (count : Nat)
    (hskip : skipLayout false cs = t) (hne : t ≠ []) (hline : line? t = some (line, '\n' :: rest))
    (hadd : d.add? line = some d') :
    d.readFrom? (count + 1) cs = d'.readFrom? count ('\n' :: rest) := by
  rw [Document.readFrom?, hskip]
  split
  next => exact absurd rfl hne
  next =>
    simp only [hline, hadd]
    exact if_pos rfl

/-- The lines of flags. -/
def writeLines (entries : List (String × Value)) : List Char :=
  entries.flatMap fun e => writeLine e.1 e.2

theorem writeLine_ne_nil (name : String) (v : Value) (rest : List Char) :
    writeLine name v ++ rest ≠ [] := by
  simp [writeLine]

/-- Lines that are left are read one by one. -/
theorem readFrom?_lines {entries more : List (String × Value)}
    (hnames : ((entries ++ more).map Prod.fst).Nodup) {count : Nat} (hcount : more.length < count) :
    (documentOf entries).readFrom? count ('\n' :: writeLines more) =
      some (documentOf (entries ++ more)) := by
  induction more generalizing entries count with
  | nil =>
    obtain ⟨count, rfl⟩ := Nat.exists_eq_add_of_lt hcount
    rw [List.append_nil]
    rfl
  | cons e more ih =>
    obtain ⟨count, rfl⟩ : ∃ n, count = n + 1 := ⟨count - 1, by omega⟩
    rw [List.length_cons] at hcount
    -- no entry so far has this name, so it is added behind them
    have hnew : ∀ e' ∈ entries, e'.1 ≠ e.1 := by
      rw [List.map_append, List.nodup_append] at hnames
      intro e' he'
      exact hnames.2.2 e'.1 (List.mem_map_of_mem he') e.1 (by simp)
    have hskip : skipLayout false ('\n' :: writeLines (e :: more)) =
        writeLine e.1 e.2 ++ writeLines more := skipLayout_writeLine e.1 e.2 _
    rw [readFrom?_line count hskip (writeLine_ne_nil _ _ _) (line?_writeLine e.1 e.2 _)
      (add?_entry e.2 hnew)]
    have hsplit : entries ++ e :: more = entries ++ [e] ++ more := List.append_cons entries e more
    rw [hsplit] at hnames ⊢
    apply ih hnames
    omega

theorem length_le_writeLines (entries : List (String × Value)) :
    entries.length ≤ (writeLines entries).length := by
  induction entries with
  | nil => exact Nat.zero_le _
  | cons e entries ih =>
    have hline := List.length_pos_iff.2 (writeLine_ne_nil e.1 e.2 [])
    rw [List.append_nil] at hline
    show entries.length + 1 ≤ (writeLine e.1 e.2 ++ writeLines entries).length
    rw [List.length_append]
    omega

/-- The names of flags are different. -/
theorem nodup_names (flags : Flags) : (flags.toList.map Prod.fst).Nodup := by
  rw [List.Nodup, List.pairwise_map]
  refine Std.ExtTreeMap.distinct_keys_toList.imp fun hne heq => hne ?_
  rw [heq]
  exact Std.ReflCmp.compare_self

/-- The header of the document opens the table. -/
theorem line?_header (rest : List Char) :
    line? (['['] ++ tableName.toList ++ [']', '\n'] ++ rest) =
      some (.header ⟨[], tableName⟩, '\n' :: rest) := rfl

/-- A document of flags is read as their table, in its order. -/
theorem read?_render (flags : Flags) :
    Toml.read? (render flags) = some (documentOf flags.toList).entries := by
  generalize hcs : ['['] ++ tableName.toList ++ [']', '\n'] ++ writeLines flags.toList = cs
  have hlist : (render flags).toList = cs := by
    rw [render, String.toList_ofList, ← hcs]
    rfl
  have hcount : flags.toList.length < cs.length := by
    have hlines := length_le_writeLines flags.toList
    have hheader : (['['] ++ tableName.toList ++ [']', '\n']).length = 8 := rfl
    rw [← hcs, List.length_append, hheader]
    omega
  have hopen : ({} : Document).add? (.header ⟨[], tableName⟩) = some (documentOf []) := rfl
  have hskip : skipLayout false cs = cs := by
    rw [← hcs]
    rfl
  have hread : Document.readFrom? {} (cs.length + 1) cs = some (documentOf flags.toList) := by
    rw [readFrom?_line cs.length hskip (by rw [← hcs]; simp) (hcs ▸ line?_header _) hopen]
    apply readFrom?_lines
    · exact nodup_names flags
    · exact hcount
  rw [Toml.read?, hlist]
  -- the document does not begin with a byte order mark
  split
  next => exact absurd (List.cons.inj hcs).1 (by decide)
  next => rw [hread]; rfl

/-- One more plain value joins the table. -/
theorem plainTable?_append (es : Entries) (name : String) (v : Value) :
    plainTable? (es ++ [(name, .value v)]) = (plainTable? es).map (·.insert name v) := by
  rw [plainTable?, List.foldlM_append, plainTable?, Option.map_eq_bind]
  rfl

theorem plainTable?_values (entries : List (String × Value)) :
    plainTable? (entries.map fun e => (e.1, .value e.2)) = some (.ofList entries) := by
  induction entries using List.reverseRecOn with
  | nil => rfl
  | append_singleton entries e ih =>
    rw [List.map_append, List.map_singleton, plainTable?_append, ih,
      Std.ExtTreeMap.ofList_eq_foldl, Std.ExtTreeMap.ofList_eq_foldl, List.foldl_append]
    rfl

/-- The table that is read of written flags is that of the flags. -/
theorem readTable?_render (flags : Flags) : readTable? (render flags) = some flags := by
  rw [readTable?, read?_render, Option.bind_some]
  show plainTable? (flags.toList.map fun e => (e.1, .value e.2)) = some flags
  rw [plainTable?_values, Flags.ofList_toList]

end FlagScript.FlagFile
