import ZapTrace.Export.Ipcd356

/-!
# The lines of the IPC-D-356 netlist

What the reader finds depends on the lines that are not empty only, and each line that the writer writes is read
by itself, even when it has line breaks of its own. The report passes when the records are the nodes of the nets.

## Main results

* `parseIpcd356_spec`: the nodes that are read are those of the records
* `givesRecord_generate_iff`: the records of the text of a design
* `passed_iff_records`: when the report passes
-/

namespace ZapTrace.Ipcd356

open Option hiding or or_assoc
open Fields List Dict

/-! ## Lines -/

theorem isSpace_of_isLineBreak {c : Char} (h : isLineBreak c) : isSpace c := by
  simp [isSpace, h]

variable {line : Text}

theorem filter_splitlinesFrom (hline : ∀ c ∈ line, isLineBreak c = false) (text : Text) :
    (splitlinesFrom line text).filter (fun l => !l.isEmpty) = fields isLineBreak (line ++ text) := by
  have hnonempty : ∀ (l : Text) (rest : List Text), (∀ c ∈ l, isLineBreak c = false) →
      (l :: rest).filter (fun part => !part.isEmpty) = fields isLineBreak l ++ rest.filter fun part => !part.isEmpty := by
    intro l rest hl
    rw [fields_of_forall hl]
    cases l <;> rfl
  fun_induction splitlinesFrom line text with
  | case1 =>
    rfl
  | case2 line hne =>
    rw [append_nil, fields_of_isField ⟨hne, hline⟩]
    cases line with
    | nil => exact absurd rfl hne
    | cons c line => rfl
  | case3 line rest ih =>
    -- the empty piece between the two characters of a line break is left out
    rw [hnonempty line _ hline, ih (forall_mem_nil _), fields_append_cons (by decide),
      fields_cons (by decide), nil_append]
  | case4 line c rest _ hbreak ih =>
    rw [hnonempty line _ hline, ih (forall_mem_nil _), fields_append_cons hbreak,
      nil_append]
  | case5 line c rest _ hbreak ih =>
    rw [ih, append_assoc, singleton_append]
    intro d hd
    rcases mem_append.mp hd with hd | hd
    · exact hline d hd
    · rw [mem_singleton.mp hd]
      exact Bool.eq_false_iff.mpr hbreak

theorem filter_splitlines (text : Text) :
    (splitlines text).filter (fun l => !l.isEmpty) = fields isLineBreak text :=
  filter_splitlinesFrom (forall_mem_nil _) text

theorem mem_fields_iff {text line : Text} : line ∈ fields isLineBreak text ↔ line ∈ splitlines text ∧ line ≠ [] := by
  rw [← filter_splitlines, mem_filter]
  simp

def GivesRecord (text net_name node : Text) : Prop :=
  ∃ line ∈ fields isLineBreak text, readRecord (words line) = .ok (some (net_name, node))

def ReadsAll (text : Text) : Prop := ∀ line ∈ fields isLineBreak text, ∃ record, readRecord (words line) = .ok record

theorem readRecord_nil : readRecord (words []) = .ok none := rfl

theorem givesRecord_iff {text net_name node : Text} :
    GivesRecord text net_name node ↔
      ∃ line ∈ splitlines text, readRecord (words line) = .ok (some (net_name, node)) := by
  unfold GivesRecord
  constructor
  · rintro ⟨line, hline, hread⟩
    exact ⟨line, (mem_fields_iff.mp hline).1, hread⟩
  · rintro ⟨line, hline, hread⟩
    refine ⟨line, mem_fields_iff.mpr ⟨hline, ?_⟩, hread⟩
    rintro rfl
    rw [readRecord_nil] at hread
    cases hread

theorem readsAll_iff {text : Text} :
    ReadsAll text ↔ ∀ line ∈ splitlines text, ∃ record, readRecord (words line) = .ok record := by
  unfold ReadsAll
  constructor
  · intro h line hline
    by_cases hempty : line = []
    · exact ⟨none, by rw [hempty, readRecord_nil]⟩
    · exact h line (mem_fields_iff.mpr ⟨hline, hempty⟩)
  · exact fun h line hline => h line (mem_fields_iff.mp hline).1

theorem givesRecord_of_line {line net_name node : Text} (hline : ∀ c ∈ line, isLineBreak c = false) :
    GivesRecord line net_name node ↔ readRecord (words line) = .ok (some (net_name, node)) := by
  unfold GivesRecord
  rw [fields_of_forall hline]
  split
  · rename_i hempty
    rw [hempty, readRecord_nil]
    constructor
    · rintro ⟨line, hmem, -⟩
      cases hmem
    · intro h
      cases h
  · simp

theorem readsAll_of_line (hline : ∀ c ∈ line, isLineBreak c = false) {record : Option (Text × Text)}
    (h : readRecord (words line) = .ok record) : ReadsAll line := by
  unfold ReadsAll
  rw [fields_of_forall hline]
  split
  · exact fun l hl => absurd hl not_mem_nil
  · intro l hl
    rw [mem_singleton.mp hl]
    exact ⟨record, h⟩

theorem fields_flatMap (lines : List Text) :
    fields isLineBreak (lines.flatMap fun line => line ++ ['\n']) = lines.flatMap (fields isLineBreak) := by
  induction lines with
  | nil => rfl
  | cons line rest ih =>
    rw [flatMap_cons, flatMap_cons, append_assoc, singleton_append,
      fields_append_cons (by decide), ih]

/-! ## What the reader finds -/

def Holds (nets : Dict Text (List Text)) (net_name node : Text) : Prop :=
  ∃ nodes, nets.get? net_name = some nodes ∧ node ∈ nodes

def NoneEmpty (nets : Dict Text (List Text)) : Prop := ∀ net_name nodes, nets.get? net_name = some nodes → nodes ≠ []
variable {result : Dict Text (List Text)}

theorem holds_addNode_iff {net_name node net_name' node' : Text} :
    Holds (addNode result net_name node) net_name' node' ↔
      Holds result net_name' node' ∨ (net_name', node') = (net_name, node) := by
  unfold Holds addNode
  dsimp only
  rw [get?_set]
  by_cases hname : net_name' = net_name
  · subst hname
    rw [if_pos rfl]
    simp only [some.injEq, exists_eq_left', Prod.mk.injEq, true_and]
    cases hget : result.get? net_name' with
    | none =>
      simp
    | some nodes =>
      simp only [getD_some, some.injEq, exists_eq_left']
      split
      · rename_i hmem
        exact ⟨.inl, fun h => h.elim id fun heq => heq ▸ hmem⟩
      · rw [mem_append, mem_singleton]
  · rw [if_neg hname]
    simp [hname]

theorem noneEmpty_addNode (h : NoneEmpty result) (net_name node : Text) : NoneEmpty (addNode result net_name node) := by
  intro net_name' nodes hget
  unfold addNode at hget
  dsimp only at hget
  rw [get?_set] at hget
  split at hget
  · cases hget
    split
    · rename_i hmem
      exact ne_nil_of_mem hmem
    · exact concat_ne_nil _ _
  · exact h net_name' nodes hget

/-- After any lines, the nodes are those before and those of the records. -/
theorem foldlM_parseLine_spec {lines : List Text} : ∀ {start result : Dict Text (List Text)},
    lines.foldlM parseLine start = .ok result → (∀ line ∈ lines, ∃ record, readRecord (words line) = .ok record) ∧
      (NoneEmpty start → NoneEmpty result) ∧ ∀ net_name node, Holds result net_name node ↔
        Holds start net_name node ∨ ∃ line ∈ lines, readRecord (words line) = .ok (some (net_name, node)) := by
  induction lines with
  | nil =>
    intro start result h
    cases h
    exact ⟨fun line hline => absurd hline not_mem_nil, id, by simp⟩
  | cons line rest ih =>
    intro start result h
    rw [foldlM_cons] at h
    unfold parseLine at h
    cases hread : readRecord (words line) with
    | error e =>
      rw [hread] at h
      cases h
    | ok record =>
      rw [hread] at h
      cases record with
      | none =>
        obtain ⟨hall, hnone, hholds⟩ := ih h
        refine ⟨forall_mem_cons.mpr ⟨⟨none, hread⟩, hall⟩, hnone, fun net_name node => ?_⟩
        rw [hholds, exists_mem_cons_iff, hread]
        simp
      | some record =>
        obtain ⟨net_name', node'⟩ := record
        obtain ⟨hall, hnone, hholds⟩ := ih h
        refine ⟨forall_mem_cons.mpr ⟨⟨_, hread⟩, hall⟩, fun hstart => hnone (noneEmpty_addNode hstart _ _),
          fun net_name node => ?_⟩
        rw [hholds, holds_addNode_iff, exists_mem_cons_iff, hread, or_assoc]
        simp only [Except.ok.injEq, some.injEq, Prod.mk.injEq]
        rw [eq_comm (a := net_name'), eq_comm (a := node')]

theorem exists_foldlM_parseLine {lines : List Text}
    (h : ∀ line ∈ lines, ∃ record, readRecord (words line) = .ok record) :
    ∀ start, ∃ result, lines.foldlM parseLine start = .ok result := by
  induction lines with
  | nil => exact fun start => ⟨start, rfl⟩
  | cons line rest ih =>
    intro start
    obtain ⟨⟨record, hread⟩, hrest⟩ := forall_mem_cons.mp h
    obtain ⟨next, hnext⟩ : ∃ next, parseLine start line = .ok next := by
      unfold parseLine
      rw [hread]
      cases record with
      | none => exact ⟨start, rfl⟩
      | some record => exact ⟨_, rfl⟩
    obtain ⟨result, hresult⟩ := ih hrest next
    refine ⟨result, ?_⟩
    rw [foldlM_cons, hnext]
    exact hresult

theorem parseIpcd356_spec {text : Text} (h : parseIpcd356 text = .ok result) :
    ReadsAll text ∧ NoneEmpty result ∧ ∀ net_name node, Holds result net_name node ↔ GivesRecord text net_name node := by
  obtain ⟨hall, hnone, hholds⟩ := foldlM_parseLine_spec h
  refine ⟨readsAll_iff.mpr hall, hnone fun net_name nodes hget => ?_, fun net_name node => ?_⟩
  · cases hget
  · rw [hholds, givesRecord_iff, or_iff_right]
    rintro ⟨nodes, hget, -⟩
    cases hget

theorem exists_parseIpcd356 {text : Text} (h : ReadsAll text) : ∃ result, parseIpcd356 text = .ok result :=
  exists_foldlM_parseLine (readsAll_iff.mp h) _

/-! ## The report -/

theorem difference_eq_nil_iff {first second : List Text} :
    difference first second = [] ↔ ∀ text ∈ first, text ∈ second := by
  unfold difference sorted
  rw [← length_eq_zero_iff, length_mergeSort, length_eq_zero_iff, filter_eq_nil_iff]
  simp

/-- Maps without empty nets have the same nets when they have the same nodes. -/
theorem passed_compareMaps_iff {ir ipc : Dict Text (List Text)} (hipc : NoneEmpty ipc) :
    (compareMaps ir ipc).passed = true ↔
      NoneEmpty ir ∧ ∀ net_name node, Holds ir net_name node ↔ Holds ipc net_name node := by
  have hmismatch : ∀ net_name nodes nodes', ir.get? net_name = some nodes → ipc.get? net_name = some nodes' →
      ((if difference ((ir.get? net_name).getD []) ((ipc.get? net_name).getD []) ≠ [] ∨
          difference ((ipc.get? net_name).getD []) ((ir.get? net_name).getD []) ≠ [] then
        some (NetPinMismatch.mk net_name (difference ((ir.get? net_name).getD []) ((ipc.get? net_name).getD []))
          (difference ((ipc.get? net_name).getD []) ((ir.get? net_name).getD []))) else none) = none ↔
        ∀ node, node ∈ nodes ↔ node ∈ nodes') := by
    intro net_name nodes nodes' hir hipc
    rw [hir, hipc, getD_some, getD_some, ite_eq_right_iff]
    simp only [reduceCtorEq, imp_false, not_or, not_not, difference_eq_nil_iff]
    exact ⟨fun h node => ⟨h.1 node, h.2 node⟩, fun h => ⟨fun node => (h node).mp, fun node => (h node).mpr⟩⟩
  unfold compareMaps
  dsimp only
  rw [decide_eq_true_iff, difference_eq_nil_iff, difference_eq_nil_iff, filterMap_eq_nil_iff]
  simp only [sorted, mem_mergeSort, mem_filter, decide_eq_true_eq]
  constructor
  · rintro ⟨hmissing, hextra, hsame⟩
    have hnodes : ∀ net_name nodes nodes', ir.get? net_name = some nodes → ipc.get? net_name = some nodes' →
        ∀ node, node ∈ nodes ↔ node ∈ nodes' := fun net_name nodes nodes' hir hipc =>
      (hmismatch net_name nodes nodes' hir hipc).mp
        (hsame net_name ⟨mem_keys_iff.mpr ⟨nodes, hir⟩, mem_keys_iff.mpr ⟨nodes', hipc⟩⟩)
    refine ⟨fun net_name nodes hir hempty => ?_, fun net_name node => ⟨?_, ?_⟩⟩
    · obtain ⟨nodes', hget⟩ := mem_keys_iff.mp (hmissing net_name (mem_keys_iff.mpr ⟨nodes, hir⟩))
      obtain ⟨node, hnode⟩ := exists_mem_of_ne_nil _ (hipc net_name nodes' hget)
      rw [← hnodes net_name nodes nodes' hir hget, hempty] at hnode
      cases hnode
    · rintro ⟨nodes, hir, hnode⟩
      obtain ⟨nodes', hget⟩ := mem_keys_iff.mp (hmissing net_name (mem_keys_iff.mpr ⟨nodes, hir⟩))
      exact ⟨nodes', hget, (hnodes net_name nodes nodes' hir hget node).mp hnode⟩
    · rintro ⟨nodes', hget, hnode⟩
      obtain ⟨nodes, hir⟩ := mem_keys_iff.mp (hextra net_name (mem_keys_iff.mpr ⟨nodes', hget⟩))
      exact ⟨nodes, hir, (hnodes net_name nodes nodes' hir hget node).mpr hnode⟩
  · rintro ⟨hir, hholds⟩
    refine ⟨fun net_name hmem => ?_, fun net_name hmem => ?_, fun net_name hboth => ?_⟩
    · obtain ⟨nodes, hget⟩ := mem_keys_iff.mp hmem
      obtain ⟨node, hnode⟩ := exists_mem_of_ne_nil _ (hir net_name nodes hget)
      obtain ⟨nodes', hget', -⟩ := (hholds net_name node).mp ⟨nodes, hget, hnode⟩
      exact mem_keys_iff.mpr ⟨nodes', hget'⟩
    · obtain ⟨nodes', hget'⟩ := mem_keys_iff.mp hmem
      obtain ⟨node, hnode⟩ := exists_mem_of_ne_nil _ (hipc net_name nodes' hget')
      obtain ⟨nodes, hget, -⟩ := (hholds net_name node).mpr ⟨nodes', hget', hnode⟩
      exact mem_keys_iff.mpr ⟨nodes, hget⟩
    · obtain ⟨nodes, hget⟩ := mem_keys_iff.mp hboth.1
      obtain ⟨nodes', hget'⟩ := mem_keys_iff.mp hboth.2
      refine (hmismatch net_name nodes nodes' hget hget').mpr fun node => ?_
      have := hholds net_name node
      unfold Holds at this
      rw [hget, hget'] at this
      simpa using this

/-! ## The text of a design -/

def lastNet (design : Design) (net_name : Text) : Option Models.Net :=
  design.nets.values.reverse.find? fun net => net.name.toList = net_name

def Listed (design : Design) (net_name node : Text) : Prop :=
  ∃ net, lastNet design net_name = some net ∧ node ∈ netNodes design net

theorem get?_foldl_set (design : Design) (nets : List Models.Net) (net_name : Text) :
    (nets.foldl (fun result net => result.set net.name.toList (netNodes design net)) empty).get? net_name =
      (nets.reverse.find? fun net => net.name.toList = net_name).map (netNodes design) := by
  induction nets using reverseRecOn with
  | nil => rfl
  | append_singleton nets last ih =>
    rw [foldl_concat, get?_set, reverse_concat, ih]
    by_cases hlast : last.name.toList = net_name
    · rw [if_pos hlast.symm, find?_cons_of_pos (by simpa using hlast), map_some]
    · rw [if_neg (Ne.symm hlast), find?_cons_of_neg (by simpa using hlast)]

theorem get?_designRefNetMap (design : Design) (net_name : Text) :
    (designRefNetMap design).get? net_name = (lastNet design net_name).map (netNodes design) :=
  get?_foldl_set design _ net_name
variable {design : Design}

theorem holds_designRefNetMap_iff {net_name node : Text} :
    Holds (designRefNetMap design) net_name node ↔ Listed design net_name node := by
  unfold Holds Listed
  rw [get?_designRefNetMap]
  constructor
  · rintro ⟨nodes, hnodes, hnode⟩
    obtain ⟨net, hnet, rfl⟩ := map_eq_some_iff.mp hnodes
    exact ⟨net, hnet, hnode⟩
  · rintro ⟨net, hnet, hnode⟩
    exact ⟨netNodes design net, by rw [hnet, map_some], hnode⟩

theorem mem_recordLines_iff {nets : Dict Text (List Text)} :
    line ∈ recordLines nets ↔ ∃ net_name node, Holds nets net_name node ∧ line = recordLine net_name node := by
  unfold recordLines Holds sorted
  rw [mem_flatMap]
  constructor
  · rintro ⟨⟨net_name, nodes⟩, hitem, hline⟩
    obtain ⟨node, hnode, rfl⟩ := mem_map.mp hline
    exact ⟨net_name, node, ⟨nodes, get?_eq_some_iff.mpr (mem_mergeSort.mp hitem),
      mem_mergeSort.mp hnode⟩, rfl⟩
  · rintro ⟨net_name, node, ⟨nodes, hget, hnode⟩, rfl⟩
    exact ⟨(net_name, nodes), mem_mergeSort.mpr (get?_eq_some_iff.mp hget),
      mem_map_of_mem (mem_mergeSort.mpr hnode)⟩

theorem readRecord_of_head {parts : List Text} (h : parts.head? ≠ some "P".toList) : readRecord parts = .ok none := by
  unfold readRecord
  rw [if_pos (.inr h)]

theorem readRecord_comment {line rest : Text} (h : line = 'C' :: ' ' :: rest) : readRecord (words line) = .ok none := by
  apply readRecord_of_head
  have hfirst : fields isSpace ['C'] = [['C']] := fields_of_isField (isField_of_any (by decide) (by decide))
  have hwords : words line = ['C'] :: fields isSpace rest := by
    rw [h]
    exact (fields_append_cons (by decide) ['C'] rest).trans (by rw [hfirst]; rfl)
  rw [hwords, head?_cons]
  decide

theorem readRecord_fixed : ∀ line ∈ [titleLine, formatLine, endLine],
    (∀ c ∈ line, isLineBreak c = false) ∧ readRecord (words line) = .ok none := by
  have htitle : titleLine = 'C' :: ' ' :: titleLine.drop 2 := by decide
  have hformat : formatLine = 'C' :: ' ' :: formatLine.drop 2 := by decide
  have hend : words endLine = [endLine] := fields_of_isField (isField_of_any (by decide) (by decide))
  rw [forall_mem_cons, forall_mem_cons, forall_mem_singleton]
  refine ⟨⟨eq_false_of_any (by decide), readRecord_comment htitle⟩,
    ⟨eq_false_of_any (by decide), readRecord_comment hformat⟩, eq_false_of_any (by decide), ?_⟩
  rw [hend]
  exact readRecord_of_head (by decide)

theorem mem_fields_generate_iff :
    line ∈ fields isLineBreak (generateIpcd356 design) ↔
      (∃ fixed ∈ [titleLine, formatLine, endLine], line ∈ fields isLineBreak fixed) ∨
        line ∈ fields isLineBreak (designLine design) ∨
        ∃ net_name node, Listed design net_name node ∧ line ∈ fields isLineBreak (recordLine net_name node) := by
  have hrecord : (∃ written ∈ recordLines (designRefNetMap design), line ∈ fields isLineBreak written) ↔
      ∃ net_name node, Listed design net_name node ∧ line ∈ fields isLineBreak (recordLine net_name node) := by
    simp only [mem_recordLines_iff, holds_designRefNetMap_iff]
    constructor
    · rintro ⟨written, ⟨net_name, node, hlisted, rfl⟩, hline⟩
      exact ⟨net_name, node, hlisted, hline⟩
    · rintro ⟨net_name, node, hlisted, hline⟩
      exact ⟨_, ⟨net_name, node, hlisted, rfl⟩, hline⟩
  unfold generateIpcd356
  rw [fields_flatMap, mem_flatMap, ← hrecord]
  generalize recordLines (designRefNetMap design) = written
  simp only [mem_append, mem_cons, not_mem_nil, or_false]
  constructor
  · rintro ⟨part, ((rfl | rfl | rfl) | hpart) | rfl, hline⟩
    · exact .inl ⟨titleLine, .inl rfl, hline⟩
    · exact .inr (.inl hline)
    · exact .inl ⟨formatLine, .inr (.inl rfl), hline⟩
    · exact .inr (.inr ⟨part, hpart, hline⟩)
    · exact .inl ⟨endLine, .inr (.inr rfl), hline⟩
  · rintro (⟨part, rfl | rfl | rfl, hline⟩ | hline | ⟨part, hpart, hline⟩)
    · exact ⟨titleLine, .inl (.inl (.inl rfl)), hline⟩
    · exact ⟨formatLine, .inl (.inl (.inr (.inr rfl))), hline⟩
    · exact ⟨endLine, .inr rfl, hline⟩
    · exact ⟨designLine design, .inl (.inl (.inr (.inl rfl))), hline⟩
    · exact ⟨part, .inl (.inr hpart), hline⟩

theorem givesRecord_generate_iff {net_name node : Text} :
    GivesRecord (generateIpcd356 design) net_name node ↔ GivesRecord (designLine design) net_name node ∨
      ∃ net_name' node', Listed design net_name' node' ∧ GivesRecord (recordLine net_name' node') net_name node := by
  constructor
  · rintro ⟨line, hline, hread⟩
    rcases mem_fields_generate_iff.mp hline with ⟨fixed, hfixed, hline⟩ | hline | ⟨net_name', node', hlisted, hline⟩
    · obtain ⟨hbreaks, hnone⟩ := readRecord_fixed fixed hfixed
      have := (givesRecord_of_line hbreaks).mp ⟨line, hline, hread⟩
      rw [hnone] at this
      cases this
    · exact .inl ⟨line, hline, hread⟩
    · exact .inr ⟨net_name', node', hlisted, line, hline, hread⟩
  · rintro (⟨line, hline, hread⟩ | ⟨net_name', node', hlisted, line, hline, hread⟩)
    · exact ⟨line, mem_fields_generate_iff.mpr (.inr (.inl hline)), hread⟩
    · exact ⟨line, mem_fields_generate_iff.mpr (.inr (.inr ⟨net_name', node', hlisted, hline⟩)), hread⟩

theorem readsAll_generate_iff :
    ReadsAll (generateIpcd356 design) ↔ ReadsAll (designLine design) ∧
      ∀ net_name node, Listed design net_name node → ReadsAll (recordLine net_name node) := by
  constructor
  · intro h
    exact ⟨fun line hline => h line (mem_fields_generate_iff.mpr (.inr (.inl hline))),
      fun net_name node hlisted line hline =>
        h line (mem_fields_generate_iff.mpr (.inr (.inr ⟨net_name, node, hlisted, hline⟩)))⟩
  · rintro ⟨hdesign, hrecords⟩ line hline
    rcases mem_fields_generate_iff.mp hline with ⟨fixed, hfixed, hline⟩ | hline | ⟨net_name, node, hlisted, hline⟩
    · obtain ⟨hbreaks, hnone⟩ := readRecord_fixed fixed hfixed
      exact readsAll_of_line hbreaks hnone line hline
    · exact hdesign line hline
    · exact hrecords net_name node hlisted line hline

/-- The text of the design is read, and the report passes. -/
def Passed (design : Design) : Prop :=
  ∃ report, compareIrToIpcd356 design (generateIpcd356 design) = .ok report ∧ report.passed = true

/-- The report passes when the records are the nodes of the nets, and no net is without nodes. -/
theorem passed_iff_records :
    Passed design ↔ ReadsAll (generateIpcd356 design) ∧ NoneEmpty (designRefNetMap design) ∧
      ∀ net_name node, Listed design net_name node ↔ GivesRecord (generateIpcd356 design) net_name node := by
  unfold Passed compareIrToIpcd356
  constructor
  · rintro ⟨report, hreport, hpassed⟩
    cases hparse : parseIpcd356 (generateIpcd356 design) with
    | error e =>
      rw [hparse] at hreport
      cases hreport
    | ok result =>
      rw [hparse] at hreport
      cases hreport
      obtain ⟨hall, hnone, hholds⟩ := parseIpcd356_spec hparse
      obtain ⟨hir, hsame⟩ := (passed_compareMaps_iff hnone).mp hpassed
      refine ⟨hall, hir, fun net_name node => ?_⟩
      rw [← hholds, ← hsame, holds_designRefNetMap_iff]
  · rintro ⟨hall, hir, hsame⟩
    obtain ⟨result, hparse⟩ := exists_parseIpcd356 hall
    obtain ⟨-, hnone, hholds⟩ := parseIpcd356_spec hparse
    refine ⟨compareMaps (designRefNetMap design) result, by rw [hparse]; rfl,
      (passed_compareMaps_iff hnone).mpr ⟨hir, fun net_name node => ?_⟩⟩
    rw [holds_designRefNetMap_iff, hsame, hholds]

end ZapTrace.Ipcd356
