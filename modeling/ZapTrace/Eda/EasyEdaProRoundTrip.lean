import ZapTrace.Eda.EasyEdaPro
import ZapTrace.Library.Json

/-!
# Reading an EasyEDA Pro archive back

The writer asks a node for `component_id` and `pin`, a trace for `net`, `x1`, `y1`, `x2` and `y2`, and a via for `x`
and `y`. A node has `component_ref` and `pin_name`, a trace has `net_id`, `start` and `end`, a via is a tuple: what
is written is the default. An accepted archive gives the design back when the design has nothing but defaults there.

## Main results

* `parseJsonl_recordLines`: of written records the reader keeps those with short lines
* `extractSchematic_schematicRecords`, `extractPcb_pcbRecords`: the nets, tracks and vias that are read
* `accepted_iff`: a design is accepted exactly when it has no blocks and no copper pours
* `lossless_iff`: what is read is the design exactly when nothing differs from the defaults
* `roundTrips_iff`: when an accepted archive gives the design back
-/

namespace ZapTrace.EasyEdaPro

open Option hiding map mem_map
open List

variable (rt : Runtime)

/-! ## Lines of written records -/

/-- The line of a record is not too long for the reader. -/
def Small (rec : PyValue) : Prop := (rt.dumps rec).utf8ByteSize ≤ maxJsonlLineBytes

instance : DecidablePred (Small rt) := fun _ => inferInstanceAs (Decidable (_ ≤ _))

/-- A dictionary whose type is among the known ones. -/
def IsRecord (known_types : List String) (rec : PyValue) : Prop :=
  ∃ items record_type, rec = .dict items ∧ rec.getItem "type" = some (.str record_type) ∧ record_type ∈ known_types

variable {rt}
variable {rec : PyValue} {known_types : List String}

theorem parseLine_recordLine (h : IsRecord known_types rec) (document : String) (i : ℕ) :
    parseLine document known_types i (recordLine rt rec) =
      some (if Small rt rec then .inl rec
        else .inr ⟨.str "OVERSIZED_LINE", document, i, "error", take200 (rt.dumps rec)⟩) := by
  obtain ⟨items, record_type, rfl, htype, hmem⟩ := h
  unfold parseLine recordLine
  by_cases hs : Small rt (.dict items)
  · have hlen : ¬ maxJsonlLineBytes < (rt.dumps (.dict items)).utf8ByteSize := Nat.not_lt.mpr hs
    simp [hlen, hs, htype, isKnown, hmem]
  · have hlen : maxJsonlLineBytes < (rt.dumps (.dict items)).utf8ByteSize := Nat.lt_of_not_le hs
    simp [hlen, hs]

theorem mapM_parseLine {records : List PyValue} (h : ∀ rec ∈ records, IsRecord known_types rec) (document : String)
    (n : ℕ) :
    ∃ parsed, (((records.map (recordLine rt)).zipIdx n).mapM fun item =>
        parseLine document known_types item.2 item.1) = some parsed ∧
      parsed.filterMap Sum.getLeft? = records.filter fun rec => Small rt rec := by
  induction records generalizing n with
  | nil => exact ⟨[], rfl, rfl⟩
  | cons rec records ih =>
    obtain ⟨parsed, hparsed, hleft⟩ := ih (fun rec hrec => h rec (mem_cons_of_mem _ hrec)) (n + 1)
    rw [map_cons, zipIdx_cons, mapM_cons, hparsed,
      parseLine_recordLine (h rec mem_cons_self)]
    refine ⟨_, rfl, ?_⟩
    by_cases hs : Small rt rec
    · rw [if_pos hs, filter_cons_of_pos (by simpa using hs), filterMap_cons_some (by rfl), hleft]
    · rw [if_neg hs, filter_cons_of_neg (by simpa using hs), filterMap_cons_none (by rfl), hleft]

theorem parseJsonl_recordLines {records : List PyValue} (h : ∀ rec ∈ records, IsRecord known_types rec)
    (document : String) :
    ∃ degradation, parseJsonl (records.map (recordLine rt)) document known_types =
      some (records.filter fun rec => Small rt rec, degradation) := by
  obtain ⟨parsed, hparsed, hleft⟩ := @mapM_parseLine rt _ _ h document 0
  refine ⟨parsed.filterMap Sum.getRight?, ?_⟩
  rw [parseJsonl, hparsed, map_some, hleft]

/-! ## What the records add -/

theorem foldlM_collects {σ α β : Type} {step : σ → α → Option σ} {seen : σ → List β} {part : α → List β} {xs : List α}
    (h : ∀ x ∈ xs, ∀ s, ∃ s', step s x = some s' ∧ seen s' = seen s ++ part x) (s : σ) :
    ∃ s', xs.foldlM step s = some s' ∧ seen s' = seen s ++ xs.flatMap part := by
  induction xs generalizing s with
  | nil => exact ⟨s, rfl, by simp⟩
  | cons x xs ih =>
    obtain ⟨s₁, hs₁, hseen₁⟩ := h x mem_cons_self s
    obtain ⟨s₂, hs₂, hseen₂⟩ := ih (fun x hx => h x (mem_cons_of_mem _ hx)) s₁
    refine ⟨s₂, ?_, ?_⟩
    · rw [foldlM_cons, hs₁]
      exact hs₂
    · rw [hseen₂, hseen₁, append_assoc, flatMap_cons]

variable (rt)

/-- The net that is read of a written net: every node is without a component and a pin. -/
def netRead (item : String × Net) : EasyEdaNet :=
  ⟨item.1, item.2.label item.1, item.2.nodes.map fun _ => ("", "")⟩

def trackRead (trace : TraceSegment) : EasyEdaTrack := ⟨1, "", 0, 0, 0, 0, trace.width⟩

def viaRead : EasyEdaVia := ⟨0, 0, 4 / 5, 2 / 5⟩

def partOf {α : Type} (kind : String) (read : PyValue → Option α) (rec : PyValue) : List α :=
  match rec.getItem "type" with
  | some (.str record_type) => if record_type = kind then (read rec).toList else []
  | _ => []

/-- The nets that a record adds to the schematic, the tracks and the vias that it adds to the board. -/
def netPart : PyValue → List EasyEdaNet := partOf "NET" (netOf rt)

def trackPart : PyValue → List EasyEdaTrack := partOf "TRACK" (trackOf rt)

def viaPart : PyValue → List EasyEdaVia := partOf "VIA" (viaOf rt)

theorem partOf_of_ne {α : Type} {kind record_type : String} {read : PyValue → Option α}
    (htype : rec.getItem "type" = some (.str record_type)) (h : record_type ≠ kind) : partOf kind read rec = [] := by
  simp only [partOf, htype, if_neg h]

theorem partOf_self {α : Type} {kind : String} {read : PyValue → Option α} {a : α}
    (htype : rec.getItem "type" = some (.str kind)) (hread : read rec = some a) : partOf kind read rec = [a] := by
  simp only [partOf, htype, if_true, hread, toList_some]

variable {rt}

theorem getItem_record (items : List (String × PyValue)) (key : String) :
    (record items).getItem key = items.lookup key := by
  induction items with
  | nil => rfl
  | cons item items ih =>
    obtain ⟨k, v⟩ := item
    by_cases hk : k = key
    · simp [record, PyValue.getItem, PyValue.lookup, hk]
    · have hbeq : (key == k) = false := beq_false_of_ne (Ne.symm hk)
      simpa [record, PyValue.getItem, PyValue.lookup, hk, lookup_cons, hbeq] using ih

theorem pinsOf_netRecord (item : String × Net) :
    pinsOf rt (netRecord rt item.1 item.2) = some (item.2.nodes.map fun _ => ("", "")) := by
  rw [pinsOf, netRecord, getItem_record]
  refine congrArg some ?_
  show filterMap _ (item.2.nodes.map (pinRecord rt)) = _
  rw [filterMap_map, ← filterMap_eq_map]
  rfl

theorem netOf_netRecord (item : String × Net) : netOf rt (netRecord rt item.1 item.2) = some (netRead item) := by
  rw [netOf, pinsOf_netRecord]
  simp [netRecord, textOf, getItem_record, lookup_cons, toText, netRead]

theorem traceNet_eq (trace : TraceSegment) : traceNet rt trace = "" := by
  simp [traceNet, traceAttributes, getattr, lookup_cons, toText]

theorem trackOf_trackRecord (trace : TraceSegment) : trackOf rt (trackRecord rt trace) = some (trackRead trace) := by
  have hattr : ∀ name : String, name ∈ ["x1", "y1", "x2", "y2"] → floatAttr rt (traceAttributes trace) name 0 = 0 := by
    simp [floatAttr, traceAttributes, getattr, lookup_cons, toFloat, PyValue.number?]
  have hwidth : ∀ default, floatAttr rt (traceAttributes trace) "width" default = trace.width := by
    intro default
    simp [floatAttr, traceAttributes, getattr, lookup_cons, toFloat, PyValue.number?]
  have hlayer : Rat.floor 1 = 1 := rfl
  simp [trackOf, trackRecord, intOf, floatOf, textOf, getItem_record, lookup_cons, toInt, toFloat, toText,
    PyValue.number?, traceNet_eq, hattr, hwidth, hlayer, trackRead]

theorem viaOf_viaRecord (via : Via) : viaOf rt (viaRecord rt via) = some viaRead := by
  simp [viaOf, viaRecord, floatAttr, viaAttributes, getattr, floatOf, getItem_record, lookup_cons, toFloat,
    PyValue.number?, viaRead]

/-! ## What is read -/

variable {design : Design}

theorem mem_schematicRecords (h : rec ∈ schematicRecords rt design) :
    rec = header ∨ rec = canvas ∨ (∃ item ∈ design.components.items, rec = componentRecord item.1 item.2) ∨
      ∃ item ∈ design.nets.items, rec = netRecord rt item.1 item.2 := by
  have hmem : ∀ {α : Type} (d : Dict String α) (item : String × α), item ∈ sortedItems d → item ∈ d.items :=
    fun d item hitem => (mergeSort_perm _ _).mem_iff.mp hitem
  simp only [schematicRecords, mem_append, mem_cons, not_mem_nil, or_false, mem_map] at h
  rcases h with ((rfl | rfl) | ⟨item, hitem, rfl⟩) | ⟨item, hitem, rfl⟩
  · exact .inl rfl
  · exact .inr (.inl rfl)
  · exact .inr (.inr (.inl ⟨item, hmem _ _ hitem, rfl⟩))
  · exact .inr (.inr (.inr ⟨item, hmem _ _ hitem, rfl⟩))

theorem isRecord_record {items : List (String × PyValue)} {record_type : String}
    (htype : items.lookup "type" = some (.str record_type)) (hmem : record_type ∈ known_types) :
    IsRecord known_types (record items) :=
  ⟨_, record_type, rfl, (getItem_record items "type").trans htype, hmem⟩

theorem isRecord_of_mem_schematicRecords (h : rec ∈ schematicRecords rt design) : IsRecord schKnown rec := by
  rcases mem_schematicRecords h with rfl | rfl | ⟨item, -, rfl⟩ | ⟨item, -, rfl⟩ <;>
    exact isRecord_record (by simp; rfl) (by simp [schKnown])

/-! The types of the written records. -/

theorem getItem_type_componentRecord (comp_id : String) (comp : Component) :
    (componentRecord comp_id comp).getItem "type" = some (.str "COMPONENT") := by
  simp [componentRecord, getItem_record]

theorem getItem_type_netRecord (net_id : String) (net : Net) :
    (netRecord rt net_id net).getItem "type" = some (.str "NET") := by
  simp [netRecord, getItem_record]

theorem getItem_type_layerRecord (lyr : ℤ × String × String) :
    (layerRecord lyr).getItem "type" = some (.str "LAYER") := by
  simp [layerRecord, getItem_record]

theorem getItem_type_footprintRecord (comp : Component) :
    (footprintRecord comp).getItem "type" = some (.str "FOOTPRINT") := by
  simp [footprintRecord, getItem_record]

theorem getItem_type_trackRecord (trace : TraceSegment) :
    (trackRecord rt trace).getItem "type" = some (.str "TRACK") := by
  simp [trackRecord, getItem_record]

theorem getItem_type_viaRecord (via : Via) : (viaRecord rt via).getItem "type" = some (.str "VIA") := by
  simp [viaRecord, getItem_record]

theorem netPart_componentRecord (comp_id : String) (comp : Component) :
    netPart rt (componentRecord comp_id comp) = [] :=
  partOf_of_ne (getItem_type_componentRecord comp_id comp) (by decide)

theorem netPart_netRecord (item : String × Net) : netPart rt (netRecord rt item.1 item.2) = [netRead item] :=
  partOf_self (getItem_type_netRecord item.1 item.2) (netOf_netRecord item)

theorem addSchematicRecord_nets (h : rec ∈ schematicRecords rt design) (sch : EasyEdaProSchematic) :
    ∃ sch', addSchematicRecord rt sch rec = some sch' ∧ sch'.nets = sch.nets ++ netPart rt rec := by
  rcases mem_schematicRecords h with rfl | rfl | ⟨item, -, rfl⟩ | ⟨item, -, rfl⟩
  · exact ⟨_, rfl, (append_nil _).symm⟩
  · exact ⟨_, rfl, (append_nil _).symm⟩
  · obtain ⟨c, hc⟩ : ∃ c, componentOf rt (componentRecord item.1 item.2) = some c := by
      simp [componentOf, componentRecord, floatOf, getItem_record, lookup_cons, toFloat, PyValue.number?]
    refine ⟨{ sch with components := sch.components ++ [c] }, ?_, ?_⟩
    · simp only [addSchematicRecord, getItem_type_componentRecord, hc, map_some]
    · rw [netPart_componentRecord, append_nil]
  · refine ⟨{ sch with nets := sch.nets ++ [netRead item] }, ?_, ?_⟩
    · simp only [addSchematicRecord, getItem_type_netRecord, netOf_netRecord, map_some]
    · rw [netPart_netRecord]

theorem extractSchematic_schematicRecords (design : Design) (document : String) :
    ∃ sch, extractSchematic rt ((schematicRecords rt design).map (recordLine rt)) document = some sch ∧
      ∀ net, net ∈ sch.nets ↔
        ∃ item ∈ design.nets.items, Small rt (netRecord rt item.1 item.2) ∧ net = netRead item := by
  have hrecords : ∀ rec ∈ schematicRecords rt design, IsRecord schKnown rec :=
    fun _ hrec => isRecord_of_mem_schematicRecords hrec
  obtain ⟨degradation, hparse⟩ := @parseJsonl_recordLines rt _ _ hrecords document
  obtain ⟨sch, hsch, hnets⟩ := @foldlM_collects _ _ _ (addSchematicRecord rt) EasyEdaProSchematic.nets (netPart rt) _
    (fun _ hrec sch => addSchematicRecord_nets (mem_of_mem_filter hrec) sch) { degradation := degradation }
  refine ⟨sch, ?_, fun net => ?_⟩
  · rw [extractSchematic, hparse]
    exact hsch
  · rw [hnets, nil_append, mem_flatMap]
    constructor
    · rintro ⟨rec, hrec, hnet⟩
      obtain ⟨hmem, hsmall⟩ := mem_filter.mp hrec
      rcases mem_schematicRecords hmem with rfl | rfl | ⟨item, -, rfl⟩ | ⟨item, hitem, rfl⟩
      · cases hnet
      · cases hnet
      · rw [netPart_componentRecord] at hnet
        cases hnet
      · rw [netPart_netRecord, mem_singleton] at hnet
        exact ⟨item, hitem, of_decide_eq_true hsmall, hnet⟩
    · rintro ⟨item, hitem, hsmall, rfl⟩
      have hmem : netRecord rt item.1 item.2 ∈ schematicRecords rt design :=
        mem_append_right _ (mem_map.mpr ⟨item, (mergeSort_perm _ _).mem_iff.mpr hitem, rfl⟩)
      refine ⟨_, mem_filter.mpr ⟨hmem, decide_eq_true hsmall⟩, ?_⟩
      rw [netPart_netRecord]
      exact mem_singleton_self _

/-! ## The board -/

theorem mem_pcbRecords (h : rec ∈ pcbRecords rt design) :
    rec = header ∨ (∃ lyr ∈ layerMap, rec = layerRecord lyr) ∨ (∃ comp, rec = footprintRecord comp) ∨
      (∃ trace ∈ design.traces, rec = trackRecord rt trace) ∨ ∃ via ∈ design.vias, rec = viaRecord rt via := by
  simp only [pcbRecords, mem_append, mem_singleton, mem_map] at h
  rcases h with (((rfl | ⟨lyr, hlyr, rfl⟩) | ⟨item, -, rfl⟩) | ⟨trace, htrace, rfl⟩) | ⟨via, hvia, rfl⟩
  · exact .inl rfl
  · exact .inr (.inl ⟨lyr, hlyr, rfl⟩)
  · exact .inr (.inr (.inl ⟨item.2, rfl⟩))
  · exact .inr (.inr (.inr (.inl ⟨trace, htrace, rfl⟩)))
  · exact .inr (.inr (.inr (.inr ⟨via, hvia, rfl⟩)))

theorem isRecord_of_mem_pcbRecords (h : rec ∈ pcbRecords rt design) : IsRecord pcbKnown rec := by
  rcases mem_pcbRecords h with rfl | ⟨lyr, -, rfl⟩ | ⟨comp, rfl⟩ | ⟨trace, -, rfl⟩ | ⟨via, -, rfl⟩ <;>
    exact isRecord_record (by simp; rfl) (by simp [pcbKnown])

/-! A trace adds a track, a via adds a via, and the other records add neither. -/

theorem trackPart_trackRecord (trace : TraceSegment) : trackPart rt (trackRecord rt trace) = [trackRead trace] :=
  partOf_self (getItem_type_trackRecord trace) (trackOf_trackRecord trace)

theorem viaPart_viaRecord (via : Via) : viaPart rt (viaRecord rt via) = [viaRead] :=
  partOf_self (getItem_type_viaRecord via) (viaOf_viaRecord via)

theorem viaPart_trackRecord (trace : TraceSegment) : viaPart rt (trackRecord rt trace) = [] :=
  partOf_of_ne (getItem_type_trackRecord trace) (by decide)

theorem trackPart_viaRecord (via : Via) : trackPart rt (viaRecord rt via) = [] :=
  partOf_of_ne (getItem_type_viaRecord via) (by decide)

theorem parts_layerRecord (lyr : ℤ × String × String) :
    trackPart rt (layerRecord lyr) = [] ∧ viaPart rt (layerRecord lyr) = [] :=
  ⟨partOf_of_ne (getItem_type_layerRecord lyr) (by decide), partOf_of_ne (getItem_type_layerRecord lyr) (by decide)⟩

theorem parts_footprintRecord (comp : Component) :
    trackPart rt (footprintRecord comp) = [] ∧ viaPart rt (footprintRecord comp) = [] :=
  ⟨partOf_of_ne (getItem_type_footprintRecord comp) (by decide),
    partOf_of_ne (getItem_type_footprintRecord comp) (by decide)⟩

theorem addPcbRecord_adds (h : rec ∈ pcbRecords rt design) (pcb : EasyEdaProPcb) :
    ∃ pcb', addPcbRecord rt pcb rec = some pcb' ∧ pcb'.tracks = pcb.tracks ++ trackPart rt rec ∧
      pcb'.vias = pcb.vias ++ viaPart rt rec := by
  rcases mem_pcbRecords h with rfl | ⟨lyr, -, rfl⟩ | ⟨comp, rfl⟩ | ⟨trace, -, rfl⟩ | ⟨via, -, rfl⟩
  · exact ⟨_, rfl, (append_nil _).symm, (append_nil _).symm⟩
  · obtain ⟨l, hl⟩ : ∃ l, layerOf rt (layerRecord lyr) = some l := by
      simp [layerOf, layerRecord, intOf, getItem_record, lookup_cons, toInt, PyValue.number?]
    refine ⟨{ pcb with layers := pcb.layers ++ [l] }, ?_, ?_, ?_⟩
    · simp only [addPcbRecord, getItem_type_layerRecord, hl, map_some]
    · rw [(parts_layerRecord lyr).1, append_nil]
    · rw [(parts_layerRecord lyr).2, append_nil]
  · obtain ⟨f, hf⟩ : ∃ f, footprintOf rt (footprintRecord comp) = some f := by
      simp [footprintOf, footprintRecord, floatOf, getItem_record, lookup_cons, toFloat, PyValue.number?]
    refine ⟨{ pcb with footprints := pcb.footprints ++ [f] }, ?_, ?_, ?_⟩
    · simp only [addPcbRecord, getItem_type_footprintRecord, hf, map_some]
    · rw [(parts_footprintRecord comp).1, append_nil]
    · rw [(parts_footprintRecord comp).2, append_nil]
  · refine ⟨{ pcb with tracks := pcb.tracks ++ [trackRead trace] }, ?_, ?_, ?_⟩
    · simp only [addPcbRecord, getItem_type_trackRecord, trackOf_trackRecord, map_some]
    · rw [trackPart_trackRecord]
    · rw [viaPart_trackRecord, append_nil]
  · refine ⟨{ pcb with vias := pcb.vias ++ [viaRead] }, ?_, ?_, ?_⟩
    · simp only [addPcbRecord, getItem_type_viaRecord, viaOf_viaRecord, map_some]
    · rw [trackPart_viaRecord, append_nil]
    · rw [viaPart_viaRecord]

/-- The board is read, with the tracks and the vias whose lines are short. -/
theorem extractPcb_pcbRecords (design : Design) (document : String) :
    ∃ pcb, extractPcb rt ((pcbRecords rt design).map (recordLine rt)) document = some pcb ∧
      (∀ track, track ∈ pcb.tracks ↔
        ∃ trace ∈ design.traces, Small rt (trackRecord rt trace) ∧ track = trackRead trace) ∧
      ∀ v, v ∈ pcb.vias ↔ ∃ via ∈ design.vias, Small rt (viaRecord rt via) ∧ v = viaRead := by
  have hrecords : ∀ rec ∈ pcbRecords rt design, IsRecord pcbKnown rec := fun _ hrec => isRecord_of_mem_pcbRecords hrec
  obtain ⟨degradation, hparse⟩ := @parseJsonl_recordLines rt _ _ hrecords document
  -- one loop collects the tracks and the vias
  obtain ⟨pcb, hpcb, htracks⟩ := @foldlM_collects _ _ _ (addPcbRecord rt) EasyEdaProPcb.tracks (trackPart rt) _
    (fun _ hrec pcb => (addPcbRecord_adds (mem_of_mem_filter hrec) pcb).imp fun _ h => ⟨h.1, h.2.1⟩)
    { degradation := degradation }
  obtain ⟨pcb', hpcb', hvias⟩ := @foldlM_collects _ _ _ (addPcbRecord rt) EasyEdaProPcb.vias (viaPart rt) _
    (fun _ hrec pcb => (addPcbRecord_adds (mem_of_mem_filter hrec) pcb).imp fun _ h => ⟨h.1, h.2.2⟩)
    { degradation := degradation }
  obtain rfl : pcb = pcb' := some.inj (hpcb.symm.trans hpcb')
  refine ⟨pcb, ?_, fun track => ?_, fun v => ?_⟩
  · rw [extractPcb, hparse]
    exact hpcb
  · rw [htracks, nil_append, mem_flatMap]
    constructor
    · rintro ⟨rec, hrec, htrack⟩
      obtain ⟨hmem, hsmall⟩ := mem_filter.mp hrec
      rcases mem_pcbRecords hmem with rfl | ⟨lyr, -, rfl⟩ | ⟨comp, rfl⟩ | ⟨trace, htrace, rfl⟩ | ⟨via, -, rfl⟩
      · cases htrack
      · simp [parts_layerRecord] at htrack
      · simp [parts_footprintRecord] at htrack
      · rw [trackPart_trackRecord, mem_singleton] at htrack
        exact ⟨trace, htrace, of_decide_eq_true hsmall, htrack⟩
      · simp [trackPart_viaRecord] at htrack
    · rintro ⟨trace, htrace, hsmall, rfl⟩
      have hmem : trackRecord rt trace ∈ pcbRecords rt design :=
        mem_append_left _ (mem_append_right _ (mem_map_of_mem htrace))
      refine ⟨_, mem_filter.mpr ⟨hmem, decide_eq_true hsmall⟩, ?_⟩
      rw [trackPart_trackRecord]
      exact mem_singleton_self _
  · rw [hvias, nil_append, mem_flatMap]
    constructor
    · rintro ⟨rec, hrec, hv⟩
      obtain ⟨hmem, hsmall⟩ := mem_filter.mp hrec
      rcases mem_pcbRecords hmem with rfl | ⟨lyr, -, rfl⟩ | ⟨comp, rfl⟩ | ⟨trace, -, rfl⟩ | ⟨via, hvia, rfl⟩
      · cases hv
      · simp [parts_layerRecord] at hv
      · simp [parts_footprintRecord] at hv
      · simp [viaPart_trackRecord] at hv
      · rw [viaPart_viaRecord, mem_singleton] at hv
        exact ⟨via, hvia, of_decide_eq_true hsmall, hv⟩
    · rintro ⟨via, hvia, hsmall, rfl⟩
      have hmem : viaRecord rt via ∈ pcbRecords rt design := mem_append_right _ (mem_map_of_mem hvia)
      refine ⟨_, mem_filter.mpr ⟨hmem, decide_eq_true hsmall⟩, ?_⟩
      rw [viaPart_viaRecord]
      exact mem_singleton_self _

/-! ## The report -/

theorem foldl_represented {α : Type} (text : α → String) (xs : List α) (report : EasyEdaWriteDegradationReport) :
    (xs.foldl (fun report x => report.represented (text x)) report).unsupported_count = report.unsupported_count := by
  induction xs generalizing report with
  | nil => rfl
  | cons x xs ih =>
    rw [foldl_cons, ih]
    rfl

theorem foldl_unsupported {α : Type} (text : α → String) (detail : String) (xs : List α)
    (report : EasyEdaWriteDegradationReport) :
    (xs.foldl (fun report x => report.unsupported (text x) detail) report).unsupported_count =
      report.unsupported_count + xs.length := by
  induction xs generalizing report with
  | nil => rfl
  | cons x xs ih =>
    rw [foldl_cons, ih, length_cons]
    show report.unsupported_count + 1 + xs.length = _
    omega

theorem buildSchematicJsonl_unsupported (design : Design) (report : EasyEdaWriteDegradationReport) :
    (buildSchematicJsonl rt design report).2.unsupported_count = report.unsupported_count + design.blocks.length := by
  rw [buildSchematicJsonl, foldl_unsupported, foldl_represented, foldl_represented]

theorem buildPcbJsonl_unsupported (design : Design) (report : EasyEdaWriteDegradationReport) :
    (buildPcbJsonl rt design report).2.unsupported_count = report.unsupported_count + design.copper_pours.length := by
  rw [buildPcbJsonl, foldl_unsupported, foldl_represented, foldl_represented, foldl_represented, foldl_represented,
    length_mergeSort]

variable (rt)

def archive (design : Design) (project_name source_provenance : String) : List Member :=
  let project_meta := projectMeta design project_name source_provenance
  [⟨"project.json", [⟨rt.dumpsIndented project_meta, some project_meta⟩], (rt.dumpsIndented project_meta).utf8ByteSize⟩,
    jsonlMember rt "schematic.jsonl" (schematicRecords rt design), jsonlMember rt "pcb.jsonl" (pcbRecords rt design)]

def archiveSizes (design : Design) (project_name source_provenance : String) : List ℕ :=
  (archive rt design project_name source_provenance).map Member.size

variable {rt}

def writeReport (rt : Runtime) (design : Design) : EasyEdaWriteDegradationReport :=
  (buildPcbJsonl rt design
    (buildSchematicJsonl rt design (EasyEdaWriteDegradationReport.represented {} "project metadata")).2).2

theorem writeEasyedaProZip_eq (design : Design) (project_name source_provenance : String) :
    writeEasyedaProZip rt design project_name source_provenance =
      if rt.refuses (archiveSizes rt design project_name source_provenance) then none
      else some (archive rt design project_name source_provenance, writeReport rt design) := rfl

/-- A design is accepted exactly when it has no blocks and no areas of copper pour. -/
theorem accepted_iff (design : Design) :
    (writeReport rt design).accepted ↔ design.blocks = [] ∧ design.copper_pours = [] := by
  have hcount : (writeReport rt design).unsupported_count = design.blocks.length + design.copper_pours.length := by
    rw [writeReport, buildPcbJsonl_unsupported, buildSchematicJsonl_unsupported]
    show 0 + design.blocks.length + _ = _
    rw [Nat.zero_add]
  rw [EasyEdaWriteDegradationReport.accepted, hcount, Nat.add_eq_zero_iff, length_eq_zero_iff,
    length_eq_zero_iff]

/-! ## Reading the archive -/

theorem readEasyedaProZip_archive (design : Design) (project_name source_provenance : String) :
    (maxUncompressedBytes < (archiveSizes rt design project_name source_provenance).sum →
      readEasyedaProZip rt (archive rt design project_name source_provenance) = none) ∧
    ((archiveSizes rt design project_name source_provenance).sum ≤ maxUncompressedBytes →
      ∃ project, readEasyedaProZip rt (archive rt design project_name source_provenance) = some project ∧
        (∀ net, net ∈ project.schematic.nets ↔
          ∃ item ∈ design.nets.items, Small rt (netRecord rt item.1 item.2) ∧ net = netRead item) ∧
        (∀ track, track ∈ project.pcb.tracks ↔
          ∃ trace ∈ design.traces, Small rt (trackRecord rt trace) ∧ track = trackRead trace) ∧
        ∀ v, v ∈ project.pcb.vias ↔ ∃ via ∈ design.vias, Small rt (viaRecord rt via) ∧ v = viaRead) := by
  constructor
  · intro h
    exact if_pos h
  · intro h
    obtain ⟨sch, hsch, hnets⟩ := @extractSchematic_schematicRecords rt design "schematic.jsonl"
    obtain ⟨pcb, hpcb, htracks, hvias⟩ := @extractPcb_pcbRecords rt design "pcb.jsonl"
    have hsafe : ((archive rt design project_name source_provenance).all fun m => isSafePath m.name) = true := by
      simp only [archive, jsonlMember, all_cons, all_nil]
      decide
    have hschematic : schematicDocument (archive rt design project_name source_provenance) =
        some (jsonlMember rt "schematic.jsonl" (schematicRecords rt design)) := by
      have hproject : (nameContains "schematic" "project.json" && isJsonl "project.json") = false := by decide
      have hmember : (nameContains "schematic" "schematic.jsonl" && isJsonl "schematic.jsonl") = true := by decide
      simp only [schematicDocument, archive, find?_cons, hproject, jsonlMember, hmember]
    have hboard : (archive rt design project_name source_provenance).find?
        (fun m => nameContains "pcb" m.name && isJsonl m.name) =
        some (jsonlMember rt "pcb.jsonl" (pcbRecords rt design)) := by
      have hproject : (nameContains "pcb" "project.json" && isJsonl "project.json") = false := by decide
      have hother : (nameContains "pcb" "schematic.jsonl" && isJsonl "schematic.jsonl") = false := by decide
      have hmember : (nameContains "pcb" "pcb.jsonl" && isJsonl "pcb.jsonl") = true := by decide
      simp only [archive, find?_cons, hproject, jsonlMember, hother, hmember]
    refine ⟨{ loadProjectMetadata rt (archive rt design project_name source_provenance) {} with
        schematic := sch, pcb := pcb }, ?_, hnets, htracks, hvias⟩
    have hread : readEasyedaProZip rt (archive rt design project_name source_provenance) =
        some (loadPcbDocument rt _ (loadSchematicDocument rt _ (loadProjectMetadata rt _ {}))) :=
      (if_neg (Nat.not_lt.mpr h)).trans (if_pos hsafe)
    have hlines : extractSchematic rt (jsonlMember rt "schematic.jsonl" (schematicRecords rt design)).lines
        (jsonlMember rt "schematic.jsonl" (schematicRecords rt design)).name = some sch := hsch
    have hlines' : extractPcb rt (jsonlMember rt "pcb.jsonl" (pcbRecords rt design)).lines
        (jsonlMember rt "pcb.jsonl" (pcbRecords rt design)).name = some pcb := hpcb
    rw [hread, loadSchematicDocument, hschematic]
    simp only [hlines, loadPcbDocument, hboard, hlines']

/-! ## The round trip -/

/-- The project has every net, trace and via of the design. The reader numbers the layers; `side` is the number of
the side of the board that a layer of the design stands for. -/
structure Lossless (side : String → ℤ) (design : Design) (project : EasyEdaProProject) : Prop where
  nets : ∀ item ∈ design.nets.items, ∃ net ∈ project.schematic.nets, net.id = item.2.id ∧ net.name = item.2.name ∧
    net.pins = item.2.nodes.map fun node => (node.component_ref, node.pin_name)
  tracks : ∀ trace ∈ design.traces, ∃ track ∈ project.pcb.tracks, track.net = trace.net_id ∧
    (track.x1, track.y1) = trace.start ∧ (track.x2, track.y2) = trace.stop ∧ track.width = trace.width ∧
    track.layer = side trace.layer
  vias : ∀ via ∈ design.vias, ∃ v ∈ project.pcb.vias, (v.x, v.y) = (via.x, via.y) ∧ v.outer_diameter = via.diameter ∧
    v.inner_diameter = via.hole

variable (rt)

/-- Whenever the report of the writer is accepted, the archive gives the design back. -/
def RoundTrips (side : String → ℤ) (design : Design) (project_name source_provenance : String) : Prop :=
  ∀ members report, writeEasyedaProZip rt design project_name source_provenance = some (members, report) →
    report.accepted → ∃ project, readEasyedaProZip rt members = some project ∧ Lossless side design project

/-- Every node, trace and via has the values that are written for all of them, and nothing is too long to be read. -/
structure Representable (side : String → ℤ) (design : Design) (project_name source_provenance : String) : Prop where
  size : (archiveSizes rt design project_name source_provenance).sum ≤ maxUncompressedBytes
  net : ∀ item ∈ design.nets.items, Small rt (netRecord rt item.1 item.2) ∧
    ∀ node ∈ item.2.nodes, node.component_ref = "" ∧ node.pin_name = ""
  track : ∀ trace ∈ design.traces, Small rt (trackRecord rt trace) ∧ trace.net_id = "" ∧ trace.start = (0, 0) ∧
    trace.stop = (0, 0) ∧ side trace.layer = 1
  via : ∀ via ∈ design.vias, Small rt (viaRecord rt via) ∧ (via.x, via.y) = (0, 0) ∧ via.diameter = 4 / 5 ∧
    via.hole = 2 / 5

variable {rt}

theorem Net.label_eq (net_id : String) (net : Net) : net.label net_id = net.name := by
  have hne : net.name ≠ "" := by
    intro h
    exact net.name_ne (by rw [h]; rfl)
  rw [Net.label, if_neg hne]

theorem trackRecord_eq {trace trace' : TraceSegment} (h : trace.width = trace'.width) :
    trackRecord rt trace = trackRecord rt trace' := by
  simp [trackRecord, floatAttr, traceAttributes, getattr, lookup_cons, traceNet_eq, h]

variable {side : String → ℤ}

/-- What is read is the design exactly when nothing differs from what is written for all. -/
theorem lossless_iff {project : EasyEdaProProject} (hkeys : ∀ item ∈ design.nets.items, item.2.id = item.1)
    (hnets : ∀ net, net ∈ project.schematic.nets ↔ ∃ item ∈ design.nets.items, Small rt (netRecord rt item.1 item.2) ∧ net = netRead item)
    (htracks : ∀ track, track ∈ project.pcb.tracks ↔ ∃ trace ∈ design.traces, Small rt (trackRecord rt trace) ∧ track = trackRead trace)
    (hvias : ∀ v, v ∈ project.pcb.vias ↔ ∃ via ∈ design.vias, Small rt (viaRecord rt via) ∧ v = viaRead) :
    Lossless side design project ↔
      (∀ item ∈ design.nets.items, Small rt (netRecord rt item.1 item.2) ∧
        ∀ node ∈ item.2.nodes, node.component_ref = "" ∧ node.pin_name = "") ∧
      (∀ trace ∈ design.traces, Small rt (trackRecord rt trace) ∧ trace.net_id = "" ∧ trace.start = (0, 0) ∧
        trace.stop = (0, 0) ∧ side trace.layer = 1) ∧
      ∀ via ∈ design.vias, Small rt (viaRecord rt via) ∧ (via.x, via.y) = (0, 0) ∧ via.diameter = 4 / 5 ∧
        via.hole = 2 / 5 := by
  constructor
  · rintro ⟨hn, ht, hv⟩
    refine ⟨fun item hitem => ?_, fun trace htrace => ?_, fun via hvia => ?_⟩
    · obtain ⟨net, hnet, hid, -, hpins⟩ := hn item hitem
      obtain ⟨item', hitem', hsmall, rfl⟩ := (hnets net).mp hnet
      -- the keys of the nets are distinct, so the net that is read is this one
      have hkey : item'.1 = item.1 := hid.trans (hkeys item hitem)
      obtain rfl : item' = item := design.nets.keyed.eq hitem' hitem hkey
      refine ⟨hsmall, fun node hnode => ?_⟩
      have heq := map_inj_left.mp hpins node hnode
      exact ⟨(congrArg Prod.fst heq).symm, (congrArg Prod.snd heq).symm⟩
    · obtain ⟨track, htrack, hnet, hstart, hstop, hwidth, hside⟩ := ht trace htrace
      obtain ⟨trace', -, hsmall, rfl⟩ := (htracks track).mp htrack
      exact ⟨trackRecord_eq hwidth ▸ hsmall, hnet.symm, hstart.symm, hstop.symm, hside.symm⟩
    · obtain ⟨v, hmem, hat, houter, hinner⟩ := hv via hvia
      obtain ⟨via', -, hsmall, rfl⟩ := (hvias v).mp hmem
      exact ⟨hsmall, hat.symm, houter.symm, hinner.symm⟩
  · rintro ⟨hn, ht, hv⟩
    refine ⟨fun item hitem => ?_, fun trace htrace => ?_, fun via hvia => ?_⟩
    · obtain ⟨hsmall, hnodes⟩ := hn item hitem
      refine ⟨netRead item, (hnets _).mpr ⟨item, hitem, hsmall, rfl⟩, (hkeys item hitem).symm,
        Net.label_eq item.1 item.2, ?_⟩
      refine map_congr_left fun node hnode => ?_
      rw [(hnodes node hnode).1, (hnodes node hnode).2]
    · obtain ⟨hsmall, hnet, hstart, hstop, hside⟩ := ht trace htrace
      exact ⟨trackRead trace, (htracks _).mpr ⟨trace, htrace, hsmall, rfl⟩, hnet.symm, hstart.symm, hstop.symm, rfl,
        hside.symm⟩
    · obtain ⟨hsmall, hat, houter, hinner⟩ := hv via hvia
      exact ⟨viaRead, (hvias _).mpr ⟨via, hvia, hsmall, rfl⟩, hat.symm, houter.symm, hinner.symm⟩

theorem representable_of_roundTrips {project_name source_provenance : String}
    (hkeys : ∀ item ∈ design.nets.items, item.2.id = item.1)
    (h : RoundTrips rt side design project_name source_provenance) (hblocks : design.blocks = [])
    (hpours : design.copper_pours = [])
    (hrefuses : rt.refuses (archiveSizes rt design project_name source_provenance) = false) :
    Representable rt side design project_name source_provenance := by
  obtain ⟨hlarge, hread⟩ := @readEasyedaProZip_archive rt design project_name source_provenance
  have hwrite : writeEasyedaProZip rt design project_name source_provenance =
      some (archive rt design project_name source_provenance, writeReport rt design) := by
    rw [writeEasyedaProZip_eq, hrefuses]
    rfl
  obtain ⟨project, hproject, hlossless⟩ := h _ _ hwrite ((accepted_iff design).mpr ⟨hblocks, hpours⟩)
  rcases Nat.lt_or_ge maxUncompressedBytes (archiveSizes rt design project_name source_provenance).sum with hlt | hle
  · rw [hlarge hlt] at hproject
    cases hproject
  · obtain ⟨project', hproject', hnets, htracks, hvias⟩ := hread hle
    obtain rfl : project = project' := some.inj (hproject.symm.trans hproject')
    obtain ⟨hn, ht, hv⟩ := (lossless_iff hkeys hnets htracks hvias).mp hlossless
    exact ⟨hle, hn, ht, hv⟩

theorem roundTrips_of_representable {project_name source_provenance : String}
    (hkeys : ∀ item ∈ design.nets.items, item.2.id = item.1)
    (h : design.blocks = [] → design.copper_pours = [] → rt.refuses (archiveSizes rt design project_name source_provenance) = false → Representable rt side design project_name source_provenance) :
    RoundTrips rt side design project_name source_provenance := by
  intro members report hwrite haccepted
  rw [writeEasyedaProZip_eq] at hwrite
  split at hwrite
  · cases hwrite
  · rename_i hrefuses
    obtain ⟨rfl, rfl⟩ := Prod.mk.inj (some.inj hwrite)
    obtain ⟨hblocks, hpours⟩ := (accepted_iff design).mp haccepted
    have hr := h hblocks hpours (Bool.not_eq_true _ ▸ hrefuses)
    obtain ⟨project, hproject, hnets, htracks, hvias⟩ :=
      (@readEasyedaProZip_archive rt design project_name source_provenance).2 hr.size
    exact ⟨project, hproject, (lossless_iff hkeys hnets htracks hvias).mpr ⟨hr.net, hr.track, hr.via⟩⟩

/-- **The round trip of an accepted archive**: a design whose nets stand under their ids comes back from an accepted
archive exactly when it is not accepted, or cannot be written, or has nothing but the values that are written for
every node, trace and via. -/
theorem roundTrips_iff (side : String → ℤ) (design : Design) (project_name source_provenance : String)
    (hkeys : ∀ item ∈ design.nets.items, item.2.id = item.1) :
    RoundTrips rt side design project_name source_provenance ↔
      (design.blocks = [] → design.copper_pours = [] →
        rt.refuses (archiveSizes rt design project_name source_provenance) = false →
        Representable rt side design project_name source_provenance) :=
  ⟨representable_of_roundTrips hkeys, roundTrips_of_representable hkeys⟩

/-- A runtime without floats. -/
def plainRuntime : Runtime where
  str _ := ""
  parseFloat _ := none
  parseInt _ := none
  dumps v := (v.jsonText ⟨fun _ => "", fun _ => ""⟩).getD ""
  dumpsIndented v := (v.jsonText ⟨fun _ => "", fun _ => ""⟩).getD ""
  refuses _ := false

def onePin : Design where
  info := { name := "d" }
  nets := Dict.empty.set "n1" ⟨"n1", "N", [⟨"u1", "1"⟩], by decide⟩

theorem roundTrips_iff_onePin :
    RoundTrips plainRuntime (fun _ => 1) onePin "" "zaptrace" ↔
      (onePin.blocks = [] → onePin.copper_pours = [] →
        plainRuntime.refuses (archiveSizes plainRuntime onePin "" "zaptrace") = false →
        Representable plainRuntime (fun _ => 1) onePin "" "zaptrace") :=
  roundTrips_iff (fun _ => 1) onePin "" "zaptrace" (by simp [onePin, Dict.set, Table.upsert, Dict.empty, Table.find])

/-- The pin is written without its component and without its name. -/
theorem not_roundTrips_onePin : ¬ RoundTrips plainRuntime (fun _ => 1) onePin "" "zaptrace" := by
  intro h
  have hkeys : ∀ item ∈ onePin.nets.items, item.2.id = item.1 := by
    simp [onePin, Dict.set, Table.upsert, Dict.empty, Table.find]
  have hmem : ("n1", ⟨"n1", "N", [⟨"u1", "1"⟩], by decide⟩) ∈ onePin.nets.items := mem_singleton_self _
  have hnode := ((representable_of_roundTrips hkeys h rfl rfl rfl).net _ hmem).2 ⟨"u1", "1"⟩ (mem_singleton_self _)
  exact absurd hnode.1 (by decide)

end ZapTrace.EasyEdaPro
