import ZapTrace.Export.PcbSeeds

/-!
# The identities of a board

Two elements of a board can only have one identity when they are of one kind, or when one is the outline, whose seed
starts with the name of the design. The seed of a track leaves out its layer and its width, that of a hole its
diameter, and that of a zone all but its net and its layer.

## Main results

* `pcb_seeds`: the seeds of a board
* `pcbUuids_nodup_iff`: when the identities of a board are distinct
-/

namespace ZapTrace.KicadPcb

open Line VerifiedFootprint List

open VerifiedFootprint (Place append_dash_inj dash_notMem_digits)

def netTraces (design : Schema.Design) : List Schema.TraceSegment :=
  (normalizedTraces design).filter fun t => netNumber design t.net_id ≠ 0

/-- The pours that have a zone. -/
def zonedAreas (design : Schema.Design) : List Schema.CopperPourArea :=
  design.copper_pours.values.filter fun area => 3 ≤ area.polygon.length

/-- The elements of a board can be told apart by what their seeds are made of. -/
structure SeedsDistinct (rt : Runtime) (design : Schema.Design) : Prop where
  holes : ((mountingHoles design).map Schema.MountingHole.position).Nodup
  segments : ((netTraces design).map fun t => (t.start, t.end, t.net_id)).Nodup
  vias : (normalizedVias design).Nodup
  zones : ((zonedAreas design).map fun area => area.net_id ++ "-" ++ area.layer).Nodup
  pads : design.components.values.Pairwise (PadsApart design)
  outline_footprint : ∀ c ∈ design.components.values, (componentPosition design c).isSome →
    "footprint-" ++ c.ref ≠ outlineSeed design
  outline_segment : ∀ t ∈ netTraces design, segmentSeed rt t ≠ outlineSeed design
  outline_zone : ∀ area ∈ zonedAreas design, zoneSeed area ≠ outlineSeed design

section

variable {rt : Runtime}

/-! ## The seeds of a board -/

theorem lines_seeds {α : Type} (text : α → String) (xs : List α) :
    (xs.map fun x => line (text x)).flatMap seeds = [] := by
  rw [flatMap_map]
  exact flatMap_eq_nil_iff.mpr fun _ _ => rfl

theorem segments_seeds (design : Schema.Design) (traces : List Schema.TraceSegment) :
    (traces.flatMap (buildSegment rt design)).flatMap seeds =
      (traces.filter fun t => netNumber design t.net_id ≠ 0).map (segmentSeed rt) := by
  induction traces with
  | nil => rfl
  | cons t traces ih =>
    rw [flatMap_cons, flatMap_append, ih, buildSegment]
    by_cases h : netNumber design t.net_id = 0
    · simp [h]
    · simp [h, line, uuidLine]

theorem zones_seeds (design : Schema.Design) (areas : List Schema.CopperPourArea) :
    (areas.flatMap (buildZone rt design)).flatMap seeds =
      (areas.filter fun area => 3 ≤ area.polygon.length).map zoneSeed := by
  induction areas with
  | nil => rfl
  | cons area areas ih =>
    rw [flatMap_cons, flatMap_append, ih, buildZone]
    by_cases h : area.polygon.length < 3
    · simp [h]
    · rw [if_neg h, flatMap_append, flatMap_append, lines_seeds,
        filter_cons_of_pos (by simpa using h)]
      rfl

theorem vias_seeds (design : Schema.Design) (vias : List Schema.Via) :
    (vias.flatMap (buildVia rt design)).flatMap seeds = vias.map (viaSeed rt) := by
  rw [flatMap_assoc]
  exact (map_eq_flatMap ..).symm

theorem holes_seeds (holes : List Schema.MountingHole) :
    (holes.flatMap (buildMountingHole rt)).flatMap seeds =
      holes.flatMap fun mh => holeSeeds rt mh.position := by
  rw [flatMap_assoc]
  rfl

theorem header_seeds (design : Schema.Design) : (pcbHeader design).flatMap seeds = [] := by
  unfold pcbHeader buildLayers
  simp only [flatMap_append, lines_seeds]
  split <;> rfl

theorem nets_seeds (design : Schema.Design) : (buildNetsList design).flatMap seeds = [] := by
  unfold buildNetsList
  dsimp only
  split
  · rfl
  · exact lines_seeds _ _

variable {design : Schema.Design}

theorem pcb_seeds {lines : List Line} (h : buildPcb rt design = .ok lines) :
    ∃ components : List (List String), List.Forall₂ (SeedsOf design) design.components.values components ∧
      lines.flatMap seeds = outlineSeed design ::
        (((mountingHoles design).flatMap fun mh => holeSeeds rt mh.position) ++ components.flatten ++
          (netTraces design).map (segmentSeed rt) ++ (normalizedVias design).map (viaSeed rt) ++
          (zonedAreas design).map zoneSeed) := by
  obtain ⟨footprints, hfootprints, h⟩ := Raising.bind_eq_ok_iff.mp h
  cases h
  refine ⟨footprints.map fun lines => lines.flatMap seeds, ?_, ?_⟩
  · rw [forall₂_map_right_iff]
    exact (Lists.mapM_eq_ok_iff.mp hfootprints).imp fun _ _ => seedsOf_placed
  · have hflatten : footprints.flatten.flatMap seeds =
        (footprints.map fun lines => lines.flatMap seeds).flatten := by
      rw [flatMap_def, map_flatten, flatten_flatten, map_map]
      rfl
    have houtline : (buildBoardOutline rt design).flatMap seeds = [outlineSeed design] := rfl
    simp only [flatMap_append, header_seeds, nets_seeds, houtline, holes_seeds, hflatten, segments_seeds,
      vias_seeds, zones_seeds, nil_append, append_assoc, cons_append]
    simp [line, netTraces, zonedAreas]

/-! ## The outline -/

def lastChar (seed : String) : Option Char := seed.toList.getLast?

theorem lastChar_append {before after : String} {c : Char} (h : lastChar after = some c) :
    lastChar (before ++ after) = some c := by
  unfold lastChar at h ⊢
  rw [String.toList_append, getLast?_append, h, Option.some_or]

theorem outline_ne {before after : String} {c : Char} (h : lastChar after = some c) (hc : c ≠ 'e') :
    outlineSeed design ≠ before ++ after := by
  intro heq
  have houtline : lastChar (outlineSeed design) = some 'e' := lastChar_append (by simp [lastChar])
  rw [heq, lastChar_append h] at houtline
  exact hc (Option.some.inj houtline)

theorem outline_notMem_holes (design : Schema.Design) (holes : List Schema.MountingHole) :
    outlineSeed design ∉ holes.flatMap fun mh => holeSeeds rt mh.position := by
  intro h
  obtain ⟨mh, -, h⟩ := mem_flatMap.mp h
  rcases mem_pair.mp h with h | h
  · exact outline_ne (c := ')') (lastChar_append (by simp [lastChar])) (by simp) h
  · exact outline_ne (c := 'd') (by simp [lastChar]) (by simp) h

theorem outline_notMem_vias (design : Schema.Design) (vias : List Schema.Via) :
    outlineSeed design ∉ vias.map (viaSeed rt) := by
  intro h
  obtain ⟨via, -, h⟩ := mem_map.mp h
  cases via with
  | four x y diameter hole => exact outline_ne (c := ')') (lastChar_append (by simp [lastChar])) (by simp) h.symm
  | five x y diameter hole net =>
    exact outline_ne (c := ')') (lastChar_append (by simp [lastChar])) (by simp) h.symm

theorem ComponentSeed.eq_outline {c : Schema.Component} (h : ComponentSeed design c (outlineSeed design)) :
    outlineSeed design = "footprint-" ++ c.ref := by
  have hdash : outlineSeed design = design.meta.name ++ "-" ++ "outline" := by
    rw [outlineSeed, String.append_assoc]
    rfl
  have hword : '-' ∉ "outline".toList := by simp
  have hfirst : 'o' ∈ "outline".toList := by simp
  cases h with
  | footprint eq => exact eq
  | property name mem eq => exact absurd eq (outline_ne (c := 'p') (by simp [lastChar]) (by simp))
  | pad i p at_number eq =>
    rw [hdash, padSeed] at eq
    rw [(append_dash_inj hword (dash_notMem_digits i) eq).2] at hfirst
    exact absurd (isDigit_of_mem_digits hfirst) (by decide)
  | vendor place eq =>
    cases place with
    | field path =>
      rw [hdash, Place.seed, vendorSeed] at eq
      rw [(append_dash_inj hword (dash_notMem_pathText path) eq).2] at hfirst
      rcases mem_pathText hfirst with h | h
      · exact absurd h (by decide)
      · exact absurd h (by decide)
    | pad idx => exact absurd eq (outline_ne (c := 'd') (by simp [lastChar]) (by simp))

section

variable {design : Schema.Design} {components : List (List String)}

theorem outline_notMem_components_iff
    (h : List.Forall₂ (SeedsOf design) design.components.values components) :
    outlineSeed design ∉ components.flatten ↔ ∀ c ∈ design.components.values, (componentPosition design c).isSome →
      "footprint-" ++ c.ref ≠ outlineSeed design := by
  generalize design.components.values = values at h
  induction h with
  | nil => simp
  | @cons c seeds values components hfirst hrest ih =>
    rw [flatten_cons, mem_append, not_or, forall_mem_cons, ih]
    refine and_congr_left fun _ => ?_
    constructor
    · intro hnot hposition heq
      exact hnot (heq ▸ hfirst.footprint.mpr hposition)
    · intro hne hmem
      have heq := (hfirst.mem _ hmem).eq_outline
      exact hne (hfirst.footprint.mp (heq ▸ hmem)) heq.symm

theorem exists_of_mem_components (h : List.Forall₂ (SeedsOf design) design.components.values components)
    {seeds : List String} (hseeds : seeds ∈ components) : ∃ c, SeedsOf design c seeds := by
  obtain ⟨i, hi, rfl⟩ := mem_iff_getElem.mp hseeds
  exact ⟨_, (forall₂_iff_get.mp h).2 i (h.length_eq ▸ hi) hi⟩

theorem kinds_components (h : List.Forall₂ (SeedsOf design) design.components.values components) :
    Kinds [['f', 'o'], ['f', 'p'], ['p', 'a'], ['v', 'e']] components.flatten := by
  intro seed hseed
  obtain ⟨seeds, hseeds, hseed⟩ := mem_flatten.mp hseed
  obtain ⟨c, hc⟩ := exists_of_mem_components h hseeds
  exact (hc.mem seed hseed).kind_mem

theorem nodup_components_iff (hrefs : (design.components.values.map Schema.Component.ref).Nodup)
    (h : List.Forall₂ (SeedsOf design) design.components.values components) :
    components.flatten.Nodup ↔ design.components.values.Pairwise (PadsApart design) := by
  have hne : design.components.values.Pairwise fun c d => c.ref ≠ d.ref := pairwise_map.mp hrefs
  have hself : ∀ seeds ∈ components, seeds.Nodup := by
    intro seeds hseeds
    obtain ⟨c, hc⟩ := exists_of_mem_components h hseeds
    exact hc.nodup
  rw [nodup_flatten, and_iff_right hself]
  exact (Lists.pairwise_iff_of_forall₂ (fun c d seeds seeds' href hc hd => hc.disjoint_iff href hd) h hne).symm

end

theorem seeds_nodup_iff (hrt : Distinguishes rt) (hrefs : (design.components.values.map Schema.Component.ref).Nodup)
    {lines : List Line} (h : buildPcb rt design = .ok lines) :
    (lines.flatMap seeds).Nodup ↔ SeedsDistinct rt design := by
  obtain ⟨components, hcomponents, hseeds⟩ := pcb_seeds h
  have hholes := kinds_holes rt (mountingHoles design)
  have hparts := kinds_components hcomponents
  have hsegments := kinds_segments rt (netTraces design)
  have hvias := kinds_vias rt (normalizedVias design)
  have hzones := kinds_zones (zonedAreas design)
  rw [hseeds, nodup_cons,
    -- elements of different kinds have different seeds, but for the outline
    nodup_append_iff_of_kinds (((hholes.append hparts).append hsegments).append hvias) hzones (by simp),
    nodup_append_iff_of_kinds ((hholes.append hparts).append hsegments) hvias (by simp),
    nodup_append_iff_of_kinds (hholes.append hparts) hsegments (by simp),
    nodup_append_iff_of_kinds hholes hparts (by simp),
    nodup_holes_iff hrt, nodup_components_iff hrefs hcomponents, nodup_segments_iff hrt,
    nodup_map_iff (viaSeed_injective hrt), nodup_zones_iff]
  simp only [mem_append, not_or, outline_notMem_holes, outline_notMem_vias,
    outline_notMem_components_iff hcomponents, not_false_eq_true, true_and, and_true]
  have hsegment : outlineSeed design ∉ (netTraces design).map (segmentSeed rt) ↔
      ∀ t ∈ netTraces design, segmentSeed rt t ≠ outlineSeed design := by
    simp
  have hzone : outlineSeed design ∉ (zonedAreas design).map zoneSeed ↔
      ∀ area ∈ zonedAreas design, zoneSeed area ≠ outlineSeed design := by
    simp
  rw [hsegment, hzone]
  constructor
  · rintro ⟨⟨⟨hfootprint, hsegment⟩, hzone⟩, ⟨⟨⟨hholes, hpads⟩, hsegments⟩, hvias⟩, hzones⟩
    exact ⟨hholes, hsegments, hvias, hzones, hpads, hfootprint, hsegment, hzone⟩
  · rintro ⟨hholes, hsegments, hvias, hzones, hpads, hfootprint, hsegment, hzone⟩
    exact ⟨⟨⟨hfootprint, hsegment⟩, hzone⟩, ⟨⟨⟨hholes, hpads⟩, hsegments⟩, hvias⟩, hzones⟩

/-- The identities of a board are distinct when its elements can be told apart by what their seeds are made of. -/
theorem pcbUuids_nodup_iff (hrt : Distinguishes rt) {design : Schema.Design}
    (hrefs : (design.components.values.map Schema.Component.ref).Nodup) {lines : List Line}
    (h : buildPcb rt design = .ok lines) : (pcbUuids rt lines).Nodup ↔ SeedsDistinct rt design := by
  rw [pcbUuids, nodup_map_iff hrt.uuid4_injective, seeds_nodup_iff hrt hrefs h]

end

/-! ## A track on two layers -/

def twoLayers : Schema.Design where
  «meta» := { name := "board" }
  nets := Dict.empty.set "N1" { id := "N1", name := ⟨"SIG", by decide⟩ }
  routing := some
    { traces :=
        [{ layer := "F.Cu", start := (0, 0), «end» := (10, 0), net_id := "N1" },
          { layer := "B.Cu", start := (0, 0), «end» := (10, 0), net_id := "N1" }] }

def twoLayersLines : List Line :=
  match buildPcb plainRuntime twoLayers with
  | .ok lines => lines
  | .error _ => []

theorem buildPcb_twoLayers : buildPcb plainRuntime twoLayers = .ok twoLayersLines := rfl

theorem refs_nodup_twoLayers : (twoLayers.components.values.map Schema.Component.ref).Nodup := nodup_nil

theorem pcbUuids_nodup_iff_twoLayers :
    (pcbUuids plainRuntime twoLayersLines).Nodup ↔ SeedsDistinct plainRuntime twoLayers :=
  pcbUuids_nodup_iff distinguishes_plainRuntime refs_nodup_twoLayers buildPcb_twoLayers

structure ElementsDistinct (design : Schema.Design) : Prop where
  refs : (design.components.values.map Schema.Component.ref).Nodup
  traces : ∀ routing, design.routing = some routing → routing.traces.Nodup
  vias : ∀ routing, design.routing = some routing → routing.vias.Nodup
  holes : (mountingHoles design).Nodup
  zones : design.copper_pours.values.Nodup

/-- The track has one identity on both layers. -/
theorem not_uuidsDistinct_twoLayers : ¬ ∀ (rt : Runtime) (design : Schema.Design) (lines : List Line),
    Distinguishes rt → ElementsDistinct design → buildPcb rt design = .ok lines → (pcbUuids rt lines).Nodup := by
  intro hall
  have helements : ElementsDistinct twoLayers := by
    refine ⟨nodup_nil, ?_, ?_, nodup_nil, nodup_nil⟩
    · rintro routing ⟨⟩
      simp
    · rintro routing ⟨⟩
      exact nodup_nil
  have hnodup := hall _ _ _ distinguishes_plainRuntime helements buildPcb_twoLayers
  rw [pcbUuids, nodup_map_iff distinguishes_plainRuntime.uuid4_injective] at hnodup
  have hdistinct := (seeds_nodup_iff distinguishes_plainRuntime refs_nodup_twoLayers buildPcb_twoLayers).mp hnodup
  have hsegments := hdistinct.segments
  have htraces : (netTraces twoLayers).map (fun t => (t.start, t.end, t.net_id)) =
      [((0, 0), (10, 0), "N1"), ((0, 0), (10, 0), "N1")] := by
    decide
  rw [htraces] at hsegments
  simp at hsegments

end ZapTrace.KicadPcb
