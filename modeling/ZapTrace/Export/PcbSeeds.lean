import Std.Data.String.ToInt
import ZapTrace.Export.KicadPcb
import ZapTrace.Export.VendorIdentities

/-!
# The seeds of the identities of a board

The identity of an element is a digest of a seed. Seeds of different kinds of elements start differently. The seed of
a track has its ends and its net, that of a via all of it, that of a mounting hole its position. In the seed of a pad
the reference of the component and the identifier of the pad stand side by side, and so do the net and the layer in
that of a zone.

## Main results

* `segmentSeed_eq_iff`, `zoneSeed_eq_iff`, `padSeed_eq_iff`, `viaSeed_injective`: what a seed is made of
* `seedsOf_placed`: the seeds of a component
* `SeedsOf.disjoint_iff`: when two components share no seed
-/

namespace ZapTrace.KicadPcb

open String hiding append_assoc
open VerifiedFootprint List

open VerifiedFootprint (Place append_dash_inj dash_notMem_digits)

/-- Distinct seeds have distinct digests, and distinct numbers and texts are written differently. The text of a
number has neither a comma nor a parenthesis. -/
structure Distinguishes (rt : Runtime) : Prop where
  uuid4_injective : Function.Injective rt.uuid4
  float_injective : Function.Injective rt.float
  comma_notMem_float : ∀ q, ',' ∉ (rt.float q).toList
  paren_notMem_float : ∀ q, ')' ∉ (rt.float q).toList
  repr_injective : Function.Injective rt.vendor.repr

/-! ## What the seeds are made of -/

def generatedPads (design : Schema.Design) (component : Schema.Component) : List Schema.Pad :=
  if (componentPosition design component).isSome ∧ component.footprint_asset.getD "" = "" then
    footprintPads component
  else []

/-- No two pads with one number have a reference and an identifier that read the same side by side. -/
def PadsApart (design : Schema.Design) (c d : Schema.Component) : Prop :=
  ∀ (i : ℕ) (p q : Schema.Pad), (generatedPads design c)[i]? = some p → (generatedPads design d)[i]? = some q →
    c.ref ++ "-" ++ p.id ≠ d.ref ++ "-" ++ q.id

/-! ## Texts of elements -/

section

variable {rt : Runtime}

theorem float_append_inj (hrt : Distinguishes rt) {sep : Char} (hsep : sep = ',' ∨ sep = ')') {x y : ℚ}
    {r s : List Char} (h : (rt.float x).toList ++ sep :: r = (rt.float y).toList ++ sep :: s) : x = y ∧ r = s := by
  have hnot : ∀ q, sep ∉ (rt.float q).toList := by
    intro q
    rcases hsep with rfl | rfl
    · exact hrt.comma_notMem_float q
    · exact hrt.paren_notMem_float q
  obtain ⟨hfloat, hrest⟩ := Lists.append_cons_inj (hnot x) (hnot y) h
  exact ⟨hrt.float_injective (toList_inj.mp hfloat), hrest⟩

theorem comma_inj (hrt : Distinguishes rt) {x y : ℚ} {r s : List Char}
    (h : (rt.float x).toList ++ ',' :: ' ' :: r = (rt.float y).toList ++ ',' :: ' ' :: s) : x = y ∧ r = s := by
  obtain ⟨hx, hrest⟩ := float_append_inj hrt (.inl rfl) h
  exact ⟨hx, (cons.inj hrest).2⟩

theorem pairText_toList (p : ℚ × ℚ) :
    (pairText rt p).toList = '(' :: ((rt.float p.1).toList ++ ',' :: ' ' :: ((rt.float p.2).toList ++ [')'])) := by
  simp [pairText]

theorem pairText_append_inj (hrt : Distinguishes rt) {p q : ℚ × ℚ} {r s : List Char}
    (h : (pairText rt p).toList ++ r = (pairText rt q).toList ++ s) : p = q ∧ r = s := by
  simp only [pairText_toList, cons_append, append_assoc, cons.injEq, true_and,
    nil_append] at h
  obtain ⟨hfirst, h⟩ := comma_inj hrt h
  obtain ⟨hsecond, h⟩ := float_append_inj hrt (.inr rfl) h
  exact ⟨Prod.ext hfirst hsecond, h⟩

theorem pairText_injective (hrt : Distinguishes rt) : Function.Injective (pairText rt) := by
  intro p q h
  exact (pairText_append_inj hrt (r := []) (s := []) (by simpa using congrArg toList h)).1

/-- What follows the hole in the text of a via. -/
def viaTail (rt : Runtime) : Schema.Via → List Char
  | .four _ _ _ _ => [')']
  | .five _ _ _ _ net => ',' :: ' ' :: ((rt.vendor.repr net).toList ++ [')'])

theorem viaText_toList (via : Schema.Via) :
    (viaText rt via).toList = '(' :: ((rt.float (viaParts via).2.1).toList ++ ',' :: ' ' ::
      ((rt.float (viaParts via).2.2.1).toList ++ ',' :: ' ' ::
      ((rt.float (viaParts via).2.2.2.1).toList ++ ',' :: ' ' ::
      ((rt.float (viaParts via).2.2.2.2).toList ++ viaTail rt via)))) := by
  cases via <;> simp [viaText, viaParts, viaTail]

theorem viaText_injective (hrt : Distinguishes rt) : Function.Injective (viaText rt) := by
  intro via via' h
  have hlist := congrArg toList h
  rw [viaText_toList, viaText_toList] at hlist
  obtain ⟨hx, hlist⟩ := comma_inj hrt (cons.inj hlist).2
  obtain ⟨hy, hlist⟩ := comma_inj hrt hlist
  obtain ⟨hdiameter, hlist⟩ := comma_inj hrt hlist
  cases via with
  | four x y diameter hole =>
    cases via' with
    | four x' y' diameter' hole' =>
      obtain ⟨hhole, -⟩ := float_append_inj hrt (.inr rfl) hlist
      exact congr (congr (congr (congrArg Schema.Via.four hx) hy) hdiameter) hhole
    | five x' y' diameter' hole' net' =>
      -- only a via with a net has a comma behind its hole
      have hcomma : ',' ∈ (rt.float hole).toList ++ [')'] := by
        rw [show (rt.float hole).toList ++ [')'] = _ from hlist]
        simp [viaTail]
      simp [hrt.comma_notMem_float] at hcomma
  | five x y diameter hole net =>
    cases via' with
    | four x' y' diameter' hole' =>
      have hcomma : ',' ∈ (rt.float hole').toList ++ [')'] := by
        rw [show (rt.float hole').toList ++ [')'] = _ from hlist.symm]
        simp [viaTail]
      simp [hrt.comma_notMem_float] at hcomma
    | five x' y' diameter' hole' net' =>
      obtain ⟨hhole, hnet⟩ := comma_inj hrt hlist
      have hrepr := toList_inj.mp (append_cancel_right hnet)
      exact congr (congr (congr (congr (congrArg Schema.Via.five hx) hy) hdiameter) hhole)
        (hrt.repr_injective hrepr)

theorem append_between_inj {before x y after : String} (h : before ++ x ++ after = before ++ y ++ after) : x = y := by
  have hlist := congrArg toList h
  simp only [toList_append] at hlist
  exact toList_inj.mp (append_cancel_left (append_cancel_right hlist))

theorem append_left_inj {before x y : String} (h : before ++ x = before ++ y) : x = y := by
  have hlist := congrArg toList h
  simp only [toList_append] at hlist
  exact toList_inj.mp (append_cancel_left hlist)

theorem viaSeed_injective (hrt : Distinguishes rt) : Function.Injective (viaSeed rt) := fun _ _ h =>
  viaText_injective hrt (append_left_inj h)

theorem segmentSeed_eq_iff (hrt : Distinguishes rt) {t u : Schema.TraceSegment} :
    segmentSeed rt t = segmentSeed rt u ↔ (t.start, t.end, t.net_id) = (u.start, u.end, u.net_id) := by
  constructor
  · intro h
    have hlist := congrArg toList h
    simp only [segmentSeed, toList_append, append_assoc] at hlist
    obtain ⟨hstart, hlist⟩ := pairText_append_inj hrt (append_cancel_left hlist)
    obtain ⟨hend, hlist⟩ := pairText_append_inj hrt (append_cancel_left hlist)
    have hnet := toList_inj.mp (append_cancel_left hlist)
    rw [hstart, hend, hnet]
  · intro h
    simp only [Prod.mk.injEq] at h
    obtain ⟨hstart, hend, hnet⟩ := h
    rw [segmentSeed, segmentSeed, hstart, hend, hnet]

theorem append_dash_append (before first second : String) :
    before ++ first ++ "-" ++ second = before ++ (first ++ "-" ++ second) := by
  simp only [String.append_assoc]

theorem zoneSeed_eq_iff {area area' : Schema.CopperPourArea} :
    zoneSeed area = zoneSeed area' ↔ area.net_id ++ "-" ++ area.layer = area'.net_id ++ "-" ++ area'.layer := by
  rw [zoneSeed, zoneSeed, append_dash_append, append_dash_append]
  exact ⟨append_left_inj, congrArg _⟩

/-- The seed of a pad has its number, and the reference and the identifier side by side. -/
theorem padSeed_eq_iff {c d : Schema.Component} {p q : Schema.Pad} {i j : ℕ} :
    padSeed c p i = padSeed d q j ↔ i = j ∧ c.ref ++ "-" ++ p.id = d.ref ++ "-" ++ q.id := by
  rw [padSeed, padSeed, append_dash_append "pad-" c.ref, append_dash_append "pad-" d.ref]
  constructor
  · intro h
    obtain ⟨hbefore, hordinal⟩ := append_dash_inj (dash_notMem_digits i) (dash_notMem_digits j) h
    exact ⟨digits_injective (congrArg toList hordinal), append_left_inj hbefore⟩
  · rintro ⟨rfl, h⟩
    rw [h]

/-! ## Kinds of seeds -/

/-- How a seed starts. -/
def kind (seed : String) : List Char := seed.toList.take 2

/-- The seeds start in one of these ways. -/
def Kinds (kinds : List (List Char)) (seeds : List String) : Prop := ∀ seed ∈ seeds, kind seed ∈ kinds
variable {seeds seeds' : List String}

theorem nodup_append_iff_of_kinds {kinds kinds' : List (List Char)} (h : Kinds kinds seeds) (h' : Kinds kinds' seeds')
    (hkinds : ∀ k ∈ kinds, k ∉ kinds') : (seeds ++ seeds').Nodup ↔ seeds.Nodup ∧ seeds'.Nodup := by
  have hne : ∀ seed ∈ seeds, ∀ seed' ∈ seeds', kind seed ≠ kind seed' := by
    intro seed hseed seed' hseed' heq
    exact hkinds _ (h seed hseed) (heq ▸ h' seed' hseed')
  exact Lists.nodup_append_iff_of_ne hne

theorem Kinds.append {kinds kinds' : List (List Char)} (h : Kinds kinds seeds) (h' : Kinds kinds' seeds') :
    Kinds (kinds ++ kinds') (seeds ++ seeds') := by
  intro seed hseed
  rcases mem_append.mp hseed with hseed | hseed
  · exact mem_append_left _ (h seed hseed)
  · exact mem_append_right _ (h' seed hseed)

def holeSeeds (rt : Runtime) (position : ℚ × ℚ) : List String :=
  ["mounting-hole-" ++ pairText rt position, "mh-" ++ pairText rt position ++ "-pad"]

theorem kinds_holes (rt : Runtime) (holes : List Schema.MountingHole) :
    Kinds [['m', 'o'], ['m', 'h']] (holes.flatMap fun mh => holeSeeds rt mh.position) := by
  intro seed hseed
  obtain ⟨mh, -, hseed⟩ := mem_flatMap.mp hseed
  rcases mem_pair.mp hseed with rfl | rfl <;> simp [kind]

theorem kinds_segments (rt : Runtime) (traces : List Schema.TraceSegment) :
    Kinds [['s', 'e']] (traces.map (segmentSeed rt)) := by
  intro seed hseed
  obtain ⟨t, -, rfl⟩ := mem_map.mp hseed
  simp [kind, segmentSeed]

theorem kinds_vias (rt : Runtime) (vias : List Schema.Via) : Kinds [['v', 'i']] (vias.map (viaSeed rt)) := by
  intro seed hseed
  obtain ⟨via, -, rfl⟩ := mem_map.mp hseed
  simp [kind, viaSeed]

theorem kinds_zones (areas : List Schema.CopperPourArea) : Kinds [['z', 'o']] (areas.map zoneSeed) := by
  intro seed hseed
  obtain ⟨area, -, rfl⟩ := mem_map.mp hseed
  simp [kind, zoneSeed]

/-- The identities of mounting holes are distinct when their positions are. -/
theorem nodup_holes_iff (hrt : Distinguishes rt) (holes : List Schema.MountingHole) :
    (holes.flatMap fun mh => holeSeeds rt mh.position).Nodup ↔ (holes.map Schema.MountingHole.position).Nodup := by
  have hkind : ∀ p q : ℚ × ℚ, "mounting-hole-" ++ pairText rt p ≠ "mh-" ++ pairText rt q ++ "-pad" := by
    intro p q h
    exact absurd (congrArg kind h) (by simp [kind])
  apply Lists.nodup_flatMap_iff
  · intro mh
    simp [holeSeeds, hkind]
  · intro mh mh'
    rw [disjoint_left]
    constructor
    · intro hdisjoint heq
      exact hdisjoint mem_cons_self (heq ▸ mem_cons_self)
    · intro hne seed hseed hseed'
      rcases mem_pair.mp hseed with rfl | rfl
      · rcases mem_pair.mp hseed' with h | h
        · exact hne (pairText_injective hrt (append_left_inj h))
        · exact hkind _ _ h
      · rcases mem_pair.mp hseed' with h | h
        · exact hkind _ _ h.symm
        · exact hne (pairText_injective hrt (append_between_inj h))

theorem nodup_segments_iff (hrt : Distinguishes rt) (traces : List Schema.TraceSegment) :
    (traces.map (segmentSeed rt)).Nodup ↔ (traces.map fun t => (t.start, t.end, t.net_id)).Nodup := by
  unfold List.Nodup
  rw [pairwise_map, pairwise_map]
  simp only [ne_eq, segmentSeed_eq_iff hrt]

theorem nodup_zones_iff (areas : List Schema.CopperPourArea) :
    (areas.map zoneSeed).Nodup ↔ (areas.map fun area => area.net_id ++ "-" ++ area.layer).Nodup := by
  unfold List.Nodup
  rw [pairwise_map, pairwise_map]
  simp only [ne_eq, zoneSeed_eq_iff]

/-! ## Components -/

inductive ComponentSeed (design : Schema.Design) (c : Schema.Component) (seed : String) : Prop
  | footprint (eq : seed = "footprint-" ++ c.ref)
  | property (name : String) (mem : name ∈ ["ref", "val"]) (eq : seed = "fp-" ++ c.ref ++ "-" ++ name ++ "-prop")
  | pad (i : ℕ) (p : Schema.Pad) (at_number : (generatedPads design c)[i]? = some p) (eq : seed = padSeed c p i)
  | vendor (place : Place) (eq : seed = place.seed c.ref)

@[simp] theorem kind_footprint (ref : String) : kind ("footprint-" ++ ref) = ['f', 'o'] := by simp [kind]

@[simp] theorem kind_property (ref name : String) : kind ("fp-" ++ ref ++ "-" ++ name ++ "-prop") = ['f', 'p'] := by
  simp [kind]

@[simp] theorem kind_padSeed (c : Schema.Component) (p : Schema.Pad) (i : ℕ) : kind (padSeed c p i) = ['p', 'a'] := by
  simp [kind, padSeed]

@[simp] theorem kind_place (ref : String) (place : Place) : kind (place.seed ref) = ['v', 'e'] := by
  cases place <;> simp [kind, Place.seed, vendorSeed]
variable {design : Schema.Design} {c : Schema.Component}

theorem ComponentSeed.kind_mem {seed : String} (h : ComponentSeed design c seed) :
    kind seed ∈ [['f', 'o'], ['f', 'p'], ['p', 'a'], ['v', 'e']] := by
  cases h with
  | footprint eq => simp [eq]
  | property name mem eq => simp [eq]
  | pad i p at_number eq => simp [eq]
  | vendor place eq => simp [eq]

theorem propertySeed_inj {ref ref' name name' : String} (h : name ∈ ["ref", "val"]) (h' : name' ∈ ["ref", "val"])
    (heq : "fp-" ++ ref ++ "-" ++ name ++ "-prop" = "fp-" ++ ref' ++ "-" ++ name' ++ "-prop") :
    ref = ref' ∧ name = name' := by
  have hdash : ∀ name ∈ ["ref", "val"], '-' ∉ name.toList := by simp
  have hlist := congrArg toList heq
  rw [toList_append, toList_append (s := "fp-" ++ ref' ++ "-" ++ name')] at hlist
  have hbefore := toList_inj.mp (append_cancel_right hlist)
  obtain ⟨href, hname⟩ := append_dash_inj (hdash name h) (hdash name' h') hbefore
  exact ⟨append_left_inj href, hname⟩

/-- Two components with different references share only seeds of pads. -/
theorem ComponentSeed.eq_pads {c d : Schema.Component} {seed : String} (href : c.ref ≠ d.ref)
    (h : ComponentSeed design c seed) (h' : ComponentSeed design d seed) :
    ∃ (i : ℕ) (p q : Schema.Pad), (generatedPads design c)[i]? = some p ∧ (generatedPads design d)[i]? = some q ∧
      c.ref ++ "-" ++ p.id = d.ref ++ "-" ++ q.id := by
  -- seeds of different kinds start differently
  cases h with
  | footprint eq =>
    cases h' with
    | footprint eq' => exact absurd (append_left_inj (eq.symm.trans eq')) href
    | property name mem eq' => exact absurd (congrArg kind (eq.symm.trans eq')) (by simp)
    | pad i p at_number eq' => exact absurd (congrArg kind (eq.symm.trans eq')) (by simp)
    | vendor place eq' => exact absurd (congrArg kind (eq.symm.trans eq')) (by simp)
  | property name mem eq =>
    cases h' with
    | footprint eq' => exact absurd (congrArg kind (eq.symm.trans eq')) (by simp)
    | property name' mem' eq' => exact absurd (propertySeed_inj mem mem' (eq.symm.trans eq')).1 href
    | pad i p at_number eq' => exact absurd (congrArg kind (eq.symm.trans eq')) (by simp)
    | vendor place eq' => exact absurd (congrArg kind (eq.symm.trans eq')) (by simp)
  | pad i p at_number eq =>
    cases h' with
    | footprint eq' => exact absurd (congrArg kind (eq.symm.trans eq')) (by simp)
    | property name mem eq' => exact absurd (congrArg kind (eq.symm.trans eq')) (by simp)
    | pad j q at_number' eq' =>
      obtain ⟨rfl, hname⟩ := padSeed_eq_iff.mp (eq.symm.trans eq')
      exact ⟨i, p, q, at_number, at_number', hname⟩
    | vendor place eq' => exact absurd (congrArg kind (eq.symm.trans eq')) (by simp)
  | vendor place eq =>
    cases h' with
    | footprint eq' => exact absurd (congrArg kind (eq.symm.trans eq')) (by simp)
    | property name mem eq' => exact absurd (congrArg kind (eq.symm.trans eq')) (by simp)
    | pad i p at_number eq' => exact absurd (congrArg kind (eq.symm.trans eq')) (by simp)
    | vendor place' eq' => exact absurd (Place.seed_inj (eq.symm.trans eq')).1 href

structure SeedsOf (design : Schema.Design) (c : Schema.Component) (seeds : List String) : Prop where
  nodup : seeds.Nodup
  mem : ∀ seed ∈ seeds, ComponentSeed design c seed
  footprint : "footprint-" ++ c.ref ∈ seeds ↔ (componentPosition design c).isSome
  pads : ∀ (i : ℕ) (p : Schema.Pad), (generatedPads design c)[i]? = some p → padSeed c p i ∈ seeds

/-- The seeds of two components are distinct when no pads of theirs read the same. -/
theorem SeedsOf.disjoint_iff {c d : Schema.Component} (href : c.ref ≠ d.ref) (h : SeedsOf design c seeds)
    (h' : SeedsOf design d seeds') : PadsApart design c d ↔ List.Disjoint seeds seeds' := by
  rw [disjoint_left]
  constructor
  · intro hapart seed hseed hseed'
    obtain ⟨i, p, q, hp, hq, heq⟩ := (h.mem seed hseed).eq_pads href (h'.mem seed hseed')
    exact hapart i p q hp hq heq
  · intro hdisjoint i p q hp hq heq
    apply hdisjoint (h.pads i p hp)
    rw [padSeed_eq_iff.mpr ⟨rfl, heq⟩]
    exact h'.pads i q hq

theorem buildPad_seeds {p : Schema.Pad} {i : ℕ} {lines : List Line} (h : buildPad rt design c (p, i) = .ok lines) :
    lines.flatMap Line.seeds = [padSeed c p i] := by
  rw [buildPad] at h
  split at h
  · cases h
  · cases h
    have hdrill : (padDrill rt p).flatMap Line.seeds = [] := by
      unfold padDrill
      split <;> rfl
    have hround : (padRoundrect rt p).flatMap Line.seeds = [] := by
      unfold padRoundrect
      split <;> rfl
    have hnet : (padNet design (pinNetNumber design c p.id)).flatMap Line.seeds = [] := by
      unfold padNet
      split
      · split <;> rfl
      · rfl
    simp only [flatMap_append, hdrill, hround, hnet]
    rfl

theorem buildPads_seeds {pads : List Schema.Pad} {start : ℕ} {lines : List (List Line)}
    (h : List.Forall₂ (fun entry lines => buildPad rt design c entry = .ok lines) (pads.zipIdx start) lines) :
    lines.flatten.flatMap Line.seeds = (pads.zipIdx start).map fun (p, i) => padSeed c p i := by
  induction pads generalizing start lines with
  | nil =>
    rw [zipIdx_nil] at h
    cases h
    rfl
  | cons p pads ih =>
    rw [zipIdx_cons] at h ⊢
    cases h with
    | cons hfirst hrest =>
      rw [flatten_cons, flatMap_append, buildPad_seeds hfirst, ih hrest]
      rfl

theorem nodup_padSeeds (c : Schema.Component) (pads : List Schema.Pad) :
    (pads.zipIdx.map fun (p, i) => padSeed c p i).Nodup := by
  -- the numbers of the pads are distinct
  have hnumbers : pads.zipIdx.Nodup := by
    apply List.Nodup.of_map Prod.snd
    rw [zipIdx_map_snd]
    exact nodup_range'
  apply List.Nodup.map_on _ hnumbers
  rintro ⟨p, i⟩ hp ⟨q, j⟩ hq h
  obtain ⟨rfl, -⟩ := padSeed_eq_iff.mp h
  have hpads := (mk_mem_zipIdx_iff_getElem?.mp hp).symm.trans (mk_mem_zipIdx_iff_getElem?.mp hq)
  cases hpads
  rfl

/-- The seeds of a generated footprint before those of its pads. -/
def footprintSeeds (c : Schema.Component) : List String :=
  ["footprint-" ++ c.ref, "fp-" ++ c.ref ++ "-" ++ "ref" ++ "-prop", "fp-" ++ c.ref ++ "-" ++ "val" ++ "-prop"]

theorem footprintLines_seeds (design : Schema.Design) (c : Schema.Component) (origin : ℚ × ℚ) :
    (footprintLines rt design c origin).flatMap Line.seeds = footprintSeeds c := by
  have hname : ∀ name, "fp-" ++ c.ref ++ ("-" ++ name ++ "-prop") = "fp-" ++ c.ref ++ "-" ++ name ++ "-prop" := by
    intro name
    simp only [String.append_assoc]
  have href : "-ref-prop" = "-" ++ "ref" ++ "-prop" := rfl
  have hval : "-val-prop" = "-" ++ "val" ++ "-prop" := rfl
  rw [footprintSeeds, ← hname, ← hname, ← href, ← hval]
  rfl

theorem seedsOf_pads (hposition : (componentPosition design c).isSome)
    (hpads : generatedPads design c = footprintPads c) :
    SeedsOf design c (footprintSeeds c ++ (footprintPads c).zipIdx.map fun (p, i) => padSeed c p i) where
  nodup := by
    have hkinds : Kinds [['f', 'o'], ['f', 'p']] (footprintSeeds c) := by simp [Kinds, footprintSeeds]
    have hkinds' : Kinds [['p', 'a']] ((footprintPads c).zipIdx.map fun (p, i) => padSeed c p i) := by
      intro seed hseed
      obtain ⟨entry, -, rfl⟩ := mem_map.mp hseed
      simp
    rw [nodup_append_iff_of_kinds hkinds hkinds' (by simp)]
    refine ⟨?_, nodup_padSeeds c _⟩
    have hne : ∀ name, "footprint-" ++ c.ref ≠ "fp-" ++ c.ref ++ "-" ++ name ++ "-prop" := fun name h =>
      absurd (congrArg kind h) (by simp)
    have hprops : "fp-" ++ c.ref ++ "-" ++ "ref" ++ "-prop" ≠ "fp-" ++ c.ref ++ "-" ++ "val" ++ "-prop" := fun h =>
      absurd (propertySeed_inj (by simp) (by simp) h).2 (by simp)
    rw [footprintSeeds, nodup_cons, nodup_cons]
    simp only [mem_cons, not_mem_nil, or_false, not_or]
    exact ⟨⟨hne _, hne _⟩, hprops, nodup_singleton _⟩
  mem := by
    intro seed hseed
    rcases mem_append.mp hseed with hseed | hseed
    · simp only [footprintSeeds, mem_cons, not_mem_nil, or_false] at hseed
      rcases hseed with rfl | rfl | rfl
      · exact .footprint rfl
      · exact .property "ref" (by simp) rfl
      · exact .property "val" (by simp) rfl
    · obtain ⟨⟨p, i⟩, hp, rfl⟩ := mem_map.mp hseed
      exact .pad i p (hpads ▸ mk_mem_zipIdx_iff_getElem?.mp hp) rfl
  footprint := iff_of_true (mem_append_left _ mem_cons_self) hposition
  pads := by
    intro i p hp
    rw [hpads] at hp
    exact mem_append_right _ (mem_map.mpr ⟨(p, i), mk_mem_zipIdx_iff_getElem?.mpr hp, rfl⟩)

theorem seedsOf_places (hposition : (componentPosition design c).isSome) (hpads : generatedPads design c = [])
    {places : List Place} (hplaces : places.Nodup) :
    SeedsOf design c (("footprint-" ++ c.ref) :: places.map (Place.seed c.ref)) where
  nodup := by
    rw [nodup_cons]
    refine ⟨fun h => ?_, hplaces.map fun place place' h => (Place.seed_inj h).2⟩
    obtain ⟨place, -, h⟩ := mem_map.mp h
    exact absurd (congrArg kind h) (by simp)
  mem := by
    intro seed hseed
    rcases mem_cons.mp hseed with rfl | hseed
    · exact .footprint rfl
    · obtain ⟨place, -, rfl⟩ := mem_map.mp hseed
      exact .vendor place rfl
  footprint := iff_of_true mem_cons_self hposition
  pads := by
    intro i p hp
    rw [hpads] at hp
    cases hp

theorem seedsOf_placed {lines : List Line} (h : placedFootprint rt design c = .ok lines) :
    SeedsOf design c (lines.flatMap Line.seeds) := by
  unfold placedFootprint at h
  split at h
  · rename_i hposition
    cases h
    have hnone : ¬ (componentPosition design c).isSome := by simp [hposition]
    have hpads : generatedPads design c = [] := if_neg fun h => hnone h.1
    exact ⟨nodup_nil, fun seed hseed => absurd hseed not_mem_nil, iff_of_false not_mem_nil hnone,
      fun i p hp => by rw [hpads] at hp; cases hp⟩
  · rename_i origin hposition
    unfold buildFootprint at h
    dsimp only at h
    split at h
    · rename_i hasset
      have hpads : generatedPads design c = [] := if_neg fun h => hasset h.2
      unfold buildVendorFootprint at h
      split at h
      · cases h
      · obtain ⟨⟨footprint, seeds⟩, hrender, h⟩ := Raising.bind_eq_ok_iff.mp h
        obtain ⟨places, hplaces, rfl⟩ := renderVerifiedFootprint_seeds hrender
        obtain ⟨text, -, h⟩ := Raising.bind_eq_ok_iff.mp h
        cases h
        rw [flatMap_singleton]
        exact seedsOf_places (by rw [hposition]; rfl) hpads hplaces
    · rename_i hasset
      have hpads : generatedPads design c = footprintPads c :=
        if_pos ⟨by rw [hposition]; rfl, not_not.mp hasset⟩
      obtain ⟨pads, hlines, h⟩ := Raising.bind_eq_ok_iff.mp h
      cases h
      rw [flatMap_append, flatMap_append, buildPads_seeds (Lists.mapM_eq_ok_iff.mp hlines),
        footprintLines_seeds]
      simp only [line, flatMap_singleton, append_nil]
      exact seedsOf_pads (by rw [hposition]; rfl) hpads

/-! ## A plain runtime -/

/-- Whole numbers are written with a zero behind the point. -/
def plainFloat (q : ℚ) : String :=
  if q.den = 1 then toString q.num ++ ".0" else toString q.num ++ "/" ++ toString q.den

/-- A runtime without files of vendors. -/
def plainRuntime : Runtime where
  vendor :=
    { verifiedFootprint := fun asset => .error ("Unknown verified footprint asset: '" ++ asset ++ "'")
      assetError := fun _ => none
      parseFloat := fun _ => .error "could not convert string to float"
      fixed5 := fun q => (plainFloat q).toList
      listText := fun _ => []
      repr := fun s => "'" ++ s ++ "'" }
  float := plainFloat
  uuid4 := id
  uuid5 := id

theorem mem_intText {i : ℤ} {c : Char} (h : c ∈ (toString i).toList) : c.isDigit ∨ c = '-' := by
  cases i with
  | ofNat n => exact .inl (isDigit_of_mem_digits h)
  | negSucc n =>
    have hlist : (toString (Int.negSucc n)).toList = '-' :: (toString (n + 1)).toList := by
      show ("-" ++ toString (n + 1)).toList = _
      rw [toList_append]
      rfl
    rw [hlist, mem_cons] at h
    exact h.symm.imp_left isDigit_of_mem_digits

theorem mem_plainFloat {q : ℚ} {c : Char} (h : c ∈ (plainFloat q).toList) : c.isDigit ∨ c ∈ ['-', '.', '/'] := by
  unfold plainFloat at h
  split at h
  · rw [toList_append, mem_append] at h
    rcases h with h | h
    · exact (mem_intText h).imp_right fun hc => by simp [hc]
    · have hc : c = '.' ∨ c = '0' := by simpa using h
      rcases hc with rfl | rfl
      · exact .inr (by simp)
      · exact .inl (by decide)
  · rw [toList_append, toList_append, mem_append, mem_append] at h
    rcases h with (h | h) | h
    · exact (mem_intText h).imp_right fun hc => by simp [hc]
    · exact .inr (by simpa using Or.inr (Or.inr (by simpa using h)))
    · exact .inl (isDigit_of_mem_digits h)

theorem slash_notMem_intText (i : ℤ) : '/' ∉ (toString i).toList := by
  intro h
  rcases mem_intText h with h | h
  · exact absurd h (by decide)
  · exact absurd h (by decide)

theorem plainFloat_injective : Function.Injective plainFloat := by
  intro q r h
  have hlist := congrArg toList h
  have hslash : ∀ i : ℤ, '/' ∉ (toString i ++ ".0").toList := by
    intro i
    rw [toList_append, mem_append, not_or]
    exact ⟨slash_notMem_intText i, by simp⟩
  have hmem : ∀ (i : ℤ) (n : ℕ), '/' ∈ (toString i ++ "/" ++ toString n).toList := by
    intro i n
    simp
  unfold plainFloat at h
  by_cases hq : q.den = 1 <;> by_cases hr : r.den = 1
  · rw [if_pos hq, if_pos hr] at h
    have hnum := congrArg toList h
    simp only [toList_append] at hnum
    have hnum := Int.repr_injective (toList_inj.mp (append_cancel_right hnum))
    exact Rat.ext hnum (hq.trans hr.symm)
  · rw [if_pos hq, if_neg hr] at h
    exact absurd (h ▸ hmem r.num r.den) (hslash q.num)
  · rw [if_neg hq, if_pos hr] at h
    exact absurd (h ▸ hmem q.num q.den) (hslash r.num)
  · rw [if_neg hq, if_neg hr] at h
    have hparts := congrArg toList h
    simp only [toList_append, append_assoc] at hparts
    obtain ⟨hnum, hden⟩ := Lists.append_cons_inj (slash_notMem_intText _) (slash_notMem_intText _) hparts
    exact Rat.ext (Int.repr_injective (toList_inj.mp hnum))
      (digits_injective hden)

theorem distinguishes_plainRuntime : Distinguishes plainRuntime where
  uuid4_injective := Function.injective_id
  float_injective := plainFloat_injective
  comma_notMem_float := by
    intro q h
    rcases mem_plainFloat h with h | h
    · exact absurd h (by decide)
    · exact absurd h (by decide)
  paren_notMem_float := by
    intro q h
    rcases mem_plainFloat h with h | h
    · exact absurd h (by decide)
    · exact absurd h (by decide)
  repr_injective := fun _ _ h => append_between_inj h

end

end ZapTrace.KicadPcb
