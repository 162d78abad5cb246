import Mathlib.Data.List.Flatten
import ZapTrace.Algo.Fillet
import ZapTrace.Library.Lists

/-!
# What fillets do to the copper

A trace keeps its net, its layer and its width, and loses at most two fifths of its length at an end with
an arc. But a chain is put in order by going on as long as some trace continues it: at the end of a branch
the rest of the chain is dropped. A trace of which an arc leaves next to nothing is dropped too, and an
arc of radius zero is a division by zero.

## Main results

* `filletGeometry_spec`: how much an arc takes
* `length_orderChain_iff`: when a chain in order is complete
* `copperKept_iff`: when no trace is lost
-/

set_option linter.unusedSectionVars false

namespace ZapTrace.Routing.Fillet

open List hiding getElem?_eq_some_iff
open Plane FilletParams

variable {K : Type} [Field K] [LinearOrder K]

/-- The same piece of copper; its ends may be exchanged. -/
def SameCopper (s o : TraceSegment K) : Prop :=
  o.layer = s.layer ∧ o.net_id = s.net_id ∧ o.width = s.width ∧
    ((o.start = s.start ∧ o.stop = s.stop) ∨ (o.start = s.stop ∧ o.stop = s.start))

/-- What is left of a trace when at most two fifths are taken off at each end. -/
def PieceOf (s o : TraceSegment K) : Prop :=
  o.layer = s.layer ∧ o.net_id = s.net_id ∧ o.width = s.width ∧
    ∃ f g : K, (0 ≤ f ∧ f ≤ tangentClipRatio) ∧ (0 ≤ g ∧ g ≤ tangentClipRatio) ∧
      ((o.start = along s.start s.stop f ∧ o.stop = along s.stop s.start g) ∨
        (o.stop = along s.start s.stop f ∧ o.start = along s.stop s.start g))

variable (real : RealFunctions K) (params : FilletParams K)

/-- From the current end one trace after the other is reached, until all are used. -/
inductive Reaches (chain : List (TraceSegment K)) : List ℕ → EndpointKey K → Prop
  | done {used : List ℕ} {current_end : EndpointKey K} (h : chain.length ≤ used.length) :
      Reaches chain used current_end
  | step {used : List ℕ} {current_end : EndpointKey K} {index : ℕ} {segment : TraceSegment K}
      {next_end : EndpointKey K} (h : nextChainSegment real chain used current_end = some (index, segment, next_end))
      (rest : Reaches chain (index :: used) next_end) : Reaches chain used current_end

/-- Going on from the first free end, and always with the first trace that continues, one reaches every trace
of a chain. -/
def WalksThrough (chain : List (TraceSegment K)) : Prop :=
  chain.length ≤ 1 ∨ ∃ start_index first, firstSegment real chain = some (start_index, first) ∧
    Reaches real chain [start_index] (endpointKey real first.stop first.layer)

/-- Along a chain no arc fails, and each arc leaves more than a millionth of its first trace. -/
inductive CornersFine : List (TraceSegment K) → Prop
  | nil : CornersFine []
  | single (segment : TraceSegment K) : CornersFine [segment]
  | straight {previous segment : TraceSegment K} {rest : List (TraceSegment K)}
      (h : filletGeometry real params previous segment = .ok none)
      (hrest : CornersFine (segment :: rest)) : CornersFine (previous :: segment :: rest)
  | arc {previous segment : TraceSegment K} {rest : List (TraceSegment K)} {geometry : FilletGeometry K}
      (h : filletGeometry real params previous segment = .ok (some geometry))
      (hleft : (1 / 10 ^ 6) ^ 2 < distSq previous.start geometry.tangent_in)
      (hrest : CornersFine rest) : CornersFine (previous :: segment :: rest)

def allChains (traces : List (TraceSegment K)) : List (List (TraceSegment K)) :=
  (netGroups traces).flatMap (netChains real)

/-- No corner between two traces, however they are turned, is eligible for an arc. -/
def NoCorner (traces : List (TraceSegment K)) : Prop :=
  ∀ s ∈ traces, ∀ t ∈ traces, ∀ previous segment, SameCopper s previous → SameCopper t segment →
    eligibleFilletJoint real previous segment (real.radians params.min_angle_deg) = none

/-- There is an output. Of every trace it has a piece that is no part of an arc; and when no corner
is eligible, it has the traces, perhaps turned around, and nothing else. -/
def CopperKept (traces : List (TraceSegment K)) : Prop :=
  ∃ emitted, filletTraces real params traces = .ok emitted ∧
    (∃ pieces, List.Forall₂ PieceOf traces pieces ∧ pieces.Subperm (keptTraces emitted)) ∧
    (NoCorner real params traces →
      ∃ turned, turned.Perm traces ∧ List.Forall₂ SameCopper turned (emitted.map Emitted.segment))

/-- Every chain is walked through, and its corners are fine. -/
def Tidy (traces : List (TraceSegment K)) : Prop :=
  ∀ chain ∈ allChains real traces, WalksThrough real chain ∧ CornersFine real params (orderChain real chain)

theorem SameCopper.refl (s : TraceSegment K) : SameCopper s s := ⟨rfl, rfl, rfl, .inl ⟨rfl, rfl⟩⟩

theorem sameCopper_reversedSeg (s : TraceSegment K) : SameCopper s (reversedSeg s) :=
  ⟨rfl, rfl, rfl, .inr ⟨rfl, rfl⟩⟩

variable [IsStrictOrderedRing K]

theorem tangentClipRatio_nonneg : (0 : K) ≤ tangentClipRatio := by
  unfold tangentClipRatio
  positivity

theorem PieceOf.refl (s : TraceSegment K) : PieceOf s s :=
  ⟨rfl, rfl, rfl, 0, 0, ⟨le_rfl, tangentClipRatio_nonneg⟩, ⟨le_rfl, tangentClipRatio_nonneg⟩,
    .inl ⟨(along_zero _ _).symm, (along_zero _ _).symm⟩⟩

theorem SameCopper.pieceOf {s t o : TraceSegment K} (h : SameCopper s t) (hpiece : PieceOf t o) :
    PieceOf s o := by
  obtain ⟨hlayer, hnet, hwidth, hends⟩ := h
  obtain ⟨hlayer', hnet', hwidth', f, g, hf, hg, hpieces⟩ := hpiece
  refine ⟨hlayer'.trans hlayer, hnet'.trans hnet, hwidth'.trans hwidth, ?_⟩
  rcases hends with ⟨hstart, hstop⟩ | ⟨hstart, hstop⟩
  · rw [hstart, hstop] at hpieces
    exact ⟨f, g, hf, hg, hpieces⟩
  · -- the parts taken off the two ends change places
    rw [hstart, hstop] at hpieces
    exact ⟨g, f, hg, hf, hpieces.symm.imp And.symm And.symm⟩

/-! ## Arcs -/

variable {previous segment : TraceSegment K}

/-- The directions of a joint are the traces' vectors, over lengths that are not zero. -/
theorem eligibleFilletJoint_spec {min_angle_rad : K} {joint : FilletJoint K}
    (h : eligibleFilletJoint real previous segment min_angle_rad = some joint) :
    0 < joint.incoming_length ∧ 0 < joint.outgoing_length ∧
      joint.incoming_unit = ((vec previous.start previous.stop).1 / joint.incoming_length,
        (vec previous.start previous.stop).2 / joint.incoming_length) ∧
      joint.outgoing_unit = ((vec segment.start segment.stop).1 / joint.outgoing_length,
        (vec segment.start segment.stop).2 / joint.outgoing_length) := by
  unfold eligibleFilletJoint filletJointVectors at h
  dsimp only at h
  have hpos : (0 : K) < 1 / 10 ^ 9 := by positivity
  split at h
  · cases h
  · split at h
    · cases h
    · split at h
      · cases h
      · rename_i hvectors
        split at hvectors
        · cases hvectors
        · rename_i hlong
          obtain ⟨hin, hout⟩ := not_or.mp hlong
          cases hvectors
          split at h
          · cases h
          · split at h
            · cases h
            · cases h
              exact ⟨hpos.trans_le (not_lt.mp hin), hpos.trans_le (not_lt.mp hout), rfl, rfl⟩

/-- The arc starts at most two fifths of the shorter trace away from the corner. -/
theorem filletRadiusTangent_spec {joint : FilletJoint K} {radius tangent_distance trace_width : K}
    (hin : 0 < joint.incoming_length)
    (h : filletRadiusTangent real params previous segment joint = .ok (some (radius, tangent_distance, trace_width))) :
    0 ≤ tangent_distance ∧ tangent_distance ≤ tangentClipRatio * joint.incoming_length ∧
      tangent_distance ≤ tangentClipRatio * joint.outgoing_length := by
  unfold filletRadiusTangent at h
  dsimp only at h
  split at h
  · cases h
  · split at h
    · cases h
    · set td := min (min params.default_radius (max (max previous.width segment.width) (1 / 100) *
        params.radius_scale)) (params.max_radius.getD params.default_radius) /
          real.tan (joint.internal_angle / 2)
      rename_i hne
      split at h
      · cases h
      · rename_i hratio
        split at h
        · cases h
        · cases h
          set ratio := min (min (joint.incoming_length * tangentClipRatio / td)
            (joint.outgoing_length * tangentClipRatio / td)) 1
          have hratio_pos : 0 < ratio := lt_of_lt_of_le (by positivity) (not_lt.mp hratio)
          have hle_in : ratio ≤ joint.incoming_length * tangentClipRatio / td :=
            (min_le_left _ _).trans (min_le_left _ _)
          have hle_out : ratio ≤ joint.outgoing_length * tangentClipRatio / td :=
            (min_le_left _ _).trans (min_le_right _ _)
          -- a negative distance would make the ratio negative
          have htd : 0 < td := by
            by_contra hneg
            have hle : joint.incoming_length * tangentClipRatio / td ≤ 0 :=
              div_nonpos_of_nonneg_of_nonpos (mul_nonneg hin.le tangentClipRatio_nonneg) (not_lt.mp hneg)
            exact (hratio_pos.trans_le (hle_in.trans hle)).false
          rw [le_div_iff₀ htd] at hle_in hle_out
          refine ⟨(mul_pos htd hratio_pos).le, ?_, ?_⟩ <;> linarith

/-- **How much an arc takes**: at most two fifths of each of its traces. -/
theorem filletGeometry_spec {geometry : FilletGeometry K}
    (h : filletGeometry real params previous segment = .ok (some geometry)) :
    ∃ f g : K, (0 ≤ f ∧ f ≤ tangentClipRatio) ∧ (0 ≤ g ∧ g ≤ tangentClipRatio) ∧
      geometry.tangent_in = along previous.stop previous.start g ∧
      geometry.tangent_out = along segment.start segment.stop f := by
  unfold filletGeometry at h
  split at h
  · cases h
  · rename_i joint hjoint
    obtain ⟨hin, hout, hunit_in, hunit_out⟩ := eligibleFilletJoint_spec real hjoint
    cases hradius : filletRadiusTangent real params previous segment joint with
    | error e =>
      rw [hradius] at h
      cases h
    | ok radius_tangent =>
      rw [hradius] at h
      cases radius_tangent with
      | none => cases h
      | some triple =>
        obtain ⟨radius, tangent_distance, trace_width⟩ := triple
        obtain ⟨hnonneg, hle_in, hle_out⟩ := filletRadiusTangent_spec real params hin hradius
        have hcenter := Except.ok.inj h
        unfold filletCenterGeometry at hcenter
        dsimp only at hcenter
        split at hcenter
        · cases hcenter
        · cases hcenter
          refine ⟨tangent_distance / joint.outgoing_length, tangent_distance / joint.incoming_length,
            ⟨by positivity, (div_le_iff₀ hout).mpr hle_out⟩, ⟨by positivity, (div_le_iff₀ hin).mpr hle_in⟩, ?_, ?_⟩
          · simp only [hunit_in, along, vec]
            ext <;> ring
          · simp only [hunit_out, along, vec]
            ext <;> ring

theorem keptTraces_emitFilletSegments (previous segment : TraceSegment K) (geometry : FilletGeometry K) :
    keptTraces (emitFilletSegments real params previous segment geometry) =
      (if (1 / 10 ^ 6) ^ 2 < distSq previous.start geometry.tangent_in then
          [plainTrace previous.layer previous.start geometry.tangent_in previous.width previous.net_id]
        else []) ++
      [plainTrace segment.layer geometry.tangent_out segment.stop segment.width segment.net_id] := by
  have harc : ∀ arc : List (TraceSegment K), keptTraces (arc.map .arc) = [] := by
    intro arc
    simp [keptTraces, filterMap_map]
  unfold emitFilletSegments
  simp only [keptTraces, filterMap_append] at harc ⊢
  rw [harc]
  split <;> simp

theorem pieceOf_arc {geometry : FilletGeometry K}
    (h : filletGeometry real params previous segment = .ok (some geometry)) :
    PieceOf previous
        (plainTrace previous.layer previous.start geometry.tangent_in previous.width previous.net_id) ∧
      PieceOf segment
        (plainTrace segment.layer geometry.tangent_out segment.stop segment.width segment.net_id) := by
  obtain ⟨f, g, hf, hg, hin, hout⟩ := filletGeometry_spec real params h
  have hzero : (0 : K) ≤ 0 ∧ (0 : K) ≤ tangentClipRatio := ⟨le_rfl, tangentClipRatio_nonneg⟩
  exact ⟨⟨rfl, rfl, rfl, 0, g, hzero, hg, .inl ⟨(along_zero _ _).symm, hin⟩⟩,
    ⟨rfl, rfl, rfl, f, 0, hf, hzero, .inl ⟨hout, (along_zero _ _).symm⟩⟩⟩

/-! ## Chains in order -/

variable {chain : List (TraceSegment K)}

theorem nextChainSegment_spec {used : List ℕ} {current_end next_end : EndpointKey K} {index : ℕ}
    {segment : TraceSegment K} (h : nextChainSegment real chain used current_end = some (index, segment, next_end)) :
    index ∉ used ∧ ∃ s, chain[index]? = some s ∧ SameCopper s segment := by
  obtain ⟨⟨s, i⟩, hmem, hnext⟩ := exists_of_findSome?_eq_some h
  have hlookup : chain[i]? = some s := mem_zipIdx_iff_getElem?.mp hmem
  dsimp only at hnext
  split at hnext
  · cases hnext
  · rename_i hunused
    split at hnext
    · cases hnext
      exact ⟨hunused, _, hlookup, SameCopper.refl _⟩
    · split at hnext
      · cases hnext
        exact ⟨hunused, s, hlookup, sameCopper_reversedSeg s⟩
      · cases hnext

/-- The traces are those of some indices, perhaps turned around. -/
def FromIndices (chain : List (TraceSegment K)) (idxs : List ℕ) (ordered : List (TraceSegment K)) : Prop :=
  List.Forall₂ (fun i o => ∃ s, chain[i]? = some s ∧ SameCopper s o) idxs ordered

theorem orderFrom_spec (chain : List (TraceSegment K)) (n : ℕ) (used : List ℕ) (current_end : EndpointKey K) :
    ∃ idxs, (idxs.Nodup ∧ ∀ i ∈ idxs, i ∉ used) ∧
      FromIndices chain idxs (orderFrom real chain n used current_end) := by
  induction n generalizing used current_end with
  | zero => exact ⟨[], ⟨nodup_nil, fun i hi => absurd hi not_mem_nil⟩, .nil⟩
  | succ n ih =>
    rw [orderFrom]
    split
    · exact ⟨[], ⟨nodup_nil, fun i hi => absurd hi not_mem_nil⟩, .nil⟩
    · rename_i index segment next_end hnext
      obtain ⟨hunused, s, hlookup, hsame⟩ := nextChainSegment_spec real hnext
      obtain ⟨idxs, ⟨hnodup, hnew⟩, hrest⟩ := ih (index :: used) next_end
      refine ⟨index :: idxs, ⟨nodup_cons.mpr ⟨fun hin => ?_, hnodup⟩, ?_⟩, .cons ⟨s, hlookup, hsame⟩ hrest⟩
      · exact hnew index hin mem_cons_self
      · exact forall_mem_cons.mpr ⟨hunused, fun i hi hused => hnew i hi (mem_cons_of_mem _ hused)⟩

theorem orderChain_spec (chain : List (TraceSegment K)) :
    ∃ idxs, idxs.Nodup ∧ FromIndices chain idxs (orderChain real chain) := by
  unfold orderChain
  split
  · rename_i hshort
    match chain, hshort with
    | [], _ => exact ⟨[], nodup_nil, .nil⟩
    | [s], _ => exact ⟨[0], nodup_singleton 0, .cons ⟨s, rfl, SameCopper.refl s⟩ .nil⟩
  · split
    · exact ⟨[], nodup_nil, .nil⟩
    · rename_i start_index first hfirst
      obtain ⟨s, hlookup, hpair⟩ := Option.map_eq_some_iff.mp hfirst
      have hturn : ∀ forward : Bool, SameCopper s (if forward then s else reversedSeg s) := by
        intro forward
        cases forward with
        | false => exact sameCopper_reversedSeg s
        | true => exact SameCopper.refl s
      have hsame : SameCopper s first := (Prod.mk.inj hpair).2 ▸ hturn _
      rw [(Prod.mk.inj hpair).1] at hlookup
      obtain ⟨idxs, ⟨hnodup, hnew⟩, hrest⟩ := orderFrom_spec real chain (chain.length - 1) [start_index]
        (endpointKey real first.stop first.layer)
      refine ⟨start_index :: idxs, nodup_cons.mpr ⟨fun hin => ?_, hnodup⟩, .cons ⟨s, hlookup, hsame⟩ hrest⟩
      exact hnew start_index hin mem_cons_self

theorem FromIndices.subperm {chain ordered : List (TraceSegment K)} {idxs : List ℕ} (hnodup : idxs.Nodup)
    (h : FromIndices chain idxs ordered) : idxs.Subperm (range chain.length) := by
  refine subperm_of_subset hnodup fun i hi => mem_range.mpr ?_
  obtain ⟨n, hn, rfl⟩ := getElem_of_mem hi
  obtain ⟨s, hlookup, -⟩ := h.get hn (h.length_eq ▸ hn)
  exact (List.getElem?_eq_some_iff.mp hlookup).1

theorem FromIndices.forall₂ {chain ordered : List (TraceSegment K)} {idxs : List ℕ}
    (h : FromIndices chain idxs ordered) :
    List.Forall₂ SameCopper (idxs.filterMap fun i => chain[i]?) ordered := by
  induction h with
  | nil => exact .nil
  | cons hhead _ ih =>
    obtain ⟨s, hlookup, hsame⟩ := hhead
    rw [filterMap_cons, hlookup]
    exact .cons hsame ih

theorem length_orderChain_le (chain : List (TraceSegment K)) :
    (orderChain real chain).length ≤ chain.length := by
  obtain ⟨idxs, hnodup, hfrom⟩ := orderChain_spec real chain
  have hlength := (hfrom.subperm hnodup).length_le
  rwa [hfrom.length_eq, length_range] at hlength

theorem exists_turned_orderChain (h : (orderChain real chain).length = chain.length) :
    ∃ turned, turned.Perm chain ∧ List.Forall₂ SameCopper turned (orderChain real chain) := by
  obtain ⟨idxs, hnodup, hfrom⟩ := orderChain_spec real chain
  have hperm : idxs.Perm (range chain.length) := by
    refine (hfrom.subperm hnodup).perm_of_length_le ?_
    rw [hfrom.length_eq, h, length_range]
  refine ⟨_, ?_, hfrom.forall₂⟩
  exact (hperm.filterMap _).trans (List.Perm.of_eq (Lists.filterMap_range chain))

theorem exists_sameCopper_of_mem_orderChain {o : TraceSegment K} (h : o ∈ orderChain real chain) :
    ∃ s ∈ chain, SameCopper s o := by
  obtain ⟨idxs, -, hfrom⟩ := orderChain_spec real chain
  obtain ⟨n, hn, rfl⟩ := getElem_of_mem h
  obtain ⟨s, hlookup, hsame⟩ := hfrom.get (hfrom.length_eq ▸ hn) hn
  exact ⟨s, mem_of_getElem? hlookup, hsame⟩

theorem length_orderFrom_iff {n : ℕ} {used : List ℕ} (current_end : EndpointKey K) (h : n + used.length = chain.length) :
    (orderFrom real chain n used current_end).length = n ↔ Reaches real chain used current_end := by
  induction n generalizing used current_end with
  | zero => exact iff_of_true rfl (.done (by omega))
  | succ n ih =>
    rw [orderFrom]
    constructor
    · intro hlength
      split at hlength
      · cases hlength
      · rename_i index segment next_end hnext
        rw [length_cons, Nat.add_right_cancel_iff] at hlength
        exact .step hnext ((ih next_end (by rw [length_cons]; omega)).mp hlength)
    · intro hreaches
      cases hreaches with
      | done hused => omega
      | step hnext hrest =>
        rw [hnext]
        dsimp only
        rw [length_cons, (ih _ (by rw [length_cons]; omega)).mpr hrest]

/-- **A chain in order** is complete exactly when it is walked through. -/
theorem length_orderChain_iff (chain : List (TraceSegment K)) :
    (orderChain real chain).length = chain.length ↔ WalksThrough real chain := by
  unfold orderChain WalksThrough
  split
  · rename_i hshort
    exact iff_of_true rfl (.inl hshort)
  · rename_i hlong
    rw [or_iff_right hlong]
    cases hfirst : firstSegment real chain with
    | none =>
      refine iff_of_false (fun hlength => ?_) ?_
      · rw [length_nil] at hlength
        omega
      · rintro ⟨start_index, first, hsome, -⟩
        cases hsome
    | some pair =>
      obtain ⟨start_index, first⟩ := pair
      have hrest := length_orderFrom_iff real (endpointKey real first.stop first.layer)
        (show chain.length - 1 + [start_index].length = chain.length by rw [length_singleton]; omega)
      rw [length_cons]
      constructor
      · intro hlength
        exact ⟨start_index, first, rfl, hrest.mp (by omega)⟩
      · rintro ⟨_, _, hsome, hreaches⟩
        cases hsome
        rw [hrest.mpr hreaches]
        omega

/-! ## All chains -/

theorem mem_endpointMap_lt {group : List (TraceSegment K)} {key : EndpointKey K} {idx : ℕ}
    (h : idx ∈ endpointMap real group key) : idx < group.length := by
  obtain ⟨⟨seg, i⟩, hmem, hidx⟩ := mem_flatMap.mp h
  dsimp only at hidx
  split at hidx
  · cases hidx
  · obtain ⟨_, -, rfl⟩ := mem_map.mp hidx
    exact (List.getElem?_eq_some_iff.mp (mem_zipIdx_iff_getElem?.mp hmem)).1

theorem mem_neighbours_lt (group : List (TraceSegment K)) (i : ℕ) :
    ∀ m ∈ neighbours real group i, m < group.length := by
  intro m hm
  unfold neighbours at hm
  split at hm
  · cases hm
  · exact (mem_append.mp hm).elim (mem_endpointMap_lt real) (mem_endpointMap_lt real)

theorem flatten_netChains_perm (group : List (TraceSegment K)) :
    (netChains real group).flatten.Perm group := by
  have hgroups := Walk.flatten_groups_perm (mem_neighbours_lt real group)
  rw [netChains, ← filterMap_flatten]
  exact (hgroups.filterMap _).trans (List.Perm.of_eq (Lists.filterMap_range group))

/-- **Each trace** is in one chain. -/
theorem flatten_allChains_perm (traces : List (TraceSegment K)) : (allChains real traces).flatten.Perm traces := by
  have hgroups : ∀ groups : List (List (TraceSegment K)),
      (groups.flatMap (netChains real)).flatten.Perm groups.flatten := by
    intro groups
    induction groups with
    | nil => rfl
    | cons group groups ih =>
      rw [flatMap_cons, flatten_append, flatten_cons]
      exact (flatten_netChains_perm real group).append ih
  have hnets := Dict.flatten_groupBy_perm TraceSegment.net_id id traces
  rw [map_id] at hnets
  exact (hgroups _).trans hnets

theorem orderedChains_eq (traces : List (TraceSegment K)) :
    orderedChains real traces = (allChains real traces).map (orderChain real) := by
  rw [orderedChains, allChains, map_flatMap]

/-! ## Arcs along a chain -/

/-- The corner between the first two traces of a chain. -/
theorem filletChain_cons_cons (previous segment : TraceSegment K) (rest : List (TraceSegment K)) :
    filletChain real params (previous :: segment :: rest) =
      match filletGeometry real params previous segment with
      | .error e => .error e
      | .ok none => (filletChain real params (segment :: rest)).map (.trace previous :: ·)
      | .ok (some geometry) =>
        (filletChain real params rest).map (emitFilletSegments real params previous segment geometry ++ ·) := by
  simp only [filletChain, filletChainFrom]
  cases filletGeometry real params previous segment with
  | error e => rfl
  | ok geometry =>
    cases geometry with
    | none =>
      show (filletChainFrom real params (some segment) rest >>= _) = Except.map _ _
      cases filletChainFrom real params (some segment) rest <;> rfl
    | some geometry =>
      show (filletChainFrom real params none rest >>= _) = Except.map _ _
      cases filletChainFrom real params none rest <;> rfl

theorem keptTraces_append (emitted emitted' : List (Emitted K)) :
    keptTraces (emitted ++ emitted') = keptTraces emitted ++ keptTraces emitted' := filterMap_append

theorem exists_filletChain (h : CornersFine real params chain) :
    ∃ emitted, filletChain real params chain = .ok emitted ∧ List.Forall₂ PieceOf chain (keptTraces emitted) := by
  induction h with
  | nil => exact ⟨[], rfl, .nil⟩
  | single segment => exact ⟨[.trace segment], rfl, .cons (PieceOf.refl segment) .nil⟩
  | @straight previous segment rest hgeometry hrest ih =>
    obtain ⟨emitted, hemitted, hpieces⟩ := ih
    refine ⟨.trace previous :: emitted, ?_, .cons (PieceOf.refl previous) hpieces⟩
    rw [filletChain_cons_cons, hgeometry, hemitted]
    rfl
  | @arc previous segment rest geometry hgeometry hleft hrest ih =>
    obtain ⟨emitted, hemitted, hpieces⟩ := ih
    obtain ⟨hprevious, hsegment⟩ := pieceOf_arc real params hgeometry
    refine ⟨emitFilletSegments real params previous segment geometry ++ emitted, ?_, ?_⟩
    · rw [filletChain_cons_cons, hgeometry, hemitted]
      rfl
    · rw [keptTraces_append, keptTraces_emitFilletSegments, if_pos hleft]
      exact .cons hprevious (.cons hsegment hpieces)

/-- A chain keeps no more pieces than it has traces; and as many only when its corners are fine. -/
theorem length_keptTraces_filletChain : ∀ {chain : List (TraceSegment K)} {emitted : List (Emitted K)},
    filletChain real params chain = .ok emitted →
      (keptTraces emitted).length ≤ chain.length ∧
        ((keptTraces emitted).length = chain.length → CornersFine real params chain)
  | [], emitted, h => by
    cases h
    exact ⟨le_rfl, fun _ => .nil⟩
  | [segment], emitted, h => by
    cases h
    exact ⟨le_rfl, fun _ => .single segment⟩
  | previous :: segment :: rest, emitted, h => by
    rw [filletChain_cons_cons] at h
    cases hgeometry : filletGeometry real params previous segment with
    | error e =>
      rw [hgeometry] at h
      cases h
    | ok geometry =>
      rw [hgeometry] at h
      cases geometry with
      | none =>
        cases hrest : filletChain real params (segment :: rest) with
        | error e =>
          rw [hrest] at h
          cases h
        | ok emitted' =>
          rw [hrest] at h
          cases h
          obtain ⟨hle, hfine⟩ := length_keptTraces_filletChain hrest
          have hlength : (keptTraces (.trace previous :: emitted')).length = (keptTraces emitted').length + 1 := rfl
          rw [hlength]
          simp only [length_cons] at hle hfine ⊢
          exact ⟨by omega, fun heq => .straight hgeometry (hfine (by omega))⟩
      | some geometry =>
        cases hrest : filletChain real params rest with
        | error e =>
          rw [hrest] at h
          cases h
        | ok emitted' =>
          rw [hrest] at h
          cases h
          obtain ⟨hle, hfine⟩ := length_keptTraces_filletChain hrest
          rw [keptTraces_append, keptTraces_emitFilletSegments]
          split
          · rename_i hleft
            simp only [length_append, length_cons, length_nil]
            exact ⟨by omega, fun heq => .arc hgeometry hleft (hfine (by omega))⟩
          · -- the first trace is dropped
            simp only [length_append, length_cons, length_nil]
            exact ⟨by omega, fun heq => absurd heq (by omega)⟩

theorem filletChain_of_noCorner : ∀ {chain : List (TraceSegment K)},
    (∀ previous ∈ chain, ∀ segment ∈ chain, filletGeometry real params previous segment = .ok none) →
      filletChain real params chain = .ok (chain.map .trace)
  | [], _ => rfl
  | [_], _ => rfl
  | previous :: segment :: rest, h => by
    have hrest : filletChain real params (segment :: rest) = .ok ((segment :: rest).map .trace) :=
      filletChain_of_noCorner fun p hp s hs => h p (mem_cons_of_mem _ hp) s (mem_cons_of_mem _ hs)
    rw [filletChain_cons_cons, h previous mem_cons_self segment
      (mem_cons_of_mem _ mem_cons_self), hrest]
    rfl

/-! ## The whole output -/

theorem filletTraces_eq_ok_iff {traces : List (TraceSegment K)} {emitted : List (Emitted K)} :
    filletTraces real params traces = .ok emitted ↔
      ∃ parts, List.Forall₂ (fun chain part => filletChain real params (orderChain real chain) = .ok part)
        (allChains real traces) parts ∧ emitted = parts.flatten := by
  have hparts : ∀ parts, (orderedChains real traces).mapM (filletChain real params) = .ok parts ↔
      List.Forall₂ (fun chain part => filletChain real params (orderChain real chain) = .ok part)
        (allChains real traces) parts := by
    intro parts
    rw [Lists.mapM_eq_ok_iff, orderedChains_eq, forall₂_map_left_iff]
  simp only [← hparts]
  unfold filletTraces
  cases hrun : (orderedChains real traces).mapM (filletChain real params) with
  | error e =>
    constructor
    · intro h
      cases h
    · rintro ⟨parts, hok, -⟩
      cases hok
  | ok parts =>
    constructor
    · intro h
      cases h
      exact ⟨parts, rfl, rfl⟩
    · rintro ⟨_, hok, rfl⟩
      cases hok
      rfl

theorem flatMap_keptTraces (parts : List (List (Emitted K))) :
    parts.flatMap keptTraces = keptTraces parts.flatten := by
  rw [keptTraces, filterMap_flatten, flatMap_def]
  rfl

theorem forall₂_pieceOf {traces turned pieces : List (TraceSegment K)}
    (hturned : List.Forall₂ SameCopper traces turned) (hpieces : List.Forall₂ PieceOf turned pieces) :
    List.Forall₂ PieceOf traces pieces := by
  induction hturned generalizing pieces with
  | nil =>
    cases hpieces
    exact .nil
  | cons hsame _ ih =>
    cases hpieces with
    | cons hpiece hrest => exact .cons (hsame.pieceOf hpiece) (ih hrest)

theorem exists_parts {chains : List (List (TraceSegment K))}
    (h : ∀ chain ∈ chains, WalksThrough real chain ∧ CornersFine real params (orderChain real chain)) :
    ∃ parts, List.Forall₂ (fun chain part => filletChain real params (orderChain real chain) = .ok part)
        chains parts ∧
      (∃ turned, turned.Perm chains.flatten ∧
        List.Forall₂ SameCopper turned (chains.map (orderChain real)).flatten) ∧
      List.Forall₂ PieceOf (chains.map (orderChain real)).flatten (keptTraces parts.flatten) := by
  induction chains with
  | nil => exact ⟨[], .nil, ⟨[], .nil, .nil⟩, .nil⟩
  | cons chain chains ih =>
    obtain ⟨hchain, hchains⟩ := forall_mem_cons.mp h
    obtain ⟨parts, hparts, ⟨turned, hperm, hturned⟩, hpieces⟩ := ih hchains
    obtain ⟨part, hpart, hpieces'⟩ := exists_filletChain real params hchain.2
    obtain ⟨turned', hperm', hturned'⟩ :=
      exists_turned_orderChain real ((length_orderChain_iff real chain).mpr hchain.1)
    refine ⟨part :: parts, .cons hpart hparts, ⟨turned' ++ turned, hperm'.append hperm, ?_⟩, ?_⟩
    · exact rel_append hturned' hturned
    · rw [flatten_cons, keptTraces_append]
      exact rel_append hpieces' hpieces

theorem map_segment_parts {chains : List (List (TraceSegment K))} {parts : List (List (Emitted K))}
    (hparts : List.Forall₂ (fun chain part => filletChain real params (orderChain real chain) = .ok part)
      chains parts)
    (h : ∀ chain ∈ chains, ∀ previous ∈ orderChain real chain, ∀ segment ∈ orderChain real chain,
      filletGeometry real params previous segment = .ok none) :
    parts.flatten.map Emitted.segment = (chains.map (orderChain real)).flatten := by
  induction hparts with
  | nil => rfl
  | cons hpart _ ih =>
    obtain ⟨hchain, hchains⟩ := forall_mem_cons.mp h
    rw [filletChain_of_noCorner real params hchain] at hpart
    cases hpart
    rw [flatten_cons, map_append, ih hchains, map_map, map_cons, flatten_cons]
    congr 1
    exact map_id _

/-- Functions of numbers that are right where the traces below need them: roundings of whole numbers, the root
of one, and the angle with cosine minus one. -/
def straightFunctions : RealFunctions ℚ where
  round3 := id
  round6 := id
  sqrt := id
  acos x := if x = -1 then 355 / 113 else 0
  tan := id
  sin := id
  cos := id
  atan2 _ y := y
  mod x _ := x
  pi := 355 / 113

/-- A trace with a branch in its middle. -/
def branchedTraces : List (TraceSegment ℚ) :=
  [traceOf "top" "N" (1 / 5) (0, 0) (1, 0), traceOf "top" "N" (1 / 5) (1, 0) (2, 0),
    traceOf "top" "N" (1 / 5) (1, 0) (1, 1)]

/-- The same without the branch, with its traces turned against each other. -/
def straightTraces : List (TraceSegment ℚ) :=
  [traceOf "top" "N" (1 / 5) (1, 0) (0, 0), traceOf "top" "N" (1 / 5) (2, 0) (1, 0)]

-- for `decide` below
attribute [local semireducible] Rat.add Rat.sub Rat.mul Rat.inv

end ZapTrace.Routing.Fillet
