import Mathlib.Analysis.SpecialFunctions.Trigonometric.Inverse
import Mathlib.Analysis.SpecialFunctions.Complex.Arg
import ZapTrace.Algo.FilletCopper

/-!
# Simple chains

A simple chain has traces along a list of different points. With exact functions and no rounding, its traces are
found as one chain, and that chain is put in order.

## Main results

* `SimpleChain.orderedChains_eq`: a simple chain is found as one chain
* `SimpleChain.orderChain_eq`: it is put in order
* `SimpleChain.connects_inOrder`: in order, its traces lead from its first point to its last
-/

set_option linter.unusedSectionVars false

namespace ZapTrace.Routing.Fillet

open Prod
open List hiding getElem?_eq_some_iff map_id
open Plane Option Dict

noncomputable section Chains

/-- The functions of `math`, exact, and no rounding. -/
def exactFunctions : RealFunctions ℝ where
  round3 := id
  round6 := id
  sqrt := Real.sqrt
  acos := Real.arccos
  tan := Real.tan
  sin := Real.sin
  cos := Real.cos
  atan2 y x := Complex.arg ⟨x, y⟩
  mod a b := a - b * ⌊a / b⌋
  pi := Real.pi

/-- Traces that lead from a point to another. -/
def Connects : Point ℝ → List (TraceSegment ℝ) → Point ℝ → Prop
  | p, [], q => p = q
  | p, s :: rest, q => s.start = p ∧ Connects s.stop rest q
variable {p q : Point ℝ}

theorem connects_append {first second : List (TraceSegment ℝ)} :
    Connects p (first ++ second) q ↔ ∃ m, Connects p first m ∧ Connects m second q := by
  induction first generalizing p with
  | nil => simp [Connects]
  | cons s rest ih =>
    simp only [cons_append, Connects, ih]
    constructor
    · rintro ⟨hstart, m, hrest, hsecond⟩
      exact ⟨m, ⟨hstart, hrest⟩, hsecond⟩
    · rintro ⟨m, ⟨hstart, hrest⟩, hsecond⟩
      exact ⟨hstart, m, hrest, hsecond⟩

variable {traces : List (TraceSegment ℝ)}

theorem Connects.eq_of_ne_nil {p p' q q' : Point ℝ} (h : Connects p traces q) (h' : Connects p' traces q')
    (hne : traces ≠ []) : p = p' ∧ q = q' := by
  induction traces generalizing p p' with
  | nil => exact absurd rfl hne
  | cons s rest ih =>
    obtain ⟨hstart, hrest⟩ := h
    obtain ⟨hstart', hrest'⟩ := h'
    refine ⟨hstart.symm.trans hstart', ?_⟩
    cases rest with
    | nil => exact hrest.symm.trans hrest'
    | cons t rest => exact (ih hrest hrest' (cons_ne_nil _ _)).2

/-! ## Simple chains -/

/-- A trace has two points as its ends. -/
def Joins (s : TraceSegment ℝ) (p q : Point ℝ) : Prop := (s.start = p ∧ s.stop = q) ∨ (s.start = q ∧ s.stop = p)

/-- The traces of one net on one layer along a list of different points. A single trace leads from the first
point to the second. -/
structure SimpleChain (vertices : List (Point ℝ)) (traces : List (TraceSegment ℝ)) : Prop where
  length_eq : vertices.length = traces.length + 1
  nodup : vertices.Nodup
  joins : ∀ i s p q, traces[i]? = some s → vertices[i]? = some p → vertices[i + 1]? = some q → Joins s p q
  single : ∀ s, traces = [s] → vertices = [s.start, s.stop]
  net : ∃ layer net_id, net_id ≠ "" ∧ ∀ s ∈ traces, s.layer = layer ∧ s.net_id = net_id

def turnedTo (p : Point ℝ) (s : TraceSegment ℝ) : TraceSegment ℝ := if s.start = p then s else reversedSeg s

/-- The traces of a chain, each turned to start where the one before stops. -/
def inOrder (vertices : List (Point ℝ)) (traces : List (TraceSegment ℝ)) : List (TraceSegment ℝ) :=
  if traces.length ≤ 1 then traces else zipWith turnedTo vertices traces

theorem endpointKey_exact (p : Point ℝ) (layer : String) : endpointKey exactFunctions p layer = (p.1, p.2, layer) :=
  rfl

theorem endpointKey_inj {layer layer' : String} :
    endpointKey exactFunctions p layer = endpointKey exactFunctions q layer' ↔ p = q ∧ layer = layer' := by
  simp only [endpointKey_exact, Prod.ext_iff]
  tauto

namespace SimpleChain

variable {vertices : List (Point ℝ)} {traces : List (TraceSegment ℝ)}
variable {s : TraceSegment ℝ}

theorem exists_ends (h : SimpleChain vertices traces) {i : ℕ} (hs : traces[i]? = some s) :
    ∃ p q, vertices[i]? = some p ∧ vertices[i + 1]? = some q ∧ Joins s p q ∧ p ≠ q := by
  have hi : i < traces.length := (List.getElem?_eq_some_iff.mp hs).1
  have hlt : i < vertices.length := by rw [h.length_eq]; omega
  have hlt' : i + 1 < vertices.length := by rw [h.length_eq]; omega
  have hp := getElem?_eq_getElem hlt
  have hq := getElem?_eq_getElem hlt'
  refine ⟨_, _, hp, hq, h.joins i s _ _ hs hp hq, fun heq => ?_⟩
  have := (List.Nodup.getElem_inj_iff h.nodup).mp heq
  omega

theorem mem_ends_iff (h : SimpleChain vertices traces) {i j : ℕ} {p : Point ℝ} (hs : traces[i]? = some s)
    (hp : vertices[j]? = some p) : (s.start = p ∨ s.stop = p) ↔ j = i ∨ j = i + 1 := by
  obtain ⟨a, b, ha, hb, hjoins, hne⟩ := h.exists_ends hs
  have hsame : ∀ {k : ℕ} {c : Point ℝ}, vertices[k]? = some c → (c = p ↔ k = j) := by
    intro k c hc
    constructor
    · rintro rfl
      have hk := (List.getElem?_eq_some_iff.mp hc).1
      exact (getElem?_inj hk h.nodup).mp (hc.trans hp.symm)
    · rintro rfl
      exact some.inj (hc.symm.trans hp)
  have ha' := hsame ha
  have hb' := hsame hb
  rcases hjoins with ⟨hstart, hstop⟩ | ⟨hstart, hstop⟩
  · rw [hstart, hstop, ha', hb']
    tauto
  · rw [hstart, hstop, ha', hb']
    tauto

/-! ## The chain is found -/

theorem mem_endpointMap_iff {group : List (TraceSegment ℝ)} {key : EndpointKey ℝ} {m : ℕ} :
    m ∈ endpointMap exactFunctions group key ↔ ∃ s, group[m]? = some s ∧ s.net_id ≠ "" ∧
      (endpointKey exactFunctions s.start s.layer = key ∨ endpointKey exactFunctions s.stop s.layer = key) := by
  unfold endpointMap
  rw [mem_flatMap]
  constructor
  · rintro ⟨⟨s, i⟩, hmem, hm⟩
    dsimp only at hm
    split at hm
    · cases hm
    · rename_i hnet
      obtain ⟨k, hk, rfl⟩ := mem_map.mp hm
      obtain ⟨hk, hkey⟩ := mem_filter.mp hk
      have hkey := of_decide_eq_true hkey
      refine ⟨s, mem_zipIdx_iff_getElem?.mp hmem, hnet, ?_⟩
      simp only [mem_cons, not_mem_nil, or_false] at hk
      rcases hk with rfl | rfl
      · exact .inl hkey
      · exact .inr hkey
  · rintro ⟨s, hs, hnet, hkey⟩
    refine ⟨(s, m), mem_zipIdx_iff_getElem?.mpr hs, ?_⟩
    dsimp only
    rw [if_neg hnet]
    refine mem_map.mpr ⟨key, mem_filter.mpr ⟨?_, by simp⟩, rfl⟩
    rcases hkey with rfl | rfl
    · exact .head _
    · exact .tail _ (.head _)

theorem mem_neighbours_iff (h : SimpleChain vertices traces) {i m : ℕ} (hi : i < traces.length) :
    m ∈ neighbours exactFunctions traces i ↔ m < traces.length ∧ m ≤ i + 1 ∧ i ≤ m + 1 := by
  obtain ⟨layer, net_id, hne, hnet⟩ := h.net
  have hs := getElem?_eq_getElem hi
  generalize traces[i] = s at hs
  obtain ⟨p, q, hp, hq, hjoins, -⟩ := h.exists_ends hs
  have hkey : ∀ {t u : TraceSegment ℝ} (a : Point ℝ), t ∈ traces → u ∈ traces →
      (endpointKey exactFunctions t.start t.layer = endpointKey exactFunctions a u.layer ∨
        endpointKey exactFunctions t.stop t.layer = endpointKey exactFunctions a u.layer ↔
          t.start = a ∨ t.stop = a) := by
    intro t u a ht hu
    rw [endpointKey_inj, endpointKey_inj, (hnet t ht).1, (hnet u hu).1]
    tauto
  have hmem : m ∈ neighbours exactFunctions traces i ↔
      ∃ t, traces[m]? = some t ∧ ((t.start = s.start ∨ t.stop = s.start) ∨ (t.start = s.stop ∨ t.stop = s.stop)) := by
    unfold neighbours
    rw [hs]
    dsimp only
    rw [mem_append, mem_endpointMap_iff, mem_endpointMap_iff, ← exists_or]
    refine exists_congr fun t => ?_
    rw [← and_or_left]
    refine and_congr_right fun ht => ?_
    have htmem := mem_of_getElem? ht
    have hsmem := mem_of_getElem? hs
    rw [hkey s.start htmem hsmem, hkey s.stop htmem hsmem]
    have : t.net_id ≠ "" := (hnet t htmem).2 ▸ hne
    tauto
  have hends : ∀ t : TraceSegment ℝ, (t.start = s.start ∨ t.stop = s.start) ∨ (t.start = s.stop ∨ t.stop = s.stop) ↔
      (t.start = p ∨ t.stop = p) ∨ (t.start = q ∨ t.stop = q) := by
    intro t
    rcases hjoins with ⟨rfl, rfl⟩ | ⟨rfl, rfl⟩
    · rfl
    · exact or_comm
  rw [hmem]
  constructor
  · rintro ⟨t, ht, hshare⟩
    rw [hends, h.mem_ends_iff ht hp, h.mem_ends_iff ht hq] at hshare
    exact ⟨(List.getElem?_eq_some_iff.mp ht).1, by omega, by omega⟩
  · rintro ⟨hm, hle, hge⟩
    have ht := getElem?_eq_getElem hm
    refine ⟨_, ht, ?_⟩
    rw [hends, h.mem_ends_iff ht hp, h.mem_ends_iff ht hq]
    omega

theorem orderedChains_eq (h : SimpleChain vertices traces) (hne : traces ≠ []) :
    orderedChains exactFunctions traces = [orderChain exactFunctions traces] := by
  obtain ⟨layer, net_id, -, hnet⟩ := h.net
  have hpos : 0 < traces.length := length_pos_iff.mpr hne
  have hgroups : netGroups traces = [traces] := by
    rw [netGroups, values_groupBy_of_key hne (fun s hs => (hnet s hs).2), List.map_id]
  have hchains : netChains exactFunctions traces = [traces] := by
    rw [netChains, Walk.groups_of_path hpos]
    · rw [map_singleton, Lists.filterMap_range]
    · exact fun i hi m hm => ((h.mem_neighbours_iff hi).mp hm).2.1
    · exact mem_neighbours_lt exactFunctions traces
    · exact fun i hi => (h.mem_neighbours_iff (by omega)).mpr ⟨hi, le_rfl, by omega⟩
  rw [orderedChains, hgroups, flatMap_singleton, hchains, map_singleton]

/-! ## The chain is put in order -/

theorem getElem?_inOrder (hlong : ¬ traces.length ≤ 1) {i : ℕ} {p : Point ℝ} (hs : traces[i]? = some s)
    (hp : vertices[i]? = some p) : (inOrder vertices traces)[i]? = some (turnedTo p s) := by
  rw [inOrder, if_neg hlong, getElem?_zipWith, hs, hp]

theorem length_inOrder (h : SimpleChain vertices traces) : (inOrder vertices traces).length = traces.length := by
  unfold inOrder
  split
  · rfl
  · rw [length_zipWith, h.length_eq]
    omega

variable {p q : Point ℝ}

theorem turnedTo_spec (hjoins : Joins s p q) (hne : p ≠ q) : (turnedTo p s).start = p ∧ (turnedTo p s).stop = q := by
  unfold turnedTo
  rcases hjoins with ⟨hstart, hstop⟩ | ⟨hstart, hstop⟩
  · rw [if_pos hstart]
    exact ⟨hstart, hstop⟩
  · rw [if_neg (by rw [hstart]; exact hne.symm)]
    exact ⟨hstop, hstart⟩

theorem nextChainSegment_eq (h : SimpleChain vertices traces) {i : ℕ} {used : List ℕ} (hused : ∀ j, j ∈ used ↔ j < i)
    (hs : traces[i]? = some s) (hp : vertices[i]? = some p) (hq : vertices[i + 1]? = some q) {layer : String}
    (hlayer : s.layer = layer) :
    nextChainSegment exactFunctions traces used (endpointKey exactFunctions p layer) =
      some (i, turnedTo p s, endpointKey exactFunctions q layer) := by
  obtain ⟨p', q', hp', hq', hjoins, hne⟩ := h.exists_ends hs
  obtain rfl : p' = p := some.inj (hp'.symm.trans hp)
  obtain rfl : q' = q := some.inj (hq'.symm.trans hq)
  have hi := (List.getElem?_eq_some_iff.mp hs).1
  unfold nextChainSegment
  -- the traces before are used
  have hsplit : traces.zipIdx = (traces.take i).zipIdx ++ (s, i) :: (traces.drop (i + 1)).zipIdx (i + 1) := by
    conv_lhs => rw [← take_append_drop i traces, zipIdx_append, length_take_of_le hi.le]
    rw [drop_eq_getElem_cons hi, zipIdx_cons, Nat.zero_add, (List.getElem?_eq_some_iff.mp hs).2]
  rw [hsplit, findSome?_append, findSome?_eq_none_iff.mpr, none_or, findSome?_cons]
  · have hnew : i ∉ used := fun hmem => lt_irrefl i ((hused i).mp hmem)
    dsimp only
    rw [if_neg hnew]
    unfold turnedTo
    rcases hjoins with ⟨hstart, hstop⟩ | ⟨hstart, hstop⟩
    · rw [if_pos (endpointKey_inj.mpr ⟨hstart, hlayer⟩), if_pos hstart, hstop, hlayer]
    · have hother : s.start ≠ p' := by rw [hstart]; exact hne.symm
      rw [if_neg fun hkey => hother (endpointKey_inj.mp hkey).1, if_pos (endpointKey_inj.mpr ⟨hstop, hlayer⟩),
        if_neg hother, hstart, hlayer]
  · rintro ⟨t, j⟩ hmem
    have hj := (mem_zipIdx hmem).2.1
    rw [length_take_of_le hi.le, Nat.zero_add] at hj
    exact if_pos ((hused j).mpr hj)

theorem orderFrom_eq (h : SimpleChain vertices traces) (hlong : ¬ traces.length ≤ 1) {k i : ℕ} {used : List ℕ}
    {p : Point ℝ} {layer : String} (hlayer : ∀ s ∈ traces, s.layer = layer) (hk : i + k = traces.length)
    (hused : ∀ j, j ∈ used ↔ j < i) (hp : vertices[i]? = some p) :
    orderFrom exactFunctions traces k used (endpointKey exactFunctions p layer) = (inOrder vertices traces).drop i := by
  induction k generalizing i used p with
  | zero =>
    rw [drop_of_length_le (by rw [h.length_inOrder]; omega)]
    rfl
  | succ k ih =>
    have hi : i < traces.length := by omega
    have hs := getElem?_eq_getElem hi
    generalize traces[i] = s at hs
    obtain ⟨p', q, hp', hq, -, -⟩ := h.exists_ends hs
    obtain rfl : p' = p := some.inj (hp'.symm.trans hp)
    have hdrop : (inOrder vertices traces).drop i =
        turnedTo p' s :: (inOrder vertices traces).drop (i + 1) := by
      have hget := getElem?_inOrder hlong hs hp
      obtain ⟨hlt, hget⟩ := List.getElem?_eq_some_iff.mp hget
      rw [drop_eq_getElem_cons hlt, hget]
    rw [orderFrom, h.nextChainSegment_eq hused hs hp hq (hlayer s (mem_of_getElem? hs)), hdrop]
    refine congrArg (turnedTo p' s :: ·) (ih (by omega) (fun j => ?_) hq)
    rw [mem_cons, hused]
    omega

def endsFrom (traces : List (TraceSegment ℝ)) (n : ℕ) : List (EndpointKey ℝ × ℕ × Bool) :=
  (traces.zipIdx n).flatMap fun (segment, index) =>
    [(endpointKey exactFunctions segment.start segment.layer, (index, true)),
      (endpointKey exactFunctions segment.stop segment.layer, (index, false))]

theorem mem_endsFrom {n : ℕ} {entry : EndpointKey ℝ × ℕ × Bool} (hmem : entry ∈ endsFrom traces n) :
    ∃ s, n ≤ entry.2.1 ∧ traces[entry.2.1 - n]? = some s ∧
      (endpointKey exactFunctions s.start s.layer = entry.1 ∨ endpointKey exactFunctions s.stop s.layer = entry.1) := by
  obtain ⟨⟨s, m⟩, hs, hentry⟩ := mem_flatMap.mp hmem
  obtain ⟨hle, hs⟩ := mem_zipIdx_iff_le_and_getElem?_sub.mp hs
  simp only [mem_cons, not_mem_nil, or_false] at hentry
  rcases hentry with rfl | rfl
  · exact ⟨s, hle, hs, .inl rfl⟩
  · exact ⟨s, hle, hs, .inr rfl⟩

theorem chainStart_eq {s t : TraceSegment ℝ} {rest : List (TraceSegment ℝ)} (h : SimpleChain vertices (s :: t :: rest))
    (hp : vertices[0]? = some p) (hq : vertices[1]? = some q) :
    chainStart (chainEndpointInfo exactFunctions (s :: t :: rest)) = (0, decide (s.start = p)) := by
  obtain ⟨layer, net_id, -, hnet⟩ := h.net
  have hlayer : ∀ u ∈ s :: t :: rest, u.layer = layer := fun u hu => (hnet u hu).1
  have hls := hlayer s (.head _)
  have hjoins : Joins s p q := h.joins 0 s p q rfl hp hq
  have hne : p ≠ q := by
    obtain ⟨p', q', hp', hq', -, hne⟩ := h.exists_ends (i := 0) (s := s) rfl
    rwa [some.inj (hp'.symm.trans hp), some.inj (hq'.symm.trans hq)] at hne
  have hends : chainEndpointInfo exactFunctions (s :: t :: rest) =
      groupBy fst snd ((endpointKey exactFunctions s.start layer, (0, true)) ::
        (endpointKey exactFunctions s.stop layer, (0, false)) :: endsFrom (t :: rest) 1) := by
    rw [← hls]
    rfl
  -- the first point is an end of no other trace, the second one is
  have hfree : (endsFrom (t :: rest) 1).filter (fun entry => entry.1 = endpointKey exactFunctions p layer) = [] := by
    rw [filter_eq_nil_iff]
    intro entry hentry hkey
    obtain ⟨u, hle, hu, hend⟩ := mem_endsFrom hentry
    have hu' : (s :: t :: rest)[entry.2.1]? = some u := by
      obtain ⟨m, hm⟩ := Nat.exists_eq_add_of_le' hle
      rw [hm] at hu ⊢
      exact hu
    rw [of_decide_eq_true hkey, endpointKey_inj, endpointKey_inj] at hend
    have := (h.mem_ends_iff hu' hp).mp (hend.imp And.left And.left)
    omega
  have hshared : (endsFrom (t :: rest) 1).filter (fun entry => entry.1 = endpointKey exactFunctions q layer) ≠ [] := by
    intro hnil
    rw [filter_eq_nil_iff] at hnil
    have hlt := hlayer t (.tail _ (.head _))
    rcases (h.mem_ends_iff (i := 1) (s := t) rfl hq).mpr (.inl rfl) with hstart | hstop
    · refine hnil (endpointKey exactFunctions t.start t.layer, (1, true)) (.head _) ?_
      simp [hstart, hlt]
    · refine hnil (endpointKey exactFunctions t.stop t.layer, (1, false)) (.tail _ (.head _)) ?_
      simp [hstop, hlt]
  have hkeys : endpointKey exactFunctions p layer ≠ endpointKey exactFunctions q layer :=
    fun heq => hne (endpointKey_inj.mp heq).1
  have hdiffer : endpointKey exactFunctions s.stop layer ≠ endpointKey exactFunctions s.start layer := by
    rcases hjoins with ⟨hstart, hstop⟩ | ⟨hstart, hstop⟩
    · rw [hstart, hstop]
      exact hkeys.symm
    · rw [hstart, hstop]
      exact hkeys
  unfold chainStart
  rw [hends]
  generalize endsFrom (t :: rest) 1 = others at hfree hshared
  obtain ⟨keys, hall⟩ := keys_groupBy_cons_cons fst snd
    (x := (endpointKey exactFunctions s.start layer, (0, true)))
    (y := (endpointKey exactFunctions s.stop layer, (0, false))) hdiffer others
  rw [values_eq_filterMap, hall]
  rcases hjoins with ⟨hstart, hstop⟩ | ⟨hstart, hstop⟩
  · have hvalue : (groupBy fst snd ((endpointKey exactFunctions s.start layer, (0, true)) ::
        (endpointKey exactFunctions s.stop layer, (0, false)) :: others)).get?
          (endpointKey exactFunctions s.start layer) = some [(0, true)] := by
      rw [get?_groupBy, hstart, hstop]
      simp [hkeys.symm, hfree]
    rw [filterMap_cons_some hvalue]
    simp [hstart]
  · -- the first key has two ends, the second one is free
    obtain ⟨other, more, hmore⟩ := exists_cons_of_ne_nil hshared
    have hvalue : (groupBy fst snd ((endpointKey exactFunctions s.start layer, (0, true)) ::
        (endpointKey exactFunctions s.stop layer, (0, false)) :: others)).get?
          (endpointKey exactFunctions s.start layer) = some ((0, true) :: other.2 :: more.map snd) := by
      rw [get?_groupBy, hstart, hstop]
      simp [hkeys, hmore]
    have hvalue' : (groupBy fst snd ((endpointKey exactFunctions s.start layer, (0, true)) ::
        (endpointKey exactFunctions s.stop layer, (0, false)) :: others)).get?
          (endpointKey exactFunctions s.stop layer) = some [(0, false)] := by
      rw [get?_groupBy, hstart, hstop]
      simp [hkeys.symm, hfree]
    rw [filterMap_cons_some hvalue, filterMap_cons_some hvalue']
    simp [hstart, hne.symm]

theorem orderChain_eq (h : SimpleChain vertices traces) :
    orderChain exactFunctions traces = inOrder vertices traces := by
  by_cases hlong : traces.length ≤ 1
  · rw [orderChain, if_pos hlong, inOrder, if_pos hlong]
  · obtain ⟨s, t, rest, rfl⟩ : ∃ s t rest, traces = s :: t :: rest := by
      cases traces with
      | nil => exact absurd (Nat.zero_le 1) hlong
      | cons s rest =>
        cases rest with
        | nil => exact absurd le_rfl hlong
        | cons t rest => exact ⟨s, t, rest, rfl⟩
    obtain ⟨layer, net_id, -, hnet⟩ := h.net
    obtain ⟨p, q, hp, hq, hjoins, hne⟩ := h.exists_ends (i := 0) (s := s) rfl
    have hfirst : firstSegment exactFunctions (s :: t :: rest) = some (0, turnedTo p s) := by
      unfold firstSegment turnedTo
      rw [h.chainStart_eq hp hq]
      by_cases hstart : s.start = p <;> simp [hstart]
    have hturned : (turnedTo p s).layer = layer := by
      unfold turnedTo
      split
      · exact (hnet s (.head _)).1
      · exact (hnet s (.head _)).1
    rw [orderChain, if_neg hlong, hfirst]
    dsimp only
    rw [(turnedTo_spec hjoins hne).2, hturned, h.orderFrom_eq hlong (i := 1) (fun u hu => (hnet u hu).1)]
    · have hget := getElem?_inOrder hlong (i := 0) (s := s) rfl hp
      obtain ⟨hlt, hget⟩ := List.getElem?_eq_some_iff.mp hget
      have hdrop := drop_eq_getElem_cons hlt
      rw [drop_zero, hget] at hdrop
      exact hdrop.symm
    · simp only [length_cons]
      omega
    · intro j
      rw [mem_singleton]
      omega
    · exact hq

end SimpleChain

/-- In order, the traces of a simple chain lead from its first point to its last. -/
theorem SimpleChain.connects_inOrder {vertices : List (Point ℝ)} (h : SimpleChain vertices traces)
    (hp : vertices.head? = some p) (hq : vertices.getLast? = some q) : Connects p (inOrder vertices traces) q := by
  by_cases hlong : traces.length ≤ 1
  · rw [inOrder, if_pos hlong]
    cases traces with
    | nil =>
      obtain ⟨v, rfl⟩ := length_eq_one_iff.mp h.length_eq
      cases hp
      cases hq
      rfl
    | cons s rest =>
      obtain rfl : rest = [] := length_eq_zero_iff.mp (by simpa using hlong)
      obtain rfl := h.single s rfl
      cases hp
      cases hq
      exact ⟨rfl, rfl⟩
  · -- from any point on, the traces lead to the last
    have hfrom : ∀ k i p, i + k = traces.length → vertices[i]? = some p →
        Connects p ((inOrder vertices traces).drop i) q := by
      intro k
      induction k with
      | zero =>
        intro i p hi hpi
        rw [drop_of_length_le (by rw [h.length_inOrder]; omega)]
        rw [getLast?_eq_getElem?, h.length_eq, Nat.add_sub_cancel, ← hi, Nat.add_zero, hpi] at hq
        exact some.inj hq
      | succ k ih =>
        intro i p hi hpi
        have hlt : i < traces.length := by omega
        have hs := getElem?_eq_getElem hlt
        obtain ⟨p', q', hp', hq', hjoins, hne⟩ := h.exists_ends hs
        obtain rfl : p' = p := some.inj (hp'.symm.trans hpi)
        obtain ⟨hlt', hget⟩ := List.getElem?_eq_some_iff.mp (getElem?_inOrder hlong hs hp')
        obtain ⟨hstart, hstop⟩ := turnedTo_spec hjoins hne
        rw [drop_eq_getElem_cons hlt', hget]
        refine ⟨hstart, ?_⟩
        rw [hstop]
        exact ih (i + 1) q' (by omega) hq'
    have hall := hfrom traces.length 0 p (Nat.zero_add _) (by rw [← head?_eq_getElem?, hp])
    rwa [drop_zero] at hall

theorem SimpleChain.exists_head_getLast {vertices : List (Point ℝ)} (h : SimpleChain vertices traces) :
    ∃ p q, vertices.head? = some p ∧ vertices.getLast? = some q := by
  have hne : vertices ≠ [] := by
    rintro rfl
    exact absurd h.length_eq (Nat.succ_ne_zero _).symm
  exact ⟨_, _, head?_eq_some_head hne, getLast?_eq_some_getLast hne⟩

end Chains

end ZapTrace.Routing.Fillet
