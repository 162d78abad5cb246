import Std.Data.String.ToNat
import ZapTrace.Core.Routing

/-!
# Copper layers in the exports

Routers name the layer of a trace by its number, by the side of the board, or as KiCad does. Each export
reads these names for itself. The Gerber file of a side draws the traces with the name of that side; the
KiCad export maps names to layers of KiCad.

## Main results

* `layersAgree_iff`: which routings the exports agree on
-/

namespace ZapTrace.Routing.Export

open String hiding append_assoc
open List

variable {K : Type}

/-! ## Names -/

/-- The physical layer that a name stands for, on a board with `n` layers. -/
inductive OnLayer (n : ℕ) : String → ℕ → Prop
  | indexed {i : ℕ} (h : i < n) : OnLayer n ("layer_" ++ toString i) i
  | top : OnLayer n "top" 0
  | bottom : OnLayer n "bottom" (n - 1)
  | front : OnLayer n "F.Cu" 0
  | back : OnLayer n "B.Cu" (n - 1)
  | inner {i : ℕ} (hi : 0 < i) (h : i < n - 1) : OnLayer n ("In" ++ toString i ++ ".Cu") i

/-! ## The exports -/

def layerTraces (traces : List (TraceSegment K)) (layer_name : String) : List (TraceSegment K) :=
  traces.filter fun seg => seg.layer = layer_name

def layerName (index num_layers : ℕ) : String :=
  if index = 0 then "F.Cu"
  else if num_layers ≤ 2 then "B.Cu"
  else if num_layers - 1 ≤ index then "B.Cu"
  else "In" ++ toString index ++ ".Cu"

/-- A character of a layer name, in the form in which names are compared. -/
def normalizeChar (c : Char) : Char := if c = '-' ∨ c = ' ' then '_' else c.toLower

def normalizeName (layer : String) : String := ofList (layer.toList.map normalizeChar)

def kicadLayerName (layer : String) (num_layers : ℕ) : String :=
  let normalized := normalizeName layer
  if normalized ∈ ["f.cu", "top", "layer_0"] then "F.Cu"
  else if normalized ∈ ["b.cu", "bottom", "layer_1"] then layerName 1 num_layers
  else
    match (range num_layers).find? fun i =>
        normalized = "layer_" ++ toString i ∨ normalized = "in" ++ toString i ++ ".cu" with
    | some i => layerName i num_layers
    | none => layer

/-- The exports agree on the physical layer of every trace: the Gerber files draw the traces of their side,
the KiCad export puts what is on the bottom on `B.Cu`, and it keeps physical layers apart. -/
structure LayersAgree (n : ℕ) (traces : List (TraceSegment K)) : Prop where
  gerber : ∀ t ∈ traces, ∀ i, OnLayer n t.layer i →
    (t ∈ layerTraces traces "top" ↔ i = 0) ∧ (t ∈ layerTraces traces "bottom" ↔ i = n - 1)
  kicad_bottom : ∀ t ∈ traces, OnLayer n t.layer (n - 1) → kicadLayerName t.layer n = "B.Cu"
  kicad_distinct : ∀ t ∈ traces, ∀ u ∈ traces, ∀ i j, OnLayer n t.layer i → OnLayer n u.layer j → i ≠ j →
    kicadLayerName t.layer n ≠ kicadLayerName u.layer n

/-! ## Numbers in names -/

theorem numbered_inj {name : String} {i j : ℕ} (h : name ++ toString i = name ++ toString j) : i = j := by
  have hlist := congrArg toList h
  rw [toList_append, toList_append] at hlist
  exact Nat.repr_injective (toList_inj.mp (append_cancel_left hlist))

theorem numbered_inj' {before after : String} {i j : ℕ}
    (h : before ++ toString i ++ after = before ++ toString j ++ after) : i = j := by
  have hlist := congrArg toList h
  simp only [toList_append] at hlist
  have hnumber := append_cancel_left (append_cancel_right hlist)
  exact Nat.repr_injective (toList_inj.mp hnumber)

theorem ne_of_head {first second : String} (h : first.toList.head? ≠ second.toList.head?) : first ≠ second :=
  fun heq => h (congrArg (fun name => name.toList.head?) heq)

theorem normalizeChar_of_isDigit {c : Char} (h : c.isDigit) : normalizeChar c = c := by
  have hle : c.val ≤ '9'.val := by
    unfold Char.isDigit at h
    simp only [ge_iff_le, Bool.and_eq_true, decide_eq_true_eq] at h
    exact h.2
  have hlower : c.toLower = c := by
    unfold Char.toLower
    rw [dif_neg]
    rintro ⟨hupper, -⟩
    exact absurd (UInt32.le_trans hupper hle) (by decide)
  have hne : ¬ (c = '-' ∨ c = ' ') := by
    rintro (rfl | rfl) <;> cases h
  rw [normalizeChar, if_neg hne, hlower]

theorem normalizeName_numbered (before after : String) (i : ℕ) :
    normalizeName (before ++ toString i ++ after) =
      normalizeName before ++ toString i ++ normalizeName after := by
  have hdigits : (toString i).toList.map normalizeChar = (toString i).toList := by
    conv_rhs => rw [← map_id (toString i).toList]
    apply map_congr_left
    intro c hc
    rw [Nat.toString_eq_repr, Nat.toList_repr] at hc
    exact normalizeChar_of_isDigit (Nat.isDigit_of_mem_toDigits (by decide) (by decide) hc)
  apply toList_inj.mp
  simp only [normalizeName, toList_append, toList_ofList, map_append, hdigits]

/-! ## Layers of KiCad -/

theorem layerName_zero (n : ℕ) : layerName 0 n = "F.Cu" := rfl

theorem layerName_last {n : ℕ} (hn : 2 ≤ n) : layerName (n - 1) n = "B.Cu" := by
  rw [layerName, if_neg (by omega)]
  split
  · rfl
  · rw [if_pos le_rfl]

theorem layerName_inner {i n : ℕ} (hi : 0 < i) (h : i < n - 1) :
    layerName i n = "In" ++ toString i ++ ".Cu" := by
  rw [layerName, if_neg (by omega), if_neg (by omega), if_neg (by omega)]

theorem inner_ne (i : ℕ) : "In" ++ toString i ++ ".Cu" ≠ "F.Cu" ∧ "In" ++ toString i ++ ".Cu" ≠ "B.Cu" := by
  have hhead : ("In" ++ toString i ++ ".Cu").toList.head? = some 'I' := by
    rw [toList_append, toList_append]
    rfl
  constructor
  · apply ne_of_head
    rw [hhead]
    decide
  · apply ne_of_head
    rw [hhead]
    decide

theorem layerName_inj {i j n : ℕ} (hn : 2 ≤ n) (hi : i < n) (hj : j < n) (h : layerName i n = layerName j n) :
    i = j := by
  have hcases : ∀ k, k < n → k = 0 ∨ k = n - 1 ∨ 0 < k ∧ k < n - 1 := by omega
  rcases hcases i hi with rfl | rfl | ⟨hi, hi'⟩ <;> rcases hcases j hj with rfl | rfl | ⟨hj, hj'⟩
  · rfl
  · rw [layerName_zero, layerName_last hn] at h
    exact absurd h (by decide)
  · rw [layerName_zero, layerName_inner hj hj'] at h
    exact absurd h.symm (inner_ne j).1
  · rw [layerName_zero, layerName_last hn] at h
    exact absurd h (by decide)
  · rfl
  · rw [layerName_last hn, layerName_inner hj hj'] at h
    exact absurd h.symm (inner_ne j).2
  · rw [layerName_zero, layerName_inner hi hi'] at h
    exact absurd h (inner_ne i).1
  · rw [layerName_last hn, layerName_inner hi hi'] at h
    exact absurd h (inner_ne i).2
  · rw [layerName_inner hi hi', layerName_inner hj hj'] at h
    exact numbered_inj' h

theorem find_layer (normalized : String) {i n : ℕ} (hi : i < n)
    (h : ∀ j, normalized = "layer_" ++ toString j ∨ normalized = "in" ++ toString j ++ ".cu" ↔ j = i) :
    ((range n).find? fun j =>
      normalized = "layer_" ++ toString j ∨ normalized = "in" ++ toString j ++ ".cu") = some i := by
  rw [find?_range_eq_some]
  refine ⟨decide_eq_true ((h i).mpr rfl), mem_range.mpr hi, fun j hj => ?_⟩
  rw [Bool.not_eq_true', decide_eq_false_iff_not, h j]
  exact hj.ne

theorem head_layer (i : ℕ) : ("layer_" ++ toString i).toList.head? = some 'l' := by
  rw [toList_append]
  rfl

theorem head_inner (i : ℕ) : ("in" ++ toString i ++ ".cu").toList.head? = some 'i' := by
  rw [toList_append, toList_append]
  rfl

theorem kicadLayerName_indexed {i n : ℕ} (hi : i < n) :
    kicadLayerName ("layer_" ++ toString i) n = layerName i n := by
  have hnormal : normalizeName ("layer_" ++ toString i) = "layer_" ++ toString i := by
    have h := normalizeName_numbered "layer_" "" i
    rwa [append_empty, show normalizeName "" = "" from rfl, append_empty,
      show normalizeName "layer_" = "layer_" from rfl] at h
  have hfind := find_layer ("layer_" ++ toString i) hi fun j => by
    constructor
    · rintro (heq | heq)
      · exact (numbered_inj heq).symm
      · exact absurd heq (ne_of_head (by rw [head_layer, head_inner]; decide))
    · rintro rfl
      exact .inl rfl
  unfold kicadLayerName
  rw [hnormal]
  dsimp only
  rw [hfind]
  dsimp only
  split
  · -- the front layer is number 0
    rename_i hfront
    simp only [mem_cons, not_mem_nil, or_false] at hfront
    rcases hfront with heq | heq | heq
    · exact absurd heq (ne_of_head (by rw [head_layer]; decide))
    · exact absurd heq (ne_of_head (by rw [head_layer]; decide))
    · rw [numbered_inj (heq.trans (show "layer_0" = "layer_" ++ toString 0 from rfl))]
      rfl
  · split
    · rename_i hsecond
      simp only [mem_cons, not_mem_nil, or_false] at hsecond
      rcases hsecond with heq | heq | heq
      · exact absurd heq (ne_of_head (by rw [head_layer]; decide))
      · exact absurd heq (ne_of_head (by rw [head_layer]; decide))
      · rw [numbered_inj (heq.trans (show "layer_1" = "layer_" ++ toString 1 from rfl))]
    · rfl

theorem kicadLayerName_inner {i n : ℕ} (hi : i < n) :
    kicadLayerName ("In" ++ toString i ++ ".Cu") n = layerName i n := by
  have hnormal : normalizeName ("In" ++ toString i ++ ".Cu") = "in" ++ toString i ++ ".cu" :=
    normalizeName_numbered "In" ".Cu" i
  have hfind := find_layer ("in" ++ toString i ++ ".cu") hi fun j => by
    constructor
    · rintro (heq | heq)
      · exact absurd heq (ne_of_head (by rw [head_layer, head_inner]; decide))
      · exact (numbered_inj' heq).symm
    · rintro rfl
      exact .inr rfl
  have hother : ∀ name ∈ ["f.cu", "top", "layer_0", "b.cu", "bottom", "layer_1"],
      "in" ++ toString i ++ ".cu" ≠ name := by
    intro name hname
    apply ne_of_head
    rw [head_inner]
    revert name
    decide
  unfold kicadLayerName
  rw [hnormal]
  dsimp only
  rw [hfind, if_neg, if_neg]
  · simp only [mem_cons, not_mem_nil, or_false, not_or]
    exact ⟨hother _ (by decide), hother _ (by decide), hother _ (by decide)⟩
  · simp only [mem_cons, not_mem_nil, or_false, not_or]
    exact ⟨hother _ (by decide), hother _ (by decide), hother _ (by decide)⟩

theorem kicadLayerName_top (n : ℕ) : kicadLayerName "top" n = "F.Cu" := by
  unfold kicadLayerName
  rw [show normalizeName "top" = "top" by decide]
  rfl

theorem kicadLayerName_bottom (n : ℕ) : kicadLayerName "bottom" n = layerName 1 n := by
  unfold kicadLayerName
  rw [show normalizeName "bottom" = "bottom" by decide]
  rfl

theorem layerName_one {n : ℕ} (hn : 2 ≤ n) : layerName 1 n = "B.Cu" ↔ n = 2 := by
  constructor
  · intro h
    by_contra hne
    rw [layerName_inner one_pos (by omega)] at h
    exact (inner_ne 1).2 h
  · rintro rfl
    rfl

/-! ## Names and layers -/

namespace OnLayer

variable {n i : ℕ}

theorem head_numbered (before after : String) (c : Char) (h : before.toList.head? = some c) (i : ℕ) :
    (before ++ toString i ++ after).toList.head? = some c := by
  rw [toList_append, toList_append, append_assoc, head?_append, h]
  rfl

theorem of_top {name : String} (h : OnLayer n name i) (hname : name = "top") : i = 0 := by
  cases h with
  | indexed => exact absurd hname (ne_of_head (by rw [head_layer]; decide))
  | top => rfl
  | bottom => exact absurd hname (by decide)
  | front => rfl
  | back => exact absurd hname (by decide)
  | inner => exact absurd hname (ne_of_head (by rw [head_numbered _ _ 'I' rfl]; decide))

theorem of_bottom {name : String} (h : OnLayer n name i) (hname : name = "bottom") : i = n - 1 := by
  cases h with
  | indexed => exact absurd hname (ne_of_head (by rw [head_layer]; decide))
  | top => exact absurd hname (by decide)
  | bottom => rfl
  | front => exact absurd hname (by decide)
  | back => rfl
  | inner => exact absurd hname (ne_of_head (by rw [head_numbered _ _ 'I' rfl]; decide))

theorem kicadLayerName_eq {name : String} (h : OnLayer n name i) (htop : i = 0 → name = "top")
    (hbottom : i = n - 1 → name = "bottom" ∧ n = 2) : kicadLayerName name n = layerName i n := by
  cases h with
  | indexed h => exact kicadLayerName_indexed h
  | top => exact kicadLayerName_top n
  | bottom =>
    obtain ⟨-, rfl⟩ := hbottom rfl
    exact kicadLayerName_bottom 2
  | front => exact absurd (htop rfl) (by decide)
  | back => exact absurd (hbottom rfl).1 (by decide)
  | inner hi h => exact kicadLayerName_inner (by omega)

end OnLayer

/-- The exports agree just on routings with the exact name of the side on every trace of an outer layer,
and with nothing on the bottom of a board of more than two layers. -/
theorem layersAgree_iff {n : ℕ} (hn : 2 ≤ n) (traces : List (TraceSegment K)) :
    LayersAgree n traces ↔ ∀ t ∈ traces, ∀ i, OnLayer n t.layer i →
      (i = 0 → t.layer = "top") ∧ (i = n - 1 → t.layer = "bottom" ∧ n = 2) := by
  have hdrawn : ∀ t ∈ traces, ∀ name, t ∈ layerTraces traces name ↔ t.layer = name := by
    intro t ht name
    rw [layerTraces, mem_filter, decide_eq_true_eq]
    exact and_iff_right ht
  constructor
  · intro h t ht i hlayer
    have hgerber := h.gerber t ht i hlayer
    rw [hdrawn t ht, hdrawn t ht] at hgerber
    refine ⟨hgerber.1.mpr, fun hlast => ?_⟩
    have hname := hgerber.2.mpr hlast
    subst hlast
    have hback := h.kicad_bottom t ht hlayer
    rw [hname, kicadLayerName_bottom, layerName_one hn] at hback
    exact ⟨hname, hback⟩
  · intro h
    have hkicad : ∀ t ∈ traces, ∀ i, OnLayer n t.layer i → kicadLayerName t.layer n = layerName i n :=
      fun t ht i hlayer => hlayer.kicadLayerName_eq (h t ht i hlayer).1 (h t ht i hlayer).2
    have hbound : ∀ (name : String) (i : ℕ), OnLayer n name i → i < n := by
      intro name i hlayer
      cases hlayer <;> omega
    refine ⟨fun t ht i hlayer => ?_, fun t ht hlayer => ?_, fun t ht u hu i j hti huj hne heq => ?_⟩
    · rw [hdrawn t ht, hdrawn t ht]
      exact ⟨⟨hlayer.of_top, (h t ht i hlayer).1⟩, hlayer.of_bottom, fun hlast => ((h t ht i hlayer).2 hlast).1⟩
    · rw [hkicad t ht _ hlayer, layerName_last hn]
    · rw [hkicad t ht i hti, hkicad u hu j huj] at heq
      exact hne (layerName_inj hn (hbound _ _ hti) (hbound _ _ huj) heq)

/-- A trace of the grid router on the first layer. -/
def routedTrace : TraceSegment ℚ :=
  { layer := "layer_0", start := (0, 0), stop := (1, 0), width := 1 / 4, via_diameter := 1 / 2, via_hole := 1 / 4 }

theorem not_layersAgree_routedTrace : ¬ LayersAgree 2 [routedTrace] := by
  intro h
  have hlayer : OnLayer 2 routedTrace.layer 0 := .indexed (show 0 < 2 by decide)
  have hdrawn := ((h.gerber routedTrace (.head _) 0 hlayer).1).mpr rfl
  rw [layerTraces, mem_filter] at hdrawn
  exact absurd hdrawn.2 (by decide)

theorem layersAgree_routedTrace_iff : LayersAgree 2 [routedTrace] ↔
    ∀ t ∈ [routedTrace], ∀ i, OnLayer 2 t.layer i →
      (i = 0 → t.layer = "top") ∧ (i = 2 - 1 → t.layer = "bottom" ∧ 2 = 2) :=
  layersAgree_iff le_rfl [routedTrace]

end ZapTrace.Routing.Export
