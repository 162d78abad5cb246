import Mathlib.Data.Int.Log
import Mathlib.Data.List.Dedup
import Mathlib.Order.Bounds.Defs
import ZapTrace.Algo.Rounding
import ZapTrace.Library.Raising

/-!
# Component values

The calculators size a resistor and snap it onto a preferred value. The value that is looked up is rounded to six
significant digits first, so a value just above a preferred one is taken for it, and so is one just below.

## Main results

* `sig_le_of_le`, `le_sig_of_le`: rounding does not move a value past a preferred one
* `sizing_iff`: when the directions of the calculators are kept
-/

namespace ZapTrace.Calculators

open List Except Raising

/-! ## Preferred values -/

def e12 : List ℚ := [1.0, 1.2, 1.5, 1.8, 2.2, 2.7, 3.3, 3.9, 4.7, 5.6, 6.8, 8.2]

def e24 : List ℚ :=
  [1.0, 1.1, 1.2, 1.3, 1.5, 1.6, 1.8, 2.0, 2.2, 2.4, 2.7, 3.0, 3.3, 3.6, 3.9, 4.3, 4.7, 5.1, 5.6, 6.2, 6.8, 7.5, 8.2, 9.1]

def eSeries (series : ℤ) : Option (List ℚ) := if series = 12 then some e12 else if series = 24 then some e24 else none

def decades : List ℤ := (range 23).map fun k : ℕ => (k : ℤ) - 13

/-- `round` to a number of digits, which may be negative. -/
def roundDigits (value : ℚ) (digits : ℤ) : ℚ := pyRound (value * 10 ^ digits) / 10 ^ digits

/-- `_sig` to six digits. -/
def sig (value : ℚ) : ℚ := if value = 0 then 0 else roundDigits value (6 - 1 - Int.log 10 |value|)

def candidates (series : ℤ) : Except String (List ℚ) :=
  match eSeries series with
  | none => .error s!"Unsupported E-series: E{series}. Choose from [12, 24]."
  | some base =>
    .ok ((decades.flatMap fun decade => base.map fun mantissa => sig (mantissa * 10 ^ decade)).dedup.mergeSort
      fun a b => decide (a ≤ b))

/-- How numbers are written: plain, and with the format `g`. -/
structure NumberFormat where
  str : ℚ → String
  g : ℚ → String

variable (fmt : NumberFormat)

def eSeriesCeil (value : ℚ) (series : ℤ) : Except String ℚ :=
  if value ≤ 0 then .error "value must be positive"
  else do
    match (← candidates series).filter fun c => decide (sig value ≤ c) with
    | [] => .error s!"{fmt.str value} exceeds the supported E-series range"
    | c :: _ => .ok c

def eSeriesFloor (value : ℚ) (series : ℤ) : Except String ℚ :=
  if value ≤ 0 then .error "value must be positive"
  else do
    match ((← candidates series).filter fun c => decide (c ≤ sig value)).getLast? with
    | none => .error s!"{fmt.str value} is below the supported E-series range"
    | some c => .ok c

/-! ## Calculators -/

structure LedResistor where
  ideal_ohms : ℚ
  chosen_ohms : ℚ
  actual_current_a : ℚ
  resistor_power_w : ℚ
  series : ℤ

def ledSeriesResistor (supply_v forward_v current_ma : ℚ) (series : ℤ) : Except String LedResistor :=
  if supply_v ≤ forward_v then .error "supply_v must exceed the LED forward voltage"
  else if current_ma ≤ 0 then .error "current_ma must be positive"
  else do
    let ideal := (supply_v - forward_v) / (current_ma / 1000)
    let chosen ← eSeriesCeil fmt ideal series
    let actual_current := (supply_v - forward_v) / chosen
    .ok ⟨sig ideal, chosen, sig actual_current, sig ((supply_v - forward_v) * actual_current), series⟩

structure I2cPullup where
  min_ohms : ℚ
  max_ohms : ℚ
  recommended_ohms : ℚ
  bus_speed_hz : ℤ

/-- `_I2C_RISE_TIME_S` -/
def riseTime (bus_speed_hz : ℤ) : Option ℚ :=
  if bus_speed_hz = 100000 then some (1000 / 10 ^ 9)
  else if bus_speed_hz = 400000 then some (300 / 10 ^ 9)
  else if bus_speed_hz = 1000000 then some (120 / 10 ^ 9)
  else none

def i2cMin (supply_v : ℚ) : ℚ := (supply_v - 0.4) / 0.003

def i2cMax (rise_time bus_capacitance_pf : ℚ) : ℚ := rise_time / (0.8473 * (bus_capacitance_pf / 10 ^ 12))

def i2cPullup (supply_v bus_capacitance_pf : ℚ) (bus_speed_hz series : ℤ) : Except String I2cPullup :=
  match riseTime bus_speed_hz with
  | none => .error s!"Unsupported I2C speed {bus_speed_hz} Hz; choose [100000, 400000, 1000000]"
  | some rise_time =>
    let r_min := i2cMin supply_v
    let r_max := i2cMax rise_time bus_capacitance_pf
    if supply_v ≤ 0.4 then .error "supply_v must exceed the I2C Vol_max (0.4 V)"
    else if bus_capacitance_pf ≤ 0 then .error "bus_capacitance_pf must be positive"
    else if r_max < r_min then
      .error s!"No valid pull-up: bus capacitance ({fmt.str bus_capacitance_pf} pF) too high for {bus_speed_hz} Hz"
    else do
      let low ← eSeriesFloor fmt r_max series
      let recommended ← (if low < r_min then eSeriesCeil fmt r_min series else .ok low : Except String ℚ)
      .ok ⟨sig r_min, sig r_max, recommended, bus_speed_hz⟩

structure LipoChargeResistor where
  ideal_kohms : ℚ
  chosen_ohms : ℚ
  target_current_ma : ℚ
  actual_current_ma : ℚ
  series : ℤ
  note : String

def lipoChargeResistor (charge_current_ma : ℚ) (series : ℤ) : Except String LipoChargeResistor :=
  if 100 ≤ charge_current_ma ∧ charge_current_ma ≤ 500 then do
    let ideal_kohm := 1000 / charge_current_ma
    let chosen ← eSeriesCeil fmt (ideal_kohm * 1000) series
    let actual := 1000 / (chosen / 1000)
    .ok ⟨sig ideal_kohm, chosen, charge_current_ma, sig actual, series,
      s!"MCP73831 PROG = {fmt.g chosen} Ω -> {fmt.g (sig actual)} mA charge " ++
        "(I_chg = 1000 / R_prog[kΩ]); keep <= ~1C of the cell capacity"⟩
  else .error "charge_current_ma must be within 100.0-500.0 mA for the MCP73831"

inductive PullDirection
  | up | down
  deriving DecidableEq

structure PullResistorResult where
  direction : PullDirection
  rail_v : ℚ
  logic_v_high : ℚ
  logic_v_low : ℚ
  max_sink_current_ma : ℚ
  resistor_ohms : ℚ
  resistor_chosen_ohms : ℚ
  note : String

/-- `pull_resistor`; the voltage across the resistor is that of the rail in both directions. -/
def pullResistor (rail_v : ℚ) (direction : PullDirection) (logic_threshold_v : Option ℚ) (max_sink_current_ma : ℚ)
    (series : ℤ) : Except String PullResistorResult :=
  if rail_v ≤ 0 then .error "rail_v must be positive"
  else if max_sink_current_ma ≤ 0 then .error "max_sink_current_ma must be positive"
  else do
    let up := direction = .up
    let threshold := logic_threshold_v.getD ((if up then 0.7 else 0.3) * rail_v)
    let r_min := rail_v / (max_sink_current_ma / 1000)
    let kilo ← eSeriesCeil fmt (r_min / 1000) series
    let chosen := kilo * 1000
    let pull := if up then "pull-up" else "pull-down"
    let bound := if up then "≥" else "≤"
    .ok ⟨direction, rail_v, if up then rail_v else rail_v - chosen * max_sink_current_ma / 1000,
      if up then chosen * max_sink_current_ma / 1000 else 0, max_sink_current_ma, sig r_min, chosen,
      s!"{pull} {fmt.g rail_v} V rail: R = {fmt.g (chosen / 1000)} kΩ " ++
        s!"(quiescent ≤ {fmt.g max_sink_current_ma} mA, threshold {bound} {fmt.g threshold} V)"⟩

/-! ## Rounding to six digits -/

def TwoDigit (c : ℚ) : Prop := ∃ n d : ℤ, 10 ≤ n ∧ n < 100 ∧ c = n * 10 ^ d

theorem ten_zpow_pos (e : ℤ) : (0 : ℚ) < 10 ^ e := zpow_pos (by norm_num) e

theorem TwoDigit.pos {c : ℚ} (h : TwoDigit c) : 0 < c := by
  obtain ⟨n, d, hn, -, rfl⟩ := h
  have hn : (0 : ℚ) < n := by exact_mod_cast (by omega : 0 < n)
  exact mul_pos hn (ten_zpow_pos d)

theorem mul_zpow_eq_intCast (n : ℤ) {d e : ℤ} (h : 0 ≤ d + e) : ∃ z : ℤ, (n * 10 ^ d : ℚ) * 10 ^ e = z := by
  refine ⟨n * 10 ^ (d + e).toNat, ?_⟩
  have hexp : (10 : ℚ) ^ (d + e) = 10 ^ (d + e).toNat := by
    rw [← zpow_natCast, Int.toNat_of_nonneg h]
  push_cast
  rw [mul_assoc, ← zpow_add₀ (by norm_num), hexp]

section Sig

variable {value : ℚ} (hvalue : 0 < value)

include hvalue

theorem sig_of_pos : sig value = roundDigits value (6 - 1 - Int.log 10 value) := by
  rw [sig, if_neg hvalue.ne', abs_of_pos hvalue]

theorem zpow_log_le : (10 : ℚ) ^ Int.log 10 value ≤ value := by
  exact_mod_cast Int.zpow_log_le_self (by norm_num) hvalue

/-- **Rounding** does not move a value past a number of two digits above it. -/
theorem sig_le_of_le {c : ℚ} (hc : TwoDigit c) (h : value ≤ c) : sig value ≤ c := by
  obtain ⟨n, d, hn, hn', rfl⟩ := hc
  have hlog : Int.log 10 value < d + 2 := by
    rw [← Int.lt_zpow_iff_log_lt (by norm_num) hvalue]
    push_cast
    have hn' : (n : ℚ) < 100 := by exact_mod_cast hn'
    have hpow := ten_zpow_pos d
    rw [zpow_add₀ (by norm_num)]
    nlinarith
  obtain ⟨z, hz⟩ := mul_zpow_eq_intCast n (d := d) (e := 6 - 1 - Int.log 10 value) (by omega)
  have hpow := ten_zpow_pos (6 - 1 - Int.log 10 value)
  have hmono := CopperPour.pyRound_mono (mul_le_mul_of_nonneg_right h hpow.le)
  rw [hz, CopperPour.pyRound_intCast] at hmono
  rw [sig_of_pos hvalue, roundDigits, div_le_iff₀ hpow, hz]
  exact_mod_cast hmono

/-- **Rounding** does not move a value past a number of two digits below it. -/
theorem le_sig_of_le {c : ℚ} (hc : TwoDigit c) (h : c ≤ value) : c ≤ sig value := by
  obtain ⟨n, d, hn, hn', rfl⟩ := hc
  have hpow := ten_zpow_pos (6 - 1 - Int.log 10 value)
  -- an integer at the scale of the rounding, between the two
  obtain ⟨c, z, hle, hvalue', hz⟩ : ∃ (c : ℚ) (z : ℤ), n * 10 ^ d ≤ c ∧ c ≤ value ∧
      c * 10 ^ (6 - 1 - Int.log 10 value) = z := by
    rcases le_or_gt (Int.log 10 value) (d + 1) with hlog | hlog
    · obtain ⟨z, hz⟩ := mul_zpow_eq_intCast n (d := d) (e := 6 - 1 - Int.log 10 value) (by omega)
      exact ⟨_, z, le_rfl, h, hz⟩
    · refine ⟨10 ^ Int.log 10 value, 10 ^ 5, ?_, zpow_log_le hvalue, ?_⟩
      · have hn' : (n : ℚ) < 100 := by exact_mod_cast hn'
        have hd : (10 : ℚ) ^ (d + 2) ≤ 10 ^ Int.log 10 value := zpow_le_zpow_right₀ (by norm_num) (by omega)
        have hpos := ten_zpow_pos d
        rw [zpow_add₀ (by norm_num)] at hd
        nlinarith
      · rw [← zpow_add₀ (by norm_num), add_sub_cancel]
        norm_num
  have hmono := CopperPour.pyRound_mono (mul_le_mul_of_nonneg_right hvalue' hpow.le)
  rw [hz, CopperPour.pyRound_intCast] at hmono
  rw [sig_of_pos hvalue, roundDigits]
  refine hle.trans ?_
  rw [le_div_iff₀ hpow, hz]
  exact_mod_cast hmono

end Sig

/-! ## The table of preferred values -/

variable {series : ℤ} {cs : List ℚ}

theorem twoDigit_of_mem_eSeries {base : List ℚ} (h : eSeries series = some base) {m : ℚ} (hm : m ∈ base) (decade : ℤ) :
    TwoDigit (m * 10 ^ decade) := by
  have hall : ∀ m ∈ e12 ++ e24, (m * 10).den = 1 ∧ 10 ≤ (m * 10).num ∧ (m * 10).num < 100 := by with_unfolding_all decide
  obtain ⟨hden, hlow, hup⟩ := hall m <| by
    unfold eSeries at h
    split_ifs at h
    · exact mem_append_left _ (Option.some.inj h ▸ hm)
    · exact mem_append_right _ (Option.some.inj h ▸ hm)
  refine ⟨(m * 10).num, decade - 1, hlow, hup, ?_⟩
  rw [Rat.coe_int_num_of_den_eq_one hden, zpow_sub₀ (by norm_num)]
  ring

theorem candidates_ok (h : candidates series = .ok cs) : (∀ c ∈ cs, TwoDigit c) ∧ cs.Pairwise (· ≤ ·) := by
  unfold candidates at h
  split at h
  · cases h
  · rename_i base hbase
    obtain rfl := ok.inj h
    constructor
    · intro c hc
      rw [mem_mergeSort, mem_dedup, mem_flatMap] at hc
      obtain ⟨decade, -, hc⟩ := hc
      obtain ⟨m, hm, rfl⟩ := mem_map.mp hc
      have htwo := twoDigit_of_mem_eSeries hbase hm decade
      rwa [le_antisymm (sig_le_of_le htwo.pos htwo le_rfl) (le_sig_of_le htwo.pos htwo le_rfl)]
    · refine (pairwise_mergeSort ?_ ?_ _).imp fun h => of_decide_eq_true h
      · exact fun a b c h h' => decide_eq_true ((of_decide_eq_true h).trans (of_decide_eq_true h'))
      · exact fun a b => by simpa using le_total a b

/-- A value above a preferred one that is taken for it. -/
def RoundsBelow (cs : List ℚ) (value : ℚ) : Prop := sig value ∈ cs ∧ sig value < value

/-- A value below a preferred one that is taken for it. -/
def RoundsAbove (cs : List ℚ) (value : ℚ) : Prop := sig value ∈ cs ∧ value < sig value

theorem isLeast_head (hsorted : cs.Pairwise (· ≤ ·)) {s c : ℚ} {rest : List ℚ}
    (h : cs.filter (fun c => decide (s ≤ c)) = c :: rest) : IsLeast {c | c ∈ cs ∧ s ≤ c} c := by
  have hmem : ∀ c', c' ∈ c :: rest ↔ c' ∈ cs ∧ s ≤ c' := fun c' => by rw [← h, mem_filter, decide_eq_true_eq]
  refine ⟨(hmem c).mp mem_cons_self, fun c' hc' => ?_⟩
  rcases mem_cons.mp ((hmem c').mpr hc') with rfl | hrest
  · exact le_rfl
  · exact rel_of_pairwise_cons (h ▸ hsorted.filter _) hrest

theorem isGreatest_getLast (hsorted : cs.Pairwise (· ≤ ·)) {s c : ℚ}
    (h : (cs.filter fun c => decide (c ≤ s)).getLast? = some c) : IsGreatest {c | c ∈ cs ∧ c ≤ s} c := by
  obtain ⟨init, hinit⟩ := getLast?_eq_some_iff.mp h
  have hmem : ∀ c', c' ∈ init ++ [c] ↔ c' ∈ cs ∧ c' ≤ s := fun c' => by
    rw [← hinit, mem_filter, decide_eq_true_eq]
  refine ⟨(hmem c).mp (mem_append_right init mem_cons_self), fun c' hc' => ?_⟩
  rcases mem_append.mp ((hmem c').mpr hc') with hin | hlast
  · exact (pairwise_append.mp (hinit ▸ hsorted.filter _)).2.2 c' hin c mem_cons_self
  · exact (mem_singleton.mp hlast).le

section Table

variable (hcs : candidates series = .ok cs) {value c : ℚ}

include hcs

theorem eSeriesCeil_ok_iff : eSeriesCeil fmt value series = .ok c ↔
    0 < value ∧ IsLeast {c | c ∈ cs ∧ sig value ≤ c} c := by
  unfold eSeriesCeil
  split
  · exact iff_of_false nofun fun h => absurd h.1 (not_lt.mpr ‹_›)
  · rw [and_iff_right (not_le.mp ‹_›), hcs]
    show (match cs.filter fun c => decide (sig value ≤ c) with | [] => _ | c :: _ => _) = _ ↔ _
    split
    · rename_i hnil
      refine iff_of_false nofun fun h => not_mem_nil (a := c) ?_
      rw [← hnil]
      simpa using h.1
    · rename_i c' rest hcons
      have hleast := isLeast_head (candidates_ok hcs).2 hcons
      exact ⟨fun h => ok.inj h ▸ hleast, fun h => congrArg ok (hleast.unique h)⟩

theorem eSeriesFloor_ok_iff : eSeriesFloor fmt value series = .ok c ↔
    0 < value ∧ IsGreatest {c | c ∈ cs ∧ c ≤ sig value} c := by
  unfold eSeriesFloor
  split
  · exact iff_of_false nofun fun h => absurd h.1 (not_lt.mpr ‹_›)
  · rw [and_iff_right (not_le.mp ‹_›), hcs]
    show (match (cs.filter fun c => decide (c ≤ sig value)).getLast? with | none => _ | some c => _) = _ ↔ _
    split
    · rename_i hnone
      refine iff_of_false nofun fun h => not_mem_nil (a := c) ?_
      rw [← getLast?_eq_none_iff.mp hnone]
      simpa using h.1
    · rename_i c' hlast
      have hgreatest := isGreatest_getLast (candidates_ok hcs).2 hlast
      exact ⟨fun h => ok.inj h ▸ hgreatest, fun h => congrArg ok (hgreatest.unique h)⟩

/-- **The next value above** is right unless the value is taken for one below it. -/
theorem le_iff_not_roundsBelow (h : eSeriesCeil fmt value series = .ok c) :
    (value ≤ c ↔ ¬RoundsBelow cs value) ∧ ∀ c' ∈ cs, value ≤ c' → c ≤ c' := by
  obtain ⟨hpos, ⟨hmem, hle⟩, hleast⟩ := (eSeriesCeil_ok_iff fmt hcs).mp h
  have htwo := (candidates_ok hcs).1
  refine ⟨⟨?_, ?_⟩, fun c' hc' h' => hleast ⟨hc', sig_le_of_le hpos (htwo c' hc') h'⟩⟩
  · rintro hvalue ⟨hsig, hlt⟩
    exact absurd (hvalue.trans (hleast ⟨hsig, le_rfl⟩)) (not_le.mpr hlt)
  · intro hnot
    by_contra hlt
    have heq := le_antisymm hle (le_sig_of_le hpos (htwo c hmem) (not_le.mp hlt).le)
    exact hnot ⟨heq ▸ hmem, heq ▸ not_le.mp hlt⟩

theorem le_iff_not_roundsAbove (h : eSeriesFloor fmt value series = .ok c) :
    (c ≤ value ↔ ¬RoundsAbove cs value) ∧ ∀ c' ∈ cs, c' ≤ value → c' ≤ c := by
  obtain ⟨hpos, ⟨hmem, hle⟩, hgreatest⟩ := (eSeriesFloor_ok_iff fmt hcs).mp h
  have htwo := (candidates_ok hcs).1
  refine ⟨⟨?_, ?_⟩, fun c' hc' h' => hgreatest ⟨hc', le_sig_of_le hpos (htwo c' hc') h'⟩⟩
  · rintro hvalue ⟨hsig, hlt⟩
    exact absurd ((hgreatest ⟨hsig, le_rfl⟩).trans hvalue) (not_le.mpr hlt)
  · intro hnot
    by_contra hlt
    have heq := le_antisymm hle (sig_le_of_le hpos (htwo c hmem) (not_le.mp hlt).le)
    exact hnot ⟨heq ▸ hmem, heq ▸ not_le.mp hlt⟩

theorem exists_eSeries {low high : ℚ} (hlow : low ∈ cs) (hle : low ≤ value) (hhigh : high ∈ cs) (hle' : value ≤ high) :
    (∃ up, eSeriesCeil fmt value series = .ok up) ∧ ∃ down, eSeriesFloor fmt value series = .ok down := by
  have htwo := (candidates_ok hcs).1
  have hpos := (htwo low hlow).pos.trans_le hle
  have hup : high ∈ cs.filter fun c => decide (sig value ≤ c) :=
    mem_filter.mpr ⟨hhigh, decide_eq_true (sig_le_of_le hpos (htwo high hhigh) hle')⟩
  have hdown : low ∈ cs.filter fun c => decide (c ≤ sig value) :=
    mem_filter.mpr ⟨hlow, decide_eq_true (le_sig_of_le hpos (htwo low hlow) hle)⟩
  constructor
  · obtain ⟨c, rest, hcons⟩ := exists_cons_of_ne_nil (ne_nil_of_mem hup)
    exact ⟨c, (eSeriesCeil_ok_iff fmt hcs).mpr ⟨hpos, isLeast_head (candidates_ok hcs).2 hcons⟩⟩
  · have hlast := getLast?_eq_some_getLast (ne_nil_of_mem hdown)
    exact ⟨_, (eSeriesFloor_ok_iff fmt hcs).mpr ⟨hpos, isGreatest_getLast (candidates_ok hcs).2 hlast⟩⟩

theorem chosen_pos (h : eSeriesCeil fmt value series = .ok c) : 0 < c :=
  ((candidates_ok hcs).1 c ((eSeriesCeil_ok_iff fmt hcs).mp h).2.1.1).pos

/-! ## The directions -/

theorem ledSeriesResistor_iff {supply_v forward_v current_ma : ℚ} {r : LedResistor}
    (h : ledSeriesResistor fmt supply_v forward_v current_ma series = .ok r) :
    (supply_v - forward_v) / r.chosen_ohms ≤ current_ma / 1000 ↔
      ¬RoundsBelow cs ((supply_v - forward_v) / (current_ma / 1000)) := by
  unfold ledSeriesResistor at h
  split_ifs at h with hsupply hcurrent
  obtain ⟨chosen, hchosen, hr⟩ := bind_eq_ok_iff.mp h
  obtain rfl := ok.inj hr
  rw [← (le_iff_not_roundsBelow fmt hcs hchosen).1]
  exact div_le_comm₀ (chosen_pos fmt hcs hchosen) (by linarith)

theorem lipoChargeResistor_iff {charge_current_ma : ℚ} {r : LipoChargeResistor}
    (h : lipoChargeResistor fmt charge_current_ma series = .ok r) :
    1000 / (r.chosen_ohms / 1000) ≤ charge_current_ma ↔ ¬RoundsBelow cs (1000 / charge_current_ma * 1000) := by
  unfold lipoChargeResistor at h
  split_ifs at h with hcurrent
  obtain ⟨chosen, hchosen, hr⟩ := bind_eq_ok_iff.mp h
  obtain rfl := ok.inj hr
  have hpos := chosen_pos fmt hcs hchosen
  rw [← (le_iff_not_roundsBelow fmt hcs hchosen).1, ← le_div_iff₀ (by norm_num)]
  exact div_le_comm₀ (by linarith) (by linarith)

theorem pullResistor_iff {rail_v max_sink_current_ma : ℚ} {direction : PullDirection} {logic_threshold_v : Option ℚ}
    {r : PullResistorResult} (h : pullResistor fmt rail_v direction logic_threshold_v max_sink_current_ma series = .ok r) :
    rail_v / r.resistor_chosen_ohms ≤ max_sink_current_ma / 1000 ↔
      ¬RoundsBelow cs (rail_v / (max_sink_current_ma / 1000) / 1000) := by
  unfold pullResistor at h
  split_ifs at h with hrail hcurrent
  obtain ⟨kilo, hkilo, hr⟩ := bind_eq_ok_iff.mp h
  obtain rfl := ok.inj hr
  have hpos := chosen_pos fmt hcs hkilo
  have hkilo' : rail_v / (max_sink_current_ma / 1000) / 1000 ≤ kilo ↔
      rail_v / (max_sink_current_ma / 1000) ≤ kilo * 1000 := div_le_iff₀ (by norm_num)
  rw [← (le_iff_not_roundsBelow fmt hcs hkilo).1, hkilo']
  exact div_le_comm₀ (by linarith) (by linarith)

/-- **A pull-up** that is returned is in its range when a preferred value is, and the largest resistance is not taken for
one above it. -/
theorem i2cPullup_iff {supply_v bus_capacitance_pf rise_time : ℚ} {bus_speed_hz : ℤ} {r : I2cPullup}
    (hrise : riseTime bus_speed_hz = some rise_time)
    (h : i2cPullup fmt supply_v bus_capacitance_pf bus_speed_hz series = .ok r) :
    (i2cMin supply_v ≤ r.recommended_ohms ∧ r.recommended_ohms ≤ i2cMax rise_time bus_capacitance_pf) ↔
      (∃ c ∈ cs, i2cMin supply_v ≤ c ∧ c ≤ i2cMax rise_time bus_capacitance_pf) ∧
        ¬RoundsAbove cs (i2cMax rise_time bus_capacitance_pf) := by
  unfold i2cPullup at h
  rw [hrise] at h
  dsimp only at h
  split_ifs at h with hsupply hcapacitance hrange
  obtain ⟨low, hlow, hrest⟩ := bind_eq_ok_iff.mp h
  obtain ⟨recommended, hrecommended, hr⟩ := bind_eq_ok_iff.mp hrest
  obtain rfl := ok.inj hr
  dsimp only
  obtain ⟨hiff, hgreatest⟩ := le_iff_not_roundsAbove fmt hcs hlow
  obtain ⟨-, ⟨hmem, -⟩, -⟩ := (eSeriesFloor_ok_iff fmt hcs).mp hlow
  split_ifs at hrecommended with hbelow
  · -- no preferred value is in the range, so the one that is returned is not
    obtain ⟨-, ⟨hmem', -⟩, -⟩ := (eSeriesCeil_ok_iff fmt hcs).mp hrecommended
    have hnone : ¬∃ c ∈ cs, i2cMin supply_v ≤ c ∧ c ≤ i2cMax rise_time bus_capacitance_pf := by
      rintro ⟨c, hc, hmin, hmax⟩
      linarith [hgreatest c hc hmax]
    exact iff_of_false (fun hin => hnone ⟨recommended, hmem', hin⟩) fun hin => hnone hin.1
  · obtain rfl := ok.inj hrecommended
    rw [← hiff]
    exact ⟨fun hin => ⟨⟨low, hmem, hin⟩, hin.2⟩, fun hin => ⟨not_lt.mp hbelow, hin.2⟩⟩

end Table

/-- **The calculators** keep their directions for the values that rounding does not take for a preferred one on the other
side; a pull-up also needs a preferred value in its range. -/
theorem sizing_iff (hcs : candidates series = .ok cs) :
    (∀ value, (∃ c ∈ cs, c ≤ value) → (∃ c ∈ cs, value ≤ c) → ∃ up down,
      eSeriesCeil fmt value series = .ok up ∧ eSeriesFloor fmt value series = .ok down ∧
        (IsLeast {c | c ∈ cs ∧ value ≤ c} up ↔ ¬RoundsBelow cs value) ∧
        (IsGreatest {c | c ∈ cs ∧ c ≤ value} down ↔ ¬RoundsAbove cs value)) ∧
    (∀ supply_v forward_v current_ma r, ledSeriesResistor fmt supply_v forward_v current_ma series = .ok r →
      ((supply_v - forward_v) / r.chosen_ohms ≤ current_ma / 1000 ↔
        ¬RoundsBelow cs ((supply_v - forward_v) / (current_ma / 1000)))) ∧
    (∀ charge_current_ma r, lipoChargeResistor fmt charge_current_ma series = .ok r →
      (1000 / (r.chosen_ohms / 1000) ≤ charge_current_ma ↔ ¬RoundsBelow cs (1000 / charge_current_ma * 1000))) ∧
    (∀ rail_v direction threshold max_sink_current_ma r,
      pullResistor fmt rail_v direction threshold max_sink_current_ma series = .ok r →
        (rail_v / r.resistor_chosen_ohms ≤ max_sink_current_ma / 1000 ↔
          ¬RoundsBelow cs (rail_v / (max_sink_current_ma / 1000) / 1000))) ∧
    ∀ supply_v bus_capacitance_pf bus_speed_hz rise_time r, riseTime bus_speed_hz = some rise_time →
      i2cPullup fmt supply_v bus_capacitance_pf bus_speed_hz series = .ok r →
        ((i2cMin supply_v ≤ r.recommended_ohms ∧ r.recommended_ohms ≤ i2cMax rise_time bus_capacitance_pf) ↔
          (∃ c ∈ cs, i2cMin supply_v ≤ c ∧ c ≤ i2cMax rise_time bus_capacitance_pf) ∧
            ¬RoundsAbove cs (i2cMax rise_time bus_capacitance_pf)) := by
  refine ⟨?_, fun _ _ _ _ h => ledSeriesResistor_iff fmt hcs h, fun _ _ h => lipoChargeResistor_iff fmt hcs h,
    fun _ _ _ _ _ h => pullResistor_iff fmt hcs h, fun _ _ _ _ _ hrise h => i2cPullup_iff fmt hcs hrise h⟩
  rintro value ⟨low, hlow, hle⟩ ⟨high, hhigh, hle'⟩
  obtain ⟨⟨up, hup⟩, down, hdown⟩ := exists_eSeries fmt hcs hlow hle hhigh hle'
  obtain ⟨hceil, hleast⟩ := le_iff_not_roundsBelow fmt hcs hup
  obtain ⟨hfloor, hgreatest⟩ := le_iff_not_roundsAbove fmt hcs hdown
  have hmem := ((eSeriesCeil_ok_iff fmt hcs).mp hup).2.1.1
  have hmem' := ((eSeriesFloor_ok_iff fmt hcs).mp hdown).2.1.1
  refine ⟨up, down, hup, hdown, ?_, ?_⟩
  · rw [← hceil]
    exact ⟨fun h => h.1.2, fun h => ⟨⟨hmem, h⟩, fun c' hc' => hleast c' hc'.1 hc'.2⟩⟩
  · rw [← hfloor]
    exact ⟨fun h => h.1.2, fun h => ⟨⟨hmem', h⟩, fun c' hc' => hgreatest c' hc'.1 hc'.2⟩⟩

def plainFormat : NumberFormat := ⟨fun q => toString q, fun q => toString q⟩

/-- The table of twelve values a decade. -/
def table12 : List ℚ :=
  (decades.flatMap fun decade => e12.map fun mantissa => sig (mantissa * 10 ^ decade)).dedup.mergeSort
    fun a b => decide (a ≤ b)

theorem mem_table12 {q : ℚ} : q ∈ table12 ↔ ∃ decade ∈ decades, ∃ m ∈ e12, sig (m * 10 ^ decade) = q := by
  simp only [table12, mem_mergeSort, mem_dedup, mem_flatMap, mem_map]

theorem not_roundsBelow_100 : ¬RoundsBelow table12 100 := fun h => absurd h.2 (by with_unfolding_all decide)

/-- A value of one hundred ohms is a preferred one. -/
theorem ceil_hundred : ∃ up, eSeriesCeil plainFormat 100 12 = .ok up ∧ IsLeast {c | c ∈ table12 ∧ 100 ≤ c} up := by
  have hmem : (100 : ℚ) ∈ table12 :=
    mem_table12.mpr ⟨2, by decide, 1.0, mem_cons_self, by with_unfolding_all decide⟩
  have htable : candidates 12 = .ok table12 := rfl
  obtain ⟨up, -, hup, -, hiff, -⟩ := (sizing_iff plainFormat htable).1 100 ⟨100, hmem, le_rfl⟩ ⟨100, hmem, le_rfl⟩
  exact ⟨up, hup, hiff.mpr not_roundsBelow_100⟩

/-- A value a tenth of a milliohm above one hundred ohms is taken for one hundred ohms. -/
theorem not_le_ceil : ¬∀ value up, eSeriesCeil plainFormat value 12 = .ok up → value ≤ up := by
  intro h
  have hsig : sig (100.0001 : ℚ) = 100 := by with_unfolding_all decide
  have hmem : (100 : ℚ) ∈ table12 := mem_table12.mpr ⟨2, by decide, 1.0, mem_cons_self, by with_unfolding_all decide⟩
  have hceil : eSeriesCeil plainFormat 100.0001 12 = .ok 100 :=
    (eSeriesCeil_ok_iff plainFormat (rfl : candidates 12 = .ok table12)).mpr
      ⟨by norm_num, ⟨hmem, hsig.le⟩, fun c hc => hsig ▸ hc.2⟩
  exact absurd (h _ _ hceil) (by norm_num)

end ZapTrace.Calculators
