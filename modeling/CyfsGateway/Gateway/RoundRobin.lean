import Mathlib

/-!
# Smooth weighted round robin

Every step raises each upstream by its weight and takes the total from the highest one.
What an upstream has after some steps is what it earned less the total for each time it was
picked, and never falls by a whole total, so in one period every upstream is picked as
often as its weight says.  How high it rises is bounded by the total times the harmonic
number of the upstreams, which keeps it in the range of an `isize`.
-/

namespace CyfsGateway.Gateway

open Finset

structure UpstreamNode where
  url : String
  weight : UInt32

namespace RoundRobin

def gcdU32 (left right : Nat) : Nat :=
  if right = 0 then left else gcdU32 right (left % right)
termination_by right
decreasing_by exact Nat.mod_lt _ (Nat.pos_of_ne_zero ‹_›)

def weightGcd (upstreams : List UpstreamNode) : Nat :=
  upstreams.foldl (fun acc node =>
    if acc = 0 then node.weight.toNat else gcdU32 acc node.weight.toNat) 0

def normalizedWeights (upstreams : List UpstreamNode) : List Nat :=
  let gcd := weightGcd upstreams
  upstreams.map fun node => node.weight.toNat / if gcd = 0 then 1 else gcd

/-- The loop that looks for the highest weight, behind its round for an index. -/
def selectedIndex (current : Nat → Int) : Nat → Nat
  | 0 => 0
  | index + 1 =>
    let selected := selectedIndex current index
    if current selected < current (index + 1) then index + 1 else selected

section Steps

variable (weights : List Nat)

def raised (current : Nat → Int) (index : Nat) : Int := current index + weights.getD index 0

def currentWeights : Nat → Nat → Int
  | 0 => fun _ => 0
  | step + 1 =>
    let current := raised weights (currentWeights step)
    let selected := selectedIndex current (weights.length - 1)
    fun index => if index = selected then current index - weights.sum else current index

def selectedAt (step : Nat) : Nat :=
  selectedIndex (raised weights (currentWeights weights step)) (weights.length - 1)

end Steps

/-- The index of the upstream whose URL is returned, for a value of the counter. -/
def selectUpstream (upstreams : List UpstreamNode) (counter : Nat) : Except String Nat :=
  let weights := normalizedWeights upstreams
  if 2 ^ 64 ≤ weights.sum then .error "sum of upstream weights overflowed"
  else if weights.sum = 0 then .error "sum of upstream weights must be greater than 0"
  else .ok (selectedAt weights (counter % weights.sum))

def weightedRoundRobin (upstreams : List UpstreamNode) (counter : Nat) :
    Except String String × Nat :=
  match selectUpstream upstreams counter with
  | .error message => (.error message, counter)
  | .ok index => (.ok ((upstreams[index]?.map (·.url)).getD ""), (counter + 1) % 2 ^ 64)

/-! ## Steps -/

theorem harmonic_mono {fewer more : Nat} (hle : fewer ≤ more) :
    harmonic fewer ≤ harmonic more :=
  sum_le_sum_of_subset_of_nonneg (range_subset_range.mpr hle) fun _ _ _ => by positivity

theorem selectedIndex_le (current : Nat → Int) (index : Nat) :
    selectedIndex current index ≤ index := by
  induction index with
  | zero => exact le_rfl
  | succ index ih =>
    rw [selectedIndex]
    split <;> omega

theorem le_selectedIndex (current : Nat → Int) {index other : Nat} (hother : other ≤ index) :
    current other ≤ current (selectedIndex current index) := by
  induction index with
  | zero => rw [Nat.le_zero.mp hother, selectedIndex]
  | succ index ih =>
    rw [selectedIndex]
    rcases Nat.lt_or_eq_of_le hother with hother | rfl
    · have hbest := ih (Nat.le_of_lt_succ hother)
      split <;> omega
    · split <;> omega

theorem selectedIndex_congr {current other : Nat → Int} {index : Nat}
    (hsame : ∀ earlier ≤ index, current earlier = other earlier) :
    selectedIndex current index = selectedIndex other index := by
  induction index with
  | zero => rfl
  | succ index ih =>
    have hle := selectedIndex_le other index
    rw [selectedIndex, selectedIndex, ih fun earlier hearlier => hsame earlier (by omega),
      hsame _ le_rfl, hsame _ (by omega)]

section Invariants

variable {weights : List Nat} {step index : Nat}

def picks (weights : List Nat) (step index : Nat) : Nat :=
  Nat.count (fun earlier => selectedAt weights earlier = index) step

theorem currentWeights_succ : currentWeights weights (step + 1) index =
    currentWeights weights step index + weights.getD index 0 -
      if selectedAt weights step = index then (weights.sum : Int) else 0 := by
  change (if index = selectedAt weights step then raised weights _ index - weights.sum
    else raised weights _ index) = _
  rw [raised]
  by_cases hsel : selectedAt weights step = index
  · rw [if_pos hsel.symm, if_pos hsel]
  · rw [if_neg (Ne.symm hsel), if_neg hsel, sub_zero]

/-- What an upstream earned less the total for each time it was picked. -/
theorem currentWeights_eq : currentWeights weights step index =
    step * weights.getD index 0 - weights.sum * picks weights step index := by
  induction step with
  | zero => simp [currentWeights, picks]
  | succ step ih =>
    rw [currentWeights_succ, ih, picks, picks, Nat.count_succ]
    split <;> push_cast <;> ring

theorem selectedAt_lt (hweights : weights ≠ []) : selectedAt weights step < weights.length := by
  have hlen := List.length_pos_iff.mpr hweights
  have hle := selectedIndex_le (raised weights (currentWeights weights step)) (weights.length - 1)
  exact Nat.lt_of_le_of_lt hle (by omega)

theorem sum_picks (hweights : weights ≠ []) (step) :
    ∑ index ∈ range weights.length, picks weights step index = step := by
  induction step with
  | zero => simp [picks]
  | succ step ih =>
    have hsucc : ∀ index, picks weights (step + 1) index =
        picks weights step index + if selectedAt weights step = index then 1 else 0 :=
      fun index => Nat.count_succ ..
    rw [sum_congr rfl fun index _ => hsucc index, sum_add_distrib, ih, sum_ite_eq, if_pos]
    exact mem_range.mpr (selectedAt_lt hweights)

theorem sum_getD (weights : List Nat) :
    ∑ index ∈ range weights.length, weights.getD index 0 = weights.sum := by
  rw [sum_range, ← Fin.sum_univ_getElem]
  simp

theorem sum_currentWeights_succ (step : Nat) (upstreams : Finset Nat) :
    (∑ index ∈ upstreams, currentWeights weights (step + 1) index : ℚ) =
      ∑ index ∈ upstreams, (raised weights (currentWeights weights step) index : ℚ) -
        if selectedAt weights step ∈ upstreams then (weights.sum : ℚ) else 0 := by
  rw [← sum_ite_eq upstreams (selectedAt weights step) fun _ => (weights.sum : ℚ),
    ← sum_sub_distrib]
  refine sum_congr rfl fun index _ => ?_
  rw [currentWeights_succ, ← raised, Int.cast_sub]
  split
  · rw [Int.cast_natCast]
  · rw [Int.cast_zero]

theorem sum_raised_le (step : Nat) {upstreams : Finset Nat}
    (hsubset : upstreams ⊆ range weights.length) :
    (∑ index ∈ upstreams, raised weights (currentWeights weights step) index : ℚ) ≤
      (∑ index ∈ upstreams, currentWeights weights step index : ℚ) + weights.sum := by
  have hweights : ∑ index ∈ upstreams, weights.getD index 0 ≤ weights.sum := by
    rw [← sum_getD]
    exact sum_le_sum_of_subset hsubset
  simp only [raised, Int.cast_add, Int.cast_natCast, sum_add_distrib, add_le_add_iff_left,
    ← Nat.cast_sum]
  exact Nat.cast_le.mpr hweights

/-- The average of `count` values is not above that of the values with a higher one. -/
theorem le_share {count : Nat} {sum best old total high low : ℚ} (hbest : sum ≤ count * best)
    (hraised : best + sum ≤ old + total)
    (hold : old ≤ total * ↑(count + 1) * (high - (low + (↑(count + 1))⁻¹))) :
    sum ≤ total * count * (high - low) := by
  have hpos : (0 : ℚ) < ↑(count + 1) := by positivity
  have hcount : (0 : ℚ) ≤ count := count.cast_nonneg
  have hcancel : (↑(count + 1) : ℚ) * (↑(count + 1))⁻¹ = 1 := mul_inv_cancel₀ hpos.ne'
  refine le_of_mul_le_mul_left ?_ hpos
  calc ↑(count + 1) * sum
    _ ≤ count * (best + sum) := by push_cast; linarith
    _ ≤ count * (old + total) := by gcongr
    _ ≤ count * (total * ↑(count + 1) * (high - (low + (↑(count + 1))⁻¹)) + total) := by gcongr
    _ = ↑(count + 1) * (total * count * (high - low)) := by
      linear_combination (-count * total) * hcancel

/-- The highest weights together: a set of `k` of `n` upstreams never has more than the total
times `k` times what the harmonic numbers of `n` and `k` differ by.  If the one that was
picked is outside, the set is not higher than with it, and there the total was added; if it
is inside, the total was taken away again. -/
theorem sum_currentWeights_le (hweights : weights ≠ []) (step : Nat) {upstreams : Finset Nat}
    (hsubset : upstreams ⊆ range weights.length) :
    (∑ index ∈ upstreams, currentWeights weights step index : ℚ) ≤
      weights.sum * upstreams.card * (harmonic weights.length - harmonic upstreams.card) := by
  induction step generalizing upstreams with
  | zero =>
    have hcard : upstreams.card ≤ weights.length := by simpa using card_le_card hsubset
    have hmono := harmonic_mono hcard
    simp only [currentWeights, Int.cast_zero, sum_const_zero]
    exact mul_nonneg (by positivity) (sub_nonneg.mpr hmono)
  | succ step ih =>
    rw [sum_currentWeights_succ]
    split
    · have hraised := sum_raised_le step hsubset
      have hold := ih hsubset
      linarith
    · rename_i hout
      rw [sub_zero]
      have hwith : insert (selectedAt weights step) upstreams ⊆ range weights.length :=
        insert_subset (mem_range.mpr (selectedAt_lt hweights)) hsubset
      have hraised := sum_raised_le step hwith
      have hold := ih hwith
      rw [sum_insert hout] at hraised
      rw [card_insert_of_notMem hout, harmonic_succ] at hold
      -- the one that was picked is as high as any other
      have hbest : (∑ index ∈ upstreams, raised weights (currentWeights weights step) index : ℚ) ≤
          upstreams.card *
            raised weights (currentWeights weights step) (selectedAt weights step) := by
        rw [← nsmul_eq_mul]
        refine sum_le_card_nsmul _ _ _ fun index hindex => ?_
        exact_mod_cast le_selectedIndex _
          (Nat.le_pred_of_lt (mem_range.mp (hsubset hindex)))
      exact le_share hbest hraised hold

theorem currentWeights_le (hweights : weights ≠ []) (step : Nat) {index}
    (hindex : index < weights.length) :
    (currentWeights weights step index : ℚ) ≤ weights.sum * (harmonic weights.length - 1) := by
  have hsubset : {index} ⊆ range weights.length :=
    singleton_subset_iff.mpr (mem_range.mpr hindex)
  simpa only [sum_singleton, card_singleton, harmonic_succ, harmonic_zero, zero_add, Nat.cast_one,
    inv_one, mul_one] using sum_currentWeights_le hweights step hsubset

theorem raised_le (hweights : weights ≠ []) (step : Nat) {index} (hindex : index < weights.length) :
    (raised weights (currentWeights weights step) index : ℚ) ≤
      weights.sum * harmonic weights.length := by
  have hcurrent := currentWeights_le hweights step hindex
  have hraised := sum_raised_le step (singleton_subset_iff.mpr (mem_range.mpr hindex))
  simp only [sum_singleton] at hraised
  linarith

section Period

variable (hweights : weights ≠ [])

include hweights

theorem sum_currentWeights (step) :
    ∑ index ∈ range weights.length, currentWeights weights step index = 0 := by
  simp only [currentWeights_eq, sum_sub_distrib, ← mul_sum]
  rw [← Nat.cast_sum, ← Nat.cast_sum, sum_getD, sum_picks hweights, mul_comm, sub_self]

theorem sum_raised (step) : ∑ index ∈ range weights.length,
    raised weights (currentWeights weights step) index = weights.sum := by
  simp only [raised, sum_add_distrib, sum_currentWeights hweights]
  rw [zero_add, ← Nat.cast_sum, sum_getD]

variable (hpos : 0 < weights.sum)

include hpos

/-- The highest weight is positive, so what is left of it is above minus the total. -/
theorem neg_total_lt (step index) : -weights.sum < currentWeights weights step index := by
  induction step with
  | zero => exact Int.neg_neg_of_pos (Int.natCast_pos.mpr hpos)
  | succ step ih =>
    rw [currentWeights_succ]
    split
    · rename_i hsel
      have hbest : 0 < raised weights (currentWeights weights step) index := by
        by_contra hlow
        have hsum : ∑ other ∈ range weights.length,
            raised weights (currentWeights weights step) other ≤ 0 := by
          refine sum_nonpos fun other hother => le_trans ?_ (not_lt.mp hlow)
          rw [← hsel]
          exact le_selectedIndex _ (Nat.le_pred_of_lt (mem_range.mp hother))
        rw [sum_raised hweights] at hsum
        omega
      rw [raised] at hbest
      omega
    · omega

theorem picks_period {index} (hindex : index < weights.length) :
    picks weights weights.sum index = weights.getD index 0 := by
  have hle : ∀ other ∈ range weights.length,
      picks weights weights.sum other ≤ weights.getD other 0 := by
    intro other _
    have hlow := neg_total_lt hweights hpos weights.sum other
    rw [currentWeights_eq] at hlow
    by_contra hmore
    nlinarith
  exact (sum_eq_sum_iff_of_le hle).mp (by rw [sum_picks hweights, sum_getD]) index
    (mem_range.mpr hindex)

theorem currentWeights_add_period (step : Nat) {index} (hindex : index < weights.length) :
    currentWeights weights (step + weights.sum) index = currentWeights weights step index := by
  induction step generalizing index with
  | zero =>
    rw [Nat.zero_add, currentWeights_eq, picks_period hweights hpos hindex, sub_self]
    rfl
  | succ step ih =>
    have hselected : selectedAt weights (step + weights.sum) = selectedAt weights step := by
      refine selectedIndex_congr fun other hother => ?_
      have hlen := List.length_pos_iff.mpr hweights
      rw [raised, raised, ih (by omega)]
    rw [Nat.add_right_comm, currentWeights_succ, currentWeights_succ, hselected, ih hindex]

theorem selectedAt_periodic : Function.Periodic (selectedAt weights) weights.sum := by
  intro step
  refine selectedIndex_congr fun index hindex => ?_
  have hlen := List.length_pos_iff.mpr hweights
  rw [raised, raised, currentWeights_add_period hweights hpos step (by omega)]

end Period

end Invariants

/-! ## Calls -/

theorem gcdU32_eq (left right : Nat) : gcdU32 left right = left.gcd right := by
  fun_induction gcdU32 left right with
  | case1 left => rw [Nat.gcd_zero_right]
  | case2 left right _ ih => rw [ih, Nat.gcd_comm, ← Nat.gcd_rec, Nat.gcd_comm]

variable (upstreams : List UpstreamNode)

def divisor : Nat := Multiset.gcd (upstreams.map (·.weight.toNat))

/-- The sum of the weights over their greatest common divisor. -/
def period : Nat := (upstreams.map (·.weight.toNat)).sum / divisor upstreams

theorem weightGcd_eq : weightGcd upstreams = divisor upstreams := by
  rw [weightGcd, divisor, Multiset.gcd, Multiset.coe_fold_l, List.foldl_map]
  congr 1
  funext acc node
  split
  · rename_i hzero
    rw [hzero]
    exact (Nat.gcd_zero_left _).symm
  · exact gcdU32_eq ..

section Shares

variable {upstreams}

theorem divisor_dvd {node} (hnode : node ∈ upstreams) : divisor upstreams ∣ node.weight.toNat :=
  Multiset.gcd_dvd (Multiset.mem_coe.mpr (List.mem_map_of_mem hnode))

variable (hsome : upstreams ≠ []) (hpos : ∀ node ∈ upstreams, 0 < node.weight)

include hsome hpos

theorem divisor_pos_le : 0 < divisor upstreams ∧
    divisor upstreams ≤ (upstreams.map (·.weight.toNat)).sum := by
  obtain ⟨node, hnode⟩ := List.exists_mem_of_ne_nil _ hsome
  have hweight := UInt32.lt_iff_toNat_lt.mp (hpos node hnode)
  exact ⟨Nat.pos_of_dvd_of_pos (divisor_dvd hnode) hweight,
    (Nat.le_of_dvd hweight (divisor_dvd hnode)).trans
      (List.le_sum_of_mem (List.mem_map_of_mem hnode))⟩

theorem normalizedWeights_eq : normalizedWeights upstreams =
    upstreams.map fun node => node.weight.toNat / divisor upstreams := by
  rw [normalizedWeights, weightGcd_eq, if_neg (divisor_pos_le hsome hpos).1.ne']

theorem sum_normalizedWeights : (normalizedWeights upstreams).sum = period upstreams := by
  have hweights : upstreams.map (·.weight.toNat) =
      upstreams.map fun node => divisor upstreams * (node.weight.toNat / divisor upstreams) := by
    exact List.map_congr_left fun node hnode => (Nat.mul_div_cancel' (divisor_dvd hnode)).symm
  rw [normalizedWeights_eq hsome hpos, period, hweights, List.sum_map_mul_left,
    Nat.mul_div_cancel_left _ (divisor_pos_le hsome hpos).1]

theorem period_pos : 0 < period upstreams :=
  Nat.div_pos (divisor_pos_le hsome hpos).2 (divisor_pos_le hsome hpos).1

theorem getD_normalizedWeights {index node} (hnode : upstreams[index]? = some node) :
    (normalizedWeights upstreams).getD index 0 = node.weight.toNat / divisor upstreams := by
  rw [normalizedWeights_eq hsome hpos]
  simp [hnode]

variable (hfits : period upstreams * harmonic upstreams.length < 2 ^ 63)

include hfits

omit hpos in
theorem period_lt : period upstreams < 2 ^ 63 := by
  have hone : 1 ≤ harmonic upstreams.length := by
    simpa [harmonic_succ] using harmonic_mono (List.length_pos_iff.mpr hsome)
  have hle := mul_le_mul_of_nonneg_left hone (period upstreams).cast_nonneg
  have hlt : (period upstreams : ℚ) < 2 ^ 63 := by linarith
  exact_mod_cast hlt

theorem selectUpstream_eq (counter : Nat) : selectUpstream upstreams counter =
    .ok (selectedAt (normalizedWeights upstreams) counter) := by
  have hsum := sum_normalizedWeights hsome hpos
  have htotal := period_pos hsome hpos
  have hshort := period_lt hsome hfits
  have hweights : normalizedWeights upstreams ≠ [] := by simpa [normalizedWeights] using hsome
  have hperiodic := selectedAt_periodic hweights (hsum ▸ htotal)
  rw [selectUpstream, hsum, if_neg (by omega), if_neg htotal.ne', ← hsum, hperiodic.map_mod_nat]

end Shares

def counterAt (counter call : Nat) : Nat :=
  (fun value => (weightedRoundRobin upstreams value).2)^[call] counter

section Calls

variable {upstreams} (hsome : upstreams ≠ []) (hpos : ∀ node ∈ upstreams, 0 < node.weight)
  (hfits : period upstreams * harmonic upstreams.length < 2 ^ 63)

include hsome hpos hfits

theorem counterAt_eq {counter call : Nat} (hcall : counter + call < 2 ^ 64) :
    counterAt upstreams counter call = counter + call := by
  induction call with
  | zero => rfl
  | succ call ih =>
    rw [counterAt, Function.iterate_succ_apply', ← counterAt, ih (by omega), weightedRoundRobin,
      selectUpstream_eq hsome hpos hfits]
    exact Nat.mod_eq_of_lt (by omega)

/-- In one period, from any value of the counter on, every upstream is selected as often as
its share of the weights says, and its URL is returned. -/
theorem round_robin_exactly_proportional :
    (∀ counter index node, upstreams[index]? = some node →
      ((Ico counter (counter + period upstreams)).filter fun value =>
        (selectUpstream upstreams value).toOption = some index).card =
          node.weight.toNat / divisor upstreams) ∧
    (∀ counter, ∃ index node, selectUpstream upstreams counter = .ok index ∧
      upstreams[index]? = some node ∧ (weightedRoundRobin upstreams counter).1 = .ok node.url) ∧
    (∀ counter call, counter + call < 2 ^ 64 →
      counterAt upstreams counter call = counter + call) ∧
    (∀ counter, selectUpstream upstreams (counter + period upstreams) =
      selectUpstream upstreams counter) ∧
    (∀ step, ∑ index ∈ range upstreams.length,
      currentWeights (normalizedWeights upstreams) step index = 0) ∧
    ∀ index < upstreams.length,
      currentWeights (normalizedWeights upstreams) (period upstreams) index = 0 ∧
      ∀ step, -2 ^ 63 ≤ currentWeights (normalizedWeights upstreams) step index ∧
        raised (normalizedWeights upstreams)
          (currentWeights (normalizedWeights upstreams) step) index < 2 ^ 63 := by
  have hlen : (normalizedWeights upstreams).length = upstreams.length := List.length_map ..
  have hweights : normalizedWeights upstreams ≠ [] := by simpa [normalizedWeights] using hsome
  have hsum := sum_normalizedWeights hsome hpos
  have htotal : 0 < (normalizedWeights upstreams).sum := hsum ▸ period_pos hsome hpos
  have hselect := selectUpstream_eq hsome hpos hfits
  have hperiodic := selectedAt_periodic hweights htotal
  rw [hsum] at hperiodic
  refine ⟨fun counter index node hnode => ?_, fun counter => ?_,
    fun counter call => counterAt_eq hsome hpos hfits, fun counter => ?_,
    hlen ▸ sum_currentWeights hweights, fun index hindex => ?_⟩
  · have hindex : index < (normalizedWeights upstreams).length :=
      hlen ▸ (List.getElem?_eq_some_iff.mp hnode).1
    simp only [hselect, Except.toOption, Option.some_inj]
    rw [Nat.filter_Ico_card_eq_of_periodic _ _ _ fun value => by rw [hperiodic value],
      ← getD_normalizedWeights hsome hpos hnode, ← picks_period hweights htotal hindex, hsum, picks]
  · have hindex : selectedAt (normalizedWeights upstreams) counter < upstreams.length :=
      hlen ▸ selectedAt_lt hweights
    refine ⟨_, _, hselect counter, List.getElem?_eq_getElem hindex, ?_⟩
    simp [weightedRoundRobin, hselect, hindex]
  · rw [hselect, hselect, hperiodic]
  · rw [← hlen] at hindex
    constructor
    · rw [← hsum, currentWeights_eq, picks_period hweights htotal hindex, sub_self]
    · intro step
      have hlow := neg_total_lt hweights htotal step index
      have hhigh := (raised_le hweights step hindex).trans_lt (by rwa [hsum, hlen])
      have hshort := period_lt hsome hfits
      exact ⟨by omega, by exact_mod_cast hhigh⟩

/-- Of the first calls an upstream gets less than one more than its share, and no more below
it than the harmonic number of the upstreams less one. -/
theorem calls_near_share {calls index node} (hcalls : calls ≤ 2 ^ 64)
    (hnode : upstreams[index]? = some node) :
    let returned := ((range calls).filter fun call =>
      (selectUpstream upstreams (counterAt upstreams 0 call)).toOption = some index).card
    let share := node.weight.toNat / divisor upstreams
    (period upstreams * returned : ℚ) < calls * share + period upstreams ∧
      (calls * share : ℚ) ≤ period upstreams * (returned + (harmonic upstreams.length - 1)) := by
  have hlen : (normalizedWeights upstreams).length = upstreams.length := List.length_map ..
  have hweights : normalizedWeights upstreams ≠ [] := by simpa [normalizedWeights] using hsome
  have hsum := sum_normalizedWeights hsome hpos
  have hindex : index < (normalizedWeights upstreams).length :=
    hlen ▸ (List.getElem?_eq_some_iff.mp hnode).1
  have hreturned : ((range calls).filter fun call =>
      (selectUpstream upstreams (counterAt upstreams 0 call)).toOption = some index).card =
        picks (normalizedWeights upstreams) calls index := by
    rw [picks, Nat.count_eq_card_filter_range]
    refine congrArg card (filter_congr fun call hcall => ?_)
    rw [counterAt_eq hsome hpos hfits (by have := mem_range.mp hcall; omega),
      selectUpstream_eq hsome hpos hfits, Nat.zero_add]
    exact Option.some_inj
  have hlow := neg_total_lt hweights (hsum ▸ period_pos hsome hpos) calls index
  have hhigh := currentWeights_le hweights calls hindex
  rw [currentWeights_eq, getD_normalizedWeights hsome hpos hnode, hsum] at hlow hhigh
  rw [← Int.cast_lt (R := ℚ)] at hlow
  rw [hlen] at hhigh
  simp only [Int.cast_neg, Int.cast_sub, Int.cast_mul, Int.cast_natCast] at hlow hhigh
  simp only [hreturned]
  constructor <;> linarith

end Calls

/-- Weights 2 and 4, from the counter 5 on. -/
theorem round_robin_exactly_proportional_two :
    let upstreams := [UpstreamNode.mk "a" 2, .mk "b" 4]
    ((Ico 5 (5 + period upstreams)).filter fun value =>
      (selectUpstream upstreams value).toOption = some 1).card = 4 / divisor upstreams :=
  (round_robin_exactly_proportional (by decide) (by decide) (by decide +kernel)).1 5 1 ⟨"b", 4⟩ rfl

/-- Two calls with the weights 2 and 4: the first upstream gets less than two of them. -/
theorem calls_near_share_two :
    let upstreams := [UpstreamNode.mk "a" 2, .mk "b" 4]
    (period upstreams * ((range 2).filter fun call =>
      (selectUpstream upstreams (counterAt upstreams 0 call)).toOption = some 0).card : ℚ) <
        2 * (2 / divisor upstreams : Nat) + period upstreams := by
  have hcalls : 2 ≤ 2 ^ 64 := by decide
  have hnode : [UpstreamNode.mk "a" 2, .mk "b" 4][0]? = some ⟨"a", 2⟩ := rfl
  exact (calls_near_share (by decide) (by decide) (by decide +kernel) hcalls hnode).1

/-- Weights without a common divisor. -/
def heavyUpstreams (count : Nat) : List UpstreamNode :=
  List.replicate count ⟨"a", 4294967295⟩ ++ [⟨"b", 1⟩]

theorem sum_heavyUpstreams (count : Nat) :
    (normalizedWeights (heavyUpstreams count)).sum = count * 4294967295 + 1 := by
  have hone : UpstreamNode.mk "b" 1 ∈ heavyUpstreams count :=
    List.mem_append_right _ (List.mem_singleton.mpr rfl)
  have hpos : ∀ node ∈ heavyUpstreams count, 0 < node.weight := by
    refine List.forall_mem_append.mpr ⟨fun node hnode => ?_, by simp⟩
    rw [List.eq_of_mem_replicate hnode]
    decide
  rw [sum_normalizedWeights (List.ne_nil_of_mem hone) hpos, period,
    Nat.dvd_one.mp (divisor_dvd hone), heavyUpstreams]
  simp

/-- More weight than a `usize` holds is refused. -/
theorem heavyUpstreams_refused : selectUpstream (heavyUpstreams (2 ^ 33)) 0 =
    .error "sum of upstream weights overflowed" := by
  rw [selectUpstream, sum_heavyUpstreams]
  exact if_pos (by norm_num)

end RoundRobin

end CyfsGateway.Gateway
