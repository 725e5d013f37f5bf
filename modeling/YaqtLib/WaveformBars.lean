import Mathlib.Algebra.BigOperators.Group.List.Basic
import Mathlib.Algebra.Order.Ring.Rat
import Mathlib.Tactic.FieldSimp
import Mathlib.Tactic.NormNum

/-! The bars of a waveform (`getWaveformData`): the means of as many buckets of samples as there are bars, in exact
rationals. The last bucket takes the samples that are left over; where its sum starts and what it is divided by are
computed apart from each other. -/

namespace YaqtLib

namespace WaveformManager

/-- `(mean + 0.06) / 1.06` -/
def visible (mean : Rat) : Rat := (mean + 6 / 100) / (106 / 100)

def getWaveformData (waveform : List Rat) (count : Int) : List Rat :=
  if count < 1 then []
  else if (waveform.length : Int) = count then waveform
  else if count < waveform.length then
    let chunk := waveform.length / count.toNat
    let remainder := waveform.length % count.toNat
    ((List.range (count.toNat - 1)).map fun i => visible (((waveform.drop (i * chunk)).take chunk).sum / chunk)) ++
      [visible ((waveform.drop (waveform.length - 1 - remainder)).sum / (chunk + remainder : Nat))]
  else waveform ++ List.replicate (count.toNat - waveform.length) (visible 0)

def mean (bucket : List Rat) : Rat := bucket.sum / bucket.length

/-- The bars are the means of consecutive buckets that are not empty and have every sample once. -/
def Partitioned (waveform : List Rat) (count : Nat) : Prop :=
  ∃ buckets : List (List Rat), buckets.flatten = waveform ∧ buckets.length = count ∧ (∀ bucket ∈ buckets, bucket ≠ []) ∧
    getWaveformData waveform count = buckets.map fun bucket => visible (mean bucket)

/-- The buckets of one length, and a last one with what is left over. -/
def buckets (waveform : List Rat) (count : Nat) : List (List Rat) :=
  ((List.range (count - 1)).map fun i =>
      (waveform.drop (i * (waveform.length / count))).take (waveform.length / count)) ++
    [waveform.drop ((count - 1) * (waveform.length / count))]

/-- The samples of the last bucket that its sum leaves out. -/
def skipped (waveform : List Rat) (count : Nat) : List Rat :=
  (waveform.drop ((count - 1) * (waveform.length / count))).take (waveform.length / count - 1)

theorem visible_inj {x y : Rat} : visible x = visible y ↔ x = y := by
  rw [visible, visible, div_left_inj' (by norm_num), add_left_inj]

theorem flatten_chunks (waveform : List Rat) (chunk k : Nat) :
    ((List.range k).map fun i => (waveform.drop (i * chunk)).take chunk).flatten = waveform.take (k * chunk) := by
  induction k with
  | zero => rw [List.range_zero, List.map_nil, List.flatten_nil, Nat.zero_mul, List.take_zero]
  | succ k ih =>
      rw [List.range_succ, List.map_append, List.flatten_append, ih, List.map_singleton, List.flatten_singleton,
        Nat.succ_mul, List.take_add]

section Buckets

variable {waveform : List Rat} {k : Nat}

/-- The length of the buckets and what is left over, of one bar more than `k`. -/
theorem length_eq (waveform : List Rat) (k : Nat) :
    waveform.length = k * (waveform.length / (k + 1)) + waveform.length / (k + 1) + waveform.length % (k + 1) := by
  have hdiv := Nat.div_add_mod waveform.length (k + 1)
  rw [Nat.add_mul, Nat.one_mul] at hdiv
  exact hdiv.symm

theorem chunk_pos (h : k + 1 < waveform.length) : 0 < waveform.length / (k + 1) :=
  Nat.div_pos h.le (Nat.succ_pos k)

theorem length_chunk {i : Nat} (hi : i < k) :
    ((waveform.drop (i * (waveform.length / (k + 1)))).take (waveform.length / (k + 1))).length =
      waveform.length / (k + 1) := by
  have hlength := length_eq waveform k
  have hle : (i + 1) * (waveform.length / (k + 1)) ≤ k * (waveform.length / (k + 1)) := Nat.mul_le_mul_right _ hi
  rw [Nat.succ_mul] at hle
  rw [List.length_take, List.length_drop]
  omega

theorem flatten_buckets (waveform : List Rat) (k : Nat) : (buckets waveform (k + 1)).flatten = waveform := by
  rw [buckets, Nat.add_sub_cancel, List.flatten_append, flatten_chunks, List.flatten_singleton, List.take_append_drop]

theorem length_buckets (waveform : List Rat) (k : Nat) : (buckets waveform (k + 1)).length = k + 1 := by
  rw [buckets, List.length_append, List.length_map, List.length_range, Nat.add_sub_cancel, List.length_singleton]

theorem ne_nil_of_mem_buckets (h : k + 1 < waveform.length) : ∀ bucket ∈ buckets waveform (k + 1), bucket ≠ [] := by
  have hlength := length_eq waveform k
  have hpos := chunk_pos h
  intro bucket hmem
  rw [← List.length_pos_iff]
  rw [buckets, Nat.add_sub_cancel] at hmem
  rcases List.mem_append.mp hmem with hmem | hmem
  · obtain ⟨i, hi, rfl⟩ := List.mem_map.mp hmem
    rw [length_chunk (List.mem_range.mp hi)]
    exact hpos
  · rw [List.mem_singleton.mp hmem, List.length_drop]
    omega

/-- The last bucket begins with what its sum leaves out. -/
theorem last_bucket_eq (h : k + 1 < waveform.length) :
    waveform.drop (k * (waveform.length / (k + 1))) =
      skipped waveform (k + 1) ++ waveform.drop (waveform.length - 1 - waveform.length % (k + 1)) := by
  have hlength := length_eq waveform k
  have hpos := chunk_pos h
  have hdrop : waveform.drop (waveform.length - 1 - waveform.length % (k + 1)) =
      (waveform.drop (k * (waveform.length / (k + 1)))).drop (waveform.length / (k + 1) - 1) := by
    rw [List.drop_drop]
    congr 1
    omega
  rw [skipped, Nat.add_sub_cancel, hdrop, List.take_append_drop]

theorem getWaveformData_eq (h : k + 1 < waveform.length) :
    getWaveformData waveform (k + 1 : Nat) =
      ((List.range k).map fun i => visible
        (((waveform.drop (i * (waveform.length / (k + 1)))).take (waveform.length / (k + 1))).sum /
          (waveform.length / (k + 1) : Nat))) ++
      [visible ((waveform.drop (waveform.length - 1 - waveform.length % (k + 1))).sum /
        (waveform.length / (k + 1) + waveform.length % (k + 1) : Nat))] := by
  rw [getWaveformData, if_neg (by omega), if_neg (by omega), if_pos (by exact_mod_cast h), Int.toNat_natCast,
    Nat.add_sub_cancel]

/-- The bars are the means of the buckets exactly if the samples that are left out sum up to zero. -/
theorem getWaveformData_eq_buckets_iff (h : k + 1 < waveform.length) :
    getWaveformData waveform (k + 1 : Nat) = (buckets waveform (k + 1)).map (fun bucket => visible (mean bucket)) ↔
      (skipped waveform (k + 1)).sum = 0 := by
  have hlength := length_eq waveform k
  have hpos := chunk_pos h
  have hfirst : ((List.range k).map fun i => visible
        (((waveform.drop (i * (waveform.length / (k + 1)))).take (waveform.length / (k + 1))).sum /
          (waveform.length / (k + 1) : Nat))) =
      ((List.range k).map fun i =>
        (waveform.drop (i * (waveform.length / (k + 1)))).take (waveform.length / (k + 1))).map
          fun bucket => visible (mean bucket) := by
    rw [List.map_map]
    apply List.map_congr_left
    intro i hi
    rw [Function.comp_apply, mean, length_chunk (List.mem_range.mp hi)]
  have hlast : (waveform.drop (k * (waveform.length / (k + 1)))).length =
      waveform.length / (k + 1) + waveform.length % (k + 1) := by
    rw [List.length_drop]
    omega
  have hne : ((waveform.length / (k + 1) + waveform.length % (k + 1) : Nat) : Rat) ≠ 0 :=
    Nat.cast_ne_zero.mpr (by omega)
  rw [getWaveformData_eq h, hfirst, buckets, Nat.add_sub_cancel, List.map_append, List.append_cancel_left_eq,
    List.map_singleton, List.singleton_inj, visible_inj, mean, hlast, div_left_inj' hne, last_bucket_eq h,
    List.sum_append, right_eq_add]

theorem length_getWaveformData (h : k + 1 < waveform.length) : (getWaveformData waveform (k + 1 : Nat)).length = k + 1 := by
  rw [getWaveformData_eq h, List.length_append, List.length_map, List.length_range, List.length_singleton]

/-- The buckets have one sample each, but for the last one, just if there are less than two samples a bar. -/
theorem chunk_eq_one_iff (h : k + 1 < waveform.length) :
    waveform.length / (k + 1) = 1 ↔ waveform.length < 2 * (k + 1) := by
  rw [Nat.div_eq_iff (Nat.succ_pos k)]
  omega

theorem partitioned_of_lt (h : k + 1 < waveform.length) (hlt : waveform.length < 2 * (k + 1)) :
    Partitioned waveform (k + 1) := by
  refine ⟨buckets waveform (k + 1), flatten_buckets waveform k, length_buckets waveform k, ne_nil_of_mem_buckets h, ?_⟩
  rw [getWaveformData_eq_buckets_iff h, skipped, (chunk_eq_one_iff h).mpr hlt, Nat.sub_self, List.take_zero, List.sum_nil]

end Buckets

/-! ### Constant waveforms -/

theorem mean_of_forall_eq {bucket : List Rat} {c : Rat} (hne : bucket ≠ []) (h : ∀ x ∈ bucket, x = c) :
    mean bucket = c := by
  have hlength : (bucket.length : Rat) ≠ 0 := Nat.cast_ne_zero.mpr fun hzero => hne (List.length_eq_zero_iff.mp hzero)
  rw [mean, List.eq_replicate_of_mem h, List.sum_replicate, List.length_replicate, nsmul_eq_mul,
    mul_div_cancel_left₀ c hlength]

/-- The means of a constant waveform are constant for any buckets. -/
theorem map_mean_of_constant {bars : List (List Rat)} {n : Nat} {c : Rat} (hflatten : bars.flatten = List.replicate n c)
    (hne : ∀ bucket ∈ bars, bucket ≠ []) :
    (bars.map fun bucket => visible (mean bucket)) = List.replicate bars.length (visible c) := by
  rw [← List.map_const']
  apply List.map_congr_left
  intro bucket hmem
  rw [mean_of_forall_eq (hne bucket hmem)]
  intro x hx
  exact List.eq_of_mem_replicate (hflatten ▸ List.mem_flatten.mpr ⟨bucket, hmem, hx⟩)

theorem sum_skipped_replicate {n k : Nat} (h : k + 1 < n) (c : Rat) :
    (skipped (List.replicate n c) (k + 1)).sum = (n / (k + 1) - 1 : Nat) * c := by
  have hlength := length_eq (List.replicate n c) k
  rw [List.length_replicate] at hlength
  have hpos : 0 < n / (k + 1) := Nat.div_pos h.le (Nat.succ_pos k)
  have hmin : min (n / (k + 1) - 1) (n - k * (n / (k + 1))) = n / (k + 1) - 1 := by omega
  rw [skipped, List.length_replicate, Nat.add_sub_cancel, List.drop_replicate, List.take_replicate, hmin,
    List.sum_replicate, nsmul_eq_mul]

/-- A constant waveform has constant bars just if no sample of it is left out or it is zero. -/
theorem getWaveformData_replicate_iff {n k : Nat} (h : k + 1 < n) (c : Rat) :
    getWaveformData (List.replicate n c) (k + 1 : Nat) = List.replicate (k + 1) (visible c) ↔ n < 2 * (k + 1) ∨ c = 0 := by
  have hlength : k + 1 < (List.replicate n c).length := by rwa [List.length_replicate]
  have hbars := map_mean_of_constant (flatten_buckets (List.replicate n c) k) (ne_nil_of_mem_buckets hlength)
  have hone := chunk_eq_one_iff hlength
  have hpos := chunk_pos hlength
  rw [List.length_replicate] at hone hpos
  rw [length_buckets] at hbars
  rw [← hbars, getWaveformData_eq_buckets_iff hlength, sum_skipped_replicate h, mul_eq_zero, Nat.cast_eq_zero, ← hone]
  exact or_congr_left (by omega)

/-- **The bars of a waveform.** There are as many as asked for; whatever the samples, they are the means of buckets that
have every sample once exactly if there are less than two samples a bar. Of one waveform they are the means of its
buckets exactly if the samples that the last sum leaves out sum up to zero, and a constant waveform has constant bars
exactly if it has less than two samples a bar or is zero. -/
theorem partitioned_iff {n count : Nat} (hcount : 1 ≤ count) (h : count < n) :
    ((∀ waveform : List Rat, waveform.length = n → Partitioned waveform count) ↔ n < 2 * count) ∧
    (∀ waveform : List Rat, waveform.length = n → (getWaveformData waveform count).length = count ∧
      (getWaveformData waveform count = (buckets waveform count).map (fun bucket => visible (mean bucket)) ↔
        (skipped waveform count).sum = 0)) ∧
    ∀ c : Rat, getWaveformData (List.replicate n c) count = List.replicate count (visible c) ↔
      n < 2 * count ∨ c = 0 := by
  obtain ⟨k, rfl⟩ := Nat.exists_eq_add_of_le' hcount
  refine ⟨⟨fun hall => ?_, fun hlt waveform hlength => ?_⟩, fun waveform hlength => ?_,
    getWaveformData_replicate_iff h⟩
  · -- all samples alike: the last bar is too low
    obtain ⟨bars, hflatten, hlength, hne, hdata⟩ := hall (List.replicate n 1) List.length_replicate
    rw [map_mean_of_constant hflatten hne, hlength] at hdata
    exact ((getWaveformData_replicate_iff h 1).mp hdata).resolve_right one_ne_zero
  · subst hlength
    exact partitioned_of_lt h hlt
  · subst hlength
    exact ⟨length_getWaveformData h, getWaveformData_eq_buckets_iff h⟩

/-- Three samples on two bars. -/
theorem partitioned_three : Partitioned [1, 0, 1] 2 :=
  ((@partitioned_iff 3 2 (by decide) (by decide)).1).mpr (by decide) [1, 0, 1] rfl

/-- Two samples on one bar: the first one is left out, and the bar is half as high. -/
theorem not_partitioned :
    ¬ ∀ (waveform : List Rat) (count : Nat), 1 ≤ count → count < waveform.length → Partitioned waveform count := by
  intro h
  obtain ⟨bars, hflatten, hlength, hne, hdata⟩ := h (List.replicate 2 1) 1 (by decide) (by decide)
  rw [map_mean_of_constant hflatten hne, hlength] at hdata
  have hone := (@getWaveformData_replicate_iff 2 0 (by decide) 1).mp hdata
  exact hone.elim (by decide) one_ne_zero

end WaveformManager

end YaqtLib
